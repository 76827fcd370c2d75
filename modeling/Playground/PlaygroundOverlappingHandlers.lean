import Playground.PlaygroundResources

/-! # Overlapping handlers of one session

A removal tears down without waiting for the handlers that still provision. What is created
while the session is in the map is dropped by whoever removes it; what is created later is
dropped only if the call that drops it is still ahead. -/
namespace PlaygroundOverlappingHandlers

open HashMaps
open InteractionPrograms
open PlaygroundApiClient
open PlaygroundCleanup
open PlaygroundHandlers
open PlaygroundManagerRuns
open PlaygroundManifest (Manifest)
open PlaygroundOperations
open PlaygroundResources
open PlaygroundServer
open PlaygroundSessionManager
open PlaygroundSessions

inductive Role where
  | create (body : CreateSessionBody)
  | reset (identity : Identity)
  | endSession (identity : Identity)
  | reaper (ticks : ℕ)
  deriving DecidableEq, Repr

/-- The handler in each role; `identity` is the one that creates the session. -/
def Role.program (env : ServerEnv) (identity : Identity) (id : Uuid) : Role → Handler Unit
  | .create body => bestEffort (createSession env identity id body)
  | .reset other => bestEffort (resetSession env other id)
  | .endSession other => bestEffort (PlaygroundHandlers.endSession env other id)
  | .reaper ticks => spawnSessionReaper env ticks

def Provisioned (n : Names) : Resource → Prop
  | .shuttle name _ _ => name = n.shuttleName
  | .connection name => name = n.connectionName
  | .catalogNamespace _ => False
  | .source sidecar name => sidecar ≠ .redis ∧ name = n.namespaceName

theorem Provisioned.owned {n : Names} {x : Resource} (h : Provisioned n x) : OwnedBy n x := by
  cases x with
  | shuttle name connection target =>
    cases h
    exact .shuttle _ _
  | connection name =>
    cases h
    exact .connection
  | catalogNamespace name => cases h
  | source sidecar name =>
    obtain ⟨_, rfl⟩ := h
    exact .source sidecar

section Pools

variable {ι : Type} [DecidableEq ι] {sha256 : String → Digest} {outside : Outside}
  {env : ServerEnv} {identity : Identity} {id : Uuid} {n : Names} {x : Resource}

def Pending (x : Resource) (q : HandlerPool ι) (i : ι) : Prop :=
  (q.thread i).Eventually anyResult fun op => Drops op x

/-- A call that creates a resource of the session is made while the session is in the map, or
while another handler has yet to drop that resource. -/
def Timely (outside : Outside) (n : Names) : Guard ι Op Op.Result Unit ServerState
  | q, i, .external c, _, _ => ∀ x ∈ outside.creates c, Provisioned n x →
    Held n q.state.manager ∨ ∃ j, j ≠ i ∧ Pending x q j
  | _, _, _, _, _ => True

def InTime (outside : Outside) (n : Names) : Guard ι Op Op.Result Unit ServerState :=
  fun q i op r s => CallsSucceed q i op r s ∧ Timely outside n q i op r s

def CreatesOnly (identity : Identity) (id : Uuid) (o : ManagerOp) : Prop :=
  ∀ a, o = .create a → a.id = id ∧ a.userId = identity.userId

/-- A resource of the session is accounted for: its session is in the map, or a handler has
its removal ahead. -/
def Accounted (n : Names) (x : Resource) (q : HandlerPool ι) : Prop :=
  x ∈ q.state.world → Held n q.state.manager ∨ ∃ i, Pending x q i

theorem role_creates (role : Role) :
    (role.program env identity id).Always anyResult (AsksOnly (CreatesOnly identity id)) := by
  cases role with
  | create body =>
    refine bestEffort_ops (createSession_ops ?_ ?_)
    · rintro a ⟨⟩
      exact ⟨rfl, rfl⟩
    · rintro session u _ a ⟨⟩
  | reset other =>
    refine bestEffort_ops (resetSession_ops ?_ ?_)
    · rintro a ⟨⟩
    · rintro u a ⟨⟩
  | endSession other =>
    refine bestEffort_ops (endSession_ops ?_)
    rintro a ⟨⟩
  | reaper ticks =>
    refine reaper_ops ?_
    rintro a ⟨⟩

theorem role_leadsTo (hclient : env.apiClient.isSome = true)
    (hx : OwnedBy (namesOf sha256 identity.userId id) x) (role : Role) :
    (role.program env identity id).LeadsTo anyResult (fun op => Drops op x)
      (Takes (namesOf sha256 identity.userId id)) := by
  cases role with
  | create body =>
    exact keeps_leadsTo (bestEffort_ops (createSession_ops rfl fun _ _ _ => rfl))
  | reset other => exact keeps_leadsTo (bestEffort_ops (resetSession_ops rfl fun _ => rfl))
  | endSession other => exact (endSession_leadsTo rfl hclient hx).bind fun _ => trivial
  | reaper ticks => exact reaper_leadsTo rfl hclient hx

def Keyed (n : Names) (id : Uuid) (m : SessionManager) : Prop :=
  ∀ j s, m.sessions.lookup j = some s → sessionNames s = n → j = id

theorem keyed_step {m : SessionManager} {now : Clock} {o : ManagerOp}
    (ho : CreatesOnly identity id o) (h : Keyed n id m) : Keyed n id (o.run sha256 m now).2 := by
  intro j s hs hnames
  cases run_origin hs with
  | kept hk => exact h j s hk hnames
  | created hcreate hid _ _ =>
    rw [← hid]
    exact (ho _ hcreate).1
  | updated _ hk _ =>
    rw [SameSession.names (apply_same _ _ _)] at hnames
    exact h j _ hk hnames
  | touched _ hk _ => exact h j _ hk hnames

variable {p q : HandlerPool ι} {i : ι}

theorem accounted_step (hdrops : DropsNamed outside) (hx : Provisioned n x)
    {op : Op} {next : op.Result → Handler Unit} {r : op.Result} {s : ServerState}
    (ht : q.thread i = .request op next) (hs : ServerStep sha256 outside q.state op r s)
    (hg : InTime outside n q i op r s)
    (hcreate : ∀ a, op = .manager (.create a) → namesOf sha256 a.userId a.id = n)
    (hleads : (q.thread i).LeadsTo anyResult (fun op => Drops op x) (Takes n))
    (h : Accounted n x q) : Accounted n x (q.advance i (next r) s) := by
  have hkept : ¬ Drops op x → (Held n q.state.manager ∨ ∃ j, Pending x q j) →
      Held n s.manager ∨ ∃ j, Pending x (q.advance i (next r) s) j := by
    rintro hop (hheld | ⟨j, hj⟩)
    · rw [ht] at hleads
      refine (held_advance hs hcreate hleads hheld).imp_right fun hdrop => ⟨i, ?_⟩
      simpa [Pending] using hdrop
    · rcases Pool.eventually_advance (s := s) ht trivial hj with hj | hdrop
      · exact Or.inr ⟨j, hj⟩
      · exact absurd hdrop hop
  intro hw
  rw [Pool.advance_state] at hw ⊢
  cases op with
  | manager o =>
    obtain ⟨now, _, rfl, rfl⟩ := hs
    exact hkept (fun hd => by cases hd) (h hw)
  | external c =>
    obtain ⟨_, world, hafter, rfl⟩ := hs
    rcases after_success hafter hg.1 hw with ⟨hin, hleft⟩ | hnew
    · refine hkept (fun hd => ?_) (h hin)
      rw [hdrops c x hd] at hleft
      cases hleft
    · rcases hg.2 x hnew hx with hheld | ⟨j, hne, hj⟩
      · exact Or.inl hheld
      · refine Or.inr ⟨j, ?_⟩
        unfold Pending
        rwa [Pool.advance_other _ _ _ hne]
  | _ =>
    rw [(step_other hs (by simp) (by simp)).2] at hw
    exact hkept (fun hd => by cases hd) (h hw)

/-- Once all handlers of a session have returned and it is not in the map, nothing that was
provisioned for it is left. -/
theorem no_orphan (env : ServerEnv) (identity : Identity)
    (hclient : env.apiClient.isSome = true) (hdrops : DropsNamed outside)
    (roles : ι → Role) (hp : ∀ i, p.thread i = (roles i).program env identity id)
    (hnew : ∀ j s, p.state.manager.sessions.lookup j = some s →
      sessionNames s ≠ namesOf sha256 identity.userId id)
    (hworld : ∀ x ∈ p.state.world, ¬ Provisioned (namesOf sha256 identity.userId id) x)
    (h : Execution (ServerStep sha256 outside)
      (InTime outside (namesOf sha256 identity.userId id)) p q)
    (hdone : q.Finished) (hgone : q.state.manager.sessions.lookup id = none) :
    ∀ x ∈ q.state.world, ¬ Provisioned (namesOf sha256 identity.userId id) x := by
  intro x hxw hx
  have hresult : ∀ s op r s', ServerStep sha256 outside s op r s' → anyResult op r :=
    fun _ _ _ _ _ => trivial
  have hinv := h.invariant (I := fun q =>
      (∀ i, (q.thread i).Always anyResult (AsksOnly (CreatesOnly identity id))) ∧
      (∀ i, (q.thread i).LeadsTo anyResult (fun op => Drops op x)
        (Takes (namesOf sha256 identity.userId id))) ∧
      Keyed (namesOf sha256 identity.userId id) id q.state.manager ∧
      Accounted (namesOf sha256 identity.userId id) x q) ?_ ?_
  · obtain ⟨_, _, hkeyed, hacc⟩ := hinv
    rcases hacc hxw with ⟨j, s, hs, hnames⟩ | ⟨i, hi⟩
    · rw [hkeyed j s hs hnames, hgone] at hs
      cases hs
    · obtain ⟨a, ha⟩ := hdone i
      rw [Pending, ha] at hi
      exact hi
  · refine ⟨fun i => ?_, fun i => ?_, ?_, ?_⟩
    · rw [hp]
      exact role_creates (roles i)
    · rw [hp]
      exact role_leadsTo hclient hx.owned (roles i)
    · exact fun j s hs hnames => absurd hnames (hnew j s hs)
    · exact fun hw => absurd hx (hworld x hw)
  · intro q i op next r s hq ht hs hg
    obtain ⟨hcreates, hleads, hkeyed, hacc⟩ := hq
    have hstep := Execution.tail i (.refl q) ht hs hg
    have hasks := hcreates i
    rw [ht] at hasks
    refine ⟨fun j => hstep.always hresult (hcreates j), fun j => hstep.leadsTo hresult (hleads j),
      ?_, ?_⟩
    · rw [Pool.advance_state]
      cases op with
      | manager o =>
        obtain ⟨now, _, _, rfl⟩ := hs
        exact keyed_step hasks.1 hkeyed
      | _ =>
        rw [step_manager hs (by simp)]
        exact hkeyed
    · refine accounted_step hdrops hx ht hs hg ?_ (hleads i) hacc
      rintro a rfl
      obtain ⟨hid, hu⟩ := hasks.1 a rfl
      rw [hid, hu]

end Pools

section Schedules

def postgresScenario : Manifest :=
  { version := 1
    sources := [⟨"postgres", some "postgres"⟩]
    scenarios := [{
      id := "postgres-cdc"
      sourceId := "postgres"
      deployment := []
      initSql := none
      shuttleSql := none
      actions := []
      breakScenarios := [] }] }

def onPostgres : ServerEnv := { configured with manifest := postgresScenario }

/-- The sidecars create what is provisioned, and every deletion takes effect. -/
def sidecars : Outside :=
  { reply := fun _ c r => r = accepted c
    creates := fun c =>
      match c with
      | .dispatcher (.provision sidecar name) => [.source sidecar name]
      | _ => []
    removes := dropsNamed }

theorem sidecars_dropsNamed : DropsNamed sidecars := fun _ _ h => dropsNamed_iff.mpr h

def createAndEnd : Bool → Role
  | false => .create ⟨"postgres-cdc", none⟩
  | true => .endSession alice

def beforeCreate : HandlerPool Bool :=
  { thread := fun i => (createAndEnd i).program onPostgres alice 1
    state :=
      { manager := .new postgresScenario true defaultTtl
        clock := atSecond 0
        file := none
        tmp := none
        world := [] } }

def settled (q : HandlerPool Bool) : Bool :=
  (q.thread false).isDone && (q.thread true).isDone &&
    (q.state.manager.sessions.lookup 1).isNone

theorem settled_finished {q : HandlerPool Bool} (h : settled q = true) :
    q.Finished ∧ q.state.manager.sessions.lookup 1 = none := by
  simp only [settled, Bool.and_eq_true, Program.isDone_iff, Option.isNone_iff_eq_none] at h
  refine ⟨fun j => ?_, h.2⟩
  cases j with
  | false => exact h.1.1
  | true => exact h.1.2

def handlerOrder (runs : List (Bool × ℕ)) : List (Bool × Unit) :=
  runs.flatMap fun run => List.replicate run.2 (run.1, ())

def play (s : ServerState) (op : Op) : Option (op.Result × ServerState) :=
  s.carryOut (fun _ => 0) sidecars (fun _ => accepted) (atSecond 0) op

theorem play_step {s s' : ServerState} {op : Op} {r : op.Result} (h : play s op = some (r, s')) :
    ServerStep (fun _ => 0) sidecars s op r s' := carryOut_step (fun _ _ => rfl) h

theorem play_succeeds {q : HandlerPool Bool} {i : Bool} {op : Op} {r : op.Result}
    {s' : ServerState} (h : play q.state op = some (r, s')) : CallsSucceed q i op r s' := by
  cases op with
  | external c =>
    cases h
    exact accepted_succeeds c
  | _ => trivial

def schema : Resource := .source .postgres aliceNames.namespaceName

def playInTime (s : ServerState) (op : Op) : Option (op.Result × ServerState) :=
  match op with
  | .external c =>
    if (sidecars.creates c).isEmpty || (values s.manager.sessions).any fun t =>
        sessionNames t == aliceNames
    then play s (.external c) else none
  | op => play s op

theorem playInTime_step {q : HandlerPool Bool} {i : Bool} {op : Op} {r : op.Result}
    {s' : ServerState} (h : playInTime q.state op = some (r, s')) :
    ServerStep (fun _ => 0) sidecars q.state op r s' ∧
      InTime sidecars aliceNames q i op r s' := by
  cases op with
  | external c =>
    simp only [playInTime] at h
    split at h
    · rename_i hcheck
      refine ⟨play_step h, play_succeeds h, ?_⟩
      intro x hx _
      rcases (Bool.or_eq_true _ _).mp hcheck with hempty | hheld
      · rw [List.isEmpty_iff.mp hempty] at hx
        cases hx
      · obtain ⟨t, ht, hnames⟩ := List.any_eq_true.mp hheld
        obtain ⟨j, hj⟩ := mem_values.mp ht
        exact Or.inl ⟨j, t, hj, by simpa using hnames⟩
    · cases h
  | _ => exact ⟨play_step h, trivial, trivial⟩

/-- The session is created, provisioned, and ended afterwards. -/
theorem no_orphan_sequential : ∃ q : HandlerPool Bool,
    Execution (ServerStep (fun _ => 0) sidecars)
      (InTime sidecars aliceNames) beforeCreate q ∧ q.Finished ∧
    ∀ x ∈ q.state.world, ¬ Provisioned aliceNames x := by
  obtain ⟨q, hq, hcheck⟩ : ∃ q, beforeCreate.replay (fun _ p op => playInTime p.state op)
      (handlerOrder [(false, 16), (true, 16)]) = some q ∧ settled q = true :=
    (Option.any_eq_true _ _).mp (by decide +kernel)
  obtain ⟨hdone, hgone⟩ := settled_finished hcheck
  have hrun : Execution (ServerStep (fun _ => 0) sidecars)
      (InTime sidecars aliceNames) beforeCreate q :=
    Pool.replay_execution (fun _ _ _ _ _ _ hr => playInTime_step hr) _ hq
  refine ⟨q, hrun, hdone, ?_⟩
  refine no_orphan onPostgres alice rfl sidecars_dropsNamed createAndEnd
    (fun _ => rfl) ?_ ?_ hrun hdone hgone
  · intro j s hs
    cases hs
  · intro x hx
    cases hx

/-- The session is ended between its insertion and the provisioning of its schema. -/
theorem late_schema_left : ¬ ∀ (sha256 : String → Digest) (outside : Outside) (env : ServerEnv)
    (identity : Identity) (id : Uuid) (roles : Bool → Role) (p q : HandlerPool Bool),
    env.apiClient.isSome = true → DropsNamed outside →
    (∀ i, p.thread i = (roles i).program env identity id) →
    (∀ j s, p.state.manager.sessions.lookup j = some s →
      sessionNames s ≠ namesOf sha256 identity.userId id) →
    (∀ x ∈ p.state.world, ¬ Provisioned (namesOf sha256 identity.userId id) x) →
    Execution (ServerStep sha256 outside) CallsSucceed p q → q.Finished →
    q.state.manager.sessions.lookup id = none →
    ∀ x ∈ q.state.world, ¬ Provisioned (namesOf sha256 identity.userId id) x := by
  intro h
  obtain ⟨q, hq, hcheck⟩ : ∃ q, beforeCreate.replay (fun _ p op => play p.state op)
      (handlerOrder [(false, 6), (true, 16), (false, 4)]) = some q ∧
      (settled q && q.state.world.contains schema) = true :=
    (Option.any_eq_true _ _).mp (by decide +kernel)
  rw [Bool.and_eq_true, List.contains_iff_mem] at hcheck
  obtain ⟨hdone, hgone⟩ := settled_finished hcheck.1
  have hrun : Execution (ServerStep (fun _ => 0) sidecars) CallsSucceed beforeCreate q :=
    Pool.replay_execution (fun _ _ _ _ _ _ hr => ⟨play_step hr, play_succeeds hr⟩) _ hq
  refine h _ sidecars onPostgres alice 1 createAndEnd beforeCreate q rfl sidecars_dropsNamed
    (fun _ => rfl) ?_ ?_ hrun hdone hgone schema hcheck.2 ?_
  · intro j s hs
    cases hs
  · intro x hx
    cases hx
  · exact ⟨by decide, rfl⟩

end Schedules

end PlaygroundOverlappingHandlers
