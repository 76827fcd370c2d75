import Playground.PlaygroundActions
import Playground.PlaygroundResources

/-! # Actions on live sessions

An action is started on the word of `touch_action`, which looks neither at the status nor at
the deadlines. It runs on a live session when the touch found one and nobody interfered. -/
namespace PlaygroundLiveActions

open HashMaps
open InteractionPrograms
open PlaygroundActions
open PlaygroundApiClient
open PlaygroundCleanup
open PlaygroundHandlers
open PlaygroundManagerRuns
open PlaygroundManifest (Action Manifest)
open PlaygroundOperations
open PlaygroundResources
open PlaygroundServer
open PlaygroundSessionManager
open PlaygroundSessions

inductive Role where
  | create (identity : Identity) (id : Uuid) (body : CreateSessionBody)
  | view (identity : Identity) (id : Uuid)
  | reset (identity : Identity) (id : Uuid)
  | extend (identity : Identity) (id : Uuid) (seconds : UInt64)
  | endSession (identity : Identity) (id : Uuid)
  | action (identity : Identity) (id : Uuid) (actionId : String)
  | reaper (ticks : ℕ)
  deriving DecidableEq, Repr

def Role.program (env : ServerEnv) : Role → Handler Unit
  | .create identity id body => bestEffort (createSession env identity id body)
  | .view identity id => bestEffort (getSession env identity id)
  | .reset identity id => bestEffort (resetSession env identity id)
  | .extend identity id seconds => bestEffort (extendSession env identity id seconds)
  | .endSession identity id => bestEffort (PlaygroundHandlers.endSession env identity id)
  | .action identity id actionId => bestEffort (executeAction env identity id actionId)
  | .reaper ticks => spawnSessionReaper env ticks

def StartsAction (id : Uuid) (op : Op) : Prop := ∃ actionId, op = .actionStart id actionId

/-- An accepted `touch_action`. -/
def Touched (id : Uuid) : (op : Op) → op.Result → Prop
  | .manager (.touchAction j _), r => j = id ∧ r = .ok ()
  | _, _ => False

def Active (m : SessionManager) (id : Uuid) : Prop :=
  ∃ s, m.sessions.lookup id = some s ∧ s.status = .active

/-- In the map, active and not expired. -/
def Live (m : SessionManager) (now : Clock) (id : Uuid) : Prop :=
  ∃ s, m.sessions.lookup id = some s ∧ s.status = .active ∧ s.isExpired now = false

/-- The operation replaces, ends or resets the session in the map under this id. -/
def Disturbs (m : SessionManager) (id : Uuid) : ManagerOp → Prop
  | .create a => a.id = id
  | .endSession j userId => j = id ∧ ∃ s, m.sessions.lookup id = some s ∧ s.userId = userId
  | .update j userId .resetStart =>
    j = id ∧ ∃ s, m.sessions.lookup id = some s ∧ s.userId = userId
  | _ => False

/-- Every start of an action on the session comes directly after an accepted touch. -/
def Checked {α : Type} (id : Uuid) (p : Handler α) : Prop :=
  ¬ p.Starts (StartsAction id) ∧ p.OnlyAfter anyResult (StartsAction id) (Touched id)

section Programs

variable {env : ServerEnv} {identity : Identity} {id : Uuid}

theorem asksOnly_starts {α : Type} {p : Handler α}
    (h : p.Always anyResult (AsksOnly fun _ => True)) :
    p.Always anyResult fun op => ¬ StartsAction id op := by
  refine h.mono ?_
  rintro op hop ⟨actionId, rfl⟩
  exact hop

theorem asksOnly_checked {α : Type} {p : Handler α}
    (h : p.Always anyResult (AsksOnly fun _ => True)) : Checked id p :=
  ⟨(asksOnly_starts h).not_starts, .of_always (asksOnly_starts h)⟩

theorem runTimed_onlyAfter {j : Uuid} {session : Session} {actionId : String} {action : Action} :
    (runTimed env identity j session actionId action).OnlyAfter anyResult (StartsAction id)
      (Touched id) := by
  refine Program.OnlyAfter.of_next fun _ _ => asksOnly_starts ?_
  refine runAction_ops.bind fun result => ⟨trivial, fun _ _ => ?_⟩
  exact recordActionError_ops.bind fun _ => (bestEffort_ops (update_ops trivial)).bind
    fun _ => trivial

theorem executeAction_checked {j : Uuid} {actionId : String} :
    Checked id (executeAction env identity j actionId) := by
  unfold executeAction
  split
  · exact ⟨fun hs => hs.elim, trivial⟩
  · constructor
    · rintro ⟨a, ha⟩
      cases ha
    · intro r _
      cases r with
      | error e => exact ⟨fun hs => hs.elim, trivial⟩
      | ok session =>
        refine ⟨?_, fun r _ => ?_⟩
        · rintro ⟨a, ha⟩
          cases ha
        · cases r with
          | error e => exact ⟨fun hs => hs.elim, trivial⟩
          | ok _ =>
            dsimp only
            cases findAction env session actionId with
            | error e => exact ⟨fun hs => hs.elim, trivial⟩
            | ok action =>
              refine ⟨?_, runTimed_onlyAfter⟩
              rintro ⟨a, ha⟩
              cases ha
              exact ⟨rfl, rfl⟩

theorem role_checked (role : Role) : Checked id (role.program env) := by
  cases role with
  | create identity j body =>
    exact asksOnly_checked (bestEffort_ops (createSession_ops trivial fun _ _ _ => trivial))
  | view identity j => exact asksOnly_checked (bestEffort_ops (getSession_ops trivial))
  | reset identity j =>
    exact asksOnly_checked (bestEffort_ops (resetSession_ops trivial fun _ => trivial))
  | extend identity j seconds =>
    exact asksOnly_checked (bestEffort_ops (extendSession_ops trivial fun _ => trivial))
  | endSession identity j => exact asksOnly_checked (bestEffort_ops (endSession_ops trivial))
  | action identity j actionId =>
    obtain ⟨hstarts, honly⟩ := @executeAction_checked env identity id j actionId
    have hreturn : ∀ _ : Except Failure ActionResponse,
        ¬ (Program.done () : Handler Unit).Starts (StartsAction id) := fun _ hd => hd
    exact ⟨fun hs => hstarts (Program.starts_of_bind hreturn hs),
      honly.bind (fun _ => trivial) hreturn⟩
  | reaper ticks => exact asksOnly_checked (reaper_ops trivial)

end Programs

section Steps

variable {sha256 : String → Digest} {m : SessionManager} {now : Clock} {id : Uuid}

theorem apply_active {u : SessionUpdate} {s : Session} (hu : u ≠ .resetStart)
    (h : s.status = .active) : (u.apply now s).2.status = .active := by
  cases u with
  | resetStart => exact absurd rfl hu
  | record => simpa only [SessionUpdate.apply, Session.record] using h
  | resetComplete | sessionCreated => simp only [SessionUpdate.apply, Session.record]
  | extend extra =>
    cases he : s.extend now extra with
    | mk o t =>
      simp only [SessionUpdate.apply, he]
      by_cases ho : o = .done
      · subst ho
        obtain ⟨_, rfl⟩ := extend_done he
        exact h
      · rw [extend_unchanged he ho]
        exact h

theorem touched_quiet {o : ManagerOp} {r : o.Result} (h : Touched id (.manager o) r) :
    ¬ Disturbs m id o := by
  cases o with
  | touchAction j userId => exact fun hd => hd
  | _ => exact fun _ => h

theorem active_step {o : ManagerOp} (hquiet : ¬ Disturbs m id o)
    (hlive : ∀ s, m.sessions.lookup id = some s → s.isExpired now = false) (h : Active m id) :
    Active (o.run sha256 m now).2 id := by
  obtain ⟨s, hs, hactive⟩ := h
  cases o with
  | create a =>
    rcases create_cases sha256 m now a with ⟨e, he⟩ | ⟨ttl, _, _, he⟩
    · exact ⟨s, by simpa only [ManagerOp.run, he] using hs, hactive⟩
    · have hne : id ≠ a.id := fun hid => hquiet hid.symm
      exact ⟨s, by simpa only [ManagerOp.run, he, AList.lookup_insert_ne hne] using hs, hactive⟩
  | update j userId u =>
    rcases update_cases (m := m) j userId (u.apply now) with ⟨e, he⟩ | ⟨t, ht, hu, he⟩
    · exact ⟨s, by simpa only [ManagerOp.run, he] using hs, hactive⟩
    · by_cases hj : id = j
      · subst hj
        rw [hs, Option.some.injEq] at ht
        subst ht
        refine ⟨(u.apply now s).2, by simp only [ManagerOp.run, he, AList.lookup_insert], ?_⟩
        apply apply_active _ hactive
        intro hreset
        subst hreset
        exact hquiet ⟨rfl, s, hs, hu⟩
      · exact ⟨s, by simpa only [ManagerOp.run, he, AList.lookup_insert_ne hj] using hs, hactive⟩
  | endSession j userId =>
    rcases endSession_cases (m := m) j userId with ⟨e, he⟩ | ⟨t, ht, hu, he⟩
    · exact ⟨s, by simpa only [ManagerOp.run, he] using hs, hactive⟩
    · by_cases hj : id = j
      · subst hj
        exact (hquiet ⟨rfl, t, ht, hu⟩).elim
      · exact ⟨s, by simpa only [ManagerOp.run, he, AList.lookup_erase_ne hj] using hs, hactive⟩
  | touchAction j userId =>
    rcases touchAction_cases m now j userId with ⟨e, he⟩ | ⟨t, ht, _, he⟩
    · exact ⟨s, by simpa only [ManagerOp.run, he] using hs, hactive⟩
    · by_cases hj : id = j
      · subst hj
        rw [hs, Option.some.injEq] at ht
        subst ht
        exact ⟨{ s with lastActionAt := some now.mono },
          by simp only [ManagerOp.run, he, AList.lookup_insert], hactive⟩
      · exact ⟨s, by simpa only [ManagerOp.run, he, AList.lookup_insert_ne hj] using hs, hactive⟩
  | sweepExpired => exact ⟨s, sweepExpired_sessions.mpr ⟨hs, hlive s hs⟩, hactive⟩
  | get => exact ⟨s, hs, hactive⟩
  | getUserSession => exact ⟨s, hs, hactive⟩
  | liveNamespaces => exact ⟨s, hs, hactive⟩
  | liveShuttles => exact ⟨s, hs, hactive⟩

end Steps

section Pools

variable {ι : Type} [DecidableEq ι] {sha256 : String → Digest} {outside : Outside}
  {env : ServerEnv} {p q : HandlerPool ι} {i : ι} {id : Uuid}

def Awaiting (q : HandlerPool ι) (id : Uuid) : Prop :=
  ∃ i, (q.thread i).Starts (StartsAction id)

def TouchesLive : Guard ι Op Op.Result Unit ServerState :=
  fun q _ op r s => ∀ id, Touched id op r → Live q.state.manager s.clock id

/-- Between a touch and the start of the action the session is left alone and its deadlines
do not pass. -/
def Undisturbed : Guard ι Op Op.Result Unit ServerState :=
  fun q _ op _ s => ∀ id, Awaiting q id →
    (∀ o, op = .manager o → ¬ Disturbs q.state.manager id o) ∧
    ∀ t, q.state.manager.sessions.lookup id = some t → t.isExpired s.clock = false

def Orderly : Guard ι Op Op.Result Unit ServerState :=
  fun q i op r s => TouchesLive q i op r s ∧ Undisturbed q i op r s

def Ready (q : HandlerPool ι) (id : Uuid) : Prop := Awaiting q id → Active q.state.manager id

theorem ready_step {op : Op} {next : op.Result → Handler Unit} {r : op.Result} {s : ServerState}
    (ht : q.thread i = .request op next) (hs : ServerStep sha256 outside q.state op r s)
    (hg : Orderly q i op r s)
    (honly : (q.thread i).OnlyAfter anyResult (StartsAction id) (Touched id))
    (h : Ready q id) : Ready (q.advance i (next r) s) id := by
  rintro ⟨j, hj⟩
  rw [Pool.advance_state]
  have hbefore : Active q.state.manager id ∧ (∀ o, op = .manager o →
      ¬ Disturbs q.state.manager id o) ∧
      ∀ t, q.state.manager.sessions.lookup id = some t → t.isExpired s.clock = false := by
    by_cases hji : j = i
    · subst hji
      rw [Pool.advance_self] at hj
      rw [ht] at honly
      have htouched := (honly r trivial).1 hj
      obtain ⟨t, hlookup, hactive, hlive⟩ := hg.1 id htouched
      refine ⟨⟨t, hlookup, hactive⟩, ?_, ?_⟩
      · rintro o rfl
        exact touched_quiet htouched
      · intro t' ht'
        rw [hlookup, Option.some.injEq] at ht'
        rwa [← ht']
    · rw [Pool.advance_other _ _ _ hji] at hj
      exact ⟨h ⟨j, hj⟩, hg.2 id ⟨j, hj⟩⟩
  obtain ⟨hactive, hquiet, hlive⟩ := hbefore
  cases op with
  | manager o =>
    obtain ⟨now, _, _, rfl⟩ := hs
    exact active_step (hquiet o rfl) hlive hactive
  | _ =>
    rw [step_manager hs (by simp)]
    exact hactive

/-- In every run whose steps are orderly, an action is started on a live session. -/
theorem action_on_live_session (env : ServerEnv) (roles : ι → Role)
    (hp : ∀ i, p.thread i = (roles i).program env)
    (h : Execution (ServerStep sha256 outside) Orderly p q) {actionId : String}
    {next : Unit → Handler Unit} {s : ServerState}
    (ht : q.thread i = .request (.actionStart id actionId) next)
    (_hs : ServerStep sha256 outside q.state (.actionStart id actionId) () s)
    (hg : Orderly q i (.actionStart id actionId) () s) : Live q.state.manager s.clock id := by
  have hresult : ∀ s op r s', ServerStep sha256 outside s op r s' → anyResult op r :=
    fun _ _ _ _ _ => trivial
  have hinv := h.invariant (I := fun q =>
      (∀ i, (q.thread i).OnlyAfter anyResult (StartsAction id) (Touched id)) ∧ Ready q id) ?_ ?_
  · have hawaiting : Awaiting q id := by
      refine ⟨i, ?_⟩
      rw [ht]
      exact ⟨actionId, rfl⟩
    obtain ⟨t, hlookup, hactive⟩ := hinv.2 hawaiting
    exact ⟨t, hlookup, hactive, (hg.2 id hawaiting).2 t hlookup⟩
  · refine ⟨fun i => ?_, ?_⟩
    · rw [hp]
      exact (role_checked (roles i)).2
    · rintro ⟨i, hi⟩
      rw [hp] at hi
      exact absurd hi (role_checked (roles i)).1
  · intro q i op next r s hq ht hs hg
    have hstep := Execution.tail i (.refl q) ht hs hg
    exact ⟨fun j => hstep.onlyAfter hresult (hq.1 j), ready_step ht hs hg (hq.1 i) hq.2⟩

end Pools

section Schedules

def polledScenario : Manifest :=
  { version := 1
    sources := []
    scenarios := [{
      id := "rest-api-polling"
      sourceId := "rest"
      deployment := []
      initSql := none
      shuttleSql := none
      actions := [⟨"poll", .sql, none, some "RESUME SHUTTLE {{shuttle}}", none, none, none, none,
        none⟩]
      breakScenarios := [] }] }

def polled : ServerEnv := { configured with manifest := polledScenario }

def silent : Outside := ⟨fun _ c r => r = accepted c, fun _ => [], fun _ _ => false⟩

def createAndPoll : Bool → Role
  | false => .create alice 1 ⟨"rest-api-polling", none⟩
  | true => .action alice 1 "poll"

def beforeCreate : HandlerPool Bool :=
  { thread := fun i => (createAndPoll i).program polled
    state :=
      { manager := .new polledScenario true defaultTtl
        clock := atSecond 0
        file := none
        tmp := none
        world := [] } }

def awaited : Handler Unit → Option Uuid
  | .request (.actionStart id _) _ => some id
  | _ => none

theorem awaited_starts {p : Handler Unit} {id : Uuid} (h : p.Starts (StartsAction id)) :
    awaited p = some id := by
  cases p with
  | done a => exact h.elim
  | request op next =>
    obtain ⟨actionId, rfl⟩ := h
    rfl

theorem awaited_request {p : Handler Unit} {id : Uuid} (h : awaited p = some id) :
    ∃ actionId next, p = .request (.actionStart id actionId) next := by
  unfold awaited at h
  split at h
  · cases h
    exact ⟨_, _, rfl⟩
  · cases h

def liveAt (m : SessionManager) (now : Clock) (id : Uuid) : Bool :=
  (m.sessions.lookup id).any fun s => s.status == .active && !s.isExpired now

theorem liveAt_iff {m : SessionManager} {now : Clock} {id : Uuid} :
    liveAt m now id = true ↔ Live m now id := by
  simp [liveAt, Live, Option.any_eq_true]

def perform (now : Clock) (p : HandlerPool Bool) (op : Op) : Option (op.Result × ServerState) :=
  p.state.carryOut (fun _ => 0) silent (fun _ => accepted) now op

theorem perform_step {now : Clock} {p : HandlerPool Bool} {op : Op} {r : op.Result}
    {s : ServerState} (h : perform now p op = some (r, s)) :
    ServerStep (fun _ => 0) silent p.state op r s := carryOut_step (fun _ _ => rfl) h

/-- No action is about to start, and a touch finds a live session. -/
def orderly (now : Clock) (p : HandlerPool Bool) (op : Op) : Bool :=
  (awaited (p.thread false)).isNone && (awaited (p.thread true)).isNone &&
    match op with
    | .manager (.touchAction id _) => liveAt p.state.manager now id
    | _ => true

def performOrderly (now : Clock) (p : HandlerPool Bool) (op : Op) :
    Option (op.Result × ServerState) :=
  if orderly now p op then perform now p op else none

theorem performOrderly_step {now : Clock} {p : HandlerPool Bool} {i : Bool} {op : Op}
    {r : op.Result} {s : ServerState} (h : performOrderly now p op = some (r, s)) :
    ServerStep (fun _ => 0) silent p.state op r s ∧ Orderly p i op r s := by
  unfold performOrderly at h
  split at h
  · rename_i horderly
    simp only [orderly, Bool.and_eq_true, Option.isNone_iff_eq_none] at horderly
    obtain ⟨⟨hfalse, htrue⟩, htouch⟩ := horderly
    refine ⟨perform_step h, ?_, ?_⟩
    · intro id htouched
      cases op with
      | manager o =>
        cases o with
        | touchAction j userId =>
          obtain ⟨rfl, _⟩ := htouched
          simp only [perform, ServerState.carryOut] at h
          split at h
          · cases h
            exact liveAt_iff.mp htouch
          · cases h
        | _ => cases htouched
      | _ => cases htouched
    · rintro id ⟨j, hj⟩
      have hawaited := awaited_starts hj
      cases j with
      | false =>
        rw [hfalse] at hawaited
        cases hawaited
      | true =>
        rw [htrue] at hawaited
        cases hawaited
  · cases h

def handlerOrder (runs : List (Bool × ℕ)) : List (Bool × Clock) :=
  runs.flatMap fun run => List.replicate run.2 (run.1, atSecond 0)

/-- The session is created and provisioned before its action is asked for. -/
theorem action_on_live_session_created : ∃ (q : HandlerPool Bool) (actionId : String)
    (next : Unit → Handler Unit),
    Execution (ServerStep (fun _ => 0) silent) Orderly beforeCreate q ∧
      q.thread true = .request (.actionStart 1 actionId) next ∧
      Live q.state.manager q.state.clock 1 := by
  obtain ⟨q, hq, hcheck⟩ : ∃ q, beforeCreate.replay performOrderly
      (handlerOrder [(false, 11), (true, 2)]) = some q ∧
      ((q.thread false).isDone && awaited (q.thread true) == some 1 &&
        liveAt q.state.manager q.state.clock 1) = true :=
    (Option.any_eq_true _ _).mp (by decide +kernel)
  simp only [Bool.and_eq_true, Program.isDone_iff, beq_iff_eq] at hcheck
  obtain ⟨⟨⟨a, hfalse⟩, htrue⟩, hlive⟩ := hcheck
  have hrun : Execution (ServerStep (fun _ => 0) silent) Orderly beforeCreate q :=
    Pool.replay_execution (fun _ _ _ _ _ _ hr => performOrderly_step hr) _ hq
  obtain ⟨actionId, next, ht⟩ := awaited_request htrue
  refine ⟨q, actionId, next, hrun, ht, ?_⟩
  refine action_on_live_session polled createAndPoll (fun _ => rfl) hrun ht
    ⟨q.state.clock, Clock.le_refl _, rfl⟩ ⟨fun _ h => h.elim, ?_⟩
  rintro id ⟨j, hj⟩
  refine ⟨fun o ho => (nomatch ho), ?_⟩
  intro t ht
  cases j with
  | false =>
    rw [hfalse] at hj
    exact hj.elim
  | true =>
    have hid := awaited_starts hj
    rw [htrue, Option.some.injEq] at hid
    subst hid
    obtain ⟨t', ht', _, hexp⟩ := liveAt_iff.mp hlive
    rw [ht, Option.some.injEq] at ht'
    rwa [ht']

/-- The action starts while its session is being provisioned. -/
theorem action_while_provisioning : ¬ ∀ (sha256 : String → Digest) (outside : Outside)
    (env : ServerEnv) (roles : Bool → Role) (p q : HandlerPool Bool) (i : Bool) (id : Uuid)
    (actionId : String) (next : Unit → Handler Unit) (s : ServerState),
    p.state.manager.sessions = ∅ → (∀ i, p.thread i = (roles i).program env) →
    Execution (ServerStep sha256 outside) anyStep p q →
    q.thread i = .request (.actionStart id actionId) next →
    ServerStep sha256 outside q.state (.actionStart id actionId) () s →
    Live q.state.manager s.clock id := by
  intro h
  obtain ⟨q, hq, hcheck⟩ : ∃ q, beforeCreate.replay perform
      (handlerOrder [(false, 3), (true, 2)]) = some q ∧
      (awaited (q.thread true) == some 1 && !liveAt q.state.manager q.state.clock 1) = true :=
    (Option.any_eq_true _ _).mp (by decide +kernel)
  simp only [Bool.and_eq_true, beq_iff_eq, Bool.not_eq_true'] at hcheck
  obtain ⟨htrue, hdead⟩ := hcheck
  have hrun : Execution (ServerStep (fun _ => 0) silent) anyStep beforeCreate q :=
    Pool.replay_execution (fun _ _ _ _ _ _ hr => ⟨perform_step hr, trivial⟩) _ hq
  obtain ⟨actionId, next, ht⟩ := awaited_request htrue
  have hlive := h (fun _ => 0) silent polled createAndPoll beforeCreate q true 1 actionId next
    q.state rfl (fun _ => rfl) hrun ht ⟨q.state.clock, Clock.le_refl _, rfl⟩
  rw [liveAt_iff.mpr hlive] at hdead
  cases hdead

end Schedules

end PlaygroundLiveActions
