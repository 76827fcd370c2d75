import Playground.PlaygroundCleanup

/-! # The server as a state machine

One step is one operation of one handler. What the API and the sidecars hold is a list of
resources; what each call creates, removes and answers is a parameter. -/
namespace PlaygroundServer

open InteractionPrograms
open PlaygroundManagerRuns
open PlaygroundManifest (Value)
open PlaygroundOperations
open PlaygroundSessionManager
open PlaygroundSessions

/-- `source` is a schema, database or key prefix of a sidecar. -/
inductive Resource where
  | shuttle (name connection target : String)
  | connection (name : String)
  | catalogNamespace (name : String)
  | source (sidecar : Sidecar) (name : String)
  deriving DecidableEq, Repr

structure Outside where
  reply : List Resource → (c : ExternalCall) → c.Result → Prop
  creates : ExternalCall → List Resource
  removes : ExternalCall → Resource → Bool

def Succeeded : (c : ExternalCall) → c.Result → Prop
  | .api _ _, r => ∃ v, r = .ok v
  | .dispatcher (.exec _ _ _), r => ∃ v, r = .ok v
  | .dispatcher (.provision _ _), r => ∃ v, r = .ok v
  | .dispatcher (.teardown _ _), r => ∃ v, r = .ok v
  | .dispatcher (.dropPublication _), r => ∃ v, r = .ok v
  | .dispatcher (.dropReplicationSlot _), r => ∃ v, r = .ok v
  | .command _ _, r => ∃ output, r = .ok output ∧ output.success = true
  | .readToString _, r => ∃ v, r = .ok v
  | .readBytes _, r => ∃ v, r = .ok v
  | .exists_ _, r => r = true
  | .post _ _ _ _, r => ∃ v, r = .ok v

/-- The plainest success of each call. -/
def accepted : (c : ExternalCall) → c.Result
  | .api _ _ => .ok (200, .null)
  | .dispatcher (.exec _ _ _) => .ok ("", "")
  | .dispatcher (.provision _ _) => .ok ()
  | .dispatcher (.teardown _ _) => .ok ()
  | .dispatcher (.dropPublication _) => .ok ()
  | .dispatcher (.dropReplicationSlot _) => .ok ()
  | .command _ _ => .ok ⟨true, "exit status: 0", "", ""⟩
  | .readToString _ => .ok ""
  | .readBytes _ => .ok []
  | .exists_ _ => true
  | .post _ _ _ _ => .ok ⟨200, "200 OK", ""⟩

theorem accepted_succeeds (c : ExternalCall) : Succeeded c (accepted c) := by
  cases c with
  | dispatcher call => cases call <;> exact ⟨_, rfl⟩
  | command program args => exact ⟨_, rfl, rfl⟩
  | exists_ path => rfl
  | api | readToString | readBytes | post => exact ⟨_, rfl⟩

def Outside.effect (outside : Outside) (world : List Resource) (c : ExternalCall) :
    List Resource :=
  world.filter (fun x => !outside.removes c x) ++ outside.creates c

/-- A call that succeeds takes effect; one that fails may have. -/
def Outside.After (outside : Outside) (world : List Resource) (c : ExternalCall) (r : c.Result)
    (world' : List Resource) : Prop :=
  world' = outside.effect world c ∨ (world' = world ∧ ¬ Succeeded c r)

/-- What a file holds: nothing when it is missing, and no rows when it does not decode. -/
abbrev FileContent := Option (Option (List SessionRow))

structure ServerState where
  manager : SessionManager
  clock : Clock
  file : FileContent
  tmp : FileContent
  world : List Resource

def ServerStep (sha256 : String → Digest) (outside : Outside) (s : ServerState) :
    (op : Op) → op.Result → ServerState → Prop
  | .manager o, r, s' => ∃ now, s.clock ≤ now ∧ r = (o.run sha256 s.manager now).1 ∧
      s' = { s with manager := (o.run sha256 s.manager now).2, clock := now }
  | .snapshot, r, s' => r = s.manager.rows ∧ s' = s
  | .writeTmp rows, r, s' =>
    (r = true ∧ s' = { s with tmp := some (some rows) }) ∨
      (r = false ∧ ∃ tmp, s' = { s with tmp := tmp })
  | .renameTmp, r, s' =>
    (r = true ∧ ∃ content, s.tmp = some content ∧
      s' = { s with file := some content, tmp := none }) ∨ (r = false ∧ s' = s)
  | .tryConsume _, _, s' => s' = s
  | .metric _, _, s' => s' = s
  | .readClock, r, s' => s.clock ≤ r ∧ s' = { s with clock := r }
  | .actionStart _ _, _, s' => ∃ now, s.clock ≤ now ∧ s' = { s with clock := now }
  | .external c, r, s' => outside.reply s.world c r ∧
      ∃ world, outside.After s.world c r world ∧ s' = { s with world := world }

/-- The other operations leave the map and the world alone. -/
theorem step_other {sha256 : String → Digest} {outside : Outside} {s s' : ServerState} {op : Op}
    {r : op.Result} (h : ServerStep sha256 outside s op r s') (hm : ∀ o, op ≠ .manager o)
    (hc : ∀ c, op ≠ .external c) : s'.manager = s.manager ∧ s'.world = s.world := by
  cases op with
  | manager o => exact absurd rfl (hm o)
  | external c => exact absurd rfl (hc c)
  | snapshot => rw [h.2]; exact ⟨rfl, rfl⟩
  | writeTmp rows =>
    rcases h with ⟨_, rfl⟩ | ⟨_, tmp, rfl⟩
    · exact ⟨rfl, rfl⟩
    · exact ⟨rfl, rfl⟩
  | renameTmp =>
    rcases h with ⟨_, content, _, rfl⟩ | ⟨_, rfl⟩
    · exact ⟨rfl, rfl⟩
    · exact ⟨rfl, rfl⟩
  | tryConsume tenantId => rw [h]; exact ⟨rfl, rfl⟩
  | metric m => rw [h]; exact ⟨rfl, rfl⟩
  | readClock => rw [h.2]; exact ⟨rfl, rfl⟩
  | actionStart id actionId =>
    obtain ⟨now, _, rfl⟩ := h
    exact ⟨rfl, rfl⟩

theorem step_manager {sha256 : String → Digest} {outside : Outside} {s s' : ServerState} {op : Op}
    {r : op.Result} (h : ServerStep sha256 outside s op r s') (hm : ∀ o, op ≠ .manager o) :
    s'.manager = s.manager := by
  cases op with
  | manager o => exact absurd rfl (hm o)
  | external c =>
    obtain ⟨_, world, _, rfl⟩ := h
    rfl
  | _ => exact (step_other h (by simp) (by simp)).1

abbrev HandlerPool (ι : Type) := Pool ι Op Op.Result Unit ServerState

def AllWellFormed (sha256 : String → Digest) (m : SessionManager) : Prop :=
  ∀ id s, m.sessions.lookup id = some s → WellFormed sha256 id s

theorem step_wellFormed {sha256 : String → Digest} {outside : Outside} {s s' : ServerState}
    {op : Op} {r : op.Result} (h : ServerStep sha256 outside s op r s')
    (hw : AllWellFormed sha256 s.manager) : AllWellFormed sha256 s'.manager := by
  cases op with
  | manager o =>
    obtain ⟨now, _, _, rfl⟩ := h
    exact op_wellFormed hw o
  | _ =>
    rw [step_manager h (by simp)]
    exact hw

def CallsSucceed {ι α : Type} : Guard ι Op Op.Result α ServerState
  | _, _, .external c, r, _ => Succeeded c r
  | _, _, _, _, _ => True

theorem after_success {outside : Outside} {world world' : List Resource} {c : ExternalCall}
    {r : c.Result} (h : outside.After world c r world') (hr : Succeeded c r) {x : Resource}
    (hx : x ∈ world') : (x ∈ world ∧ outside.removes c x = false) ∨ x ∈ outside.creates c := by
  rcases h with rfl | ⟨_, hn⟩
  · simpa [Outside.effect] using hx
  · exact absurd hr hn

/-- One operation at the given clock reading: calls are answered as `answer` says and file
operations succeed. -/
def ServerState.carryOut (sha256 : String → Digest) (outside : Outside)
    (answer : List Resource → (c : ExternalCall) → c.Result) (now : Clock) (s : ServerState) :
    (op : Op) → Option (op.Result × ServerState)
  | .manager o =>
    if s.clock ≤ now then
      some ((o.run sha256 s.manager now).1,
        { s with manager := (o.run sha256 s.manager now).2, clock := now })
    else none
  | .snapshot => some (s.manager.rows, s)
  | .writeTmp rows => some (true, { s with tmp := some (some rows) })
  | .renameTmp => s.tmp.map fun content => (true, { s with file := some content, tmp := none })
  | .tryConsume _ => some (.ok 1, s)
  | .metric _ => some ((), s)
  | .readClock => if s.clock ≤ now then some (now, { s with clock := now }) else none
  | .actionStart _ _ => if s.clock ≤ now then some ((), { s with clock := now }) else none
  | .external c => some (answer s.world c, { s with world := outside.effect s.world c })

theorem carryOut_step {sha256 : String → Digest} {outside : Outside}
    {answer : List Resource → (c : ExternalCall) → c.Result}
    (hanswer : ∀ world c, outside.reply world c (answer world c)) {now : Clock}
    {s s' : ServerState} {op : Op} {r : op.Result}
    (h : s.carryOut sha256 outside answer now op = some (r, s')) :
    ServerStep sha256 outside s op r s' := by
  cases op with
  | manager o =>
    simp only [ServerState.carryOut] at h
    split at h
    · rename_i hle
      cases h
      exact ⟨now, hle, rfl, rfl⟩
    · cases h
  | snapshot =>
    cases h
    exact ⟨rfl, rfl⟩
  | writeTmp rows =>
    cases h
    exact Or.inl ⟨rfl, rfl⟩
  | renameTmp =>
    obtain ⟨content, htmp, heq⟩ := Option.map_eq_some_iff.mp h
    cases heq
    exact Or.inl ⟨rfl, content, htmp, rfl⟩
  | tryConsume | metric =>
    cases h
    rfl
  | readClock =>
    simp only [ServerState.carryOut] at h
    split at h
    · rename_i hle
      cases h
      exact ⟨hle, rfl⟩
    · cases h
  | actionStart =>
    simp only [ServerState.carryOut] at h
    split at h
    · rename_i hle
      cases h
      exact ⟨now, hle, rfl⟩
    · cases h
  | external c =>
    cases h
    exact ⟨hanswer _ c, _, Or.inl rfl, rfl⟩

def ServerState.decoded (s : ServerState) : List SessionRow := s.file.join.getD []

end PlaygroundServer
