import Playground.PlaygroundHandlers
import Playground.PlaygroundOrphanSweep
import Playground.PlaygroundServer

/-! # Resources of a session

A session is known outside by three names. A handler that takes it out of the map goes on to
make every call that drops what carries them. -/
namespace PlaygroundResources

open InteractionPrograms
open PlaygroundApiClient
open PlaygroundCleanup
open PlaygroundHandlers
open PlaygroundManagerRuns
open PlaygroundManifest (Value)
open PlaygroundNames
open PlaygroundOperations
open PlaygroundOrphanSweep (connectionRow)
open PlaygroundServer
open PlaygroundSessionManager
open PlaygroundSessions

structure Names where
  shuttleName : String
  connectionName : String
  namespaceName : String
  deriving DecidableEq, Repr

def namesOf (sha256 : String → Digest) (userId : String) (id : Uuid) : Names :=
  { shuttleName := deriveShuttle sha256 userId id
    connectionName := deriveConnection (deriveShuttle sha256 userId id)
    namespaceName := deriveNamespace sha256 userId id }

def sessionNames (s : Session) : Names := ⟨s.shuttleName, s.connectionName, s.namespaceName⟩

inductive OwnedBy (n : Names) : Resource → Prop where
  | shuttle (connection target) : OwnedBy n (.shuttle n.shuttleName connection target)
  | connection : OwnedBy n (.connection n.connectionName)
  | catalogNamespace : OwnedBy n (.catalogNamespace n.namespaceName)
  | source (sidecar) : OwnedBy n (.source sidecar n.namespaceName)

/-- The calls that drop a resource by name. -/
inductive Drops : Op → Resource → Prop where
  | shuttle (identity name connection target) :
      Drops (.external (.api ⟨"DELETE", "/api/v1/shuttles/" ++ name, none⟩ identity))
        (.shuttle name connection target)
  | connection (identity name) :
      Drops (.external (.api ⟨"DELETE", "/api/v1/connections/" ++ name, none⟩ identity))
        (.connection name)
  | catalogNamespace (identity name) :
      Drops (.external (.api ⟨"DELETE",
        "/api/v1/catalog/namespaces/" ++ name ++ "?cascade=true&purge=true", none⟩ identity))
        (.catalogNamespace name)
  | source (sidecar name) :
      Drops (.external (.dispatcher (.teardown sidecar name))) (.source sidecar name)

def dropsNamed (c : ExternalCall) (x : Resource) : Bool :=
  match c, x with
  | .api r _, .shuttle name _ _ =>
    r.method == "DELETE" && r.body.isNone && r.path == "/api/v1/shuttles/" ++ name
  | .api r _, .connection name =>
    r.method == "DELETE" && r.body.isNone && r.path == "/api/v1/connections/" ++ name
  | .api r _, .catalogNamespace name =>
    r.method == "DELETE" && r.body.isNone &&
      r.path == "/api/v1/catalog/namespaces/" ++ name ++ "?cascade=true&purge=true"
  | .dispatcher (.teardown sidecar name), .source sidecar' name' =>
    sidecar == sidecar' && name == name'
  | _, _ => false

theorem deletion_eq {r : ApiRequest} {path : String}
    (h : (r.method == "DELETE" && r.body.isNone && r.path == path) = true) :
    r = ⟨"DELETE", path, none⟩ := by
  obtain ⟨method, p, body⟩ := r
  simp only [Bool.and_eq_true, beq_iff_eq, Option.isNone_iff_eq_none] at h
  obtain ⟨⟨rfl, rfl⟩, rfl⟩ := h
  rfl

theorem dropsNamed_iff {c : ExternalCall} {x : Resource} :
    dropsNamed c x = true ↔ Drops (.external c) x := by
  constructor
  · intro h
    unfold dropsNamed at h
    split at h
    · rw [deletion_eq h]
      exact .shuttle _ _ _ _
    · rw [deletion_eq h]
      exact .connection _ _
    · rw [deletion_eq h]
      exact .catalogNamespace _ _
    · simp only [Bool.and_eq_true, beq_iff_eq] at h
      obtain ⟨rfl, rfl⟩ := h
      exact .source _ _
    · cases h
  · intro h
    generalize hop : Op.external c = op at h
    cases h <;> cases hop <;> simp [dropsNamed]

/-- The calls take effect on what they name. -/
def DropsNamed (outside : Outside) : Prop :=
  ∀ c x, Drops (.external c) x → outside.removes c x = true

def shuttleRows (world : List Resource) : List Value :=
  world.filterMap fun x =>
    match x with
    | .shuttle name connection target => some (.object [("name", .string name),
        ("connection", .string connection), ("target", .string target)])
    | _ => none

def connectionRows (world : List Resource) : List Value :=
  world.filterMap fun x =>
    match x with
    | .connection name => some (connectionRow name)
    | _ => none

def Held (n : Names) (m : SessionManager) : Prop :=
  ∃ id s, m.sessions.lookup id = some s ∧ sessionNames s = n

def Takes (n : Names) : (op : Op) → op.Result → Prop
  | .manager (.endSession _ _), r => ∃ t, r = .ok t ∧ sessionNames t = n
  | .manager .sweepExpired, r => ∃ t ∈ r, sessionNames t = n
  | _, _ => False

def anyResult : (op : Op) → op.Result → Prop := fun _ _ => True

variable {sha256 : String → Digest} {userId : String} {id : Uuid} {n : Names}
  {env : ServerEnv} {identity : Identity} {x : Resource} {m : SessionManager} {now : Clock}

theorem WellFormed.names {s : Session} (h : WellFormed sha256 id s) :
    sessionNames s = namesOf sha256 s.userId id := by
  unfold sessionNames namesOf
  rw [h.connectionName, h.shuttleName, h.namespaceName, h.id]

theorem SameSession.names {s t : Session} (h : SameSession s t) :
    sessionNames t = sessionNames s := by
  unfold sessionNames
  rw [h.shuttleName, h.connectionName, h.namespaceName]

/-- A teardown of derived names drops everything that carries them. -/
theorem teardown_drops (hn : n = namesOf sha256 userId id) (hclient : env.apiClient.isSome = true)
    (hx : OwnedBy n x) {ok : (op : Op) → op.Result → Prop} :
    (teardownSession env identity n.shuttleName n.connectionName n.namespaceName).Eventually ok
      fun op => Drops op x := by
  have hshuttle : isSafeIdentifier n.shuttleName = true := by
    rw [hn]
    exact (deriveShuttle_form sha256 userId id).safe
  have hconnection : isSafeIdentifier n.connectionName = true := by
    rw [hn]
    exact (deriveConnection_form sha256 userId id).safe
  have hnamespace : NamespaceForm n.namespaceName := by
    rw [hn]
    exact deriveNamespace_form sha256 userId id
  have hmem : ∀ op, _ → op ∈ teardownOps env identity n.shuttleName n.connectionName
      n.namespaceName := fun op hop => (mem_teardown env identity).mpr ⟨⟨hshuttle, hclient⟩, hop⟩
  have hperf : Program.Performs ok _ _ := performs_teardown env identity n.shuttleName
    n.connectionName n.namespaceName
  cases hx with
  | shuttle connection target => exact hperf.eventually (hmem _ (Or.inl rfl)) (.shuttle _ _ _ _)
  | connection =>
    exact hperf.eventually (hmem _ (Or.inr (Or.inr (Or.inl ⟨hconnection, rfl⟩))))
      (.connection _ _)
  | catalogNamespace =>
    exact hperf.eventually (hmem _ (Or.inr (Or.inl ⟨hnamespace.safe, Or.inl rfl⟩)))
      (.catalogNamespace _ _)
  | source sidecar =>
    exact hperf.eventually (hmem _ (Or.inr (Or.inr (Or.inr (Or.inl
      ⟨hnamespace.resource, Or.inr ⟨sidecar, rfl⟩⟩))))) (.source _ _)

/-- A session leaves the map only into the hands of a handler. -/
theorem held_step {o : ManagerOp} (hcreate : ∀ a, o = .create a → namesOf sha256 a.userId a.id = n)
    (h : Held n m) :
    Held n (o.run sha256 m now).2 ∨ Takes n (.manager o) (o.run sha256 m now).1 := by
  obtain ⟨id, s, hs, hnames⟩ := h
  cases o with
  | create a =>
    rcases create_cases sha256 m now a with
      ⟨e, he⟩ | ⟨ttl, _, _, he⟩
    · exact Or.inl ⟨id, s, by simpa only [ManagerOp.run, he] using hs, hnames⟩
    · have hnew := hcreate a rfl
      refine Or.inl ⟨a.id, Session.new sha256 a.id now a.userId a.tenantId a.scenarioId ttl, ?_,
        hnew⟩
      simp only [ManagerOp.run, he, AList.lookup_insert]
  | update j v u =>
    rcases update_cases (m := m) j v (u.apply now) with ⟨e, he⟩ | ⟨t, ht, _, he⟩
    · exact Or.inl ⟨id, s, by simpa only [ManagerOp.run, he] using hs, hnames⟩
    · by_cases hj : id = j
      · subst hj
        rw [hs, Option.some.injEq] at ht
        subst ht
        refine Or.inl ⟨id, (u.apply now s).2, ?_, ?_⟩
        · simp only [ManagerOp.run, he, AList.lookup_insert]
        · rw [SameSession.names (apply_same now u s), hnames]
      · refine Or.inl ⟨id, s, ?_, hnames⟩
        simpa only [ManagerOp.run, he, AList.lookup_insert_ne hj] using hs
  | endSession j v =>
    rcases endSession_cases (m := m) j v with ⟨e, he⟩ | ⟨t, ht, _, he⟩
    · exact Or.inl ⟨id, s, by simpa only [ManagerOp.run, he] using hs, hnames⟩
    · by_cases hj : id = j
      · subst hj
        rw [hs, Option.some.injEq] at ht
        subst ht
        exact Or.inr ⟨{ s with status := .ended }, by simp only [ManagerOp.run, he], hnames⟩
      · refine Or.inl ⟨id, s, ?_, hnames⟩
        simpa only [ManagerOp.run, he, AList.lookup_erase_ne hj] using hs
  | touchAction j v =>
    rcases touchAction_cases m now j v with ⟨e, he⟩ | ⟨t, ht, _, he⟩
    · exact Or.inl ⟨id, s, by simpa only [ManagerOp.run, he] using hs, hnames⟩
    · by_cases hj : id = j
      · subst hj
        rw [hs, Option.some.injEq] at ht
        subst ht
        refine Or.inl ⟨id, { s with lastActionAt := some now.mono }, ?_, hnames⟩
        simp only [ManagerOp.run, he, AList.lookup_insert]
      · refine Or.inl ⟨id, s, ?_, hnames⟩
        simpa only [ManagerOp.run, he, AList.lookup_insert_ne hj] using hs
  | sweepExpired =>
    cases hx : s.isExpired now with
    | false => exact Or.inl ⟨id, s, sweepExpired_sessions.mpr ⟨hs, hx⟩, hnames⟩
    | true => exact Or.inr ⟨_, mem_sweepExpired.mpr ⟨id, s, hs, hx, rfl⟩, hnames⟩
  | get => exact Or.inl ⟨id, s, hs, hnames⟩
  | getUserSession => exact Or.inl ⟨id, s, hs, hnames⟩
  | liveNamespaces => exact Or.inl ⟨id, s, hs, hnames⟩
  | liveShuttles => exact Or.inl ⟨id, s, hs, hnames⟩

section Removal

variable {ok : (op : Op) → op.Result → Prop} {P : Op → Prop} {α β : Type}

/-- A step of a handler keeps a session in the map, or the handler that takes it out goes on to
do what it must. -/
theorem held_advance {outside : Outside} {op : Op} {next : op.Result → Handler α} {r : op.Result}
    {s s' : ServerState} (hs : ServerStep sha256 outside s op r s')
    (hcreate : ∀ a, op = .manager (.create a) → namesOf sha256 a.userId a.id = n)
    (hleads : (Program.request op next).LeadsTo anyResult P (Takes n)) (h : Held n s.manager) :
    Held n s'.manager ∨ (next r).Eventually anyResult P := by
  cases op with
  | manager o =>
    obtain ⟨now, _, rfl, rfl⟩ := hs
    rcases held_step (fun a ha => hcreate a (congrArg Op.manager ha)) h with hheld | htakes
    · exact Or.inl hheld
    · exact Or.inr ((hleads _ trivial).1 htakes)
  | _ =>
    rw [step_manager hs (by simp)]
    exact Or.inl h

theorem keeps_leadsTo {p : Handler α}
    (h : p.Always ok (AsksOnly fun o => takesOut o = false)) : p.LeadsTo ok P (Takes n) := by
  refine Program.LeadsTo.of_always (h.mono fun op hop r ht => ?_)
  unfold Takes at ht
  split at ht
  · cases hop
  · cases hop
  · exact ht

theorem persist_then {b : β} {f : β → Handler α} (h : (f b).Eventually ok P) :
    ((persist env >>= fun _ => .done b) >>= f).Eventually ok P := by
  refine Program.Eventually.bind_right fun a ha => ?_
  obtain ⟨_, _, hb⟩ := Program.returns_bind.mp ha
  have heq : b = a := hb
  exact heq ▸ h

theorem persist_leadsTo {b : β} {f : β → Handler α} (h : (f b).LeadsTo ok P (Takes n)) :
    ((persist env >>= fun _ => .done b) >>= f).LeadsTo ok P (Takes n) := by
  rw [Program.bind_bind]
  exact (keeps_leadsTo persist_ops).bind fun _ => h

theorem endLocked_leadsTo {j : Uuid} {v : String} {f : Except SessionError Session → Handler α}
    (htaken : ∀ t, sessionNames t = n → (f (.ok t)).Eventually ok P)
    (hf : ∀ r, (f r).LeadsTo ok P (Takes n)) :
    (endLocked env j v >>= f).LeadsTo ok P (Takes n) := by
  intro r _
  cases r with
  | error e =>
    refine ⟨?_, hf _⟩
    rintro ⟨t, ht, _⟩
    cases ht
  | ok s =>
    refine ⟨?_, persist_leadsTo (hf _)⟩
    rintro ⟨t, ht, hnames⟩
    cases ht
    exact persist_then (htaken s hnames)

theorem sweepExpired_leadsTo {f : List Session → Handler α}
    (htaken : ∀ expired, (∃ t ∈ expired, sessionNames t = n) → (f expired).Eventually ok P)
    (hf : ∀ expired, (f expired).LeadsTo ok P (Takes n)) :
    (sweepExpired env >>= f).LeadsTo ok P (Takes n) := by
  intro expired _
  cases expired with
  | nil =>
    refine ⟨?_, hf []⟩
    rintro ⟨t, ht, _⟩
    cases ht
  | cons s rest => exact ⟨fun ht => persist_then (htaken _ ht), persist_leadsTo (hf _)⟩

variable (hn : n = namesOf sha256 userId id) (hclient : env.apiClient.isSome = true)
  (hx : OwnedBy n x)

include hn hclient hx

theorem endSession_leadsTo {j : Uuid} :
    (endSession env identity j).LeadsTo ok (fun op => Drops op x) (Takes n) := by
  unfold endSession
  split
  · trivial
  · refine endLocked_leadsTo ?_ ?_
    · rintro t rfl
      exact Or.inr fun now _ => (teardown_drops hn hclient hx).bind_left
    · intro r
      cases r with
      | error e => trivial
      | ok s =>
        refine keeps_leadsTo ?_
        exact ⟨trivial, fun _ _ => teardown_ops.bind fun _ => render_ops⟩

theorem reaper_leadsTo {ticks : ℕ} :
    (spawnSessionReaper env ticks).LeadsTo ok (fun op => Drops op x) (Takes n) := by
  refine Program.leadsTo_forEach fun _ _ => ?_
  unfold reaperTick Program.when
  split
  · refine sweepExpired_leadsTo ?_ ?_
    · rintro expired ⟨t, ht, rfl⟩
      exact Program.eventually_forEach ht (teardown_drops hn hclient hx)
    · intro expired
      exact keeps_leadsTo (Program.always_forEach fun s _ => teardown_ops)
  · trivial

end Removal

-- One user's session under the id 1, for runs that are written out.
def alice : Identity := ⟨"u1", none, none, "jwt"⟩

def aliceNames : Names := namesOf (fun _ => 0) "u1" 1

end PlaygroundResources
