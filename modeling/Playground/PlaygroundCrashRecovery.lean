import Playground.PlaygroundBootSweep

/-! # Recovery after a crash

A crash loses the map and every handler; the file and what exists outside stay. The next process
hydrates the map, sweeps once and starts the reaper. The sweep finds a lost session only through
the lists of the API. -/
namespace PlaygroundCrashRecovery

open HashMaps
open InteractionPrograms
open PlaygroundApiClient
open PlaygroundBootSweep
open PlaygroundCleanup
open PlaygroundHandlers
open PlaygroundManagerRuns
open PlaygroundManifest (Manifest Value)
open PlaygroundNames
open PlaygroundOperations
open PlaygroundOrphanSweep
open PlaygroundResources
open PlaygroundServer
open PlaygroundSessionManager
open PlaygroundSessions

def Cleans : ExternalCall → Prop
  | .api r _ => r.method = "GET" ∨ r.method = "DELETE"
  | .dispatcher (.teardown _ _) => True
  | .dispatcher (.dropPublication _) => True
  | .dispatcher (.dropReplicationSlot _) => True
  | .command program args => ∃ endpoint access secret warehouse namespaceName,
      program = "bash" ∧ args = ["-c", purgeCommand endpoint access secret warehouse namespaceName]
  | _ => False

theorem not_drops {op : Op} {x : Resource} (hop : ∀ c, op ≠ .external c) : ¬ Drops op x := by
  intro hd
  cases hd with
  | shuttle | connection | catalogNamespace | source => exact hop _ rfl

/-- The list has a row for every shuttle, and no row with another name or connection. -/
structure Shows (rows : List Value) (world : List Resource) : Prop where
  listed : ∀ name connection target, .shuttle name connection target ∈ world → ∃ row ∈ rows,
    row.getStr "name" = some name ∧ row.getStr "connection" = some connection ∧
      row.getStr "target" = some target
  held : ∀ row ∈ rows, ∀ name connection, row.getStr "name" = some name →
    row.getStr "connection" = some connection → ∃ target, .shuttle name connection target ∈ world

/-- Cleaning calls create nothing and remove what they name; the lists show what the API holds. -/
structure Faithful (outside : Outside) : Prop where
  creates : ∀ c, Cleans c → outside.creates c = []
  removes : ∀ c x, Cleans c → (outside.removes c x = true ↔ Drops (.external c) x)
  shuttles : ∀ world r, outside.reply world getShuttles r → Succeeded getShuttles r →
    ∃ rows, rowsOf r = some rows ∧ Shows rows world
  connections : ∀ world r, outside.reply world getConnections r → Succeeded getConnections r →
    ∃ rows, rowsOf r = some rows ∧
      ∀ name, .connection name ∈ world → ∃ c ∈ rows, c.getStr "name" = some name

def Recovers (allowed : ManagerOp → Prop) : Op → Prop
  | .manager o => allowed o
  | .actionStart _ _ => False
  | .external c => Cleans c
  | _ => True

instance (allowed : ManagerOp → Prop) : Lenient (Recovers allowed) where
  quiet {op} h := by
    cases op with
    | manager o => exact h.elim
    | actionStart id actionId => exact h.elim
    | external c => exact h.elim
    | _ => trivial

inductive Shrinks : ManagerOp → Prop where
  | sweepExpired : Shrinks .sweepExpired
  | liveNamespaces : Shrinks .liveNamespaces
  | liveShuttles : Shrinks .liveShuttles

section Programs

variable {env : ServerEnv} {ok : (op : Op) → op.Result → Prop} {allowed : ManagerOp → Prop}

theorem teardown_recovers {identity : Identity} {shuttleName connectionName namespaceName : String}
    {op : Op} (hop : op ∈ teardownOps env identity shuttleName connectionName namespaceName) :
    Recovers allowed op := by
  rcases ((mem_teardown env identity).mp hop).2 with
    rfl | ⟨_, rfl | hpurge⟩ | ⟨_, rfl⟩ | ⟨_, hrep | ⟨sidecar, rfl⟩⟩ | rfl
  · exact Or.inr rfl
  · exact Or.inr rfl
  · obtain ⟨access, secret, -, -, rfl⟩ := (mem_purgeOps env).mp hpurge
    exact ⟨_, _, _, _, _, rfl, rfl⟩
  · exact Or.inr rfl
  · rcases replicationOps_dispatcher hrep with rfl | rfl
    · trivial
    · trivial
  · trivial
  · trivial

theorem sweepShuttle_recovers {live names : List String} {row : Value} :
    (sweepShuttle env live names row).Always ok (Recovers allowed) := by
  refine (performs_sweepShuttle env live names row).always fun op hop => ?_
  unfold sweepShuttleOps at hop
  split at hop
  · cases hop
  · exact teardown_recovers hop

theorem sweepConnection_recovers {live : List String} {rows : List Value} {c : Value} :
    (sweepConnection live rows c).Always ok (Recovers allowed) := by
  refine (performs_sweepConnection live rows c).always fun op hop => ?_
  cases hst : staleConnection live rows c with
  | none => simp [sweepConnectionOps, hst] at hop
  | some name =>
    rw [sweepConnectionOps_stale hst, List.mem_singleton] at hop
    rw [hop]
    exact Or.inr rfl

theorem passes_recovers {live names : List String} {rows : List Value} :
    (passes env live names rows).Always ok (Recovers allowed) := by
  refine (Program.always_forEach fun row _ => sweepShuttle_recovers).bind fun _ => ?_
  refine ⟨Or.inl rfl, fun r _ => ?_⟩
  cases r with
  | error e => trivial
  | ok reply => exact Program.always_forEach fun c _ => sweepConnection_recovers

theorem sweep_recovers (hs : allowed .liveShuttles) (hn : allowed .liveNamespaces) :
    (sweepApiOrphans env).Always ok (Recovers allowed) := by
  refine Program.always_when fun _ => ⟨hs, fun live _ => ⟨hn, fun names _ => ?_⟩⟩
  refine ⟨Or.inl rfl, fun r _ => ?_⟩
  cases r with
  | error e => trivial
  | ok reply => exact passes_recovers

def SweptFrom (m : SessionManager) : (op : Op) → op.Result → Prop
  | .manager .sweepExpired, r => ∀ t ∈ r, t.shuttleName ∈ m.liveShuttles
  | _, _ => True

def DropsOnlyLive (m : SessionManager) (op : Op) : Prop :=
  ∀ name connection target, Drops op (.shuttle name connection target) → name ∈ m.liveShuttles

instance (m : SessionManager) : Lenient (DropsOnlyLive m) where
  quiet {op} h := by
    cases op with
    | external c => exact h.elim
    | _ => exact fun _ _ _ hd => absurd hd (not_drops (by simp))

theorem teardown_dropsShuttle {identity : Identity}
    {shuttleName connectionName namespaceName name connection target : String} {op : Op}
    (hop : op ∈ teardownOps env identity shuttleName connectionName namespaceName)
    (hd : Drops op (.shuttle name connection target)) : name = shuttleName := by
  generalize hx : Resource.shuttle name connection target = x at hd
  cases hd with
  | shuttle other name' _ _ =>
    cases hx
    rcases ((api_mem_teardown env identity).mp hop).2 with heq | ⟨_, heq⟩ | ⟨_, heq⟩
    · exact (deleteShuttle_inj.mp heq).1
    · exact absurd heq deleteShuttle_ne_namespace
    · exact absurd heq deleteShuttle_ne_connection
  | _ => cases hx

theorem reaper_recovers {m : SessionManager} {ticks : ℕ} (h : allowed .sweepExpired) :
    (spawnSessionReaper env ticks).Always (SweptFrom m)
      fun op => Recovers allowed op ∧ DropsOnlyLive m op := by
  refine Program.always_forEach fun _ _ => Program.always_when fun _ => ?_
  refine Program.always_bind.mpr ⟨?_, fun expired hreturn => ?_⟩
  · exact (sweepExpired_ops h).and
      (sweepExpired_ops fun _ _ _ hd => absurd hd (not_drops (by simp)))
  · have hexpired := swept_returns hreturn
    refine Program.always_forEach fun s hs => ?_
    refine (performs_teardown env (reaperIdentity s) _ _ _).always fun op hop => ?_
    refine ⟨teardown_recovers hop, fun name _ _ hd => ?_⟩
    rw [teardown_dropsShuttle hop hd]
    exact hexpired s hs

end Programs

section Steps

variable {sha256 : String → Digest} {outside : Outside} {ι : Type} {q : HandlerPool ι} {i : ι}
  {op : Op} {r : op.Result} {s : ServerState}

theorem world_step (hout : Faithful outside) (hop : Recovers Shrinks op)
    (hs : ServerStep sha256 outside q.state op r s) (hg : CallsSucceed q i op r s) {x : Resource} :
    x ∈ s.world ↔ x ∈ q.state.world ∧ ¬ Drops op x := by
  cases op with
  | external c =>
    obtain ⟨_, world, hafter, rfl⟩ := hs
    have heffect : world = outside.effect q.state.world c := by
      rcases hafter with h | ⟨_, hn⟩
      · exact h
      · exact absurd hg hn
    rw [heffect, Outside.effect, hout.creates c hop, List.append_nil, List.mem_filter]
    simp [← hout.removes c x hop]
  | manager o =>
    obtain ⟨now, _, _, rfl⟩ := hs
    exact ⟨fun hx => ⟨hx, not_drops (by simp)⟩, fun hx => hx.1⟩
  | _ =>
    rw [(step_other hs (by simp) (by simp)).2]
    exact ⟨fun hx => ⟨hx, not_drops (by simp)⟩, fun hx => hx.1⟩

theorem lookup_step (hop : Recovers Shrinks op) (hs : ServerStep sha256 outside q.state op r s)
    {id : Uuid} {t : Session} (ht : s.manager.sessions.lookup id = some t) :
    q.state.manager.sessions.lookup id = some t := by
  cases op with
  | manager o =>
    obtain ⟨now, _, _, rfl⟩ := hs
    cases hop with
    | sweepExpired => exact (sweepExpired_sessions.mp ht).1
    | liveNamespaces => exact ht
    | liveShuttles => exact ht
  | _ =>
    rw [step_manager hs (by simp)] at ht
    exact ht

end Steps

inductive Found (m : SessionManager) (world : List Resource) : Resource → Prop where
  | shuttle {row o} (connection target) : row ∈ shuttleRows world → TornDownAs m row o →
      Found m world (.shuttle o.name connection target)
  | catalogNamespace {row o} : row ∈ shuttleRows world → TornDownAs m row o →
      Found m world (.catalogNamespace o.namespaceName)
  | source {row o} (sidecar) : row ∈ shuttleRows world → TornDownAs m row o →
      Found m world (.source sidecar o.namespaceName)
  | connection {row o} : row ∈ shuttleRows world → TornDownAs m row o →
      Found m world (.connection o.connection)
  | stale {name} : stillUsed m.liveShuttles (shuttleRows world) name = false →
      Found m world (.connection name)

section Finding

variable {sha256 : String → Digest} {userId : String} {id : Uuid} {env : ServerEnv}
  {m : SessionManager} {world : List Resource} {live names : List String} {x : Resource}

theorem mem_shuttleRows {row : Value} : row ∈ shuttleRows world ↔
    ∃ name connection target, .shuttle name connection target ∈ world ∧ row =
      .object [("name", .string name), ("connection", .string connection),
        ("target", .string target)] := by
  unfold shuttleRows
  rw [List.mem_filterMap]
  constructor
  · rintro ⟨y, hy, hrow⟩
    cases y with
    | shuttle name connection target =>
      exact ⟨name, connection, target, hy, (Option.some.inj hrow).symm⟩
    | _ => cases hrow
  · rintro ⟨name, connection, target, hy, rfl⟩
    exact ⟨_, hy, rfl⟩

theorem orphanOf_keeps {live₀ names₀ : List String} {row row' : Value} {o : Orphan}
    (hlive : ∀ k ∈ live, k ∈ live₀) (hnames : ∀ k ∈ names, k ∈ names₀)
    (hname : row'.getStr "name" = row.getStr "name")
    (hconnection : row'.getStr "connection" = row.getStr "connection")
    (htarget : row'.getStr "target" = row.getStr "target")
    (h : orphanOf live₀ names₀ row = some o) : orphanOf live names row' = some o := by
  unfold orphanOf at h ⊢
  rw [hname, hconnection, htarget]
  cases hn : row.getStr "name" with
  | none => simp [hn] at h
  | some name =>
    cases ht : row.getStr "target" with
    | none => simp [hn, ht] at h
    | some target =>
      simp only [hn, ht] at h ⊢
      cases hns : playgroundTarget target with
      | none => simp [hns] at h
      | some ns =>
        simp only [hns, Bool.or_eq_true, List.contains_iff_mem] at h ⊢
        by_cases hheld : name ∈ live₀ ∨ ns ∈ names₀
        · rw [if_pos hheld] at h
          cases h
        · rw [if_neg hheld] at h
          rw [if_neg fun hmem => hheld (hmem.imp (hlive _) (hnames _))]
          exact h

theorem stillUsed_shown {live₀ : List String} {world₀ : List Resource} {rows : List Value}
    {name : String} (hlive : ∀ k ∈ live, k ∈ live₀) (hworld : ∀ y ∈ world, y ∈ world₀)
    (hshows : Shows rows world) (h : stillUsed live₀ (shuttleRows world₀) name = false) :
    stillUsed live rows name = false := by
  by_contra hused
  rw [Bool.not_eq_false] at hused
  have hused₀ : stillUsed live₀ (shuttleRows world₀) name = true := by
    unfold stillUsed at hused ⊢
    simp only [List.any_eq_true, Bool.and_eq_true, beq_iff_eq] at hused ⊢
    obtain ⟨k, hk, row, hrow, hname, hconnection⟩ := hused
    obtain ⟨target, hheld⟩ := hshows.held row hrow k name hname hconnection
    exact ⟨k, hlive k hk, _, mem_shuttleRows.mpr ⟨k, name, target, hworld _ hheld, rfl⟩, rfl, rfl⟩
  rw [h] at hused₀
  cases hused₀

theorem owned_connection {name : String}
    (h : OwnedBy (namesOf sha256 userId id) (.connection name)) : ConnectionForm name := by
  cases h
  exact deriveConnection_form sha256 userId id

theorem owned_catalogNamespace {name : String}
    (h : OwnedBy (namesOf sha256 userId id) (.catalogNamespace name)) : NamespaceForm name := by
  cases h
  exact deriveNamespace_form sha256 userId id

theorem owned_source {sidecar : Sidecar} {name : String}
    (h : OwnedBy (namesOf sha256 userId id) (.source sidecar name)) : NamespaceForm name := by
  cases h
  exact deriveNamespace_form sha256 userId id

/-- A resource of a session that is found is dropped by a teardown of the shuttle pass, or is a
connection nobody live is listed with. -/
theorem found_drops (hclient : env.apiClient.isSome = true) (hfound : Found m world x)
    (howned : OwnedBy (namesOf sha256 userId id) x) :
    (∃ row ∈ shuttleRows world, ∃ o, TornDownAs m row o ∧ ∃ op ∈ teardownOps env sweeperIdentity
        o.name o.connection o.namespaceName, Drops op x) ∨
      ∃ name, x = .connection name ∧ ConnectionForm name ∧
        stillUsed m.liveShuttles (shuttleRows world) name = false := by
  cases hfound with
  | shuttle connection target hrow ho =>
    refine Or.inl ⟨_, hrow, _, ho, deleteShuttle sweeperIdentity _, ?_, .shuttle _ _ _ _⟩
    exact (mem_teardown env sweeperIdentity).mpr ⟨⟨ho.2, hclient⟩, Or.inl rfl⟩
  | catalogNamespace hrow ho =>
    have hsafe := (owned_catalogNamespace howned).safe
    refine Or.inl ⟨_, hrow, _, ho, deleteNamespace sweeperIdentity _, ?_, .catalogNamespace _ _⟩
    exact (mem_teardown env sweeperIdentity).mpr
      ⟨⟨ho.2, hclient⟩, Or.inr (Or.inl ⟨hsafe, Or.inl rfl⟩)⟩
  | source sidecar hrow ho =>
    have hsafe := (owned_source howned).resource
    refine Or.inl ⟨_, hrow, _, ho, dispatcherOp (.teardown sidecar _), ?_, .source _ _⟩
    exact (mem_teardown env sweeperIdentity).mpr
      ⟨⟨ho.2, hclient⟩, Or.inr (Or.inr (Or.inr (Or.inl ⟨hsafe, Or.inr ⟨sidecar, rfl⟩⟩)))⟩
  | connection hrow ho =>
    have hsafe := (owned_connection howned).safe
    refine Or.inl ⟨_, hrow, _, ho, deleteConnection sweeperIdentity _, ?_, .connection _ _⟩
    exact (mem_teardown env sweeperIdentity).mpr
      ⟨⟨ho.2, hclient⟩, Or.inr (Or.inr (Or.inl ⟨hsafe, rfl⟩))⟩
  | stale hunused => exact Or.inr ⟨_, rfl, owned_connection howned, hunused⟩

def StillListed (m : SessionManager) (world₀ world : List Resource) : Prop :=
  ∀ name connection target, .shuttle name connection target ∈ world₀ → name ∉ m.liveShuttles →
    .shuttle name connection target ∈ world

def Lists (x : Resource) : (op : Op) → op.Result → Prop
  | .external (.api request identity), r => .api request identity = getConnections →
    ∃ rows, rowsOf r = some rows ∧
      ∀ name, x = .connection name → ∃ c ∈ rows, c.getStr "name" = some name
  | _, _ => True

/-- The passes drop what is found, though the map and the world may have shrunk since. -/
theorem passes_drop {world₀ : List Resource} {rows : List Value}
    (hclient : env.apiClient.isSome = true) (hlive : ∀ k ∈ live, k ∈ m.liveShuttles)
    (hnames : ∀ k ∈ names, k ∈ m.liveNamespaces) (hworld : ∀ y ∈ world, y ∈ world₀)
    (hlisted : StillListed m world₀ world) (hshows : Shows rows world)
    (hfound : Found m world₀ x) (howned : OwnedBy (namesOf sha256 userId id) x) :
    (passes env live names rows).Eventually (Lists x) fun op => Drops op x := by
  rcases found_drops hclient hfound howned with
    ⟨row, hrow, o, ho, op, hop, hdrop⟩ | ⟨name, hx, hform, hunused⟩
  · obtain ⟨name, connection, target, hheld, rfl⟩ := mem_shuttleRows.mp hrow
    have hname : name = o.name := Option.some.inj (orphanOf_eq ho.1).1
    have hfree : name ∉ m.liveShuttles := by
      rw [hname]
      exact (picked_not_live ho).1
    obtain ⟨row', hrow', hn, hc, ht⟩ := hshows.listed _ _ _ (hlisted _ _ _ hheld hfree)
    have hpicked : orphanOf live names row' = some o := by
      refine orphanOf_keeps hlive hnames ?_ ?_ ?_ ho.1
      · exact hn
      · exact hc
      · exact ht
    have hmem : op ∈ sweepShuttleOps env live names row' := by
      simp only [sweepShuttleOps, hpicked]
      exact hop
    refine Program.Eventually.bind_left (Program.eventually_forEach hrow' ?_)
    exact (performs_sweepShuttle env live names row').eventually hmem hdrop
  · refine Program.Eventually.bind_right fun _ _ => Or.inr fun r hr => ?_
    obtain ⟨cs, hcs, hall⟩ := hr rfl
    obtain ⟨c, hc, hcname⟩ := hall name hx
    have hstale : staleConnection live rows c = some name := by
      refine staleConnection_eq.mpr ⟨hcname, hform.affixes.1, hform.affixes.2, ?_⟩
      exact stillUsed_shown hlive hworld hshows hunused
    have hmem : deleteConnection sweeperIdentity name ∈ sweepConnectionOps live rows c := by
      rw [sweepConnectionOps_stale hstale, droppedName_safe hform.safe]
      exact List.mem_singleton_self _
    cases r with
    | error e => cases hcs
    | ok reply =>
      have hc' : c ∈ PlaygroundCleanup.listed reply.2 := Option.some.inj hcs ▸ hc
      refine Program.eventually_forEach hc' ?_
      refine (performs_sweepConnection live rows c).eventually hmem ?_
      rw [hx]
      exact .connection _ _

end Finding

section Run

variable {sha256 : String → Digest} {outside : Outside} {env : ServerEnv} {m : SessionManager}
  {world₀ : List Resource} {userId : String} {id : Uuid} {n : Names} {x : Resource}

inductive Reading (env : ServerEnv) (m : SessionManager) : Handler Unit → Prop where
  | start : Reading env m (sweepApiOrphans env)
  | readShuttles {live} : (∀ k ∈ live, k ∈ m.liveShuttles) →
      Reading env m (.request (.manager .liveNamespaces) fun names => sweepListed env live names)
  | readNamespaces {live names} : (∀ k ∈ live, k ∈ m.liveShuttles) →
      (∀ k ∈ names, k ∈ m.liveNamespaces) → Reading env m (sweepListed env live names)

/-- Thread `true` is the sweep, thread `false` the reaper. -/
def recovering (env : ServerEnv) (ticks : ℕ) (s : ServerState) : HandlerPool Bool :=
  { thread := fun i => if i then sweepApiOrphans env else spawnSessionReaper env ticks
    state := s }

def Shrunk (m : SessionManager) (world₀ : List Resource) (s : ServerState) : Prop :=
  (∀ j t, s.manager.sessions.lookup j = some t → m.sessions.lookup j = some t) ∧
    ∀ y ∈ s.world, y ∈ world₀

def StillDoes (m : SessionManager) : Bool → Op → Prop
  | true, op => Recovers Shrinks op
  | false, op => Recovers Shrinks op ∧ DropsOnlyLive m op

theorem StillDoes.recovers {i : Bool} {op : Op} (h : StillDoes m i op) : Recovers Shrinks op := by
  cases i with
  | true => exact h
  | false => exact h.1

theorem Shrunk.live {s : ServerState} (h : Shrunk m world₀ s) :
    (∀ k ∈ s.manager.liveShuttles, k ∈ m.liveShuttles) ∧
      ∀ k ∈ s.manager.liveNamespaces, k ∈ m.liveNamespaces := by
  have hvalues : ∀ t ∈ values s.manager.sessions, t ∈ values m.sessions := by
    intro t ht
    obtain ⟨j, hj⟩ := mem_values.mp ht
    exact mem_values.mpr ⟨j, h.1 j t hj⟩
  constructor
  · intro k hk
    obtain ⟨t, ht, rfl⟩ := List.mem_map.mp hk
    exact List.mem_map.mpr ⟨t, hvalues t ht, rfl⟩
  · intro k hk
    obtain ⟨t, ht, rfl⟩ := List.mem_map.mp hk
    exact List.mem_map.mpr ⟨t, hvalues t ht, rfl⟩

variable {q : HandlerPool Bool} {i : Bool} {op : Op} {r : op.Result} {s : ServerState}

theorem shrunk_step (hout : Faithful outside) (hshrunk : Shrunk m world₀ q.state)
    (hop : Recovers Shrinks op) (hs : ServerStep sha256 outside q.state op r s)
    (hg : CallsSucceed q i op r s) : SweptFrom m op r ∧ Shrunk m world₀ s := by
  refine ⟨?_, ?_, ?_⟩
  · cases op with
    | manager o =>
      obtain ⟨now, _, rfl, rfl⟩ := hs
      cases o with
      | sweepExpired =>
        intro t ht
        obtain ⟨j, t', ht', _, rfl⟩ := mem_sweepExpired.mp ht
        exact List.mem_map.mpr ⟨t', mem_values.mpr ⟨j, hshrunk.1 j t' ht'⟩, rfl⟩
      | _ => trivial
    | _ => trivial
  · intro j t ht
    exact hshrunk.1 j t (lookup_step hop hs ht)
  · intro y hy
    exact hshrunk.2 y ((world_step hout hop hs hg).mp hy).1

/-- In every state of a recovery the map and the world have shrunk, and only the sweep drops
shuttles of sessions that are not in the map. -/
theorem recovery_shrinks (hout : Faithful outside) {ticks : ℕ} {s₀ : ServerState}
    (hrun : Execution (ServerStep sha256 outside) CallsSucceed (recovering env ticks s₀) q) :
    Shrunk s₀.manager s₀.world q.state ∧
      ∀ i, (q.thread i).Always (SweptFrom s₀.manager) (StillDoes s₀.manager i) := by
  refine hrun.rely (J := Shrunk s₀.manager s₀.world) ⟨fun _ _ ht => ht, fun _ hy => hy⟩ ?_ ?_
  · intro i
    cases i with
    | true => exact sweep_recovers .liveShuttles .liveNamespaces
    | false => exact reaper_recovers .sweepExpired
  · intro q i op r s hshrunk hop hs hg
    exact shrunk_step hout hshrunk hop.recovers hs hg

/-- A resource that is still there belongs to a session of the map, or some thread is going to
drop it, or the sweep is going to find it. -/
def Destined (env : ServerEnv) (m : SessionManager) (world₀ : List Resource) (n : Names)
    (x : Resource) (q : HandlerPool Bool) : Prop :=
  x ∈ q.state.world → Held n q.state.manager ∨
    (∃ i, (q.thread i).Eventually (Lists x) fun op => Drops op x) ∨
    (Found m world₀ x ∧ Reading env m (q.thread true) ∧ StillListed m world₀ q.state.world)

theorem reading_step (hout : Faithful outside) (hclient : env.apiClient.isSome = true)
    (hfound : Found m world₀ x) (howned : OwnedBy (namesOf sha256 userId id) x)
    (hshrunk : Shrunk m world₀ q.state) {next : op.Result → Handler Unit}
    (hreading : Reading env m (.request op next)) (hlisted : StillListed m world₀ q.state.world)
    (hs : ServerStep sha256 outside q.state op r s) (hg : CallsSucceed q true op r s) :
    (Reading env m (next r) ∧ StillListed m world₀ s.world) ∨
      (next r).Eventually (Lists x) fun op => Drops op x := by
  generalize ht : Program.request op next = t at hreading
  cases hreading with
  | start =>
    unfold sweepApiOrphans Program.when at ht
    split at ht
    · cases ht
      obtain ⟨now, _, rfl, rfl⟩ := hs
      exact Or.inl ⟨.readShuttles hshrunk.live.1, hlisted⟩
    · cases ht
  | readShuttles hlive =>
    cases ht
    obtain ⟨now, _, rfl, rfl⟩ := hs
    exact Or.inl ⟨.readNamespaces hlive hshrunk.live.2, hlisted⟩
  | readNamespaces hlive hnames =>
    cases ht
    refine Or.inr ?_
    obtain ⟨rows, hrows, hshows⟩ := hout.shuttles _ _ hs.1 hg
    cases r with
    | error e => cases hrows
    | ok reply =>
      cases hrows
      exact passes_drop hclient hlive hnames hshrunk.2 hlisted hshows hfound howned

theorem lists_step (hout : Faithful outside) (hx : x ∈ q.state.world)
    (hs : ServerStep sha256 outside q.state op r s) (hg : CallsSucceed q i op r s) :
    Lists x op r := by
  cases op with
  | external c =>
    cases c with
    | api request identity =>
      intro heq
      obtain ⟨rfl, rfl⟩ := ExternalCall.api.inj heq
      obtain ⟨rows, hrows, hall⟩ := hout.connections _ _ hs.1 hg
      refine ⟨rows, hrows, ?_⟩
      rintro name rfl
      exact hall name hx
    | _ => trivial
  | _ => trivial

/-- A step of either thread keeps a resource destined. -/
theorem destined_step (hout : Faithful outside) (hclient : env.apiClient.isSome = true)
    (hn : n = namesOf sha256 userId id) (howned : OwnedBy n x)
    (hshrunk : Shrunk m world₀ q.state) {next : op.Result → Handler Unit}
    (ht : q.thread i = .request op next) (hop : StillDoes m i op)
    (hleads : (q.thread i).LeadsTo anyResult (fun op => Drops op x) (Takes n))
    (hs : ServerStep sha256 outside q.state op r s) (hg : CallsSucceed q i op r s)
    (h : Destined env m world₀ n x q) : Destined env m world₀ n x (q.advance i (next r) s) := by
  intro hw
  rw [Pool.advance_state] at hw ⊢
  obtain ⟨hx, hkept⟩ := (world_step hout hop.recovers hs hg).mp hw
  have hlists := lists_step hout hx hs hg
  rcases h hx with hheld | ⟨j, hj⟩ | ⟨hfound, hreading, hlisted⟩
  · -- the session leaves the map only into the hands of the reaper
    have hcreate : ∀ a, op = .manager (.create a) → namesOf sha256 a.userId a.id = n := by
      rintro a rfl
      cases hop.recovers
    rw [ht] at hleads
    rcases held_advance hs hcreate hleads hheld with hheld' | hdrops
    · exact Or.inl hheld'
    · refine Or.inr (Or.inl ⟨i, ?_⟩)
      rw [Pool.advance_self]
      exact hdrops.weaken fun _ _ _ => trivial
  · rcases Pool.eventually_advance (s := s) ht hlists hj with hj | hdrop
    · exact Or.inr (Or.inl ⟨j, hj⟩)
    · exact absurd hdrop hkept
  · cases i with
    | true =>
      rw [ht] at hreading
      refine Or.inr ?_
      rcases reading_step hout hclient hfound (hn ▸ howned) hshrunk hreading hlisted hs hg with
        ⟨hreading', hlisted'⟩ | hdrops
      · refine Or.inr ⟨hfound, ?_, hlisted'⟩
        rwa [Pool.advance_self]
      · refine Or.inl ⟨true, ?_⟩
        rwa [Pool.advance_self]
    | false =>
      refine Or.inr (Or.inr ⟨hfound, ?_, ?_⟩)
      · rwa [Pool.advance_other _ _ _ (by decide)]
      · intro name connection target hin hfree
        refine (world_step hout hop.recovers hs hg).mpr ⟨hlisted _ _ _ hin hfree, ?_⟩
        exact fun hdrop => hfree (hop.2 _ _ _ hdrop)

theorem recovery_leadsTo (hclient : env.apiClient.isSome = true)
    (hn : n = namesOf sha256 userId id) (howned : OwnedBy n x) {ticks : ℕ} {s : ServerState}
    (i : Bool) : ((recovering env ticks s).thread i).LeadsTo anyResult (fun op => Drops op x)
      (Takes n) := by
  cases i with
  | true =>
    have hsweep : (sweepApiOrphans env).Always anyResult (Recovers fun o => takesOut o = false) :=
      sweep_recovers rfl rfl
    refine keeps_leadsTo (hsweep.mono fun op hop => ?_)
    cases op with
    | manager o => exact hop
    | actionStart => exact hop
    | _ => trivial
  | false => exact reaper_leadsTo hn hclient howned

theorem Reading.requests (hen : Enabled env) {t : Handler Unit} (h : Reading env m t) :
    ∀ a, t ≠ .done a := by
  intro a
  cases h with
  | start =>
    rw [sweepApiOrphans, hen.1, hen.2]
    intro ht
    cases ht
  | readShuttles =>
    intro ht
    cases ht
  | readNamespaces =>
    intro ht
    cases ht

/-- At every moment of a recovery whatever can be found is destined to go. -/
theorem recovery_destined (hout : Faithful outside) (hclient : env.apiClient.isSome = true)
    (hn : n = namesOf sha256 userId id) (howned : OwnedBy n x) {ticks : ℕ} {s₀ : ServerState}
    (hfound : x ∈ s₀.world → ¬ Held n s₀.manager → Found s₀.manager s₀.world x)
    (hrun : Execution (ServerStep sha256 outside) CallsSucceed (recovering env ticks s₀) q) :
    Destined env s₀.manager s₀.world n x q := by
  induction hrun with
  | refl =>
    intro hx
    by_cases hheld : Held n s₀.manager
    · exact Or.inl hheld
    · exact Or.inr (Or.inr ⟨hfound hx hheld, .start, fun _ _ _ hin _ => hin⟩)
  | tail i hrun' ht hs hg ih =>
    obtain ⟨hshrunk, hdoes⟩ := recovery_shrinks hout hrun'
    have hop := hdoes i
    rw [ht] at hop
    have hleads := hrun'.leadsTo (fun _ _ _ _ _ => trivial)
      (recovery_leadsTo hclient hn howned i)
    exact destined_step hout hclient hn howned hshrunk ht hop.1 hleads hs hg ih

/-- The next process, with settings of its own, starts from what the file holds. -/
def restarted (s : ServerState) (b : Reboot) (now : Clock) : ServerState :=
  { s with manager := { b with rows := s.decoded }.boot now, clock := now }

/-- What is left of a session that is not in the map is found through the lists. -/
def Recoverable (sha256 : String → Digest) (s : ServerState) : Prop :=
  ∀ userId id x, x ∈ s.world → OwnedBy (namesOf sha256 userId id) x →
    ¬ Held (namesOf sha256 userId id) s.manager → Found s.manager s.world x

/-- Everything that carries the names of a session belongs to one in the map. -/
def NoOrphans (sha256 : String → Digest) (s : ServerState) : Prop :=
  ∀ userId id x, x ∈ s.world → OwnedBy (namesOf sha256 userId id) x →
    Held (namesOf sha256 userId id) s.manager

/-- Wherever the process stopped: if what it lost can be found, nothing is left of a session
that is not in the map once the sweep and the reaper of the next process have returned. -/
theorem recovery_complete (env : ServerEnv) (b : Reboot) (now : Clock) (ticks : ℕ)
    (crashed : ServerState) (hen : Enabled env) (hout : Faithful outside)
    (hlost : Recoverable sha256 (restarted crashed b now))
    (hrun : Execution (ServerStep sha256 outside) CallsSucceed
      (recovering env ticks (restarted crashed b now)) q)
    (hdone : q.Finished) : NoOrphans sha256 q.state := by
  intro userId id x hx howned
  have hdestined := recovery_destined hout hen.1 rfl howned
    (fun hin hgone => hlost userId id x hin howned hgone) hrun
  rcases hdestined hx with hheld | ⟨i, hi⟩ | ⟨_, hreading, _⟩
  · exact hheld
  · obtain ⟨a, ha⟩ := hdone i
    rw [ha] at hi
    exact hi.elim
  · obtain ⟨a, ha⟩ := hdone true
    exact absurd ha (hreading.requests hen a)

end Run

section Crashes

/-- A scenario on the postgres sidecar that creates its shuttle by a script. -/
def scriptedPostgres : Manifest :=
  { version := 1
    sources := [⟨"postgres", some "postgres"⟩]
    scenarios := [{
      id := "postgres-cdc"
      sourceId := "postgres"
      deployment := []
      initSql := none
      shuttleSql := some "postgres-cdc/shuttle.sql"
      actions := []
      breakScenarios := [] }] }

def cdc : ServerEnv := { configured with manifest := scriptedPostgres }

def registered (world : List Resource) : (c : ExternalCall) → c.Result
  | .api request _ =>
    if request.method == "GET" && request.path == "/api/v1/shuttles" then
      listReply (shuttleRows world)
    else if request.method == "GET" && request.path == "/api/v1/connections" then
      listReply (connectionRows world)
    else .ok (200, .null)
  | .readToString _ => .ok "CREATE SHUTTLE {shuttle}"
  | c => accepted c

def registry : Outside :=
  { reply := fun world c r => r = registered world c
    creates := fun c =>
      match c with
      | .api request _ =>
        if request.method == "POST" && request.path == "/api/v1/shuttles" then
          [.shuttle aliceNames.shuttleName aliceNames.connectionName
            ("warehouse." ++ aliceNames.namespaceName)]
        else []
      | .dispatcher (.provision sidecar name) => [.source sidecar name]
      | _ => []
    removes := dropsNamed }

theorem shuttleRows_shows (world : List Resource) : Shows (shuttleRows world) world where
  listed name connection target h := by
    exact ⟨_, mem_shuttleRows.mpr ⟨name, connection, target, h, rfl⟩, rfl, rfl, rfl⟩
  held row hrow name connection hname hconnection := by
    obtain ⟨k, c, target, hheld, rfl⟩ := mem_shuttleRows.mp hrow
    cases hname
    cases hconnection
    exact ⟨target, hheld⟩

theorem mem_connectionRows {world : List Resource} {name : String}
    (h : .connection name ∈ world) : connectionRow name ∈ connectionRows world :=
  List.mem_filterMap.mpr ⟨_, h, rfl⟩

theorem registry_faithful : Faithful registry where
  creates c hc := by
    cases c with
    | api request identity =>
      have hpost : request.method ≠ "POST" := by
        rcases hc with hmethod | hmethod
        · simp [hmethod]
        · simp [hmethod]
      simp [registry, hpost]
    | dispatcher call =>
      cases call with
      | provision => exact hc.elim
      | _ => rfl
    | _ => rfl
  removes c x _ := dropsNamed_iff
  shuttles world r hr _ := ⟨_, by rw [hr]; rfl, shuttleRows_shows world⟩
  connections world r hr _ :=
    ⟨_, by rw [hr]; rfl, fun name h => ⟨connectionRow name, mem_connectionRows h, rfl⟩⟩

def succeed (_ : Unit) (q : HandlerPool Bool) (op : Op) : Option (op.Result × ServerState) :=
  q.state.carryOut (fun _ => 0) registry registered (atSecond 0) op

theorem registered_succeeds (world : List Resource) (c : ExternalCall) :
    Succeeded c (registered world c) := by
  cases c with
  | api request identity =>
    simp only [registered]
    split
    · exact ⟨_, rfl⟩
    · split
      · exact ⟨_, rfl⟩
      · exact ⟨_, rfl⟩
  | readToString path => exact ⟨_, rfl⟩
  | _ => exact accepted_succeeds _

theorem replay_succeeds {script : List (Bool × Unit)} {p q : HandlerPool Bool}
    (h : p.replay succeed script = some q) :
    Execution (ServerStep (fun _ => 0) registry) CallsSucceed p q := by
  refine Pool.replay_execution ?_ script h
  intro d p i op r s' hr
  refine ⟨carryOut_step (fun _ _ => rfl) hr, ?_⟩
  cases op with
  | external c =>
    cases hr
    exact registered_succeeds _ c
  | _ => trivial

/-- A session is created, and ended by the other thread. -/
def firstLife : HandlerPool Bool :=
  { thread := fun i =>
      if i then bestEffort (endSession cdc alice 1)
      else bestEffort (createSession cdc alice 1 ⟨"postgres-cdc", none⟩)
    state :=
      { manager := .new scriptedPostgres true defaultTtl
        clock := atSecond 0
        file := none
        tmp := none
        world := [] } }

/-- The run up to a number of operations of the thread that ends the session. -/
def crashAfter (ended : ℕ) : List (Bool × Unit) :=
  List.replicate 22 (false, ()) ++ List.replicate ended (true, ())

def nextBoot : Reboot :=
  { rows := []
    manifest := scriptedPostgres
    enabled := true
    defaultTtl := defaultTtl
    path := "sessions.json" }

/-- The recovery with one tick of the reaper before the sweep. -/
def secondLife (crashed : HandlerPool Bool) : HandlerPool Bool :=
  recovering cdc 1 (restarted crashed.state nextBoot (atSecond 0))

def recoverWith (swept : ℕ) : List (Bool × Unit) :=
  (false, ()) :: List.replicate swept (true, ())

def returned (q : HandlerPool Bool) : Bool := (q.thread false).isDone && (q.thread true).isDone

theorem returned_finished {q : HandlerPool Bool} (h : returned q = true) : q.Finished := by
  simp only [returned, Bool.and_eq_true, Program.isDone_iff] at h
  intro i
  cases i with
  | false => exact h.1
  | true => exact h.2

def aliceWorld : List Resource :=
  [.source .postgres aliceNames.namespaceName,
    .shuttle aliceNames.shuttleName aliceNames.connectionName
      ("warehouse." ++ aliceNames.namespaceName)]

def aliceRow : Value :=
  .object [("name", .string aliceNames.shuttleName),
    ("connection", .string aliceNames.connectionName),
    ("target", .string ("warehouse." ++ aliceNames.namespaceName))]

theorem aliceWorld_found {m : SessionManager} (hlive : m.liveShuttles = [])
    (hnames : m.liveNamespaces = []) {x : Resource} (hx : x ∈ aliceWorld) :
    Found m aliceWorld x := by
  have hrow : aliceRow ∈ shuttleRows aliceWorld := List.mem_singleton_self _
  have htorn : TornDownAs m aliceRow
      ⟨aliceNames.shuttleName, aliceNames.connectionName, aliceNames.namespaceName⟩ := by
    unfold TornDownAs
    rw [hlive, hnames]
    decide +kernel
  rcases List.mem_cons.mp hx with rfl | hx
  · exact .source _ hrow htorn
  · rw [List.mem_singleton.mp hx]
    exact .shuttle _ _ hrow htorn

/-- The process stops after the session's removal is in the file and before its teardown. -/
theorem recovery_complete_ended : ∃ crashed q : HandlerPool Bool,
    Execution (ServerStep (fun _ => 0) registry) CallsSucceed firstLife crashed ∧
    crashed.state.world = aliceWorld ∧
    Execution (ServerStep (fun _ => 0) registry) CallsSucceed (secondLife crashed) q ∧
    NoOrphans (fun _ => 0) q.state := by
  obtain ⟨crashed, hcrashed, hcheck⟩ : ∃ crashed, firstLife.replay succeed (crashAfter 5) =
      some crashed ∧ (crashed.state.world == aliceWorld && crashed.state.decoded.isEmpty &&
        ((secondLife crashed).replay succeed (recoverWith 14)).any returned) = true :=
    (Option.any_eq_true _ _).mp (by decide +kernel)
  simp only [Bool.and_eq_true, beq_iff_eq, List.isEmpty_iff, Option.any_eq_true] at hcheck
  obtain ⟨⟨hworld, hfile⟩, q, hq, hreturned⟩ := hcheck
  have hlost : Recoverable (fun _ => 0) (restarted crashed.state nextBoot (atSecond 0)) := by
    intro userId id x hx _ _
    have hsame : (restarted crashed.state nextBoot (atSecond 0)).world = aliceWorld := hworld
    have hmap : (restarted crashed.state nextBoot (atSecond 0)).manager =
        nextBoot.boot (atSecond 0) := by
      unfold restarted
      rw [hfile]
      rfl
    rw [hsame] at hx ⊢
    rw [hmap]
    exact aliceWorld_found rfl rfl hx
  have hrun := replay_succeeds hq
  exact ⟨crashed, q, replay_succeeds hcrashed, hworld, hrun,
    recovery_complete cdc nextBoot (atSecond 0) 1 crashed.state ⟨rfl, rfl⟩ registry_faithful hlost
      hrun (returned_finished hreturned)⟩

/-- The process stops after the first call of the teardown: no list shows the session any
more, and its schema stays. -/
theorem schema_not_recovered : ¬ ∀ (sha256 : String → Digest) (outside : Outside)
    (env : ServerEnv) (identity : Identity) (id : Uuid) (body : CreateSessionBody) (b : Reboot)
    (now : Clock) (ticks : ℕ) (p crashed q : HandlerPool Bool), Enabled env → Faithful outside →
    p.thread true = bestEffort (endSession env identity id) →
    p.thread false = bestEffort (createSession env identity id body) →
    p.state.manager.sessions = ∅ → p.state.world = [] →
    Execution (ServerStep sha256 outside) CallsSucceed p crashed →
    Execution (ServerStep sha256 outside) CallsSucceed
      (recovering env ticks (restarted crashed.state b now)) q →
    q.Finished → NoOrphans sha256 q.state := by
  intro h
  obtain ⟨crashed, hcrashed, hcheck⟩ : ∃ crashed, firstLife.replay succeed (crashAfter 6) =
      some crashed ∧ ((secondLife crashed).replay succeed (recoverWith 4)).any (fun q =>
        returned q && q.state.world.contains (.source .postgres aliceNames.namespaceName) &&
          q.state.manager.sessions.keys.isEmpty) = true :=
    (Option.any_eq_true _ _).mp (by decide +kernel)
  simp only [Option.any_eq_true, Bool.and_eq_true, List.contains_iff_mem, List.isEmpty_iff]
    at hcheck
  obtain ⟨q, hq, ⟨hreturned, hschema⟩, hempty⟩ := hcheck
  have hclean := h (fun _ => 0) registry cdc alice 1 ⟨"postgres-cdc", none⟩ nextBoot (atSecond 0) 1
    firstLife crashed q ⟨rfl, rfl⟩ registry_faithful rfl rfl rfl rfl (replay_succeeds hcrashed)
    (replay_succeeds hq) (returned_finished hreturned)
  obtain ⟨j, s, hs, _⟩ := hclean "u1" 1 _ hschema (.source .postgres)
  have hkey : j ∈ q.state.manager.sessions.keys := AList.mem_keys.mp
    (AList.lookup_isSome.mp (Option.isSome_iff_exists.mpr ⟨s, hs⟩))
  rw [hempty] at hkey
  cases hkey

end Crashes

end PlaygroundCrashRecovery
