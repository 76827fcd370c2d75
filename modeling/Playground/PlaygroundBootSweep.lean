import Playground.PlaygroundOrphanSweep
import Playground.PlaygroundResources

/-! # The boot sweep beside other handlers

The sweep reads the live names first and the list of shuttles afterwards, and keeps using both.
A session that appears in between is listed and not live. -/
namespace PlaygroundBootSweep

open HashMaps
open InteractionPrograms
open PlaygroundApiClient
open PlaygroundCleanup
open PlaygroundHandlers
open PlaygroundManagerRuns
open PlaygroundManifest (Manifest Value)
open PlaygroundNames
open PlaygroundOperations
open PlaygroundOrphanSweep
open PlaygroundResources
open PlaygroundServer
open PlaygroundSessionManager
open PlaygroundSessions

inductive NamesShuttle : Op → String → Prop where
  | delete (identity name) : NamesShuttle (deleteShuttle identity name) name
  | publication (name) : NamesShuttle (dispatcherOp (.dropPublication (name ++ "_pub"))) name
  | replicationSlot (name) :
      NamesShuttle (dispatcherOp (.dropReplicationSlot (name ++ "_slot"))) name

inductive NamesNamespace (env : ServerEnv) : Op → String → Prop where
  | delete (identity name) : NamesNamespace env (deleteNamespace identity name) name
  | purge {op} (name) : op ∈ purgeOps env name → NamesNamespace env op name
  | source (sidecar name) :
      NamesNamespace env (dispatcherOp (.teardown sidecar name)) name

section Quoting

theorem shellQuote_identifier {s : String} (h : isSafeIdentifier s = true) :
    (shellQuote s).toList = '\'' :: (s.toList ++ ['\'']) := by
  have hquote : ∀ l : List Char, (∀ c ∈ l, identifierChar c = true) →
      l.flatMap (fun c => if c == '\'' then ['\'', '\\', '\'', '\''] else [c]) = l := by
    intro l hl
    induction l with
    | nil => rfl
    | cons c cs ih =>
      have hc : (c == '\'') = false := by
        by_contra hq
        simp only [Bool.not_eq_false, beq_iff_eq] at hq
        subst hq
        exact absurd (hl '\'' List.mem_cons_self) (by decide)
      rw [List.flatMap_cons, ih fun d hd => hl d (List.mem_cons_of_mem _ hd), hc]
      rfl
  unfold shellQuote
  rw [String.toList_ofList, hquote _ (isSafeIdentifier_chars h).2]
  rfl

theorem quoted_inj {a b x y : List Char} (ha : '\'' ∉ a) (hb : '\'' ∉ b)
    (h : a ++ '\'' :: x = b ++ '\'' :: y) : a = b := by
  have htake : ∀ l t : List Char, '\'' ∉ l → (l ++ '\'' :: t).takeWhile (· != '\'') = l := by
    intro l t hl
    rw [List.takeWhile_append_of_pos]
    · simp
    · intro c hc
      have hne : c ≠ '\'' := fun e => hl (e ▸ hc)
      simpa using hne
  rw [← htake a x ha, h, htake b y hb]

theorem identifier_unquoted {s : String} (h : isSafeIdentifier s = true) : '\'' ∉ s.toList := by
  intro hc
  exact absurd ((isSafeIdentifier_chars h).2 _ hc) (by decide)

theorem purgeOps_inj {env : ServerEnv} {op : Op} {n k : String} (hn : isSafeIdentifier n = true)
    (hk : isSafeIdentifier k = true) (h : op ∈ purgeOps env n) (h' : op ∈ purgeOps env k) :
    n = k := by
  obtain ⟨access, secret, haccess, hsecret, heq⟩ := (mem_purgeOps env).mp h
  obtain ⟨access', secret', haccess', hsecret', heq'⟩ := (mem_purgeOps env).mp h'
  rw [haccess, Option.some.injEq] at haccess'
  rw [hsecret, Option.some.injEq] at hsecret'
  rw [← haccess', ← hsecret', heq] at heq'
  simp only [Op.external.injEq, ExternalCall.command.injEq, List.cons.injEq, and_true,
    true_and] at heq'
  have hlist := congrArg String.toList heq'
  unfold purgeCommand at hlist
  simp only [String.toList_append, List.append_assoc, List.append_cancel_left_eq,
    shellQuote_identifier hn, shellQuote_identifier hk, List.cons_append, List.cons.injEq,
    true_and] at hlist
  exact String.toList_injective
    (quoted_inj (identifier_unquoted hn) (identifier_unquoted hk) hlist)

end Quoting

section Names

variable {env : ServerEnv} {o : Orphan} {op : Op} {k : String}

theorem teardown_namesShuttle
    (h : op ∈ teardownOps env sweeperIdentity o.name o.connection o.namespaceName)
    (hk : NamesShuttle op k) : k = o.name := by
  have hdispatcher : ∀ c, op = dispatcherOp c → (∀ sidecar n, c ≠ .teardown sidecar n) →
      op ∈ replicationOps o.name := by
    rintro c rfl hc
    rcases ((dispatcher_mem_teardown env sweeperIdentity).mp h).2.2 with hrep | ⟨_, rfl⟩
    · exact hrep
    · exact absurd rfl (hc _ _)
  cases hk with
  | delete identity name =>
    rcases ((api_mem_teardown env sweeperIdentity).mp h).2 with heq | ⟨_, heq⟩ | ⟨_, heq⟩
    · exact (deleteShuttle_inj.mp heq).1
    · exact absurd heq deleteShuttle_ne_namespace
    · exact absurd heq deleteShuttle_ne_connection
  | publication name =>
    rcases replicationOps_dispatcher (hdispatcher _ rfl (by simp)) with heq | heq
    · simpa [dispatcherOp] using heq
    · cases heq
  | replicationSlot name =>
    rcases replicationOps_dispatcher (hdispatcher _ rfl (by simp)) with heq | heq
    · cases heq
    · simpa [dispatcherOp] using heq

theorem teardown_namesNamespace
    (h : op ∈ teardownOps env sweeperIdentity o.name o.connection o.namespaceName)
    (hsafe : isSafeIdentifier k = true) (hk : NamesNamespace env op k) : k = o.namespaceName := by
  cases hk with
  | delete identity name =>
    rcases ((api_mem_teardown env sweeperIdentity).mp h).2 with heq | ⟨_, heq⟩ | ⟨_, heq⟩
    · exact absurd heq deleteNamespace_ne_shuttle
    · exact (deleteNamespace_inj.mp heq).1
    · exact absurd heq deleteNamespace_ne_connection
  | purge name hmem =>
    obtain ⟨args, rfl⟩ := purgeOps_command env hmem
    obtain ⟨_, hn, hpurge⟩ := (command_mem_teardown env sweeperIdentity).mp h
    exact purgeOps_inj hsafe hn hmem hpurge
  | source sidecar name =>
    rcases ((dispatcher_mem_teardown env sweeperIdentity).mp h).2.2 with hrep | ⟨_, heq⟩
    · rcases replicationOps_dispatcher hrep with heq | heq <;> cases heq
    · cases heq
      rfl

end Names

section Run

variable {ι : Type} [DecidableEq ι] {sha256 : String → Digest} {outside : Outside}
  {env : ServerEnv} {live names : List String} {rows : List Value} {sweeper : ι}

/-- The sweep has read the live shuttle names. -/
def Sweeping (sweeper : ι) (q : HandlerPool ι) : Prop :=
  ¬ (q.thread sweeper).Starts fun op => op = .manager .liveShuttles

def Picked (live names : List String) (row : Value) (o : Orphan) : Prop :=
  orphanOf live names row = some o ∧ isSafeIdentifier o.name = true

/-- No listed shuttle that the sweep picks names the shuttle or the namespace of the session. -/
def Unpicked (live names : List String) (rows : List Value) (s : Session) : Prop :=
  ∀ row ∈ rows, ∀ o, Picked live names row o →
    s.shuttleName ≠ o.name ∧ s.namespaceName ≠ o.namespaceName

/-- What the sweep reads: the live shuttles, the live namespaces, the listed shuttles. -/
def Reads (sweeper : ι) (live names : List String) (rows : List Value) :
    Guard ι Op Op.Result Unit ServerState
  | _, i, .manager .liveShuttles, r, _ => i = sweeper → r = live
  | _, i, .manager .liveNamespaces, r, _ => i = sweeper → r = names
  | _, i, .external (.api request _), r, _ => i = sweeper →
    request = ⟨"GET", "/api/v1/shuttles", none⟩ → ∀ listed, rowsOf r = some listed → listed = rows
  | _, _, _, _, _ => True

/-- A session created while the sweep is under way is not picked by it. -/
def CreatesUnpicked (sweeper : ι) (live names : List String) (rows : List Value) :
    Guard ι Op Op.Result Unit ServerState
  | q, _, .manager (.create _), r, _ =>
    Sweeping sweeper q → ∀ s, r = .ok s → Unpicked live names rows s
  | _, _, _, _, _ => True

def Apart (sweeper : ι) (live names : List String) (rows : List Value) :
    Guard ι Op Op.Result Unit ServerState :=
  fun q i op r s => Reads sweeper live names rows q i op r s ∧
    CreatesUnpicked sweeper live names rows q i op r s

/-- The shuttle-pass calls that are still to come name only what was picked. -/
def NamesPicked (env : ServerEnv) (live names : List String) (rows : List Value) (op : Op) :
    Prop :=
  op ≠ .manager .liveShuttles ∧
    (∀ k, NamesShuttle op k → ∃ row ∈ rows, ∃ o, Picked live names row o ∧ k = o.name) ∧
    ∀ k, isSafeIdentifier k = true → NamesNamespace env op k →
      ∃ row ∈ rows, ∃ o, Picked live names row o ∧ k = o.namespaceName

theorem picked_not_live {row : Value} {o : Orphan} (h : Picked live names row o) :
    o.name ∉ live ∧ o.namespaceName ∉ names := by
  have ho := h.1
  unfold orphanOf at ho
  split at ho
  · split at ho
    · cases ho
    · split at ho
      · cases ho
      · rename_i hlive
        cases ho
        simpa using hlive
  · cases ho

def passes (env : ServerEnv) (live names : List String) (rows : List Value) : Handler Unit := do
  Program.forEach rows (sweepShuttle env live names)
  match ← call getConnections with
  | .error _ => .done ()
  | .ok (_, w) => Program.forEach (listed w) (sweepConnection live rows)

theorem sweepShuttle_namesPicked {row : Value} (hrow : row ∈ rows) :
    (sweepShuttle env live names row).Always anyResult (NamesPicked env live names rows) := by
  refine (performs_sweepShuttle env live names row).always ?_
  intro op hop
  unfold sweepShuttleOps at hop
  cases ho : orphanOf live names row with
  | none => simp [ho] at hop
  | some o =>
    simp only [ho] at hop
    have hpicked : Picked live names row o := ⟨ho, ((mem_teardown env sweeperIdentity).mp hop).1.1⟩
    refine ⟨?_, ?_, ?_⟩
    · rintro rfl
      exact manager_not_mem_teardown env sweeperIdentity hop
    · exact fun k hk => ⟨row, hrow, o, hpicked, teardown_namesShuttle hop hk⟩
    · exact fun k hsafe hk => ⟨row, hrow, o, hpicked, teardown_namesNamespace hop hsafe hk⟩

def NamesNothing (env : ServerEnv) (op : Op) : Prop :=
  (∀ k, ¬ NamesShuttle op k) ∧ ∀ k, ¬ NamesNamespace env op k

theorem manager_namesNothing (o : ManagerOp) : NamesNothing env (.manager o) := by
  constructor
  · intro k hk
    cases hk
  · intro k hk
    cases hk with
    | purge _ hmem =>
      obtain ⟨args, heq⟩ := purgeOps_command env hmem
      cases heq

theorem api_namesNothing {r : ApiRequest} {i : Identity}
    (hs : ∀ j k, .external (.api r i) ≠ deleteShuttle j k)
    (hn : ∀ j k, .external (.api r i) ≠ deleteNamespace j k) :
    NamesNothing env (.external (.api r i)) := by
  constructor
  · intro k hk
    generalize hop : Op.external (.api r i) = op at hk
    cases hk with
    | delete identity => exact hs identity k hop
    | publication | replicationSlot => cases hop
  · intro k hk
    generalize hop : Op.external (.api r i) = op at hk
    cases hk with
    | delete identity => exact hn identity k hop
    | purge _ hmem =>
      obtain ⟨args, heq⟩ := purgeOps_command env hmem
      cases hop.trans heq
    | source => cases hop

theorem list_namesNothing (path : String) :
    NamesNothing env (.external (.api ⟨"GET", path, none⟩ sweeperIdentity)) :=
  api_namesNothing (by simp [deleteShuttle]) (by simp [deleteNamespace])

theorem NamesNothing.picked {op : Op} (h : NamesNothing env op)
    (hop : op ≠ .manager .liveShuttles) : NamesPicked env live names rows op :=
  ⟨hop, fun k hk => absurd hk (h.1 k), fun k _ hk => absurd hk (h.2 k)⟩

theorem sweepConnection_namesPicked {c : Value} :
    (sweepConnection live rows c).Always anyResult (NamesPicked env live names rows) := by
  refine (performs_sweepConnection live rows c).always ?_
  intro op hop
  cases hst : staleConnection live rows c with
  | none => simp [sweepConnectionOps, hst] at hop
  | some name =>
    rw [sweepConnectionOps_stale hst, List.mem_singleton] at hop
    subst hop
    refine NamesNothing.picked (api_namesNothing ?_ ?_) (by simp [deleteConnection])
    · exact fun j k => deleteConnection_ne_shuttle
    · exact fun j k => deleteConnection_ne_namespace

theorem passes_namesPicked :
    (passes env live names rows).Always anyResult (NamesPicked env live names rows) := by
  refine (Program.always_forEach fun row hrow => sweepShuttle_namesPicked hrow).bind fun _ => ?_
  refine ⟨(list_namesNothing _).picked (by simp), fun r _ => ?_⟩
  cases r with
  | error e => trivial
  | ok reply => exact Program.always_forEach fun c _ => sweepConnection_namesPicked

/-- How far the sweep has come: before its first read, after the live shuttles, after the live
namespaces, after the list. -/
inductive Stage (env : ServerEnv) (live names : List String) (rows : List Value) :
    ℕ → Handler Unit → Prop where
  | start : Stage env live names rows 0 (sweepApiOrphans env)
  | readShuttles : Stage env live names rows 1
      (.request (.manager .liveNamespaces) fun read => sweepListed env live read)
  | readNamespaces : Stage env live names rows 2 (sweepListed env live names)
  | listed {t} : t.Always anyResult (NamesPicked env live names rows) →
      Stage env live names rows 2 t

/-- What is known of every session of the map at each stage. -/
def SparedAt (live names : List String) (rows : List Value) : ℕ → Session → Prop
  | 0, _ => True
  | 1, s => ∀ row ∈ rows, ∀ o, Picked live names row o → s.shuttleName ≠ o.name
  | _, s => Unpicked live names rows s

theorem sparedAt_of_unpicked {s : Session} (h : Unpicked live names rows s) (k : ℕ) :
    SparedAt live names rows k s := by
  match k with
  | 0 => trivial
  | 1 => exact fun row hrow o ho => (h row hrow o ho).1
  | _ + 2 => exact h

theorem sparedAt_names {s t : Session} (h : sessionNames t = sessionNames s) {k : ℕ}
    (hs : SparedAt live names rows k s) : SparedAt live names rows k t := by
  obtain ⟨hshuttle, _, hnamespace⟩ := Names.mk.injEq .. ▸ h
  match k with
  | 0 => trivial
  | 1 => exact fun row hrow o ho => hshuttle ▸ hs row hrow o ho
  | _ + 2 => exact fun row hrow o ho => by rw [hshuttle, hnamespace]; exact hs row hrow o ho

def AllSpared (live names : List String) (rows : List Value) (k : ℕ) (m : SessionManager) :
    Prop := ∀ id s, m.sessions.lookup id = some s → SparedAt live names rows k s

theorem Stage.sweeping {k : ℕ} {t : Handler Unit} (h : Stage env live names rows k t)
    (hk : k ≠ 0) : ¬ t.Starts fun op => op = .manager .liveShuttles := by
  cases h with
  | start => exact absurd rfl hk
  | readShuttles => simp [Program.Starts]
  | readNamespaces => simp [sweepListed, call, Program.Starts]
  | listed ht => exact (ht.mono fun op hop => hop.1).not_starts

variable {p q : HandlerPool ι} {i : ι}

omit [DecidableEq ι] in
/-- A step of any handler keeps the sessions spared: names never change, and new sessions
are not picked. -/
theorem spared_step {k : ℕ} {op : Op} {r : op.Result} {s : ServerState}
    (hs : ServerStep sha256 outside q.state op r s)
    (hg : CreatesUnpicked sweeper live names rows q i op r s)
    (hstage : Stage env live names rows k (q.thread sweeper))
    (h : AllSpared live names rows k q.state.manager) :
    AllSpared live names rows k s.manager := by
  cases op with
  | manager o =>
    obtain ⟨now, _, rfl, rfl⟩ := hs
    intro id t ht
    cases run_origin ht with
    | kept hk => exact h id t hk
    | created ho hid hc hl =>
      subst ho
      by_cases hk : k = 0
      · subst hk
        trivial
      · exact sparedAt_of_unpicked (hg (hstage.sweeping hk) _ (create_ok hc hl)) k
    | updated _ hk _ => exact sparedAt_names (SameSession.names (apply_same _ _ _)) (h id _ hk)
    | @touched _ t _ hk _ =>
      have hsame : sessionNames { t with lastActionAt := some now.mono } = sessionNames t := rfl
      exact sparedAt_names hsame (h id t hk)
  | _ =>
    rw [step_manager hs (by simp)]
    exact h

omit [DecidableEq ι] in
/-- The sweep's own step moves it to the next stage, where the sessions of the map are known to
be spared by what it has just read. -/
theorem sweep_step {k : ℕ} {op : Op} {next : op.Result → Handler Unit} {r : op.Result}
    {s : ServerState} (hstage : Stage env live names rows k (.request op next))
    (hs : ServerStep sha256 outside q.state op r s)
    (hg : Reads sweeper live names rows q sweeper op r s)
    (h : AllSpared live names rows k s.manager) :
    ∃ k', Stage env live names rows k' (next r) ∧ AllSpared live names rows k' s.manager := by
  generalize ht : Program.request op next = t at hstage
  cases hstage with
  | start =>
    unfold sweepApiOrphans Program.when at ht
    split at ht
    · cases ht
      obtain ⟨now, _, hr, rfl⟩ := hs
      have hlive : r = live := hg rfl
      subst hlive
      refine ⟨1, .readShuttles, ?_⟩
      intro id t hid row hrow o ho heq
      refine (picked_not_live ho).1 ?_
      rw [hr, ← heq]
      exact List.mem_map.mpr ⟨t, mem_values.mpr ⟨id, hid⟩, rfl⟩
    · cases ht
  | readShuttles =>
    cases ht
    obtain ⟨now, _, hr, rfl⟩ := hs
    have hnames : r = names := hg rfl
    subst hnames
    refine ⟨2, .readNamespaces, ?_⟩
    intro id t hid row hrow o ho
    refine ⟨h id t hid row hrow o ho, fun heq => (picked_not_live ho).2 ?_⟩
    rw [hr, ← heq]
    exact List.mem_map.mpr ⟨t, mem_values.mpr ⟨id, hid⟩, rfl⟩
  | readNamespaces =>
    cases ht
    refine ⟨2, .listed ?_, h⟩
    cases r with
    | error e => trivial
    | ok reply =>
      have hrows : PlaygroundCleanup.listed reply.2 = rows := hg rfl rfl _ rfl
      subst hrows
      exact passes_namesPicked
  | listed halways =>
    subst ht
    exact ⟨2, .listed (halways.2 r trivial), h⟩

omit [DecidableEq ι] in
theorem Stage.next_names {k : ℕ} {op : Op} {next : op.Result → Handler Unit}
    (h : Stage env live names rows k (.request op next)) :
    NamesNothing env op ∨ (k = 2 ∧ NamesPicked env live names rows op) := by
  generalize ht : Program.request op next = t at h
  cases h with
  | start =>
    unfold sweepApiOrphans Program.when at ht
    split at ht
    · cases ht
      exact Or.inl (manager_namesNothing _)
    · cases ht
  | readShuttles =>
    cases ht
    exact Or.inl (manager_namesNothing _)
  | readNamespaces =>
    cases ht
    exact Or.inl (list_namesNothing _)
  | listed halways =>
    subst ht
    exact Or.inr ⟨rfl, halways.1⟩

/-- At every moment of a run, the next call of the sweep names no shuttle and no namespace of a
session in the map. -/
theorem sweep_spares_sessions (env : ServerEnv) (live names : List String) (rows : List Value)
    (hp : p.thread sweeper = sweepApiOrphans env) (hw : AllWellFormed sha256 p.state.manager)
    (h : Execution (ServerStep sha256 outside) (Apart sweeper live names rows) p q) {op : Op}
    {next : op.Result → Handler Unit} (ht : q.thread sweeper = .request op next) {id : Uuid}
    {s : Session} (hs : q.state.manager.sessions.lookup id = some s) :
    ¬ NamesShuttle op s.shuttleName ∧ ¬ NamesNamespace env op s.namespaceName := by
  have hinv := h.invariant (I := fun q => AllWellFormed sha256 q.state.manager ∧
    ∃ k, Stage env live names rows k (q.thread sweeper) ∧
      AllSpared live names rows k q.state.manager) ?_ ?_
  · obtain ⟨hwell, k, hstage, hspared⟩ := hinv
    rw [ht] at hstage
    rcases hstage.next_names with hnothing | ⟨rfl, hpicked⟩
    · exact ⟨hnothing.1 _, hnothing.2 _⟩
    · constructor
      · intro hk
        obtain ⟨row, hrow, o, ho, heq⟩ := hpicked.2.1 _ hk
        exact (hspared id s hs row hrow o ho).1 heq
      · intro hk
        have hsafe : isSafeIdentifier s.namespaceName = true := by
          rw [(hwell id s hs).namespaceName]
          exact (deriveNamespace_form sha256 s.userId s.id).safe
        obtain ⟨row, hrow, o, ho, heq⟩ := hpicked.2.2 _ hsafe hk
        exact (hspared id s hs row hrow o ho).2 heq
  · rw [hp]
    exact ⟨hw, 0, .start, fun _ _ _ => trivial⟩
  · intro q j op next r s hq ht hs hg
    obtain ⟨hwell, k, hstage, hspared⟩ := hq
    have hspared' := spared_step hs hg.2 hstage hspared
    refine ⟨step_wellFormed hs hwell, ?_⟩
    by_cases hj : sweeper = j
    · subst hj
      rw [ht] at hstage
      rw [Pool.advance_self]
      exact sweep_step hstage hs hg.1 hspared'
    · rw [Pool.advance_other _ _ _ hj]
      exact ⟨k, hstage, hspared'⟩

end Run

section Boot

def scriptedScenario : Manifest :=
  { version := 1
    sources := []
    scenarios := [{
      id := "generator"
      sourceId := "in-memory"
      deployment := []
      initSql := none
      shuttleSql := some "generator/shuttle.sql"
      actions := []
      breakScenarios := [] }] }

def scripted : ServerEnv := { configured with manifest := scriptedScenario }

/-- The API answers lists with what it holds; the example file holds one statement. -/
def answers (world : List Resource) : (c : ExternalCall) → c.Result
  | .api request _ =>
    if request.path == "/api/v1/shuttles" && request.method == "GET" then
      listReply (shuttleRows world)
    else .ok (200, .null)
  | .readToString _ =>
    .ok "CREATE SHUTTLE {shuttle}"
  | c => accepted c

def api : Outside :=
  { reply := fun world c r => r = answers world c
    creates := fun c =>
      match c with
      | .api request _ =>
        if request.path == "/api/v1/shuttles" && request.method == "POST" then
          [.shuttle aliceNames.shuttleName aliceNames.connectionName
            ("warehouse." ++ aliceNames.namespaceName)]
        else []
      | _ => []
    removes := dropsNamed }

/-- Alice's shuttle and one that a forgotten session left behind. -/
def listedShuttles : List Resource :=
  [.shuttle aliceNames.shuttleName aliceNames.connectionName
      ("warehouse." ++ aliceNames.namespaceName),
    .shuttle "pg_old" "pg_old_src" "warehouse.playground_old"]

def bob : Identity := ⟨"u2", none, none, "jwt"⟩

def bobArgs : SessionManager.CreateArgs := createArgs bob (1 <<< 96) ⟨"mongo-cdc", none⟩

def bobSession : Session :=
  .new (fun _ => 0) (1 <<< 96) (atSecond 0) "u2" none "mongo-cdc" defaultTtl

def twoSessions : SessionManager :=
  ((ManagerOp.create bobArgs).run (fun _ => 0) oneSession (atSecond 0)).2

theorem twoSessions_first : twoSessions.sessions.lookup 1 = some firstSession := rfl

theorem twoSessions_bob : twoSessions.sessions.lookup bobArgs.id = some bobSession := rfl

theorem listed_picked {o : Orphan} {row : Value} (hrow : row ∈ shuttleRows listedShuttles)
    (ho : Picked oneSession.liveShuttles oneSession.liveNamespaces row o) :
    o = ⟨"pg_old", "pg_old_src", "playground_old"⟩ := by
  have hrows : ∀ row ∈ shuttleRows listedShuttles,
      orphanOf oneSession.liveShuttles oneSession.liveNamespaces row = none ∨
      orphanOf oneSession.liveShuttles oneSession.liveNamespaces row =
        some ⟨"pg_old", "pg_old_src", "playground_old"⟩ := by
    intro row hrow
    simp only [shuttleRows, listedShuttles, List.filterMap_cons, List.filterMap_nil, List.mem_cons,
      List.not_mem_nil, or_false] at hrow
    rcases hrow with rfl | rfl
    · left
      decide +kernel
    · right
      decide +kernel
  rcases hrows row hrow with hnone | hsome
  · rw [ho.1] at hnone
    cases hnone
  · rw [ho.1] at hsome
    exact Option.some.inj hsome

theorem bob_unpicked {s : Session}
    (hs : ((ManagerOp.create bobArgs).run (fun _ => 0) oneSession (atSecond 0)).1 = .ok s) :
    Unpicked oneSession.liveShuttles oneSession.liveNamespaces (shuttleRows listedShuttles) s := by
  have hbob : s = bobSession := by
    have h : ((ManagerOp.create bobArgs).run (fun _ => 0) oneSession (atSecond 0)).1 =
        .ok bobSession := rfl
    rw [h] at hs
    exact (Except.ok.inj hs).symm
  subst hbob
  intro row hrow o ho
  rw [listed_picked hrow ho]
  have hnames : bobSession.shuttleName ≠ "pg_old" ∧
      bobSession.namespaceName ≠ "playground_old" := by decide +kernel
  exact hnames

def rebooted : HandlerPool Bool :=
  { thread := fun j =>
      if j then sweepApiOrphans configured
      else bestEffort (createSession configured bob (1 <<< 96) ⟨"mongo-cdc", none⟩)
    state :=
      { manager := oneSession
        clock := atSecond 0
        file := none
        tmp := none
        world := listedShuttles } }

theorem sweep_spares_sessions_listed : ∃ q, Execution (ServerStep (fun _ => 0) api)
    (Apart true oneSession.liveShuttles oneSession.liveNamespaces (shuttleRows listedShuttles))
    rebooted q ∧ q.state.manager = twoSessions ∧
      (q.thread true).isDone = false ∧
      ∀ op (next : op.Result → Handler Unit), q.thread true = .request op next →
        ∀ s ∈ [firstSession, bobSession],
          ¬ NamesShuttle op s.shuttleName ∧ ¬ NamesNamespace configured op s.namespaceName := by
  obtain ⟨q, hrun, hmanager, hnext⟩ : ∃ q, Execution (ServerStep (fun _ => 0) api)
      (Apart true oneSession.liveShuttles oneSession.liveNamespaces (shuttleRows listedShuttles))
      rebooted q ∧ q.state.manager = twoSessions ∧
      (q.thread true).isDone = false := by
    have hlate : atSecond 0 ≤ atSecond 0 := Clock.le_refl _
    have h1 : Execution (ServerStep (fun _ => 0) api)
        (Apart true oneSession.liveShuttles oneSession.liveNamespaces (shuttleRows listedShuttles))
        rebooted _ :=
      .tail true (.refl rebooted) rfl ⟨atSecond 0, hlate, rfl, rfl⟩ ⟨fun _ => rfl, trivial⟩
    have h2 := h1.tail true rfl ⟨atSecond 0, hlate, rfl, rfl⟩ ⟨fun _ => rfl, trivial⟩
    have h3 := h2.tail false rfl (r := .ok 1) rfl ⟨trivial, trivial⟩
    have h4 := h3.tail false rfl (r := ()) rfl ⟨trivial, trivial⟩
    have h5 := h4.tail false rfl ⟨atSecond 0, hlate, rfl, rfl⟩
      ⟨trivial, fun _ s hs => bob_unpicked hs⟩
    have h6 := h5.tail true rfl ⟨rfl, _, Or.inl rfl, rfl⟩
      ⟨fun _ _ listed hl => (Option.some.inj hl).symm, trivial⟩
    exact ⟨_, h6, rfl, by decide +kernel⟩
  have hwell : AllWellFormed (fun _ => 0) rebooted.state.manager :=
    (@oneSession_run anyEvent trivial).wellFormed
  refine ⟨q, hrun, hmanager, hnext, fun op next ht s hs => ?_⟩
  have hspares : ∀ {id : Uuid}, twoSessions.sessions.lookup id = some s →
      ¬ NamesShuttle op s.shuttleName ∧ ¬ NamesNamespace configured op s.namespaceName := by
    rw [← hmanager]
    exact sweep_spares_sessions configured _ _ _ rfl hwell hrun ht
  simp only [List.mem_cons, List.not_mem_nil, or_false] at hs
  rcases hs with rfl | rfl
  · exact hspares twoSessions_first
  · exact hspares twoSessions_bob

/-- Thread `true` is the sweep, thread `false` a request that creates a session. -/
def booting : HandlerPool Bool :=
  { thread := fun j =>
      if j then sweepApiOrphans scripted
      else bestEffort (createSession scripted alice 1 ⟨"generator", none⟩)
    state :=
      { manager := .new scriptedScenario true defaultTtl
        clock := atSecond 0
        file := none
        tmp := none
        world := [] } }

def serve (s : ServerState) (op : Op) : Option (op.Result × ServerState) :=
  s.carryOut (fun _ => 0) api answers (atSecond 0) op

/-- The sweep is about to drop the shuttle of alice's session, which is in the map. -/
def dropsLive (q : HandlerPool Bool) : Bool :=
  (match q.thread true with
    | .request (.external c) _ => dropsNamed c (.shuttle aliceNames.shuttleName "" "")
    | _ => false) &&
  (match q.state.manager.sessions.lookup 1 with
    | some s => s.shuttleName == aliceNames.shuttleName
    | none => false)

/-- The session is created after the sweep has read the live names and before it lists the
shuttles. -/
theorem live_shuttle_swept : ¬ ∀ (sha256 : String → Digest) (outside : Outside)
    (env : ServerEnv) (identity : Identity) (id : Uuid) (body : CreateSessionBody)
    (p q : HandlerPool Bool), p.thread true = sweepApiOrphans env →
    p.thread false = bestEffort (createSession env identity id body) →
    AllWellFormed sha256 p.state.manager → Execution (ServerStep sha256 outside) anyStep p q →
    ∀ op (next : op.Result → Handler Unit), q.thread true = .request op next →
    ∀ j s, q.state.manager.sessions.lookup j = some s →
      ¬ NamesShuttle op s.shuttleName ∧ ¬ NamesNamespace env op s.namespaceName := by
  intro h
  obtain ⟨q, hq, hcheck⟩ : ∃ q, booting.replay (fun (_ : Unit) p op => serve p.state op)
      ((List.replicate 2 true ++ List.replicate 8 false ++ [true]).map fun j => (j, ())) =
        some q ∧ dropsLive q = true :=
    (Option.any_eq_true _ _).mp (by decide +kernel)
  have hrun : Execution (ServerStep (fun _ => 0) api) anyStep booting q :=
    Pool.replay_execution
      (fun _ _ _ _ _ _ hr => ⟨carryOut_step (fun _ _ => rfl) hr, trivial⟩) _ hq
  obtain ⟨hcall, hlive⟩ := (Bool.and_eq_true _ _).mp hcheck
  have hwell : AllWellFormed (fun _ => 0) booting.state.manager := fun _ _ hs => by cases hs
  have hspares := h (fun _ => 0) api scripted alice 1 ⟨"generator", none⟩ booting q rfl rfl
    hwell hrun
  split at hcall
  · rename_i c next ht
    split at hlive
    · rename_i s hs
      refine (hspares _ _ ht 1 s hs).1 ?_
      rw [beq_iff_eq.mp hlive]
      have hdrops := dropsNamed_iff.mp hcall
      generalize hop : Op.external c = op at hdrops
      cases hdrops
      exact .delete _ _
    · cases hlive
  · cases hcall

end Boot

end PlaygroundBootSweep
