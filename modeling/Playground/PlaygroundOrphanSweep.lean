import Playground.PlaygroundCleanup

/-! # The orphan sweep

What the sweep requests for a session map and the two lists the API returns. The connection
pass looks for users of a connection only through shuttles that are live and listed, and it
takes names by their first and last characters. -/
namespace PlaygroundOrphanSweep

open HashMaps
open InteractionPrograms
open PlaygroundApiClient
open PlaygroundCleanup
open PlaygroundManagerRuns
open PlaygroundManifest (Value)
open PlaygroundNames
open PlaygroundOperations
open PlaygroundSessionManager
open PlaygroundSessions

abbrev Reply := Except ApiCallError (ℕ × Value)

/-- The map does not change and the two list requests are answered so; every other call may
have any result. -/
def Answers (m : SessionManager) (shuttles connections : Reply) :
    (op : Op) → op.Result → Prop
  | .manager .liveShuttles, r => r = m.liveShuttles
  | .manager .liveNamespaces, r => r = m.liveNamespaces
  | .external (.api request _), r =>
    (request = ⟨"GET", "/api/v1/shuttles", none⟩ → r = shuttles) ∧
      (request = ⟨"GET", "/api/v1/connections", none⟩ → r = connections)
  | _, _ => True

variable {m : SessionManager} {shuttles connections : Reply} {env : ServerEnv}

theorem answers_total (op : Op) : ∃ r, Answers m shuttles connections op r := by
  cases op with
  | manager o =>
    cases o with
    | liveShuttles => exact ⟨_, rfl⟩
    | liveNamespaces => exact ⟨_, rfl⟩
    | create | get | update | endSession | touchAction => exact ⟨.error .forbidden, trivial⟩
    | sweepExpired => exact ⟨[], trivial⟩
    | getUserSession => exact ⟨none, trivial⟩
  | snapshot => exact ⟨[], trivial⟩
  | writeTmp | renameTmp => exact ⟨true, trivial⟩
  | tryConsume => exact ⟨.ok 0, trivial⟩
  | metric | actionStart => exact ⟨(), trivial⟩
  | readClock => exact ⟨atSecond 0, trivial⟩
  | external c =>
    cases c with
    | api request identity =>
      by_cases hp : request = ⟨"GET", "/api/v1/shuttles", none⟩
      · refine ⟨shuttles, fun _ => rfl, fun hc => ?_⟩
        rw [hp] at hc
        simp at hc
      · exact ⟨connections, fun hc => absurd hc hp, fun _ => rfl⟩
    | dispatcher c => cases c <;> exact ⟨.error .unavailable, trivial⟩
    | command | readToString | readBytes | post => exact ⟨.error "", trivial⟩
    | exists_ => exact ⟨true, trivial⟩

def rowsOf : Reply → Option (List Value)
  | .error _ => none
  | .ok (_, v) => some (listed v)

def passOps (env : ServerEnv) (m : SessionManager) (rows : List Value)
    (connections : Reply) : List Op :=
  rows.flatMap (sweepShuttleOps env m.liveShuttles m.liveNamespaces) ++
    .external getConnections :: match rowsOf connections with
      | none => []
      | some cs => cs.flatMap (sweepConnectionOps m.liveShuttles rows)

def sweepOps (env : ServerEnv) (m : SessionManager) (shuttles connections : Reply) : List Op :=
  if env.apiClient.isSome && env.initialized then
    .manager .liveShuttles :: .manager .liveNamespaces :: .external getShuttles ::
      match rowsOf shuttles with
      | none => []
      | some rows => passOps env m rows connections
  else []

theorem performs_sweep :
    (sweepApiOrphans env).Performs (Answers m shuttles connections)
      (sweepOps env m shuttles connections) := by
  refine Program.performs_when fun _ => ⟨_, rfl, ?_⟩
  rintro _ rfl
  refine ⟨_, rfl, ?_⟩
  rintro _ rfl
  refine ⟨_, rfl, ?_⟩
  intro r hr
  have hrs : r = shuttles := hr.1 rfl
  subst hrs
  cases r with
  | error e => rfl
  | ok reply =>
    obtain ⟨code, v⟩ := reply
    refine (Program.performs_forEach fun s _ => performs_sweepShuttle env _ _ s).bind ?_
    intro _ _
    refine ⟨_, rfl, ?_⟩
    intro r' hr'
    have hrc : r' = connections := hr'.2 rfl
    subst hrc
    cases r' with
    | error e => rfl
    | ok reply =>
      obtain ⟨code', w⟩ := reply
      exact Program.performs_forEach fun c _ => performs_sweepConnection _ _ c

def Enabled (env : ServerEnv) : Prop := env.apiClient.isSome = true ∧ env.initialized = true

def TornDownAs (m : SessionManager) (s : Value) (o : Orphan) : Prop :=
  orphanOf m.liveShuttles m.liveNamespaces s = some o ∧ isSafeIdentifier o.name = true

theorem startsVisible_of_affix {name : String} (h : "pg_".toList.isPrefixOf name.toList = true) :
    StartsVisible name := by
  rw [List.isPrefixOf_iff_prefix] at h
  obtain ⟨rest, hrest⟩ := h
  exact ⟨'p', ['g', '_'] ++ rest, hrest.symm, by decide, by decide⟩

theorem staleConnection_eq {live : List String} {rows : List Value} {c : Value} {name : String} :
    staleConnection live rows c = some name ↔
      c.getStr "name" = some name ∧ "pg_".toList.isPrefixOf name.toList = true ∧
        "_src".toList.isSuffixOf name.toList = true ∧ stillUsed live rows name = false := by
  unfold staleConnection
  cases hc : c.getStr "name" with
  | none => simp
  | some k =>
    simp only [Option.some.injEq]
    split
    · rename_i h
      simp only [Bool.and_eq_true, Bool.not_eq_true'] at h
      constructor
      · intro hk
        simp only [Option.some.injEq] at hk
        subst hk
        exact ⟨rfl, h.1.1, h.1.2, h.2⟩
      · rintro ⟨rfl, _⟩
        rfl
    · rename_i h
      simp only [reduceCtorEq, false_iff]
      rintro ⟨rfl, hp, hs, hu⟩
      exact h (by simp only [hp, hs, hu, Bool.not_false, Bool.and_self])

theorem sweepConnectionOps_stale {live : List String} {rows : List Value} {c : Value}
    {name : String} (h : staleConnection live rows c = some name) :
    sweepConnectionOps live rows c = [deleteConnection sweeperIdentity (droppedName name)] := by
  simp only [sweepConnectionOps, h]
  exact dropConnection_ops (startsVisible_of_affix (staleConnection_eq.mp h).2.1)

theorem api_mem_sweep {r : ApiRequest} {i : Identity} (hr : r.method ≠ "GET") :
    .external (.api r i) ∈ sweepOps env m shuttles connections ↔
      Enabled env ∧ ∃ rows, rowsOf shuttles = some rows ∧
        ((∃ s ∈ rows, ∃ o, TornDownAs m s o ∧ .external (.api r i) ∈
            teardownOps env sweeperIdentity o.name o.connection o.namespaceName) ∨
          ∃ cs, rowsOf connections = some cs ∧ ∃ c ∈ cs, ∃ name,
            staleConnection m.liveShuttles rows c = some name ∧
              .external (.api r i) = deleteConnection sweeperIdentity (droppedName name)) := by
  have hget : ∀ c, r ≠ ⟨"GET", c, none⟩ := fun c e => hr (by rw [e])
  unfold sweepOps Enabled
  by_cases hen : env.apiClient.isSome = true ∧ env.initialized = true
  · rw [if_pos (by simp [hen])]
    cases hrows : rowsOf shuttles with
    | none => simp [getShuttles, hget]
    | some rows =>
      simp only [List.mem_cons, reduceCtorEq, false_or, hen, and_self, true_and,
        Option.some.injEq, exists_eq_left', passOps, List.mem_append, List.mem_flatMap]
      have h1 : (.external (.api r i) : Op) ≠ .external getShuttles := by
        simp [getShuttles, hget]
      have h2 : (.external (.api r i) : Op) ≠ .external getConnections := by
        simp [getConnections, hget]
      simp only [h1, h2, false_or]
      refine or_congr ?_ ?_
      · refine exists_congr fun s => and_congr_right fun _ => ?_
        unfold sweepShuttleOps TornDownAs
        cases ho : orphanOf m.liveShuttles m.liveNamespaces s with
        | none => simp
        | some o =>
          simp only [Option.some.injEq]
          constructor
          · intro hmem
            exact ⟨o, ⟨rfl, ((api_mem_teardown env sweeperIdentity).mp hmem).1.1⟩, hmem⟩
          · rintro ⟨_, ⟨rfl, _⟩, hmem⟩
            exact hmem
      · cases hcs : rowsOf connections with
        | none => simp
        | some cs =>
          simp only [List.mem_flatMap, Option.some.injEq, exists_eq_left']
          refine exists_congr fun c => and_congr_right fun _ => ?_
          cases hst : staleConnection m.liveShuttles rows c with
          | none => simp [sweepConnectionOps, hst]
          | some name => simp [sweepConnectionOps_stale hst]
  · rw [if_neg (by simpa using hen)]
    simp [hen]

theorem sweep_always_iff {P : Op → Prop} :
    (sweepApiOrphans env).Always (Answers m shuttles connections) P ↔
      ∀ op ∈ sweepOps env m shuttles connections, P op :=
  performs_sweep.always_iff answers_total

section InUse

/-- A session of the map owns the connection, or a listed shuttle that is not torn down
refers to it. -/
def InUse (m : SessionManager) (rows : List Value) (n : String) : Prop :=
  (∃ s ∈ values m.sessions, s.connectionName = n) ∨
    ∃ sv ∈ rows, sv.getStr "connection" = some n ∧ ¬ ∃ o, TornDownAs m sv o

def KeepsInUse (m : SessionManager) (shuttles : Reply) (op : Op) : Prop :=
  ∀ i n, op = deleteConnection i n → ¬ InUse m ((rowsOf shuttles).getD []) n

/-- Every user of a connection shows in the way the sweep looks for users: a torn down
shuttle shares its connection with nobody, and a listed connection in use is listed with a
live shuttle. -/
structure UsersVisible (m : SessionManager) (rows : List Value) (connections : Reply) :
    Prop where
  unshared : ∀ s ∈ rows, ∀ o, TornDownAs m s o → isSafeIdentifier o.connection = true →
    ¬ InUse m rows o.connection
  listedLive : ∀ cs, rowsOf connections = some cs → ∀ c ∈ cs, ∀ name,
    c.getStr "name" = some name → "pg_".toList.isPrefixOf name.toList = true →
    "_src".toList.isSuffixOf name.toList = true → InUse m rows (droppedName name) →
    stillUsed m.liveShuttles rows name = true

/-- The sweep drops no connection in use exactly when every user is visible to it. -/
theorem sweep_keeps_connections_iff (env : ServerEnv) (m : SessionManager)
    (shuttles connections : Reply) :
    (sweepApiOrphans env).Always (Answers m shuttles connections) (KeepsInUse m shuttles) ↔
      (Enabled env → ∀ rows, rowsOf shuttles = some rows → UsersVisible m rows connections) := by
  rw [sweep_always_iff]
  have hmem : ∀ i n, deleteConnection i n ∈ sweepOps env m shuttles connections ↔ _ :=
    fun i n => api_mem_sweep (r := ⟨"DELETE", _, none⟩) (i := i) (by simp)
  constructor
  · intro h hen rows hrows
    have hkeep : ∀ n, deleteConnection sweeperIdentity n ∈ sweepOps env m shuttles connections →
        ¬ InUse m rows n := by
      intro n hn
      have hk := h _ hn sweeperIdentity n rfl
      rwa [hrows, Option.getD_some] at hk
    constructor
    · intro s hs o ho hc
      refine hkeep _ ((hmem _ _).mpr ⟨hen, rows, hrows, Or.inl ⟨s, hs, o, ho, ?_⟩⟩)
      exact (api_mem_teardown env sweeperIdentity).mpr ⟨⟨ho.2, hen.1⟩, Or.inr (Or.inr ⟨hc, rfl⟩)⟩
    · intro cs hcs c hc name hname hpre hsuf huse
      by_contra hused
      have hst := staleConnection_eq.mpr ⟨hname, hpre, hsuf, by simpa using hused⟩
      exact hkeep _ ((hmem _ _).mpr ⟨hen, rows, hrows, Or.inr ⟨cs, hcs, c, hc, name, hst, rfl⟩⟩)
        huse
  · intro h op hop i n heq huse
    subst heq
    obtain ⟨hen, rows, hrows, hcase⟩ := (hmem i n).mp hop
    have hvis := h hen rows hrows
    rw [hrows, Option.getD_some] at huse
    rcases hcase with ⟨s, hs, o, ho, ht⟩ | ⟨cs, hcs, c, hc, name, hst, heq⟩
    · rcases ((api_mem_teardown env sweeperIdentity).mp ht).2 with heq | ⟨_, heq⟩ | ⟨hsafe, heq⟩
      · exact absurd heq deleteConnection_ne_shuttle
      · exact absurd heq deleteConnection_ne_namespace
      · have hn := (deleteConnection_inj.mp heq).1
        rw [hn] at huse
        exact hvis.unshared s hs o ho hsafe huse
    · have hn := (deleteConnection_inj.mp heq).1
      rw [hn] at huse
      obtain ⟨hname, hpre, hsuf, hused⟩ := staleConnection_eq.mp hst
      rw [hvis.listedLive cs hcs c hc name hname hpre hsuf huse] at hused
      cases hused

def listReply (rows : List Value) : Reply := .ok (200, .array rows)

def connectionRow (name : String) : Value := .object [("name", .string name)]

/-- The session's connection is listed and its shuttle is not. -/
theorem live_connection_dropped :
    ¬ ∀ (env : ServerEnv) (m : SessionManager) (shuttles connections : Reply),
      (sweepApiOrphans env).Always (Answers m shuttles connections) (KeepsInUse m shuttles) := by
  intro h
  have hform := deriveConnection_form (fun _ => 0) "u1" 1
  have hstale : staleConnection oneSession.liveShuttles []
      (connectionRow firstSession.connectionName) = some firstSession.connectionName :=
    staleConnection_eq.mpr ⟨rfl, hform.affixes.1, hform.affixes.2, by simp [stillUsed]⟩
  have hop : deleteConnection sweeperIdentity (droppedName firstSession.connectionName) ∈
      sweepOps configured oneSession (listReply [])
        (listReply [connectionRow firstSession.connectionName]) :=
    (api_mem_sweep (by simp)).mpr ⟨⟨rfl, rfl⟩, [], rfl,
      Or.inr ⟨_, rfl, _, List.mem_singleton_self _, _, hstale, rfl⟩⟩
  have hkept := sweep_always_iff.mp (h configured oneSession _ _) _ hop sweeperIdentity _ rfl
  refine hkept (Or.inl ⟨firstSession, mem_values.mpr ⟨1, oneSession_lookup⟩, ?_⟩)
  exact (droppedName_safe hform.safe).symm

end InUse

section Derived

theorem orphanOf_eq {live names : List String} {s : Value} {o : Orphan}
    (h : orphanOf live names s = some o) :
    s.getStr "name" = some o.name ∧ o.connection = (s.getStr "connection").getD "" ∧
      ∃ target, s.getStr "target" = some target ∧
        playgroundTarget target = some o.namespaceName := by
  unfold orphanOf at h
  split at h
  · rename_i name target hname htarget
    split at h
    · cases h
    · rename_i ns hns
      split at h
      · cases h
      · cases h
        exact ⟨hname, rfl, target, htarget, hns⟩
  · cases h

def DeletesDerived (op : Op) : Prop :=
  (∀ i n, op = deleteShuttle i n → ShuttleForm n) ∧
    (∀ i n, op = deleteConnection i n → ConnectionForm n) ∧
    ∀ i n, op = deleteNamespace i n → NamespaceForm n

def NamesShuttleRow (s : Value) (op : Op) : Prop :=
  (∀ i n, op = deleteShuttle i n → s.getStr "name" = some n) ∧
    (∀ i n, op = deleteConnection i n → s.getStr "connection" = some n) ∧
    ∀ i n, op = deleteNamespace i n →
      ∃ target, s.getStr "target" = some target ∧ playgroundTarget target = some n

def NamesConnectionRow (c : Value) (op : Op) : Prop :=
  (∀ i n, op ≠ deleteShuttle i n) ∧
    (∀ i n, op = deleteConnection i n → c.getStr "name" = some n) ∧
    ∀ i n, op ≠ deleteNamespace i n

/-- Every name in a deletion is a derived one, and it is the name in the row the deletion is
made for. -/
structure DeletesOnlyDerived (env : ServerEnv) (m : SessionManager)
    (shuttles connections : Reply) : Prop where
  derived : (sweepApiOrphans env).Always (Answers m shuttles connections) DeletesDerived
  shuttleRow : Enabled env → ∀ rows, rowsOf shuttles = some rows → ∀ s ∈ rows,
    (sweepShuttle env m.liveShuttles m.liveNamespaces s).Always
      (Answers m shuttles connections) (NamesShuttleRow s)
  connectionRow : Enabled env → ∀ rows, rowsOf shuttles = some rows →
    ∀ cs, rowsOf connections = some cs → ∀ c ∈ cs,
      (sweepConnection m.liveShuttles rows c).Always
        (Answers m shuttles connections) (NamesConnectionRow c)

structure PicksDerived (m : SessionManager) (rows : List Value) (connections : Reply) :
    Prop where
  shuttles : ∀ s ∈ rows, ∀ o, TornDownAs m s o → ShuttleForm o.name ∧
    (isSafeIdentifier o.namespaceName = true → NamespaceForm o.namespaceName) ∧
    (isSafeIdentifier o.connection = true → ConnectionForm o.connection)
  connections : ∀ cs, rowsOf connections = some cs → ∀ c ∈ cs, ∀ name,
    staleConnection m.liveShuttles rows c = some name → ConnectionForm name

theorem teardown_deletes {o : Orphan} {r : ApiRequest} {i : Identity}
    (h : .external (.api r i) ∈ teardownOps env sweeperIdentity o.name o.connection
      o.namespaceName) :
    (∀ j n, .external (.api r i) = deleteShuttle j n → n = o.name) ∧
      (∀ j n, .external (.api r i) = deleteConnection j n →
        n = o.connection ∧ isSafeIdentifier o.connection = true) ∧
      ∀ j n, .external (.api r i) = deleteNamespace j n →
        n = o.namespaceName ∧ isSafeIdentifier o.namespaceName = true := by
  rcases ((api_mem_teardown env sweeperIdentity).mp h).2 with heq | ⟨hsafe, heq⟩ | ⟨hsafe, heq⟩
  · rw [heq]
    exact ⟨fun j n hn => (deleteShuttle_inj.mp hn).1.symm,
      fun j n hn => absurd hn deleteShuttle_ne_connection,
      fun j n hn => absurd hn deleteShuttle_ne_namespace⟩
  · rw [heq]
    exact ⟨fun j n hn => absurd hn deleteNamespace_ne_shuttle,
      fun j n hn => absurd hn deleteNamespace_ne_connection,
      fun j n hn => ⟨(deleteNamespace_inj.mp hn).1.symm, hsafe⟩⟩
  · rw [heq]
    exact ⟨fun j n hn => absurd hn deleteConnection_ne_shuttle,
      fun j n hn => ⟨(deleteConnection_inj.mp hn).1.symm, hsafe⟩,
      fun j n hn => absurd hn deleteConnection_ne_namespace⟩

theorem connection_listed {s : Value} {o : Orphan}
    (hconn : o.connection = (s.getStr "connection").getD "")
    (hsafe : isSafeIdentifier o.connection = true) :
    s.getStr "connection" = some o.connection := by
  cases hc : s.getStr "connection" with
  | some c => simp [hconn, hc]
  | none =>
    rw [hconn, hc, Option.getD_none] at hsafe
    exact absurd hsafe (by decide)

theorem shuttleRow_names (env : ServerEnv) (m : SessionManager) {s : Value} {op : Op}
    (h : op ∈ sweepShuttleOps env m.liveShuttles m.liveNamespaces s) : NamesShuttleRow s op := by
  unfold sweepShuttleOps at h
  cases ho : orphanOf m.liveShuttles m.liveNamespaces s with
  | none => simp [ho] at h
  | some o =>
    simp only [ho] at h
    obtain ⟨hname, hconn, htarget⟩ := orphanOf_eq ho
    refine ⟨?_, ?_, ?_⟩
    · rintro i n rfl
      rw [(teardown_deletes h).1 i n rfl]
      exact hname
    · rintro i n rfl
      obtain ⟨rfl, hsafe⟩ := (teardown_deletes h).2.1 i n rfl
      exact connection_listed hconn hsafe
    · rintro i n rfl
      obtain ⟨rfl, _⟩ := (teardown_deletes h).2.2 i n rfl
      exact htarget

section Picks

variable {env : ServerEnv} {m : SessionManager} {shuttles connections : Reply} {rows : List Value}

theorem DeletesOnlyDerived.torn_derived (h : DeletesOnlyDerived env m shuttles connections)
    (hen : Enabled env) (hrows : rowsOf shuttles = some rows) {s : Value} (hs : s ∈ rows)
    {o : Orphan} (ho : TornDownAs m s o) :
    ShuttleForm o.name ∧
      (isSafeIdentifier o.namespaceName = true → NamespaceForm o.namespaceName) ∧
      (isSafeIdentifier o.connection = true → ConnectionForm o.connection) := by
  have hall := sweep_always_iff.mp h.derived
  have htorn : ∀ r, .external (.api r sweeperIdentity) ∈
      teardownOps env sweeperIdentity o.name o.connection o.namespaceName →
      r.method ≠ "GET" → DeletesDerived (.external (.api r sweeperIdentity)) :=
    fun r ht hr => hall _ ((api_mem_sweep hr).mpr ⟨hen, rows, hrows, Or.inl ⟨s, hs, o, ho, ht⟩⟩)
  have hmem : ∀ r, _ → .external (.api r sweeperIdentity) ∈ teardownOps env sweeperIdentity
      o.name o.connection o.namespaceName :=
    fun r hr => (api_mem_teardown env sweeperIdentity).mpr ⟨⟨ho.2, hen.1⟩, hr⟩
  refine ⟨?_, ?_, ?_⟩
  · have hd := htorn ⟨"DELETE", _, none⟩ (hmem _ (Or.inl rfl)) (by simp)
    exact hd.1 _ _ rfl
  · intro hsafe
    have hd := htorn ⟨"DELETE", _, none⟩ (hmem _ (Or.inr (Or.inl ⟨hsafe, rfl⟩))) (by simp)
    exact hd.2.2 _ _ rfl
  · intro hsafe
    have hd := htorn ⟨"DELETE", _, none⟩ (hmem _ (Or.inr (Or.inr ⟨hsafe, rfl⟩))) (by simp)
    exact hd.2.1 _ _ rfl

theorem DeletesOnlyDerived.stale_derived (h : DeletesOnlyDerived env m shuttles connections)
    (hen : Enabled env) (hrows : rowsOf shuttles = some rows) {cs : List Value}
    (hcs : rowsOf connections = some cs) {c : Value} (hc : c ∈ cs) {name : String}
    (hst : staleConnection m.liveShuttles rows c = some name) : ConnectionForm name := by
  have hrow := ((performs_sweepConnection m.liveShuttles rows c).always_iff answers_total).mp
    (h.connectionRow hen rows hrows cs hcs c hc)
  have hop : deleteConnection sweeperIdentity (droppedName name) ∈
      sweepConnectionOps m.liveShuttles rows c := by
    rw [sweepConnectionOps_stale hst]
    exact List.mem_singleton_self _
  have hsame := (hrow _ hop).2.1 _ _ rfl
  rw [(staleConnection_eq.mp hst).1, Option.some.injEq] at hsame
  rw [hsame]
  exact (sweep_always_iff.mp h.derived _ ((api_mem_sweep (by simp)).mpr ⟨hen, rows, hrows,
    Or.inr ⟨cs, hcs, c, hc, name, hst, rfl⟩⟩)).2.1 _ _ rfl

theorem PicksDerived.dropped (h : PicksDerived m rows connections) {cs : List Value}
    (hcs : rowsOf connections = some cs) {c : Value} (hc : c ∈ cs) {name : String}
    (hst : staleConnection m.liveShuttles rows c = some name) :
    ConnectionForm name ∧ droppedName name = name := by
  have hform := h.connections cs hcs c hc name hst
  exact ⟨hform, droppedName_safe hform.safe⟩

theorem picks_deletesDerived
    (h : Enabled env → ∀ rows, rowsOf shuttles = some rows → PicksDerived m rows connections)
    {op : Op} (hop : op ∈ sweepOps env m shuttles connections) : DeletesDerived op := by
  refine ⟨?_, ?_, ?_⟩
  · rintro i n rfl
    obtain ⟨hen, rows, hrows, hcase⟩ := (api_mem_sweep (by simp)).mp hop
    rcases hcase with ⟨s, hs, o, ho, ht⟩ | ⟨_, _, _, _, _, _, heq⟩
    · rw [(teardown_deletes ht).1 i n rfl]
      exact ((h hen rows hrows).shuttles s hs o ho).1
    · exact absurd heq deleteShuttle_ne_connection
  · rintro i n rfl
    obtain ⟨hen, rows, hrows, hcase⟩ := (api_mem_sweep (by simp)).mp hop
    rcases hcase with ⟨s, hs, o, ho, ht⟩ | ⟨cs, hcs, c, hc, name, hst, heq⟩
    · obtain ⟨rfl, hsafe⟩ := (teardown_deletes ht).2.1 i n rfl
      exact ((h hen rows hrows).shuttles s hs o ho).2.2 hsafe
    · obtain ⟨hform, hsame⟩ := (h hen rows hrows).dropped hcs hc hst
      rw [(deleteConnection_inj.mp heq).1, hsame]
      exact hform
  · rintro i n rfl
    obtain ⟨hen, rows, hrows, hcase⟩ := (api_mem_sweep (by simp)).mp hop
    rcases hcase with ⟨s, hs, o, ho, ht⟩ | ⟨_, _, _, _, _, _, heq⟩
    · obtain ⟨rfl, hsafe⟩ := (teardown_deletes ht).2.2 i n rfl
      exact ((h hen rows hrows).shuttles s hs o ho).2.1 hsafe
    · exact absurd heq deleteNamespace_ne_connection

theorem PicksDerived.connectionRow (h : PicksDerived m rows connections) {cs : List Value}
    (hcs : rowsOf connections = some cs) {c : Value} (hc : c ∈ cs) {op : Op}
    (hop : op ∈ sweepConnectionOps m.liveShuttles rows c) : NamesConnectionRow c op := by
  cases hst : staleConnection m.liveShuttles rows c with
  | none => simp [sweepConnectionOps, hst] at hop
  | some name =>
    rw [sweepConnectionOps_stale hst, List.mem_singleton] at hop
    subst hop
    refine ⟨fun i n => deleteConnection_ne_shuttle, ?_, fun i n => deleteConnection_ne_namespace⟩
    intro i n heq
    rw [← (deleteConnection_inj.mp heq).1, (h.dropped hcs hc hst).2]
    exact (staleConnection_eq.mp hst).1

end Picks

/-- The sweep deletes only derived names exactly when the rows it picks carry derived names. -/
theorem sweep_deletes_derived_iff (env : ServerEnv) (m : SessionManager)
    (shuttles connections : Reply) :
    DeletesOnlyDerived env m shuttles connections ↔
      (Enabled env → ∀ rows, rowsOf shuttles = some rows → PicksDerived m rows connections) := by
  constructor
  · intro h hen rows hrows
    constructor
    · intro s hs o ho
      exact h.torn_derived hen hrows hs ho
    · intro cs hcs c hc name hst
      exact h.stale_derived hen hrows hcs hc hst
  · intro h
    constructor
    · rw [sweep_always_iff]
      intro op hop
      exact picks_deletesDerived h hop
    · intro hen rows hrows s hs
      exact (performs_sweepShuttle env _ _ s).always fun op hop => shuttleRow_names env m hop
    · intro hen rows hrows cs hcs c hc
      exact (performs_sweepConnection _ rows c).always fun op hop =>
        (h hen rows hrows).connectionRow hcs hc hop

/-- A user's own connection whose name begins and ends like a derived one. -/
theorem lookalike_connection_deleted :
    ¬ ∀ (env : ServerEnv) (m : SessionManager) (shuttles connections : Reply),
      DeletesOnlyDerived env m shuttles connections := by
  intro h
  have hstale : staleConnection oneSession.liveShuttles [] (connectionRow "pg_reports_src") =
      some "pg_reports_src" :=
    staleConnection_eq.mpr ⟨rfl, by decide, by decide, by simp [stillUsed]⟩
  have hop : deleteConnection sweeperIdentity (droppedName "pg_reports_src") ∈
      sweepOps configured oneSession (listReply []) (listReply [connectionRow "pg_reports_src"]) :=
    (api_mem_sweep (by simp)).mpr ⟨⟨rfl, rfl⟩, [], rfl,
      Or.inr ⟨_, rfl, _, List.mem_singleton_self _, _, hstale, rfl⟩⟩
  have hderived := sweep_always_iff.mp (h configured oneSession _ _).derived _ hop
  obtain ⟨a, b, ha, hb, htext⟩ := hderived.2.1 _ _ rfl
  rw [droppedName_safe (by decide)] at htext
  have hlen := congrArg List.length htext
  simp [ha.1, hb.1] at hlen

end Derived

end PlaygroundOrphanSweep
