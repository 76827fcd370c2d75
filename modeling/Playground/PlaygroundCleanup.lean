import Playground.PlaygroundOperations

/-! # Teardown, reaper and orphan sweep

Every step is best effort: its result is looked at only for logging. -/
namespace PlaygroundCleanup

open InteractionPrograms
open PlaygroundApiClient
open PlaygroundManifest (Value)
open PlaygroundNames
open PlaygroundOperations
open PlaygroundSessions

def shellQuote (s : String) : String :=
  String.ofList ('\'' ::
    s.toList.flatMap (fun c => if c == '\'' then ['\'', '\\', '\'', '\''] else [c]) ++ ['\''])

def envOr (env : ServerEnv) (var other : String) : Option String :=
  (env.envVar var).or (env.envVar other)

def minioEndpoint (env : ServerEnv) : String :=
  (env.envVar "DS_MINIO_ENDPOINT").getD "http://minio:9000"

def minioAccess (env : ServerEnv) : Option String :=
  envOr env "DS_MINIO_ACCESS_KEY" "MINIO_ROOT_USER"

def minioSecret (env : ServerEnv) : Option String :=
  envOr env "DS_MINIO_SECRET_KEY" "MINIO_ROOT_PASSWORD"

/-- The host part of `DS_WAREHOUSE`, if it is an S3 URL with one. -/
def warehouseBucket (env : ServerEnv) : String :=
  let host := ((env.envVar "DS_WAREHOUSE").bind fun s =>
    RustText.stripPrefix "s3://".toList s.toList).map fun rest =>
      String.ofList ((RustText.trimEndMatches '/' rest).takeWhile (· != '/'))
  (host.filter fun s => !s.isEmpty).getD "warehouse"

def purgeCommand (endpoint access secret warehouse namespaceName : String) : String :=
  "mc alias set local " ++ shellQuote endpoint ++ " " ++ shellQuote access ++ " " ++
    shellQuote secret ++ " >/dev/null && mc rm --recursive --force local/" ++
    shellQuote warehouse ++ "/" ++ shellQuote namespaceName ++
    "/ >/dev/null 2>&1 || true; mc rm --recursive --force local/file-ingestion/" ++
    shellQuote namespaceName ++ "/ >/dev/null 2>&1 || true"

def purgeS3Namespace (env : ServerEnv) (namespaceName : String) : Handler (Except String Unit) :=
  match minioAccess env with
  | none => .done (.error "missing DS_MINIO_ACCESS_KEY / MINIO_ROOT_USER")
  | some access =>
    match minioSecret env with
    | none => .done (.error "missing DS_MINIO_SECRET_KEY / MINIO_ROOT_PASSWORD")
    | some secret => do
      match ← call (.command "bash" ["-c", purgeCommand (minioEndpoint env) access secret
          (warehouseBucket env) namespaceName]) with
      | .error e => .done (.error ("spawn mc: " ++ e))
      | .ok output =>
        if output.success then .done (.ok ())
        else .done (.error ("mc rm exited " ++ output.status ++ ": " ++ output.stderr))

def bestEffort {α : Type} (p : Handler α) : Handler Unit := p >>= fun _ => .done ()

section Teardown

variable (env : ServerEnv) (identity : Identity)

def dropShuttle (shuttleName : String) : Handler Unit :=
  bestEffort (execSql identity ("DROP SHUTTLE IF EXISTS " ++ shuttleName))

def namespacePath (namespaceName : String) : String :=
  "/api/v1/catalog/namespaces/" ++ namespaceName ++ "?cascade=true&purge=true"

def dropNamespace (namespaceName : String) : Handler Unit :=
  Program.when (isSafeIdentifier namespaceName) do
    bestEffort (call (.api ⟨"DELETE", namespacePath namespaceName, none⟩ identity))
    bestEffort (purgeS3Namespace env namespaceName)

def dropConnection (connectionName : String) : Handler Unit :=
  bestEffort (execSql identity ("DROP CONNECTION IF EXISTS " ++ connectionName))

def dropReplication (shuttleName : String) : Handler Unit :=
  Program.when (isSafePlaygroundShuttleArtifact shuttleName) do
    bestEffort (call (.dispatcher (.dropPublication (shuttleName ++ "_pub"))))
    bestEffort (call (.dispatcher (.dropReplicationSlot (shuttleName ++ "_slot"))))

def dropSourceResources (shuttleName namespaceName : String) : Handler Unit :=
  Program.when (isSafeResourceName namespaceName) do
    dropReplication shuttleName
    bestEffort (call (.dispatcher (.teardown .postgres namespaceName)))
    bestEffort (call (.dispatcher (.teardown .mysql namespaceName)))
    bestEffort (call (.dispatcher (.teardown .clickhouse namespaceName)))
    bestEffort (call (.dispatcher (.teardown .redis namespaceName)))

def teardownSession (shuttleName connectionName namespaceName : String) : Handler Unit :=
  Program.when (isSafeIdentifier shuttleName && env.apiClient.isSome) do
    dropShuttle identity shuttleName
    dropNamespace env identity namespaceName
    Program.when (isSafeIdentifier connectionName) (dropConnection identity connectionName)
    dropSourceResources shuttleName namespaceName
    Program.perform (Op.metric .teardownSession)

end Teardown

def reaperIdentity (s : Session) : Identity :=
  { userId := s.userId, tenantId := none, actorId := none, authMethod := "ttl-reaper" }

/-- One tick of the loop in `spawn_session_reaper`. -/
def reaperTick (env : ServerEnv) : Handler Unit :=
  Program.when env.initialized do
    let expired ← sweepExpired env
    Program.forEach expired fun s =>
      teardownSession env (reaperIdentity s) s.shuttleName s.connectionName s.namespaceName

def spawnSessionReaper (env : ServerEnv) (ticks : ℕ) : Handler Unit :=
  Program.forEach (List.range ticks) fun _ => reaperTick env

section Sweep

def sweeperIdentity : Identity :=
  { userId := "playground-orphan-sweeper", tenantId := none, actorId := none,
    authMethod := "orphan-sweeper" }

def listed (v : Value) : List Value := v.asArray.getD []

structure Orphan where
  name : String
  connection : String
  namespaceName : String
  deriving DecidableEq, Repr

/-- The namespace of a target `warehouse.playground_…`. -/
def playgroundTarget (target : String) : Option String :=
  match RustText.splitOnce '.' target.toList with
  | none => none
  | some (_, ns) =>
    if "playground_".toList.isPrefixOf ns then some (String.ofList ns) else none

def orphanOf (liveShuttles liveNamespaces : List String) (s : Value) : Option Orphan :=
  match s.getStr "name", s.getStr "target" with
  | some name, some target =>
    match playgroundTarget target with
    | none => none
    | some ns =>
      if liveShuttles.contains name || liveNamespaces.contains ns then none
      else some ⟨name, (s.getStr "connection").getD "", ns⟩
  | _, _ => none

def sweepShuttle (env : ServerEnv) (liveShuttles liveNamespaces : List String) (s : Value) :
    Handler Unit :=
  match orphanOf liveShuttles liveNamespaces s with
  | none => .done ()
  | some o => teardownSession env sweeperIdentity o.name o.connection o.namespaceName

def stillUsed (liveShuttles : List String) (shuttles : List Value) (name : String) : Bool :=
  liveShuttles.any fun s => shuttles.any fun sv =>
    sv.getStr "name" == some s && sv.getStr "connection" == some name

/-- The connection of a list row that the connection pass drops, if any. -/
def staleConnection (liveShuttles : List String) (shuttles : List Value) (c : Value) :
    Option String :=
  match c.getStr "name" with
  | none => none
  | some name =>
    if "pg_".toList.isPrefixOf name.toList && "_src".toList.isSuffixOf name.toList &&
        !stillUsed liveShuttles shuttles name then some name
    else none

def sweepConnection (liveShuttles : List String) (shuttles : List Value) (c : Value) :
    Handler Unit :=
  match staleConnection liveShuttles shuttles c with
  | none => .done ()
  | some name => dropConnection sweeperIdentity name

def getShuttles : ExternalCall := .api ⟨"GET", "/api/v1/shuttles", none⟩ sweeperIdentity

def getConnections : ExternalCall := .api ⟨"GET", "/api/v1/connections", none⟩ sweeperIdentity

/-- The passes that follow the two snapshots of the live names. -/
def sweepListed (env : ServerEnv) (liveShuttles liveNamespaces : List String) : Handler Unit := do
  match ← call getShuttles with
  | .error _ => .done ()
  | .ok (_, v) =>
    Program.forEach (listed v) (sweepShuttle env liveShuttles liveNamespaces)
    match ← call getConnections with
    | .error _ => .done ()
    | .ok (_, w) => Program.forEach (listed w) (sweepConnection liveShuttles (listed v))

def sweepApiOrphans (env : ServerEnv) : Handler Unit :=
  Program.when (env.apiClient.isSome && env.initialized) do
    let liveShuttles ← locked .liveShuttles
    let liveNamespaces ← locked .liveNamespaces
    sweepListed env liveShuttles liveNamespaces

end Sweep

section Calls

variable {ok : (op : Op) → op.Result → Prop}

theorem performs_bestEffort {α : Type} {p : Handler α} {ops : List Op} (h : p.Performs ok ops) :
    (bestEffort p).Performs ok ops := by
  have hb : (p >>= fun _ => (.done () : Handler Unit)).Performs ok (ops ++ []) :=
    h.bind fun _ _ => rfl
  rwa [List.append_nil] at hb

def deleteShuttle (identity : Identity) (name : String) : Op :=
  .external (.api ⟨"DELETE", "/api/v1/shuttles/" ++ name, none⟩ identity)

def deleteConnection (identity : Identity) (name : String) : Op :=
  .external (.api ⟨"DELETE", "/api/v1/connections/" ++ name, none⟩ identity)

def deleteNamespace (identity : Identity) (name : String) : Op :=
  .external (.api ⟨"DELETE", namespacePath name, none⟩ identity)

def dispatcherOp (c : DispatcherCall) : Op := .external (.dispatcher c)

theorem dropShuttle_ops {identity : Identity} {name : String} (h : isSafeIdentifier name = true) :
    execSqlOps identity ("DROP SHUTTLE IF EXISTS " ++ name) = [deleteShuttle identity name] := by
  rw [execSqlOps, (classify_drop (startsVisible_safe h)).1, droppedName_safe h]
  rfl

theorem dropConnection_ops {identity : Identity} {name : String} (h : StartsVisible name) :
    execSqlOps identity ("DROP CONNECTION IF EXISTS " ++ name) =
      [deleteConnection identity (droppedName name)] := by
  rw [execSqlOps, (classify_drop h).2]
  rfl

variable (env : ServerEnv) (identity : Identity)

def purgeOps (namespaceName : String) : List Op :=
  match minioAccess env, minioSecret env with
  | some access, some secret =>
    [.external (.command "bash" ["-c", purgeCommand (minioEndpoint env) access secret
      (warehouseBucket env) namespaceName])]
  | _, _ => []

def replicationOps (shuttleName : String) : List Op :=
  if isSafePlaygroundShuttleArtifact shuttleName then
    [dispatcherOp (.dropPublication (shuttleName ++ "_pub")),
      dispatcherOp (.dropReplicationSlot (shuttleName ++ "_slot"))]
  else []

def sourceOps (shuttleName namespaceName : String) : List Op :=
  if isSafeResourceName namespaceName then
    replicationOps shuttleName ++
      [dispatcherOp (.teardown .postgres namespaceName),
        dispatcherOp (.teardown .mysql namespaceName),
        dispatcherOp (.teardown .clickhouse namespaceName),
        dispatcherOp (.teardown .redis namespaceName)]
  else []

def namespaceOps (namespaceName : String) : List Op :=
  if isSafeIdentifier namespaceName then
    deleteNamespace identity namespaceName :: purgeOps env namespaceName
  else []

def connectionOps (connectionName : String) : List Op :=
  if isSafeIdentifier connectionName then [deleteConnection identity connectionName] else []

def teardownOps (shuttleName connectionName namespaceName : String) : List Op :=
  if isSafeIdentifier shuttleName && env.apiClient.isSome then
    deleteShuttle identity shuttleName :: (namespaceOps env identity namespaceName ++
      (connectionOps identity connectionName ++
        (sourceOps shuttleName namespaceName ++ [.metric .teardownSession])))
  else []

theorem performs_purge (namespaceName : String) :
    (purgeS3Namespace env namespaceName).Performs ok (purgeOps env namespaceName) := by
  unfold purgeS3Namespace purgeOps
  cases minioAccess env with
  | none => rfl
  | some access =>
    cases minioSecret env with
    | none => rfl
    | some secret =>
      refine ⟨[], rfl, fun r _ => ?_⟩
      cases r with
      | error e => rfl
      | ok output => cases h : output.success <;> simp [h]

theorem performs_dropNamespace (namespaceName : String) :
    (dropNamespace env identity namespaceName).Performs ok
      (namespaceOps env identity namespaceName) := by
  refine Program.performs_when fun _ => ?_
  exact (performs_bestEffort (performs_call _)).bind fun _ _ =>
    performs_bestEffort (performs_purge env namespaceName)

theorem performs_dropReplication (shuttleName : String) :
    (dropReplication shuttleName).Performs ok (replicationOps shuttleName) := by
  refine Program.performs_when fun _ => ?_
  exact (performs_bestEffort (performs_call _)).bind fun _ _ =>
    performs_bestEffort (performs_call _)

theorem performs_dropSourceResources (shuttleName namespaceName : String) :
    (dropSourceResources shuttleName namespaceName).Performs ok
      (sourceOps shuttleName namespaceName) := by
  refine Program.performs_when fun _ => ?_
  refine (performs_dropReplication shuttleName).bind fun _ _ => ?_
  refine (performs_bestEffort (performs_call _)).bind fun _ _ => ?_
  refine (performs_bestEffort (performs_call _)).bind fun _ _ => ?_
  exact (performs_bestEffort (performs_call _)).bind fun _ _ =>
    performs_bestEffort (performs_call _)

theorem performs_dropShuttle (shuttleName : String) :
    (dropShuttle identity shuttleName).Performs ok
      (execSqlOps identity ("DROP SHUTTLE IF EXISTS " ++ shuttleName)) := by
  unfold dropShuttle
  exact performs_bestEffort (performs_execSql identity _)

theorem performs_dropConnection (connectionName : String) :
    (dropConnection identity connectionName).Performs ok
      (execSqlOps identity ("DROP CONNECTION IF EXISTS " ++ connectionName)) := by
  unfold dropConnection
  exact performs_bestEffort (performs_execSql identity _)

theorem performs_teardown (shuttleName connectionName namespaceName : String) :
    (teardownSession env identity shuttleName connectionName namespaceName).Performs ok
      (teardownOps env identity shuttleName connectionName namespaceName) := by
  refine Program.performs_when fun hsafe => ?_
  have hshuttle := (Bool.and_eq_true _ _ ▸ hsafe).1
  have hdrop : (dropShuttle identity shuttleName).Performs ok
      [deleteShuttle identity shuttleName] := by
    rw [← dropShuttle_ops hshuttle]
    exact performs_dropShuttle identity shuttleName
  have hconn : (Program.when (isSafeIdentifier connectionName)
      (dropConnection identity connectionName)).Performs ok
      (connectionOps identity connectionName) := by
    refine Program.performs_when fun hc => ?_
    have hops : execSqlOps identity _ = _ := dropConnection_ops (startsVisible_safe hc)
    rw [droppedName_safe hc] at hops
    rw [← hops]
    exact performs_dropConnection identity connectionName
  refine hdrop.bind fun _ _ => (performs_dropNamespace env identity namespaceName).bind
    fun _ _ => hconn.bind fun _ _ => ?_
  exact (performs_dropSourceResources shuttleName namespaceName).bind fun _ _ =>
    Program.performs_perform _

section SweepCalls

variable (liveShuttles liveNamespaces : List String)

def sweepShuttleOps (s : Value) : List Op :=
  match orphanOf liveShuttles liveNamespaces s with
  | none => []
  | some o => teardownOps env sweeperIdentity o.name o.connection o.namespaceName

def sweepConnectionOps (shuttles : List Value) (c : Value) : List Op :=
  match staleConnection liveShuttles shuttles c with
  | none => []
  | some name => execSqlOps sweeperIdentity ("DROP CONNECTION IF EXISTS " ++ name)

theorem performs_sweepShuttle (s : Value) :
    (sweepShuttle env liveShuttles liveNamespaces s).Performs ok
      (sweepShuttleOps env liveShuttles liveNamespaces s) := by
  unfold sweepShuttle sweepShuttleOps
  cases orphanOf liveShuttles liveNamespaces s with
  | none => rfl
  | some o => exact performs_teardown env sweeperIdentity _ _ _

theorem performs_sweepConnection (shuttles : List Value) (c : Value) :
    (sweepConnection liveShuttles shuttles c).Performs ok
      (sweepConnectionOps liveShuttles shuttles c) := by
  unfold sweepConnection sweepConnectionOps
  cases staleConnection liveShuttles shuttles c with
  | none => rfl
  | some name => exact performs_dropConnection sweeperIdentity name

end SweepCalls

-- The requests of a teardown name different kinds of objects.
variable {i j : Identity} {n k : String}

@[simp] theorem deleteShuttle_inj : deleteShuttle i n = deleteShuttle j k ↔ n = k ∧ i = j := by
  simp [deleteShuttle]

@[simp] theorem deleteConnection_inj :
    deleteConnection i n = deleteConnection j k ↔ n = k ∧ i = j := by
  simp [deleteConnection]

theorem namespacePath_inj : namespacePath n = namespacePath k ↔ n = k := by
  constructor
  · intro h
    unfold namespacePath at h
    simpa using h
  · rintro rfl
    rfl

@[simp] theorem deleteNamespace_inj :
    deleteNamespace i n = deleteNamespace j k ↔ n = k ∧ i = j := by
  simp only [deleteNamespace, Op.external.injEq, ExternalCall.api.injEq, ApiRequest.mk.injEq,
    true_and, and_true, namespacePath_inj]

def requestPath : Op → List Char
  | .external (.api r _) => r.path.toList
  | _ => []

@[simp] theorem deleteShuttle_ne_connection : deleteShuttle i n ≠ deleteConnection j k := by
  intro h
  have hpath : ("/api/v1/shuttles/" ++ n).toList = ("/api/v1/connections/" ++ k).toList :=
    congrArg requestPath h
  simp at hpath

@[simp] theorem deleteConnection_ne_shuttle : deleteConnection i n ≠ deleteShuttle j k :=
  deleteShuttle_ne_connection.symm

@[simp] theorem deleteShuttle_ne_namespace : deleteShuttle i n ≠ deleteNamespace j k := by
  intro h
  have hpath : ("/api/v1/shuttles/" ++ n).toList = (namespacePath k).toList :=
    congrArg requestPath h
  unfold namespacePath at hpath
  simp at hpath

@[simp] theorem deleteNamespace_ne_shuttle : deleteNamespace i n ≠ deleteShuttle j k :=
  deleteShuttle_ne_namespace.symm

@[simp] theorem deleteConnection_ne_namespace : deleteConnection i n ≠ deleteNamespace j k := by
  intro h
  have hpath : ("/api/v1/connections/" ++ n).toList = (namespacePath k).toList :=
    congrArg requestPath h
  unfold namespacePath at hpath
  simp at hpath

@[simp] theorem deleteNamespace_ne_connection : deleteNamespace i n ≠ deleteConnection j k :=
  deleteConnection_ne_namespace.symm

theorem mem_teardown {op : Op} {shuttleName connectionName namespaceName : String} :
    op ∈ teardownOps env identity shuttleName connectionName namespaceName ↔
      (isSafeIdentifier shuttleName = true ∧ env.apiClient.isSome = true) ∧
        (op = deleteShuttle identity shuttleName ∨
          (isSafeIdentifier namespaceName = true ∧
            (op = deleteNamespace identity namespaceName ∨ op ∈ purgeOps env namespaceName)) ∨
          (isSafeIdentifier connectionName = true ∧
            op = deleteConnection identity connectionName) ∨
          (isSafeResourceName namespaceName = true ∧
            (op ∈ replicationOps shuttleName ∨
              ∃ sidecar, op = dispatcherOp (.teardown sidecar namespaceName))) ∨
          op = .metric .teardownSession) := by
  have hsidecars : (∃ sidecar, op = dispatcherOp (.teardown sidecar namespaceName)) ↔
      op = dispatcherOp (.teardown .postgres namespaceName) ∨
        op = dispatcherOp (.teardown .mysql namespaceName) ∨
        op = dispatcherOp (.teardown .clickhouse namespaceName) ∨
        op = dispatcherOp (.teardown .redis namespaceName) := by
    constructor
    · rintro ⟨sidecar, h⟩
      cases sidecar <;> simp [h]
    · rintro (h | h | h | h) <;> exact ⟨_, h⟩
  unfold teardownOps namespaceOps connectionOps sourceOps
  by_cases hsafe : isSafeIdentifier shuttleName = true ∧ env.apiClient.isSome = true
  · rw [if_pos (by simp [hsafe])]
    simp only [List.mem_cons, List.mem_append, List.not_mem_nil, or_false, hsafe, and_self,
      true_and]
    refine or_congr_right (or_congr ?_ (or_congr ?_ (or_congr_left ?_)))
    · by_cases hn : isSafeIdentifier namespaceName = true
      · simp [hn]
      · simp [hn]
    · by_cases hc : isSafeIdentifier connectionName = true
      · simp [hc]
      · simp [hc]
    · by_cases hr : isSafeResourceName namespaceName = true
      · simp [hr, hsidecars]
      · simp [hr]
  · rw [if_neg (by simpa using hsafe)]
    simp [hsafe]

theorem mem_purgeOps {op : Op} {namespaceName : String} : op ∈ purgeOps env namespaceName ↔
    ∃ access secret, minioAccess env = some access ∧ minioSecret env = some secret ∧
      op = .external (.command "bash" ["-c", purgeCommand (minioEndpoint env) access secret
        (warehouseBucket env) namespaceName]) := by
  rw [purgeOps]
  cases minioAccess env with
  | none => simp
  | some access =>
    cases minioSecret env with
    | none => simp
    | some secret => simp

theorem purgeOps_command {op : Op} {namespaceName : String} (h : op ∈ purgeOps env namespaceName) :
    ∃ args, op = .external (.command "bash" args) := by
  obtain ⟨access, secret, -, -, heq⟩ := (mem_purgeOps env).mp h
  exact ⟨_, heq⟩

theorem replicationOps_dispatcher {op : Op} {shuttleName : String}
    (h : op ∈ replicationOps shuttleName) :
    op = dispatcherOp (.dropPublication (shuttleName ++ "_pub")) ∨
      op = dispatcherOp (.dropReplicationSlot (shuttleName ++ "_slot")) := by
  unfold replicationOps at h
  split at h
  · simpa using h
  · cases h

theorem api_mem_teardown {r : ApiRequest} {shuttleName connectionName namespaceName : String} :
    .external (.api r i) ∈ teardownOps env identity shuttleName connectionName namespaceName ↔
      (isSafeIdentifier shuttleName = true ∧ env.apiClient.isSome = true) ∧
        (.external (.api r i) = deleteShuttle identity shuttleName ∨
          (isSafeIdentifier namespaceName = true ∧
            .external (.api r i) = deleteNamespace identity namespaceName) ∨
          (isSafeIdentifier connectionName = true ∧
            .external (.api r i) = deleteConnection identity connectionName)) := by
  have hpurge : .external (.api r i) ∉ purgeOps env namespaceName := fun h => by
    obtain ⟨args, heq⟩ := purgeOps_command env h
    cases heq
  have hreplication : .external (.api r i) ∉ replicationOps shuttleName := fun h => by
    rcases replicationOps_dispatcher h with heq | heq <;> cases heq
  rw [mem_teardown]
  simp [hpurge, hreplication, dispatcherOp]

theorem command_mem_teardown {program : String} {args : List String}
    {shuttleName connectionName namespaceName : String} :
    .external (.command program args) ∈
        teardownOps env identity shuttleName connectionName namespaceName ↔
      (isSafeIdentifier shuttleName = true ∧ env.apiClient.isSome = true) ∧
        isSafeIdentifier namespaceName = true ∧
          .external (.command program args) ∈ purgeOps env namespaceName := by
  have hreplication : .external (.command program args) ∉ replicationOps shuttleName := fun h => by
    rcases replicationOps_dispatcher h with heq | heq <;> cases heq
  rw [mem_teardown]
  simp [hreplication, dispatcherOp, deleteShuttle, deleteNamespace, deleteConnection]

theorem dispatcher_mem_teardown {c : DispatcherCall}
    {shuttleName connectionName namespaceName : String} :
    dispatcherOp c ∈ teardownOps env identity shuttleName connectionName namespaceName ↔
      (isSafeIdentifier shuttleName = true ∧ env.apiClient.isSome = true) ∧
        isSafeResourceName namespaceName = true ∧
          (dispatcherOp c ∈ replicationOps shuttleName ∨
            ∃ sidecar, c = .teardown sidecar namespaceName) := by
  have hpurge : .external (.dispatcher c) ∉ purgeOps env namespaceName := fun h => by
    obtain ⟨args, heq⟩ := purgeOps_command env h
    cases heq
  rw [mem_teardown]
  simp [hpurge, dispatcherOp, deleteShuttle, deleteNamespace, deleteConnection]

theorem manager_not_mem_teardown {o : PlaygroundManagerRuns.ManagerOp}
    {shuttleName connectionName namespaceName : String} :
    .manager o ∉ teardownOps env identity shuttleName connectionName namespaceName := by
  have hpurge : .manager o ∉ purgeOps env namespaceName := fun h => by
    obtain ⟨args, heq⟩ := purgeOps_command env h
    cases heq
  have hreplication : .manager o ∉ replicationOps shuttleName := fun h => by
    rcases replicationOps_dispatcher h with heq | heq <;> cases heq
  rw [mem_teardown]
  simp [hpurge, hreplication, dispatcherOp, deleteShuttle, deleteNamespace, deleteConnection]

end Calls

end PlaygroundCleanup
