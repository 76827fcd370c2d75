import Playground.PlaygroundDispatcher
import Playground.PlaygroundHandlers

/-! # Derived names and the steps they guard

The names of a session pass every check that is made on them, so no step of a teardown or a reset
is skipped and source scripts always run in the session's own namespace. -/
namespace PlaygroundSafeNames

open InteractionPrograms
open PlaygroundApiClient
open PlaygroundCleanup
open PlaygroundDispatcher
open PlaygroundHandlers
open PlaygroundManagerRuns
open PlaygroundManifest (Scenario Source)
open PlaygroundNames
open PlaygroundOperations
open PlaygroundSessionManager
open PlaygroundSessions
open PlaygroundTemplates

/-- Every check the server makes on the three names and on what it builds from them. -/
structure PassesGuards (shuttleName connectionName namespaceName : String) : Prop where
  namespaceResource : isSafeResourceName namespaceName = true
  namespaceIdentifier : isSafeIdentifier namespaceName = true
  shuttleArtifact : isSafePlaygroundShuttleArtifact shuttleName = true
  publicationArtifact : isSafePlaygroundShuttleArtifact (shuttleName ++ "_pub") = true
  slotArtifact : isSafePlaygroundShuttleArtifact (shuttleName ++ "_slot") = true
  shuttleIdentifier : isSafeIdentifier shuttleName = true
  connectionIdentifier : isSafeIdentifier connectionName = true

theorem derived_names_pass (sha256 : String → Digest) (userId : String) (id : Uuid) :
    PassesGuards (deriveShuttle sha256 userId id)
      (deriveConnection (deriveShuttle sha256 userId id)) (deriveNamespace sha256 userId id) :=
  have hshuttle := deriveShuttle_form sha256 userId id
  have hnamespace := deriveNamespace_form sha256 userId id
  { namespaceResource := hnamespace.resource
    namespaceIdentifier := hnamespace.safe
    shuttleArtifact := hshuttle.artifact
    publicationArtifact := hshuttle.publication
    slotArtifact := hshuttle.slot
    shuttleIdentifier := hshuttle.safe
    connectionIdentifier := (deriveConnection_form sha256 userId id).safe }

section Unguarded

variable (env : ServerEnv)

/-- The steps of a teardown without the checks on names. -/
def allSteps (identity : Identity) (shuttleName connectionName namespaceName : String) :
    Handler Unit := do
  dropShuttle identity shuttleName
  bestEffort (call (.api ⟨"DELETE", namespacePath namespaceName, none⟩ identity))
  bestEffort (purgeS3Namespace env namespaceName)
  dropConnection identity connectionName
  bestEffort (call (.dispatcher (.dropPublication (shuttleName ++ "_pub"))))
  bestEffort (call (.dispatcher (.dropReplicationSlot (shuttleName ++ "_slot"))))
  bestEffort (call (.dispatcher (.teardown .postgres namespaceName)))
  bestEffort (call (.dispatcher (.teardown .mysql namespaceName)))
  bestEffort (call (.dispatcher (.teardown .clickhouse namespaceName)))
  bestEffort (call (.dispatcher (.teardown .redis namespaceName)))
  Program.perform (Op.metric .teardownSession)

def dispatchIsolated (source : Source) (namespaceName sql : String) :
    Handler (Except String (String × String)) :=
  match source.dockerService with
  | none => .done (.error ("source " ++ source.id ++ " has no docker_service"))
  | some service =>
    match sidecarOf service with
    | none => execSourceSql source sql env.tcpBacked
    | some sidecar => do
      match ← call (.dispatcher (.exec sidecar (some namespaceName) sql)) with
      | .ok out => .done (.ok out)
      | .error .unavailable =>
        if sidecar = .redis then
          .done (.error ("redis dispatcher unavailable — cloud playground requires " ++
            "DS_REDIS_PLAYGROUND_HOST + redis-playground sidecar"))
        else
          execSourceSql source (createDatabase namespaceName sidecar ++ "\n" ++
            useDatabase namespaceName sidecar ++ "\n" ++ sql) env.tcpBacked
      | .error other => .done (.error other.text)

end Unguarded

def Accepted (c : DispatcherCall) : Prop := ∃ r, cleanupOf c = some (.ok r)

/-- No check on a name of the session makes a difference. -/
structure NothingSkipped (s : Session) : Prop where
  teardown : ∀ env identity,
    teardownSession env identity s.shuttleName s.connectionName s.namespaceName =
      Program.when env.apiClient.isSome
        (allSteps env identity s.shuttleName s.connectionName s.namespaceName)
  publication : Accepted (.dropPublication (s.shuttleName ++ "_pub"))
  slot : Accepted (.dropReplicationSlot (s.shuttleName ++ "_slot"))
  sources : ∀ sidecar, Accepted (.teardown sidecar s.namespaceName)
  reset : ∀ env, resettable env s =
    match env.manifest.scenario s.scenarioId with
    | none => .error (.status 500 "session's scenario no longer in manifest")
    | some scenario => .ok scenario
  isolated : ∀ env source sql,
    dispatchSourceSql env source s.namespaceName sql =
      dispatchIsolated env source s.namespaceName sql

theorem PassesGuards.teardown {shuttleName connectionName namespaceName : String}
    (h : PassesGuards shuttleName connectionName namespaceName) (env : ServerEnv)
    (identity : Identity) :
    teardownSession env identity shuttleName connectionName namespaceName =
      Program.when env.apiClient.isSome
        (allSteps env identity shuttleName connectionName namespaceName) := by
  simp only [teardownSession, dropNamespace, dropSourceResources, dropReplication, allSteps,
    h.namespaceResource, h.namespaceIdentifier, h.shuttleArtifact, h.shuttleIdentifier,
    h.connectionIdentifier, Program.when_true, Bool.true_and, Program.bind_bind]

/-- The calls of a teardown in which no check skips a step. -/
inductive TeardownCall (env : ServerEnv) (identity : Identity)
    (shuttleName connectionName namespaceName : String) : Op → Prop where
  | shuttle : TeardownCall env identity shuttleName connectionName namespaceName
      (deleteShuttle identity shuttleName)
  | catalogNamespace : TeardownCall env identity shuttleName connectionName namespaceName
      (deleteNamespace identity namespaceName)
  | purge {op : Op} (h : op ∈ purgeOps env namespaceName) :
      TeardownCall env identity shuttleName connectionName namespaceName op
  | connection : TeardownCall env identity shuttleName connectionName namespaceName
      (deleteConnection identity connectionName)
  | publication : TeardownCall env identity shuttleName connectionName namespaceName
      (dispatcherOp (.dropPublication (shuttleName ++ "_pub")))
  | slot : TeardownCall env identity shuttleName connectionName namespaceName
      (dispatcherOp (.dropReplicationSlot (shuttleName ++ "_slot")))
  | source (sidecar : Sidecar) :
      TeardownCall env identity shuttleName connectionName namespaceName
        (dispatcherOp (.teardown sidecar namespaceName))

theorem PassesGuards.mem_teardown {shuttleName connectionName namespaceName : String}
    (h : PassesGuards shuttleName connectionName namespaceName) {env : ServerEnv}
    {identity : Identity} (hclient : env.apiClient.isSome = true) {op : Op}
    (hop : TeardownCall env identity shuttleName connectionName namespaceName op) :
    op ∈ teardownOps env identity shuttleName connectionName namespaceName := by
  refine (PlaygroundCleanup.mem_teardown env identity).mpr ⟨⟨h.shuttleIdentifier, hclient⟩, ?_⟩
  have hreplication : replicationOps shuttleName =
      [dispatcherOp (.dropPublication (shuttleName ++ "_pub")),
        dispatcherOp (.dropReplicationSlot (shuttleName ++ "_slot"))] := by
    unfold replicationOps
    rw [if_pos h.shuttleArtifact]
  cases hop with
  | shuttle => exact Or.inl rfl
  | catalogNamespace => exact Or.inr (Or.inl ⟨h.namespaceIdentifier, Or.inl rfl⟩)
  | purge hpurge => exact Or.inr (Or.inl ⟨h.namespaceIdentifier, Or.inr hpurge⟩)
  | connection => exact Or.inr (Or.inr (Or.inl ⟨h.connectionIdentifier, rfl⟩))
  | publication =>
    refine Or.inr (Or.inr (Or.inr (Or.inl ⟨h.namespaceResource, Or.inl ?_⟩)))
    rw [hreplication]
    exact List.mem_cons_self
  | slot =>
    refine Or.inr (Or.inr (Or.inr (Or.inl ⟨h.namespaceResource, Or.inl ?_⟩)))
    rw [hreplication]
    exact List.mem_cons_of_mem _ List.mem_cons_self
  | source sidecar =>
    exact Or.inr (Or.inr (Or.inr (Or.inl ⟨h.namespaceResource, Or.inr ⟨sidecar, rfl⟩⟩)))

theorem PassesGuards.sources {shuttleName connectionName namespaceName : String}
    (h : PassesGuards shuttleName connectionName namespaceName) (sidecar : Sidecar) :
    Accepted (.teardown sidecar namespaceName) := by
  have hname := h.namespaceResource
  cases sidecar with
  | postgres => exact ⟨_, congrArg some (guarded_accepted hname)⟩
  | mysql => exact ⟨_, congrArg some (guarded_accepted hname)⟩
  | clickhouse => exact ⟨_, congrArg some (guarded_accepted hname)⟩
  | redis => exact ⟨_, congrArg some (guarded_accepted hname)⟩

theorem PassesGuards.resettable {s : Session}
    (h : PassesGuards s.shuttleName s.connectionName s.namespaceName) (env : ServerEnv) :
    PlaygroundHandlers.resettable env s =
      match env.manifest.scenario s.scenarioId with
      | none => .error (.status 500 "session's scenario no longer in manifest")
      | some scenario => .ok scenario := by
  cases hscenario : env.manifest.scenario s.scenarioId with
  | none => simp only [PlaygroundHandlers.resettable, hscenario]
  | some scenario =>
    simp only [PlaygroundHandlers.resettable, hscenario, h.shuttleIdentifier,
      h.connectionIdentifier, h.namespaceIdentifier, Bool.and_self, if_true]

theorem dispatch_isolated {namespaceName : String} (h : isSafeResourceName namespaceName = true)
    (env : ServerEnv) (source : Source) (sql : String) :
    dispatchSourceSql env source namespaceName sql =
      dispatchIsolated env source namespaceName sql := by
  unfold dispatchSourceSql dispatchIsolated isolatedSql
  rw [h]
  cases source.dockerService with
  | none => rfl
  | some service =>
    dsimp only
    cases sidecarOf service with
    | none => rfl
    | some sidecar =>
      simp only [if_true]
      refine congrArg
        (Program.bind (call (.dispatcher (.exec sidecar (some namespaceName) sql)))) ?_
      funext r
      cases r with
      | ok => rfl
      | error e => cases e <;> rfl

theorem PassesGuards.nothingSkipped {s : Session}
    (h : PassesGuards s.shuttleName s.connectionName s.namespaceName) : NothingSkipped s where
  teardown := h.teardown
  publication := ⟨_, congrArg some (guarded_accepted h.publicationArtifact)⟩
  slot := ⟨_, congrArg some (guarded_accepted h.slotArtifact)⟩
  sources := h.sources
  reset := h.resettable
  isolated := dispatch_isolated h.namespaceResource

theorem WellFormed.passesGuards {sha256 : String → Digest} {id : Uuid} {s : Session}
    (h : WellFormed sha256 id s) :
    PassesGuards s.shuttleName s.connectionName s.namespaceName := by
  rw [h.connectionName, h.shuttleName, h.namespaceName]
  exact derived_names_pass sha256 s.userId s.id

/-- For every user and every UUID the derived names pass every guard, and so do those of every
session of a run, for which no check ever skips a step. -/
theorem every_guard_passes (sha256 : String → Digest) :
    (∀ userId id, PassesGuards (deriveShuttle sha256 userId id)
      (deriveConnection (deriveShuttle sha256 userId id)) (deriveNamespace sha256 userId id)) ∧
    ∀ m t, ManagerRun sha256 anyEvent m t → ∀ id s, m.sessions.lookup id = some s →
      PassesGuards s.shuttleName s.connectionName s.namespaceName ∧ NothingSkipped s := by
  refine ⟨derived_names_pass sha256, ?_⟩
  intro m t hrun id s hs
  have hpass := WellFormed.passesGuards (hrun.wellFormed id s hs)
  exact ⟨hpass, hpass.nothingSkipped⟩

theorem every_guard_passes_oneSession :
    PassesGuards firstSession.shuttleName firstSession.connectionName
      firstSession.namespaceName ∧ NothingSkipped firstSession :=
  (every_guard_passes fun _ => 0).2 oneSession _ (oneSession_run trivial) 1 firstSession
    oneSession_lookup

end PlaygroundSafeNames
