import Playground.PlaygroundSafeNames

/-! # Best effort teardown

Which removals `teardown_session` attempts, whatever fails. -/
namespace PlaygroundBestEffort

open InteractionPrograms
open PlaygroundApiClient
open PlaygroundCleanup
open PlaygroundHandlers
open PlaygroundManagerRuns
open PlaygroundManifest (Manifest)
open PlaygroundNames
open PlaygroundOperations
open PlaygroundSafeNames
open PlaygroundSessions

section Removals

variable (env : ServerEnv) (identity : Identity) (shuttleName connectionName namespaceName : String)

def apiRemovals : List Op :=
  [deleteShuttle identity shuttleName, deleteNamespace identity namespaceName,
    deleteConnection identity connectionName]

def dispatcherRemovals : List Op :=
  [dispatcherOp (.dropPublication (shuttleName ++ "_pub")),
    dispatcherOp (.dropReplicationSlot (shuttleName ++ "_slot")),
    dispatcherOp (.teardown .postgres namespaceName),
    dispatcherOp (.teardown .mysql namespaceName),
    dispatcherOp (.teardown .clickhouse namespaceName),
    dispatcherOp (.teardown .redis namespaceName)]

/-- The removals whose collaborator is there: the API calls need a client, the purge needs the
keys of the object store. -/
def removals : List Op :=
  (if env.apiClient.isSome then apiRemovals identity shuttleName connectionName namespaceName
    else []) ++ purgeOps env namespaceName ++ dispatcherRemovals shuttleName namespaceName

/-- Every one of them is attempted, whatever each call answers. -/
def AttemptsAll : Prop :=
  ∀ op ∈ removals env identity shuttleName connectionName namespaceName,
    (teardownSession env identity shuttleName connectionName namespaceName).Eventually
      (fun _ _ => True) (· = op)

end Removals

variable {env : ServerEnv} {identity : Identity}
  {shuttleName connectionName namespaceName : String}

theorem removals_teardown (h : PassesGuards shuttleName connectionName namespaceName)
    (hclient : env.apiClient.isSome = true) {op : Op}
    (hop : op ∈ removals env identity shuttleName connectionName namespaceName) :
    op ∈ teardownOps env identity shuttleName connectionName namespaceName := by
  refine h.mem_teardown hclient ?_
  simp only [removals, apiRemovals, dispatcherRemovals, hclient, if_true, List.mem_append,
    List.mem_cons, List.not_mem_nil, or_false] at hop
  rcases hop with ((rfl | rfl | rfl) | hpurge) | rfl | rfl | rfl | rfl | rfl | rfl
  · exact .shuttle
  · exact .catalogNamespace
  · exact .connection
  · exact .purge hpurge
  · exact .publication
  · exact .slot
  · exact .source .postgres
  · exact .source .mysql
  · exact .source .clickhouse
  · exact .source .redis

theorem attempts_of_client (h : PassesGuards shuttleName connectionName namespaceName)
    (hclient : env.apiClient.isSome = true) :
    AttemptsAll env identity shuttleName connectionName namespaceName := by
  intro op hop
  exact (performs_teardown env identity shuttleName connectionName namespaceName).eventually
    (removals_teardown h hclient hop) rfl

theorem attempts_nothing (hclient : env.apiClient.isSome = false) :
    teardownSession env identity shuttleName connectionName namespaceName = .done () := by
  simp [teardownSession, Program.when, hclient]

theorem client_of_attempts
    (h : AttemptsAll env identity shuttleName connectionName namespaceName) :
    env.apiClient.isSome = true := by
  cases hclient : env.apiClient.isSome with
  | true => rfl
  | false =>
    have hdrop := h (dispatcherOp (.dropPublication (shuttleName ++ "_pub")))
      (by simp [removals, dispatcherRemovals])
    rw [attempts_nothing hclient] at hdrop
    exact hdrop.elim

theorem attempts_iff (h : PassesGuards shuttleName connectionName namespaceName) :
    AttemptsAll env identity shuttleName connectionName namespaceName ↔
      env.apiClient.isSome = true := by
  constructor
  · intro hall
    exact client_of_attempts hall
  · intro hclient
    exact attempts_of_client h hclient

theorem attempts_all_iff (env : ServerEnv) (identity : Identity) (sha256 : String → Digest)
    (userId : String) (id : Uuid) :
    AttemptsAll env identity (deriveShuttle sha256 userId id)
        (deriveConnection (deriveShuttle sha256 userId id)) (deriveNamespace sha256 userId id) ↔
      env.apiClient.isSome = true := by
  have hpass := derived_names_pass sha256 userId id
  rw [attempts_iff hpass]

/-- A server without API client, with one scenario on postgres. -/
def unconfigured : ServerEnv :=
  { configured with
    apiClient := none
    persistencePath := none
    manifest :=
      { version := 1
        sources := [⟨"pg", some "postgres"⟩]
        scenarios := [{
          id := "pg-cdc"
          sourceId := "pg"
          deployment := []
          initSql := none
          shuttleSql := none
          actions := []
          breakScenarios := [] }] } }

def strandedCaller : Identity := ⟨"u1", none, none, "unknown"⟩

def strandedSession : Session :=
  .new (fun _ => 0) 1 (atSecond 0) "u1" none "pg-cdc" minTtl

def strandedView : SessionView := strandedSession.view (atSecond 0)

def createdEvents : List ((op : Op) × op.Result) :=
  [⟨.tryConsume none, .ok 1⟩,
    ⟨.metric (.sessionStart "pg-cdc" true), ()⟩,
    ⟨.manager (.create ⟨1, "u1", none, "pg-cdc", none⟩), .ok strandedSession⟩,
    ⟨dispatcherOp (.provision .postgres strandedSession.namespaceName), .ok ()⟩,
    ⟨.manager (.update 1 "u1" (.record "resource-provisioned" (fun s => "postgres" ++ " " ++
      resourceLabel "postgres" ++ "=" ++ s.namespaceName) none (some true))), .ok .done⟩,
    ⟨.manager (.update 1 "u1" .sessionCreated), .ok .done⟩,
    ⟨.readClock, atSecond 0⟩]

def endedEvents : List ((op : Op) × op.Result) :=
  [⟨.manager (.endSession 1 "u1"), .ok strandedSession⟩, ⟨.readClock, atSecond 0⟩,
    ⟨.readClock, atSecond 0⟩]

theorem schema_stranded :
    (createSession unconfigured strandedCaller 1 ⟨"pg-cdc", none⟩).Trace createdEvents
        (.ok strandedView) ∧
      (∃ view, (endSession unconfigured strandedCaller 1).Trace endedEvents (.ok view)) ∧
      dispatcherOp (.teardown .postgres strandedSession.namespaceName) ∈
        removals unconfigured strandedCaller strandedSession.shuttleName
          strandedSession.connectionName strandedSession.namespaceName ∧
      ¬AttemptsAll unconfigured strandedCaller strandedSession.shuttleName
        strandedSession.connectionName strandedSession.namespaceName := by
  refine ⟨.step (.step (.step (.step (.step (.step (.step (.done _))))))),
    ⟨_, .step (.step (.step (.done _)))⟩, by simp [removals, dispatcherRemovals], fun h => ?_⟩
  cases client_of_attempts h

end PlaygroundBestEffort
