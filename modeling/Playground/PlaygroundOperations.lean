import Playground.InteractionPrograms
import Playground.PlaygroundManagerRuns
import Playground.PlaygroundNames

/-! # Operations of the server

Handlers are programs over these operations. Each locked method of the session manager, each
file operation of `persist` and each call that leaves the process is one operation. -/
namespace PlaygroundOperations

open InteractionPrograms
open PlaygroundApiClient
open PlaygroundManagerRuns
open PlaygroundManifest (Manifest Value)
open PlaygroundSessionManager
open PlaygroundSessions

inductive DispatchError where
  | config (message : String)
  | connect (message : String)
  | auth (message : String)
  | schemaMismatch (message : String)
  | duplicateKey (message : String)
  | timeout (secs : ℕ)
  | protocol (message : String)
  | unavailable
  deriving DecidableEq, Repr

def DispatchError.text : DispatchError → String
  | .config m => "playground dispatcher misconfigured: " ++ m
  | .connect m => "could not connect to playground sidecar: " ++ m
  | .auth m => "authentication to playground sidecar failed: " ++ m
  | .schemaMismatch m => "schema mismatch: " ++ m
  | .duplicateKey m => "duplicate key: " ++ m
  | .timeout secs => "query timed out after " ++ toString secs ++ "s"
  | .protocol m => "playground dispatcher protocol error: " ++ m
  | .unavailable => "playground dispatcher unavailable in this build (saas feature off)"

inductive Sidecar where
  | postgres
  | mysql
  | clickhouse
  | redis
  deriving DecidableEq, Repr

/-- The methods of the dispatcher trait that handlers call; `scope` is the schema, database
or key prefix of the `exec_*_in_*` variants. -/
inductive DispatcherCall where
  | exec (sidecar : Sidecar) (scope : Option String) (sql : String)
  | provision (sidecar : Sidecar) (name : String)
  | teardown (sidecar : Sidecar) (name : String)
  | dropPublication (name : String)
  | dropReplicationSlot (name : String)
  deriving DecidableEq, Repr

@[reducible] def DispatcherCall.Result : DispatcherCall → Type
  | .exec _ _ _ => Except DispatchError (String × String)
  | .provision _ _ => Except DispatchError Unit
  | .teardown _ _ => Except DispatchError Unit
  | .dropPublication _ => Except DispatchError Unit
  | .dropReplicationSlot _ => Except DispatchError Unit

structure ProcessOutput where
  success : Bool
  status : String
  stdout : String
  stderr : String
  deriving DecidableEq, Repr

structure PostReply where
  code : ℕ
  status : String
  body : String
  deriving DecidableEq, Repr

/-- What leaves the process: API calls, dispatcher calls, child processes, files of the
examples tree and the records posted to Kafka. -/
inductive ExternalCall where
  | api (request : ApiRequest) (identity : Identity)
  | dispatcher (call : DispatcherCall)
  | command (program : String) (args : List String)
  | readToString (path : String)
  | readBytes (path : String)
  | exists_ (path : String)
  | post (url contentType : String) (records : ℕ) (value : Value)

@[reducible] def ExternalCall.Result : ExternalCall → Type
  | .api _ _ => Except ApiCallError (ℕ × Value)
  | .dispatcher call => call.Result
  | .command _ _ => Except String ProcessOutput
  | .readToString _ => Except String String
  | .readBytes _ => Except String (List UInt8)
  | .exists_ _ => Bool
  | .post _ _ _ _ => Except String PostReply

structure QuotaError where
  tenant : String
  count : ℕ
  limit : ℕ
  deriving DecidableEq, Repr

def QuotaError.text (e : QuotaError) : String :=
  "playground daily quota exhausted for tenant (" ++ e.tenant ++ "): " ++ toString e.count ++
    "/" ++ toString e.limit ++ " — resets at UTC midnight"

/-- Recordings on the metrics registry, without their durations. -/
inductive Metric where
  | sessionStart (scenarioId : String) (ok : Bool)
  | actionDuration (scenarioId actionId : String) (ok : Bool)
  | actionError (scenarioId actionId message : String)
  | teardownSession
  deriving DecidableEq, Repr

inductive Op where
  | manager (o : ManagerOp)
  | snapshot
  | writeTmp (rows : List SessionRow)
  | renameTmp
  | tryConsume (tenantId : Option String)
  | metric (m : Metric)
  | readClock
  | actionStart (id : Uuid) (actionId : String)
  | external (c : ExternalCall)

@[reducible] def Op.Result : Op → Type
  | .manager o => o.Result
  | .snapshot => List SessionRow
  | .writeTmp _ => Bool
  | .renameTmp => Bool
  | .tryConsume _ => Except QuotaError ℕ
  | .metric _ => Unit
  | .readClock => Clock
  | .actionStart _ _ => Unit
  | .external c => c.Result

abbrev Handler (α : Type) := Program Op Op.Result α

/-- Configuration and collaborators of the server. The JSON decoder and the Unicode upper case
of characters beyond ASCII are libraries. -/
structure ServerEnv where
  manifest : Manifest
  persistencePath : Option String
  initialized : Bool
  apiClient : Option ApiClient
  deploymentKind : String
  examplesDir : String
  envVar : String → Option String
  tcpBacked : Bool
  parseJson : List UInt8 → Option Value
  unicodeUpper : Char → List Char

def configured : ServerEnv :=
  { manifest := oneScenario
    persistencePath := some "sessions.json"
    initialized := true
    apiClient := some (ApiClient.new "http://api:8080" "svc")
    deploymentKind := "cloud"
    examplesDir := "/opt/datashuttle/examples"
    envVar := fun _ => none
    tcpBacked := true
    parseJson := fun _ => none
    unicodeUpper := fun c => [c] }

section Manager

def call (c : ExternalCall) : Handler c.Result := Program.perform (Op.external c)

def locked (o : ManagerOp) : Handler o.Result := Program.perform (Op.manager o)

def tryConsume (tenantId : Option String) : Handler (Except QuotaError ℕ) :=
  Program.perform (Op.tryConsume tenantId)

def readClock : Handler Clock := Program.perform Op.readClock

def recordMetric (m : Metric) : Handler Unit := Program.perform (Op.metric m)

/-- `SessionManager::persist`: snapshot, write to the temp file, rename. A failed write ends
it, a failed rename is only logged. -/
def persist (env : ServerEnv) : Handler Unit :=
  match env.persistencePath with
  | none => .done ()
  | some _ => do
    let rows ← Program.perform .snapshot
    let written ← Program.perform (.writeTmp rows)
    if written then
      let _ ← Program.perform .renameTmp
      .done ()
    else .done ()

def create (env : ServerEnv) (a : SessionManager.CreateArgs) :
    Handler (Except SessionError Session) := do
  match ← locked (.create a) with
  | .error e => .done (.error e)
  | .ok session =>
    persist env
    .done (.ok session)

/-- A closure that panics takes the handler with it, before `persist`. -/
def update (env : ServerEnv) (id : Uuid) (userId : String) (u : SessionUpdate) :
    Handler (Except SessionError UpdateOutcome) := do
  match ← locked (.update id userId u) with
  | .error e => .done (.error e)
  | .ok .panicked => .done (.ok .panicked)
  | .ok outcome =>
    persist env
    .done (.ok outcome)

def endLocked (env : ServerEnv) (id : Uuid) (userId : String) :
    Handler (Except SessionError Session) := do
  match ← locked (.endSession id userId) with
  | .error e => .done (.error e)
  | .ok session =>
    persist env
    .done (.ok session)

def sweepExpired (env : ServerEnv) : Handler (List Session) := do
  let expired ← locked .sweepExpired
  if expired.isEmpty then .done expired
  else
    persist env
    .done expired

end Manager

def execSql (identity : Identity) (sql : String) : Handler (Except ApiCallError Value) :=
  match classifyStatement sql with
  | none => .done (.error (unsupportedStatement sql))
  | some d => do
    let reply ← call (.api (d.request sql) identity)
    .done (reply.map Prod.snd)

def execSqlOps (identity : Identity) (sql : String) : List Op :=
  match classifyStatement sql with
  | none => []
  | some d => [.external (.api (d.request sql) identity)]

variable {ok : (op : Op) → op.Result → Prop}

theorem performs_call (c : ExternalCall) : (call c).Performs ok [.external c] :=
  Program.performs_perform _

theorem performs_execSql (identity : Identity) (sql : String) :
    (execSql identity sql).Performs ok (execSqlOps identity sql) := by
  unfold execSql execSqlOps
  cases classifyStatement sql with
  | none => rfl
  | some d => exact (performs_call _).bind fun _ _ => rfl

end PlaygroundOperations
