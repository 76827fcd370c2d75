import Playground.PlaygroundHandlers

/-! # Actions

`execute_action` and the executors of the action kinds. -/
namespace PlaygroundActions

open InteractionPrograms
open PlaygroundApiClient
open PlaygroundCleanup
open PlaygroundHandlers
open PlaygroundManagerRuns
open PlaygroundManifest (Action ActionKind ActionTarget HttpRequest Manifest Scenario Source Value)
open PlaygroundOperations
open PlaygroundSessionManager
open PlaygroundSessions
open PlaygroundTemplates

structure ActionOutcome where
  stdout : Option String
  stderr : Option String
  httpStatus : Option ℕ
  body : Option Value

def printed (out : String × String) : ActionOutcome := ⟨some out.1, some out.2, none, none⟩

def answered (status : ℕ) (body : Value) : ActionOutcome := ⟨none, none, some status, some body⟩

structure ActionResponse where
  actionId : String
  kind : String
  status : String
  stdout : Option String
  stderr : Option String
  httpStatus : Option ℕ
  body : Option Value
  error : Option String

/-- The lower-cased `Debug` text. -/
def kindText : ActionKind → String
  | .sql => "sql"
  | .shell => "shell"
  | .http => "http"
  | .produceKafka => "producekafka"
  | .uploadFile => "uploadfile"
  | .toxiproxy => "toxiproxy"
  | .resetSnapshot => "resetsnapshot"

def targetText : ActionTarget → String
  | .source => "Source"
  | .target => "Target"
  | .kafka => "Kafka"
  | .s3 => "S3"
  | .rest => "Rest"
  | .ops => "Ops"

def toUppercase (env : ServerEnv) (s : String) : String :=
  String.ofList (s.toList.flatMap fun c =>
    if c.toNat < 128 then [c.toUpper] else env.unicodeUpper c)

section Executors

variable (env : ServerEnv) (identity : Identity) (session : Session) (action : Action)

def readActionSql : Handler (Except String String) :=
  match action.sql, action.sqlFile with
  | some sql, _ => .done (.ok sql)
  | none, some path => readExampleFile env path
  | none, none => .done (.error "sql action missing sql or sql_file")

def sessionSource : Except String Source :=
  match env.manifest.scenario session.scenarioId with
  | none => .error "scenario missing"
  | some scenario =>
    match env.manifest.source scenario.sourceId with
    | none => .error "source missing"
    | some source => .ok source

def runSourceSql (sql : String) : Handler (Except String ActionOutcome) :=
  match sessionSource env session with
  | .error e => .done (.error e)
  | .ok source => do
    let result ← dispatchSourceSql env source session.namespaceName sql
    .done (result.map printed)

def runApiSql (sql : String) : Handler (Except String ActionOutcome) :=
  if env.apiClient.isSome then do
    match ← execSql identity sql with
    | .error e => .done (.error e.text)
    | .ok body => .done (.ok (answered 200 body))
  else .done (.error "api callback client not configured")

def runSqlOn (sql : String) : Handler (Except String ActionOutcome) :=
  match action.target with
  | some .source =>
    if env.initialized then runSourceSql env session sql
    else .done (.error "playground not initialized")
  | some .ops | some .target | none => runApiSql env identity sql
  | some other => .done (.error ("SQL cannot target " ++ targetText other))

def runSql : Handler (Except String ActionOutcome) := do
  match ← readActionSql env action with
  | .error e => .done (.error e)
  | .ok sql => runSqlOn env identity session action (substitutePlaceholders env sql session)

def httpActionRequest (req : HttpRequest) : ApiRequest :=
  { method := toUppercase env req.method
    path := substitutePlaceholders env req.url session
    body := req.body.map (substitutePlaceholdersValue env session) }

def runHttp : Handler (Except String ActionOutcome) :=
  match action.httpRequest with
  | none => .done (.error "http action missing http_request")
  | some req =>
    if env.apiClient.isSome then do
      match ← call (.api (httpActionRequest env session req) identity) with
      | .error e => .done (.error e.text)
      | .ok (status, body) => .done (.ok (answered status body))
    else .done (.error "api callback client not configured")

def runShell (cmd : String) : Handler (Except String (String × String)) := do
  match ← call (.command "bash" ["-c", substitutePlaceholders env cmd session]) with
  | .error e => .done (.error ("spawn bash: " ++ e))
  | .ok output =>
    if output.success then .done (.ok (output.stdout, output.stderr))
    else .done (.error ("command exited with " ++ output.status ++ ": " ++
      firstLines output.stderr))

def examplesRoot : String := "/opt/datashuttle/examples"

structure KafkaTarget where
  host : String
  port : String
  broker : String
  deriving DecidableEq, Repr

def kafkaTarget : KafkaTarget :=
  let host := (env.envVar "DS_KAFKA_PLAYGROUND_HOST").getD "redpanda-playground"
  let nativePort := (env.envVar "DS_KAFKA_PLAYGROUND_PORT").getD "9092"
  { host := host
    port := (env.envVar "DS_KAFKA_PLAYGROUND_REST_PORT").getD "8082"
    broker := (env.envVar "DS_KAFKA_PLAYGROUND_BROKER").getD (host ++ ":" ++ nativePort) }

def topicExists (output : ProcessOutput) : Bool :=
  [output.stderr, output.stdout].any fun text =>
    ["TOPIC_ALREADY_EXISTS", "already exists"].any fun part =>
      RustText.contains part.toList text.toList

/-- `rpk topic create`; a topic that is already there counts as created. -/
def createTopic (topic broker : String) : Handler (Except String Unit) := do
  match ← call (.command "rpk" ["topic", "create", topic, "--brokers", broker, "--partitions",
      "1", "--replicas", "1"]) with
  | .error e => .done (.error ("spawn rpk: " ++ e))
  | .ok output =>
    if output.success || topicExists output then .done (.ok ())
    else .done (.error ("rpk topic create " ++ topic ++ " (broker=" ++ broker ++ "): stdout=" ++
      output.stdout ++ " stderr=" ++ output.stderr))

def kafkaRecord (payloadFile : String) (bytes : List UInt8) : String × Value :=
  let isJson := match extension payloadFile with
    | none => false
    | some ext => RustText.toAsciiUppercase ext == "JSON".toList
  match (if isJson then env.parseJson bytes else none) with
  | some v => ("application/vnd.kafka.json.v2+json", .object [("value", v)])
  | none =>
    ("application/vnd.kafka.binary.v2+json", .object [("value", .string (base64Encode bytes))])

def chunk : ℕ := 500

/-- The produce loop: full chunks and a remainder, up to the first that is refused. -/
def postChunks (url topic contentType : String) (template : Value) :
    List ℕ → ℕ → String → Handler (Except String String)
  | [], _, lastBody => .done (.ok lastBody)
  | n :: rest, produced, _ => do
    match ← call (.post url contentType n template) with
    | .error e => .done (.error ("pandaproxy POST " ++ url ++ ": " ++ e))
    | .ok reply =>
      if 200 ≤ reply.code ∧ reply.code < 300 then
        postChunks url topic contentType template rest (produced + n) reply.body
      else .done (.error ("pandaproxy returned " ++ reply.status ++ " for topic " ++ topic ++
        " (after " ++ toString produced ++ " produced): " ++ reply.body))

def chunks (repeatCount : ℕ) : List ℕ :=
  List.replicate (repeatCount / chunk) chunk ++
    (if repeatCount % chunk = 0 then [] else [repeatCount % chunk])

def producePayload (payloadFile : String) (repeatCount : ℕ) (topic : String)
    (bytes : List UInt8) : Handler (Except String (String × String)) := do
  let target := kafkaTarget env
  let record := kafkaRecord env payloadFile bytes
  match ← postChunks ("http://" ++ target.host ++ ":" ++ target.port ++ "/topics/" ++ topic)
      topic record.1 record.2 (chunks repeatCount) 0 "" with
  | .error e => .done (.error e)
  | .ok lastBody =>
    .done (.ok ("produced " ++ toString repeatCount ++ " record(s) to " ++ topic ++ " via " ++
      target.host ++ ":" ++ target.port ++ " (" ++ record.1 ++ ")", lastBody))

def produceTo (payloadFile : String) (repeatCount : ℕ) (topic : String) :
    Handler (Except String (String × String)) := do
  match ← createTopic topic (kafkaTarget env).broker with
  | .error e => .done (.error e)
  | .ok () =>
    match ← call (.readBytes (joinPath examplesRoot payloadFile)) with
    | .error e => .done (.error ("read " ++ payloadFile ++ ": " ++ e))
    | .ok bytes => producePayload env payloadFile repeatCount topic bytes

def produceKafka (payloadFile : String) (repeatCount : ℕ) :
    Handler (Except String (String × String)) :=
  match validateExampleRelativePath payloadFile with
  | .error e => .done (.error e)
  | .ok () => produceTo env payloadFile (min repeatCount 100000) (kafkaTopicFor session)

/-- Alias, bucket and copy in one shell command. -/
def uploadCommand (access secret srcPath payloadFile : String) : String :=
  "mc alias set local " ++ shellQuote (minioEndpoint env) ++ " " ++ shellQuote access ++ " " ++
    shellQuote secret ++ " >/dev/null && mc mb --ignore-existing local/" ++
    shellQuote s3BucketFor ++ " >/dev/null && mc cp " ++ shellQuote srcPath ++ " local/" ++
    shellQuote s3BucketFor ++ "/" ++ shellQuote session.namespaceName ++ "/" ++
    shellQuote (((fileName payloadFile).map String.ofList).getD payloadFile)

def copyPayload (access secret payloadFile : String) :
    Handler (Except String (String × String)) := do
  let srcPath := joinPath examplesRoot payloadFile
  let found ← call (.exists_ srcPath)
  if found = true then
    runShell env session (uploadCommand env session access secret srcPath payloadFile)
  else .done (.error ("payload not found in baked examples: " ++ srcPath))

def uploadFile (payloadFile : String) : Handler (Except String (String × String)) :=
  match validateExampleRelativePath payloadFile with
  | .error e => .done (.error e)
  | .ok () =>
    match minioAccess env with
    | none => .done (.error "missing DS_MINIO_ACCESS_KEY / MINIO_ROOT_USER")
    | some access =>
      match minioSecret env with
      | none => .done (.error "missing DS_MINIO_SECRET_KEY / MINIO_ROOT_PASSWORD")
      | some secret => copyPayload env session access secret payloadFile

/-- An executor that needs a field of the action and prints two streams. -/
def runWith (field : Option String) (missing : String)
    (run : String → Handler (Except String (String × String))) :
    Handler (Except String ActionOutcome) :=
  match field with
  | none => .done (.error missing)
  | some value => do
    let result ← run value
    .done (result.map printed)

def runAction : Handler (Except String ActionOutcome) :=
  match action.kind with
  | .sql => runSql env identity session action
  | .http => runHttp env identity session action
  | .shell | .toxiproxy | .resetSnapshot =>
    runWith action.shellCmd "missing shell_cmd" (runShell env session)
  | .produceKafka =>
    runWith action.payloadFile "missing payload_file" fun file =>
      produceKafka env session file (action.repeatCount.getD 1)
  | .uploadFile => runWith action.payloadFile "missing payload_file" (uploadFile env session)

end Executors

section Execute

variable (env : ServerEnv) (identity : Identity)

def findAction (session : Session) (actionId : String) : Except Failure Action :=
  match env.manifest.scenario session.scenarioId with
  | none => .error (.status 500 "session's scenario not found in manifest (was it removed?)")
  | some scenario =>
    match scenario.action actionId with
    | none => .error (.status 404 ("unknown action " ++ actionId ++ " for scenario " ++
        scenario.id))
    | some action => .ok action

def ActionResponse.of (actionId : String) (action : Action) :
    Except String ActionOutcome → ActionResponse
  | .ok r => ⟨actionId, kindText action.kind, "ok", r.stdout, r.stderr, r.httpStatus, r.body, none⟩
  | .error e => ⟨actionId, kindText action.kind, "error", none, none, none, none, some e⟩

def recordActionError (session : Session) (action : Action) :
    Except String ActionOutcome → Handler Unit
  | .ok _ => .done ()
  | .error e => recordMetric (.actionError session.scenarioId action.id e)

/-- What follows the checks, on the clone of the session that `get` returned. -/
def runTimed (id : Uuid) (session : Session) (actionId : String) (action : Action) :
    Handler (Except Failure ActionResponse) := do
  Program.perform (Op.actionStart id action.id)
  let result ← runAction env identity session action
  recordMetric (.actionDuration session.scenarioId action.id result.isOk)
  recordActionError session action result
  bestEffort (update env id identity.userId (.record "action"
    (fun _ => action.id ++ " " ++ (if result.isOk then "ok" else "err")) (some action.id)
    (some result.isOk)))
  .done (.ok (ActionResponse.of actionId action result))

def executeAction (id : Uuid) (actionId : String) : Handler (Except Failure ActionResponse) :=
  if env.initialized = false then .done (.error notInitialized)
  else do
    match ← locked (.get id identity.userId) with
    | .error e => .done (.error (.session e))
    | .ok session =>
      match ← locked (.touchAction id identity.userId) with
      | .error e => .done (.error (.session e))
      | .ok () =>
        match findAction env session actionId with
        | .error e => .done (.error e)
        | .ok action => runTimed env identity id session actionId action

end Execute

theorem runTimed_parts {env : ServerEnv} {identity : Identity} {id : Uuid} {session : Session}
    {actionId : String} {action : Action} {events : List ((op : Op) × op.Result)}
    {result : Except Failure ActionResponse}
    (h : (runTimed env identity id session actionId action).Trace events result) :
    ∃ outcome body recorded noted,
      events = ⟨.actionStart id action.id, ()⟩ :: (body ++
        ⟨.metric (.actionDuration session.scenarioId action.id outcome.isOk), ()⟩ ::
          (recorded ++ noted)) ∧
      (runAction env identity session action).Trace body outcome ∧
      (recordActionError session action outcome).Trace recorded () ∧
      (bestEffort (update env id identity.userId (.record "action"
        (fun _ => action.id ++ " " ++ (if outcome.isOk then "ok" else "err")) (some action.id)
        (some outcome.isOk)))).Trace noted () ∧
      result = .ok (ActionResponse.of actionId action outcome) := by
  obtain ⟨_, events, rfl, hrun⟩ := Program.trace_perform h
  obtain ⟨body, outcome, rest, rfl, hbody, hrest⟩ := Program.trace_bind hrun
  obtain ⟨_, counted, rfl, hcounted⟩ := Program.trace_perform hrest
  obtain ⟨recorded, _, last, rfl, hrecorded, hlast⟩ := Program.trace_bind hcounted
  obtain ⟨noted, _, nothing, rfl, hnoted, hdone⟩ := Program.trace_bind hlast
  obtain ⟨rfl, rfl⟩ := Program.trace_done hdone
  rw [List.append_nil]
  exact ⟨outcome, body, recorded, noted, rfl, hbody, hrecorded, hnoted, rfl⟩

section Ops

variable {ok : (op : Op) → op.Result → Prop} {P : Op → Prop} {env : ServerEnv}
  {identity : Identity} {session : Session} {action : Action}

theorem runApiSql_ops [AllowsCaller identity P] {sql : String} :
    (runApiSql env identity sql).Always ok P := by
  unfold runApiSql
  split
  · refine execSql_ops.bind fun r => ?_
    cases r <;> trivial
  · trivial

theorem runHttp_ops [AllowsCaller identity P] :
    (runHttp env identity session action).Always ok P := by
  unfold runHttp
  cases action.httpRequest with
  | none => trivial
  | some req =>
    dsimp only
    split
    · refine ⟨AllowsCaller.api _, fun r _ => ?_⟩
      cases r <;> trivial
    · trivial

theorem runWith_ops {field : Option String} {missing : String}
    {run : String → Handler (Except String (String × String))}
    (h : ∀ value, (run value).Always ok P) :
    (runWith field missing run).Always ok P := by
  cases field with
  | none => trivial
  | some value => exact (h value).bind fun _ => trivial

theorem recordActionError_ops [Lenient P] {result : Except String ActionOutcome} :
    (recordActionError session action result).Always ok P := by
  cases result with
  | ok r => trivial
  | error e => exact ⟨Lenient.quiet trivial, fun _ _ => trivial⟩

variable [AllowsOthers P]

theorem readActionSql_ops : (readActionSql env action).Always ok P := by
  unfold readActionSql
  cases action.sql with
  | some sql => trivial
  | none =>
    cases action.sqlFile with
    | some path => exact readExampleFile_ops
    | none => trivial

theorem runSourceSql_ops {sql : String} :
    (runSourceSql env session sql).Always ok P := by
  unfold runSourceSql
  cases sessionSource env session with
  | error e => trivial
  | ok source => exact dispatchSourceSql_ops.bind fun _ => trivial

theorem runSqlOn_ops [AllowsCaller identity P] {sql : String} :
    (runSqlOn env identity session action sql).Always ok P := by
  unfold runSqlOn
  split
  · split
    · exact runSourceSql_ops
    · trivial
  · exact runApiSql_ops
  · exact runApiSql_ops
  · exact runApiSql_ops
  · trivial

theorem runSql_ops [AllowsCaller identity P] :
    (runSql env identity session action).Always ok P := by
  refine readActionSql_ops.bind fun r => ?_
  cases r with
  | error e => trivial
  | ok sql => exact runSqlOn_ops

theorem runShell_ops {cmd : String} :
    (runShell env session cmd).Always ok P := by
  refine ⟨AllowsOthers.other trivial, fun r _ => ?_⟩
  cases r with
  | error e => trivial
  | ok output =>
    change Program.Always _ _ (if output.success = true then _ else _)
    split <;> trivial

theorem createTopic_ops {topic broker : String} :
    (createTopic topic broker).Always ok P := by
  refine ⟨AllowsOthers.other trivial, fun r _ => ?_⟩
  cases r with
  | error e => trivial
  | ok output =>
    change Program.Always _ _ (if (output.success || topicExists output) = true then _ else _)
    split <;> trivial

theorem postChunks_ops {url topic contentType lastBody : String} {template : Value}
    {sizes : List ℕ} {produced : ℕ} :
    (postChunks url topic contentType template sizes produced lastBody).Always ok
      P := by
  induction sizes generalizing produced lastBody with
  | nil => trivial
  | cons n rest ih =>
    refine ⟨AllowsOthers.other trivial, fun r _ => ?_⟩
    cases r with
    | error e => trivial
    | ok reply =>
      change Program.Always _ _ (if 200 ≤ reply.code ∧ reply.code < 300 then _ else _)
      split
      · exact ih
      · trivial

theorem produceKafka_ops {payloadFile : String} {repeatCount : ℕ} :
    (produceKafka env session payloadFile repeatCount).Always ok P := by
  unfold produceKafka
  cases validateExampleRelativePath payloadFile with
  | error e => trivial
  | ok _ =>
    refine createTopic_ops.bind fun r => ?_
    cases r with
    | error e => trivial
    | ok _ =>
      refine ⟨AllowsOthers.other trivial, fun r _ => ?_⟩
      cases r with
      | error e => trivial
      | ok bytes =>
        refine postChunks_ops.bind fun r => ?_
        cases r <;> trivial

theorem uploadFile_ops {payloadFile : String} :
    (uploadFile env session payloadFile).Always ok P := by
  unfold uploadFile
  cases validateExampleRelativePath payloadFile with
  | error e => trivial
  | ok _ =>
    cases minioAccess env with
    | none => trivial
    | some access =>
      cases minioSecret env with
      | none => trivial
      | some secret =>
        refine ⟨AllowsOthers.other trivial, fun found _ => ?_⟩
        cases found with
        | true => exact runShell_ops
        | false => trivial

theorem runAction_ops [AllowsCaller identity P] :
    (runAction env identity session action).Always ok P := by
  unfold runAction
  cases action.kind with
  | sql => exact runSql_ops
  | http => exact runHttp_ops
  | shell | toxiproxy | resetSnapshot => exact runWith_ops fun _ => runShell_ops
  | produceKafka => exact runWith_ops fun _ => produceKafka_ops
  | uploadFile => exact runWith_ops fun _ => uploadFile_ops

theorem executeAction_ops [Lenient P] [AllowsCaller identity P] {id : Uuid} {actionId : String}
    (hg : P (.manager (.get id identity.userId)))
    (ht : P (.manager (.touchAction id identity.userId)))
    (hs : ∀ a, P (.actionStart id a)) (hu : ∀ u, P (.manager (.update id identity.userId u))) :
    (executeAction env identity id actionId).Always ok P := by
  unfold executeAction
  split
  · trivial
  · refine (locked_ops hg).bind fun r => ?_
    cases r with
    | error e => trivial
    | ok session =>
      refine (locked_ops ht).bind fun r => ?_
      cases r with
      | error e => trivial
      | ok _ =>
        dsimp only
        cases findAction env session actionId with
        | error e => trivial
        | ok action =>
          refine ⟨hs _, fun _ _ => runAction_ops.bind fun result => ?_⟩
          refine ⟨Lenient.quiet trivial, fun _ _ => recordActionError_ops.bind fun _ => ?_⟩
          exact (bestEffort_ops (update_ops (hu _))).bind fun _ => trivial

end Ops

end PlaygroundActions
