import Playground.PlaygroundTemplates

/-! # The session handlers

A request arrives with its identity and its decoded body; log lines are left out. -/
namespace PlaygroundHandlers

open InteractionPrograms
open PlaygroundApiClient
open PlaygroundCleanup
open PlaygroundManagerRuns
open PlaygroundManifest (Deployment Manifest Scenario Source)
open PlaygroundNames
open PlaygroundOperations
open PlaygroundSessionManager
open PlaygroundSessions
open PlaygroundTemplates

inductive Failure where
  | session (e : SessionError)
  | status (code : ℕ) (message : String)
  | panicked
  deriving DecidableEq, Repr

def sessionErrorStatus : SessionError → ℕ
  | .disabled => 403
  | .unknownScenario _ => 404
  | .notFound _ => 404
  | .forbidden => 403
  | .userLimit _ => 409
  | .cooldown _ => 429
  | .invalidTtl _ => 400

/-- A dropped connection has no status. -/
def Failure.code : Failure → Option ℕ
  | .session e => some (sessionErrorStatus e)
  | .status code _ => some code
  | .panicked => none

def notInitialized : Failure :=
  .status 503 "playground is not initialized (manifest missing)"

def noApiClient : Failure :=
  .status 503 ("playground api callback client is not configured " ++
    "(set PLAYGROUND_API_BASE_URL + PLAYGROUND_SERVICE_TOKEN)")

structure CreateSessionBody where
  scenarioId : String
  ttlSeconds : Option UInt64
  deriving DecidableEq, Repr

def deploymentOf (env : ServerEnv) : Deployment :=
  match env.deploymentKind with
  | "cloud" => .cloud
  | "dev" => .dev
  | _ => .selfManaged

def deploymentStr : Deployment → String
  | .dev => "dev"
  | .selfManaged => "self-managed"
  | .cloud => "cloud"

section Steps

variable (env : ServerEnv) (identity : Identity) (session : Session)

def noteEvent (kind : String) (message : Session → String) (success : Bool) : Handler Unit :=
  bestEffort (update env session.id identity.userId (.record kind message none (some success)))

def execStatements (shuttleRel : String) : ℕ → List String → Handler (Except String Unit)
  | _, [] => .done (.ok ())
  | idx, stmt :: rest => do
    match ← execSql identity stmt with
    | .error e =>
      .done (.error ("statement #" ++ toString idx ++ " of " ++ shuttleRel ++ ": " ++ e.text))
    | .ok _ => execStatements shuttleRel (idx + 1) rest

def resourceLabel (service : String) : String :=
  match service with
  | "postgres" => "schema"
  | "redis" => "key-prefix"
  | _ => "database"

def sourceScript (source : Option Source) (text : String) : String :=
  substituteSourceCoords env (substitutePlaceholders env text session) source

def applyInitSql (source : Source) (initRel : String) : Handler Unit := do
  match ← readExampleFile env initRel with
  | .error _ => .done ()
  | .ok initSql =>
    match ← dispatchSourceSql env source session.namespaceName
        (sourceScript env session (some source) initSql) with
    | .ok _ =>
      noteEvent env identity session "source-init-applied" (fun _ => "applied " ++ initRel) true
    | .error e => noteEvent env identity session "source-init-failed" (fun _ => e) false

def provisionSource (scenario : Scenario) (source : Source) : Handler Unit := do
  match ← provisionSessionResources env source session.namespaceName with
  | .error e => noteEvent env identity session "resource-provision-failed" (fun _ => e) false
  | .ok () =>
    match source.dockerService with
    | none => .done ()
    | some service =>
      Program.when (["postgres", "mysql", "clickhouse", "redis"].contains service) do
        noteEvent env identity session "resource-provisioned"
          (fun s => service ++ " " ++ resourceLabel service ++ "=" ++ s.namespaceName) true
        match scenario.initSql with
        | none => .done ()
        | some initRel => applyInitSql env identity session source initRel

/-- The shuttle statements one by one, up to the first that fails. -/
def applyStatements (shuttleRel : String) (statements : List String) :
    Handler (Except String Unit) :=
  if env.apiClient.isSome then execStatements identity shuttleRel 1 statements
  else .done (.error ("api callback client is not configured — " ++
    "set PLAYGROUND_API_BASE_URL + PLAYGROUND_SERVICE_TOKEN"))

def shuttleStatements (scenario : Scenario) (shuttleSql : String) : List String :=
  splitDsSqlStatements (sourceScript env session (env.manifest.source scenario.sourceId) shuttleSql)

def provisionShuttle (scenario : Scenario) (shuttleRel : String) : Handler Unit := do
  match ← readExampleFile env shuttleRel with
  | .error _ => .done ()
  | .ok shuttleSql =>
    let statements := shuttleStatements env session scenario shuttleSql
    match ← applyStatements env identity shuttleRel statements with
    | .ok () =>
      noteEvent env identity session "shuttle-provisioned"
        (fun _ => "applied " ++ shuttleRel ++ " (" ++ toString statements.length ++ " statement" ++
          (if statements.length = 1 then "" else "s") ++ ")") true
    | .error message =>
      noteEvent env identity session "shuttle-provision-failed" (fun _ => message) false

def provisionAnySource (scenario : Scenario) : Handler Unit :=
  match env.manifest.source scenario.sourceId with
  | none => .done ()
  | some source => provisionSource env identity session scenario source

def provisionAnyShuttle (scenario : Scenario) : Handler Unit :=
  match scenario.shuttleSql with
  | none => .done ()
  | some shuttleRel => provisionShuttle env identity session scenario shuttleRel

/-- Everything `create_session` does once the session is in the map. -/
def provision (scenario : Scenario) : Handler Unit := do
  provisionAnySource env identity session scenario
  provisionAnyShuttle env identity session scenario
  bestEffort (update env session.id identity.userId .sessionCreated)

def rebuildSource (scenario : Scenario) (initRel : String) : Handler Unit := do
  match ← readExampleFile env initRel with
  | .error _ => .done ()
  | .ok initSql =>
    match env.manifest.source scenario.sourceId with
    | none => .done ()
    | some source => bestEffort (dispatchSourceSql env source session.namespaceName
        (sourceScript env session (some source) initSql))

def rebuildAnySource (scenario : Scenario) : Handler Unit :=
  match scenario.initSql with
  | none => .done ()
  | some initRel => rebuildSource env session scenario initRel

def rebuildShuttle (scenario : Scenario) (shuttleRel : String) : Handler Unit := do
  match ← readExampleFile env shuttleRel with
  | .error _ => .done ()
  | .ok shuttleSql => bestEffort (execStatements identity shuttleRel 1
      (shuttleStatements env session scenario shuttleSql))

def rebuildAnyShuttle (scenario : Scenario) : Handler Unit :=
  match scenario.shuttleSql with
  | none => .done ()
  | some shuttleRel => rebuildShuttle env identity session scenario shuttleRel

end Steps

section Handlers

variable (env : ServerEnv) (identity : Identity)

def render (session : Session) : Handler (Except Failure SessionView) := do
  let now ← readClock
  .done (.ok (session.view now))

def showSession (id : Uuid) : Handler (Except Failure SessionView) := do
  match ← locked (.get id identity.userId) with
  | .error e => .done (.error (.session e))
  | .ok session => render session

def getSession (id : Uuid) : Handler (Except Failure SessionView) :=
  if env.initialized = false then .done (.error notInitialized) else showSession identity id

def listMySessions : Handler (Except Failure (List SessionView)) :=
  if env.initialized = false then .done (.error notInitialized)
  else do
    match ← locked (.getUserSession identity.userId) with
    | none => .done (.ok [])
    | some session => do
      let now ← readClock
      .done (.ok [session.view now])

/-- The checks before the quota is charged. -/
def startable (body : CreateSessionBody) : Except Failure Scenario :=
  match env.manifest.scenario body.scenarioId with
  | none => .error (.status 404 ("unknown scenario: " ++ body.scenarioId))
  | some scenario =>
    if scenario.allowedIn (deploymentOf env) then .ok scenario
    else .error (.status 403 ("scenario " ++ scenario.id ++
      " is not allowed on deployment kind " ++ deploymentStr (deploymentOf env)))

/-- The id is the random UUID `SessionManager::create` draws. -/
def createArgs (id : Uuid) (body : CreateSessionBody) : SessionManager.CreateArgs :=
  { id := id
    userId := identity.userId
    tenantId := identity.tenantId
    scenarioId := body.scenarioId
    ttlOverride := body.ttlSeconds.map fun s => fromSecs s.toNat }

def createSession (id : Uuid) (body : CreateSessionBody) :
    Handler (Except Failure SessionView) :=
  if env.initialized = false then .done (.error notInitialized)
  else
    match startable env body with
    | .error e => .done (.error e)
    | .ok scenario => do
      match ← tryConsume identity.tenantId with
      | .error e => do
        recordMetric (.sessionStart body.scenarioId false)
        .done (.error (.status 429 e.text))
      | .ok _ => do
        recordMetric (.sessionStart body.scenarioId true)
        match ← create env (createArgs identity id body) with
        | .error e => .done (.error (.session e))
        | .ok session => do
          provision env identity session scenario
          render session

def endSession (id : Uuid) : Handler (Except Failure SessionView) :=
  if env.initialized = false then .done (.error notInitialized)
  else do
    match ← endLocked env id identity.userId with
    | .error e => .done (.error (.session e))
    | .ok session => do
      let now ← readClock
      let session := session.record now "session-ended" "user ended session" none (some true)
      teardownSession env identity session.shuttleName session.connectionName
        session.namespaceName
      render session

/-- The checks before a reset touches the session. -/
def resettable (session : Session) : Except Failure Scenario :=
  match env.manifest.scenario session.scenarioId with
  | none => .error (.status 500 "session's scenario no longer in manifest")
  | some scenario =>
    if isSafeIdentifier session.shuttleName && isSafeIdentifier session.connectionName &&
        isSafeIdentifier session.namespaceName then .ok scenario
    else .error (.status 500 "session names failed identifier validation")

/-- No statement class covers `DROP NAMESPACE`, so that step sends nothing. -/
def dropAndRebuild (session : Session) (scenario : Scenario) : Handler Unit := do
  dropShuttle identity session.shuttleName
  bestEffort (execSql identity
    ("DROP NAMESPACE IF EXISTS " ++ session.namespaceName ++ " CASCADE"))
  rebuildAnySource env session scenario
  rebuildAnyShuttle env identity session scenario

/-- Without an API client the session stays in `Resetting`. -/
def resetWith (id : Uuid) (session : Session) (scenario : Scenario) :
    Handler (Except Failure SessionView) := do
  match ← update env id identity.userId .resetStart with
  | .error e => .done (.error (.session e))
  | .ok _ =>
    if env.apiClient.isSome = false then .done (.error noApiClient)
    else do
      dropAndRebuild env identity session scenario
      match ← update env id identity.userId .resetComplete with
      | .error e => .done (.error (.session e))
      | .ok _ => showSession identity id

def resetSession (id : Uuid) : Handler (Except Failure SessionView) :=
  if env.initialized = false then .done (.error notInitialized)
  else do
    match ← locked (.get id identity.userId) with
    | .error e => .done (.error (.session e))
    | .ok session =>
      match resettable env session with
      | .error e => .done (.error e)
      | .ok scenario => resetWith env identity id session scenario

def extendSession (id : Uuid) (seconds : UInt64) : Handler (Except Failure SessionView) :=
  if env.initialized = false then .done (.error notInitialized)
  else do
    match ← update env id identity.userId (.extend (fromSecs seconds.toNat)) with
    | .error e => .done (.error (.session e))
    | .ok .panicked => .done (.error .panicked)
    | .ok (.refused message) => .done (.error (.status 400 message))
    | .ok .done => showSession identity id

end Handlers

section Ops

def takesOut : ManagerOp → Bool
  | .endSession _ _ => true
  | .sweepExpired => true
  | _ => false

/-- No action starts, and the manager is asked only for what `allowed` says. -/
def AsksOnly (allowed : ManagerOp → Prop) : Op → Prop
  | .manager o => allowed o
  | .actionStart _ _ => False
  | _ => True

def Quiet : Op → Prop
  | .manager _ => False
  | .actionStart _ _ => False
  | .external _ => False
  | _ => True

def NotApi : ExternalCall → Prop
  | .api _ _ => False
  | _ => True

class Lenient (P : Op → Prop) : Prop where
  quiet {op : Op} : Quiet op → P op

instance : Lenient Quiet := ⟨fun h => h⟩

/-- What `persist` and a view need of their own: the snapshot, its file and the clock. -/
def Bookkeeping : Op → Prop
  | .snapshot => True
  | .writeTmp _ => True
  | .renameTmp => True
  | .readClock => True
  | _ => False

class AllowsBookkeeping (P : Op → Prop) : Prop where
  own {op : Op} : Bookkeeping op → P op

instance (priority := low) (P : Op → Prop) [Lenient P] : AllowsBookkeeping P where
  own {op} h := by
    cases op with
    | manager | tryConsume | metric | actionStart | external => exact h.elim
    | snapshot | writeTmp | renameTmp | readClock => exact Lenient.quiet trivial

class AllowsOthers (P : Op → Prop) : Prop where
  other {c : ExternalCall} : NotApi c → P (.external c)

class AllowsCaller (identity : Identity) (P : Op → Prop) : Prop where
  api (r : ApiRequest) : P (.external (.api r identity))

class AllowsStatements (identity : Identity) (P : Op → Prop) : Prop where
  statement (d : Dispatch) (sql : String) : P (.external (.api (d.request sql) identity))

instance (priority := low) (identity : Identity) (P : Op → Prop) [AllowsCaller identity P] :
    AllowsStatements identity P := ⟨fun _ _ => AllowsCaller.api _⟩

instance (allowed : ManagerOp → Prop) : Lenient (AsksOnly allowed) where
  quiet {op} h := by
    cases op with
    | manager o => exact h.elim
    | actionStart id actionId => exact h.elim
    | _ => trivial

instance (allowed : ManagerOp → Prop) : AllowsOthers (AsksOnly allowed) := ⟨fun _ => trivial⟩

instance (identity : Identity) (allowed : ManagerOp → Prop) :
    AllowsCaller identity (AsksOnly allowed) := ⟨fun _ => trivial⟩

variable {ok : (op : Op) → op.Result → Prop} {P : Op → Prop} {env : ServerEnv}
  {identity : Identity} {session : Session}

theorem bestEffort_ops {α : Type} {p : Handler α} (h : p.Always ok P) :
    (bestEffort p).Always ok P := h.bind fun _ => trivial

theorem locked_ops {o : ManagerOp} (h : P (.manager o)) : (locked o).Always ok P :=
  ⟨h, fun _ _ => trivial⟩

theorem execSql_ops [AllowsStatements identity P] {sql : String} :
    (execSql identity sql).Always ok P := by
  refine (performs_execSql identity sql).always ?_
  intro op hop
  unfold execSqlOps at hop
  split at hop
  · cases hop
  · rw [List.mem_singleton.mp hop]
    exact AllowsStatements.statement _ _

theorem execStatements_ops [AllowsStatements identity P] {rel : String} {idx : ℕ}
    {stmts : List String} :
    (execStatements identity rel idx stmts).Always ok P := by
  induction stmts generalizing idx with
  | nil => trivial
  | cons stmt rest ih =>
    refine execSql_ops.bind fun r => ?_
    cases r with
    | error e => trivial
    | ok v => exact ih

section Outside

variable [AllowsOthers P]

theorem readExampleFile_ops {path : String} :
    (readExampleFile env path).Always ok P := by
  unfold readExampleFile
  cases validateExampleRelativePath path with
  | error e => trivial
  | ok _ =>
    refine ⟨AllowsOthers.other trivial, fun r _ => ?_⟩
    cases r <;> trivial

theorem execSourceSql_ops {source : Source} {sql : String} {tcp : Bool} :
    (execSourceSql source sql tcp).Always ok P := by
  rcases execSourceSql_cases source sql tcp with
    ⟨e, hrun⟩ | ⟨service, buildShell, -, -, -, hrun⟩
  · rw [hrun]
    trivial
  · rw [hrun]
    exact ⟨AllowsOthers.other trivial, fun _ _ => trivial⟩

theorem dispatchSourceSql_ops {source : Source} {namespaceName sql : String} :
    (dispatchSourceSql env source namespaceName sql).Always ok P := by
  rcases dispatchSourceSql_cases env source namespaceName sql with
    ⟨-, e, hrun⟩ | ⟨service, -, -, hrun⟩ | ⟨service, sidecar, next, -, -, hok, herror, hrun⟩
  · rw [hrun]
    trivial
  · rw [hrun]
    exact execSourceSql_ops
  · rw [hrun]
    refine ⟨AllowsOthers.other trivial, fun r _ => ?_⟩
    cases r with
    | ok out =>
      rw [hok]
      trivial
    | error e =>
      rcases herror e with ⟨text, hnext⟩ | ⟨script, hnext⟩
      · rw [hnext]
        trivial
      · rw [hnext]
        exact execSourceSql_ops

theorem provisionSessionResources_ops {source : Source} {namespaceName : String} :
    (provisionSessionResources env source namespaceName).Always ok P := by
  unfold provisionSessionResources
  cases source.dockerService.bind provisionedSidecar with
  | none => trivial
  | some sidecar =>
    refine ⟨AllowsOthers.other trivial, fun r _ => ?_⟩
    cases r with
    | ok _ => trivial
    | error e =>
      cases e with
      | unavailable =>
        change Program.Always _ _ (if isSafeResourceName namespaceName = false then _ else _)
        split
        · trivial
        · exact execSourceSql_ops.bind fun _ => trivial
      | _ => trivial

theorem rebuildAnySource_ops {scenario : Scenario} :
    (rebuildAnySource env session scenario).Always ok P := by
  unfold rebuildAnySource
  cases scenario.initSql with
  | none => trivial
  | some initRel =>
    refine readExampleFile_ops.bind fun r => ?_
    cases r with
    | error e => trivial
    | ok initSql =>
      dsimp only
      cases env.manifest.source scenario.sourceId with
      | none => trivial
      | some source => exact bestEffort_ops dispatchSourceSql_ops

theorem rebuildAnyShuttle_ops [AllowsStatements identity P] {scenario : Scenario} :
    (rebuildAnyShuttle env identity session scenario).Always ok P := by
  unfold rebuildAnyShuttle
  cases scenario.shuttleSql with
  | none => trivial
  | some shuttleRel =>
    refine readExampleFile_ops.bind fun r => ?_
    cases r with
    | error e => trivial
    | ok shuttleSql => exact bestEffort_ops execStatements_ops

theorem dropAndRebuild_ops [AllowsStatements identity P] {scenario : Scenario} :
    (dropAndRebuild env identity session scenario).Always ok P :=
  (bestEffort_ops execSql_ops).bind fun _ => (bestEffort_ops execSql_ops).bind fun _ =>
    rebuildAnySource_ops.bind fun _ => rebuildAnyShuttle_ops

end Outside

variable [AllowsBookkeeping P]

theorem persist_ops : (persist env).Always ok P := by
  unfold persist
  cases env.persistencePath with
  | none => trivial
  | some path =>
    refine ⟨AllowsBookkeeping.own trivial, fun rows _ => ?_⟩
    refine ⟨AllowsBookkeeping.own trivial, fun written _ => ?_⟩
    cases written with
    | false => trivial
    | true => exact ⟨AllowsBookkeeping.own trivial, fun _ _ => trivial⟩

theorem create_ops {a : SessionManager.CreateArgs} (h : P (.manager (.create a))) :
    (create env a).Always ok P := by
  refine ⟨h, fun r _ => ?_⟩
  cases r with
  | error e => trivial
  | ok session => exact persist_ops.bind fun _ => trivial

/-- The mutator hands on what the manager returned. -/
theorem created_returns {a : SessionManager.CreateArgs} {r : Except SessionError Session}
    (h : (create env a).Returns ok r) : ok (.manager (.create a)) r := by
  obtain ⟨created, hok, hreturn⟩ := h
  have hsame : created = r := by
    cases created with
    | error e => exact hreturn
    | ok session =>
      change (persist env >>= fun _ => .done (.ok session)).Returns ok r at hreturn
      obtain ⟨_, _, hdone⟩ := Program.returns_bind.mp hreturn
      exact hdone
  exact hsame ▸ hok

theorem update_ops {id : Uuid} {userId : String} {u : SessionUpdate}
    (h : P (.manager (.update id userId u))) :
    (update env id userId u).Always ok P := by
  refine ⟨h, fun r _ => ?_⟩
  cases r with
  | error e => trivial
  | ok outcome =>
    cases outcome with
    | panicked => trivial
    | done => exact persist_ops.bind fun _ => trivial
    | refused message => exact persist_ops.bind fun _ => trivial

theorem endLocked_ops {id : Uuid} {userId : String} (h : P (.manager (.endSession id userId))) :
    (endLocked env id userId).Always ok P := by
  refine ⟨h, fun r _ => ?_⟩
  cases r with
  | error e => trivial
  | ok session => exact persist_ops.bind fun _ => trivial

theorem sweepExpired_ops (h : P (.manager .sweepExpired)) :
    (sweepExpired env).Always ok P := by
  refine ⟨h, fun r _ => ?_⟩
  cases r with
  | nil => trivial
  | cons s rest => exact persist_ops.bind fun _ => trivial

theorem swept_returns {expired : List Session} (h : (sweepExpired env).Returns ok expired) :
    ok (.manager .sweepExpired) expired := by
  obtain ⟨swept, hok, hreturn⟩ := h
  have hsame : swept = expired := by
    cases swept with
    | nil => exact hreturn
    | cons s rest =>
      change (persist env >>= fun _ => .done (s :: rest)).Returns ok expired at hreturn
      obtain ⟨_, _, hdone⟩ := Program.returns_bind.mp hreturn
      exact hdone
  exact hsame ▸ hok

theorem noteEvent_ops (h : ∀ u, P (.manager (.update session.id identity.userId u))) {kind : String}
    {message : Session → String} {success : Bool} :
    (noteEvent env identity session kind message success).Always ok P :=
  bestEffort_ops (update_ops (h _))

theorem render_ops : (render session).Always ok P :=
  ⟨AllowsBookkeeping.own trivial, fun _ _ => trivial⟩

theorem showSession_ops {id : Uuid} (hg : P (.manager (.get id identity.userId))) :
    (showSession identity id).Always ok P := by
  refine ⟨hg, fun r _ => ?_⟩
  cases r with
  | error e => trivial
  | ok session => exact render_ops

theorem getSession_ops {id : Uuid} (hg : P (.manager (.get id identity.userId))) :
    (getSession env identity id).Always ok P := by
  unfold getSession
  split
  · trivial
  · exact showSession_ops hg

theorem extendSession_ops {id : Uuid} {seconds : UInt64}
    (hg : P (.manager (.get id identity.userId)))
    (hu : ∀ u, P (.manager (.update id identity.userId u))) :
    (extendSession env identity id seconds).Always ok P := by
  unfold extendSession
  split
  · trivial
  · refine (update_ops (hu _)).bind fun r => ?_
    cases r with
    | error e => trivial
    | ok outcome =>
      cases outcome with
      | panicked => trivial
      | refused message => trivial
      | done => exact showSession_ops hg

theorem mem_teardown_caller {op : Op} {shuttleName connectionName namespaceName : String}
    (hop : op ∈ teardownOps env identity shuttleName connectionName namespaceName) :
    (∃ r, op = .external (.api r identity)) ∨ (∃ c, NotApi c ∧ op = .external c) ∨ Quiet op := by
  rcases ((mem_teardown env identity).mp hop).2 with
    rfl | ⟨_, rfl | hpurge⟩ | ⟨_, rfl⟩ | ⟨_, hrep | ⟨_, rfl⟩⟩ | rfl
  · exact Or.inl ⟨_, rfl⟩
  · exact Or.inl ⟨_, rfl⟩
  · obtain ⟨args, rfl⟩ := purgeOps_command env hpurge
    exact Or.inr (Or.inl ⟨_, by trivial, rfl⟩)
  · exact Or.inl ⟨_, rfl⟩
  · rcases replicationOps_dispatcher hrep with rfl | rfl
    · exact Or.inr (Or.inl ⟨_, by trivial, rfl⟩)
    · exact Or.inr (Or.inl ⟨_, by trivial, rfl⟩)
  · exact Or.inr (Or.inl ⟨_, by trivial, rfl⟩)
  · exact Or.inr (Or.inr trivial)

variable [AllowsOthers P]

omit [AllowsBookkeeping P] in
theorem teardown_ops [Lenient P] [AllowsCaller identity P]
    {shuttleName connectionName namespaceName : String} :
    (teardownSession env identity shuttleName connectionName namespaceName).Always ok P := by
  refine (performs_teardown env identity _ _ _).always ?_
  intro op hop
  rcases mem_teardown_caller hop with ⟨r, rfl⟩ | ⟨c, hc, rfl⟩ | hquiet
  · exact AllowsCaller.api r
  · exact AllowsOthers.other hc
  · exact Lenient.quiet hquiet

theorem applyInitSql_ops (h : ∀ u, P (.manager (.update session.id identity.userId u)))
    {source : Source} {initRel : String} :
    (applyInitSql env identity session source initRel).Always ok P := by
  refine readExampleFile_ops.bind fun r => ?_
  cases r with
  | error e => trivial
  | ok initSql =>
    refine dispatchSourceSql_ops.bind fun r => ?_
    cases r with
    | error e => exact noteEvent_ops h
    | ok out => exact noteEvent_ops h

theorem provisionSource_ops (h : ∀ u, P (.manager (.update session.id identity.userId u)))
    {scenario : Scenario} {source : Source} :
    (provisionSource env identity session scenario source).Always ok P := by
  refine provisionSessionResources_ops.bind fun r => ?_
  cases r with
  | error e => exact noteEvent_ops h
  | ok _ =>
    cases source.dockerService with
    | none => trivial
    | some service =>
      refine Program.always_when fun _ => (noteEvent_ops h).bind fun _ => ?_
      cases scenario.initSql with
      | none => trivial
      | some initRel => exact applyInitSql_ops h

theorem provisionShuttle_ops [AllowsStatements identity P]
    (h : ∀ u, P (.manager (.update session.id identity.userId u)))
    {scenario : Scenario} {shuttleRel : String} :
    (provisionShuttle env identity session scenario shuttleRel).Always ok P := by
  refine readExampleFile_ops.bind fun r => ?_
  cases r with
  | error e => trivial
  | ok shuttleSql =>
    refine Program.Always.bind ?_ fun outcome => ?_
    · unfold applyStatements
      split
      · exact execStatements_ops
      · trivial
    · cases outcome with
      | error message => exact noteEvent_ops h
      | ok _ => exact noteEvent_ops h

theorem provisionAnySource_ops (h : ∀ u, P (.manager (.update session.id identity.userId u)))
    {scenario : Scenario} :
    (provisionAnySource env identity session scenario).Always ok P := by
  unfold provisionAnySource
  split
  · trivial
  · exact provisionSource_ops h

theorem provisionAnyShuttle_ops [AllowsStatements identity P]
    (h : ∀ u, P (.manager (.update session.id identity.userId u)))
    {scenario : Scenario} :
    (provisionAnyShuttle env identity session scenario).Always ok P := by
  unfold provisionAnyShuttle
  split
  · trivial
  · exact provisionShuttle_ops h

theorem provision_ops [AllowsStatements identity P]
    (h : ∀ u, P (.manager (.update session.id identity.userId u)))
    {scenario : Scenario} :
    (provision env identity session scenario).Always ok P := by
  refine Program.Always.bind (provisionAnySource_ops h) fun _ => ?_
  refine Program.Always.bind (provisionAnyShuttle_ops h) fun _ => ?_
  exact bestEffort_ops (update_ops (h _))

omit [AllowsBookkeeping P] in
theorem createSession_ops [Lenient P] [AllowsStatements identity P] {id : Uuid}
    {body : CreateSessionBody}
    (hc : P (.manager (.create (createArgs identity id body))))
    (hu : ∀ session u, ok (.manager (.create (createArgs identity id body))) (.ok session) →
      P (.manager (.update session.id identity.userId u))) :
    (createSession env identity id body).Always ok P := by
  unfold createSession
  split
  · trivial
  · cases startable env body with
    | error e => trivial
    | ok scenario =>
      refine ⟨Lenient.quiet trivial, fun r _ => ?_⟩
      cases r with
      | error e => exact ⟨Lenient.quiet trivial, fun _ _ => trivial⟩
      | ok count =>
        refine ⟨Lenient.quiet trivial, fun _ _ => ?_⟩
        change (create env (createArgs identity id body) >>= _).Always ok P
        refine Program.always_bind.mpr ⟨create_ops hc, fun r hreturn => ?_⟩
        cases r with
        | error e => trivial
        | ok session =>
          have hcreated := created_returns hreturn
          exact (provision_ops fun u => hu session u hcreated).bind fun _ => render_ops

omit [AllowsBookkeeping P] in
theorem endSession_ops [Lenient P] [AllowsCaller identity P] {id : Uuid}
    (h : P (.manager (.endSession id identity.userId))) :
    (endSession env identity id).Always ok P := by
  unfold endSession
  split
  · trivial
  · refine (endLocked_ops h).bind fun r => ?_
    cases r with
    | error e => trivial
    | ok session => exact ⟨Lenient.quiet trivial, fun _ _ => teardown_ops.bind fun _ => render_ops⟩

theorem resetSession_ops [AllowsStatements identity P] {id : Uuid}
    (hg : P (.manager (.get id identity.userId)))
    (hu : ∀ u, P (.manager (.update id identity.userId u))) :
    (resetSession env identity id).Always ok P := by
  unfold resetSession
  split
  · trivial
  · refine (locked_ops hg).bind fun r => ?_
    cases r with
    | error e => trivial
    | ok session =>
      dsimp only
      cases resettable env session with
      | error e => trivial
      | ok scenario =>
        refine (update_ops (hu _)).bind fun r => ?_
        cases r with
        | error e => trivial
        | ok outcome =>
          dsimp only
          split
          · trivial
          · refine dropAndRebuild_ops.bind fun _ => (update_ops (hu _)).bind fun r => ?_
            cases r with
            | error e => trivial
            | ok outcome => exact showSession_ops hg

omit [AllowsBookkeeping P] in
theorem reaper_ops [Lenient P] [∀ s, AllowsCaller (reaperIdentity s) P] {ticks : ℕ}
    (h : P (.manager .sweepExpired)) :
    (spawnSessionReaper env ticks).Always ok P := by
  refine Program.always_forEach fun _ _ => Program.always_when fun _ => ?_
  exact (sweepExpired_ops h).bind fun expired => Program.always_forEach fun s _ => teardown_ops

theorem createSession_completes {S : Type} {sem : Semantics Op Op.Result S} {s t : S} {id : Uuid}
    {body : CreateSessionBody} {view : SessionView}
    (h : (createSession env identity id body).Completes sem s (.ok view) t) :
    env.initialized = true ∧ ∃ scenario session now s₁ s₂ s₃,
      (create env (createArgs identity id body)).Completes sem s₁ (.ok session) s₂ ∧
      (provision env identity session scenario).Completes sem s₂ () s₃ ∧
      sem s₃ .readClock now t ∧ view = session.view now := by
  unfold createSession at h
  cases hinit : env.initialized with
  | false =>
    rw [hinit, if_pos rfl] at h
    cases (Program.completes_done h).1
  | true =>
    refine ⟨rfl, ?_⟩
    rw [hinit, if_neg (by decide)] at h
    cases hstart : startable env body with
    | error e =>
      rw [hstart] at h
      cases (Program.completes_done h).1
    | ok scenario =>
      rw [hstart] at h
      obtain ⟨charged, s₀, _, h⟩ := Program.completes_perform h
      cases charged with
      | error e =>
        obtain ⟨_, s₁, _, h⟩ := Program.completes_perform h
        cases (Program.completes_done h).1
      | ok count =>
        obtain ⟨_, s₁, _, h⟩ := Program.completes_perform h
        obtain ⟨created, s₂, hcreate, h⟩ := Program.completes_bind h
        cases created with
        | error e => cases (Program.completes_done h).1
        | ok session =>
          obtain ⟨_, s₃, hprovision, h⟩ := Program.completes_bind h
          obtain ⟨now, _, hclock, h⟩ := Program.completes_perform h
          obtain ⟨hview, rfl⟩ := Program.completes_done h
          exact ⟨scenario, session, now, s₁, s₂, s₃, hcreate, hprovision, hclock,
            Except.ok.inj hview⟩

end Ops

end PlaygroundHandlers
