import Playground.OnceCells
import Playground.PlaygroundClickhouseCalls
import Playground.PlaygroundConnectionUrl

/-! # The pools of the dispatcher

Each sidecar has one pool or client for all sessions. It is built at its first use, from the
variables of the process and from a secret file. -/
namespace PlaygroundPools

open InteractionPrograms
open InteractionPrograms.Program
open OnceCells
open PlaygroundClickhouseCalls (ClickhouseConfig)
open PlaygroundConnectionUrl (buildPgUrl pgUrl)
open PlaygroundOperations
open PlaygroundSidecarErrors

abbrev Secret := Option (Except String String)

/-- A caller may be dropped while it waits for the connection to Postgres. -/
inductive BuildOp where
  | var (key : String)
  | secretFile (path : String)
  | pgConnect (url : String)
  | httpClient
  | redisOpen (url : String)
  deriving DecidableEq, Repr

@[reducible] def BuildOp.Result : BuildOp → Type
  | .var _ => Option String
  | .secretFile _ => Secret
  | .pgConnect _ => Option (Except SqlxError Unit)
  | .httpClient => Except String Unit
  | .redisOpen _ => Except String Unit

abbrev BuildProgram (α : Type) := Program BuildOp BuildOp.Result α

abbrev BuildEvent := Event BuildOp.Result

def envOr (key default : String) : BuildProgram String := do
  let v ← perform (BuildOp.var key)
  .done (v.getD default)

def envU16 (key : String) (default : ℕ) : BuildProgram (Except DispatchError ℕ) := do
  let v ← perform (BuildOp.var key)
  .done (PlaygroundConnectionUrl.envU16 (fun _ => v) key default)

def loadSecret (envKey secretPath : String) : BuildProgram (Except DispatchError String) := do
  let file ← perform (BuildOp.secretFile secretPath)
  match file with
  | some raw =>
    .done (PlaygroundConnectionUrl.loadSecret (fun _ => none) (some raw) envKey secretPath)
  | none => do
    let v ← perform (BuildOp.var envKey)
    .done (PlaygroundConnectionUrl.loadSecret (fun _ => v) none envKey secretPath)

/-- What the builders of the sidecars with a user read: the name in their variables, their
defaults and their secret file. -/
structure Source where
  name : String
  host : String
  port : ℕ
  user : String
  db : String
  secretPath : String

def Source.key (s : Source) (part : String) : String := "DS_" ++ s.name ++ "_PLAYGROUND_" ++ part

structure Address where
  host : String
  port : ℕ
  user : String
  db : String
  password : String
  deriving DecidableEq, Repr

def readAddress (s : Source) : BuildProgram (Except DispatchError Address) := do
  let host ← envOr (s.key "HOST") s.host
  match ← envU16 (s.key "PORT") s.port with
  | .error e => .done (.error e)
  | .ok port => do
    let user ← envOr (s.key "USER") s.user
    let db ← envOr (s.key "DB") s.db
    match ← loadSecret (s.key "PASSWORD") s.secretPath with
    | .error e => .done (.error e)
    | .ok password => .done (.ok ⟨host, port, user, db, password⟩)

/-- A builder reads its settings and starts a pool or client with them. -/
def buildWith {S A : Type} (read : BuildProgram (Except DispatchError A))
    (start : A → BuildProgram (Option (Except DispatchError S))) :
    BuildProgram (Option (Except DispatchError S)) := do
  match ← read with
  | .error e => .done (some (.error e))
  | .ok a => start a

def poolMaxConnections : ℕ := 8

structure PgPool where
  url : String
  maxConnections : ℕ
  acquireTimeoutSecs : ℕ
  deriving DecidableEq, Repr

def pgSource : Source :=
  ⟨"PG", "postgres-playground", 5432, "playground_admin", "playground",
    "/run/secrets/pg_playground_password"⟩

def pgPool (a : Address) : PgPool :=
  ⟨pgUrl a.user a.password a.host a.port a.db, poolMaxConnections, poolAcquireTimeoutSecs⟩

def connectPg (a : Address) : BuildProgram (Option (Except DispatchError PgPool)) := do
  match ← perform (BuildOp.pgConnect (pgPool a).url) with
  | none => .done none
  | some (.error e) => .done (some (.error (mapPgError e)))
  | some (.ok ()) => .done (some (.ok (pgPool a)))

def buildPgPool : BuildProgram (Option (Except DispatchError PgPool)) :=
  buildWith (readAddress pgSource) connectPg

def poolConstraints (low high : ℕ) : Option (ℕ × ℕ) := if low ≤ high then some (low, high) else none

structure MysqlPool where
  address : Address
  constraints : ℕ × ℕ
  deriving DecidableEq, Repr

def mysqlSource : Source :=
  ⟨"MYSQL", "mysql-playground", 3306, "playground_admin", "playground",
    "/run/secrets/mysql_playground_password"⟩

def constrainMysql (a : Address) : BuildProgram (Option (Except DispatchError MysqlPool)) :=
  match poolConstraints 0 poolMaxConnections with
  | none => .done (some (.error (.config "invalid pool constraints")))
  | some constraints => .done (some (.ok ⟨a, constraints⟩))

def buildMysqlPool : BuildProgram (Option (Except DispatchError MysqlPool)) :=
  buildWith (readAddress mysqlSource) constrainMysql

def clickhouseSource : Source :=
  ⟨"CLICKHOUSE", "clickhouse-playground", 8123, "playground", "playground",
    "/run/secrets/clickhouse_playground_password"⟩

def clickhouseConfig (a : Address) : ClickhouseConfig :=
  ⟨"http://" ++ a.host ++ ":" ++ toString a.port, a.user, a.password, a.db⟩

def startClickhouse (a : Address) :
    BuildProgram (Option (Except DispatchError ClickhouseConfig)) := do
  match ← perform BuildOp.httpClient with
  | .error m => .done (some (.error (.config ("reqwest builder: " ++ m))))
  | .ok () => .done (some (.ok (clickhouseConfig a)))

def buildClickhouseConfig : BuildProgram (Option (Except DispatchError ClickhouseConfig)) :=
  buildWith (readAddress clickhouseSource) startClickhouse

structure RedisConfig where
  url : String
  password : String
  deriving DecidableEq, Repr

def redisSecret : String := "/run/secrets/redis_playground_password"

def redisConfig (host : String) (port db : ℕ) (password : Except DispatchError String) :
    RedisConfig :=
  ⟨"redis://" ++ host ++ ":" ++ toString port ++ "/" ++ toString db, password.toOption.getD ""⟩

def readRedis : BuildProgram (Except DispatchError RedisConfig) := do
  let host ← envOr "DS_REDIS_PLAYGROUND_HOST" "redis-playground"
  match ← envU16 "DS_REDIS_PLAYGROUND_PORT" 6379 with
  | .error e => .done (.error e)
  | .ok port =>
    match ← envU16 "DS_REDIS_PLAYGROUND_DB" 0 with
    | .error e => .done (.error e)
    | .ok db => do
      let password ← loadSecret "DS_REDIS_PLAYGROUND_PASSWORD" redisSecret
      .done (.ok (redisConfig host port db password))

def openRedis (c : RedisConfig) : BuildProgram (Option (Except DispatchError RedisConfig)) := do
  match ← perform (BuildOp.redisOpen c.url) with
  | .error m => .done (some (.error (.config ("redis client: " ++ m))))
  | .ok () => .done (some (.ok c))

def buildRedisConfig : BuildProgram (Option (Except DispatchError RedisConfig)) :=
  buildWith readRedis openRedis

@[reducible] def PoolOf : Sidecar → Type
  | .postgres => PgPool
  | .mysql => MysqlPool
  | .clickhouse => ClickhouseConfig
  | .redis => RedisConfig

def build : (sidecar : Sidecar) → BuildProgram (Option (Except DispatchError (PoolOf sidecar)))
  | .postgres => buildPgPool
  | .mysql => buildMysqlPool
  | .clickhouse => buildClickhouseConfig
  | .redis => buildRedisConfig

def secretPath : Sidecar → String
  | .postgres => pgSource.secretPath
  | .mysql => mysqlSource.secretPath
  | .clickhouse => clickhouseSource.secretPath
  | .redis => redisSecret

section Settings

variable (env : String → Option String) (secret : Secret)

def address (s : Source) : Except DispatchError Address := do
  let port ← PlaygroundConnectionUrl.envU16 env (s.key "PORT") s.port
  let password ← PlaygroundConnectionUrl.loadSecret env secret (s.key "PASSWORD") s.secretPath
  .ok ⟨PlaygroundConnectionUrl.envOr env (s.key "HOST") s.host, port,
    PlaygroundConnectionUrl.envOr env (s.key "USER") s.user,
    PlaygroundConnectionUrl.envOr env (s.key "DB") s.db, password⟩

def redisSettings : Except DispatchError RedisConfig := do
  let port ← PlaygroundConnectionUrl.envU16 env "DS_REDIS_PLAYGROUND_PORT" 6379
  let db ← PlaygroundConnectionUrl.envU16 env "DS_REDIS_PLAYGROUND_DB" 0
  .ok (redisConfig (PlaygroundConnectionUrl.envOr env "DS_REDIS_PLAYGROUND_HOST" "redis-playground")
    port db (PlaygroundConnectionUrl.loadSecret env secret "DS_REDIS_PLAYGROUND_PASSWORD"
      redisSecret))

def settings : (sidecar : Sidecar) → Except DispatchError (PoolOf sidecar)
  | .postgres => (address env secret pgSource).map pgPool
  | .mysql => (address env secret mysqlSource).map fun a => ⟨a, (0, poolMaxConnections)⟩
  | .clickhouse => (address env secret clickhouseSource).map clickhouseConfig
  | .redis => redisSettings env secret

theorem settings_postgres : (settings env secret .postgres).map PgPool.url =
    buildPgUrl env secret := by
  have hhost : pgSource.key "HOST" = "DS_PG_PLAYGROUND_HOST" := by decide
  have hport : pgSource.key "PORT" = "DS_PG_PLAYGROUND_PORT" := by decide
  have huser : pgSource.key "USER" = "DS_PG_PLAYGROUND_USER" := by decide
  have hdb : pgSource.key "DB" = "DS_PG_PLAYGROUND_DB" := by decide
  have hpassword : pgSource.key "PASSWORD" = "DS_PG_PLAYGROUND_PASSWORD" := by decide
  have hdefault : pgSource.port = 5432 := rfl
  have hpath : pgSource.secretPath = "/run/secrets/pg_playground_password" := rfl
  unfold settings address buildPgUrl PlaygroundConnectionUrl.pgPassword
  rw [hhost, hport, huser, hdb, hpassword, hdefault, hpath]
  cases PlaygroundConnectionUrl.envU16 env "DS_PG_PLAYGROUND_PORT" 5432 with
  | error e => rfl
  | ok port =>
    cases PlaygroundConnectionUrl.loadSecret env secret "DS_PG_PLAYGROUND_PASSWORD"
        "/run/secrets/pg_playground_password" with
    | error e => rfl
    | ok password => rfl

end Settings

section Reading

variable {env : String → Option String} {events : List BuildEvent} {key default path : String}
  {α β A S : Type} {b : β}

def Answers (env : String → Option String) : BuildEvent → Prop
  | ⟨.var key, v⟩ => v = env key
  | _ => True

theorem var_trace {f : Option String → BuildProgram β}
    (h : (perform (BuildOp.var key) >>= f).Trace events b) (henv : ∀ e ∈ events, Answers env e) :
    ∃ rest, events = ⟨.var key, env key⟩ :: rest ∧ (f (env key)).Trace rest b ∧
      ∀ e ∈ rest, Answers env e := by
  obtain ⟨v, rest, rfl, hrest⟩ := trace_perform h
  have hv : v = env key := henv _ (List.mem_cons_self ..)
  subst hv
  exact ⟨rest, rfl, hrest, fun e he => henv e (List.mem_cons_of_mem _ he)⟩

theorem envOr_trace {f : String → BuildProgram β} (h : (envOr key default >>= f).Trace events b)
    (henv : ∀ e ∈ events, Answers env e) : ∃ rest, events = ⟨.var key, env key⟩ :: rest ∧
      (f (PlaygroundConnectionUrl.envOr env key default)).Trace rest b ∧
      ∀ e ∈ rest, Answers env e :=
  var_trace (f := fun v => f (v.getD default)) h henv

theorem envU16_trace {n : ℕ} {f : Except DispatchError ℕ → BuildProgram β}
    (h : (envU16 key n >>= f).Trace events b) (henv : ∀ e ∈ events, Answers env e) :
    ∃ rest, events = ⟨.var key, env key⟩ :: rest ∧
      (f (PlaygroundConnectionUrl.envU16 env key n)).Trace rest b ∧
      ∀ e ∈ rest, Answers env e :=
  var_trace (f := fun v => f (PlaygroundConnectionUrl.envU16 (fun _ => v) key n)) h henv

/-- These are events of an attempt that read the secret so, if it read it. -/
def Saw (path : String) (secret : Secret) (events : List BuildEvent) : Prop :=
  ∀ r, (⟨.secretFile path, r⟩ : BuildEvent) ∈ events → r = secret

theorem loadSecret_trace {f : Except DispatchError String → BuildProgram β}
    (h : (loadSecret key path >>= f).Trace events b) (henv : ∀ e ∈ events, Answers env e) :
    ∃ secret reading rest, events = reading ++ rest ∧
      ⟨.secretFile path, secret⟩ ∈ reading ∧ Saw path secret reading ∧
      (f (PlaygroundConnectionUrl.loadSecret env secret key path)).Trace rest b ∧
      ∀ e ∈ rest, Answers env e := by
  obtain ⟨secret, rest, rfl, hrest⟩ := trace_perform h
  have henv' : ∀ e ∈ rest, Answers env e := fun e he => henv e (List.mem_cons_of_mem _ he)
  cases secret with
  | some raw =>
    have hread : PlaygroundConnectionUrl.loadSecret (fun _ => none) (some raw) key path =
        PlaygroundConnectionUrl.loadSecret env (some raw) key path := by
      cases raw <;> rfl
    refine ⟨some raw, [⟨.secretFile path, some raw⟩], rest, rfl, List.mem_singleton_self _, ?_,
      hread ▸ hrest, henv'⟩
    intro r hr
    cases List.mem_singleton.mp hr
    rfl
  | none =>
    obtain ⟨rest', rfl, hrest, henv'⟩ := var_trace
      (f := fun v => f (PlaygroundConnectionUrl.loadSecret (fun _ => v) none key path)) hrest henv'
    refine ⟨none, [⟨.secretFile path, none⟩, ⟨.var key, env key⟩], rest', rfl,
      List.mem_cons_self .., ?_, hrest, henv'⟩
    intro r hr
    rcases List.mem_cons.mp hr with hr | hr
    · cases hr
      rfl
    · cases List.mem_singleton.mp hr

/-- A program that reads the variables and one secret, and makes of them what `value` says. What it
makes in the end is made of the secret it read. -/
def Reads (env : String → Option String) (path : String)
    (read : BuildProgram (Except DispatchError A)) (value : Secret → Except DispatchError A) :
    Prop :=
  ∀ events out, read.Trace events out → (∀ e ∈ events, Answers env e) →
    ∃ secret, Saw path secret events ∧ out = value secret ∧
      ∀ a, out = .ok a → ⟨.secretFile path, secret⟩ ∈ events

def refusal : BuildEvent → Option DispatchError
  | ⟨.pgConnect _, some (.error e)⟩ => some (mapPgError e)
  | ⟨.httpClient, .error m⟩ => some (.config ("reqwest builder: " ++ m))
  | ⟨.redisOpen _, .error m⟩ => some (.config ("redis client: " ++ m))
  | _ => none

def Starts (start : A → BuildProgram (Option (Except DispatchError S))) (pool : A → S) : Prop :=
  ∀ a events out, (start a).Trace events out → out = some (.ok (pool a)) ∨ out = none ∨
    ∃ e, out = some (.error e) ∧ ∃ event ∈ events, refusal event = some e

/-- What an attempt ends in, from the settings. -/
structure BuiltFrom (path : String) (settings : Secret → Except DispatchError S)
    (events : List BuildEvent) (out : Option (Except DispatchError S)) : Prop where
  pool : ∀ s, out = some (.ok s) → ∃ secret, ⟨.secretFile path, secret⟩ ∈ events ∧
    settings secret = .ok s
  error : ∀ e, out = some (.error e) → (∃ secret, Saw path secret events ∧
    settings secret = .error e) ∨ ∃ event ∈ events, refusal event = some e

theorem buildWith_trace {read : BuildProgram (Except DispatchError A)}
    {value : Secret → Except DispatchError A}
    {start : A → BuildProgram (Option (Except DispatchError S))} {pool : A → S}
    {out : Option (Except DispatchError S)} (hread : Reads env path read value)
    (hstart : Starts start pool) (h : (buildWith read start).Trace events out)
    (henv : ∀ e ∈ events, Answers env e) :
    BuiltFrom path (fun secret => (value secret).map pool) events out := by
  obtain ⟨first, made, rest, rfl, hmade, hrest⟩ := trace_bind h
  obtain ⟨secret, hsaw, hvalue, hseen⟩ := hread first made hmade
    fun e he => henv e (List.mem_append_left _ he)
  cases made with
  | error e =>
    obtain ⟨rfl, rfl⟩ := trace_done hrest
    refine ⟨fun s hs => (by cases hs), fun e' he' => Or.inl ⟨secret, ?_, ?_⟩⟩
    · rwa [List.append_nil]
    · cases he'
      rw [← hvalue]
      rfl
  | ok a =>
    rcases hstart a rest out hrest with rfl | rfl | ⟨e, rfl, event, hevent, hrefused⟩
    · refine ⟨fun s hs => ⟨secret, List.mem_append_left _ (hseen a rfl), ?_⟩,
        fun e he => (by cases he)⟩
      cases hs
      rw [← hvalue]
      rfl
    · exact ⟨fun s hs => (by cases hs), fun e he => (by cases he)⟩
    · refine ⟨fun s hs => (by cases hs), fun e' he' => Or.inr ⟨event, ?_, ?_⟩⟩
      · exact List.mem_append_right _ hevent
      · cases he'
        exact hrefused

end Reading

section Builders

variable {env : String → Option String} {events : List BuildEvent} {key path : String}
  {secret : Secret} {v : Option String}

theorem saw_var : Saw path secret (⟨.var key, v⟩ :: events) ↔ Saw path secret events := by
  simp [Saw]

theorem readAddress_reads (s : Source) :
    Reads env s.secretPath (readAddress s) fun secret => address env secret s := by
  intro events out h henv
  unfold readAddress at h
  obtain ⟨rest, rfl, h, henv⟩ := envOr_trace h henv
  obtain ⟨rest, rfl, h, henv⟩ := envU16_trace h henv
  cases hport : PlaygroundConnectionUrl.envU16 env (s.key "PORT") s.port with
  | error e =>
    rw [hport] at h
    obtain ⟨rfl, rfl⟩ := trace_done h
    refine ⟨none, ?_, ?_, fun a ha => (by cases ha)⟩
    · rw [saw_var, saw_var]
      exact fun r hr => by cases hr
    · change _ = address env none s
      rw [address, hport]
      rfl
  | ok port =>
    rw [hport] at h
    obtain ⟨rest, rfl, h, henv⟩ := envOr_trace h henv
    obtain ⟨rest, rfl, h, henv⟩ := envOr_trace h henv
    obtain ⟨secret, reading, rest, rfl, hread, hsaw, h, henv⟩ := loadSecret_trace h henv
    have hvalue : rest = [] ∧ out = address env secret s := by
      cases hpassword : PlaygroundConnectionUrl.loadSecret env secret (s.key "PASSWORD")
          s.secretPath with
      | error e =>
        rw [hpassword] at h
        obtain ⟨hrest, hout⟩ := trace_done h
        refine ⟨hrest, hout.trans ?_⟩
        rw [address, hport, hpassword]
        rfl
      | ok password =>
        rw [hpassword] at h
        obtain ⟨hrest, hout⟩ := trace_done h
        refine ⟨hrest, hout.trans ?_⟩
        rw [address, hport, hpassword]
        rfl
    obtain ⟨rfl, hvalue⟩ := hvalue
    refine ⟨secret, ?_, hvalue, fun a _ => by simp [hread]⟩
    rw [saw_var, saw_var, saw_var, saw_var, List.append_nil]
    exact hsaw

theorem readRedis_reads :
    Reads env redisSecret readRedis fun secret => redisSettings env secret := by
  intro events out h henv
  unfold readRedis at h
  obtain ⟨rest, rfl, h, henv⟩ := envOr_trace h henv
  obtain ⟨rest, rfl, h, henv⟩ := envU16_trace h henv
  cases hport : PlaygroundConnectionUrl.envU16 env "DS_REDIS_PLAYGROUND_PORT" 6379 with
  | error e =>
    rw [hport] at h
    obtain ⟨rfl, rfl⟩ := trace_done h
    refine ⟨none, ?_, ?_, fun a ha => (by cases ha)⟩
    · rw [saw_var, saw_var]
      exact fun r hr => by cases hr
    · change _ = redisSettings env none
      rw [redisSettings, hport]
      rfl
  | ok port =>
    rw [hport] at h
    obtain ⟨rest, rfl, h, henv⟩ := envU16_trace h henv
    cases hdb : PlaygroundConnectionUrl.envU16 env "DS_REDIS_PLAYGROUND_DB" 0 with
    | error e =>
      rw [hdb] at h
      obtain ⟨rfl, rfl⟩ := trace_done h
      refine ⟨none, ?_, ?_, fun a ha => (by cases ha)⟩
      · rw [saw_var, saw_var, saw_var]
        exact fun r hr => by cases hr
      · change _ = redisSettings env none
        rw [redisSettings, hport, hdb]
        rfl
    | ok db =>
      rw [hdb] at h
      obtain ⟨secret, reading, rest, rfl, hread, hsaw, h, henv⟩ := loadSecret_trace h henv
      obtain ⟨rfl, rfl⟩ := trace_done h
      refine ⟨secret, ?_, ?_, fun a _ => by simp [hread]⟩
      · rw [saw_var, saw_var, saw_var, List.append_nil]
        exact hsaw
      · change _ = redisSettings env secret
        rw [redisSettings, hport, hdb]
        rfl

theorem connectPg_starts : Starts connectPg pgPool := by
  intro a events out h
  obtain ⟨r, rest, rfl, hrest⟩ := trace_perform h
  cases r with
  | none =>
    obtain ⟨rfl, rfl⟩ := trace_done hrest
    exact Or.inr (Or.inl rfl)
  | some r =>
    cases r with
    | error e =>
      obtain ⟨rfl, rfl⟩ := trace_done hrest
      exact Or.inr (Or.inr ⟨_, rfl, _, List.mem_cons_self .., rfl⟩)
    | ok u =>
      obtain ⟨rfl, rfl⟩ := trace_done hrest
      exact Or.inl rfl

theorem constrainMysql_starts :
    Starts constrainMysql fun a => ⟨a, (0, poolMaxConnections)⟩ := by
  intro a events out h
  obtain ⟨rfl, rfl⟩ := trace_done h
  exact Or.inl rfl

theorem startClickhouse_starts : Starts startClickhouse clickhouseConfig := by
  intro a events out h
  obtain ⟨r, rest, rfl, hrest⟩ := trace_perform h
  cases r with
  | error m =>
    obtain ⟨rfl, rfl⟩ := trace_done hrest
    exact Or.inr (Or.inr ⟨_, rfl, _, List.mem_cons_self .., rfl⟩)
  | ok u =>
    obtain ⟨rfl, rfl⟩ := trace_done hrest
    exact Or.inl rfl

theorem openRedis_starts : Starts openRedis id := by
  intro c events out h
  obtain ⟨r, rest, rfl, hrest⟩ := trace_perform h
  cases r with
  | error m =>
    obtain ⟨rfl, rfl⟩ := trace_done hrest
    exact Or.inr (Or.inr ⟨_, rfl, _, List.mem_cons_self .., rfl⟩)
  | ok u =>
    obtain ⟨rfl, rfl⟩ := trace_done hrest
    exact Or.inl rfl

theorem build_trace {sidecar : Sidecar} {out : Option (Except DispatchError (PoolOf sidecar))}
    (h : (build sidecar).Trace events out) (henv : ∀ e ∈ events, Answers env e) :
    BuiltFrom (secretPath sidecar) (fun secret => settings env secret sidecar) events out := by
  cases sidecar with
  | postgres => exact buildWith_trace (readAddress_reads pgSource) connectPg_starts h henv
  | mysql => exact buildWith_trace (readAddress_reads mysqlSource) constrainMysql_starts h henv
  | clickhouse =>
    exact buildWith_trace (readAddress_reads clickhouseSource) startClickhouse_starts h henv
  | redis =>
    have hbuilt := buildWith_trace readRedis_reads openRedis_starts h henv
    have hsame : ∀ r : Except DispatchError RedisConfig, r.map id = r := fun r => by
      cases r <;> rfl
    simp only [hsame] at hbuilt
    exact hbuilt

end Builders

section Runs

variable {ι : Type} [DecidableEq ι] {env : String → Option String} {sidecar : Sidecar}
  {log : List (ι × BuildEvent)}

/-- What the documentation promises of the cell that holds the pool of a sidecar, for calls that all
pass it the builder of this sidecar. -/
def Lawful (sidecar : Sidecar) (cell : Cell ι (PoolOf sidecar) DispatchError BuildOp.Result) :
    Prop :=
  cell.Lawful fun _ => build sidecar

/-- However the first calls to a sidecar interleave, and whichever of them fail or are dropped, they
try to build its pool one after the other. Every call that gets a pool gets the same one: it was
built by the last attempt, from the variables and the secret as that attempt read it, and nothing is
read after it. A call that fails has its own attempt to blame. -/
theorem pools_built_once {cell : Cell ι (PoolOf sidecar) DispatchError BuildOp.Result}
    {s t : cell.State} (hcell : Lawful sidecar cell) (hstart : cell.view s = .empty)
    (hrun : cell.Run s log t) (henv : ∀ entry ∈ log, Answers env entry.2) :
    (∀ i, Contiguous i log) ∧
      (∀ i pool, (cell.view t).phase i = .returned (some (.ok pool)) →
        (cell.view t).value = some pool) ∧
      (∀ pool, (cell.view t).value = some pool → ∃ i secret, Latest i log ∧
        ⟨.secretFile (secretPath sidecar), secret⟩ ∈ eventsOf i log ∧
        settings env secret sidecar = .ok pool ∧
        ∀ j, j ≠ i → Fruitless (fun _ => build sidecar) j log) ∧
      ∀ i e, (cell.view t).phase i = .returned (some (.error e)) →
        (∃ secret, Saw (secretPath sidecar) secret (eventsOf i log) ∧
          settings env secret sidecar = .error e) ∨
        ∃ event ∈ eventsOf i log, refusal event = some e := by
  have horderly := attempts_orderly hcell hstart hrun
  have hanswered : ∀ i, ∀ e ∈ eventsOf i log, Answers env e := by
    intro i e he
    obtain ⟨entry, hentry, rfl⟩ := List.mem_map.mp he
    exact henv entry (List.mem_filter.mp hentry).1
  refine ⟨horderly.contiguous, fun i pool hdone => ?_, fun pool hpool => ?_, fun i e hdone => ?_⟩
  · have hknown := horderly.known i
    rw [hdone] at hknown
    exact hknown
  · obtain ⟨-, i, hwon⟩ := horderly.won pool hpool
    obtain ⟨secret, hread, hsettings⟩ := (build_trace hwon.trace (hanswered i)).pool pool rfl
    exact ⟨i, secret, hwon.latest, hread, hsettings, hwon.others⟩
  · have hknown := horderly.known i
    rw [hdone] at hknown
    exact (build_trace hknown (hanswered i)).error e rfl

end Runs

section Example

def noVariables : String → Option String := fun _ => none

def localRedis : RedisConfig := ⟨"redis://redis-playground:6379/0", "s3cret"⟩

def redisCell : Cell Bool RedisConfig DispatchError BuildOp.Result :=
  plain fun _ => buildRedisConfig

/-- One caller is dropped while it waits for the other to build the client. -/
theorem pools_built_once_redis : ∃ (c : View Bool RedisConfig DispatchError BuildOp.Result)
    (log : List (Bool × BuildEvent)), redisCell.Run View.empty log c ∧
      c.phase true = .returned none ∧ c.phase false = .returned (some (.ok localRedis)) ∧
      c.value = some localRedis := by
  have hstart : redisCell.Run View.empty [] View.empty := .refl _
  have htrying := hstart.tail (.start (i := false) rfl (fun j hj => by cases hj.choose_spec) rfl)
  have hdropped := htrying.tail (.drop (i := true) rfl)
  have hhost := hdropped.tail (.perform (i := false) none rfl)
  have hport := hhost.tail (.perform (i := false) none rfl)
  have hdb := hport.tail (.perform (i := false) none rfl)
  have hsecret := hdb.tail (.perform (i := false) (some (.ok "s3cret\n")) rfl)
  have hopen := hsecret.tail (.perform (i := false) (.ok ()) rfl)
  have hfill := hopen.tail (.fill (i := false) (v := localRedis) rfl)
  have honce := @pools_built_once Bool _ noVariables .redis _ redisCell _ _ (plain_lawful _) rfl
    hfill (by simp [Answers, noVariables])
  exact ⟨_, _, hfill, rfl, rfl, honce.2.1 false _ rfl⟩

end Example

end PlaygroundPools
