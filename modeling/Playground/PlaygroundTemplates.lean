import Playground.Base64
import Playground.PlaygroundCleanup

/-! # Templates and payload files

The text handling around scenario files: placeholders, source coordinates, the statement
splitter, example paths and the docker shell. Warnings about unresolved placeholders are only
logged and left out. -/
namespace PlaygroundTemplates

open InteractionPrograms
open PlaygroundCleanup
open PlaygroundManifest (Source Value)
open PlaygroundOperations
open PlaygroundSessions

def replaceText (pat new s : String) : String :=
  String.ofList (RustText.replace pat.toList new.toList s.toList)

/-- The alphabet of `base64::engine::general_purpose::STANDARD`. -/
def standard : Base64.Alphabet where
  chars := "ABCDEFGHIJKLMNOPQRSTUVWXYZabcdefghijklmnopqrstuvwxyz0123456789+/".toList
  length_eq := by decide
  nodup := by decide
  pad := '='
  pad_notMem := by decide

def base64Encode (bytes : List UInt8) : String := String.ofList (Base64.encode standard bytes)

section Substitution

variable (env : ServerEnv)

def substitutePlaceholders (s : String) (session : Session) : String :=
  let minioAccessKey := (minioAccess env).getD "minioadmin"
  let minioSecretKey := (minioSecret env).getD "minioadmin"
  let s := replaceText "{shuttle}" session.shuttleName s
  let s := replaceText "{namespace}" session.namespaceName s
  let s := replaceText "{connection}" session.connectionName s
  let s := replaceText "{session}" (uuidText session.id) s
  let s := replaceText "{minio_endpoint}" (minioEndpoint env) s
  let s := replaceText "{minio_access_key}" minioAccessKey s
  replaceText "{minio_secret_key}" minioSecretKey s

theorem substitutePlaceholders_plain {s : String} (h : '\x7b' ∉ s.toList) (session : Session) :
    substitutePlaceholders env s session = s := by
  have hreplace : ∀ pat rest new, pat.toList = '\x7b' :: rest → replaceText pat new s = s := by
    intro pat rest new hpat
    rw [replaceText, hpat, RustText.replace_of_not_mem h, String.ofList_toList]
  simp only [substitutePlaceholders]
  rw [hreplace _ _ _ rfl, hreplace _ _ _ rfl, hreplace _ _ _ rfl, hreplace _ _ _ rfl,
    hreplace _ _ _ rfl, hreplace _ _ _ rfl, hreplace _ _ _ rfl]

mutual

def substitutePlaceholdersValue (session : Session) : Value → Value
  | .string s => .string (substitutePlaceholders env s session)
  | .array items => .array (substituteItems session items)
  | .object members => .object (substituteMembers session members)
  | .null => .null
  | .bool b => .bool b
  | .number text => .number text

def substituteItems (session : Session) : List Value → List Value
  | [] => []
  | v :: rest => substitutePlaceholdersValue session v :: substituteItems session rest

def substituteMembers (session : Session) : List (String × Value) → List (String × Value)
  | [] => []
  | (k, v) :: rest => (k, substitutePlaceholdersValue session v) :: substituteMembers session rest

end

structure SourceCoordsSpec where
  envPrefix : String
  defaultHost : String
  defaultPort : String
  defaultDb : String
  defaultUser : String
  defaultPw : String
  deriving DecidableEq, Repr

def sourceCoordsRegistry (service : String) : Option SourceCoordsSpec :=
  match service with
  | "postgres" =>
    some ⟨"DS_PG_PLAYGROUND", "localhost", "5432", "ecommerce", "postgres", "postgres"⟩
  | "mysql" => some ⟨"DS_MYSQL_PLAYGROUND", "localhost", "3306", "iot", "root", "rootpass"⟩
  | "redpanda" => some ⟨"DS_KAFKA_PLAYGROUND", "localhost", "19092", "", "", ""⟩
  | "clickhouse" =>
    some ⟨"DS_CLICKHOUSE_PLAYGROUND", "clickhouse-playground", "8123", "playground",
      "playground", "playground"⟩
  | "redis" => some ⟨"DS_REDIS_PLAYGROUND", "redis-playground", "6379", "0", "", ""⟩
  | "wiremock" => some ⟨"DS_WIREMOCK_PLAYGROUND", "wiremock-playground", "8080", "", "", ""⟩
  | _ => none

/-- Replaces the five source placeholders by the variables of the prefix or their defaults. -/
def SourceCoordsSpec.substitute (c : SourceCoordsSpec) (s : String) : String :=
  let coord := fun suffix default => (env.envVar (c.envPrefix ++ suffix)).getD default
  let s := replaceText "{source_host}" (coord "_HOST" c.defaultHost) s
  let s := replaceText "{source_port}" (coord "_PORT" c.defaultPort) s
  let s := replaceText "{source_db}" (coord "_DB" c.defaultDb) s
  let s := replaceText "{source_user}" (coord "_USER" c.defaultUser) s
  replaceText "{source_password}" (coord "_PASSWORD" c.defaultPw) s

def substituteSourceCoords (s : String) (source : Option Source) : String :=
  match (source.bind Source.dockerService).bind sourceCoordsRegistry with
  | none => s
  | some coords => coords.substitute env s

end Substitution

section Statements

def flushStatement (cur : List Char) : List String :=
  let trimmed := RustText.trim cur
  if trimmed.isEmpty then [] else [String.ofList trimmed]

def splitFrom (cur : List Char) (inString inLineComment : Bool) : List Char → List String
  | [] => flushStatement cur
  | ch :: rest =>
    if inLineComment then splitFrom (cur ++ [ch]) inString (ch != '\n') rest
    else
      match rest with
      | next :: tail =>
        if !inString && ch == '-' && next == '-' then
          splitFrom (cur ++ [ch, next]) inString true tail
        else if ch == '\'' then
          if inString && next == '\'' then splitFrom (cur ++ [ch, next]) inString false tail
          else splitFrom (cur ++ [ch]) (!inString) false (next :: tail)
        else if ch == ';' && !inString then
          flushStatement cur ++ splitFrom [] inString false (next :: tail)
        else splitFrom (cur ++ [ch]) inString false (next :: tail)
      | [] =>
        if ch == ';' && !inString then flushStatement cur
        else flushStatement (cur ++ [ch])

def splitDsSqlStatements (sql : String) : List String := splitFrom [] false false sql.toList

end Statements

section Files

def validateExampleRelativePath (path : String) : Except String Unit :=
  if path.isEmpty then .error "empty path"
  else if "/".toList.isPrefixOf path.toList || "\\".toList.isPrefixOf path.toList then
    .error ("absolute path rejected: " ++ path)
  else if (path.toList.splitOnP fun c => c == '/' || c == '\\').any
      (fun seg => seg == "..".toList || seg == "~".toList) then
    .error ("path traversal rejected: " ++ path)
  else .ok ()

def joinPath (dir path : String) : String :=
  if dir.isEmpty || "/".toList.isSuffixOf dir.toList then dir ++ path else dir ++ "/" ++ path

def readExampleFile (env : ServerEnv) (path : String) : Handler (Except String String) :=
  match validateExampleRelativePath path with
  | .error e => .done (.error e)
  | .ok () => do
    let full := joinPath env.examplesDir path
    match ← call (.readToString full) with
    | .error e => .done (.error ("read " ++ full ++ ": " ++ e))
    | .ok text => .done (.ok text)

/-- `Path::file_name` of a relative path without `..`. -/
def fileName (path : String) : Option (List Char) :=
  ((path.toList.splitOn '/').filter fun seg => !seg.isEmpty && seg != ['.']).getLast?

/-- `Path::extension`: what follows the last dot, unless only that dot starts the name. -/
def extension (path : String) : Option (List Char) :=
  (fileName path).bind fun name =>
    let after := name.reverse.takeWhile (· != '.')
    if after.length + 1 < name.length then some after.reverse else none

def kafkaTopicFor (session : Session) : String := session.shuttleName ++ "_src"

def s3BucketFor : String := "file-ingestion"

end Files

section DockerShell

def dockerExec (container : String) (b64 : String) : String :=
  "echo " ++ b64 ++ " | base64 -d | docker compose -f " ++
    "/opt/datashuttle/examples/docker-compose.yml exec -T " ++ container

def dockerShellRegistry (service : String) : Option (String → String) :=
  match service with
  | "postgres" =>
    some (dockerExec "postgres psql -U postgres -d ecommerce -v ON_ERROR_STOP=1")
  | "mysql" =>
    some (dockerExec "mysql mysql -uroot -prootpass --default-character-set=utf8mb4 iot")
  | "clickhouse" => some (dockerExec "clickhouse clickhouse-client --multiquery")
  | "mongodb" => some (dockerExec "mongodb mongosh --quiet")
  | "cassandra" => some (dockerExec "cassandra cqlsh")
  | _ => none

/-- `stderr.lines().take(5).collect().join(" | ")`. -/
def firstLines (stderr : String) : String :=
  String.intercalate " | " (((RustText.lines stderr.toList).take 5).map String.ofList)

/-- A service without dispatcher, or one whose dispatcher is not built in. -/
def execSourceSql (source : Source) (sql : String) (tcpDispatcherActive : Bool) :
    Handler (Except String (String × String)) :=
  match source.dockerService with
  | none => .done (.error ("source " ++ source.id ++ " has no docker_service"))
  | some service =>
    if tcpDispatcherActive && (service == "postgres" || service == "mysql") then
      .done (.error ("playground shell dispatch is disabled for service=" ++ service ++
        " when the TCP dispatcher is active — must go through the dispatcher instead"))
    else
      match dockerShellRegistry service with
      | none => .done (.error ("no source SQL dispatcher for service " ++ service))
      | some buildShell => do
        match ← call (.command "bash" ["-c", buildShell (base64Encode sql.toUTF8.toList)]) with
        | .error e => .done (.error ("spawn docker exec: " ++ e))
        | .ok output =>
          if output.success then .done (.ok (output.stdout, output.stderr))
          else .done (.error ("source SQL failed on " ++ service ++ ": " ++
            firstLines output.stderr))

def shellOutcome (service : String) : Except String ProcessOutput → Except String (String × String)
  | .error e => .error ("spawn docker exec: " ++ e)
  | .ok output =>
    if output.success then .ok (output.stdout, output.stderr)
    else .error ("source SQL failed on " ++ service ++ ": " ++ firstLines output.stderr)

theorem execSourceSql_cases (source : Source) (sql : String) (tcpDispatcherActive : Bool) :
    (∃ e, execSourceSql source sql tcpDispatcherActive = .done (.error e)) ∨
      ∃ service buildShell, source.dockerService = some service ∧
        (tcpDispatcherActive = true → service ≠ "postgres" ∧ service ≠ "mysql") ∧
        dockerShellRegistry service = some buildShell ∧
        execSourceSql source sql tcpDispatcherActive = .request (.external (.command "bash"
          ["-c", buildShell (base64Encode sql.toUTF8.toList)])) fun r =>
            .done (shellOutcome service r) := by
  rw [execSourceSql]
  cases source.dockerService with
  | none => exact .inl ⟨_, rfl⟩
  | some service =>
    dsimp only
    split
    · exact .inl ⟨_, rfl⟩
    rename_i hguard
    cases hshell : dockerShellRegistry service with
    | none => exact .inl ⟨_, rfl⟩
    | some buildShell =>
      refine .inr ⟨service, buildShell, rfl, ?_, hshell, ?_⟩
      · rintro rfl
        simpa using hguard
      · refine congrArg (Program.request _) (funext fun r => ?_)
        cases r with
        | error e => rfl
        | ok output =>
          rw [shellOutcome, Program.done_bind_eq]
          dsimp only
          split <;> rfl

/-- The dispatcher of a docker service, by either of its names. -/
def sidecarOf (service : String) : Option Sidecar :=
  match service with
  | "postgres" | "postgres-playground" => some .postgres
  | "mysql" | "mysql-playground" => some .mysql
  | "clickhouse" | "clickhouse-playground" => some .clickhouse
  | "redis" | "redis-playground" => some .redis
  | _ => none

def createDatabase (namespaceName : String) : Sidecar → String
  | .postgres => "CREATE SCHEMA IF NOT EXISTS \"" ++ namespaceName ++ "\";"
  | .mysql | .clickhouse | .redis => "CREATE DATABASE IF NOT EXISTS `" ++ namespaceName ++ "`;"

def useDatabase (namespaceName : String) : Sidecar → String
  | .postgres => "SET search_path = \"" ++ namespaceName ++ "\", public;"
  | .mysql | .clickhouse | .redis => "USE `" ++ namespaceName ++ "`;"

/-- The script of the shell fallback, kept in the session's schema or database. -/
def isolatedSql (useIsolation : Bool) (namespaceName sql : String) (sidecar : Sidecar) :
    String :=
  if useIsolation then
    createDatabase namespaceName sidecar ++ "\n" ++ useDatabase namespaceName sidecar ++ "\n" ++
      sql
  else sql

def dispatchSourceSql (env : ServerEnv) (source : Source) (namespaceName sql : String) :
    Handler (Except String (String × String)) :=
  match source.dockerService with
  | none => .done (.error ("source " ++ source.id ++ " has no docker_service"))
  | some service =>
    let useIsolation := PlaygroundNames.isSafeResourceName namespaceName
    let scope := if useIsolation then some namespaceName else none
    match sidecarOf service with
    | none => execSourceSql source sql env.tcpBacked
    | some sidecar => do
      match ← call (.dispatcher (.exec sidecar scope sql)) with
      | .ok out => .done (.ok out)
      | .error .unavailable =>
        if sidecar = .redis then
          .done (.error ("redis dispatcher unavailable — cloud playground requires " ++
            "DS_REDIS_PLAYGROUND_HOST + redis-playground sidecar"))
        else
          execSourceSql source (isolatedSql useIsolation namespaceName sql sidecar) env.tcpBacked
      | .error other => .done (.error other.text)

/-- Everything a dispatch can do: refuse a source without service, use the shell of a service
without sidecar, or call the sidecar. Only a sidecar that is unavailable lets the shell take
over. -/
theorem dispatchSourceSql_cases (env : ServerEnv) (source : Source) (namespaceName sql : String) :
    (source.dockerService = none ∧
      ∃ e, dispatchSourceSql env source namespaceName sql = .done (.error e)) ∨
    (∃ service, source.dockerService = some service ∧ sidecarOf service = none ∧
      dispatchSourceSql env source namespaceName sql = execSourceSql source sql env.tcpBacked) ∨
    ∃ service sidecar next, source.dockerService = some service ∧
      sidecarOf service = some sidecar ∧ (∀ out, next (.ok out) = .done (.ok out)) ∧
      (∀ e, (∃ text, next (.error e) = .done (.error text)) ∨
        ∃ script, next (.error e) = execSourceSql source script env.tcpBacked) ∧
      dispatchSourceSql env source namespaceName sql = .request (.external (.dispatcher (.exec
        sidecar (if PlaygroundNames.isSafeResourceName namespaceName then some namespaceName
          else none) sql))) next := by
  rw [dispatchSourceSql]
  cases source.dockerService with
  | none => exact .inl ⟨rfl, _, rfl⟩
  | some service =>
    dsimp only
    cases hsidecar : sidecarOf service with
    | none => exact .inr (.inl ⟨service, rfl, hsidecar, rfl⟩)
    | some sidecar =>
      refine .inr (.inr ⟨service, sidecar, _, rfl, hsidecar, ?_, ?_, rfl⟩)
      · exact fun out => rfl
      · intro e
        cases e with
        | unavailable =>
          rw [Program.done_bind_eq]
          dsimp only
          split
          · exact .inl ⟨_, rfl⟩
          · exact .inr ⟨_, rfl⟩
        | _ => exact .inl ⟨_, rfl⟩

/-- The sidecar a service's resources are provisioned in; here only the plain names count. -/
def provisionedSidecar (service : String) : Option Sidecar :=
  match service with
  | "postgres" => some .postgres
  | "mysql" => some .mysql
  | "clickhouse" => some .clickhouse
  | _ => none

def provisionSessionResources (env : ServerEnv) (source : Source) (namespaceName : String) :
    Handler (Except String Unit) :=
  match source.dockerService.bind provisionedSidecar with
  | none => .done (.ok ())
  | some sidecar => do
    match ← call (.dispatcher (.provision sidecar namespaceName)) with
    | .ok () => .done (.ok ())
    | .error .unavailable =>
      if PlaygroundNames.isSafeResourceName namespaceName = false then
        .done (.error ("unsafe resource name: " ++ namespaceName))
      else do
        let result ← execSourceSql source (createDatabase namespaceName sidecar) env.tcpBacked
        .done (result.map fun _ => ())
    | .error other => .done (.error other.text)

end DockerShell

end PlaygroundTemplates
