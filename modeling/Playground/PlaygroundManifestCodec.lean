import Playground.PlaygroundManifestValidation
import Playground.PlaygroundSessionCodec

/-! # The JSON of the manifest

All fields of the manifest's records, what the derived deserialization reads and what the derived
serialization writes. `serde_json::to_value` keeps the members of an object sorted by name. -/
namespace PlaygroundManifestCodec

open DecimalText
open PlaygroundManifest
open PlaygroundManifestValidation
open PlaygroundSessionCodec
open RecordFields

inductive SourceKind where
  | cdc
  | snapshot
  | streaming
  | file
  | rest
  | kv
  deriving DecidableEq, Repr

inductive SourceStatus where
  | stable
  | beta
  | excluded
  deriving DecidableEq, Repr

inductive Difficulty where
  | beginner
  | intermediate
  | advanced
  deriving DecidableEq, Repr

inductive ScenarioStatus where
  | stable
  | beta
  | hidden
  deriving DecidableEq, Repr

structure SourceRecord extends Source where
  name : String
  kind : SourceKind
  status : SourceStatus
  free : Bool
  dockerProfile : Option String
  image : Option String
  prerequisites : List String

structure ActionRecord extends Action where
  label : String
  description : Option String
  expectedDlq : Option Bool
  destructive : Option Bool

structure Prerequisites where
  deployment : List Deployment
  profiles : List String
  minMemoryMb : Option ℕ

structure ExpectedOutcome where
  metric : String
  assertion : String
  value : Option Value

structure ScenarioRecord where
  id : String
  sourceId : String
  title : String
  description : String
  difficulty : Difficulty
  tier : ℕ
  status : ScenarioStatus
  tags : List String
  prerequisites : Prerequisites
  initSql : Option String
  shuttleSql : Option String
  teardownSql : Option String
  estimatedDurationS : Option ℕ
  actions : List ActionRecord
  breakScenarios : List ActionRecord
  expectedOutcomes : List ExpectedOutcome

structure ManifestRecord where
  version : ℕ
  sources : List SourceRecord
  scenarios : List ScenarioRecord

/-- The fields the handlers read. -/
def ScenarioRecord.scenario (sc : ScenarioRecord) : Scenario where
  id := sc.id
  sourceId := sc.sourceId
  deployment := sc.prerequisites.deployment
  initSql := sc.initSql
  shuttleSql := sc.shuttleSql
  actions := sc.actions.map ActionRecord.toAction
  breakScenarios := sc.breakScenarios.map ActionRecord.toAction

def ManifestRecord.manifest (m : ManifestRecord) : Manifest where
  version := m.version
  sources := m.sources.map SourceRecord.toSource
  scenarios := m.scenarios.map ScenarioRecord.scenario

section Variants

/-- The names of the variants of an enumeration. -/
structure Variants (α : Type) where
  all : List α
  text : α → String
  complete : ∀ a, a ∈ all
  distinct : ∀ a b, text a = text b → a = b

variable {α : Type} (variants : Variants α)

def encodeVariant (a : α) : Value := .string (variants.text a)

def readVariant (s : String) : Option α := variants.all.find? fun a => variants.text a = s

/-- A variant is its name, alone or as the only key of an object. -/
def asVariant : Value → Option α
  | .string s => readVariant variants s
  | .object [(s, .null)] => readVariant variants s
  | _ => none

theorem asVariant_encode (a : α) : asVariant variants (encodeVariant variants a) = some a := by
  change readVariant variants (variants.text a) = some a
  cases hfound : readVariant variants (variants.text a) with
  | none =>
    have hnot := List.find?_eq_none.mp hfound a (variants.complete a)
    exact absurd (decide_eq_true rfl) hnot
  | some b =>
    have htext := List.find?_some hfound
    exact congrArg some (variants.distinct b a (of_decide_eq_true htext))

def sourceKinds : Variants SourceKind where
  all := [.cdc, .snapshot, .streaming, .file, .rest, .kv]
  text
    | .cdc => "cdc"
    | .snapshot => "snapshot"
    | .streaming => "streaming"
    | .file => "file"
    | .rest => "rest"
    | .kv => "kv"
  complete a := by cases a <;> decide
  distinct a b := by cases a <;> cases b <;> decide

def sourceStatuses : Variants SourceStatus where
  all := [.stable, .beta, .excluded]
  text
    | .stable => "stable"
    | .beta => "beta"
    | .excluded => "excluded"
  complete a := by cases a <;> decide
  distinct a b := by cases a <;> cases b <;> decide

def difficulties : Variants Difficulty where
  all := [.beginner, .intermediate, .advanced]
  text
    | .beginner => "beginner"
    | .intermediate => "intermediate"
    | .advanced => "advanced"
  complete a := by cases a <;> decide
  distinct a b := by cases a <;> cases b <;> decide

def scenarioStatuses : Variants ScenarioStatus where
  all := [.stable, .beta, .hidden]
  text
    | .stable => "stable"
    | .beta => "beta"
    | .hidden => "hidden"
  complete a := by cases a <;> decide
  distinct a b := by cases a <;> cases b <;> decide

def deployments : Variants Deployment where
  all := [.dev, .selfManaged, .cloud]
  text
    | .dev => "dev"
    | .selfManaged => "self-managed"
    | .cloud => "cloud"
  complete a := by cases a <;> decide
  distinct a b := by cases a <;> cases b <;> decide

def actionKinds : Variants ActionKind where
  all := [.sql, .shell, .http, .produceKafka, .uploadFile, .toxiproxy, .resetSnapshot]
  text
    | .sql => "sql"
    | .shell => "shell"
    | .http => "http"
    | .produceKafka => "produce-kafka"
    | .uploadFile => "upload-file"
    | .toxiproxy => "toxiproxy"
    | .resetSnapshot => "reset-snapshot"
  complete a := by cases a <;> decide
  distinct a b := by cases a <;> cases b <;> decide

def actionTargets : Variants ActionTarget where
  all := [.source, .target, .kafka, .s3, .rest, .ops]
  text
    | .source => "source"
    | .target => "target"
    | .kafka => "kafka"
    | .s3 => "s3"
    | .rest => "rest"
    | .ops => "ops"
  complete a := by cases a <;> decide
  distinct a b := by cases a <;> cases b <;> decide

end Variants

/-- What `serde_json` does: the reading of a text, its complaint about a value, and how a value of
any shape is kept, an object as a sorted map. -/
structure JsonForms where
  readJson : List UInt8 → Except String Value
  complaint : Value → String
  canonical : Value → Value
  canonical_canonical : ∀ v, canonical (canonical v) = canonical v
  isNull_canonical : ∀ v, isNull (canonical v) = isNull v

section Encoding

def orNull {α : Type} (encode : α → Value) (o : Option α) : Value := (o.map encode).getD .null

def encodeStrings (items : List String) : Value := .array (items.map .string)

def encodeHttpRequest (r : HttpRequest) : Value :=
  .object [("body", orNull id r.body), ("method", .string r.method), ("url", .string r.url)]

def encodeOutcome (o : ExpectedOutcome) : Value :=
  .object [("assertion", .string o.assertion), ("metric", .string o.metric),
    ("value", orNull id o.value)]

def encodeAction (a : ActionRecord) : Value :=
  .object [("description", orNull .string a.description),
    ("destructive", orNull .bool a.destructive), ("expected_dlq", orNull .bool a.expectedDlq),
    ("http_request", orNull encodeHttpRequest a.httpRequest), ("id", .string a.id),
    ("kind", encodeVariant actionKinds a.kind), ("label", .string a.label),
    ("payload_file", orNull .string a.payloadFile), ("repeat", orNull natural a.repeatCount),
    ("shell_cmd", orNull .string a.shellCmd), ("sql", orNull .string a.sql),
    ("sql_file", orNull .string a.sqlFile),
    ("target", orNull (encodeVariant actionTargets) a.target)]

def encodePrerequisites (p : Prerequisites) : Value :=
  .object [("deployment", .array (p.deployment.map (encodeVariant deployments))),
    ("min_memory_mb", orNull natural p.minMemoryMb), ("profiles", encodeStrings p.profiles)]

def encodeSource (s : SourceRecord) : Value :=
  .object [("docker_profile", orNull .string s.dockerProfile),
    ("docker_service", orNull .string s.dockerService), ("free", .bool s.free),
    ("id", .string s.id), ("image", orNull .string s.image),
    ("kind", encodeVariant sourceKinds s.kind), ("name", .string s.name),
    ("prerequisites", encodeStrings s.prerequisites),
    ("status", encodeVariant sourceStatuses s.status)]

def encodeScenario (sc : ScenarioRecord) : Value :=
  .object [("actions", .array (sc.actions.map encodeAction)),
    ("break_scenarios", .array (sc.breakScenarios.map encodeAction)),
    ("description", .string sc.description),
    ("difficulty", encodeVariant difficulties sc.difficulty),
    ("estimated_duration_s", orNull natural sc.estimatedDurationS),
    ("expected_outcomes", .array (sc.expectedOutcomes.map encodeOutcome)), ("id", .string sc.id),
    ("init_sql", orNull .string sc.initSql),
    ("prerequisites", encodePrerequisites sc.prerequisites),
    ("shuttle_sql", orNull .string sc.shuttleSql), ("source_id", .string sc.sourceId),
    ("status", encodeVariant scenarioStatuses sc.status), ("tags", encodeStrings sc.tags),
    ("teardown_sql", orNull .string sc.teardownSql), ("tier", natural sc.tier),
    ("title", .string sc.title)]

end Encoding

section Decoding

variable (forms : JsonForms)

def asListOf {α : Type} (decode : Value → Option α) : Value → Option (List α)
  | .array items => items.mapM decode
  | _ => none

def asStrings : Value → Option (List String) := asListOf Value.asStr

def asAny (v : Value) : Option Value := some (forms.canonical v)

def decodeHttpRequest (v : Value) : Option HttpRequest := do
  let members ← asRecord ["method", "url", "body"] 2 v
  let method ← required Value.asStr members "method"
  let url ← required Value.asStr members "url"
  let body ← optional isNull (asAny forms) members "body"
  some ⟨method, url, body⟩

def decodeOutcome (v : Value) : Option ExpectedOutcome := do
  let members ← asRecord ["metric", "assertion", "value"] 2 v
  let metric ← required Value.asStr members "metric"
  let assertion ← required Value.asStr members "assertion"
  let value ← optional isNull (asAny forms) members "value"
  some ⟨metric, assertion, value⟩

def actionFields : List String :=
  ["id", "label", "description", "kind", "target", "sql", "sql_file", "shell_cmd", "http_request",
    "payload_file", "repeat", "expected_dlq", "destructive"]

def decodeAction (v : Value) : Option ActionRecord := do
  let members ← asRecord actionFields 4 v
  let id ← required Value.asStr members "id"
  let label ← required Value.asStr members "label"
  let description ← optional isNull Value.asStr members "description"
  let kind ← required (asVariant actionKinds) members "kind"
  let target ← optional isNull (asVariant actionTargets) members "target"
  let sql ← optional isNull Value.asStr members "sql"
  let sqlFile ← optional isNull Value.asStr members "sql_file"
  let shellCmd ← optional isNull Value.asStr members "shell_cmd"
  let httpRequest ← optional isNull (decodeHttpRequest forms) members "http_request"
  let payloadFile ← optional isNull Value.asStr members "payload_file"
  let repeatCount ← optional isNull (asNatural (2 ^ 32)) members "repeat"
  let expectedDlq ← optional isNull asBool members "expected_dlq"
  let destructive ← optional isNull asBool members "destructive"
  some ⟨⟨id, kind, target, sql, sqlFile, shellCmd, httpRequest, payloadFile, repeatCount⟩,
    label, description, expectedDlq, destructive⟩

def decodePrerequisites (v : Value) : Option Prerequisites := do
  let members ← asRecord ["deployment", "profiles", "min_memory_mb"] 0 v
  let deployment ← defaulted (asListOf (asVariant deployments)) members "deployment" []
  let profiles ← defaulted asStrings members "profiles" []
  let minMemoryMb ← optional isNull (asNatural (2 ^ 32)) members "min_memory_mb"
  some ⟨deployment, profiles, minMemoryMb⟩

def sourceFields : List String :=
  ["id", "name", "kind", "status", "free", "docker_service", "docker_profile", "image",
    "prerequisites"]

def decodeSource (v : Value) : Option SourceRecord := do
  let members ← asRecord sourceFields 5 v
  let id ← required Value.asStr members "id"
  let name ← required Value.asStr members "name"
  let kind ← required (asVariant sourceKinds) members "kind"
  let status ← required (asVariant sourceStatuses) members "status"
  let free ← required asBool members "free"
  let dockerService ← optional isNull Value.asStr members "docker_service"
  let dockerProfile ← optional isNull Value.asStr members "docker_profile"
  let image ← optional isNull Value.asStr members "image"
  let prerequisites ← defaulted asStrings members "prerequisites" []
  some ⟨⟨id, dockerService⟩, name, kind, status, free, dockerProfile, image, prerequisites⟩

def scenarioFields : List String :=
  ["id", "source_id", "title", "description", "difficulty", "tier", "status", "tags",
    "prerequisites", "init_sql", "shuttle_sql", "teardown_sql", "estimated_duration_s", "actions",
    "break_scenarios", "expected_outcomes"]

def decodeScenario (v : Value) : Option ScenarioRecord := do
  let members ← asRecord scenarioFields 9 v
  let id ← required Value.asStr members "id"
  let sourceId ← required Value.asStr members "source_id"
  let title ← required Value.asStr members "title"
  let description ← required Value.asStr members "description"
  let difficulty ← required (asVariant difficulties) members "difficulty"
  let tier ← required (asNatural (2 ^ 8)) members "tier"
  let status ← required (asVariant scenarioStatuses) members "status"
  let tags ← defaulted asStrings members "tags" []
  let prerequisites ← required decodePrerequisites members "prerequisites"
  let initSql ← optional isNull Value.asStr members "init_sql"
  let shuttleSql ← optional isNull Value.asStr members "shuttle_sql"
  let teardownSql ← optional isNull Value.asStr members "teardown_sql"
  let estimatedDurationS ← optional isNull (asNatural (2 ^ 32)) members "estimated_duration_s"
  let actions ← defaulted (asListOf (decodeAction forms)) members "actions" []
  let breakScenarios ← defaulted (asListOf (decodeAction forms)) members "break_scenarios" []
  let expectedOutcomes ←
    defaulted (asListOf (decodeOutcome forms)) members "expected_outcomes" []
  some ⟨id, sourceId, title, description, difficulty, tier, status, tags, prerequisites, initSql,
    shuttleSql, teardownSql, estimatedDurationS, actions, breakScenarios, expectedOutcomes⟩

def decodeManifest (v : Value) : Option ManifestRecord := do
  let members ← asRecord ["version", "sources", "scenarios"] 1 v
  let version ← required (asNatural (2 ^ 32)) members "version"
  let sources ← defaulted (asListOf decodeSource) members "sources" []
  let scenarios ← defaulted (asListOf (decodeScenario forms)) members "scenarios" []
  some ⟨version, sources, scenarios⟩

/-- `Manifest::parse`. -/
def parse (bytes : List UInt8) : Except ManifestError ManifestRecord :=
  match forms.readJson bytes with
  | .error source => .error (.parse "<memory>" source)
  | .ok v =>
    match decodeManifest forms v with
    | none => .error (.parse "<memory>" (forms.complaint v))
    | some m =>
      match validate m.manifest with
      | .error e => .error e
      | .ok () => .ok m

end Decoding

section Fitting

variable (forms : JsonForms)

/-- A value as `serde_json` keeps it, told from a missing one. -/
def Kept (v : Option Value) : Prop := ∀ w ∈ v, forms.canonical w = w ∧ isNull w = false

structure ActionFits (a : ActionRecord) : Prop where
  httpRequest : ∀ r ∈ a.httpRequest, Kept forms r.body
  repeatCount : ∀ n ∈ a.repeatCount, n < 2 ^ 32

/-- The numbers fit their types. -/
structure ScenarioFits (sc : ScenarioRecord) : Prop where
  tier : sc.tier < 2 ^ 8
  minMemoryMb : ∀ n ∈ sc.prerequisites.minMemoryMb, n < 2 ^ 32
  estimatedDurationS : ∀ n ∈ sc.estimatedDurationS, n < 2 ^ 32
  actions : ∀ a ∈ sc.actions, ActionFits forms a
  breakScenarios : ∀ a ∈ sc.breakScenarios, ActionFits forms a
  expectedOutcomes : ∀ o ∈ sc.expectedOutcomes, Kept forms o.value

structure ManifestFits (m : ManifestRecord) : Prop where
  version : m.version < 2 ^ 32
  scenarios : ∀ sc ∈ m.scenarios, ScenarioFits forms sc

end Fitting

section Writing

variable {forms : JsonForms} {α β : Type} {members : List (String × Value)} {name : String}
  {encode : α → Value} {decode : Value → Option α}

theorem bind_of {x : Option α} {f : α → Option β} {a : α} {b : β} (hx : x = some a)
    (hf : f a = some b) : (x >>= f) = some b := by
  rw [hx]
  exact hf

theorem optional_orNull {o : Option α} (h : Has members name (orNull encode o))
    (hread : ∀ a ∈ o, isNull (encode a) = false ∧ decode (encode a) = some a) :
    optional isNull decode members name = some o := by
  cases o with
  | none => exact optional_none (Or.inr ⟨.null, h, rfl⟩)
  | some a =>
    obtain ⟨hnull, hdecode⟩ := hread a rfl
    exact optional_some ⟨h, hnull⟩ hdecode

theorem optional_string {o : Option String} (h : Has members name (orNull .string o)) :
    optional isNull Value.asStr members name = some o :=
  optional_orNull h fun _ _ => ⟨rfl, rfl⟩

theorem optional_bool {o : Option Bool} (h : Has members name (orNull .bool o)) :
    optional isNull asBool members name = some o :=
  optional_orNull h fun _ _ => ⟨rfl, rfl⟩

theorem optional_natural {limit : ℕ} {o : Option ℕ} (h : Has members name (orNull natural o))
    (hlimit : ∀ n ∈ o, n < limit) : optional isNull (asNatural limit) members name = some o :=
  optional_orNull h fun n hn => ⟨rfl, asNatural_natural (hlimit n hn)⟩

theorem optional_variant {variants : Variants α} {o : Option α}
    (h : Has members name (orNull (encodeVariant variants) o)) :
    optional isNull (asVariant variants) members name = some o :=
  optional_orNull h fun a _ => ⟨rfl, asVariant_encode variants a⟩

theorem optional_any {o : Option Value} (h : Has members name (orNull id o))
    (hkept : Kept forms o) : optional isNull (asAny forms) members name = some o :=
  optional_orNull h fun v hv => ⟨(hkept v hv).2, congrArg some (hkept v hv).1⟩

theorem asListOf_map {items : List α} (h : ∀ a ∈ items, decode (encode a) = some a) :
    asListOf decode (.array (items.map encode)) = some items := by
  refine mapM_reads (R := fun a v => v = encode a) ?_ ?_ h
  · rintro a _ ha rfl
    exact ha
  · rw [List.forall₂_map_right_iff]
    exact List.forall₂_same.mpr fun _ _ => rfl

theorem asStrings_encode (items : List String) : asStrings (encodeStrings items) = some items :=
  asListOf_map fun _ _ => rfl

theorem required_string {s : String} (h : Has members name (.string s)) :
    required Value.asStr members name = some s := required_has h rfl

theorem required_bool {b : Bool} (h : Has members name (.bool b)) :
    required asBool members name = some b := required_has h rfl

theorem required_natural {limit n : ℕ} (h : Has members name (natural n)) (hlimit : n < limit) :
    required (asNatural limit) members name = some n := required_has h (asNatural_natural hlimit)

theorem required_variant {variants : Variants α} {a : α}
    (h : Has members name (encodeVariant variants a)) :
    required (asVariant variants) members name = some a :=
  required_has h (asVariant_encode variants a)

theorem defaulted_strings {items missing : List String}
    (h : Has members name (encodeStrings items)) :
    defaulted asStrings members name missing = some items :=
  defaulted_has h (asStrings_encode items)

theorem defaulted_list {items missing : List α}
    (h : Has members name (.array (items.map encode)))
    (hread : ∀ a ∈ items, decode (encode a) = some a) :
    defaulted (asListOf decode) members name missing = some items :=
  defaulted_has h (asListOf_map hread)

theorem decodeHttpRequest_encode {r : HttpRequest} (h : Kept forms r.body) :
    decodeHttpRequest forms (encodeHttpRequest r) = some r := by
  unfold decodeHttpRequest encodeHttpRequest
  refine bind_of (a := _) rfl ?_
  refine bind_of (a := r.method) (required_string (by simp)) ?_
  refine bind_of (a := r.url) (required_string (by simp)) ?_
  exact bind_of (a := r.body) (optional_any (by simp) h) rfl

theorem decodeOutcome_encode {o : ExpectedOutcome} (h : Kept forms o.value) :
    decodeOutcome forms (encodeOutcome o) = some o := by
  unfold decodeOutcome encodeOutcome
  refine bind_of (a := _) rfl ?_
  refine bind_of (a := o.metric) (required_string (by simp)) ?_
  refine bind_of (a := o.assertion) (required_string (by simp)) ?_
  exact bind_of (a := o.value) (optional_any (by simp) h) rfl

theorem decodeAction_encode {a : ActionRecord} (h : ActionFits forms a) :
    decodeAction forms (encodeAction a) = some a := by
  have hrequest : ∀ r ∈ a.httpRequest, isNull (encodeHttpRequest r) = false ∧
      decodeHttpRequest forms (encodeHttpRequest r) = some r :=
    fun r hr => ⟨rfl, decodeHttpRequest_encode (h.httpRequest r hr)⟩
  unfold decodeAction encodeAction
  refine bind_of (a := _) rfl ?_
  refine bind_of (a := a.id) (required_string (by simp)) ?_
  refine bind_of (a := a.label) (required_string (by simp)) ?_
  refine bind_of (a := a.description) (optional_string (by simp)) ?_
  refine bind_of (a := a.kind) (required_variant (by simp)) ?_
  refine bind_of (a := a.target) (optional_variant (by simp)) ?_
  refine bind_of (a := a.sql) (optional_string (by simp)) ?_
  refine bind_of (a := a.sqlFile) (optional_string (by simp)) ?_
  refine bind_of (a := a.shellCmd) (optional_string (by simp)) ?_
  refine bind_of (a := a.httpRequest) (optional_orNull (by simp) hrequest) ?_
  refine bind_of (a := a.payloadFile) (optional_string (by simp)) ?_
  refine bind_of (a := a.repeatCount) (optional_natural (by simp) h.repeatCount) ?_
  refine bind_of (a := a.expectedDlq) (optional_bool (by simp)) ?_
  exact bind_of (a := a.destructive) (optional_bool (by simp)) rfl

theorem decodePrerequisites_encode {p : Prerequisites} (h : ∀ n ∈ p.minMemoryMb, n < 2 ^ 32) :
    decodePrerequisites (encodePrerequisites p) = some p := by
  unfold decodePrerequisites encodePrerequisites
  refine bind_of (a := _) rfl ?_
  refine bind_of (a := p.deployment) (defaulted_list (by simp) fun d _ => asVariant_encode _ d) ?_
  refine bind_of (a := p.profiles) (defaulted_strings (by simp)) ?_
  exact bind_of (a := p.minMemoryMb) (optional_natural (by simp) h) rfl

theorem decodeSource_encode (s : SourceRecord) : decodeSource (encodeSource s) = some s := by
  unfold decodeSource encodeSource
  refine bind_of (a := _) rfl ?_
  refine bind_of (a := s.id) (required_string (by simp)) ?_
  refine bind_of (a := s.name) (required_string (by simp)) ?_
  refine bind_of (a := s.kind) (required_variant (by simp)) ?_
  refine bind_of (a := s.status) (required_variant (by simp)) ?_
  refine bind_of (a := s.free) (required_bool (by simp)) ?_
  refine bind_of (a := s.dockerService) (optional_string (by simp)) ?_
  refine bind_of (a := s.dockerProfile) (optional_string (by simp)) ?_
  refine bind_of (a := s.image) (optional_string (by simp)) ?_
  exact bind_of (a := s.prerequisites) (defaulted_strings (by simp)) rfl

theorem decodeScenario_encode {sc : ScenarioRecord} (h : ScenarioFits forms sc) :
    decodeScenario forms (encodeScenario sc) = some sc := by
  unfold decodeScenario encodeScenario
  refine bind_of (a := _) rfl ?_
  refine bind_of (a := sc.id) (required_string (by simp)) ?_
  refine bind_of (a := sc.sourceId) (required_string (by simp)) ?_
  refine bind_of (a := sc.title) (required_string (by simp)) ?_
  refine bind_of (a := sc.description) (required_string (by simp)) ?_
  refine bind_of (a := sc.difficulty) (required_variant (by simp)) ?_
  refine bind_of (a := sc.tier) (required_natural (by simp) h.tier) ?_
  refine bind_of (a := sc.status) (required_variant (by simp)) ?_
  refine bind_of (a := sc.tags) (defaulted_strings (by simp)) ?_
  refine bind_of (a := sc.prerequisites)
    (required_has (by simp) (decodePrerequisites_encode h.minMemoryMb)) ?_
  refine bind_of (a := sc.initSql) (optional_string (by simp)) ?_
  refine bind_of (a := sc.shuttleSql) (optional_string (by simp)) ?_
  refine bind_of (a := sc.teardownSql) (optional_string (by simp)) ?_
  refine bind_of (a := sc.estimatedDurationS)
    (optional_natural (by simp) h.estimatedDurationS) ?_
  refine bind_of (a := sc.actions)
    (defaulted_list (by simp) fun a ha => decodeAction_encode (h.actions a ha)) ?_
  refine bind_of (a := sc.breakScenarios)
    (defaulted_list (by simp) fun a ha => decodeAction_encode (h.breakScenarios a ha)) ?_
  exact bind_of (a := sc.expectedOutcomes)
    (defaulted_list (by simp) fun o ho => decodeOutcome_encode (h.expectedOutcomes o ho)) rfl

theorem decodeManifest_members {m : ManifestRecord} (hm : ManifestFits forms m)
    {members : List (String × Value)} (hversion : Has members "version" (natural m.version))
    (hsources : Has members "sources" (.array (m.sources.map encodeSource)))
    (hscenarios : Has members "scenarios" (.array (m.scenarios.map encodeScenario))) :
    decodeManifest forms (.object members) = some m := by
  unfold decodeManifest
  refine bind_of (a := members) rfl ?_
  refine bind_of (a := m.version) (required_natural hversion hm.version) ?_
  refine bind_of (a := m.sources) (defaulted_list hsources fun s _ => decodeSource_encode s) ?_
  exact bind_of (a := m.scenarios)
    (defaulted_list hscenarios fun sc hsc => decodeScenario_encode (hm.scenarios sc hsc)) rfl

end Writing

section Reading

variable {forms : JsonForms} {α : Type} {members : List (String × Value)} {name : String}
  {decode : Value → Option α} {P : α → Prop} {v : Value}

theorem of_bind {β : Type} {x : Option α} {f : α → Option β} {b : β} (h : (x >>= f) = some b) :
    ∃ a, x = some a ∧ f a = some b := Option.bind_eq_some_iff.mp h

theorem asNatural_lt {limit n : ℕ} (h : asNatural limit v = some n) : n < limit := by
  cases v with
  | number text => exact parseUnsigned_lt h
  | _ => cases h

theorem required_lt {limit n : ℕ} (h : required (asNatural limit) members name = some n) :
    n < limit := by
  unfold required at h
  split at h
  · exact asNatural_lt h
  · cases h

theorem optional_forall (hread : ∀ v a, isNull v = false → decode v = some a → P a) {o : Option α}
    (h : optional isNull decode members name = some o) : ∀ a ∈ o, P a := by
  rintro a rfl
  obtain ⟨v, hnull, hv⟩ := optional_read h
  exact hread v a hnull hv

theorem mapM_forall (hread : ∀ v a, decode v = some a → P a) {items : List Value} {as : List α}
    (h : items.mapM decode = some as) : ∀ a ∈ as, P a := by
  induction items generalizing as with
  | nil =>
    cases h
    exact fun a ha => absurd ha List.not_mem_nil
  | cons v items ih =>
    simp only [List.mapM_cons, Option.bind_eq_bind, Option.bind_eq_some_iff, Option.pure_def,
      Option.some.injEq] at h
    obtain ⟨a, ha, rest, hrest, rfl⟩ := h
    exact List.forall_mem_cons.mpr ⟨hread v a ha, ih hrest⟩

theorem defaulted_forall (hread : ∀ v a, decode v = some a → P a) {as : List α}
    (h : defaulted (asListOf decode) members name [] = some as) : ∀ a ∈ as, P a := by
  unfold defaulted at h
  split at h
  · cases h
  · cases h
    exact fun a ha => absurd ha List.not_mem_nil
  · unfold asListOf at h
    split at h
    · exact mapM_forall hread h
    · cases h

theorem optional_kept {o : Option Value}
    (h : optional isNull (asAny forms) members name = some o) : Kept forms o := by
  refine optional_forall (fun v w hnull hw => ?_) h
  cases hw
  exact ⟨forms.canonical_canonical v, (forms.isNull_canonical v).trans hnull⟩

theorem decodeHttpRequest_fits {r : HttpRequest} (h : decodeHttpRequest forms v = some r) :
    Kept forms r.body := by
  obtain ⟨members, -, h⟩ := of_bind h
  obtain ⟨method, -, h⟩ := of_bind h
  obtain ⟨url, -, h⟩ := of_bind h
  obtain ⟨body, hbody, h⟩ := of_bind h
  cases h
  exact optional_kept hbody

theorem decodeOutcome_fits {o : ExpectedOutcome} (h : decodeOutcome forms v = some o) :
    Kept forms o.value := by
  obtain ⟨members, -, h⟩ := of_bind h
  obtain ⟨metric, -, h⟩ := of_bind h
  obtain ⟨assertion, -, h⟩ := of_bind h
  obtain ⟨value, hvalue, h⟩ := of_bind h
  cases h
  exact optional_kept hvalue

theorem decodeAction_fits {a : ActionRecord} (h : decodeAction forms v = some a) :
    ActionFits forms a := by
  obtain ⟨members, -, h⟩ := of_bind h
  obtain ⟨id, -, h⟩ := of_bind h
  obtain ⟨label, -, h⟩ := of_bind h
  obtain ⟨description, -, h⟩ := of_bind h
  obtain ⟨kind, -, h⟩ := of_bind h
  obtain ⟨target, -, h⟩ := of_bind h
  obtain ⟨sql, -, h⟩ := of_bind h
  obtain ⟨sqlFile, -, h⟩ := of_bind h
  obtain ⟨shellCmd, -, h⟩ := of_bind h
  obtain ⟨httpRequest, hrequest, h⟩ := of_bind h
  obtain ⟨payloadFile, -, h⟩ := of_bind h
  obtain ⟨repeatCount, hrepeat, h⟩ := of_bind h
  obtain ⟨expectedDlq, -, h⟩ := of_bind h
  obtain ⟨destructive, -, h⟩ := of_bind h
  cases h
  exact ⟨optional_forall (fun _ _ _ hr => decodeHttpRequest_fits hr) hrequest,
    optional_forall (fun _ _ _ hn => asNatural_lt hn) hrepeat⟩

theorem decodePrerequisites_fits {p : Prerequisites} (h : decodePrerequisites v = some p) :
    ∀ n ∈ p.minMemoryMb, n < 2 ^ 32 := by
  obtain ⟨members, -, h⟩ := of_bind h
  obtain ⟨deployment, -, h⟩ := of_bind h
  obtain ⟨profiles, -, h⟩ := of_bind h
  obtain ⟨minMemoryMb, hmemory, h⟩ := of_bind h
  cases h
  exact optional_forall (fun _ _ _ hn => asNatural_lt hn) hmemory

theorem required_prerequisites {p : Prerequisites}
    (h : required decodePrerequisites members name = some p) :
    ∀ n ∈ p.minMemoryMb, n < 2 ^ 32 := by
  unfold required at h
  split at h
  · exact decodePrerequisites_fits h
  · cases h

theorem decodeScenario_fits {sc : ScenarioRecord} (h : decodeScenario forms v = some sc) :
    ScenarioFits forms sc := by
  obtain ⟨members, -, h⟩ := of_bind h
  obtain ⟨id, -, h⟩ := of_bind h
  obtain ⟨sourceId, -, h⟩ := of_bind h
  obtain ⟨title, -, h⟩ := of_bind h
  obtain ⟨description, -, h⟩ := of_bind h
  obtain ⟨difficulty, -, h⟩ := of_bind h
  obtain ⟨tier, htier, h⟩ := of_bind h
  obtain ⟨status, -, h⟩ := of_bind h
  obtain ⟨tags, -, h⟩ := of_bind h
  obtain ⟨prerequisites, hprerequisites, h⟩ := of_bind h
  obtain ⟨initSql, -, h⟩ := of_bind h
  obtain ⟨shuttleSql, -, h⟩ := of_bind h
  obtain ⟨teardownSql, -, h⟩ := of_bind h
  obtain ⟨estimatedDurationS, hduration, h⟩ := of_bind h
  obtain ⟨actions, hactions, h⟩ := of_bind h
  obtain ⟨breakScenarios, hbreaks, h⟩ := of_bind h
  obtain ⟨expectedOutcomes, houtcomes, h⟩ := of_bind h
  cases h
  exact
    { tier := required_lt htier
      minMemoryMb := required_prerequisites hprerequisites
      estimatedDurationS := optional_forall (fun _ _ _ hn => asNatural_lt hn) hduration
      actions := defaulted_forall (fun _ _ ha => decodeAction_fits ha) hactions
      breakScenarios := defaulted_forall (fun _ _ ha => decodeAction_fits ha) hbreaks
      expectedOutcomes := defaulted_forall (fun _ _ ho => decodeOutcome_fits ho) houtcomes }

/-- What is read from any document fits. -/
theorem decodeManifest_fits {m : ManifestRecord} (h : decodeManifest forms v = some m) :
    ManifestFits forms m := by
  obtain ⟨members, -, h⟩ := of_bind h
  obtain ⟨version, hversion, h⟩ := of_bind h
  obtain ⟨sources, -, h⟩ := of_bind h
  obtain ⟨scenarios, hscenarios, h⟩ := of_bind h
  cases h
  exact ⟨required_lt hversion, defaulted_forall (fun _ _ hsc => decodeScenario_fits hsc)
    hscenarios⟩

theorem parse_ok {bytes : List UInt8} {m : ManifestRecord} (h : parse forms bytes = .ok m) :
    ManifestFits forms m ∧ Valid m.manifest := by
  unfold parse at h
  split at h
  · cases h
  · split at h
    · cases h
    · rename_i hdecode
      split at h
      · cases h
      · rename_i hvalid
        cases h
        exact ⟨decodeManifest_fits hdecode, validate_ok.mp hvalid⟩

end Reading

end PlaygroundManifestCodec
