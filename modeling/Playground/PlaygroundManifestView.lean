import Playground.PlaygroundHandlers
import Playground.PlaygroundManifestCodec

/-! # What the manifest endpoint serves

`get_manifest` filters the loaded manifest for the deployment. A client that reads the answer as a
manifest sees the scenarios and the actions that the session handlers accept. -/
namespace PlaygroundManifestView

open PlaygroundHandlers
open PlaygroundManifest
open PlaygroundManifestCodec
open PlaygroundManifestValidation
open PlaygroundOperations
open PlaygroundSessionCodec
open PlaygroundSessionManager
open PlaygroundSessions
open RecordFields

def encodeConfig (enabled : Bool) (defaultTtl : ℕ) : Value :=
  .object [("enabled", .bool enabled), ("default_ttl_seconds", natural (asSecs defaultTtl)),
    ("min_ttl_seconds", natural (asSecs minTtl)), ("max_ttl_seconds", natural (asSecs maxTtl)),
    ("requires_auth", .bool true)]

def encodeView (version : ℕ) (deployment : Deployment) (sources scenarios : List Value)
    (config : Value) : Value :=
  .object [("version", natural version), ("deployment", .string (deploymentStr deployment)),
    ("sources", .array sources), ("scenarios", .array scenarios), ("config", config)]

/-- The scenarios the deployment allows. -/
def visible (env : ServerEnv) (record : ManifestRecord) : List ScenarioRecord :=
  record.scenarios.filter fun sc => sc.scenario.allowedIn (deploymentOf env)

/-- The manager with all fields of its manifest; `none` without a manifest. -/
def getManifest (env : ServerEnv) : Option (SessionManager × ManifestRecord) → Value
  | none => encodeView 0 (deploymentOf env) [] [] (encodeConfig false 0)
  | some (mgr, record) => encodeView record.version (deploymentOf env)
      (record.sources.map encodeSource) ((visible env record).map encodeScenario)
      (encodeConfig mgr.enabled mgr.defaultTtl)

/-- What a client reads from the answer. -/
def shown (env : ServerEnv) (record : ManifestRecord) : ManifestRecord :=
  { record with scenarios := visible env record }

variable {forms : JsonForms} {env : ServerEnv} {record : ManifestRecord} {mgr : SessionManager}

theorem decode_served (h : ManifestFits forms record) :
    decodeManifest forms (getManifest env (some (mgr, record))) = some (shown env record) := by
  have hfits : ManifestFits forms (shown env record) :=
    ⟨h.version, fun sc hsc => h.scenarios sc (List.mem_of_mem_filter hsc)⟩
  unfold getManifest encodeView
  refine decodeManifest_members hfits ?_ ?_ ?_
  · simp [shown]
  · simp [shown]
  · simp [shown]

theorem mem_shown {sc : Scenario} :
    sc ∈ (shown env record).manifest.scenarios ↔
      sc ∈ record.manifest.scenarios ∧ sc.allowedIn (deploymentOf env) = true := by
  simp only [shown, ManifestRecord.manifest, visible, List.mem_map, List.mem_filter]
  constructor
  · rintro ⟨r, ⟨hr, hallowed⟩, rfl⟩
    exact ⟨⟨r, hr, rfl⟩, hallowed⟩
  · rintro ⟨⟨r, hr, rfl⟩, hallowed⟩
    exact ⟨r, ⟨hr, hallowed⟩, rfl⟩

theorem valid_shown (h : Valid record.manifest) : Valid (shown env record).manifest where
  version := h.version
  sources := h.sources
  scenarios := by
    refine List.Nodup.sublist ?_ h.scenarios
    exact ((List.filter_sublist).map ScenarioRecord.scenario).map Scenario.id
  source sc hsc := h.source sc (mem_shown.mp hsc).1
  actions sc hsc := h.actions sc (mem_shown.mp hsc).1
  payload sc hsc := h.payload sc (mem_shown.mp hsc).1

theorem scenario_iff {m : Manifest} (h : Valid m) {id : String} {sc : Scenario} :
    m.scenario id = some sc ↔ sc ∈ m.scenarios ∧ sc.id = id := by
  constructor
  · intro hfound
    exact ⟨List.mem_of_find?_eq_some hfound, by simpa using List.find?_some hfound⟩
  · rintro ⟨hsc, rfl⟩
    exact h.scenario_found hsc

theorem startable_iff (h : Valid record.manifest) (henv : env.manifest = record.manifest)
    {body : CreateSessionBody} {sc : Scenario} :
    startable env body = .ok sc ↔
      sc ∈ (shown env record).manifest.scenarios ∧ sc.id = body.scenarioId := by
  unfold startable
  rw [henv]
  cases hfound : record.manifest.scenario body.scenarioId with
  | none =>
    constructor
    · intro hok
      cases hok
    · rintro ⟨hsc, hid⟩
      rw [(scenario_iff h).mpr ⟨(mem_shown.mp hsc).1, hid⟩] at hfound
      cases hfound
  | some found =>
    obtain ⟨hmem, hid⟩ := (scenario_iff h).mp hfound
    have hallowed : found.allowedIn (deploymentOf env) = true ↔
        found ∈ (shown env record).manifest.scenarios :=
      ⟨fun hall => mem_shown.mpr ⟨hmem, hall⟩, fun hsc => (mem_shown.mp hsc).2⟩
    have hsame : sc ∈ (shown env record).manifest.scenarios → sc.id = body.scenarioId →
        sc = found := fun hsc hsid =>
      (member_of_id h.scenarios hmem (mem_shown.mp hsc).1).mp (hsid.trans hid.symm)
    dsimp only
    split
    · rename_i hall
      constructor
      · intro hok
        cases hok
        exact ⟨hallowed.mp hall, hid⟩
      · rintro ⟨hsc, hsid⟩
        rw [hsame hsc hsid]
    · rename_i hall
      constructor
      · intro hok
        cases hok
      · rintro ⟨hsc, hsid⟩
        rw [hsame hsc hsid] at hsc
        exact absurd (hallowed.mpr hsc) hall

/-- Whatever file was loaded, a client that reads the answer of the manifest endpoint as a manifest
has all fields of the loaded one, less the scenarios that no session can be started with. What it
has is valid again, and every one of its actions is found in its scenario. -/
theorem served_manifest_matches_sessions (mgr : SessionManager) {bytes : List UInt8}
    (hload : parse forms bytes = .ok record) (henv : env.manifest = record.manifest) :
    ∃ seen, decodeManifest forms (getManifest env (some (mgr, record))) = some seen ∧
      seen = { record with
        scenarios := record.scenarios.filter fun sc => sc.scenario.allowedIn (deploymentOf env) } ∧
      validate seen.manifest = .ok () ∧
      (∀ body sc, startable env body = .ok sc ↔
        sc ∈ seen.manifest.scenarios ∧ sc.id = body.scenarioId) ∧
      ∀ sc ∈ seen.manifest.scenarios, ∀ a ∈ sc.actions ++ sc.breakScenarios,
        sc.action a.id = some a := by
  obtain ⟨hfits, hvalid⟩ := parse_ok hload
  have hseen : Valid (shown env record).manifest := valid_shown hvalid
  refine ⟨shown env record, decode_served hfits, rfl, validate_ok.mpr hseen,
    fun body sc => startable_iff hvalid henv, fun sc hsc a ha => ?_⟩
  exact find?_member (hseen.actions sc hsc) ha

section Example

def demoSource : SourceRecord :=
  ⟨⟨"postgres", some "postgres"⟩, "PostgreSQL", .cdc, .stable, true, none, none, []⟩

def demoAction : ActionRecord :=
  ⟨⟨"insert", .sql, some .source, some "SELECT 1", none, none, none, none, some 2⟩, "Insert", none,
    none, none⟩

def demoScenario (id : String) (deployment : Deployment) : ScenarioRecord where
  id := id
  sourceId := "postgres"
  title := "Orders"
  description := "Orders in postgres"
  difficulty := .beginner
  tier := 1
  status := .stable
  tags := []
  prerequisites := ⟨[deployment], [], none⟩
  initSql := none
  shuttleSql := none
  teardownSql := none
  estimatedDurationS := none
  actions := [demoAction]
  breakScenarios := []
  expectedOutcomes := []

def demoRecord : ManifestRecord :=
  ⟨1, [demoSource], [demoScenario "orders" .cloud, demoScenario "local" .dev]⟩

def demoForms : JsonForms where
  readJson _ := .ok (.object [("version", natural 1),
    ("sources", .array (demoRecord.sources.map encodeSource)),
    ("scenarios", .array (demoRecord.scenarios.map encodeScenario))])
  complaint _ := "invalid manifest"
  canonical v := v
  canonical_canonical _ := rfl
  isNull_canonical _ := rfl

theorem demo_fits : ManifestFits demoForms demoRecord where
  version := by decide
  scenarios := by
    have haction : ActionFits demoForms demoAction := ⟨by simp [demoAction], by simp [demoAction]⟩
    have hscenario : ∀ id deployment, ScenarioFits demoForms (demoScenario id deployment) :=
      fun id deployment => ⟨by simp [demoScenario], by simp [demoScenario], by simp [demoScenario],
        by simpa [demoScenario] using haction, by simp [demoScenario], by simp [demoScenario]⟩
    simpa [demoRecord] using ⟨hscenario _ _, hscenario _ _⟩

theorem demo_parses : parse demoForms [] = .ok demoRecord := by
  have hvalid : validate demoRecord.manifest = .ok () := by decide +kernel
  have hdecode : decodeManifest demoForms (.object [("version", natural 1),
      ("sources", .array (demoRecord.sources.map encodeSource)),
      ("scenarios", .array (demoRecord.scenarios.map encodeScenario))]) = some demoRecord := by
    refine decodeManifest_members demo_fits ?_ ?_ ?_
    · simp [demoRecord]
    · simp
    · simp
  simp only [parse, demoForms] at hdecode ⊢
  rw [hdecode]
  dsimp only
  rw [hvalid]

def demoEnv : ServerEnv := { configured with manifest := demoRecord.manifest }

/-- Of the two scenarios the cloud serves one, and this one can be started. -/
theorem served_manifest_matches_sessions_demo : ∃ seen,
    decodeManifest demoForms (getManifest demoEnv
      (some (.new demoRecord.manifest true defaultTtl, demoRecord))) = some seen ∧
    seen.sources = [demoSource] ∧ seen.scenarios = [demoScenario "orders" .cloud] ∧
    ∃ sc, startable demoEnv ⟨"orders", none⟩ = .ok sc ∧ sc ∈ seen.manifest.scenarios := by
  have henv : demoEnv.manifest = demoRecord.manifest := rfl
  obtain ⟨seen, hseen, hsame, -, hstart, -⟩ := served_manifest_matches_sessions
    (.new demoRecord.manifest true defaultTtl) demo_parses henv
  have hok : startable demoEnv ⟨"orders", none⟩ =
      .ok (demoScenario "orders" .cloud).scenario := rfl
  refine ⟨seen, hseen, ?_, ?_, _, hok, ((hstart _ _).mp hok).1⟩
  · rw [hsame]
    rfl
  · rw [hsame]
    rfl

end Example

end PlaygroundManifestView
