import Playground.PlaygroundManifest
import Mathlib.Data.List.Nodup

/-! # Manifest validation

`Manifest::validate` with its loops over ids, and exactly what they accept. -/
namespace PlaygroundManifestValidation

open PlaygroundManifest

/-- Reading and parsing the file are outside. -/
inductive ManifestError where
  | io (path source : String)
  | parse (path source : String)
  | validation (message : String)
  deriving DecidableEq, Repr

def ManifestError.text : ManifestError → String
  | .io path source => "reading manifest at " ++ path ++ ": " ++ source
  | .parse path source => "parsing manifest at " ++ path ++ ": " ++ source
  | .validation message => "validation failed: " ++ message

def kindDebug : ActionKind → String
  | .sql => "Sql"
  | .shell => "Shell"
  | .http => "Http"
  | .produceKafka => "ProduceKafka"
  | .uploadFile => "UploadFile"
  | .toxiproxy => "Toxiproxy"
  | .resetSnapshot => "ResetSnapshot"

def missingPayload (a : Action) : Bool :=
  match a.kind with
  | .sql => a.sql.isNone && a.sqlFile.isNone
  | .http => a.httpRequest.isNone
  | .shell | .toxiproxy | .resetSnapshot => a.shellCmd.isNone
  | .produceKafka | .uploadFile => a.payloadFile.isNone

def validateAction (scenarioId : String) (a : Action) : Except ManifestError Unit :=
  if missingPayload a then
    .error (.validation ("scenario " ++ scenarioId ++ " action " ++ a.id ++
      " is missing the payload required for kind " ++ kindDebug a.kind))
  else .ok ()

section Loops

variable {α : Type}

/-- A loop that inserts the id of each item into a set and checks the item itself. It fails on
the first item whose id is in the set or whose check fails. -/
def checkItems (id : α → String) (duplicate : α → ManifestError)
    (check : α → Except ManifestError Unit) (seen : List String) :
    List α → Except ManifestError Unit
  | [] => .ok ()
  | x :: rest =>
    if seen.contains (id x) then .error (duplicate x)
    else
      match check x with
      | .error e => .error e
      | .ok () => checkItems id duplicate check (id x :: seen) rest

end Loops

def validateActions (sc : Scenario) : Except ManifestError Unit :=
  checkItems Action.id
    (fun a => .validation ("scenario " ++ sc.id ++ " has duplicate action id " ++ a.id))
    (validateAction sc.id) [] (sc.actions ++ sc.breakScenarios)

def validateScenario (sourceIds : List String) (sc : Scenario) : Except ManifestError Unit :=
  if sourceIds.contains sc.sourceId then validateActions sc
  else .error (.validation ("scenario " ++ sc.id ++ " references unknown source_id " ++
    sc.sourceId))

def validate (m : Manifest) : Except ManifestError Unit :=
  if m.version ≠ 1 then
    .error (.validation ("manifest version " ++ toString m.version ++
      " not supported (expected 1)"))
  else
    match checkItems Source.id (fun s => .validation ("duplicate source id: " ++ s.id))
        (fun _ => .ok ()) [] m.sources with
    | .error e => .error e
    | .ok () =>
      checkItems Scenario.id (fun sc => .validation ("duplicate scenario id: " ++ sc.id))
        (validateScenario (m.sources.map Source.id)) [] m.scenarios

structure Valid (m : Manifest) : Prop where
  version : m.version = 1
  sources : (m.sources.map Source.id).Nodup
  scenarios : (m.scenarios.map Scenario.id).Nodup
  source : ∀ sc ∈ m.scenarios, sc.sourceId ∈ m.sources.map Source.id
  actions : ∀ sc ∈ m.scenarios, ((sc.actions ++ sc.breakScenarios).map Action.id).Nodup
  payload : ∀ sc ∈ m.scenarios, ∀ a ∈ sc.actions ++ sc.breakScenarios, missingPayload a = false

section Accepted

variable {α : Type} {id : α → String} {duplicate : α → ManifestError}
  {check : α → Except ManifestError Unit}

theorem checkItems_ok {seen : List String} {items : List α} :
    checkItems id duplicate check seen items = .ok () ↔
      (items.map id).Nodup ∧ (∀ x ∈ items, id x ∉ seen) ∧ ∀ x ∈ items, check x = .ok () := by
  induction items generalizing seen with
  | nil => simp [checkItems]
  | cons x rest ih =>
    simp only [checkItems, List.map_cons, List.nodup_cons, List.forall_mem_cons,
      List.contains_iff_mem]
    by_cases hseen : id x ∈ seen
    · simp [hseen]
    rw [if_neg hseen]
    cases hcheck : check x with
    | error e => simp
    | ok _ =>
      dsimp only
      rw [ih]
      constructor
      · rintro ⟨hnodup, hfresh, hrest⟩
        have hx : id x ∉ rest.map id := by
          intro hmem
          obtain ⟨y, hy, heq⟩ := List.mem_map.mp hmem
          exact hfresh y hy (heq ▸ List.mem_cons_self)
        exact ⟨⟨hx, hnodup⟩, ⟨hseen, fun y hy h => hfresh y hy (List.mem_cons_of_mem _ h)⟩,
          rfl, hrest⟩
      · rintro ⟨⟨hx, hnodup⟩, ⟨-, hfresh⟩, -, hrest⟩
        refine ⟨hnodup, fun y hy h => ?_, hrest⟩
        rcases List.mem_cons.mp h with heq | h
        · exact hx (heq ▸ List.mem_map_of_mem hy)
        · exact hfresh y hy h

theorem checkItems_start {items : List α} :
    checkItems id duplicate check [] items = .ok () ↔
      (items.map id).Nodup ∧ ∀ x ∈ items, check x = .ok () := by
  rw [checkItems_ok]
  simp

end Accepted

theorem validateAction_ok {scenarioId : String} {a : Action} :
    validateAction scenarioId a = .ok () ↔ missingPayload a = false := by
  unfold validateAction
  cases missingPayload a <;> simp

theorem validateScenario_ok {sourceIds : List String} {sc : Scenario} :
    validateScenario sourceIds sc = .ok () ↔ sc.sourceId ∈ sourceIds ∧
      ((sc.actions ++ sc.breakScenarios).map Action.id).Nodup ∧
      ∀ a ∈ sc.actions ++ sc.breakScenarios, missingPayload a = false := by
  by_cases hsource : sc.sourceId ∈ sourceIds
  · rw [validateScenario, if_pos (List.contains_iff_mem.mpr hsource), validateActions,
      checkItems_start]
    simp only [validateAction_ok, hsource, true_and]
  · simp [validateScenario, hsource]

theorem validate_ok {m : Manifest} : validate m = .ok () ↔ Valid m := by
  unfold validate
  by_cases hversion : m.version = 1
  · rw [if_neg (by simp [hversion])]
    cases hsources : checkItems Source.id
        (fun s => ManifestError.validation ("duplicate source id: " ++ s.id))
        (fun _ => Except.ok ()) [] m.sources with
    | error e =>
      constructor
      · intro h
        cases h
      · intro h
        rw [checkItems_start.mpr ⟨h.sources, fun _ _ => rfl⟩] at hsources
        cases hsources
    | ok _ =>
      dsimp only
      rw [checkItems_start]
      simp only [validateScenario_ok]
      constructor
      · rintro ⟨hscenarios, hall⟩
        exact ⟨hversion, (checkItems_start.mp hsources).1, hscenarios, fun sc h => (hall sc h).1,
          fun sc h => (hall sc h).2.1, fun sc h => (hall sc h).2.2⟩
      · intro h
        exact ⟨h.scenarios, fun sc hsc => ⟨h.source sc hsc, h.actions sc hsc, h.payload sc hsc⟩⟩
  · rw [if_pos hversion]
    constructor
    · intro h
      cases h
    · intro h
      exact absurd h.version hversion

-- What the lookups by id find in an accepted manifest.
section Lookups

variable {α : Type} {id : α → String} {items : List α} {x : α}

theorem find?_member (h : (items.map id).Nodup) (hx : x ∈ items) :
    items.find? (fun y => id y == id x) = some x := by
  induction items with
  | nil => cases hx
  | cons y rest ih =>
    rw [List.map_cons, List.nodup_cons] at h
    rcases List.mem_cons.mp hx with rfl | hrest
    · exact List.find?_cons_of_pos (by simp)
    · have hne : id y ≠ id x := by
        intro heq
        apply h.1
        rw [heq]
        exact List.mem_map_of_mem hrest
      rw [List.find?_cons_of_neg (by simpa using hne)]
      exact ih h.2 hrest

theorem member_of_id (h : (items.map id).Nodup) (hx : x ∈ items) {y : α} (hy : y ∈ items) :
    id y = id x ↔ y = x := by
  constructor
  · intro heq
    exact List.inj_on_of_nodup_map h hy hx heq
  · rintro rfl
    rfl

variable {m : Manifest} {sc : Scenario}

theorem Valid.scenario_found (h : Valid m) (hsc : sc ∈ m.scenarios) :
    m.scenario sc.id = some sc := find?_member h.scenarios hsc

theorem Valid.source_found (h : Valid m) (hsc : sc ∈ m.scenarios) :
    ∃ src ∈ m.sources, m.source sc.sourceId = some src ∧
      ∀ s ∈ m.sources, s.id = sc.sourceId ↔ s = src := by
  obtain ⟨src, hsrc, hid⟩ := List.mem_map.mp (h.source sc hsc)
  refine ⟨src, hsrc, ?_, ?_⟩
  · rw [← hid]
    exact find?_member h.sources hsrc
  · intro s hs
    rw [← hid]
    exact member_of_id h.sources hsrc hs

theorem Valid.action_found (h : Valid m) (hsc : sc ∈ m.scenarios) {a : Action}
    (ha : a ∈ sc.actions ++ sc.breakScenarios) : sc.action a.id = some a :=
  find?_member (h.actions sc hsc) ha

end Lookups

def HasPayload (a : Action) : Prop :=
  match a.kind with
  | .sql => a.sql.isSome ∨ a.sqlFile.isSome
  | .http => a.httpRequest.isSome
  | .shell | .toxiproxy | .resetSnapshot => a.shellCmd.isSome
  | .produceKafka | .uploadFile => a.payloadFile.isSome

theorem missingPayload_false {a : Action} : missingPayload a = false ↔ HasPayload a := by
  have hfield : ∀ {β : Type} (o : Option β), o.isNone = false ↔ o.isSome = true := by
    intro β o
    cases o <;> simp
  unfold missingPayload HasPayload
  cases a.kind with
  | sql => simp only [Bool.and_eq_false_iff, hfield]
  | http | shell | toxiproxy | resetSnapshot | produceKafka | uploadFile => exact hfield _

/-- The loops accept exactly the manifests whose ids are distinct, whose scenarios name a source
and whose actions have their payloads; there each lookup by id finds the one it is asked for. -/
theorem validate_exact (m : Manifest) :
    (validate m = .ok () ↔ m.version = 1 ∧ (m.sources.map Source.id).Nodup ∧
      (m.scenarios.map Scenario.id).Nodup ∧ ∀ sc ∈ m.scenarios,
        (∃ src ∈ m.sources, src.id = sc.sourceId) ∧
        ((sc.actions ++ sc.breakScenarios).map Action.id).Nodup ∧
        ∀ a ∈ sc.actions ++ sc.breakScenarios, HasPayload a) ∧
    (validate m = .ok () → ∀ sc ∈ m.scenarios, m.scenario sc.id = some sc ∧
      (∃ src ∈ m.sources, m.source sc.sourceId = some src ∧
        ∀ s ∈ m.sources, s.id = sc.sourceId ↔ s = src) ∧
      ∀ a ∈ sc.actions ++ sc.breakScenarios, sc.action a.id = some a) := by
  rw [validate_ok]
  constructor
  · constructor
    · intro h
      refine ⟨h.version, h.sources, h.scenarios, ?_⟩
      intro sc hsc
      refine ⟨List.mem_map.mp (h.source sc hsc), h.actions sc hsc, ?_⟩
      intro a ha
      exact missingPayload_false.mp (h.payload sc hsc a ha)
    · rintro ⟨hversion, hsources, hscenarios, hall⟩
      exact {
        version := hversion
        sources := hsources
        scenarios := hscenarios
        source := fun sc hsc => List.mem_map.mpr (hall sc hsc).1
        actions := fun sc hsc => (hall sc hsc).2.1
        payload := fun sc hsc a ha => missingPayload_false.mpr ((hall sc hsc).2.2 a ha) }
  · intro h sc hsc
    exact ⟨h.scenario_found hsc, h.source_found hsc, fun a ha => h.action_found hsc ha⟩

end PlaygroundManifestValidation
