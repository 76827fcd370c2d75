import Playground.PlaygroundActions
import Playground.PlaygroundManifestValidation

/-! # The action whitelist

What `execute_action` runs on a validated manifest. The executors are split into looking up
the payload that the kind requires, which may be missing, and running it. -/
namespace PlaygroundWhitelist

open InteractionPrograms
open PlaygroundActions
open PlaygroundApiClient
open PlaygroundHandlers
open PlaygroundManagerRuns
open PlaygroundManifest (Action ActionKind HttpRequest Scenario)
open PlaygroundManifestValidation
open PlaygroundOperations
open PlaygroundSessions
open PlaygroundTemplates

/-- What an executor needs from its action. -/
inductive Payload where
  | sql (text : String)
  | sqlFile (path : String)
  | http (req : HttpRequest)
  | shell (cmd : String)
  | produce (file : String) (repeatCount : ℕ)
  | upload (file : String)

def payloadOf (a : Action) : Option Payload :=
  match a.kind with
  | .sql =>
    match a.sql, a.sqlFile with
    | some text, _ => some (.sql text)
    | none, some path => some (.sqlFile path)
    | none, none => none
  | .http => a.httpRequest.map .http
  | .shell | .toxiproxy | .resetSnapshot => a.shellCmd.map .shell
  | .produceKafka => a.payloadFile.map fun file => .produce file (a.repeatCount.getD 1)
  | .uploadFile => a.payloadFile.map .upload

def missingText : ActionKind → String
  | .sql => "sql action missing sql or sql_file"
  | .http => "http action missing http_request"
  | .shell | .toxiproxy | .resetSnapshot => "missing shell_cmd"
  | .produceKafka | .uploadFile => "missing payload_file"

section Executors

variable (env : ServerEnv) (identity : Identity) (session : Session) (action : Action)

/-- The executors without their branches for a missing payload. -/
def runPayload : Payload → Handler (Except String ActionOutcome)
  | .sql text => runSqlOn env identity session action (substitutePlaceholders env text session)
  | .sqlFile path => do
    match ← readExampleFile env path with
    | .error e => .done (.error e)
    | .ok text => runSqlOn env identity session action (substitutePlaceholders env text session)
  | .http req =>
    if env.apiClient.isSome then do
      match ← call (.api (httpActionRequest env session req) identity) with
      | .error e => .done (.error e.text)
      | .ok (status, body) => .done (.ok (answered status body))
    else .done (.error "api callback client not configured")
  | .shell cmd => do
    let result ← runShell env session cmd
    .done (result.map printed)
  | .produce file repeatCount => do
    let result ← produceKafka env session file repeatCount
    .done (result.map printed)
  | .upload file => do
    let result ← uploadFile env session file
    .done (result.map printed)

theorem runAction_payload : runAction env identity session action =
    match payloadOf action with
    | some payload => runPayload env identity session action payload
    | none => .done (.error (missingText action.kind)) := by
  unfold runAction payloadOf
  cases hkind : action.kind with
  | sql =>
    dsimp only
    cases hsql : action.sql with
    | some text => simp [runSql, readActionSql, hsql, runPayload]
    | none =>
      cases hfile : action.sqlFile with
      | some path =>
        rw [runSql, readActionSql, hsql, hfile]
        rfl
      | none => simp [runSql, readActionSql, hsql, hfile, missingText]
  | http =>
    cases hreq : action.httpRequest with
    | some req =>
      rw [runHttp, hreq]
      rfl
    | none => simp [runHttp, hreq, missingText]
  | shell | toxiproxy | resetSnapshot =>
    cases hcmd : action.shellCmd <;> simp [runWith, runPayload, missingText]
  | produceKafka => cases hfile : action.payloadFile <;> simp [runWith, runPayload, missingText]
  | uploadFile => cases hfile : action.payloadFile <;> simp [runWith, runPayload, missingText]

end Executors

theorem missingPayload_payload {a : Action} (h : missingPayload a = false) :
    ∃ payload, payloadOf a = some payload := by
  unfold missingPayload at h
  unfold payloadOf
  cases hkind : a.kind with
  | sql =>
    rw [hkind] at h
    cases hsql : a.sql with
    | some text => exact ⟨_, rfl⟩
    | none =>
      cases hfile : a.sqlFile with
      | some path => exact ⟨_, rfl⟩
      | none => simp [hsql, hfile] at h
  | http =>
    rw [hkind] at h
    cases hreq : a.httpRequest with
    | some req => exact ⟨_, rfl⟩
    | none => simp [hreq] at h
  | shell | toxiproxy | resetSnapshot =>
    rw [hkind] at h
    cases hcmd : a.shellCmd with
    | some cmd => exact ⟨_, rfl⟩
    | none => simp [hcmd] at h
  | produceKafka | uploadFile =>
    rw [hkind] at h
    cases hfile : a.payloadFile with
    | some file => exact ⟨_, rfl⟩
    | none => simp [hfile] at h

def Outward : Op → Prop
  | .external _ => True
  | _ => False

/-- Neither a call that leaves the process nor the start of an action. -/
def Inward : Op → Prop
  | .external _ => False
  | .actionStart _ _ => False
  | _ => True

instance : Lenient Inward where
  quiet {op} h := by
    cases op with
    | external c => exact h.elim
    | actionStart id actionId => exact h.elim
    | _ => trivial

instance : AllowsOthers Outward := ⟨fun _ => trivial⟩

instance (identity : Identity) : AllowsCaller identity Outward := ⟨fun _ => trivial⟩

abbrev Events := List ((op : Op) × op.Result)

/-- One action of the session's scenario is started and run, and no other call is made. -/
structure Invoked (env : ServerEnv) (identity : Identity) (id : Uuid) (actionId : String)
    (events : Events) (session : Session) (scenario : Scenario) (action : Action) : Prop where
  found : env.manifest.scenario session.scenarioId = some scenario
  unique : (scenario.actions ++ scenario.breakScenarios).filter (fun a => a.id == actionId) =
    [action]
  once : ∃ payload outcome body rest, payloadOf action = some payload ∧
    events = ⟨.manager (.get id identity.userId), .ok session⟩ ::
      ⟨.manager (.touchAction id identity.userId), .ok ()⟩ ::
      ⟨.actionStart id action.id, ()⟩ :: (body ++ rest) ∧
    runAction env identity session action = runPayload env identity session action payload ∧
    (runAction env identity session action).Trace body outcome ∧
    (∀ event ∈ body, Outward event.1) ∧ ∀ event ∈ rest, Inward event.1

/-- The request is answered with an error before anything is run. -/
structure Refused {α : Type} (events : Events) (result : Except Failure α) : Prop where
  failed : ∃ e, result = .error e
  inward : ∀ event ∈ events, Inward event.1

section Whitelist

variable {env : ServerEnv} {identity : Identity} {id : Uuid} {actionId : String}

theorem filter_found {as : List Action} {action : Action} (hnodup : (as.map Action.id).Nodup)
    (h : as.find? (fun a => a.id == actionId) = some action) :
    as.filter (fun a => a.id == actionId) = [action] := by
  obtain ⟨hid, before, after, rfl, hbefore⟩ := List.find?_eq_some_iff_append.mp h
  have hafter : after.filter (fun a => a.id == actionId) = [] := by
    rw [List.filter_eq_nil_iff]
    intro a ha hsame
    rw [List.map_append, List.map_cons] at hnodup
    have hne := (List.nodup_cons.mp (List.nodup_append.mp hnodup).2.1).1
    rw [beq_iff_eq] at hid hsame
    exact hne (hid ▸ hsame ▸ List.mem_map_of_mem ha)
  have hfirst : before.filter (fun a => a.id == actionId) = [] := by
    rw [List.filter_eq_nil_iff]
    intro a ha hsame
    have hno := hbefore a ha
    rw [hsame] at hno
    cases hno
  rw [List.filter_append, hfirst, List.nil_append, List.filter_cons, if_pos hid, hafter]

theorem findAction_valid (hvalid : Valid env.manifest) {session : Session} {action : Action}
    (h : findAction env session actionId = .ok action) :
    ∃ scenario, env.manifest.scenario session.scenarioId = some scenario ∧
      (scenario.actions ++ scenario.breakScenarios).filter (fun a => a.id == actionId) =
        [action] ∧ missingPayload action = false := by
  unfold findAction at h
  cases hscenario : env.manifest.scenario session.scenarioId with
  | none =>
    rw [hscenario] at h
    cases h
  | some scenario =>
    have hmem : scenario ∈ env.manifest.scenarios := List.mem_of_find?_eq_some hscenario
    cases haction : scenario.action actionId with
    | none => simp [hscenario, haction] at h
    | some found =>
      simp only [hscenario, haction, Except.ok.injEq] at h
      subst h
      exact ⟨scenario, rfl, filter_found (hvalid.actions scenario hmem) haction,
        hvalid.payload scenario hmem found (List.mem_of_find?_eq_some haction)⟩

theorem runTimed_trace {session : Session} {action : Action} {events : Events}
    {result : Except Failure ActionResponse}
    (h : (runTimed env identity id session actionId action).Trace events result) :
    ∃ outcome body rest, result = .ok (ActionResponse.of actionId action outcome) ∧
      events = ⟨.actionStart id action.id, ()⟩ :: (body ++ rest) ∧
      (runAction env identity session action).Trace body outcome ∧
      ∀ event ∈ rest, Inward event.1 := by
  obtain ⟨outcome, body, recorded, noted, rfl, hbody, hrecorded, hnoted, rfl⟩ := runTimed_parts h
  refine ⟨outcome, body, _, rfl, rfl, hbody, ?_⟩
  intro event hmem
  rcases List.mem_cons.mp hmem with rfl | hmem
  · trivial
  · rcases List.mem_append.mp hmem with hmem | hmem
    · exact Program.Always.trace recordActionError_ops hrecorded event hmem
    · exact Program.Always.trace (bestEffort_ops (update_ops trivial)) hnoted event hmem

theorem refused_done {events : Events} {e : Failure} {result : Except Failure ActionResponse}
    (checks : Events) (hchecks : ∀ event ∈ checks, Inward event.1)
    (h : (Program.done (.error e) : Handler (Except Failure ActionResponse)).Trace events result) :
    Refused (checks ++ events) result := by
  obtain ⟨rfl, rfl⟩ := Program.trace_done h
  exact ⟨⟨e, rfl⟩, by simpa using hchecks⟩

theorem only_whitelisted_actions (hvalid : validate env.manifest = .ok ()) {events : Events}
    {result : Except Failure ActionResponse}
    (h : (executeAction env identity id actionId).Trace events result) :
    Refused events result ∨ ∃ session scenario action,
      Invoked env identity id actionId events session scenario action := by
  unfold executeAction at h
  split at h
  · exact Or.inl (refused_done [] (by simp) h)
  obtain ⟨got, later, rfl, hgot⟩ := Program.trace_perform h
  cases got with
  | error e => exact Or.inl (refused_done [_] (by simp [Inward]) hgot)
  | ok session =>
    obtain ⟨touched, later, rfl, htouched⟩ := Program.trace_perform hgot
    cases touched with
    | error e => exact Or.inl (refused_done [_, _] (by simp [Inward]) htouched)
    | ok _ =>
      dsimp only at htouched
      cases hfound : findAction env session actionId with
      | error e =>
        rw [hfound] at htouched
        exact Or.inl (refused_done [_, _] (by simp [Inward]) htouched)
      | ok action =>
        rw [hfound] at htouched
        obtain ⟨outcome, body, rest, -, rfl, hbody, hrest⟩ := runTimed_trace htouched
        obtain ⟨scenario, hscenario, hunique, hpayload⟩ :=
          findAction_valid (validate_ok.mp hvalid) hfound
        obtain ⟨payload, hsome⟩ := missingPayload_payload hpayload
        have hrun : runAction env identity session action =
            runPayload env identity session action payload := by
          rw [runAction_payload, hsome]
        exact Or.inr ⟨session, scenario, action, hscenario, hunique, payload, outcome, body, rest,
          hsome, rfl, hrun, hbody, Program.Always.trace runAction_ops hbody, hrest⟩

end Whitelist

def sayAction : Action :=
  { id := "say"
    kind := .shell
    target := none
    sql := none
    sqlFile := none
    shellCmd := some "echo hi"
    httpRequest := none
    payloadFile := none
    repeatCount := none }

def sayEnv : ServerEnv :=
  { configured with
    persistencePath := none
    manifest :=
      { version := 1
        sources := [⟨"mongo", some "mongodb"⟩]
        scenarios := [{
          id := "mongo-cdc"
          sourceId := "mongo"
          deployment := []
          initSql := none
          shuttleSql := none
          actions := []
          breakScenarios := [sayAction] }] } }

def sayCaller : Identity := ⟨"u1", none, none, "unknown"⟩

def sayEvents : Events :=
  [⟨.manager (.get 1 "u1"), .ok firstSession⟩,
    ⟨.manager (.touchAction 1 "u1"), .ok ()⟩,
    ⟨.actionStart 1 "say", ()⟩,
    ⟨.external (.command "bash" ["-c", "echo hi"]), .ok ⟨true, "exit status: 0", "hi\n", ""⟩⟩,
    ⟨.metric (.actionDuration "mongo-cdc" "say" true), ()⟩,
    ⟨.manager (.update 1 "u1" (.record "action" (fun _ => "say ok") (some "say") (some true))),
      .ok .done⟩]

theorem say_trace : (executeAction sayEnv sayCaller 1 "say").Trace sayEvents
    (.ok ⟨"say", "shell", "ok", some "hi\n", some "", none, none, none⟩) :=
  .step (.step (.step (.step (.step (.step (.done _))))))

theorem only_say_runs :
    Refused sayEvents (Except.ok (ε := Failure)
      (⟨"say", "shell", "ok", some "hi\n", some "", none, none, none⟩ : ActionResponse)) ∨
    ∃ session scenario action,
      Invoked sayEnv sayCaller 1 "say" sayEvents session scenario action :=
  only_whitelisted_actions rfl say_trace

end PlaygroundWhitelist
