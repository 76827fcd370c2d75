import Playground.PlaygroundReset
import Playground.PlaygroundWhitelist

/-! # Preparing the source

`create_session` and `reset_session` each run the scripts of the scenario. Here they run under
functions that answer the operations, so that what they send can be compared call by call. -/
namespace PlaygroundSourcePreparation

open InteractionPrograms
open PlaygroundApiClient (Identity)
open PlaygroundCleanup
open PlaygroundHandlers
open PlaygroundManagerRuns
open PlaygroundManifest (Scenario Source)
open PlaygroundOperations
open PlaygroundReset
open PlaygroundServer (accepted)
open PlaygroundSafeNames
open PlaygroundSessionManager
open PlaygroundSessions
open PlaygroundTemplates
open PlaygroundWhitelist (Outward)

abbrev Replies := (op : Op) → op.Result

def sentBy : Op → Option ExternalCall
  | .external (.readToString _) => none
  | .external (.readBytes _) => none
  | .external (.exists_ _) => none
  | .external c => some c
  | _ => none

section Sent

variable {α β : Type} (reply : Replies)

def sent (p : Handler α) : List ExternalCall := (p.performed reply).filterMap sentBy

@[simp] theorem sent_done (a : α) : sent reply (.done a) = [] := rfl

theorem sent_bind (p : Handler α) (f : α → Handler β) :
    sent reply (p >>= f) = sent reply p ++ sent reply (f (p.returned reply)) := by
  rw [sent, Program.performed_bind, List.filterMap_append, sent, sent]

theorem sent_bestEffort (p : Handler α) : sent reply (bestEffort p) = sent reply p := by
  rw [bestEffort, sent_bind, sent_done, List.append_nil]

theorem sent_when (c : Bool) (p : Handler Unit) :
    sent reply (Program.when c p) = if c then sent reply p else [] := by
  cases c <;> rfl

variable {reply}

def Inside (op : Op) : Prop := sentBy op = none

instance : Lenient Inside where
  quiet {op} h := by
    cases op with
    | external c => exact h.elim
    | _ => rfl

theorem sent_inside {p : Handler α} (hp : p.Always (fun _ _ => True) Inside) :
    sent reply p = [] :=
  List.filterMap_eq_nil_iff.mpr hp.performed

theorem sent_congr {reply' : Replies} {p : Handler α}
    (houtside : ∀ c, reply (.external c) = reply' (.external c))
    (hp : p.Always (fun _ _ => True) Outward) :
    sent reply p = sent reply' p ∧ p.returned reply = p.returned reply' := by
  have hreplies : ∀ op, Outward op → reply op = reply' op := by
    intro op hop
    cases op with
    | external c => exact houtside c
    | _ => exact hop.elim
  obtain ⟨hops, hvalue⟩ := Program.replies_congr hp hreplies
  exact ⟨congrArg _ hops, hvalue⟩

end Sent

section Phases

variable (env : ServerEnv) (identity : Identity) (session : Session) (scenario : Scenario)

/-- What `create_session` does before it looks for a script. -/
def provisioning : Handler (Except String Unit) :=
  match env.manifest.source scenario.sourceId with
  | none => .done (.ok ())
  | some source => provisionSessionResources env source session.namespaceName

/-- What `reset_session` does before it looks for one. -/
def dropping : Handler Unit :=
  if env.apiClient.isSome then do
    dropShuttle identity session.shuttleName
    bestEffort (execSql identity
      ("DROP NAMESPACE IF EXISTS " ++ session.namespaceName ++ " CASCADE"))
  else .done ()

/-- The services for which `create_session` applies the init script. -/
def preparedServices : List String := ["postgres", "mysql", "clickhouse", "redis"]

def prepares : Bool :=
  match (env.manifest.source scenario.sourceId).bind Source.dockerService with
  | none => false
  | some service => preparedServices.contains service

end Phases

section Sends

variable {env : ServerEnv} {identity : Identity} {session current : Session} {scenario : Scenario}
  {reply : Replies}

theorem noteEvent_sent {kind : String} {message : Session → String} {success : Bool} :
    sent reply (noteEvent env identity session kind message success) = [] :=
  sent_inside (bestEffort_ops (update_ops rfl))

theorem readExampleFile_sent {path : String} : sent reply (readExampleFile env path) = [] := by
  rw [readExampleFile]
  cases validateExampleRelativePath path with
  | error e => rfl
  | ok _ =>
    refine sent_inside ⟨rfl, fun r _ => ?_⟩
    cases r <;> trivial

theorem applyInitSql_sent {source : Source} {rel : String}
    (hsource : env.manifest.source scenario.sourceId = some source) :
    sent reply (applyInitSql env identity session source rel) =
      sent reply (rebuildSource env session scenario rel) := by
  rw [applyInitSql, rebuildSource, sent_bind, sent_bind]
  refine congrArg _ ?_
  cases (readExampleFile env rel).returned reply with
  | error e => rfl
  | ok text =>
    simp only [hsource]
    rw [sent_bind, sent_bestEffort]
    cases (dispatchSourceSql env source session.namespaceName
        (sourceScript env session (some source) text)).returned reply with
    | error e => rw [noteEvent_sent, List.append_nil]
    | ok out => rw [noteEvent_sent, List.append_nil]

theorem provisionAnySource_sent
    (hprovisioned : (provisioning env session scenario).returned reply = .ok ()) :
    sent reply (provisionAnySource env identity session scenario) =
      sent reply (provisioning env session scenario) ++
        if prepares env scenario then sent reply (rebuildAnySource env session scenario)
        else [] := by
  unfold provisionAnySource provisioning prepares at *
  cases hsource : env.manifest.source scenario.sourceId with
  | none => simp
  | some source =>
    simp only [hsource, Option.bind_some] at hprovisioned ⊢
    rw [provisionSource, sent_bind, hprovisioned]
    refine congrArg _ ?_
    dsimp only
    rcases Option.eq_none_or_eq_some source.dockerService with hservice | ⟨service, hservice⟩
    · simp [hservice]
    · simp only [hservice]
      rw [sent_when]
      change (if preparedServices.contains service = true then _ else _) = _
      by_cases hprepared : preparedServices.contains service = true
      · rw [if_pos hprepared, if_pos hprepared, sent_bind, noteEvent_sent, List.nil_append,
          rebuildAnySource]
        cases scenario.initSql with
        | none => rfl
        | some rel => exact applyInitSql_sent hsource
      · rw [if_neg hprepared, if_neg hprepared]

theorem provisionAnyShuttle_sent :
    sent reply (provisionAnyShuttle env identity session scenario) =
      if env.apiClient.isSome then sent reply (rebuildAnyShuttle env identity session scenario)
      else [] := by
  rw [provisionAnyShuttle, rebuildAnyShuttle]
  cases scenario.shuttleSql with
  | none => simp
  | some rel =>
    dsimp only
    rw [provisionShuttle, rebuildShuttle, sent_bind, sent_bind, readExampleFile_sent]
    cases (readExampleFile env rel).returned reply with
    | error e => simp
    | ok text =>
      dsimp only
      rw [sent_bestEffort, List.nil_append, List.nil_append, sent_bind, applyStatements]
      by_cases hclient : env.apiClient.isSome = true
      · rw [if_pos hclient, if_pos hclient]
        cases (execStatements identity rel 1
            (shuttleStatements env session scenario text)).returned reply with
        | error e => rw [noteEvent_sent, List.append_nil]
        | ok _ => rw [noteEvent_sent, List.append_nil]
      · rw [if_neg hclient, if_neg hclient, sent_done, List.nil_append]
        exact noteEvent_sent

theorem create_returned {a : SessionManager.CreateArgs}
    (hmade : reply (.manager (.create a)) = .ok session) :
    (create env a).returned reply = .ok session := by
  have hlocked : (locked (.create a)).returned reply = .ok session := hmade
  rw [create, Program.returned_bind, hlocked]
  dsimp only
  rw [Program.returned_bind]
  rfl

theorem update_returned {id : Uuid} {userId : String} {u : SessionUpdate} {outcome : UpdateOutcome}
    (hmarked : reply (.manager (.update id userId u)) = .ok outcome) :
    (update env id userId u).returned reply = .ok outcome := by
  have hlocked : (locked (.update id userId u)).returned reply = .ok outcome := hmarked
  rw [update, Program.returned_bind, hlocked]
  cases outcome with
  | panicked => rfl
  | done =>
    dsimp only
    rw [Program.returned_bind]
    rfl
  | refused message =>
    dsimp only
    rw [Program.returned_bind]
    rfl

theorem createSession_sent {id : Uuid} {body : CreateSessionBody}
    (hready : env.initialized = true) (hscenario : startable env body = .ok scenario)
    (hcharged : ∃ n, reply (.tryConsume identity.tenantId) = .ok n)
    (hmade : reply (.manager (.create (createArgs identity id body))) = .ok session) :
    sent reply (createSession env identity id body) =
      sent reply (provision env identity session scenario) := by
  obtain ⟨n, hcharged⟩ := hcharged
  have hconsumed : (tryConsume identity.tenantId).returned reply = .ok n := hcharged
  have hquiet : sent reply (tryConsume identity.tenantId) = [] := rfl
  have hcounted : sent reply (recordMetric (.sessionStart body.scenarioId true)) = [] := rfl
  have hinserted : sent reply (create env (createArgs identity id body)) = [] :=
    sent_inside (create_ops rfl)
  rw [createSession, if_neg (by simp [hready]), hscenario]
  dsimp only
  rw [sent_bind, hconsumed, hquiet, List.nil_append]
  dsimp only
  rw [sent_bind, hcounted, List.nil_append, sent_bind, hinserted, List.nil_append,
    create_returned hmade]
  dsimp only
  rw [sent_bind]
  exact List.append_nil _

theorem resetSession_sent {id : Uuid} {outcome : UpdateOutcome}
    (hready : env.initialized = true)
    (hget : reply (.manager (.get id identity.userId)) = .ok current)
    (hscenario : resettable env current = .ok scenario)
    (hmarked : reply (.manager (.update id identity.userId .resetStart)) = .ok outcome) :
    sent reply (resetSession env identity id) =
      sent reply (dropping env identity current) ++
        if env.apiClient.isSome then sent reply (rebuildAnySource env current scenario) ++
          sent reply (rebuildAnyShuttle env identity current scenario)
        else [] := by
  have hfound : (locked (.get id identity.userId)).returned reply = .ok current := hget
  have hquiet : sent reply (locked (.get id identity.userId)) = [] := rfl
  have hupdated : ∀ u, sent reply (update env id identity.userId u) = [] :=
    fun u => sent_inside (update_ops rfl)
  have hshown : sent reply (showSession identity id) = [] := sent_inside (showSession_ops rfl)
  rw [resetSession, if_neg (by simp [hready]), sent_bind, hquiet, hfound, List.nil_append]
  dsimp only
  rw [hscenario]
  dsimp only
  rw [resetWith, sent_bind, hupdated, List.nil_append, update_returned hmarked, dropping]
  dsimp only
  by_cases hclient : env.apiClient.isSome = true
  · have hsome : ¬ env.apiClient.isSome = false := by simp [hclient]
    rw [if_neg hsome, if_pos hclient, if_pos hclient, sent_bind, sent_bind, hupdated,
      dropAndRebuild]
    cases (update env id identity.userId .resetComplete).returned reply with
    | error e => simp only [sent_bind, List.append_assoc, sent_done, List.append_nil]
    | ok _ => simp only [sent_bind, List.append_assoc, hshown, List.append_nil]
  · have hnone : env.apiClient.isSome = false := by simpa using hclient
    rw [if_pos hnone, if_neg hclient, if_neg hclient]
    rfl

end Sends

section Scripts

variable {env : ServerEnv} {identity : Identity} {session current : Session} {scenario : Scenario}
  {reply : Replies}

theorem sourceScript_same (h : SameSession session current) (source : Option Source)
    (text : String) :
    sourceScript env current source text = sourceScript env session source text := by
  unfold sourceScript substitutePlaceholders
  rw [h.shuttleName, h.namespaceName, h.connectionName, h.id]

theorem rebuildAnySource_same (h : SameSession session current) :
    rebuildAnySource env current scenario = rebuildAnySource env session scenario := by
  unfold rebuildAnySource rebuildSource
  simp only [sourceScript_same h, h.namespaceName]

theorem rebuildAnyShuttle_same (h : SameSession session current) :
    rebuildAnyShuttle env identity current scenario =
      rebuildAnyShuttle env identity session scenario := by
  unfold rebuildAnyShuttle rebuildShuttle shuttleStatements
  simp only [sourceScript_same h]

/-- The services that scripts can be sent to: those with a dispatcher or with a shell. -/
def TakesScripts (service : String) : Prop :=
  (sidecarOf service).isSome = true ∨ (dockerShellRegistry service).isSome = true

def HasScript (env : ServerEnv) (scenario : Scenario) (reply : Replies) (service : String) : Prop :=
  TakesScripts service ∧ ∃ source rel text, env.manifest.source scenario.sourceId = some source ∧
    source.dockerService = some service ∧ scenario.initSql = some rel ∧
    (readExampleFile env rel).returned reply = .ok text

/-- Of the services with a shell only those that also have a dispatcher can lose it. -/
theorem shell_open {service : String} {tcp : Bool} (h : sidecarOf service = none) :
    (tcp && (service == "postgres" || service == "mysql")) = false := by
  have hpostgres : service ≠ "postgres" := by
    rintro rfl
    cases h
  have hmysql : service ≠ "mysql" := by
    rintro rfl
    cases h
  simp [hpostgres, hmysql]

theorem dispatch_sends {source : Source} {service namespaceName sql : String}
    (hservice : source.dockerService = some service) :
    sent reply (dispatchSourceSql env source namespaceName sql) ≠ [] ↔ TakesScripts service := by
  rw [dispatchSourceSql, TakesScripts]
  simp only [hservice]
  cases hsidecar : sidecarOf service with
  | some sidecar => exact iff_of_true (List.cons_ne_nil _ _) (.inl rfl)
  | none =>
    dsimp only
    rw [execSourceSql]
    simp only [hservice, shell_open hsidecar]
    cases dockerShellRegistry service with
    | some buildShell => exact iff_of_true (List.cons_ne_nil _ _) (.inr rfl)
    | none => simp

theorem rebuildAnySource_sends :
    sent reply (rebuildAnySource env session scenario) ≠ [] ↔
      ∃ service, HasScript env scenario reply service := by
  rw [rebuildAnySource]
  cases hscript : scenario.initSql with
  | none => simp [HasScript, hscript]
  | some rel =>
    dsimp only
    rw [rebuildSource, sent_bind, readExampleFile_sent, List.nil_append]
    cases hread : (readExampleFile env rel).returned reply with
    | error e => simp [HasScript, hscript, hread]
    | ok text =>
      dsimp only
      cases hsource : env.manifest.source scenario.sourceId with
      | none => simp [HasScript, hsource]
      | some source =>
        dsimp only
        rw [sent_bestEffort]
        cases hservice : source.dockerService with
        | none => simp [HasScript, hsource, hservice, dispatchSourceSql]
        | some service =>
          rw [dispatch_sends hservice]
          simp [HasScript, hsource, hservice, hscript, hread]

/-- All sources of the scenario with a script are on one service. -/
theorem HasScript.prepares {service : String} (h : HasScript env scenario reply service) :
    prepares env scenario = true ↔ service ∈ preparedServices := by
  obtain ⟨-, source, rel, text, hsource, hservice, -, -⟩ := h
  simp [PlaygroundSourcePreparation.prepares, hsource, hservice]

end Scripts

section Alike

variable (env : ServerEnv) (identity : Identity) (id : Uuid) (body : CreateSessionBody)
  (scenario : Scenario) (session current : Session) (created reset : Replies)

/-- A creation whose provisioning succeeds, and a reset of its session as the manager has it by
then. The outside answers the same call alike. -/
structure CreatedAndReset : Prop where
  ready : env.initialized = true
  started : startable env body = .ok scenario
  charged : ∃ n, created (.tryConsume identity.tenantId) = .ok n
  made : created (.manager (.create (createArgs identity id body))) = .ok session
  derived : ∃ sha256 now ttl,
    session = Session.new sha256 id now identity.userId identity.tenantId body.scenarioId ttl
  provisioned : (provisioning env session scenario).returned created = .ok ()
  found : reset (.manager (.get id identity.userId)) = .ok current
  same : SameSession session current
  marked : ∃ outcome, reset (.manager (.update id identity.userId .resetStart)) = .ok outcome
  outside : ∀ c, created (.external c) = reset (.external c)

/-- After the provisioning and after the drops both handlers send the same calls: the init script
to the source and the statements to the API. -/
def PreparedAlike : Prop :=
  ∃ calls, sent created (createSession env identity id body) =
      sent created (provisioning env session scenario) ++ calls ∧
    sent reset (resetSession env identity id) = sent reset (dropping env identity current) ++ calls

end Alike

section Comparison

variable {env : ServerEnv} {identity : Identity} {id : Uuid} {body : CreateSessionBody}
  {scenario : Scenario} {session current : Session} {created reset : Replies}

theorem startable_scenario (h : startable env body = .ok scenario) :
    env.manifest.scenario body.scenarioId = some scenario := by
  rw [startable] at h
  cases hfound : env.manifest.scenario body.scenarioId with
  | none => simp [hfound] at h
  | some found =>
    simp only [hfound] at h
    split at h
    · rw [Except.ok.inj h]
    · cases h

theorem CreatedAndReset.checked
    (h : CreatedAndReset env identity id body scenario session current created reset) :
    resettable env current = .ok scenario := by
  obtain ⟨sha256, now, ttl, hsession⟩ := h.derived
  have hguards : PassesGuards session.shuttleName session.connectionName session.namespaceName := by
    rw [hsession]
    exact derived_names_pass sha256 _ _
  have hscenario : session.scenarioId = body.scenarioId := by
    rw [hsession]
    rfl
  rw [resettable_same h.same, hguards.resettable, hscenario, startable_scenario h.started]

theorem CreatedAndReset.created_sent
    (h : CreatedAndReset env identity id body scenario session current created reset) :
    sent created (createSession env identity id body) =
      sent created (provisioning env session scenario) ++
        ((if prepares env scenario then sent created (rebuildAnySource env session scenario)
          else []) ++
        if env.apiClient.isSome then sent created (rebuildAnyShuttle env identity session scenario)
          else []) := by
  have hupdated : sent created (bestEffort (update env session.id identity.userId
      .sessionCreated)) = [] := sent_inside (bestEffort_ops (update_ops rfl))
  rw [createSession_sent h.ready h.started h.charged h.made, provision, sent_bind, sent_bind,
    hupdated, List.append_nil, provisionAnySource_sent h.provisioned, provisionAnyShuttle_sent,
    List.append_assoc]

theorem CreatedAndReset.reset_sent
    (h : CreatedAndReset env identity id body scenario session current created reset) :
    sent reset (resetSession env identity id) = sent reset (dropping env identity current) ++
      if env.apiClient.isSome then sent created (rebuildAnySource env session scenario) ++
        sent created (rebuildAnyShuttle env identity session scenario)
      else [] := by
  obtain ⟨outcome, hmarked⟩ := h.marked
  have hsource : sent created (rebuildAnySource env session scenario) =
      sent reset (rebuildAnySource env session scenario) :=
    (sent_congr h.outside rebuildAnySource_ops).1
  have hshuttle : sent created (rebuildAnyShuttle env identity session scenario) =
      sent reset (rebuildAnyShuttle env identity session scenario) :=
    (sent_congr h.outside rebuildAnyShuttle_ops).1
  rw [resetSession_sent h.ready h.found h.checked hmarked, rebuildAnySource_same h.same,
    rebuildAnyShuttle_same h.same, hsource, hshuttle]

/-- Two lists of calls that differ in the conditions of their script. -/
theorem same_calls_iff {α : Type} (prepared client : Bool) (before before' script rest : List α) :
    (∃ calls, before ++ ((if prepared then script else []) ++ if client then rest else []) =
        before ++ calls ∧
      before' ++ (if client then script ++ rest else []) = before' ++ calls) ↔
      (script ≠ [] → (prepared = true ↔ client = true)) := by
  have hequal : (∃ calls, before ++ ((if prepared then script else []) ++
        if client then rest else []) = before ++ calls ∧
      before' ++ (if client then script ++ rest else []) = before' ++ calls) ↔
      ((if prepared then script else []) ++ if client then rest else []) =
        if client then script ++ rest else [] := by
    simp only [List.append_cancel_left_eq]
    constructor
    · rintro ⟨calls, hcreated, hreset⟩
      exact hcreated.trans hreset.symm
    · intro h
      exact ⟨_, h, rfl⟩
  rw [hequal]
  cases prepared <;> cases client <;> simp

theorem CreatedAndReset.alike
    (h : CreatedAndReset env identity id body scenario session current created reset) :
    PreparedAlike env identity id body scenario session current created reset ↔
      (sent created (rebuildAnySource env session scenario) ≠ [] →
        (prepares env scenario = true ↔ env.apiClient.isSome = true)) := by
  rw [PreparedAlike, h.created_sent, h.reset_sent]
  exact same_calls_iff _ _ _ _ _ _

/-- Creation and reset prepare the source alike where an init script that can be read is applied by
both or by neither: the creation looks at the service, the reset at the API client. -/
theorem prepared_alike_iff
    (h : CreatedAndReset env identity id body scenario session current created reset) :
    PreparedAlike env identity id body scenario session current created reset ↔
      ∀ service, HasScript env scenario created service →
        (service ∈ preparedServices ↔ env.apiClient.isSome = true) := by
  rw [h.alike, rebuildAnySource_sends]
  constructor
  · intro halike service hscript
    exact hscript.prepares.symm.trans (halike ⟨service, hscript⟩)
  · rintro hall ⟨service, hscript⟩
    exact hscript.prepares.trans (hall service hscript)

end Comparison

def repliesOf (m : SessionManager) : Replies
  | .manager o => (o.run (fun _ => 0) m (atSecond 0)).1
  | .snapshot => m.rows
  | .writeTmp _ => true
  | .renameTmp => true
  | .tryConsume _ => .ok 1
  | .metric _ => ()
  | .readClock => atSecond 0
  | .actionStart _ _ => ()
  | .external c => accepted c

def scripted (rel : String) : Scenario :=
  { id := "scripted"
    sourceId := "source"
    deployment := []
    initSql := some rel
    shuttleSql := none
    actions := []
    breakScenarios := [] }

def envOn (service rel : String) : ServerEnv :=
  { configured with
    manifest :=
      { version := 1
        sources := [⟨"source", some service⟩]
        scenarios := [scripted rel] } }

def caller : Identity := ⟨"u1", none, none, "unknown"⟩

def scriptedSession : Session := .new (fun _ => 0) 1 (atSecond 0) "u1" none "scripted" defaultTtl

def freshManager (env : ServerEnv) : SessionManager := .new env.manifest true defaultTtl

def holding (env : ServerEnv) : SessionManager :=
  ((freshManager env).create (fun _ => 0) (atSecond 0)
    (createArgs caller 1 ⟨"scripted", none⟩)).2

theorem scripted_run {service rel : String}
    (h : (provisioning (envOn service rel) scriptedSession (scripted rel)).returned
      (repliesOf (freshManager (envOn service rel))) = .ok ()) :
    CreatedAndReset (envOn service rel) caller 1 ⟨"scripted", none⟩ (scripted rel) scriptedSession
      scriptedSession (repliesOf (freshManager (envOn service rel)))
      (repliesOf (holding (envOn service rel))) :=
  { ready := rfl
    started := rfl
    charged := ⟨1, rfl⟩
    made := rfl
    derived := ⟨fun _ => 0, atSecond 0, defaultTtl, rfl⟩
    provisioned := h
    found := rfl
    same := .refl _
    marked := ⟨_, rfl⟩
    outside := fun _ => rfl }

theorem postgres_prepared_alike :
    PreparedAlike (envOn "postgres" "postgres-cdc/init.sql") caller 1 ⟨"scripted", none⟩
      (scripted "postgres-cdc/init.sql") scriptedSession scriptedSession
      (repliesOf (freshManager (envOn "postgres" "postgres-cdc/init.sql")))
      (repliesOf (holding (envOn "postgres" "postgres-cdc/init.sql"))) := by
  refine (prepared_alike_iff (scripted_run rfl)).mpr ?_
  rintro service ⟨-, source, rel, text, hsource, hservice, -, -⟩
  have hone : (⟨"source", some "postgres"⟩ : Source) = source := Option.some.inj hsource
  rw [← hone] at hservice
  rw [← Option.some.inj hservice]
  exact iff_of_true (by decide) rfl

/-- A reset runs the script of a source on mongodb, a creation never does. -/
theorem mongodb_script_only_on_reset :
    CreatedAndReset (envOn "mongodb" "mongodb-cdc/init.js") caller 1 ⟨"scripted", none⟩
        (scripted "mongodb-cdc/init.js") scriptedSession scriptedSession
        (repliesOf (freshManager (envOn "mongodb" "mongodb-cdc/init.js")))
        (repliesOf (holding (envOn "mongodb" "mongodb-cdc/init.js"))) ∧
      ¬ PreparedAlike (envOn "mongodb" "mongodb-cdc/init.js") caller 1 ⟨"scripted", none⟩
        (scripted "mongodb-cdc/init.js") scriptedSession scriptedSession
        (repliesOf (freshManager (envOn "mongodb" "mongodb-cdc/init.js")))
        (repliesOf (holding (envOn "mongodb" "mongodb-cdc/init.js"))) := by
  have hrun := @scripted_run "mongodb" "mongodb-cdc/init.js" rfl
  refine ⟨hrun, ?_⟩
  intro halike
  have hscript : HasScript (envOn "mongodb" "mongodb-cdc/init.js") (scripted "mongodb-cdc/init.js")
      (repliesOf (freshManager (envOn "mongodb" "mongodb-cdc/init.js"))) "mongodb" :=
    ⟨.inr rfl, _, _, _, rfl, rfl, rfl, rfl⟩
  have hprepares := (hrun.alike.mp halike (rebuildAnySource_sends.mpr ⟨_, hscript⟩)).mpr rfl
  exact absurd (hscript.prepares.mp hprepares) (by decide)

end PlaygroundSourcePreparation
