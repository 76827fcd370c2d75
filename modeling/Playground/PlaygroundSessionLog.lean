import Playground.PlaygroundReset
import Playground.PlaygroundStatements

/-! # What the session log says of a run

The status after a creation, the last event of a reset and the events of an ended session,
against the answers that the run got. -/
namespace PlaygroundSessionLog

open InteractionPrograms
open PlaygroundApiClient
open PlaygroundCleanup
open PlaygroundHandlers
open PlaygroundManagerRuns
open PlaygroundManifest (Scenario Source)
open PlaygroundNames
open PlaygroundOperations
open PlaygroundReset
open PlaygroundServer
open PlaygroundSessionManager
open PlaygroundSessions
open PlaygroundStatements
open PlaygroundTemplates

/-- The operations of a run with their answers. -/
abbrev Answers := List ((op : Op) × op.Result)

def Recorded (id : Uuid) (userId : String) (u : SessionUpdate) (run : Answers) : Prop :=
  ∃ outcome, ⟨.manager (.update id userId u), .ok outcome⟩ ∈ run

section Creation

def acceptedRequests (run : Answers) : List ApiRequest :=
  run.filterMap fun
    | ⟨.external (.api request _), .ok _⟩ => some request
    | _ => none

def readsOf (path : String) (run : Answers) : List (Except String String) :=
  run.filterMap fun
    | ⟨.external (.readToString p), answer⟩ => if p = path then some answer else none
    | _ => none

def exampleText (env : ServerEnv) (rel : String) (run : Answers) : Option String :=
  match validateExampleRelativePath rel with
  | .error _ => none
  | .ok _ => (readsOf (joinPath env.examplesDir rel) run).getLast?.bind Except.toOption

def Carries (stmt : String) (request : ApiRequest) : Prop :=
  ∃ d, classifyStatement stmt = some d ∧ request = d.request stmt

def ShuttleApplied (env : ServerEnv) (session : Session) (scenario : Scenario) (run : Answers) :
    Prop :=
  ∀ rel, scenario.shuttleSql = some rel → ∃ text, exampleText env rel run = some text ∧
    List.Forall₂ Carries (shuttleStatements env session scenario text) (acceptedRequests run)

def ApiAccepts (run : Answers) : Prop :=
  ∀ request identity answer, ⟨.external (.api request identity), answer⟩ ∈ run →
    ∃ reply, answer = .ok reply

/-- The template can be read, each of its statements is of a class, there is a client, and the
API accepts every call. -/
def CanApply (env : ServerEnv) (session : Session) (scenario : Scenario) (run : Answers) : Prop :=
  ∀ rel, scenario.shuttleSql = some rel → ∃ text, exampleText env rel run = some text ∧
    (shuttleStatements env session scenario text = [] ∨
      env.apiClient.isSome = true ∧
        (∀ stmt ∈ shuttleStatements env session scenario text,
          (classifyStatement stmt).isSome = true) ∧
        ApiAccepts run)

/-- The status is set to active only if every statement of the template was applied. -/
def ActiveIfApplied (env : ServerEnv) (identity : Identity) (session : Session)
    (scenario : Scenario) (run : Answers) : Prop :=
  Recorded session.id identity.userId .sessionCreated run → ShuttleApplied env session scenario run

variable {env : ServerEnv} {identity : Identity} {session : Session} {scenario : Scenario}
  {run first last : Answers}

theorem acceptedRequests_append (first last : Answers) :
    acceptedRequests (first ++ last) = acceptedRequests first ++ acceptedRequests last :=
  List.filterMap_append

theorem readsOf_append (path : String) (first last : Answers) :
    readsOf path (first ++ last) = readsOf path first ++ readsOf path last :=
  List.filterMap_append

theorem apiAccepts_append :
    ApiAccepts (first ++ last) ↔ ApiAccepts first ∧ ApiAccepts last := by
  simp only [ApiAccepts, List.mem_append]
  grind

def NoApi : Op → Prop
  | .external c => NotApi c
  | _ => True

def OnlyApi : Op → Prop
  | .external (.api _ _) => True
  | .external _ => False
  | _ => True

instance : Lenient NoApi where
  quiet {op} h := by
    cases op with
    | external c => exact h.elim
    | _ => trivial

instance : AllowsOthers NoApi := ⟨fun h => h⟩

instance : Lenient OnlyApi where
  quiet {op} h := by
    cases op with
    | external c => exact h.elim
    | _ => trivial

instance (identity : Identity) : AllowsCaller identity OnlyApi := ⟨fun _ => trivial⟩

theorem acceptedRequests_noApi (h : ∀ answered ∈ run, NoApi answered.1) :
    acceptedRequests run = [] := by
  rw [acceptedRequests, List.filterMap_eq_nil_iff]
  rintro ⟨op, answer⟩ hmem
  have hop := h _ hmem
  cases op with
  | external c =>
    cases c with
    | api => exact hop.elim
    | _ => rfl
  | _ => rfl

theorem apiAccepts_noApi (h : ∀ answered ∈ run, NoApi answered.1) : ApiAccepts run :=
  fun _ _ _ hmem => (h _ hmem).elim

theorem readsOf_onlyApi (h : ∀ answered ∈ run, OnlyApi answered.1) (path : String) :
    readsOf path run = [] := by
  rw [readsOf, List.filterMap_eq_nil_iff]
  rintro ⟨op, answer⟩ hmem
  have hop := h _ hmem
  cases op with
  | external c =>
    cases c with
    | api => rfl
    | _ => exact hop.elim
  | _ => rfl

/-- The loop goes on as long as the API accepts, so it accepted everything it was asked for
exactly when every statement was sent and accepted. -/
theorem execStatements_applied {rel : String} {idx : ℕ} {stmts : List String}
    {r : Except String Unit} (h : (execStatements identity rel idx stmts).Trace run r) :
    List.Forall₂ Carries stmts (acceptedRequests run) ↔
      (∀ stmt ∈ stmts, (classifyStatement stmt).isSome = true) ∧ ApiAccepts run := by
  induction stmts generalizing idx run with
  | nil =>
    obtain ⟨rfl, -⟩ := Program.trace_done h
    simp [acceptedRequests, ApiAccepts]
  | cons stmt rest ih =>
    obtain ⟨sent, answer, tail, rfl, hsent, h⟩ := Program.trace_bind h
    rw [execSql] at hsent
    cases hclass : classifyStatement stmt with
    | none =>
      rw [hclass] at hsent
      obtain ⟨rfl, rfl⟩ := Program.trace_done hsent
      obtain ⟨rfl, -⟩ := Program.trace_done h
      simp [acceptedRequests, hclass]
    | some d =>
      rw [hclass] at hsent
      obtain ⟨reply, _, rfl, hdone⟩ := Program.trace_perform hsent
      obtain ⟨rfl, rfl⟩ := Program.trace_done hdone
      cases reply with
      | error e =>
        obtain ⟨rfl, -⟩ := Program.trace_done h
        have hrefused : ¬ ApiAccepts [⟨.external (.api (d.request stmt) identity), .error e⟩] := by
          intro haccepts
          obtain ⟨reply, hreply⟩ := haccepts _ _ _ List.mem_cons_self
          cases hreply
        simp [acceptedRequests, hrefused]
      | ok reply =>
        have htail := ih h
        have hcarries : Carries stmt (d.request stmt) := ⟨d, hclass, rfl⟩
        have haccepts : ApiAccepts [⟨.external (.api (d.request stmt) identity), .ok reply⟩] := by
          intro request other answer hmem
          cases List.mem_singleton.mp hmem
          exact ⟨reply, rfl⟩
        have hfirst : acceptedRequests [⟨.external (.api (d.request stmt) identity), .ok reply⟩] =
            [d.request stmt] := rfl
        rw [apiAccepts_append, acceptedRequests_append, hfirst, List.singleton_append,
          List.forall₂_cons, htail, List.forall_mem_cons, hclass]
        simp only [hcarries, haccepts, Option.isSome_some, true_and]

theorem readExampleFile_text {rel : String} {r : Except String String}
    (h : (readExampleFile env rel).Trace run r) (first : Answers)
    (hlast : ∀ answered ∈ last, OnlyApi answered.1) :
    exampleText env rel (first ++ (run ++ last)) = r.toOption := by
  rw [readExampleFile] at h
  unfold exampleText
  cases hpath : validateExampleRelativePath rel with
  | error e =>
    rw [hpath] at h
    obtain ⟨-, rfl⟩ := Program.trace_done h
    rfl
  | ok _ =>
    rw [hpath] at h
    obtain ⟨answer, rest, rfl, hdone⟩ := Program.trace_perform h
    have hrest : rest = [] ∧ answer.toOption = r.toOption := by
      cases answer with
      | error e =>
        obtain ⟨rfl, rfl⟩ := Program.trace_done hdone
        exact ⟨rfl, rfl⟩
      | ok text =>
        obtain ⟨rfl, rfl⟩ := Program.trace_done hdone
        exact ⟨rfl, rfl⟩
    obtain ⟨rfl, hanswer⟩ := hrest
    have hread : readsOf (joinPath env.examplesDir rel)
        [⟨.external (.readToString (joinPath env.examplesDir rel)), answer⟩] = [answer] := by
      simp [readsOf]
    rw [readsOf_append, readsOf_append, hread, readsOf_onlyApi hlast, List.append_nil]
    simp [hanswer]

theorem applyStatements_applied {rel : String} {stmts : List String} {r : Except String Unit}
    (h : (applyStatements env identity rel stmts).Trace run r) :
    List.Forall₂ Carries stmts (acceptedRequests run) ↔
      stmts = [] ∨ env.apiClient.isSome = true ∧
        (∀ stmt ∈ stmts, (classifyStatement stmt).isSome = true) ∧ ApiAccepts run := by
  rw [applyStatements] at h
  cases hclient : env.apiClient.isSome with
  | false =>
    rw [hclient, if_neg (by decide)] at h
    obtain ⟨rfl, -⟩ := Program.trace_done h
    simp [acceptedRequests]
  | true =>
    rw [hclient, if_pos rfl] at h
    have happlied := execStatements_applied h
    cases stmts with
    | nil =>
      obtain ⟨rfl, -⟩ := Program.trace_done h
      simp [acceptedRequests]
    | cons stmt rest => simpa using happlied

/-- The shuttle part of a creation, in a run that calls the API nowhere else and reads no file
after it. -/
theorem provisionShuttle_applied {rel : String}
    (h : (provisionShuttle env identity session scenario rel).Trace run ())
    (hfirst : ∀ answered ∈ first, NoApi answered.1)
    (hlast : ∀ answered ∈ last, NoApi answered.1 ∧ OnlyApi answered.1) :
    (∃ text, exampleText env rel (first ++ (run ++ last)) = some text ∧
        List.Forall₂ Carries (shuttleStatements env session scenario text)
          (acceptedRequests (first ++ (run ++ last)))) ↔
      ∃ text, exampleText env rel (first ++ (run ++ last)) = some text ∧
        (shuttleStatements env session scenario text = [] ∨
          env.apiClient.isSome = true ∧
            (∀ stmt ∈ shuttleStatements env session scenario text,
              (classifyStatement stmt).isSome = true) ∧
            ApiAccepts (first ++ (run ++ last))) := by
  have hlastApi : ∀ answered ∈ last, NoApi answered.1 := fun a ha => (hlast a ha).1
  obtain ⟨read, r, rest, rfl, hread, h⟩ := Program.trace_bind h
  have hreadApi : ∀ answered ∈ read, NoApi answered.1 := readExampleFile_ops.trace hread
  rw [List.append_assoc]
  cases r with
  | error e =>
    obtain ⟨rfl, -⟩ := Program.trace_done h
    have htext := readExampleFile_text hread first fun a ha => (hlast a ha).2
    rw [List.nil_append, htext]
    simp [Except.toOption]
  | ok shuttleSql =>
    obtain ⟨applied, outcome, noted, rfl, happly, hnote⟩ := Program.trace_bind h
    have hnoteOps : ∀ {P : Op → Prop} [Lenient P], (∀ o, P (.manager o)) →
        ∀ answered ∈ noted, P answered.1 := by
      intro P _ hmanager
      cases outcome with
      | error message => exact (noteEvent_ops fun _ => hmanager _).trace hnote
      | ok _ => exact (noteEvent_ops fun _ => hmanager _).trace hnote
    have happlyOps : ∀ answered ∈ applied, OnlyApi answered.1 := by
      have hops : (applyStatements env identity rel
          (shuttleStatements env session scenario shuttleSql)).Always
            (fun _ _ => True) OnlyApi := by
        unfold applyStatements
        split
        · exact execStatements_ops
        · trivial
      exact hops.trace happly
    have htail : ∀ answered ∈ applied ++ noted ++ last, OnlyApi answered.1 := by
      simp only [List.mem_append]
      rintro a ((ha | ha) | ha)
      · exact happlyOps a ha
      · exact hnoteOps (fun _ => trivial) a ha
      · exact (hlast a ha).2
    have hnotedApi : ∀ answered ∈ noted, NoApi answered.1 := hnoteOps fun _ => trivial
    have htext := readExampleFile_text hread first htail
    have haccepted : acceptedRequests (first ++ (read ++ (applied ++ noted ++ last))) =
        acceptedRequests applied := by
      simp only [acceptedRequests_append, acceptedRequests_noApi hfirst,
        acceptedRequests_noApi hreadApi, acceptedRequests_noApi hnotedApi,
        acceptedRequests_noApi hlastApi, List.nil_append, List.append_nil]
    have haccepts : ApiAccepts (first ++ (read ++ (applied ++ noted ++ last))) ↔
        ApiAccepts applied := by
      simp only [apiAccepts_append, apiAccepts_noApi hfirst, apiAccepts_noApi hreadApi,
        apiAccepts_noApi hnotedApi, apiAccepts_noApi hlastApi, true_and, and_true]
    rw [htext, haccepted, haccepts]
    refine exists_congr fun text => and_congr_right fun hsome => ?_
    cases hsome
    exact applyStatements_applied happly

theorem provision_applied
    (h : (provision env identity session scenario).Trace run ())
    (hfirst : ∀ answered ∈ first, NoApi answered.1)
    (hlast : ∀ answered ∈ last, NoApi answered.1 ∧ OnlyApi answered.1) :
    ShuttleApplied env session scenario (first ++ (run ++ last)) ↔
      CanApply env session scenario (first ++ (run ++ last)) := by
  obtain ⟨source, _, rest, rfl, hsource, h⟩ := Program.trace_bind h
  obtain ⟨shuttle, _, active, rfl, hshuttle, hactive⟩ := Program.trace_bind h
  have hsourceApi : ∀ answered ∈ first ++ source, NoApi answered.1 := by
    intro a ha
    rcases List.mem_append.mp ha with ha | ha
    · exact hfirst a ha
    · exact (provisionAnySource_ops fun _ => trivial).trace hsource a ha
  have hactiveApi : ∀ answered ∈ active ++ last, NoApi answered.1 ∧ OnlyApi answered.1 := by
    intro a ha
    rcases List.mem_append.mp ha with ha | ha
    · exact ⟨(bestEffort_ops (update_ops trivial)).trace hactive a ha,
        (bestEffort_ops (update_ops trivial)).trace hactive a ha⟩
    · exact hlast a ha
  have hparts : first ++ (source ++ (shuttle ++ active) ++ last) =
      (first ++ source) ++ (shuttle ++ (active ++ last)) := by
    simp only [List.append_assoc]
  rw [hparts, ShuttleApplied, CanApply]
  unfold provisionAnyShuttle at hshuttle
  cases hrel : scenario.shuttleSql with
  | none => simp
  | some rel =>
    rw [hrel] at hshuttle
    simp only [Option.some_inj, forall_eq']
    exact provisionShuttle_applied hshuttle hsourceApi hactiveApi

theorem create_trace {a : SessionManager.CreateArgs} {r : Except SessionError Session}
    (h : (create env a).Trace run r) :
    ∃ persisted, run = ⟨.manager (.create a), r⟩ :: persisted ∧
      ∀ answered ∈ persisted, Quiet answered.1 := by
  obtain ⟨answer, rest, hrun, hrest⟩ := Program.trace_perform h
  cases answer with
  | error e =>
    obtain ⟨rfl, rfl⟩ := Program.trace_done hrest
    exact ⟨[], hrun, by simp⟩
  | ok session =>
    obtain ⟨persisted, _, tail, rfl, hpersist, hdone⟩ := Program.trace_bind hrest
    obtain ⟨rfl, rfl⟩ := Program.trace_done hdone
    rw [List.append_nil] at hrun
    exact ⟨persisted, hrun, persist_ops.trace hpersist⟩

theorem createSession_applied {id : Uuid} {body : CreateSessionBody}
    {r : Except Failure SessionView} (h : (createSession env identity id body).Trace run r)
    (hcreated : ⟨.manager (.create (createArgs identity id body)), .ok session⟩ ∈ run)
    (hstart : startable env body = .ok scenario) :
    ShuttleApplied env session scenario run ↔ CanApply env session scenario run := by
  rw [createSession] at h
  split at h
  · obtain ⟨rfl, -⟩ := Program.trace_done h
    cases hcreated
  · rw [hstart] at h
    obtain ⟨charged, rest, rfl, hcharged⟩ := Program.trace_perform h
    cases charged with
    | error e =>
      obtain ⟨counted, rest, rfl, hcounted⟩ := Program.trace_perform hcharged
      obtain ⟨rfl, -⟩ := Program.trace_done hcounted
      simp at hcreated
    | ok count =>
      obtain ⟨counted, rest, rfl, hcounted⟩ := Program.trace_perform hcharged
      obtain ⟨inserted, answer, rest, rfl, hcreate, hrest⟩ := Program.trace_bind hcounted
      obtain ⟨persisted, rfl, hquiet⟩ := create_trace hcreate
      simp only [List.cons_append, List.mem_cons, List.mem_append] at hcreated
      rcases hcreated with hmem | hmem | hmem | hmem | hmem
      · cases hmem
      · cases hmem
      · cases hmem
        obtain ⟨provisioned, _, tail, rfl, hprovision, hrender⟩ := Program.trace_bind hrest
        have hbefore : ∀ answered ∈ (⟨.tryConsume identity.tenantId, .ok count⟩ ::
            ⟨.metric (.sessionStart body.scenarioId true), counted⟩ ::
            ⟨.manager (.create (createArgs identity id body)), .ok session⟩ :: persisted : Answers),
            NoApi answered.1 := by
          simp only [List.forall_mem_cons]
          exact ⟨trivial, trivial, trivial, fun a ha => Lenient.quiet (hquiet a ha)⟩
        have hafter : ∀ answered ∈ tail, NoApi answered.1 ∧ OnlyApi answered.1 :=
          fun a ha => ⟨render_ops.trace hrender a ha, render_ops.trace hrender a ha⟩
        exact provision_applied hprovision hbefore hafter
      · exact (hquiet _ hmem).elim
      · cases answer with
        | error e =>
          obtain ⟨rfl, -⟩ := Program.trace_done hrest
          cases hmem
        | ok other =>
          obtain ⟨provisioned, _, tail, rfl, hprovision, hrender⟩ := Program.trace_bind hrest
          rcases List.mem_append.mp hmem with hmem | hmem
          · have hops : (provision env identity other scenario).Always (fun _ _ => True)
                (AsksOnly (· ∉ [ManagerOp.create (createArgs identity id body)])) :=
              provision_ops fun u => by simp [AsksOnly]
            exact absurd List.mem_cons_self (hops.trace hprovision _ hmem)
          · have hops : (render other).Always (fun _ _ => True) Quiet := render_ops
            exact (hops.trace hrender _ hmem).elim

end Creation

section Reset

def Returned {α : Type} (p : Handler α) (a : α) (run : Answers) : Prop :=
  ∃ part, part <:+: run ∧ p.Trace part a

/-- The steps of the reset, each of which logs its error and lets the next one go on. -/
structure Rebuilt (env : ServerEnv) (identity : Identity) (session : Session)
    (scenario : Scenario) (run : Answers) : Prop where
  shuttleDropped : ∃ reply,
    Returned (execSql identity ("DROP SHUTTLE IF EXISTS " ++ session.shuttleName)) (.ok reply) run
  targetDropped : ∃ reply,
    Returned (execSql identity (dropNamespaceSql session.namespaceName)) (.ok reply) run
  sourceInitialised : ∀ rel source, scenario.initSql = some rel →
    env.manifest.source scenario.sourceId = some source → ∃ text output,
      Returned (readExampleFile env rel) (.ok text) run ∧
      Returned (dispatchSourceSql env source session.namespaceName
        (sourceScript env session (some source) text)) (.ok output) run
  shuttleCreated : ∀ rel, scenario.shuttleSql = some rel → ∃ text,
    Returned (readExampleFile env rel) (.ok text) run ∧
    Returned (execStatements identity rel 1 (shuttleStatements env session scenario text))
      (.ok ()) run

def CompleteIfRebuilt (env : ServerEnv) (identity : Identity) (id : Uuid) (session : Session)
    (scenario : Scenario) (run : Answers) : Prop :=
  Recorded id identity.userId .resetComplete run → Rebuilt env identity session scenario run

variable {env : ServerEnv} {identity : Identity} {id : Uuid} {session : Session}
  {scenario : Scenario} {run : Answers}

theorem target_not_dropped (namespaceName : String) (reply : PlaygroundManifest.Value) :
    ¬ Returned (execSql identity (dropNamespaceSql namespaceName)) (.ok reply) run := by
  rintro ⟨part, -, h⟩
  rw [dropNamespace_unsupported] at h
  cases (Program.trace_done h).2

theorem completeIfRebuilt_iff : CompleteIfRebuilt env identity id session scenario run ↔
    ¬ Recorded id identity.userId .resetComplete run := by
  constructor
  · intro h hrecorded
    obtain ⟨reply, hreply⟩ := (h hrecorded).targetDropped
    exact target_not_dropped _ _ hreply
  · intro h hrecorded
    exact absurd hrecorded h

theorem update_trace {userId : String} {u : SessionUpdate}
    {r : Except SessionError UpdateOutcome} (h : (update env id userId u).Trace run r) :
    ⟨.manager (.update id userId u), r⟩ ∈ run := by
  obtain ⟨answer, rest, rfl, hrest⟩ := Program.trace_perform h
  rcases answer with e | o | message | _
  · obtain ⟨-, rfl⟩ := Program.trace_done hrest
    exact List.mem_cons_self
  · obtain ⟨_, _, tail, -, -, hdone⟩ := Program.trace_bind hrest
    obtain ⟨-, rfl⟩ := Program.trace_done hdone
    exact List.mem_cons_self
  · obtain ⟨_, _, tail, -, -, hdone⟩ := Program.trace_bind hrest
    obtain ⟨-, rfl⟩ := Program.trace_done hdone
    exact List.mem_cons_self
  · obtain ⟨-, rfl⟩ := Program.trace_done hrest
    exact List.mem_cons_self

/-- A reset that answers with a view has been recorded as complete. -/
theorem reset_recorded {view : SessionView}
    (h : (resetSession env identity id).Trace run (.ok view)) :
    Recorded id identity.userId .resetComplete run := by
  rw [resetSession] at h
  split at h
  · cases (Program.trace_done h).2
  · obtain ⟨_, found, rest, rfl, -, hrest⟩ := Program.trace_bind h
    cases found with
    | error e => cases (Program.trace_done hrest).2
    | ok session =>
      cases hcheck : resettable env session with
      | error e =>
        simp only [hcheck] at hrest
        cases (Program.trace_done hrest).2
      | ok scenario =>
        simp only [hcheck] at hrest
        obtain ⟨_, marked, rest, rfl, -, hmarked⟩ := Program.trace_bind hrest
        cases marked with
        | error e => cases (Program.trace_done hmarked).2
        | ok outcome =>
          dsimp only at hmarked
          split at hmarked
          · cases (Program.trace_done hmarked).2
          · obtain ⟨_, _, rest, rfl, -, hrebuilt⟩ := Program.trace_bind hmarked
            obtain ⟨updated, completed, rest, rfl, hupdate, hcompleted⟩ :=
              Program.trace_bind hrebuilt
            cases completed with
            | error e => cases (Program.trace_done hcompleted).2
            | ok outcome =>
              refine ⟨outcome, ?_⟩
              have hmem := update_trace hupdate
              simp only [List.mem_append]
              exact Or.inr (Or.inr (Or.inr (Or.inl hmem)))

end Reset

section End

/-- The sidecar of the call is not there, which is no failure of a teardown. -/
def Unavailable : (c : ExternalCall) → c.Result → Prop
  | .dispatcher (.teardown _ _), answer => answer = .error .unavailable
  | .dispatcher (.dropPublication _), answer => answer = .error .unavailable
  | .dispatcher (.dropReplicationSlot _), answer => answer = .error .unavailable
  | _, _ => False

/-- A step of the teardown failed: a call of it, or the purge for want of keys. -/
def StepFailed (env : ServerEnv) (session : Session) (run : Answers) : Prop :=
  (∃ c answer, ⟨.external c, answer⟩ ∈ run ∧ ¬ Succeeded c answer ∧ ¬ Unavailable c answer) ∨
    isSafeIdentifier session.shuttleName = true ∧ env.apiClient.isSome = true ∧
      isSafeIdentifier session.namespaceName = true ∧
      (minioAccess env = none ∨ minioSecret env = none)

def ShowsFailure (events : List SessionEvent) : Prop :=
  ∃ event ∈ events, event.success = some false

def keptEvents (session : Session) : List SessionEvent :=
  session.events.drop (session.events.length + 1 - Session.maxEvents)

variable {env : ServerEnv} {identity : Identity} {id : Uuid} {session : Session} {run : Answers}

theorem view_shows (now clock : Clock) :
    ShowsFailure ((session.record now "session-ended" "user ended session" none
      (some true)).view clock).events ↔ ShowsFailure (keptEvents session) := by
  simp only [ShowsFailure, Session.view, Session.record_events, keptEvents, List.mem_append,
    List.mem_singleton]
  constructor
  · rintro ⟨event, hmem | rfl, hfailed⟩
    · exact ⟨event, hmem, hfailed⟩
    · cases hfailed
  · rintro ⟨event, hmem, hfailed⟩
    exact ⟨event, Or.inl hmem, hfailed⟩

theorem endLocked_trace {r : Except SessionError Session}
    (h : (endLocked env id identity.userId).Trace run r) :
    ∃ persisted, run = ⟨.manager (.endSession id identity.userId), r⟩ :: persisted ∧
      ∀ answered ∈ persisted, Quiet answered.1 := by
  obtain ⟨answer, rest, hrun, hrest⟩ := Program.trace_perform h
  cases answer with
  | error e =>
    obtain ⟨rfl, rfl⟩ := Program.trace_done hrest
    exact ⟨[], hrun, by simp⟩
  | ok session =>
    obtain ⟨persisted, _, tail, rfl, hpersist, hdone⟩ := Program.trace_bind hrest
    obtain ⟨rfl, rfl⟩ := Program.trace_done hdone
    rw [List.append_nil] at hrun
    exact ⟨persisted, hrun, persist_ops.trace hpersist⟩

/-- Whatever the teardown does, the view shows a failure exactly when the log had one. -/
theorem endSession_shows {view : SessionView}
    (h : (endSession env identity id).Trace run (.ok view))
    (hended : ⟨.manager (.endSession id identity.userId), .ok session⟩ ∈ run) :
    ShowsFailure view.events ↔ ShowsFailure (keptEvents session) := by
  rw [endSession] at h
  split at h
  · cases (Program.trace_done h).2
  · obtain ⟨ended, answer, rest, rfl, hlocked, hrest⟩ := Program.trace_bind h
    obtain ⟨persisted, rfl, hquiet⟩ := endLocked_trace hlocked
    cases answer with
    | error e => cases (Program.trace_done hrest).2
    | ok taken =>
      obtain ⟨now, rest, rfl, hread⟩ := Program.trace_perform hrest
      obtain ⟨torn, _, rest, rfl, hteardown, hrender⟩ := Program.trace_bind hread
      have hsame : session = taken := by
        simp only [List.cons_append, List.mem_cons, List.mem_append] at hended
        rcases hended with hmem | hmem | hmem | hmem | hmem
        · cases hmem
          rfl
        · exact (hquiet _ hmem).elim
        · cases hmem
        · exact ((teardown_ops (P := AsksOnly fun _ => False)).trace hteardown _ hmem).elim
        · exact ((render_ops (P := Quiet)).trace hrender _ hmem).elim
      subst hsame
      obtain ⟨clock, rest, rfl, hdone⟩ := Program.trace_perform hrender
      obtain ⟨-, hview⟩ := Program.trace_done hdone
      cases hview
      exact view_shows now clock

/-- The view of the ended session shows a failure whenever a step of its teardown failed. -/
def FailureShown (env : ServerEnv) (session : Session) (view : SessionView) (run : Answers) :
    Prop :=
  StepFailed env session run → ShowsFailure view.events

end End

section Truth

/-- When status and log of the three handlers tell the truth: a creation, where the template
could be applied; a reset, where it does not get as far as its last event; an end, where no step
of the teardown fails or the log already has a failure that it keeps. -/
theorem log_truthful_iff (env : ServerEnv) (identity : Identity) (id : Uuid)
    (body : CreateSessionBody) :
    (∀ run r session scenario, (createSession env identity id body).Trace run r →
      ⟨.manager (.create (createArgs identity id body)), .ok session⟩ ∈ run →
      startable env body = .ok scenario →
      (ActiveIfApplied env identity session scenario run ↔
        (Recorded session.id identity.userId .sessionCreated run →
          CanApply env session scenario run))) ∧
    (∀ run r session scenario, (resetSession env identity id).Trace run r →
      (CompleteIfRebuilt env identity id session scenario run ↔
        ¬ Recorded id identity.userId .resetComplete run) ∧
      (∀ view, r = .ok view → Recorded id identity.userId .resetComplete run)) ∧
    ∀ run view session, (endSession env identity id).Trace run (.ok view) →
      ⟨.manager (.endSession id identity.userId), .ok session⟩ ∈ run →
      (FailureShown env session view run ↔
        ¬ StepFailed env session run ∨ ShowsFailure (keptEvents session)) := by
  refine ⟨?_, ?_, ?_⟩
  · intro run r session scenario h hcreated hstart
    exact imp_congr_right fun _ => createSession_applied h hcreated hstart
  · intro run r session scenario h
    refine ⟨completeIfRebuilt_iff, ?_⟩
    rintro view rfl
    exact reset_recorded h
  · intro run view session h hended
    rw [FailureShown, endSession_shows h hended, imp_iff_not_or]

def pausedScenario : Scenario :=
  { id := "paused"
    sourceId := "pg"
    deployment := []
    initSql := none
    shuttleSql := some "shuttle.sql"
    actions := []
    breakScenarios := [] }

/-- No API client, and a scenario whose template is one statement. -/
def offline : ServerEnv :=
  { clientless with
    persistencePath := none
    manifest := { version := 1, sources := [], scenarios := [pausedScenario] } }

def offlineCaller : Identity := ⟨"u1", none, none, "unknown"⟩

def offlineSession : Session :=
  .new (fun _ => 0) 1 (atSecond 0) "u1" none "paused" minTtl

def pausedTemplate : String := "PAUSE SHUTTLE s"

def offlineCreation : Answers :=
  [⟨.tryConsume none, .ok 1⟩,
    ⟨.metric (.sessionStart "paused" true), ()⟩,
    ⟨.manager (.create ⟨1, "u1", none, "paused", none⟩), .ok offlineSession⟩,
    ⟨.external (.readToString "/opt/datashuttle/examples/shuttle.sql"), .ok pausedTemplate⟩,
    ⟨.manager (.update 1 "u1" (.record "shuttle-provision-failed"
      (fun _ => "api callback client is not configured — " ++
        "set PLAYGROUND_API_BASE_URL + PLAYGROUND_SERVICE_TOKEN") none (some false))), .ok .done⟩,
    ⟨.manager (.update 1 "u1" .sessionCreated), .ok .done⟩,
    ⟨.readClock, atSecond 0⟩]

theorem offline_created : (createSession offline offlineCaller 1 ⟨"paused", none⟩).Trace
    offlineCreation (.ok (offlineSession.view (atSecond 0))) :=
  .step (.step (.step (.step (.step (.step (.step (.done _)))))))

theorem paused_statements :
    shuttleStatements offline offlineSession pausedScenario pausedTemplate = [pausedTemplate] := by
  have hplain := substitutePlaceholders_plain offline (s := pausedTemplate) (by decide)
    offlineSession
  rw [shuttleStatements, sourceScript, hplain]
  change splitDsSqlStatements pausedTemplate = [pausedTemplate]
  rw [splitDsSqlStatements_eq]
  decide

theorem paused_startable : startable offline ⟨"paused", none⟩ = .ok pausedScenario := rfl

/-- The session becomes active, and its one statement went nowhere. -/
theorem offline_active_unapplied :
    (createSession offline offlineCaller 1 ⟨"paused", none⟩).Trace offlineCreation
      (.ok (offlineSession.view (atSecond 0))) ∧
    startable offline ⟨"paused", none⟩ = .ok pausedScenario ∧
    ¬ ActiveIfApplied offline offlineCaller offlineSession pausedScenario offlineCreation := by
  refine ⟨offline_created, paused_startable, ?_⟩
  intro h
  have hrecorded : Recorded 1 "u1" .sessionCreated offlineCreation := by
    refine ⟨.done, ?_⟩
    simp [offlineCreation]
  obtain ⟨text, htext, happlied⟩ := h hrecorded _ rfl
  have hread : exampleText offline "shuttle.sql" offlineCreation = some pausedTemplate := by
    decide
  rw [hread, Option.some_inj] at htext
  subst htext
  rw [paused_statements] at happlied
  cases happlied

def online : ServerEnv := { offline with apiClient := configured.apiClient }

def pausedManager : SessionManager :=
  ((ManagerOp.create (createArgs offlineCaller 1 ⟨"paused", none⟩)).run (fun _ => 0)
    (.new offline.manifest true minTtl) (atSecond 0)).2

/-- The session is in the map, and the API refuses every request. -/
def refusing : (op : Op) → op.Result
  | .manager o => (o.run (fun _ => 0) pausedManager (atSecond 0)).1
  | .snapshot => pausedManager.rows
  | .writeTmp _ => true
  | .renameTmp => true
  | .tryConsume _ => .ok 1
  | .metric _ => ()
  | .readClock => atSecond 0
  | .actionStart _ _ => ()
  | .external (.api request _) => .error (.status request.method request.path 500 "")
  | .external c => accepted c

def refusedRun {α : Type} (p : Handler α) : Answers :=
  (p.performed refusing).map fun op => ⟨op, refusing op⟩

theorem refused_trace {α : Type} (p : Handler α) : p.Trace (refusedRun p) (p.returned refusing) :=
  Program.trace_replies refusing p

theorem mem_refusedRun {α : Type} {p : Handler α} {op : Op} (h : op ∈ p.performed refusing) :
    ⟨op, refusing op⟩ ∈ refusedRun p := List.mem_map_of_mem h

def onlineReset : Answers := refusedRun (resetSession online offlineCaller 1)

def onlineEnd : Answers := refusedRun (endSession online offlineCaller 1)

theorem online_views :
    ((resetSession online offlineCaller 1).returned refusing).toBool = true ∧
      ((endSession online offlineCaller 1).returned refusing).toBool = true := by decide +kernel

theorem toBool_ok {ε α : Type} : ∀ {r : Except ε α}, r.toBool = true → ∃ a, r = .ok a
  | .ok a, _ => ⟨a, rfl⟩

theorem online_reset : ∃ view, (resetSession online offlineCaller 1).Trace onlineReset
    (.ok view) := by
  obtain ⟨view, hview⟩ := toBool_ok online_views.1
  exact ⟨view, hview ▸ refused_trace _⟩

theorem online_ended : ∃ view, (endSession online offlineCaller 1).Trace onlineEnd (.ok view) := by
  obtain ⟨view, hview⟩ := toBool_ok online_views.2
  exact ⟨view, hview ▸ refused_trace _⟩

def endedSession : Session := { offlineSession with status := .ended }

theorem online_found : ⟨.manager (.endSession 1 "u1"), .ok endedSession⟩ ∈ onlineEnd := by
  have hfirst : Op.manager (.endSession 1 "u1") ∈
      (endSession online offlineCaller 1).performed refusing := List.mem_cons_self
  exact mem_refusedRun hfirst

def isApi : Op → Bool
  | .external (.api _ _) => true
  | _ => false

theorem online_asks : ((endSession online offlineCaller 1).performed refusing).any isApi = true :=
  by decide +kernel

theorem online_step_failed : StepFailed online endedSession onlineEnd := by
  obtain ⟨op, hmem, hapi⟩ := List.any_eq_true.mp online_asks
  match op, hmem, hapi with
  | .external (.api request identity), hmem, _ =>
    refine Or.inl ⟨.api request identity, _, mem_refusedRun hmem, ?_, id⟩
    rintro ⟨reply, hreply⟩
    cases hreply

theorem online_log_clean : ¬ ShowsFailure (keptEvents endedSession) := by
  rintro ⟨event, hmem, -⟩
  cases hmem

/-- A creation without a client, and with one a reset and an end of which the API refuses every
request: the reset is recorded as complete, and the ended session shows no failure. -/
theorem log_truthful_iff_offline :
    (ActiveIfApplied offline offlineCaller offlineSession pausedScenario offlineCreation ↔
      (Recorded 1 "u1" .sessionCreated offlineCreation →
        CanApply offline offlineSession pausedScenario offlineCreation)) ∧
    (Recorded 1 "u1" .resetComplete onlineReset ∧
      ¬ CompleteIfRebuilt online offlineCaller 1 offlineSession pausedScenario onlineReset) ∧
    ∃ view, (endSession online offlineCaller 1).Trace onlineEnd (.ok view) ∧
      StepFailed online endedSession onlineEnd ∧
      ¬ FailureShown online endedSession view onlineEnd := by
  obtain ⟨resetView, hreset⟩ := online_reset
  obtain ⟨endView, hended⟩ := online_ended
  have hcreated : ⟨.manager (.create (createArgs offlineCaller 1 ⟨"paused", none⟩)),
      .ok offlineSession⟩ ∈ offlineCreation := by
    simp [offlineCreation, createArgs, offlineCaller]
  have hcreation := (log_truthful_iff offline offlineCaller 1 ⟨"paused", none⟩).1 _ _ _ _
    offline_created hcreated paused_startable
  obtain ⟨-, hresets, hends⟩ := log_truthful_iff online offlineCaller 1 ⟨"paused", none⟩
  have hrecorded := (hresets _ _ offlineSession pausedScenario hreset).2 resetView rfl
  refine ⟨hcreation, ⟨hrecorded, ?_⟩, endView, hended, online_step_failed, ?_⟩
  · intro hrebuilt
    exact (hresets _ _ _ _ hreset).1.mp hrebuilt hrecorded
  · intro hshown
    rcases (hends _ _ _ hended online_found).mp hshown with hnone | hkept
    · exact hnone online_step_failed
    · exact online_log_clean hkept

end Truth

end PlaygroundSessionLog
