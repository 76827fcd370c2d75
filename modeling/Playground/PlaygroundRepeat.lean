import Mathlib.Algebra.BigOperators.Group.List.Basic
import Playground.PlaygroundKafkaBatches
import Playground.PlaygroundWhitelist

/-! # Repetitions of an action

How often a successful execution performs the payload of its action. Only the producer reads
`repeat`; the other executors make one call. -/
namespace PlaygroundRepeat

open InteractionPrograms
open PlaygroundActions
open PlaygroundApiClient
open PlaygroundCleanup
open PlaygroundHandlers
open PlaygroundKafkaBatches
open PlaygroundManagerRuns
open PlaygroundManifest (Action ActionKind Source Value)
open PlaygroundManifestValidation (validate)
open PlaygroundOperations
open PlaygroundSessions
open PlaygroundTemplates
open PlaygroundWhitelist (Inward runTimed_trace)

/-- The times a call that was answered performs a payload: a statement, a request or a script once,
a batch for each of its records. Reading a file and creating a topic only prepare. -/
def performed : ((op : Op) × op.Result) → ℕ
  | ⟨.external (.api _ _), .ok _⟩ => 1
  | ⟨.external (.dispatcher (.exec _ _ _)), .ok _⟩ => 1
  | ⟨.external (.command program _), .ok output⟩ =>
    if program = "bash" ∧ output.success = true then 1 else 0
  | ⟨.external (.post _ _ n _), .ok reply⟩ => if isSuccess reply then n else 0
  | _ => 0

def performances (events : Events) : ℕ := (events.map performed).sum

theorem performances_append (first rest : Events) :
    performances (first ++ rest) = performances first + performances rest := by
  rw [performances, List.map_append, List.sum_append, performances, performances]

theorem performances_cons (event : (op : Op) × op.Result) (rest : Events) :
    performances (event :: rest) = performed event + performances rest := by
  rw [performances, List.map_cons, List.sum_cons, performances]

theorem performances_none {events : Events} (h : ∀ event ∈ events, performed event = 0) :
    performances events = 0 := by
  apply List.sum_eq_zero
  intro n hn
  obtain ⟨event, hmem, rfl⟩ := List.mem_map.mp hn
  exact h event hmem

theorem performed_inward {event : (op : Op) × op.Result} (h : Inward event.1) :
    performed event = 0 := by
  obtain ⟨op, r⟩ := event
  cases op with
  | external c => exact h.elim
  | _ => rfl

section Performs

variable {ε α β : Type} {w : ℕ}

/-- Where the program succeeds it has performed the payload that often. -/
def PerformsOften (p : Handler (Except ε α)) (w : ℕ) : Prop :=
  ∀ events a, p.Trace events (.ok a) → performances events = w

theorem PerformsOften.failed {e : ε} :
    PerformsOften (.done (.error e) : Handler (Except ε α)) w := by
  intro events a h
  obtain ⟨-, heq⟩ := Program.trace_done h
  cases heq

theorem PerformsOften.succeeded {a : α} :
    PerformsOften (.done (.ok a) : Handler (Except ε α)) 0 := by
  intro events b h
  obtain ⟨rfl, -⟩ := Program.trace_done h
  rfl

theorem PerformsOften.call {op : Op} {next : op.Result → Handler (Except ε α)}
    (h : ∀ r, ∃ w', performed ⟨op, r⟩ + w' = w ∧ PerformsOften (next r) w') :
    PerformsOften (.request op next) w := by
  intro events a htrace
  obtain ⟨r, rest, rfl, hrest⟩ := Program.trace_request htrace
  obtain ⟨w', hw, hnext⟩ := h r
  rw [performances_cons, hnext rest a hrest]
  exact hw

theorem PerformsOften.after {γ : Type} {p : Handler γ} {f : γ → Handler (Except ε α)}
    (hp : p.Always (fun _ _ => True) fun op => ∀ r, performed ⟨op, r⟩ = 0)
    (hf : ∀ a, PerformsOften (f a) w) : PerformsOften (p >>= f) w := by
  intro events a h
  obtain ⟨first, b, rest, rfl, hfirst, hrest⟩ := Program.trace_bind h
  have hquiet : performances first = 0 :=
    performances_none fun event hmem => hp.trace hfirst event hmem event.2
  rw [performances_append, hquiet, Nat.zero_add]
  exact hf b rest a hrest

theorem PerformsOften.before {p : Handler (Except ε α)} {f : Except ε α → Handler (Except ε β)}
    (hp : PerformsOften p w) (herror : ∀ e, ∃ e', f (.error e) = .done (.error e'))
    (hok : ∀ a, ∃ r, f (.ok a) = .done r) : PerformsOften (p >>= f) w := by
  intro events b htrace
  obtain ⟨first, r, rest, rfl, hfirst, hrest⟩ := Program.trace_bind htrace
  cases r with
  | error e =>
    obtain ⟨e', he⟩ := herror e
    rw [he] at hrest
    obtain ⟨-, heq⟩ := Program.trace_done hrest
    cases heq
  | ok a =>
    obtain ⟨r, hr⟩ := hok a
    rw [hr] at hrest
    obtain ⟨rfl, -⟩ := Program.trace_done hrest
    rw [List.append_nil]
    exact hp first a hfirst

theorem PerformsOften.map {f : α → β} {p : Handler (Except ε α)} (h : PerformsOften p w) :
    PerformsOften (p >>= fun r => .done (r.map f)) w :=
  h.before (fun e => ⟨e, rfl⟩) fun a => ⟨.ok (f a), rfl⟩

end Performs

section Executors

variable {env : ServerEnv} {identity : Identity} {session : Session} {action : Action}

theorem execSourceSql_once {source : Source} {sql : String} {tcp : Bool} :
    PerformsOften (execSourceSql source sql tcp) 1 := by
  rcases execSourceSql_cases source sql tcp with
    ⟨e, hrun⟩ | ⟨service, buildShell, -, -, -, hrun⟩
  · rw [hrun]
    exact .failed
  · rw [hrun]
    refine .call fun r => ?_
    cases r with
    | error e => exact ⟨1, rfl, .failed⟩
    | ok output =>
      rw [shellOutcome]
      cases hsuccess : output.success with
      | true => exact ⟨0, by simp [performed, hsuccess], .succeeded⟩
      | false => exact ⟨1, by simp [performed, hsuccess], .failed⟩

theorem dispatchSourceSql_once {source : Source} {namespaceName sql : String} :
    PerformsOften (dispatchSourceSql env source namespaceName sql) 1 := by
  rcases dispatchSourceSql_cases env source namespaceName sql with
    ⟨-, e, hrun⟩ | ⟨service, -, -, hrun⟩ | ⟨service, sidecar, next, -, -, hok, herror, hrun⟩
  · rw [hrun]
    exact .failed
  · rw [hrun]
    exact execSourceSql_once
  · rw [hrun]
    refine .call fun r => ?_
    cases r with
    | ok out =>
      rw [hok]
      exact ⟨0, rfl, .succeeded⟩
    | error e =>
      -- The sidecar did nothing; if the shell takes over it runs the statement.
      refine ⟨1, rfl, ?_⟩
      rcases herror e with ⟨text, hnext⟩ | ⟨script, hnext⟩
      · rw [hnext]
        exact .failed
      · rw [hnext]
        exact execSourceSql_once

theorem runApiSql_once {sql : String} : PerformsOften (runApiSql env identity sql) 1 := by
  rw [runApiSql]
  split
  · rw [execSql]
    cases classifyStatement sql with
    | none => exact .failed
    | some d =>
      refine .call fun r => ?_
      cases r with
      | ok reply => exact ⟨0, rfl, .succeeded⟩
      | error e => exact ⟨1, rfl, .failed⟩
  · exact .failed

theorem runSqlOn_once {sql : String} :
    PerformsOften (runSqlOn env identity session action sql) 1 := by
  rw [runSqlOn]
  split
  · split
    · rw [runSourceSql]
      cases sessionSource env session with
      | error e => exact .failed
      | ok source => exact dispatchSourceSql_once.map
    · exact .failed
  · exact runApiSql_once
  · exact runApiSql_once
  · exact runApiSql_once
  · exact .failed

theorem readExampleFile_prepares {path : String} :
    (readExampleFile env path).Always (fun _ _ => True) fun op => ∀ r, performed ⟨op, r⟩ = 0 := by
  rw [readExampleFile]
  cases validateExampleRelativePath path with
  | error e => trivial
  | ok _ =>
    refine ⟨fun _ => rfl, fun r _ => ?_⟩
    cases r <;> trivial

theorem runSql_once : PerformsOften (runSql env identity session action) 1 := by
  refine .after ?_ fun r => ?_
  · rw [readActionSql]
    cases action.sql with
    | some sql => trivial
    | none =>
      cases action.sqlFile with
      | some path => exact readExampleFile_prepares
      | none => trivial
  · cases r with
    | error e => exact .failed
    | ok sql => exact runSqlOn_once

theorem runHttp_once : PerformsOften (runHttp env identity session action) 1 := by
  rw [runHttp]
  cases action.httpRequest with
  | none => exact .failed
  | some req =>
    dsimp only
    split
    · refine .call fun r => ?_
      cases r with
      | ok reply => exact ⟨0, rfl, .succeeded⟩
      | error e => exact ⟨1, rfl, .failed⟩
    · exact .failed

theorem runShell_once {cmd : String} : PerformsOften (runShell env session cmd) 1 := by
  refine .call fun r => ?_
  cases r with
  | error e => exact ⟨1, rfl, .failed⟩
  | ok output =>
    cases hsuccess : output.success with
    | true => exact ⟨0, by simp [performed, hsuccess], by simpa [hsuccess] using .succeeded⟩
    | false => exact ⟨1, by simp [performed, hsuccess], by simpa [hsuccess] using .failed⟩

theorem uploadFile_once {payloadFile : String} :
    PerformsOften (uploadFile env session payloadFile) 1 := by
  rw [uploadFile]
  cases validateExampleRelativePath payloadFile with
  | error e => exact .failed
  | ok _ =>
    cases minioAccess env with
    | none => exact .failed
    | some access =>
      cases minioSecret env with
      | none => exact .failed
      | some secret =>
        refine .call fun found => ?_
        cases found with
        | true => exact ⟨1, rfl, runShell_once⟩
        | false => exact ⟨1, rfl, .failed⟩

theorem runWith_often {field : Option String} {missing : String} {w : ℕ}
    {run : String → Handler (Except String (String × String))}
    (h : ∀ value, PerformsOften (run value) w) : PerformsOften (runWith field missing run) w := by
  cases field with
  | none => exact .failed
  | some value => exact (h value).map

theorem chunks_sum (n : ℕ) : (chunks n).sum = n := by
  induction n using Nat.strong_induction_on with
  | h n ih =>
    by_cases hn : 0 < n
    · have hpos := chunk_pos
      have hrest := ih (n - min chunk n) (by omega)
      rw [chunks_step hn, List.sum_cons, hrest]
      omega
    · have hzero : n = 0 := by omega
      rw [hzero, chunks_zero, List.sum_nil]

/-- Where the whole list is acknowledged its records are counted. -/
theorem postChunks_often {url topic contentType lastBody : String} {template : Value}
    {sizes : List ℕ} {produced : ℕ} :
    PerformsOften (postChunks url topic contentType template sizes produced lastBody)
      sizes.sum := by
  induction sizes generalizing produced lastBody with
  | nil => exact .succeeded
  | cons n rest ih =>
    refine .call fun r => ?_
    cases r with
    | error e => exact ⟨_, Nat.zero_add _, .failed⟩
    | ok reply =>
      change ∃ w', (if isSuccess reply = true then n else 0) + w' = (n :: rest).sum ∧
        PerformsOften (if 200 ≤ reply.code ∧ reply.code < 300 then _ else _) w'
      by_cases hcode : 200 ≤ reply.code ∧ reply.code < 300
      · rw [if_pos hcode, isSuccess, if_pos (decide_eq_true hcode)]
        exact ⟨rest.sum, List.sum_cons.symm, ih⟩
      · rw [if_neg hcode, isSuccess, if_neg (by simpa using hcode)]
        exact ⟨_, Nat.zero_add _, .failed⟩

theorem producePayload_often {payloadFile topic : String} {n : ℕ} {bytes : List UInt8} :
    PerformsOften (producePayload env payloadFile n topic bytes) n := by
  have hposts : ∀ url contentType template,
      PerformsOften (postChunks url topic contentType template (chunks n) 0 "") n := by
    intro url contentType template
    have hsum : PerformsOften (postChunks url topic contentType template (chunks n) 0 "")
        (chunks n).sum := postChunks_often
    rwa [chunks_sum] at hsum
  apply (hposts _ _ _).before
  · intro e
    exact ⟨e, rfl⟩
  · intro body
    exact ⟨_, rfl⟩

theorem createTopic_prepares {topic broker : String} :
    (createTopic topic broker).Always (fun _ _ => True) fun op => ∀ r, performed ⟨op, r⟩ = 0 := by
  refine ⟨fun r => ?_, fun r _ => ?_⟩
  · cases r <;> rfl
  · cases r with
    | error e => trivial
    | ok output =>
      change Program.Always _ _ (if (output.success || topicExists output) = true then _ else _)
      split <;> trivial

theorem produceKafka_often {payloadFile : String} {repeatCount : ℕ} :
    PerformsOften (produceKafka env session payloadFile repeatCount)
      (min repeatCount 100000) := by
  rw [produceKafka]
  cases validateExampleRelativePath payloadFile with
  | error e => exact .failed
  | ok _ =>
    refine .after createTopic_prepares fun r => ?_
    cases r with
    | error e => exact .failed
    | ok _ =>
      refine .call fun r => ?_
      cases r with
      | error e => exact ⟨_, Nat.zero_add _, .failed⟩
      | ok bytes => exact ⟨_, Nat.zero_add _, producePayload_often⟩

/-- The repetitions of an executor: those asked for, up to the cap, for the producer. -/
theorem runAction_often : PerformsOften (runAction env identity session action)
    (if action.kind = .produceKafka then min (action.repeatCount.getD 1) 100000 else 1) := by
  rw [runAction]
  cases action.kind with
  | sql => exact runSql_once
  | http => exact runHttp_once
  | shell | toxiproxy | resetSnapshot => exact runWith_often fun _ => runShell_once
  | produceKafka => exact runWith_often fun _ => produceKafka_often
  | uploadFile => exact runWith_often fun _ => uploadFile_once

end Executors

section Executions

variable {env : ServerEnv} {identity : Identity} {id : Uuid} {actionId : String}
  {session : Session} {action : Action} {events : Events} {response : ActionResponse}

theorem runTimed_often
    (h : (runTimed env identity id session actionId action).Trace events (.ok response))
    (hok : response.status = "ok") : performances events =
      if action.kind = .produceKafka then min (action.repeatCount.getD 1) 100000 else 1 := by
  obtain ⟨outcome, body, rest, hresult, rfl, hbody, hrest⟩ := runTimed_trace h
  have hquiet : performances rest = 0 :=
    performances_none fun event hmem => performed_inward (hrest event hmem)
  cases outcome with
  | error e =>
    rw [Except.ok.inj hresult] at hok
    exact absurd (show "error" = "ok" from hok) (by decide)
  | ok r =>
    rw [performances_cons, performances_append, hquiet, runAction_often body r hbody]
    exact Nat.zero_add _

theorem executeAction_often
    (h : (executeAction env identity id actionId).Trace events (.ok response))
    (hget : events.head? = some ⟨.manager (.get id identity.userId), .ok session⟩)
    (hfound : findAction env session actionId = .ok action) (hok : response.status = "ok") :
    performances events =
      if action.kind = .produceKafka then min (action.repeatCount.getD 1) 100000 else 1 := by
  rw [executeAction] at h
  split at h
  · cases (Program.trace_done h).2
  obtain ⟨got, later, rfl, hgot⟩ := Program.trace_perform h
  cases got with
  | error e => cases (Program.trace_done hgot).2
  | ok found =>
    have hsame : found = session := by simpa using hget
    subst hsame
    obtain ⟨touched, later, rfl, htouched⟩ := Program.trace_perform hgot
    cases touched with
    | error e => cases (Program.trace_done htouched).2
    | ok _ =>
      have hmanager : ∀ (o : ManagerOp) (r : o.Result), performed ⟨.manager o, r⟩ = 0 :=
        fun _ _ => rfl
      dsimp only at htouched
      rw [hfound] at htouched
      rw [performances_cons, performances_cons, hmanager, hmanager, Nat.zero_add, Nat.zero_add]
      exact runTimed_often htouched hok

/-- The payload is performed as often as the action says for the producer, and for any other kind
exactly where it says once. -/
theorem repeat_honoured_iff
    (h : (executeAction env identity id actionId).Trace events (.ok response))
    (hget : events.head? = some ⟨.manager (.get id identity.userId), .ok session⟩)
    (hfound : findAction env session actionId = .ok action) (hok : response.status = "ok") :
    performances events = min (action.repeatCount.getD 1) 100000 ↔
      action.kind = .produceKafka ∨ action.repeatCount.getD 1 = 1 := by
  rw [executeAction_often h hget hfound hok]
  by_cases hkind : action.kind = .produceKafka
  · rw [if_pos hkind]
    exact iff_of_true rfl (.inl hkind)
  · rw [if_neg hkind, or_iff_right hkind]
    omega

end Executions

/-- The action that is to insert fifty rows during a snapshot. -/
def liveTick : Action :=
  { id := "live-tick"
    kind := .sql
    target := some .source
    sql := none
    sqlFile := some "postgres-cdc/actions/live-tick.sql"
    shellCmd := none
    httpRequest := none
    payloadFile := none
    repeatCount := some 50 }

def tickEnv : ServerEnv :=
  { configured with
    persistencePath := none
    manifest :=
      { version := 1
        sources := [⟨"postgres", some "postgres"⟩]
        scenarios := [{
          id := "postgres-backfill-plus-live"
          sourceId := "postgres"
          deployment := []
          initSql := none
          shuttleSql := none
          actions := [liveTick]
          breakScenarios := [] }] } }

def tickCaller : Identity := ⟨"u1", none, none, "unknown"⟩

def tickSession : Session :=
  .new (fun _ => 0) 1 (atSecond 0) "u1" none "postgres-backfill-plus-live" minTtl

def tickEvents : Events :=
  [⟨.manager (.get 1 "u1"), .ok tickSession⟩,
    ⟨.manager (.touchAction 1 "u1"), .ok ()⟩,
    ⟨.actionStart 1 "live-tick", ()⟩,
    ⟨.external (.readToString
      "/opt/datashuttle/examples/postgres-cdc/actions/live-tick.sql"), .ok "INSERT ..."⟩,
    ⟨.external (.dispatcher (.exec .postgres (some tickSession.namespaceName) "INSERT ...")),
      .ok ("", "")⟩,
    ⟨.metric (.actionDuration "postgres-backfill-plus-live" "live-tick" true), ()⟩,
    ⟨.manager (.update 1 "u1" (.record "action" (fun _ => "live-tick ok") (some "live-tick")
      (some true))), .ok .done⟩]

theorem tick_trace : (executeAction tickEnv tickCaller 1 "live-tick").Trace tickEvents
    (.ok ⟨"live-tick", "sql", "ok", some "", some "", none, none, none⟩) :=
  .step (.step (.step (.step (.step (.step (.step (.done _)))))))

theorem tick_count :
    performances tickEvents = min 50 100000 ↔ ActionKind.sql = .produceKafka ∨ 50 = 1 :=
  repeat_honoured_iff tick_trace rfl rfl rfl

theorem live_tick_inserts_once :
    validate tickEnv.manifest = .ok () ∧
      (executeAction tickEnv tickCaller 1 "live-tick").Trace tickEvents
        (.ok ⟨"live-tick", "sql", "ok", some "", some "", none, none, none⟩) ∧
      performances tickEvents = 1 ∧
      performances tickEvents ≠ min (liveTick.repeatCount.getD 1) 100000 :=
  ⟨rfl, tick_trace, rfl, by decide⟩

end PlaygroundRepeat
