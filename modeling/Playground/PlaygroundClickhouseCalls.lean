import Playground.PlaygroundClickhouseDdl
import Playground.PlaygroundSidecarErrors
import Playground.ProofOutlines
import Playground.UrlQueries

/-! # The ClickHouse calls of the dispatcher

A script goes out as one request for each of its statements, up to the first that fails. The
database and the time limit travel in the query of the URL. -/
namespace PlaygroundClickhouseCalls

open InteractionPrograms
open InteractionPrograms.Program
open PlaygroundClickhouse (splitClickhouseStatements)
open PlaygroundClickhouseDdl (createDatabaseSql resourceName_chars)
open PlaygroundDispatcher (dropDatabaseSql)
open PlaygroundNames
open PlaygroundOperations
open PlaygroundSidecarErrors
open ProofOutlines
open ProofOutlines.Contract
open UrlQueries

structure ClickhouseConfig where
  baseUrl : String
  user : String
  password : String
  defaultDb : String
  deriving DecidableEq, Repr

structure HttpRequest where
  url : String
  user : String
  password : String
  body : String
  deriving DecidableEq, Repr

/-- The body of a response is missing where it could not be read. -/
structure HttpResponse where
  status : HttpStatus
  body : Option String
  deriving DecidableEq, Repr

inductive HttpOp where
  | config
  | post (request : HttpRequest)
  deriving DecidableEq, Repr

@[reducible] def HttpOp.Result : HttpOp → Type
  | .config => Except DispatchError ClickhouseConfig
  | .post _ => Except ReqwestError HttpResponse

abbrev HttpProgram (α : Type) := Program HttpOp HttpOp.Result α

def getConfig : HttpProgram (Except DispatchError ClickhouseConfig) := perform HttpOp.config

def post (request : HttpRequest) : HttpProgram (Except ReqwestError HttpResponse) :=
  perform (HttpOp.post request)

def targetUrl (cfg : ClickhouseConfig) (db : Option String) : String :=
  cfg.baseUrl ++ "/?max_execution_time=" ++ toString statementTimeoutSecs ++ "&database=" ++
    db.getD cfg.defaultDb

def requestFor (cfg : ClickhouseConfig) (db : Option String) (stmt : String) : HttpRequest :=
  ⟨targetUrl cfg db, cfg.user, cfg.password, stmt⟩

/-- The loop over the statements; the result is the last body. -/
def postAll (cfg : ClickhouseConfig) (db : Option String) :
    List String → String → HttpProgram (Except DispatchError (String × String))
  | [], lastBody => .done (.ok (lastBody, ""))
  | stmt :: rest, _ => do
    match ← post (requestFor cfg db stmt) with
    | .error e => .done (.error (mapReqwestError e))
    | .ok resp =>
      let body := resp.body.getD ""
      if resp.status.isSuccess then postAll cfg db rest body
      else .done (.error (mapClickhouseStatus resp.status body))

def execClickhouseInner (db : Option String) (sql : String) :
    HttpProgram (Except DispatchError (String × String)) := do
  match ← getConfig with
  | .error e => .done (.error e)
  | .ok cfg => postAll cfg db (splitClickhouseStatements sql) ""

def execClickhouse (sql : String) : HttpProgram (Except DispatchError (String × String)) :=
  execClickhouseInner none sql

/-- A method that checks a name before it does anything. -/
def checked {α : Type} (name : String) (p : HttpProgram (Except DispatchError α)) :
    HttpProgram (Except DispatchError α) :=
  if isSafeResourceName name then p
  else .done (.error (.config ("unsafe clickhouse database name: " ++ name)))

def execClickhouseInDatabase (db sql : String) :
    HttpProgram (Except DispatchError (String × String)) :=
  checked db (execClickhouseInner (some db) sql)

def unitAnswer {α : Type} (p : HttpProgram (Except DispatchError α)) :
    HttpProgram (Except DispatchError Unit) :=
  p >>= fun r => .done (r.map fun _ => ())

def pingClickhouse : HttpProgram (Except DispatchError Unit) :=
  unitAnswer (execClickhouse "SELECT 1")

def provisionClickhouseDatabase (name : String) : HttpProgram (Except DispatchError Unit) :=
  checked name (unitAnswer (execClickhouse (createDatabaseSql name)))

def teardownClickhouseDatabase (name : String) : HttpProgram (Except DispatchError Unit) :=
  checked name (unitAnswer (execClickhouse (dropDatabaseSql name)))

def listSql : String :=
  "SELECT name FROM system.databases WHERE name LIKE 'playground\\_%' FORMAT TabSeparated"

def namesIn (body : String) : List String :=
  (((RustText.lines body.toList).map RustText.trim).filter fun s => !s.isEmpty).map String.ofList

def listClickhousePlaygroundDatabases : HttpProgram (Except DispatchError (List String)) := do
  match ← execClickhouse listSql with
  | .error e => .done (.error e)
  | .ok (body, _) => .done (.ok (namesIn body))

/-- The methods of the dispatcher that reach ClickHouse. -/
inductive ClickhouseCall where
  | exec (sql : String)
  | execIn (db sql : String)
  | ping
  | provision (name : String)
  | teardown (name : String)
  | list
  deriving DecidableEq, Repr

/-- A call, without the text of its answer. -/
def ClickhouseCall.run : ClickhouseCall → HttpProgram (Except DispatchError Unit)
  | .exec sql => unitAnswer (execClickhouse sql)
  | .execIn db sql => unitAnswer (execClickhouseInDatabase db sql)
  | .ping => pingClickhouse
  | .provision name => provisionClickhouseDatabase name
  | .teardown name => teardownClickhouseDatabase name
  | .list => unitAnswer listClickhousePlaygroundDatabases

def ClickhouseCall.sql : ClickhouseCall → String
  | .exec sql => sql
  | .execIn _ sql => sql
  | .ping => "SELECT 1"
  | .provision name => "CREATE DATABASE IF NOT EXISTS `" ++ name ++ "`"
  | .teardown name => "DROP DATABASE IF EXISTS `" ++ name ++ "`"
  | .list => listSql

def ClickhouseCall.scope : ClickhouseCall → Option String
  | .execIn db _ => some db
  | .exec _ | .ping | .provision _ | .teardown _ | .list => none

def ClickhouseCall.accepted : ClickhouseCall → Bool
  | .execIn name _ | .provision name | .teardown name => isSafeResourceName name
  | .exec _ | .ping | .list => true

/-- The requests of a call in full: one for each statement of its script. -/
def ClickhouseCall.requests (cfg : ClickhouseConfig) (c : ClickhouseCall) : List HttpRequest :=
  if c.accepted then (splitClickhouseStatements c.sql).map (requestFor cfg c.scope) else []

section Server

variable {ι : Type}

structure Entry (ι : Type) where
  caller : ι
  request : HttpRequest

/-- The statement was carried out: the server says so with a success status. -/
def Succeeded : Except ReqwestError HttpResponse → Prop
  | .error _ => False
  | .ok resp => resp.status.isSuccess = true

/-- A step of one caller. The configuration is read once for all callers. A statement that failed or
was not answered may have been carried out all the same. -/
def serve (cfg : ClickhouseConfig) (i : ι) (s : List (Entry ι)) :
    (op : HttpOp) → op.Result → List (Entry ι) → Prop
  | .config, .error _, s' => s' = s
  | .config, .ok c, s' => c = cfg ∧ s' = s
  | .post req, r, s' =>
    s' = s ++ [⟨i, req⟩] ∨ (¬ Succeeded r ∧ s' = s)

variable [DecidableEq ι]

def requestsOf (i : ι) (s : List (Entry ι)) : List HttpRequest :=
  (s.filter fun e => decide (e.caller = i)).map Entry.request

def InOrder (i : ι) (all : List HttpRequest) (s : List (Entry ι)) : HttpOp → Prop
  | .config => requestsOf i s = []
  | .post req => requestsOf i s ++ [req] <+: all

/-- What a call leaves: after a success all its requests, after an error the first of them. -/
def Settled {α : Type} (i : ι) (all : List HttpRequest) (out : Except DispatchError α)
    (s : List (Entry ι)) : Prop :=
  match out with
  | .ok _ => requestsOf i s = all
  | .error _ => requestsOf i s <+: all

def contract (cfg : ClickhouseConfig) (i : ι) (all : List HttpRequest) :
    Contract HttpOp HttpOp.Result (List (Entry ι)) where
  step := serve cfg i
  rely s s' := requestsOf i s' = requestsOf i s
  guarantee s s' := ∀ j, j ≠ i → requestsOf j s' = requestsOf j s
  safe := InOrder i all

end Server

section Outlines

variable {ι : Type} [DecidableEq ι] {cfg : ClickhouseConfig} {i : ι} {all sent : List HttpRequest}
  {db : Option String} {stmts : List String} {sql last name : String} {s : List (Entry ι)}
  {request : HttpRequest} {α : Type}

theorem requestsOf_own : requestsOf i (s ++ [⟨i, request⟩]) = requestsOf i s ++ [request] := by
  simp [requestsOf, List.filter_append]

theorem requestsOf_other {j : ι} (hj : j ≠ i) :
    requestsOf j (s ++ [⟨i, request⟩]) = requestsOf j s := by
  simp [requestsOf, List.filter_append, Ne.symm hj]

theorem stable_of {A : List HttpRequest → Prop} :
    (contract cfg i all).Stable fun s => A (requestsOf i s) := by
  intro s s' hs hrely
  have hsame : requestsOf i s' = requestsOf i s := hrely
  rwa [hsame]

theorem postAll_outline (hall : all = sent ++ stmts.map (requestFor cfg db)) :
    (contract cfg i all).Outline (Settled i all) (postAll cfg db stmts last)
      fun s => requestsOf i s = sent := by
  induction stmts generalizing sent last with
  | nil =>
    intro s hs
    rw [List.map_nil, List.append_nil] at hall
    exact hs.trans hall.symm
  | cons stmt rest ih =>
    have hnext : sent ++ [requestFor cfg db stmt] <+: all := by
      refine ⟨rest.map (requestFor cfg db), ?_⟩
      rw [hall, List.append_assoc]
      rfl
    refine outline_perform (C := fun r s =>
      requestsOf i s = sent ++ [requestFor cfg db stmt] ∨ ¬ Succeeded r ∧ requestsOf i s = sent)
      ?_ ?_ (fun r => stable_of (A := fun own =>
        own = sent ++ [requestFor cfg db stmt] ∨ ¬ Succeeded r ∧ own = sent)) ?_
    · intro s hs
      change requestsOf i s ++ _ <+: all
      rwa [hs]
    · intro s r s' hs hserve
      rcases hserve with hdone | ⟨hfailed, hsame⟩
      · rw [hdone]
        refine ⟨fun j hj => requestsOf_other hj, Or.inl ?_⟩
        rw [requestsOf_own, hs]
      · rw [hsame]
        exact ⟨fun j _ => rfl, Or.inr ⟨hfailed, hs⟩⟩
    · have hbeginning : ∀ r (s : List (Entry ι)),
          requestsOf i s = sent ++ [requestFor cfg db stmt] ∨
            ¬ Succeeded r ∧ requestsOf i s = sent → requestsOf i s <+: all := by
        rintro r s (h | ⟨-, h⟩)
        · rwa [h]
        · rw [h]
          exact (List.prefix_append _ _).trans hnext
      intro r
      cases r with
      | error e => exact fun s hs => hbeginning _ s hs
      | ok resp =>
        dsimp only
        split
        · rename_i hsuccess
          have hrest : all = (sent ++ [requestFor cfg db stmt]) ++
              rest.map (requestFor cfg db) := by
            rw [hall, List.append_assoc]
            rfl
          exact (ih hrest).strengthen fun s hs => hs.resolve_right fun h => h.1 hsuccess
        · exact fun s hs => hbeginning _ s hs

theorem execClickhouseInner_outline
    (hall : all = (splitClickhouseStatements sql).map (requestFor cfg db)) :
    (contract cfg i all).Outline (Settled i all) (execClickhouseInner db sql)
      fun s => requestsOf i s = [] := by
  refine outline_perform (C := fun r s => requestsOf i s = [] ∧ ∀ c, r = .ok c → c = cfg)
    (fun s hs => hs) ?_ ?_ ?_
  · intro s r s' hs hserve
    cases r with
    | error e =>
      have hsame : s' = s := hserve
      rw [hsame]
      exact ⟨fun j _ => rfl, hs, fun c hc => by cases hc⟩
    | ok c =>
      obtain ⟨hc, hsame⟩ : c = cfg ∧ s' = s := hserve
      rw [hsame]
      exact ⟨fun j _ => rfl, hs, fun d hd => by cases hd; exact hc⟩
  · exact fun r => stable_of (A := fun own => own = [] ∧ ∀ c, r = .ok c → c = cfg)
  · intro r
    cases r with
    | error e =>
      intro s hs
      rw [Settled, hs.1]
      exact List.nil_prefix
    | ok c =>
      by_cases hc : c = cfg
      · rw [hc]
        have hnone : all = [] ++ (splitClickhouseStatements sql).map (requestFor cfg db) := hall
        exact (postAll_outline hnone).strengthen fun s hs => hs.1
      · exact Outline.of_false _ fun s hs => hc (hs.2 c rfl)

theorem checked_outline {p : HttpProgram (Except DispatchError α)}
    (hp : isSafeResourceName name = true →
      (contract cfg i all).Outline (Settled i all) p fun s => requestsOf i s = []) :
    (contract cfg i all).Outline (Settled i all) (checked name p)
      fun s => requestsOf i s = [] := by
  unfold checked
  split
  · rename_i hsafe
    exact hp hsafe
  · intro s hs
    rw [Settled, hs]
    exact List.nil_prefix

theorem unitAnswer_outline {p : HttpProgram (Except DispatchError α)}
    (hp : (contract cfg i all).Outline (Settled i all) p fun s => requestsOf i s = []) :
    (contract cfg i all).Outline (Settled i all) (unitAnswer p) fun s => requestsOf i s = [] := by
  refine hp.bind fun out => ?_
  cases out with
  | error e => exact fun s hs => hs
  | ok a => exact fun s hs => hs

theorem run_outline (i : ι) (c : ClickhouseCall) :
    (contract cfg i (c.requests cfg)).Outline (Settled i (c.requests cfg)) c.run
      fun s => requestsOf i s = [] := by
  cases c with
  | exec | ping => exact unitAnswer_outline (execClickhouseInner_outline rfl)
  | execIn =>
    exact unitAnswer_outline (checked_outline fun hsafe =>
      execClickhouseInner_outline (if_pos hsafe))
  | provision | teardown =>
    exact checked_outline fun hsafe => unitAnswer_outline
      (execClickhouseInner_outline (if_pos hsafe))
  | list =>
    refine unitAnswer_outline ((execClickhouseInner_outline rfl).bind fun out => ?_)
    cases out with
    | error e => exact fun s hs => hs
    | ok body => exact fun s hs => hs

end Outlines

section Urls

variable {cfg : ClickhouseConfig} {db : Option String}

/-- The environment gives an address, and a default database with a name like those of sessions. -/
structure PlainConfig (cfg : ClickhouseConfig) : Prop where
  base : ∀ c ∈ cfg.baseUrl.toList, c ≠ '?' ∧ c ≠ '#'
  defaultDb : ∀ c ∈ cfg.defaultDb.toList, identifierChar c = true

theorem identifierChar_plain {c : Char} (h : identifierChar c = true) : isPlain c = true := by
  have hcases := identifierChar_cases h
  have hne : ∀ d : Char, c.toNat ≠ d.toNat → c ≠ d := fun d hd e => hd (e ▸ rfl)
  have hnum : c.toNat ≠ 38 ∧ c.toNat ≠ 61 ∧ c.toNat ≠ 35 ∧ c.toNat ≠ 37 ∧ c.toNat ≠ 43 := by omega
  exact isPlain_iff.mpr ⟨hne '&' hnum.1, hne '=' hnum.2.1, hne '#' hnum.2.2.1,
    hne '%' hnum.2.2.2.1, hne '+' hnum.2.2.2.2⟩

theorem plain_limit : Plain "max_execution_time".toList :=
  List.all_eq_true.mp (by decide)

theorem plain_seconds : Plain (toString statementTimeoutSecs).toList :=
  List.all_eq_true.mp (by decide)

theorem plain_database : Plain "database".toList :=
  List.all_eq_true.mp (by decide)

/-- The server reads the time limit and the database from the URL of a call. -/
theorem targetUrl_parameters (hbase : ∀ c ∈ cfg.baseUrl.toList, c ≠ '?' ∧ c ≠ '#')
    (hdb : ∀ c ∈ (db.getD cfg.defaultDb).toList, identifierChar c = true) :
    parameters (targetUrl cfg db).toList =
      [(utf8 "max_execution_time".toList, utf8 (toString statementTimeoutSecs).toList),
        (utf8 "database".toList, utf8 (db.getD cfg.defaultDb).toList)] := by
  have hurl : (targetUrl cfg db).toList = (cfg.baseUrl.toList ++ ['/']) ++ '?' ::
      writeQuery [("max_execution_time".toList, (toString statementTimeoutSecs).toList),
        ("database".toList, (db.getD cfg.defaultDb).toList)] := by
    simp [targetUrl, writeQuery, writePair, List.intercalate_cons_cons]
  have hplain : Plain (db.getD cfg.defaultDb).toList := fun c hc => identifierChar_plain (hdb c hc)
  rw [hurl, parameters_write ?_ (by simp) ?_]
  · rfl
  · intro c hc
    rcases List.mem_append.mp hc with hc | hc
    · exact hbase c hc
    · rw [List.mem_singleton.mp hc]
      decide
  · intro pair hpair
    rcases List.mem_cons.mp hpair with rfl | hpair
    · exact ⟨plain_limit, plain_seconds⟩
    · rw [List.mem_singleton.mp hpair]
      exact ⟨plain_database, hplain⟩

end Urls

section Runs

variable {ι : Type} [DecidableEq ι] {cfg : ClickhouseConfig}

def served (cfg : ClickhouseConfig) :
    Guard ι HttpOp HttpOp.Result (Except DispatchError Unit) (List (Entry ι)) :=
  fun t i op r s' => serve cfg i t.state op r s'

def ClickhouseCall.target (cfg : ClickhouseConfig) (c : ClickhouseCall) : String :=
  c.scope.getD cfg.defaultDb

theorem target_chars (hcfg : PlainConfig cfg) {c : ClickhouseCall} (haccepted : c.accepted = true) :
    ∀ d ∈ (c.target cfg).toList, identifierChar d = true := by
  cases c with
  | execIn db sql => exact resourceName_chars haccepted
  | exec | ping | provision | teardown | list => exact hcfg.defaultDb

theorem mem_requests {c : ClickhouseCall} {req : HttpRequest} (h : req ∈ c.requests cfg) :
    c.accepted = true ∧ ∃ stmt ∈ splitClickhouseStatements c.sql,
      req = requestFor cfg c.scope stmt := by
  unfold ClickhouseCall.requests at h
  split at h
  · rename_i haccepted
    obtain ⟨stmt, hstmt, rfl⟩ := List.mem_map.mp h
    exact ⟨haccepted, stmt, hstmt, rfl⟩
  · cases h

/-- However the calls of all sessions interleave, what ClickHouse has carried out for a call is the
beginning of its statements, in order and each once, and all of them if the call succeeded. Where
the configuration is a plain one, every one of them came with the database of the call and the time
limit in its URL. -/
theorem statements_run_in_order {calls : ι → ClickhouseCall}
    {p q : Pool ι HttpOp HttpOp.Result (Except DispatchError Unit) (List (Entry ι))}
    (hcalls : ∀ i, p.thread i = (calls i).run) (hempty : p.state = [])
    (hrun : Execution (fun _ _ _ _ => True) (served cfg) p q) (i : ι) :
    requestsOf i q.state <+: (calls i).requests cfg ∧
      (∀ u, q.thread i = .done (.ok u) → requestsOf i q.state = (calls i).requests cfg) ∧
      (PlainConfig cfg → ∀ req ∈ requestsOf i q.state, parameters req.url.toList =
        [(utf8 "max_execution_time".toList, utf8 (toString statementTimeoutSecs).toList),
          (utf8 "database".toList, utf8 ((calls i).target cfg).toList)]) := by
  have hstart : ∀ i, (contract cfg i ((calls i).requests cfg)).Meets
      (Settled i ((calls i).requests cfg)) (p.thread i) p.state := by
    intro i
    rw [hcalls i, hempty]
    exact ⟨fun s => requestsOf i s = [], stable_of (A := fun own => own = []), rfl,
      run_outline i (calls i)⟩
  have hend := meets_together hrun hstart (fun t i op r s' _ hserved => hserved)
    (fun i j s s' hj hguarantee => hguarantee i (Ne.symm hj)) i
  have hbeginning : requestsOf i q.state <+: (calls i).requests cfg := by
    cases hthread : q.thread i with
    | request op next =>
      rw [hthread] at hend
      have hsafe : InOrder i ((calls i).requests cfg) q.state op := hend.safe
      cases op with
      | config =>
        have hnone : requestsOf i q.state = [] := hsafe
        rw [hnone]
        exact List.nil_prefix
      | post req => exact (List.prefix_append _ _).trans hsafe
    | done out =>
      rw [hthread] at hend
      have hsettled := hend.done
      cases out with
      | error e => exact hsettled
      | ok u =>
        have hall : requestsOf i q.state = (calls i).requests cfg := hsettled
        exact hall ▸ List.prefix_refl _
  refine ⟨hbeginning, ?_, ?_⟩
  · intro u hdone
    rw [hdone] at hend
    exact hend.done
  · intro hcfg req hreq
    obtain ⟨haccepted, stmt, -, rfl⟩ := mem_requests (hbeginning.subset hreq)
    exact targetUrl_parameters hcfg.base (target_chars hcfg haccepted)

end Runs

section Example

/-- One session sends two statements while another asks for its database. -/
def twoCalls (own : Bool) : ClickhouseCall :=
  if own then .execIn "playground_a_b" "SELECT 1; SELECT 2"
  else .provision "playground_c_d"

def localhost : ClickhouseConfig := ⟨"http://clickhouse:8123", "playground", "secret", "playground"⟩

def calling : Pool Bool HttpOp HttpOp.Result (Except DispatchError Unit) (List (Entry Bool)) where
  thread own := (twoCalls own).run
  state := []

theorem plainConfig_localhost : PlainConfig localhost := by
  have hbase : localhost.baseUrl.toList.all (fun c => c != '?' && c != '#') = true := by decide
  refine ⟨fun c hc => ?_, List.all_eq_true.mp (by decide)⟩
  simpa using List.all_eq_true.mp hbase c hc

theorem split_twoStatements :
    splitClickhouseStatements "SELECT 1; SELECT 2" = ["SELECT 1", "SELECT 2"] := by
  rw [PlaygroundClickhouse.splitClickhouseStatements_eq]
  decide

theorem split_createDatabase :
    splitClickhouseStatements "CREATE DATABASE IF NOT EXISTS `playground_c_d`" =
      ["CREATE DATABASE IF NOT EXISTS `playground_c_d`"] := by
  rw [PlaygroundClickhouse.splitClickhouseStatements_eq]
  decide

theorem advance_config {p : Pool Bool HttpOp HttpOp.Result (Except DispatchError Unit)
    (List (Entry Bool))} {i : Bool} {db : Option String} {sql : String} {stmts : List String}
    {s : List (Entry Bool)} (hsplit : splitClickhouseStatements sql = stmts) :
    (p.advance i (unitAnswer (postAll localhost db (splitClickhouseStatements sql) ""))
      s).thread i = unitAnswer (postAll localhost db stmts "") := by
  rw [Pool.advance_self, hsplit]

/-- The database was created between two statements of the other session, of which the second timed
out after the server had carried it out. -/
theorem statements_run_in_order_unanswered :
    ∃ q : Pool Bool HttpOp HttpOp.Result (Except DispatchError Unit) (List (Entry Bool)),
      q.thread true = .done (.error (.timeout 30)) ∧ q.thread false = .done (.ok ()) ∧
        requestsOf true q.state <+: (twoCalls true).requests localhost ∧
        requestsOf false q.state = (twoCalls false).requests localhost ∧
        q.state.map Entry.caller = [true, false, true] ∧
        ∀ req ∈ requestsOf false q.state, parameters req.url.toList =
          [(utf8 "max_execution_time".toList, utf8 "30".toList),
            (utf8 "database".toList, utf8 "playground".toList)] := by
  have hstart : Execution (fun _ _ _ _ => True) (served localhost) calling calling := .refl _
  have hconfig := hstart.tail true rfl trivial
    (show serve localhost true calling.state .config (.ok localhost) _ from ⟨rfl, rfl⟩)
  have hfirst := hconfig.tail true (advance_config split_twoStatements) trivial
    (show serve localhost true _ (.post (requestFor localhost (some "playground_a_b") "SELECT 1"))
      (.ok ⟨⟨200, "200 OK"⟩, some ""⟩) _ from Or.inl rfl)
  have hother := hfirst.tail false rfl trivial
    (show serve localhost false _ .config (.ok localhost) _ from ⟨rfl, rfl⟩)
  have hcreated := hother.tail false (advance_config split_createDatabase) trivial
    (show serve localhost false _ (.post (requestFor localhost none
      "CREATE DATABASE IF NOT EXISTS `playground_c_d`")) (.ok ⟨⟨200, "200 OK"⟩, some ""⟩) _ from
      Or.inl rfl)
  have hsecond := hcreated.tail true rfl trivial
    (show serve localhost true _ (.post (requestFor localhost (some "playground_a_b") "SELECT 2"))
      (.error ⟨true, false, "timed out"⟩) _ from Or.inl rfl)
  have hcalls : ∀ own, calling.thread own = (twoCalls own).run := fun _ => rfl
  have hwriter := statements_run_in_order hcalls rfl hsecond true
  have hcreator := statements_run_in_order hcalls rfl hsecond false
  exact ⟨_, rfl, rfl, hwriter.1, hcreator.2.1 () rfl, rfl, hcreator.2.2 plainConfig_localhost⟩

end Example

end PlaygroundClickhouseCalls
