import Playground.PlaygroundDispatcher
import Playground.PlaygroundSidecarErrors
import Playground.ProofOutlines

/-! # The MySQL calls of the dispatcher

A call takes a connection out of the pool, sets it up with two statements, sends the script and
gives the connection back. The calls of all sessions share the pool. -/
namespace PlaygroundMysqlCalls

open DecimalText
open InteractionPrograms
open InteractionPrograms.Program
open PlaygroundDispatcher (dropDatabaseSql)
open PlaygroundNames
open PlaygroundOperations
open PlaygroundSidecarErrors
open ProofOutlines
open ProofOutlines.Contract

inductive MysqlOp where
  | pool
  | getConn
  | query (conn : ℕ) (sql : String)
  | affectedRows (conn : ℕ)
  | queryRows (conn : ℕ) (sql : String)
  | release (conn : ℕ)
  deriving DecidableEq, Repr

@[reducible] def MysqlOp.Result : MysqlOp → Type
  | .pool => Except DispatchError Unit
  | .getConn => Except MysqlError ℕ
  | .query _ _ => Except MysqlError Unit
  | .affectedRows _ => ℕ
  | .queryRows _ _ => Except MysqlError (List String)
  | .release _ => Unit

abbrev MysqlProgram (α : Type) := Program MysqlOp MysqlOp.Result α

def getPool : MysqlProgram (Except DispatchError Unit) := perform MysqlOp.pool

def getConn : MysqlProgram (Except MysqlError ℕ) := perform MysqlOp.getConn

def queryDrop (conn : ℕ) (sql : String) : MysqlProgram (Except MysqlError Unit) :=
  perform (MysqlOp.query conn sql)

def affectedRows (conn : ℕ) : MysqlProgram ℕ := perform (MysqlOp.affectedRows conn)

def queryRows (conn : ℕ) (sql : String) : MysqlProgram (Except MysqlError (List String)) :=
  perform (MysqlOp.queryRows conn sql)

/-- `drop(conn)`, also where an early return drops it. -/
def release (conn : ℕ) : MysqlProgram Unit := perform (MysqlOp.release conn)

def limitSql : String :=
  "SET SESSION MAX_EXECUTION_TIME = " ++ toString (statementTimeoutSecs * 1000)

def useSql (db : String) : String := "USE `" ++ db ++ "`"

def enterDatabase (conn : ℕ) : Option String → MysqlProgram (Except MysqlError Unit)
  | none => .done (.ok ())
  | some db => queryDrop conn (useSql db)

/-- The statements of a call on its connection, up to the first that fails. -/
def onConnection (db : Option String) (sql : String) (conn : ℕ) :
    MysqlProgram (Except MysqlError (String × String)) := do
  match ← queryDrop conn limitSql with
  | .error e => .done (.error e)
  | .ok () =>
    match ← enterDatabase conn db with
    | .error e => .done (.error e)
    | .ok () =>
      match ← queryDrop conn sql with
      | .error e => .done (.error e)
      | .ok () => do
        let rows ← affectedRows conn
        .done (.ok ("OK (" ++ toString rows ++ " rows)", ""))

/-- A pooled connection for the time of a body. -/
def withConnection {α : Type} (body : ℕ → MysqlProgram (Except MysqlError α)) :
    MysqlProgram (Except DispatchError α) := do
  match ← getPool with
  | .error e => .done (.error e)
  | .ok () =>
    match ← getConn with
    | .error e => .done (.error (mapMysqlError e))
    | .ok conn => do
      let result ← body conn
      release conn
      .done (result.mapError mapMysqlError)

def execMysqlInner (db : Option String) (sql : String) :
    MysqlProgram (Except DispatchError (String × String)) :=
  withConnection (onConnection db sql)

def execMysql (sql : String) : MysqlProgram (Except DispatchError (String × String)) :=
  execMysqlInner none sql

def checked {α : Type} (name : String) (p : MysqlProgram (Except DispatchError α)) :
    MysqlProgram (Except DispatchError α) :=
  if isSafeResourceName name then p
  else .done (.error (.config ("unsafe mysql database name: " ++ name)))

def execMysqlInDatabase (db sql : String) :
    MysqlProgram (Except DispatchError (String × String)) :=
  checked db (execMysqlInner (some db) sql)

def unitAnswer {α : Type} (p : MysqlProgram (Except DispatchError α)) :
    MysqlProgram (Except DispatchError Unit) :=
  p >>= fun r => .done (r.map fun _ => ())

def pingMysql : MysqlProgram (Except DispatchError Unit) := unitAnswer (execMysql "SELECT 1")

def provisionMysqlDatabase (name : String) : MysqlProgram (Except DispatchError Unit) :=
  checked name (unitAnswer (execMysql ("CREATE DATABASE IF NOT EXISTS `" ++ name ++ "`")))

def teardownMysqlDatabase (name : String) : MysqlProgram (Except DispatchError Unit) :=
  checked name (unitAnswer (execMysql (dropDatabaseSql name)))

def listSql : String :=
  "SELECT SCHEMA_NAME FROM information_schema.SCHEMATA WHERE SCHEMA_NAME LIKE 'playground\\_%'"

def listMysqlPlaygroundDatabases : MysqlProgram (Except DispatchError (List String)) :=
  withConnection fun conn => queryRows conn listSql

/-- The methods of the dispatcher that reach MySQL. -/
inductive MysqlCall where
  | exec (sql : String)
  | execIn (db sql : String)
  | ping
  | provision (name : String)
  | teardown (name : String)
  | list
  deriving DecidableEq, Repr

def MysqlCall.run : MysqlCall → MysqlProgram Unit
  | .exec sql => execMysql sql >>= fun _ => .done ()
  | .execIn db sql => execMysqlInDatabase db sql >>= fun _ => .done ()
  | .ping => pingMysql >>= fun _ => .done ()
  | .provision name => provisionMysqlDatabase name >>= fun _ => .done ()
  | .teardown name => teardownMysqlDatabase name >>= fun _ => .done ()
  | .list => listMysqlPlaygroundDatabases >>= fun _ => .done ()

def MysqlCall.scope : MysqlCall → Option String
  | .execIn db _ => some db
  | .exec _ | .ping | .provision _ | .teardown _ | .list => none

section Server

variable {ι : Type}

structure Settings where
  database : Option String
  timeLimit : Option ℕ
  deriving DecidableEq, Repr

/-- The pool: who holds a connection, and the settings of each. -/
structure Connections (ι : Type) where
  holder : ℕ → Option ι
  settings : ℕ → Settings

/-- What the two set-up statements mean to the server. -/
structure SetsUp (sql : String) (before after : Settings) : Prop where
  limit : ∀ n : ℕ, sql = "SET SESSION MAX_EXECUTION_TIME = " ++ toString n →
    after = { before with timeLimit := some n }
  use : ∀ db, isSafeResourceName db = true → sql = "USE `" ++ db ++ "`" →
    after = { before with database := some db }

theorem useSql_inj {db other : String} (h : useSql db = useSql other) : db = other := by
  unfold useSql at h
  simpa using h

theorem limitText_inj {m n : ℕ} (h : "SET SESSION MAX_EXECUTION_TIME = " ++ toString m =
    "SET SESSION MAX_EXECUTION_TIME = " ++ toString n) : m = n :=
  toString_inj (by simpa using h)

theorem limitText_ne (n : ℕ) (db : String) :
    "SET SESSION MAX_EXECUTION_TIME = " ++ toString n ≠ useSql db := by
  intro h
  have hlist := congrArg String.toList h
  unfold useSql at hlist
  simp at hlist

theorem setsUp_limit (c : Settings) :
    SetsUp limitSql c { c with timeLimit := some (statementTimeoutSecs * 1000) } := by
  refine ⟨fun n h => ?_, fun db _ h => absurd h (limitText_ne _ db)⟩
  rw [limitText_inj h]

theorem setsUp_use (db : String) (c : Settings) :
    SetsUp (useSql db) c { c with database := some db } := by
  refine ⟨fun n h => absurd h.symm (limitText_ne n db), ?_⟩
  intro other _ h
  rw [useSql_inj h]

def OnlyOn (conn : ℕ) (s s' : Connections ι) : Prop :=
  s'.holder = s.holder ∧ ∀ other, other ≠ conn → s'.settings other = s.settings other

/-- A step of one caller. The pool hands out a connection that nobody holds, in any state; a
script may change the settings of its connection. -/
def serve (i : ι) (s : Connections ι) : (op : MysqlOp) → op.Result → Connections ι → Prop
  | .pool, _, s' => s' = s
  | .getConn, .error _, s' => s' = s
  | .getConn, .ok conn, s' => s.holder conn = none ∧
    s'.holder = Function.update s.holder conn (some i) ∧
    ∀ other, other ≠ conn → s'.settings other = s.settings other
  | .query conn _, .error _, s' => OnlyOn conn s s'
  | .query conn sql, .ok (), s' =>
    OnlyOn conn s s' ∧ SetsUp sql (s.settings conn) (s'.settings conn)
  | .affectedRows _, _, s' => s' = s
  | .queryRows conn _, _, s' => OnlyOn conn s s'
  | .release conn, _, s' => s'.holder = Function.update s.holder conn none ∧
    ∀ other, other ≠ conn → s'.settings other = s.settings other

def Ready (scope : Option String) (c : Settings) : Prop :=
  c.timeLimit = some (statementTimeoutSecs * 1000) ∧ ∀ db, scope = some db → c.database = some db

def IsSetUp (scope : Option String) (sql : String) : Prop :=
  sql = "SET SESSION MAX_EXECUTION_TIME = 30000" ∨
    ∃ db, scope = some db ∧ sql = "USE `" ++ db ++ "`"

/-- A caller sends only over a connection it holds, and a script only where it belongs. -/
def InScope (i : ι) (scope : Option String) (s : Connections ι) : MysqlOp → Prop
  | .query conn sql =>
    s.holder conn = some i ∧ (IsSetUp scope sql ∨ Ready scope (s.settings conn))
  | .queryRows conn _ => s.holder conn = some i
  | .affectedRows conn => s.holder conn = some i
  | .release conn => s.holder conn = some i
  | .pool | .getConn => True

def Untouched (i : ι) (s s' : Connections ι) : Prop :=
  ∀ conn, (s'.holder conn = some i ↔ s.holder conn = some i) ∧
    (s.holder conn = some i → s'.settings conn = s.settings conn)

def contract (i : ι) (scope : Option String) : Contract MysqlOp MysqlOp.Result (Connections ι) where
  step := serve i
  rely := Untouched i
  guarantee s s' := ∀ j, j ≠ i → Untouched j s s'
  safe := InScope i scope

def Free (i : ι) (s : Connections ι) : Prop := ∀ conn, s.holder conn ≠ some i

/-- The caller holds just this connection, with settings of which something is known. -/
def Holds (i : ι) (conn : ℕ) (known : Settings → Prop) (s : Connections ι) : Prop :=
  (∀ other, s.holder other = some i ↔ other = conn) ∧ known (s.settings conn)

end Server

section Outlines

variable {ι : Type} {i : ι} {scope : Option String} {conn : ℕ} {sql db : String}
  {known known' : Settings → Prop} {s s' : Connections ι} {α : Type}

theorem free_stable : (contract i scope).Stable (Free i) :=
  fun _ _ hs hrely other hheld => hs other ((hrely other).1.mp hheld)

theorem holds_stable : (contract i scope).Stable (Holds i conn known) := by
  intro s s' hs hrely
  refine ⟨fun other => (hrely other).1.trans (hs.1 other), ?_⟩
  rw [(hrely conn).2 ((hs.1 conn).mpr rfl)]
  exact hs.2

theorem Holds.forget (h : Holds i conn known s) : Holds i conn (fun _ => True) s := ⟨h.1, trivial⟩

theorem OnlyOn.untouched (h : OnlyOn conn s s') (hown : s.holder conn = some i) {j : ι}
    (hj : j ≠ i) : Untouched j s s' := by
  intro other
  rw [h.1]
  refine ⟨Iff.rfl, fun hheld => h.2 other ?_⟩
  rintro rfl
  rw [hown, Option.some.injEq] at hheld
  exact hj hheld.symm

theorem OnlyOn.holds (h : OnlyOn conn s s') (hs : Holds i conn known s)
    (hknown : known' (s'.settings conn)) : Holds i conn known' s' := by
  refine ⟨fun other => ?_, hknown⟩
  rw [h.1]
  exact hs.1 other

def After (r : Except MysqlError Unit) (known : Settings → Prop) (c : Settings) : Prop :=
  r = .ok () → known c

theorem queryDrop_outline (hsafe : IsSetUp scope sql ∨ ∀ c, known c → Ready scope c)
    (hset : ∀ c c', known c → SetsUp sql c c' → known' c') :
    (contract i scope).Outline
      (fun r s => Holds i conn (After r known') s) (queryDrop conn sql)
      (Holds i conn known) := by
  refine ⟨?_, fun r => Holds i conn (After r known'), ?_, ?_⟩
  · intro s hs
    exact ⟨(hs.1 conn).mpr rfl, hsafe.imp_right fun hready => hready _ hs.2⟩
  · intro s r s' hs hserve
    have hown : s.holder conn = some i := (hs.1 conn).mpr rfl
    cases r with
    | error e =>
      have honly : OnlyOn conn s s' := hserve
      exact ⟨fun j hj => honly.untouched hown hj, honly.holds hs fun hr => by cases hr⟩
    | ok u =>
      obtain ⟨honly, hsets⟩ : OnlyOn conn s s' ∧ SetsUp sql _ _ := hserve
      exact ⟨fun j hj => honly.untouched hown hj, honly.holds hs fun _ => hset _ _ hs.2 hsets⟩
  · exact fun r => ⟨holds_stable, fun s hs => hs⟩

theorem andThen_outline {β : Type} {post : β → Connections ι → Prop}
    {A : Connections ι → Prop} {p : MysqlProgram (Except MysqlError Unit)}
    {f : Except MysqlError Unit → MysqlProgram β}
    (hp : (contract i scope).Outline (fun r s => Holds i conn (After r known') s) p A)
    (hok : (contract i scope).Outline post (f (.ok ())) (Holds i conn known'))
    (herror : ∀ e, (contract i scope).Outline post (f (.error e)) (Holds i conn fun _ => True)) :
    (contract i scope).Outline post (p >>= f) A := by
  refine hp.bind fun r => ?_
  cases r with
  | error e => exact (herror e).strengthen fun s hs => hs.forget
  | ok u => exact hok.strengthen fun s hs => ⟨hs.1, hs.2 rfl⟩

def Limited (c : Settings) : Prop := c.timeLimit = some (statementTimeoutSecs * 1000)

theorem limitSql_outline :
    (contract i scope).Outline (fun r s => Holds i conn (After r Limited) s)
      (queryDrop conn limitSql) (Holds i conn fun _ => True) := by
  refine queryDrop_outline (Or.inl (Or.inl rfl)) ?_
  intro c c' _ hsets
  rw [hsets.limit 30000 rfl]
  rfl

theorem enterDatabase_outline (hsafe : ∀ db, scope = some db → isSafeResourceName db = true) :
    (contract i scope).Outline (fun r s => Holds i conn (After r (Ready scope)) s)
      (enterDatabase conn scope) (Holds i conn Limited) := by
  cases scope with
  | none => exact fun s hs => ⟨hs.1, fun _ => ⟨hs.2, fun db hdb => by cases hdb⟩⟩
  | some db =>
    refine queryDrop_outline (Or.inl (Or.inr ⟨db, rfl, rfl⟩)) ?_
    intro c c' hlimited hsets
    rw [hsets.use db (hsafe db rfl) rfl]
    refine ⟨hlimited, ?_⟩
    rintro d hd
    rw [hd]

theorem onConnection_outline (hsafe : ∀ db, scope = some db → isSafeResourceName db = true) :
    (contract i scope).Outline (fun _ s => Holds i conn (fun _ => True) s)
      (onConnection scope sql conn) (Holds i conn fun _ => True) := by
  refine andThen_outline limitSql_outline ?_ fun e s hs => hs
  refine andThen_outline (enterDatabase_outline hsafe) ?_ fun e s hs => hs
  have hscript : (contract i scope).Outline
      (fun r s => Holds i conn (After r fun _ => True) s) (queryDrop conn sql)
      (Holds i conn (Ready scope)) :=
    queryDrop_outline (Or.inr fun c hc => hc) fun _ _ _ _ => trivial
  refine andThen_outline hscript ?_ fun e s hs => hs
  refine outline_perform (C := fun _ => Holds i conn fun _ => True) ?_ ?_ ?_ ?_
  · exact fun s hs => (hs.1 conn).mpr rfl
  · intro s r s' hs hserve
    have hsame : s' = s := hserve
    rw [hsame]
    exact ⟨fun j _ other => ⟨Iff.rfl, fun _ => rfl⟩, hs.forget⟩
  · exact fun r => holds_stable
  · exact fun r s hs => hs

theorem queryRows_outline :
    (contract i scope).Outline (fun _ s => Holds i conn (fun _ => True) s) (queryRows conn sql)
      (Holds i conn fun _ => True) := by
  refine ⟨fun s hs => (hs.1 conn).mpr rfl, fun _ => Holds i conn fun _ => True, ?_, ?_⟩
  · intro s r s' hs hserve
    have honly : OnlyOn conn s s' := hserve
    exact ⟨fun j hj => honly.untouched ((hs.1 conn).mpr rfl) hj, honly.holds hs trivial⟩
  · exact fun r => ⟨holds_stable, fun s hs => hs⟩

theorem withConnection_outline {body : ℕ → MysqlProgram (Except MysqlError α)}
    (hbody : ∀ conn, (contract i scope).Outline (fun _ s => Holds i conn (fun _ => True) s)
      (body conn) (Holds i conn fun _ => True)) :
    (contract i scope).Outline (fun _ s => Free i s) (withConnection body) (Free i) := by
  refine outline_perform (C := fun _ => Free i) (fun _ _ => trivial) ?_ (fun _ => free_stable) ?_
  · intro s r s' hs hserve
    have hsame : s' = s := hserve
    rw [hsame]
    exact ⟨fun j _ other => ⟨Iff.rfl, fun _ => rfl⟩, hs⟩
  intro pool
  cases pool with
  | error e => exact fun s hs => hs
  | ok u =>
    refine outline_perform (C := fun r => match r with
      | .error _ => Free i
      | .ok conn => Holds i conn fun _ => True) (fun _ _ => trivial) ?_ ?_ ?_
    · intro s r s' hs hserve
      cases r with
      | error e =>
        have hsame : s' = s := hserve
        rw [hsame]
        exact ⟨fun j _ other => ⟨Iff.rfl, fun _ => rfl⟩, hs⟩
      | ok conn =>
        obtain ⟨hidle, htaken, hothers⟩ := hserve
        refine ⟨fun j hj other => ?_, fun other => ?_, trivial⟩
        · by_cases hother : other = conn
          · subst hother
            rw [htaken, Function.update_self, hidle]
            simp [Ne.symm hj]
          · rw [htaken, Function.update_of_ne hother]
            exact ⟨Iff.rfl, fun _ => hothers other hother⟩
        · by_cases hother : other = conn
          · subst hother
            simp [htaken]
          · rw [htaken, Function.update_of_ne hother]
            exact iff_of_false (hs other) hother
    · intro r
      cases r with
      | error e => exact free_stable
      | ok conn => exact holds_stable
    · intro r
      cases r with
      | error e => exact fun s hs => hs
      | ok conn =>
        refine (hbody conn).bind fun result => ?_
        refine outline_perform (C := fun _ => Free i) ?_ ?_ (fun _ => free_stable) ?_
        · exact fun s hs => (hs.1 conn).mpr rfl
        · intro s r s' hs hserve
          obtain ⟨hgiven, hothers⟩ := hserve
          refine ⟨fun j hj other => ?_, fun other => ?_⟩
          · by_cases hother : other = conn
            · subst hother
              rw [hgiven, Function.update_self, (hs.1 other).mpr rfl]
              simp [Ne.symm hj]
            · rw [hgiven, Function.update_of_ne hother]
              exact ⟨Iff.rfl, fun _ => hothers other hother⟩
          · by_cases hother : other = conn
            · subst hother
              simp [hgiven]
            · rw [hgiven, Function.update_of_ne hother]
              exact fun hheld => hother ((hs.1 other).mp hheld)
        · exact fun u s hs => hs

theorem checked_outline {name : String} {p : MysqlProgram (Except DispatchError α)}
    (hp : isSafeResourceName name = true →
      (contract i scope).Outline (fun _ s => Free i s) p (Free i)) :
    (contract i scope).Outline (fun _ s => Free i s) (checked name p) (Free i) := by
  unfold checked
  split
  · rename_i hsafe
    exact hp hsafe
  · exact fun s hs => hs

theorem unitAnswer_outline {p : MysqlProgram (Except DispatchError α)}
    (hp : (contract i scope).Outline (fun _ s => Free i s) p (Free i)) :
    (contract i scope).Outline (fun _ s => Free i s) (unitAnswer p) (Free i) :=
  hp.bind fun _ _ hs => hs

theorem run_outline (i : ι) (c : MysqlCall) :
    (contract i c.scope).Outline (fun _ s => Free i s) c.run (Free i) := by
  have hunscoped : ∀ sql,
      (contract i none).Outline (fun _ s => Free i s) (execMysql sql) (Free i) :=
    fun sql => withConnection_outline fun conn => onConnection_outline fun db hdb => by cases hdb
  cases c with
  | exec sql => exact (hunscoped sql).bind fun _ s hs => hs
  | execIn db sql =>
    have hscoped : (contract i (some db)).Outline (fun _ s => Free i s)
        (execMysqlInDatabase db sql) (Free i) := by
      refine checked_outline fun hsafe => withConnection_outline fun conn => ?_
      refine onConnection_outline ?_
      rintro d hd
      rwa [← Option.some.inj hd]
    exact hscoped.bind fun _ s hs => hs
  | ping => exact (unitAnswer_outline (hunscoped _)).bind fun _ s hs => hs
  | provision name | teardown name =>
    exact (checked_outline fun _ => unitAnswer_outline (hunscoped _)).bind fun _ s hs => hs
  | list => exact (withConnection_outline fun conn => queryRows_outline).bind fun _ s hs => hs

def Connections.take (s : Connections ι) (i : ι) (conn : ℕ) : Connections ι :=
  { s with holder := Function.update s.holder conn (some i) }

def Connections.setUp (s : Connections ι) (conn : ℕ) (c : Settings) : Connections ι :=
  { s with settings := Function.update s.settings conn c }

theorem Connections.setUp_onlyOn (s : Connections ι) (conn : ℕ) (c : Settings) :
    OnlyOn conn s (s.setUp conn c) :=
  ⟨rfl, fun _ hother => Function.update_of_ne hother _ _⟩

theorem serve_query {s : Connections ι} {conn : ℕ} {sql : String} {c : Settings}
    (h : SetsUp sql (s.settings conn) c) :
    serve i s (.query conn sql) (.ok ()) (s.setUp conn c) := by
  refine ⟨s.setUp_onlyOn conn c, ?_⟩
  have hset : (s.setUp conn c).settings conn = c := Function.update_self ..
  rwa [hset]

variable [DecidableEq ι]

def served : Guard ι MysqlOp MysqlOp.Result Unit (Connections ι) :=
  fun t i op r s' => serve i t.state op r s'

/-- However the calls of all sessions interleave, a script is sent over a connection that its
caller alone holds, in the database of the call and under the time limit; and a call that has
returned holds no connection. -/
theorem scripts_run_in_their_database {calls : ι → MysqlCall}
    {p q : Pool ι MysqlOp MysqlOp.Result Unit (Connections ι)}
    (hcalls : ∀ i, p.thread i = (calls i).run) (hidle : ∀ conn, p.state.holder conn = none)
    (hrun : Execution (fun _ _ _ _ => True) served p q) (i : ι) :
    (∀ conn sql next, q.thread i = .request (.query conn sql) next →
      q.state.holder conn = some i ∧
        (IsSetUp (calls i).scope sql ∨ Ready (calls i).scope (q.state.settings conn))) ∧
      ∀ u, q.thread i = .done u → ∀ conn, q.state.holder conn ≠ some i := by
  have hstart : ∀ i, (contract i (calls i).scope).Meets (fun _ s => Free i s) (p.thread i)
      p.state := by
    intro i
    rw [hcalls i]
    refine ⟨Free i, free_stable, ?_, run_outline i (calls i)⟩
    intro conn
    rw [hidle conn]
    exact Option.some_ne_none i |>.symm
  have hend := meets_together hrun hstart (fun t i op r s' _ hserved => hserved)
    (fun i j s s' hj hguarantee => hguarantee i (Ne.symm hj)) i
  refine ⟨?_, ?_⟩
  · intro conn sql next hnext
    rw [hnext] at hend
    exact hend.safe
  · intro u hdone
    rw [hdone] at hend
    exact hend.done

/-- Two sessions call at the same time. -/
def twoCalls (own : Bool) : MysqlCall :=
  if own then .execIn "playground_a_b" "INSERT INTO t VALUES (1)"
  else .execIn "playground_c_d" "DELETE FROM t"

def calling : Pool Bool MysqlOp MysqlOp.Result Unit (Connections Bool) where
  thread own := (twoCalls own).run
  state := ⟨fun _ => none, fun _ => ⟨none, none⟩⟩

/-- Each call has its own connection and the first is about to send its script. -/
theorem scripts_run_in_their_database_twice :
    ∃ q : Pool Bool MysqlOp MysqlOp.Result Unit (Connections Bool),
      q.state.holder 1 = some false ∧ q.state.holder 0 = some true ∧
        Ready (some "playground_a_b") (q.state.settings 0) := by
  have hstart : Execution (fun _ _ _ _ => True) served calling calling := .refl _
  have hpool := hstart.tail true rfl trivial
    (show serve true calling.state .pool (.ok ()) _ from rfl)
  have htake := hpool.tail true rfl trivial
    (show serve true calling.state .getConn (.ok 0) (calling.state.take true 0) from
      ⟨rfl, rfl, fun _ _ => rfl⟩)
  have hlimit := htake.tail true rfl trivial
    (show serve true _ (.query 0 limitSql) (.ok ()) (Connections.setUp _ 0 _) from
      serve_query (setsUp_limit ⟨none, none⟩))
  have hother := hlimit.tail false rfl trivial
    (show serve false _ .pool (.ok ()) _ from rfl)
  have hsecond := hother.tail false rfl trivial
    (show serve false _ .getConn (.ok 1) (Connections.take _ false 1) from
      ⟨rfl, rfl, fun _ _ => rfl⟩)
  have huse := hsecond.tail true rfl trivial
    (show serve true _ (.query 0 (useSql "playground_a_b")) (.ok ()) (Connections.setUp _ 0 _) from
      serve_query (setsUp_use "playground_a_b" ⟨none, some 30000⟩))
  have hcalls : ∀ own, calling.thread own = (twoCalls own).run := fun _ => rfl
  have hscope := (scripts_run_in_their_database hcalls (fun _ => rfl) huse true).1 0
    "INSERT INTO t VALUES (1)" _ rfl
  refine ⟨_, rfl, hscope.1, hscope.2.resolve_left ?_⟩
  rintro (h | ⟨db, hdb, h⟩)
  · exact absurd h (by decide)
  · rw [← Option.some.inj hdb] at h
    exact absurd h (by decide)

end Outlines

end PlaygroundMysqlCalls
