import Playground.PlaygroundDispatcher
import Playground.PlaygroundSidecarErrors
import Playground.ProofOutlines

/-! # The Postgres calls of the dispatcher

A call runs its script in one transaction: begin, two local settings, the script, commit. Every
other way out drops the transaction, which rolls it back. -/
namespace PlaygroundPostgresCalls

open DecimalText
open InteractionPrograms
open InteractionPrograms.Program
open PlaygroundDispatcher (dropPublicationSql dropReplicationSlotSql dropSchemaSql)
open PlaygroundNames
open PlaygroundOperations
open PlaygroundSidecarErrors
open ProofOutlines
open ProofOutlines.Contract

/-- `executeMany` is the stream of a script, read up to its end or its first error. -/
inductive PgOp where
  | pool
  | begin
  | execute (tx : ℕ) (sql : String)
  | executeMany (tx : ℕ) (sql : String)
  | commit (tx : ℕ)
  | rollback (tx : ℕ)
  | fetchAll (sql : String)
  deriving DecidableEq, Repr

@[reducible] def PgOp.Result : PgOp → Type
  | .pool => Except DispatchError Unit
  | .begin => Except SqlxError ℕ
  | .execute _ _ => Except SqlxError Unit
  | .executeMany _ _ => List ℕ × Option SqlxError
  | .commit _ => Except SqlxError Unit
  | .rollback _ => Unit
  | .fetchAll _ => Except SqlxError (List String)

abbrev PgProgram (α : Type) := Program PgOp PgOp.Result α

def getPool : PgProgram (Except DispatchError Unit) := perform PgOp.pool

def begin : PgProgram (Except SqlxError ℕ) := perform PgOp.begin

def execute (tx : ℕ) (sql : String) : PgProgram (Except SqlxError Unit) :=
  perform (PgOp.execute tx sql)

def executeMany (tx : ℕ) (sql : String) : PgProgram (List ℕ × Option SqlxError) :=
  perform (PgOp.executeMany tx sql)

def commit (tx : ℕ) : PgProgram (Except SqlxError Unit) := perform (PgOp.commit tx)

def rollback (tx : ℕ) : PgProgram Unit := perform (PgOp.rollback tx)

def fetchAll (sql : String) : PgProgram (Except SqlxError (List String)) :=
  perform (PgOp.fetchAll sql)

def timeoutSql : String :=
  "SET LOCAL statement_timeout = '" ++ toString statementTimeoutSecs ++ "s'"

def searchPathSql (schema : String) : String :=
  "SET LOCAL search_path = \"" ++ schema ++ "\", public"

def saturatingAdd (a b : ℕ) : ℕ := min (a + b) (2 ^ 64 - 1)

def enterSchema (tx : ℕ) : Option String → PgProgram (Except SqlxError Unit)
  | none => .done (.ok ())
  | some schema => execute tx (searchPathSql schema)

/-- The statements of a call in its transaction, up to the first that fails; the result is the
number of rows. -/
def inTransaction (schema : Option String) (sql : String) (tx : ℕ) :
    PgProgram (Except SqlxError ℕ) := do
  match ← execute tx timeoutSql with
  | .error e => .done (.error e)
  | .ok () =>
    match ← enterSchema tx schema with
    | .error e => .done (.error e)
    | .ok () =>
      match ← executeMany tx sql with
      | (_, some e) => .done (.error e)
      | (counts, none) => .done (.ok (counts.foldl saturatingAdd 0))

/-- The end of a transaction: commit after a success, and a drop after everything else. -/
def finish (tx : ℕ) : Except SqlxError ℕ → PgProgram (Except DispatchError (String × String))
  | .error e => do
    rollback tx
    .done (.error (mapPgError e))
  | .ok rows => do
    match ← commit tx with
    | .error e => do
      rollback tx
      .done (.error (mapPgError e))
    | .ok () => .done (.ok ("OK (" ++ toString rows ++ " rows)", ""))

def execPostgresInner (schema : Option String) (sql : String) :
    PgProgram (Except DispatchError (String × String)) := do
  match ← getPool with
  | .error e => .done (.error e)
  | .ok () =>
    match ← begin with
    | .error e => .done (.error (mapPgError e))
    | .ok tx => do
      let result ← inTransaction schema sql tx
      finish tx result

def execPostgres (sql : String) : PgProgram (Except DispatchError (String × String)) :=
  execPostgresInner none sql

def checked {α : Type} (accepted : Bool) (what name : String)
    (p : PgProgram (Except DispatchError α)) : PgProgram (Except DispatchError α) :=
  if accepted then p else .done (.error (.config ("unsafe postgres " ++ what ++ ": " ++ name)))

def execPostgresInSchema (schema sql : String) :
    PgProgram (Except DispatchError (String × String)) :=
  checked (isSafeResourceName schema) "schema name" schema (execPostgresInner (some schema) sql)

def unitAnswer {α : Type} (p : PgProgram (Except DispatchError α)) :
    PgProgram (Except DispatchError Unit) :=
  p >>= fun r => .done (r.map fun _ => ())

def pingPostgres : PgProgram (Except DispatchError Unit) := unitAnswer (execPostgres "SELECT 1")

def createSchemaSql (name : String) : String := "CREATE SCHEMA IF NOT EXISTS \"" ++ name ++ "\""

def provisionPostgresSchema (name : String) : PgProgram (Except DispatchError Unit) :=
  checked (isSafeResourceName name) "schema name" name
    (unitAnswer (execPostgres (createSchemaSql name)))

def teardownPostgresSchema (name : String) : PgProgram (Except DispatchError Unit) :=
  checked (isSafeResourceName name) "schema name" name
    (unitAnswer (execPostgres (dropSchemaSql name)))

def dropPostgresPublication (name : String) : PgProgram (Except DispatchError Unit) :=
  checked (isSafePlaygroundShuttleArtifact name) "publication name" name
    (unitAnswer (execPostgres (dropPublicationSql name)))

def dropPostgresReplicationSlot (name : String) : PgProgram (Except DispatchError Unit) :=
  checked (isSafePlaygroundShuttleArtifact name) "replication slot name" name
    (unitAnswer (execPostgres (dropReplicationSlotSql name)))

/-- The names a query lists; a row without a text in its first column has none. -/
def listNames (sql : String) : PgProgram (Except DispatchError (List String)) := do
  match ← getPool with
  | .error e => .done (.error e)
  | .ok () =>
    match ← fetchAll sql with
    | .error e => .done (.error (mapPgError e))
    | .ok names => .done (.ok names)

def publicationsSql : String :=
  "SELECT pubname FROM pg_publication WHERE pubname LIKE 'pg\\_%\\_pub' ESCAPE '\\'"

def slotsSql : String :=
  "SELECT slot_name FROM pg_replication_slots WHERE slot_name LIKE 'pg\\_%\\_slot' ESCAPE '\\'"

def schemasSql : String :=
  "SELECT schema_name FROM information_schema.schemata " ++
    "WHERE schema_name LIKE 'playground\\_%' ESCAPE '\\'"

def listPostgresPlaygroundPublications : PgProgram (Except DispatchError (List String)) :=
  listNames publicationsSql

def listPostgresPlaygroundReplicationSlots : PgProgram (Except DispatchError (List String)) :=
  listNames slotsSql

def listPostgresPlaygroundSchemas : PgProgram (Except DispatchError (List String)) :=
  listNames schemasSql

/-- The methods of the dispatcher that reach Postgres. -/
inductive PgCall where
  | exec (sql : String)
  | execIn (schema sql : String)
  | ping
  | provision (name : String)
  | teardown (name : String)
  | dropPublication (name : String)
  | dropReplicationSlot (name : String)
  | listPublications
  | listReplicationSlots
  | listSchemas
  deriving DecidableEq, Repr

def PgCall.run : PgCall → PgProgram (Except DispatchError Unit)
  | .exec sql => unitAnswer (execPostgres sql)
  | .execIn schema sql => unitAnswer (execPostgresInSchema schema sql)
  | .ping => pingPostgres
  | .provision name => provisionPostgresSchema name
  | .teardown name => teardownPostgresSchema name
  | .dropPublication name => dropPostgresPublication name
  | .dropReplicationSlot name => dropPostgresReplicationSlot name
  | .listPublications => unitAnswer listPostgresPlaygroundPublications
  | .listReplicationSlots => unitAnswer listPostgresPlaygroundReplicationSlots
  | .listSchemas => unitAnswer listPostgresPlaygroundSchemas

def PgCall.script : PgCall → Option (Option String × String)
  | .exec sql => some (none, sql)
  | .execIn schema sql => some (some schema, sql)
  | .ping => some (none, "SELECT 1")
  | .provision name => some (none, "CREATE SCHEMA IF NOT EXISTS \"" ++ name ++ "\"")
  | .teardown name => some (none, "DROP SCHEMA IF EXISTS \"" ++ name ++ "\" CASCADE")
  | .dropPublication name => some (none, "DROP PUBLICATION IF EXISTS \"" ++ name ++ "\"")
  | .dropReplicationSlot name => some (none,
      "DO $$ BEGIN IF EXISTS (SELECT 1 FROM pg_replication_slots WHERE slot_name = '" ++ name ++
        "') THEN PERFORM pg_drop_replication_slot('" ++ name ++ "'); END IF; END $$")
  | .listPublications | .listReplicationSlots | .listSchemas => none

section Server

variable {ι : Type} [DecidableEq ι]

structure Settings where
  timeout : Option ℕ
  searchPath : Option String
  deriving DecidableEq, Repr

structure Entry (ι : Type) where
  caller : ι
  settings : Settings
  sql : String

/-- Open transactions with their callers, settings and scripts, the scripts committed so far, and
the callers whose `COMMIT` was not answered. -/
structure Database (ι : Type) where
  holder : ℕ → Option ι
  settings : ℕ → Settings
  ran : ℕ → List (Entry ι)
  ledger : List (Entry ι)
  unanswered : ι → Prop

def entriesOf (i : ι) (ledger : List (Entry ι)) : List (Entry ι) :=
  ledger.filter fun e => decide (e.caller = i)

/-- What the two local statements mean to the server. -/
structure SetsLocal (sql : String) (before after : Settings) : Prop where
  timeout : ∀ n : ℕ, sql = "SET LOCAL statement_timeout = '" ++ toString n ++ "s'" →
    after = { before with timeout := some n }
  searchPath : ∀ schema, isSafeResourceName schema = true →
    sql = "SET LOCAL search_path = \"" ++ schema ++ "\", public" →
    after = { before with searchPath := some schema }

theorem searchPathSql_inj {schema other : String} (h : searchPathSql schema = searchPathSql other) :
    schema = other := by
  unfold searchPathSql at h
  simpa using h

theorem timeoutText_inj {m n : ℕ} (h : "SET LOCAL statement_timeout = '" ++ toString m ++ "s'" =
    "SET LOCAL statement_timeout = '" ++ toString n ++ "s'") : m = n :=
  toString_inj (by simpa using h)

theorem timeoutText_ne (n : ℕ) (schema : String) :
    "SET LOCAL statement_timeout = '" ++ toString n ++ "s'" ≠ searchPathSql schema := by
  intro h
  have hlist := congrArg String.toList h
  unfold searchPathSql at hlist
  simp at hlist

theorem setsLocal_timeout (c : Settings) :
    SetsLocal timeoutSql c { c with timeout := some statementTimeoutSecs } := by
  refine ⟨fun n h => ?_, fun schema _ h => absurd h (timeoutText_ne _ schema)⟩
  rw [timeoutText_inj h]

theorem setsLocal_searchPath (schema : String) (c : Settings) :
    SetsLocal (searchPathSql schema) c { c with searchPath := some schema } := by
  refine ⟨fun n h => absurd h.symm (timeoutText_ne n schema), ?_⟩
  intro other _ h
  rw [searchPathSql_inj h]

structure OnlyIn (tx : ℕ) (s s' : Database ι) : Prop where
  holder : s'.holder = s.holder
  settings : ∀ other, other ≠ tx → s'.settings other = s.settings other
  ran : ∀ other, other ≠ tx → s'.ran other = s.ran other
  ledger : s'.ledger = s.ledger
  unanswered : s'.unanswered = s.unanswered

structure Closes (tx : ℕ) (s s' : Database ι) : Prop where
  holder : s'.holder = Function.update s.holder tx none
  settings : ∀ other, other ≠ tx → s'.settings other = s.settings other
  ran : ∀ other, other ≠ tx → s'.ran other = s.ran other

/-- A script does its own work in its transaction. If it ends the transaction itself, what it ran
so far may be committed. -/
structure RunsIn (i : ι) (tx : ℕ) (s s' : Database ι) : Prop where
  holder : s'.holder = s.holder
  settings : ∀ other, other ≠ tx → s'.settings other = s.settings other
  ran : ∀ other, other ≠ tx → s'.ran other = s.ran other
  own : (∀ e ∈ s.ran tx, e.caller = i) → ∀ e ∈ s'.ran tx, e.caller = i
  ledger : ∀ j, j ≠ i → entriesOf j s'.ledger = entriesOf j s.ledger
  unanswered : ∀ j, j ≠ i → (s'.unanswered j ↔ s.unanswered j)

/-- A refusal that the server sent, and not the loss of its answer. -/
def Refusal : SqlxError → Prop
  | .database _ _ => True
  | .io _ | .poolTimedOut | .poolClosed | .other _ => False

structure Fresh (s : Database ι) : Prop where
  holder : ∀ tx, s.holder tx = none
  ledger : s.ledger = []
  unanswered : ∀ i, ¬ s.unanswered i

/-- A step of one caller. Of a script that does not keep its transaction open little is known. A
`COMMIT` that is refused has no effect; one without an answer may have happened. -/
def serve (keepsOpen : String → Prop) (i : ι) (s : Database ι) :
    (op : PgOp) → op.Result → Database ι → Prop
  | .pool, _, s' => s' = s
  | .begin, .error _, s' => s' = s
  | .begin, .ok tx, s' => s.holder tx = none ∧ s'.holder = Function.update s.holder tx (some i) ∧
    (∀ other, other ≠ tx → s'.settings other = s.settings other ∧ s'.ran other = s.ran other) ∧
    s'.ran tx = [] ∧ s'.ledger = s.ledger ∧ s'.unanswered = s.unanswered
  | .execute tx _, .error _, s' => OnlyIn tx s s' ∧ s'.ran tx = s.ran tx
  | .execute tx sql, .ok (), s' => OnlyIn tx s s' ∧ s'.ran tx = s.ran tx ∧
    SetsLocal sql (s.settings tx) (s'.settings tx)
  | .executeMany tx sql, (_, error), s' => RunsIn i tx s s' ∧ (keepsOpen sql →
    s'.ledger = s.ledger ∧ s'.unanswered = s.unanswered ∧
      (error = none → s'.ran tx = s.ran tx ++ [⟨i, s.settings tx, sql⟩]))
  | .commit tx, .ok (), s' => Closes tx s s' ∧ s'.ledger = s.ledger ++ s.ran tx ∧
    s'.unanswered = s.unanswered
  | .commit tx, .error e, s' => s'.holder = s.holder ∧
    (∀ other, other ≠ tx → s'.settings other = s.settings other ∧ s'.ran other = s.ran other) ∧
    (s'.ledger = s.ledger ∧ s'.unanswered = s.unanswered ∨
      ¬ Refusal e ∧ (s'.ledger = s.ledger ∨ s'.ledger = s.ledger ++ s.ran tx) ∧
        s'.unanswered = fun j => j = i ∨ s.unanswered j)
  | .rollback tx, _, s' => Closes tx s s' ∧ s'.ledger = s.ledger ∧ s'.unanswered = s.unanswered
  | .fetchAll _, _, s' => s' = s

def IsEntry (i : ι) (script : Option (Option String × String)) (e : Entry ι) : Prop :=
  e.caller = i ∧ ∃ schema, script = some (schema, e.sql) ∧
    e.settings.timeout = some statementTimeoutSecs ∧
    ∀ name, schema = some name → e.settings.searchPath = some name

def Committed (i : ι) (script : Option (Option String × String)) (s : Database ι) : Prop :=
  ∃ e, IsEntry i script e ∧ entriesOf i s.ledger = [e]

def Uncommitted (i : ι) (s : Database ι) : Prop := entriesOf i s.ledger = []

/-- What a call has done: after a success its script is in the ledger, and after an error nothing,
unless its `COMMIT` was not answered. -/
def Outcome {α : Type} (i : ι) (script : Option (Option String × String)) (s : Database ι) :
    Except DispatchError α → Prop
  | .ok _ => script = none ∧ Uncommitted i s ∨ Committed i script s
  | .error _ => Uncommitted i s ∨ s.unanswered i ∧ Committed i script s

/-- A call that has returned leaves no transaction open. Of its work nothing is known if its script
is not `sound`. -/
def Settled {α : Type} (sound : Prop) (i : ι) (script : Option (Option String × String))
    (out : Except DispatchError α) (s : Database ι) : Prop :=
  (∀ tx, s.holder tx ≠ some i) ∧ (sound → Outcome i script s out)

structure Untouched (i : ι) (s s' : Database ι) : Prop where
  holder : ∀ tx, s'.holder tx = some i ↔ s.holder tx = some i
  settings : ∀ tx, s.holder tx = some i → s'.settings tx = s.settings tx
  ran : ∀ tx, s.holder tx = some i → s'.ran tx = s.ran tx
  ledger : entriesOf i s'.ledger = entriesOf i s.ledger
  unanswered : s'.unanswered i ↔ s.unanswered i

/-- A caller works only in its own transaction, and at no time has more than its own script in
the ledger. -/
def InOwn (sound : Prop) (i : ι) (script : Option (Option String × String)) (s : Database ι)
    (op : PgOp) : Prop :=
  (sound → Uncommitted i s ∨ Committed i script s) ∧
    match op with
    | .execute tx _ | .executeMany tx _ | .commit tx | .rollback tx => s.holder tx = some i
    | .pool | .begin | .fetchAll _ => True

def contract (keepsOpen : String → Prop) (sound : Prop) (i : ι)
    (script : Option (Option String × String)) : Contract PgOp PgOp.Result (Database ι) where
  step := serve keepsOpen i
  rely := Untouched i
  guarantee s s' := ∀ j, j ≠ i → Untouched j s s'
  safe := InOwn sound i script

def Idle (sound : Prop) (i : ι) (s : Database ι) : Prop :=
  (∀ tx, s.holder tx ≠ some i) ∧ (sound → Uncommitted i s)

structure Working (sound : Prop) (i : ι) (tx : ℕ) (known : Settings → List (Entry ι) → Prop)
    (s : Database ι) : Prop where
  holder : ∀ other, s.holder other = some i ↔ other = tx
  own : ∀ e ∈ s.ran tx, e.caller = i
  known : known (s.settings tx) (s.ran tx)
  uncommitted : sound → Uncommitted i s

/-- A transaction whose `COMMIT` failed. -/
structure Doubtful (sound : Prop) (i : ι) (script : Option (Option String × String)) (tx : ℕ)
    (s : Database ι) : Prop where
  holder : ∀ other, s.holder other = some i ↔ other = tx
  outcome : sound → Uncommitted i s ∨ s.unanswered i ∧ Committed i script s

end Server

section Holders

variable {ι : Type} {i : ι} {tx : ℕ} {s s' : Database ι}

theorem other_held (hown : s.holder tx = some i) {j : ι} (hj : j ≠ i) {other : ℕ}
    (hheld : s.holder other = some j) : other ≠ tx := by
  rintro rfl
  rw [hown, Option.some.injEq] at hheld
  exact hj hheld.symm

theorem holder_closed (hown : s.holder tx = some i)
    (hclosed : s'.holder = Function.update s.holder tx none) {j : ι} (hj : j ≠ i) (other : ℕ) :
    s'.holder other = some j ↔ s.holder other = some j := by
  rw [hclosed]
  by_cases hother : other = tx
  · subst hother
    rw [Function.update_self, hown]
    simp [Ne.symm hj]
  · rw [Function.update_of_ne hother]

theorem free_closed (hs : ∀ other, s.holder other = some i ↔ other = tx)
    (hclosed : s'.holder = Function.update s.holder tx none) (other : ℕ) :
    s'.holder other ≠ some i := by
  rw [hclosed]
  by_cases hother : other = tx
  · subst hother
    simp
  · rw [Function.update_of_ne hother]
    exact fun hheld => hother ((hs other).mp hheld)

end Holders

section Outlines

variable {ι : Type} [DecidableEq ι] {keepsOpen : String → Prop} {sound : Prop} {i : ι}
  {script : Option (Option String × String)} {schema : Option String} {sql : String} {tx : ℕ}
  {known known' : Settings → List (Entry ι) → Prop} {s s' : Database ι} {rows : ℕ} {α β : Type}

section Stability

theorem idle_stable : (contract keepsOpen sound i script).Stable (Idle sound i) := by
  intro s s' hs hrely
  refine ⟨fun other hheld => hs.1 other ((hrely.holder other).mp hheld), fun hsound => ?_⟩
  rw [Uncommitted, hrely.ledger]
  exact hs.2 hsound

theorem working_stable : (contract keepsOpen sound i script).Stable (Working sound i tx known) := by
  intro s s' hs hrely
  have hown : s.holder tx = some i := (hs.holder tx).mpr rfl
  refine ⟨fun other => (hrely.holder other).trans (hs.holder other), ?_, ?_, fun hsound => ?_⟩
  · rw [hrely.ran tx hown]
    exact hs.own
  · rw [hrely.settings tx hown, hrely.ran tx hown]
    exact hs.known
  · rw [Uncommitted, hrely.ledger]
    exact hs.uncommitted hsound

theorem committed_untouched (hrely : Untouched i s s') (h : Committed i script s) :
    Committed i script s' := by
  obtain ⟨e, he, hentries⟩ := h
  exact ⟨e, he, hrely.ledger.trans hentries⟩

theorem uncommitted_untouched (hrely : Untouched i s s') (h : Uncommitted i s) :
    Uncommitted i s' := hrely.ledger.trans h

theorem doubtful_stable :
    (contract keepsOpen sound i script).Stable (Doubtful sound i script tx) := by
  intro s s' hs hrely
  refine ⟨fun other => (hrely.holder other).trans (hs.holder other), fun hsound => ?_⟩
  exact (hs.outcome hsound).imp (uncommitted_untouched hrely)
    (And.imp hrely.unanswered.mpr (committed_untouched hrely))

theorem settled_stable {out : Except DispatchError α} :
    (contract keepsOpen sound i script).Stable (Settled sound i script out) := by
  intro s s' hs hrely
  refine ⟨fun other hheld => hs.1 other ((hrely.holder other).mp hheld), fun hsound => ?_⟩
  have hold := hs.2 hsound
  cases out with
  | error e =>
    exact hold.imp (uncommitted_untouched hrely)
      (And.imp hrely.unanswered.mpr (committed_untouched hrely))
  | ok a =>
    exact hold.imp (And.imp_right (uncommitted_untouched hrely)) (committed_untouched hrely)

end Stability

section Steps

theorem untouched_refl {j : ι} : Untouched j s s :=
  ⟨fun _ => Iff.rfl, fun _ _ => rfl, fun _ _ => rfl, rfl, Iff.rfl⟩

theorem OnlyIn.untouched (h : OnlyIn tx s s') (hown : s.holder tx = some i) {j : ι}
    (hj : j ≠ i) : Untouched j s s' where
  holder other := by rw [h.holder]
  settings other hheld := h.settings other (other_held hown hj hheld)
  ran other hheld := h.ran other (other_held hown hj hheld)
  ledger := by rw [h.ledger]
  unanswered := by rw [h.unanswered]

theorem OnlyIn.working (h : OnlyIn tx s s') (hran : s'.ran tx = s.ran tx)
    (hs : Working sound i tx known s) (hknown : known' (s'.settings tx) (s.ran tx)) :
    Working sound i tx known' s' := by
  refine ⟨fun other => ?_, ?_, ?_, fun hsound => ?_⟩
  · rw [h.holder]
    exact hs.holder other
  · rw [hran]
    exact hs.own
  · rw [hran]
    exact hknown
  · rw [Uncommitted, h.ledger]
    exact hs.uncommitted hsound

theorem RunsIn.untouched (h : RunsIn i tx s s') (hown : s.holder tx = some i) {j : ι}
    (hj : j ≠ i) : Untouched j s s' where
  holder other := by rw [h.holder]
  settings other hheld := h.settings other (other_held hown hj hheld)
  ran other hheld := h.ran other (other_held hown hj hheld)
  ledger := h.ledger j hj
  unanswered := h.unanswered j hj

theorem entriesOf_append {ledger added : List (Entry ι)} (hadded : ∀ e ∈ added, e.caller = i)
    {j : ι} (hj : j ≠ i) : entriesOf j (ledger ++ added) = entriesOf j ledger := by
  have hnone : entriesOf j added = [] := by
    rw [entriesOf, List.filter_eq_nil_iff]
    intro e he
    rw [decide_eq_true_eq, hadded e he]
    exact Ne.symm hj
  rw [entriesOf, List.filter_append]
  exact (congrArg _ hnone).trans (List.append_nil _)

theorem entriesOf_own {ledger : List (Entry ι)} (h : entriesOf i ledger = []) {e : Entry ι}
    (he : e.caller = i) : entriesOf i (ledger ++ [e]) = [e] := by
  rw [entriesOf, List.filter_append, show ledger.filter _ = [] from h]
  simp [he]

end Steps

def After (r : Except SqlxError Unit) (known : Settings → List (Entry ι) → Prop) (c : Settings)
    (ran : List (Entry ι)) : Prop :=
  r = .ok () → known c ran

theorem Working.forget (h : Working sound i tx known s) : Working sound i tx (fun _ _ => True) s :=
  ⟨h.holder, h.own, trivial, h.uncommitted⟩

theorem execute_outline
    (hset : ∀ c c' ran, known c ran → SetsLocal sql c c' → known' c' ran) :
    (contract keepsOpen sound i script).Outline
      (fun r s => Working sound i tx (After r known') s) (execute tx sql)
      (Working sound i tx known) := by
  refine ⟨fun s hs => ⟨fun h => Or.inl (hs.uncommitted h), (hs.holder tx).mpr rfl⟩,
    fun r => Working sound i tx (After r known'), ?_, ?_⟩
  · intro s r s' hs hserve
    have hown : s.holder tx = some i := (hs.holder tx).mpr rfl
    cases r with
    | error e =>
      obtain ⟨honly, hran⟩ : OnlyIn tx s s' ∧ s'.ran tx = s.ran tx := hserve
      exact ⟨fun j hj => honly.untouched hown hj, honly.working hran hs fun hr => by cases hr⟩
    | ok u =>
      obtain ⟨honly, hran, hsets⟩ : OnlyIn tx s s' ∧ s'.ran tx = s.ran tx ∧ SetsLocal sql _ _ :=
        hserve
      exact ⟨fun j hj => honly.untouched hown hj,
        honly.working hran hs fun _ => hset _ _ _ hs.known hsets⟩
  · exact fun r => ⟨working_stable, fun s hs => hs⟩

theorem andThen_outline {post : β → Database ι → Prop} {A : Database ι → Prop}
    {p : PgProgram (Except SqlxError Unit)} {f : Except SqlxError Unit → PgProgram β}
    (hp : (contract keepsOpen sound i script).Outline
      (fun r s => Working sound i tx (After r known') s) p A)
    (hok : (contract keepsOpen sound i script).Outline post (f (.ok ()))
      (Working sound i tx known'))
    (herror : ∀ e, (contract keepsOpen sound i script).Outline post (f (.error e))
      (Working sound i tx fun _ _ => True)) :
    (contract keepsOpen sound i script).Outline post (p >>= f) A := by
  refine hp.bind fun r => ?_
  cases r with
  | error e => exact (herror e).strengthen fun s hs => hs.forget
  | ok u => exact hok.strengthen fun s hs => ⟨hs.holder, hs.own, hs.known rfl, hs.uncommitted⟩

def Limited (c : Settings) (ran : List (Entry ι)) : Prop :=
  c.timeout = some statementTimeoutSecs ∧ ran = []

def Ready (schema : Option String) (c : Settings) (ran : List (Entry ι)) : Prop :=
  Limited c ran ∧ ∀ name, schema = some name → c.searchPath = some name

theorem timeoutSql_outline :
    (contract keepsOpen sound i script).Outline (fun r s => Working sound i tx (After r Limited) s)
      (execute tx timeoutSql) (Working sound i tx fun _ ran => ran = []) := by
  refine execute_outline ?_
  intro c c' ran hran hsets
  rw [hsets.timeout 30 rfl]
  exact ⟨rfl, hran⟩

theorem enterSchema_outline (hsafe : ∀ name, schema = some name → isSafeResourceName name = true) :
    (contract keepsOpen sound i script).Outline
      (fun r s => Working sound i tx (After r (Ready schema)) s)
      (enterSchema tx schema) (Working sound i tx Limited) := by
  cases schema with
  | none =>
    exact fun s hs => ⟨hs.holder, hs.own, fun _ => ⟨hs.known, fun name hname => by cases hname⟩,
      hs.uncommitted⟩
  | some name =>
    refine execute_outline ?_
    intro c c' ran hlimited hsets
    rw [hsets.searchPath name (hsafe name rfl) rfl]
    refine ⟨hlimited, ?_⟩
    rintro other hother
    exact hother

def Ran (i : ι) (script : Option (Option String × String)) (_ : Settings)
    (ran : List (Entry ι)) : Prop :=
  ∃ e, IsEntry i script e ∧ ran = [e]

def AfterRun (sound : Prop) (i : ι) (script : Option (Option String × String)) :
    Except SqlxError ℕ → Settings → List (Entry ι) → Prop
  | .error _ => fun _ _ => True
  | .ok _ => fun c ran => sound → Ran i script c ran

theorem inTransaction_outline (hscript : script = some (schema, sql))
    (hopen : sound → keepsOpen sql)
    (hsafe : ∀ name, schema = some name → isSafeResourceName name = true) :
    (contract keepsOpen sound i script).Outline
      (fun r s => Working sound i tx (AfterRun sound i script r) s)
      (inTransaction schema sql tx) (Working sound i tx fun _ ran => ran = []) := by
  refine andThen_outline timeoutSql_outline ?_ fun e s hs => hs
  refine andThen_outline (enterSchema_outline hsafe) ?_ fun e s hs => hs
  refine outline_perform
    (C := fun r => Working sound i tx fun c ran => r.2 = none → sound → Ran i script c ran)
    (fun s hs => ⟨fun h => Or.inl (hs.uncommitted h), (hs.holder tx).mpr rfl⟩) ?_
    (fun r => working_stable) ?_
  · intro s r s' hs hserve
    have hown : s.holder tx = some i := (hs.holder tx).mpr rfl
    obtain ⟨counts, error⟩ := r
    obtain ⟨hruns, hkept⟩ := hserve
    refine ⟨fun j hj => hruns.untouched hown hj, fun other => ?_, hruns.own hs.own,
      fun hnone hsound => ?_, fun hsound => ?_⟩
    · rw [hruns.holder]
      exact hs.holder other
    · obtain ⟨⟨htimeout, hempty⟩, hpath⟩ := hs.known
      refine ⟨⟨i, s.settings tx, sql⟩, ⟨rfl, schema, hscript, htimeout, hpath⟩, ?_⟩
      rw [(hkept (hopen hsound)).2.2 hnone, hempty, List.nil_append]
    · rw [Uncommitted, (hkept (hopen hsound)).1]
      exact hs.uncommitted hsound
  · rintro ⟨counts, error⟩
    cases error with
    | some e => exact fun s hs => hs.forget
    | none => exact fun s hs => ⟨hs.holder, hs.own, hs.known rfl, hs.uncommitted⟩

theorem rollback_outline {e : DispatchError} :
    (contract keepsOpen sound i script).Outline (Settled sound i script)
      (rollback tx >>= fun _ => .done (.error e : Except DispatchError α))
      (Doubtful sound i script tx) := by
  refine outline_perform (C := fun _ => Settled sound i script (.error e : Except DispatchError α))
    ?_ ?_ (fun _ => settled_stable) fun _ s hs => hs
  · intro s hs
    exact ⟨fun h => (hs.outcome h).imp_right And.right, (hs.holder tx).mpr rfl⟩
  · intro s r s' hs hserve
    have hown : s.holder tx = some i := (hs.holder tx).mpr rfl
    obtain ⟨hclosed, hledger, hunanswered⟩ : Closes tx s s' ∧ _ ∧ _ := hserve
    refine ⟨fun j hj => ⟨holder_closed hown hclosed.holder hj, fun other hheld => ?_,
      fun other hheld => ?_, ?_, ?_⟩, free_closed hs.holder hclosed.holder, fun hsound => ?_⟩
    · exact hclosed.settings other (other_held hown hj hheld)
    · exact hclosed.ran other (other_held hown hj hheld)
    · rw [hledger]
    · rw [hunanswered]
    · rw [Outcome, Uncommitted, Committed, hledger, hunanswered]
      exact hs.outcome hsound

theorem commit_refused {e : SqlxError}
    (hs : Working sound i tx (AfterRun sound i script (.ok rows)) s)
    (hserve : serve keepsOpen i s (.commit tx) (.error e) s') :
    (∀ j, j ≠ i → Untouched j s s') ∧ Doubtful sound i script tx s' := by
  have hown : s.holder tx = some i := (hs.holder tx).mpr rfl
  obtain ⟨hholder, hothers, houtcome⟩ := hserve
  refine ⟨fun j hj => ⟨fun other => by rw [hholder], fun other hheld => ?_,
    fun other hheld => ?_, ?_, ?_⟩, fun other => ?_, fun hsound => ?_⟩
  · exact (hothers other (other_held hown hj hheld)).1
  · exact (hothers other (other_held hown hj hheld)).2
  · rcases houtcome with ⟨hsame, -⟩ | ⟨-, hsame | hadded, -⟩
    · rw [hsame]
    · rw [hsame]
    · rw [hadded]
      exact entriesOf_append hs.own hj
  · rcases houtcome with ⟨-, hsame⟩ | ⟨-, -, hunanswered⟩
    · rw [hsame]
    · rw [hunanswered]
      exact or_iff_right hj
  · rw [hholder]
    exact hs.holder other
  · have hbefore := hs.uncommitted hsound
    rcases houtcome with ⟨hsame, -⟩ | ⟨-, hsame | hadded, hunanswered⟩
    · refine Or.inl ?_
      rw [Uncommitted, hsame]
      exact hbefore
    · refine Or.inl ?_
      rw [Uncommitted, hsame]
      exact hbefore
    · obtain ⟨entry, hentry, hran⟩ := hs.known hsound
      refine Or.inr ⟨?_, entry, hentry, ?_⟩
      · rw [hunanswered]
        exact Or.inl rfl
      · rw [hadded, hran]
        exact entriesOf_own hbefore hentry.1

theorem commit_accepted (hs : Working sound i tx (AfterRun sound i script (.ok rows)) s)
    (hserve : serve keepsOpen i s (.commit tx) (.ok ()) s') :
    (∀ j, j ≠ i → Untouched j s s') ∧ (∀ other, s'.holder other ≠ some i) ∧
      (sound → Committed i script s') := by
  have hown : s.holder tx = some i := (hs.holder tx).mpr rfl
  obtain ⟨hclosed, hadded, hunanswered⟩ : Closes tx s s' ∧ _ ∧ _ := hserve
  refine ⟨fun j hj => ⟨holder_closed hown hclosed.holder hj, fun other hheld => ?_,
    fun other hheld => ?_, ?_, ?_⟩, free_closed hs.holder hclosed.holder, fun hsound => ?_⟩
  · exact hclosed.settings other (other_held hown hj hheld)
  · exact hclosed.ran other (other_held hown hj hheld)
  · rw [hadded]
    exact entriesOf_append hs.own hj
  · rw [hunanswered]
  · obtain ⟨entry, hentry, hran⟩ := hs.known hsound
    refine ⟨entry, hentry, ?_⟩
    rw [hadded, hran]
    exact entriesOf_own (hs.uncommitted hsound) hentry.1

/-- A `COMMIT` puts the script of its transaction in the ledger; without an answer it may have. -/
theorem finish_outline (r : Except SqlxError ℕ) :
    (contract keepsOpen sound i script).Outline (Settled sound i script) (finish tx r)
      (Working sound i tx (AfterRun sound i script r)) := by
  cases r with
  | error e =>
    exact rollback_outline.strengthen fun s hs =>
      ⟨hs.holder, fun hsound => Or.inl (hs.uncommitted hsound)⟩
  | ok rows =>
    refine outline_perform (C := fun r => match r with
      | .error _ => Doubtful sound i script tx
      | .ok () => fun s => (∀ other, s.holder other ≠ some i) ∧
        (sound → Committed i script s)) ?_ ?_ ?_ ?_
    · exact fun s hs => ⟨fun hsound => Or.inl (hs.uncommitted hsound), (hs.holder tx).mpr rfl⟩
    · intro s r s' hs hserve
      have hcommit : serve keepsOpen i s (.commit tx) r s' := hserve
      cases r with
      | error e => exact commit_refused hs hcommit
      | ok u => exact commit_accepted hs hcommit
    · intro r
      cases r with
      | error e => exact doubtful_stable
      | ok u =>
        intro s s' hs hrely
        exact ⟨fun other hheld => hs.1 other ((hrely.holder other).mp hheld),
          fun hsound => committed_untouched hrely (hs.2 hsound)⟩
    · intro r
      cases r with
      | error e => exact rollback_outline
      | ok u => exact fun s hs => ⟨hs.1, fun hsound => Or.inr (hs.2 hsound)⟩

theorem Idle.settled_error {e : DispatchError} (hs : Idle sound i s) :
    Settled sound i script (.error e : Except DispatchError α) s :=
  ⟨hs.1, fun hsound => Or.inl (hs.2 hsound)⟩

theorem getPool_outline {f : Except DispatchError Unit → PgProgram (Except DispatchError α)}
    (hok : (contract keepsOpen sound i script).Outline (Settled sound i script) (f (.ok ()))
      (Idle sound i))
    (herror : ∀ e, f (.error e) = .done (.error e)) :
    (contract keepsOpen sound i script).Outline (Settled sound i script) (getPool >>= f)
      (Idle sound i) := by
  refine outline_perform (C := fun _ => Idle sound i)
    (fun s hs => ⟨fun hsound => Or.inl (hs.2 hsound), trivial⟩) ?_ (fun _ => idle_stable) ?_
  · intro s r s' hs hserve
    have hsame : s' = s := hserve
    rw [hsame]
    exact ⟨fun j _ => untouched_refl, hs⟩
  · intro r
    cases r with
    | error e =>
      rw [herror]
      exact fun s hs => hs.settled_error
    | ok u => exact hok

theorem execPostgresInner_outline (hscript : script = some (schema, sql))
    (hopen : sound → keepsOpen sql)
    (hsafe : ∀ name, schema = some name → isSafeResourceName name = true) :
    (contract keepsOpen sound i script).Outline (Settled sound i script)
      (execPostgresInner schema sql) (Idle sound i) := by
  refine getPool_outline ?_ fun e => rfl
  refine outline_perform (C := fun r => match r with
    | .error _ => Idle sound i
    | .ok tx => Working sound i tx fun _ ran => ran = [])
    (fun s hs => ⟨fun hsound => Or.inl (hs.2 hsound), trivial⟩) ?_ ?_ ?_
  · intro s r s' hs hserve
    cases r with
    | error e =>
      have hsame : s' = s := hserve
      rw [hsame]
      exact ⟨fun j _ => untouched_refl, hs⟩
    | ok tx =>
      obtain ⟨hidle, htaken, hothers, hempty, hledger, hunanswered⟩ := hserve
      have hfree : ∀ j, j ≠ i → ∀ other, s.holder other = some j → other ≠ tx := by
        rintro j _ other hheld rfl
        rw [hidle] at hheld
        cases hheld
      refine ⟨fun j hj => ⟨fun other => ?_, fun other hheld => ?_, fun other hheld => ?_, ?_, ?_⟩,
        fun other => ?_, ?_, hempty, fun hsound => ?_⟩
      · rw [htaken]
        by_cases hother : other = tx
        · subst hother
          rw [Function.update_self, hidle]
          simp [Ne.symm hj]
        · rw [Function.update_of_ne hother]
      · exact (hothers other (hfree j hj other hheld)).1
      · exact (hothers other (hfree j hj other hheld)).2
      · rw [hledger]
      · rw [hunanswered]
      · rw [htaken]
        by_cases hother : other = tx
        · subst hother
          simp
        · rw [Function.update_of_ne hother]
          exact iff_of_false (hs.1 other) hother
      · rw [hempty]
        exact fun e he => absurd he List.not_mem_nil
      · rw [Uncommitted, hledger]
        exact hs.2 hsound
  · intro r
    cases r with
    | error e => exact idle_stable
    | ok tx => exact working_stable
  · intro r
    cases r with
    | error e => exact fun s hs => hs.settled_error
    | ok tx => exact (inTransaction_outline hscript hopen hsafe).bind fun r => finish_outline r

theorem checked_outline {accepted : Bool} {what name : String}
    {p : PgProgram (Except DispatchError α)}
    (hp : accepted = true →
      (contract keepsOpen sound i script).Outline (Settled sound i script) p (Idle sound i)) :
    (contract keepsOpen sound i script).Outline (Settled sound i script)
      (checked accepted what name p) (Idle sound i) := by
  unfold checked
  split
  · rename_i haccepted
    exact hp haccepted
  · exact fun s hs => hs.settled_error

theorem listNames_outline :
    (contract keepsOpen sound i none).Outline (Settled sound i none) (listNames sql)
      (Idle sound i) := by
  refine getPool_outline ?_ fun e => rfl
  refine outline_perform (C := fun _ => Idle sound i)
    (fun s hs => ⟨fun hsound => Or.inl (hs.2 hsound), trivial⟩) ?_ (fun _ => idle_stable) ?_
  · intro s r s' hs hserve
    have hsame : s' = s := hserve
    rw [hsame]
    exact ⟨fun j _ => untouched_refl, hs⟩
  · intro r
    cases r with
    | error e => exact fun s hs => hs.settled_error
    | ok names => exact fun s hs => ⟨hs.1, fun hsound => Or.inl ⟨rfl, hs.2 hsound⟩⟩

theorem unitAnswer_outline {p : PgProgram (Except DispatchError α)}
    (hp : (contract keepsOpen sound i script).Outline (Settled sound i script) p (Idle sound i)) :
    (contract keepsOpen sound i script).Outline (Settled sound i script) (unitAnswer p)
      (Idle sound i) := by
  refine hp.bind fun out => ?_
  cases out with
  | error e => exact fun s hs => hs
  | ok a => exact fun s hs => hs

/-- The script of the call leaves its transaction open, if the call has one. -/
def Sound (keepsOpen : String → Prop) (c : PgCall) : Prop := ∀ work ∈ c.script, keepsOpen work.2

theorem run_outline (i : ι) (c : PgCall) :
    (contract keepsOpen (Sound keepsOpen c) i c.script).Outline
      (Settled (Sound keepsOpen c) i c.script) c.run (Idle (Sound keepsOpen c) i) := by
  have hnone : ∀ name : String, (none : Option String) = some name →
      isSafeResourceName name = true := fun name hname => by cases hname
  cases c with
  | exec | ping =>
    exact unitAnswer_outline (execPostgresInner_outline rfl (fun hsound => hsound _ rfl) hnone)
  | execIn schema sql =>
    refine unitAnswer_outline (checked_outline fun hsafe => ?_)
    refine execPostgresInner_outline rfl (fun hsound => hsound _ rfl) ?_
    rintro name hname
    rwa [← Option.some.inj hname]
  | provision | teardown | dropPublication | dropReplicationSlot =>
    exact checked_outline fun _ => unitAnswer_outline
      (execPostgresInner_outline rfl (fun hsound => hsound _ rfl) hnone)
  | listPublications | listReplicationSlots | listSchemas =>
    exact unitAnswer_outline listNames_outline

def served (keepsOpen : String → Prop) :
    Guard ι PgOp PgOp.Result (Except DispatchError Unit) (Database ι) :=
  fun t i op r s' => serve keepsOpen i t.state op r s'

/-- However the calls of all sessions interleave, and whatever the scripts of the others do, a call
whose script does not end its transaction itself commits this script exactly once if it succeeds,
in its schema and under the time limit, and nothing if it fails, unless its `COMMIT` was not
answered. No call leaves a transaction open. -/
theorem scripts_commit_once {calls : ι → PgCall}
    {p q : Pool ι PgOp PgOp.Result (Except DispatchError Unit) (Database ι)}
    (hcalls : ∀ i, p.thread i = (calls i).run) (hfresh : Fresh p.state)
    (hrun : Execution (fun _ _ _ _ => True) (served keepsOpen) p q) (i : ι) :
    (∀ out, q.thread i = .done out → ∀ tx, q.state.holder tx ≠ some i) ∧
      ((∀ work ∈ (calls i).script, keepsOpen work.2) →
        (Uncommitted i q.state ∨ Committed i (calls i).script q.state) ∧
        ∀ out, q.thread i = .done out → Outcome i (calls i).script q.state out) := by
  have hstart : ∀ i, (contract keepsOpen (Sound keepsOpen (calls i)) i (calls i).script).Meets
      (Settled (Sound keepsOpen (calls i)) i (calls i).script) (p.thread i) p.state := by
    intro i
    rw [hcalls i]
    refine ⟨Idle (Sound keepsOpen (calls i)) i, idle_stable, ⟨?_, fun _ => ?_⟩,
      run_outline i (calls i)⟩
    · intro tx
      rw [hfresh.holder tx]
      exact (Option.some_ne_none i).symm
    · rw [Uncommitted, hfresh.ledger]
      rfl
  have hend := meets_together hrun hstart (fun t i op r s' _ hserved => hserved)
    (fun i j s s' hj hguarantee => hguarantee i (Ne.symm hj)) i
  cases hthread : q.thread i with
  | request op next =>
    rw [hthread] at hend
    exact ⟨fun out hdone => (by cases hdone),
      fun hsound => ⟨hend.safe.1 hsound, fun out hdone => (by cases hdone)⟩⟩
  | done out =>
    rw [hthread] at hend
    obtain ⟨hclosed, houtcome⟩ := hend.done
    refine ⟨fun _ _ => hclosed, fun hsound => ⟨?_, fun other hdone => ?_⟩⟩
    · have hknown := houtcome hsound
      cases out with
      | error e => exact hknown.imp_right And.right
      | ok u => exact hknown.imp_left And.right
    · cases hdone
      exact houtcome hsound

end Outlines

section Example

variable {ι : Type} [DecidableEq ι] {keepsOpen : String → Prop} {i : ι} {sql : String} {tx : ℕ}

def twoCalls (own : Bool) : PgCall :=
  if own then .execIn "playground_a_b" "INSERT INTO t VALUES (1)"
  else .exec "INSERT INTO u VALUES (2); COMMIT; SELECT 1/0"

def keepsOpenHere (sql : String) : Prop := sql = "INSERT INTO t VALUES (1)"

instance (sql : String) : Decidable (keepsOpenHere sql) := inferInstanceAs (Decidable (_ = _))

def calling : Pool Bool PgOp PgOp.Result (Except DispatchError Unit) (Database Bool) where
  thread own := (twoCalls own).run
  state := ⟨fun _ => none, fun _ => ⟨none, none⟩, fun _ => [], [], fun _ => False⟩

def Database.open (s : Database ι) (i : ι) (tx : ℕ) : Database ι :=
  { s with holder := Function.update s.holder tx (some i) }

def Database.setLocal (s : Database ι) (tx : ℕ) (c : Settings) : Database ι :=
  { s with settings := Function.update s.settings tx c }

def Database.ranNow (s : Database ι) (tx : ℕ) (e : Entry ι) : Database ι :=
  { s with ran := Function.update s.ran tx (s.ran tx ++ [e]) }

def Database.committed (s : Database ι) (e : Entry ι) : Database ι :=
  { s with ledger := s.ledger ++ [e] }

def Database.close (s : Database ι) (tx : ℕ) : Database ι :=
  { s with holder := Function.update s.holder tx none, ledger := s.ledger ++ s.ran tx }

theorem serve_setLocal {s : Database ι} {c : Settings} (h : SetsLocal sql (s.settings tx) c) :
    serve keepsOpen i s (.execute tx sql) (.ok ()) (s.setLocal tx c) := by
  refine ⟨⟨rfl, fun _ hother => Function.update_of_ne hother _ _, fun _ _ => rfl, rfl, rfl⟩, rfl,
    ?_⟩
  have hset : (s.setLocal tx c).settings tx = c := Function.update_self ..
  rwa [hset]

theorem serve_ranNow {s : Database ι} {counts : List ℕ} :
    serve keepsOpen i s (.executeMany tx sql) (counts, none)
      (s.ranNow tx ⟨i, s.settings tx, sql⟩) := by
  have hran : (s.ranNow tx ⟨i, s.settings tx, sql⟩).ran tx =
      s.ran tx ++ [⟨i, s.settings tx, sql⟩] := Function.update_self ..
  refine ⟨⟨rfl, fun _ _ => rfl, fun _ hother => Function.update_of_ne hother _ _, fun hown => ?_,
    fun _ _ => rfl, fun _ _ => Iff.rfl⟩, fun _ => ⟨rfl, rfl, fun _ => hran⟩⟩
  rw [hran]
  exact List.forall_mem_append.mpr ⟨hown, by simp⟩

/-- A script that commits part of its work and fails after that. -/
theorem serve_committed {s : Database ι} {counts : List ℕ} {error : SqlxError} {e : Entry ι}
    (he : e.caller = i) (hopen : ¬ keepsOpen sql) :
    serve keepsOpen i s (.executeMany tx sql) (counts, some error) (s.committed e) := by
  refine ⟨⟨rfl, fun _ _ => rfl, fun _ _ => rfl, fun hown => hown, fun j hj => ?_,
    fun _ _ => Iff.rfl⟩, fun h => absurd h hopen⟩
  refine entriesOf_append (fun e' he' => ?_) hj
  rw [List.mem_singleton.mp he', he]

theorem scripts_commit_once_twice :
    ∃ q : Pool Bool PgOp PgOp.Result (Except DispatchError Unit) (Database Bool),
      Committed true (some (some "playground_a_b", "INSERT INTO t VALUES (1)")) q.state ∧
        (∀ tx, q.state.holder tx ≠ some true) ∧ q.state.holder 1 = some false ∧
        ¬ Uncommitted false q.state := by
  have hstart : Execution (fun _ _ _ _ => True) (served keepsOpenHere) calling calling := .refl _
  have hpool := hstart.tail true rfl trivial
    (show serve _ true calling.state .pool (.ok ()) _ from rfl)
  have hpool' := hpool.tail false rfl trivial
    (show serve _ false calling.state .pool (.ok ()) _ from rfl)
  have hbegin := hpool'.tail true rfl trivial
    (show serve _ true calling.state .begin (.ok 0) (calling.state.open true 0) from
      ⟨rfl, rfl, fun _ _ => ⟨rfl, rfl⟩, rfl, rfl, rfl⟩)
  have hbegin' := hbegin.tail false rfl trivial
    (show serve _ false _ .begin (.ok 1) (Database.open _ false 1) from
      ⟨rfl, rfl, fun _ _ => ⟨rfl, rfl⟩, rfl, rfl, rfl⟩)
  have htimeout := hbegin'.tail true rfl trivial
    (show serve _ true _ (.execute 0 timeoutSql) (.ok ()) (Database.setLocal _ 0 _) from
      serve_setLocal (setsLocal_timeout ⟨none, none⟩))
  have htimeout' := htimeout.tail false rfl trivial
    (show serve _ false _ (.execute 1 timeoutSql) (.ok ()) (Database.setLocal _ 1 _) from
      serve_setLocal (setsLocal_timeout ⟨none, none⟩))
  have hpath := htimeout'.tail true rfl trivial
    (show serve _ true _ (.execute 0 (searchPathSql "playground_a_b")) (.ok ())
      (Database.setLocal _ 0 _) from
      serve_setLocal (setsLocal_searchPath "playground_a_b" ⟨some 30, none⟩))
  have hfails := hpath.tail false rfl trivial
    (show serve _ false _ (.executeMany 1 "INSERT INTO u VALUES (2); COMMIT; SELECT 1/0")
      ([1], some (.database (some "22012") "division by zero")) (Database.committed _ _) from
      serve_committed (e := ⟨false, ⟨some 30, none⟩, "INSERT INTO u VALUES (2)"⟩) rfl
        (by decide))
  have hran := hfails.tail true rfl trivial
    (show serve _ true _ (.executeMany 0 "INSERT INTO t VALUES (1)") ([1], none)
      (Database.ranNow _ 0 _) from serve_ranNow)
  have hcommit := hran.tail true rfl trivial
    (show serve _ true _ (.commit 0) (.ok ()) (Database.close _ 0) from
      ⟨⟨rfl, fun _ _ => rfl, fun _ _ => rfl⟩, rfl, rfl⟩)
  have hopen : ∀ work ∈ (twoCalls true).script, keepsOpenHere work.2 := by
    rintro _ ⟨⟩
    rfl
  have hcalls : ∀ own, calling.thread own = (twoCalls own).run := fun _ => rfl
  have hfresh : Fresh calling.state := ⟨fun _ => rfl, rfl, fun _ h => h⟩
  obtain ⟨hclosed, houtcome⟩ := scripts_commit_once hcalls hfresh hcommit true
  refine ⟨_, ((houtcome hopen).2 (.ok ()) rfl).resolve_left fun h => ?_, hclosed _ rfl, rfl, ?_⟩
  · cases h.1
  · exact fun h => by cases h

end Example

end PlaygroundPostgresCalls
