import Playground.PlaygroundClickhouse
import Playground.PlaygroundDispatcher

/-! # ClickHouse databases

The two statements about a database go through the statement splitter like any script. -/
namespace PlaygroundClickhouseDdl

open PlaygroundClickhouse
open PlaygroundDispatcher
open PlaygroundNames
open PlaygroundOperations
open QuotedScripts
open RustText (trim)

def createDatabaseSql (name : String) : String :=
  "CREATE DATABASE IF NOT EXISTS `" ++ name ++ "`"

def provisionClickhouseDatabase (name : String) : Except DispatchError Cleanup :=
  guarded (isSafeResourceName name) "clickhouse database name" name
    (.statement .clickhouse (createDatabaseSql name))

/-- The first identifier in backticks and what follows it. A backslash or a doubled backtick would
be read as part of the identifier and is refused. -/
def backquoted (text : List Char) : Option (List Char × List Char) :=
  match text.dropWhile (· != '`') with
  | [] => none
  | _ :: inside =>
    let name := inside.takeWhile (· != '`')
    match inside.dropWhile (· != '`') with
    | [] => none
    | _ :: rest => if '\\' ∈ name ∨ rest.head? = some '`' then none else some (name, rest)

variable {name : String} {text : List Char}

section Splitting

theorem uncut_of_not_mem {q : Quotes} (h : ';' ∉ text) : Uncut q text := by
  intro marked hmarked
  have hmem : marked.1 ∈ textOf (marks q .code text) := List.mem_map_of_mem hmarked
  rw [textOf_marks] at hmem
  have hne : marked.1 ≠ ';' := fun heq => h (heq ▸ hmem)
  rw [isCut, beq_eq_false_iff_ne.mpr hne, Bool.false_and]

/-- An ASCII text without semicolons and without blanks around it is one statement. -/
theorem split_single {sql : String} (hascii : RustText.isAscii sql.toList = true)
    (hcut : ';' ∉ sql.toList) (htrim : trim sql.toList = sql.toList) (hne : sql.toList ≠ []) :
    splitClickhouseStatements sql = [sql] := by
  have hwhole : Whole sqlQuotes sql.toList := ⟨uncut_of_not_mem hcut, htrim, hne⟩
  rw [splitClickhouseStatements_eq, bytesAsChars_ascii hascii, hwhole.single, List.map_singleton,
    String.ofList_toList]

end Splitting

section Statements

theorem resourceName_chars (h : isSafeResourceName name = true) :
    ∀ c ∈ name.toList, identifierChar c = true := by
  rw [isSafeResourceName, Bool.and_eq_true, List.all_eq_true] at h
  exact h.2

def around (lead name : String) : String := lead ++ "`" ++ name ++ "`"

theorem around_toList (lead name : String) :
    (around lead name).toList = lead.toList ++ '`' :: (name.toList ++ ['`']) := by
  have htick : "`".toList = ['`'] := rfl
  rw [around, String.toList_append, String.toList_append, String.toList_append, htick,
    List.append_assoc, List.append_assoc]
  rfl

structure Lead (lead : String) : Prop where
  ascii : ∀ c ∈ lead.toList, c.toNat ≤ 127
  uncut : ';' ∉ lead.toList
  unquoted : '`' ∉ lead.toList
  visible : ∃ c rest, lead.toList = c :: rest ∧ RustText.isWhitespace c = false

variable {lead : String}

theorem Lead.chars (h : Lead lead) (hname : ∀ c ∈ name.toList, identifierChar c = true) :
    ∀ c ∈ (around lead name).toList, c.toNat ≤ 127 ∧ c ≠ ';' := by
  intro c hc
  rw [around_toList, List.mem_append, List.mem_cons, List.mem_append, List.mem_singleton] at hc
  rcases hc with hlead | rfl | hc | rfl
  · exact ⟨h.ascii c hlead, fun heq => h.uncut (heq ▸ hlead)⟩
  · decide
  · have hrange := identifierChar_cases (hname c hc)
    refine ⟨by omega, ?_⟩
    rintro rfl
    exact absurd hrange (by decide)
  · decide

theorem Lead.split (h : Lead lead) (hname : ∀ c ∈ name.toList, identifierChar c = true) :
    splitClickhouseStatements (around lead name) = [around lead name] := by
  have hchars := h.chars hname
  obtain ⟨c, rest, hlead, hvisible⟩ := h.visible
  refine split_single ?_ (fun hmem => (hchars _ hmem).2 rfl) ?_ ?_
  · rw [RustText.isAscii, List.all_eq_true]
    intro d hd
    exact decide_eq_true (hchars d hd).1
  · have hsplit : (around lead name).toList =
        (c :: (rest ++ '`' :: name.toList)) ++ '`' :: [] := by
      rw [around_toList, hlead]
      simp
    rw [hsplit, RustText.trim_append hvisible (by decide)]
    rfl
  · rw [around_toList, hlead]
    exact List.cons_ne_nil c _

theorem Lead.identifier (h : Lead lead) (hname : ∀ c ∈ name.toList, identifierChar c = true) :
    backquoted (around lead name).toList = some (name.toList, []) := by
  have hlead : ∀ c ∈ lead.toList, (c != '`') = true := by
    intro c hc
    rw [bne_iff_ne]
    exact fun heq => h.unquoted (heq ▸ hc)
  have hinside : ∀ c ∈ name.toList, (c != '`') = true := by
    intro c hc
    rw [bne_iff_ne]
    rintro rfl
    exact absurd (hname _ hc) (by decide)
  have hescape : '\\' ∉ name.toList := fun hmem => absurd (hname _ hmem) (by decide)
  have hstop : ('`' != '`') = false := by decide
  have hfirst : (around lead name).toList.dropWhile (· != '`') =
      '`' :: (name.toList ++ ['`']) := by
    rw [around_toList, List.dropWhile_append_of_pos hlead, List.dropWhile_cons, hstop,
      if_neg Bool.false_ne_true]
  have hname' : (name.toList ++ ['`']).takeWhile (· != '`') = name.toList := by
    rw [List.takeWhile_append_of_pos hinside, List.takeWhile_cons, hstop,
      if_neg Bool.false_ne_true, List.append_nil]
  have hrest : (name.toList ++ ['`']).dropWhile (· != '`') = ['`'] := by
    rw [List.dropWhile_append_of_pos hinside, List.dropWhile_cons, hstop,
      if_neg Bool.false_ne_true]
  rw [backquoted, hfirst]
  dsimp only
  rw [hname', hrest]
  simp [hescape]

theorem around_inj {name' : String} (h : around lead name = around lead name') : name = name' := by
  rw [around, around] at h
  simpa using h

theorem createDatabaseSql_eq (name : String) :
    createDatabaseSql name = around "CREATE DATABASE IF NOT EXISTS " name := by
  have htick : "CREATE DATABASE IF NOT EXISTS `" = "CREATE DATABASE IF NOT EXISTS " ++ "`" := by
    decide
  unfold createDatabaseSql around
  rw [htick]

theorem dropDatabaseSql_eq (name : String) :
    dropDatabaseSql name = around "DROP DATABASE IF EXISTS " name := by
  have htick : "DROP DATABASE IF EXISTS `" = "DROP DATABASE IF EXISTS " ++ "`" := by decide
  unfold dropDatabaseSql around
  rw [htick]

theorem lead_create : Lead "CREATE DATABASE IF NOT EXISTS " where
  ascii := List.all_iff_forall_prop.mp (by decide)
  uncut := by decide
  unquoted := by decide
  visible := ⟨'C', _, rfl, by decide⟩

theorem lead_drop : Lead "DROP DATABASE IF EXISTS " where
  ascii := List.all_iff_forall_prop.mp (by decide)
  uncut := by decide
  unquoted := by decide
  visible := ⟨'D', _, rfl, by decide⟩

end Statements

/-- A statement is sent unchanged as the only one of its script, and names the database. -/
structure SingleStatement (name sql : String) : Prop where
  split : splitClickhouseStatements sql = [sql]
  identifier : backquoted sql.toList = some (name.toList, [])

theorem Lead.single (h : Lead lead) (hname : isSafeResourceName name = true) :
    SingleStatement name (around lead name) :=
  ⟨h.split (resourceName_chars hname), h.identifier (resourceName_chars hname)⟩

/-- The statements about an accepted name are single ones for the database of that name, and those
about other names are different. -/
theorem database_statements (h : isSafeResourceName name = true) :
    (provisionClickhouseDatabase name = .ok (.statement .clickhouse (createDatabaseSql name)) ∧
      SingleStatement name (createDatabaseSql name)) ∧
    (teardownClickhouseDatabase name = .ok (.statement .clickhouse (dropDatabaseSql name)) ∧
      SingleStatement name (dropDatabaseSql name)) ∧
    ∀ other, other ≠ name → createDatabaseSql other ≠ createDatabaseSql name ∧
      dropDatabaseSql other ≠ dropDatabaseSql name := by
  refine ⟨⟨guarded_accepted h, ?_⟩, ⟨guarded_accepted h, ?_⟩, ?_⟩
  · rw [createDatabaseSql_eq]
    exact lead_create.single h
  · rw [dropDatabaseSql_eq]
    exact lead_drop.single h
  · intro other hne
    constructor
    · intro heq
      rw [createDatabaseSql_eq, createDatabaseSql_eq] at heq
      exact hne (around_inj heq)
    · intro heq
      exact hne (dropDatabaseSql_inj heq)

theorem database_statements_demo :
    isSafeResourceName "playground_ab12_cd34" = true ∧
      SingleStatement "playground_ab12_cd34" (dropDatabaseSql "playground_ab12_cd34") := by
  have hsafe : isSafeResourceName "playground_ab12_cd34" = true := by decide
  exact ⟨hsafe, (database_statements hsafe).2.1.2⟩

end PlaygroundClickhouseDdl
