import Playground.PlaygroundTemplates
import Playground.QuotedScripts

/-! # The DataShuttle statement splitter

What `split_ds_sql_statements` returns, against a scan that marks literals and comments. -/
namespace PlaygroundStatements

open PlaygroundTemplates
open QuotedScripts

def singleQuotes : Quotes where
  isQuote c := c == '\''
  visible c h := by
    rw [beq_iff_eq] at h
    subst h
    rfl
  semicolon := rfl

/-- A doubled quote stays inside its literal: it closes it and opens it again. -/
theorem marks_doubled (rest : List Char) :
    marks singleQuotes (.literal '\'') ('\'' :: '\'' :: rest) =
      ('\'', .literal '\'') :: ('\'', .literal '\'') ::
        marks singleQuotes (.literal '\'') rest := by
  simp [marks, markOf, stateAfter, singleQuotes]

/-- What the two flags of the loop say about the next character. -/
def scanState (inString inLineComment : Bool) : Mark :=
  if inLineComment then .comment else if inString then .literal '\'' else .code

theorem flushStatement_eq (cur : List Char) :
    flushStatement cur = (keepVisible [cur]).map String.ofList := by
  unfold flushStatement keepVisible
  cases h : (RustText.trim cur).isEmpty <;> simp [h]

/-- The loop collects the statements of the reference scan. It is never in a string and in a
comment at once. -/
theorem splitFrom_eq {cur rest : List Char} {inString inLineComment : Bool}
    (h : inLineComment = true → inString = false) :
    splitFrom cur inString inLineComment rest =
      (pieces singleQuotes cur (scanState inString inLineComment) rest).map String.ofList := by
  fun_induction splitFrom cur inString inLineComment rest with
  | case1 cur => rw [pieces_nil, flushStatement_eq]
  | case2 cur inString ch rest ih =>
    have hstring : inString = false := h rfl
    subst hstring
    rw [ih fun _ => rfl]
    change _ = (pieces singleQuotes cur .comment (ch :: rest)).map String.ofList
    rw [pieces_comment]
    by_cases hline : ch = '\n' <;> simp [scanState, hline]
  | case3 cur inString inLineComment ch hcomment next tail hopen ih =>
    simp only [Bool.and_eq_true, Bool.not_eq_true', beq_iff_eq] at hopen
    obtain ⟨⟨rfl, rfl⟩, rfl⟩ := hopen
    rw [ih fun _ => rfl]
    simp [scanState, hcomment, pieces_dashes]
  | case4 cur inString inLineComment ch hcomment next tail hopen hquote hdouble ih =>
    -- The lookahead for a doubled quote does what closing and reopening does.
    simp only [Bool.and_eq_true, beq_iff_eq] at hdouble hquote
    obtain ⟨rfl, rfl⟩ := hdouble
    subst hquote
    rw [ih (by simp)]
    simp [scanState, hcomment, pieces_close, pieces_open, singleQuotes]
  | case5 cur inString inLineComment ch hcomment next tail hopen hquote hdouble ih =>
    rw [beq_iff_eq] at hquote
    subst hquote
    rw [ih (by simp)]
    cases inString <;> simp [scanState, hcomment, pieces_close, pieces_open, singleQuotes]
  | case6 cur inString inLineComment ch hcomment next tail hopen hquote hcut ih =>
    simp only [Bool.and_eq_true, Bool.not_eq_true', beq_iff_eq] at hcut
    obtain ⟨rfl, rfl⟩ := hcut
    rw [ih (by simp), flushStatement_eq, ← List.map_append]
    simp [scanState, hcomment, pieces_cut, pieces_start]
  | case7 cur inString inLineComment ch hcomment next tail hopen hquote hcut ih =>
    rw [ih (by simp)]
    have hne : ch ≠ '\'' := by simpa using hquote
    cases inString with
    | true => simp [scanState, hcomment, pieces_literal singleQuotes cur hne]
    | false =>
      have hquote : singleQuotes.isQuote ch = false := by simpa [singleQuotes] using hquote
      have hcode : ch ≠ ';' := by simpa using hcut
      have hdash : ¬(ch = '-' ∧ (next :: tail).head? = some '-') := by simpa using hopen
      simp [scanState, hcomment, pieces_code singleQuotes cur hquote hcode hdash]
  | case8 cur inString inLineComment ch hcomment hcut =>
    simp only [Bool.and_eq_true, Bool.not_eq_true', beq_iff_eq] at hcut
    obtain ⟨rfl, rfl⟩ := hcut
    rw [flushStatement_eq]
    simp [scanState, hcomment, pieces_cut, statements_nil]
  | case9 cur inString inLineComment ch hcomment hcut =>
    have hcode : ¬(ch = ';' ∧ scanState inString inLineComment = .code) := by
      rintro ⟨rfl, hstate⟩
      cases inString <;> simp_all [scanState]
    rw [flushStatement_eq, pieces_cons singleQuotes hcode, pieces_nil]

theorem splitDsSqlStatements_eq (sql : String) :
    splitDsSqlStatements sql = (statements singleQuotes sql.toList).map String.ofList := by
  rw [splitDsSqlStatements, splitFrom_eq (by simp), ← pieces_start]
  rfl

theorem splitDsSqlStatements_ofList (text : List Char) :
    splitDsSqlStatements (String.ofList text) =
      (statements singleQuotes text).map String.ofList := by
  rw [splitDsSqlStatements_eq, String.toList_ofList]

def quotedText (text : List Char) : List (Char × Mark) :=
  (marks singleQuotes .code text).filter fun marked => marked.2 != .code

/-- How a list of statements comes from a script: its code semicolons and blanks around the
segments between them are all that is missing. -/
structure CutAtCode (sql : String) (stmts : List String) : Prop where
  trimmed : stmts = (statements singleQuotes sql.toList).map String.ofList
  rejoin : [(';', Mark.code)].intercalate (parts singleQuotes .code sql.toList) =
    marks singleQuotes .code sql.toList
  uncut : ∀ stmt ∈ stmts, Uncut singleQuotes stmt.toList
  kept : ∀ part ∈ parts singleQuotes .code sql.toList, ∃ before after,
    part = before ++ marks singleQuotes .code (RustText.trim (textOf part)) ++ after ∧
    (∀ marked ∈ before, RustText.isWhitespace marked.1 = true ∧ marked.2 = .code) ∧
    ∀ marked ∈ after, RustText.isWhitespace marked.1 = true

theorem split_cut_at_code (sql : String) : CutAtCode sql (splitDsSqlStatements sql) where
  trimmed := splitDsSqlStatements_eq sql
  rejoin := (cuts_parts singleQuotes sql.toList).rejoin
  uncut := by
    intro stmt hstmt
    rw [splitDsSqlStatements_eq] at hstmt
    obtain ⟨text, htext, rfl⟩ := List.mem_map.mp hstmt
    rw [String.toList_ofList]
    exact (whole_of_mem htext).uncut
  kept := by
    intro part hpart
    obtain ⟨-, halone⟩ := (cuts_parts singleQuotes sql.toList).part hpart
    obtain ⟨before, after, hmarks, hbefore, hafter⟩ := marks_trim singleQuotes (textOf part)
    exact ⟨before, after, halone.symm.trans hmarks, hbefore, hafter⟩

/-- The blank that ends a trailing comment is lost. -/
theorem split_drops_comment_blank :
    quotedText "-- b ".toList ≠
      (splitDsSqlStatements "-- b ").flatMap fun stmt => quotedText stmt.toList := by
  decide

theorem split_stable (sql : String) :
    (∀ stmt ∈ splitDsSqlStatements sql, splitDsSqlStatements stmt = [stmt]) ∧
      splitDsSqlStatements ("\n;\n".intercalate (splitDsSqlStatements sql)) =
        splitDsSqlStatements sql := by
  constructor
  · intro stmt hstmt
    rw [splitDsSqlStatements_eq] at hstmt
    obtain ⟨text, htext, rfl⟩ := List.mem_map.mp hstmt
    rw [splitDsSqlStatements_ofList, (whole_of_mem htext).single, List.map_singleton]
  · have hjoin : ("\n;\n".intercalate (splitDsSqlStatements sql)).toList =
        ['\n', ';', '\n'].intercalate (statements singleQuotes sql.toList) := by
      rw [splitDsSqlStatements_eq, String.toList_intercalate, List.map_map]
      simp
    rw [splitDsSqlStatements_eq, hjoin,
      statements_intercalate (fun _ => whole_of_mem) (cuts_parts singleQuotes sql.toList).closes,
      ← splitDsSqlStatements_eq]

end PlaygroundStatements
