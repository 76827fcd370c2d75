import Playground.PlaygroundClassify
import Playground.PlaygroundClickhouse

/-! # Comments in statements

The splitters keep comments in the statements they return, and the classification removes them
line by line. -/
namespace PlaygroundComments

open PlaygroundApiClient
open PlaygroundClassify
open PlaygroundClickhouse
open PlaygroundStatements
open PlaygroundTemplates
open QuotedScripts
open RustText

section Lines

def markedLines : List (Char × Mark) → List (List (Char × Mark))
  | [] => []
  | m :: ms =>
    if m.1 = '\n' then [] :: markedLines ms
    else if m.1 = '\r' ∧ (textOf ms).head? = some '\n' then markedLines ms
    else
      match markedLines ms with
      | [] => [[m]]
      | l :: ls => (m :: l) :: ls

theorem textOf_markedLines (ms : List (Char × Mark)) :
    (markedLines ms).map textOf = lines (textOf ms) := by
  induction ms with
  | nil => rfl
  | cons m ms ih =>
    change _ = lines (m.1 :: textOf ms)
    rw [markedLines, lines, ← ih]
    split
    · rfl
    · split
      · rfl
      · cases markedLines ms <;> rfl

def keptLength (line : List (Char × Mark)) : ℕ := (beforeFirst ['-', '-'] (textOf line)).length

def CommentRemoved (line : List (Char × Mark)) : Prop :=
  (∀ m ∈ line.take (keptLength line), m.2 ≠ .comment) ∧
    ∀ m ∈ line.drop (keptLength line), m.2 = .comment

theorem beforeFirst_isPrefix (pat s : List Char) : beforeFirst pat s <+: s := by
  induction s with
  | nil => exact List.prefix_rfl
  | cons c cs ih =>
    rw [beforeFirst]
    split
    · exact List.nil_prefix
    · exact (List.prefix_cons_inj c).mpr ih

theorem take_keptLength (line : List (Char × Mark)) :
    textOf (line.take (keptLength line)) = beforeFirst ['-', '-'] (textOf line) := by
  have htake := (List.prefix_iff_eq_take.mp (beforeFirst_isPrefix ['-', '-'] (textOf line))).symm
  rw [← htake, textOf, List.map_take]
  rfl

theorem stripSqlComments_marked (ms : List (Char × Mark)) :
    stripSqlComments (textOf ms) =
      (markedLines ms).flatMap fun line => textOf (line.take (keptLength line)) ++ ['\n'] := by
  rw [stripSqlComments, ← textOf_markedLines, List.flatMap_map]
  simp only [take_keptLength]

variable {m : Char × Mark} {line ms : List (Char × Mark)}

theorem beforeFirst_dashes (c : Char) (cs : List Char) :
    beforeFirst ['-', '-'] (c :: cs) =
      if c = '-' ∧ cs.head? = some '-' then [] else c :: beforeFirst ['-', '-'] cs := by
  have htest : ['-', '-'].isPrefixOf (c :: cs) = true ↔ c = '-' ∧ cs.head? = some '-' := by
    rw [List.isPrefixOf_iff_prefix, List.cons_prefix_cons, eq_comm]
    cases cs with
    | nil => simp
    | cons d cs =>
      rw [List.cons_prefix_cons, List.head?_cons, Option.some_inj]
      simp [eq_comm (a := d)]
  rw [beforeFirst]
  simp only [htest]

theorem keptLength_dashes (hm : m.1 = '-') (h : (textOf line).head? = some '-') :
    keptLength (m :: line) = 0 := by
  change (beforeFirst ['-', '-'] (m.1 :: textOf line)).length = 0
  rw [beforeFirst_dashes, if_pos ⟨hm, h⟩]
  rfl

theorem keptLength_cons (h : ¬(m.1 = '-' ∧ (textOf line).head? = some '-')) :
    keptLength (m :: line) = keptLength line + 1 := by
  change (beforeFirst ['-', '-'] (m.1 :: textOf line)).length = _
  rw [beforeFirst_dashes, if_neg h]
  rfl

theorem commentRemoved_dashes (hm : m.1 = '-') (h : (textOf line).head? = some '-') :
    CommentRemoved (m :: line) ↔ m.2 = .comment ∧ ∀ m' ∈ line, m'.2 = .comment := by
  rw [CommentRemoved, keptLength_dashes hm h, List.take_zero, List.drop_zero,
    List.forall_mem_cons]
  simp

theorem commentRemoved_cons (hm : m.2 ≠ .comment)
    (h : ¬(m.1 = '-' ∧ (textOf line).head? = some '-')) :
    CommentRemoved (m :: line) ↔ CommentRemoved line := by
  rw [CommentRemoved, keptLength_cons h, List.take_succ_cons, List.drop_succ_cons,
    List.forall_mem_cons, CommentRemoved]
  simp [hm]

theorem commentRemoved_nil : CommentRemoved [] :=
  ⟨fun _ h => absurd h List.not_mem_nil, fun _ h => absurd h List.not_mem_nil⟩

theorem markedLines_cons (hn : m.1 ≠ '\n')
    (hr : ¬(m.1 = '\r' ∧ (textOf ms).head? = some '\n')) :
    ∃ line rest, markedLines (m :: ms) = (m :: line) :: rest ∧
      (markedLines ms = line :: rest ∨ markedLines ms = [] ∧ line = [] ∧ rest = []) := by
  rw [markedLines, if_neg hn, if_neg hr]
  cases h : markedLines ms with
  | nil => exact ⟨[], [], rfl, Or.inr ⟨rfl, rfl, rfl⟩⟩
  | cons line rest => exact ⟨line, rest, rfl, Or.inl rfl⟩

theorem markedLines_head {rest : List (List (Char × Mark))} {d : Char}
    (h : markedLines ms = line :: rest) (hd : (textOf line).head? = some d) :
    (textOf ms).head? = some d := by
  cases ms with
  | nil => cases h
  | cons m ms =>
    by_cases hn : m.1 = '\n'
    · rw [markedLines, if_pos hn] at h
      cases h
      cases hd
    · by_cases hr : m.1 = '\r' ∧ (textOf ms).head? = some '\n'
      · rw [markedLines, if_neg hn, if_pos hr] at h
        cases ms with
        | nil => cases h
        | cons m' ms =>
          have hn' : m'.1 = '\n' := by simpa [textOf] using hr.2
          rw [markedLines, if_pos hn'] at h
          cases h
          cases hd
      · obtain ⟨line', rest', heq, -⟩ := markedLines_cons hn hr
        rw [heq] at h
        cases h
        exact hd

end Lines

section Dashes

def NoQuotedDashes (ms : List (Char × Mark)) : Prop :=
  ∀ quote mark, ¬ [('-', Mark.literal quote), ('-', mark)] <:+: ms

/-- What is asked of the rest of the line on which a scan is in a state. -/
def LineAgrees (state : Mark) (line : List (Char × Mark)) : Prop :=
  if state = .comment then ∀ m ∈ line, m.2 = .comment else CommentRemoved line

def LinesAgree (state : Mark) : List (List (Char × Mark)) → Prop
  | [] => True
  | line :: rest => LineAgrees state line ∧ ∀ line' ∈ rest, CommentRemoved line'

variable {m : Char × Mark} {line ms : List (Char × Mark)}

theorem noQuotedDashes_cons : NoQuotedDashes (m :: ms) ↔
    ¬(m.1 = '-' ∧ (∃ quote, m.2 = .literal quote) ∧ (textOf ms).head? = some '-') ∧
      NoQuotedDashes ms := by
  have hhead : ∀ quote, (∃ mark, [('-', Mark.literal quote), ('-', mark)] <+: m :: ms) ↔
      m.1 = '-' ∧ m.2 = .literal quote ∧ (textOf ms).head? = some '-' := by
    intro quote
    obtain ⟨c, mark⟩ := m
    cases ms with
    | nil => simp [textOf, List.cons_prefix_cons]
    | cons m' ms =>
      obtain ⟨c', mark'⟩ := m'
      simp [textOf, List.cons_prefix_cons, eq_comm, and_assoc]
  simp only [NoQuotedDashes, List.infix_cons_iff, not_or]
  constructor
  · intro h
    refine ⟨?_, fun quote mark => (h quote mark).2⟩
    rintro ⟨hm, ⟨quote, hmark⟩, hnext⟩
    obtain ⟨mark, hprefix⟩ := (hhead quote).mpr ⟨hm, hmark, hnext⟩
    exact (h quote mark).1 hprefix
  · rintro ⟨hfirst, hrest⟩ quote mark
    refine ⟨fun hprefix => hfirst ?_, hrest quote mark⟩
    obtain ⟨hm, hmark, hnext⟩ := (hhead quote).mp ⟨mark, hprefix⟩
    exact ⟨hm, ⟨quote, hmark⟩, hnext⟩

variable (q : Quotes)

theorem lineAgrees_nil (state : Mark) : LineAgrees state [] := by
  rw [LineAgrees]
  split
  · exact fun _ h => absurd h List.not_mem_nil
  · exact commentRemoved_nil

theorem linesAgree_outside {state : Mark} (h : state ≠ .comment)
    (ls : List (List (Char × Mark))) :
    LinesAgree state ls ↔ ∀ line ∈ ls, CommentRemoved line := by
  cases ls with
  | nil => exact iff_of_true trivial fun _ h => absurd h List.not_mem_nil
  | cons line rest => rw [LinesAgree, LineAgrees, if_neg h, List.forall_mem_cons]

theorem linesAgree_congr {state state' : Mark} (h : state = .comment ↔ state' = .comment)
    (ls : List (List (Char × Mark))) : LinesAgree state ls ↔ LinesAgree state' ls := by
  cases ls with
  | nil => exact Iff.rfl
  | cons line rest => simp only [LinesAgree, LineAgrees, h]

theorem stateAfter_comment_iff (state : Mark) (c : Char) (next : Option Char) :
    stateAfter q state c next = .comment ↔
      (state = .comment ∧ c ≠ '\n') ∨ (state = .code ∧ c = '-' ∧ next = some '-') := by
  cases state with
  | code =>
    by_cases hc : c = '-' ∧ next = some '-'
    · simp [stateAfter, markOf, hc]
    · by_cases hquote : q.isQuote c = true <;> simp [stateAfter, markOf, hc, hquote]
  | literal quote =>
    by_cases hc : quote = c <;> simp [stateAfter, markOf, hc]
  | comment =>
    by_cases hc : c = '\n' <;> simp [stateAfter, markOf, hc]

theorem markOf_comment_iff (state : Mark) (c : Char) (next : Option Char) :
    markOf q state c next = .comment ↔
      (state = .comment ∧ c ≠ '\n') ∨ (state = .code ∧ c = '-' ∧ next = some '-') := by
  cases state with
  | code =>
    by_cases hc : c = '-' ∧ next = some '-'
    · simp [markOf, hc]
    · by_cases hquote : q.isQuote c = true <;> simp [markOf, hc, hquote]
  | literal quote => simp [markOf]
  | comment => by_cases hc : c = '\n' <;> simp [markOf, hc]

theorem lineAgrees_cons (state : Mark) {c : Char} {next : Option Char} (hn : c ≠ '\n')
    (hnext : c = '-' → ((textOf line).head? = some '-' ↔ next = some '-')) :
    LineAgrees state ((c, markOf q state c next) :: line) ↔
      ¬(c = '-' ∧ (∃ quote, markOf q state c next = .literal quote) ∧ next = some '-') ∧
        LineAgrees (stateAfter q state c next) line := by
  have hafter := stateAfter_comment_iff q state c next
  have hmark := markOf_comment_iff q state c next
  by_cases hdash : c = '-' ∧ next = some '-'
  · have hline := (hnext hdash.1).mpr hdash.2
    cases state with
    | comment =>
      have hin : markOf q .comment c next = .comment := hmark.mpr (Or.inl ⟨rfl, hn⟩)
      have hstay : stateAfter q .comment c next = .comment := hafter.mpr (Or.inl ⟨rfl, hn⟩)
      rw [LineAgrees, LineAgrees, if_pos rfl, if_pos hstay, hin]
      simp
    | code =>
      have hin : markOf q .code c next = .comment := hmark.mpr (Or.inr ⟨rfl, hdash⟩)
      have hopen : stateAfter q .code c next = .comment := hafter.mpr (Or.inr ⟨rfl, hdash⟩)
      rw [LineAgrees, LineAgrees, if_neg (by simp), if_pos hopen, hin,
        commentRemoved_dashes hdash.1 hline]
      simp
    | literal quote =>
      rw [LineAgrees, if_neg (by simp), commentRemoved_dashes hdash.1 hline]
      simp [markOf, hdash]
  · have hquoted : ¬(c = '-' ∧ (∃ quote, markOf q state c next = .literal quote) ∧
        next = some '-') := fun h => hdash ⟨h.1, h.2.2⟩
    by_cases hstate : state = .comment
    · subst hstate
      have hin : markOf q .comment c next = .comment := hmark.mpr (Or.inl ⟨rfl, hn⟩)
      have hstay : stateAfter q .comment c next = .comment := hafter.mpr (Or.inl ⟨rfl, hn⟩)
      rw [LineAgrees, LineAgrees, if_pos rfl, if_pos hstay, hin]
      simp
    · have hnone : ¬((state = .comment ∧ c ≠ '\n') ∨
          (state = .code ∧ c = '-' ∧ next = some '-')) := by
        rintro (h | h)
        · exact hstate h.1
        · exact hdash h.2
      rw [← hafter] at hnone
      rw [LineAgrees, LineAgrees, if_neg hstate, if_neg hnone, commentRemoved_cons]
      · exact (and_iff_right hquoted).symm
      · rwa [hafter, ← hmark] at hnone
      · rintro ⟨hc, hhead⟩
        exact hdash ⟨hc, (hnext hc).mp hhead⟩

theorem markedLines_dash (h : (textOf ms).head? = some '-') :
    ∃ line rest, markedLines ms = line :: rest ∧ (textOf line).head? = some '-' := by
  cases ms with
  | nil => cases h
  | cons m ms =>
    have hm : m.1 = '-' := by simpa [textOf] using h
    have hn : m.1 ≠ '\n' := by simp [hm]
    have hr : ¬(m.1 = '\r' ∧ (textOf ms).head? = some '\n') := by simp [hm]
    obtain ⟨line, rest, heq, -⟩ := markedLines_cons hn hr
    exact ⟨m :: line, rest, heq, by simp [textOf, hm]⟩

/-- The removed characters are the comments, line by line, exactly when no dashes start inside a
literal. -/
theorem linesAgree_iff (state : Mark) (text : List Char) :
    LinesAgree state (markedLines (marks q state text)) ↔ NoQuotedDashes (marks q state text) := by
  induction text generalizing state with
  | nil => exact iff_of_true trivial fun quote mark h => by simp [marks] at h
  | cons c rest ih =>
    have hrest := ih (stateAfter q state c rest.head?)
    have hafter := stateAfter_comment_iff q state c rest.head?
    have hhead : (textOf (marks q (stateAfter q state c rest.head?) rest)).head? = rest.head? := by
      rw [textOf_marks]
    rw [marks, noQuotedDashes_cons, hhead, ← hrest]
    generalize marks q (stateAfter q state c rest.head?) rest = ms at hhead
    by_cases hn : c = '\n'
    · -- The next line starts outside comments.
      subst hn
      have hout : stateAfter q state '\n' rest.head? ≠ .comment := by
        rw [ne_eq, hafter]
        simp
      rw [markedLines, if_pos rfl, linesAgree_outside hout, LinesAgree]
      simp [lineAgrees_nil]
    · by_cases hr : c = '\r' ∧ (textOf ms).head? = some '\n'
      · obtain ⟨rfl, hnext⟩ := hr
        have hsame : state = .comment ↔ stateAfter q state '\r' rest.head? = .comment := by
          rw [hafter]
          simp
        rw [markedLines, if_neg (by simp), if_pos ⟨rfl, hnext⟩, linesAgree_congr hsame]
        simp
      · obtain ⟨line, ls, heq, hms⟩ :=
          markedLines_cons (m := (c, markOf q state c rest.head?)) hn hr
        have hnext : c = '-' → ((textOf line).head? = some '-' ↔ rest.head? = some '-') := by
          rintro -
          rw [← hhead]
          rcases hms with hms | ⟨hms, rfl, -⟩
          · refine ⟨markedLines_head hms, ?_⟩
            intro hdash
            obtain ⟨line', ls', hms', hline⟩ := markedLines_dash hdash
            rw [hms] at hms'
            cases hms'
            exact hline
          · refine ⟨fun h => (by cases h), fun hdash => ?_⟩
            obtain ⟨line', ls', hms', -⟩ := markedLines_dash hdash
            rw [hms] at hms'
            cases hms'
        have hlines : LinesAgree (stateAfter q state c rest.head?) (markedLines ms) ↔
            LineAgrees (stateAfter q state c rest.head?) line ∧
              ∀ line' ∈ ls, CommentRemoved line' := by
          rcases hms with hms | ⟨hms, rfl, rfl⟩
          · rw [hms]
            exact Iff.rfl
          · rw [hms]
            exact iff_of_true trivial ⟨lineAgrees_nil _, fun _ h => absurd h List.not_mem_nil⟩
        rw [heq, hlines, LinesAgree, lineAgrees_cons q state hn hnext, and_assoc]

end Dashes

/-- The comment removal keeps a beginning of every line. It removes what the statement splitter
scans as comment, exactly for scripts in which no `--` starts inside a literal. -/
theorem same_comments_iff (sql : String) :
    stripSqlComments sql.toList =
        (markedLines (marks singleQuotes .code sql.toList)).flatMap
          (fun line => textOf (line.take (keptLength line)) ++ ['\n']) ∧
      ((∀ line ∈ markedLines (marks singleQuotes .code sql.toList), CommentRemoved line) ↔
        NoQuotedDashes (marks singleQuotes .code sql.toList)) := by
  constructor
  · have hstrip := stripSqlComments_marked (marks singleQuotes .code sql.toList)
    rwa [textOf_marks] at hstrip
  · rw [← linesAgree_iff, linesAgree_outside (by simp)]

/-- The second half of the literal is removed, and the splitter scans no comment. -/
theorem literal_dashes_removed :
    stripSqlComments "SELECT 'a--b'".toList = "SELECT 'a\n".toList ∧
      (marks singleQuotes .code "SELECT 'a--b'".toList).all (fun m => m.2 != .comment) = true ∧
      ¬ ∀ line ∈ markedLines (marks singleQuotes .code "SELECT 'a--b'".toList),
        CommentRemoved line := by
  refine ⟨by decide, by decide, ?_⟩
  rw [(same_comments_iff _).2]
  intro h
  have hdashes : [('-', Mark.literal '\''), ('-', Mark.literal '\'')] <:+:
      marks singleQuotes .code "SELECT 'a--b'".toList :=
    ⟨(marks singleQuotes .code "SELECT 'a--b'".toList).take 9,
      (marks singleQuotes .code "SELECT 'a--b'".toList).drop 11, by decide⟩
  exact h _ _ hdashes

section Segments

def isCode (m : Char × Mark) : Bool := m.2 != .comment && !isWhitespace m.1

def HasCode (q : Quotes) (stmt : List Char) : Prop := ∃ m ∈ marks q .code stmt, isCode m = true

/-- There is something in the segment, and all of it is comment or blank. -/
def CommentOnly (part : List (Char × Mark)) : Prop :=
  (∃ m ∈ part, isWhitespace m.1 = false) ∧ ∀ m ∈ part, isCode m = false

variable (q : Quotes)

theorem hasCode_trim (text : List Char) :
    HasCode q (trim text) ↔ ∃ m ∈ marks q .code text, isCode m = true := by
  obtain ⟨before, after, hmarks, hbefore, hafter⟩ := marks_trim q text
  rw [HasCode, hmarks]
  constructor
  · rintro ⟨m, hm, hcode⟩
    exact ⟨m, by simp [hm], hcode⟩
  · rintro ⟨m, hm, hcode⟩
    have hvisible : isWhitespace m.1 = false := by
      rw [isCode, Bool.and_eq_true, Bool.not_eq_true'] at hcode
      exact hcode.2
    rcases List.mem_append.mp hm with hm | hm
    · rcases List.mem_append.mp hm with hm | hm
      · rw [(hbefore m hm).1] at hvisible
        cases hvisible
      · exact ⟨m, hm, hcode⟩
    · rw [hafter m hm] at hvisible
      cases hvisible

theorem trim_nil_iff (text : List Char) :
    trim text = [] ↔ ∀ c ∈ text, isWhitespace c = true := by
  constructor
  · intro h
    obtain ⟨front, back, htext, hfront, hback⟩ := exists_trim text
    rw [h, List.append_nil] at htext
    rw [htext]
    intro c hc
    exact (List.mem_append.mp hc).elim (hfront c) (hback c)
  · intro h
    have hfront := trim_blank_append h []
    rwa [List.append_nil] at hfront

/-- Every statement of a script says something outside comments, exactly when no segment between
the semicolons is comments and blanks only. -/
theorem statements_hasCode_iff (text : List Char) :
    (∀ stmt ∈ statements q text, HasCode q stmt) ↔
      ∀ part ∈ parts q .code text, ¬ CommentOnly part := by
  have hpart : ∀ part ∈ parts q .code text, marks q .code (textOf part) = part :=
    fun part h => ((cuts_parts q text).part h).2
  constructor
  · rintro h part hmem ⟨⟨m, hm, hvisible⟩, hnone⟩
    have hne : trim (textOf part) ≠ [] := by
      intro hnil
      have hblank := (trim_nil_iff _).mp hnil m.1 (List.mem_map_of_mem hm)
      rw [hvisible] at hblank
      cases hblank
    have hcode := h _ (mem_keepVisible.mpr ⟨_, List.mem_map_of_mem hmem, rfl, hne⟩)
    rw [hasCode_trim, hpart part hmem] at hcode
    obtain ⟨m', hm', hcode⟩ := hcode
    rw [hnone m' hm'] at hcode
    cases hcode
  · intro h stmt hstmt
    obtain ⟨seg, hseg, rfl, hne⟩ := mem_keepVisible.mp hstmt
    obtain ⟨part, hmem, rfl⟩ := List.mem_map.mp hseg
    rw [hasCode_trim, hpart part hmem]
    by_contra hnone
    apply h part hmem
    constructor
    · by_contra hblank
      apply hne
      rw [trim_nil_iff]
      intro c hc
      obtain ⟨m, hm, rfl⟩ := List.mem_map.mp hc
      rw [← Bool.not_eq_false]
      exact fun hvisible => hblank ⟨m, hm, hvisible⟩
    · intro m hm
      rw [← Bool.not_eq_true]
      exact fun hcode => hnone ⟨m, hm, hcode⟩

end Segments

/-- The splitters return no statement that is only comments, exactly for scripts without such a
segment. -/
theorem split_hasCode_iff (sql : String) :
    ((∀ stmt ∈ splitDsSqlStatements sql, HasCode singleQuotes stmt.toList) ↔
        ∀ part ∈ parts singleQuotes .code sql.toList, ¬ CommentOnly part) ∧
      ((∀ stmt ∈ splitClickhouseStatements sql, HasCode sqlQuotes stmt.toList) ↔
        ∀ part ∈ parts sqlQuotes .code (bytesAsChars sql), ¬ CommentOnly part) := by
  rw [splitDsSqlStatements_eq, splitClickhouseStatements_eq, ← statements_hasCode_iff,
    ← statements_hasCode_iff]
  constructor <;> simp only [List.forall_mem_map, String.toList_ofList]

theorem hasCode_any (q : Quotes) (stmt : List Char) :
    HasCode q stmt ↔ (marks q .code stmt).any isCode = true := List.any_eq_true.symm

/-- A comment after the last semicolon is a statement of its own, and the API client refuses it. -/
theorem trailing_comment_sent :
    "-- done" ∈ splitDsSqlStatements "RESUME SHUTTLE p;\n-- done" ∧
      "-- done" ∈ splitClickhouseStatements "SELECT 1;\n-- done" ∧
      ¬ HasCode singleQuotes "-- done".toList ∧ ¬ HasCode sqlQuotes "-- done".toList ∧
      classifyStatement "-- done" = none := by
  have hds : splitDsSqlStatements "RESUME SHUTTLE p;\n-- done" =
      ["RESUME SHUTTLE p", "-- done"] := by
    rw [splitDsSqlStatements_eq]
    decide
  have hclickhouse : splitClickhouseStatements "SELECT 1;\n-- done" = ["SELECT 1", "-- done"] := by
    rw [splitClickhouseStatements_eq, bytesAsChars_ascii (by decide)]
    decide
  rw [hds, hclickhouse, hasCode_any, hasCode_any, classifyStatement_eq]
  refine ⟨by simp, by simp, by decide, by decide, by decide⟩

end PlaygroundComments
