import Playground.RustText

/-! # Scripts with quoted literals and line comments

Every character of a script is marked as code, as part of a quoted literal or as part of a
line comment, and the script is cut at the semicolons of its code. -/
namespace QuotedScripts

open RustText (isWhitespace trim trimStart trimEnd)

/-- What a character belongs to. A literal knows the quote that closes it. -/
inductive Mark where
  | code
  | literal (quote : Char)
  | comment
  deriving DecidableEq, Repr

structure Quotes where
  isQuote : Char → Bool
  visible : ∀ c, isQuote c = true → isWhitespace c = false
  semicolon : isQuote ';' = false

variable (q : Quotes)

/-- The mark of a character, from the state before it and the character that follows. -/
def markOf (state : Mark) (c : Char) (next : Option Char) : Mark :=
  match state with
  | .literal quote => .literal quote
  | .comment => if c = '\n' then .code else .comment
  | .code =>
    if c = '-' ∧ next = some '-' then .comment
    else if q.isQuote c then .literal c else .code

/-- The closing quote belongs to its literal; what follows it is code. -/
def stateAfter (state : Mark) (c : Char) (next : Option Char) : Mark :=
  if state = .literal c then .code else markOf q state c next

def marks : Mark → List Char → List (Char × Mark)
  | _, [] => []
  | state, c :: rest =>
    (c, markOf q state c rest.head?) :: marks (stateAfter q state c rest.head?) rest

def finalState : Mark → List Char → Mark
  | state, [] => state
  | state, c :: rest => finalState (stateAfter q state c rest.head?) rest

def isCut (marked : Char × Mark) : Bool := marked.1 == ';' && marked.2 == .code

def textOf (part : List (Char × Mark)) : List Char := part.map Prod.fst

/-- The marked text between consecutive cuts. -/
def parts (state : Mark) (text : List Char) : List (List (Char × Mark)) :=
  (marks q state text).splitOnP isCut

def segments (state : Mark) (text : List Char) : List (List Char) :=
  (parts q state text).map textOf

def keepVisible (segs : List (List Char)) : List (List Char) :=
  (segs.map trim).filter fun stmt => !stmt.isEmpty

/-- The trimmed segments that are not blank. -/
def statements (text : List Char) : List (List Char) := keepVisible (segments q .code text)

section Marks

@[simp] theorem textOf_marks (state : Mark) (text : List Char) :
    textOf (marks q state text) = text := by
  induction text generalizing state with
  | nil => rfl
  | cons c rest ih => simp only [marks, textOf, List.map_cons] at *; rw [ih]

theorem markOf_next {next : Option Char} (h : next ≠ some '-') (state : Mark) (c : Char) :
    markOf q state c next = markOf q state c none := by
  cases state <;> simp [markOf, h]

theorem stateAfter_next {next : Option Char} (h : next ≠ some '-') (state : Mark) (c : Char) :
    stateAfter q state c next = stateAfter q state c none := by
  unfold stateAfter
  rw [markOf_next q h]

theorem marks_append {b : List Char} (h : b.head? ≠ some '-') (state : Mark) (a : List Char) :
    marks q state (a ++ b) = marks q state a ++ marks q (finalState q state a) b := by
  induction a generalizing state with
  | nil => rfl
  | cons c rest ih =>
    cases rest with
    | nil => simp [marks, finalState, markOf_next q h, stateAfter_next q h]
    | cons d tail =>
      rw [List.cons_append, marks, ih]
      rfl

theorem finalState_append {b : List Char} (h : b.head? ≠ some '-') (state : Mark)
    (a : List Char) :
    finalState q state (a ++ b) = finalState q (finalState q state a) b := by
  induction a generalizing state with
  | nil => rfl
  | cons c rest ih =>
    cases rest with
    | nil => simp [finalState, stateAfter_next q h]
    | cons d tail =>
      rw [List.cons_append, finalState, ih]
      rfl

theorem marks_congr {q' : Quotes} {text : List Char}
    (h : ∀ c ∈ text, q.isQuote c = q'.isQuote c) (state : Mark) :
    marks q state text = marks q' state text := by
  induction text generalizing state with
  | nil => rfl
  | cons c rest ih =>
    have hmark : ∀ next, markOf q state c next = markOf q' state c next := by
      intro next
      cases state <;> simp [markOf, h c (by simp)]
    have hstate : ∀ next, stateAfter q state c next = stateAfter q' state c next := by
      intro next
      simp only [stateAfter, hmark]
    rw [marks, marks, hmark, hstate, ih fun d hd => h d (by simp [hd])]

end Marks

section Segments

theorem isCut_markOf {state : Mark} {c : Char} {next : Option Char} :
    isCut (c, markOf q state c next) = true ↔ c = ';' ∧ state = .code := by
  constructor
  · intro h
    simp only [isCut, Bool.and_eq_true, beq_iff_eq] at h
    obtain ⟨rfl, hmark⟩ := h
    cases state <;> simp [markOf] at hmark ⊢
  · rintro ⟨rfl, rfl⟩
    simp [isCut, markOf, q.semicolon]

theorem isCut_markOf_false {state : Mark} {c : Char} {next : Option Char}
    (h : ¬(c = ';' ∧ state = .code)) : isCut (c, markOf q state c next) = false := by
  rw [← Bool.not_eq_true, isCut_markOf]
  exact h

theorem stateAfter_semicolon (next : Option Char) :
    stateAfter q .code ';' next = .code := by
  simp [stateAfter, markOf, q.semicolon]

theorem segments_nil (state : Mark) : segments q state [] = [[]] := rfl

theorem segments_cut (rest : List Char) :
    segments q .code (';' :: rest) = [] :: segments q .code rest := by
  have hcut : isCut (';', markOf q .code ';' rest.head?) = true :=
    (isCut_markOf q).mpr ⟨rfl, rfl⟩
  simp only [segments, parts, marks, stateAfter_semicolon, List.splitOnP_cons_eq_if_modifyHead,
    hcut, if_true, List.map_cons]
  rfl

theorem segments_cons {state : Mark} {c : Char} (h : ¬(c = ';' ∧ state = .code))
    (rest : List Char) :
    segments q state (c :: rest) =
      (segments q (stateAfter q state c rest.head?) rest).modifyHead (c :: ·) := by
  have hcut : isCut (c, markOf q state c rest.head?) = false := isCut_markOf_false q h
  simp only [segments, parts, marks, List.splitOnP_cons_eq_if_modifyHead, hcut]
  cases (marks q (stateAfter q state c rest.head?) rest).splitOnP isCut <;> rfl

@[simp] theorem keepVisible_nil : keepVisible [] = [] := rfl

theorem keepVisible_cons (seg : List Char) (segs : List (List Char)) :
    keepVisible (seg :: segs) = keepVisible [seg] ++ keepVisible segs := by
  simp only [keepVisible, List.map_cons, List.map_nil, ← List.filter_append,
    List.singleton_append]

theorem mem_keepVisible {segs : List (List Char)} {stmt : List Char} :
    stmt ∈ keepVisible segs ↔ ∃ seg ∈ segs, trim seg = stmt ∧ stmt ≠ [] := by
  simp only [keepVisible, List.mem_filter, List.mem_map]
  constructor
  · rintro ⟨⟨seg, hseg, rfl⟩, hne⟩
    exact ⟨seg, hseg, rfl, by simpa using hne⟩
  · rintro ⟨seg, hseg, rfl, hne⟩
    exact ⟨⟨seg, hseg, rfl⟩, by simpa using hne⟩

/-- The statements of a script whose first segment has already been read up to `cur`. -/
def pieces (cur : List Char) (state : Mark) (rest : List Char) : List (List Char) :=
  keepVisible ((segments q state rest).modifyHead (cur ++ ·))

theorem pieces_start (text : List Char) : pieces q [] .code text = statements q text := by
  unfold pieces statements
  cases segments q .code text <;> rfl

theorem pieces_nil (cur : List Char) (state : Mark) :
    pieces q cur state [] = keepVisible [cur] := by
  simp [pieces, segments_nil]

theorem pieces_cut (cur rest : List Char) :
    pieces q cur .code (';' :: rest) = keepVisible [cur] ++ statements q rest := by
  rw [pieces, segments_cut, List.modifyHead_cons, List.append_nil, keepVisible_cons, statements]

theorem pieces_cons {state : Mark} {c : Char} (h : ¬(c = ';' ∧ state = .code))
    (cur rest : List Char) :
    pieces q cur state (c :: rest) =
      pieces q (cur ++ [c]) (stateAfter q state c rest.head?) rest := by
  rw [pieces, segments_cons q h, pieces]
  cases segments q (stateAfter q state c rest.head?) rest with
  | nil => rfl
  | cons seg segs => simp

end Segments

-- What one character does to a splitter that collects the current statement in `cur`.
section Steps

variable (cur : List Char)

theorem pieces_comment (c : Char) (rest : List Char) :
    pieces q cur .comment (c :: rest) =
      pieces q (cur ++ [c]) (if c = '\n' then .code else .comment) rest :=
  pieces_cons q (by simp) cur rest

theorem pieces_dashes (rest : List Char) :
    pieces q cur .code ('-' :: '-' :: rest) = pieces q (cur ++ ['-', '-']) .comment rest := by
  rw [pieces_cons q (by simp)]
  change pieces q (cur ++ ['-']) .comment ('-' :: rest) = _
  rw [pieces_comment]
  simp

theorem pieces_open {c : Char} (hquote : q.isQuote c = true) (hdash : c ≠ '-')
    (rest : List Char) :
    pieces q cur .code (c :: rest) = pieces q (cur ++ [c]) (.literal c) rest := by
  have hcut : c ≠ ';' := by
    rintro rfl
    rw [q.semicolon] at hquote
    cases hquote
  rw [pieces_cons q (by simp [hcut])]
  simp [stateAfter, markOf, hdash, hquote]

theorem pieces_close (quote : Char) (rest : List Char) :
    pieces q cur (.literal quote) (quote :: rest) = pieces q (cur ++ [quote]) .code rest := by
  rw [pieces_cons q (by simp)]
  simp [stateAfter]

theorem pieces_literal {quote c : Char} (h : c ≠ quote) (rest : List Char) :
    pieces q cur (.literal quote) (c :: rest) =
      pieces q (cur ++ [c]) (.literal quote) rest := by
  have hne : Mark.literal quote ≠ .literal c := by
    intro hc
    exact h (Mark.literal.inj hc).symm
  rw [pieces_cons q (by simp), stateAfter, if_neg hne]
  rfl

theorem pieces_code {c : Char} (hquote : q.isQuote c = false) (hcut : c ≠ ';')
    {rest : List Char} (hdash : ¬(c = '-' ∧ rest.head? = some '-')) :
    pieces q cur .code (c :: rest) = pieces q (cur ++ [c]) .code rest := by
  have hstate : stateAfter q .code c rest.head? = .code := by
    simp [stateAfter, markOf, hdash, hquote]
  rw [pieces_cons q (by simp [hcut]), hstate]

theorem pieces_line (text : List Char) :
    pieces q cur .comment text =
      pieces q (cur ++ text.takeWhile (· != '\n')) .code (text.dropWhile (· != '\n')) := by
  induction text generalizing cur with
  | nil => simp [pieces_nil]
  | cons c rest ih =>
    by_cases hline : c = '\n'
    · subst hline
      have hcode : stateAfter q .code '\n' rest.head? = .code := by
        have hquote : q.isQuote '\n' = false := by
          rw [← Bool.not_eq_true]
          intro h
          exact absurd (q.visible '\n' h) (by decide)
        simp [stateAfter, markOf, hquote]
      rw [pieces_comment]
      simp [pieces_cons q, hcode]
    · rw [pieces_comment, if_neg hline, ih]
      simp [hline]

end Steps

section Cuts

/-- A text in which no semicolon is code. -/
def Uncut (text : List Char) : Prop := ∀ marked ∈ marks q .code text, isCut marked = false

/-- A script and its marked parts. Every part but the last is closed by a semicolon of the
code, and each is marked as if it were a script of its own. -/
inductive Cuts : List Char → List (List (Char × Mark)) → Prop where
  | last {a : List Char} (ha : Uncut q a) : Cuts a [marks q .code a]
  | cut {a b : List Char} {ps} (ha : Uncut q a) (hstate : finalState q .code a = .code)
      (hb : Cuts b ps) : Cuts (a ++ ';' :: b) (marks q .code a :: ps)

theorem semicolon_head (b : List Char) : (';' :: b).head? ≠ some '-' := by simp

theorem marks_semicolon (b : List Char) :
    marks q .code (';' :: b) = (';', .code) :: marks q .code b := by
  simp [marks, stateAfter_semicolon, markOf, q.semicolon]

theorem first_cut (state : Mark) (text : List Char) :
    (∀ marked ∈ marks q state text, isCut marked = false) ∨
      ∃ a b, text = a ++ ';' :: b ∧ (∀ marked ∈ marks q state a, isCut marked = false) ∧
        finalState q state a = .code := by
  induction text generalizing state with
  | nil => exact Or.inl fun _ h => absurd h List.not_mem_nil
  | cons c rest ih =>
    by_cases hc : c = ';' ∧ state = .code
    · obtain ⟨rfl, rfl⟩ := hc
      exact Or.inr ⟨[], rest, rfl, fun _ h => absurd h List.not_mem_nil, rfl⟩
    rcases ih (stateAfter q state c rest.head?) with huncut | ⟨a, b, rfl, ha, hstate⟩
    · refine Or.inl fun marked hmarked => ?_
      rcases List.mem_cons.mp hmarked with rfl | hmarked
      · exact isCut_markOf_false q hc
      · exact huncut marked hmarked
    · -- What follows `c` is a semicolon or a character of `a`: the same state either way.
      have hnext : stateAfter q state c (a ++ ';' :: b).head? = stateAfter q state c a.head? := by
        cases a with
        | nil => exact stateAfter_next q (semicolon_head b) state c
        | cons d tail => rfl
      rw [hnext] at ha hstate
      refine Or.inr ⟨c :: a, b, rfl, fun marked hmarked => ?_, hstate⟩
      rcases List.mem_cons.mp hmarked with rfl | hmarked
      · exact isCut_markOf_false q hc
      · exact ha marked hmarked

theorem parts_uncut {text : List Char} (h : Uncut q text) :
    parts q .code text = [marks q .code text] := List.splitOnP_eq_singleton h

theorem parts_cut {a : List Char} (h : Uncut q a) (hstate : finalState q .code a = .code)
    (b : List Char) : parts q .code (a ++ ';' :: b) = marks q .code a :: parts q .code b := by
  rw [parts, marks_append q (semicolon_head b), hstate, marks_semicolon,
    List.splitOnP_append_cons_of_forall_mem h _ rfl]
  rfl

theorem cuts_parts (text : List Char) : Cuts q text (parts q .code text) := by
  induction hn : text.length using Nat.strong_induction_on generalizing text with
  | _ n ih =>
    rcases first_cut q .code text with huncut | ⟨a, b, rfl, ha, hstate⟩
    · rw [parts_uncut q huncut]
      exact .last huncut
    · rw [parts_cut q ha hstate]
      refine .cut ha hstate (ih b.length ?_ b rfl)
      simp only [List.length_append, List.length_cons] at hn
      omega

variable {q}

theorem Cuts.rejoin {text : List Char} {ps : List (List (Char × Mark))} (h : Cuts q text ps) :
    [(';', Mark.code)].intercalate ps = marks q .code text := by
  induction h with
  | last => simp
  | @cut a b ps ha hstate hb ih =>
    have hne : ps ≠ [] := by
      cases hb <;> simp
    obtain ⟨part, ps, rfl⟩ := List.exists_cons_of_ne_nil hne
    rw [List.intercalate_cons_cons, ih, marks_append q (semicolon_head b), hstate, marks_semicolon]
    simp

theorem Cuts.part {text : List Char} {ps : List (List (Char × Mark))} (h : Cuts q text ps)
    {part : List (Char × Mark)} (hpart : part ∈ ps) :
    Uncut q (textOf part) ∧ marks q .code (textOf part) = part := by
  induction h with
  | last ha =>
    rw [List.mem_singleton] at hpart
    subst hpart
    rw [textOf_marks]
    exact ⟨ha, rfl⟩
  | cut ha _ _ ih =>
    rcases List.mem_cons.mp hpart with rfl | hpart
    · rw [textOf_marks]
      exact ⟨ha, rfl⟩
    · exact ih hpart

end Cuts

section Blanks

theorem blank_head {back : List Char} (h : ∀ c ∈ back, isWhitespace c = true) :
    back.head? ≠ some '-' := by
  intro hhead
  have hdash := h '-' (List.mem_of_mem_head? hhead)
  exact absurd hdash (by decide)

theorem markOf_blank {c : Char} (h : isWhitespace c = true) (next : Option Char) :
    markOf q .code c next = .code := by
  have hdash : c ≠ '-' := fun hc => absurd (hc ▸ h) (by decide)
  have hquote : q.isQuote c = false := by
    rw [← Bool.not_eq_true]
    intro hc
    rw [q.visible c hc] at h
    exact absurd h (by decide)
  simp [markOf, hdash, hquote]

theorem stateAfter_blank {c : Char} (h : isWhitespace c = true) (next : Option Char) :
    stateAfter q .code c next = .code := by
  simp [stateAfter, markOf_blank q h]

theorem marks_blank {front : List Char} (h : ∀ c ∈ front, isWhitespace c = true)
    (rest : List Char) :
    marks q .code (front ++ rest) = front.map (fun c => (c, .code)) ++ marks q .code rest := by
  induction front with
  | nil => rfl
  | cons c front ih =>
    have hc := h c (by simp)
    rw [List.cons_append, marks, markOf_blank q hc, stateAfter_blank q hc,
      ih fun d hd => h d (by simp [hd])]
    rfl

theorem finalState_blank {front : List Char} (h : ∀ c ∈ front, isWhitespace c = true)
    (rest : List Char) : finalState q .code (front ++ rest) = finalState q .code rest := by
  induction front with
  | nil => rfl
  | cons c front ih =>
    rw [List.cons_append, finalState, stateAfter_blank q (h c (by simp)),
      ih fun d hd => h d (by simp [hd])]

/-- Trimming keeps every mark. It drops blanks of code in front and any blanks at the end. -/
theorem marks_trim (text : List Char) :
    ∃ before after, marks q .code text = before ++ marks q .code (trim text) ++ after ∧
      (∀ marked ∈ before, isWhitespace marked.1 = true ∧ marked.2 = .code) ∧
      ∀ marked ∈ after, isWhitespace marked.1 = true := by
  obtain ⟨front, back, htext, hfront, hback⟩ := RustText.exists_trim text
  refine ⟨front.map fun c => (c, .code), marks q (finalState q .code (trim text)) back, ?_, ?_, ?_⟩
  · conv_lhs => rw [htext]
    rw [List.append_assoc, marks_blank q hfront, marks_append q (blank_head hback),
      List.append_assoc]
  · intro marked hmarked
    obtain ⟨c, hc, rfl⟩ := List.mem_map.mp hmarked
    exact ⟨hfront c hc, rfl⟩
  · intro marked hmarked
    apply hback
    rw [← textOf_marks q (finalState q .code (trim text)) back]
    exact List.mem_map_of_mem hmarked

/-- A state that a scan from code can be in: an open literal was opened by a quote. -/
def Opened : Mark → Prop
  | .literal quote => q.isQuote quote = true
  | .code | .comment => True

theorem opened_stateAfter {state : Mark} (h : Opened q state) (c : Char) (next : Option Char) :
    Opened q (stateAfter q state c next) := by
  unfold stateAfter
  split
  · trivial
  cases state with
  | literal quote => exact h
  | comment =>
    simp only [markOf]
    split <;> trivial
  | code =>
    simp only [markOf]
    split
    · trivial
    split
    · assumption
    · trivial

theorem opened_finalState {state : Mark} (h : Opened q state) (text : List Char) :
    Opened q (finalState q state text) := by
  induction text generalizing state with
  | nil => exact h
  | cons c rest ih => exact ih (opened_stateAfter q h c rest.head?)

theorem literal_blank {quote : Char} (hquote : q.isQuote quote = true) {back : List Char}
    (h : ∀ c ∈ back, isWhitespace c = true) :
    finalState q (.literal quote) back = .literal quote := by
  induction back with
  | nil => rfl
  | cons c back ih =>
    have hne : quote ≠ c := by
      rintro rfl
      have hblank := h quote (by simp)
      rw [q.visible quote hquote] at hblank
      exact absurd hblank (by decide)
    rw [finalState, stateAfter, if_neg (by simp [hne])]
    exact ih fun d hd => h d (by simp [hd])

/-- A line end after the statement leads back to code. -/
def Closes (stmt : List Char) : Prop := finalState q .code (stmt ++ ['\n']) = .code

theorem closes_trim {text : List Char} (h : finalState q .code text = .code) :
    Closes q (trim text) := by
  obtain ⟨front, back, htext, hfront, hback⟩ := RustText.exists_trim text
  rw [htext, List.append_assoc, finalState_blank q hfront,
    finalState_append q (blank_head hback)] at h
  have hstart : Opened q .code := trivial
  have hopened : Opened q (finalState q .code (trim text)) := opened_finalState q hstart _
  rw [Closes, finalState_append q (by simp)]
  cases hstate : finalState q .code (trim text) with
  | code => exact stateAfter_blank q (c := '\n') (by decide) none
  | comment => rfl
  | literal quote =>
    rw [hstate] at h hopened
    rw [literal_blank q hopened hback] at h
    cases h

end Blanks

section Statements

theorem statements_cut {a : List Char} (h : Uncut q a) (hstate : finalState q .code a = .code)
    (b : List Char) : statements q (a ++ ';' :: b) = keepVisible [a] ++ statements q b := by
  rw [statements, segments, parts_cut q h hstate, List.map_cons, textOf_marks, keepVisible_cons]
  rfl

theorem statements_blank {c : Char} (h : isWhitespace c = true) (rest : List Char) :
    statements q (c :: rest) = statements q rest := by
  have hne : ¬(c = ';' ∧ Mark.code = .code) := fun hc => absurd (hc.1 ▸ h) (by decide)
  rw [← pieces_start, pieces_cons q hne, stateAfter_blank q h, pieces, statements]
  cases segments q .code rest with
  | nil => rfl
  | cons seg segs =>
    have hblank : ∀ d ∈ [c], isWhitespace d = true := by simpa using h
    have htrim : trim (c :: seg) = trim seg := RustText.trim_blank_append hblank seg
    simp [keepVisible, htrim]

theorem statements_nil : statements q [] = [] := rfl

/-- What a script is split into: a trimmed text that is not split any further. -/
structure Whole (stmt : List Char) : Prop where
  uncut : Uncut q stmt
  trimmed : trim stmt = stmt
  visible : stmt ≠ []

variable {q}

theorem Uncut.trimmed {text : List Char} (h : Uncut q text) : Uncut q (trim text) := by
  obtain ⟨before, after, hmarks, -, -⟩ := marks_trim q text
  intro marked hmarked
  apply h
  rw [hmarks]
  simp [hmarked]

theorem Whole.keep {stmt : List Char} (h : Whole q stmt) : keepVisible [stmt] = [stmt] := by
  simp [keepVisible, h.trimmed, h.visible]

theorem Whole.single {stmt : List Char} (h : Whole q stmt) : statements q stmt = [stmt] := by
  rw [statements, segments, parts_uncut q h.uncut, List.map_singleton, textOf_marks,
    h.keep]

theorem whole_of_mem {text stmt : List Char} (h : stmt ∈ statements q text) : Whole q stmt := by
  obtain ⟨seg, hseg, rfl, hne⟩ := mem_keepVisible.mp h
  obtain ⟨part, hpart, rfl⟩ := List.mem_map.mp hseg
  exact ⟨((cuts_parts q text).part hpart).1.trimmed, RustText.trim_trim _, hne⟩

theorem Cuts.closes {text : List Char} {ps : List (List (Char × Mark))} (h : Cuts q text ps) :
    ∀ stmt ∈ (keepVisible (ps.map textOf)).dropLast, Closes q stmt := by
  induction h with
  | @last a ha =>
    intro stmt hstmt
    have hlen : (keepVisible [a]).length ≤ 1 := List.length_filter_le _ _
    rw [List.map_singleton, textOf_marks] at hstmt
    have hdrop : (keepVisible [a]).dropLast = [] := by
      rw [← List.length_eq_zero_iff, List.length_dropLast]
      omega
    rw [hdrop] at hstmt
    exact absurd hstmt List.not_mem_nil
  | @cut a b ps ha hstate hb ih =>
    intro stmt hstmt
    rw [List.map_cons, textOf_marks, keepVisible_cons] at hstmt
    by_cases hvisible : trim a = []
    · exact ih stmt (by simpa [keepVisible, hvisible] using hstmt)
    have hkeep : keepVisible [a] = [trim a] := by
      simp [keepVisible, hvisible]
    rw [hkeep, List.singleton_append] at hstmt
    by_cases hrest : keepVisible (ps.map textOf) = []
    · simp [hrest] at hstmt
    rw [List.dropLast_cons_of_ne_nil hrest] at hstmt
    rcases List.mem_cons.mp hstmt with rfl | hstmt
    · exact closes_trim q hstate
    · exact ih stmt hstmt

theorem statements_closed {stmt : List Char} (h : Whole q stmt) (hclose : Closes q stmt)
    (rest : List Char) :
    statements q (stmt ++ '\n' :: ';' :: '\n' :: rest) =
      stmt :: statements q rest := by
  have huncut : Uncut q (stmt ++ ['\n']) := by
    intro marked hmarked
    rw [marks_append q (by simp)] at hmarked
    rcases List.mem_append.mp hmarked with hmarked | hmarked
    · exact h.uncut marked hmarked
    · rw [marks, marks, List.mem_singleton] at hmarked
      rw [hmarked]
      rfl
  have hnewline : ∀ c ∈ ['\n'], isWhitespace c = true := by
    intro c hc
    rw [List.mem_singleton.mp hc]
    decide
  have hblank : trim (stmt ++ ['\n']) = stmt := by
    rw [RustText.trim_append_blank hnewline, h.trimmed]
  have hcons : stmt ++ '\n' :: ';' :: '\n' :: rest = (stmt ++ ['\n']) ++ ';' :: '\n' :: rest := by
    simp
  rw [hcons, statements_cut q huncut hclose, statements_blank q (by decide)]
  simp [keepVisible, hblank, h.visible]

/-- Joining statements with a semicolon on a line of its own and splitting gives them back. -/
theorem statements_intercalate {stmts : List (List Char)} (hwhole : ∀ stmt ∈ stmts, Whole q stmt)
    (hclose : ∀ stmt ∈ stmts.dropLast, Closes q stmt) :
    statements q (['\n', ';', '\n'].intercalate stmts) = stmts := by
  induction stmts with
  | nil => rfl
  | cons stmt stmts ih =>
    cases stmts with
    | nil => simpa using (hwhole stmt (by simp)).single
    | cons next stmts =>
      have hrest := ih (fun s hs => hwhole s (by simp [hs]))
        (fun s hs => hclose s (by rw [List.dropLast_cons_of_ne_nil (by simp)]; simp [hs]))
      rw [List.intercalate_cons_cons]
      have hjoin := statements_closed (hwhole stmt (by simp)) (hclose stmt (by simp))
        (['\n', ';', '\n'].intercalate (next :: stmts))
      simpa [hrest] using hjoin

theorem Cuts.slice {text : List Char} {ps : List (List (Char × Mark))} (h : Cuts q text ps)
    {part : List (Char × Mark)} (hpart : part ∈ ps) : textOf part <:+: text := by
  induction h with
  | @last a _ =>
    rw [List.mem_singleton] at hpart
    have htext : textOf part = a := by rw [hpart, textOf_marks]
    exact htext ▸ List.infix_rfl
  | @cut a b ps _ _ _ ih =>
    rcases List.mem_cons.mp hpart with rfl | hpart
    · rw [textOf_marks]
      exact (List.prefix_append a _).isInfix
    · have hb : b <:+: a ++ ';' :: b := ⟨a ++ [';'], [], by simp⟩
      exact (ih hpart).trans hb

/-- Every statement is a contiguous slice of the script. -/
theorem statement_slice {text stmt : List Char} (h : stmt ∈ statements q text) :
    stmt <:+: text := by
  obtain ⟨seg, hseg, rfl, -⟩ := mem_keepVisible.mp h
  obtain ⟨part, hpart, rfl⟩ := List.mem_map.mp hseg
  obtain ⟨front, back, htext, -, -⟩ := RustText.exists_trim (textOf part)
  exact List.IsInfix.trans ⟨front, back, htext.symm⟩ ((cuts_parts q text).slice hpart)

section Filter

variable {p : Char → Bool} (hp : ∀ c, p c = true → isWhitespace c = false ∧ c ≠ ';')
include hp

theorem filter_blank {text : List Char} (h : ∀ c ∈ text, isWhitespace c = true) :
    text.filter p = [] := by
  rw [List.filter_eq_nil_iff]
  intro c hc hpc
  have hvisible := (hp c hpc).1
  rw [h c hc] at hvisible
  cases hvisible

theorem filter_trim (text : List Char) : (trim text).filter p = text.filter p := by
  obtain ⟨front, back, htext, hfront, hback⟩ := RustText.exists_trim text
  conv_rhs => rw [htext]
  simp [filter_blank hp hfront, filter_blank hp hback]

theorem filter_keepVisible (segs : List (List Char)) :
    (keepVisible segs).flatten.filter p = segs.flatten.filter p := by
  induction segs with
  | nil => rfl
  | cons seg segs ih =>
    have hseg : (keepVisible [seg]).flatten = trim seg := by
      by_cases h : trim seg = [] <;> simp [keepVisible, h]
    rw [keepVisible_cons, List.flatten_append, List.filter_append, ih, hseg, filter_trim hp,
      List.flatten_cons, List.filter_append]

theorem Cuts.filter {text : List Char} {ps : List (List (Char × Mark))} (h : Cuts q text ps) :
    (ps.map textOf).flatten.filter p = text.filter p := by
  induction h with
  | last => simp
  | cut _ _ _ ih =>
    have hcut : p ';' = false := by
      rw [← Bool.not_eq_true]
      intro h
      exact (hp ';' h).2 rfl
    simp [ih, hcut]

/-- Characters that are neither blanks nor semicolons all come through, in order. -/
theorem filter_statements (text : List Char) :
    (statements q text).flatten.filter p = text.filter p := by
  rw [statements, filter_keepVisible hp]
  exact (cuts_parts q text).filter hp

end Filter

end Statements

end QuotedScripts
