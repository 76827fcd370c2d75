import Mathlib.Data.List.TakeWhile

/-! # Words with quoted parts

A text is split into words at blanks. A quote opens a part that the same quote closes; the blanks
in it belong to the word and the quotes do not. A word without characters is dropped. -/
namespace QuotedWords

variable {α : Type} [DecidableEq α]

/-- Which characters quote and which separate words. -/
structure Rules (α : Type) where
  isQuote : α → Bool
  isBlank : α → Bool
  visible : ∀ c, isQuote c = true → isBlank c = false

variable (r : Rules α)

def after (quote : Option α) (c : α) : Option α :=
  match quote with
  | some q => if c = q then none else some q
  | none => if r.isQuote c then some c else none

def openAfter (quote : Option α) (text : List α) : Option α := text.foldl (after r) quote

def keeps (quote : Option α) (c : α) : Bool :=
  match quote with
  | some q => c != q
  | none => !r.isQuote c && !r.isBlank c

def kept (quote : Option α) : List α → List α
  | [] => []
  | c :: rest =>
    if keeps r quote c then c :: kept (after r quote c) rest else kept (after r quote c) rest

def flush (word : List α) : List (List α) := if word.isEmpty then [] else [word]

/-- The words of a text whose first word has already been read up to `word`. -/
def wordsFrom (word : List α) (quote : Option α) : List α → List (List α)
  | [] => flush word
  | c :: rest =>
    if quote = none ∧ r.isBlank c = true then flush word ++ wordsFrom [] none rest
    else if keeps r quote c then wordsFrom (word ++ [c]) (after r quote c) rest
    else wordsFrom word (after r quote c) rest

def words (text : List α) : List (List α) := wordsFrom r [] none text

/-- The text before the first `mark` that is not quoted. -/
def cutAt (mark : α) (quote : Option α) : List α → List α
  | [] => []
  | c :: rest =>
    if quote = none ∧ c = mark then [] else c :: cutAt mark (after r quote c) rest

variable {r} {word text : List α} {quote : Option α} {c : α}

section Kept

omit [DecidableEq α] in
theorem flatten_flush (word : List α) : (flush word).flatten = word := by
  cases word with
  | nil => rfl
  | cons c word => simp [flush]

theorem openAfter_append (quote : Option α) (a b : List α) :
    openAfter r quote (a ++ b) = openAfter r (openAfter r quote a) b := List.foldl_append

theorem kept_append (quote : Option α) (a b : List α) :
    kept r quote (a ++ b) = kept r quote a ++ kept r (openAfter r quote a) b := by
  induction a generalizing quote with
  | nil => rfl
  | cons c a ih =>
    rw [List.cons_append, kept, kept, ih]
    split
    · rfl
    · rfl

theorem after_blank (h : r.isBlank c = true) : after r none c = none := by
  have hquote : r.isQuote c = false := by
    rw [← Bool.not_eq_true]
    intro hquote
    rw [r.visible c hquote] at h
    cases h
  simp [after, hquote]

theorem keeps_blank (h : r.isBlank c = true) : keeps r none c = false := by
  simp [keeps, h]

theorem flatten_wordsFrom (word : List α) (quote : Option α) (text : List α) :
    (wordsFrom r word quote text).flatten = word ++ kept r quote text := by
  induction text generalizing word quote with
  | nil => rw [wordsFrom, kept, flatten_flush, List.append_nil]
  | cons c rest ih =>
    rw [wordsFrom, kept]
    split
    · rename_i hblank
      obtain ⟨rfl, hblank⟩ := hblank
      rw [keeps_blank hblank, after_blank hblank, List.flatten_append, flatten_flush, ih]
      rfl
    · split
      · rw [ih, List.append_assoc]
        rfl
      · exact ih _ _

theorem flatten_words (text : List α) : (words r text).flatten = kept r none text :=
  flatten_wordsFrom [] none text

end Kept

section Blanks

variable {front back : List α}

theorem openAfter_blank (h : ∀ c ∈ front, r.isBlank c = true) :
    openAfter r none front = none := by
  induction front with
  | nil => rfl
  | cons c front ih =>
    rw [openAfter, List.foldl_cons, after_blank (h c List.mem_cons_self)]
    exact ih fun d hd => h d (List.mem_cons_of_mem _ hd)

theorem openAfter_quoted {q : α} (hq : r.isQuote q = true)
    (h : ∀ c ∈ back, r.isBlank c = true) : openAfter r (some q) back = some q := by
  induction back with
  | nil => rfl
  | cons c back ih =>
    have hne : c ≠ q := by
      rintro rfl
      have hblank := h c List.mem_cons_self
      rw [r.visible c hq] at hblank
      cases hblank
    have hstay : after r (some q) c = some q := if_neg hne
    rw [openAfter, List.foldl_cons, hstay]
    exact ih fun d hd => h d (List.mem_cons_of_mem _ hd)

theorem kept_blank (h : ∀ c ∈ front, r.isBlank c = true) : kept r none front = [] := by
  induction front with
  | nil => rfl
  | cons c front ih =>
    have hc := h c List.mem_cons_self
    rw [kept, keeps_blank hc, after_blank hc]
    exact ih fun d hd => h d (List.mem_cons_of_mem _ hd)

theorem words_blank_append (h : ∀ c ∈ front, r.isBlank c = true) (text : List α) :
    words r (front ++ text) = words r text := by
  induction front with
  | nil => rfl
  | cons c front ih =>
    have hc : r.isBlank c = true := h c List.mem_cons_self
    rw [words, List.cons_append, wordsFrom, if_pos ⟨rfl, hc⟩]
    exact ih fun d hd => h d (List.mem_cons_of_mem _ hd)

theorem wordsFrom_blank (h : ∀ c ∈ back, r.isBlank c = true) (word : List α) :
    wordsFrom r word none back = flush word := by
  induction back generalizing word with
  | nil => rfl
  | cons c back ih =>
    rw [wordsFrom, if_pos ⟨rfl, h c List.mem_cons_self⟩,
      ih fun d hd => h d (List.mem_cons_of_mem _ hd)]
    exact List.append_nil _

theorem wordsFrom_append_blank (h : ∀ c ∈ back, r.isBlank c = true) (word : List α)
    (hclosed : openAfter r quote text = none) :
    wordsFrom r word quote (text ++ back) = wordsFrom r word quote text := by
  induction text generalizing word quote with
  | nil =>
    cases hclosed
    exact wordsFrom_blank h word
  | cons c rest ih =>
    rw [List.cons_append, wordsFrom, wordsFrom]
    split
    · rename_i hblank
      obtain ⟨rfl, hblank⟩ := hblank
      have hrest : openAfter r none rest = none := by
        rw [openAfter, List.foldl_cons, after_blank hblank] at hclosed
        exact hclosed
      rw [ih [] hrest]
    · split
      · exact ih _ hclosed
      · exact ih _ hclosed

theorem openAfter_isQuote {q : α} (hstart : ∀ p, quote = some p → r.isQuote p = true)
    (h : openAfter r quote text = some q) : r.isQuote q = true := by
  induction text generalizing quote with
  | nil => exact hstart q h
  | cons c rest ih =>
    refine ih ?_ h
    intro p hp
    cases quote with
    | none =>
      by_cases hc : r.isQuote c = true
      · have hcp : c = p := by simpa [after, hc] using hp
        exact hcp ▸ hc
      · simp [after, hc] at hp
    | some o =>
      by_cases hc : c = o
      · simp [after, hc] at hp
      · have hop : o = p := by simpa [after, hc] using hp
        exact hop ▸ hstart o rfl

variable {core : List α}

theorem openAfter_core (hfront : ∀ c ∈ front, r.isBlank c = true)
    (hback : ∀ c ∈ back, r.isBlank c = true) :
    openAfter r none (front ++ core ++ back) = openAfter r none core := by
  rw [openAfter_append, openAfter_append, openAfter_blank hfront]
  cases hopen : openAfter r none core with
  | none => exact openAfter_blank hback
  | some q => exact openAfter_quoted (openAfter_isQuote (by simp) hopen) hback

/-- Words do not change when blanks are cut off, at the end only outside quotes. -/
theorem words_core (hfront : ∀ c ∈ front, r.isBlank c = true)
    (hback : ∀ c ∈ back, r.isBlank c = true)
    (hend : openAfter r none (front ++ core ++ back) = none ∨ back = []) :
    words r core = words r (front ++ core ++ back) := by
  rw [openAfter_core hfront hback] at hend
  rw [List.append_assoc, words_blank_append hfront]
  rcases hend with hcore | rfl
  · exact (wordsFrom_append_blank hback [] hcore).symm
  · rw [List.append_nil]

theorem kept_core (hfront : ∀ c ∈ front, r.isBlank c = true) :
    kept r none (front ++ core ++ back) =
      kept r none core ++ kept r (openAfter r none core) back := by
  rw [List.append_assoc, kept_append, kept_blank hfront, openAfter_blank hfront, kept_append]
  rfl

theorem kept_core_le (hfront : ∀ c ∈ front, r.isBlank c = true) :
    (kept r none core).length ≤ (kept r none (front ++ core ++ back)).length := by
  rw [kept_core hfront, List.length_append]
  omega

theorem kept_quoted {q : α} (hq : r.isQuote q = true) (h : ∀ c ∈ back, r.isBlank c = true) :
    kept r (some q) back = back := by
  induction back with
  | nil => rfl
  | cons c back ih =>
    have hne : c ≠ q := by
      rintro rfl
      have hblank := h c List.mem_cons_self
      rw [r.visible c hq] at hblank
      cases hblank
    have hkeep : keeps r (some q) c = true := bne_iff_ne.mpr hne
    have hstay : after r (some q) c = some q := if_neg hne
    rw [kept, if_pos hkeep, hstay, ih fun d hd => h d (List.mem_cons_of_mem _ hd)]

theorem kept_core_lt {q : α} (hfront : ∀ c ∈ front, r.isBlank c = true)
    (hback : ∀ c ∈ back, r.isBlank c = true) (hopen : openAfter r none core = some q)
    (hne : back ≠ []) :
    (kept r none core).length < (kept r none (front ++ core ++ back)).length := by
  have hq : r.isQuote q = true := openAfter_isQuote (by simp) hopen
  have hpos := List.length_pos_iff.mpr hne
  rw [kept_core hfront, hopen, kept_quoted hq hback, List.length_append]
  omega

end Blanks

section Cut

variable {mark : α}

theorem cutAt_append {a : List α} (h : mark ∉ a) (b : List α) :
    cutAt r mark quote (a ++ b) = a ++ cutAt r mark (openAfter r quote a) b := by
  induction a generalizing quote with
  | nil => rfl
  | cons c a ih =>
    have hc : c ≠ mark := by
      rintro rfl
      exact h List.mem_cons_self
    rw [List.cons_append, cutAt, if_neg (fun hcut => hc hcut.2),
      ih fun ha => h (List.mem_cons_of_mem _ ha)]
    rfl

theorem bare_append {a : List α} (h : mark ∉ a) (rest : List α) :
    (a ++ mark :: rest).takeWhile (· != mark) = a := by
  have hall : ∀ c ∈ a, (c != mark) = true := by
    intro c hc
    rw [bne_iff_ne]
    rintro rfl
    exact h hc
  rw [List.takeWhile_append_of_pos hall, List.takeWhile_cons_of_neg (by simp), List.append_nil]

/-- Cutting at the first mark whatever quotes it: the same text, or less of it because the mark
stands in quotes. -/
theorem cutAt_cases (mark : α) (quote : Option α) (text : List α) :
    mark ∉ text.takeWhile (· != mark) ∧
      (cutAt r mark quote text = text.takeWhile (· != mark) ∨
        ∃ q rest, openAfter r quote (text.takeWhile (· != mark)) = some q ∧
          cutAt r mark quote text = text.takeWhile (· != mark) ++ mark :: rest) := by
  by_cases hmem : mark ∈ text
  · obtain ⟨a, rest, rfl, ha⟩ := List.eq_append_cons_of_mem hmem
    rw [bare_append ha, cutAt_append ha]
    refine ⟨ha, ?_⟩
    cases hopen : openAfter r quote a with
    | none => exact Or.inl (by simp [cutAt])
    | some q => exact Or.inr ⟨q, _, rfl, by rw [cutAt, if_neg (by simp)]⟩
  · have hbare : text.takeWhile (· != mark) = text := by
      rw [List.takeWhile_eq_self_iff]
      intro c hc
      rw [bne_iff_ne]
      rintro rfl
      exact hmem hc
    have hcut : cutAt r mark quote (text ++ []) =
        text ++ cutAt r mark (openAfter r quote text) [] := cutAt_append hmem []
    simp only [List.append_nil, cutAt] at hcut
    rw [hbare]
    exact ⟨hmem, Or.inl hcut⟩

theorem kept_mark {q : α} {bare rest : List α} (hmark : r.isQuote mark = false)
    (hopen : openAfter r none bare = some q) :
    (kept r none bare).length < (kept r none (bare ++ mark :: rest)).length := by
  have hq : r.isQuote q = true := openAfter_isQuote (by simp) hopen
  have hne : mark ≠ q := by
    rintro rfl
    rw [hq] at hmark
    cases hmark
  have hkeep : keeps r (some q) mark = true := bne_iff_ne.mpr hne
  rw [kept_append, hopen, kept, if_pos hkeep, List.length_append, List.length_cons]
  omega

end Cut

section Plain

def AtWordEnd (r : Rules α) (rest : List α) : Prop := ∀ c ∈ rest.head?, r.isBlank c = true

theorem wordsFrom_plain {w : List α} (h : ∀ c ∈ w, r.isQuote c = false ∧ r.isBlank c = false)
    (word rest : List α) :
    wordsFrom r word none (w ++ rest) = wordsFrom r (word ++ w) none rest := by
  induction w generalizing word with
  | nil => rw [List.append_nil, List.nil_append]
  | cons c w ih =>
    obtain ⟨hquote, hblank⟩ := h c List.mem_cons_self
    have hkeep : keeps r none c = true := by simp [keeps, hquote, hblank]
    have hstay : after r none c = none := by simp [after, hquote]
    rw [List.cons_append, wordsFrom, if_neg (by simp [hblank]), if_pos hkeep, hstay,
      ih fun d hd => h d (List.mem_cons_of_mem _ hd), List.append_assoc]
    rfl

theorem words_blank {b : α} (hb : r.isBlank b = true) (text : List α) :
    words r (b :: text) = words r text := by
  have hblank : ∀ c ∈ [b], r.isBlank c = true := by simpa using hb
  exact words_blank_append hblank text

theorem wordsFrom_end {rest : List α} (h : AtWordEnd r rest) (word : List α) :
    wordsFrom r word none rest = flush word ++ words r rest := by
  cases rest with
  | nil => exact (List.append_nil _).symm
  | cons c rest =>
    have hc : r.isBlank c = true := h c rfl
    rw [words_blank hc, wordsFrom, if_pos ⟨rfl, hc⟩]
    rfl

theorem words_plain {w rest : List α} (hne : w ≠ [])
    (h : ∀ c ∈ w, r.isQuote c = false ∧ r.isBlank c = false) (hend : AtWordEnd r rest) :
    words r (w ++ rest) = w :: words r rest := by
  rw [words, wordsFrom_plain h, wordsFrom_end hend, List.nil_append, flush,
    if_neg (by simpa using hne)]
  rfl

end Plain

section Written

variable {q b : α}

/-- A quoted part of a text joins the word it stands in. -/
theorem wordsFrom_literal (hq : q ∉ text) (word rest : List α) :
    wordsFrom r word (some q) (text ++ q :: rest) = wordsFrom r (word ++ text) none rest := by
  induction text generalizing word with
  | nil => simp [wordsFrom, keeps, after]
  | cons c text ih =>
    have hc : c ≠ q := by
      rintro rfl
      exact hq List.mem_cons_self
    have hkeep : keeps r (some q) c = true := bne_iff_ne.mpr hc
    have hstay : after r (some q) c = some q := if_neg hc
    rw [List.cons_append, wordsFrom, if_neg (by simp), if_pos hkeep, hstay,
      ih fun hmem => hq (List.mem_cons_of_mem _ hmem), List.append_assoc]
    rfl

def quoted (q : α) (text : List α) : List α := q :: (text ++ [q])

theorem wordsFrom_quoted (hquote : r.isQuote q = true) (hq : q ∉ text) (word rest : List α) :
    wordsFrom r word none (quoted q text ++ rest) = wordsFrom r (word ++ text) none rest := by
  have hopen : after r none q = some q := if_pos hquote
  have hdrop : keeps r none q = false := by simp [keeps, hquote]
  have hvisible := r.visible q hquote
  rw [quoted, List.cons_append, wordsFrom, if_neg (by simp [hvisible]), hdrop, hopen,
    List.append_assoc]
  exact wordsFrom_literal hq word rest

/-- Texts that are each written between quotes and joined with a blank come back, the empty ones
excepted. -/
theorem words_quoted (hb : r.isBlank b = true) {args : List (α × List α)}
    (h : ∀ arg ∈ args, r.isQuote arg.1 = true ∧ arg.1 ∉ arg.2) :
    words r ([b].intercalate (args.map fun arg => quoted arg.1 arg.2)) =
      (args.map Prod.snd).filter fun text => !text.isEmpty := by
  induction args with
  | nil => rfl
  | cons arg args ih =>
    obtain ⟨hquote, hq⟩ := h arg List.mem_cons_self
    have hrest := ih fun a ha => h a (List.mem_cons_of_mem _ ha)
    have hflush : flush arg.2 = [arg.2].filter fun text => !text.isEmpty := by
      cases arg.2 <;> rfl
    cases args with
    | nil =>
      have happ := wordsFrom_quoted hquote hq [] []
      rw [List.append_nil] at happ
      simpa [words, wordsFrom, hflush] using happ
    | cons next args =>
      rw [List.map_cons, List.map_cons, List.intercalate_cons_cons, words, List.append_assoc,
        wordsFrom_quoted hquote hq, List.singleton_append, wordsFrom, if_pos ⟨rfl, hb⟩]
      rw [List.map_cons, words] at hrest
      rw [hrest, List.nil_append, hflush, List.map_cons, ← List.filter_append]
      rfl

end Written

end QuotedWords
