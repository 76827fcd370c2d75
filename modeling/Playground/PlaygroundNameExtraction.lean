import Playground.PlaygroundClassify

/-! # The slice in `extract_name`

The offset of the name is computed from the length of another string, the upper-cased rest after
the keywords. -/
namespace PlaygroundNameExtraction

open PlaygroundApiClient
open PlaygroundClassify
open RustText
open String (utf8Len)

/-- What `classify_statement` passes to `extract_name` as `upper_rest` and makes of the name, where
it comes to the call: what it returns when it calls a function that gives back its argument. -/
def nameCall (trimmed : List Char) : Option ((String → Dispatch) × List Char) :=
  match classifyTrimmedBy (fun upperRest _ => some (String.ofList upperRest)) trimmed with
  | some (.resumeShuttle rest) => some (.resumeShuttle, rest.toList)
  | some (.pauseShuttle rest) => some (.pauseShuttle, rest.toList)
  | some (.dropShuttle rest) => some (.dropShuttle, rest.toList)
  | some (.dropConnection rest) => some (.dropConnection, rest.toList)
  | _ => none

def nameStart (upperRest original : List Char) : ℕ :=
  utf8Len original - utf8Len (trimStart upperRest)

/-- The subtraction underflows, or the offset is no character boundary. -/
def Panics (upperRest original : List Char) : Prop :=
  utf8Len original < utf8Len (trimStart upperRest) ∨
    sliceFrom original (nameStart upperRest original) = none

def nameKeywords : List String :=
  ["RESUME SHUTTLE", "PAUSE SHUTTLE", "DROP SHUTTLE", "DROP SHUTTLE IF EXISTS", "DROP CONNECTION",
    "DROP CONNECTION IF EXISTS"]

variable {text upperRest : List Char} {make : String → Dispatch}

section Calls

theorem stripPrefix_upper {kw : String}
    (h : stripPrefix kw.toList (toAsciiUppercase text) = some upperRest) :
    ∃ rest, Keyword kw text rest ∧ upperRest = toAsciiUppercase rest := by
  rw [stripPrefix] at h
  split at h
  · rename_i hkeys
    refine ⟨_, exists_keyword hkeys, ?_⟩
    rw [toAsciiUppercase, List.map_drop]
    exact (Option.some.inj h).symm
  · cases h

theorem stripped_upper {kw : String} {rest : List Char} (h : Keyword kw text rest) :
    ∃ named, (stripPrefix " IF EXISTS".toList (toAsciiUppercase rest)).getD
        (toAsciiUppercase rest) = toAsciiUppercase named ∧
      (Keyword kw text named ∨ Keyword (kw ++ " IF EXISTS") text named) := by
  cases hstrip : stripPrefix " IF EXISTS".toList (toAsciiUppercase rest) with
  | none => exact ⟨rest, rfl, Or.inl h⟩
  | some upperNamed =>
    obtain ⟨named, ⟨phrase, rfl, hphrase⟩, rfl⟩ := stripPrefix_upper hstrip
    obtain ⟨head, rfl, hhead⟩ := h
    refine ⟨named, rfl, Or.inr ⟨head ++ phrase, (List.append_assoc _ _ _).symm, ?_⟩⟩
    rw [toAsciiUppercase_append, hhead, hphrase, String.toList_append]

def namedClasses : List (String → Dispatch) :=
  [.resumeShuttle, .pauseShuttle, .dropShuttle, .dropConnection]

/-- The function for names is called at most once, on the upper-cased end of the text after one of
the keywords; where it is not called, the class does not depend on it. -/
theorem classifyTrimmedBy_cases (text : List Char) :
    (∃ make ∈ namedClasses, ∃ kw ∈ nameKeywords, ∃ rest, Keyword kw text rest ∧ ∀ extract,
      classifyTrimmedBy extract text = (extract (toAsciiUppercase rest) text).map make) ∨
    ∃ fixed ∈ [some .createConnection, some .createShuttle, none], ∀ extract,
      classifyTrimmedBy extract text = fixed := by
  simp only [classifyTrimmedBy]
  by_cases hconnection :
      "CREATE CONNECTION".toList.isPrefixOf (toAsciiUppercase text) = true
  · exact Or.inr ⟨some .createConnection, by simp, fun _ => if_pos hconnection⟩
  by_cases hshuttle : "CREATE SHUTTLE".toList.isPrefixOf (toAsciiUppercase text) = true
  · exact Or.inr ⟨some .createShuttle, by simp,
      fun _ => (if_neg hconnection).trans (if_pos hshuttle)⟩
  simp only [if_neg hconnection, if_neg hshuttle]
  cases hresume : stripPrefix "RESUME SHUTTLE".toList (toAsciiUppercase text) with
  | some upper =>
    obtain ⟨rest, hkeyword, rfl⟩ := stripPrefix_upper hresume
    exact Or.inl ⟨.resumeShuttle, by simp [namedClasses], "RESUME SHUTTLE",
      by simp [nameKeywords], rest, hkeyword, fun _ => rfl⟩
  | none =>
  cases hpause : stripPrefix "PAUSE SHUTTLE".toList (toAsciiUppercase text) with
  | some upper =>
    obtain ⟨rest, hkeyword, rfl⟩ := stripPrefix_upper hpause
    exact Or.inl ⟨.pauseShuttle, by simp [namedClasses], "PAUSE SHUTTLE",
      by simp [nameKeywords], rest, hkeyword, fun _ => rfl⟩
  | none =>
  cases hdrop : stripPrefix "DROP SHUTTLE".toList (toAsciiUppercase text) with
  | some upper =>
    obtain ⟨rest, hkeyword, rfl⟩ := stripPrefix_upper hdrop
    obtain ⟨named, hupper, hnamed⟩ := stripped_upper hkeyword
    refine Or.inl ⟨.dropShuttle, by simp [namedClasses], ?_⟩
    rcases hnamed with hnamed | hnamed
    · exact ⟨"DROP SHUTTLE", by simp [nameKeywords], named, hnamed,
        fun _ => by simp only [hupper]⟩
    · exact ⟨"DROP SHUTTLE IF EXISTS", by simp [nameKeywords], named, hnamed,
        fun _ => by simp only [hupper]⟩
  | none =>
  cases hdropped : stripPrefix "DROP CONNECTION".toList (toAsciiUppercase text) with
  | some upper =>
    obtain ⟨rest, hkeyword, rfl⟩ := stripPrefix_upper hdropped
    obtain ⟨named, hupper, hnamed⟩ := stripped_upper hkeyword
    refine Or.inl ⟨.dropConnection, by simp [namedClasses], ?_⟩
    rcases hnamed with hnamed | hnamed
    · exact ⟨"DROP CONNECTION", by simp [nameKeywords], named, hnamed,
        fun _ => by simp only [hupper]⟩
    · exact ⟨"DROP CONNECTION IF EXISTS", by simp [nameKeywords], named, hnamed,
        fun _ => by simp only [hupper]⟩
  | none => exact Or.inr ⟨none, by simp, fun _ => rfl⟩

theorem nameCall_named {rest : List Char} (hmake : make ∈ namedClasses)
    (h : ∀ extract, classifyTrimmedBy extract text = (extract rest text).map make) :
    nameCall text = some (make, rest) := by
  rw [nameCall, h]
  simp only [namedClasses, List.mem_cons, List.not_mem_nil, or_false] at hmake
  rcases hmake with rfl | rfl | rfl | rfl <;> simp

theorem nameCall_fixed {fixed : Option Dispatch}
    (hfixed : fixed ∈ [some .createConnection, some .createShuttle, none])
    (h : ∀ extract, classifyTrimmedBy extract text = fixed) : nameCall text = none := by
  rw [nameCall, h]
  simp only [List.mem_cons, List.not_mem_nil, or_false] at hfixed
  rcases hfixed with rfl | rfl | rfl <;> rfl

theorem classifyTrimmed_calls (text : List Char) :
    (∃ make, ∃ kw ∈ nameKeywords, ∃ rest, Keyword kw text rest ∧
      nameCall text = some (make, toAsciiUppercase rest) ∧
      classifyTrimmed text = (extractName (toAsciiUppercase rest) text).map make) ∨
    (nameCall text = none ∧ classifyTrimmed text ∈
      [some .createConnection, some .createShuttle, none]) := by
  rcases classifyTrimmedBy_cases text with
    ⟨make, hmake, kw, hkw, rest, hkeyword, h⟩ | ⟨fixed, hfixed, h⟩
  · exact Or.inl ⟨make, kw, hkw, rest, hkeyword, nameCall_named hmake h, h _⟩
  · have hclass : classifyTrimmed text = fixed := h extractName
    exact Or.inr ⟨nameCall_fixed hfixed h, hclass ▸ hfixed⟩

end Calls

section Slices

theorem slice_tail (head rest : List Char) :
    utf8Len (trimStart (toAsciiUppercase rest)) ≤ utf8Len (head ++ rest) ∧
      sliceFrom (head ++ rest) (nameStart (toAsciiUppercase rest) (head ++ rest)) =
        some (trimStart rest) := by
  obtain ⟨blanks, hrest, -⟩ := trimStart_split rest
  have hwhole : head ++ rest = (head ++ blanks) ++ trimStart rest := by
    rw [List.append_assoc, ← hrest]
  have hlen : utf8Len (head ++ rest) = utf8Len (head ++ blanks) + utf8Len (trimStart rest) := by
    rw [hwhole, String.utf8Len_append]
  rw [nameStart, trimStart_upper, utf8Len_toAsciiUppercase]
  refine ⟨by omega, ?_⟩
  have hstart : utf8Len (head ++ rest) - utf8Len (trimStart rest) = utf8Len (head ++ blanks) := by
    omega
  rw [hstart, hwhole, sliceFrom_append]

theorem endsName_toUpper (c : Char) : endsName c.toUpper = endsName c := by
  have hsign : ∀ d : Char, d.toNat < 65 → (c.toUpper == d) = (c == d) := by
    intro d hd
    rcases toUpper_ascii c with hsame | -
    · rw [hsame]
    by_cases hlower : c.toUpper = c
    · rw [hlower]
    · -- Upper-casing turns a small letter into a capital, neither of which is a separator.
      have hc : 97 ≤ c.toNat ∧ c.toUpper.toNat = c.toNat - 32 := by
        unfold Char.toUpper at hlower ⊢
        split at hlower
        · rename_i h
          rw [dif_pos h]
          obtain ⟨hlow, hup⟩ := h
          have ha : 'a'.val.toNat = 97 := rfl
          have hz : 'z'.val.toNat = 122 := rfl
          have hA : 'A'.val.toNat = 65 := rfl
          simp only [UInt32.le_iff_toNat_le] at hlow hup
          refine ⟨show 97 ≤ c.val.toNat by omega, ?_⟩
          change (c.val + ('A'.val - 'a'.val)).toNat = c.val.toNat - 32
          rw [UInt32.toNat_add, UInt32.toNat_sub]
          omega
        · exact absurd rfl hlower
      have hne : c ≠ d := by
        rintro rfl
        omega
      have hne' : c.toUpper ≠ d := by
        intro heq
        have hnat := congrArg Char.toNat heq
        omega
      rw [beq_eq_false_iff_ne.mpr hne, beq_eq_false_iff_ne.mpr hne']
  rw [endsName, endsName, isWhitespace_toUpper, hsign ';' (by decide), hsign ',' (by decide),
    hsign '(' (by decide)]

theorem nameHead_upper (s : List Char) :
    nameHead (toAsciiUppercase s) = toAsciiUppercase (nameHead s) := by
  have htest : (fun d => !endsName d) ∘ Char.toUpper = fun d => !endsName d := by
    funext d
    rw [Function.comp_apply, endsName_toUpper]
  rw [toAsciiUppercase, nameHead, List.takeWhile_map, htest]
  rfl

end Slices

structure SlicedAt (upperRest original tail : List Char) : Prop where
  slice : sliceFrom original (nameStart upperRest original) = some tail
  upper : toAsciiUppercase tail = trimStart upperRest
  word : toAsciiUppercase (nameHead tail) = nameHead (trimStart upperRest)
  name : extractName upperRest original =
    if (nameHead tail).isEmpty then none else some (String.ofList (nameHead tail))

theorem sliced (head rest : List Char) :
    SlicedAt (toAsciiUppercase rest) (head ++ rest) (trimStart rest) where
  slice := (slice_tail head rest).2
  upper := (trimStart_upper rest).symm
  word := by rw [trimStart_upper, nameHead_upper]
  name := by rw [extractName_rest, nameOf]

/-- Wherever `extract_name` is called, its argument is what follows the keywords in the upper-cased
text, the offset is a boundary of the text and the name is the first word there. -/
theorem extract_name_slices (sql : String) :
    (nameCall (statementText sql) = none → classifyStatement sql ∈
      [some .createConnection, some .createShuttle, none]) ∧
    ∀ make upperRest, nameCall (statementText sql) = some (make, upperRest) →
      classifyStatement sql = (extractName upperRest (statementText sql)).map make ∧
      (∃ kw ∈ nameKeywords, toAsciiUppercase (statementText sql) = kw.toList ++ upperRest) ∧
      ¬ Panics upperRest (statementText sql) ∧
      ∃ tail, SlicedAt upperRest (statementText sql) tail := by
  rw [classifyStatement_eq]
  generalize statementText sql = text
  rcases classifyTrimmed_calls text with
    ⟨make, kw, hkw, rest, ⟨head, rfl, hhead⟩, hcall, hclass⟩ | ⟨hcall, hclass⟩
  · rw [hcall]
    constructor
    · intro hnone
      cases hnone
    · intro make' upperRest' hsame
      cases hsame
      have hsliced := sliced head rest
      refine ⟨hclass, ⟨kw, hkw, ?_⟩, ?_, _, hsliced⟩
      · rw [toAsciiUppercase_append, hhead]
      · rintro (hunder | hnone)
        · have hlen := (slice_tail head rest).1
          omega
        · rw [hsliced.slice] at hnone
          cases hnone
  · rw [hcall]
    refine ⟨fun _ => hclass, ?_⟩
    intro make upperRest hsome
    cases hsome

end PlaygroundNameExtraction
