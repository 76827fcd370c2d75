import Playground.RustText

/-! # Unsigned numbers in decimal

Reading a number within a limit as `str::parse` does for the unsigned types, and what it makes of
the text a number is written as. -/
namespace DecimalText

open RustText

/-- Decimal digits that may follow a plus sign. -/
def parseUnsigned (limit : ℕ) (s : List Char) : Option ℕ :=
  let digits := if s.head? = some '+' then s.drop 1 else s
  let n := Nat.ofDigitChars 10 digits 0
  if digits ≠ [] ∧ digits.all Char.isDigit = true ∧ n < limit then some n else none

theorem digits_ne_nil (n : ℕ) : (toString n).toList ≠ [] := by
  rw [Nat.toString_eq_repr, Nat.toList_repr]
  exact Nat.toDigits_ne_nil

theorem digits_isDigit {n : ℕ} {c : Char} (h : c ∈ (toString n).toList) : c.isDigit = true := by
  rw [Nat.toString_eq_repr, Nat.toList_repr] at h
  exact Nat.isDigit_of_mem_toDigits (by decide) (by decide) h

theorem isDigit_range {c : Char} (h : c.isDigit = true) : 48 ≤ c.toNat ∧ c.toNat ≤ 57 := by
  simp only [Char.isDigit, Bool.and_eq_true, decide_eq_true_eq, UInt32.le_iff_toNat_le] at h
  exact h

/-- A number is read back if it is within the limit. -/
theorem parseUnsigned_toString (limit n : ℕ) :
    parseUnsigned limit (toString n).toList = if n < limit then some n else none := by
  have hhead : (toString n).toList.head? ≠ some '+' := by
    intro h
    have hdigit := digits_isDigit (List.mem_of_mem_head? h)
    exact absurd hdigit (by decide)
  have hall : (toString n).toList.all Char.isDigit = true :=
    List.all_eq_true.mpr fun c hc => digits_isDigit hc
  have hvalue : Nat.ofDigitChars 10 (toString n).toList 0 = n := by
    rw [Nat.toString_eq_repr, Nat.toList_repr, Nat.ofDigitChars_ten_toDigits]
  simp only [parseUnsigned, if_neg hhead, hvalue, hall, ne_eq, digits_ne_nil n, not_false_eq_true,
    true_and]

theorem toString_inj {m n : ℕ} (h : toString m = toString n) : m = n := by
  have hread := parseUnsigned_toString (max m n + 1) m
  rw [h, parseUnsigned_toString, if_pos (by omega), if_pos (by omega)] at hread
  exact (Option.some.inj hread).symm

theorem parseUnsigned_lt {limit n : ℕ} {s : List Char} (h : parseUnsigned limit s = some n) :
    n < limit := by
  obtain ⟨hparsed, hn⟩ := Option.ite_none_right_eq_some.mp h
  cases hn
  exact hparsed.2.2

theorem digit_visible {c : Char} (h : c.isDigit = true) : isWhitespace c = false := by
  have hrange := isDigit_range h
  simp only [isWhitespace, Bool.or_eq_false_iff, Bool.and_eq_false_iff, decide_eq_false_iff_not,
    beq_eq_false_iff_ne]
  omega

theorem trim_digits (n : ℕ) : trim (toString n).toList = (toString n).toList := by
  have hvisible : ∀ c ∈ (toString n).toList, isWhitespace c = false :=
    fun c hc => digit_visible (digits_isDigit hc)
  unfold trim trimEnd trimStart
  rw [List.dropWhile_eq_self_iff.mpr fun hlen => by
      rw [hvisible _ (List.getElem_mem hlen)]
      exact Bool.false_ne_true,
    List.rdropWhile_eq_self_iff.mpr fun hne => by
      rw [hvisible _ (List.getLast_mem hne)]
      exact Bool.false_ne_true]

end DecimalText
