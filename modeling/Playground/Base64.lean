import Mathlib.Data.List.GetD
import Mathlib.Data.List.Nodup

/-! # Base 64

Bytes as digits of six bits, four to every three bytes, over any alphabet of 64 characters. -/
namespace Base64

/-- The characters of the digits and the padding. -/
structure Alphabet where
  chars : List Char
  length_eq : chars.length = 64
  nodup : chars.Nodup
  pad : Char
  pad_notMem : pad ∉ chars

namespace Alphabet

variable (A : Alphabet)

def digit (n : ℕ) : Char := A.chars.getD n A.pad

def value (c : Char) : Option ℕ := if c ∈ A.chars then some (A.chars.idxOf c) else none

variable {A} {n : ℕ}

theorem digit_mem (h : n < 64) : A.digit n ∈ A.chars := by
  have hn : n < A.chars.length := by rwa [A.length_eq]
  rw [digit, List.getD_eq_getElem _ _ hn]
  exact List.getElem_mem hn

@[simp] theorem value_digit (h : n < 64) : A.value (A.digit n) = some n := by
  have hn : n < A.chars.length := by rwa [A.length_eq]
  rw [value, if_pos (digit_mem h), digit, List.getD_eq_getElem _ _ hn, A.nodup.idxOf_getElem n hn]

@[simp] theorem value_pad : A.value A.pad = none := if_neg A.pad_notMem

end Alphabet

variable (A : Alphabet)

def encode : List UInt8 → List Char
  | [] => []
  | [a] => [A.digit (a.toNat / 4), A.digit (a.toNat % 4 * 16), A.pad, A.pad]
  | [a, b] =>
    [A.digit (a.toNat / 4), A.digit (a.toNat % 4 * 16 + b.toNat / 16),
      A.digit (b.toNat % 16 * 4), A.pad]
  | a :: b :: c :: rest =>
    [A.digit (a.toNat / 4), A.digit (a.toNat % 4 * 16 + b.toNat / 16),
      A.digit (b.toNat % 16 * 4 + c.toNat / 64), A.digit (c.toNat % 64)] ++ encode rest

/-- The byte from the low bits of one digit and the high bits of the next. -/
def joined (high low x y : ℕ) : UInt8 := UInt8.ofNat (x % high * low + y / (64 / low))

/-- Padding ends the text. -/
def decode : List Char → Option (List UInt8)
  | [] => some []
  | a :: b :: c :: d :: rest => do
    let x ← A.value a
    let y ← A.value b
    match A.value c, A.value d with
    | none, none => if c = A.pad ∧ d = A.pad ∧ rest = [] then some [joined 64 4 x y] else none
    | some z, none =>
      if d = A.pad ∧ rest = [] then some [joined 64 4 x y, joined 16 16 y z] else none
    | some z, some w =>
      (decode rest).map ([joined 64 4 x y, joined 16 16 y z, joined 4 64 z w] ++ ·)
    | none, some _ => none
  | _ => none

open Alphabet

variable {A} {c : Char} {bytes : List UInt8}

theorem ofNat_eq {a : UInt8} {n : ℕ} (h : n = a.toNat) : UInt8.ofNat n = a := by
  rw [h, UInt8.ofNat_toNat]

/-- The six high bits of a byte and its two low ones, with anything behind them. -/
theorem joined_first {n : ℕ} (a : UInt8) (h : n < 16) :
    joined 64 4 (a.toNat / 4) (a.toNat % 4 * 16 + n) = a := by
  have ha := a.toNat_lt
  refine ofNat_eq ?_
  omega

theorem joined_second {m n : ℕ} (b : UInt8) (h : n < 4) :
    joined 16 16 (m * 16 + b.toNat / 16) (b.toNat % 16 * 4 + n) = b := by
  have hb := b.toNat_lt
  refine ofNat_eq ?_
  omega

theorem joined_third {m : ℕ} (c : UInt8) :
    joined 4 64 (m * 4 + c.toNat / 64) (c.toNat % 64) = c := by
  have hc := c.toNat_lt
  refine ofNat_eq ?_
  omega

theorem decode_encode (bytes : List UInt8) : decode A (encode A bytes) = some bytes := by
  induction bytes using encode.induct with
  | case1 => rfl
  | case2 a =>
    have ha := a.toNat_lt
    have hfirst : joined 64 4 (a.toNat / 4) (a.toNat % 4 * 16) = a :=
      joined_first (n := 0) a (by omega)
    rw [encode, decode, value_digit (by omega), value_digit (by omega)]
    simp [hfirst]
  | case3 a b =>
    have ha := a.toNat_lt
    have hb := b.toNat_lt
    have hsecond : joined 16 16 (a.toNat % 4 * 16 + b.toNat / 16) (b.toNat % 16 * 4) = b :=
      joined_second (n := 0) b (by omega)
    rw [encode, decode, value_digit (by omega), value_digit (by omega),
      value_digit (by omega)]
    simp [joined_first a (show b.toNat / 16 < 16 by omega), hsecond]
  | case4 a b c rest ih =>
    have ha := a.toNat_lt
    have hb := b.toNat_lt
    have hc := c.toNat_lt
    rw [encode, List.cons_append, List.cons_append, List.cons_append, List.cons_append,
      List.nil_append, decode, value_digit (by omega), value_digit (by omega),
      value_digit (by omega), value_digit (by omega)]
    simp [ih, joined_first a (show b.toNat / 16 < 16 by omega),
      joined_second b (show c.toNat / 64 < 4 by omega), joined_third]

theorem encode_ne_nil (h : bytes ≠ []) : encode A bytes ≠ [] := by
  induction bytes using encode.induct with
  | case1 => exact absurd rfl h
  | case2 a => exact List.cons_ne_nil _ _
  | case3 a b => exact List.cons_ne_nil _ _
  | case4 a b c rest ih => exact List.cons_ne_nil _ _

theorem mem_encode (h : c ∈ encode A bytes) : c ∈ A.chars ∨ c = A.pad := by
  induction bytes using encode.induct with
  | case1 => cases h
  | case2 a =>
    have ha := a.toNat_lt
    simp only [encode, List.mem_cons, List.not_mem_nil, or_false] at h
    rcases h with rfl | rfl | rfl | rfl
    · exact Or.inl (digit_mem (by omega))
    · exact Or.inl (digit_mem (by omega))
    · exact Or.inr rfl
    · exact Or.inr rfl
  | case3 a b =>
    have ha := a.toNat_lt
    have hb := b.toNat_lt
    simp only [encode, List.mem_cons, List.not_mem_nil, or_false] at h
    rcases h with rfl | rfl | rfl | rfl
    · exact Or.inl (digit_mem (by omega))
    · exact Or.inl (digit_mem (by omega))
    · exact Or.inl (digit_mem (by omega))
    · exact Or.inr rfl
  | case4 a b c rest ih =>
    have ha := a.toNat_lt
    have hb := b.toNat_lt
    have hc := c.toNat_lt
    simp only [encode, List.cons_append, List.nil_append, List.mem_cons] at h
    rcases h with rfl | rfl | rfl | rfl | h
    · exact Or.inl (digit_mem (by omega))
    · exact Or.inl (digit_mem (by omega))
    · exact Or.inl (digit_mem (by omega))
    · exact Or.inl (digit_mem (by omega))
    · exact ih h

end Base64
