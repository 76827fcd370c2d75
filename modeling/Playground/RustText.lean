import Mathlib.Data.Bool.AllAny
import Mathlib.Data.List.DropRight
import Mathlib.Data.List.Forall2
import Mathlib.Data.List.Infix
import Mathlib.Data.String.Basic

/-! # Rust string operations on character lists

Each function is the `str` method of that name; offsets and lengths are UTF-8 byte counts. -/
namespace RustText

open String (utf8Len)

/-- The Unicode White_Space property, as `char::is_whitespace` tests it. -/
def isWhitespace (c : Char) : Bool :=
  let n := c.toNat
  (9 ≤ n && n ≤ 13) || n == 32 || n == 0x85 || n == 0xA0 || n == 0x1680 ||
    (0x2000 ≤ n && n ≤ 0x200A) || n == 0x2028 || n == 0x2029 || n == 0x202F ||
    n == 0x205F || n == 0x3000

def trimStart (s : List Char) : List Char := s.dropWhile isWhitespace

def trimEnd (s : List Char) : List Char := s.rdropWhile isWhitespace

def trim (s : List Char) : List Char := trimEnd (trimStart s)

def trimEndMatches (c : Char) (s : List Char) : List Char := s.rdropWhile (· == c)

def toAsciiUppercase (s : List Char) : List Char := s.map Char.toUpper

/-- The Unicode tables beyond ASCII: the lower case of a character, and where a capital sigma ends
a word. -/
structure UnicodeCase where
  lower : Char → List Char
  finalSigma : List Char → List Char → Bool

/-- The lower case of the rest of a text; only a capital sigma looks at what is around it. -/
def toLowercaseFrom (u : UnicodeCase) (before : List Char) : List Char → List Char
  | [] => []
  | c :: cs =>
    (if c = 'Σ' then [if u.finalSigma before cs then 'ς' else 'σ']
      else if c.toNat ≤ 127 then [c.toLower] else u.lower c) ++ toLowercaseFrom u (before ++ [c]) cs

def toLowercase (u : UnicodeCase) (s : List Char) : List Char := toLowercaseFrom u [] s

/-- A line ends at `\n` or `\r\n`; the last line need not be terminated. -/
def lines : List Char → List (List Char)
  | [] => []
  | c :: cs =>
    if c = '\n' then [] :: lines cs
    else if c = '\r' ∧ cs.head? = some '\n' then lines cs
    else
      match lines cs with
      | [] => [[c]]
      | l :: ls => (c :: l) :: ls

def stripPrefix (pat s : List Char) : Option (List Char) :=
  if pat.isPrefixOf s then some (s.drop pat.length) else none

/-- The text before the first occurrence of `pat`, or all of it. -/
def beforeFirst (pat : List Char) : List Char → List Char
  | [] => []
  | c :: cs => if pat.isPrefixOf (c :: cs) then [] else c :: beforeFirst pat cs

def contains (pat s : List Char) : Bool := s.tails.any fun rest => pat.isPrefixOf rest

def splitOnce (sep : Char) : List Char → Option (List Char × List Char)
  | [] => none
  | c :: cs =>
    if c = sep then some ([], cs)
    else (splitOnce sep cs).map fun parts => (c :: parts.1, parts.2)

/-- Left-to-right replacement; `skip` counts the characters of a match still to pass over. -/
def replaceFrom (pat new : List Char) : ℕ → List Char → List Char
  | _, [] => []
  | 0, c :: cs =>
    if pat.isPrefixOf (c :: cs) then new ++ replaceFrom pat new (pat.length - 1) cs
    else c :: replaceFrom pat new 0 cs
  | skip + 1, _ :: cs => replaceFrom pat new skip cs

def replace (pat new s : List Char) : List Char := replaceFrom pat new 0 s

/-- The slice from a byte offset. `none` is the panic of an offset that is past the end or
inside a character. -/
def sliceFrom : List Char → ℕ → Option (List Char)
  | cs, 0 => some cs
  | [], _ + 1 => none
  | c :: cs, off + 1 => if c.utf8Size ≤ off + 1 then sliceFrom cs (off + 1 - c.utf8Size) else none

/-- The slice up to a byte offset. `none` is the panic, as for `sliceFrom`. -/
def sliceTo : List Char → ℕ → Option (List Char)
  | _, 0 => some []
  | [], _ + 1 => none
  | c :: cs, off + 1 =>
    if c.utf8Size ≤ off + 1 then (sliceTo cs (off + 1 - c.utf8Size)).map (c :: ·) else none

/-- The slice between two byte offsets, which panics as well when they are in the wrong order. -/
def slice (s : List Char) (start stop : ℕ) : Option (List Char) :=
  if stop < start then none else (sliceFrom s start).bind fun rest => sliceTo rest (stop - start)

@[simp] theorem sliceFrom_zero (s : List Char) : sliceFrom s 0 = some s := by
  cases s <;> rfl

def byteAsChar (b : UInt8) : Char := Char.ofNat b.toNat

def asBytes (s : String) : List UInt8 := s.toUTF8.data.toList

theorem sliceFrom_append (a b : List Char) : sliceFrom (a ++ b) (utf8Len a) = some b := by
  induction a with
  | nil => simp
  | cons c cs ih =>
    have hc := c.utf8Size_pos
    obtain ⟨off, hoff⟩ : ∃ off, utf8Len (c :: cs) = off + 1 :=
      ⟨utf8Len (c :: cs) - 1, by simp only [String.utf8Len_cons]; omega⟩
    have hlen : off + 1 = utf8Len cs + c.utf8Size := by rw [← hoff, String.utf8Len_cons]
    rw [hoff, List.cons_append, sliceFrom, if_pos (by omega), hlen, Nat.add_sub_cancel, ih]

theorem sliceTo_append (a b : List Char) : sliceTo (a ++ b) (utf8Len a) = some a := by
  induction a with
  | nil => simp [sliceTo]
  | cons c cs ih =>
    have hc := c.utf8Size_pos
    obtain ⟨off, hoff⟩ : ∃ off, utf8Len (c :: cs) = off + 1 :=
      ⟨utf8Len (c :: cs) - 1, by simp only [String.utf8Len_cons]; omega⟩
    have hlen : off + 1 = utf8Len cs + c.utf8Size := by rw [← hoff, String.utf8Len_cons]
    rw [hoff, List.cons_append, sliceTo, if_pos (by omega), hlen, Nat.add_sub_cancel, ih]
    rfl

theorem slice_middle (a b rest : List Char) :
    slice (a ++ (b ++ rest)) (utf8Len a) (utf8Len a + utf8Len b) = some b := by
  rw [slice, if_neg (by omega), sliceFrom_append, Option.bind_some, Nat.add_sub_cancel_left,
    sliceTo_append]

theorem utf8Size_ascii {c : Char} (h : c.toNat ≤ 127) : c.utf8Size = 1 :=
  Char.utf8Size_eq_one_iff.mpr (UInt32.le_iff_toNat_le.mpr h)

theorem toNat_byteAsChar (b : UInt8) : (byteAsChar b).toNat = b.toNat := by
  have hvalid : b.toNat.isValidChar := Or.inl (by have := b.toNat_lt; omega)
  rw [byteAsChar, Char.ofNat, dif_pos hvalid]
  rfl

theorem byteAsChar_inj {b d : UInt8} (h : byteAsChar b = byteAsChar d) : b = d := by
  apply UInt8.toNat_inj.mp
  rw [← toNat_byteAsChar, ← toNat_byteAsChar, h]

theorem asBytes_eq (s : String) : asBytes s = s.toList.flatMap String.utf8EncodeChar := by
  conv_lhs => rw [← String.ofList_toList (s := s)]
  simp only [asBytes, String.toUTF8_eq_toByteArray, String.toByteArray_ofList, List.utf8Encode,
    List.toList_data_toByteArray]

def isAscii (s : List Char) : Bool := s.all fun c => c.toNat ≤ 127

theorem encode_ascii {c : Char} (h : c.toNat ≤ 127) :
    (String.utf8EncodeChar c).map byteAsChar = [c] := by
  have hval : c.val.toNat ≤ 127 := h
  have hbyte : (UInt8.ofNat c.val.toNat).toNat = c.toNat := by
    rw [UInt8.toNat_ofNat', Nat.mod_eq_of_lt (by omega)]
    rfl
  rw [String.utf8EncodeChar, if_pos hval, List.map_singleton, byteAsChar, hbyte, Char.ofNat_toNat]

theorem encode_wide {c : Char} (h : 127 < c.toNat) :
    ∀ b ∈ String.utf8EncodeChar c, 128 ≤ b.toNat := by
  have hwide : ¬ c.val.toNat ≤ 127 := by
    change ¬ c.toNat ≤ 127
    omega
  have hmax : c.val.toNat < 0x110000 := by
    rcases c.valid with hc | hc <;> omega
  intro b hb
  rw [String.utf8EncodeChar] at hb
  split at hb
  · contradiction
  have hhigh : ∀ n, 128 ≤ n → n < 256 → b = UInt8.ofNat n → 128 ≤ b.toNat := by
    rintro n hlow hup rfl
    rw [UInt8.toNat_ofNat', Nat.mod_eq_of_lt hup]
    exact hlow
  split at hb
  · simp only [List.mem_cons, List.not_mem_nil, or_false] at hb
    rcases hb with hb | hb <;> exact hhigh _ (by omega) (by omega) hb
  split at hb
  · simp only [List.mem_cons, List.not_mem_nil, or_false] at hb
    rcases hb with hb | hb | hb <;> exact hhigh _ (by omega) (by omega) hb
  · simp only [List.mem_cons, List.not_mem_nil, or_false] at hb
    rcases hb with hb | hb | hb | hb <;> exact hhigh _ (by omega) (by omega) hb

/-- The byte of an ASCII character is in the encoding of that character and of no other. -/
theorem mem_encode_ascii {c d : Char} (hd : d.toNat ≤ 127) :
    d.toUInt8 ∈ String.utf8EncodeChar c ↔ c = d := by
  have hbyte : d.toUInt8.toNat = d.toNat := by
    change d.val.toUInt8.toNat = d.val.toNat
    have hval : d.val.toNat ≤ 127 := hd
    rw [UInt32.toNat_toUInt8]
    omega
  by_cases hc : c.toNat ≤ 127
  · have hval : c.val.toNat ≤ 127 := hc
    rw [String.utf8EncodeChar, if_pos hval, List.mem_singleton]
    constructor
    · intro heq
      have hnat := congrArg UInt8.toNat heq
      rw [hbyte, UInt8.toNat_ofNat', Nat.mod_eq_of_lt (by omega)] at hnat
      exact Char.toNat_inj.mp hnat.symm
    · rintro rfl
      apply UInt8.toNat_inj.mp
      rw [hbyte, UInt8.toNat_ofNat', Nat.mod_eq_of_lt (by omega)]
      rfl
  · constructor
    · intro hmem
      have hhigh := encode_wide (by omega : 127 < c.toNat) _ hmem
      omega
    · rintro rfl
      exact absurd hd hc

theorem toUpper_ascii (c : Char) : c.toUpper = c ∨ c.toNat ≤ 127 ∧ c.toUpper.toNat ≤ 127 := by
  unfold Char.toUpper
  split
  · rename_i h
    obtain ⟨hlow, hup⟩ := h
    have ha : 'a'.val.toNat = 97 := rfl
    have hz : 'z'.val.toNat = 122 := rfl
    have hA : 'A'.val.toNat = 65 := rfl
    simp only [UInt32.le_iff_toNat_le] at hlow hup
    refine Or.inr ⟨show c.val.toNat ≤ 127 by omega, ?_⟩
    change (c.val + ('A'.val - 'a'.val)).toNat ≤ 127
    rw [UInt32.toNat_add, UInt32.toNat_sub]
    omega
  · exact Or.inl rfl

theorem utf8Size_toUpper (c : Char) : c.toUpper.utf8Size = c.utf8Size := by
  rcases toUpper_ascii c with h | ⟨h, hup⟩
  · rw [h]
  · rw [utf8Size_ascii h, utf8Size_ascii hup]

@[simp] theorem utf8Len_toAsciiUppercase (s : List Char) :
    utf8Len (toAsciiUppercase s) = utf8Len s := by
  induction s with
  | nil => rfl
  | cons c cs ih => simp only [toAsciiUppercase, List.map_cons, String.utf8Len_cons,
      utf8Size_toUpper] at *; rw [ih]

theorem toAsciiUppercase_append (a b : List Char) :
    toAsciiUppercase (a ++ b) = toAsciiUppercase a ++ toAsciiUppercase b := List.map_append

theorem trimStart_cons {c : Char} (h : isWhitespace c = false) (cs : List Char) :
    trimStart (c :: cs) = c :: cs := by
  simp [trimStart, h]

theorem rdropWhile_append {p : Char → Bool} {c : Char} (h : p c = false) (a b : List Char) :
    (a ++ c :: b).rdropWhile p = a ++ c :: b.rdropWhile p := by
  induction b using List.reverseRecOn with
  | nil => simpa using h
  | append_singleton b d ih =>
    rw [← List.cons_append, ← List.append_assoc, List.rdropWhile_concat,
      List.rdropWhile_concat]
    split
    · exact ih
    · simp

theorem trim_append {a : List Char} {c d : Char} (hd : isWhitespace d = false)
    (hc : isWhitespace c = false) (b : List Char) :
    trim ((d :: a) ++ c :: b) = (d :: a) ++ c :: trimEnd b := by
  rw [trim, List.cons_append, trimStart_cons hd, trimEnd, ← List.cons_append,
    rdropWhile_append hc]
  rfl

theorem exists_trim (s : List Char) :
    ∃ front back, s = front ++ trim s ++ back ∧ (∀ c ∈ front, isWhitespace c = true) ∧
      ∀ c ∈ back, isWhitespace c = true := by
  refine ⟨s.takeWhile isWhitespace, (trimStart s).rtakeWhile isWhitespace, ?_,
    fun c => List.mem_takeWhile_imp, fun c => List.mem_rtakeWhile_imp⟩
  rw [trim, trimEnd, List.append_assoc, List.rdropWhile_append_rtakeWhile, trimStart,
    List.takeWhile_append_dropWhile]

theorem trim_blank_append {front : List Char} (h : ∀ c ∈ front, isWhitespace c = true)
    (s : List Char) : trim (front ++ s) = trim s := by
  rw [trim, trim, trimStart, trimStart, List.dropWhile_append_of_pos h]

theorem trimEnd_append_blank {back : List Char} (h : ∀ c ∈ back, isWhitespace c = true)
    (s : List Char) : trimEnd (s ++ back) = trimEnd s := by
  simp only [trimEnd, List.rdropWhile, List.reverse_append]
  rw [List.dropWhile_append_of_pos fun c hc => h c (List.mem_reverse.mp hc)]

theorem trimEnd_trim (s : List Char) : trimEnd (trim s) = trim s :=
  List.rdropWhile_idempotent isWhitespace (trimStart s)

theorem trimEnd_append {b : List Char} (hne : b ≠ []) (h : trimEnd b = b) (a : List Char) :
    trimEnd (a ++ b) = a ++ b := by
  rw [trimEnd, List.rdropWhile_eq_self_iff] at h ⊢
  intro _
  rw [List.getLast_append_of_ne_nil _ hne]
  exact h hne

theorem trimEnd_self {a back : List Char} (h : ∀ c ∈ back, isWhitespace c = true)
    (hself : trimEnd (a ++ back) = a ++ back) : back = [] := by
  rw [trimEnd_append_blank h] at hself
  have hlen := (List.rdropWhile_prefix isWhitespace a).length_le
  have heq := congrArg List.length hself
  rw [List.length_append] at heq
  apply List.eq_nil_of_length_eq_zero
  change (trimEnd a).length ≤ a.length at hlen
  omega

theorem trim_append_blank {back : List Char} (h : ∀ c ∈ back, isWhitespace c = true)
    (s : List Char) : trim (s ++ back) = trim s := by
  simp only [trim, trimStart, List.dropWhile_append]
  by_cases hs : (s.dropWhile isWhitespace).isEmpty = true
  · -- A blank text leaves nothing to trim, whatever blanks follow it.
    rw [if_pos hs, List.isEmpty_iff.mp hs, List.dropWhile_eq_nil_iff.mpr h]
  · rw [if_neg hs, trimEnd_append_blank h]

theorem trim_trim (s : List Char) : trim (trim s) = trim s := by
  obtain ⟨front, back, hs, hfront, hback⟩ := exists_trim s
  calc trim (trim s) = trim (front ++ trim s ++ back) := by
        rw [trim_append_blank hback, trim_blank_append hfront]
    _ = trim s := by rw [← hs]

theorem lines_cons {c : Char} (hn : c ≠ '\n') (hr : c ≠ '\r') (cs : List Char) :
    lines (c :: cs) = match lines cs with
      | [] => [[c]]
      | l :: ls => (c :: l) :: ls := by
  simp [lines, hn, hr]

theorem lines_append {a : List Char} (h : ∀ c ∈ a, c ≠ '\n' ∧ c ≠ '\r') {b l : List Char}
    {ls : List (List Char)} (hb : lines b = l :: ls) : lines (a ++ b) = (a ++ l) :: ls := by
  induction a with
  | nil => simpa using hb
  | cons c cs ih =>
    obtain ⟨hn, hr⟩ := h c (by simp)
    rw [List.cons_append, lines_cons hn hr, ih fun d hd => h d (by simp [hd])]
    rfl

theorem lines_visible {c : Char} (hn : c ≠ '\n') (hr : c ≠ '\r') (cs : List Char) :
    ∃ l ls, lines (c :: cs) = (c :: l) :: ls := by
  rw [lines_cons hn hr]
  cases lines cs with
  | nil => exact ⟨[], [], rfl⟩
  | cons l ls => exact ⟨l, ls, rfl⟩

theorem lines_single {a : List Char} (h : ∀ c ∈ a, c ≠ '\n' ∧ c ≠ '\r') (hne : a ≠ []) :
    lines a = [a] := by
  induction a with
  | nil => exact absurd rfl hne
  | cons c cs ih =>
    obtain ⟨hn, hr⟩ := h c (by simp)
    rw [lines_cons hn hr]
    by_cases hcs : cs = []
    · subst hcs; rfl
    · rw [ih (fun d hd => h d (by simp [hd])) hcs]

theorem beforeFirst_append (pat : List Char) {x : Char} {a : List Char}
    (hpat : pat.head? = some x) (h : x ∉ a) (b : List Char) :
    beforeFirst pat (a ++ b) = a ++ beforeFirst pat b := by
  induction a with
  | nil => rfl
  | cons c cs ih =>
    have hc : pat.isPrefixOf (c :: (cs ++ b)) = false := by
      cases pat with
      | nil => simp at hpat
      | cons y ys =>
        simp only [List.head?_cons, Option.some.injEq] at hpat
        subst hpat
        have hne : y ≠ c := fun e => h (by simp [e])
        simp [List.isPrefixOf, hne]
    rw [List.cons_append, beforeFirst, if_neg (by simp [hc]), ih (fun hx => h (by simp [hx]))]
    rfl

-- What `str::replace` does at the start of a text.
section Replacement

variable {pat new s : List Char} {c : Char}

theorem replaceFrom_skip (skip : ℕ) (s : List Char) :
    replaceFrom pat new skip s = replace pat new (s.drop skip) := by
  induction skip generalizing s with
  | zero => rfl
  | succ skip ih =>
    cases s with
    | nil => rfl
    | cons c s => exact ih s

theorem replace_cons (h : ¬ pat <+: c :: s) :
    replace pat new (c :: s) = c :: replace pat new s := by
  rw [replace, replaceFrom, if_neg (by rwa [List.isPrefixOf_iff_prefix])]
  rfl

theorem replace_match (hne : pat ≠ []) (s : List Char) :
    replace pat new (pat ++ s) = new ++ replace pat new s := by
  obtain ⟨c, pat, rfl⟩ := List.exists_cons_of_ne_nil hne
  have hpat : (c :: pat).isPrefixOf (c :: (pat ++ s)) = true :=
    List.isPrefixOf_iff_prefix.mpr (List.prefix_append (c :: pat) s)
  rw [List.cons_append, replace, replaceFrom, if_pos hpat, replaceFrom_skip, List.length_cons,
    Nat.add_sub_cancel, List.drop_left]

theorem replace_absent (h : ¬ pat <:+: s) : replace pat new s = s := by
  induction s with
  | nil => rfl
  | cons c s ih =>
    rw [replace_cons fun hp => h hp.isInfix, ih fun hp => h (List.infix_cons hp)]

theorem replace_of_not_mem {x : Char} {s : List Char} (h : x ∉ s) (pat new : List Char) :
    replace (x :: pat) new s = s :=
  replace_absent fun hp => h (hp.subset List.mem_cons_self)

/-- A text cut at the matches of a pattern, from left to right. -/
inductive Matches (pat : List Char) : List Char → Prop where
  | nil : Matches pat []
  | skip {c : Char} {s : List Char} (hc : ¬ pat <+: c :: s) (h : Matches pat s) :
    Matches pat (c :: s)
  | found {s : List Char} (h : Matches pat s) : Matches pat (pat ++ s)

theorem matches_of (hne : pat ≠ []) (s : List Char) : Matches pat s := by
  induction hn : s.length using Nat.strong_induction_on generalizing s with
  | _ n ih =>
    by_cases hpat : pat <+: s
    · obtain ⟨rest, rfl⟩ := hpat
      have hpos : 0 < pat.length := List.length_pos_iff.mpr hne
      rw [List.length_append] at hn
      exact .found (ih rest.length (by omega) rest rfl)
    · cases s with
      | nil => exact .nil
      | cons c s =>
        rw [List.length_cons] at hn
        exact .skip hpat (ih s.length (by omega) s rfl)

/-- Every match gives the measure of the pattern for that of what replaces it. -/
theorem replace_measure (hne : pat ≠ []) {f : List Char → ℕ}
    (hf : ∀ a b, f (a ++ b) = f a + f b) (new s : List Char) :
    ∃ k, f (replace pat new s) + k * f pat = f s + k * f new ∧ (pat <:+: s → 0 < k) := by
  induction matches_of hne s with
  | nil => exact ⟨0, by simp [replace, replaceFrom], fun hp => absurd (List.infix_nil.mp hp) hne⟩
  | @skip c s hc _ ih =>
    obtain ⟨k, hk, hpos⟩ := ih
    have hcons : ∀ t, f (c :: t) = f [c] + f t := fun t => hf [c] t
    refine ⟨k, ?_, ?_⟩
    · rw [replace_cons hc, hcons, hcons s]
      omega
    · intro hp
      exact hpos ((List.infix_cons_iff.mp hp).resolve_left hc)
  | found _ ih =>
    obtain ⟨k, hk, -⟩ := ih
    refine ⟨k + 1, ?_, fun _ => Nat.succ_pos k⟩
    rw [replace_match hne, hf, hf, Nat.succ_mul, Nat.succ_mul]
    omega

theorem replace_same (hne : pat ≠ []) (s : List Char) : replace pat pat s = s := by
  induction matches_of hne s with
  | nil => rfl
  | skip hc _ ih => rw [replace_cons hc, ih]
  | found _ ih => rw [replace_match hne, ih]

theorem eq_of_replace_eq (hne : pat ≠ []) (hlen : new.length = pat.length)
    (hself : replace pat new s = s) (hp : pat <:+: s) : new = pat := by
  induction matches_of hne s with
  | nil => exact absurd (List.infix_nil.mp hp) hne
  | skip hc _ ih =>
    rw [replace_cons hc] at hself
    exact ih (List.cons.inj hself).2 ((List.infix_cons_iff.mp hp).resolve_left hc)
  | found _ _ =>
    rw [replace_match hne] at hself
    exact (List.append_inj hself hlen).1

/-- A replacement leaves a text alone only where it has nothing to replace, or puts back what it
replaces. -/
theorem replace_eq_self_iff (hne : pat ≠ []) :
    replace pat new s = s ↔ (pat <:+: s → new = pat) := by
  constructor
  · intro hself hp
    obtain ⟨k, hk, hpos⟩ := replace_measure hne (fun _ _ => List.length_append) new s
    rw [hself] at hk
    have hlen : pat.length = new.length := Nat.eq_of_mul_eq_mul_left (hpos hp) (by omega)
    exact eq_of_replace_eq hne hlen.symm hself hp
  · intro h
    by_cases hp : pat <:+: s
    · rw [h hp, replace_same hne]
    · exact replace_absent hp

end Replacement

theorem toUpper_whitespace {c : Char} (h : isWhitespace c = false) :
    isWhitespace c.toUpper = false := by
  unfold Char.toUpper
  split
  · rename_i hc
    obtain ⟨hlow, hup⟩ := hc
    have ha : 'a'.val.toNat = 97 := rfl
    have hz : 'z'.val.toNat = 122 := rfl
    have hA : 'A'.val.toNat = 65 := rfl
    simp only [UInt32.le_iff_toNat_le] at hlow hup
    have hn : (c.val + ('A'.val - 'a'.val)).toNat = c.val.toNat - 32 := by
      rw [UInt32.toNat_add, UInt32.toNat_sub]
      omega
    simp only [isWhitespace, Char.toNat, hn]
    simp only [Bool.or_eq_false_iff, Bool.and_eq_false_iff, decide_eq_false_iff_not,
      beq_eq_false_iff_ne]
    omega
  · exact h

theorem takeWhile_rdropWhile {p q : Char → Bool} (h : ∀ c, p c = true → q c = false)
    (s : List Char) : (s.rdropWhile p).takeWhile q = s.takeWhile q := by
  induction s using List.reverseRecOn with
  | nil => simp
  | append_singleton s c ih =>
    rw [List.rdropWhile_concat]
    by_cases hc : p c = true
    · rw [if_pos hc, ih, List.takeWhile_append]
      split
      · rename_i hall
        have hs : s.takeWhile q = s :=
          (List.takeWhile_prefix q).eq_of_length hall
        simp [hs, h c hc]
      · rfl
    · rw [if_neg hc]

-- What `str::split` at a character makes of a text.
section Split

variable {sep : Char} {s l : List Char} {parts : List (List Char)}

theorem mem_splitOn {c : Char} (h : l ∈ s.splitOn sep) (hc : c ∈ l) : c ≠ sep ∧ c ∈ s := by
  induction s generalizing l with
  | nil =>
    rw [List.splitOn_eq_singleton (by simp), List.mem_singleton] at h
    simp [h] at hc
  | cons d s ih =>
    rw [List.splitOn_cons_eq_if_modifyHead] at h
    split at h
    · rcases List.mem_cons.mp h with rfl | h
      · cases hc
      · exact ⟨(ih h hc).1, List.mem_cons_of_mem _ (ih h hc).2⟩
    · rename_i hd
      cases hsplit : s.splitOn sep with
      | nil => simp [hsplit] at h
      | cons first rest =>
        rw [hsplit, List.modifyHead_cons] at h
        rw [hsplit] at ih
        rcases List.mem_cons.mp h with rfl | h
        · rcases List.mem_cons.mp hc with rfl | hc
          · exact ⟨by simpa using hd, List.mem_cons_self⟩
          · have hfirst := ih List.mem_cons_self hc
            exact ⟨hfirst.1, List.mem_cons_of_mem _ hfirst.2⟩
        · have hrest := ih (List.mem_cons_of_mem _ h) hc
          exact ⟨hrest.1, List.mem_cons_of_mem _ hrest.2⟩

theorem not_mem_splitOn (h : l ∈ s.splitOn sep) : sep ∉ l :=
  fun hc => (mem_splitOn h hc).1 rfl

/-- The parts of a split are the texts between the separators, none of which holds one. -/
theorem splitOn_eq_iff (hparts : parts ≠ []) :
    s.splitOn sep = parts ↔ s = [sep].intercalate parts ∧ ∀ l ∈ parts, sep ∉ l := by
  constructor
  · rintro rfl
    exact ⟨(List.intercalate_splitOn sep).symm, fun l hl => not_mem_splitOn hl⟩
  · rintro ⟨rfl, hsep⟩
    exact List.splitOn_intercalate sep hsep hparts

end Split

-- Where a pattern can occur.
section Occurrences

variable {pat a b s : List Char} {sep : Char}

theorem contains_iff : contains pat s = true ↔ pat <:+: s := by
  simp only [contains, List.any_eq_true, List.mem_tails, List.isPrefixOf_iff_prefix,
    List.infix_iff_prefix_suffix]
  constructor
  · rintro ⟨t, ht, hp⟩
    exact ⟨t, hp, ht⟩
  · rintro ⟨t, hp, ht⟩
    exact ⟨t, ht, hp⟩

theorem prefix_append_cons (h : sep ∉ pat) (hp : pat <+: a ++ sep :: b) : pat <+: a := by
  induction a generalizing pat with
  | nil =>
    cases pat with
    | nil => exact List.nil_prefix
    | cons c cs =>
      rw [List.nil_append, List.cons_prefix_cons] at hp
      exact absurd (by simp [hp.1]) h
  | cons d a ih =>
    cases pat with
    | nil => exact List.nil_prefix
    | cons c cs =>
      rw [List.cons_append, List.cons_prefix_cons] at hp
      rw [List.mem_cons, not_or] at h
      exact List.cons_prefix_cons.mpr ⟨hp.1, ih h.2 hp.2⟩

/-- A pattern without the separator occurs on one side of it. -/
theorem infix_append_cons (h : sep ∉ pat) :
    pat <:+: a ++ sep :: b ↔ pat <:+: a ∨ pat <:+: b := by
  constructor
  · intro hp
    induction a with
    | nil =>
      rcases List.infix_cons_iff.mp hp with hp | hp
      · have hnil : pat <+: [] := prefix_append_cons (a := []) h hp
        exact Or.inl hnil.isInfix
      · exact Or.inr hp
    | cons d a ih =>
      rcases List.infix_cons_iff.mp hp with hp | hp
      · have hfirst : pat <+: d :: a := prefix_append_cons (a := d :: a) h hp
        exact Or.inl hfirst.isInfix
      · rcases ih hp with hp | hp
        · exact Or.inl (List.infix_cons hp)
        · exact Or.inr hp
  · rintro (hp | hp)
    · exact hp.trans (List.prefix_append _ _).isInfix
    · exact hp.trans ⟨a ++ [sep], [], by simp⟩

theorem infix_of_mem_splitOn (h : a ∈ s.splitOn sep) : a <:+: s := by
  have hparts : ∀ parts : List (List Char), a ∈ parts → a <:+: [sep].intercalate parts := by
    intro parts hmem
    induction parts with
    | nil => cases hmem
    | cons part parts ih =>
      by_cases hlast : parts = []
      · subst hlast
        rw [List.mem_singleton.mp hmem, List.intercalate_singleton]
      · rw [List.intercalate_cons_of_ne_nil hlast]
        rcases List.mem_cons.mp hmem with rfl | hmem
        · rw [List.append_assoc]
          exact (List.prefix_append _ _).isInfix
        · exact (ih hmem).trans (List.suffix_append _ _).isInfix
  have hsplit := hparts _ h
  rwa [List.intercalate_splitOn] at hsplit

theorem contains_append_cons (h : sep ∉ pat) :
    contains pat (a ++ sep :: b) = (contains pat a || contains pat b) := by
  rw [Bool.eq_iff_iff, Bool.or_eq_true, contains_iff, contains_iff, contains_iff]
  exact infix_append_cons h

/-- Two texts that differ only in characters the pattern does not have. -/
def Alike (pat : List Char) (c d : Char) : Prop := c = d ∨ (c ∉ pat ∧ d ∉ pat)

theorem Alike.symm {c d : Char} (h : Alike pat c d) : Alike pat d c :=
  h.imp Eq.symm And.symm

theorem prefix_alike {q : List Char} (hq : ∀ c ∈ q, c ∈ pat) (h : List.Forall₂ (Alike pat) a b)
    (hp : q <+: a) : q <+: b := by
  induction h generalizing q with
  | nil => exact hp
  | @cons c d a b hcd _ ih =>
    cases q with
    | nil => exact List.nil_prefix
    | cons x q =>
      obtain ⟨rfl, hrest⟩ := List.cons_prefix_cons.mp hp
      have hsame : x = d := by
        rcases hcd with hsame | hout
        · exact hsame
        · exact absurd (hq x List.mem_cons_self) hout.1
      exact List.cons_prefix_cons.mpr
        ⟨hsame, ih (fun c hc => hq c (List.mem_cons_of_mem _ hc)) hrest⟩

theorem infix_alike (h : List.Forall₂ (Alike pat) a b) (hp : pat <:+: a) : pat <:+: b := by
  induction h with
  | nil => exact hp
  | @cons c d a b hcd hrest ih =>
    rcases List.infix_cons_iff.mp hp with hp | hp
    · exact (prefix_alike (fun _ hc => hc) (.cons hcd hrest) hp).isInfix
    · exact List.infix_cons (ih hp)

theorem contains_alike (h : List.Forall₂ (Alike pat) a b) : contains pat a = contains pat b := by
  rw [Bool.eq_iff_iff, contains_iff, contains_iff]
  have hback : List.Forall₂ (Alike pat) b a := .flip (h.imp fun _ _ => Alike.symm)
  exact ⟨infix_alike h, infix_alike hback⟩

end Occurrences

section Lowercase

variable {u : UnicodeCase} {pat a s : List Char}

theorem toLowercaseFrom_ascii (ha : ∀ c ∈ a, c.toNat ≤ 127) (before : List Char) :
    toLowercaseFrom u before (a ++ s) =
      a.map Char.toLower ++ toLowercaseFrom u (before ++ a) s := by
  induction a generalizing before with
  | nil => simp
  | cons c a ih =>
    have hc : c.toNat ≤ 127 := ha c List.mem_cons_self
    have hsigma : c ≠ 'Σ' := by
      rintro rfl
      exact absurd hc (by decide)
    rw [List.cons_append, toLowercaseFrom, if_neg hsigma, if_pos hc,
      ih (fun d hd => ha d (List.mem_cons_of_mem _ hd))]
    simp

theorem toLowercaseFrom_alike (hpat : ∀ c ∈ pat, c.toNat ≤ 127) (before before' : List Char) :
    List.Forall₂ (Alike pat) (toLowercaseFrom u before s) (toLowercaseFrom u before' s) := by
  induction s generalizing before before' with
  | nil => exact .nil
  | cons c s ih =>
    rw [toLowercaseFrom, toLowercaseFrom]
    refine List.rel_append ?_ (ih _ _)
    have hsame : ∀ l : List Char, List.Forall₂ (Alike pat) l l :=
      fun l => List.forall₂_same.mpr fun _ _ => Or.inl rfl
    split
    · have hout : ∀ d ∈ ['ς', 'σ'], d ∉ pat := by
        intro d hd hmem
        have hascii := hpat d hmem
        rcases List.mem_pair.mp hd with rfl | rfl <;> exact absurd hascii (by decide)
      refine .cons (Or.inr ⟨hout _ ?_, hout _ ?_⟩) .nil <;> split <;> simp
    · exact hsame _

/-- Where a text stands makes no difference to the ASCII patterns in its lower case. -/
theorem contains_toLowercaseFrom (hpat : ∀ c ∈ pat, c.toNat ≤ 127) (before : List Char) :
    contains pat (toLowercaseFrom u before s) = contains pat (toLowercase u s) :=
  contains_alike (toLowercaseFrom_alike hpat before [])

end Lowercase

end RustText
