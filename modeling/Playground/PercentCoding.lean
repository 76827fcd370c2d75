import Playground.RustText

/-! # Percent encoding

A text is written with some of its characters as they are and every byte of the others as two
hexadecimal digits after a percent sign. -/
namespace PercentCoding

open String (utf8EncodeChar)

def upperHex (n : ℕ) : Char := "0123456789ABCDEF".toList.getD n '0'

/-- Digits of both cases are read. -/
def hexValue (c : Char) : Option ℕ := "0123456789ABCDEF".toList.findIdx? (· == c.toUpper)

def encodeByte (b : UInt8) : List Char :=
  ['%', upperHex (b.toNat / 16), upperHex (b.toNat % 16)]

def encodeChar (keep : Char → Bool) (c : Char) : List Char :=
  if keep c then [c] else (utf8EncodeChar c).flatMap encodeByte

def encode (keep : Char → Bool) (text : List Char) : List Char := text.flatMap (encodeChar keep)

/-- The bytes a text stands for; a percent sign without two digits stands for itself. -/
def decode : List Char → List UInt8
  | c :: high :: low :: rest =>
    if c = '%' then
      match hexValue high, hexValue low with
      | some a, some b => UInt8.ofNat (a * 16 + b) :: decode rest
      | _, _ => utf8EncodeChar c ++ decode (high :: low :: rest)
    else utf8EncodeChar c ++ decode (high :: low :: rest)
  | c :: rest => utf8EncodeChar c ++ decode rest
  | [] => []

/-- Kept characters and percent signs with two upper-case digits, nothing else. -/
inductive Encoded (keep : Char → Bool) : List Char → Prop where
  | nil : Encoded keep []
  | kept {c : Char} {rest : List Char} (hc : keep c = true) (h : Encoded keep rest) :
    Encoded keep (c :: rest)
  | byte {high low : Char} {rest : List Char} (hhigh : high ∈ "0123456789ABCDEF".toList)
    (hlow : low ∈ "0123456789ABCDEF".toList) (h : Encoded keep rest) :
    Encoded keep ('%' :: high :: low :: rest)

variable {keep : Char → Bool} {text rest : List Char} {c : Char}

section Digits

theorem hexValue_upperHex {n : ℕ} (h : n < 16) : hexValue (upperHex n) = some n := by
  have hall : ∀ k ∈ List.range 16, hexValue (upperHex k) = some k := by decide
  exact hall n (List.mem_range.mpr h)

theorem upperHex_mem {n : ℕ} (h : n < 16) : upperHex n ∈ "0123456789ABCDEF".toList := by
  have hall : ∀ k ∈ List.range 16, upperHex k ∈ "0123456789ABCDEF".toList := by decide
  exact hall n (List.mem_range.mpr h)

end Digits

section Decoding

theorem decode_plain (hc : c ≠ '%') (rest : List Char) :
    decode (c :: rest) = utf8EncodeChar c ++ decode rest := by
  match rest with
  | [] => rfl
  | [_] => rfl
  | _ :: _ :: _ => rw [decode, if_neg hc]

theorem decode_byte (b : UInt8) (rest : List Char) :
    decode (encodeByte b ++ rest) = b :: decode rest := by
  have hb := b.toNat_lt
  have hhigh : hexValue (upperHex (b.toNat / 16)) = some (b.toNat / 16) :=
    hexValue_upperHex (by omega)
  have hlow : hexValue (upperHex (b.toNat % 16)) = some (b.toNat % 16) :=
    hexValue_upperHex (by omega)
  have hsum : b.toNat / 16 * 16 + b.toNat % 16 = b.toNat := by omega
  rw [encodeByte, List.cons_append, List.cons_append, List.singleton_append, decode, if_pos rfl,
    hhigh, hlow]
  dsimp only
  rw [hsum, UInt8.ofNat_toNat]

theorem decode_bytes (bytes : List UInt8) (rest : List Char) :
    decode (bytes.flatMap encodeByte ++ rest) = bytes ++ decode rest := by
  induction bytes with
  | nil => rfl
  | cons b bytes ih =>
    rw [List.flatMap_cons, List.append_assoc, decode_byte, ih]
    rfl

/-- Where percent signs are not kept, reading the encoding gives back the bytes of the text. -/
theorem decode_encode (hkeep : keep '%' = false) (text : List Char) :
    decode (encode keep text) = text.flatMap utf8EncodeChar := by
  induction text with
  | nil => rfl
  | cons c text ih =>
    rw [encode, List.flatMap_cons, List.flatMap_cons, encodeChar]
    by_cases hc : keep c = true
    · have hplain : c ≠ '%' := by
        rintro rfl
        rw [hkeep] at hc
        cases hc
      rw [if_pos hc, List.singleton_append, decode_plain hplain]
      exact congrArg _ ih
    · rw [if_neg hc, decode_bytes]
      exact congrArg _ ih

theorem flatMap_utf8_inj {s t : List Char}
    (h : s.flatMap utf8EncodeChar = t.flatMap utf8EncodeChar) : s = t := by
  have hbytes : RustText.asBytes (String.ofList s) = RustText.asBytes (String.ofList t) := by
    rw [RustText.asBytes_eq, RustText.asBytes_eq, String.toList_ofList, String.toList_ofList, h]
  have harray : (String.ofList s).toByteArray = (String.ofList t).toByteArray :=
    ByteArray.ext (Array.toList_inj.mp hbytes)
  exact String.ofList_inj.mp (String.toByteArray_inj.mp harray)

theorem encode_inj (hkeep : keep '%' = false) {s t : List Char}
    (h : encode keep s = encode keep t) : s = t := by
  apply flatMap_utf8_inj
  rw [← decode_encode hkeep, ← decode_encode hkeep, h]

end Decoding

section Shape

theorem encoded_bytes (bytes : List UInt8) (h : Encoded keep rest) :
    Encoded keep (bytes.flatMap encodeByte ++ rest) := by
  induction bytes with
  | nil => exact h
  | cons b bytes ih =>
    have hb := b.toNat_lt
    rw [List.flatMap_cons, List.append_assoc]
    exact .byte (upperHex_mem (by omega)) (upperHex_mem (by omega)) ih

theorem encoded_encode (text : List Char) : Encoded keep (encode keep text) := by
  induction text with
  | nil => exact .nil
  | cons c text ih =>
    rw [encode, List.flatMap_cons, encodeChar]
    by_cases hc : keep c = true
    · rw [if_pos hc]
      exact .kept hc ih
    · rw [if_neg hc]
      exact encoded_bytes _ ih

theorem Encoded.chars (h : Encoded keep text) : ∀ c ∈ text,
    keep c = true ∨ c ∈ "%0123456789ABCDEF".toList := by
  induction h with
  | nil => exact fun c hc => absurd hc List.not_mem_nil
  | kept hc _ ih =>
    intro d hd
    rcases List.mem_cons.mp hd with rfl | hd
    · exact Or.inl hc
    · exact ih d hd
  | byte hhigh hlow _ ih =>
    have hdigit : ∀ d ∈ "0123456789ABCDEF".toList, d ∈ "%0123456789ABCDEF".toList :=
      fun d hd => List.mem_cons_of_mem '%' hd
    intro d hd
    rcases List.mem_cons.mp hd with rfl | hd
    · exact Or.inr List.mem_cons_self
    rcases List.mem_cons.mp hd with rfl | hd
    · exact Or.inr (hdigit _ hhigh)
    rcases List.mem_cons.mp hd with rfl | hd
    · exact Or.inr (hdigit _ hlow)
    · exact ih d hd

end Shape

end PercentCoding
