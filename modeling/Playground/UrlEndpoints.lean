import Mathlib.Data.Nat.Notation
import Playground.RustText

/-! # Endpoints of URLs

The host and port an `http` or `https` URL names, scanned as the URL Standard says: blanks at
the ends and line breaks anywhere are ignored, any number of slashes follows the scheme, and
the authority ends at the next delimiter. How a host is read is a parameter. -/
namespace UrlEndpoints

open RustText

structure Endpoint (H : Type) where
  host : H
  port : ℕ
  deriving DecidableEq, Repr

/-- A C0 control or a space. -/
def isBlank (c : Char) : Bool := decide (c.toNat ≤ 32)

def isLineBreak (c : Char) : Bool := c == '\t' || c == '\n' || c == '\r'

def isSlash (c : Char) : Bool := c == '/' || c == '\\'

def inAuthority (c : Char) : Bool := !(isSlash c || c == '?' || c == '#')

def withoutBreaks (text : List Char) : List Char := text.filter fun c => !isLineBreak c

/-- What the scanner sees of a text. -/
def visible (text : List Char) : List Char :=
  withoutBreaks ((text.dropWhile isBlank).rdropWhile isBlank)

def schemePort (name : List Char) : Option ℕ :=
  if name.map Char.toLower = "http".toList then some 80
  else if name.map Char.toLower = "https".toList then some 443
  else none

structure Location where
  defaultPort : ℕ
  authority : List Char
  rest : List Char
  deriving DecidableEq, Repr

def Location.of (port : ℕ) (located : List Char) : Location :=
  ⟨port, located.takeWhile inAuthority, located.dropWhile inAuthority⟩

def locate (text : List Char) : Option Location :=
  match schemePort (text.takeWhile (· != ':')), text.dropWhile (· != ':') with
  | some port, _ :: located => some (.of port (located.dropWhile isSlash))
  | _, _ => none

/-- The host up to the first colon outside square brackets, and the port with its colon. -/
def splitHost (inBrackets : Bool) : List Char → List Char × List Char
  | [] => ([], [])
  | c :: rest =>
    if c == ':' && !inBrackets then ([], c :: rest)
    else
      let split := splitHost (c == '[' || (inBrackets && c != ']')) rest
      (c :: split.1, split.2)

def readPort (defaultPort : ℕ) (port : List Char) : Option ℕ :=
  let digits := port.drop 1
  let value := digits.foldl (fun n c => n * 10 + (c.toNat - '0'.toNat)) 0
  if digits.isEmpty then some defaultPort
  else if digits.all Char.isDigit && decide (value < 65536) then some value
  else none

section Hosts

variable {H : Type} (readHost : List Char → Option H)

/-- The endpoint of an authority; user information ends at the last `@`. -/
def hostAndPort (defaultPort : ℕ) (authority : List Char) : Option (Endpoint H) :=
  let split := splitHost false (authority.rtakeWhile (· != '@'))
  if split.1.isEmpty then none
  else
    match readHost split.1, readPort defaultPort split.2 with
    | some host, some port => some ⟨host, port⟩
    | _, _ => none

def endpoint (text : List Char) : Option (Endpoint H) :=
  (locate (visible text)).bind fun l => hostAndPort readHost l.defaultPort l.authority

end Hosts

section Trimming

variable {p : Char → Bool} {c : Char} {s t : List Char}

theorem dropWhile_append (h : p c = false) (a b : List Char) :
    (a ++ c :: b).dropWhile p = a.dropWhile p ++ c :: b := by
  induction a with
  | nil => simp [h]
  | cons x xs ih =>
    by_cases hx : p x = true
    · simp [hx, ih]
    · simp [hx]

theorem exists_last (h : ∃ c ∈ s, p c = false) :
    ∃ a c b, s = a ++ c :: b ∧ p c = false ∧ ∀ x ∈ b, p x = true := by
  induction s using List.reverseRecOn with
  | nil => simp at h
  | append_singleton s d ih =>
    by_cases hd : p d = true
    · obtain ⟨c, hc, hp⟩ := h
      have hs : c ∈ s := by
        rcases List.mem_append.mp hc with hc | hc
        · exact hc
        · rw [List.mem_singleton.mp hc, hd] at hp
          cases hp
      obtain ⟨a, c, b, rfl, hc, hb⟩ := ih ⟨c, hs, hp⟩
      refine ⟨a, c, b ++ [d], by simp, hc, ?_⟩
      intro x hx
      rcases List.mem_append.mp hx with hx | hx
      · exact hb x hx
      · rwa [List.mem_singleton.mp hx]
    · exact ⟨s, d, [], rfl, by simpa using hd, by simp⟩

theorem rtakeWhile_append (h : p c = false) (a : List Char) {b : List Char}
    (hb : ∀ x ∈ b, p x = true) : (a ++ c :: b).rtakeWhile p = b := by
  induction b using List.reverseRecOn with
  | nil => simp [List.rtakeWhile, h]
  | append_singleton b d ih =>
    have hd : p d = true := hb d (by simp)
    rw [← List.cons_append, ← List.append_assoc, List.rtakeWhile_concat_pos _ _ _ hd,
      ih fun x hx => hb x (by simp [hx])]

/-- What an appended text adds to a text that is trimmed. -/
def addition (p : Char → Bool) (s t : List Char) : List Char :=
  if t.all p then [] else s.rtakeWhile p ++ t.rdropWhile p

theorem trim_addition (h : ∃ c ∈ s, p c = false) :
    ((s ++ t).dropWhile p).rdropWhile p = (s.dropWhile p).rdropWhile p ++ addition p s t := by
  obtain ⟨a, c, b, rfl, hc, hb⟩ := exists_last h
  have hnil : b.rdropWhile p = [] := List.rdropWhile_eq_nil_iff.mpr hb
  rw [List.append_assoc, List.cons_append, dropWhile_append hc, dropWhile_append hc,
    rdropWhile_append hc, rdropWhile_append hc, hnil, addition, rtakeWhile_append hc a hb]
  by_cases ht : t.all p = true
  · have hall : (b ++ t).rdropWhile p = [] := by
      rw [List.rdropWhile_eq_nil_iff]
      intro x hx
      rcases List.mem_append.mp hx with hx | hx
      · exact hb x hx
      · exact List.all_eq_true.mp ht x hx
    simp [ht, hall]
  · obtain ⟨a', d, b', rfl, hd, _⟩ := exists_last (p := p) (s := t) (by simpa using ht)
    rw [if_neg ht, ← List.append_assoc, rdropWhile_append hd, rdropWhile_append hd]
    simp

end Trimming

section Appending

variable {H : Type} {readHost : List Char → Option H} {base path : List Char} {l : Location}

def appended (base path : List Char) : List Char := withoutBreaks (addition isBlank base path)

theorem visible_append (h : visible base ≠ []) :
    visible (base ++ path) = visible base ++ appended base path := by
  have hchar : ∃ c ∈ base, isBlank c = false := by
    by_contra hnone
    simp only [not_exists, not_and, Bool.not_eq_false] at hnone
    have hdrop : base.dropWhile isBlank = [] := List.dropWhile_eq_nil_iff.mpr hnone
    exact h (by simp [visible, hdrop, withoutBreaks])
  unfold visible appended withoutBreaks
  rw [trim_addition hchar, List.filter_append]

theorem scan_append {q : Char → Bool} {s : List Char} (h : s.dropWhile q ≠ []) (t : List Char) :
    (s ++ t).takeWhile q = s.takeWhile q ∧ (s ++ t).dropWhile q = s.dropWhile q ++ t := by
  constructor
  · have hne : ¬ (s.takeWhile q).length = s.length := by
      intro hlen
      have hall : s.takeWhile q = s := (List.takeWhile_prefix q).eq_of_length hlen
      exact h (List.dropWhile_eq_nil_iff.mpr (List.takeWhile_eq_self_iff.mp hall))
    rw [List.takeWhile_append, if_neg hne]
  · have hne : ¬ (s.dropWhile q).isEmpty = true := by simpa using h
    rw [List.dropWhile_append, if_neg hne]

/-- The authority after text is appended: it grows only if nothing has ended it. -/
def Location.grown (l : Location) (added : List Char) : List Char :=
  if l.rest.isEmpty then l.authority ++ added.takeWhile inAuthority else l.authority

theorem of_append {port : ℕ} (located added : List Char) :
    (Location.of port (located ++ added)).authority = (Location.of port located).grown added := by
  unfold Location.of Location.grown
  by_cases hrest : located.dropWhile inAuthority = []
  · have hall : ∀ c ∈ located, inAuthority c = true := List.dropWhile_eq_nil_iff.mp hrest
    simp only [hrest, List.isEmpty_nil, if_true]
    rw [List.takeWhile_append_of_pos hall, List.takeWhile_eq_self_iff.mpr hall]
  · have hne : ¬ (located.dropWhile inAuthority).isEmpty = true := by simpa using hrest
    simp only [if_neg hne]
    exact (scan_append hrest added).1

theorem locate_append (h : locate base = some l) (ha : l.authority ≠ []) (added : List Char) :
    ∃ l', locate (base ++ added) = some l' ∧ l'.defaultPort = l.defaultPort ∧
      l'.authority = l.grown added := by
  unfold locate at h
  split at h
  · rename_i port colon located hport hafter
    cases h
    have hne : base.dropWhile (· != ':') ≠ [] := by
      rw [hafter]
      exact List.cons_ne_nil _ _
    obtain ⟨htake, hdrop⟩ := scan_append hne added
    have hslash : located.dropWhile isSlash ≠ [] := by
      intro hnil
      apply ha
      simp [Location.of, hnil]
    refine ⟨.of port (located.dropWhile isSlash ++ added), ?_, rfl, of_append _ _⟩
    unfold locate
    rw [htake, hdrop, hport, hafter, List.cons_append]
    simp only [(scan_append hslash added).2]
  · cases h

theorem endpoint_eq {e : Endpoint H} (h : endpoint readHost base = some e) :
    ∃ l, locate (visible base) = some l ∧ l.authority ≠ [] ∧
      hostAndPort readHost l.defaultPort l.authority = some e := by
  obtain ⟨l, hl, hhost⟩ := Option.bind_eq_some_iff.mp h
  refine ⟨l, hl, ?_, hhost⟩
  intro hnil
  rw [hnil] at hhost
  simp [hostAndPort, splitHost, List.rtakeWhile] at hhost

/-- The text that a path adds to the authority of a base. -/
def addedAuthority (base path : List Char) : List Char :=
  match locate (visible base) with
  | some l => if l.rest.isEmpty then (appended base path).takeWhile inAuthority else []
  | none => []

/-- A path appended to a base leaves its endpoint alone or is read as part of its authority. -/
theorem endpoint_append (path : List Char) {e : Endpoint H} (h : endpoint readHost base = some e) :
    ∃ l, locate (visible base) = some l ∧ endpoint readHost (base ++ path) =
      hostAndPort readHost l.defaultPort (l.authority ++ addedAuthority base path) := by
  obtain ⟨l, hl, ha, _⟩ := endpoint_eq h
  have hvisible : visible base ≠ [] := by
    intro hnil
    rw [hnil] at hl
    cases hl
  obtain ⟨l', hl', hport, hauthority⟩ := locate_append hl ha (appended base path)
  refine ⟨l, hl, ?_⟩
  rw [endpoint, visible_append hvisible, hl', Option.bind_some, hport, hauthority]
  unfold Location.grown addedAuthority
  rw [hl]
  dsimp only
  split
  · rfl
  · rw [List.append_nil]

/-- A path that starts with a delimiter adds nothing to a base without trailing blanks. -/
theorem addedAuthority_delimiter {c : Char} (hbase : base.rtakeWhile isBlank = [])
    (hc : inAuthority c = false) (path : List Char) : addedAuthority base (c :: path) = [] := by
  have hblank : isBlank c = false ∧ isLineBreak c = false := by
    simp only [inAuthority, isSlash, Bool.not_eq_false', Bool.or_eq_true, beq_iff_eq] at hc
    rcases hc with ((rfl | rfl) | rfl) | rfl <;> decide
  have hall : ¬ (c :: path).all isBlank = true := by simp [hblank.1]
  have hhead : (c :: path).rdropWhile isBlank = c :: path.rdropWhile isBlank :=
    rdropWhile_append hblank.1 [] path
  unfold addedAuthority
  split
  · rw [appended, addition, if_neg hall, hbase, hhead]
    simp [withoutBreaks, hblank.2, hc]
  · rfl

end Appending

end UrlEndpoints
