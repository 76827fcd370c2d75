import Playground.PercentCoding

/-! # Queries of URLs

The query of a URL is read as a form: pairs between ampersands, each a name and a value around its
first equals sign, with percent signs decoded and plus signs read as spaces. -/
namespace UrlQueries

open String (utf8EncodeChar)

/-- What stands between the first question mark and the fragment. -/
def query (url : List Char) : List Char :=
  ((url.takeWhile (· != '#')).dropWhile (· != '?')).drop 1

def formDecode (text : List Char) : List UInt8 :=
  PercentCoding.decode (text.map fun c => if c = '+' then ' ' else c)

def readPair (pair : List Char) : List UInt8 × List UInt8 :=
  (formDecode (pair.takeWhile (· != '=')), formDecode ((pair.dropWhile (· != '=')).drop 1))

def parameters (url : List Char) : List (List UInt8 × List UInt8) :=
  ((query url).splitOn '&').map readPair

def utf8 (text : List Char) : List UInt8 := text.flatMap utf8EncodeChar

/-- The character stands for itself in a form. -/
def isPlain (c : Char) : Bool := !(['&', '=', '#', '%', '+'].contains c)

def writePair (pair : List Char × List Char) : List Char := pair.1 ++ '=' :: pair.2

def writeQuery (pairs : List (List Char × List Char)) : List Char :=
  ['&'].intercalate (pairs.map writePair)

def Plain (text : List Char) : Prop := ∀ c ∈ text, isPlain c = true

variable {text name value base : List Char} {pairs : List (List Char × List Char)} {c : Char}

section Pairs

theorem isPlain_iff : isPlain c = true ↔ c ≠ '&' ∧ c ≠ '=' ∧ c ≠ '#' ∧ c ≠ '%' ∧ c ≠ '+' := by
  simp [isPlain]

theorem Plain.not_mem (h : Plain text) (hc : isPlain c = false) : c ∉ text := by
  intro hmem
  rw [h c hmem] at hc
  cases hc

theorem formDecode_plain (h : Plain text) : formDecode text = utf8 text := by
  induction text with
  | nil => rfl
  | cons c text ih =>
    obtain ⟨-, -, -, hpercent, hplus⟩ := isPlain_iff.mp (h c List.mem_cons_self)
    have hrest : Plain text := fun d hd => h d (List.mem_cons_of_mem _ hd)
    rw [formDecode, List.map_cons, if_neg hplus, PercentCoding.decode_plain hpercent]
    exact congrArg _ (ih hrest)

theorem readPair_write (hname : Plain name) (hvalue : Plain value) :
    readPair (writePair (name, value)) = (utf8 name, utf8 value) := by
  have hall : ∀ c ∈ name, (c != '=') = true := by
    intro c hc
    rw [bne_iff_ne]
    exact (isPlain_iff.mp (hname c hc)).2.1
  rw [readPair, writePair, List.takeWhile_append_of_pos hall, List.dropWhile_append_of_pos hall,
    List.takeWhile_cons_of_neg (by simp), List.dropWhile_cons_of_neg (by simp), List.append_nil,
    List.drop_succ_cons, List.drop_zero, formDecode_plain hname, formDecode_plain hvalue]

end Pairs

section Reading

theorem Plain.writePair_free (hname : Plain name) (hvalue : Plain value) (hc : isPlain c = false)
    (heq : c ≠ '=') : c ∉ writePair (name, value) := by
  simp [writePair, heq, hname.not_mem hc, hvalue.not_mem hc]

theorem writeQuery_free (hplain : ∀ pair ∈ pairs, Plain pair.1 ∧ Plain pair.2)
    (hc : isPlain c = false) (heq : c ≠ '=') (hamp : c ≠ '&') : c ∉ writeQuery pairs := by
  induction pairs with
  | nil => exact List.not_mem_nil
  | cons pair pairs ih =>
    have hpair : c ∉ writePair pair :=
      (hplain pair List.mem_cons_self).1.writePair_free (hplain pair List.mem_cons_self).2 hc heq
    have hrest : c ∉ writeQuery pairs := ih fun p hp => hplain p (List.mem_cons_of_mem _ hp)
    cases pairs with
    | nil =>
      rw [writeQuery, List.map_singleton, List.intercalate_singleton]
      exact hpair
    | cons next more =>
      have hcons : writeQuery (pair :: next :: more) =
          writePair pair ++ ['&'] ++ writeQuery (next :: more) := List.intercalate_cons_cons
      simp [hcons, hpair, hrest, hamp]

/-- A query that is written from plain pairs is read back as these pairs. -/
theorem parameters_write (hbase : ∀ c ∈ base, c ≠ '?' ∧ c ≠ '#') (hpairs : pairs ≠ [])
    (hplain : ∀ pair ∈ pairs, Plain pair.1 ∧ Plain pair.2) :
    parameters (base ++ '?' :: writeQuery pairs) =
      pairs.map fun pair => (utf8 pair.1, utf8 pair.2) := by
  have hquery : query (base ++ '?' :: writeQuery pairs) = writeQuery pairs := by
    have hstart : ∀ c ∈ base, (c != '?') = true := fun c hc => bne_iff_ne.mpr (hbase c hc).1
    have hend : ∀ c ∈ base ++ '?' :: writeQuery pairs, (c != '#') = true := by
      intro c hc
      rw [bne_iff_ne]
      rintro rfl
      rcases List.mem_append.mp hc with hc | hc
      · exact (hbase _ hc).2 rfl
      · rcases List.mem_cons.mp hc with hc | hc
        · exact absurd hc (by decide)
        · exact writeQuery_free hplain rfl (by decide) (by decide) hc
    rw [query, List.takeWhile_eq_self_iff.mpr hend, List.dropWhile_append_of_pos hstart,
      List.dropWhile_cons_of_neg (by simp), List.drop_succ_cons, List.drop_zero]
  have hsplit : (writeQuery pairs).splitOn '&' = pairs.map writePair := by
    refine List.splitOn_intercalate '&' ?_ (by simpa using hpairs)
    intro part hpart
    obtain ⟨pair, hpair, rfl⟩ := List.mem_map.mp hpart
    exact (hplain pair hpair).1.writePair_free (hplain pair hpair).2 rfl (by decide)
  rw [parameters, hquery, hsplit, List.map_map]
  refine List.map_congr_left fun pair hpair => ?_
  exact readPair_write (hplain pair hpair).1 (hplain pair hpair).2

end Reading

end UrlQueries
