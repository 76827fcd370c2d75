import Playground.PlaygroundStatements

/-! # The ClickHouse statement splitter

The loop of `split_clickhouse_statements` runs over the bytes of the script and collects each
byte as a character. -/
namespace PlaygroundClickhouse

open PlaygroundStatements
open PlaygroundTemplates
open QuotedScripts
open RustText (byteAsChar asBytes)

def splitBytes (current : List Char) (inSingle inDouble : Bool) : List UInt8 → List String
  | [] => flushStatement current
  | b :: rest =>
    let c := byteAsChar b
    if !inSingle && !inDouble && c == '-' && rest.head? == some '-'.toUInt8 then
      -- The inner loop: its first byte is the dash, which is no line end.
      let comment := b :: rest.takeWhile (· != '\n'.toUInt8)
      splitBytes (current ++ comment.map byteAsChar) inSingle inDouble
        (rest.dropWhile (· != '\n'.toUInt8))
    else if c == '\'' && !inDouble then splitBytes (current ++ [c]) (!inSingle) inDouble rest
    else if c == '"' && !inSingle then splitBytes (current ++ [c]) inSingle (!inDouble) rest
    else if c == ';' && !inSingle && !inDouble then
      flushStatement current ++ splitBytes [] inSingle inDouble rest
    else splitBytes (current ++ [c]) inSingle inDouble rest
  termination_by bytes => bytes.length
  decreasing_by
    · have := (List.dropWhile_sublist (· != '\n'.toUInt8) (l := rest)).length_le
      simp only [List.length_cons]
      omega
    all_goals simp

def splitClickhouseStatements (sql : String) : List String :=
  splitBytes [] false false (asBytes sql)

def sqlQuotes : Quotes where
  isQuote c := c == '\'' || c == '"'
  visible c h := by
    rw [Bool.or_eq_true, beq_iff_eq, beq_iff_eq] at h
    rcases h with rfl | rfl <;> rfl
  semicolon := rfl

/-- What the two flags of the loop say about the next byte. -/
def byteState (inSingle inDouble : Bool) : Mark :=
  if inSingle then .literal '\'' else if inDouble then .literal '"' else .code

theorem byteAsChar_eq {b : UInt8} {c : Char} (hc : byteAsChar c.toUInt8 = c) :
    byteAsChar b = c ↔ b = c.toUInt8 := by
  constructor
  · intro h
    exact RustText.byteAsChar_inj (h.trans hc.symm)
  · rintro rfl
    exact hc

theorem lineEnd_test (b : UInt8) : (byteAsChar b != '\n') = (b != '\n'.toUInt8) := by
  rw [Bool.eq_iff_iff, bne_iff_ne, bne_iff_ne, ne_eq, ne_eq, byteAsChar_eq (by decide)]

theorem dash_ahead (rest : List UInt8) :
    (rest.map byteAsChar).head? = some '-' ↔ rest.head? = some '-'.toUInt8 := by
  cases rest with
  | nil => simp
  | cons b rest => simp [byteAsChar_eq (c := '-') (by decide)]

theorem pieces_bytes_line (current : List Char) (rest : List UInt8) :
    pieces sqlQuotes current .comment (rest.map byteAsChar) =
      pieces sqlQuotes (current ++ (rest.takeWhile (· != '\n'.toUInt8)).map byteAsChar) .code
        ((rest.dropWhile (· != '\n'.toUInt8)).map byteAsChar) := by
  have htest : (fun b => (byteAsChar b != '\n')) = fun b => b != '\n'.toUInt8 :=
    funext lineEnd_test
  rw [pieces_line, List.takeWhile_map, List.dropWhile_map]
  simp only [Function.comp_def, htest]

/-- The loop collects the statements of the reference scan of its bytes, read as characters. At
most one flag is set. -/
theorem splitBytes_eq {current : List Char} {inSingle inDouble : Bool} {bytes : List UInt8}
    (h : inSingle = true → inDouble = false) :
    splitBytes current inSingle inDouble bytes =
      (pieces sqlQuotes current (byteState inSingle inDouble) (bytes.map byteAsChar)).map
        String.ofList := by
  fun_induction splitBytes current inSingle inDouble bytes with
  | case1 current => rw [List.map_nil, pieces_nil, flushStatement_eq]
  | case2 current inSingle inDouble b rest c hopen comment ih =>
    simp only [Bool.and_eq_true, Bool.not_eq_true', beq_iff_eq] at hopen
    obtain ⟨⟨⟨rfl, rfl⟩, hdash⟩, hahead⟩ := hopen
    have hstate : stateAfter sqlQuotes .code c (rest.map byteAsChar).head? = .comment := by
      rw [(dash_ahead rest).mpr hahead, hdash]
      rfl
    change _ = (pieces sqlQuotes current .code (c :: rest.map byteAsChar)).map String.ofList
    rw [ih h, pieces_cons sqlQuotes (by simp [hdash]), hstate, pieces_bytes_line]
    simp [comment, c, byteState]
  | case3 current inSingle inDouble b rest c hopen hquote ih =>
    simp only [Bool.and_eq_true, Bool.not_eq_true', beq_iff_eq] at hquote
    obtain ⟨hc, rfl⟩ := hquote
    rw [ih (by simp), List.map_cons, show byteAsChar b = c from rfl, hc]
    cases inSingle <;> simp [byteState, pieces_open, pieces_close, sqlQuotes]
  | case4 current inSingle inDouble b rest c hopen hsingle hquote ih =>
    simp only [Bool.and_eq_true, Bool.not_eq_true', beq_iff_eq] at hquote
    obtain ⟨hc, rfl⟩ := hquote
    rw [ih (by simp), List.map_cons, show byteAsChar b = c from rfl, hc]
    cases inDouble <;> simp [byteState, pieces_open, pieces_close, sqlQuotes]
  | case5 current inSingle inDouble b rest c hopen hsingle hdouble hcut ih =>
    simp only [Bool.and_eq_true, Bool.not_eq_true', beq_iff_eq] at hcut
    obtain ⟨⟨hc, rfl⟩, rfl⟩ := hcut
    rw [ih (by simp), flushStatement_eq, ← List.map_append, List.map_cons,
      show byteAsChar b = c from rfl, hc]
    simp [byteState, pieces_cut, pieces_start]
  | case6 current inSingle inDouble b rest c hopen hsingle hdouble hcut ih =>
    rw [ih h, List.map_cons, show byteAsChar b = c from rfl]
    cases inSingle with
    | true =>
      have hdouble : inDouble = false := h rfl
      have hc : c ≠ '\'' := by simpa [hdouble] using hsingle
      simp [byteState, pieces_literal sqlQuotes current hc]
    | false =>
      have hc : c ≠ '"' := by simpa using hdouble
      cases inDouble with
      | true => simp [byteState, pieces_literal sqlQuotes current hc]
      | false =>
        have hquote : sqlQuotes.isQuote c = false := by
          have hsingle : c ≠ '\'' := by simpa using hsingle
          simp [sqlQuotes, hsingle, hc]
        have hcode : c ≠ ';' := by simpa using hcut
        have hdash : ¬(c = '-' ∧ (rest.map byteAsChar).head? = some '-') := by
          rw [dash_ahead]
          simpa using hopen
        simp [byteState, pieces_code sqlQuotes current hquote hcode hdash]

/-- The script as the loop reads it: each byte of its UTF-8 text taken for a character. -/
def bytesAsChars (sql : String) : List Char := (asBytes sql).map byteAsChar

theorem splitClickhouseStatements_eq (sql : String) :
    splitClickhouseStatements sql =
      (statements sqlQuotes (bytesAsChars sql)).map String.ofList := by
  rw [splitClickhouseStatements, splitBytes_eq (by simp), ← pieces_start]
  rfl

theorem bytesAsChars_eq (sql : String) :
    bytesAsChars sql =
      sql.toList.flatMap fun c => (String.utf8EncodeChar c).map byteAsChar := by
  rw [bytesAsChars, RustText.asBytes_eq, List.map_flatMap]

theorem bytesAsChars_ascii {sql : String} (h : RustText.isAscii sql.toList = true) :
    bytesAsChars sql = sql.toList := by
  rw [bytesAsChars_eq]
  have hascii : ∀ c ∈ sql.toList, c.toNat ≤ 127 := by
    simpa [RustText.isAscii] using h
  generalize sql.toList = text at hascii
  induction text with
  | nil => rfl
  | cons c rest ih =>
    rw [List.flatMap_cons, RustText.encode_ascii (hascii c (by simp)),
      ih fun d hd => hascii d (by simp [hd])]
    rfl

theorem splitters_agree {sql : String} (hascii : RustText.isAscii sql.toList = true)
    (hquote : '"' ∉ sql.toList) : splitClickhouseStatements sql = splitDsSqlStatements sql := by
  have hmarks : marks sqlQuotes .code sql.toList = marks singleQuotes .code sql.toList := by
    apply marks_congr
    intro c hc
    have hne : c ≠ '"' := fun h => hquote (h ▸ hc)
    simp [sqlQuotes, singleQuotes, hne]
  rw [splitClickhouseStatements_eq, splitDsSqlStatements_eq, bytesAsChars_ascii hascii]
  simp only [statements, segments, parts, hmarks]

theorem splitters_agree_quoted_semicolon :
    splitClickhouseStatements "SELECT 'a;''b'; -- c;\nSELECT 2" =
      splitDsSqlStatements "SELECT 'a;''b'; -- c;\nSELECT 2" :=
  splitters_agree (by decide) (by decide)

def leadChar (c : Char) : Char := byteAsChar ((String.utf8EncodeChar c).headD 0)

def isLead (c : Char) : Bool := 0xC2 ≤ c.toNat && c.toNat ≤ 0xF4

def isWide (c : Char) : Bool := 127 < c.toNat

theorem isLead_visible {c : Char} (h : isLead c = true) :
    RustText.isWhitespace c = false ∧ c ≠ ';' := by
  simp only [isLead, Bool.and_eq_true, decide_eq_true_eq] at h
  constructor
  · simp only [RustText.isWhitespace, Bool.or_eq_false_iff, Bool.and_eq_false_iff,
      decide_eq_false_iff_not, beq_eq_false_iff_ne]
    omega
  · rintro rfl
    exact absurd h (by decide)

theorem isLead_wide {c : Char} (h : isLead c = true) : isWide c = true := by
  simp only [isLead, Bool.and_eq_true, decide_eq_true_eq] at h
  simp only [isWide, decide_eq_true_eq]
  omega

theorem toNat_ofNat_byte {n : ℕ} (h : n < 256) : (byteAsChar (UInt8.ofNat n)).toNat = n := by
  rw [RustText.toNat_byteAsChar, UInt8.toNat_ofNat', Nat.mod_eq_of_lt h]

theorem filter_encode_wide {c : Char} (h : isWide c = true) :
    ((String.utf8EncodeChar c).map byteAsChar).filter isLead = [leadChar c] := by
  have hwide : 127 < c.val.toNat := by simpa [isWide] using h
  have hmax : c.val.toNat < 0x110000 := by
    rcases c.valid with hc | hc <;> omega
  have hlead : ∀ n, 0xC2 ≤ n → n ≤ 0xF4 → isLead (byteAsChar (UInt8.ofNat n)) = true := by
    intro n hlow hhigh
    simp [isLead, toNat_ofNat_byte (show n < 256 by omega), hlow, hhigh]
  have htail : ∀ n, isLead (byteAsChar (UInt8.ofNat (n % 64 + 128))) = false := by
    intro n
    simp only [isLead, toNat_ofNat_byte (show n % 64 + 128 < 256 by omega),
      Bool.and_eq_false_iff, decide_eq_false_iff_not]
    omega
  simp only [leadChar, String.utf8EncodeChar, if_neg (show ¬c.val.toNat ≤ 0x7f by omega)]
  by_cases h2 : c.val.toNat ≤ 0x7ff
  · have hfirst := hlead (c.val.toNat / 64 % 0x20 + 0xc0) (by omega) (by omega)
    simp only [if_pos h2, List.map_cons, List.map_nil, List.headD_cons, List.filter_cons, hfirst,
      htail, if_true, Bool.false_eq_true, if_false, List.filter_nil]
  by_cases h3 : c.val.toNat ≤ 0xffff
  · have hfirst := hlead (c.val.toNat / 4096 % 0x10 + 0xe0) (by omega) (by omega)
    simp only [if_neg h2, if_pos h3, List.map_cons, List.map_nil, List.headD_cons,
      List.filter_cons, hfirst, htail, if_true, Bool.false_eq_true, if_false, List.filter_nil]
  · have hfirst := hlead (c.val.toNat / 262144 % 0x08 + 0xf0) (by omega) (by omega)
    simp only [if_neg h2, if_neg h3, List.map_cons, List.map_nil, List.headD_cons,
      List.filter_cons, hfirst, htail, if_true, Bool.false_eq_true, if_false, List.filter_nil]

theorem filter_encode_ascii {c : Char} (h : isWide c = false) :
    ((String.utf8EncodeChar c).map byteAsChar).filter isLead = [] := by
  have hascii : c.toNat ≤ 127 := by simpa [isWide] using h
  rw [RustText.encode_ascii hascii]
  have hlead : isLead c = false := by
    simp only [isLead, Bool.and_eq_false_iff, decide_eq_false_iff_not]
    omega
  simp [hlead]

/-- Every character outside ASCII leaves one lead byte in what the loop reads. -/
theorem filter_bytesAsChars (sql : String) :
    (bytesAsChars sql).filter isLead = (sql.toList.filter isWide).map leadChar := by
  rw [bytesAsChars_eq]
  induction sql.toList with
  | nil => rfl
  | cons c rest ih =>
    rw [List.flatMap_cons, List.filter_append, ih]
    cases hc : isWide c with
    | true => simp [hc, filter_encode_wide hc]
    | false => simp [hc, filter_encode_ascii hc]

/-- The one character whose lead byte is taken for the character itself. -/
theorem leadChar_fixed {c : Char} (h : isLead c = true) (hfixed : leadChar c = c) : c = 'Ã' := by
  simp only [isLead, Bool.and_eq_true, decide_eq_true_eq] at h
  have hlow : 0xC2 ≤ c.val.toNat := h.1
  have hhigh : c.val.toNat ≤ 0xF4 := h.2
  have hnat : c.toNat = c.val.toNat / 64 % 0x20 + 0xc0 := by
    conv_lhs => rw [← hfixed]
    rw [leadChar, String.utf8EncodeChar, if_neg (by omega), if_pos (by omega), List.headD_cons,
      toNat_ofNat_byte (by omega)]
  have hval : c.toNat = 0xC3 := by
    rw [hnat]
    omega
  rw [← Char.ofNat_toNat c, hval]

theorem ascii_of_same {sql : String}
    (h : statements sqlQuotes (bytesAsChars sql) = statements sqlQuotes sql.toList) :
    RustText.isAscii sql.toList = true := by
  have hsame : ∀ p : Char → Bool, (∀ c, p c = true → RustText.isWhitespace c = false ∧ c ≠ ';') →
      (bytesAsChars sql).filter p = sql.toList.filter p := by
    intro p hp
    rw [← filter_statements (q := sqlQuotes) hp, h, filter_statements hp]
  -- There are as many lead bytes as wide characters, so each of these looks like a lead byte.
  have hleads : (sql.toList.filter isWide).map leadChar = sql.toList.filter isLead := by
    rw [← filter_bytesAsChars, hsame isLead fun c => isLead_visible]
  have hsub : sql.toList.filter isLead = (sql.toList.filter isWide).filter isLead := by
    rw [List.filter_filter]
    apply List.filter_congr
    intro c _
    cases hc : isLead c with
    | false => rfl
    | true => simp [isLead_wide hc]
  have hall : ∀ c ∈ sql.toList.filter isWide, isLead c = true := by
    have hlen := congrArg List.length hleads
    rw [List.length_map, hsub] at hlen
    exact List.length_filter_eq_length_iff.mp hlen.symm
  have hfixed : ∀ c ∈ sql.toList.filter isWide, c = 'Ã' := by
    intro c hc
    rw [hsub, List.filter_eq_self.mpr hall] at hleads
    have hmap : (sql.toList.filter isWide).map leadChar =
        (sql.toList.filter isWide).map id := by
      rw [hleads, List.map_id]
    exact leadChar_fixed (hall c hc) (List.map_inj_left.mp hmap c hc)
  -- But the second byte of that character is one the script does not have.
  by_contra hascii
  simp only [RustText.isAscii, Bool.not_eq_true, List.all_eq_false, decide_eq_true_eq,
    not_le] at hascii
  obtain ⟨c, hc, hwide⟩ := hascii
  have htilde : c = 'Ã' := hfixed c (List.mem_filter.mpr ⟨hc, by simpa [isWide] using hwide⟩)
  have hread : '\u0083' ∈ (bytesAsChars sql).filter (· == '\u0083') := by
    rw [List.mem_filter, bytesAsChars_eq, List.mem_flatMap]
    refine ⟨⟨c, hc, ?_⟩, rfl⟩
    rw [htilde]
    decide
  rw [hsame _ (by rintro d hd; rw [beq_iff_eq] at hd; subst hd; decide)] at hread
  have htext : '\u0083' ∈ sql.toList.filter isWide :=
    List.mem_filter.mpr ⟨(List.mem_filter.mp hread).1, rfl⟩
  exact absurd (hfixed _ htext) (by decide)

/-- The trimmed segments of the script, each a slice of it. -/
def LosesNothing (sql : String) (stmts : List String) : Prop :=
  stmts = (statements sqlQuotes sql.toList).map String.ofList ∧
    ∀ stmt ∈ stmts, stmt.toList <:+: sql.toList

theorem split_loses_nothing_iff (sql : String) :
    LosesNothing sql (splitClickhouseStatements sql) ↔ RustText.isAscii sql.toList = true := by
  rw [LosesNothing, splitClickhouseStatements_eq]
  constructor
  · rintro ⟨hsame, -⟩
    exact ascii_of_same (List.map_injective_iff.mpr (fun _ _ => String.ofList_injective) hsame)
  · intro hascii
    rw [bytesAsChars_ascii hascii]
    refine ⟨rfl, fun stmt hstmt => ?_⟩
    obtain ⟨text, htext, rfl⟩ := List.mem_map.mp hstmt
    rw [String.toList_ofList]
    exact statement_slice htext

theorem split_mangles_accent :
    splitClickhouseStatements "SELECT 'é'" = ["SELECT 'Ã©'"] ∧
      ¬LosesNothing "SELECT 'é'" (splitClickhouseStatements "SELECT 'é'") := by
  have hsplit : splitClickhouseStatements "SELECT 'é'" = ["SELECT 'Ã©'"] := by
    rw [splitClickhouseStatements_eq, bytesAsChars_eq]
    decide
  refine ⟨hsplit, fun h => ?_⟩
  rw [hsplit] at h
  exact absurd h.1 (by decide)

end PlaygroundClickhouse
