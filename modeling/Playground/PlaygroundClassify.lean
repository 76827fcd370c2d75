import Playground.PlaygroundCleanup
import Playground.QuotedWords

/-! # Statement classification

`classify_statement` looks for keywords at the start of the upper-cased text and reads the name
from the text itself. -/
namespace PlaygroundClassify

open InteractionPrograms
open PlaygroundApiClient
open PlaygroundCleanup
open PlaygroundNames
open PlaygroundOperations
open QuotedWords
open RustText

/-- What is left of a statement without comments and trailing semicolons. -/
def statementText (sql : String) : List Char :=
  trim (trimEndMatches ';' (trim (stripSqlComments sql.toList)))

theorem classifyStatement_eq (sql : String) :
    classifyStatement sql = classifyTrimmed (statementText sql) := by
  unfold classifyStatement
  rfl

section Drops

/-- A drop statement for an accepted name makes one request, for the object of that name; other
names have other requests. -/
theorem drop_hits_object {n : String} (h : isSafeIdentifier n = true) (identity : Identity) :
    (execSql identity ("DROP SHUTTLE IF EXISTS " ++ n)).Performs (fun _ _ => True)
        [deleteShuttle identity n] ∧
      (execSql identity ("DROP CONNECTION IF EXISTS " ++ n)).Performs (fun _ _ => True)
        [deleteConnection identity n] ∧
      ∀ m other, m ≠ n → deleteShuttle other m ≠ deleteShuttle identity n ∧
        deleteConnection other m ≠ deleteConnection identity n := by
  refine ⟨?_, ?_, ?_⟩
  · rw [← dropShuttle_ops h]
    exact performs_execSql identity _
  · have hops : execSqlOps identity _ = _ := dropConnection_ops (startsVisible_safe h)
    rw [droppedName_safe h] at hops
    rw [← hops]
    exact performs_execSql identity _
  · intro m other hne
    constructor
    · intro heq
      simp only [deleteShuttle, Op.external.injEq, ExternalCall.api.injEq, ApiRequest.mk.injEq,
        String.append_right_inj] at heq
      exact hne heq.1.2.1
    · intro heq
      simp only [deleteConnection, Op.external.injEq, ExternalCall.api.injEq, ApiRequest.mk.injEq,
        String.append_right_inj] at heq
      exact hne heq.1.2.1

theorem drop_hits_if :
    (execSql sweeperIdentity ("DROP SHUTTLE IF EXISTS " ++ "IF")).Performs (fun _ _ => True)
      [deleteShuttle sweeperIdentity "IF"] :=
  (drop_hits_object (n := "IF") (by decide) sweeperIdentity).1

end Drops

section Keywords

def Keyword (kw : String) (text rest : List Char) : Prop :=
  ∃ head, text = head ++ rest ∧ toAsciiUppercase head = kw.toList

def Names (rest : List Char) (n : String) : Prop :=
  ∃ blanks tail, rest = blanks ++ n.toList ++ tail ∧ (∀ c ∈ blanks, isWhitespace c = true) ∧
    n.toList ≠ [] ∧ (∀ c ∈ n.toList, endsName c = false) ∧ ∀ c ∈ tail.head?, endsName c = true

/-- The text without an ` IF EXISTS` in front. -/
def AfterIfExists (rest named : List Char) : Prop :=
  Keyword " IF EXISTS" rest named ∨ named = rest ∧ ∀ r, ¬ Keyword " IF EXISTS" rest r

/-- What a statement text says, by the keywords it starts with. -/
def Reads (text : List Char) : Dispatch → Prop
  | .createConnection => ∃ rest, Keyword "CREATE CONNECTION" text rest
  | .createShuttle => ∃ rest, Keyword "CREATE SHUTTLE" text rest
  | .resumeShuttle n => ∃ rest, Keyword "RESUME SHUTTLE" text rest ∧ Names rest n
  | .pauseShuttle n => ∃ rest, Keyword "PAUSE SHUTTLE" text rest ∧ Names rest n
  | .dropShuttle n => ∃ rest named, Keyword "DROP SHUTTLE" text rest ∧
      AfterIfExists rest named ∧ Names named n
  | .dropConnection n => ∃ rest named, Keyword "DROP CONNECTION" text rest ∧
      AfterIfExists rest named ∧ Names named n

variable {kw : String} {text rest : List Char}

theorem keyword_isPrefix (h : Keyword kw text rest) : kw.toList <+: toAsciiUppercase text := by
  obtain ⟨head, rfl, hhead⟩ := h
  rw [toAsciiUppercase_append, hhead]
  exact List.prefix_append _ _

theorem keyword_drop (h : Keyword kw text rest) : rest = text.drop kw.toList.length := by
  obtain ⟨head, rfl, hhead⟩ := h
  have hlen : kw.toList.length = head.length := by
    rw [← hhead, toAsciiUppercase, List.length_map]
  rw [hlen, List.drop_left]

theorem exists_keyword (h : kw.toList.isPrefixOf (toAsciiUppercase text) = true) :
    Keyword kw text (text.drop kw.toList.length) := by
  obtain ⟨tail, htail⟩ := List.isPrefixOf_iff_prefix.mp h
  refine ⟨text.take kw.toList.length, (List.take_append_drop _ _).symm, ?_⟩
  have htake := congrArg (List.take kw.toList.length) htail
  rw [List.take_left] at htake
  rw [toAsciiUppercase, List.map_take]
  exact htake.symm

theorem stripPrefix_some (h : Keyword kw text rest) :
    stripPrefix kw.toList (toAsciiUppercase text) = some (toAsciiUppercase rest) := by
  rw [stripPrefix, if_pos (List.isPrefixOf_iff_prefix.mpr (keyword_isPrefix h)), keyword_drop h]
  simp [toAsciiUppercase, List.map_drop]

theorem stripPrefix_none (h : ∀ rest, ¬ Keyword kw text rest) :
    stripPrefix kw.toList (toAsciiUppercase text) = none := by
  rw [stripPrefix, if_neg]
  intro hkeys
  exact h _ (exists_keyword hkeys)

theorem keyword_unique {kw' : String} {rest' : List Char} (h : Keyword kw text rest)
    (h' : Keyword kw' text rest') (hne : ¬ kw.toList <+: kw'.toList)
    (hne' : ¬ kw'.toList <+: kw.toList) : False := by
  rcases List.prefix_or_prefix_of_prefix (keyword_isPrefix h) (keyword_isPrefix h') with hp | hp
  · exact hne hp
  · exact hne' hp

end Keywords

section Scan

variable {c : Char} {rest : List Char}

theorem toUpper_blank (h : isWhitespace c = true) : c.toUpper = c := by
  unfold Char.toUpper
  split
  · rename_i hc
    obtain ⟨hlow, hup⟩ := hc
    have ha : 'a'.val.toNat = 97 := rfl
    have hz : 'z'.val.toNat = 122 := rfl
    simp only [UInt32.le_iff_toNat_le] at hlow hup
    simp only [isWhitespace, Char.toNat, Bool.or_eq_true, Bool.and_eq_true, decide_eq_true_eq,
      beq_iff_eq] at h
    omega
  · rfl

theorem isWhitespace_toUpper (c : Char) : isWhitespace c.toUpper = isWhitespace c := by
  cases h : isWhitespace c with
  | false => exact toUpper_whitespace h
  | true => rw [toUpper_blank h, h]

theorem trimStart_upper (s : List Char) :
    trimStart (toAsciiUppercase s) = toAsciiUppercase (trimStart s) := by
  have htest : isWhitespace ∘ Char.toUpper = isWhitespace := funext isWhitespace_toUpper
  rw [toAsciiUppercase, trimStart, List.dropWhile_map, htest]
  rfl

theorem trimStart_split (s : List Char) :
    ∃ blanks, s = blanks ++ trimStart s ∧ ∀ c ∈ blanks, isWhitespace c = true :=
  ⟨s.takeWhile isWhitespace, List.takeWhile_append_dropWhile.symm,
    fun _ => List.mem_takeWhile_imp⟩

def nameOf (rest : List Char) : Option String :=
  let name := nameHead (trimStart rest)
  if name.isEmpty then none else some (String.ofList name)

/-- The offset into the original text is where the name starts. -/
theorem extractName_rest (head rest : List Char) :
    extractName (toAsciiUppercase rest) (head ++ rest) = nameOf rest := by
  obtain ⟨blanks, hrest, -⟩ := trimStart_split rest
  have hlen : String.utf8Len (head ++ rest) -
      String.utf8Len (trimStart (toAsciiUppercase rest)) = String.utf8Len (head ++ blanks) := by
    conv_lhs => rw [hrest]
    rw [← hrest, trimStart_upper, utf8Len_toAsciiUppercase, String.utf8Len_append,
      String.utf8Len_append]
    have hsum : String.utf8Len rest = String.utf8Len blanks + String.utf8Len (trimStart rest) := by
      rw [← String.utf8Len_append, ← hrest]
    omega
  have hslice : sliceFrom (head ++ rest) (String.utf8Len (head ++ blanks)) =
      some (trimStart rest) := by
    conv_lhs => rw [hrest]
    rw [← List.append_assoc, sliceFrom_append]
  have htrim := trim_nameHead (trimStart rest)
  unfold nameHead at htrim
  simp only [extractName, hlen, hslice, Option.getD_some, htrim]
  rfl

theorem nameOf_iff {n : String} : nameOf rest = some n ↔ Names rest n := by
  constructor
  · intro h
    obtain ⟨blanks, hrest, hblanks⟩ := trimStart_split rest
    simp only [nameOf] at h
    split at h
    · cases h
    · rename_i hne
      cases h
      refine ⟨blanks, (trimStart rest).dropWhile fun d => !endsName d, ?_, hblanks, ?_, ?_, ?_⟩
      · rw [String.toList_ofList, nameHead, List.append_assoc, List.takeWhile_append_dropWhile]
        exact hrest
      · rw [String.toList_ofList]
        simpa using hne
      · rw [String.toList_ofList]
        intro c hc
        simpa using List.mem_takeWhile_imp hc
      · intro c hc
        have hnot := List.head?_dropWhile_not (fun d => !endsName d) (trimStart rest)
        rw [Option.mem_def.mp hc] at hnot
        simpa using hnot
  · rintro ⟨blanks, tail, rfl, hblanks, hne, hname, htail⟩
    obtain ⟨c, cs, hcs⟩ := List.exists_cons_of_ne_nil hne
    have hc : endsName c = false := hname c (by simp [hcs])
    have htrim : trimStart (blanks ++ n.toList ++ tail) = n.toList ++ tail := by
      rw [List.append_assoc, trimStart, List.dropWhile_append_of_pos hblanks, hcs]
      exact trimStart_cons (endsName_false hc).1 _
    have hhead : nameHead (n.toList ++ tail) = n.toList := by
      rw [nameHead, List.takeWhile_append_of_pos fun d hd => by simp [hname d hd]]
      cases tail with
      | nil => simp
      | cons d tail =>
        have hd : endsName d = true := htail d (by simp)
        simp [hd]
    simp only [nameOf, htrim, hhead]
    simp [hne]

end Scan

section Phrases

variable {text rest named : List Char}

def namedPart (rest : List Char) : List Char :=
  if " IF EXISTS".toList.isPrefixOf (toAsciiUppercase rest) then
    rest.drop " IF EXISTS".toList.length
  else rest

theorem afterIfExists_iff : AfterIfExists rest named ↔ named = namedPart rest := by
  rw [namedPart]
  split
  · rename_i hkeys
    have hkeyword := exists_keyword hkeys
    constructor
    · rintro (hnamed | ⟨-, hnone⟩)
      · exact keyword_drop hnamed
      · exact absurd hkeyword (hnone _)
    · rintro rfl
      exact Or.inl hkeyword
  · rename_i hkeys
    have hnone : ∀ r, ¬ Keyword " IF EXISTS" rest r := by
      intro r hr
      exact hkeys (List.isPrefixOf_iff_prefix.mpr (keyword_isPrefix hr))
    constructor
    · rintro (hnamed | ⟨rfl, -⟩)
      · exact absurd hnamed (hnone _)
      · rfl
    · rintro rfl
      exact Or.inr ⟨rfl, hnone⟩

theorem extractName_named (head rest : List Char) :
    extractName ((stripPrefix " IF EXISTS".toList (toAsciiUppercase rest)).getD
      (toAsciiUppercase rest)) (head ++ rest) = nameOf (namedPart rest) := by
  rcases afterIfExists_iff.mpr (rfl : namedPart rest = namedPart rest) with hnamed | ⟨hself, hnone⟩
  · obtain ⟨phrase, hrest, -⟩ := id hnamed
    have hsplit : head ++ rest = (head ++ phrase) ++ namedPart rest := by
      rw [List.append_assoc, ← hrest]
    rw [stripPrefix_some hnamed, Option.getD_some, hsplit, extractName_rest]
  · rw [stripPrefix_none hnone, Option.getD_none, extractName_rest, hself]

inductive Phrase where
  | createConnection
  | createShuttle
  | resumeShuttle
  | pauseShuttle
  | dropShuttle
  | dropConnection
  deriving DecidableEq

def Phrase.keywords : Phrase → String
  | .createConnection => "CREATE CONNECTION"
  | .createShuttle => "CREATE SHUTTLE"
  | .resumeShuttle => "RESUME SHUTTLE"
  | .pauseShuttle => "PAUSE SHUTTLE"
  | .dropShuttle => "DROP SHUTTLE"
  | .dropConnection => "DROP CONNECTION"

def Phrase.read (rest : List Char) : Phrase → Option Dispatch
  | .createConnection => some .createConnection
  | .createShuttle => some .createShuttle
  | .resumeShuttle => (nameOf rest).map .resumeShuttle
  | .pauseShuttle => (nameOf rest).map .pauseShuttle
  | .dropShuttle => (nameOf (namedPart rest)).map .dropShuttle
  | .dropConnection => (nameOf (namedPart rest)).map .dropConnection

theorem phrase_unique {p p' : Phrase} {rest' : List Char} (h : Keyword p.keywords text rest)
    (h' : Keyword p'.keywords text rest') : p = p' := by
  by_contra hne
  refine keyword_unique h h' ?_ ?_
  · revert hne
    cases p <;> cases p' <;> decide
  · revert hne
    cases p <;> cases p' <;> decide

theorem stripPrefix_phrase {p : Phrase} (h : Keyword p.keywords text rest) (p' : Phrase) :
    stripPrefix p'.keywords.toList (toAsciiUppercase text) =
      if p' = p then some (toAsciiUppercase rest) else none := by
  split
  · rename_i heq
    subst heq
    exact stripPrefix_some h
  · rename_i hne
    refine stripPrefix_none ?_
    intro r hr
    exact hne (phrase_unique hr h)

theorem isPrefixOf_phrase {p : Phrase} (h : Keyword p.keywords text rest) (p' : Phrase) :
    p'.keywords.toList.isPrefixOf (toAsciiUppercase text) = decide (p' = p) := by
  have hstrip := stripPrefix_phrase h p'
  rw [stripPrefix] at hstrip
  by_cases heq : p' = p
  · rw [if_pos heq] at hstrip
    rw [decide_eq_true heq]
    by_contra hkeys
    rw [if_neg hkeys] at hstrip
    cases hstrip
  · rw [if_neg heq] at hstrip
    rw [decide_eq_false heq, ← Bool.not_eq_true]
    intro hkeys
    rw [if_pos hkeys] at hstrip
    cases hstrip

theorem classifyTrimmed_tests (text : List Char) : classifyTrimmed text =
    if Phrase.createConnection.keywords.toList.isPrefixOf (toAsciiUppercase text) then
      some .createConnection
    else if Phrase.createShuttle.keywords.toList.isPrefixOf (toAsciiUppercase text) then
      some .createShuttle
    else
      match stripPrefix Phrase.resumeShuttle.keywords.toList (toAsciiUppercase text) with
      | some rest => (extractName rest text).map .resumeShuttle
      | none =>
        match stripPrefix Phrase.pauseShuttle.keywords.toList (toAsciiUppercase text) with
        | some rest => (extractName rest text).map .pauseShuttle
        | none =>
          match stripPrefix Phrase.dropShuttle.keywords.toList (toAsciiUppercase text) with
          | some rest =>
            (extractName ((stripPrefix " IF EXISTS".toList rest).getD rest) text).map .dropShuttle
          | none =>
            match stripPrefix Phrase.dropConnection.keywords.toList (toAsciiUppercase text) with
            | some rest =>
              (extractName ((stripPrefix " IF EXISTS".toList rest).getD rest) text).map
                .dropConnection
            | none => none := rfl

theorem classifyTrimmed_phrase {p : Phrase} (h : Keyword p.keywords text rest) :
    classifyTrimmed text = p.read rest := by
  obtain ⟨head, htext, -⟩ := id h
  have hname : extractName (toAsciiUppercase rest) text = nameOf rest := by
    rw [htext, extractName_rest]
  have hnamed : extractName ((stripPrefix " IF EXISTS".toList (toAsciiUppercase rest)).getD
      (toAsciiUppercase rest)) text = nameOf (namedPart rest) := by
    rw [htext, extractName_named]
  rw [classifyTrimmed_tests]
  simp only [isPrefixOf_phrase h, stripPrefix_phrase h]
  cases p with
  | createConnection => rfl
  | createShuttle => rfl
  | resumeShuttle => exact congrArg (Option.map Dispatch.resumeShuttle) hname
  | pauseShuttle => exact congrArg (Option.map Dispatch.pauseShuttle) hname
  | dropShuttle => exact congrArg (Option.map Dispatch.dropShuttle) hnamed
  | dropConnection => exact congrArg (Option.map Dispatch.dropConnection) hnamed

theorem classifyTrimmed_none (h : ∀ (p : Phrase) rest, ¬ Keyword p.keywords text rest) :
    classifyTrimmed text = none := by
  have hstrip : ∀ p : Phrase,
      stripPrefix p.keywords.toList (toAsciiUppercase text) = none :=
    fun p => stripPrefix_none (h p)
  have hkeys : ∀ p : Phrase, p.keywords.toList.isPrefixOf (toAsciiUppercase text) = false := by
    intro p
    rw [← Bool.not_eq_true]
    intro hp
    exact h p _ (exists_keyword hp)
  rw [classifyTrimmed_tests]
  simp only [hkeys, hstrip]
  rfl

theorem classifyTrimmed_iff {d : Dispatch} :
    classifyTrimmed text = some d ↔
      ∃ (p : Phrase) (rest : List Char), Keyword p.keywords text rest ∧ p.read rest = some d := by
  constructor
  · intro hd
    by_cases h : ∃ (p : Phrase) (rest : List Char), Keyword p.keywords text rest
    · obtain ⟨p, rest, hkeyword⟩ := h
      rw [classifyTrimmed_phrase hkeyword] at hd
      exact ⟨p, rest, hkeyword, hd⟩
    · rw [classifyTrimmed_none fun p rest hkeyword => h ⟨p, rest, hkeyword⟩] at hd
      cases hd
  · rintro ⟨p, rest, hkeyword, hread⟩
    rw [classifyTrimmed_phrase hkeyword, hread]

theorem named_iff {n : String} :
    (∃ named, AfterIfExists rest named ∧ Names named n) ↔ nameOf (namedPart rest) = some n := by
  simp only [afterIfExists_iff, exists_eq_left, nameOf_iff]

theorem reads_iff {d : Dispatch} : Reads text d ↔
    ∃ (p : Phrase) (rest : List Char), Keyword p.keywords text rest ∧ p.read rest = some d := by
  constructor
  · intro h
    cases d with
    | createConnection => exact ⟨.createConnection, h.choose, h.choose_spec, rfl⟩
    | createShuttle => exact ⟨.createShuttle, h.choose, h.choose_spec, rfl⟩
    | resumeShuttle n =>
      obtain ⟨rest, hkeyword, hname⟩ := h
      exact ⟨.resumeShuttle, rest, hkeyword, by rw [Phrase.read, nameOf_iff.mpr hname]; rfl⟩
    | pauseShuttle n =>
      obtain ⟨rest, hkeyword, hname⟩ := h
      exact ⟨.pauseShuttle, rest, hkeyword, by rw [Phrase.read, nameOf_iff.mpr hname]; rfl⟩
    | dropShuttle n =>
      obtain ⟨rest, named, hkeyword, hname⟩ := h
      exact ⟨.dropShuttle, rest, hkeyword, by rw [Phrase.read, named_iff.mp ⟨named, hname⟩]; rfl⟩
    | dropConnection n =>
      obtain ⟨rest, named, hkeyword, hname⟩ := h
      exact ⟨.dropConnection, rest, hkeyword,
        by rw [Phrase.read, named_iff.mp ⟨named, hname⟩]; rfl⟩
  · rintro ⟨p, rest, hkeyword, hread⟩
    cases p with
    | createConnection =>
      cases hread
      exact ⟨rest, hkeyword⟩
    | createShuttle =>
      cases hread
      exact ⟨rest, hkeyword⟩
    | resumeShuttle =>
      obtain ⟨n, hname, rfl⟩ := Option.map_eq_some_iff.mp hread
      exact ⟨rest, hkeyword, nameOf_iff.mp hname⟩
    | pauseShuttle =>
      obtain ⟨n, hname, rfl⟩ := Option.map_eq_some_iff.mp hread
      exact ⟨rest, hkeyword, nameOf_iff.mp hname⟩
    | dropShuttle =>
      obtain ⟨n, hname, rfl⟩ := Option.map_eq_some_iff.mp hread
      obtain ⟨named, hnamed⟩ := named_iff.mpr hname
      exact ⟨rest, named, hkeyword, hnamed⟩
    | dropConnection =>
      obtain ⟨n, hname, rfl⟩ := Option.map_eq_some_iff.mp hread
      obtain ⟨named, hnamed⟩ := named_iff.mpr hname
      exact ⟨rest, named, hkeyword, hnamed⟩

end Phrases

section Tokens

/-- Words are separated by white space and nothing else. -/
def spaceRules : Rules Char where
  isQuote _ := false
  isBlank := isWhitespace
  visible _ h := by cases h

def tokens (text : List Char) : List (List Char) := words spaceRules text

def isWord (kw : String) (w : List Char) : Bool := toAsciiUppercase w == kw.toList

/-- The name in the next token, up to its first comma, semicolon or opening parenthesis. -/
def tokenName : List (List Char) → Option String
  | [] => none
  | w :: _ =>
    let name := w.takeWhile fun c => !(c == ',' || c == ';' || c == '(')
    if name.isEmpty then none else some (String.ofList name)

def skipIfExists : List (List Char) → List (List Char)
  | first :: second :: rest =>
    if isWord "IF" first && isWord "EXISTS" second then rest else first :: second :: rest
  | few => few

/-- What a statement says by its leading tokens. -/
def readTokens : List (List Char) → Option Dispatch
  | first :: second :: rest =>
    if isWord "CREATE" first && isWord "CONNECTION" second then some .createConnection
    else if isWord "CREATE" first && isWord "SHUTTLE" second then some .createShuttle
    else if isWord "RESUME" first && isWord "SHUTTLE" second then
      (tokenName rest).map .resumeShuttle
    else if isWord "PAUSE" first && isWord "SHUTTLE" second then
      (tokenName rest).map .pauseShuttle
    else if isWord "DROP" first && isWord "SHUTTLE" second then
      (tokenName (skipIfExists rest)).map .dropShuttle
    else if isWord "DROP" first && isWord "CONNECTION" second then
      (tokenName (skipIfExists rest)).map .dropConnection
    else none
  | _ => none

def Word (w : List Char) : Prop := w ≠ [] ∧ ∀ c ∈ w, isWhitespace c = false

/-- ` IF EXISTS` is written with single spaces, or the words do not follow. -/
def IfExistsSpaced (rest : List Char) : Prop :=
  (∃ first second more, rest = ' ' :: (first ++ ' ' :: (second ++ more)) ∧
      isWord "IF" first = true ∧ isWord "EXISTS" second = true ∧ AtWordEnd spaceRules more) ∨
    (∀ more, ¬ Keyword " IF EXISTS" rest more) ∧ skipIfExists (tokens rest) = tokens rest

/-- The keywords of the statement are separated by single spaces and end where a word ends. -/
structure SingleSpaced (text first second rest : List Char) : Prop where
  split : text = first ++ ' ' :: (second ++ rest)
  firstWord : Word first
  secondWord : Word second
  wordEnd : AtWordEnd spaceRules rest
  whole : ∀ kw ∈ ["CONNECTION", "SHUTTLE"],
    kw.toList <+: toAsciiUppercase second → toAsciiUppercase second = kw.toList
  ifExists : IfExistsSpaced rest

variable {text first second rest w : List Char}

theorem word_of_all (hne : w ≠ []) (h : w.all (fun c => !isWhitespace c) = true) : Word w := by
  refine ⟨hne, ?_⟩
  intro c hc
  simpa using List.all_eq_true.mp h c hc

theorem tokens_word (hw : Word w) (hend : AtWordEnd spaceRules rest) :
    tokens (w ++ rest) = w :: tokens rest :=
  words_plain hw.1 (fun c hc => ⟨rfl, hw.2 c hc⟩) hend

theorem tokens_space (text : List Char) : tokens (' ' :: text) = tokens text :=
  words_blank (r := spaceRules) (b := ' ') (by decide) text

theorem space_wordEnd (text : List Char) : AtWordEnd spaceRules (' ' :: text) := by
  intro c hc
  cases hc
  decide

theorem SingleSpaced.tokens (h : SingleSpaced text first second rest) :
    tokens text = first :: second :: tokens rest := by
  rw [h.split, tokens_word h.firstWord (space_wordEnd _), tokens_space,
    tokens_word h.secondWord h.wordEnd]

theorem word_of_upper {kw : String} (hkw : Word kw.toList) (h : isWord kw w = true) : Word w := by
  have hupper : toAsciiUppercase w = kw.toList := by simpa [isWord] using h
  obtain ⟨hne, hvisible⟩ := hkw
  constructor
  · rintro rfl
    exact hne hupper.symm
  · intro c hc
    rw [← isWhitespace_toUpper]
    apply hvisible
    rw [← hupper]
    exact List.mem_map_of_mem hc

theorem nameHead_word (hw : ∀ c ∈ w, isWhitespace c = false) (hend : AtWordEnd spaceRules rest) :
    nameHead (w ++ rest) = w.takeWhile fun c => !(c == ',' || c == ';' || c == '(') := by
  have hhead : nameHead (w ++ rest) = nameHead w := by
    cases rest with
    | nil => rw [List.append_nil]
    | cons c rest =>
      have hc : isWhitespace c = true := hend c rfl
      exact nameHead_append (by simp [endsName, hc]) w rest
  rw [hhead]
  clear hhead hend
  induction w with
  | nil => rfl
  | cons c w ih =>
    have hc := hw c List.mem_cons_self
    have hrest := ih fun d hd => hw d (List.mem_cons_of_mem _ hd)
    have htest : endsName c = (c == ',' || c == ';' || c == '(') := by
      rw [endsName, hc]
      cases c == ';' <;> cases c == ',' <;> rfl
    rw [nameHead, List.takeWhile_cons, List.takeWhile_cons, htest, ← hrest]
    rfl

theorem tokenName_tokens (rest : List Char) : tokenName (tokens rest) = nameOf rest := by
  obtain ⟨blanks, hrest, hblanks⟩ := trimStart_split rest
  have hskip : tokens rest = tokens (trimStart rest) := by
    conv_lhs => rw [hrest]
    exact words_blank_append hblanks _
  rw [hskip, nameOf]
  cases htrim : trimStart rest with
  | nil => rfl
  | cons c cs =>
    have hc : isWhitespace c = false := by
      have hhead := List.head?_dropWhile_not isWhitespace rest
      rw [show rest.dropWhile isWhitespace = c :: cs from htrim] at hhead
      exact hhead
    have hend : AtWordEnd spaceRules ((c :: cs).dropWhile fun d => !isWhitespace d) := by
      intro d hd
      have hnot := List.head?_dropWhile_not (fun d => !isWhitespace d) (c :: cs)
      rw [Option.mem_def.mp hd] at hnot
      simpa [spaceRules] using hnot
    have hword : Word ((c :: cs).takeWhile fun d => !isWhitespace d) := by
      refine ⟨by simp [hc], ?_⟩
      intro d hd
      simpa using List.mem_takeWhile_imp hd
    rw [← List.takeWhile_append_dropWhile (p := fun d => !isWhitespace d) (l := c :: cs),
      tokens_word hword hend, tokenName, nameHead_word hword.2 hend]

theorem tokenName_named (h : IfExistsSpaced rest) :
    tokenName (skipIfExists (tokens rest)) = nameOf (namedPart rest) := by
  rcases h with ⟨first, second, more, rfl, hfirst, hsecond, hend⟩ | ⟨hnone, hskip⟩
  · have hif : Word first := word_of_upper (word_of_all (by decide) (by decide)) hfirst
    have hexists : Word second := word_of_upper (word_of_all (by decide) (by decide)) hsecond
    have hkeyword : Keyword " IF EXISTS" (' ' :: (first ++ ' ' :: (second ++ more))) more := by
      refine ⟨' ' :: (first ++ ' ' :: second), by simp, ?_⟩
      rw [isWord, beq_iff_eq] at hfirst hsecond
      simp only [toAsciiUppercase, List.map_cons, List.map_append] at hfirst hsecond ⊢
      rw [hfirst, hsecond]
      decide
    rw [tokens_space, tokens_word hif (space_wordEnd _), tokens_space, tokens_word hexists hend,
      skipIfExists, if_pos (by simp [hfirst, hsecond]), tokenName_tokens,
      ← afterIfExists_iff.mp (Or.inl hkeyword)]
  · rw [hskip, tokenName_tokens, ← afterIfExists_iff.mp (Or.inr ⟨rfl, hnone⟩)]

def Phrase.verb : Phrase → String
  | .createConnection | .createShuttle => "CREATE"
  | .resumeShuttle => "RESUME"
  | .pauseShuttle => "PAUSE"
  | .dropShuttle | .dropConnection => "DROP"

def Phrase.object : Phrase → String
  | .createConnection | .dropConnection => "CONNECTION"
  | .createShuttle | .resumeShuttle | .pauseShuttle | .dropShuttle => "SHUTTLE"

theorem keywords_split (p : Phrase) :
    p.keywords.toList = p.verb.toList ++ ' ' :: p.object.toList := by
  cases p <;> decide

theorem verb_word (p : Phrase) : Word p.verb.toList := by
  cases p <;> exact word_of_all (by decide) (by decide)

theorem object_word (p : Phrase) : Word p.object.toList := by
  cases p <;> exact word_of_all (by decide) (by decide)

theorem object_mem (p : Phrase) : p.object ∈ ["CONNECTION", "SHUTTLE"] := by
  cases p <;> simp [Phrase.object]

theorem upper_word (hw : Word w) : Word (toAsciiUppercase w) := by
  refine ⟨by simpa [toAsciiUppercase] using hw.1, ?_⟩
  intro c hc
  obtain ⟨d, hd, rfl⟩ := List.mem_map.mp hc
  rw [isWhitespace_toUpper]
  exact hw.2 d hd

theorem space_not_mem (hw : Word w) : ' ' ∉ w := by
  intro hspace
  have hvisible := hw.2 ' ' hspace
  exact absurd hvisible (by decide)

theorem space_prefix {a b c d : List Char} (ha : Word a) (hc : Word c)
    (h : a ++ ' ' :: b <+: c ++ ' ' :: d) : a = c ∧ b <+: d := by
  obtain ⟨tail, htail⟩ := h
  have hfirst := congrArg (List.takeWhile (· != ' ')) htail
  rw [List.append_assoc, List.cons_append, bare_append (space_not_mem ha),
    bare_append (space_not_mem hc)] at hfirst
  subst hfirst
  refine ⟨rfl, tail, ?_⟩
  simpa using htail

theorem word_isPrefix {kw : List Char} (hkw : Word kw) (hend : AtWordEnd spaceRules rest)
    (h : kw <+: toAsciiUppercase w ++ toAsciiUppercase rest) : kw <+: toAsciiUppercase w := by
  rcases List.prefix_or_prefix_of_prefix h (List.prefix_append _ _) with hkw' | ⟨more, rfl⟩
  · exact hkw'
  · -- The keyword cannot go on where the word ends.
    cases more with
    | nil => exact List.append_nil _ ▸ List.prefix_rfl
    | cons c more =>
      rw [List.prefix_append_right_inj] at h
      obtain ⟨tail, htail⟩ := h
      cases rest with
      | nil => cases htail
      | cons d rest =>
        have hd : isWhitespace d = true := hend d rfl
        have hc : isWhitespace c = false := hkw.2 c (by simp)
        have hcd : c = d.toUpper := by
          simp only [toAsciiUppercase, List.map_cons, List.cons_append, List.cons.injEq] at htail
          exact htail.1
        rw [hcd, isWhitespace_toUpper, hd] at hc
        cases hc

theorem SingleSpaced.words_of_keyword (h : SingleSpaced text first second rest) {p : Phrase}
    {more : List Char} (hkeyword : Keyword p.keywords text more) :
    (isWord p.verb first && isWord p.object second) = true := by
  simp only [isWord, Bool.and_eq_true, beq_iff_eq]
  have hkeys := keyword_isPrefix hkeyword
  rw [keywords_split, h.split, toAsciiUppercase_append] at hkeys
  obtain ⟨hverb, hobject⟩ := space_prefix (verb_word p) (upper_word h.firstWord)
    (d := toAsciiUppercase (second ++ rest)) hkeys
  rw [toAsciiUppercase_append] at hobject
  exact ⟨hverb.symm, h.whole _ (object_mem p) (word_isPrefix (object_word p) h.wordEnd hobject)⟩

theorem SingleSpaced.keyword_of_words (h : SingleSpaced text first second rest) {p : Phrase}
    (hwords : (isWord p.verb first && isWord p.object second) = true) :
    Keyword p.keywords text rest := by
  simp only [isWord, Bool.and_eq_true, beq_iff_eq] at hwords
  obtain ⟨hverb, hobject⟩ := hwords
  refine ⟨first ++ ' ' :: second, by rw [h.split]; simp, ?_⟩
  rw [toAsciiUppercase_append, hverb, keywords_split, ← hobject]
  rfl

theorem readTokens_tests (first second : List Char) (more : List (List Char)) :
    readTokens (first :: second :: more) =
      if isWord Phrase.createConnection.verb first && isWord Phrase.createConnection.object second
        then some .createConnection
      else if isWord Phrase.createShuttle.verb first && isWord Phrase.createShuttle.object second
        then some .createShuttle
      else if isWord Phrase.resumeShuttle.verb first && isWord Phrase.resumeShuttle.object second
        then (tokenName more).map .resumeShuttle
      else if isWord Phrase.pauseShuttle.verb first && isWord Phrase.pauseShuttle.object second
        then (tokenName more).map .pauseShuttle
      else if isWord Phrase.dropShuttle.verb first && isWord Phrase.dropShuttle.object second
        then (tokenName (skipIfExists more)).map .dropShuttle
      else if isWord Phrase.dropConnection.verb first && isWord Phrase.dropConnection.object second
        then (tokenName (skipIfExists more)).map .dropConnection
      else none := rfl

theorem SingleSpaced.classify (h : SingleSpaced text first second rest) :
    classifyTrimmed text = readTokens (PlaygroundClassify.tokens text) := by
  rw [h.tokens, readTokens_tests]
  by_cases hex : ∃ p : Phrase, (isWord p.verb first && isWord p.object second) = true
  · obtain ⟨p, hp⟩ := hex
    have hkeyword := h.keyword_of_words hp
    have htests : ∀ p' : Phrase,
        (isWord p'.verb first && isWord p'.object second) = decide (p' = p) := by
      intro p'
      rw [Bool.eq_iff_iff, decide_eq_true_eq]
      constructor
      · intro hp'
        exact phrase_unique (h.keyword_of_words hp') hkeyword
      · rintro rfl
        exact hp
    rw [classifyTrimmed_phrase hkeyword]
    simp only [htests, tokenName_tokens, tokenName_named h.ifExists]
    cases p <;> rfl
  · have htests : ∀ p : Phrase, (isWord p.verb first && isWord p.object second) = false := by
      intro p
      rw [← Bool.not_eq_true]
      exact fun hp => hex ⟨p, hp⟩
    rw [classifyTrimmed_none fun p more hkeyword => hex ⟨p, h.words_of_keyword hkeyword⟩]
    simp only [htests]
    rfl

example : SingleSpaced "DROP SHUTTLE IF EXISTS  s".toList "DROP".toList "SHUTTLE".toList
    " IF EXISTS  s".toList where
  split := by decide
  firstWord := word_of_all (by decide) (by decide)
  secondWord := word_of_all (by decide) (by decide)
  wordEnd := space_wordEnd _
  whole := by
    intro kw hkw hkeys
    rcases List.mem_cons.mp hkw with rfl | hkw
    · exact absurd hkeys (by decide)
    · rw [List.mem_singleton.mp hkw]
      decide
  ifExists := Or.inl ⟨"IF".toList, "EXISTS".toList, "  s".toList, by decide, by decide, by decide,
    space_wordEnd _⟩

end Tokens

/-- A statement says what the keywords at its start and the name after them say; where the
keywords are written with single spaces that is what its tokens say. -/
theorem classifyStatement_reads (sql : String) :
    (∀ d, classifyStatement sql = some d ↔ Reads (statementText sql) d) ∧
      ∀ first second rest, SingleSpaced (statementText sql) first second rest →
        classifyStatement sql = readTokens (tokens (statementText sql)) := by
  rw [classifyStatement_eq]
  refine ⟨?_, ?_⟩
  · intro d
    rw [classifyTrimmed_iff, reads_iff]
  · intro first second rest h
    exact h.classify

/-- Two spaces between the keywords, or a longer second word. -/
theorem prefixes_are_not_tokens :
    (classifyStatement "DROP  SHUTTLE x" = none ∧
        readTokens (tokens (statementText "DROP  SHUTTLE x")) = some (.dropShuttle "x")) ∧
      classifyStatement "CREATE SHUTTLES" = some .createShuttle ∧
        readTokens (tokens (statementText "CREATE SHUTTLES")) = none := by
  rw [classifyStatement_eq, classifyStatement_eq]
  decide

end PlaygroundClassify
