import Playground.PlaygroundManifest
import Playground.RustText

/-! # The API callback client

A call is described by its method and path; the exchange itself happens outside. -/
namespace PlaygroundApiClient

open PlaygroundManifest (Value)
open RustText

structure Identity where
  userId : String
  tenantId : Option String
  actorId : Option String
  authMethod : String
  deriving DecidableEq, Repr

inductive ApiCallError where
  | build (message : String)
  | transport (message : String)
  | status (method urlPath : String) (status : ℕ) (body : String)
  | decode (message : String)
  deriving DecidableEq, Repr

/-- The `Display` text of the error. -/
def ApiCallError.text : ApiCallError → String
  | .build m => "api build request: " ++ m
  | .transport m => "api transport: " ++ m
  | .status method urlPath code body =>
    "api " ++ method ++ " " ++ urlPath ++ ": HTTP " ++ toString code ++ ": " ++ body
  | .decode m => "api decode body: " ++ m

structure ApiClient where
  baseUrl : String
  serviceToken : String
  deriving DecidableEq, Repr

def ApiClient.new (baseUrl serviceToken : String) : ApiClient :=
  { baseUrl := String.ofList (trimEndMatches '/' baseUrl.toList)
    serviceToken := serviceToken }

inductive Dispatch where
  | createConnection
  | createShuttle
  | resumeShuttle (name : String)
  | pauseShuttle (name : String)
  | dropShuttle (name : String)
  | dropConnection (name : String)
  deriving DecidableEq, Repr

def stripSqlComments (sql : List Char) : List Char :=
  (lines sql).flatMap fun line => beforeFirst ['-', '-'] line ++ ['\n']

def endsName (c : Char) : Bool := isWhitespace c || c == ';' || c == ',' || c == '('

/-- The byte offset is always a character boundary of `original`, because `upperRest` is the
upper-cased end of it. -/
def extractName (upperRest original : List Char) : Option String :=
  let start := String.utf8Len original - String.utf8Len (trimStart upperRest)
  let afterKw := (sliceFrom original start).getD []
  let name := trim (afterKw.takeWhile fun c => !endsName c)
  if name.isEmpty then none else some (String.ofList name)

/-- The tests of `classify_statement`, with the function that is called for a name. -/
def classifyTrimmedBy (extract : List Char → List Char → Option String) (trimmed : List Char) :
    Option Dispatch :=
  let upper := toAsciiUppercase trimmed
  if "CREATE CONNECTION".toList.isPrefixOf upper then some .createConnection
  else if "CREATE SHUTTLE".toList.isPrefixOf upper then some .createShuttle
  else
    match stripPrefix "RESUME SHUTTLE".toList upper with
    | some rest => (extract rest trimmed).map .resumeShuttle
    | none =>
      match stripPrefix "PAUSE SHUTTLE".toList upper with
      | some rest => (extract rest trimmed).map .pauseShuttle
      | none =>
        match stripPrefix "DROP SHUTTLE".toList upper with
        | some rest =>
          (extract ((stripPrefix " IF EXISTS".toList rest).getD rest) trimmed).map .dropShuttle
        | none =>
          match stripPrefix "DROP CONNECTION".toList upper with
          | some rest =>
            (extract ((stripPrefix " IF EXISTS".toList rest).getD rest) trimmed).map .dropConnection
          | none => none

def classifyTrimmed (trimmed : List Char) : Option Dispatch :=
  classifyTrimmedBy extractName trimmed

def classifyStatement (sql : String) : Option Dispatch :=
  let stripped := stripSqlComments sql.toList
  classifyTrimmed (trim (trimEndMatches ';' (trim stripped)))

def firstChars (s : String) (n : ℕ) : String := String.ofList (s.toList.take n)

structure ApiRequest where
  method : String
  path : String
  body : Option Value

def Dispatch.request (sql : String) : Dispatch → ApiRequest
  | .createConnection => ⟨"POST", "/api/v1/connections", some (.object [("sql", .string sql)])⟩
  | .createShuttle => ⟨"POST", "/api/v1/shuttles", some (.object [("sql", .string sql)])⟩
  | .resumeShuttle name => ⟨"POST", "/api/v1/shuttles/" ++ name ++ "/resume", none⟩
  | .pauseShuttle name => ⟨"POST", "/api/v1/shuttles/" ++ name ++ "/pause", none⟩
  | .dropShuttle name => ⟨"DELETE", "/api/v1/shuttles/" ++ name, none⟩
  | .dropConnection name => ⟨"DELETE", "/api/v1/connections/" ++ name, none⟩

def unsupportedStatement (sql : String) : ApiCallError :=
  .status "POST" "/api/v1/sql" 400
    ("unsupported playground SQL — only CREATE/DROP CONNECTION + CREATE/RESUME/PAUSE/DROP " ++
      "SHUTTLE are dispatched. Statement: " ++ firstChars sql 120)

section Names

variable {c : Char} {k rest : List Char}

theorem endsName_false (h : endsName c = false) : isWhitespace c = false ∧ c ≠ ';' := by
  simp only [endsName, Bool.or_eq_false_iff, beq_eq_false_iff_ne] at h
  exact ⟨h.1.1.1, h.1.1.2⟩

theorem not_lineEnd (h : isWhitespace c = false) : c ≠ '\n' ∧ c ≠ '\r' := by
  constructor
  · rintro rfl
    exact absurd h (by decide)
  · rintro rfl
    exact absurd h (by decide)

def nameHead (s : List Char) : List Char := s.takeWhile fun d => !endsName d

theorem trim_nameHead (s : List Char) : trim (nameHead s) = nameHead s := by
  have hws : ∀ d ∈ nameHead s, isWhitespace d = false := by
    intro d hd
    have hn := List.mem_takeWhile_imp hd
    exact (endsName_false (by simpa using hn)).1
  cases hs : nameHead s with
  | nil => rfl
  | cons d ds =>
    rw [hs] at hws
    rw [trim, trimStart_cons (hws d List.mem_cons_self), trimEnd, List.rdropWhile_eq_self_iff]
    intro hne
    simp [hws _ (List.getLast_mem hne)]

theorem extractName_append (hc : endsName c = false) (upper : List Char)
    (hu : trimStart upper = toAsciiUppercase (c :: rest)) :
    extractName upper (k ++ c :: rest) = some (String.ofList (c :: nameHead rest)) := by
  have hlen : String.utf8Len (k ++ c :: rest) - String.utf8Len (trimStart upper) =
      String.utf8Len k := by
    rw [hu, utf8Len_toAsciiUppercase, String.utf8Len_append]
    omega
  have hname : (c :: rest).takeWhile (fun d => !endsName d) = c :: nameHead rest := by
    simp [hc, nameHead]
  have htrim : trim (c :: nameHead rest) = c :: nameHead rest := by
    rw [← hname]
    exact trim_nameHead (c :: rest)
  simp only [extractName, hlen, sliceFrom_append, Option.getD_some, hname, htrim]
  simp

theorem nameHead_trimEnd (s : List Char) : nameHead (trimEnd s) = nameHead s := by
  refine takeWhile_rdropWhile (fun d hd => ?_) s
  simp [endsName, hd]

theorem nameHead_trimEndMatches (s : List Char) :
    nameHead (trimEndMatches ';' s) = nameHead s := by
  refine takeWhile_rdropWhile (fun d hd => ?_) s
  simp only [beq_iff_eq] at hd
  simp [endsName, hd]

theorem nameHead_append {x : Char} (hx : endsName x = true) (a b : List Char) :
    nameHead (a ++ x :: b) = nameHead a := by
  induction a with
  | nil => simp [nameHead, hx]
  | cons y ys ih =>
    simp only [nameHead, List.cons_append, List.takeWhile_cons] at ih ⊢
    split
    · rw [ih]
    · rfl

/-- What a statement is classified by: its first line up to a comment, and what follows only
after a blank. -/
theorem trimmed_statement {d : Char} (hd : isWhitespace d = false)
    (hplain : (d :: k).all (fun x => x != '\n' && x != '\r' && x != '-') = true)
    (hc : endsName c = false) (hm : c ≠ '-')
    {l : List Char} {ls : List (List Char)} (hl : lines (c :: rest) = (c :: l) :: ls) :
    ∃ text, trim (trimEndMatches ';' (trim (stripSqlComments ((d :: k) ++ c :: rest)))) =
        (d :: k) ++ c :: text ∧
      nameHead text = nameHead (beforeFirst ['-', '-'] l) := by
  obtain ⟨hws, hsemi⟩ := endsName_false hc
  have hk : ∀ x ∈ d :: k, x ≠ '\n' ∧ x ≠ '\r' ∧ x ≠ '-' := by
    intro x hx
    have hx' := List.all_eq_true.mp hplain x hx
    simp only [Bool.and_eq_true, bne_iff_ne] at hx'
    exact ⟨hx'.1.1, hx'.1.2, hx'.2⟩
  have hlines := lines_append (a := d :: k) (fun x hx => ⟨(hk x hx).1, (hk x hx).2.1⟩) hl
  have hbefore : beforeFirst ['-', '-'] ((d :: k) ++ c :: l) =
      (d :: k) ++ c :: beforeFirst ['-', '-'] l := by
    have hne : '-' ∉ (d :: k) ++ [c] := by
      intro hx
      rcases List.mem_append.mp hx with hx | hx
      · exact (hk _ hx).2.2 rfl
      · exact hm (List.mem_singleton.mp hx).symm
    have happ := beforeFirst_append ['-', '-'] rfl hne l
    simpa using happ
  have hstripped : ∃ tail, stripSqlComments ((d :: k) ++ c :: rest) =
      (d :: k) ++ c :: (beforeFirst ['-', '-'] l ++ '\n' :: tail) := by
    refine ⟨ls.flatMap fun x => beforeFirst ['-', '-'] x ++ ['\n'], ?_⟩
    simp only [stripSqlComments, hlines, List.flatMap_cons, hbefore]
    simp
  obtain ⟨tail, htail⟩ := hstripped
  refine ⟨trimEnd (trimEndMatches ';' (trimEnd (beforeFirst ['-', '-'] l ++ '\n' :: tail))),
    ?_, ?_⟩
  · rw [htail, trim_append hd hws, trimEndMatches, rdropWhile_append (by simpa using hsemi),
      trim_append hd hws]
    rfl
  · rw [nameHead_trimEnd, nameHead_trimEndMatches, nameHead_trimEnd]
    exact nameHead_append (by decide) _ _

theorem classifyTrimmed_dropShuttle (text : List Char) :
    classifyTrimmed ("DROP SHUTTLE IF EXISTS ".toList ++ text) =
      (extractName (' ' :: toAsciiUppercase text)
        ("DROP SHUTTLE IF EXISTS ".toList ++ text)).map .dropShuttle := by
  unfold classifyTrimmed classifyTrimmedBy
  rw [toAsciiUppercase_append]
  rfl

theorem classifyTrimmed_dropConnection (text : List Char) :
    classifyTrimmed ("DROP CONNECTION IF EXISTS ".toList ++ text) =
      (extractName (' ' :: toAsciiUppercase text)
        ("DROP CONNECTION IF EXISTS ".toList ++ text)).map .dropConnection := by
  unfold classifyTrimmed classifyTrimmedBy
  rw [toAsciiUppercase_append]
  rfl

/-- The name in a `DROP CONNECTION` or `DROP SHUTTLE` statement: the text up to a blank or
a separator, and before a comment. -/
def droppedName (object : String) : String :=
  String.ofList (nameHead (beforeFirst ['-', '-'] ((lines object.toList).headD [])))

structure StartsVisible (object : String) : Prop where
  visible : ∃ c cs, object.toList = c :: cs ∧ endsName c = false ∧ c ≠ '-'

theorem classify_drop {object : String} (h : StartsVisible object) :
    classifyStatement ("DROP SHUTTLE IF EXISTS " ++ object) =
        some (.dropShuttle (droppedName object)) ∧
      classifyStatement ("DROP CONNECTION IF EXISTS " ++ object) =
        some (.dropConnection (droppedName object)) := by
  obtain ⟨c, cs, htext, hc, hm⟩ := h.visible
  obtain ⟨hws, _⟩ := endsName_false hc
  obtain ⟨l, ls, hl⟩ := lines_visible (not_lineEnd hws).1 (not_lineEnd hws).2 cs
  have hname : droppedName object = String.ofList (c :: nameHead (beforeFirst ['-', '-'] l)) := by
    have hbefore := beforeFirst_append ['-', '-'] (a := [c]) rfl
      (fun hx => hm (List.mem_singleton.mp hx).symm) l
    have hhead : nameHead (c :: beforeFirst ['-', '-'] l) =
        c :: nameHead (beforeFirst ['-', '-'] l) := by
      simp [nameHead, hc]
    simp only [List.singleton_append] at hbefore
    simp only [droppedName, htext, hl, List.headD_cons, hbefore, hhead]
  have hupper : ∀ text, trimStart (' ' :: toAsciiUppercase (c :: text)) =
      toAsciiUppercase (c :: text) := by
    intro text
    rw [trimStart, List.dropWhile_cons_of_pos (by decide)]
    exact trimStart_cons (toUpper_whitespace hws) _
  constructor
  · obtain ⟨text, htrim, htake⟩ := trimmed_statement (d := 'D')
      (k := "ROP SHUTTLE IF EXISTS ".toList) (by decide) (by decide) hc hm hl
    unfold classifyStatement
    rw [String.toList_append, htext]
    refine (congrArg classifyTrimmed htrim).trans ((classifyTrimmed_dropShuttle _).trans ?_)
    rw [extractName_append hc _ (hupper text), hname, htake]
    rfl
  · obtain ⟨text, htrim, htake⟩ := trimmed_statement (d := 'D')
      (k := "ROP CONNECTION IF EXISTS ".toList) (by decide) (by decide) hc hm hl
    unfold classifyStatement
    rw [String.toList_append, htext]
    refine (congrArg classifyTrimmed htrim).trans ((classifyTrimmed_dropConnection _).trans ?_)
    rw [extractName_append hc _ (hupper text), hname, htake]
    rfl

theorem droppedName_self {object : String} (hne : object.toList ≠ [])
    (h : ∀ c ∈ object.toList, endsName c = false ∧ c ≠ '-') : droppedName object = object := by
  have hline : lines object.toList = [object.toList] :=
    lines_single (fun c hc => not_lineEnd (endsName_false (h c hc).1).1) hne
  have hbefore := beforeFirst_append ['-', '-'] (a := object.toList) rfl
    (fun hx => (h _ hx).2 rfl) []
  have hhead : nameHead object.toList = object.toList :=
    List.takeWhile_eq_self_iff.mpr fun c hc => by simp [(h c hc).1]
  simp only [List.append_nil, beforeFirst] at hbefore
  simp only [droppedName, hline, List.headD_cons, hbefore, hhead, String.ofList_toList]

end Names

-- Programs match on the class of a statement; no proof about them should compute it.
attribute [irreducible] classifyStatement

end PlaygroundApiClient
