import Playground.DecimalText
import Playground.PlaygroundOperations

/-! # Errors of the sidecars

What the drivers report, mapped to the errors the handlers see. A driver error is its kind and its
text. -/
namespace PlaygroundSidecarErrors

open DecimalText
open PlaygroundOperations
open RustText

def poolAcquireTimeoutSecs : ℕ := 10

def statementTimeoutSecs : ℕ := 30

/-- The `sqlx::Error` cases; a database error has a SQLSTATE, if the server sent one. -/
inductive SqlxError where
  | database (code : Option String) (message : String)
  | io (message : String)
  | poolTimedOut
  | poolClosed
  | other (message : String)
  deriving DecidableEq, Repr

def mapPgError : SqlxError → DispatchError
  | .database code message =>
    match code.getD "" with
    | "23505" => .duplicateKey message
    | "42P01" | "42703" => .schemaMismatch message
    | "28P01" | "28000" => .auth message
    | "57014" => .timeout statementTimeoutSecs
    | code => .protocol ("[" ++ code ++ "] " ++ message)
  | .io message => .connect message
  | .poolTimedOut => .timeout poolAcquireTimeoutSecs
  | .poolClosed => .connect "pool closed"
  | .other message => .protocol message

inductive MysqlError where
  | server (code : ℕ) (message : String)
  | driver (message : String)
  | io (message : String)
  | url (message : String)
  | other (message : String)
  deriving DecidableEq, Repr

def mapMysqlError : MysqlError → DispatchError
  | .server code message =>
    match code with
    | 1062 => .duplicateKey message
    | 1146 | 1054 => .schemaMismatch message
    | 1045 | 1044 | 1698 => .auth message
    | 1064 => .protocol ("syntax: " ++ message)
    | 1969 | 3024 => .timeout statementTimeoutSecs
    | code => .protocol ("[" ++ toString code ++ "] " ++ message)
  | .driver message => .protocol message
  | .io message => .connect message
  | .url message => .config message
  | .other message => .protocol message

/-- What `map_reqwest_error` asks of a failed request. -/
structure ReqwestError where
  isTimeout : Bool
  isConnect : Bool
  message : String
  deriving DecidableEq, Repr

def mapReqwestError (e : ReqwestError) : DispatchError :=
  if e.isTimeout then .timeout statementTimeoutSecs
  else if e.isConnect then .connect e.message
  else .protocol e.message

/-- A status code with its display text, such as `404 Not Found`. -/
structure HttpStatus where
  code : ℕ
  text : String
  deriving DecidableEq, Repr

def HttpStatus.isSuccess (status : HttpStatus) : Bool := 200 ≤ status.code && status.code < 300

/-- The number a ClickHouse error body starts with: `Code: 60. DB::Exception: ..`. -/
def bodyCode (body : List Char) : Option ℕ :=
  (stripPrefix "Code: ".toList body).bind fun s =>
    parseUnsigned (2 ^ 32) (trim (beforeFirst ".".toList s))

def mapClickhouseStatus (status : HttpStatus) (body : String) : DispatchError :=
  let msg := match lines body.toList with
    | [] => status.text
    | line :: _ => String.ofList line
  match bodyCode body.toList with
  | some 60 | some 81 | some 47 => .schemaMismatch msg
  | some 62 | some 63 => .protocol ("syntax: " ++ msg)
  | some 159 => .timeout statementTimeoutSecs
  | some 516 | some 192 => .auth msg
  | _ =>
    if status.code = 401 ∨ status.code = 403 then .auth msg
    else .protocol ("[" ++ toString status.code ++ "] " ++ msg)

section Codes

theorem bodyCode_eq (n : ℕ) (rest : List Char) :
    bodyCode ("Code: ".toList ++ ((toString n).toList ++ '.' :: rest)) =
      if n < 2 ^ 32 then some n else none := by
  have hdot : '.' ∉ (toString n).toList := by
    intro h
    exact absurd (digits_isDigit h) (by decide)
  have hstrip : stripPrefix "Code: ".toList
      ("Code: ".toList ++ ((toString n).toList ++ '.' :: rest)) =
      some ((toString n).toList ++ '.' :: rest) := by
    simp [stripPrefix]
  have hbefore : beforeFirst ".".toList ('.' :: rest) = [] := by
    rw [beforeFirst, if_pos (by simp)]
  rw [bodyCode, hstrip, Option.bind_some, beforeFirst_append ".".toList rfl hdot, hbefore,
    List.append_nil, trim_digits, parseUnsigned_toString]

def knownCodes : List ℕ := [60, 81, 47, 62, 63, 159, 516, 192]

/-- A known code in the body decides the class whatever the status is; any other number, also one
that does not fit in 32 bits, leaves it to the status. -/
theorem body_code_decides (status : HttpStatus) (n : ℕ) (rest : List Char) {body : String}
    (hbody : body.toList = "Code: ".toList ++ ((toString n).toList ++ '.' :: rest)) :
    (n ∈ knownCodes → ∀ status',
        mapClickhouseStatus status body = mapClickhouseStatus status' body) ∧
      (n ∉ knownCodes → ∃ msg, mapClickhouseStatus status body =
        if status.code = 401 ∨ status.code = 403 then .auth msg
        else .protocol ("[" ++ toString status.code ++ "] " ++ msg)) := by
  have hcode : bodyCode body.toList = if n < 2 ^ 32 then some n else none := by
    rw [hbody, bodyCode_eq]
  obtain ⟨line, more, hlines⟩ : ∃ line more, lines body.toList = line :: more := by
    obtain ⟨l, ls, h⟩ := lines_visible (c := 'C') (by decide) (by decide)
      ("ode: ".toList ++ ((toString n).toList ++ '.' :: rest))
    rw [hbody]
    exact ⟨_, _, h⟩
  constructor
  · intro hn status'
    have hfits : n < 2 ^ 32 := by
      simp only [knownCodes, List.mem_cons, List.not_mem_nil, or_false] at hn
      omega
    rw [if_pos hfits] at hcode
    simp only [mapClickhouseStatus, hcode, hlines]
    simp only [knownCodes, List.mem_cons, List.not_mem_nil, or_false] at hn
    rcases hn with rfl | rfl | rfl | rfl | rfl | rfl | rfl | rfl <;> rfl
  · intro hn
    refine ⟨String.ofList line, ?_⟩
    simp only [knownCodes, List.mem_cons, List.not_mem_nil, or_false, not_or] at hn
    simp only [mapClickhouseStatus, hlines, hcode]
    split <;> simp_all

end Codes

end PlaygroundSidecarErrors
