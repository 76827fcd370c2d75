import Mathlib.Algebra.Order.BigOperators.Group.List
import Mathlib.Algebra.Ring.Nat
import Playground.PlaygroundOperations
import Playground.QuotedWords

/-! # The Redis command loop of the dispatcher

A script is run line by line: a line is cut at a `#`, trimmed, split into an argument vector and
sent as one command. -/
namespace PlaygroundRedis

open InteractionPrograms
open InteractionPrograms.Program
open PlaygroundOperations
open QuotedWords
open RustText

def flushToken (buf : List Char) : List String :=
  if buf.isEmpty then [] else [String.ofList buf]

def tokenizeFrom (buf : List Char) (inSingle inDouble : Bool) : List Char → List String
  | [] => flushToken buf
  | c :: rest =>
    if c == '\'' && !inDouble then tokenizeFrom buf (!inSingle) inDouble rest
    else if c == '"' && !inSingle then tokenizeFrom buf inSingle (!inDouble) rest
    else if isWhitespace c && !inSingle && !inDouble then
      flushToken buf ++ tokenizeFrom [] inSingle inDouble rest
    else tokenizeFrom (buf ++ [c]) inSingle inDouble rest

def tokenizeRedisLine (line : List Char) : List String := tokenizeFrom [] false false line

inductive RedisErrorKind where
  | authenticationFailed
  | ioError
  | clientError
  | typeError
  | responseError
  | extensionError
  | other
  deriving DecidableEq, Repr

structure RedisError where
  kind : RedisErrorKind
  message : String
  deriving DecidableEq, Repr

def mapRedisError (e : RedisError) : DispatchError :=
  match e.kind with
  | .authenticationFailed => .auth e.message
  | .ioError | .clientError => .connect e.message
  | .typeError | .responseError | .extensionError | .other => .protocol e.message

/-- The configuration is its password; a reply is its debug text. -/
inductive RedisOp where
  | config
  | connect
  | auth (password : String)
  | command (argv : List String)
  deriving DecidableEq, Repr

@[reducible] def RedisOp.Result : RedisOp → Type
  | .config => Except DispatchError String
  | .connect => Except RedisError Unit
  | .auth _ => Except RedisError Unit
  | .command _ => Except RedisError String

abbrev RedisProgram (α : Type) := Program RedisOp RedisOp.Result α

def getConfig : RedisProgram (Except DispatchError String) := perform RedisOp.config

def getConnection : RedisProgram (Except RedisError Unit) := perform RedisOp.connect

def queryAsync (argv : List String) : RedisProgram (Except RedisError String) :=
  perform (RedisOp.command argv)

def runLines (count : ℕ) (lastReply : String) :
    List (List Char) → RedisProgram (Except DispatchError (ℕ × String))
  | [] => .done (.ok (count, lastReply))
  | raw :: rest =>
    let line := trim (raw.takeWhile (· != '#'))
    if line.isEmpty then runLines count lastReply rest
    else
      let tokens := tokenizeRedisLine line
      if tokens.isEmpty then runLines count lastReply rest
      else do
        match ← queryAsync tokens with
        | .error e => .done (.error (mapRedisError e))
        | .ok reply => runLines (count + 1) reply rest

/-- The reply to `AUTH` is ignored. -/
def authenticate (password : String) : RedisProgram Unit :=
  if password.isEmpty then .done () else perform (RedisOp.auth password) >>= fun _ => .done ()

/-- The namespace is only an attribution hint. -/
def execRedisInner (_namespaceName : Option String) (script : String) :
    RedisProgram (Except DispatchError (String × String)) := do
  match ← getConfig with
  | .error e => .done (.error e)
  | .ok password =>
    match ← getConnection with
    | .error e => .done (.error (mapRedisError e))
    | .ok () =>
      authenticate password
      match ← runLines 0 "" (lines script.toList) with
      | .error e => .done (.error e)
      | .ok (count, lastReply) =>
        .done (.ok ("OK (" ++ toString count ++ " commands)\n" ++ lastReply, ""))

section Tokens

theorem quote_visible (c : Char) (h : (c == '\'' || c == '"') = true) :
    isWhitespace c = false := by
  rw [Bool.or_eq_true, beq_iff_eq, beq_iff_eq] at h
  rcases h with rfl | rfl <;> rfl

def redisRules : Rules Char where
  isQuote c := c == '\'' || c == '"'
  isBlank := isWhitespace
  visible := quote_visible

/-- The quote that the two flags of the tokenizer say is open. -/
def openQuote (inSingle inDouble : Bool) : Option Char :=
  if inSingle then some '\'' else if inDouble then some '"' else none

theorem flushToken_eq (buf : List Char) : flushToken buf = (flush buf).map String.ofList := by
  cases buf <;> rfl

theorem tokenizeFrom_eq {buf line : List Char} {inSingle inDouble : Bool}
    (h : inSingle = true → inDouble = false) :
    tokenizeFrom buf inSingle inDouble line =
      (wordsFrom redisRules buf (openQuote inSingle inDouble) line).map String.ofList := by
  fun_induction tokenizeFrom buf inSingle inDouble line with
  | case1 buf => rw [wordsFrom, flushToken_eq]
  | case2 buf inSingle inDouble c rest hsingle ih =>
    simp only [Bool.and_eq_true, Bool.not_eq_true', beq_iff_eq] at hsingle
    obtain ⟨rfl, rfl⟩ := hsingle
    rw [ih (by simp)]
    cases inSingle <;> rfl
  | case3 buf inSingle inDouble c rest hsingle hdouble ih =>
    simp only [Bool.and_eq_true, Bool.not_eq_true', beq_iff_eq] at hdouble
    obtain ⟨rfl, rfl⟩ := hdouble
    rw [ih (by simp)]
    cases inDouble <;> rfl
  | case4 buf inSingle inDouble c rest hsingle hdouble hblank ih =>
    simp only [Bool.and_eq_true, Bool.not_eq_true'] at hblank
    obtain ⟨⟨hblank, rfl⟩, rfl⟩ := hblank
    rw [ih h, flushToken_eq, ← List.map_append, wordsFrom, if_pos ⟨rfl, hblank⟩]
    rfl
  | case5 buf inSingle inDouble c rest hsingle hdouble hblank ih =>
    have hstep : ∀ quote, (quote = none → isWhitespace c = false) →
        keeps redisRules quote c = true → after redisRules quote c = quote →
        wordsFrom redisRules buf quote (c :: rest) =
          wordsFrom redisRules (buf ++ [c]) quote rest := by
      intro quote hopen hkeep hstay
      have hword : ¬(quote = none ∧ redisRules.isBlank c = true) := by
        rintro ⟨hnone, hc⟩
        rw [show redisRules.isBlank c = isWhitespace c from rfl, hopen hnone] at hc
        cases hc
      rw [wordsFrom, if_neg hword, if_pos hkeep, hstay]
    rw [ih h]
    cases inSingle with
    | true =>
      have hc : c ≠ '\'' := by simpa [h rfl] using hsingle
      rw [hstep _ (by simp [openQuote]) (by simp [openQuote, keeps, hc])
        (by simp [openQuote, after, hc])]
    | false =>
      have hc : c ≠ '"' := by simpa using hdouble
      cases inDouble with
      | true =>
        rw [hstep _ (by simp [openQuote]) (by simp [openQuote, keeps, hc])
          (by simp [openQuote, after, hc])]
      | false =>
        have hplain : c ≠ '\'' := by simpa using hsingle
        have hvisible : isWhitespace c = false := by simpa using hblank
        have hquote : redisRules.isQuote c = false := by simp [redisRules, hplain, hc]
        rw [hstep _ (fun _ => hvisible) ?_ (by simp [openQuote, after, hquote])]
        simp [openQuote, keeps, redisRules, hvisible, hplain, hc]

theorem tokenizeRedisLine_eq (line : List Char) :
    tokenizeRedisLine line = (words redisRules line).map String.ofList :=
  tokenizeFrom_eq (by simp)

/-- An argument with the quotes it is written between. -/
structure QuotedArg where
  quote : Char
  text : String
  isQuote : quote = '\'' ∨ quote = '"'
  free : quote ∉ text.toList

def writtenLine (args : List QuotedArg) : List Char :=
  [' '].intercalate (args.map fun arg => quoted arg.quote arg.text.toList)

/-- Tokenizing undoes the quoting of all arguments but the empty ones, which it drops. -/
theorem tokenize_writtenLine (args : List QuotedArg) :
    tokenizeRedisLine (writtenLine args) =
      (args.map QuotedArg.text).filter fun text => text != "" := by
  have hargs : ∀ arg ∈ args.map fun arg => (arg.quote, arg.text.toList),
      redisRules.isQuote arg.1 = true ∧ arg.1 ∉ arg.2 := by
    intro arg harg
    obtain ⟨written, -, rfl⟩ := List.mem_map.mp harg
    refine ⟨?_, written.free⟩
    rcases written.isQuote with hquote | hquote <;> simp [redisRules, hquote]
  have hempty : ∀ text : String, (!text.toList.isEmpty) = (text != "") := by
    intro text
    rw [Bool.eq_iff_iff]
    simp
  have hwords := words_quoted (b := ' ') (by decide) hargs
  rw [List.map_map, List.map_map] at hwords
  rw [tokenizeRedisLine_eq, writtenLine]
  refine (congrArg (List.map String.ofList) hwords).trans ?_
  simp [List.filter_map, Function.comp_def, hempty]

/-- Quoting is undone exactly for arguments that are not empty. -/
theorem tokenize_undoes_quoting (args : List QuotedArg) :
    tokenizeRedisLine (writtenLine args) = args.map QuotedArg.text ↔
      ∀ arg ∈ args, arg.text ≠ "" := by
  rw [tokenize_writtenLine, List.filter_eq_self]
  simp

def setArg : QuotedArg := ⟨'"', "SET", Or.inr rfl, by decide⟩

def keyArg : QuotedArg := ⟨'"', "k", Or.inr rfl, by decide⟩

def emptyArg : QuotedArg := ⟨'"', "", Or.inr rfl, by decide⟩

/-- `"SET" "k" ""` loses its value. -/
theorem tokenize_loses_empty :
    ¬ ∀ args : List QuotedArg,
      tokenizeRedisLine (writtenLine args) = args.map QuotedArg.text := by
  intro h
  have hargs := h [setArg, keyArg, emptyArg]
  have hline : tokenizeRedisLine (writtenLine [setArg, keyArg, emptyArg]) = ["SET", "k"] := by
    decide
  rw [hline] at hargs
  simp [setArg, keyArg, emptyArg] at hargs

end Tokens

section Commands

def sent (events : List ((op : RedisOp) × op.Result)) : List (List String) :=
  events.filterMap fun event =>
    match event.1 with
    | .command argv => some argv
    | .config | .connect | .auth _ => none

def commandOf (raw : List Char) : List String :=
  tokenizeRedisLine (trim (raw.takeWhile (· != '#')))

def commands (ofLine : List Char → List String) (script : String) : List (List String) :=
  ((lines script.toList).map ofLine).filter fun argv => !argv.isEmpty

def uncommented (raw : List Char) : List Char := cutAt redisRules '#' none raw

/-- What the script says: each line up to its comment, split into arguments. -/
def writtenCommands (script : String) : List (List String) :=
  commands (fun raw => tokenizeRedisLine (uncommented raw)) script

variable {events : List ((op : RedisOp) × op.Result)}

theorem runLines_cons (count : ℕ) (lastReply : String) (raw : List Char)
    (rest : List (List Char)) :
    commandOf raw = [] ∧ runLines count lastReply (raw :: rest) = runLines count lastReply rest ∨
      commandOf raw ≠ [] ∧ runLines count lastReply (raw :: rest) = (do
        match ← queryAsync (commandOf raw) with
        | .error e => .done (.error (mapRedisError e))
        | .ok reply => runLines (count + 1) reply rest) := by
  rw [runLines]
  by_cases hline : trim (raw.takeWhile (· != '#')) = []
  · refine Or.inl ⟨?_, by simp [hline]⟩
    rw [commandOf, hline]
    rfl
  · by_cases htokens : commandOf raw = []
    · refine Or.inl ⟨htokens, ?_⟩
      rw [commandOf] at htokens
      simp [hline, htokens]
    · refine Or.inr ⟨htokens, ?_⟩
      rw [commandOf] at htokens ⊢
      simp [hline, htokens]

theorem sent_runLines {count n : ℕ} {lastReply reply : String} {ls : List (List Char)}
    (h : (runLines count lastReply ls).Trace events (.ok (n, reply))) :
    sent events = (ls.map commandOf).filter fun argv => !argv.isEmpty := by
  induction ls generalizing count lastReply events with
  | nil =>
    obtain ⟨rfl, -⟩ := trace_done h
    rfl
  | cons raw rest ih =>
    rcases runLines_cons count lastReply raw rest with ⟨hnone, hrun⟩ | ⟨hsome, hrun⟩
    · rw [hrun] at h
      simpa [hnone] using ih h
    · rw [hrun] at h
      obtain ⟨result, tail, rfl, hnext⟩ := trace_perform h
      cases result with
      | error e =>
        obtain ⟨-, hout⟩ := trace_done hnext
        cases hout
      | ok r =>
        have htail := ih hnext
        simp only [sent] at htail
        simp [sent, hsome, htail]

theorem authenticate_sends {password : String} {u : Unit}
    (h : (authenticate password).Trace events u) : sent events = [] := by
  unfold authenticate at h
  split at h
  · obtain ⟨rfl, -⟩ := trace_done h
    rfl
  · obtain ⟨r, rest, rfl, hnext⟩ := trace_perform h
    obtain ⟨rfl, -⟩ := trace_done hnext
    rfl

theorem sent_append (a b : List ((op : RedisOp) × op.Result)) :
    sent (a ++ b) = sent a ++ sent b := List.filterMap_append

/-- A successful run sends the commands of the script as the loop reads it. -/
theorem sent_commands {namespaceName : Option String} {script : String} {out : String × String}
    (h : (execRedisInner namespaceName script).Trace events (.ok out)) :
    sent events = commands commandOf script := by
  unfold execRedisInner at h
  obtain ⟨config, rest, rfl, hconfig⟩ := trace_perform h
  cases config with
  | error e =>
    obtain ⟨-, hout⟩ := trace_done hconfig
    cases hout
  | ok password =>
    obtain ⟨conn, rest, rfl, hconn⟩ := trace_perform hconfig
    cases conn with
    | error e =>
      obtain ⟨-, hout⟩ := trace_done hconn
      cases hout
    | ok u =>
      obtain ⟨auth, u, rest, rfl, hauth, hlines⟩ := trace_bind hconn
      obtain ⟨queries, result, rest, rfl, hrun, hend⟩ := trace_bind hlines
      cases result with
      | error e =>
        obtain ⟨-, hout⟩ := trace_done hend
        cases hout
      | ok reply =>
        obtain ⟨rfl, -⟩ := trace_done hend
        have hqueries := sent_runLines hrun
        have hnone := authenticate_sends hauth
        rw [List.append_nil]
        change sent (auth ++ queries) = _
        rw [sent_append, hnone, hqueries]
        rfl

theorem runLines_completes (count : ℕ) (lastReply : String) (ls : List (List Char)) :
    ∃ events n reply, (runLines count lastReply ls).Trace events (.ok (n, reply)) := by
  induction ls generalizing count lastReply with
  | nil => exact ⟨[], count, lastReply, .done _⟩
  | cons raw rest ih =>
    rcases runLines_cons count lastReply raw rest with ⟨-, hrun⟩ | ⟨-, hrun⟩
    · rw [hrun]
      exact ih count lastReply
    · obtain ⟨events, n, reply, hrest⟩ := ih (count + 1) "OK"
      rw [hrun]
      have hsend : (queryAsync (commandOf raw)).Trace [⟨.command (commandOf raw), .ok "OK"⟩]
          (.ok "OK") := .step (.done _)
      exact ⟨_, n, reply, hsend.bind hrest⟩

theorem execRedisInner_completes (script : String) :
    ∃ events out, (execRedisInner none script).Trace events (.ok out) := by
  obtain ⟨events, n, reply, hrun⟩ := runLines_completes 0 "" (lines script.toList)
  have hconfig : getConfig.Trace [⟨.config, .ok ""⟩] (.ok "") := .step (.done _)
  have hconn : getConnection.Trace [⟨.connect, .ok ()⟩] (.ok ()) := .step (.done _)
  have hauth : (authenticate "").Trace [] () := .done ()
  exact ⟨_, _, hconfig.bind (hconn.bind (hauth.bind (hrun.bind (.done _))))⟩

/-- The comment of a line starts at its first `#`, and no blank is cut off its last argument. -/
def CommentSafe (raw : List Char) : Prop :=
  '#' ∉ uncommented raw ∧
    (openAfter redisRules none (uncommented raw) = none ∨
      trimEnd (uncommented raw) = uncommented raw)

instance (raw : List Char) : Decidable (CommentSafe raw) :=
  inferInstanceAs (Decidable (_ ∧ (_ ∨ _)))

def argSize (argv : List String) : ℕ := (argv.map String.length).sum

theorem argSize_tokenize (line : List Char) :
    argSize (tokenizeRedisLine line) = (kept redisRules none line).length := by
  rw [argSize, tokenizeRedisLine_eq, List.map_map, ← flatten_words, List.length_flatten]
  simp [Function.comp_def]

theorem uncommented_eq {raw : List Char} (h : '#' ∉ uncommented raw) :
    uncommented raw = raw.takeWhile (· != '#') := by
  rcases (cutAt_cases (r := redisRules) '#' none raw).2 with hcut | ⟨q, rest, -, hcut⟩
  · exact hcut
  · rw [uncommented, hcut] at h
    simp at h

theorem commandOf_commentSafe {raw : List Char} (h : CommentSafe raw) :
    commandOf raw = tokenizeRedisLine (uncommented raw) := by
  obtain ⟨hmark, hend⟩ := h
  obtain ⟨front, back, htext, hfront, hback⟩ := exists_trim (uncommented raw)
  rw [commandOf, ← uncommented_eq hmark, tokenizeRedisLine_eq, tokenizeRedisLine_eq]
  conv_rhs => rw [htext]
  rw [words_core hfront hback]
  rw [← htext]
  refine hend.imp_right ?_
  intro hself
  rw [htext] at hself
  exact trimEnd_self hback hself

/-- A quoted `#` or a quoted blank at the end costs an argument characters. -/
theorem commandOf_loses {raw : List Char} (h : ¬ CommentSafe raw) :
    argSize (commandOf raw) < argSize (tokenizeRedisLine (uncommented raw)) := by
  rw [commandOf, argSize_tokenize, argSize_tokenize]
  obtain ⟨front, back, htext, hfront, hback⟩ := exists_trim (raw.takeWhile (· != '#'))
  have hle : (kept redisRules none (trim (raw.takeWhile (· != '#')))).length ≤
      (kept redisRules none (front ++ trim (raw.takeWhile (· != '#')) ++ back)).length :=
    kept_core_le hfront
  rw [← htext] at hle
  obtain ⟨hbare, hcut | ⟨q, rest, hopen, hcut⟩⟩ := cutAt_cases (r := redisRules) '#' none raw
  · -- The cut is at the same place, so a quote is open before blanks at the end.
    rw [CommentSafe, uncommented, hcut] at h
    have hloss : ¬(openAfter redisRules none (raw.takeWhile (· != '#')) = none) ∧
        ¬(trimEnd (raw.takeWhile (· != '#')) = raw.takeWhile (· != '#')) := by
      rw [← not_or]
      exact fun hend => h ⟨hbare, hend⟩
    obtain ⟨hquoted, htrim⟩ := hloss
    rw [htext, openAfter_core hfront hback] at hquoted
    obtain ⟨q, hopen⟩ := Option.ne_none_iff_exists'.mp hquoted
    have hne : back ≠ [] := by
      rintro rfl
      apply htrim
      have hcore : trim (raw.takeWhile (· != '#')) ≠ [] := by
        intro hnil
        rw [hnil] at hopen
        cases hopen
      conv_rhs => rw [htext]
      conv_lhs => rw [htext]
      rw [List.append_nil]
      exact trimEnd_append hcore (trimEnd_trim _) front
    have hlt := kept_core_lt hfront hback hopen hne
    rw [uncommented, hcut]
    rwa [← htext] at hlt
  · -- The mark stands in quotes and belongs to an argument.
    have hmark : redisRules.isQuote '#' = false := by decide
    have hlt : (kept redisRules none (raw.takeWhile (· != '#'))).length <
        (kept redisRules none (raw.takeWhile (· != '#') ++ '#' :: rest)).length :=
      kept_mark hmark hopen
    rw [uncommented, hcut]
    omega

theorem argSize_commands (ofLine : List Char → List String) (script : String) :
    argSize (commands ofLine script).flatten =
      ((lines script.toList).map fun raw => argSize (ofLine raw)).sum := by
  rw [commands, List.flatten_filter_not_isEmpty, argSize, List.map_flatten, List.sum_flatten,
    List.map_map, List.map_map]
  rfl

/-- A successful run sends the arguments the script has up to its comments, exactly for scripts
whose lines lose nothing. -/
theorem sent_written_iff {namespaceName : Option String} {script : String} {out : String × String}
    (h : (execRedisInner namespaceName script).Trace events (.ok out)) :
    sent events = writtenCommands script ↔ ∀ raw ∈ lines script.toList, CommentSafe raw := by
  rw [sent_commands h]
  constructor
  · intro heq
    by_contra hloss
    have hle : ∀ raw ∈ lines script.toList,
        argSize (commandOf raw) ≤ argSize (tokenizeRedisLine (uncommented raw)) := by
      intro raw _
      by_cases hsafe : CommentSafe raw
      · rw [commandOf_commentSafe hsafe]
      · exact (commandOf_loses hsafe).le
    have hlt : ∃ raw ∈ lines script.toList,
        argSize (commandOf raw) < argSize (tokenizeRedisLine (uncommented raw)) := by
      simp only [not_forall] at hloss
      obtain ⟨raw, hmem, hunsafe⟩ := hloss
      exact ⟨raw, hmem, commandOf_loses hunsafe⟩
    have hsum := List.sum_lt_sum _ _ hle hlt
    rw [← argSize_commands, ← argSize_commands, heq] at hsum
    exact lt_irrefl _ hsum
  · intro hsafe
    rw [writtenCommands, commands, commands]
    congr 1
    exact List.map_congr_left fun raw hmem => commandOf_commentSafe (hsafe raw hmem)

def commentedScript : String := "SET k \"a b\" # note"

theorem sent_written_commented :
    ∃ events, sent events = writtenCommands commentedScript := by
  obtain ⟨events, out, h⟩ := execRedisInner_completes commentedScript
  refine ⟨events, (sent_written_iff h).mpr ?_⟩
  have hlines : lines commentedScript.toList = [commentedScript.toList] := by decide
  rw [hlines, List.forall_mem_singleton]
  decide

/-- The colour of `SET k "#fff"` is taken for a comment and the command is sent without it. -/
theorem quoted_hash_lost :
    ∃ events out, (execRedisInner none "SET k \"#fff\"").Trace events (.ok out) ∧
      sent events = [["SET", "k"]] ∧
      writtenCommands "SET k \"#fff\"" = [["SET", "k", "#fff"]] := by
  obtain ⟨events, out, h⟩ := execRedisInner_completes "SET k \"#fff\""
  refine ⟨events, out, h, ?_, by decide⟩
  rw [sent_commands h]
  decide

end Commands

end PlaygroundRedis
