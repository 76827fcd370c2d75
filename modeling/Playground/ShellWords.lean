import Playground.RustText

/-! # Shell command lines

The part of the shell grammar that a command line of quoted words needs: blanks, single quotes,
backslashes, `;`, `&&`, `||` and output redirections. A character with another meaning to the
shell is refused, so what is read is what the shell reads. -/
namespace ShellWords

/-- `;`, `&&` and `||`. -/
inductive Connector where
  | always
  | onSuccess
  | onFailure
  deriving DecidableEq, Repr

inductive Token where
  | word (text : List Char)
  | separator (connector : Connector)
  | redirect
  deriving DecidableEq, Repr

inductive Mode where
  | plain
  | quoted
  | escaped
  | ampersand
  | bar
  | greater
  deriving DecidableEq, Repr

structure Lexer where
  mode : Mode
  word : Option (List Char)
  tokens : List Token
  deriving DecidableEq, Repr

namespace Lexer

def flush (l : Lexer) : List Token :=
  match l.word with
  | none => l.tokens
  | some w => .word w.reverse :: l.tokens

def push (l : Lexer) (c : Char) : Lexer :=
  { l with mode := .plain, word := some (c :: l.word.getD []) }

def special (c : Char) : Bool := "\"$`\n()<#*?[]!{}~=%".toList.contains c

/-- A number right before `>` names a file descriptor and is no word. -/
def isNumber (w : Option (List Char)) : Bool :=
  match w with
  | none => false
  | some w => w.all Char.isDigit

def plainStep (l : Lexer) (c : Char) : Option Lexer :=
  if c == '\'' then some { l with mode := .quoted, word := some (l.word.getD []) }
  else if c == '\\' then some { l with mode := .escaped }
  else if c == ' ' || c == '\t' then some ⟨.plain, none, l.flush⟩
  else if c == ';' then some ⟨.plain, none, .separator .always :: l.flush⟩
  else if c == '&' then some ⟨.ampersand, none, l.flush⟩
  else if c == '|' then some ⟨.bar, none, l.flush⟩
  else if c == '>' then
    some ⟨.greater, none, .redirect :: if isNumber l.word then l.tokens else l.flush⟩
  else if special c then none
  else some (l.push c)

def step (l : Lexer) (c : Char) : Option Lexer :=
  match l.mode with
  | .plain => l.plainStep c
  | .quoted =>
    if c == '\'' then some { l with mode := .plain }
    else some { l with word := some (c :: l.word.getD []) }
  | .escaped => if c == '\n' then none else some (l.push c)
  | .ampersand =>
    if c == '&' then some ⟨.plain, none, .separator .onSuccess :: l.tokens⟩ else none
  | .bar => if c == '|' then some ⟨.plain, none, .separator .onFailure :: l.tokens⟩ else none
  | .greater => if c == '&' then some { l with mode := .plain } else
    plainStep { l with mode := .plain } c

def run (l : Lexer) (text : List Char) : Option Lexer := text.foldlM step l

theorem run_append (l : Lexer) (a b : List Char) :
    l.run (a ++ b) = (l.run a).bind fun l' => l'.run b := List.foldlM_append

theorem run_cons (l : Lexer) (c : Char) (text : List Char) :
    l.run (c :: text) = (l.step c).bind fun l' => l'.run text := List.foldlM_cons

def after (l : Lexer) (ts : List Token) : Lexer := { l with tokens := l.tokens ++ ts }

theorem flush_after (l : Lexer) (ts : List Token) : (l.after ts).flush = l.flush ++ ts := by
  unfold flush after
  cases l.word with
  | none => rfl
  | some w => rfl

theorem plainStep_after (l : Lexer) (ts : List Token) (c : Char) :
    (l.after ts).plainStep c = (l.plainStep c).map fun l' => l'.after ts := by
  unfold plainStep
  rw [flush_after l ts]
  by_cases hquote : (c == '\'') = true
  · rw [if_pos hquote, if_pos hquote]
    rfl
  rw [if_neg hquote, if_neg hquote]
  by_cases hescape : (c == '\\') = true
  · rw [if_pos hescape, if_pos hescape]
    rfl
  rw [if_neg hescape, if_neg hescape]
  by_cases hblank : (c == ' ' || c == '\t') = true
  · rw [if_pos hblank, if_pos hblank]
    rfl
  rw [if_neg hblank, if_neg hblank]
  by_cases hsemi : (c == ';') = true
  · rw [if_pos hsemi, if_pos hsemi]
    rfl
  rw [if_neg hsemi, if_neg hsemi]
  by_cases hamp : (c == '&') = true
  · rw [if_pos hamp, if_pos hamp]
    rfl
  rw [if_neg hamp, if_neg hamp]
  by_cases hbar : (c == '|') = true
  · rw [if_pos hbar, if_pos hbar]
    rfl
  rw [if_neg hbar, if_neg hbar]
  by_cases hgreater : (c == '>') = true
  · rw [if_pos hgreater, if_pos hgreater]
    by_cases hnum : isNumber l.word = true
    · have hnum' : isNumber (l.after ts).word = true := hnum
      rw [if_pos hnum, if_pos hnum']
      rfl
    · have hnum' : ¬ isNumber (l.after ts).word = true := hnum
      rw [if_neg hnum, if_neg hnum']
      rfl
  rw [if_neg hgreater, if_neg hgreater]
  by_cases hspecial : special c = true
  · rw [if_pos hspecial, if_pos hspecial]
    rfl
  rw [if_neg hspecial, if_neg hspecial]
  rfl

/-- What was read before does not change how a line is read. -/
theorem step_after (l : Lexer) (ts : List Token) (c : Char) :
    (l.after ts).step c = (l.step c).map fun l' => l'.after ts := by
  obtain ⟨mode, w, tokens⟩ := l
  cases mode with
  | plain => exact plainStep_after _ ts c
  | greater =>
    by_cases hc : (c == '&') = true
    · simp [step, after, hc]
    · simp only [step, after, hc, Bool.false_eq_true, if_false]
      exact plainStep_after ⟨.plain, w, tokens⟩ ts c
  | quoted => by_cases hc : (c == '\'') = true <;> simp [step, after, hc]
  | escaped => by_cases hc : (c == '\n') = true <;> simp [step, after, push, hc]
  | ampersand => by_cases hc : (c == '&') = true <;> simp [step, after, hc]
  | bar => by_cases hc : (c == '|') = true <;> simp [step, after, hc]

theorem run_after (l : Lexer) (ts : List Token) (text : List Char) :
    (l.after ts).run text = (l.run text).map fun l' => l'.after ts := by
  induction text generalizing l with
  | nil => rfl
  | cons c text ih =>
    rw [run_cons, run_cons, step_after]
    cases l.step c with
    | none => rfl
    | some l' => exact ih l'

theorem run_then {l l' : Lexer} {a : List Char} (h : l.run a = some l') (b : List Char) :
    l.run (a ++ b) = l'.run b := by
  rw [run_append, h, Option.bind_some]

theorem run_blank {text : List Char} {w' : Option (List Char)} {new : List Token}
    (hblank : text.head? = some ' ')
    (h : run ⟨.plain, none, []⟩ text = some ⟨.plain, w', new⟩) (w : List Char) (ts : List Token) :
    run ⟨.plain, some w, ts⟩ text = some ⟨.plain, w', new ++ .word w.reverse :: ts⟩ := by
  cases text with
  | nil => cases hblank
  | cons c text =>
    cases hblank
    have hstep : step ⟨.plain, some w, ts⟩ ' ' =
        some (after ⟨.plain, none, []⟩ (.word w.reverse :: ts)) := rfl
    have hstart : step ⟨.plain, none, []⟩ ' ' = some ⟨.plain, none, []⟩ := rfl
    rw [run_cons, hstart, Option.bind_some] at h
    rw [run_cons, hstep, Option.bind_some, run_after, h]
    rfl

theorem run_slash (w : List Char) (ts : List Token) :
    run ⟨.plain, some w, ts⟩ ['/'] = some ⟨.plain, some ('/' :: w), ts⟩ := rfl

end Lexer

/-- A text in single quotes, with every quote in it closed, escaped and opened again. -/
def quote (s : List Char) : List Char :=
  '\'' :: (s.flatMap (fun c => if c == '\'' then ['\'', '\\', '\'', '\''] else [c]) ++ ['\''])

section Occurrences

variable {pat : List Char}

/-- Quoting changes a text at its quotes only. -/
theorem prefix_quoted (hquote : '\'' ∉ pat) (s : List Char) :
    pat <+: s.flatMap (fun c => if c == '\'' then ['\'', '\\', '\'', '\''] else [c]) ↔
      pat <+: s := by
  induction s generalizing pat with
  | nil => rfl
  | cons c s ih =>
    cases pat with
    | nil => exact iff_of_true List.nil_prefix List.nil_prefix
    | cons d pat =>
      rw [List.mem_cons, not_or] at hquote
      rw [List.flatMap_cons]
      by_cases hc : (c == '\'') = true
      · rw [if_pos hc, eq_of_beq hc, List.cons_append, List.cons_prefix_cons,
          List.cons_prefix_cons]
        exact iff_of_false (fun h => hquote.1 h.1.symm) fun h => hquote.1 h.1.symm
      · rw [if_neg hc, List.singleton_append, List.cons_prefix_cons, List.cons_prefix_cons,
          ih hquote.2]

theorem infix_quoted (hquote : '\'' ∉ pat) (hescape : '\\' ∉ pat) (s : List Char) :
    pat <:+: s.flatMap (fun c => if c == '\'' then ['\'', '\\', '\'', '\''] else [c]) ↔
      pat <:+: s := by
  cases pat with
  | nil => exact iff_of_true List.nil_infix List.nil_infix
  | cons d pat =>
    have hquotes : d ≠ '\'' := fun h => hquote (h ▸ List.mem_cons_self)
    have hescapes : d ≠ '\\' := fun h => hescape (h ▸ List.mem_cons_self)
    induction s with
    | nil => rfl
    | cons c s ih =>
      have hprefix := prefix_quoted hquote (c :: s)
      rw [List.infix_cons_iff (a := c)]
      refine Iff.trans ?_ (or_congr hprefix ih)
      rw [List.flatMap_cons]
      by_cases hc : (c == '\'') = true
      · rw [if_pos hc]
        simp [List.infix_cons_iff, List.cons_prefix_cons, hquotes, hescapes]
      · rw [if_neg hc, List.singleton_append, List.infix_cons_iff]

theorem infix_append_quoted (hquote : '\'' ∉ pat) (hescape : '\\' ∉ pat) (a s b : List Char) :
    pat <:+: a ++ (quote s ++ b) ↔ pat <:+: a ∨ pat <:+: s ∨ pat <:+: b := by
  rw [quote, List.cons_append, List.append_assoc, List.singleton_append,
    RustText.infix_append_cons hquote, RustText.infix_append_cons hquote,
    infix_quoted hquote hescape]

end Occurrences

theorem count_quote {x : Char} (hquote : x ≠ '\'') (hescape : x ≠ '\\') (s : List Char) :
    (quote s).count x = s.count x := by
  have hquote' : ('\'' == x) = false := beq_eq_false_iff_ne.mpr hquote.symm
  have hescape' : ('\\' == x) = false := beq_eq_false_iff_ne.mpr hescape.symm
  have hbody : (s.flatMap fun c => if c == '\'' then ['\'', '\\', '\'', '\''] else [c]).count x =
      s.count x := by
    induction s with
    | nil => rfl
    | cons c s ih =>
      rw [List.flatMap_cons, List.count_append, ih, List.count_cons]
      by_cases hc : (c == '\'') = true
      · rw [if_pos hc, eq_of_beq hc, hquote']
        simp [List.count_cons, hquote', hescape']
      · rw [if_neg hc, List.count_singleton]
        omega
  rw [quote, List.count_cons, List.count_append, hbody, List.count_singleton, hquote']
  rfl

theorem run_quoted_body (s : List Char) (w : List Char) (tokens : List Token) :
    Lexer.run ⟨.quoted, some w, tokens⟩
      (s.flatMap (fun c => if c == '\'' then ['\'', '\\', '\'', '\''] else [c]) ++ ['\'']) =
      some ⟨.plain, some (s.reverse ++ w), tokens⟩ := by
  induction s generalizing w with
  | nil => rfl
  | cons c s ih =>
    rw [List.flatMap_cons, List.append_assoc, List.reverse_cons, List.append_assoc]
    by_cases hc : (c == '\'') = true
    · rw [if_pos hc, Lexer.run_append]
      have hquote : Lexer.run ⟨.quoted, some w, tokens⟩ ['\'', '\\', '\'', '\''] =
          some ⟨.quoted, some ('\'' :: w), tokens⟩ := rfl
      rw [hquote, Option.bind_some, ih, eq_of_beq hc]
      rfl
    · rw [if_neg hc, Lexer.run_append]
      have hplain : Lexer.run ⟨.quoted, some w, tokens⟩ [c] =
          some ⟨.quoted, some (c :: w), tokens⟩ := by
        simp [Lexer.run, Lexer.step, hc]
      rw [hplain, Option.bind_some, ih]
      rfl

/-- Quoted text adds exactly itself to the word being read. -/
theorem run_quote (s : List Char) (w : Option (List Char)) (tokens : List Token) :
    Lexer.run ⟨.plain, w, tokens⟩ (quote s) =
      some ⟨.plain, some (s.reverse ++ w.getD []), tokens⟩ := by
  have hopen : Lexer.step ⟨.plain, w, tokens⟩ '\'' =
      some ⟨.quoted, some (w.getD []), tokens⟩ := rfl
  rw [quote, Lexer.run_cons, hopen, Option.bind_some, run_quoted_body]

section Pieces

def pathChar (c : Char) : Bool := c.isAlphanum || "/._-".toList.contains c

inductive Piece where
  | quoted (text : List Char)
  | plain (c : Char) (h : pathChar c = true)

def Piece.text : Piece → List Char
  | .quoted text => text
  | .plain c _ => [c]

def Piece.written : Piece → List Char
  | .quoted text => quote text
  | .plain c _ => [c]

theorem step_pathChar {c : Char} (h : pathChar c = true) (w : Option (List Char))
    (ts : List Token) :
    Lexer.step ⟨.plain, w, ts⟩ c = some ⟨.plain, some (c :: w.getD []), ts⟩ := by
  have hother : ∀ d ∈ "'\\ \t;&|>\"$`\n()<#*?[]!\x7b\x7d~=%".toList, pathChar d = false :=
    List.all_iff_forall_prop.mp (by decide)
  have hne : ∀ d ∈ "'\\ \t;&|>\"$`\n()<#*?[]!\x7b\x7d~=%".toList, ¬ (c == d) = true := by
    intro d hd heq
    rw [eq_of_beq heq, hother d hd] at h
    exact Bool.false_ne_true h
  have hspecial : ¬ Lexer.special c = true := by
    rw [Lexer.special, List.contains_eq_any_beq, List.any_eq_true]
    rintro ⟨d, hd, heq⟩
    exact hne d (List.mem_append_right "'\\ \t;&|>".toList hd) heq
  change Lexer.plainStep ⟨.plain, w, ts⟩ c = _
  rw [Lexer.plainStep, if_neg (hne '\'' (by decide)), if_neg (hne '\\' (by decide)), if_neg,
    if_neg (hne ';' (by decide)), if_neg (hne '&' (by decide)), if_neg (hne '|' (by decide)),
    if_neg (hne '>' (by decide)), if_neg hspecial]
  · rfl
  · rw [Bool.or_eq_true]
    exact not_or.mpr ⟨hne ' ' (by decide), hne '\t' (by decide)⟩

theorem run_piece (p : Piece) (w : Option (List Char)) (ts : List Token) :
    Lexer.run ⟨.plain, w, ts⟩ p.written =
      some ⟨.plain, some (p.text.reverse ++ w.getD []), ts⟩ := by
  cases p with
  | quoted text => exact run_quote text w ts
  | plain c h =>
    rw [Piece.written, Lexer.run_cons, step_pathChar h]
    rfl

/-- Pieces add exactly their texts to the word being read, and leave the shell unquoted. -/
theorem run_pieces {pieces : List Piece} (hne : pieces ≠ []) (w : Option (List Char))
    (ts : List Token) : Lexer.run ⟨.plain, w, ts⟩ (pieces.flatMap Piece.written) =
      some ⟨.plain, some ((pieces.flatMap Piece.text).reverse ++ w.getD []), ts⟩ := by
  induction pieces generalizing w with
  | nil => exact absurd rfl hne
  | cons p pieces ih =>
    rw [List.flatMap_cons, List.flatMap_cons, Lexer.run_then (run_piece p w ts)]
    by_cases hrest : pieces = []
    · subst hrest
      rw [List.flatMap_nil, List.flatMap_nil, List.append_nil]
      rfl
    · rw [ih hrest, List.reverse_append, List.append_assoc]
      rfl

end Pieces

section Held

variable {x : Char} {l l' : Lexer} {c : Char}

def Token.text : Token → List Char
  | .word w => w
  | .separator _ => []
  | .redirect => []

namespace Lexer

def held (l : Lexer) : List Char := l.word.getD [] ++ l.tokens.flatMap Token.text

theorem count_flush (l : Lexer) :
    (l.flush.flatMap Token.text).count x = l.held.count x := by
  obtain ⟨mode, w, ts⟩ := l
  cases w with
  | none => rfl
  | some w =>
    have htext : Token.text (.word w.reverse) = w.reverse := rfl
    simp only [flush, held, List.flatMap_cons, htext, List.count_append, List.count_reverse,
      Option.getD_some]

theorem count_push (l : Lexer) (c : Char) :
    (l.push c).held.count x = l.held.count x + [c].count x := by
  simp only [push, held, Option.getD_some, List.count_append, List.count_cons, List.count_nil]
  omega

theorem plainStep_held (h : l.plainStep c = some l') :
    l'.held.count x ≤ l.held.count x + [c].count x := by
  have hflush : ∀ mode (ts : List Token), ts.flatMap Token.text = l.flush.flatMap Token.text →
      (held ⟨mode, none, ts⟩).count x ≤ l.held.count x + [c].count x := by
    intro mode ts hts
    have hheld : held ⟨mode, none, ts⟩ = l.flush.flatMap Token.text := hts
    rw [hheld, count_flush]
    apply Nat.le_add_right
  rw [plainStep] at h
  split at h
  · cases h
    apply Nat.le_add_right
  split at h
  · cases h
    apply Nat.le_add_right
  split at h
  · cases h
    exact hflush _ _ rfl
  split at h
  · cases h
    exact hflush _ _ rfl
  split at h
  · cases h
    exact hflush _ _ rfl
  split at h
  · cases h
    exact hflush _ _ rfl
  split at h
  · cases h
    by_cases hnumber : isNumber l.word = true
    · -- The number before a redirection is no word.
      rw [if_pos hnumber]
      have hheld : (held ⟨.greater, none, .redirect :: l.tokens⟩).count x ≤ l.held.count x := by
        simp only [held, Option.getD_none, List.nil_append, List.count_append, List.flatMap_cons,
          Token.text]
        apply Nat.le_add_left
      exact Nat.le_trans hheld (Nat.le_add_right _ _)
    · rw [if_neg hnumber]
      exact hflush _ _ rfl
  split at h
  · cases h
  · cases h
    exact Nat.le_of_eq (count_push l c)

theorem step_held (h : l.step c = some l') :
    l'.held.count x ≤ l.held.count x + [c].count x := by
  obtain ⟨mode, w, ts⟩ := l
  cases mode with
  | plain => exact plainStep_held h
  | quoted =>
    simp only [step] at h
    split at h
    · cases h
      apply Nat.le_add_right
    · cases h
      exact Nat.le_of_eq (count_push ⟨.quoted, w, ts⟩ c)
  | escaped =>
    simp only [step] at h
    split at h
    · cases h
    · cases h
      exact Nat.le_of_eq (count_push ⟨.escaped, w, ts⟩ c)
  | ampersand | bar =>
    simp only [step] at h
    split at h
    · cases h
      simp only [held, Option.getD_none, List.nil_append, List.flatMap_cons, Token.text,
        List.count_append]
      omega
    · cases h
  | greater =>
    simp only [step] at h
    split at h
    · cases h
      apply Nat.le_add_right
    · exact plainStep_held h

theorem run_held {text : List Char} (h : l.run text = some l') :
    l'.held.count x ≤ l.held.count x + text.count x := by
  induction text generalizing l with
  | nil =>
    cases h
    apply Nat.le_add_right
  | cons c text ih =>
    rw [run_cons] at h
    obtain ⟨l'', hstep, hrun⟩ := Option.bind_eq_some_iff.mp h
    have hfirst : l''.held.count x ≤ l.held.count x + [c].count x := step_held hstep
    have hrest := ih hrun
    have hcons : ([c] ++ text).count x = [c].count x + text.count x := List.count_append
    rw [List.singleton_append] at hcons
    omega

end Lexer

end Held

abbrev Argv := List (List Char)

/-- The simple commands of a line, each with what stands before it; the file of a redirection is no
argument. -/
def jobsOf (joint : Connector) (args : Argv) : List Token → List (Connector × Argv)
  | [] => [(joint, args.reverse)]
  | .word w :: ts => jobsOf joint (w :: args) ts
  | .separator next :: ts => (joint, args.reverse) :: jobsOf next [] ts
  | .redirect :: .word _ :: ts => jobsOf joint args ts
  | .redirect :: ts => jobsOf joint args ts

/-- A command line as a list of commands, `none` when the line uses more of the grammar. -/
def jobs (line : List Char) : Option (List (Connector × Argv)) :=
  match Lexer.run ⟨.plain, none, []⟩ line with
  | some ⟨.plain, w, tokens⟩ => some (jobsOf .always [] (Lexer.flush ⟨.plain, w, tokens⟩).reverse)
  | _ => none

def commands (line : List Char) : Option (List Argv) :=
  (jobs line).map fun all => all.map Prod.snd

theorem commands_pieces {pieces : List Piece} (hne : pieces ≠ []) :
    commands (pieces.flatMap Piece.written) = some [[pieces.flatMap Piece.text]] := by
  rw [commands, jobs, run_pieces hne]
  simp [Lexer.flush, jobsOf]

theorem count_jobsOf (x : Char) (joint : Connector) (args : Argv) (ts : List Token) :
    ((jobsOf joint args ts).map Prod.snd).flatten.flatten.count x ≤
      args.flatten.count x + (ts.flatMap Token.text).count x := by
  have hreverse : ∀ args : Argv, args.reverse.flatten.count x = args.flatten.count x :=
    fun args => (args.reverse_perm.flatten).count_eq x
  induction joint, args, ts using jobsOf.induct with
  | case1 joint args => simp [jobsOf, hreverse]
  | case2 joint args w ts ih =>
    rw [jobsOf]
    simp only [List.flatten_cons, List.flatMap_cons, Token.text, List.count_append] at ih ⊢
    omega
  | case3 joint args next ts ih =>
    rw [jobsOf]
    simp only [List.map_cons, List.flatten_cons, List.flatMap_cons, Token.text, List.count_append,
      List.flatten_append, hreverse, List.flatten_nil, List.count_nil] at ih ⊢
    omega
  | case4 joint args w ts ih =>
    rw [jobsOf]
    simp only [List.flatMap_cons, Token.text, List.count_append] at ih ⊢
    omega
  | case5 joint args ts hword ih =>
    rw [jobsOf]
    · simpa [Token.text] using ih
    · exact hword

theorem count_commands {line : List Char} {lists : List Argv} (h : commands line = some lists)
    (x : Char) : lists.flatten.flatten.count x ≤ line.count x := by
  rw [commands, jobs] at h
  split at h
  · rename_i w ts hrun
    cases h
    dsimp only
    have hheld := Lexer.run_held (x := x) hrun
    have hflush := Lexer.count_flush (x := x) ⟨.plain, w, ts⟩
    have hlists := count_jobsOf x .always [] (Lexer.flush ⟨.plain, w, ts⟩).reverse
    have hreverse : ((Lexer.flush ⟨.plain, w, ts⟩).reverse.flatMap Token.text).count x =
        ((Lexer.flush ⟨.plain, w, ts⟩).flatMap Token.text).count x :=
      ((List.reverse_perm _).flatMap_right Token.text).count_eq x
    have hstart : (Lexer.held ⟨.plain, none, []⟩).count x = 0 := rfl
    have hnil : ([] : Argv).flatten.count x = 0 := rfl
    omega
  · cases h

section Lists

variable {S : Type} {exec : S → Argv → Bool → S → Prop} {list : List (Connector × Argv)} {s s' : S}

/-- Whether a command is run after one that ended with this success. -/
def Connector.runs : Connector → Bool → Bool
  | .always, _ => true
  | .onSuccess, ok => ok
  | .onFailure, ok => !ok

/-- A list of commands from left to right, with the success of the last one that was run. -/
def RunsList (exec : S → Argv → Bool → S → Prop) : Bool → List (Connector × Argv) → S → S → Prop
  | _, [], s, s' => s' = s
  | last, (joint, argv) :: rest, s, s' =>
    if joint.runs last then ∃ ok t, exec s argv ok t ∧ RunsList exec ok rest t s'
    else RunsList exec last rest s s'

theorem RunsList.mono {exec' : S → Argv → Bool → S → Prop} {last : Bool}
    (hexec : ∀ s argv ok s', exec s argv ok s' → exec' s argv ok s')
    (h : RunsList exec last list s s') : RunsList exec' last list s s' := by
  induction list generalizing last s with
  | nil => exact h
  | cons job rest ih =>
    obtain ⟨joint, argv⟩ := job
    rw [RunsList] at h ⊢
    by_cases hruns : joint.runs last = true
    · rw [if_pos hruns] at h ⊢
      obtain ⟨ok, t, hfirst, hrest⟩ := h
      exact ⟨ok, t, hexec s argv ok t hfirst, ih hrest⟩
    · rw [if_neg hruns] at h ⊢
      exact ih h

/-- What every command of a list keeps the list keeps. -/
theorem RunsList.keeps {last : Bool} {Q : S → Prop} (h : RunsList exec last list s s')
    (hstep : ∀ joint argv, (joint, argv) ∈ list → ∀ t ok t', exec t argv ok t' → Q t → Q t')
    (hs : Q s) : Q s' := by
  induction list generalizing last s with
  | nil =>
    obtain rfl : s' = s := h
    exact hs
  | cons job rest ih =>
    obtain ⟨joint, argv⟩ := job
    have hrest : ∀ joint argv, (joint, argv) ∈ rest → ∀ t ok t', exec t argv ok t' → Q t → Q t' :=
      fun joint argv hmem => hstep joint argv (List.mem_cons_of_mem _ hmem)
    rw [RunsList] at h
    split at h
    · obtain ⟨ok, t, hexec, h⟩ := h
      exact ih h hrest (hstep joint argv List.mem_cons_self s ok t hexec hs)
    · exact ih h hrest hs

/-- In a list whose commands all succeed every one is run but those after `||`, so what one of them
brings about and none undoes holds in the end. -/
theorem RunsList.reaches {Q : S → Prop} {joint : Connector} {argv : Argv}
    (h : RunsList exec true list s s') (hok : ∀ argv t ok t', exec t argv ok t' → ok = true)
    (hmem : (joint, argv) ∈ list) (hjoint : joint ≠ .onFailure)
    (hset : ∀ t ok t', exec t argv ok t' → Q t')
    (hkeep : ∀ joint argv, (joint, argv) ∈ list → ∀ t ok t', exec t argv ok t' → Q t → Q t') :
    Q s' := by
  induction list generalizing s with
  | nil => cases hmem
  | cons job rest ih =>
    obtain ⟨joint', argv'⟩ := job
    have hrest : ∀ joint argv, (joint, argv) ∈ rest → ∀ t ok t', exec t argv ok t' → Q t → Q t' :=
      fun joint argv hmem => hkeep joint argv (List.mem_cons_of_mem _ hmem)
    rw [RunsList] at h
    rcases List.mem_cons.mp hmem with heq | hmem
    · cases heq
      have hruns : joint.runs true = true := by
        cases joint with
        | always => rfl
        | onSuccess => rfl
        | onFailure => exact absurd rfl hjoint
      rw [if_pos hruns] at h
      obtain ⟨ok, t, hexec, h⟩ := h
      exact h.keeps hrest (hset s ok t hexec)
    · split at h
      · obtain ⟨ok, t, hexec, h⟩ := h
        have htrue := hok argv' s ok t hexec
        subst htrue
        exact ih h hmem hrest
      · exact ih h hmem hrest

end Lists

example : jobs "mc rm 'a b'/c >/dev/null 2>&1 || true".toList =
    some [(.always, ["mc".toList, "rm".toList, "a b/c".toList]),
      (.onFailure, ["true".toList])] := by decide

end ShellWords
