import Playground.RustText

/-! # Texts with keys in braces

Replacing keys in braces by values, one key after the other or all in one pass. In a text whose
braces are not nested both give the same, since no value brings a brace. -/
namespace BracedKeys

open RustText

def braced (key : List Char) : List Char := '\x7b' :: (key ++ ['\x7d'])

def BraceFree (s : List Char) : Prop := '\x7b' ∉ s ∧ '\x7d' ∉ s

/-- No opening brace stands between an opening brace and the next closing one. -/
def Unnested (s : List Char) : Prop :=
  ∀ before inner after, s = before ++ '\x7b' :: (inner ++ '\x7d' :: after) → '\x7d' ∉ inner →
    '\x7b' ∉ inner

abbrev Table := List (List Char × List Char)

def replaceAll (table : Table) (s : List Char) : List Char :=
  table.foldl (fun s r => replace (braced r.1) r.2 s) s

/-- The entry of the table whose key stands in braces at the start of the text. -/
def entryAt (table : Table) (s : List Char) : Option (List Char × List Char) :=
  table.find? fun r => (braced r.1).isPrefixOf s

def passFrom (table : Table) : ℕ → List Char → List Char
  | _, [] => []
  | 0, c :: cs =>
    match entryAt table (c :: cs) with
    | some r => r.2 ++ passFrom table ((braced r.1).length - 1) cs
    | none => c :: passFrom table 0 cs
  | skip + 1, _ :: cs => passFrom table skip cs

/-- Every known key in braces is replaced by its value and everything else is copied. -/
def singlePass (table : Table) (s : List Char) : List Char := passFrom table 0 s

/-- A text piece by piece, with every opening brace paired with the next closing one. Where no
closing brace follows, anything may stand. -/
inductive Pieces (q : List Char → Prop) : List Char → Prop where
  | nil : Pieces q []
  | plain {c : Char} {s : List Char} (hc : c ≠ '\x7b') (h : Pieces q s) : Pieces q (c :: s)
  | braced {inner s : List Char} (hinner : q inner) (h : Pieces q s) :
    Pieces q (braced inner ++ s)
  | unclosed {s : List Char} (hs : '\x7d' ∉ s) : Pieces q ('\x7b' :: s)

/-- No brace stands in a piece. -/
abbrev Template (s : List Char) : Prop := Pieces BraceFree s

variable {key inner new s t : List Char} {c : Char} {table : Table}

section Pieces

theorem braced_append (key s : List Char) :
    braced key ++ s = '\x7b' :: (key ++ '\x7d' :: s) := by
  rw [braced, List.cons_append, List.append_assoc]
  rfl

theorem braced_ne_nil (key : List Char) : braced key ≠ [] := List.cons_ne_nil _ _

theorem closing_inj {a b : List Char} (ha : '\x7d' ∉ a) (hb : '\x7d' ∉ b)
    (h : a ++ '\x7d' :: s = b ++ '\x7d' :: t) : a = b ∧ s = t := by
  induction a generalizing b with
  | nil =>
    cases b with
    | nil => exact ⟨rfl, (List.cons.inj h).2⟩
    | cons d b => exact absurd (List.cons.inj h).1 fun heq => hb (heq ▸ List.mem_cons_self)
  | cons d a ih =>
    cases b with
    | nil => exact absurd (List.cons.inj h).1 fun heq => ha (heq ▸ List.mem_cons_self)
    | cons e b =>
      obtain ⟨rfl, hrest⟩ := List.cons.inj h
      obtain ⟨rfl, hst⟩ := ih (fun hm => ha (List.mem_cons_of_mem _ hm))
        (fun hm => hb (List.mem_cons_of_mem _ hm)) hrest
      exact ⟨rfl, hst⟩

theorem braced_prefix_iff (hkey : BraceFree key) (hinner : BraceFree inner) :
    braced key <+: braced inner ++ s ↔ key = inner := by
  constructor
  · rintro ⟨tail, htail⟩
    rw [braced_append, braced_append, List.cons.injEq] at htail
    exact (closing_inj hkey.2 hinner.2 htail.2).1
  · rintro rfl
    exact List.prefix_append _ _

theorem braced_prefix_plain (hc : c ≠ '\x7b') : ¬ braced key <+: c :: s := by
  intro hp
  exact hc (List.cons_prefix_cons.mp hp).1.symm

theorem braced_infix_unclosed (hs : '\x7d' ∉ s) : ¬ braced key <:+: '\x7b' :: s := by
  intro hp
  have hclosing : '\x7d' ∈ '\x7b' :: s := hp.subset (by simp [braced])
  rcases List.mem_cons.mp hclosing with heq | hmem
  · exact absurd heq (by decide)
  · exact hs hmem

end Pieces

section Templates

theorem BraceFree.tail (h : BraceFree (c :: s)) : c ≠ '\x7b' ∧ BraceFree s :=
  ⟨fun heq => h.1 (heq ▸ List.mem_cons_self), fun hm => h.1 (List.mem_cons_of_mem c hm),
    fun hm => h.2 (List.mem_cons_of_mem c hm)⟩

theorem Pieces.append {q : List Char → Prop} (hs : BraceFree s) (ht : Pieces q t) :
    Pieces q (s ++ t) := by
  induction s with
  | nil => exact ht
  | cons c s ih =>
    obtain ⟨hc, hrest⟩ := hs.tail
    exact .plain hc (ih hrest)

/-- Every text is put together from pieces without a closing brace. -/
theorem pieces (s : List Char) : Pieces (fun inner => '\x7d' ∉ inner) s := by
  induction hn : s.length using Nat.strong_induction_on generalizing s with
  | _ n ih =>
    cases s with
    | nil => exact .nil
    | cons c s =>
      rw [List.length_cons] at hn
      by_cases hc : c = '\x7b'
      · subst hc
        by_cases hclosing : '\x7d' ∈ s
        · obtain ⟨inner, after, rfl, hinner⟩ := List.eq_append_cons_of_mem hclosing
          rw [List.length_append, List.length_cons] at hn
          rw [← braced_append]
          exact .braced hinner (ih after.length (by omega) after rfl)
        · exact .unclosed hclosing
      · exact .plain hc (ih s.length (by omega) s rfl)

theorem Unnested.drop (h : Unnested (s ++ t)) : Unnested t := by
  intro before inner after ht
  refine h (s ++ before) inner after ?_
  rw [ht, List.append_assoc]

theorem template_of_unnested (h : Unnested s) : Template s := by
  induction pieces s with
  | nil => exact .nil
  | @plain c s hc _ ih =>
    have hrest : Unnested s := Unnested.drop (s := [c]) h
    exact .plain hc (ih hrest)
  | @braced inner s hinner _ ih =>
    have hopening : '\x7b' ∉ inner := h [] inner s (braced_append inner s) hinner
    exact .braced ⟨hopening, hinner⟩ (ih h.drop)
  | unclosed hs => exact .unclosed hs

/-- The pieces of a template are exactly the texts without nested braces. -/
theorem unnested_iff : Unnested s ↔ Template s := by
  refine ⟨template_of_unnested, fun h => ?_⟩
  induction h with
  | nil =>
    intro before inner after hsplit
    cases before <;> cases hsplit
  | plain hc _ ih =>
    intro before inner after hsplit hclosing
    cases before with
    | nil => exact absurd (List.cons.inj hsplit).1 hc
    | cons d before => exact ih before inner after (List.cons.inj hsplit).2 hclosing
  | @braced piece s hpiece _ ih =>
    intro before inner after hsplit hclosing
    rw [braced_append] at hsplit
    cases before with
    | nil =>
      have hsame := (closing_inj hpiece.2 hclosing (List.cons.inj hsplit).2).1
      rw [← hsame]
      exact hpiece.1
    | cons d before =>
      have hrest := (List.cons.inj hsplit).2
      rcases List.append_eq_append_iff.mp hrest with ⟨mid, hbefore, hmid⟩ | ⟨mid, hhead, hmid⟩
      · cases mid with
        | nil => exact absurd (List.cons.inj hmid).1 (by decide)
        | cons e mid => exact ih mid inner after (List.cons.inj hmid).2 hclosing
      · -- The opening brace would stand in the piece.
        cases mid with
        | nil => exact absurd (List.cons.inj hmid).1 (by decide)
        | cons e mid =>
          have hopening : '\x7b' ∈ piece := by
            rw [hhead, (List.cons.inj hmid).1]
            simp
          exact absurd hopening hpiece.1
  | unclosed hs =>
    intro before inner after hsplit
    have hmem : '\x7d' ∈ before ++ '\x7b' :: (inner ++ '\x7d' :: after) := by simp
    rw [← hsplit, List.mem_cons] at hmem
    rcases hmem with heq | hmem
    · exact absurd heq (by decide)
    · exact absurd hmem hs

end Templates

section Replacing

theorem replace_plain (hc : c ≠ '\x7b') (s : List Char) :
    replace (braced key) new (c :: s) = c :: replace (braced key) new s :=
  replace_cons (braced_prefix_plain hc)

theorem replace_append (hs : BraceFree s) (t : List Char) :
    replace (braced key) new (s ++ t) = s ++ replace (braced key) new t := by
  induction s with
  | nil => rfl
  | cons c s ih =>
    obtain ⟨hc, hrest⟩ := hs.tail
    rw [List.cons_append, replace_plain hc, ih hrest]
    rfl

/-- A piece in braces is replaced if it is the key, and kept as it is if not. -/
theorem replace_braced (hkey : BraceFree key) (hinner : BraceFree inner) (s : List Char) :
    replace (braced key) new (braced inner ++ s) =
      (if inner = key then new else braced inner) ++ replace (braced key) new s := by
  split
  · rename_i heq
    rw [heq, replace_match (braced_ne_nil key)]
  · rename_i hne
    have hfirst : ¬ braced key <+: braced inner ++ s := by
      rw [braced_prefix_iff hkey hinner]
      exact Ne.symm hne
    rw [braced_append] at hfirst
    rw [braced_append, replace_cons hfirst, replace_append hinner, replace_plain (by decide),
      ← braced_append]

theorem replace_unclosed (hs : '\x7d' ∉ s) :
    replace (braced key) new ('\x7b' :: s) = '\x7b' :: s :=
  replace_absent (braced_infix_unclosed hs)

theorem template_replace (h : Template s) (hkey : BraceFree key) (hnew : BraceFree new) :
    Template (replace (braced key) new s) := by
  induction h with
  | nil => exact .nil
  | plain hc _ ih =>
    rw [replace_plain hc]
    exact .plain hc ih
  | braced hinner _ ih =>
    rw [replace_braced hkey hinner]
    split
    · exact .append hnew ih
    · exact .braced hinner ih
  | unclosed hs =>
    rw [replace_unclosed hs]
    exact .unclosed hs

end Replacing

section Passing

/-- Keys and values of the table have no braces. -/
def Clean (table : Table) : Prop := ∀ r ∈ table, BraceFree r.1 ∧ BraceFree r.2

theorem passFrom_skip (table : Table) (skip : ℕ) (s : List Char) :
    passFrom table skip s = singlePass table (s.drop skip) := by
  induction skip generalizing s with
  | zero => rfl
  | succ skip ih =>
    cases s with
    | nil => rfl
    | cons c s => exact ih s

theorem pass_none (h : entryAt table (c :: s) = none) :
    singlePass table (c :: s) = c :: singlePass table s := by
  rw [singlePass, passFrom, h]
  rfl

theorem entryAt_none (h : ∀ r ∈ table, ¬ braced r.1 <+: s) : entryAt table s = none := by
  rw [entryAt, List.find?_eq_none]
  intro r hr
  rw [List.isPrefixOf_iff_prefix]
  exact h r hr

theorem pass_plain (hc : c ≠ '\x7b') (s : List Char) :
    singlePass table (c :: s) = c :: singlePass table s :=
  pass_none (entryAt_none fun _ _ => braced_prefix_plain hc)

theorem pass_append (hs : BraceFree s) (t : List Char) :
    singlePass table (s ++ t) = s ++ singlePass table t := by
  induction s with
  | nil => rfl
  | cons c s ih =>
    obtain ⟨hc, hrest⟩ := hs.tail
    rw [List.cons_append, pass_plain hc, ih hrest]
    rfl

theorem pass_unclosed (hs : '\x7d' ∉ s) : singlePass table ('\x7b' :: s) = '\x7b' :: s := by
  have hall : ∀ t, t <:+ '\x7b' :: s → singlePass table t = t := by
    intro t
    induction t with
    | nil => exact fun _ => rfl
    | cons c t ih =>
      intro ht
      have hnone : entryAt table (c :: t) = none := by
        refine entryAt_none fun r _ hp => ?_
        exact braced_infix_unclosed hs (hp.isInfix.trans ht.isInfix)
      rw [pass_none hnone, ih ((List.suffix_cons c t).trans ht)]
  exact hall _ List.suffix_rfl

/-- The value of a key, if the table has the key. -/
def valueOf (table : Table) (key : List Char) : Option (List Char) :=
  (table.find? fun r => r.1 == key).map Prod.snd

theorem entryAt_braced (htable : Clean table) (hinner : BraceFree inner) (s : List Char) :
    entryAt table (braced inner ++ s) = table.find? fun r => r.1 == inner := by
  induction table with
  | nil => rfl
  | cons r table ih =>
    have htest : (braced r.1).isPrefixOf (braced inner ++ s) = (r.1 == inner) := by
      rw [Bool.eq_iff_iff, List.isPrefixOf_iff_prefix,
        braced_prefix_iff (htable r List.mem_cons_self).1 hinner, beq_iff_eq]
    have hrest := ih fun r' hr' => htable r' (List.mem_cons_of_mem r hr')
    rw [entryAt, List.find?_cons, List.find?_cons, htest, ← hrest]
    rfl

theorem pass_braced (htable : Clean table) (hinner : BraceFree inner) (s : List Char) :
    singlePass table (braced inner ++ s) =
      (valueOf table inner).getD (braced inner) ++ singlePass table s := by
  have hentry := entryAt_braced htable hinner s
  rw [valueOf]
  cases hfind : table.find? (fun r => r.1 == inner) with
  | none =>
    rw [hfind, braced_append] at hentry
    rw [Option.map_none, Option.getD_none, braced_append, pass_none hentry, pass_append hinner,
      pass_plain (by decide), ← braced_append]
  | some r =>
    have hkey : r.1 = inner := by simpa using List.find?_some hfind
    rw [hfind, braced_append] at hentry
    rw [Option.map_some, Option.getD_some, braced_append, singlePass, passFrom, hentry]
    dsimp only
    rw [passFrom_skip, hkey, braced, List.length_cons, Nat.add_sub_cancel, List.length_append]
    have hdrop : (inner ++ '\x7d' :: s).drop (inner.length + ['\x7d'].length) = s := by
      rw [← List.drop_drop, List.drop_left]
      rfl
    rw [hdrop]

end Passing

section Equality

/-- Replacing one key first and the others in one pass is one pass for all. -/
theorem pass_replace {r : List Char × List Char} (htable : Clean (r :: table)) (h : Template s) :
    singlePass table (replace (braced r.1) r.2 s) = singlePass (r :: table) s := by
  obtain ⟨hkey, hvalue⟩ := htable r List.mem_cons_self
  have hrest : Clean table := fun r' hr' => htable r' (List.mem_cons_of_mem r hr')
  induction h with
  | nil => rfl
  | plain hc _ ih => rw [replace_plain hc, pass_plain hc, pass_plain hc, ih]
  | @braced inner s hinner _ ih =>
    rw [replace_braced hkey hinner, pass_braced htable hinner, valueOf, List.find?_cons, ← ih]
    by_cases heq : inner = r.1
    · rw [if_pos heq, pass_append hvalue, heq, beq_self_eq_true]
      rfl
    · rw [if_neg heq, pass_braced hrest hinner, valueOf,
        beq_eq_false_iff_ne.mpr (Ne.symm heq)]
  | unclosed hs => rw [replace_unclosed hs, pass_unclosed hs, pass_unclosed hs]

theorem pass_nil (h : Template s) : singlePass [] s = s := by
  have hclean : Clean [] := fun r hr => absurd hr List.not_mem_nil
  induction h with
  | nil => rfl
  | plain hc _ ih => rw [pass_plain hc, ih]
  | braced hinner _ ih =>
    rw [pass_braced hclean hinner, ih]
    rfl
  | unclosed hs => exact pass_unclosed hs

/-- The replacements one after the other do what one pass does. -/
theorem replaceAll_eq_pass (htable : Clean table) (h : Template s) :
    replaceAll table s = singlePass table s := by
  induction table generalizing s with
  | nil => exact (pass_nil h).symm
  | cons r table ih =>
    have hr := htable r List.mem_cons_self
    have hrest : Clean table := fun r' hr' => htable r' (List.mem_cons_of_mem r hr')
    rw [← pass_replace htable h, ← ih hrest (template_replace h hr.1 hr.2)]
    rfl

theorem valueOf_eq_some (hkeys : (table.map Prod.fst).Nodup) {value : List Char} :
    valueOf table key = some value ↔ (key, value) ∈ table := by
  induction table with
  | nil => simp [valueOf]
  | cons r table ih =>
    rw [List.map_cons, List.nodup_cons] at hkeys
    rw [valueOf, List.find?_cons]
    by_cases heq : r.1 = key
    · subst heq
      rw [beq_self_eq_true, List.mem_cons]
      constructor
      · intro hvalue
        left
        rw [← Option.some.inj hvalue]
      · rintro (hsame | hmem)
        · rw [← hsame]
          rfl
        · exact absurd (List.mem_map_of_mem hmem) hkeys.1
    · have hne : (key, value) ≠ r := fun h => heq (h ▸ rfl)
      rw [beq_eq_false_iff_ne.mpr heq, List.mem_cons]
      refine (ih hkeys.2).trans ⟨Or.inr, ?_⟩
      rintro (h | h)
      · exact absurd h hne
      · exact h

theorem valueOf_perm {table' : Table} (hkeys : (table.map Prod.fst).Nodup)
    (hperm : table'.Perm table) (key : List Char) : valueOf table' key = valueOf table key := by
  have hkeys' : (table'.map Prod.fst).Nodup := (hperm.map Prod.fst).nodup_iff.mpr hkeys
  apply Option.ext
  intro value
  rw [valueOf_eq_some hkeys, valueOf_eq_some hkeys', hperm.mem_iff]

theorem pass_perm {table' : Table} (htable : Clean table) (hkeys : (table.map Prod.fst).Nodup)
    (hperm : table'.Perm table) (h : Template s) : singlePass table' s = singlePass table s := by
  have htable' : Clean table' := fun r hr => htable r (hperm.mem_iff.mp hr)
  induction h with
  | nil => rfl
  | plain hc _ ih => rw [pass_plain hc, pass_plain hc, ih]
  | braced hinner _ ih =>
    rw [pass_braced htable hinner, pass_braced htable' hinner, valueOf_perm hkeys hperm, ih]
  | unclosed hs => rw [pass_unclosed hs, pass_unclosed hs]

/-- The order of the replacements does not matter. -/
theorem replaceAll_perm {table' : Table} (htable : Clean table)
    (hkeys : (table.map Prod.fst).Nodup) (hperm : table'.Perm table) (h : Template s) :
    replaceAll table' s = replaceAll table s := by
  have htable' : Clean table' := fun r hr => htable r (hperm.mem_iff.mp hr)
  rw [replaceAll_eq_pass htable h, replaceAll_eq_pass htable' h, pass_perm htable hkeys hperm h]

end Equality

section Remaining

theorem not_infix_append (hs : BraceFree s) (h : ¬ braced key <:+: t) :
    ¬ braced key <:+: s ++ t := by
  induction s with
  | nil => exact h
  | cons c s ih =>
    obtain ⟨hc, hrest⟩ := hs.tail
    rw [List.cons_append, List.infix_cons_iff, not_or]
    exact ⟨braced_prefix_plain hc, ih hrest⟩

/-- After the pass no key of the table stands in braces anywhere. -/
theorem pass_complete (htable : Clean table) (h : Template s) {r : List Char × List Char}
    (hr : r ∈ table) : ¬ braced r.1 <:+: singlePass table s := by
  induction h with
  | nil =>
    intro hp
    exact braced_ne_nil r.1 (List.infix_nil.mp hp)
  | plain hc _ ih =>
    rw [pass_plain hc, List.infix_cons_iff, not_or]
    exact ⟨braced_prefix_plain hc, ih⟩
  | @braced inner s hinner _ ih =>
    rw [pass_braced htable hinner, valueOf]
    cases hfind : table.find? (fun r => r.1 == inner) with
    | some r' =>
      exact not_infix_append (htable r' (List.mem_of_find?_eq_some hfind)).2 ih
    | none =>
      have hne : r.1 ≠ inner := by
        have hnone := List.find?_eq_none.mp hfind r hr
        simpa using hnone
      have hfirst : ¬ braced r.1 <+: braced inner ++ singlePass table s := by
        rw [braced_prefix_iff (htable r hr).1 hinner]
        exact hne
      rw [braced_append] at hfirst
      rw [Option.map_none, Option.getD_none, braced_append, List.infix_cons_iff, not_or]
      refine ⟨hfirst, not_infix_append hinner ?_⟩
      rw [List.infix_cons_iff, not_or]
      exact ⟨braced_prefix_plain (by decide), ih⟩
  | unclosed hs =>
    rw [pass_unclosed hs]
    exact braced_infix_unclosed hs

end Remaining

section Untouched

theorem replaceAll_append (front back : Table) (s : List Char) :
    replaceAll (front ++ back) s = replaceAll back (replaceAll front s) := List.foldl_append

/-- No step changes a text whose placeholders, if it has any, stand for themselves. -/
theorem untouched_iff : (∀ steps, steps <+: table → replaceAll steps s = s) ↔
    ∀ r ∈ table, braced r.1 <:+: s → r.2 = braced r.1 := by
  constructor
  · intro h r hr
    obtain ⟨front, back, rfl⟩ := List.append_of_mem hr
    have hfront : replaceAll front s = s := h front (List.prefix_append _ _)
    have hstep : replaceAll (front ++ [r]) s = s := by
      apply h
      exact ⟨back, by rw [List.append_assoc, List.singleton_append]⟩
    rw [replaceAll_append, hfront] at hstep
    exact (replace_eq_self_iff (braced_ne_nil r.1)).mp hstep
  · intro h
    induction table with
    | nil =>
      intro steps hsteps
      rw [List.prefix_nil.mp hsteps]
      rfl
    | cons r table ih =>
      intro steps hsteps
      rcases List.prefix_cons_iff.mp hsteps with rfl | ⟨rest, rfl, hprefix⟩
      · rfl
      have hself : replace (braced r.1) r.2 s = s :=
        (replace_eq_self_iff (braced_ne_nil r.1)).mpr (h r List.mem_cons_self)
      have hrest := ih (fun r' hr' => h r' (List.mem_cons_of_mem r hr')) rest hprefix
      change replaceAll rest (replace (braced r.1) r.2 s) = s
      rw [hself, hrest]

/-- A value without an opening brace takes away the braces of what it replaces. -/
theorem replace_count (key : List Char) (hnew : '\x7b' ∉ new) (s : List Char) :
    (replace (braced key) new s).count '\x7b' ≤ s.count '\x7b' ∧
      (braced key <:+: s → (replace (braced key) new s).count '\x7b' < s.count '\x7b') := by
  obtain ⟨k, hk, hpos⟩ := replace_measure (braced_ne_nil key)
    (f := List.count '\x7b') (fun _ _ => List.count_append) new s
  have hkey : 0 < (braced key).count '\x7b' := List.count_pos_iff.mpr List.mem_cons_self
  rw [List.count_eq_zero.mpr hnew, Nat.mul_zero, Nat.add_zero] at hk
  refine ⟨by omega, fun hp => ?_⟩
  have hmatch : 0 < k * (braced key).count '\x7b' := Nat.mul_pos (hpos hp) hkey
  omega

theorem replaceAll_count (hvalues : ∀ r ∈ table, '\x7b' ∉ r.2) (s : List Char) :
    (replaceAll table s).count '\x7b' ≤ s.count '\x7b' ∧
      ((∃ r ∈ table, braced r.1 <:+: s) →
        (replaceAll table s).count '\x7b' < s.count '\x7b') := by
  induction table generalizing s with
  | nil => exact ⟨Nat.le_refl _, fun ⟨r, hr, _⟩ => absurd hr List.not_mem_nil⟩
  | cons r table ih =>
    have hfirst := replace_count r.1 (hvalues r List.mem_cons_self) s
    have hrest := ih (fun r' hr' => hvalues r' (List.mem_cons_of_mem r hr'))
      (replace (braced r.1) r.2 s)
    have hcons : replaceAll (r :: table) s = replaceAll table (replace (braced r.1) r.2 s) := rfl
    rw [hcons]
    refine ⟨Nat.le_trans hrest.1 hfirst.1, ?_⟩
    rintro ⟨r', hr', hp⟩
    by_cases hoccurs : braced r.1 <:+: s
    · exact Nat.lt_of_le_of_lt hrest.1 (hfirst.2 hoccurs)
    · rw [replace_absent hoccurs] at hrest ⊢
      rcases List.mem_cons.mp hr' with rfl | hr'
      · exact absurd hp hoccurs
      · exact hrest.2 ⟨r', hr', hp⟩

end Untouched

section Scanning

/-- A scan that pairs an opening brace with the next closing one and goes on behind it, up to the
first piece that passes the test. -/
def firstPaired (test : List Char → Bool) : List Char → Option (List Char)
  | [] => none
  | c :: s =>
    if c = '\x7b' then
      if '\x7d' ∈ s then
        let inner := s.takeWhile (· != '\x7d')
        if test inner then some inner
        else firstPaired test ((s.dropWhile (· != '\x7d')).drop 1)
      else none
    else firstPaired test s
  termination_by s => s.length
  decreasing_by
    · have := (List.dropWhile_sublist (· != '\x7d') (l := s)).length_le
      simp only [List.length_drop, List.length_cons]
      omega
    · simp

def OpenAfter (s : List Char) : Prop :=
  ∃ before inside, s = before ++ '\x7b' :: inside ∧ '\x7d' ∉ inside

/-- The leftmost of the fragments in braces that meet a condition and stand at a good place. -/
def Leftmost (good p : List Char → Prop) (s t : List Char) : Prop :=
  ∃ before after, s = before ++ (braced t ++ after) ∧ p t ∧ good before ∧
    ∀ before' t' after', s = before' ++ (braced t' ++ after') → p t' → good before' →
      before.length ≤ before'.length

variable {test : List Char → Bool} {good p : List Char → Prop} {before after : List Char}

theorem firstPaired_plain (hc : c ≠ '\x7b') (s : List Char) :
    firstPaired test (c :: s) = firstPaired test s := by
  rw [firstPaired, if_neg hc]

theorem firstPaired_unclosed (hs : '\x7d' ∉ s) : firstPaired test ('\x7b' :: s) = none := by
  rw [firstPaired, if_pos rfl, if_neg hs]

theorem firstPaired_braced (hinner : '\x7d' ∉ inner) (s : List Char) :
    firstPaired test (braced inner ++ s) =
      if test inner then some inner else firstPaired test s := by
  have hplain : ∀ c ∈ inner, (c != '\x7d') = true := by
    intro c hc
    rw [bne_iff_ne]
    exact fun heq => hinner (heq ▸ hc)
  rw [braced_append, firstPaired, if_pos rfl, if_pos (by simp),
    List.takeWhile_append_of_pos hplain, List.dropWhile_append_of_pos hplain]
  simp

theorem openAfter_plain (hc : c ≠ '\x7b') : OpenAfter (c :: s) ↔ OpenAfter s := by
  constructor
  · rintro ⟨before, inside, hsplit, hinside⟩
    cases before with
    | nil => exact absurd (List.cons.inj hsplit).1 hc
    | cons d before => exact ⟨before, inside, (List.cons.inj hsplit).2, hinside⟩
  · rintro ⟨before, inside, rfl, hinside⟩
    exact ⟨c :: before, inside, rfl, hinside⟩

theorem not_openAfter_nil : ¬ OpenAfter [] := by
  rintro ⟨before, inside, hsplit, -⟩
  cases before <;> cases hsplit

theorem openAfter_braced (inner s : List Char) :
    OpenAfter (braced inner ++ s) ↔ OpenAfter s := by
  rw [braced_append]
  constructor
  · rintro ⟨before, inside, hsplit, hinside⟩
    rw [← List.cons_append] at hsplit
    rcases List.append_eq_append_iff.mp hsplit with ⟨mid, hbefore, hmid⟩ | ⟨mid, hhead, hmid⟩
    · cases mid with
      | nil => exact absurd (List.cons.inj hmid).1 (by decide)
      | cons d mid =>
        exact ⟨mid, inside, (List.cons.inj hmid).2, hinside⟩
    · -- The waiting brace would be the first one, which is closed.
      cases mid with
      | nil => exact absurd (List.cons.inj hmid).1 (by decide)
      | cons d mid =>
        have hclosing : '\x7d' ∈ inside := by
          rw [(List.cons.inj hmid).2]
          simp
        exact absurd hclosing hinside
  · rintro ⟨before, inside, rfl, hinside⟩
    exact ⟨'\x7b' :: (inner ++ '\x7d' :: before), inside, by simp, hinside⟩

/-- A fragment with nothing open before it is the first piece or stands behind it. -/
theorem first_or_behind (hinner : '\x7d' ∉ inner) (ht : '\x7d' ∉ t) (hopen : ¬ OpenAfter before)
    (h : braced inner ++ s = before ++ (braced t ++ after)) :
    before = [] ∧ t = inner ∨
      ∃ rest, before = braced inner ++ rest ∧ s = rest ++ (braced t ++ after) := by
  cases before with
  | nil =>
    rw [List.nil_append, braced_append, braced_append, List.cons.injEq] at h
    exact Or.inl ⟨rfl, (closing_inj hinner ht h.2).1.symm⟩
  | cons c before =>
    rw [braced_append, List.cons_append, List.cons.injEq] at h
    obtain ⟨rfl, h⟩ := h
    by_cases hclosing : '\x7d' ∈ before
    · obtain ⟨inside, rest, rfl, hinside⟩ := List.eq_append_cons_of_mem hclosing
      rw [List.append_assoc, List.cons_append] at h
      obtain ⟨rfl, hs⟩ := closing_inj hinner hinside h
      exact Or.inr ⟨rest, (braced_append _ _).symm, hs⟩
    · exact absurd ⟨[], before, rfl, hclosing⟩ hopen

/-- What the scan finds is a fragment, and the leftmost one with nothing open before it. -/
theorem firstPaired_leftmost (htest : ∀ t, test t = true → '\x7d' ∉ t)
    (h : firstPaired test s = some t) :
    Leftmost (fun before => ¬ OpenAfter before) (fun t => test t = true) s t := by
  induction pieces s with
  | nil =>
    rw [firstPaired] at h
    cases h
  | @plain c s hc _ ih =>
    rw [firstPaired_plain hc] at h
    obtain ⟨before, after, rfl, ht, hopen, hleft⟩ := ih h
    refine ⟨c :: before, after, rfl, ht, mt (openAfter_plain hc).mp hopen, ?_⟩
    intro before' t' after' hsplit ht' hopen'
    cases before' with
    | nil => exact absurd (List.cons.inj hsplit).1 hc
    | cons d before' =>
      obtain ⟨rfl, hrest⟩ := List.cons.inj hsplit
      have hlen := hleft before' t' after' hrest ht' (mt (openAfter_plain hc).mpr hopen')
      simp only [List.length_cons]
      omega
  | @braced inner s hinner _ ih =>
    rw [firstPaired_braced hinner] at h
    split at h
    · rename_i hpasses
      cases h
      exact ⟨[], s, rfl, hpasses, not_openAfter_nil, fun _ _ _ _ _ _ => Nat.zero_le _⟩
    · rename_i hfails
      obtain ⟨before, after, rfl, ht, hopen, hleft⟩ := ih h
      refine ⟨braced inner ++ before, after, by rw [List.append_assoc], ht,
        mt (openAfter_braced inner _).mp hopen, ?_⟩
      intro before' t' after' hsplit ht' hopen'
      rcases first_or_behind hinner (htest t' ht') hopen' hsplit with
        ⟨-, rfl⟩ | ⟨rest, rfl, hrest⟩
      · exact absurd ht' hfails
      · have hlen := hleft rest t' after' hrest ht' (mt (openAfter_braced inner _).mpr hopen')
        simp only [List.length_append]
        omega
  | unclosed hs =>
    rw [firstPaired_unclosed hs] at h
    cases h

theorem firstPaired_none (htest : ∀ t, test t = true → '\x7d' ∉ t) (h : firstPaired test s = none)
    (hsplit : s = before ++ (braced t ++ after)) (ht : test t = true) : OpenAfter before := by
  by_contra hopen
  induction pieces s generalizing before with
  | nil =>
    cases before <;> cases hsplit
  | @plain c s hc _ ih =>
    rw [firstPaired_plain hc] at h
    cases before with
    | nil => exact hc (List.cons.inj hsplit).1
    | cons d before =>
      obtain ⟨rfl, hrest⟩ := List.cons.inj hsplit
      exact ih h hrest (mt (openAfter_plain hc).mpr hopen)
  | @braced inner s hinner _ ih =>
    rw [firstPaired_braced hinner] at h
    split at h
    · cases h
    · rename_i hfails
      rcases first_or_behind hinner (htest t ht) hopen hsplit with ⟨-, rfl⟩ | ⟨rest, rfl, hrest⟩
      · exact hfails ht
      · exact ih h hrest (mt (openAfter_braced inner _).mpr hopen)
  | unclosed hs =>
    have hfragment : braced t <:+: before ++ (braced t ++ after) := ⟨before, after, by simp⟩
    rw [← hsplit] at hfragment
    exact braced_infix_unclosed hs hfragment

theorem Leftmost.unique (hp : ∀ t, p t → '\x7d' ∉ t) {t' : List Char} (h : Leftmost good p s t)
    (h' : Leftmost good p s t') : t = t' := by
  obtain ⟨before, after, hsplit, ht, hgood, hleft⟩ := h
  obtain ⟨before', after', hsplit', ht', hgood', hleft'⟩ := h'
  have hlen : before.length = before'.length :=
    Nat.le_antisymm (hleft _ _ _ hsplit' ht' hgood') (hleft' _ _ _ hsplit ht hgood)
  rw [hsplit] at hsplit'
  have hrest := (List.append_inj hsplit' hlen).2
  rw [braced_append, braced_append, List.cons.injEq] at hrest
  exact (closing_inj (hp t ht) (hp t' ht') hrest.2).1

theorem exists_leftmost (hsplit : s = before ++ (braced t ++ after)) (ht : p t)
    (hgood : good before) : ∃ t, Leftmost good p s t := by
  induction hn : before.length using Nat.strong_induction_on generalizing before t after with
  | _ n ih =>
    by_cases hleft : ∀ before' t' after', s = before' ++ (braced t' ++ after') → p t' →
        good before' → before.length ≤ before'.length
    · exact ⟨t, before, after, hsplit, ht, hgood, hleft⟩
    · simp only [not_forall, not_le] at hleft
      obtain ⟨before', t', after', hsplit', ht', hgood', hlt⟩ := hleft
      exact ih before'.length (by omega) hsplit' ht' hgood' rfl

theorem firstPaired_iff (htest : ∀ t, test t = true → '\x7d' ∉ t) :
    firstPaired test s = some t ↔
      Leftmost (fun before => ¬ OpenAfter before) (fun t => test t = true) s t := by
  constructor
  · exact firstPaired_leftmost htest
  · intro h
    cases hfound : firstPaired test s with
    | some t' => rw [(firstPaired_leftmost htest hfound).unique htest h]
    | none =>
      obtain ⟨before, after, hsplit, ht, hopen, -⟩ := h
      exact absurd (firstPaired_none htest hfound hsplit ht) hopen

end Scanning

end BracedKeys
