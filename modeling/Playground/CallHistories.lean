import Mathlib.Data.List.Perm.Basic
import Mathlib.Data.Nat.Notation

/-! # Histories of calls

A component answers each call with a reply and a next state. An invariant of a history sees the
calls that are still to come, so that a condition on the whole history (no name is drawn twice)
can be handed down to each step. -/
namespace CallHistories

variable {Call Reply State Item : Type}

def transcript (step : Call → State → Reply × State) (s : State) :
    List Call → List (Call × Reply)
  | [] => []
  | c :: h => (c, (step c s).1) :: transcript step (step c s).2 h

def after (step : Call → State → Reply × State) (s : State) : List Call → State
  | [] => s
  | c :: h => after step (step c s).2 h

variable {step : Call → State → Reply × State}

/-- Nothing is lost and nothing appears from nowhere: if every call moves items between the stock
and its reply, the whole history does. -/
theorem balance (step : Call → State → Reply × State) (inv : List Call → State → Prop)
    (made gone : Call → Reply → List Item) (stock : State → List Item)
    (hstep : ∀ c h s, inv (c :: h) s → inv h (step c s).2 ∧
      (made c (step c s).1 ++ stock s).Perm (stock (step c s).2 ++ gone c (step c s).1))
    {h : List Call} {s : State} (hs : inv h s) :
    ((transcript step s h).flatMap (fun e => made e.1 e.2) ++ stock s).Perm
      (stock (after step s h) ++ (transcript step s h).flatMap fun e => gone e.1 e.2) := by
  induction h generalizing s with
  | nil => simp [transcript, after]
  | cons c h ih =>
    obtain ⟨hnext, hmoved⟩ := hstep c h s hs
    have hrest := ih hnext
    simp only [transcript, after, List.flatMap_cons, List.append_assoc]
    refine (List.perm_append_comm_assoc _ _ _).trans ?_
    refine (hmoved.append_left _).trans ?_
    rw [← List.append_assoc]
    refine (hrest.append_right _).trans ?_
    rw [List.append_assoc]
    exact List.perm_append_comm.append_left _

/-- The unwinding rule for two histories, one of which lacks the hidden calls: a relation that a
visible call keeps on both sides, with replies that agree, and a hidden call keeps on one. -/
theorem unwinding (step : Call → State → Reply × State) (visible : Call → Prop)
    [DecidablePred visible] (rel : List Call → State → State → Prop)
    (agree : Call → Reply → Reply → Prop)
    (hvisible : ∀ c h s t, visible c → rel (c :: h) s t →
      agree c (step c s).1 (step c t).1 ∧ rel h (step c s).2 (step c t).2)
    (hhidden : ∀ c h s t, ¬ visible c → rel (c :: h) s t → rel h (step c s).2 t)
    {h : List Call} {s t : State} (hst : rel h s t) :
    List.Forall₂ (fun a b => a.1 = b.1 ∧ agree a.1 a.2 b.2)
      ((transcript step s h).filter fun e => visible e.1)
      (transcript step t (h.filter visible)) := by
  induction h generalizing s t with
  | nil => exact .nil
  | cons c h ih =>
    by_cases hc : visible c
    · obtain ⟨hagree, hnext⟩ := hvisible c h s t hc hst
      simp only [transcript, hc, decide_true, List.filter_cons_of_pos]
      exact .cons ⟨rfl, hagree⟩ (ih hnext)
    · have hnext := hhidden c h s t hc hst
      simp only [transcript, hc, decide_false, Bool.false_eq_true, not_false_eq_true,
        List.filter_cons_of_neg]
      exact ih hnext

theorem after_append (s : State) (h h' : List Call) :
    after step s (h ++ h') = after step (after step s h) h' := by
  induction h generalizing s with
  | nil => rfl
  | cons c h ih => exact ih _

-- Rate limits: instants at which calls are admitted.
section Rates

def Spaced (d : ℕ) (times : List ℕ) : Prop := times.Pairwise fun a b => a + d ≤ b

theorem Spaced.span {d a hi : ℕ} {times : List ℕ} (h : Spaced d (a :: times)) (ha : a ≤ hi)
    (hhi : ∀ t ∈ times, t ≤ hi) : a + times.length * d ≤ hi := by
  induction times generalizing a with
  | nil => simpa using ha
  | cons b times ih =>
    obtain ⟨hfirst, hrest⟩ := List.pairwise_cons.mp h
    have hnext : a + d ≤ b := hfirst b List.mem_cons_self
    have hspan := ih hrest (hhi b List.mem_cons_self) fun t ht => hhi t (List.mem_cons_of_mem _ ht)
    rw [List.length_cons, Nat.add_mul]
    omega

/-- A closed window of length `len` holds at most `len / d + 1` of them. -/
theorem Spaced.window {d : ℕ} (hd : 0 < d) {times : List ℕ} (h : Spaced d times) (lo len : ℕ) :
    (times.filter fun t => lo ≤ t ∧ t ≤ lo + len).length ≤ len / d + 1 := by
  have hinside : ∀ t ∈ times.filter (fun t => lo ≤ t ∧ t ≤ lo + len), lo ≤ t ∧ t ≤ lo + len :=
    fun t ht => by simpa using (List.mem_filter.mp ht).2
  have hspaced : Spaced d (times.filter fun t => lo ≤ t ∧ t ≤ lo + len) := h.filter _
  cases hw : times.filter (fun t => lo ≤ t ∧ t ≤ lo + len) with
  | nil => simp
  | cons a rest =>
    rw [hw] at hinside hspaced
    have ha := hinside a List.mem_cons_self
    have hspan := hspaced.span ha.2 fun t ht => (hinside t (List.mem_cons_of_mem _ ht)).2
    have hlen : rest.length * d ≤ len := by omega
    have hcount := (Nat.le_div_iff_mul_le hd).mpr hlen
    rw [List.length_cons]
    omega

/-- The instants at which the calls of a history are admitted. -/
def admissions (step : Call → State → Reply × State) (time : Call → Reply → Option ℕ) (s : State)
    (h : List Call) : List ℕ :=
  (transcript step s h).filterMap fun e => time e.1 e.2

/-- The gate rule: `gate h s x` says that no call of `h` is admitted before `x`. If each step keeps
it, and an admission moves it on by `d`, the admissions are spaced. -/
theorem admissions_spaced (step : Call → State → Reply × State) (time : Call → Reply → Option ℕ)
    (d : ℕ) (gate : List Call → State → ℕ → Prop)
    (hkeep : ∀ c h s x, gate (c :: h) s x → gate h (step c s).2 x)
    (hgrant : ∀ c h s x t, gate (c :: h) s x → time c (step c s).1 = some t →
      x ≤ t ∧ gate h (step c s).2 (t + d))
    {h : List Call} {s : State} {x : ℕ} (hs : gate h s x) :
    Spaced d (admissions step time s h) ∧ ∀ t ∈ admissions step time s h, x ≤ t := by
  induction h generalizing s x with
  | nil => exact ⟨.nil, fun t ht => absurd ht List.not_mem_nil⟩
  | cons c h ih =>
    simp only [admissions, transcript, List.filterMap_cons]
    cases ht : time c (step c s).1 with
    | none => exact ih (hkeep c h s x hs)
    | some t =>
      obtain ⟨hxt, hnext⟩ := hgrant c h s x t hs ht
      obtain ⟨hspaced, hlater⟩ := ih hnext
      refine ⟨List.pairwise_cons.mpr ⟨hlater, hspaced⟩, ?_⟩
      intro u hu
      rcases List.mem_cons.mp hu with rfl | hu
      · exact hxt
      · have htu := hlater u hu
        omega

end Rates

end CallHistories
