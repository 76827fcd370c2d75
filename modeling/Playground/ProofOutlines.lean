import Playground.InteractionPrograms

/-! # Proof outlines under interference

An outline gives every point of a program an assertion on the shared state. A thread keeps its
outline as long as the others do what it relies on; threads that guarantee each other what they
rely on keep all their outlines together. -/
namespace ProofOutlines

open InteractionPrograms

variable {ι Op : Type} {Res : Op → Type} {α β S : Type}

/-- What the operations of a thread do, what it relies on and guarantees, and what holds where it
performs an operation. -/
structure Contract (Op : Type) (Res : Op → Type) (S : Type) where
  step : Semantics Op Res S
  rely : S → S → Prop
  guarantee : S → S → Prop
  safe : S → Op → Prop

/-- A thread that only relies. -/
def relying (step : Semantics Op Res S) (rely : S → S → Prop) : Contract Op Res S :=
  ⟨step, rely, fun _ _ => True, fun _ _ => True⟩

namespace Contract

variable (c : Contract Op Res S)

def Stable (A : S → Prop) : Prop := ∀ s s', A s → c.rely s s' → A s'

/-- An operation leads from its assertion to the one of what continues on its result. -/
def Outline (post : α → S → Prop) : Program Op Res α → (S → Prop) → Prop
  | .done a, A => ∀ s, A s → post a s
  | .request op next, A => (∀ s, A s → c.safe s op) ∧ ∃ B : Res op → S → Prop,
      (∀ s r s', A s → c.step s op r s' → c.guarantee s s' ∧ B r s') ∧
        ∀ r, c.Stable (B r) ∧ Outline post (next r) (B r)

variable {c} {post : α → S → Prop} {A B : S → Prop}

theorem Outline.strengthen {p : Program Op Res α} (h : c.Outline post p B)
    (hAB : ∀ s, A s → B s) : c.Outline post p A := by
  cases p with
  | done a => exact fun s hs => h s (hAB s hs)
  | request op next =>
    obtain ⟨hsafe, C, hstep, hnext⟩ := h
    exact ⟨fun s hs => hsafe s (hAB s hs), C, fun s r s' hs => hstep s r s' (hAB s hs), hnext⟩

theorem Outline.of_false (p : Program Op Res α) (hA : ∀ s, ¬ A s) : c.Outline post p A := by
  induction p generalizing A with
  | done a => exact fun s hs => absurd hs (hA s)
  | request op next ih =>
    refine ⟨fun s hs => absurd hs (hA s), fun _ _ => False, fun s _ _ hs => absurd hs (hA s), ?_⟩
    exact fun r => ⟨fun _ _ h => h.elim, ih r fun _ h => h⟩

theorem Outline.bind {mid : β → S → Prop} {p : Program Op Res β} {f : β → Program Op Res α}
    (hp : c.Outline mid p A) (hf : ∀ b, c.Outline post (f b) (mid b)) :
    c.Outline post (p >>= f) A := by
  induction p generalizing A with
  | done b => exact (hf b).strengthen hp
  | request op next ih =>
    obtain ⟨hsafe, C, hstep, hnext⟩ := hp
    exact ⟨hsafe, C, hstep, fun r => ⟨(hnext r).1, ih r (hnext r).2⟩⟩

theorem outline_perform {op : Op} {f : Res op → Program Op Res α} {C : Res op → S → Prop}
    (hsafe : ∀ s, A s → c.safe s op)
    (hstep : ∀ s r s', A s → c.step s op r s' → c.guarantee s s' ∧ C r s')
    (hstable : ∀ r, c.Stable (C r)) (hf : ∀ r, c.Outline post (f r) (C r)) :
    c.Outline post (Program.perform op >>= f) A :=
  ⟨hsafe, C, hstep, fun r => ⟨hstable r, hf r⟩⟩

theorem outline_relying {step : Semantics Op Res S} {rely : S → S → Prop} {op : Op}
    {f : Res op → Program Op Res α} {C : Res op → S → Prop}
    (hstep : ∀ s r s', A s → step s op r s' → C r s')
    (hstable : ∀ r, (relying step rely).Stable (C r))
    (hf : ∀ r, (relying step rely).Outline post (f r) (C r)) :
    (relying step rely).Outline post (Program.perform op >>= f) A :=
  outline_perform (fun _ _ => trivial) (fun s r s' hs h => ⟨trivial, hstep s r s' hs h⟩) hstable hf

/-- A program that runs alone ends where its outline says. -/
theorem Outline.completes {p : Program Op Res α} {a : α} {s t : S} (h : c.Outline post p A)
    (hs : A s) (hrun : p.Completes c.step s a t) : post a t := by
  induction hrun generalizing A with
  | done a s => exact h s hs
  | step hop _ ih =>
    obtain ⟨-, B, hstep, hnext⟩ := h
    exact ih (hnext _).2 (hstep _ _ _ hs hop).2

/-- A thread is at a point of its outline. -/
def Meets (c : Contract Op Res S) (post : α → S → Prop) (p : Program Op Res α) (s : S) : Prop :=
  ∃ A, c.Stable A ∧ A s ∧ c.Outline post p A

theorem Meets.done {a : α} {s : S} (h : c.Meets post (.done a) s) : post a s := by
  obtain ⟨A, -, hs, hout⟩ := h
  exact hout s hs

theorem Meets.safe {op : Op} {next : Res op → Program Op Res α} {s : S}
    (h : c.Meets post (.request op next) s) : c.safe s op := by
  obtain ⟨A, -, hs, hsafe, -⟩ := h
  exact hsafe s hs

theorem Meets.step {op : Op} {next : Res op → Program Op Res α} {r : Res op} {s s' : S}
    (h : c.Meets post (.request op next) s) (hstep : c.step s op r s') :
    c.guarantee s s' ∧ c.Meets post (next r) s' := by
  obtain ⟨A, -, hs, -, B, hnext, hrest⟩ := h
  obtain ⟨hguar, hB⟩ := hnext s r s' hs hstep
  exact ⟨hguar, B r, (hrest r).1, hB, (hrest r).2⟩

theorem Meets.interfere {p : Program Op Res α} {s s' : S} (h : c.Meets post p s)
    (hrely : c.rely s s') : c.Meets post p s' := by
  obtain ⟨A, hstable, hs, hout⟩ := h
  exact ⟨A, hstable, hstable s s' hs hrely, hout⟩

end Contract

section Pools

open Contract

variable [DecidableEq ι] {sem : Semantics Op Res S} {guard : Guard ι Op Res α S}
  {p q : Pool ι Op Res α S}

/-- One thread among others of which only their steps are known. -/
theorem meets_among {c : Contract Op Res S} {post : α → S → Prop} {i : ι}
    (h : Execution sem guard p q) (h0 : c.Meets post (p.thread i) p.state)
    (hown : ∀ (t : Pool ι Op Res α S) op r s', sem t.state op r s' → guard t i op r s' →
      c.step t.state op r s')
    (hothers : ∀ (t : Pool ι Op Res α S) j op r s', j ≠ i → sem t.state op r s' →
      guard t j op r s' → c.rely t.state s') :
    c.Meets post (q.thread i) q.state := by
  refine h.invariant (I := fun q => c.Meets post (q.thread i) q.state) h0 ?_
  intro t j op next r s' hmeets ht hsem hguard
  by_cases hj : i = j
  · subst hj
    rw [ht] at hmeets
    rw [Pool.advance_self]
    exact (hmeets.step (hown t op r s' hsem hguard)).2
  · rw [Pool.advance_other _ _ _ hj]
    exact hmeets.interfere (hothers t j op r s' (Ne.symm hj) hsem hguard)

/-- The parallel rule: threads that guarantee what the others rely on keep all outlines. -/
theorem meets_together {c : ι → Contract Op Res S} {post : ι → α → S → Prop}
    (h : Execution sem guard p q) (h0 : ∀ i, (c i).Meets (post i) (p.thread i) p.state)
    (hown : ∀ (t : Pool ι Op Res α S) i op r s', sem t.state op r s' → guard t i op r s' →
      (c i).step t.state op r s')
    (hcompatible : ∀ i j s s', j ≠ i → (c j).guarantee s s' → (c i).rely s s') :
    ∀ i, (c i).Meets (post i) (q.thread i) q.state := by
  refine h.invariant (I := fun q => ∀ i, (c i).Meets (post i) (q.thread i) q.state) h0 ?_
  intro t j op next r s' hmeets ht hsem hguard i
  have hmover := hmeets j
  rw [ht] at hmover
  obtain ⟨hguarantee, hmoved⟩ := hmover.step (hown t j op r s' hsem hguard)
  by_cases hj : i = j
  · subst hj
    rwa [Pool.advance_self]
  · rw [Pool.advance_other _ _ _ hj]
    exact (hmeets i).interfere (hcompatible i j _ _ (Ne.symm hj) hguarantee)

end Pools

end ProofOutlines
