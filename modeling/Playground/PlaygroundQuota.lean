import Playground.PlaygroundOperations

/-! # The daily quota

The tracker keeps one record for each tenant, and every call forgets the records of all days
but its own. Calls that obtain the mutex out of the order of their timestamps can so make a
day start over. -/
namespace PlaygroundQuota

open HashMaps
open PlaygroundOperations (QuotaError)

def nanosPerDay : ℤ := 24 * 60 * 60 * 1000000000

/-- `DateTime::date_naive`, as the number of the UTC day. -/
def dateNaive (now : ℤ) : ℤ := now / nanosPerDay

/-- A count never passes the limit, which has 32 bits. -/
structure DailyRecord where
  day : ℤ
  count : ℕ
  deriving DecidableEq, Repr

structure PlaygroundQuotaTracker where
  state : HashMap String DailyRecord
  maxPerDay : ℕ

namespace PlaygroundQuotaTracker

def withLimit (maxPerDay : ℕ) : PlaygroundQuotaTracker := ⟨∅, maxPerDay⟩

def tryConsumeAt (q : PlaygroundQuotaTracker) (tenant : Option String) (now : ℤ) :
    Except QuotaError ℕ × PlaygroundQuotaTracker :=
  let today := dateNaive now
  let key := tenant.getD ""
  let map := retain (fun rec : DailyRecord => rec.day == today) q.state
  let entry := (map.lookup key).getD ⟨today, 0⟩
  if q.maxPerDay ≤ entry.count then
    (.error ⟨key, entry.count, q.maxPerDay⟩, { q with state := map.insert key entry })
  else
    (.ok (entry.count + 1),
      { q with state := map.insert key { entry with count := entry.count + 1 } })

end PlaygroundQuotaTracker

/-- One call of `try_consume_at`. -/
structure Call where
  tenant : Option String
  now : ℤ
  deriving DecidableEq, Repr

namespace Call

def key (c : Call) : String := c.tenant.getD ""

def day (c : Call) : ℤ := dateNaive c.now

def isOf (t : String) (d : ℤ) (c : Call) : Bool := c.key == t && c.day == d

end Call

namespace PlaygroundQuotaTracker

def consume (q : PlaygroundQuotaTracker) (c : Call) :
    Except QuotaError ℕ × PlaygroundQuotaTracker := q.tryConsumeAt c.tenant c.now

def results (q : PlaygroundQuotaTracker) : List Call → List (Except QuotaError ℕ)
  | [] => []
  | c :: rest => (q.consume c).1 :: (q.consume c).2.results rest

def after (q : PlaygroundQuotaTracker) (calls : List Call) : PlaygroundQuotaTracker :=
  calls.foldl (fun q c => (q.consume c).2) q

theorem results_length (q : PlaygroundQuotaTracker) (calls : List Call) :
    (q.results calls).length = calls.length := by
  induction calls generalizing q with
  | nil => rfl
  | cons c rest ih => simp [results, ih]

theorem results_append (q : PlaygroundQuotaTracker) (calls later : List Call) :
    q.results (calls ++ later) = q.results calls ++ (q.after calls).results later := by
  induction calls generalizing q with
  | nil => rfl
  | cons c rest ih =>
    simp only [List.cons_append, results, ih]
    rfl

def recorded (q : PlaygroundQuotaTracker) (t : String) (d : ℤ) : ℕ :=
  match q.state.lookup t with
  | none => 0
  | some rec => if rec.day = d then rec.count else 0

theorem entry_eq (q : PlaygroundQuotaTracker) (t : String) (d : ℤ) :
    ((retain (fun rec : DailyRecord => rec.day == d) q.state).lookup t).getD ⟨d, 0⟩ =
      ⟨d, q.recorded t d⟩ := by
  rw [lookup_retain, recorded]
  cases q.state.lookup t with
  | none => rfl
  | some rec =>
    obtain ⟨day, count⟩ := rec
    by_cases hd : day = d
    · subst hd
      simp [Option.filter]
    · simp [Option.filter, hd]

theorem recorded_insert (q : PlaygroundQuotaTracker) (t u : String) (d today : ℤ) (n : ℕ) :
    recorded ⟨(retain (fun rec : DailyRecord => rec.day == today) q.state).insert u ⟨today, n⟩,
        q.maxPerDay⟩ t d =
      if today = d then if t = u then n else q.recorded t d else 0 := by
  unfold recorded
  by_cases htu : t = u
  · subst htu
    simp only [AList.lookup_insert, if_true]
  · simp only [AList.lookup_insert_ne htu, lookup_retain, if_neg htu]
    cases q.state.lookup t with
    | none => simp
    | some rec =>
      by_cases hd : rec.day = today
      · subst hd
        simp only [Option.filter, beq_self_eq_true, if_true]
        by_cases hrec : rec.day = d
        · simp [hrec]
        · simp [hrec]
      · by_cases htoday : today = d
        · subst htoday
          simp [Option.filter, hd]
        · simp [Option.filter, hd, htoday]

theorem consume_eq (q : PlaygroundQuotaTracker) (c : Call) :
    (q.consume c).1 = (if q.recorded c.key c.day < q.maxPerDay then
        .ok (q.recorded c.key c.day + 1)
      else .error ⟨c.key, q.recorded c.key c.day, q.maxPerDay⟩) ∧
    (q.consume c).2.maxPerDay = q.maxPerDay ∧
    ∀ t d, (q.consume c).2.recorded t d =
      if c.day = d then
        if t = c.key ∧ q.recorded t d < q.maxPerDay then q.recorded t d + 1 else q.recorded t d
      else 0 := by
  unfold consume tryConsumeAt
  simp only [entry_eq]
  by_cases hlimit : q.maxPerDay ≤ q.recorded (c.tenant.getD "") (dateNaive c.now)
  · have hnot : ¬ q.recorded c.key c.day < q.maxPerDay := by
      unfold Call.key Call.day
      omega
    rw [if_pos hlimit, if_neg hnot]
    refine ⟨rfl, rfl, fun t d => ?_⟩
    rw [recorded_insert]
    by_cases hd : dateNaive c.now = d
    · subst hd
      by_cases ht : t = c.tenant.getD ""
      · subst ht
        simp only [Call.day, Call.key, if_true, true_and] at hnot ⊢
        rw [if_neg hnot]
      · simp [Call.day, Call.key, ht]
    · simp [Call.day, hd]
  · have hlt : q.recorded c.key c.day < q.maxPerDay := by
      unfold Call.key Call.day
      omega
    rw [if_neg hlimit, if_pos hlt]
    refine ⟨rfl, rfl, fun t d => ?_⟩
    rw [recorded_insert]
    by_cases hd : dateNaive c.now = d
    · subst hd
      by_cases ht : t = c.tenant.getD ""
      · subst ht
        simp only [Call.day, Call.key, if_true, true_and] at hlt ⊢
        rw [if_pos hlt]
      · simp [Call.day, Call.key, ht]
    · simp [Call.day, hd]

end PlaygroundQuotaTracker

open PlaygroundQuotaTracker (withLimit)

/-- The calls of the tenant in the block of calls on this day that the list ends with. -/
def inBlock (t : String) (d : ℤ) (calls : List Call) : ℕ :=
  (calls.rtakeWhile fun c => c.day == d).countP fun c => c.key == t

def answer (limit : ℕ) (calls : List Call) (c : Call) : Except QuotaError ℕ :=
  (((withLimit limit).after calls).consume c).1

def isOk : Except QuotaError ℕ → Bool
  | .ok _ => true
  | .error _ => false

def accepted (limit : ℕ) (t : String) (d : ℤ) (calls : List Call) : ℕ :=
  (calls.zip ((withLimit limit).results calls)).countP fun p => p.1.isOf t d && isOk p.2

def made (t : String) (d : ℤ) (calls : List Call) : ℕ := calls.countP (Call.isOf t d)

section Blocks

variable {limit : ℕ} {t : String} {d : ℤ} {calls : List Call} {c : Call}

theorem inBlock_snoc : inBlock t d (calls ++ [c]) =
    if c.day = d then if c.key = t then inBlock t d calls + 1 else inBlock t d calls else 0 := by
  unfold inBlock
  rw [List.rtakeWhile_concat]
  by_cases hd : c.day = d
  · by_cases ht : c.key = t
    · simp [hd, ht]
    · simp [hd, ht]
  · simp [hd]

theorem after_snoc (q : PlaygroundQuotaTracker) :
    q.after (calls ++ [c]) = ((q.after calls).consume c).2 := by
  simp [PlaygroundQuotaTracker.after]

/-- The tracker keeps the block the calls end with, up to the limit. -/
theorem recorded_after (limit : ℕ) (calls : List Call) :
    ((withLimit limit).after calls).maxPerDay = limit ∧ ∀ t d,
      ((withLimit limit).after calls).recorded t d = min (inBlock t d calls) limit := by
  induction calls using List.reverseRecOn with
  | nil => exact ⟨rfl, fun t d => (Nat.zero_min limit).symm⟩
  | append_singleton calls c ih =>
    obtain ⟨hmax, hrecorded⟩ := ih
    obtain ⟨_, hkeep, hstep⟩ := ((withLimit limit).after calls).consume_eq c
    rw [after_snoc]
    refine ⟨hkeep.trans hmax, fun t d => ?_⟩
    rw [hstep, hmax, hrecorded, inBlock_snoc]
    by_cases hd : c.day = d
    · by_cases ht : c.key = t
      · subst ht
        simp only [hd, if_true, true_and]
        split <;> omega
      · have hne : ¬ t = c.key := fun h => ht h.symm
        simp [hd, ht, hne]
    · simp [hd]

theorem answer_eq : answer limit calls c =
    if inBlock c.key c.day calls < limit then .ok (inBlock c.key c.day calls + 1)
    else .error ⟨c.key, limit, limit⟩ := by
  obtain ⟨hmax, hrecorded⟩ := recorded_after limit calls
  unfold answer
  rw [(((withLimit limit).after calls).consume_eq c).1, hmax, hrecorded]
  by_cases h : inBlock c.key c.day calls < limit
  · have hmin : min (inBlock c.key c.day calls) limit = inBlock c.key c.day calls := by omega
    rw [hmin, if_pos h, if_pos h]
  · have hmin : min (inBlock c.key c.day calls) limit = limit := by omega
    rw [hmin, if_neg h, if_neg (Nat.lt_irrefl limit)]

theorem results_snoc : (withLimit limit).results (calls ++ [c]) =
    (withLimit limit).results calls ++ [answer limit calls c] :=
  PlaygroundQuotaTracker.results_append _ _ _

theorem accepted_snoc : accepted limit t d (calls ++ [c]) =
    accepted limit t d calls + if c.isOf t d = true ∧ inBlock t d calls < limit then 1 else 0 := by
  unfold accepted
  rw [results_snoc, List.zip_append (PlaygroundQuotaTracker.results_length _ _).symm,
    List.countP_append]
  congr 1
  simp only [List.zip_cons_cons, List.zip_nil_right, List.countP_singleton, answer_eq]
  by_cases hof : c.isOf t d = true
  · obtain ⟨rfl, rfl⟩ : c.key = t ∧ c.day = d := by simpa [Call.isOf] using hof
    by_cases hlt : inBlock c.key c.day calls < limit
    · simp [hof, hlt, isOk]
    · simp [hof, hlt, isOk]
  · simp [hof]

theorem made_snoc : made t d (calls ++ [c]) =
    made t d calls + if c.isOf t d = true then 1 else 0 := by
  unfold made
  rw [List.countP_append, List.countP_singleton]

theorem inBlock_le_made : inBlock t d calls ≤ made t d calls := by
  induction calls using List.reverseRecOn with
  | nil => exact Nat.le_refl 0
  | append_singleton calls c ih =>
    rw [inBlock_snoc, made_snoc]
    by_cases hd : c.day = d
    · by_cases ht : c.key = t
      · simp only [hd, ht, if_true, Call.isOf, beq_self_eq_true, Bool.and_self]
        omega
      · simp only [hd, ht, if_true, if_false]
        omega
    · simp [hd]

theorem le_accepted : min (made t d calls) limit ≤ accepted limit t d calls := by
  induction calls using List.reverseRecOn with
  | nil => exact Nat.min_le_left 0 limit
  | append_singleton calls c ih =>
    have hblock : inBlock t d calls ≤ made t d calls := inBlock_le_made
    rw [made_snoc, accepted_snoc]
    by_cases hof : c.isOf t d = true
    · by_cases hlt : inBlock t d calls < limit
      · simp only [hof, hlt, and_self, if_true]
        omega
      · simp only [hof, hlt, and_false, if_true, if_false]
        omega
    · simp only [hof, Bool.false_eq_true, false_and, if_false]
      omega

theorem accepted_le_made : accepted limit t d calls ≤ made t d calls := by
  induction calls using List.reverseRecOn with
  | nil => exact Nat.le_refl 0
  | append_singleton calls c ih =>
    rw [made_snoc, accepted_snoc]
    by_cases hof : c.isOf t d = true
    · simp only [hof, true_and, if_true]
      split <;> omega
    · simp only [hof, Bool.false_eq_true, false_and, if_false]
      omega

variable {before later : List Call}

theorem inBlock_apart (hc : c.day ≠ d) :
    inBlock t d (before ++ c :: later) = inBlock t d later := by
  induction later using List.reverseRecOn with
  | nil => simp [hc, inBlock]
  | append_singleton later x ih =>
    rw [← List.cons_append, ← List.append_assoc, inBlock_snoc, inBlock_snoc, ih]

theorem accepted_apart (hc : c.day ≠ d) :
    accepted limit t d (before ++ c :: later) =
      accepted limit t d before + accepted limit t d later := by
  induction later using List.reverseRecOn with
  | nil =>
    have hof : c.isOf t d = false := by simp [Call.isOf, hc]
    rw [accepted_snoc, hof]
    simp [accepted]
  | append_singleton later x ih =>
    rw [← List.cons_append, ← List.append_assoc, accepted_snoc, accepted_snoc, ih, inBlock_apart hc]
    omega

/-- No call of another day obtains the mutex between two calls of the tenant on the day. -/
def Unbroken (t : String) (d : ℤ) (calls : List Call) : Prop :=
  ∀ before c later, calls = before ++ c :: later → c.day ≠ d →
    made t d before = 0 ∨ made t d later = 0

theorem inBlock_or_broken : inBlock t d calls = made t d calls ∨
    ∃ before x later, calls = before ++ x :: later ∧ x.day ≠ d ∧ made t d before ≠ 0 := by
  induction calls using List.reverseRecOn with
  | nil => exact Or.inl rfl
  | append_singleton calls c ih =>
    by_cases hd : c.day = d
    · rcases ih with heq | ⟨before, x, later, rfl, hx, hmade⟩
      · left
        rw [inBlock_snoc, made_snoc, heq]
        by_cases ht : c.key = t
        · simp [hd, ht, Call.isOf]
        · simp [hd, ht, Call.isOf]
      · exact Or.inr ⟨before, x, later ++ [c], by simp, hx, hmade⟩
    · by_cases hmade : made t d calls = 0
      · left
        rw [inBlock_snoc, made_snoc, hmade]
        simp [hd, Call.isOf]
      · exact Or.inr ⟨calls, c, [], rfl, hd, hmade⟩

theorem unbroken_snoc (h : Unbroken t d (calls ++ [c])) : Unbroken t d calls := by
  intro before x later heq hx
  rcases h before x (later ++ [c]) (by simp [heq]) hx with hb | hl
  · exact Or.inl hb
  · rw [made_snoc] at hl
    exact Or.inr (by omega)

theorem unbroken_inBlock (h : Unbroken t d (calls ++ [c])) (hof : c.isOf t d = true) :
    inBlock t d calls = made t d calls := by
  have hcases : inBlock t d calls = made t d calls ∨
      ∃ before x later, calls = before ++ x :: later ∧ x.day ≠ d ∧ made t d before ≠ 0 :=
    inBlock_or_broken
  rcases hcases with heq | ⟨before, x, later, rfl, hx, hmade⟩
  · exact heq
  · rcases h before x (later ++ [c]) (by simp) hx with hb | hl
    · exact absurd hb hmade
    · rw [made_snoc, if_pos hof] at hl
      omega

theorem accepted_unbroken (h : Unbroken t d calls) :
    accepted limit t d calls = min (made t d calls) limit := by
  induction calls using List.reverseRecOn with
  | nil => exact (Nat.zero_min limit).symm
  | append_singleton calls c ih =>
    rw [accepted_snoc, made_snoc, ih (unbroken_snoc h)]
    by_cases hof : c.isOf t d = true
    · rw [unbroken_inBlock h hof]
      simp only [hof, true_and, if_true]
      split <;> omega
    · simp only [hof, Bool.false_eq_true, false_and, if_false]
      omega

end Blocks

/-- The daily cap holds exactly when every tenant that calls more often than it may on a day
does so without a call of another day in between. -/
theorem daily_cap_iff (limit : ℕ) (calls : List Call) :
    (∀ t d, accepted limit t d calls ≤ limit) ↔
      limit = 0 ∨ ∀ t d, made t d calls ≤ limit ∨ Unbroken t d calls := by
  constructor
  · intro h
    by_cases hzero : limit = 0
    · exact Or.inl hzero
    · refine Or.inr fun t d => ?_
      by_cases hmade : made t d calls ≤ limit
      · exact Or.inl hmade
      · refine Or.inr fun before c later heq hc => ?_
        subst heq
        have hcap := h t d
        have hbefore : min (made t d before) limit ≤ accepted limit t d before := le_accepted
        have hlater : min (made t d later) limit ≤ accepted limit t d later := le_accepted
        have hsum : made t d (before ++ c :: later) = made t d before + made t d later := by
          simp [made, Call.isOf, hc]
        rw [accepted_apart hc] at hcap
        omega
  · intro h t d
    have hle : accepted limit t d calls ≤ made t d calls := accepted_le_made
    rcases h with hzero | h
    · subst hzero
      have hnone : accepted 0 t d calls = 0 := by
        induction calls using List.reverseRecOn with
        | nil => rfl
        | append_singleton calls c ih =>
          rw [accepted_snoc, ih accepted_le_made]
          simp
      omega
    · rcases h t d with hmade | hunbroken
      · omega
      · rw [accepted_unbroken hunbroken]
        omega

def acrossMidnight : List Call :=
  [⟨some "a", nanosPerDay - 1⟩, ⟨some "b", nanosPerDay⟩, ⟨some "a", nanosPerDay - 1⟩]

/-- The second tenant's call reads the clock after midnight and locks first. -/
theorem cap_exceeded_at_midnight :
    ¬ ∀ (limit : ℕ) (calls : List Call) (t : String) (d : ℤ), accepted limit t d calls ≤ limit := by
  intro h
  exact absurd (h 1 acrossMidnight "a" 0) (by decide +kernel)

section Reference

variable {limit : ℕ} {calls : List Call} {c : Call}

/-- What the reference counter answers after `k` accepted calls. -/
def reference (limit k : ℕ) (c : Call) : Except QuotaError ℕ :=
  if k < limit then .ok (k + 1) else .error ⟨c.key, k, limit⟩

theorem dateNaive_mono {s t : ℤ} (h : s ≤ t) : dateNaive s ≤ dateNaive t :=
  Int.ediv_le_ediv (by decide) h

theorem made_pos {t : String} {d : ℤ} (h : made t d calls ≠ 0) : ∃ c ∈ calls, c.day = d := by
  obtain ⟨c, hc, hof⟩ := List.countP_pos_iff.mp (Nat.pos_of_ne_zero h)
  simp only [Call.isOf, Bool.and_eq_true, beq_iff_eq] at hof
  exact ⟨c, hc, hof.2⟩

theorem ordered_unbroken (h : calls.Pairwise fun a b => a.now ≤ b.now) (t : String) (d : ℤ) :
    Unbroken t d calls := by
  intro before c later heq hc
  by_contra hboth
  rw [not_or] at hboth
  obtain ⟨a, ha, hda⟩ := made_pos hboth.1
  obtain ⟨b, hb, hdb⟩ := made_pos hboth.2
  subst heq
  obtain ⟨_, hlater, hacross⟩ := List.pairwise_append.mp h
  have hac := dateNaive_mono (hacross a ha c List.mem_cons_self)
  have hcb := dateNaive_mono ((List.pairwise_cons.mp hlater).1 b hb)
  apply hc
  unfold Call.day at *
  omega

theorem ordered_answer (h : (calls ++ [c]).Pairwise fun a b => a.now ≤ b.now) :
    answer limit calls c =
      if made c.key c.day calls < limit then .ok (made c.key c.day calls + 1)
      else .error ⟨c.key, limit, limit⟩ := by
  have hof : c.isOf c.key c.day = true := by simp [Call.isOf]
  rw [answer_eq, unbroken_inBlock (ordered_unbroken h _ _) hof]

theorem ordered_reference (h : (calls ++ [c]).Pairwise fun a b => a.now ≤ b.now) :
    answer limit calls c = reference limit (accepted limit c.key c.day calls) c := by
  have hcalls := (List.pairwise_append.mp h).1
  rw [ordered_answer h, reference, accepted_unbroken (ordered_unbroken hcalls _ _)]
  by_cases hlt : made c.key c.day calls < limit
  · have hmin : min (made c.key c.day calls) limit = made c.key c.day calls := by omega
    rw [hmin, if_pos hlt, if_pos hlt]
  · have hmin : min (made c.key c.day calls) limit = limit := by omega
    rw [hmin, if_neg hlt, if_neg (Nat.lt_irrefl limit)]

def resultsOf (limit : ℕ) (t : String) (calls : List Call) : List (Except QuotaError ℕ) :=
  ((calls.zip ((withLimit limit).results calls)).filter fun p => p.1.key == t).map Prod.snd

theorem made_filter (t : String) (d : ℤ) (calls : List Call) :
    made t d (calls.filter fun c => c.key == t) = made t d calls := by
  unfold made
  rw [List.countP_filter]
  congr 1
  funext c
  unfold Call.isOf
  cases c.key == t <;> simp

theorem results_filter (h : calls.Pairwise fun a b => a.now ≤ b.now) (t : String) :
    (withLimit limit).results (calls.filter fun c => c.key == t) = resultsOf limit t calls := by
  induction calls using List.reverseRecOn with
  | nil => rfl
  | append_singleton calls c ih =>
    have hcalls := (List.pairwise_append.mp h).1
    unfold resultsOf at ih ⊢
    rw [results_snoc, List.zip_append (PlaygroundQuotaTracker.results_length _ _).symm,
      List.filter_append, List.filter_append, List.map_append, ← ih hcalls]
    by_cases ht : c.key = t
    · have hone : [c].filter (fun c => c.key == t) = [c] := by simp [ht]
      have hfiltered := h.filter fun c => c.key == t
      rw [List.filter_append, hone] at hfiltered
      rw [hone, results_snoc, ordered_answer hfiltered, ordered_answer h, ht, made_filter]
      simp [ht]
    · simp [ht]

/-- With timestamps in order every call is answered from the calls of its tenant and day alone,
as a counter for each tenant and day would. -/
theorem refines_reference (limit : ℕ) (calls : List Call)
    (h : calls.Pairwise fun a b => a.now ≤ b.now) :
    (∀ before c later, calls = before ++ c :: later →
      ((withLimit limit).results calls)[before.length]? =
        some (reference limit (accepted limit c.key c.day before) c)) ∧
    ∀ t, (withLimit limit).results (calls.filter fun c => c.key == t) =
      resultsOf limit t calls := by
  refine ⟨?_, fun t => results_filter h t⟩
  intro before c later heq
  subst heq
  have hprefix : (before ++ [c]).Pairwise fun a b => a.now ≤ b.now := by
    rw [List.append_cons] at h
    exact (List.pairwise_append.mp h).1
  have hlength := PlaygroundQuotaTracker.results_length (withLimit limit) before
  rw [List.append_cons, PlaygroundQuotaTracker.results_append, results_snoc, List.append_assoc,
    List.getElem?_append_right (by omega), hlength, ordered_reference hprefix]
  simp

/-- One tenant before midnight, the calls without a tenant after it. -/
theorem refines_reference_midnight :
    let calls : List Call :=
      [⟨some "a", nanosPerDay - 1⟩, ⟨none, nanosPerDay⟩, ⟨some "", nanosPerDay⟩]
    (withLimit 1).results (calls.filter fun c => c.key == "") = resultsOf 1 "" calls :=
  (refines_reference 1 _ (by decide)).2 ""

end Reference

end PlaygroundQuota
