import Mathlib.Logic.Function.Basic
import Playground.InteractionPrograms

/-! # Cells that are set once

A cell runs the initialiser of a caller that finds it empty, and keeps the value. The other callers
wait; if the initialiser ends without a value, one of them starts its own. What is asked of a cell
is what its documentation promises, in terms of what its callers see. -/
namespace OnceCells

open InteractionPrograms

variable {ι Op V E : Type} {Res : Op → Type}

/-- The answer is `none` where the caller was dropped while it waited. -/
abbrev Initialiser (Res : Op → Type) (E V : Type) := Program Op Res (Option (Except E V))

abbrev Event (Res : Op → Type) := (op : Op) × Res op

/-- Where a call of the cell stands. -/
inductive Phase (Res : Op → Type) (E V : Type) where
  | waiting
  | trying (rest : Initialiser Res E V)
  | returned (out : Option (Except E V))

structure View (ι V E : Type) (Res : Op → Type) where
  value : Option V
  phase : ι → Phase Res E V

def View.empty : View ι V E Res := ⟨none, fun _ => .waiting⟩

/-- A cell with its callers. A step shows an operation that an initialiser performs in it. -/
structure Cell (ι V E : Type) (Res : Op → Type) where
  State : Type
  view : State → View ι V E Res
  step : State → Option (ι × Event Res) → State → Prop

/-- Runs with the operations of all initialisers. -/
inductive Cell.Run (cell : Cell ι V E Res) :
    cell.State → List (ι × Event Res) → cell.State → Prop where
  | refl (s : cell.State) : cell.Run s [] s
  | tail {s t u log event} : cell.Run s log t → cell.step t event u →
      cell.Run s (log ++ event.toList) u

variable [DecidableEq ι]

def View.move (c : View ι V E Res) (i : ι) (phase : Phase Res E V) : View ι V E Res :=
  { c with phase := Function.update c.phase i phase }

def Tries (c : View ι V E Res) (i : ι) : Prop := ∃ rest, c.phase i = .trying rest

/-- What the callers of a cell may see of its steps. -/
inductive Documented (f : ι → Initialiser Res E V) :
    View ι V E Res → Option (ι × Event Res) → View ι V E Res → Prop where
  | start {c i} : c.value = none → (∀ j, ¬ Tries c j) → c.phase i = .waiting →
      Documented f c none (c.move i (.trying (f i)))
  | perform {c i op next} (r : Res op) : c.phase i = .trying (.request op next) →
      Documented f c (some (i, ⟨op, r⟩)) (c.move i (.trying (next r)))
  | fill {c i v} : c.phase i = .trying (.done (some (.ok v))) →
      Documented f c none { c.move i (.returned (some (.ok v))) with value := some v }
  | fail {c i out} : c.phase i = .trying (.done out) → (∀ v, out ≠ some (.ok v)) →
      Documented f c none (c.move i (.returned out))
  | share {c i v} : c.value = some v → c.phase i = .waiting →
      Documented f c none (c.move i (.returned (some (.ok v))))
  | drop {c i} : c.phase i = .waiting → Documented f c none (c.move i (.returned none))

/-- Every step of the cell is one of these or shows nothing. -/
def Cell.Lawful (cell : Cell ι V E Res) (f : ι → Initialiser Res E V) : Prop :=
  ∀ s event t, cell.step s event t →
    (event = none ∧ cell.view t = cell.view s) ∨ Documented f (cell.view s) event (cell.view t)

def plain (f : ι → Initialiser Res E V) : Cell ι V E Res := ⟨View ι V E Res, id, Documented f⟩

theorem plain_lawful (f : ι → Initialiser Res E V) : (plain f).Lawful f :=
  fun _ _ _ hstep => Or.inr hstep

def eventsOf (i : ι) (log : List (ι × Event Res)) : List (Event Res) :=
  (log.filter fun entry => decide (entry.1 = i)).map Prod.snd

section Logs

variable {i j : ι} {log : List (ι × Event Res)} {e : Event Res}

/-- No other caller did anything among the operations of this one. -/
def Contiguous (i : ι) (log : List (ι × Event Res)) : Prop :=
  ∃ before after, log = before ++ (eventsOf i log).map (Prod.mk i) ++ after

def Latest (i : ι) (log : List (ι × Event Res)) : Prop :=
  ∃ before, log = before ++ (eventsOf i log).map (Prod.mk i)

theorem eventsOf_own : eventsOf i (log ++ [(i, e)]) = eventsOf i log ++ [e] := by
  simp [eventsOf]

theorem eventsOf_other (h : j ≠ i) : eventsOf j (log ++ [(i, e)]) = eventsOf j log := by
  simp [eventsOf, Ne.symm h]

theorem Latest.contiguous (h : Latest i log) : Contiguous i log := by
  obtain ⟨before, hlog⟩ := h
  exact ⟨before, [], by rwa [List.append_nil]⟩

theorem Latest.own (h : Latest i log) : Latest i (log ++ [(i, e)]) := by
  obtain ⟨before, hlog⟩ := h
  refine ⟨before, ?_⟩
  rw [eventsOf_own, List.map_append, ← List.append_assoc, ← hlog]
  rfl

theorem Contiguous.other (h : Contiguous j log) (hj : j ≠ i) : Contiguous j (log ++ [(i, e)]) := by
  obtain ⟨before, after, hlog⟩ := h
  refine ⟨before, after ++ [(i, e)], ?_⟩
  rw [eventsOf_other hj, ← List.append_assoc, ← hlog]

theorem latest_of_nothing (h : eventsOf i log = []) : Latest i log := by
  refine ⟨log, ?_⟩
  rw [h, List.map_nil, List.append_nil]

end Logs

def Failed (f : Initialiser Res E V) (events : List (Event Res)) : Prop :=
  ∃ out, f.Trace events out ∧ ∀ v, out ≠ some (.ok v)

/-- A caller has tried nothing, or has tried and failed. -/
def Fruitless (f : ι → Initialiser Res E V) (j : ι) (log : List (ι × Event Res)) : Prop :=
  eventsOf j log = [] ∨ Failed (f j) (eventsOf j log)

/-- The value comes from the last attempt in the log, and all others were fruitless. -/
structure Won (f : ι → Initialiser Res E V) (i : ι) (v : V) (log : List (ι × Event Res)) :
    Prop where
  latest : Latest i log
  trace : (f i).Trace (eventsOf i log) (some (.ok v))
  others : ∀ j, j ≠ i → Fruitless f j log

section Steps

variable {f : ι → Initialiser Res E V} {c c' : View ι V E Res} {log : List (ι × Event Res)}
  {i j : ι} {phase : Phase Res E V}

def Known (f : Initialiser Res E V) (value : Option V) (events : List (Event Res)) :
    Phase Res E V → Prop
  | .waiting => events = []
  | .trying rest => value = none ∧
    ∀ later out, rest.Trace later out → f.Trace (events ++ later) out
  | .returned none => True
  | .returned (some (.ok v)) => value = some v
  | .returned (some (.error e)) => f.Trace events (some (.error e))

/-- The attempts do not overlap, and the value is that of the last one. -/
structure Orderly (f : ι → Initialiser Res E V) (c : View ι V E Res)
    (log : List (ι × Event Res)) : Prop where
  contiguous : ∀ j, Contiguous j log
  known : ∀ j, Known (f j) c.value (eventsOf j log) (c.phase j)
  trying : ∀ i, Tries c i → Latest i log ∧ ∀ j, Tries c j → j = i
  unset : c.value = none → ∀ j, ¬ Tries c j → Fruitless f j log
  won : ∀ v, c.value = some v → (∀ j, ¬ Tries c j) ∧ ∃ i, Won f i v log

theorem orderly_empty : Orderly f View.empty [] := by
  refine ⟨fun j => ⟨[], [], rfl⟩, fun _ => rfl, ?_, fun _ j _ => Or.inl rfl, ?_⟩
  · rintro i ⟨rest, hrest⟩
    cases hrest
  · intro v hv
    cases hv

@[simp] theorem move_self : (c.move i phase).phase i = phase := Function.update_self ..

theorem move_other (h : j ≠ i) : (c.move i phase).phase j = c.phase j :=
  Function.update_of_ne h ..

theorem tries_other (h : j ≠ i) : Tries (c.move i phase) j ↔ Tries c j := by
  rw [Tries, Tries, move_other h]

theorem tries_returned {out : Option (Except E V)} :
    Tries (c.move i (.returned out)) j ↔ j ≠ i ∧ Tries c j := by
  by_cases h : j = i
  · subst h
    simp [Tries]
  · rw [tries_other h]
    exact (and_iff_right h).symm

theorem Orderly.returns (hs : Orderly f c log) {out : Option (Except E V)}
    (hknown : Known (f i) c.value (eventsOf i log) (.returned out))
    (hfruitless : c.value = none → Fruitless f i log) :
    Orderly f (c.move i (.returned out)) log := by
  refine ⟨hs.contiguous, fun j => ?_, fun j hj => ?_, fun hvalue j hj => ?_, fun v hv => ?_⟩
  · by_cases hji : j = i
    · subst hji
      rw [move_self]
      exact hknown
    · rw [move_other hji]
      exact hs.known j
  · obtain ⟨hlatest, honly⟩ := hs.trying j (tries_returned.mp hj).2
    exact ⟨hlatest, fun k hk => honly k (tries_returned.mp hk).2⟩
  · by_cases hji : j = i
    · subst hji
      exact hfruitless hvalue
    · exact hs.unset hvalue j fun htries => hj (tries_returned.mpr ⟨hji, htries⟩)
  · obtain ⟨hidle, hwon⟩ := hs.won v hv
    exact ⟨fun j hj => hidle j (tries_returned.mp hj).2, hwon⟩

theorem Orderly.starts (hs : Orderly f c log) (hvalue : c.value = none)
    (hidle : ∀ j, ¬ Tries c j) (hwaiting : c.phase i = .waiting) :
    Orderly f (c.move i (.trying (f i))) log := by
  have hnothing : eventsOf i log = [] := by
    have hknown := hs.known i
    rwa [hwaiting] at hknown
  have honly : ∀ j, Tries (c.move i (.trying (f i))) j → j = i := by
    intro j hj
    by_contra hji
    exact hidle j ((tries_other hji).mp hj)
  refine ⟨hs.contiguous, fun j => ?_, fun j hj => ?_, fun _ j _ => hs.unset hvalue j (hidle j),
    fun v hv => ?_⟩
  · by_cases hji : j = i
    · subst hji
      rw [move_self, hnothing]
      exact ⟨hvalue, fun later out htrace => htrace⟩
    · rw [move_other hji]
      exact hs.known j
  · obtain rfl := honly j hj
    exact ⟨latest_of_nothing hnothing, honly⟩
  · have hnone : c.value = some v := hv
    rw [hvalue] at hnone
    cases hnone

theorem Orderly.performs (hs : Orderly f c log) {op : Op} {next : Res op → Initialiser Res E V}
    (htrying : c.phase i = .trying (.request op next)) (r : Res op) :
    Orderly f (c.move i (.trying (next r))) (log ++ [(i, ⟨op, r⟩)]) := by
  have htries : Tries c i := ⟨_, htrying⟩
  obtain ⟨hlatest, honly⟩ := hs.trying i htries
  obtain ⟨hvalue, htrace⟩ : c.value = none ∧ _ := by
    have hknown := hs.known i
    rwa [htrying] at hknown
  have honly' : ∀ j, Tries (c.move i (.trying (next r))) j → j = i := by
    intro j hj
    by_contra hji
    exact hji (honly j ((tries_other hji).mp hj))
  refine ⟨fun j => ?_, fun j => ?_, fun j hj => ?_, fun _ j hj => ?_, fun v hv => ?_⟩
  · by_cases hji : j = i
    · subst hji
      exact hlatest.own.contiguous
    · exact (hs.contiguous j).other hji
  · by_cases hji : j = i
    · subst hji
      rw [move_self, eventsOf_own]
      refine ⟨hvalue, fun later out hlater => ?_⟩
      rw [List.append_assoc]
      exact htrace _ _ (.step hlater)
    · rw [move_other hji, eventsOf_other hji]
      exact hs.known j
  · obtain rfl := honly' j hj
    exact ⟨hlatest.own, honly'⟩
  · have hji : j ≠ i := by
      rintro rfl
      exact hj ⟨_, move_self⟩
    have hfruitless := hs.unset hvalue j fun h => hj ((tries_other hji).mpr h)
    unfold Fruitless at hfruitless ⊢
    rwa [eventsOf_other hji]
  · have hnone : c.value = some v := hv
    rw [hvalue] at hnone
    cases hnone

theorem Orderly.fills (hs : Orderly f c log) {v : V}
    (htrying : c.phase i = .trying (.done (some (.ok v)))) :
    Orderly f { c.move i (.returned (some (.ok v))) with value := some v } log := by
  obtain ⟨hlatest, honly⟩ := hs.trying i ⟨_, htrying⟩
  obtain ⟨hvalue, htrace⟩ : c.value = none ∧ _ := by
    have hknown := hs.known i
    rwa [htrying] at hknown
  have hend : (f i).Trace (eventsOf i log) (some (.ok v)) := by
    have hall := htrace [] _ (.done _)
    rwa [List.append_nil] at hall
  have hidle : ∀ j, ¬ Tries (c.move i (.returned (some (.ok v)))) j := by
    intro j hj
    obtain ⟨hji, htries⟩ := tries_returned.mp hj
    exact hji (honly j htries)
  refine ⟨hs.contiguous, fun j => ?_, fun j hj => absurd hj (hidle j), fun h => (by cases h),
    fun w hw => ⟨hidle, i, ?_⟩⟩
  · by_cases hji : j = i
    · subst hji
      rw [move_self]
      rfl
    · have hknown := hs.known j
      dsimp only
      rw [move_other hji]
      cases hphase : c.phase j with
      | waiting =>
        rw [hphase] at hknown
        exact hknown
      | trying rest => exact absurd (honly j ⟨rest, hphase⟩) hji
      | returned out =>
        rw [hphase] at hknown
        match out, hknown with
        | none, _ => trivial
        | some (.error e), htrace => exact htrace
        | some (.ok w), hother =>
          have hsome : c.value = some w := hother
          rw [hvalue] at hsome
          cases hsome
  · cases hw
    exact ⟨hlatest, hend, fun j hji => hs.unset hvalue j fun h => hji (honly j h)⟩

theorem Orderly.step {event : Option (ι × Event Res)} (hs : Orderly f c log)
    (hstep : Documented f c event c') : Orderly f c' (log ++ event.toList) := by
  cases hstep with
  | start hvalue hidle hwaiting =>
    rw [Option.toList_none, List.append_nil]
    exact hs.starts hvalue hidle hwaiting
  | perform r htrying => exact hs.performs htrying r
  | fill htrying =>
    rw [Option.toList_none, List.append_nil]
    exact hs.fills htrying
  | @fail i out htrying hout =>
    rw [Option.toList_none, List.append_nil]
    have hknown := hs.known i
    rw [htrying] at hknown
    have hend : (f i).Trace (eventsOf i log) out := by
      have hall := hknown.2 [] _ (.done _)
      rwa [List.append_nil] at hall
    refine hs.returns ?_ fun _ => Or.inr ⟨out, hend, hout⟩
    match out, hend, hout with
    | none, _, _ => trivial
    | some (.error e), hend, _ => exact hend
    | some (.ok v), _, hout => exact absurd rfl (hout v)
  | @share i v hvalue hwaiting =>
    rw [Option.toList_none, List.append_nil]
    refine hs.returns hvalue fun hnone => ?_
    rw [hvalue] at hnone
    cases hnone
  | @drop i hwaiting =>
    rw [Option.toList_none, List.append_nil]
    have hknown := hs.known i
    rw [hwaiting] at hknown
    exact hs.returns trivial fun _ => Or.inl hknown

/-- The calls of any number of callers, in any interleaving, try one after the other. -/
theorem attempts_orderly {cell : Cell ι V E Res} {s t : cell.State} (hlaw : cell.Lawful f)
    (hstart : cell.view s = .empty) (hrun : cell.Run s log t) : Orderly f (cell.view t) log := by
  induction hrun with
  | refl =>
    rw [hstart]
    exact orderly_empty
  | tail _ hstep ih =>
    rcases hlaw _ _ _ hstep with ⟨rfl, hsame⟩ | hdocumented
    · rw [hsame, Option.toList_none, List.append_nil]
      exact ih
    · exact ih.step hdocumented

end Steps

end OnceCells
