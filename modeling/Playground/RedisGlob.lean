import Mathlib.Data.List.Infix

/-! # Redis glob patterns

The pattern language of `SCAN MATCH`: `*`, `?`, character classes and escaped characters; every
other character stands for itself. -/
namespace RedisGlob

/-- The members of a character class up to its closing bracket, and the pattern after it. An
unclosed class ends with the pattern. -/
def classEnd : List Char → List Char × List Char
  | [] => ([], [])
  | ']' :: p => ([], p)
  | '\\' :: c :: p => ('\\' :: c :: (classEnd p).1, (classEnd p).2)
  | c :: p => (c :: (classEnd p).1, (classEnd p).2)

theorem classEnd_length (p : List Char) : (classEnd p).2.length ≤ p.length := by
  induction p using classEnd.induct with
  | case1 => exact Nat.le_refl 0
  | case2 p => simp [classEnd]
  | case3 c p ih =>
    simp only [classEnd, List.length_cons]
    omega
  | case4 c p hclose hescape ih =>
    rw [classEnd]
    · simp only [List.length_cons]
      omega
    · exact hclose
    · exact hescape

/-- The bounds of a range may stand in either order. -/
def inRanges (c : Char) : List Char → Bool
  | [] => false
  | '\\' :: x :: rest => c == x || inRanges c rest
  | lo :: '-' :: hi :: rest =>
    (decide (lo ≤ c ∧ c ≤ hi) || decide (hi ≤ c ∧ c ≤ lo)) || inRanges c rest
  | x :: rest => c == x || inRanges c rest

/-- Membership in a class, negated by a leading `^`. -/
def inClass (c : Char) : List Char → Bool
  | '^' :: members => !inRanges c members
  | members => inRanges c members

def globMatch : List Char → List Char → Bool
  | [], s => s.isEmpty
  | '*' :: p, [] => globMatch p []
  | '*' :: p, c :: s => globMatch p (c :: s) || globMatch ('*' :: p) s
  | _ :: _, [] => false
  | '?' :: p, _ :: s => globMatch p s
  | '[' :: p, c :: s => inClass c (classEnd p).1 && globMatch (classEnd p).2 s
  | '\\' :: x :: p, c :: s => x == c && globMatch p s
  | x :: p, c :: s => x == c && globMatch p s
termination_by p s => p.length + s.length
decreasing_by
  all_goals simp only [List.length_cons, List.length_nil]
  all_goals have := classEnd_length p
  all_goals omega

def Literal (c : Char) : Prop := c ≠ '*' ∧ c ≠ '?' ∧ c ≠ '[' ∧ c ≠ '\\'

theorem globMatch_star (s : List Char) : globMatch ['*'] s = true := by
  induction s with
  | nil => rw [globMatch, globMatch, List.isEmpty_nil]
  | cons c s ih => rw [globMatch, ih, Bool.or_true]

theorem globMatch_literal {x : Char} (hx : Literal x) (p : List Char) (c : Char) (s : List Char) :
    globMatch (x :: p) (c :: s) = (x == c && globMatch p s) := by
  obtain ⟨hstar, hany, hclass, hescape⟩ := hx
  rw [globMatch]
  all_goals first
    | exact hstar
    | exact hany
    | exact hclass
    | (intro y q hy; exact absurd hy hescape)

/-- Literal characters and a final star match exactly the texts that start with them. -/
theorem globMatch_starts {p : List Char} (hp : ∀ c ∈ p, Literal c) (s : List Char) :
    globMatch (p ++ ['*']) s = true ↔ p <+: s := by
  induction p generalizing s with
  | nil => simp [globMatch_star]
  | cons x p ih =>
    have hx : Literal x := hp x List.mem_cons_self
    have hrest : ∀ c ∈ p, Literal c := fun c hc => hp c (List.mem_cons_of_mem _ hc)
    cases s with
    | nil =>
      rw [List.cons_append, globMatch]
      · simp
      · exact hx.1
    | cons c s =>
      rw [List.cons_append, globMatch_literal hx, Bool.and_eq_true, beq_iff_eq, ih hrest,
        List.cons_prefix_cons]

end RedisGlob
