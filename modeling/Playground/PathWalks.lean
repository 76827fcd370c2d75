import Playground.RustText

/-! # Slash-separated paths

Where a path leads on a file system without symbolic links. A place is the list of names from the
top; an empty component and a dot stay, two dots go up and every other component descends. -/
namespace PathWalks

open RustText

variable {α : Type}

def components (path : List Char) : List (List Char) := path.splitOn '/'

def step (place : List (List Char)) (component : List Char) : List (List Char) :=
  if component = [] ∨ component = ['.'] then place
  else if component = ['.', '.'] then place.dropLast
  else place ++ [component]

def walk (place : List (List Char)) (path : List (List Char)) : List (List Char) :=
  path.foldl step place

/-- The components that descend, where none goes up. -/
def named (path : List (List Char)) : List (List Char) :=
  path.filter fun component => decide (¬(component = [] ∨ component = ['.']))

/-- Where a path leads from a working directory. -/
def location (cwd : List (List Char)) (path : List Char) : List (List Char) :=
  walk (if path.head? = some '/' then [] else cwd) (components path)

section Segments

theorem splitOnP_flatMap {p q : α → Bool} (h : ∀ c, p c = true → q c = true) (s : List α) :
    (s.splitOnP p).flatMap (fun segment => segment.splitOnP q) = s.splitOnP q := by
  induction s with
  | nil => rfl
  | cons c s ih =>
    rw [List.splitOnP_cons_eq_if_modifyHead, List.splitOnP_cons_eq_if_modifyHead c s, ← ih]
    by_cases hp : p c = true
    · rw [if_pos hp, if_pos (h c hp)]
      rfl
    · rw [if_neg hp]
      obtain ⟨first, rest, hsplit⟩ := List.exists_cons_of_ne_nil (List.splitOnP_ne_nil p s)
      obtain ⟨head, tail, hfirst⟩ := List.exists_cons_of_ne_nil (List.splitOnP_ne_nil q first)
      rw [hsplit, List.modifyHead_cons, List.flatMap_cons, List.flatMap_cons,
        List.splitOnP_cons_eq_if_modifyHead, hfirst]
      split
      · rfl
      · rfl

/-- A segment without the other separators is a segment between any of them. -/
theorem mem_splitOnP {p q : α → Bool} (h : ∀ c, p c = true → q c = true) {s segment : List α}
    (hmem : segment ∈ s.splitOnP p) (hplain : ∀ c ∈ segment, q c = false) :
    segment ∈ s.splitOnP q := by
  rw [← splitOnP_flatMap h, List.mem_flatMap]
  refine ⟨segment, hmem, ?_⟩
  rw [List.splitOnP_eq_singleton hplain]
  exact List.mem_singleton_self segment

end Segments

section Walks

variable {place cwd path front : List (List Char)} {dir rest : List Char}

theorem walk_append (place front back : List (List Char)) :
    walk place (front ++ back) = walk (walk place front) back := List.foldl_append

theorem walk_empty (place : List (List Char)) : walk place [[]] = place := rfl

/-- A path that never goes up descends by its names. -/
theorem walk_named (h : ['.', '.'] ∉ path) (place : List (List Char)) :
    walk place path = place ++ named path := by
  induction path generalizing place with
  | nil => exact (List.append_nil place).symm
  | cons component path ih =>
    have hup : component ≠ ['.', '.'] := fun heq => h (heq ▸ List.mem_cons_self)
    have hrest : ['.', '.'] ∉ path := fun hmem => h (List.mem_cons_of_mem component hmem)
    have hwalk : walk place (component :: path) = walk (step place component) path := rfl
    rw [hwalk, ih hrest, step, if_neg hup, named, named, List.filter_cons]
    by_cases hstay : component = [] ∨ component = ['.']
    · rw [if_pos hstay, decide_eq_false (not_not_intro hstay)]
      rfl
    · rw [if_neg hstay, decide_eq_true hstay, List.append_assoc]
      rfl

theorem walk_inside (h : ['.', '.'] ∉ path) (hfront : front <+: path)
    (place : List (List Char)) : place <+: walk place front := by
  rw [walk_named fun hmem => h (hfront.subset hmem)]
  exact List.prefix_append place _

theorem components_append (dir rest : List Char) :
    components (dir ++ '/' :: rest) = components dir ++ components rest :=
  List.splitOn_append_cons_self dir rest

theorem location_append (hdir : dir ≠ []) (cwd : List (List Char)) (rest : List Char) :
    location cwd (dir ++ '/' :: rest) = walk (location cwd dir) (components rest) := by
  obtain ⟨c, dir, rfl⟩ := List.exists_cons_of_ne_nil hdir
  rw [location, components_append, walk_append]
  rfl

theorem location_slash (hdir : dir ≠ []) (cwd : List (List Char)) :
    location cwd (dir ++ ['/']) = location cwd dir := by
  rw [location_append hdir, components, List.splitOn_nil, walk_empty]

theorem location_relative (h : rest.head? ≠ some '/') (cwd : List (List Char)) :
    location cwd rest = walk cwd (components rest) := by
  rw [location, if_neg h]

end Walks

end PathWalks
