import Playground.PathWalks
import Playground.PlaygroundTemplates

/-! # Example files

`validate_example_relative_path` cuts a path at slashes of both kinds, the file system at one of
them. -/
namespace PlaygroundExamplePaths

open InteractionPrograms
open PathWalks
open PlaygroundOperations
open PlaygroundTemplates

def isSeparator (c : Char) : Bool := c == '/' || c == '\\'

structure Accepted (path : String) : Prop where
  relative : path.toList.head? ≠ some '/'
  segments : ∀ segment ∈ path.toList.splitOnP isSeparator,
    segment ≠ "..".toList ∧ segment ≠ "~".toList

variable {path : String}

theorem accepted_of_ok (h : validateExampleRelativePath path = .ok ()) : Accepted path := by
  rw [validateExampleRelativePath] at h
  split at h
  · cases h
  split at h
  · cases h
  rename_i habsolute
  split at h
  · cases h
  rename_i hsegments
  rw [Bool.or_eq_true, not_or] at habsolute
  refine ⟨?_, ?_⟩
  · intro hslash
    obtain ⟨rest, hrest⟩ := List.head?_eq_some_iff.mp hslash
    apply habsolute.1
    rw [hrest]
    rfl
  · intro segment hsegment
    constructor
    · rintro rfl
      exact hsegments (List.any_eq_true.mpr ⟨_, hsegment, rfl⟩)
    · rintro rfl
      exact hsegments (List.any_eq_true.mpr ⟨_, hsegment, rfl⟩)

/-- A component is cut further only at backslashes, of which two dots have none. -/
theorem Accepted.never_up (h : Accepted path) : ['.', '.'] ∉ components path.toList := by
  intro hup
  rw [components, List.splitOn_eq_splitOnP] at hup
  have hsegment : ['.', '.'] ∈ path.toList.splitOnP isSeparator := by
    refine mem_splitOnP ?_ hup (List.all_iff_forall_prop.mp (by decide))
    intro c hc
    rw [isSeparator, hc, Bool.true_or]
  exact (h.segments _ hsegment).1 rfl

/-- Joining a directory and an accepted path walks the path from the directory. -/
theorem Accepted.location_join (h : Accepted path) (cwd : List (List Char)) (dir : String) :
    location cwd (joinPath dir path).toList =
      walk (location cwd dir.toList) (components path.toList) := by
  by_cases hdir : dir.toList = []
  · have hempty : dir = "" := String.toList_eq_nil_iff.mp hdir
    subst hempty
    have hjoin : joinPath "" path = path := by
      rw [joinPath, if_pos (by rfl), String.empty_append]
    rw [hjoin, location_relative h.relative]
    rfl
  by_cases hslash : "/".toList.isSuffixOf dir.toList = true
  · -- The directory brings the slash.
    rw [joinPath, if_pos (by rw [hslash, Bool.or_true]), String.toList_append]
    obtain ⟨front, hfront⟩ := List.isSuffixOf_iff_suffix.mp hslash
    have hsplit : dir.toList = front ++ ['/'] := hfront.symm
    rw [hsplit, List.append_assoc, List.singleton_append]
    cases front with
    | nil => rfl
    | cons c front =>
      rw [location_append (List.cons_ne_nil c front), location_slash (List.cons_ne_nil c front)]
  · have hempty : dir.isEmpty = false := by
      rw [← Bool.not_eq_true, String.isEmpty_iff]
      rintro rfl
      exact hdir rfl
    rw [joinPath, if_neg (by rw [hempty, Bool.false_or]; exact hslash), String.toList_append,
      String.toList_append, List.append_assoc]
    exact location_append hdir cwd path.toList

theorem readExampleFile_reads (h : validateExampleRelativePath path = .ok ()) (env : ServerEnv)
    {ok : (op : Op) → op.Result → Prop} : (readExampleFile env path).Performs ok
      [.external (.readToString (joinPath env.examplesDir path))] := by
  rw [readExampleFile, h]
  refine ⟨[], rfl, fun r _ => ?_⟩
  cases r with
  | error e => rfl
  | ok text => rfl

/-- An accepted path stays inside whatever directory it is walked from, and the file that is read
lies under the directory of the examples. -/
theorem example_paths_stay_inside (h : validateExampleRelativePath path = .ok ()) :
    (∀ root front, front <+: components path.toList → root <+: walk root front) ∧
      (∀ cwd dir, location cwd (joinPath dir path).toList =
        walk (location cwd dir.toList) (components path.toList)) ∧
      ∀ env : ServerEnv, (readExampleFile env path).Performs (fun _ _ => True)
          [.external (.readToString (joinPath env.examplesDir path))] ∧
        ∀ cwd, location cwd env.examplesDir.toList <+:
          location cwd (joinPath env.examplesDir path).toList := by
  have haccepted := accepted_of_ok h
  refine ⟨?_, haccepted.location_join, ?_⟩
  · intro root front hfront
    exact walk_inside haccepted.never_up hfront root
  · intro env
    refine ⟨readExampleFile_reads h env, ?_⟩
    intro cwd
    rw [haccepted.location_join]
    exact walk_inside haccepted.never_up List.prefix_rfl _

theorem example_paths_stay_inside_init :
    validateExampleRelativePath "postgres/./init\\..sql" = .ok () ∧
      ∀ root front, front <+: components "postgres/./init\\..sql".toList →
        root <+: walk root front := by
  have hok : validateExampleRelativePath "postgres/./init\\..sql" = .ok () := by decide
  exact ⟨hok, (example_paths_stay_inside hok).1⟩

end PlaygroundExamplePaths
