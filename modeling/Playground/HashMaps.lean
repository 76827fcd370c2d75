import Mathlib.Data.List.AList

/-! # Hash maps

A hash map is a list of entries with distinct keys. The order of the entries stands for the
unspecified iteration order, so no result below depends on it. -/
namespace HashMaps

abbrev HashMap (K V : Type) := AList fun _ : K => V

variable {K V : Type}

def values (m : HashMap K V) : List V := m.entries.map Sigma.snd

/-- Keys of the entries a test selects, as `iter().filter(..).map(..)` collects them. -/
def keysWhere (p : V → Bool) (m : HashMap K V) : List K :=
  (m.entries.filter fun e => p e.2).map Sigma.fst

theorem keysWhere_nodup (p : V → Bool) (m : HashMap K V) : (keysWhere p m).Nodup :=
  (List.nodupKeys_iff_pairwise.mp m.nodupKeys |>.filter _).map _ fun _ _ h => h

def retain (p : V → Bool) (m : HashMap K V) : HashMap K V :=
  ⟨m.entries.filter fun e => p e.2, m.nodupKeys.sublist List.filter_sublist⟩

theorem values_retain (p : V → Bool) (m : HashMap K V) :
    values (retain p m) = (values m).filter p := by
  rw [values, values, List.filter_map]
  rfl

variable [DecidableEq K]

theorem mem_entries_iff {m : HashMap K V} {k : K} {v : V} :
    ⟨k, v⟩ ∈ m.entries ↔ m.lookup k = some v := by
  rw [← Option.mem_def, AList.mem_lookup_iff]

theorem mem_values {m : HashMap K V} {v : V} : v ∈ values m ↔ ∃ k, m.lookup k = some v := by
  constructor
  · intro h
    obtain ⟨⟨k, w⟩, he, rfl⟩ := List.mem_map.mp h
    exact ⟨k, mem_entries_iff.mp he⟩
  · rintro ⟨k, h⟩
    exact List.mem_map.mpr ⟨⟨k, v⟩, mem_entries_iff.mpr h, rfl⟩

theorem lookup_insert_iff {m : HashMap K V} {k l : K} {v w : V} :
    (m.insert k v).lookup l = some w ↔ (l = k ∧ v = w) ∨ (l ≠ k ∧ m.lookup l = some w) := by
  by_cases h : l = k
  · subst h; simp
  · simp [AList.lookup_insert_ne h, h]

theorem lookup_erase_iff {m : HashMap K V} {k l : K} {w : V} :
    (m.erase k).lookup l = some w ↔ l ≠ k ∧ m.lookup l = some w := by
  by_cases h : l = k
  · subst h; simp
  · simp [AList.lookup_erase_ne h, h]

theorem mem_keysWhere {p : V → Bool} {m : HashMap K V} {k : K} :
    k ∈ keysWhere p m ↔ ∃ v, m.lookup k = some v ∧ p v = true := by
  simp only [keysWhere, List.mem_map, List.mem_filter]
  constructor
  · rintro ⟨⟨l, v⟩, ⟨he, hp⟩, rfl⟩
    exact ⟨v, mem_entries_iff.mp he, hp⟩
  · rintro ⟨v, hv, hp⟩
    exact ⟨⟨k, v⟩, ⟨mem_entries_iff.mpr hv, hp⟩, rfl⟩

theorem lookup_retain {p : V → Bool} {m : HashMap K V} {k : K} :
    (retain p m).lookup k = (m.lookup k).filter p := by
  ext v
  rw [← mem_entries_iff, retain, List.mem_filter, mem_entries_iff, Option.filter_eq_some_iff]

/-- Two maps with the same lookups hold the same entries, each in its own order. -/
theorem values_perm {m m' : HashMap K V} (h : ∀ k, m.lookup k = m'.lookup k) :
    (values m).Perm (values m') := by
  have hp : m.entries.Perm m'.entries := by
    refine (List.perm_ext_iff_of_nodup m.nodupKeys.nodup m'.nodupKeys.nodup).mpr ?_
    rintro ⟨k, v⟩
    rw [mem_entries_iff, mem_entries_iff, h k]
  exact hp.map _

/-- Values under distinct keys that also carry their key are distinct as rows. -/
theorem values_pairwise {key : V → K} {m : HashMap K V}
    (h : ∀ k v, m.lookup k = some v → key v = k) :
    (values m).Pairwise fun v w => key v ≠ key w := by
  have hp := List.nodupKeys_iff_pairwise.mp m.nodupKeys
  refine List.pairwise_map.mpr (hp.imp_of_mem ?_)
  rintro ⟨k, v⟩ ⟨l, w⟩ hv hw hne
  rw [h k v (mem_entries_iff.mp hv), h l w (mem_entries_iff.mp hw)]
  exact hne

end HashMaps
