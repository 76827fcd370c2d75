import Mathlib.Data.List.Basic

/-! # Fields of a record

A record is read from named members in any order, or from entries in the order of its fields. A
name that is given twice is refused, a member that nobody asks for is passed over, and only an
optional field may be missing. -/
namespace RecordFields

variable {Name Entry α : Type} [DecidableEq Name] {members : List (Name × Entry)} {name : Name}
  {entry : Entry} {decode : Entry → Option α} {a : α}

def called (name : Name) (members : List (Name × Entry)) : List (Name × Entry) :=
  members.filter fun m => m.1 = name

/-- The entry of a name if there is one; `none` where it is given twice. -/
def unique (members : List (Name × Entry)) (name : Name) : Option (Option Entry) :=
  match called name members with
  | [] => some none
  | [m] => some (some m.2)
  | _ => none

def required (decode : Entry → Option α) (members : List (Name × Entry)) (name : Name) : Option α :=
  match unique members name with
  | some (some e) => decode e
  | _ => none

/-- A missing field and an empty one are the same. -/
def optional (isNull : Entry → Bool) (decode : Entry → Option α) (members : List (Name × Entry))
    (name : Name) : Option (Option α) :=
  match unique members name with
  | none => none
  | some none => some none
  | some (some e) => if isNull e then some none else (decode e).map some

/-- A missing field has a value of its own; an empty one is read like any other. -/
def defaulted (decode : Entry → Option α) (members : List (Name × Entry)) (name : Name)
    (missing : α) : Option α :=
  match unique members name with
  | none => none
  | some none => some missing
  | some (some e) => decode e

/-- Fields given in the order of their names, the last ones left out. -/
def inOrder (names : List Name) (entries : List Entry) : Option (List (Name × Entry)) :=
  if entries.length ≤ names.length then some (names.zip entries) else none

def Has (members : List (Name × Entry)) (name : Name) (entry : Entry) : Prop :=
  called name members = [(name, entry)]

def Lacks (members : List (Name × Entry)) (name : Name) : Prop := called name members = []

theorem unique_has (h : Has members name entry) : unique members name = some (some entry) := by
  have hcalled : called name members = [(name, entry)] := h
  rw [unique, hcalled]

theorem unique_lacks (h : Lacks members name) : unique members name = some none := by
  have hcalled : called name members = [] := h
  rw [unique, hcalled]

theorem required_has (h : Has members name entry) (hdecode : decode entry = some a) :
    required decode members name = some a := by
  rw [required, unique_has h]
  exact hdecode

theorem defaulted_has {missing : α} (h : Has members name entry) (hdecode : decode entry = some a) :
    defaulted decode members name missing = some a := by
  rw [defaulted, unique_has h]
  exact hdecode

section Optional

variable {isNull : Entry → Bool}

/-- What an optional field may look like: an entry, or nothing, or the empty entry. -/
def May (isNull : Entry → Bool) (members : List (Name × Entry)) (name : Name) :
    Option Entry → Prop
  | some e => Has members name e ∧ isNull e = false
  | none => Lacks members name ∨ ∃ e, Has members name e ∧ isNull e = true

theorem optional_none (h : May isNull members name none) :
    optional isNull decode members name = some none := by
  rcases h with hlacks | ⟨e, he, hnull⟩
  · rw [optional, unique_lacks hlacks]
  · rw [optional, unique_has he]
    exact if_pos hnull

theorem optional_some (h : May isNull members name (some entry)) (hdecode : decode entry = some a) :
    optional isNull decode members name = some (some a) := by
  obtain ⟨hhas, hnull⟩ := h
  rw [optional, unique_has hhas]
  dsimp only
  rw [if_neg (by simp [hnull]), hdecode, Option.map_some]

theorem optional_read {decode : Entry → Option α}
    (h : optional isNull decode members name = some (some a)) :
    ∃ e, isNull e = false ∧ decode e = some a := by
  unfold optional at h
  split at h
  · cases h
  · cases h
  · rename_i e _
    split at h
    · cases h
    · rename_i hnull
      obtain ⟨b, hb, hab⟩ := Option.map_eq_some_iff.mp h
      cases hab
      exact ⟨e, by simpa using hnull, hb⟩

end Optional

section Members

variable {other : Name} {rest : List (Name × Entry)}

@[simp] theorem has_cons : Has ((name, entry) :: rest) name entry ↔ Lacks rest name := by
  rw [Has, Lacks, called, called, List.filter_cons_of_pos (by simp), List.cons_inj_right]

@[simp] theorem has_cons_other (h : other ≠ name) {e : Entry} :
    Has ((other, e) :: rest) name entry ↔ Has rest name entry := by
  rw [Has, Has, called, called, List.filter_cons_of_neg (by simpa using h)]

@[simp] theorem lacks_cons_other (h : other ≠ name) {e : Entry} :
    Lacks ((other, e) :: rest) name ↔ Lacks rest name := by
  rw [Lacks, Lacks, called, called, List.filter_cons_of_neg (by simpa using h)]

@[simp] theorem lacks_nil : Lacks ([] : List (Name × Entry)) name := rfl

@[simp] theorem may_cons_other {isNull : Entry → Bool} (h : other ≠ name) {e : Entry}
    {v : Option Entry} : May isNull ((other, e) :: rest) name v ↔ May isNull rest name v := by
  cases v with
  | none => simp only [May, lacks_cons_other h, has_cons_other h]
  | some w => simp only [May, has_cons_other h]

end Members

section Order

variable {isNull : Entry → Bool} {members' : List (Name × Entry)} {v : Option Entry}

theorem Has.perm (h : Has members name entry) (hp : members.Perm members') :
    Has members' name entry := by
  have hcalled : called name members = [(name, entry)] := h
  have hfilter : (called name members).Perm (called name members') := hp.filter _
  rw [hcalled] at hfilter
  exact List.perm_singleton.mp hfilter.symm

theorem Lacks.perm (h : Lacks members name) (hp : members.Perm members') :
    Lacks members' name := by
  have hcalled : called name members = [] := h
  have hfilter : (called name members).Perm (called name members') := hp.filter _
  rw [hcalled] at hfilter
  exact List.perm_nil.mp hfilter.symm

theorem May.perm (h : May isNull members name v) (hp : members.Perm members') :
    May isNull members' name v := by
  cases v with
  | none => exact h.imp (fun hlacks => hlacks.perm hp) fun ⟨e, he, hnull⟩ => ⟨e, he.perm hp, hnull⟩
  | some e => exact ⟨h.1.perm hp, h.2⟩

end Order

end RecordFields
