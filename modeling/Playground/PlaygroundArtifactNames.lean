import Playground.PlaygroundDispatcher

/-! # Names of publications and replication slots

The guard on the names that the dispatcher drops splits at underscores and only looks at the shape
of the parts. What it accepts is larger than the names the playground gives. -/
namespace PlaygroundArtifactNames

open PlaygroundDispatcher
open PlaygroundNames

def artifactTails : List String := ["", "_pub", "_slot"]

/-- `pg_<a>_<b>` with a tail. -/
def artifactText (a b : List Char) (tail : String) : List Char :=
  "pg_".toList ++ a ++ '_' :: b ++ tail.toList

/-- The documented pattern. -/
def ArtifactForm (s : String) : Prop :=
  ∃ a b tail, Hex8 a ∧ Hex8 b ∧ tail ∈ artifactTails ∧ s.toList = artifactText a b tail

def Part (l : List Char) : Prop := l ≠ [] ∧ ∀ c ∈ l, c.isAlphanum = true

/-- What the guard checks besides the length. -/
def PartsForm (s : String) : Prop :=
  ∃ a b tail, Part a ∧ Part b ∧ tail ∈ artifactTails ∧ s.toList = artifactText a b tail

def tailParts (tail : String) : List (List Char) :=
  match tail with
  | "_pub" => ["pub".toList]
  | "_slot" => ["slot".toList]
  | _ => []

variable {s : String} {a b : List Char} {tail : String}

theorem alphanum_no_underscore {l : List Char} (h : ∀ c ∈ l, c.isAlphanum = true) : '_' ∉ l := by
  intro hmem
  exact absurd (h '_' hmem) (by decide)

theorem hexChar_alphanum {c : Char} (h : c ∈ PlaygroundSessions.hexChars) :
    c.isAlphanum = true := by
  have hall : PlaygroundSessions.hexChars.all Char.isAlphanum = true := by decide
  exact List.all_eq_true.mp hall c h

theorem Part.of_hex8 {l : List Char} (h : Hex8 l) : Part l := by
  refine ⟨?_, fun c hc => hexChar_alphanum (h.2 c hc)⟩
  rintro rfl
  exact absurd h.1 (by decide)

theorem artifactText_split (ha : Part a) (hb : Part b) (ht : tail ∈ artifactTails) :
    (artifactText a b tail).splitOn '_' = ['p', 'g'] :: a :: b :: tailParts tail := by
  have hnoa := alphanum_no_underscore ha.2
  have hnob := alphanum_no_underscore hb.2
  rw [RustText.splitOn_eq_iff (by simp)]
  simp only [artifactTails, List.mem_cons, List.not_mem_nil, or_false] at ht
  rcases ht with rfl | rfl | rfl
  · simp [artifactText, tailParts, hnoa, hnob]
  · simp [artifactText, tailParts, hnoa, hnob]
  · simp [artifactText, tailParts, hnoa, hnob]

theorem part_of_split {l : List Char} {parts : List (List Char)}
    (hall : s.toList.all identifierChar = true) (hsplit : s.toList.splitOn '_' = parts)
    (hl : l ∈ parts) (hne : l ≠ []) : Part l := by
  refine ⟨hne, ?_⟩
  intro c hc
  subst hsplit
  obtain ⟨hunder, hmem⟩ := RustText.mem_splitOn hl hc
  have hchar := List.all_eq_true.mp hall c hmem
  simpa [identifierChar, hunder] using hchar

theorem artifactText_chars (ha : Part a) (hb : Part b) (ht : tail ∈ artifactTails) :
    ∀ c ∈ artifactText a b tail, identifierChar c = true := by
  have halnum : ∀ l : List Char, (∀ c ∈ l, c.isAlphanum = true) →
      ∀ c ∈ l, identifierChar c = true := by
    intro l hl c hc
    simp [identifierChar, hl c hc]
  have hpre : ∀ c ∈ "pg_".toList, identifierChar c = true := List.all_eq_true.mp (by decide)
  have htails : artifactTails.all (fun t => t.toList.all identifierChar) = true := by decide
  have htail : ∀ c ∈ tail.toList, identifierChar c = true :=
    List.all_eq_true.mp (List.all_eq_true.mp htails tail ht)
  simp only [artifactText, List.forall_mem_append, List.forall_mem_cons]
  exact ⟨⟨⟨hpre, halnum a ha.2⟩, by decide, halnum b hb.2⟩, htail⟩

/-- The guard accepts exactly the names in its shape of at most 64 bytes. -/
theorem accepted_iff :
    isSafePlaygroundShuttleArtifact s = true ↔ PartsForm s ∧ s.utf8ByteSize ≤ 64 := by
  constructor
  · intro h
    unfold isSafePlaygroundShuttleArtifact at h
    split at h
    · cases h
    · rename_i hguard
      simp only [Bool.or_eq_true, decide_eq_true_eq, not_or] at hguard
      split at h
      · cases h
      · rename_i hall
        have hall : s.toList.all identifierChar = true := by simpa using hall
        refine ⟨?_, by omega⟩
        split at h
        · rename_i a b hsplit
          simp only [Bool.and_eq_true, Bool.not_eq_true', List.isEmpty_eq_false_iff] at h
          refine ⟨a, b, "", part_of_split hall hsplit (by simp) h.1,
            part_of_split hall hsplit (by simp) h.2, by simp [artifactTails], ?_⟩
          have htext := ((RustText.splitOn_eq_iff (by simp)).mp hsplit).1
          simp [htext, artifactText]
        · rename_i a b last hsplit
          simp only [Bool.and_eq_true, Bool.or_eq_true, Bool.not_eq_true',
            List.isEmpty_eq_false_iff, beq_iff_eq] at h
          have htext := ((RustText.splitOn_eq_iff (by simp)).mp hsplit).1
          obtain ⟨⟨ha, hb⟩, hlast⟩ := h
          have hpa := part_of_split hall hsplit (by simp) ha
          have hpb := part_of_split hall hsplit (by simp) hb
          rcases hlast with rfl | rfl
          · exact ⟨a, b, "_pub", hpa, hpb, by simp [artifactTails], by simp [htext, artifactText]⟩
          · exact ⟨a, b, "_slot", hpa, hpb, by simp [artifactTails], by simp [htext, artifactText]⟩
        · cases h
  · rintro ⟨⟨a, b, tail, ha, hb, ht, hs⟩, hsize⟩
    have hguard : (s.isEmpty || decide (64 < s.utf8ByteSize) ||
        !"pg_".toList.isPrefixOf s.toList) = false := by
      have hpre : "pg_".toList.isPrefixOf s.toList = true := by
        rw [hs, artifactText, List.append_assoc, List.append_assoc, List.isPrefixOf_iff_prefix]
        exact List.prefix_append _ _
      have hempty : s.isEmpty = false := by
        have hne : s.toList ≠ [] := by simp [hs, artifactText]
        simpa using hne
      simp only [hempty, hpre, show ¬ 64 < s.utf8ByteSize by omega, decide_false, Bool.not_true,
        Bool.or_self]
    have hall : s.toList.all identifierChar = true := by
      rw [List.all_eq_true, hs]
      exact artifactText_chars ha hb ht
    have hsplit : s.toList.splitOn '_' = ['p', 'g'] :: a :: b :: tailParts tail := by
      rw [hs, artifactText_split ha hb ht]
    have hea : a.isEmpty = false := by simpa using ha.1
    have heb : b.isEmpty = false := by simpa using hb.1
    simp only [artifactTails, List.mem_cons, List.not_mem_nil, or_false] at ht
    rw [isSafePlaygroundShuttleArtifact, hguard, hall, hsplit]
    rcases ht with rfl | rfl | rfl <;> simp [tailParts, hea, heb]

theorem ArtifactForm.parts (h : ArtifactForm s) (ha : Part a) (hb : Part b)
    (ht : tail ∈ artifactTails) (hs : s.toList = artifactText a b tail) : Hex8 a ∧ Hex8 b := by
  obtain ⟨a', b', tail', ha', hb', ht', hs'⟩ := h
  have hsplit := artifactText_split ha hb ht
  rw [← hs, hs', artifactText_split (.of_hex8 ha') (.of_hex8 hb') ht'] at hsplit
  simp only [List.cons.injEq, true_and] at hsplit
  obtain ⟨rfl, rfl, _⟩ := hsplit
  exact ⟨ha', hb'⟩

theorem ArtifactForm.accepted (h : ArtifactForm s) : isSafePlaygroundShuttleArtifact s = true := by
  obtain ⟨a, b, tail, ha, hb, ht, hs⟩ := h
  have hpa := Part.of_hex8 ha
  have hpb := Part.of_hex8 hb
  rw [accepted_iff]
  refine ⟨⟨a, b, tail, hpa, hpb, ht, hs⟩, ?_⟩
  have htails : artifactTails.all (fun t => decide (t.toList.length ≤ 5)) = true := by decide
  have htail : tail.toList.length ≤ 5 := by simpa using List.all_eq_true.mp htails tail ht
  have hpre : "pg_".toList.length = 3 := rfl
  rw [utf8ByteSize_toList, hs, identifier_length (artifactText_chars hpa hpb ht), artifactText]
  simp only [List.length_append, List.length_cons, ha.1, hb.1]
  omega

/-- The guard knows the playground's own names, and the dispatcher drops no others. -/
structure OwnNamesOnly (s : String) : Prop where
  accepted : isSafePlaygroundShuttleArtifact s = true ↔ ArtifactForm s
  publication : ∀ c, dropPostgresPublication s = .ok c → ArtifactForm s
  slot : ∀ c, dropPostgresReplicationSlot s = .ok c → ArtifactForm s

/-- A name is judged right unless it has the three parts, is short enough, and a part is not made
of eight hexadecimal digits. -/
theorem own_names_only_iff (s : String) :
    OwnNamesOnly s ↔ ∀ a b tail, Part a → Part b → tail ∈ artifactTails →
      s.toList = artifactText a b tail → s.utf8ByteSize ≤ 64 → Hex8 a ∧ Hex8 b := by
  constructor
  · intro h a b tail ha hb ht hs hsize
    have hform := h.accepted.mp (accepted_iff.mpr ⟨⟨a, b, tail, ha, hb, ht, hs⟩, hsize⟩)
    exact hform.parts ha hb ht hs
  · intro h
    have hform : isSafePlaygroundShuttleArtifact s = true → ArtifactForm s := by
      intro hsafe
      obtain ⟨⟨a, b, tail, ha, hb, ht, hs⟩, hsize⟩ := accepted_iff.mp hsafe
      obtain ⟨hha, hhb⟩ := h a b tail ha hb ht hs hsize
      exact ⟨a, b, tail, hha, hhb, ht, hs⟩
    exact ⟨⟨hform, ArtifactForm.accepted⟩, fun c hc => hform (guarded_ok hc).1,
      fun c hc => hform (guarded_ok hc).1⟩

/-- A slot that somebody else named after his reports. -/
theorem reports_slot_accepted : ¬ OwnNamesOnly "pg_reports_src" := by
  intro h
  have hform := h.accepted.mp (by decide)
  have hreports : Part "reports".toList := ⟨by decide, List.all_eq_true.mp (by decide)⟩
  have hsrc : Part "src".toList := ⟨by decide, List.all_eq_true.mp (by decide)⟩
  have hparts := hform.parts hreports hsrc (List.mem_cons_self : "" ∈ artifactTails) rfl
  exact absurd hparts.1.1 (by decide)

end PlaygroundArtifactNames
