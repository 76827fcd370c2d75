import Mathlib.Data.List.GetD
import Playground.PlaygroundApiClient
import Playground.PlaygroundSessions

/-! # Derived names and the guards on names -/
namespace PlaygroundNames

open PlaygroundApiClient
open PlaygroundSessions

def identifierChar (c : Char) : Bool := c.isAlphanum || c == '_'

def isSafeIdentifier (s : String) : Bool :=
  !s.isEmpty && decide (s.utf8ByteSize ≤ 128) && s.toList.all identifierChar

def isSafeResourceName (s : String) : Bool :=
  !s.isEmpty && decide (s.utf8ByteSize ≤ 128) && "playground_".toList.isPrefixOf s.toList &&
    s.toList.all identifierChar

/-- `pg_<hex>_<hex>` with an optional `_pub` or `_slot`; the parts only have to be nonempty. -/
def isSafePlaygroundShuttleArtifact (s : String) : Bool :=
  if s.isEmpty || decide (64 < s.utf8ByteSize) || !"pg_".toList.isPrefixOf s.toList then false
  else if !s.toList.all identifierChar then false
  else
    match s.toList.splitOn '_' with
    | [['p', 'g'], a, b] => !a.isEmpty && !b.isEmpty
    | [['p', 'g'], a, b, tail] =>
      !a.isEmpty && !b.isEmpty && (tail == "pub".toList || tail == "slot".toList)
    | _ => false

def Hex8 (l : List Char) : Prop := l.length = 8 ∧ ∀ c ∈ l, c ∈ hexChars

instance (l : List Char) : Decidable (Hex8 l) :=
  inferInstanceAs (Decidable (l.length = 8 ∧ ∀ c ∈ l, c ∈ hexChars))

def ShuttleForm (s : String) : Prop :=
  ∃ a b, Hex8 a ∧ Hex8 b ∧ s.toList = "pg_".toList ++ a ++ '_' :: b

def ConnectionForm (s : String) : Prop :=
  ∃ a b, Hex8 a ∧ Hex8 b ∧ s.toList = "pg_".toList ++ a ++ '_' :: b ++ "_src".toList

def NamespaceForm (s : String) : Prop :=
  ∃ a b, Hex8 a ∧ Hex8 b ∧ s.toList = "playground_".toList ++ a ++ '_' :: b

section Derived

variable (sha256 : String → Digest) (userId : String) (id : Uuid)

theorem hexDigit_mem (n : ℕ) : hexDigit n ∈ hexChars := by
  unfold hexDigit
  by_cases h : n < hexChars.length
  · rw [List.getD_eq_getElem _ _ h]
    exact List.getElem_mem h
  · rw [List.getD_eq_default _ _ (by omega)]
    decide

theorem shortUser_hex8 : Hex8 (shortUser sha256 userId).toList := by
  unfold shortUser hexEncode Hex8
  rw [String.toList_ofList]
  refine ⟨rfl, ?_⟩
  intro c hc
  obtain ⟨b, _, hb⟩ := List.mem_flatMap.mp hc
  rcases List.mem_pair.mp hb with rfl | rfl
  · exact hexDigit_mem _
  · exact hexDigit_mem _

theorem shortSid_hex8 : Hex8 (shortSid id).toList := by
  unfold shortSid lowerHex Hex8
  rw [String.toList_ofList]
  refine ⟨rfl, ?_⟩
  intro c hc
  obtain ⟨i, _, hi⟩ := List.mem_flatMap.mp hc
  rcases List.mem_pair.mp hi with rfl | rfl
  · exact hexDigit_mem _
  · exact hexDigit_mem _

theorem deriveShuttle_form : ShuttleForm (deriveShuttle sha256 userId id) := by
  refine ⟨_, _, shortUser_hex8 sha256 userId, shortSid_hex8 id, ?_⟩
  simp [deriveShuttle]

theorem deriveConnection_form :
    ConnectionForm (deriveConnection (deriveShuttle sha256 userId id)) := by
  refine ⟨_, _, shortUser_hex8 sha256 userId, shortSid_hex8 id, ?_⟩
  simp [deriveConnection, deriveShuttle]

theorem deriveNamespace_form : NamespaceForm (deriveNamespace sha256 userId id) := by
  refine ⟨_, _, shortUser_hex8 sha256 userId, shortSid_hex8 id, ?_⟩
  simp [deriveNamespace]

end Derived

section Guards

variable {s : String}

theorem hexChar_identifier {c : Char} (h : c ∈ hexChars) : identifierChar c = true := by
  have hall : hexChars.all identifierChar = true := by decide
  exact List.all_eq_true.mp hall c h

theorem identifierChar_cases {c : Char} (h : identifierChar c = true) :
    ((65 ≤ c.toNat ∧ c.toNat ≤ 90) ∨ (97 ≤ c.toNat ∧ c.toNat ≤ 122)) ∨
      (48 ≤ c.toNat ∧ c.toNat ≤ 57) ∨ c.toNat = 95 := by
  rcases (Bool.or_eq_true _ _).mp h with halphanum | hunder
  · rcases (Bool.or_eq_true _ _).mp halphanum with halpha | hdigit
    · rcases (Bool.or_eq_true _ _).mp halpha with hupper | hlower
      · exact Or.inl (Or.inl (of_decide_eq_true hupper))
      · obtain ⟨hge, hle⟩ := (Bool.and_eq_true _ _).mp hlower
        exact Or.inl (Or.inr ⟨of_decide_eq_true hge, of_decide_eq_true hle⟩)
    · obtain ⟨hge, hle⟩ := (Bool.and_eq_true _ _).mp hdigit
      exact Or.inr (Or.inl ⟨of_decide_eq_true hge, of_decide_eq_true hle⟩)
  · rw [beq_iff_eq.mp hunder]
    exact Or.inr (Or.inr (by decide))

theorem identifierChar_ascii {c : Char} (h : identifierChar c = true) : c.utf8Size = 1 := by
  have hc := identifierChar_cases h
  exact RustText.utf8Size_ascii (by omega)

theorem identifierChar_nameChar {c : Char} (h : identifierChar c = true) :
    endsName c = false ∧ c ≠ '-' := by
  have hc := identifierChar_cases h
  have hsep : c.toNat ≠ 59 ∧ c.toNat ≠ 44 ∧ c.toNat ≠ 40 ∧ c.toNat ≠ 45 := by omega
  have hne : ∀ d : Char, c.toNat ≠ d.toNat → c ≠ d := fun d hd e => hd (e ▸ rfl)
  refine ⟨?_, hne '-' hsep.2.2.2⟩
  have hws : RustText.isWhitespace c = false := by
    simp only [RustText.isWhitespace, Bool.or_eq_false_iff, Bool.and_eq_false_iff,
      decide_eq_false_iff_not, beq_eq_false_iff_ne]
    omega
  simp only [endsName, hws, Bool.false_or, Bool.or_eq_false_iff, beq_eq_false_iff_ne]
  exact ⟨⟨hne ';' hsep.1, hne ',' hsep.2.1⟩, hne '(' hsep.2.2.1⟩

theorem identifier_length {l : List Char} (h : ∀ c ∈ l, identifierChar c = true) :
    String.utf8Len l = l.length := by
  induction l with
  | nil => rfl
  | cons c cs ih =>
    rw [String.utf8Len_cons, ih fun d hd => h d (List.mem_cons_of_mem _ hd),
      identifierChar_ascii (h c List.mem_cons_self), List.length_cons]

theorem utf8ByteSize_toList (s : String) : s.utf8ByteSize = String.utf8Len s.toList := by
  rw [← String.utf8ByteSize_ofList, String.ofList_toList]

theorem isSafeIdentifier_of {l : List Char} (hs : s.toList = l) (hne : l ≠ [])
    (hlen : l.length ≤ 128) (h : ∀ c ∈ l, identifierChar c = true) : isSafeIdentifier s = true := by
  subst hs
  have hsize : s.utf8ByteSize ≤ 128 := by
    rw [utf8ByteSize_toList, identifier_length h]
    exact hlen
  have hempty : s.isEmpty = false := by
    simpa using hne
  simp only [isSafeIdentifier, hempty, hsize, decide_true, List.all_eq_true.mpr h, Bool.not_false,
    Bool.and_self]

theorem isSafeIdentifier_chars (h : isSafeIdentifier s = true) :
    s.toList ≠ [] ∧ ∀ c ∈ s.toList, identifierChar c = true := by
  simp only [isSafeIdentifier, Bool.and_eq_true, List.all_eq_true, Bool.not_eq_true'] at h
  refine ⟨?_, h.2⟩
  simpa using h.1.1

/-- A statement that drops a safe name names exactly it. -/
theorem droppedName_safe (h : isSafeIdentifier s = true) : droppedName s = s := by
  obtain ⟨hne, hall⟩ := isSafeIdentifier_chars h
  exact droppedName_self hne fun c hc => identifierChar_nameChar (hall c hc)

theorem startsVisible_safe (h : isSafeIdentifier s = true) : StartsVisible s := by
  obtain ⟨hne, hall⟩ := isSafeIdentifier_chars h
  obtain ⟨c, cs, hc⟩ := List.exists_cons_of_ne_nil hne
  have hname := identifierChar_nameChar (hall c (by simp [hc]))
  exact ⟨c, cs, hc, hname.1, hname.2⟩

theorem hex8_identifier {l : List Char} (h : Hex8 l) : ∀ c ∈ l, identifierChar c = true :=
  fun c hc => hexChar_identifier (h.2 c hc)

theorem ShuttleForm.safe (h : ShuttleForm s) : isSafeIdentifier s = true := by
  obtain ⟨a, b, ha, hb, hs⟩ := h
  refine isSafeIdentifier_of hs (by simp) (by simp [ha.1, hb.1]) ?_
  have hpre : ∀ c ∈ "pg_".toList, identifierChar c = true := List.all_eq_true.mp (by decide)
  have hsep : identifierChar '_' = true := by decide
  simp only [List.forall_mem_append, List.forall_mem_cons]
  exact ⟨⟨hpre, hex8_identifier ha⟩, hsep, hex8_identifier hb⟩

theorem ConnectionForm.safe (h : ConnectionForm s) : isSafeIdentifier s = true := by
  obtain ⟨a, b, ha, hb, hs⟩ := h
  refine isSafeIdentifier_of hs (by simp) (by simp [ha.1, hb.1]) ?_
  have hpre : ∀ c ∈ "pg_".toList, identifierChar c = true := List.all_eq_true.mp (by decide)
  have hsuf : ∀ c ∈ "_src".toList, identifierChar c = true := List.all_eq_true.mp (by decide)
  have hsep : identifierChar '_' = true := by decide
  simp only [List.forall_mem_append, List.forall_mem_cons]
  exact ⟨⟨⟨hpre, hex8_identifier ha⟩, hsep, hex8_identifier hb⟩, hsuf⟩

theorem ConnectionForm.affixes (h : ConnectionForm s) :
    "pg_".toList.isPrefixOf s.toList = true ∧ "_src".toList.isSuffixOf s.toList = true := by
  obtain ⟨a, b, _, _, hs⟩ := h
  constructor
  · rw [hs, List.append_assoc, List.append_assoc, List.isPrefixOf_iff_prefix]
    exact List.prefix_append _ _
  · rw [hs, List.isSuffixOf_iff_suffix]
    exact List.suffix_append _ _

theorem NamespaceForm.chars (h : NamespaceForm s) :
    s.toList ≠ [] ∧ s.toList.length ≤ 128 ∧ ∀ c ∈ s.toList, identifierChar c = true := by
  obtain ⟨a, b, ha, hb, hs⟩ := h
  have hpre : ∀ c ∈ "playground_".toList, identifierChar c = true :=
    List.all_eq_true.mp (by decide)
  have hsep : identifierChar '_' = true := by decide
  rw [hs]
  refine ⟨by simp, by simp [ha.1, hb.1], ?_⟩
  simp only [List.forall_mem_append, List.forall_mem_cons]
  exact ⟨⟨hpre, hex8_identifier ha⟩, hsep, hex8_identifier hb⟩

theorem NamespaceForm.safe (h : NamespaceForm s) : isSafeIdentifier s = true :=
  isSafeIdentifier_of rfl h.chars.1 h.chars.2.1 h.chars.2.2

theorem isSafeResourceName_of (h : isSafeIdentifier s = true)
    (hp : "playground_".toList.isPrefixOf s.toList = true) : isSafeResourceName s = true := by
  simp only [isSafeIdentifier, Bool.and_eq_true] at h
  simp only [isSafeResourceName, h.1.1, h.1.2, h.2, hp, Bool.and_self]

theorem NamespaceForm.resource (h : NamespaceForm s) : isSafeResourceName s = true := by
  refine isSafeResourceName_of h.safe ?_
  obtain ⟨a, b, _, _, hs⟩ := h
  rw [hs, List.append_assoc, List.isPrefixOf_iff_prefix]
  exact List.prefix_append _ _

theorem hex8_no_underscore {l : List Char} (h : Hex8 l) : ∀ c ∈ l, (c == '_') = false := by
  have hall : hexChars.all (fun d => !(d == '_')) = true := by decide
  intro c hc
  simpa using List.all_eq_true.mp hall c (h.2 c hc)

/-- A shuttle name with a tail of identifier characters, as the guard splits it. -/
theorem ShuttleForm.parts (h : ShuttleForm s) (tail : String) (rest : List (List Char))
    (hlen : tail.toList.length ≤ 5) (hchars : ∀ c ∈ tail.toList, identifierChar c = true)
    (hsplit : ∀ b : List Char, Hex8 b → (b ++ tail.toList).splitOn '_' = b :: rest) :
    ∃ a b, Hex8 a ∧ Hex8 b ∧ (s ++ tail).toList.splitOn '_' = ['p', 'g'] :: a :: b :: rest ∧
      ((s ++ tail).isEmpty || decide (64 < (s ++ tail).utf8ByteSize) ||
        !"pg_".toList.isPrefixOf (s ++ tail).toList) = false ∧
      (s ++ tail).toList.all identifierChar = true := by
  have hsafe := h.safe
  obtain ⟨hne, hall⟩ := isSafeIdentifier_chars hsafe
  obtain ⟨a, b, ha, hb, hs⟩ := h
  have hchars' : ∀ c ∈ (s ++ tail).toList, identifierChar c = true := by
    rw [String.toList_append, List.forall_mem_append]
    exact ⟨hall, hchars⟩
  refine ⟨a, b, ha, hb, ?_, ?_, List.all_eq_true.mpr hchars'⟩
  · have hpg : ∀ c ∈ ['p', 'g'], (c == '_') = false := by simp
    have hcons : (s ++ tail).toList = ['p', 'g'] ++ '_' :: (a ++ '_' :: (b ++ tail.toList)) := by
      simp [hs]
    rw [hcons, List.splitOn_append_cons_self, List.splitOn_append_cons_self,
      List.splitOn_eq_singleton_of_beq_eq_false hpg,
      List.splitOn_eq_singleton_of_beq_eq_false (hex8_no_underscore ha), hsplit b hb]
    rfl
  · have hsize : ¬ 64 < (s ++ tail).utf8ByteSize := by
      rw [utf8ByteSize_toList, identifier_length hchars', String.toList_append, hs]
      simp only [List.length_append, List.length_cons, ha.1, hb.1]
      have hpre : "pg_".toList.length = 3 := rfl
      omega
    have hpre : "pg_".toList.isPrefixOf (s ++ tail).toList = true := by
      rw [String.toList_append, hs, List.append_assoc, List.append_assoc,
        List.isPrefixOf_iff_prefix]
      exact List.prefix_append _ _
    have hempty : (s ++ tail).isEmpty = false := by
      have hne' : (s ++ tail).toList ≠ [] := by simp [hne]
      simpa using hne'
    simp only [hempty, hsize, hpre, decide_false, Bool.not_true, Bool.or_self]

theorem Hex8.isEmpty {l : List Char} (h : Hex8 l) : l.isEmpty = false := by
  cases l with
  | nil => exact absurd h.1 (by decide)
  | cons => rfl

theorem ShuttleForm.artifact (h : ShuttleForm s) : isSafePlaygroundShuttleArtifact s = true := by
  obtain ⟨a, b, ha, hb, hsplit, hguard, hall⟩ := h.parts "" [] (by decide)
    (by simp) fun b hb => by
      rw [String.toList_empty, List.append_nil]
      exact List.splitOn_eq_singleton_of_beq_eq_false (hex8_no_underscore hb)
  rw [String.append_empty] at hsplit hguard hall
  simp only [isSafePlaygroundShuttleArtifact, hguard, hall, hsplit, ha.isEmpty, hb.isEmpty,
    Bool.false_eq_true, if_false, Bool.not_true, Bool.not_false, Bool.and_self]

theorem ShuttleForm.artifact_tail (h : ShuttleForm s) {tail : String}
    (ht : tail = "pub" ∨ tail = "slot") :
    isSafePlaygroundShuttleArtifact (s ++ ("_" ++ tail)) = true := by
  have htail : tail.toList.length ≤ 4 ∧ tail.toList.all identifierChar = true ∧
      tail.toList.all (fun c => !(c == '_')) = true := by
    rcases ht with rfl | rfl <;> decide
  obtain ⟨hlen, hall, hplain⟩ := htail
  have hchars : ∀ c ∈ tail.toList, identifierChar c = true := List.all_eq_true.mp hall
  have hplain : ∀ c ∈ tail.toList, (c == '_') = false := by
    intro c hc
    simpa using List.all_eq_true.mp hplain c hc
  have htext : ("_" ++ tail).toList = '_' :: tail.toList := by simp
  obtain ⟨a, b, ha, hb, hsplit, hguard, hall⟩ := h.parts ("_" ++ tail)
    [tail.toList] (by rw [htext, List.length_cons]; omega)
    (by
      rw [htext, List.forall_mem_cons]
      exact ⟨by decide, hchars⟩) fun b hb => by
      rw [htext, List.splitOn_append_cons_self,
        List.splitOn_eq_singleton_of_beq_eq_false (hex8_no_underscore hb),
        List.splitOn_eq_singleton_of_beq_eq_false hplain]
      rfl
  have hend : (tail.toList == "pub".toList || tail.toList == "slot".toList) = true := by
    rcases ht with rfl | rfl <;> decide
  simp only [isSafePlaygroundShuttleArtifact, hguard, hall, hsplit, ha.isEmpty, hb.isEmpty, hend,
    Bool.false_eq_true, if_false, Bool.not_true, Bool.not_false, Bool.and_self]

theorem ShuttleForm.publication (h : ShuttleForm s) :
    isSafePlaygroundShuttleArtifact (s ++ "_pub") = true := by
  have htail := h.artifact_tail (Or.inl rfl)
  rwa [show "_" ++ "pub" = "_pub" from by decide] at htail

theorem ShuttleForm.slot (h : ShuttleForm s) :
    isSafePlaygroundShuttleArtifact (s ++ "_slot") = true := by
  have htail := h.artifact_tail (Or.inr rfl)
  rwa [show "_" ++ "slot" = "_slot" from by decide] at htail

end Guards

end PlaygroundNames
