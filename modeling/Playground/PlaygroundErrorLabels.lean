import Playground.PlaygroundActions

/-! # Labels of action errors

A dispatcher error becomes the label of a metric by its variant in `from_dispatch_error`, and by
keywords of its text in `from_message`, which is what `execute_action` calls. -/
namespace PlaygroundErrorLabels

open InteractionPrograms
open PlaygroundActions
open PlaygroundApiClient
open PlaygroundHandlers
open PlaygroundManifest (Action)
open PlaygroundOperations
open PlaygroundSessions
open RustText

inductive ActionErrorKind where
  | connect
  | auth
  | timeout
  | duplicateKey
  | schemaMismatch
  | protocol
  | config
  | other
  deriving DecidableEq, Repr

def ActionErrorKind.asStr : ActionErrorKind → String
  | .connect => "connect"
  | .auth => "auth"
  | .timeout => "timeout"
  | .duplicateKey => "duplicate_key"
  | .schemaMismatch => "schema_mismatch"
  | .protocol => "protocol"
  | .config => "config"
  | .other => "other"

def fromDispatchError : DispatchError → ActionErrorKind
  | .config _ => .config
  | .connect _ => .connect
  | .auth _ => .auth
  | .schemaMismatch _ => .schemaMismatch
  | .duplicateKey _ => .duplicateKey
  | .timeout _ => .timeout
  | .protocol _ => .protocol
  | .unavailable => .config

def duplicateWords : List String := ["duplicate", "23505", "1062"]
def timeoutWords : List String := ["timeout", "57014", "timed out"]
def authWords : List String := ["authentication", "access denied", "permission"]
def connectWords : List String := ["connect", "refused", "unreachable"]
def schemaWords : List String := ["schema", "undefined", "no such", "42p01", "42703"]
def configWords : List String := ["config", "misconfig"]

def mentions (words : List String) (m : List Char) : Bool :=
  words.any fun word => contains word.toList m

def kindOf (m : List Char) : ActionErrorKind :=
  if mentions duplicateWords m then .duplicateKey
  else if mentions timeoutWords m then .timeout
  else if mentions authWords m then .auth
  else if mentions connectWords m then .connect
  else if mentions schemaWords m then .schemaMismatch
  else if mentions configWords m then .config
  else .other

def fromMessage (u : UnicodeCase) (msg : String) : ActionErrorKind :=
  kindOf (toLowercase u msg.toList)

/-- Where the two mappings agree: no keyword of an earlier kind occurs in the lower-cased message. A
protocol error and an unavailable dispatcher are never labelled by their variant. -/
def KeepsLabel (u : UnicodeCase) : DispatchError → Prop
  | .config m => Silent u m [duplicateWords, timeoutWords, authWords, connectWords, schemaWords]
  | .connect m => Silent u m [duplicateWords, timeoutWords, authWords]
  | .auth m => Silent u m [duplicateWords, timeoutWords]
  | .schemaMismatch m => Silent u m [duplicateWords, timeoutWords, authWords, connectWords]
  | .duplicateKey _ => True
  | .timeout secs => mentions duplicateWords (toString secs).toList = false
  | .protocol _ => False
  | .unavailable => False
where
  Silent (u : UnicodeCase) (m : String) (groups : List (List String)) : Prop :=
    ∀ words ∈ groups, mentions words (toLowercase u m.toList) = false

variable {u : UnicodeCase}

def lowerAscii (l : List Char) : Bool := l.all fun c => c.toNat ≤ 127 && c.toLower == c

theorem lowerAscii_map {l : List Char} (h : lowerAscii l = true) :
    (∀ c ∈ l, c.toNat ≤ 127) ∧ l.map Char.toLower = l := by
  have hall : ∀ c ∈ l, c.toNat ≤ 127 ∧ c.toLower = c := by
    intro c hc
    simpa using List.all_eq_true.mp h c hc
  refine ⟨fun c hc => (hall c hc).1, ?_⟩
  have hsame : l.map Char.toLower = l.map id := List.map_congr_left fun c hc => (hall c hc).2
  simpa using hsame

theorem toLowercase_lower {l : List Char} (h : lowerAscii l = true) : toLowercase u l = l := by
  have hl := toLowercaseFrom_ascii (u := u) (s := []) (lowerAscii_map h).1 []
  rw [(lowerAscii_map h).2] at hl
  simpa [toLowercase, toLowercaseFrom] using hl

def keyword (w : List Char) : Bool :=
  w.all (fun c => c.toNat ≤ 127 && c != ':') && w.head? != some ' '

theorem contains_blank {w s : List Char} (h : w.head? ≠ some ' ') :
    contains w (' ' :: s) = contains w s := by
  rw [Bool.eq_iff_iff, contains_iff, contains_iff, List.infix_cons_iff]
  refine ⟨fun hw => hw.elim ?_ id, Or.inr⟩
  intro hstart
  cases w with
  | nil => exact List.nil_infix
  | cons c w =>
    rw [List.cons_prefix_cons] at hstart
    exact absurd (by simp [hstart.1]) h

theorem contains_display {w head : List Char} {shown : String} (hw : keyword w = true)
    (hshown : shown.toList = head ++ [':', ' ']) (hhead : lowerAscii head = true) (m : String) :
    contains w (toLowercase u (shown ++ m).toList) =
      (contains w head || contains w (toLowercase u m.toList)) := by
  obtain ⟨hall, hfirst⟩ := (Bool.and_eq_true _ _).mp hw
  have hascii : ∀ c ∈ w, c.toNat ≤ 127 ∧ c ≠ ':' := by
    intro c hc
    simpa using List.all_eq_true.mp hall c hc
  have hcolon : ':' ∉ w := fun hc => (hascii ':' hc).2 rfl
  have hfixed : lowerAscii shown.toList = true := by
    have hsep : lowerAscii [':', ' '] = true := by decide
    rw [hshown, lowerAscii, List.all_append]
    exact (Bool.and_eq_true _ _).mpr ⟨hhead, hsep⟩
  rw [String.toList_append, toLowercase, toLowercaseFrom_ascii (lowerAscii_map hfixed).1,
    (lowerAscii_map hfixed).2, hshown, List.append_assoc, List.cons_append, List.cons_append,
    List.nil_append, contains_append_cons hcolon, contains_blank (by simpa using hfirst),
    contains_toLowercaseFrom fun c hc => (hascii c hc).1]

theorem mentions_display {words : List String} {head : List Char} {shown : String}
    (hw : words.all (fun w => keyword w.toList) = true)
    (hshown : shown.toList = head ++ [':', ' ']) (hhead : lowerAscii head = true) (m : String) :
    mentions words (toLowercase u (shown ++ m).toList) =
      (mentions words head || mentions words (toLowercase u m.toList)) := by
  induction words with
  | nil => rfl
  | cons w words ih =>
    rw [List.all_cons, Bool.and_eq_true] at hw
    have hrest := ih hw.2
    simp only [mentions, List.any_cons] at hrest ⊢
    rw [hrest, contains_display hw.1 hshown hhead]
    ac_rfl

def groups : List (List String × ActionErrorKind) :=
  [(duplicateWords, .duplicateKey), (timeoutWords, .timeout), (authWords, .auth),
    (connectWords, .connect), (schemaWords, .schemaMismatch), (configWords, .config)]

theorem groups_keywords : groups.all (fun g => g.1.all fun w => keyword w.toList) = true := by
  decide

theorem groups_kinds : (groups.map Prod.snd).Nodup := by decide

theorem kindOf_find (m : List Char) :
    kindOf m = ((groups.find? fun g => mentions g.1 m).map Prod.snd).getD .other := by
  unfold kindOf groups
  split_ifs <;> simp [*]

theorem kindOf_iff (before : List (List String × ActionErrorKind))
    {later : List (List String × ActionErrorKind)} {words : List String} {k : ActionErrorKind}
    {m : List Char} (hg : groups = before ++ (words, k) :: later)
    (hown : mentions words m = true) :
    kindOf m = k ↔ ∀ g ∈ before, mentions g.1 m = false := by
  rw [kindOf_find, hg, List.find?_append]
  cases hfirst : before.find? fun g => mentions g.1 m with
  | none =>
    have hnone := List.find?_eq_none.mp hfirst
    have hfind : ((words, k) :: later).find? (fun g => mentions g.1 m) = some (words, k) :=
      List.find?_cons_of_pos hown
    rw [hfind]
    exact iff_of_true rfl fun g hg => by simpa using hnone g hg
  | some g =>
    have hmem := List.mem_of_find?_eq_some hfirst
    have hsaid := List.find?_some hfirst
    have hne : g.2 ≠ k := by
      have hkinds := groups_kinds
      rw [hg, List.map_append, List.map_cons] at hkinds
      intro heq
      exact (List.nodup_append.mp hkinds).2.2 g.2 (List.mem_map_of_mem hmem) k
        List.mem_cons_self heq
    refine iff_of_false (by simpa using hne) ?_
    intro hsilent
    rw [hsilent g hmem] at hsaid
    cases hsaid

/-- A display text whose fixed part has a word of its own group and of no earlier one. -/
theorem fromMessage_display (before : List (List String × ActionErrorKind)) (head : List Char)
    {later : List (List String × ActionErrorKind)} {words : List String} {k : ActionErrorKind}
    {shown : String} (hg : groups = before ++ (words, k) :: later)
    (hshown : shown.toList = head ++ [':', ' '])
    (hhead : lowerAscii head = true) (hown : mentions words head = true)
    (hothers : before.all (fun g => !mentions g.1 head) = true) (m : String) :
    fromMessage u (shown ++ m) = k ↔ KeepsLabel.Silent u m (before.map Prod.fst) := by
  have hsaid : ∀ g ∈ groups, mentions g.1 (toLowercase u (shown ++ m).toList) =
      (mentions g.1 head || mentions g.1 (toLowercase u m.toList)) :=
    fun g hg => mentions_display (List.all_eq_true.mp groups_keywords g hg) hshown hhead m
  have hin : ∀ g ∈ before, g ∈ groups := by
    intro g hmem
    rw [hg]
    exact List.mem_append_left _ hmem
  have hmine := hsaid (words, k) (by simp [hg])
  rw [hown, Bool.true_or] at hmine
  rw [fromMessage, kindOf_iff before hg hmine, KeepsLabel.Silent, List.forall_mem_map]
  refine forall₂_congr fun g hmem => ?_
  have hother : mentions g.1 head = false := by
    simpa using List.all_eq_true.mp hothers g hmem
  rw [hsaid g (hin g hmem), hother, Bool.false_or]

theorem lowerAscii_digits (n : ℕ) : lowerAscii (toString n).toList = true := by
  rw [lowerAscii, List.all_eq_true]
  intro c hc
  have hmem : c ∈ Nat.toDigits 10 n := by simpa using hc
  have hdigit : c.isDigit = true := Nat.isDigit_of_mem_toDigits (by decide) (by decide) hmem
  obtain ⟨hge, hle⟩ := (Bool.and_eq_true _ _).mp hdigit
  have hle' : c.toNat ≤ 57 := of_decide_eq_true hle
  have hsame : c.toLower = c := by
    unfold Char.toLower
    split
    · rename_i hup
      have hup' : 65 ≤ c.toNat := hup.1
      omega
    · rfl
  simp only [hsame, beq_self_eq_true, Bool.and_true, decide_eq_true_eq]
  omega

theorem toList_between {shown head unit : String} {c d : Char}
    (hshown : shown.toList = head.toList ++ [c]) (hunit : unit.toList = [d]) {s : String} :
    (shown ++ s ++ unit).toList = head.toList ++ c :: (s.toList ++ d :: []) := by
  rw [String.toList_append, String.toList_append, hshown, hunit]
  simp

theorem timeout_text (secs : ℕ) :
    (fromMessage u (DispatchError.timeout secs).text = .timeout ↔
      mentions duplicateWords (toString secs).toList = false) := by
  have htext : (DispatchError.timeout secs).text.toList =
      "query timed out after".toList ++ ' ' :: ((toString secs).toList ++ 's' :: []) :=
    toList_between (by decide) (by decide)
  have hlower : lowerAscii (DispatchError.timeout secs).text.toList = true := by
    have hdigits := lowerAscii_digits secs
    unfold lowerAscii at hdigits
    rw [htext, lowerAscii, List.all_append, List.all_cons, List.all_append, hdigits]
    decide
  have hown : mentions timeoutWords (DispatchError.timeout secs).text.toList = true := by
    have hin : "timed out".toList <:+: "query timed out after".toList := by decide
    rw [htext, mentions, List.any_eq_true]
    exact ⟨"timed out", by simp [timeoutWords],
      contains_iff.mpr (hin.trans (List.prefix_append _ _).isInfix)⟩
  have hword : ∀ w ∈ duplicateWords, contains w.toList (DispatchError.timeout secs).text.toList =
      contains w.toList (toString secs).toList := by
    have hplain : duplicateWords.all (fun w => !w.toList.contains ' ' && !w.toList.contains 's' &&
        !contains w.toList "query timed out after".toList && !contains w.toList []) = true := by
      decide
    intro w hw
    have hp := List.all_eq_true.mp hplain w hw
    simp only [Bool.and_eq_true, Bool.not_eq_true', List.contains_eq_mem,
      decide_eq_false_iff_not] at hp
    obtain ⟨⟨⟨hblank, hs⟩, hhead⟩, hnil⟩ := hp
    rw [htext, contains_append_cons hblank, contains_append_cons hs, hhead, hnil, Bool.false_or,
      Bool.or_false]
  have hsame : mentions duplicateWords (DispatchError.timeout secs).text.toList =
      mentions duplicateWords (toString secs).toList := by
    rw [Bool.eq_iff_iff, mentions, mentions, List.any_eq_true, List.any_eq_true]
    exact exists_congr fun w => and_congr_right fun hw => by rw [hword w hw]
  rw [fromMessage, toLowercase_lower hlower, kindOf_iff (groups.take 1) rfl hown]
  change (∀ g ∈ [(duplicateWords, ActionErrorKind.duplicateKey)], _) ↔ _
  simp only [List.forall_mem_singleton, hsame]

theorem kindOf_ne_protocol (m : List Char) : kindOf m ≠ .protocol := by
  unfold kindOf
  split_ifs <;> simp

theorem unavailable_text : fromMessage u DispatchError.unavailable.text = .other := by
  rw [fromMessage, toLowercase_lower (by decide)]
  decide

/-- For every error and whatever its message, the label that the text gets is the label of the
variant exactly where no keyword of another kind comes first. -/
theorem label_kept_iff (u : UnicodeCase) (e : DispatchError) :
    fromMessage u e.text = fromDispatchError e ↔ KeepsLabel u e := by
  cases e with
  | config m =>
    exact fromMessage_display (groups.take 5) "playground dispatcher misconfigured".toList rfl
      (by decide) (by decide) (by decide) (by decide) m
  | connect m =>
    exact fromMessage_display (groups.take 3) "could not connect to playground sidecar".toList rfl
      (by decide) (by decide) (by decide) (by decide) m
  | auth m =>
    exact fromMessage_display (groups.take 2)
      "authentication to playground sidecar failed".toList rfl
      (by decide) (by decide) (by decide) (by decide) m
  | schemaMismatch m =>
    exact fromMessage_display (groups.take 4) "schema mismatch".toList rfl
      (by decide) (by decide) (by decide) (by decide) m
  | duplicateKey m =>
    have hkept : fromMessage u ("duplicate key: " ++ m) = .duplicateKey ↔ _ :=
      fromMessage_display [] "duplicate key".toList rfl
        (by decide) (by decide) (by decide) (by decide) m
    exact iff_of_true (hkept.mpr (by simp [KeepsLabel.Silent])) trivial
  | timeout secs => exact timeout_text secs
  | protocol m => exact iff_of_false (kindOf_ne_protocol _) id
  | unavailable =>
    refine iff_of_false ?_ id
    rw [unavailable_text]
    decide

def asciiCase : UnicodeCase := ⟨fun c => [c], fun _ _ => false⟩

/-- A sidecar that cannot be reached in time is counted as a slow query. -/
theorem connect_timed_out :
    fromMessage asciiCase (DispatchError.connect "connection timed out").text ≠
      fromDispatchError (.connect "connection timed out") := by
  rw [fromMessage, toLowercase_lower (by decide)]
  decide

-- What an execution records.
section Recorded

variable {env : ServerEnv} {identity : Identity}

def labelOf (u : UnicodeCase) (event : (op : Op) × op.Result) : Option ActionErrorKind :=
  match event.1 with
  | .metric (.actionError _ _ message) => some (fromMessage u message)
  | _ => none

def Unlabelled : Op → Prop
  | .metric (.actionError _ _ _) => False
  | _ => True

instance : AllowsBookkeeping Unlabelled where
  own {op} h := by
    cases op with
    | metric m => exact h.elim
    | _ => trivial

instance : AllowsOthers Unlabelled := ⟨fun _ => trivial⟩

instance : AllowsCaller identity Unlabelled := ⟨fun _ => trivial⟩

theorem unlabelled {α : Type} {p : Handler α} {events : List ((op : Op) × op.Result)} {a : α}
    (hp : p.Always (fun _ _ => True) Unlabelled) (h : p.Trace events a) :
    events.filterMap (labelOf u) = [] := by
  rw [List.filterMap_eq_nil_iff]
  intro event hevent
  have hop := hp.trace h event hevent
  obtain ⟨op, r⟩ := event
  cases op with
  | metric m =>
    cases m with
    | actionError => exact hop.elim
    | _ => rfl
  | _ => rfl

/-- An execution counts one error with the label of its message, or none if it succeeds. -/
theorem runTimed_label {id : Uuid} {session : Session} {actionId : String} {action : Action}
    {events : List ((op : Op) × op.Result)} {result : Except Failure ActionResponse}
    (h : (runTimed env identity id session actionId action).Trace events result) :
    ∃ outcome, result = .ok (ActionResponse.of actionId action outcome) ∧
      events.filterMap (labelOf u) = match outcome with
        | .ok _ => []
        | .error e => [fromMessage u e] := by
  obtain ⟨outcome, body, recorded, noted, rfl, hbody, hrecorded, hnoted, rfl⟩ := runTimed_parts h
  refine ⟨outcome, rfl, ?_⟩
  have hquiet : body.filterMap (labelOf u) = [] := unlabelled runAction_ops hbody
  have hafter : noted.filterMap (labelOf u) = [] :=
    unlabelled (bestEffort_ops (update_ops trivial)) hnoted
  simp only [List.filterMap_cons, List.filterMap_append, hquiet, hafter, labelOf]
  cases outcome with
  | ok r =>
    obtain ⟨rfl, _⟩ := Program.trace_done hrecorded
    rfl
  | error e =>
    obtain ⟨_, rest, rfl, hdone⟩ := Program.trace_perform hrecorded
    obtain ⟨rfl, _⟩ := Program.trace_done hdone
    rfl

end Recorded

end PlaygroundErrorLabels
