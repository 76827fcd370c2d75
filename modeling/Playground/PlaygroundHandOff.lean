import Playground.PlaygroundHistories

/-! # Exactly-once hand-off

A session that was created is in the map, or was returned by one `end`, or was returned by one
sweep. Whoever receives it tears its resources down. -/
namespace PlaygroundHandOff

open HashMaps
open CallHistories
open PlaygroundManifest (Manifest)
open PlaygroundSessions
open PlaygroundSessionManager
open PlaygroundManagerRuns
open PlaygroundHistories

variable {R : Type}

abbrev TimedCall (R : Type) := Clock × Call R

def step (sha256 : String → Digest) (c : TimedCall R) (m : SessionManager) :
    Reply R × SessionManager :=
  c.2.run sha256 c.1 m

/-- The closure of an `update` leaves the id of the session alone. -/
def KeepsId : Call R → Prop
  | .update _ _ f => ∀ s, (f s).2.id = s.id
  | _ => True

def newIds (h : List (TimedCall R)) : List Uuid := h.filterMap fun c => c.2.newId

section HandedOut

def idOf : Except SessionError Session → List Uuid
  | .ok s => [s.id]
  | .error _ => []

def created : TimedCall R → Reply R → List Uuid
  | (_, .create _), .session r => idOf r
  | _, _ => []

def ended : TimedCall R → Reply R → List Uuid
  | (_, .endSession _ _), .session r => idOf r
  | _, _ => []

def swept : TimedCall R → Reply R → List Uuid
  | (_, .sweepExpired), .swept expired => expired.map Session.id
  | _, _ => []

def handed (sel : TimedCall R → Reply R → List Uuid) (t : List (TimedCall R × Reply R)) :
    List Uuid :=
  t.flatMap fun e => sel e.1 e.2

end HandedOut

def asEnded (s : Session) : Session := { s with status := .ended }

variable {sha256 : String → Digest} {m : SessionManager} {now : Clock}

theorem sweepOne_foldl_collects {ids : List Uuid} (hn : ids.Nodup)
    (acc : List Session × SessionManager) :
    (ids.foldl SessionManager.sweepOne acc).1 =
      acc.1 ++ (ids.filterMap fun id => acc.2.sessions.lookup id).map asEnded := by
  induction ids generalizing acc with
  | nil => simp
  | cons k ks ih =>
    obtain ⟨hk, hks⟩ := List.nodup_cons.mp hn
    rw [List.foldl_cons, ih hks]
    cases hl : acc.2.sessions.lookup k with
    | none => simp [SessionManager.sweepOne, hl]
    | some s =>
      have hrest : (ks.filterMap fun id => (acc.2.sessions.erase k).lookup id) =
          ks.filterMap fun id => acc.2.sessions.lookup id := by
        refine List.filterMap_congr fun id hid => AList.lookup_erase_ne ?_
        intro e
        exact hk (e ▸ hid)
      have hfirst : ((k :: ks).filterMap fun id => acc.2.sessions.lookup id) =
          s :: ks.filterMap fun id => acc.2.sessions.lookup id := List.filterMap_cons_some hl
      simp only [SessionManager.sweepOne, hl, hrest, hfirst, List.map_cons, List.append_assoc,
        List.singleton_append, asEnded]

theorem sweepExpired_returns (m : SessionManager) (now : Clock) :
    (m.sweepExpired now).1 =
      ((values m.sessions).filter fun s => s.isExpired now).map asEnded := by
  have hvalues : ((keysWhere (fun s => s.isExpired now) m.sessions).filterMap
      fun id => m.sessions.lookup id) = (values m.sessions).filter fun s => s.isExpired now := by
    rw [keysWhere, values, List.filterMap_map, List.filter_map]
    rw [← List.filterMap_eq_map]
    refine List.filterMap_congr fun e he => ?_
    exact mem_entries_iff.mp (List.mem_of_mem_filter he)
  rw [SessionManager.sweepExpired, sweepOne_foldl_collects (keysWhere_nodup _ _), hvalues,
    List.nil_append]

theorem sweepOne_foldl_moves (ids : List Uuid) (acc : List Session × SessionManager)
    (hk : Keyed acc.2.sessions) :
    (acc.2.sessions.keys ++ acc.1.map Session.id).Perm
      ((ids.foldl SessionManager.sweepOne acc).2.sessions.keys ++
        (ids.foldl SessionManager.sweepOne acc).1.map Session.id) := by
  induction ids generalizing acc with
  | nil => exact .refl _
  | cons k ks ih =>
    rw [List.foldl_cons]
    cases hl : acc.2.sessions.lookup k with
    | none =>
      have hstep : SessionManager.sweepOne acc k = acc := by simp [SessionManager.sweepOne, hl]
      rw [hstep]
      exact ih acc hk
    | some s =>
      have hstep : SessionManager.sweepOne acc k =
          (acc.1 ++ [asEnded s], { acc.2 with
            perUser := acc.2.dropPointer s.userId k
            sessions := acc.2.sessions.erase k }) := by
        simp only [SessionManager.sweepOne, hl, asEnded]
      rw [hstep]
      refine List.Perm.trans ?_ (ih _ (hk.erase k))
      have hmem : k ∈ acc.2.sessions.keys := AList.lookup_isSome.mp (by simp [hl])
      have hid : (asEnded s).id = k := hk k s hl
      have hcons := List.perm_cons_erase hmem
      simp only [AList.keys_erase, List.map_append, List.map_cons, List.map_nil, hid]
      refine (hcons.append_right _).trans ?_
      rw [List.cons_append, ← List.append_assoc]
      exact (List.perm_append_singleton k _).symm

theorem sweepExpired_moves (hk : Keyed m.sessions) (now : Clock) :
    m.sessions.keys.Perm
      ((m.sweepExpired now).2.sessions.keys ++ (m.sweepExpired now).1.map Session.id) := by
  have h := sweepOne_foldl_moves (keysWhere (fun s => s.isExpired now) m.sessions) ([], m) hk
  rw [List.map_nil, List.append_nil] at h
  exact h

theorem insert_keys {id : Uuid} {s t : Session} (hs : m.sessions.lookup id = some s) :
    (m.sessions.insert id t).keys.Perm m.sessions.keys := by
  rw [AList.keys_insert]
  exact (List.perm_cons_erase (AList.lookup_isSome.mp (by simp [hs]))).symm

/-- One call moves ids between the creates, the map and the hand-off. -/
theorem call_moves (hk : Keyed m.sessions) (c : TimedCall R)
    (hf : ∀ id, c.2.newId = some id → m.sessions.lookup id = none) :
    (created c (step sha256 c m).1 ++ m.sessions.keys).Perm
      ((step sha256 c m).2.sessions.keys ++
        (ended c (step sha256 c m).1 ++ swept c (step sha256 c m).1)) := by
  obtain ⟨now, c⟩ := c
  cases c with
  | create a =>
    rcases create_cases sha256 m now a with ⟨e, he⟩ | ⟨ttl, hc, hl, he⟩
    · simp [step, Call.run, he, created, ended, swept, idOf]
    · have habsent : a.id ∉ m.sessions.keys := by
        intro hmem
        have hsome := AList.lookup_isSome.mpr hmem
        rw [hf a.id rfl] at hsome
        cases hsome
      simp only [step, Call.run, he, created, ended, swept, idOf, AList.keys_insert,
        List.erase_of_not_mem habsent, List.append_nil]
      exact .refl _
  | get => simp [step, Call.run, created, ended, swept]
  | update id userId f =>
    rcases update_cases (m := m) id userId f with ⟨e, he⟩ | ⟨s, hs, _, he⟩
    · simp [step, Call.run, he, created, ended, swept]
    · simpa [step, Call.run, he, created, ended, swept] using
        (insert_keys (t := (f s).2) hs).symm
  | endSession id userId =>
    rcases endSession_cases (m := m) id userId with ⟨e, he⟩ | ⟨s, hs, _, he⟩
    · simp [step, Call.run, he, created, ended, swept, idOf]
    · have hid : s.id = id := hk id s hs
      have hmem : id ∈ m.sessions.keys := AList.lookup_isSome.mp (by simp [hs])
      simp only [step, Call.run, he, created, ended, swept, idOf, AList.keys_erase, hid,
        List.nil_append, List.append_nil]
      exact (List.perm_cons_erase hmem).trans (List.perm_append_singleton id _).symm
  | touchAction id userId =>
    rcases touchAction_cases m now id userId with ⟨e, he⟩ | ⟨s, hs, _, he⟩
    · simp [step, Call.run, he, created, ended, swept]
    · simpa [step, Call.run, he, created, ended, swept] using
        (insert_keys (t := { s with lastActionAt := some now.mono }) hs).symm
  | sweepExpired =>
    simpa [step, Call.run, created, ended, swept] using sweepExpired_moves hk now
  | getUserSession => simp [step, Call.run, created, ended, swept]

theorem call_keyed (hk : Keyed m.sessions) (c : Call R) (hc : KeepsId c) :
    Keyed (c.run sha256 now m).2.sessions := by
  cases c with
  | create a =>
    rcases create_cases sha256 m now a with ⟨e, he⟩ | ⟨ttl, _, _, he⟩
    · simpa only [Call.run, he] using hk
    · simp only [Call.run, he]
      exact hk.insert rfl
  | update id userId f =>
    rcases update_cases (m := m) id userId f with ⟨e, he⟩ | ⟨s, hs, _, he⟩
    · simpa only [Call.run, he] using hk
    · simp only [Call.run, he]
      exact hk.insert ((hc s).trans (hk id s hs))
  | endSession id userId =>
    rcases endSession_cases (m := m) id userId with ⟨e, he⟩ | ⟨s, _, _, he⟩
    · simpa only [Call.run, he] using hk
    · simp only [Call.run, he]
      exact hk.erase id
  | touchAction id userId =>
    rcases touchAction_cases m now id userId with ⟨e, he⟩ | ⟨s, hs, _, he⟩
    · simpa only [Call.run, he] using hk
    · simp only [Call.run, he]
      exact hk.insert (hk id s hs)
  | sweepExpired => exact sweepExpired_keyed hk now
  | get => exact hk
  | getUserSession => exact hk

theorem call_absent {c : Call R} {id : Uuid} (h : m.sessions.lookup id = none)
    (hne : c.newId ≠ some id) : (c.run sha256 now m).2.sessions.lookup id = none := by
  have hback : ∀ {j : Uuid} {s t : Session}, m.sessions.lookup j = some s →
      (m.sessions.insert j t).lookup id = none := by
    intro j s t hs
    rw [AList.lookup_insert_ne, h]
    intro e
    rw [e, hs] at h
    cases h
  cases c with
  | create a =>
    rcases create_cases sha256 m now a with ⟨e, he⟩ | ⟨ttl, _, _, he⟩
    · simpa only [Call.run, he] using h
    · simp only [Call.run, he]
      rw [AList.lookup_insert_ne, h]
      intro e
      exact hne (congrArg some e.symm)
  | update j userId f =>
    rcases update_cases (m := m) j userId f with ⟨e, he⟩ | ⟨s, hs, _, he⟩
    · simpa only [Call.run, he] using h
    · simpa only [Call.run, he] using hback hs
  | endSession j userId =>
    rcases endSession_cases (m := m) j userId with ⟨e, he⟩ | ⟨s, hs, _, he⟩
    · simpa only [Call.run, he] using h
    · simp only [Call.run, he]
      rw [AList.lookup_erase_ne, h]
      intro e
      rw [e, hs] at h
      cases h
  | touchAction j userId =>
    rcases touchAction_cases m now j userId with ⟨e, he⟩ | ⟨s, hs, _, he⟩
    · simpa only [Call.run, he] using h
    · simpa only [Call.run, he] using hback hs
  | sweepExpired =>
    cases hl : (m.sweepExpired now).2.sessions.lookup id with
    | none => exact hl
    | some s =>
      have hkept := (sweepExpired_sessions.mp hl).1
      rw [h] at hkept
      cases hkept
  | get => exact h
  | getUserSession => exact h

/-- What the rest of a history may rely on. -/
structure Ahead (h : List (TimedCall R)) (m : SessionManager) : Prop where
  keyed : Keyed m.sessions
  closures : ∀ c ∈ h, KeepsId c.2
  distinct : (newIds h).Nodup
  unused : ∀ id ∈ newIds h, m.sessions.lookup id = none

theorem newIds_next {c : TimedCall R} {h : List (TimedCall R)} (hd : (newIds (c :: h)).Nodup)
    (hu : ∀ id ∈ newIds (c :: h), m.sessions.lookup id = none) :
    ∀ id ∈ newIds h, (step sha256 c m).2.sessions.lookup id = none := by
  intro id hid
  have hmem : id ∈ newIds (c :: h) := ((List.sublist_cons_self c h).filterMap _).subset hid
  refine call_absent (hu id hmem) ?_
  intro hnew
  have hfirst : newIds (c :: h) = id :: newIds h := List.filterMap_cons_some hnew
  rw [hfirst, List.nodup_cons] at hd
  exact hd.1 hid

theorem Ahead.next {c : TimedCall R} {h : List (TimedCall R)} (ha : Ahead (c :: h) m) :
    Ahead h (step sha256 c m).2 where
  keyed := call_keyed ha.keyed _ (ha.closures c List.mem_cons_self)
  closures := fun d hd => ha.closures d (List.mem_cons_of_mem _ hd)
  distinct := ha.distinct.sublist ((List.sublist_cons_self c h).filterMap _)
  unused := newIds_next ha.distinct ha.unused

theorem history_moves {h : List (TimedCall R)} (ha : Ahead h m) :
    (handed created (transcript (step sha256) m h) ++ m.sessions.keys).Perm
      ((after (step sha256) m h).sessions.keys ++
        (handed ended (transcript (step sha256) m h) ++
          handed swept (transcript (step sha256) m h))) := by
  have hb := balance (step sha256) Ahead created (fun c r => ended c r ++ swept c r)
    (fun m => m.sessions.keys) ?_ ha
  · exact hb.trans ((List.flatMap_append_perm _ _ _).symm.append_left _)
  · intro c h m ha
    refine ⟨ha.next, call_moves ha.keyed c ?_⟩
    intro id hid
    exact ha.unused id (List.mem_filterMap.mpr ⟨c, List.mem_cons_self, hid⟩)

theorem created_newId (sha256 : String → Digest) (m : SessionManager) (c : TimedCall R) :
    created c (step sha256 c m).1 = [] ∨
      ∃ id, c.2.newId = some id ∧ created c (step sha256 c m).1 = [id] := by
  obtain ⟨now, c⟩ := c
  cases c with
  | create a =>
    rcases create_cases sha256 m now a with ⟨e, he⟩ | ⟨ttl, _, _, he⟩
    · exact Or.inl (by simp [step, Call.run, he, created, idOf])
    · exact Or.inr ⟨a.id, rfl, by simp [step, Call.run, he, created, idOf, Session.new]⟩
  | get | update | endSession | touchAction | sweepExpired | getUserSession => exact Or.inl rfl

theorem created_sublist (m : SessionManager) (h : List (TimedCall R)) :
    (handed created (transcript (step sha256) m h)).Sublist (newIds h) := by
  induction h generalizing m with
  | nil => exact .slnil
  | cons c h ih =>
    have hrest := ih (step sha256 c m).2
    simp only [handed, transcript, List.flatMap_cons] at hrest ⊢
    rcases created_newId sha256 m c with hnone | ⟨id, hid, hone⟩
    · rw [hnone, List.nil_append]
      exact hrest.trans ((List.sublist_cons_self c h).filterMap _)
    · have hfirst : newIds (c :: h) = id :: newIds h := List.filterMap_cons_some hid
      rw [hone, hfirst]
      exact hrest.cons_cons id

/-- At every point of every history, the created ids are the disjoint union of those in the map
and those handed out, none is handed out twice, and a sweep hands out exactly what expired. -/
theorem exactly_once_hand_off (manifest : Manifest) (enabled : Bool) (defaultTtl : ℕ)
    {h : List (TimedCall R)} (hclosures : ∀ c ∈ h, KeepsId c.2) (hfresh : (newIds h).Nodup) :
    let m := after (step sha256) (.new manifest enabled defaultTtl) h
    let t := transcript (step sha256) (.new manifest enabled defaultTtl) h
    (handed created t).Perm (m.sessions.keys ++ (handed ended t ++ handed swept t)) ∧
      (m.sessions.keys ++ (handed ended t ++ handed swept t)).Nodup ∧
      ∀ now, (m.sweepExpired now).1 =
        ((values m.sessions).filter fun s => s.isExpired now).map asEnded := by
  intro m t
  have hstart : Ahead h (.new manifest enabled defaultTtl) :=
    ⟨(coherent_new manifest enabled defaultTtl).keyed, hclosures, hfresh,
      fun _ _ => AList.lookup_empty _⟩
  have hmoves : (handed created t).Perm
      (m.sessions.keys ++ (handed ended t ++ handed swept t)) := by
    have hempty : (SessionManager.new manifest enabled defaultTtl).sessions.keys = [] := rfl
    have hb : (handed created t ++
        (SessionManager.new manifest enabled defaultTtl).sessions.keys).Perm
        (m.sessions.keys ++ (handed ended t ++ handed swept t)) := history_moves hstart
    rwa [hempty, List.append_nil] at hb
  refine ⟨hmoves, ?_, sweepExpired_returns m⟩
  have hnodup : (handed created t).Nodup := hfresh.sublist (created_sublist _ h)
  exact hmoves.nodup_iff.mp hnodup

def twoUsers : List (TimedCall Unit) :=
  [(atSecond 0, .create ⟨1, "u1", none, "mongo-cdc", some minTtl⟩),
    (atSecond 1, .create ⟨2, "u2", none, "mongo-cdc", none⟩),
    (atSecond 10, .endSession 2 "u2"),
    (atSecond 20, .endSession 2 "u2"),
    (atSecond 420, .sweepExpired)]

theorem exactly_once_hand_off_twoUsers :
    let t := transcript (step fun _ => 0) (.new oneScenario true defaultTtl) twoUsers
    handed created t = [1, 2] ∧ handed ended t = [2] ∧ handed swept t = [1] ∧
      (handed created t).Perm
        ((after (step fun _ => 0) (.new oneScenario true defaultTtl) twoUsers).sessions.keys ++
          (handed ended t ++ handed swept t)) :=
  ⟨by decide +kernel, by decide +kernel, by decide +kernel,
    (exactly_once_hand_off oneScenario true defaultTtl (by simp [twoUsers, KeepsId])
      (by decide +kernel)).1⟩

end PlaygroundHandOff
