import Playground.PlaygroundHandOff

/-! # What a user sees of the others

The history of one user alone against the same history interleaved with everybody else's. The
manager of the single user is the projection of the shared one. -/
namespace PlaygroundUserViews

open HashMaps
open CallHistories
open PlaygroundManifest (Manifest)
open PlaygroundSessions
open PlaygroundSessionManager
open PlaygroundManagerRuns
open PlaygroundHistories
open PlaygroundHandOff

variable {R : Type}

def userOf : Call R → Option String
  | .create a => some a.userId
  | .get _ userId => some userId
  | .update _ userId _ => some userId
  | .endSession _ userId => some userId
  | .touchAction _ userId => some userId
  | .sweepExpired => none
  | .getUserSession userId => some userId

/-- The calls that stay when the other users' calls are removed. -/
def Visible (u : String) (c : TimedCall R) : Prop :=
  userOf c.2 = some u ∨ userOf c.2 = none

instance (u : String) : DecidablePred (Visible (R := R) u) := fun c =>
  inferInstanceAs (Decidable (userOf c.2 = some u ∨ userOf c.2 = none))

def idsOf (u : String) (h : List (TimedCall R)) : List Uuid :=
  newIds (h.filter fun c => userOf c.2 = some u)

def ofUser (u : String) (s : Session) : Bool := decide (s.userId = u)

def sweptOf (u : String) : Reply R → List Session
  | .swept expired => expired.filter (ofUser u)
  | _ => []

/-- Which replies must be equal: to creates and index lookups, to calls on the user's own
sessions, and of a sweep the user's sessions, in any order. -/
def SameView (u : String) (own : List Uuid) (c : TimedCall R) (r r' : Reply R) : Prop :=
  match c.2 with
  | .create _ | .getUserSession _ => r = r'
  | .get id _ | .update id _ _ | .endSession id _ | .touchAction id _ => id ∈ own → r = r'
  | .sweepExpired => (sweptOf u r).Perm (sweptOf u r')

section Projection

variable {u : String} {sessions sessions' : HashMap Uuid Session}

/-- The second map holds exactly the sessions of the user. -/
def Part (u : String) (sessions sessions' : HashMap Uuid Session) : Prop :=
  ∀ id, sessions'.lookup id = (sessions.lookup id).filter (ofUser u)

theorem Part.lookup_own (h : Part u sessions sessions') {id : Uuid} {s : Session}
    (hs : sessions.lookup id = some s) (hu : s.userId = u) : sessions'.lookup id = some s := by
  rw [h id, hs]
  simp [Option.filter, ofUser, hu]

theorem Part.lookup_other (h : Part u sessions sessions') {id : Uuid}
    (hs : ∀ s, sessions.lookup id = some s → s.userId ≠ u) : sessions'.lookup id = none := by
  rw [h id]
  cases hl : sessions.lookup id with
  | none => rfl
  | some s => simp [Option.filter, ofUser, hs s hl]

theorem Part.lookup_eq (h : Part u sessions sessions') {id : Uuid}
    (hs : ∀ s, sessions.lookup id = some s → s.userId = u) :
    sessions'.lookup id = sessions.lookup id := by
  cases hl : sessions.lookup id with
  | none => rw [h.lookup_other (by simp [hl])]
  | some s => exact h.lookup_own hl (hs s hl)

theorem Part.lookup_cases (h : Part u sessions sessions') (id : Uuid) :
    (∃ s, sessions.lookup id = some s ∧ s.userId = u ∧ sessions'.lookup id = some s) ∨
      (∀ s, sessions.lookup id = some s → s.userId ≠ u) ∧ sessions'.lookup id = none := by
  by_cases hown : ∃ s, sessions.lookup id = some s ∧ s.userId = u
  · obtain ⟨s, hs, hu⟩ := hown
    exact Or.inl ⟨s, hs, hu, h.lookup_own hs hu⟩
  · have hother : ∀ s, sessions.lookup id = some s → s.userId ≠ u :=
      fun s hs hu => hown ⟨s, hs, hu⟩
    exact Or.inr ⟨hother, h.lookup_other hother⟩

theorem Part.insert_own (h : Part u sessions sessions') (id : Uuid) {t : Session}
    (hu : t.userId = u) : Part u (sessions.insert id t) (sessions'.insert id t) := by
  intro j
  by_cases hj : j = id
  · subst hj
    simp [Option.filter, ofUser, hu]
  · rw [AList.lookup_insert_ne hj, AList.lookup_insert_ne hj, h j]

theorem Part.insert_other (h : Part u sessions sessions') {id : Uuid} {t : Session}
    (hs : ∀ s, sessions.lookup id = some s → s.userId ≠ u) (hu : t.userId ≠ u) :
    Part u (sessions.insert id t) sessions' := by
  intro j
  by_cases hj : j = id
  · subst hj
    rw [h.lookup_other hs, AList.lookup_insert]
    simp [Option.filter, ofUser, hu]
  · rw [AList.lookup_insert_ne hj, h j]

theorem Part.erase_own (h : Part u sessions sessions') (id : Uuid) :
    Part u (sessions.erase id) (sessions'.erase id) := by
  intro j
  by_cases hj : j = id
  · subst hj
    simp
  · rw [AList.lookup_erase_ne hj, AList.lookup_erase_ne hj, h j]

theorem Part.erase_other (h : Part u sessions sessions') {id : Uuid}
    (hs : ∀ s, sessions.lookup id = some s → s.userId ≠ u) :
    Part u (sessions.erase id) sessions' := by
  intro j
  by_cases hj : j = id
  · subst hj
    rw [h.lookup_other hs, AList.lookup_erase]
    rfl
  · rw [AList.lookup_erase_ne hj, h j]

theorem Part.values (h : Part u sessions sessions') :
    ((HashMaps.values sessions).filter (ofUser u)).Perm (HashMaps.values sessions') := by
  rw [← values_retain]
  refine values_perm fun id => ?_
  rw [lookup_retain, h id]

end Projection

/-- The second manager is the first one as the user alone would have left it. -/
structure Projects (u : String) (m m' : SessionManager) : Prop where
  sessions : Part u m.sessions m'.sessions
  pointer : m'.perUser.lookup u = m.perUser.lookup u
  manifest : m'.manifest = m.manifest
  enabled : m'.enabled = m.enabled
  defaultTtl : m'.defaultTtl = m.defaultTtl

variable {sha256 : String → Digest} {u : String} {m m' : SessionManager} {now : Clock}

theorem Projects.checkRequest (h : Projects u m m') (scenarioId : String) (ttl : Option ℕ) :
    m'.checkRequest scenarioId ttl = m.checkRequest scenarioId ttl := by
  simp only [SessionManager.checkRequest, h.manifest, h.enabled, h.defaultTtl]

theorem Projects.liveHolder (h : Projects u m m') (hm : Coherent m) (now : Clock) :
    m'.liveHolder now u = m.liveHolder now u := by
  unfold SessionManager.liveHolder
  rw [h.pointer]
  cases hp : m.perUser.lookup u with
  | none => rfl
  | some id =>
    obtain ⟨s, hs, hsu⟩ := hm.pointed u id hp
    simp only [hs, h.sessions.lookup_own hs hsu]

theorem Projects.getUserSession (h : Projects u m m') (hm : Coherent m) :
    m'.getUserSession u = m.getUserSession u := by
  unfold SessionManager.getUserSession
  rw [h.pointer]
  cases hp : m.perUser.lookup u with
  | none => rfl
  | some id =>
    obtain ⟨s, hs, hsu⟩ := hm.pointed u id hp
    simp only [Option.bind_some, hs, h.sessions.lookup_own hs hsu]

theorem dropPointer_other {v : String} {id : Uuid} (hv : u ≠ v) :
    (m.dropPointer v id).lookup u = m.perUser.lookup u := by
  unfold SessionManager.dropPointer
  split
  · exact AList.lookup_erase_ne hv
  · rfl

theorem dropPointer_congr (h : m'.perUser.lookup u = m.perUser.lookup u) (id : Uuid) :
    (m'.dropPointer u id).lookup u = (m.dropPointer u id).lookup u := by
  unfold SessionManager.dropPointer
  rw [h]
  split
  · rw [AList.lookup_erase, AList.lookup_erase]
  · exact h

theorem sweepOne_foldl_config (ids : List Uuid) (acc : List Session × SessionManager) :
    (ids.foldl SessionManager.sweepOne acc).2.manifest = acc.2.manifest ∧
      (ids.foldl SessionManager.sweepOne acc).2.enabled = acc.2.enabled := by
  induction ids generalizing acc with
  | nil => exact ⟨rfl, rfl⟩
  | cons k ks ih =>
    obtain ⟨hman, hen⟩ := ih (SessionManager.sweepOne acc k)
    rw [List.foldl_cons, hman, hen]
    unfold SessionManager.sweepOne
    split <;> exact ⟨rfl, rfl⟩

theorem sweepExpired_config (m : SessionManager) (now : Clock) :
    (m.sweepExpired now).2.manifest = m.manifest ∧ (m.sweepExpired now).2.enabled = m.enabled ∧
      (m.sweepExpired now).2.defaultTtl = m.defaultTtl :=
  ⟨(sweepOne_foldl_config _ _).1, (sweepOne_foldl_config _ _).2, sweepOne_foldl_defaultTtl _ _⟩

theorem sweepExpired_lookup (m : SessionManager) (now : Clock) (id : Uuid) :
    (m.sweepExpired now).2.sessions.lookup id =
      (m.sessions.lookup id).filter fun s => !s.isExpired now := by
  ext s
  rw [sweepExpired_sessions, Option.filter_eq_some_iff]
  simp

theorem Projects.sweepExpired (h : Projects u m m') (now : Clock) :
    Projects u (m.sweepExpired now).2 (m'.sweepExpired now).2 := by
  obtain ⟨hman, hen, httl⟩ := sweepExpired_config m now
  obtain ⟨hman', hen', httl'⟩ := sweepExpired_config m' now
  refine ⟨?_, ?_, hman'.trans (h.manifest.trans hman.symm), hen'.trans (h.enabled.trans hen.symm),
    httl'.trans (h.defaultTtl.trans httl.symm)⟩
  · intro id
    rw [sweepExpired_lookup, sweepExpired_lookup, h.sessions id]
    cases m.sessions.lookup id with
    | none => rfl
    | some s =>
      by_cases hu : ofUser u s = true <;> by_cases hx : s.isExpired now = true <;>
        simp [Option.filter, hu, hx]
  · ext id
    rw [sweepExpired_perUser, sweepExpired_perUser, h.pointer]
    refine and_congr_right fun _ => not_congr ?_
    constructor
    · rintro ⟨s, hs, hx, hsu⟩
      rw [h.sessions id, Option.filter_eq_some_iff] at hs
      exact ⟨s, hs.1, hx, hsu⟩
    · rintro ⟨s, hs, hx, hsu⟩
      exact ⟨s, h.sessions.lookup_own hs hsu, hx, hsu⟩

theorem Projects.swept (h : Projects u m m') (now : Clock) :
    ((m.sweepExpired now).1.filter (ofUser u)).Perm
      ((m'.sweepExpired now).1.filter (ofUser u)) := by
  have hmine : ∀ s ∈ values m'.sessions, ofUser u s = true := by
    intro s hs
    obtain ⟨id, hid⟩ := mem_values.mp hs
    rw [h.sessions id, Option.filter_eq_some_iff] at hid
    exact hid.2
  have hsame : (fun s => ofUser u (asEnded s)) = ofUser u := rfl
  rw [sweepExpired_returns, sweepExpired_returns, List.filter_map, List.filter_map]
  refine List.Perm.map _ ?_
  simp only [Function.comp_def, hsame]
  rw [List.filter_comm, List.filter_comm (ofUser u),
    List.filter_eq_self.mpr hmine]
  exact h.sessions.values.filter _

section Absent

variable {id : Uuid} {v : String}
  (hother : ∀ s, m.sessions.lookup id = some s → s.userId ≠ v)

include hother

-- A call for a session that is not the caller's leaves the manager alone.
theorem update_absent (f : Session → R × Session) : (m.update id v f).2 = m := by
  rcases update_cases (m := m) id v f with ⟨e, he⟩ | ⟨s, hs, hu, _⟩
  · rw [he]
  · exact absurd hu (hother s hs)

theorem endSession_absent : (m.endSession id v).2 = m := by
  rcases endSession_cases (m := m) id v with ⟨e, he⟩ | ⟨s, hs, hu, _⟩
  · rw [he]
  · exact absurd hu (hother s hs)

theorem touchAction_absent : (m.touchAction now id v).2 = m := by
  rcases touchAction_cases m now id v with ⟨e, he⟩ | ⟨s, hs, hu, _⟩
  · rw [he]
  · exact absurd hu (hother s hs)

end Absent

theorem Projects.insert_own (h : Projects u m m') (id : Uuid) {t : Session} (hu : t.userId = u) :
    Projects u { m with sessions := m.sessions.insert id t }
      { m' with sessions := m'.sessions.insert id t } :=
  ⟨h.sessions.insert_own id hu, h.pointer, h.manifest, h.enabled, h.defaultTtl⟩

theorem Projects.insert_other (h : Projects u m m') {id : Uuid} {s t : Session}
    (hs : m.sessions.lookup id = some s) (hsu : s.userId ≠ u) (hu : t.userId ≠ u) :
    Projects u { m with sessions := m.sessions.insert id t } m' := by
  refine ⟨h.sessions.insert_other ?_ hu, h.pointer, h.manifest, h.enabled, h.defaultTtl⟩
  intro r hr
  rw [hs] at hr
  cases hr
  exact hsu

theorem Projects.create (h : Projects u m m') (hm : Coherent m) {a : SessionManager.CreateArgs}
    (hu : a.userId = u) : Projects u (m.create sha256 now a).2 (m'.create sha256 now a).2 := by
  subst hu
  have hreq := h.checkRequest a.scenarioId a.ttlOverride
  have hholder := h.liveHolder hm now
  simp only [SessionManager.create, hreq, hholder]
  split
  · exact h
  · split
    · exact h
    · exact ⟨h.sessions.insert_own _ rfl, by simp, h.manifest, h.enabled, h.defaultTtl⟩

theorem Projects.update (h : Projects u m m') (id : Uuid) {f : Session → R × Session}
    (hf : ∀ s, (f s).2.userId = s.userId) :
    Projects u (m.update id u f).2 (m'.update id u f).2 := by
  rcases h.sessions.lookup_cases id with ⟨s, hs, hsu, hs'⟩ | ⟨hother, hnone⟩
  · simp only [SessionManager.update, hs, hs', hsu, ne_eq, not_true_eq_false, if_false]
    exact h.insert_own id ((hf s).trans hsu)
  · rw [update_absent hother, update_absent (by simp [hnone])]
    exact h

theorem Projects.endSession (h : Projects u m m') (id : Uuid) :
    Projects u (m.endSession id u).2 (m'.endSession id u).2 := by
  rcases h.sessions.lookup_cases id with ⟨s, hs, hsu, hs'⟩ | ⟨hother, hnone⟩
  · simp only [SessionManager.endSession, hs, hs', hsu, ne_eq, not_true_eq_false, if_false]
    exact ⟨h.sessions.erase_own id, dropPointer_congr h.pointer id, h.manifest, h.enabled,
      h.defaultTtl⟩
  · rw [endSession_absent hother, endSession_absent (by simp [hnone])]
    exact h

theorem Projects.touchAction (h : Projects u m m') (now : Clock) (id : Uuid) :
    Projects u (m.touchAction now id u).2 (m'.touchAction now id u).2 := by
  rcases h.sessions.lookup_cases id with ⟨s, hs, rfl, hs'⟩ | ⟨hother, hnone⟩
  · have hset := h.insert_own id (t := { s with lastActionAt := some now.mono }) rfl
    simp only [SessionManager.touchAction, hs, hs', ne_eq, not_true_eq_false, if_false]
    cases hlast : s.lastActionAt with
    | none => exact hset
    | some last =>
      by_cases hcool : now.mono - last < actionCooldown
      · simpa only [hcool, if_true] using h
      · simpa only [hcool, if_false] using hset
  · rw [touchAction_absent hother, touchAction_absent (by simp [hnone])]
    exact h

theorem Projects.visible (h : Projects u m m') (hm : Coherent m) (c : Call R)
    (hk : c.KeepsIdentity) (hc : userOf c = some u ∨ userOf c = none) :
    Projects u (c.run sha256 now m).2 (c.run sha256 now m').2 := by
  cases c with
  | create a => exact h.create hm (by simpa [userOf] using hc)
  | update id userId f =>
    have hu : userId = u := by simpa [userOf] using hc
    subst hu
    exact h.update id fun s => (hk s).2
  | endSession id userId =>
    have hu : userId = u := by simpa [userOf] using hc
    subst hu
    exact h.endSession id
  | touchAction id userId =>
    have hu : userId = u := by simpa [userOf] using hc
    subst hu
    exact h.touchAction now id
  | sweepExpired => exact h.sweepExpired now
  | get => exact h
  | getUserSession => exact h

theorem Projects.hidden (h : Projects u m m') (c : Call R) (hk : c.KeepsIdentity)
    (hf : c.Fresh m) (hc : ¬ (userOf c = some u ∨ userOf c = none)) :
    Projects u (c.run sha256 now m).2 m' := by
  obtain ⟨v, hv⟩ : ∃ v, userOf c = some v := by
    cases hv : userOf c with
    | none => exact absurd (Or.inr hv) hc
    | some v => exact ⟨v, rfl⟩
  have hne : v ≠ u := by
    intro e
    exact hc (Or.inl (e ▸ hv))
  cases c with
  | create a =>
    cases hv
    rcases create_cases sha256 m now a with ⟨e, he⟩ | ⟨ttl, _, _, he⟩
    · simpa only [Call.run, he] using h
    · simp only [Call.run, he]
      refine ⟨h.sessions.insert_other ?_ hne, ?_, h.manifest, h.enabled, h.defaultTtl⟩
      · intro s hs
        rw [hf a.id rfl] at hs
        cases hs
      · rw [h.pointer, AList.lookup_insert_ne hne.symm, AList.lookup_erase_ne hne.symm]
  | update id userId f =>
    cases hv
    rcases update_cases (m := m) id v f with ⟨e, he⟩ | ⟨s, hs, hsu, he⟩
    · simpa only [Call.run, he] using h
    · subst hsu
      simp only [Call.run, he]
      have htarget : (f s).2.userId ≠ u := by
        rw [(hk s).2]
        exact hne
      exact h.insert_other hs hne htarget
  | endSession id userId =>
    cases hv
    rcases endSession_cases (m := m) id v with ⟨e, he⟩ | ⟨s, hs, hsu, he⟩
    · simpa only [Call.run, he] using h
    · simp only [Call.run, he, hsu]
      refine ⟨h.sessions.erase_other ?_, ?_, h.manifest, h.enabled, h.defaultTtl⟩
      · intro t ht
        rw [hs] at ht
        cases ht
        rwa [hsu]
      · exact h.pointer.trans (dropPointer_other hne.symm).symm
  | touchAction id userId =>
    cases hv
    rcases touchAction_cases m now id v with ⟨e, he⟩ | ⟨s, hs, hsu, he⟩
    · simpa only [Call.run, he] using h
    · subst hsu
      simp only [Call.run, he]
      exact h.insert_other hs hne hne
  | sweepExpired => cases hv
  | get => exact h
  | getUserSession => exact h

theorem Projects.sameView (h : Projects u m m') (hm : Coherent m) {own : List Uuid}
    (hown : ∀ id ∈ own, ∀ s, m.sessions.lookup id = some s → s.userId = u) (c : TimedCall R)
    (hc : Visible u c) :
    SameView u own c (step sha256 c m).1 (step sha256 c m').1 := by
  obtain ⟨now, c⟩ := c
  cases c with
  | create a =>
    have hu : a.userId = u := by simpa [Visible, userOf] using hc
    subst hu
    have hreq := h.checkRequest a.scenarioId a.ttlOverride
    have hholder := h.liveHolder hm now
    simp only [SameView, step, Call.run, SessionManager.create, hreq, hholder]
    split
    · rfl
    · split <;> rfl
  | get id userId =>
    intro hid
    simp only [step, Call.run, SessionManager.get, h.sessions.lookup_eq (hown id hid)]
  | update id userId f =>
    intro hid
    simp only [step, Call.run, SessionManager.update, h.sessions.lookup_eq (hown id hid)]
    cases m.sessions.lookup id with
    | none => rfl
    | some s => by_cases hs : s.userId = userId <;> simp [hs]
  | endSession id userId =>
    intro hid
    simp only [step, Call.run, SessionManager.endSession, h.sessions.lookup_eq (hown id hid)]
    cases m.sessions.lookup id with
    | none => rfl
    | some s => by_cases hs : s.userId = userId <;> simp [hs]
  | touchAction id userId =>
    intro hid
    simp only [step, Call.run, SessionManager.touchAction, h.sessions.lookup_eq (hown id hid)]
    cases m.sessions.lookup id with
    | none => rfl
    | some s =>
      by_cases hs : s.userId = userId
      · simp only [hs, ne_eq, not_true_eq_false, if_false]
        cases s.lastActionAt with
        | none => rfl
        | some last => by_cases hcool : now.mono - last < actionCooldown <;> simp [hcool]
      · simp [hs]
  | sweepExpired => exact h.swept now
  | getUserSession userId =>
    have hu : userId = u := by simpa [Visible, userOf] using hc
    subst hu
    simp only [SameView, step, Call.run, h.getUserSession hm]

theorem draws_once {h : List (TimedCall R)} (hd : (newIds h).Nodup) {c d : TimedCall R} {id : Uuid}
    (hc : c ∈ h) (hd' : d ∈ h) (hcid : c.2.newId = some id) (hdid : d.2.newId = some id) :
    userOf c.2 = userOf d.2 := by
  induction h with
  | nil => cases hc
  | cons e h ih =>
    have hrest : (newIds h).Nodup := hd.sublist ((List.sublist_cons_self e h).filterMap _)
    have hnew : e.2.newId = some id → id ∉ newIds h := by
      intro he
      have hfirst : newIds (e :: h) = id :: newIds h := List.filterMap_cons_some he
      rw [hfirst, List.nodup_cons] at hd
      exact hd.1
    rcases List.mem_cons.mp hc with hce | hch <;> rcases List.mem_cons.mp hd' with hde | hdh
    · rw [hce, hde]
    · subst hce
      exact (hnew hcid (List.mem_filterMap.mpr ⟨d, hdh, hdid⟩)).elim
    · subst hde
      exact (hnew hdid (List.mem_filterMap.mpr ⟨c, hch, hcid⟩)).elim
    · exact ih hrest hch hdh

theorem drawn_by_owner {h : List (TimedCall R)} (hd : (newIds h).Nodup) :
    ∀ c ∈ h, ∀ id ∈ idsOf u h, c.2.newId = some id → userOf c.2 = some u := by
  intro c hc id hid hnew
  obtain ⟨d, hd', hdid⟩ := List.mem_filterMap.mp hid
  obtain ⟨hdh, hdu⟩ := List.mem_filter.mp hd'
  rw [draws_once hd hc hdh hnew hdid]
  exact of_decide_eq_true hdu

/-- What the rest of a history may rely on, and what it may not touch. -/
structure Apart (u : String) (own : List Uuid) (h : List (TimedCall R)) (m m' : SessionManager) :
    Prop where
  projects : Projects u m m'
  coherent : Coherent m
  closures : ∀ c ∈ h, c.2.KeepsIdentity
  distinct : (newIds h).Nodup
  unused : ∀ id ∈ newIds h, m.sessions.lookup id = none
  mine : ∀ id ∈ own, ∀ s, m.sessions.lookup id = some s → s.userId = u
  drawn : ∀ c ∈ h, ∀ id ∈ own, c.2.newId = some id → userOf c.2 = some u

theorem Apart.fresh {own : List Uuid} {c : TimedCall R} {h : List (TimedCall R)}
    (ha : Apart u own (c :: h) m m') : c.2.Fresh m := by
  intro id hid
  exact ha.unused id (List.mem_filterMap.mpr ⟨c, List.mem_cons_self, hid⟩)

theorem Apart.stays_mine {own : List Uuid} {c : TimedCall R} {h : List (TimedCall R)}
    (ha : Apart u own (c :: h) m m') :
    ∀ id ∈ own, ∀ s, (step sha256 c m).2.sessions.lookup id = some s → s.userId = u := by
  obtain ⟨now, c⟩ := c
  have hclosure : c.KeepsIdentity := ha.closures _ List.mem_cons_self
  intro id hid s hs
  cases c with
  | create a =>
    rcases create_cases sha256 m now a with ⟨e, he⟩ | ⟨ttl, _, _, he⟩
    · simp only [step, Call.run, he] at hs
      exact ha.mine id hid s hs
    · simp only [step, Call.run, he, lookup_insert_iff] at hs
      rcases hs with ⟨rfl, rfl⟩ | ⟨_, hs⟩
      · have hu := ha.drawn _ List.mem_cons_self a.id hid rfl
        exact Option.some.inj hu
      · exact ha.mine id hid s hs
  | update j userId f =>
    rcases update_cases (m := m) j userId f with ⟨e, he⟩ | ⟨t, ht, _, he⟩
    · simp only [step, Call.run, he] at hs
      exact ha.mine id hid s hs
    · simp only [step, Call.run, he, lookup_insert_iff] at hs
      rcases hs with ⟨rfl, rfl⟩ | ⟨_, hs⟩
      · rw [(hclosure t).2]
        exact ha.mine _ hid t ht
      · exact ha.mine id hid s hs
  | endSession j userId =>
    rcases endSession_cases (m := m) j userId with ⟨e, he⟩ | ⟨t, _, _, he⟩
    · simp only [step, Call.run, he] at hs
      exact ha.mine id hid s hs
    · simp only [step, Call.run, he, lookup_erase_iff] at hs
      exact ha.mine id hid s hs.2
  | touchAction j userId =>
    rcases touchAction_cases m now j userId with ⟨e, he⟩ | ⟨t, ht, _, he⟩
    · simp only [step, Call.run, he] at hs
      exact ha.mine id hid s hs
    · simp only [step, Call.run, he, lookup_insert_iff] at hs
      rcases hs with ⟨rfl, rfl⟩ | ⟨_, hs⟩
      · exact ha.mine _ hid t ht
      · exact ha.mine id hid s hs
  | sweepExpired => exact ha.mine id hid s (sweepExpired_sessions.mp hs).1
  | get => exact ha.mine id hid s hs
  | getUserSession => exact ha.mine id hid s hs

theorem Apart.next {own : List Uuid} {c : TimedCall R} {h : List (TimedCall R)}
    {m'' : SessionManager} (ha : Apart u own (c :: h) m m')
    (hp : Projects u (step sha256 c m).2 m'') : Apart u own h (step sha256 c m).2 m'' where
  projects := hp
  coherent := call_coherent ha.coherent c.2 (ha.closures c List.mem_cons_self) ha.fresh
  closures := fun d hd => ha.closures d (List.mem_cons_of_mem _ hd)
  distinct := ha.distinct.sublist ((List.sublist_cons_self c h).filterMap _)
  unused := newIds_next ha.distinct ha.unused
  mine := ha.stays_mine
  drawn := fun d hd => ha.drawn d (List.mem_cons_of_mem _ hd)

/-- Removing everybody else's calls from a history changes nothing a user sees of creates, index
lookups, calls on sessions whose id the user drew, and the user's sessions in the sweeps. -/
theorem users_do_not_interfere (manifest : Manifest) (enabled : Bool) (defaultTtl : ℕ) (u : String)
    {h : List (TimedCall R)} (hclosures : ∀ c ∈ h, c.2.KeepsIdentity)
    (hfresh : (newIds h).Nodup) :
    List.Forall₂ (fun a b => a.1 = b.1 ∧ SameView u (idsOf u h) a.1 a.2 b.2)
      ((transcript (step sha256) (.new manifest enabled defaultTtl) h).filter
        fun e => Visible u e.1)
      (transcript (step sha256) (.new manifest enabled defaultTtl)
        (h.filter fun c => Visible u c)) := by
  have hstart : Apart u (idsOf u h) h (.new manifest enabled defaultTtl)
      (.new manifest enabled defaultTtl) :=
    { projects := ⟨fun _ => rfl, rfl, rfl, rfl, rfl⟩
      coherent := coherent_new manifest enabled defaultTtl
      closures := hclosures
      distinct := hfresh
      unused := fun _ _ => AList.lookup_empty _
      mine := by simp [SessionManager.new]
      drawn := drawn_by_owner hfresh }
  refine unwinding (step sha256) (Visible u) (Apart u (idsOf u h)) (SameView u (idsOf u h)) ?_ ?_
    hstart
  · intro c h m m' hc ha
    refine ⟨ha.projects.sameView ha.coherent ha.mine c hc, ha.next ?_⟩
    exact ha.projects.visible ha.coherent c.2 (ha.closures c List.mem_cons_self) hc
  · intro c h m m' hc ha
    exact ha.next (ha.projects.hidden c.2 (ha.closures c List.mem_cons_self) ha.fresh hc)

/-- Two users who also try each other's session. -/
def interleaved : List (TimedCall Unit) :=
  [(atSecond 0, .create ⟨1, "u1", none, "mongo-cdc", some minTtl⟩),
    (atSecond 1, .create ⟨2, "u2", none, "mongo-cdc", none⟩),
    (atSecond 10, .get 1 "u2"),
    (atSecond 11, .touchAction 2 "u2"),
    (atSecond 20, .endSession 1 "u2"),
    (atSecond 30, .getUserSession "u2"),
    (atSecond 420, .sweepExpired)]

theorem users_do_not_interfere_interleaved :
    List.Forall₂ (fun a b => a.1 = b.1 ∧ SameView "u2" (idsOf "u2" interleaved) a.1 a.2 b.2)
      ((transcript (step fun _ => 0) (.new oneScenario true defaultTtl) interleaved).filter
        fun e => Visible "u2" e.1)
      (transcript (step fun _ => 0) (.new oneScenario true defaultTtl)
        (interleaved.filter fun c => Visible "u2" c)) ∧
      idsOf "u2" interleaved = [2] :=
  ⟨users_do_not_interfere oneScenario true defaultTtl "u2"
    (by simp [interleaved, Call.KeepsIdentity]) (by decide +kernel), by decide +kernel⟩

end PlaygroundUserViews
