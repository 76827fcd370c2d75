import Playground.CallHistories
import Playground.PlaygroundManagerRuns

/-! # The action rate limit

`touch_action` keeps one instant per session. Over the calls of one process, whatever runs between
them, it spaces the admitted calls by the cooldown, and a refused caller is told how long to
wait. -/
namespace PlaygroundRateLimit

open CallHistories
open HashMaps
open PlaygroundManifest (Manifest)
open PlaygroundSessions
open PlaygroundSessionManager
open PlaygroundManagerRuns

/-- The calls of a process with the clock readings at which they run. -/
abbrev History := List (Clock × ManagerOp)

abbrev Reply := (o : ManagerOp) × o.Result

def step (sha256 : String → Digest) (c : Clock × ManagerOp) (m : SessionManager) :
    Reply × SessionManager :=
  (⟨c.2, (c.2.run sha256 m c.1).1⟩, (c.2.run sha256 m c.1).2)

def admittedAt (id : Uuid) (c : Clock × ManagerOp) : Reply → Option ℕ
  | ⟨.touchAction j _, .ok ()⟩ => if j = id then some c.1.mono else none
  | _ => none

def newId : ManagerOp → Option Uuid
  | .create a => some a.id
  | _ => none

def drawn (h : History) : List Uuid := h.filterMap fun c => newId c.2

/-- No UUID is drawn twice, and none that a session already has. -/
structure Fresh (m : SessionManager) (h : History) : Prop where
  distinct : (drawn h).Nodup
  unused : ∀ i ∈ drawn h, m.sessions.lookup i = none

/-- What a process starts from: nothing, or whatever the file holds. -/
inductive Started : SessionManager → Prop where
  | empty (manifest : Manifest) (enabled : Bool) (defaultTtl : ℕ) :
      Started (.new manifest enabled defaultTtl)
  | restored (manifest : Manifest) (enabled : Bool) (defaultTtl : ℕ) (path : String)
      (snapshot : Option (List SessionRow)) (now : Clock) :
      Started (.newWithPersistence manifest enabled defaultTtl path snapshot now)

def opensAt (s : Session) : ℕ :=
  match s.lastActionAt with
  | none => 0
  | some last => last + actionCooldown

variable {sha256 : String → Digest} {m : SessionManager} {now : Clock} {id : Uuid}

theorem opensAt_some {s : Session} {last : ℕ} (h : s.lastActionAt = some last) :
    opensAt s = last + actionCooldown := by
  simp only [opensAt, h]

theorem opensAt_congr {s t : Session} (h : t.lastActionAt = s.lastActionAt) :
    opensAt t = opensAt s := by
  simp only [opensAt, h]

theorem apply_lastActionAt (now : Clock) (u : SessionUpdate) (s : Session) :
    (u.apply now s).2.lastActionAt = s.lastActionAt :=
  apply_keeps (fun _ _ _ _ _ => rfl) now u s

/-- Everything a call of `touch_action` can do. -/
inductive Touch (m : SessionManager) (now : Clock) (id : Uuid) (userId : String) : Prop where
  | notFound : m.sessions.lookup id = none →
      m.touchAction now id userId = (.error (.notFound id), m) → Touch m now id userId
  | forbidden (s : Session) : m.sessions.lookup id = some s → s.userId ≠ userId →
      m.touchAction now id userId = (.error .forbidden, m) → Touch m now id userId
  | cooldown (s : Session) (last : ℕ) : m.sessions.lookup id = some s → s.userId = userId →
      s.lastActionAt = some last → now.mono < last + actionCooldown →
      m.touchAction now id userId =
        (.error (.cooldown (actionCooldown - (now.mono - last))), m) → Touch m now id userId
  | admitted (s : Session) : m.sessions.lookup id = some s → s.userId = userId →
      opensAt s ≤ now.mono →
      m.touchAction now id userId = (.ok (), { m with
        sessions := m.sessions.insert id { s with lastActionAt := some now.mono } }) →
      Touch m now id userId

theorem cooldown_pos : 0 < actionCooldown := by decide

theorem touchAction_touch (m : SessionManager) (now : Clock) (id : Uuid) (userId : String) :
    Touch m now id userId := by
  cases hs : m.sessions.lookup id with
  | none => exact .notFound hs (by simp [SessionManager.touchAction, hs])
  | some s =>
    by_cases hu : s.userId = userId
    · cases hl : s.lastActionAt with
      | none =>
        refine .admitted s hs hu ?_ (by simp [SessionManager.touchAction, hs, hu, hl])
        simp only [opensAt, hl]
        omega
      | some last =>
        have hpos := cooldown_pos
        by_cases hc : now.mono - last < actionCooldown
        · refine .cooldown s last hs hu hl (by omega) ?_
          simp only [SessionManager.touchAction, hs, hu, ne_eq, not_true, if_false, hl, hc, if_true]
        · refine .admitted s hs hu ?_ (by simp [SessionManager.touchAction, hs, hu, hl, hc])
          rw [opensAt_some hl]
          omega
    · exact .forbidden s hs hu (by simp [SessionManager.touchAction, hs, hu])

theorem touchAction_admits {s : Session} (hs : m.sessions.lookup id = some s)
    (hopen : opensAt s ≤ now.mono) : (m.touchAction now id s.userId).1 = .ok () := by
  cases touchAction_touch m now id s.userId with
  | notFound hnone => simp [hs] at hnone
  | forbidden t ht hu =>
    rw [hs] at ht
    cases ht
    exact absurd rfl hu
  | cooldown t last ht hu hl hlt =>
    rw [hs] at ht
    cases ht
    rw [opensAt_some hl] at hopen
    omega
  | admitted t ht hu ho he => rw [he]

theorem touchAction_cooldown {userId : String} {wait : ℕ}
    (h : (m.touchAction now id userId).1 = .error (.cooldown wait)) :
    (m.touchAction now id userId).2 = m ∧ 0 < wait ∧ wait ≤ actionCooldown ∧
      ∃ s last, m.sessions.lookup id = some s ∧ s.userId = userId ∧ s.lastActionAt = some last ∧
        wait = actionCooldown - (now.mono - last) := by
  cases touchAction_touch m now id userId with
  | notFound hnone he => simp [he] at h
  | forbidden s hs hu he => simp [he] at h
  | admitted s hs hu ho he => simp [he] at h
  | cooldown s last hs hu hl hlt he =>
    rw [he] at h ⊢
    cases h
    have hpos := cooldown_pos
    exact ⟨rfl, by omega, by omega, s, last, hs, hu, hl, rfl⟩

theorem admittedAt_some {c : Clock × ManagerOp} {t : ℕ}
    (h : admittedAt id c (step sha256 c m).1 = some t) :
    t = c.1.mono ∧ ∃ s, m.sessions.lookup id = some s ∧ opensAt s ≤ t ∧
      (step sha256 c m).2.sessions =
        m.sessions.insert id { s with lastActionAt := some t } := by
  obtain ⟨now, o⟩ := c
  cases o with
  | touchAction j userId =>
    cases touchAction_touch m now j userId with
    | notFound hnone he => simp [step, ManagerOp.run, admittedAt, he] at h
    | forbidden s hs hu he => simp [step, ManagerOp.run, admittedAt, he] at h
    | cooldown s last hs hu hl hlt he => simp [step, ManagerOp.run, admittedAt, he] at h
    | admitted s hs hu ho he =>
      simp only [step, ManagerOp.run, admittedAt, he] at h ⊢
      split at h
      · rename_i hj
        subst hj
        cases h
        exact ⟨rfl, s, hs, ho, rfl⟩
      · cases h
  | _ => cases h

/-- What a step makes of the session's record: it stays, is created afresh, or is the one an
admitted call leaves. -/
theorem step_session {c : Clock × ManagerOp} {t : Session}
    (h : (step sha256 c m).2.sessions.lookup id = some t) :
    (∃ s, m.sessions.lookup id = some s ∧ t.userId = s.userId ∧
      t.lastActionAt = s.lastActionAt) ∨
    (newId c.2 = some id ∧ t.lastActionAt = none) ∨
    (admittedAt id c (step sha256 c m).1 = some c.1.mono ∧
      t.lastActionAt = some c.1.mono) := by
  obtain ⟨now, o⟩ := c
  cases run_origin h with
  | kept hk => exact Or.inl ⟨t, hk, rfl, rfl⟩
  | created ho hid hc hl =>
    subst ho
    exact Or.inr (Or.inl ⟨congrArg some hid, rfl⟩)
  | updated ho hk hu =>
    exact Or.inl ⟨_, hk, (apply_same _ _ _).userId, apply_lastActionAt _ _ _⟩
  | @touched userId s ho hk hu =>
    subst ho
    cases touchAction_touch m now id userId with
    | notFound hnone he =>
      rw [hnone] at hk
      cases hk
    | forbidden s' hs' hu' he =>
      rw [hk] at hs'
      cases hs'
      exact absurd hu hu'
    | cooldown s' last hs' hu' hl hlt he =>
      simp only [step, ManagerOp.run, he, hk, Option.some.injEq] at h
      exact Or.inl ⟨s, hk, by rw [← h], by rw [← h]⟩
    | admitted s' hs' hu' ho he =>
      exact Or.inr (Or.inr ⟨by simp [step, ManagerOp.run, admittedAt, he], rfl⟩)

theorem drawn_cons (c : Clock × ManagerOp) (h : History) :
    drawn (c :: h) = (newId c.2).toList ++ drawn h := by
  unfold drawn
  cases hc : newId c.2 <;> simp [hc]

theorem fresh_step {c : Clock × ManagerOp} {h : History} (hf : Fresh m (c :: h)) :
    Fresh (step sha256 c m).2 h := by
  obtain ⟨hdistinct, hunused⟩ := hf
  rw [drawn_cons] at hdistinct hunused
  refine ⟨hdistinct.of_append_right, ?_⟩
  intro i hi
  have hnone := hunused i (List.mem_append_right _ hi)
  cases ht : (step sha256 c m).2.sessions.lookup i with
  | none => rfl
  | some t =>
    rcases step_session ht with ⟨s, hs, _⟩ | ⟨hnew, _⟩ | ⟨hgrant, _⟩
    · rw [hnone] at hs
      cases hs
    · have hfirst : i ∈ (newId c.2).toList := by simp [hnew]
      exact absurd hi (List.disjoint_of_nodup_append hdistinct hfirst)
    · obtain ⟨_, s, hs, _⟩ := admittedAt_some hgrant
      rw [hnone] at hs
      cases hs

/-- No call on the session is admitted before `x`; a session still to be created is open. -/
structure Gate (id : Uuid) (h : History) (m : SessionManager) (x : ℕ) : Prop where
  fresh : Fresh m h
  closed : ∀ s, m.sessions.lookup id = some s → x ≤ opensAt s
  created : id ∈ drawn h → x = 0

theorem gate_step {c : Clock × ManagerOp} {h : History} {x : ℕ} (hg : Gate id (c :: h) m x) :
    Gate id h (step sha256 c m).2 x where
  fresh := fresh_step hg.fresh
  closed := by
    intro t ht
    rcases step_session ht with ⟨s, hs, _, hl⟩ | ⟨hnew, _⟩ | ⟨hgrant, hl⟩
    · rw [opensAt_congr hl]
      exact hg.closed s hs
    · have hx : x = 0 := hg.created (by simp [drawn_cons, hnew])
      omega
    · obtain ⟨_, s, hs, hopen, _⟩ := admittedAt_some hgrant
      have hx := hg.closed s hs
      rw [opensAt_some hl]
      omega
  created := by
    intro hid
    exact hg.created (by simp [drawn_cons, hid])

theorem gate_admitted {c : Clock × ManagerOp} {h : History} {x t : ℕ} (hg : Gate id (c :: h) m x)
    (hgrant : admittedAt id c (step sha256 c m).1 = some t) :
    x ≤ t ∧ Gate id h (step sha256 c m).2 (t + actionCooldown) := by
  obtain ⟨htime, s, hs, hopen, hafter⟩ := admittedAt_some hgrant
  have hnew : id ∉ drawn h := by
    intro hid
    have hnone := hg.fresh.unused id (by simp [drawn_cons, hid])
    rw [hs] at hnone
    cases hnone
  refine ⟨(hg.closed s hs).trans hopen, fresh_step hg.fresh, ?_, fun hid => absurd hid hnew⟩
  intro s' hs'
  rw [hafter, AList.lookup_insert] at hs'
  cases hs'
  exact (opensAt_some rfl).ge

theorem admissions_cooldown {h : History} (hf : Fresh m h) (id : Uuid) :
    Spaced actionCooldown (admissions (step sha256) (admittedAt id) m h) :=
  (admissions_spaced (step sha256) (admittedAt id) actionCooldown (Gate id)
    (fun _ _ _ _ hg => gate_step hg) (fun _ _ _ _ _ hg ht => gate_admitted hg ht)
    (x := 0) ⟨hf, fun _ _ => Nat.zero_le _, fun _ => rfl⟩).1

def Past (m : SessionManager) (t : ℕ) : Prop :=
  ∀ id s last, m.sessions.lookup id = some s → s.lastActionAt = some last → last ≤ t

theorem past_step {c : Clock × ManagerOp} {t : ℕ} (hm : Past m t) (hc : c.1.mono ≤ t) :
    Past (step sha256 c m).2 t := by
  intro id s last hs hl
  rcases step_session hs with ⟨r, hr, _, he⟩ | ⟨_, he⟩ | ⟨_, he⟩
  · exact hm id r last hr (he ▸ hl)
  · rw [he] at hl
    cases hl
  · rw [he] at hl
    cases hl
    exact hc

theorem past_after {h : History} {t : ℕ} (hm : Past m t) (hh : ∀ c ∈ h, c.1.mono ≤ t) :
    Past (after (step sha256) m h) t := by
  induction h generalizing m with
  | nil => exact hm
  | cons c h ih =>
    exact ih (past_step hm (hh c List.mem_cons_self)) fun d hd => hh d (List.mem_cons_of_mem _ hd)

theorem hydrate_past {rows : List SessionRow} {t : ℕ}
    (acc : HashMap Uuid Session × HashMap String Uuid)
    (hacc : ∀ id s last, acc.1.lookup id = some s → s.lastActionAt = some last → last ≤ t) :
    ∀ id s last, (rows.foldl (hydrateRow now) acc).1.lookup id = some s →
      s.lastActionAt = some last → last ≤ t := by
  induction rows generalizing acc with
  | nil => exact hacc
  | cons r rest ih =>
    rw [List.foldl_cons]
    apply ih
    unfold hydrateRow
    split
    · exact hacc
    · intro id s last hs hl
      rcases lookup_insert_iff.mp hs with ⟨_, rfl⟩ | ⟨_, hs⟩
      · cases hl
      · exact hacc id s last hs hl

theorem Started.past (h : Started m) (t : ℕ) : Past m t := by
  cases h with
  | empty manifest enabled defaultTtl =>
    intro id s last hs
    simp [SessionManager.new] at hs
  | restored manifest enabled defaultTtl path snapshot now =>
    exact hydrate_past _ (by simp)

theorem unadmitted_after {h : History} {userId : String} {instant : Option ℕ}
    (hm : ∀ s, m.sessions.lookup id = some s → s.userId = userId ∧ s.lastActionAt = instant)
    (hid : id ∉ drawn h) (hnone : admissions (step sha256) (admittedAt id) m h = []) :
    ∀ s, (after (step sha256) m h).sessions.lookup id = some s →
      s.userId = userId ∧ s.lastActionAt = instant := by
  induction h generalizing m with
  | nil => exact hm
  | cons c h ih =>
    simp only [admissions, transcript, List.filterMap_cons] at hnone
    rw [drawn_cons, List.mem_append, not_or] at hid
    cases hgrant : admittedAt id c (step sha256 c m).1 with
    | some t => simp [hgrant] at hnone
    | none =>
      rw [hgrant] at hnone
      refine ih ?_ hid.2 hnone
      intro t ht
      rcases step_session ht with ⟨s, hs, hu, hl⟩ | ⟨hnew, _⟩ | ⟨hsome, _⟩
      · rw [hu, hl]
        exact hm s hs
      · exact absurd (by simp [hnew]) hid.1
      · rw [hgrant] at hsome
        cases hsome

/-- The clock of a process does not run backwards; its wall clock may. -/
def Forward (h : History) : Prop := h.Pairwise fun c d => c.1.mono ≤ d.1.mono

def answerAfter (sha256 : String → Digest) (m : SessionManager) (h : History) (now : Clock)
    (id : Uuid) (userId : String) : Except SessionError Unit :=
  ((after (step sha256) m h).touchAction now id userId).1

theorem Fresh.sublist {h h' : History} (hf : Fresh m h) (hsub : h'.Sublist h) : Fresh m h' where
  distinct := hf.distinct.sublist (hsub.filterMap _)
  unused := fun i hi => hf.unused i ((hsub.filterMap _).subset hi)

theorem fresh_after {before rest : History} (hf : Fresh m (before ++ rest)) :
    Fresh (after (step sha256) m before) rest := by
  induction before generalizing m with
  | nil => exact hf
  | cons c before ih => exact ih (fresh_step hf)

section Waiting

variable {userId : String} {wait : ℕ} {before between : History}

theorem after_refused (hwait : answerAfter sha256 m before now id userId = .error (.cooldown wait))
    (h : History) : after (step sha256) m (before ++ (now, .touchAction id userId) :: h) =
      after (step sha256) (after (step sha256) m before) h := by
  rw [after_append]
  have hsame : (step sha256 (now, .touchAction id userId) (after (step sha256) m before)).2 =
      after (step sha256) m before := (touchAction_cooldown hwait).1
  rw [after, hsame]

theorem waited_admitted {later : Clock} (hpast : Past (after (step sha256) m before) now.mono)
    (hfresh : Fresh (after (step sha256) m before) between)
    (hwait : answerAfter sha256 m before now id userId = .error (.cooldown wait))
    (hlater : now.mono + wait ≤ later.mono)
    (hnone : admissions (step sha256) (admittedAt id) (after (step sha256) m before) between = [])
    (hstays : (after (step sha256) m
      (before ++ (now, .touchAction id userId) :: between)).sessions.lookup id ≠ none) :
    answerAfter sha256 m (before ++ (now, .touchAction id userId) :: between) later id userId =
      .ok () := by
  obtain ⟨_, hpos, hle, s, last, hs, hu, hl, hw⟩ := touchAction_cooldown hwait
  have hlast : last ≤ now.mono := hpast id s last hs hl
  have hid : id ∉ drawn between := by
    intro hmem
    rw [hfresh.unused id hmem] at hs
    cases hs
  have hrecord : ∀ r, (after (step sha256) m before).sessions.lookup id = some r →
      r.userId = userId ∧ r.lastActionAt = some last := by
    intro r hr
    rw [hs] at hr
    cases hr
    exact ⟨hu, hl⟩
  obtain ⟨t, ht⟩ := Option.ne_none_iff_exists'.mp hstays
  rw [after_refused hwait] at ht
  obtain ⟨rfl, htl⟩ := unadmitted_after hrecord hid hnone t ht
  rw [answerAfter, after_refused hwait]
  apply touchAction_admits ht
  rw [opensAt_some htl]
  omega

end Waiting

/-- In every history of a process, admitted calls on a session are a cooldown apart, so a window
holds no more than its seconds and one; a call that is told to wait changes nothing, waits at most
the cooldown, and the next call after the wait is admitted. -/
theorem action_rate (hm : Started m) {h : History} (hclock : Forward h) (hfresh : Fresh m h)
    (id : Uuid) :
    Spaced actionCooldown (admissions (step sha256) (admittedAt id) m h) ∧
    (∀ lo len, ((admissions (step sha256) (admittedAt id) m h).filter
      fun t => lo ≤ t ∧ t ≤ lo + len).length ≤ asSecs len + 1) ∧
    ∀ before now userId rest wait, h = before ++ (now, .touchAction id userId) :: rest →
      answerAfter sha256 m before now id userId = .error (.cooldown wait) →
      0 < wait ∧ wait ≤ actionCooldown ∧
      after (step sha256) m (before ++ [(now, .touchAction id userId)]) =
        after (step sha256) m before ∧
      ∀ between later tail, rest = between ++ (later, .touchAction id userId) :: tail →
        now.mono + wait ≤ later.mono →
        admissions (step sha256) (admittedAt id) (after (step sha256) m before) between = [] →
        (after (step sha256) m (before ++ (now, .touchAction id userId) :: between)).sessions.lookup
          id ≠ none →
        answerAfter sha256 m (before ++ (now, .touchAction id userId) :: between) later id userId =
          .ok () := by
  have hspaced : Spaced actionCooldown (admissions (step sha256) (admittedAt id) m h) :=
    admissions_cooldown hfresh id
  refine ⟨hspaced, hspaced.window cooldown_pos, ?_⟩
  intro before now userId rest wait hsplit hwait
  obtain ⟨_, hpos, hle, _⟩ := touchAction_cooldown hwait
  refine ⟨hpos, hle, after_refused hwait [], ?_⟩
  intro between later tail hrest hlater hnone hstays
  subst hrest hsplit
  apply waited_admitted _ _ hwait hlater hnone hstays
  · have hbefore := (List.pairwise_append.mp hclock).2.2
    exact past_after (hm.past _) fun c hc => hbefore c hc _ List.mem_cons_self
  · have hrest : Fresh (after (step sha256) m before) _ := fresh_after hfresh
    exact hrest.sublist ((List.sublist_append_left _ _).trans (List.sublist_cons_self _ _))

def clicks : History :=
  [(atSecond 0, createFor 1), (atSecond 1, .touchAction 1 "u1"),
    (⟨fromSecs 1 + 400000000, 0⟩, .touchAction 1 "u1"), (atSecond 2, .sweepExpired),
    (atSecond 2, .touchAction 1 "u1")]

theorem action_rate_clicks :
    answerAfter (fun _ => 0) (.new oneScenario true defaultTtl) (clicks.take 2)
      ⟨fromSecs 1 + 400000000, 0⟩ 1 "u1" = .error (.cooldown 600000000) ∧
    answerAfter (fun _ => 0) (.new oneScenario true defaultTtl) (clicks.take 4)
      (atSecond 2) 1 "u1" = .ok () := by
  have hclock : Forward clicks := by
    unfold Forward
    decide
  have hfresh : Fresh (.new oneScenario true defaultTtl) clicks :=
    ⟨by decide, by simp [SessionManager.new]⟩
  have hwait : answerAfter (fun _ => 0) (.new oneScenario true defaultTtl) (clicks.take 2)
      ⟨fromSecs 1 + 400000000, 0⟩ 1 "u1" = .error (.cooldown 600000000) := by decide
  refine ⟨hwait, ?_⟩
  have hrate := (action_rate (.empty oneScenario true defaultTtl) hclock hfresh 1).2.2
    (clicks.take 2) _ "u1" (clicks.drop 3) _ rfl hwait
  exact hrate.2.2.2 (clicks.drop 3 |>.take 1) (atSecond 2) [] rfl (by decide) rfl (by decide)

end PlaygroundRateLimit
