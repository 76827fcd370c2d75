import Playground.PlaygroundManagerRuns

/-! # Session clocks across a restart

The monotonic anchor of a session is not serialized: a restart anchors the session at the
moment of hydration while its ttl still counts from the first anchor. -/
namespace PlaygroundRestartClock

open HashMaps
open PlaygroundSessions
open PlaygroundSessionManager
open PlaygroundManagerRuns

def Clock.after (c : Clock) (d : ℕ) : Clock := ⟨c.mono + d, c.wall + d⟩

/-- Within a process the monotonic and the wall clock advance at one rate. -/
def SameRate (_ : SessionManager) (t now : Clock) : Event → Prop
  | .op _ => now.wall - t.wall = now.mono - t.mono
  | .restart _ => True

/-- The session after a series of extensions, each after some delay, and the clock then. -/
def extendAll : List (ℕ × ℕ) → Session × Clock → Session × Clock
  | [], x => x
  | (delay, extra) :: rest, (s, c) =>
    extendAll rest ((s.extend (Clock.after c delay) extra).2, Clock.after c delay)

structure SameAnswers (s : Session) (c : Clock) (s' : Session) (c' : Clock) : Prop where
  expired : s.isExpired c = s'.isExpired c'
  remaining : (s.view c).remainingSeconds = (s'.view c').remainingSeconds
  outcome : ∀ extra, (s.extend c extra).1 = (s'.extend c' extra).1
  expiresAt : ∀ extra, (s.extend c extra).2.expiresAt = (s'.extend c' extra).2.expiresAt

/-- The two sessions answer alike at every later time, after any extensions. -/
def SameBehaviour (s : Session) (c : Clock) (s' : Session) (c' : Clock) : Prop :=
  ∀ steps d,
    SameAnswers (extendAll steps (s, c)).1 (Clock.after (extendAll steps (s, c)).2 d)
      (extendAll steps (s', c')).1 (Clock.after (extendAll steps (s', c')).2 d)

/-- The two sessions stand at the same point of their lives. -/
structure Aligned (s : Session) (c : Clock) (s' : Session) (c' : Clock) : Prop where
  wall : c.wall = c'.wall
  ttl : s.ttl = s'.ttl
  expiresAt : s.expiresAt = s'.expiresAt
  elapsed : s.elapsed c = s'.elapsed c'
  anchored : s.createdMonotonic ≤ c.mono
  anchored' : s'.createdMonotonic ≤ c'.mono

variable {s s' : Session} {c c' : Clock}

theorem elapsed_after (h : s.createdMonotonic ≤ c.mono) (d : ℕ) :
    s.elapsed (Clock.after c d) = s.elapsed c + d := by
  simp only [Session.elapsed, Clock.after]
  omega

theorem Aligned.after (h : Aligned s c s' c') (d : ℕ) :
    Aligned s (Clock.after c d) s' (Clock.after c' d) where
  wall := by simp only [Clock.after, h.wall]
  ttl := h.ttl
  expiresAt := h.expiresAt
  elapsed := by rw [elapsed_after h.anchored, elapsed_after h.anchored', h.elapsed]
  anchored := h.anchored.trans (Nat.le_add_right _ _)
  anchored' := h.anchored'.trans (Nat.le_add_right _ _)

theorem Aligned.remaining (h : Aligned s c s' c') : s.remaining c = s'.remaining c' := by
  simp only [Session.remaining, h.ttl, h.elapsed]

theorem Aligned.extend (h : Aligned s c s' c') (extra : ℕ) :
    (s.extend c extra).1 = (s'.extend c' extra).1 ∧
      Aligned (s.extend c extra).2 c (s'.extend c' extra).2 c' := by
  unfold Session.extend
  rw [h.remaining, h.elapsed]
  cases addDuration (s'.remaining c') extra with
  | none => exact ⟨rfl, h⟩
  | some newTotal =>
    by_cases hmax : maxTtl < newTotal
    · simp only [hmax, if_true]
      exact ⟨trivial, h⟩
    · simp only [hmax, if_false]
      cases addDuration (s'.elapsed c') newTotal with
      | none => exact ⟨rfl, h⟩
      | some ttl =>
        refine ⟨rfl, h.wall, rfl, ?_, h.elapsed, h.anchored, h.anchored'⟩
        simp only [h.wall]

theorem Aligned.extendAll (h : Aligned s c s' c') (steps : List (ℕ × ℕ)) :
    Aligned (extendAll steps (s, c)).1 (extendAll steps (s, c)).2
      (extendAll steps (s', c')).1 (extendAll steps (s', c')).2 := by
  induction steps generalizing s s' c c' with
  | nil => exact h
  | cons step rest ih =>
    obtain ⟨delay, extra⟩ := step
    exact ih ((h.after delay).extend extra).2

theorem Aligned.sameAnswers (h : Aligned s c s' c') : SameAnswers s c s' c' where
  expired := by
    simp only [Session.isExpired, h.ttl, h.elapsed, h.expiresAt, h.wall]
  remaining := by simp only [Session.view, h.remaining]
  outcome := fun extra => (h.extend extra).1
  expiresAt := fun extra => (h.extend extra).2.expiresAt

theorem Aligned.sameBehaviour (h : Aligned s c s' c') : SameBehaviour s c s' c' :=
  fun steps d => ((h.extendAll steps).after d).sameAnswers

/-- The displayed seconds tell a session from one anchored later: just as the later one
has a whole number of seconds left, the other has less. -/
theorem remaining_differs (hanchor : s.createdMonotonic ≤ c.mono) (httl : fromSecs 1 ≤ s.ttl)
    (hs' : s'.ttl = s.ttl) (hfresh : s'.createdMonotonic = c'.mono)
    (hb : SameBehaviour s c s' c') : s.elapsed c = 0 := by
  by_contra hne
  have hrem := (hb [] (s.ttl % fromSecs 1)).remaining
  have hel := elapsed_after hanchor (s.ttl % fromSecs 1)
  have hel' := elapsed_after (c := c') (Nat.le_of_eq hfresh) (s.ttl % fromSecs 1)
  have hzero : s'.elapsed c' = 0 := by simp only [Session.elapsed, hfresh, Nat.sub_self]
  simp only [extendAll, Session.view, Session.remaining, hel, hel', hs', hzero, asSecs] at hrem
  unfold fromSecs at *
  omega

theorem restart_aligned (hanchor : s.createdMonotonic ≤ c.mono) (hwall : c.wall = c'.wall)
    (hzero : s.elapsed c = 0) : Aligned s c ((toRow s).restore c') c' where
  wall := hwall
  ttl := rfl
  expiresAt := rfl
  elapsed := by
    rw [hzero]
    exact (Nat.sub_self c'.mono).symm
  anchored := hanchor
  anchored' := Nat.le_refl c'.mono

def Anchored (s : Session) (now : Clock) : Prop :=
  s.createdMonotonic ≤ now.mono ∧ minTtl ≤ s.ttl

structure AllAnchored (m : SessionManager) (now : Clock) : Prop where
  defaultTtl : Clamped m.defaultTtl
  sessions : ∀ {id s}, m.sessions.lookup id = some s → Anchored s now

variable {sha256 : String → Digest} {m : SessionManager} {t now : Clock}

theorem AllAnchored.later (h : AllAnchored m t) (hle : t ≤ now) : AllAnchored m now where
  defaultTtl := h.defaultTtl
  sessions := fun hs => ⟨(h.sessions hs).1.trans hle.1, (h.sessions hs).2⟩

theorem apply_anchored {u : SessionUpdate} {s : Session} (h : Anchored s now) :
    Anchored (u.apply now s).2 now := by
  refine ⟨(apply_createdMonotonic now u s).symm ▸ h.1, ?_⟩
  rcases apply_deadlines now u s with ⟨httl, _⟩ | ⟨extra, _, he⟩
  · rw [httl]
    exact h.2
  · have hmin := h.2
    obtain ⟨_, ht⟩ := extend_done he
    rw [ht]
    simp only [Session.remaining]
    omega

theorem op_anchored (h : AllAnchored m now) (o : ManagerOp) :
    AllAnchored (o.run sha256 m now).2 now where
  defaultTtl := by
    rw [run_defaultTtl]
    exact h.defaultTtl
  sessions := by
    intro id s hs
    cases run_origin hs with
    | kept hk => exact h.sessions hk
    | created ho hid hc hl =>
      exact ⟨Nat.le_refl _, (checkRequest_clamped h.defaultTtl hc).1⟩
    | updated ho hk hu => exact apply_anchored (h.sessions hk)
    | touched ho hk hu =>
      have ha := h.sessions hk
      exact ha

theorem run_anchored {guard : SessionManager → Clock → Clock → Event → Prop}
    (h : ManagerRun sha256 guard m now) : AllAnchored m now := by
  induction h with
  | start manifest enabled configured now =>
    exact ⟨effective_defaultTtl configured, by simp [SessionManager.new]⟩
  | op o now _ hle _ ih => exact op_anchored (ih.later hle) o
  | restart b now hrun _ hb _ ih =>
    refine ⟨effective_defaultTtl b.defaultTtl, ?_⟩
    intro id s hs
    obtain ⟨t, ht, _, rfl⟩ := (boot_lookup hrun.wellFormed hb).mp hs
    exact ⟨Nat.le_refl _, (ih.sessions ht).2⟩

/-- A session hydrated before its deadline behaves as before the restart exactly when no time
has passed since its anchor. -/
theorem restart_same_behaviour_iff {guard : SessionManager → Clock → Clock → Event → Prop}
    (h : ManagerRun sha256 guard m t) {id : Uuid} {s : Session}
    (hs : m.sessions.lookup id = some s) (wait mono : ℕ) (b : Reboot)
    (hlt : (Clock.after t wait).wall < s.expiresAt) (hb : b.rows.Perm m.rows) :
    ∃ s', (b.boot ⟨mono, (Clock.after t wait).wall⟩).sessions.lookup id = some s' ∧
      (SameBehaviour s (Clock.after t wait) s' ⟨mono, (Clock.after t wait).wall⟩ ↔
        s.elapsed (Clock.after t wait) = 0) := by
  obtain ⟨hanchor, httl⟩ := (run_anchored h).sessions hs
  have hlater : s.createdMonotonic ≤ (Clock.after t wait).mono :=
    hanchor.trans (Nat.le_add_right _ _)
  refine ⟨_, (boot_lookup h.wellFormed hb).mpr ⟨s, hs, hlt, rfl⟩, ?_, ?_⟩
  · intro hsame
    have hsec : fromSecs 1 ≤ s.ttl := Nat.le_trans (by decide) httl
    exact remaining_differs hlater hsec (show ((toRow s).restore _).ttl = s.ttl from rfl) rfl
      hsame
  · intro hzero
    have hwall : (Clock.after t wait).wall = Clock.wall ⟨mono, (Clock.after t wait).wall⟩ := rfl
    exact (restart_aligned hlater hwall hzero).sameBehaviour

section Hydrated

def sameServer : Reboot := ⟨oneSession.rows, oneScenario, true, defaultTtl, "sessions.json"⟩

theorem restart_same_behaviour_created :
    ∃ s', (sameServer.boot ⟨0, (Clock.after (atSecond 0) (fromSecs 100)).wall⟩).sessions.lookup 1 =
      some s' ∧
      (SameBehaviour firstSession (Clock.after (atSecond 0) (fromSecs 100)) s'
        ⟨0, (Clock.after (atSecond 0) (fromSecs 100)).wall⟩ ↔
      firstSession.elapsed (Clock.after (atSecond 0) (fromSecs 100)) = 0) :=
  restart_same_behaviour_iff (@oneSession_run SameRate rfl) oneSession_lookup
    (fromSecs 100) 0 sameServer (by decide) (.refl _)

/-- A hundred seconds after its creation the restarted session shows its whole lifetime. -/
theorem restart_changes_clock :
    ¬ ∀ (sha256 : String → Digest) (m : SessionManager) (t : Clock),
      ManagerRun sha256 SameRate m t → ∀ id s, m.sessions.lookup id = some s →
      ∀ (wait mono : ℕ) (b : Reboot), (Clock.after t wait).wall < s.expiresAt →
      b.rows.Perm m.rows →
      ∃ s', (b.boot ⟨mono, (Clock.after t wait).wall⟩).sessions.lookup id = some s' ∧
        SameBehaviour s (Clock.after t wait) s' ⟨mono, (Clock.after t wait).wall⟩ := by
  intro h
  obtain ⟨s', hs', hb⟩ := h _ _ _ (oneSession_run rfl) 1 _ oneSession_lookup (fromSecs 100) 0
    sameServer (by decide) (.refl _)
  obtain rfl := Option.some.inj hs'
  have hrem := (hb [] 0).remaining
  exact absurd hrem (by decide)

end Hydrated

end PlaygroundRestartClock
