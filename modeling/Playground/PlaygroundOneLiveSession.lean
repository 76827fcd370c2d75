import Playground.PlaygroundManagerRuns

/-! # One live session per user

Creating a session leaves the user's expired one in the map, and an extension does not ask
whether its session is expired, so an extension can bring a superseded session back. -/
namespace PlaygroundOneLiveSession

open HashMaps
open PlaygroundSessions
open PlaygroundSessionManager
open PlaygroundManagerRuns

def Live (s : Session) (now : Clock) : Prop := s.status ≠ .ended ∧ s.isExpired now = false

structure OneLiveSession (sha256 : String → Digest) (m : SessionManager) (now : Clock) :
    Prop where
  unique : ∀ {id j s t}, m.sessions.lookup id = some s → m.sessions.lookup j = some t →
    s.userId = t.userId → Live s now → Live t now → id = j
  indexed : ∀ {id s}, m.sessions.lookup id = some s → Live s now →
    m.perUser.lookup s.userId = some id
  returned : ∀ {id s}, m.sessions.lookup id = some s → Live s now →
    m.getUserSession s.userId = some s
  refused : ∀ {id s} (a : SessionManager.CreateArgs) {ttl}, m.sessions.lookup id = some s →
    Live s now → a.userId = s.userId → m.checkRequest a.scenarioId a.ttlOverride = .ok ttl →
    m.create sha256 now a = (.error (.userLimit id), m)

/-- The extension is accepted and moves the deadline of an expired session ahead. -/
def Revives (s : Session) (now : Clock) (extra : ℕ) : Prop :=
  s.isExpired now = true ∧ 0 < s.remaining now + extra ∧ s.remaining now + extra ≤ maxTtl

/-- An extension revives only the session its user's index entry names, and a restart finds
one row a user whose deadline lies ahead. -/
def RevivesOnlyHolders (m : SessionManager) (_ now : Clock) : Event → Prop
  | .op (.update id userId (.extend extra)) =>
    ∀ s, m.sessions.lookup id = some s → s.userId = userId → Revives s now extra →
      m.perUser.lookup userId = some id
  | .op _ => True
  | .restart b => ∀ r ∈ b.rows, ∀ r' ∈ b.rows, r.dropped now = false →
      r'.dropped now = false → r.userId = r'.userId → r.id = r'.id

structure Invariant (m : SessionManager) (now : Clock) : Prop where
  status : ∀ {id s}, m.sessions.lookup id = some s → s.status ≠ .ended
  indexed : ∀ {id s}, m.sessions.lookup id = some s → s.isExpired now = false →
    m.perUser.lookup s.userId = some id

variable {sha256 : String → Digest} {m : SessionManager} {t now : Clock}

theorem Invariant.later (h : Invariant m t) (hle : t ≤ now) : Invariant m now where
  status := h.status
  indexed := fun hs hx => h.indexed hs (isExpired_mono hle hx)

theorem liveHolder_eq {id : Uuid} {s : Session} (hp : m.perUser.lookup s.userId = some id)
    (hs : m.sessions.lookup id = some s) (hl : Live s now) :
    m.liveHolder now s.userId = some id := by
  simp [SessionManager.liveHolder, hp, hs, hl.1, hl.2]

theorem Invariant.oneLive (h : Invariant m now) : OneLiveSession sha256 m now where
  unique := by
    intro id j s t hs ht hu hls hlt
    have hi := h.indexed hs hls.2
    have hj := h.indexed ht hlt.2
    rw [hu, hj] at hi
    exact (Option.some.inj hi).symm
  indexed := fun hs hl => h.indexed hs hl.2
  returned := by
    intro id s hs hl
    simp [SessionManager.getUserSession, h.indexed hs hl.2, hs]
  refused := by
    intro id s a ttl hs hl hu hc
    have hh := liveHolder_eq (h.indexed hs hl.2) hs hl
    rw [← hu] at hh
    simp [SessionManager.create, hc, hh]

theorem extend_isExpired {s s' : Session} {extra : ℕ} (h : s.extend now extra = (.done, s'))
    (hx : s'.isExpired now = false) : 0 < s.remaining now + extra := by
  obtain ⟨_, rfl⟩ := extend_done h
  have hw := (isExpired_false_iff.mp hx).2
  simp only at hw
  omega

theorem update_indexed (h : Invariant m now) {id : Uuid} {userId : String} {u : SessionUpdate}
    {s : Session} (hg : RevivesOnlyHolders m t now (.op (.update id userId u)))
    (hs : m.sessions.lookup id = some s) (hu : s.userId = userId)
    (hx : (u.apply now s).2.isExpired now = false) : m.perUser.lookup s.userId = some id := by
  by_cases hold : s.isExpired now = false
  · exact h.indexed hs hold
  · rcases apply_deadlines now u s with ⟨httl, hexp⟩ | ⟨extra, rfl, he⟩
    · have hsame := (apply_createdMonotonic now u s)
      simp only [Session.isExpired, Session.elapsed, httl, hexp, hsame] at hx hold
      exact absurd hx hold
    · have hrev : Revives s now extra :=
        ⟨by simpa using hold, extend_isExpired he hx, (extend_done he).1⟩
      rw [hu]
      exact hg s hs hu hrev

theorem op_invariant (h : Invariant m now) (o : ManagerOp)
    (hg : RevivesOnlyHolders m t now (.op o)) : Invariant (o.run sha256 m now).2 now where
  status := by
    intro id s hs
    cases run_origin hs with
    | kept hk => exact h.status hk
    | created ho hid hc hl => simp [Session.new]
    | updated ho hk hu => exact apply_not_ended (h.status hk)
    | touched ho hk hu =>
      have hne := h.status hk
      exact hne
  indexed := by
    intro id s hs hx
    have hkept : m.perUser.lookup s.userId = some id →
        (∀ a, o = .create a → a.userId = s.userId → (m.create sha256 now a).2 = m) →
        (o.run sha256 m now).2.perUser.lookup s.userId = some id :=
      fun hp hl => run_perUser_kept hp (by rw [hs]; simp) hl
    cases run_origin hs with
    | kept hk =>
      refine hkept (h.indexed hk hx) fun a ho hu => ?_
      have hh := liveHolder_eq (h.indexed hk hx) hk ⟨h.status hk, hx⟩
      rw [← hu] at hh
      unfold SessionManager.create
      rw [hh]
      split <;> rfl
    | @created a ttl ho hid hc hl =>
      subst ho hid
      simp [ManagerOp.run, SessionManager.create, hc, hl, Session.new]
    | @updated userId u s₀ ho hk hu =>
      subst ho
      have hp := update_indexed h hg hk hu hx
      rw [(apply_same now u s₀).userId] at hkept ⊢
      exact hkept hp fun a ha => by cases ha
    | @touched userId s₀ ho hk hu =>
      subst ho
      have hp := h.indexed hk ((isExpired_congr rfl rfl rfl).symm.trans hx)
      exact hkept hp fun a ha => by cases ha

theorem hydrate_invariant (rows : List SessionRow)
    (hone : ∀ r ∈ rows, ∀ r' ∈ rows, r.dropped now = false → r'.dropped now = false →
      r.userId = r'.userId → r.id = r'.id) (snapshot : List SessionRow)
    (hsub : ∀ r ∈ snapshot, r ∈ rows) (acc : HashMap Uuid Session × HashMap String Uuid)
    (hacc : ∀ id s, acc.1.lookup id = some s → acc.2.lookup s.userId = some id ∧
      ∃ r ∈ rows, r.dropped now = false ∧ r.id = id ∧ s = r.restore now) :
    ∀ id s, (snapshot.foldl (hydrateRow now) acc).1.lookup id = some s →
      (snapshot.foldl (hydrateRow now) acc).2.lookup s.userId = some id ∧
      ∃ r ∈ rows, r.dropped now = false ∧ r.id = id ∧ s = r.restore now := by
  induction snapshot generalizing acc with
  | nil => exact hacc
  | cons r rest ih =>
    rw [List.foldl_cons]
    refine ih (fun x hx => hsub x (List.mem_cons_of_mem _ hx)) _ ?_
    intro id s hs
    have hr := hsub r List.mem_cons_self
    by_cases hd : r.dropped now = true
    · simp only [hydrateRow, hd, if_true] at hs ⊢
      exact hacc id s hs
    · have hd' : r.dropped now = false := by simpa using hd
      simp only [hydrateRow, hd', Bool.false_eq_true, if_false, lookup_insert_iff] at hs ⊢
      rcases hs with ⟨rfl, rfl⟩ | ⟨hne, hs⟩
      · exact ⟨Or.inl ⟨rfl, rfl⟩, r, hr, hd', rfl, rfl⟩
      · obtain ⟨hp, r', hr', hdr', rfl, rfl⟩ := hacc id s hs
        refine ⟨Or.inr ⟨fun hu => hne ?_, hp⟩, r', hr', hdr', rfl, rfl⟩
        exact hone r' hr' r hr hdr' hd' hu

theorem boot_invariant (b : Reboot) (hg : RevivesOnlyHolders m t now (.restart b)) :
    Invariant (b.boot now) now := by
  have hall := hydrate_invariant b.rows hg b.rows (fun _ hr => hr) (∅, ∅) (by simp)
  constructor
  · intro id s hs
    obtain ⟨_, r, _, hd, _, rfl⟩ := hall id s hs
    exact (dropped_false_iff.mp hd).2
  · intro id s hs _
    exact (hall id s hs).1

theorem run_invariant (h : ManagerRun sha256 RevivesOnlyHolders m now) : Invariant m now := by
  induction h with
  | start manifest enabled defaultTtl now => constructor <;> simp [SessionManager.new]
  | op o now _ hle hg ih => exact op_invariant (ih.later hle) o hg
  | restart b now _ _ _ hg _ => exact boot_invariant b hg

/-- In every run in which only index holders are revived, at every later clock reading. -/
theorem one_live_session (h : ManagerRun sha256 RevivesOnlyHolders m t) (hle : t ≤ now) :
    OneLiveSession sha256 m now :=
  ((run_invariant h).later hle).oneLive

section Superseded

/-- The second session is created a second after the first one expired, and then one of the
two is extended. -/
def superseded (sha256 : String → Digest) (extended : Uuid) : SessionManager :=
  let m := SessionManager.new oneScenario true defaultTtl
  let m := ((createFor 1).run sha256 m (atSecond 0)).2
  let m := ((createFor 2).run sha256 m (atSecond 301)).2
  ((ManagerOp.update extended "u1" (.extend minTtl)).run sha256 m (atSecond 302)).2

theorem one_live_session_superseded :
    OneLiveSession (fun _ => 0) (superseded (fun _ => 0) 2) (atSecond 303) :=
  one_live_session (.op _ _ (.op _ _ (.op _ _ (.start oneScenario true defaultTtl (atSecond 0))
    (by decide) trivial) (by decide) trivial) (by decide) fun _ _ _ _ => rfl) (by decide)

theorem superseded_session_revived :
    ¬ ∀ (sha256 : String → Digest) (m : SessionManager) (now : Clock),
      ManagerRun sha256 anyEvent m now → OneLiveSession sha256 m now := by
  intro h
  have hrun : ManagerRun (fun _ => 0) anyEvent (superseded (fun _ => 0) 1) (atSecond 302) :=
    .op _ _ (.op _ _ (.op _ _ (.start oneScenario true defaultTtl (atSecond 0))
      (by decide) trivial) (by decide) trivial) (by decide) trivial
  have hid : (1 : Uuid) = 2 := (h _ _ _ hrun).unique rfl rfl rfl
    ⟨by decide, by decide⟩ ⟨by decide, by decide⟩
  exact absurd hid (by decide)

end Superseded

end PlaygroundOneLiveSession
