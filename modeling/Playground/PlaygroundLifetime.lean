import Playground.PlaygroundManagerRuns

/-! # The lifetime bound

Creating a session gives it a clamped lifetime, an accepted extension counts from now, and a
restart keeps the deadline. So no deadline lies further ahead than the longest lifetime. -/
namespace PlaygroundLifetime

open HashMaps
open PlaygroundSessions
open PlaygroundSessionManager
open PlaygroundManagerRuns

variable {sha256 : String → Digest} {m : SessionManager} {t now : Clock}

def WithinMax (s : Session) (now : Clock) : Prop := s.expiresAt - now.wall ≤ maxTtl

structure Bounded (m : SessionManager) (now : Clock) : Prop where
  defaultTtl : Clamped m.defaultTtl
  sessions : ∀ id s, m.sessions.lookup id = some s → WithinMax s now

theorem WithinMax.later {s : Session} (h : WithinMax s t) (hle : t.wall ≤ now.wall) :
    WithinMax s now := by
  have hbound : s.expiresAt - t.wall ≤ maxTtl := h
  show s.expiresAt - now.wall ≤ maxTtl
  omega

theorem Bounded.later (h : Bounded m t) (hle : t ≤ now) : Bounded m now where
  defaultTtl := h.defaultTtl
  sessions := fun id s hs => (h.sessions id s hs).later hle.2

theorem new_lifetime {id : Uuid} {userId scenarioId : String} {tenantId : Option String} {ttl : ℕ}
    (httl : Clamped ttl) :
    (Session.new sha256 id now userId tenantId scenarioId ttl).expiresAt = now.wall + ttl := by
  simp only [Session.new, chronoFromStd_of_le httl.2, Option.getD_some]

theorem apply_withinMax {s : Session} (h : WithinMax s now) (u : SessionUpdate) :
    WithinMax (u.apply now s).2 now := by
  rcases apply_deadlines now u s with ⟨_, hexp⟩ | ⟨extra, _, he⟩
  · rw [WithinMax, hexp]
    exact h
  · obtain ⟨htotal, ht⟩ := extend_done he
    rw [WithinMax, ht]
    dsimp only
    omega

theorem op_bounded (h : Bounded m now) (o : ManagerOp) :
    Bounded (o.run sha256 m now).2 now where
  defaultTtl := by
    rw [run_defaultTtl]
    exact h.defaultTtl
  sessions := by
    intro id s hs
    cases run_origin hs with
    | kept hk => exact h.sessions id s hk
    | created ho hid hc hl =>
      have httl := checkRequest_clamped h.defaultTtl hc
      have hmax := httl.2
      rw [WithinMax, new_lifetime httl]
      omega
    | updated ho hk hu => exact apply_withinMax (h.sessions id _ hk) _
    | touched ho hk hu =>
      have hw := h.sessions id _ hk
      exact hw

theorem run_bounded (h : ManagerRun sha256 anyEvent m t) : Bounded m t := by
  induction h with
  | start manifest enabled configured now =>
    exact ⟨effective_defaultTtl configured, by simp [SessionManager.new]⟩
  | op o now _ hle _ ih => exact op_bounded (ih.later hle) o
  | restart b now hrun hle hb _ ih =>
    refine ⟨effective_defaultTtl b.defaultTtl, ?_⟩
    intro id s hs
    obtain ⟨r, hr, _, rfl⟩ := (boot_lookup hrun.wellFormed hb).mp hs
    exact (ih.sessions id r hr).later hle

/-- Whatever the default lifetime is configured to, no session of a running server ever has more
than the longest lifetime left, and a new session starts between the two limits. -/
theorem lifetime_bound (h : ManagerRun sha256 anyEvent m t) :
    (∀ now, t ≤ now → ∀ id s, m.sessions.lookup id = some s → s.expiresAt - now.wall ≤ maxTtl) ∧
    ∀ now a s, (m.create sha256 now a).1 = .ok s →
      minTtl ≤ s.expiresAt - s.createdAt ∧ s.expiresAt - s.createdAt ≤ maxTtl := by
  have hb := run_bounded h
  constructor
  · intro now hle id s hs
    exact (hb.later hle).sessions id s hs
  · intro now a s hs
    rcases create_cases sha256 m now a with ⟨e, he⟩ | ⟨ttl, hc, _, he⟩
    · rw [he] at hs
      cases hs
    · rw [he] at hs
      cases hs
      have httl := checkRequest_clamped hb.defaultTtl hc
      obtain ⟨hmin, hmax⟩ := httl
      have hcreated : ∀ u v w x, (Session.new sha256 u now v w x ttl).createdAt = now.wall :=
        fun _ _ _ _ => rfl
      rw [new_lifetime ⟨hmin, hmax⟩, hcreated]
      omega

/-- The user's session after the longest extension that is accepted. -/
def extended : SessionManager :=
  ((ManagerOp.update 1 "u1" (.extend (maxTtl - minTtl))).run (fun _ => 0) oneSession
    (atSecond 0)).2

theorem extended_run : ManagerRun (fun _ => 0) anyEvent extended (atSecond 0) :=
  .op _ _ (oneSession_run trivial) (Clock.le_refl _) trivial

/-- The bound is reached. -/
theorem lifetime_bound_extended :
    ∃ s, extended.sessions.lookup 1 = some s ∧ s.expiresAt = maxTtl ∧
      s.expiresAt - (atSecond 0).wall ≤ maxTtl := by
  obtain ⟨s, hs, hexp⟩ : ∃ s, extended.sessions.lookup 1 = some s ∧ s.expiresAt = maxTtl :=
    ⟨_, rfl, by decide +kernel⟩
  exact ⟨s, hs, hexp, (lifetime_bound extended_run).1 (atSecond 0) (Clock.le_refl _) 1 s hs⟩

-- An extension adds a duration from outside before it looks at the limit.
section Extension

variable {s : Session} {extra : ℕ}

/-- Both additions of `extend` stay within a `Duration`; the second is only reached by a total that
is within the longest lifetime. -/
structure Fits (s : Session) (now : Clock) (extra : ℕ) : Prop where
  total : s.remaining now + extra < durationLimit
  ttl : s.remaining now + extra ≤ maxTtl →
    s.elapsed now + (s.remaining now + extra) < durationLimit

theorem addDuration_of_lt {a b : ℕ} (h : a + b < durationLimit) : addDuration a b = some (a + b) :=
  if_pos h

theorem addDuration_of_le {a b : ℕ} (h : durationLimit ≤ a + b) : addDuration a b = none :=
  if_neg (by omega)

theorem extend_refuses (hfit : s.remaining now + extra < durationLimit)
    (hlong : maxTtl < s.remaining now + extra) :
    s.extend now extra = (.refused "extension would exceed max TTL", s) := by
  rw [Session.extend, addDuration_of_lt hfit]
  exact if_pos hlong

theorem extend_accepts (hshort : s.remaining now + extra ≤ maxTtl)
    (hfit : s.elapsed now + (s.remaining now + extra) < durationLimit) :
    (s.extend now extra).1 = .done := by
  have htotal : s.remaining now + extra < durationLimit := by omega
  simp only [Session.extend, addDuration_of_lt htotal, addDuration_of_lt hfit,
    if_neg (show ¬ maxTtl < s.remaining now + extra by omega)]

theorem extend_overflows (h : ¬ Fits s now extra) : (s.extend now extra).1 = .panicked := by
  by_cases htotal : s.remaining now + extra < durationLimit
  · have hshort : s.remaining now + extra ≤ maxTtl := by
      by_contra hlong
      exact h ⟨htotal, fun hle => absurd hle hlong⟩
    have hover : durationLimit ≤ s.elapsed now + (s.remaining now + extra) := by
      by_contra hfit
      exact h ⟨htotal, fun _ => by omega⟩
    simp only [Session.extend, addDuration_of_lt htotal, addDuration_of_le hover,
      if_neg (show ¬ maxTtl < s.remaining now + extra by omega)]
  · rw [Session.extend, addDuration_of_le (by omega)]

/-- What an extension counts from now is what is left on the monotonic clock. -/
theorem remaining_extended {t : Session} (h : s.extend now extra = (.done, t)) :
    t.remaining now = s.remaining now + extra := by
  obtain ⟨_, rfl⟩ := extend_done h
  show s.elapsed now + (s.remaining now + extra) - s.elapsed now = s.remaining now + extra
  omega

/-- The extension the endpoint asks for is total and exact. -/
structure ExtendsExactly (s : Session) (now : Clock) (seconds : UInt64) : Prop where
  total : (s.extend now (fromSecs seconds.toNat)).1 ≠ .panicked
  accepted : (s.extend now (fromSecs seconds.toNat)).1 = .done ↔
    s.remaining now + fromSecs seconds.toNat ≤ maxTtl
  deadlines : ∀ t, s.extend now (fromSecs seconds.toNat) = (.done, t) →
    t.remaining now = s.remaining now + fromSecs seconds.toNat ∧
      t.expiresAt - now.wall = (s.remaining now + fromSecs seconds.toNat : ℕ)
  unchanged : ∀ message t, s.extend now (fromSecs seconds.toNat) = (.refused message, t) → t = s

theorem exact_of_fits {seconds : UInt64} (h : Fits s now (fromSecs seconds.toNat)) :
    ExtendsExactly s now seconds where
  total := by
    by_cases hshort : s.remaining now + fromSecs seconds.toNat ≤ maxTtl
    · rw [extend_accepts hshort (h.ttl hshort)]
      simp
    · rw [extend_refuses h.total (by omega)]
      simp
  accepted := by
    constructor
    · intro hdone
      exact (extend_done (Prod.ext hdone rfl)).1
    · intro hshort
      exact extend_accepts hshort (h.ttl hshort)
  deadlines := by
    intro t ht
    refine ⟨remaining_extended ht, ?_⟩
    obtain ⟨_, rfl⟩ := extend_done ht
    dsimp only
    omega
  unchanged := by
    intro message t ht
    exact extend_unchanged ht (by simp)

/-- Whatever the session, the moment and the parameter, an extension is total and exact unless one
of its two additions overflows. -/
theorem extend_exact_iff (s : Session) (now : Clock) (seconds : UInt64) :
    ExtendsExactly s now seconds ↔ Fits s now (fromSecs seconds.toNat) := by
  constructor
  · intro hexact
    by_contra hfit
    exact hexact.total (extend_overflows hfit)
  · exact exact_of_fits

/-- The last value of the parameter overflows on a session that has time left. -/
theorem extend_panics : ∃ m t s, ManagerRun (fun _ => 0) anyEvent m t ∧
    m.sessions.lookup 1 = some s ∧ ¬ ExtendsExactly s t (UInt64.ofNat (2 ^ 64 - 1)) := by
  refine ⟨oneSession, atSecond 0, firstSession, oneSession_run trivial, oneSession_lookup, ?_⟩
  intro h
  apply h.total
  decide

end Extension

end PlaygroundLifetime
