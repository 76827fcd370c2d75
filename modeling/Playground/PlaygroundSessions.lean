import Mathlib.Data.Int.Notation
import Mathlib.Data.Nat.Notation
import Playground.PlaygroundManifest
import Playground.RustText

/-! # Playground sessions

Durations, monotonic instants and wall-clock times are nanosecond counts. The digest function
is a parameter, as SHA-256 is not part of the repository. -/
namespace PlaygroundSessions

abbrev Uuid := BitVec 128
abbrev Digest := BitVec 256

def fromSecs (secs : ℕ) : ℕ := secs * 1000000000

def asSecs (d : ℕ) : ℕ := d / 1000000000

/-- A `std::time::Duration` holds its seconds in 64 bits. -/
def durationLimit : ℕ := fromSecs (2 ^ 64)

/-- `Duration + Duration`; `none` is the overflow panic. -/
def addDuration (a b : ℕ) : Option ℕ :=
  if a + b < durationLimit then some (a + b) else none

/-- `chrono::Duration::from_std`, which refuses more than `i64::MAX` milliseconds. -/
def chronoFromStd (d : ℕ) : Option ℤ :=
  if d ≤ (2 ^ 63 - 1) * 1000000 then some d else none

def hours (n : ℕ) : ℤ := fromSecs (n * 60 * 60)

def defaultTtl : ℕ := fromSecs (2 * 60 * 60)
def minTtl : ℕ := fromSecs (5 * 60)
def maxTtl : ℕ := fromSecs (8 * 60 * 60)
def actionCooldown : ℕ := fromSecs 1

/-- One reading of `Instant::now()` and `Utc::now()`. -/
structure Clock where
  mono : ℕ
  wall : ℤ
  deriving DecidableEq, Repr

instance : LE Clock := ⟨fun a b => a.mono ≤ b.mono ∧ a.wall ≤ b.wall⟩

instance (a b : Clock) : Decidable (a ≤ b) :=
  inferInstanceAs (Decidable (a.mono ≤ b.mono ∧ a.wall ≤ b.wall))

theorem Clock.le_refl (a : Clock) : a ≤ a := ⟨Nat.le_refl _, Int.le_refl _⟩

theorem Clock.le_trans {a b c : Clock} (h : a ≤ b) (k : b ≤ c) : a ≤ c :=
  ⟨Nat.le_trans h.1 k.1, Int.le_trans h.2 k.2⟩

inductive SessionStatus where
  | provisioning
  | active
  | resetting
  | terminating
  | ended
  deriving DecidableEq, Repr

structure SessionEvent where
  at_ : ℤ
  kind : String
  message : String
  actionId : Option String
  success : Option Bool
  deriving DecidableEq, Repr

structure Session where
  id : Uuid
  userId : String
  tenantId : Option String
  scenarioId : String
  namespaceName : String
  shuttleName : String
  connectionName : String
  createdAt : ℤ
  expiresAt : ℤ
  createdMonotonic : ℕ
  ttl : ℕ
  status : SessionStatus
  lastActionAt : Option ℕ
  events : List SessionEvent
  deriving DecidableEq, Repr

inductive SessionError where
  | userLimit (existing : Uuid)
  | notFound (id : Uuid)
  | forbidden
  | cooldown (wait : ℕ)
  | invalidTtl (message : String)
  | disabled
  | unknownScenario (id : String)
  deriving DecidableEq, Repr

section Names

def hexChars : List Char := "0123456789abcdef".toList

def hexDigit (n : ℕ) : Char := hexChars.getD n '0'

def byteAt {w : ℕ} (x : BitVec w) (i : ℕ) : BitVec 8 := x.extractLsb' (w - 8 * (i + 1)) 8

def hexEncode (bytes : List (BitVec 8)) : List Char :=
  bytes.flatMap fun b : BitVec 8 => [hexDigit (b >>> 4).toNat, hexDigit (b &&& 0x0f).toNat]

/-- The `{:02x}` format of a byte. -/
def lowerHex (b : BitVec 8) : List Char := [hexDigit (b.toNat / 16), hexDigit (b.toNat % 16)]

def shortUser (sha256 : String → Digest) (userId : String) : String :=
  String.ofList (hexEncode ((List.range 4).map (byteAt (sha256 userId))))

def shortSid (id : Uuid) : String :=
  String.ofList ((List.range 4).flatMap fun i => lowerHex (byteAt id i))

def deriveNamespace (sha256 : String → Digest) (userId : String) (id : Uuid) : String :=
  "playground_" ++ shortUser sha256 userId ++ "_" ++ shortSid id

def deriveShuttle (sha256 : String → Digest) (userId : String) (id : Uuid) : String :=
  "pg_" ++ shortUser sha256 userId ++ "_" ++ shortSid id

def deriveConnection (shuttleName : String) : String := shuttleName ++ "_src"

/-- The hyphenated form of a UUID. -/
def uuidText (id : Uuid) : String :=
  let group := fun (i n : ℕ) =>
    String.ofList ((List.range n).flatMap fun j => lowerHex (byteAt id (i + j)))
  group 0 4 ++ "-" ++ group 4 2 ++ "-" ++ group 6 2 ++ "-" ++ group 8 2 ++ "-" ++ group 10 6

end Names

def Session.new (sha256 : String → Digest) (id : Uuid) (now : Clock) (userId : String)
    (tenantId : Option String) (scenarioId : String) (ttl : ℕ) : Session :=
  { id, userId, tenantId, scenarioId, ttl
    namespaceName := deriveNamespace sha256 userId id
    shuttleName := deriveShuttle sha256 userId id
    connectionName := deriveConnection (deriveShuttle sha256 userId id)
    createdAt := now.wall
    expiresAt := now.wall + (chronoFromStd ttl).getD (hours 2)
    createdMonotonic := now.mono
    status := .provisioning
    lastActionAt := none
    events := [] }

namespace Session

def elapsed (s : Session) (now : Clock) : ℕ := now.mono - s.createdMonotonic

/-- `ttl.checked_sub(elapsed).unwrap_or(ZERO)`. -/
def remaining (s : Session) (now : Clock) : ℕ := s.ttl - s.elapsed now

def isExpired (s : Session) (now : Clock) : Bool :=
  decide (s.ttl < s.elapsed now) || decide (s.expiresAt ≤ now.wall)

def maxEvents : ℕ := 500

def record (s : Session) (now : Clock) (kind message : String) (actionId : Option String)
    (success : Option Bool) : Session :=
  let events := s.events ++ [⟨now.wall, kind, message, actionId, success⟩]
  { s with events := events.drop (events.length - maxEvents) }

theorem record_events (s : Session) (now : Clock) (kind message : String)
    (actionId : Option String) (success : Option Bool) :
    (s.record now kind message actionId success).events =
      s.events.drop (s.events.length + 1 - maxEvents) ++
        [⟨now.wall, kind, message, actionId, success⟩] := by
  have hroom : s.events.length + 1 - maxEvents ≤ s.events.length := by
    unfold maxEvents
    omega
  simp only [record, List.length_append, List.length_singleton]
  rw [List.drop_append_of_le_length hroom]

end Session

/-- What a closure run under the write lock returns: nothing, the error of `extend`, or a
panic that unwinds before anything is assigned. -/
inductive UpdateOutcome where
  | done
  | refused (message : String)
  | panicked
  deriving DecidableEq, Repr

def Session.extend (s : Session) (now : Clock) (extra : ℕ) : UpdateOutcome × Session :=
  match addDuration (s.remaining now) extra with
  | none => (.panicked, s)
  | some newTotal =>
    if maxTtl < newTotal then (.refused "extension would exceed max TTL", s)
    else
      match addDuration (s.elapsed now) newTotal with
      | none => (.panicked, s)
      | some ttl =>
        (.done, { s with
          ttl := ttl
          expiresAt := now.wall + (chronoFromStd newTotal).getD (hours 1) })

structure SessionView where
  id : Uuid
  scenarioId : String
  status : SessionStatus
  namespaceName : String
  shuttleName : String
  createdAt : ℤ
  expiresAt : ℤ
  ttlSeconds : ℕ
  remainingSeconds : ℕ
  events : List SessionEvent
  deriving DecidableEq, Repr

def Session.view (s : Session) (now : Clock) : SessionView :=
  { id := s.id
    scenarioId := s.scenarioId
    status := s.status
    namespaceName := s.namespaceName
    shuttleName := s.shuttleName
    createdAt := s.createdAt
    expiresAt := s.expiresAt
    ttlSeconds := asSecs s.ttl
    remainingSeconds := asSecs (s.remaining now)
    events := s.events }

def clampTtl (t : ℕ) : Except SessionError ℕ :=
  if t < minTtl then .error (.invalidTtl ("must be at least " ++ toString (asSecs minTtl) ++ "s"))
  else if maxTtl < t then
    .error (.invalidTtl ("must be at most " ++ toString (asSecs maxTtl) ++ "s"))
  else .ok t

theorem clampTtl_bounds {t u : ℕ} (h : clampTtl t = .ok u) :
    u = t ∧ minTtl ≤ t ∧ t ≤ maxTtl := by
  unfold clampTtl at h
  split at h
  · cases h
  · split at h
    · cases h
    · cases h
      exact ⟨rfl, by omega, by omega⟩

theorem isExpired_false_iff {s : Session} {now : Clock} :
    s.isExpired now = false ↔ s.elapsed now ≤ s.ttl ∧ now.wall < s.expiresAt := by
  simp [Session.isExpired]

theorem isExpired_congr {s t : Session} {now : Clock} (httl : t.ttl = s.ttl)
    (hexp : t.expiresAt = s.expiresAt) (hanchor : t.createdMonotonic = s.createdMonotonic) :
    t.isExpired now = s.isExpired now := by
  have he : t.elapsed now = s.elapsed now := by simp only [Session.elapsed, hanchor]
  simp only [Session.isExpired, httl, hexp, he]

theorem isExpired_mono {s : Session} {t now : Clock} (hle : t ≤ now)
    (h : s.isExpired now = false) : s.isExpired t = false := by
  rw [isExpired_false_iff] at h ⊢
  obtain ⟨hm, hw⟩ := hle
  unfold Session.elapsed at h ⊢
  exact ⟨by omega, by omega⟩

theorem chronoFromStd_of_le {d : ℕ} (h : d ≤ maxTtl) : chronoFromStd d = some (d : ℤ) :=
  if_pos (h.trans (by decide))

theorem addDuration_some {a b c : ℕ} (h : addDuration a b = some c) : c = a + b := by
  unfold addDuration at h
  split at h
  · exact (Option.some.inj h).symm
  · cases h

/-- An accepted extension: both deadlines move to the new total from now. -/
theorem extend_done {s t : Session} {now : Clock} {extra : ℕ}
    (h : s.extend now extra = (.done, t)) :
    s.remaining now + extra ≤ maxTtl ∧
      t = { s with
        ttl := s.elapsed now + (s.remaining now + extra)
        expiresAt := now.wall + ((s.remaining now + extra : ℕ) : ℤ) } := by
  unfold Session.extend at h
  split at h
  · simp at h
  · rename_i total htotal
    have htot : total = s.remaining now + extra := addDuration_some htotal
    subst htot
    split at h
    · simp at h
    · rename_i hle
      split at h
      · simp at h
      · rename_i ttl httl
        have heq : ttl = s.elapsed now + (s.remaining now + extra) := addDuration_some httl
        subst heq
        rw [chronoFromStd_of_le (by omega)] at h
        simp only [Option.getD_some, Prod.mk.injEq, true_and] at h
        exact ⟨by omega, h.symm⟩

theorem extend_unchanged {s t : Session} {now : Clock} {extra : ℕ} {o : UpdateOutcome}
    (h : s.extend now extra = (o, t)) (ho : o ≠ .done) : t = s := by
  unfold Session.extend at h
  split at h
  · simp_all
  · split at h
    · simp_all
    · split at h <;> simp_all

end PlaygroundSessions
