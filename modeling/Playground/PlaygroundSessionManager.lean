import Mathlib.Data.List.Perm.Basic
import Playground.HashMaps
import Playground.PlaygroundSessions

/-! # The session manager

Every method that holds a lock is one function on the manager and one clock reading. -/
namespace PlaygroundSessionManager

open HashMaps (HashMap values keysWhere)
open PlaygroundManifest (Manifest)
open PlaygroundSessions

structure SessionManager where
  sessions : HashMap Uuid Session
  perUser : HashMap String Uuid
  manifest : Manifest
  enabled : Bool
  defaultTtl : ℕ
  persistencePath : Option String

namespace SessionManager

def new (manifest : Manifest) (enabled : Bool) (defaultTtl : ℕ) : SessionManager :=
  { sessions := ∅
    perUser := ∅
    manifest := manifest
    enabled := enabled
    defaultTtl := (clampTtl defaultTtl).toOption.getD PlaygroundSessions.defaultTtl
    persistencePath := none }

/-- The checks `create` makes before it takes the locks; the result is the lifetime. -/
def checkRequest (m : SessionManager) (scenarioId : String) (ttlOverride : Option ℕ) :
    Except SessionError ℕ :=
  if m.enabled = false then .error .disabled
  else if (m.manifest.scenario scenarioId).isNone then .error (.unknownScenario scenarioId)
  else
    match ttlOverride with
    | some t => clampTtl t
    | none => .ok m.defaultTtl

/-- The live session the user index names, if it names one. -/
def liveHolder (m : SessionManager) (now : Clock) (userId : String) : Option Uuid :=
  match m.perUser.lookup userId with
  | none => none
  | some existing =>
    match m.sessions.lookup existing with
    | none => none
    | some s => if s.status ≠ .ended ∧ s.isExpired now = false then some existing else none

structure CreateArgs where
  id : Uuid
  userId : String
  tenantId : Option String
  scenarioId : String
  ttlOverride : Option ℕ
  deriving DecidableEq, Repr

def create (m : SessionManager) (sha256 : String → Digest) (now : Clock) (a : CreateArgs) :
    Except SessionError Session × SessionManager :=
  match m.checkRequest a.scenarioId a.ttlOverride with
  | .error e => (.error e, m)
  | .ok ttl =>
    match m.liveHolder now a.userId with
    | some existing => (.error (.userLimit existing), m)
    | none =>
      let session := Session.new sha256 a.id now a.userId a.tenantId a.scenarioId ttl
      (.ok session, { m with
        perUser := (m.perUser.erase a.userId).insert a.userId a.id
        sessions := m.sessions.insert a.id session })

def get (m : SessionManager) (id : Uuid) (userId : String) : Except SessionError Session :=
  match m.sessions.lookup id with
  | none => .error (.notFound id)
  | some s => if s.userId ≠ userId then .error .forbidden else .ok s

def update {R : Type} (m : SessionManager) (id : Uuid) (userId : String)
    (f : Session → R × Session) : Except SessionError R × SessionManager :=
  match m.sessions.lookup id with
  | none => (.error (.notFound id), m)
  | some s =>
    if s.userId ≠ userId then (.error .forbidden, m)
    else (.ok (f s).1, { m with sessions := m.sessions.insert id (f s).2 })

/-- The index without the entry of a user that points at the given session. -/
def dropPointer (m : SessionManager) (userId : String) (id : Uuid) : HashMap String Uuid :=
  if m.perUser.lookup userId = some id then m.perUser.erase userId else m.perUser

def endSession (m : SessionManager) (id : Uuid) (userId : String) :
    Except SessionError Session × SessionManager :=
  match m.sessions.lookup id with
  | none => (.error (.notFound id), m)
  | some s =>
    if s.userId ≠ userId then (.error .forbidden, m)
    else
      (.ok { s with status := .ended }, { m with
        perUser := m.dropPointer s.userId id
        sessions := m.sessions.erase id })

def touchAction (m : SessionManager) (now : Clock) (id : Uuid) (userId : String) :
    Except SessionError Unit × SessionManager :=
  match m.sessions.lookup id with
  | none => (.error (.notFound id), m)
  | some s =>
    if s.userId ≠ userId then (.error .forbidden, m)
    else
      match s.lastActionAt with
      | some last =>
        if now.mono - last < actionCooldown then
          (.error (.cooldown (actionCooldown - (now.mono - last))), m)
        else
          (.ok (), { m with
            sessions := m.sessions.insert id { s with lastActionAt := some now.mono } })
      | none =>
        (.ok (), { m with
          sessions := m.sessions.insert id { s with lastActionAt := some now.mono } })

/-- One pass of the removal loop of `sweep_expired`. -/
def sweepOne (acc : List Session × SessionManager) (id : Uuid) : List Session × SessionManager :=
  match acc.2.sessions.lookup id with
  | none => acc
  | some s =>
    (acc.1 ++ [{ s with status := .ended }], { acc.2 with
      perUser := acc.2.dropPointer s.userId id
      sessions := acc.2.sessions.erase id })

def sweepExpired (m : SessionManager) (now : Clock) : List Session × SessionManager :=
  (keysWhere (fun s => s.isExpired now) m.sessions).foldl sweepOne ([], m)

def liveNamespaces (m : SessionManager) : List String :=
  (values m.sessions).map Session.namespaceName

def liveShuttles (m : SessionManager) : List String :=
  (values m.sessions).map Session.shuttleName

def getUserSession (m : SessionManager) (userId : String) : Option Session :=
  (m.perUser.lookup userId).bind fun id => m.sessions.lookup id

end SessionManager

/-- The fields of a session that are serialized: all but the two monotonic instants. -/
structure SessionRow where
  id : Uuid
  userId : String
  tenantId : Option String
  scenarioId : String
  namespaceName : String
  shuttleName : String
  connectionName : String
  createdAt : ℤ
  expiresAt : ℤ
  ttl : ℕ
  status : SessionStatus
  events : List SessionEvent
  deriving DecidableEq, Repr

def toRow (s : Session) : SessionRow :=
  { id := s.id
    userId := s.userId
    tenantId := s.tenantId
    scenarioId := s.scenarioId
    namespaceName := s.namespaceName
    shuttleName := s.shuttleName
    connectionName := s.connectionName
    createdAt := s.createdAt
    expiresAt := s.expiresAt
    ttl := s.ttl
    status := s.status
    events := s.events }

/-- Deserialization fills the skipped fields with `default_instant_now` and `None`. -/
def SessionRow.restore (r : SessionRow) (now : Clock) : Session :=
  { id := r.id
    userId := r.userId
    tenantId := r.tenantId
    scenarioId := r.scenarioId
    namespaceName := r.namespaceName
    shuttleName := r.shuttleName
    connectionName := r.connectionName
    createdAt := r.createdAt
    expiresAt := r.expiresAt
    createdMonotonic := now.mono
    ttl := r.ttl
    status := r.status
    lastActionAt := none
    events := r.events }

def SessionRow.dropped (r : SessionRow) (now : Clock) : Bool :=
  decide (r.expiresAt ≤ now.wall) || decide (r.status = .ended)

theorem dropped_false_iff {r : SessionRow} {now : Clock} :
    r.dropped now = false ↔ now.wall < r.expiresAt ∧ r.status ≠ .ended := by
  simp [SessionRow.dropped]

def hydrateRow (now : Clock) (acc : HashMap Uuid Session × HashMap String Uuid)
    (r : SessionRow) : HashMap Uuid Session × HashMap String Uuid :=
  if r.dropped now then acc
  else (acc.1.insert r.id (r.restore now), acc.2.insert r.userId r.id)

/-- The argument is what the file decodes to: `none` when it is missing, unreadable or not
the JSON of a session list. -/
def hydrateFromDisk (snapshot : Option (List SessionRow)) (now : Clock) :
    HashMap Uuid Session × HashMap String Uuid :=
  (snapshot.getD []).foldl (hydrateRow now) (∅, ∅)

namespace SessionManager

def newWithPersistence (manifest : Manifest) (enabled : Bool) (defaultTtl : ℕ) (path : String)
    (snapshot : Option (List SessionRow)) (now : Clock) : SessionManager :=
  { sessions := (hydrateFromDisk snapshot now).1
    perUser := (hydrateFromDisk snapshot now).2
    manifest := manifest
    enabled := enabled
    defaultTtl := (clampTtl defaultTtl).toOption.getD PlaygroundSessions.defaultTtl
    persistencePath := some path }

def rows (m : SessionManager) : List SessionRow := (values m.sessions).map toRow

end SessionManager

/-- The closures the handlers pass to `update`. -/
inductive SessionUpdate where
  | record (kind : String) (message : Session → String) (actionId : Option String)
      (success : Option Bool)
  | resetStart
  | resetComplete
  | sessionCreated
  | extend (extra : ℕ)

def SessionUpdate.apply (now : Clock) : SessionUpdate → Session → UpdateOutcome × Session
  | .record kind message actionId success, s =>
    (.done, s.record now kind (message s) actionId success)
  | .resetStart, s =>
    (.done, { s with status := .resetting }.record now "reset-start"
      "user-triggered reset — dropping + recreating shuttle" none (some true))
  | .resetComplete, s =>
    (.done, { s with status := .active }.record now "reset-complete" "reset finished" none
      (some true))
  | .sessionCreated, s =>
    (.done, { s.record now "session-created"
      ("namespace=" ++ s.namespaceName ++ " shuttle=" ++ s.shuttleName ++ " scenario=" ++
        s.scenarioId) none (some true) with status := .active })
  | .extend extra, s => s.extend now extra

/-- What every closure leaves alone. -/
structure SameSession (s t : Session) : Prop where
  id : t.id = s.id
  userId : t.userId = s.userId
  scenarioId : t.scenarioId = s.scenarioId
  namespaceName : t.namespaceName = s.namespaceName
  shuttleName : t.shuttleName = s.shuttleName
  connectionName : t.connectionName = s.connectionName

theorem SameSession.refl (s : Session) : SameSession s s := ⟨rfl, rfl, rfl, rfl, rfl, rfl⟩

theorem SameSession.trans {s t u : Session} (h : SameSession s t) (h' : SameSession t u) :
    SameSession s u where
  id := h'.id.trans h.id
  userId := h'.userId.trans h.userId
  scenarioId := h'.scenarioId.trans h.scenarioId
  namespaceName := h'.namespaceName.trans h.namespaceName
  shuttleName := h'.shuttleName.trans h.shuttleName
  connectionName := h'.connectionName.trans h.connectionName

theorem extend_same (s : Session) (now : Clock) (extra : ℕ) :
    SameSession s (s.extend now extra).2 := by
  cases h : s.extend now extra with
  | mk o t =>
    by_cases ho : o = .done
    · subst ho
      obtain ⟨_, rfl⟩ := extend_done h
      constructor <;> rfl
    · rw [extend_unchanged h ho]
      constructor <;> rfl

theorem apply_same (now : Clock) (u : SessionUpdate) (s : Session) :
    SameSession s (u.apply now s).2 := by
  cases u with
  | extend extra => exact extend_same s now extra
  | record | resetStart | resetComplete | sessionCreated =>
    constructor <;> simp only [SessionUpdate.apply, Session.record]

/-- A closure assigns the status, the events and the deadlines at most. -/
theorem apply_keeps {β : Type} {f : Session → β}
    (hf : ∀ (s : Session) (status : SessionStatus) (events : List SessionEvent) (ttl : ℕ)
      (expiresAt : ℤ), f { s with status, events, ttl, expiresAt } = f s)
    (now : Clock) (u : SessionUpdate) (s : Session) : f (u.apply now s).2 = f s := by
  cases u with
  | extend extra =>
    cases h : s.extend now extra with
    | mk o t =>
      simp only [SessionUpdate.apply, h]
      by_cases ho : o = .done
      · subst ho
        obtain ⟨_, rfl⟩ := extend_done h
        exact hf s _ _ _ _
      · rw [extend_unchanged h ho]
  | record | resetStart | resetComplete | sessionCreated =>
    simp only [SessionUpdate.apply, Session.record]
    apply hf

theorem apply_createdMonotonic (now : Clock) (u : SessionUpdate) (s : Session) :
    (u.apply now s).2.createdMonotonic = s.createdMonotonic :=
  apply_keeps (fun _ _ _ _ _ => rfl) now u s

theorem apply_not_ended {now : Clock} {u : SessionUpdate} {s : Session}
    (h : s.status ≠ .ended) : (u.apply now s).2.status ≠ .ended := by
  cases u with
  | extend extra =>
    cases he : s.extend now extra with
    | mk o t =>
      simp only [SessionUpdate.apply, he]
      by_cases ho : o = .done
      · subst ho
        obtain ⟨_, rfl⟩ := extend_done he
        exact h
      · rw [extend_unchanged he ho]
        exact h
  | record => simpa only [SessionUpdate.apply, Session.record] using h
  | resetStart | resetComplete | sessionCreated =>
    simp [SessionUpdate.apply, Session.record]

theorem apply_panicked {now : Clock} {u : SessionUpdate} {s : Session}
    (h : (u.apply now s).1 = .panicked) : (u.apply now s).2 = s := by
  cases u with
  | extend extra =>
    cases he : s.extend now extra with
    | mk o t =>
      simp only [SessionUpdate.apply, he] at h ⊢
      exact extend_unchanged he (by simp [h])
  | record | resetStart | resetComplete | sessionCreated => cases h

theorem apply_deadlines (now : Clock) (u : SessionUpdate) (s : Session) :
    ((u.apply now s).2.ttl = s.ttl ∧ (u.apply now s).2.expiresAt = s.expiresAt) ∨
    ∃ extra, u = .extend extra ∧ s.extend now extra = (.done, (u.apply now s).2) := by
  cases u with
  | extend extra =>
    cases he : s.extend now extra with
    | mk o t =>
      simp only [SessionUpdate.apply, he]
      by_cases ho : o = .done
      · subst ho
        exact Or.inr ⟨extra, rfl, he⟩
      · rw [extend_unchanged he ho]
        exact Or.inl ⟨rfl, rfl⟩
  | record | resetStart | resetComplete | sessionCreated =>
    exact Or.inl ⟨by simp only [SessionUpdate.apply, Session.record],
      by simp only [SessionUpdate.apply, Session.record]⟩

end PlaygroundSessionManager
