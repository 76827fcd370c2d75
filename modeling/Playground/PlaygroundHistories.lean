import Playground.CallHistories
import Playground.PlaygroundManagerRuns

/-! # Histories of manager calls

The calls of the session manager with any closure under `update`, and what they keep of the two
maps: the user index never dangles, a restart undoes `persist`, and every created session is
handed out exactly once. -/
namespace PlaygroundHistories

open HashMaps
open PlaygroundManifest (Manifest)
open PlaygroundSessions
open PlaygroundSessionManager
open PlaygroundManagerRuns

/-- A call of the manager; `R` is what the closures return. -/
inductive Call (R : Type) where
  | create (a : SessionManager.CreateArgs)
  | get (id : Uuid) (userId : String)
  | update (id : Uuid) (userId : String) (f : Session → R × Session)
  | endSession (id : Uuid) (userId : String)
  | touchAction (id : Uuid) (userId : String)
  | sweepExpired
  | getUserSession (userId : String)

inductive Reply (R : Type) where
  | session (r : Except SessionError Session)
  | updated (r : Except SessionError R)
  | touched (r : Except SessionError Unit)
  | swept (expired : List Session)
  | userSession (s : Option Session)

variable {R : Type}

def Call.run (sha256 : String → Digest) (now : Clock) (m : SessionManager) :
    Call R → Reply R × SessionManager
  | .create a => (.session (m.create sha256 now a).1, (m.create sha256 now a).2)
  | .get id userId => (.session (m.get id userId), m)
  | .update id userId f => (.updated (m.update id userId f).1, (m.update id userId f).2)
  | .endSession id userId => (.session (m.endSession id userId).1, (m.endSession id userId).2)
  | .touchAction id userId =>
    (.touched (m.touchAction now id userId).1, (m.touchAction now id userId).2)
  | .sweepExpired => (.swept (m.sweepExpired now).1, (m.sweepExpired now).2)
  | .getUserSession userId => (.userSession (m.getUserSession userId), m)

/-- The closure of an `update` leaves the id and the owner of the session alone. -/
def Call.KeepsIdentity : Call R → Prop
  | .update _ _ f => ∀ s, (f s).2.id = s.id ∧ (f s).2.userId = s.userId
  | _ => True

def Call.newId : Call R → Option Uuid
  | .create a => some a.id
  | _ => none

def Call.Fresh (m : SessionManager) (c : Call R) : Prop :=
  ∀ id, c.newId = some id → m.sessions.lookup id = none

def callOf (now : Clock) : ManagerOp → Option (Call UpdateOutcome)
  | .create a => some (.create a)
  | .get id userId => some (.get id userId)
  | .update id userId u => some (.update id userId (u.apply now))
  | .endSession id userId => some (.endSession id userId)
  | .touchAction id userId => some (.touchAction id userId)
  | .sweepExpired => some .sweepExpired
  | .getUserSession userId => some (.getUserSession userId)
  | .liveNamespaces => none
  | .liveShuttles => none

/-- The managers a server can hold: any calls at any readings, and restarts from the file in
any order of its rows. -/
inductive Reachable (sha256 : String → Digest) : SessionManager → Prop where
  | start (manifest : Manifest) (enabled : Bool) (defaultTtl : ℕ) :
      Reachable sha256 (.new manifest enabled defaultTtl)
  | call {m} {R : Type} (c : Call R) (now : Clock) : Reachable sha256 m → c.KeepsIdentity →
      c.Fresh m → Reachable sha256 (c.run sha256 now m).2
  | restart {m} (b : Reboot) (now : Clock) : Reachable sha256 m → b.rows.Perm m.rows →
      Reachable sha256 (b.boot now)

variable {sha256 : String → Digest} {m : SessionManager} {now : Clock}

theorem callOf_keepsIdentity {o : ManagerOp} {c : Call UpdateOutcome}
    (h : callOf now o = some c) : c.KeepsIdentity := by
  cases o <;> cases h
  case update id userId u =>
    intro s
    exact ⟨(apply_same now u s).id, (apply_same now u s).userId⟩
  all_goals trivial

theorem callOf_run {o : ManagerOp} {c : Call UpdateOutcome} (h : callOf now o = some c) :
    (o.run sha256 m now).2 = (c.run sha256 now m).2 := by
  cases o <;> cases h <;> rfl

def Keyed (sessions : HashMap Uuid Session) : Prop :=
  ∀ id s, sessions.lookup id = some s → s.id = id

theorem Keyed.insert {sessions : HashMap Uuid Session} (h : Keyed sessions) {id : Uuid}
    {t : Session} (ht : t.id = id) : Keyed (sessions.insert id t) := by
  intro j r hr
  rcases lookup_insert_iff.mp hr with ⟨rfl, rfl⟩ | ⟨_, hr⟩
  · exact ht
  · exact h j r hr

theorem Keyed.erase {sessions : HashMap Uuid Session} (h : Keyed sessions) (id : Uuid) :
    Keyed (sessions.erase id) := by
  intro j r hr
  exact h j r (lookup_erase_iff.mp hr).2

theorem sweepExpired_keyed (h : Keyed m.sessions) (now : Clock) :
    Keyed (m.sweepExpired now).2.sessions := by
  intro id s hs
  exact h id s (sweepExpired_sessions.mp hs).1

/-- The two maps agree with each other. -/
structure Coherent (m : SessionManager) : Prop where
  keyed : Keyed m.sessions
  pointed : ∀ u id, m.perUser.lookup u = some id →
    ∃ s, m.sessions.lookup id = some s ∧ s.userId = u

theorem coherent_new (manifest : Manifest) (enabled : Bool) (defaultTtl : ℕ) :
    Coherent (.new manifest enabled defaultTtl) where
  keyed := by simp [Keyed, SessionManager.new]
  pointed := by simp [SessionManager.new]

theorem create_coherent (h : Coherent m) (a : SessionManager.CreateArgs)
    (hf : m.sessions.lookup a.id = none) : Coherent (m.create sha256 now a).2 := by
  rcases create_cases sha256 m now a with ⟨e, he⟩ | ⟨ttl, hc, hl, he⟩
  · rw [he]
    exact h
  · rw [he]
    refine ⟨h.keyed.insert rfl, ?_⟩
    intro u id hu
    simp only [lookup_insert_iff, lookup_erase_iff] at hu
    rcases hu with ⟨rfl, rfl⟩ | ⟨hne, _, hu⟩
    · exact ⟨_, AList.lookup_insert _, rfl⟩
    · obtain ⟨s, hs, hsu⟩ := h.pointed u id hu
      refine ⟨s, lookup_insert_iff.mpr (Or.inr ⟨?_, hs⟩), hsu⟩
      intro e
      rw [e, hf] at hs
      cases hs

theorem insert_coherent (h : Coherent m) {id : Uuid} {s t : Session}
    (hs : m.sessions.lookup id = some s) (hid : t.id = s.id) (hu : t.userId = s.userId) :
    Coherent { m with sessions := m.sessions.insert id t } := by
  refine ⟨h.keyed.insert (hid.trans (h.keyed id s hs)), ?_⟩
  intro u j hj
  obtain ⟨r, hr, hru⟩ := h.pointed u j hj
  by_cases hjid : j = id
  · subst hjid
    rw [hs] at hr
    cases hr
    exact ⟨t, AList.lookup_insert _, hu.trans hru⟩
  · exact ⟨r, lookup_insert_iff.mpr (Or.inr ⟨hjid, hr⟩), hru⟩

theorem update_coherent (h : Coherent m) (id : Uuid) (userId : String) (f : Session → R × Session)
    (hf : ∀ s, (f s).2.id = s.id ∧ (f s).2.userId = s.userId) :
    Coherent (m.update id userId f).2 := by
  rcases update_cases (m := m) id userId f with ⟨e, he⟩ | ⟨s, hs, _, he⟩
  · rw [he]
    exact h
  · rw [he]
    exact insert_coherent h hs (hf s).1 (hf s).2

theorem touchAction_coherent (h : Coherent m) (id : Uuid) (userId : String) :
    Coherent (m.touchAction now id userId).2 := by
  rcases touchAction_cases m now id userId with ⟨e, he⟩ | ⟨s, hs, _, he⟩
  · rw [he]
    exact h
  · rw [he]
    exact insert_coherent h hs rfl rfl

theorem endSession_coherent (h : Coherent m) (id : Uuid) (userId : String) :
    Coherent (m.endSession id userId).2 := by
  rcases endSession_cases (m := m) id userId with ⟨e, he⟩ | ⟨s, hs, _, he⟩
  · rw [he]
    exact h
  · rw [he]
    refine ⟨h.keyed.erase id, ?_⟩
    intro u j hj
    obtain ⟨hj, hne⟩ := dropPointer_lookup.mp hj
    obtain ⟨r, hr, hru⟩ := h.pointed u j hj
    refine ⟨r, lookup_erase_iff.mpr ⟨?_, hr⟩, hru⟩
    intro hjid
    subst hjid
    rw [hs] at hr
    cases hr
    exact hne ⟨hru.symm, rfl⟩

theorem sweepExpired_coherent (h : Coherent m) (now : Clock) :
    Coherent (m.sweepExpired now).2 := by
  refine ⟨sweepExpired_keyed h.keyed now, ?_⟩
  intro u id hu
  obtain ⟨hu, hn⟩ := sweepExpired_perUser.mp hu
  obtain ⟨s, hs, hsu⟩ := h.pointed u id hu
  refine ⟨s, sweepExpired_sessions.mpr ⟨hs, ?_⟩, hsu⟩
  cases hx : s.isExpired now with
  | false => rfl
  | true => exact absurd ⟨s, hs, hx, hsu⟩ hn

theorem call_coherent (h : Coherent m) (c : Call R) (hk : c.KeepsIdentity) (hf : c.Fresh m) :
    Coherent (c.run sha256 now m).2 := by
  cases c with
  | create a => exact create_coherent h a (hf a.id rfl)
  | get => exact h
  | update id userId f => exact update_coherent h id userId f hk
  | endSession id userId => exact endSession_coherent h id userId
  | touchAction id userId => exact touchAction_coherent h id userId
  | sweepExpired => exact sweepExpired_coherent h now
  | getUserSession => exact h

theorem boot_coherent (h : Coherent m) {b : Reboot} (hb : b.rows.Perm m.rows) :
    Coherent (b.boot now) := by
  constructor
  · intro id s hs
    obtain ⟨t, ht, _, rfl⟩ := (boot_keeps h.keyed hb).mp hs
    exact h.keyed id t ht
  · intro u id hu
    obtain ⟨t, ht, hd, htu⟩ := boot_pointed h.keyed hb hu
    exact ⟨_, (boot_keeps h.keyed hb).mpr ⟨t, ht, hd, rfl⟩, htu⟩

theorem Reachable.coherent (h : Reachable sha256 m) : Coherent m := by
  induction h with
  | start manifest enabled defaultTtl => exact coherent_new manifest enabled defaultTtl
  | call c now _ hk hf ih => exact call_coherent ih c hk hf
  | restart b now _ hb ih => exact boot_coherent ih hb

/-- No entry of the user index dangles or names a session of someone else, and neither does
what `get_user_session` answers. -/
theorem user_index_coherent (h : Reachable sha256 m) :
    (∀ u id, m.perUser.lookup u = some id →
      ∃ s, m.sessions.lookup id = some s ∧ s.userId = u) ∧
    ∀ u s, m.getUserSession u = some s →
      s.userId = u ∧ m.perUser.lookup u = some s.id ∧ m.sessions.lookup s.id = some s := by
  refine ⟨h.coherent.pointed, ?_⟩
  intro u s hs
  obtain ⟨id, hid, hlookup⟩ := Option.bind_eq_some_iff.mp hs
  obtain ⟨t, ht, htu⟩ := h.coherent.pointed u id hid
  have hkey : s.id = id := h.coherent.keyed id s hlookup
  rw [hlookup] at ht
  cases ht
  rw [hkey]
  exact ⟨htu, hid, hlookup⟩

theorem oneSession_reachable : Reachable (fun _ => 0) oneSession :=
  .call (R := Unit) (.create ⟨1, "u1", none, "mongo-cdc", some minTtl⟩) (atSecond 0)
    (.start oneScenario true defaultTtl) trivial (by rintro _ ⟨⟩; rfl)

theorem user_index_coherent_restart :
    let m := (Reboot.mk oneSession.rows oneScenario true defaultTtl "sessions.json").boot
      (atSecond 60)
    m.perUser.lookup "u1" = some 1 ∧ ∃ s, m.sessions.lookup 1 = some s ∧ s.userId = "u1" :=
  ⟨by decide +kernel, (user_index_coherent (.restart _ _ oneSession_reachable (.refl _))).1 "u1" 1
    (by decide +kernel)⟩

/-- What hydrating the file of `m` should give at a later time. -/
structure Restores (m : SessionManager) (now : Clock)
    (maps : HashMap Uuid Session × HashMap String Uuid) : Prop where
  rows : ∀ id r, (maps.1.lookup id).map toRow = some r ↔
    ∃ t, m.sessions.lookup id = some t ∧ now.wall < t.expiresAt ∧ t.status ≠ .ended ∧ toRow t = r
  keyed : ∀ id s, maps.1.lookup id = some s → s.id = id
  users : ∀ u, maps.2.lookup u ≠ none ↔ ∃ id s, maps.1.lookup id = some s ∧ s.userId = u
  pointed : ∀ u id, maps.2.lookup u = some id →
    ∃ s, maps.1.lookup id = some s ∧ s.userId = u

theorem boot_restores (h : Coherent m) {b : Reboot} (hb : b.rows.Perm m.rows) :
    Restores m now ((b.boot now).sessions, (b.boot now).perUser) := by
  have hc : Coherent (b.boot now) := boot_coherent h hb
  refine ⟨?_, hc.keyed, ?_, hc.pointed⟩
  · intro id r
    rw [Option.map_eq_some_iff]
    constructor
    · rintro ⟨s, hs, rfl⟩
      obtain ⟨t, ht, hd, rfl⟩ := (boot_keeps h.keyed hb).mp hs
      obtain ⟨hlt, hne⟩ := dropped_false_iff.mp hd
      exact ⟨t, ht, hlt, hne, rfl⟩
    · rintro ⟨t, ht, hlt, hne, rfl⟩
      have hd : (toRow t).dropped now = false := dropped_false_iff.mpr ⟨hlt, hne⟩
      exact ⟨_, (boot_keeps h.keyed hb).mpr ⟨t, ht, hd, rfl⟩, rfl⟩
  · intro u
    constructor
    · intro hu
      obtain ⟨id, hid⟩ := Option.ne_none_iff_exists'.mp hu
      obtain ⟨s, hs, hsu⟩ := hc.pointed u id hid
      exact ⟨id, s, hs, hsu⟩
    · rintro ⟨id, s, hs, rfl⟩
      obtain ⟨t, ht, hd, rfl⟩ := (boot_keeps h.keyed hb).mp hs
      have hp := boot_pointer h.keyed hb ht hd
      exact hp

/-- Hydrating the file that `persist` wrote, at any time and in any order of the rows. -/
theorem hydrate_undoes_persist (h : Reachable sha256 m) {rows : List SessionRow}
    (hrows : rows.Perm m.rows) (now : Clock) :
    Restores m now (hydrateFromDisk (some rows) now) :=
  boot_restores (b := ⟨rows, m.manifest, m.enabled, m.defaultTtl, ""⟩) h.coherent hrows

def twoSessions : SessionManager :=
  ((Call.create (R := Unit) ⟨2, "u2", none, "mongo-cdc", none⟩).run (fun _ => 0) (atSecond 1)
    oneSession).2

theorem twoSessions_reachable : Reachable (fun _ => 0) twoSessions :=
  .call _ _ oneSession_reachable trivial (by rintro _ ⟨⟩; rfl)

theorem hydrate_undoes_persist_twoSessions :
    let maps := hydrateFromDisk (some twoSessions.rows.reverse) (atSecond 420)
    Restores twoSessions (atSecond 420) maps ∧ maps.1.keys = [2] ∧ maps.2.keys = ["u2"] :=
  ⟨hydrate_undoes_persist twoSessions_reachable (List.reverse_perm _) _, by decide +kernel,
    by decide +kernel⟩

end PlaygroundHistories
