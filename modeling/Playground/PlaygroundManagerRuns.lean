import Playground.PlaygroundSessionManager

/-! # Runs of the session manager

A run applies manager operations and restarts in any order, with nondecreasing clock
readings. A restart starts a new monotonic clock; only the wall clock continues. -/
namespace PlaygroundManagerRuns

open HashMaps
open PlaygroundManifest (Manifest)
open PlaygroundSessions
open PlaygroundSessionManager

inductive ManagerOp where
  | create (a : SessionManager.CreateArgs)
  | get (id : Uuid) (userId : String)
  | update (id : Uuid) (userId : String) (u : SessionUpdate)
  | endSession (id : Uuid) (userId : String)
  | touchAction (id : Uuid) (userId : String)
  | sweepExpired
  | getUserSession (userId : String)
  | liveNamespaces
  | liveShuttles

@[reducible] def ManagerOp.Result : ManagerOp → Type
  | .create _ => Except SessionError Session
  | .get _ _ => Except SessionError Session
  | .update _ _ _ => Except SessionError UpdateOutcome
  | .endSession _ _ => Except SessionError Session
  | .touchAction _ _ => Except SessionError Unit
  | .sweepExpired => List Session
  | .getUserSession _ => Option Session
  | .liveNamespaces => List String
  | .liveShuttles => List String

def ManagerOp.run (sha256 : String → Digest) (m : SessionManager) (now : Clock) :
    (o : ManagerOp) → o.Result × SessionManager
  | .create a => m.create sha256 now a
  | .get id userId => (m.get id userId, m)
  | .update id userId u => m.update id userId (u.apply now)
  | .endSession id userId => m.endSession id userId
  | .touchAction id userId => m.touchAction now id userId
  | .sweepExpired => m.sweepExpired now
  | .getUserSession userId => (m.getUserSession userId, m)
  | .liveNamespaces => (m.liveNamespaces, m)
  | .liveShuttles => (m.liveShuttles, m)

/-- What a restart may change besides the maps, and the rows in the order of the file. -/
structure Reboot where
  rows : List SessionRow
  manifest : Manifest
  enabled : Bool
  defaultTtl : ℕ
  path : String

def Reboot.boot (b : Reboot) (now : Clock) : SessionManager :=
  .newWithPersistence b.manifest b.enabled b.defaultTtl b.path (some b.rows) now

inductive Event where
  | op (o : ManagerOp)
  | restart (b : Reboot)

variable (sha256 : String → Digest)

/-- Runs from an empty manager whose events all meet `guard`, which sees the manager, the
last clock reading and the present one. -/
inductive ManagerRun (guard : SessionManager → Clock → Clock → Event → Prop) :
    SessionManager → Clock → Prop where
  | start (manifest : Manifest) (enabled : Bool) (defaultTtl : ℕ) (now : Clock) :
      ManagerRun guard (.new manifest enabled defaultTtl) now
  | op {m t} (o : ManagerOp) (now : Clock) : ManagerRun guard m t → t ≤ now →
      guard m t now (.op o) → ManagerRun guard (o.run sha256 m now).2 now
  | restart {m t} (b : Reboot) (now : Clock) : ManagerRun guard m t → t.wall ≤ now.wall →
      b.rows.Perm m.rows → guard m t now (.restart b) → ManagerRun guard (b.boot now) now

def anyEvent : SessionManager → Clock → Clock → Event → Prop := fun _ _ _ _ => True

variable {sha256}
variable {m : SessionManager} {now : Clock}

theorem create_cases (sha256 : String → Digest) (m : SessionManager) (now : Clock)
    (a : SessionManager.CreateArgs) :
    (∃ e, m.create sha256 now a = (.error e, m)) ∨
    (∃ ttl, m.checkRequest a.scenarioId a.ttlOverride = .ok ttl ∧
      m.liveHolder now a.userId = none ∧
      m.create sha256 now a =
        (.ok (Session.new sha256 a.id now a.userId a.tenantId a.scenarioId ttl), { m with
          perUser := (m.perUser.erase a.userId).insert a.userId a.id
          sessions := m.sessions.insert a.id
            (Session.new sha256 a.id now a.userId a.tenantId a.scenarioId ttl) })) := by
  unfold SessionManager.create
  cases hc : m.checkRequest a.scenarioId a.ttlOverride with
  | error e => exact Or.inl ⟨e, rfl⟩
  | ok ttl =>
    cases hl : m.liveHolder now a.userId with
    | some existing => exact Or.inl ⟨_, rfl⟩
    | none => exact Or.inr ⟨ttl, rfl, rfl, rfl⟩

theorem create_ok {a : SessionManager.CreateArgs} {ttl : ℕ}
    (hc : m.checkRequest a.scenarioId a.ttlOverride = .ok ttl)
    (hl : m.liveHolder now a.userId = none) :
    (m.create sha256 now a).1 =
      .ok (Session.new sha256 a.id now a.userId a.tenantId a.scenarioId ttl) := by
  simp only [SessionManager.create, hc, hl]

theorem update_cases {R : Type} (id : Uuid) (userId : String) (f : Session → R × Session) :
    (∃ e, m.update id userId f = (.error e, m)) ∨
    (∃ s, m.sessions.lookup id = some s ∧ s.userId = userId ∧
      m.update id userId f =
        (.ok (f s).1, { m with sessions := m.sessions.insert id (f s).2 })) := by
  unfold SessionManager.update
  cases hs : m.sessions.lookup id with
  | none => exact Or.inl ⟨_, rfl⟩
  | some s =>
    by_cases hu : s.userId = userId
    · exact Or.inr ⟨s, rfl, hu, by simp [hu]⟩
    · exact Or.inl ⟨.forbidden, by simp [hu]⟩

theorem endSession_cases (id : Uuid) (userId : String) :
    (∃ e, m.endSession id userId = (.error e, m)) ∨
    (∃ s, m.sessions.lookup id = some s ∧ s.userId = userId ∧
      m.endSession id userId = (.ok { s with status := .ended }, { m with
        perUser := m.dropPointer s.userId id
        sessions := m.sessions.erase id })) := by
  unfold SessionManager.endSession
  cases hs : m.sessions.lookup id with
  | none => exact Or.inl ⟨_, rfl⟩
  | some s =>
    by_cases hu : s.userId = userId
    · exact Or.inr ⟨s, rfl, hu, by simp [hu]⟩
    · exact Or.inl ⟨.forbidden, by simp [hu]⟩

theorem touchAction_cases (m : SessionManager) (now : Clock) (id : Uuid) (userId : String) :
    (∃ e, m.touchAction now id userId = (.error e, m)) ∨
    (∃ s, m.sessions.lookup id = some s ∧ s.userId = userId ∧
      m.touchAction now id userId = (.ok (), { m with
        sessions := m.sessions.insert id { s with lastActionAt := some now.mono } })) := by
  unfold SessionManager.touchAction
  cases hs : m.sessions.lookup id with
  | none => exact Or.inl ⟨_, rfl⟩
  | some s =>
    by_cases hu : s.userId = userId
    · cases hl : s.lastActionAt with
      | none => exact Or.inr ⟨s, rfl, hu, by simp [hu, hl]⟩
      | some last =>
        by_cases hc : now.mono - last < actionCooldown
        · exact Or.inl ⟨_, by simp only [hu, ne_eq, not_true, if_false, hl, hc, if_true]; rfl⟩
        · exact Or.inr ⟨s, rfl, hu, by simp [hu, hl, hc]⟩
    · exact Or.inl ⟨.forbidden, by simp [hu]⟩

theorem dropPointer_lookup {u v : String} {id j : Uuid} :
    (m.dropPointer u id).lookup v = some j ↔
      m.perUser.lookup v = some j ∧ ¬ (v = u ∧ j = id) := by
  unfold SessionManager.dropPointer
  split
  · rename_i h
    rw [lookup_erase_iff]
    constructor
    · rintro ⟨hne, hl⟩
      exact ⟨hl, fun hc => hne hc.1⟩
    · rintro ⟨hl, hc⟩
      refine ⟨fun e => hc ⟨e, ?_⟩, hl⟩
      rw [e, h] at hl
      exact (Option.some.inj hl).symm
  · rename_i h
    refine ⟨fun hl => ⟨hl, ?_⟩, fun hl => hl.1⟩
    rintro ⟨rfl, rfl⟩
    exact h hl

/-- The loop of the sweep over a list of keys removes exactly those sessions, returns each with
status `Ended`, and drops exactly the pointers that name a removed session. -/
structure Swept (ids : List Uuid) (acc acc' : List Session × SessionManager) : Prop where
  sessions : ∀ id s, acc'.2.sessions.lookup id = some s ↔
    acc.2.sessions.lookup id = some s ∧ id ∉ ids
  perUser : ∀ u id, acc'.2.perUser.lookup u = some id ↔ acc.2.perUser.lookup u = some id ∧
    ¬ (id ∈ ids ∧ ∃ s, acc.2.sessions.lookup id = some s ∧ s.userId = u)
  ended : ∀ t, t ∈ acc'.1 ↔ t ∈ acc.1 ∨
    ∃ id ∈ ids, ∃ s, acc.2.sessions.lookup id = some s ∧ t = { s with status := .ended }

theorem swept_nil (acc : List Session × SessionManager) : Swept [] acc acc := by
  constructor <;> simp

theorem sweepOne_swept (acc : List Session × SessionManager) (k : Uuid) :
    Swept [k] acc (SessionManager.sweepOne acc k) := by
  cases hk : acc.2.sessions.lookup k with
  | none =>
    have hstep : SessionManager.sweepOne acc k = acc := by simp [SessionManager.sweepOne, hk]
    have hother : ∀ id s, acc.2.sessions.lookup id = some s → id ≠ k := by
      rintro id s hs rfl
      rw [hk] at hs
      cases hs
    rw [hstep]
    refine ⟨fun id s => ?_, fun u id => ?_, fun t => ?_⟩
    · rw [List.mem_singleton]
      exact ⟨fun hs => ⟨hs, hother id s hs⟩, fun hs => hs.1⟩
    · refine ⟨fun hl => ⟨hl, ?_⟩, fun hl => hl.1⟩
      rintro ⟨hm, s, hs, _⟩
      exact hother id s hs (List.mem_singleton.mp hm)
    · refine ⟨Or.inl, fun ht => ht.resolve_right ?_⟩
      rintro ⟨id, hm, s, hs, _⟩
      exact hother id s hs (List.mem_singleton.mp hm)
  | some sk =>
    have hstep : SessionManager.sweepOne acc k =
        (acc.1 ++ [{ sk with status := .ended }], { acc.2 with
          perUser := acc.2.dropPointer sk.userId k
          sessions := acc.2.sessions.erase k }) := by simp [SessionManager.sweepOne, hk]
    have hsame : ∀ s, acc.2.sessions.lookup k = some s ↔ s = sk := by
      intro s
      rw [hk, Option.some.injEq]
      exact eq_comm
    rw [hstep]
    refine ⟨fun id s => ?_, fun u id => ?_, fun t => ?_⟩
    · rw [lookup_erase_iff, List.mem_singleton]
      exact and_comm
    · rw [dropPointer_lookup, List.mem_singleton]
      refine and_congr_right fun _ => not_congr ?_
      constructor
      · rintro ⟨rfl, rfl⟩
        exact ⟨rfl, sk, hk, rfl⟩
      · rintro ⟨rfl, s, hs, rfl⟩
        rw [(hsame s).mp hs]
        exact ⟨rfl, rfl⟩
    · simp only [List.mem_append, List.mem_singleton, exists_eq_left, hsame]

theorem Swept.append {ids ks : List Uuid} {acc acc' acc'' : List Session × SessionManager}
    (h : Swept ids acc acc') (h' : Swept ks acc' acc'') : Swept (ids ++ ks) acc acc'' where
  sessions id s := by
    rw [h'.sessions, h.sessions, List.mem_append, not_or, and_assoc]
  perUser u id := by
    rw [h'.perUser, h.perUser, List.mem_append, and_assoc]
    refine and_congr_right fun _ => ?_
    rw [← not_or]
    refine not_congr ?_
    simp only [h.sessions]
    constructor
    · rintro (⟨hm, hs⟩ | ⟨hm, s, ⟨hs, _⟩, hu⟩)
      · exact ⟨Or.inl hm, hs⟩
      · exact ⟨Or.inr hm, s, hs, hu⟩
    · rintro ⟨hm, s, hs, hu⟩
      by_cases hfirst : id ∈ ids
      · exact Or.inl ⟨hfirst, s, hs, hu⟩
      · exact Or.inr ⟨hm.resolve_left hfirst, s, ⟨hs, hfirst⟩, hu⟩
  ended t := by
    rw [h'.ended, h.ended, or_assoc]
    refine or_congr_right ?_
    simp only [h.sessions, List.mem_append]
    constructor
    · rintro (⟨id, hm, hs⟩ | ⟨id, hm, s, ⟨hs, _⟩, ht⟩)
      · exact ⟨id, Or.inl hm, hs⟩
      · exact ⟨id, Or.inr hm, s, hs, ht⟩
    · rintro ⟨id, hm, s, hs, ht⟩
      by_cases hfirst : id ∈ ids
      · exact Or.inl ⟨id, hfirst, s, hs, ht⟩
      · exact Or.inr ⟨id, hm.resolve_left hfirst, s, ⟨hs, hfirst⟩, ht⟩

theorem sweepOne_foldl (ids : List Uuid) (acc : List Session × SessionManager) :
    Swept ids acc (ids.foldl SessionManager.sweepOne acc) := by
  induction ids generalizing acc with
  | nil => exact swept_nil acc
  | cons k ks ih => exact (sweepOne_swept acc k).append (ih _)

theorem sweepExpired_sessions {id : Uuid} {s : Session} :
    (m.sweepExpired now).2.sessions.lookup id = some s ↔
      m.sessions.lookup id = some s ∧ s.isExpired now = false := by
  unfold SessionManager.sweepExpired
  rw [(sweepOne_foldl _ _).sessions, mem_keysWhere]
  refine and_congr_right fun hl => ?_
  simp [hl]

theorem sweepExpired_perUser {u : String} {id : Uuid} :
    (m.sweepExpired now).2.perUser.lookup u = some id ↔
      m.perUser.lookup u = some id ∧
        ¬ ∃ s, m.sessions.lookup id = some s ∧ s.isExpired now = true ∧ s.userId = u := by
  unfold SessionManager.sweepExpired
  rw [(sweepOne_foldl _ _).perUser, mem_keysWhere]
  refine and_congr_right fun _ => not_congr ?_
  constructor
  · rintro ⟨⟨s, hs, he⟩, t, ht, hu⟩
    rw [hs] at ht
    cases ht
    exact ⟨s, hs, he, hu⟩
  · rintro ⟨s, hs, he, hu⟩
    exact ⟨⟨s, hs, he⟩, s, hs, hu⟩

theorem mem_sweepExpired {t : Session} :
    t ∈ (m.sweepExpired now).1 ↔ ∃ id s, m.sessions.lookup id = some s ∧
      s.isExpired now = true ∧ t = { s with status := .ended } := by
  unfold SessionManager.sweepExpired
  rw [(sweepOne_foldl _ _).ended]
  simp only [List.not_mem_nil, false_or, mem_keysWhere]
  constructor
  · rintro ⟨id, ⟨s, hs, he⟩, t', ht', rfl⟩
    rw [hs] at ht'
    cases ht'
    exact ⟨id, s, hs, he, rfl⟩
  · rintro ⟨id, s, hs, he, rfl⟩
    exact ⟨id, ⟨s, hs, he⟩, s, hs, rfl⟩

/-- Where a session of the map after an operation comes from. -/
inductive Origin (sha256 : String → Digest) (m : SessionManager) (now : Clock) (o : ManagerOp)
    (id : Uuid) : Session → Prop where
  | kept {s} : m.sessions.lookup id = some s → Origin sha256 m now o id s
  | created {a ttl} : o = .create a → a.id = id →
      m.checkRequest a.scenarioId a.ttlOverride = .ok ttl → m.liveHolder now a.userId = none →
      Origin sha256 m now o id
        (Session.new sha256 a.id now a.userId a.tenantId a.scenarioId ttl)
  | updated {userId u s} : o = .update id userId u → m.sessions.lookup id = some s →
      s.userId = userId → Origin sha256 m now o id (u.apply now s).2
  | touched {userId s} : o = .touchAction id userId → m.sessions.lookup id = some s →
      s.userId = userId → Origin sha256 m now o id { s with lastActionAt := some now.mono }

theorem run_origin {o : ManagerOp} {id : Uuid} {s : Session}
    (h : (o.run sha256 m now).2.sessions.lookup id = some s) : Origin sha256 m now o id s := by
  cases o with
  | create a =>
    rcases create_cases sha256 m now a with
      ⟨e, he⟩ | ⟨ttl, hc, hl, he⟩
    · simp only [ManagerOp.run, he] at h
      exact .kept h
    · simp only [ManagerOp.run, he, lookup_insert_iff] at h
      rcases h with ⟨rfl, rfl⟩ | ⟨_, h⟩
      · exact .created rfl rfl hc hl
      · exact .kept h
  | update j userId u =>
    rcases update_cases (m := m) j userId (u.apply now) with ⟨e, he⟩ | ⟨t, ht, hu, he⟩
    · simp only [ManagerOp.run, he] at h
      exact .kept h
    · simp only [ManagerOp.run, he, lookup_insert_iff] at h
      rcases h with ⟨rfl, rfl⟩ | ⟨_, h⟩
      · exact .updated rfl ht hu
      · exact .kept h
  | endSession j userId =>
    rcases endSession_cases (m := m) j userId with ⟨e, he⟩ | ⟨t, ht, hu, he⟩
    · simp only [ManagerOp.run, he] at h
      exact .kept h
    · simp only [ManagerOp.run, he, lookup_erase_iff] at h
      exact .kept h.2
  | touchAction j userId =>
    rcases touchAction_cases m now j userId with ⟨e, he⟩ | ⟨t, ht, hu, he⟩
    · simp only [ManagerOp.run, he] at h
      exact .kept h
    · simp only [ManagerOp.run, he, lookup_insert_iff] at h
      rcases h with ⟨rfl, rfl⟩ | ⟨_, h⟩
      · exact .touched rfl ht hu
      · exact .kept h
  | sweepExpired =>
    simp only [ManagerOp.run, sweepExpired_sessions] at h
    exact .kept h.1
  | get => exact .kept h
  | getUserSession => exact .kept h
  | liveNamespaces => exact .kept h
  | liveShuttles => exact .kept h

/-- An index entry survives unless its user creates a session, or its session ends or
expires. -/
theorem run_perUser_kept {o : ManagerOp} {u : String} {id : Uuid}
    (hp : m.perUser.lookup u = some id)
    (hkeep : (o.run sha256 m now).2.sessions.lookup id ≠ none)
    (hlive : ∀ a, o = .create a → a.userId = u → (m.create sha256 now a).2 = m) :
    (o.run sha256 m now).2.perUser.lookup u = some id := by
  cases o with
  | create a =>
    by_cases hu : a.userId = u
    · simpa only [ManagerOp.run, hlive a rfl hu] using hp
    · rcases create_cases sha256 m now a with
        ⟨e, he⟩ | ⟨ttl, hc, hl, he⟩
      · simpa only [ManagerOp.run, he] using hp
      · simp only [ManagerOp.run, he, lookup_insert_iff, lookup_erase_iff]
        exact Or.inr ⟨fun e => hu e.symm, fun e => hu e.symm, hp⟩
  | update j userId f =>
    rcases update_cases (m := m) j userId (f.apply now) with ⟨e, he⟩ | ⟨t, ht, hu, he⟩ <;>
      simpa only [ManagerOp.run, he] using hp
  | endSession j userId =>
    rcases endSession_cases (m := m) j userId with ⟨e, he⟩ | ⟨t, ht, hu, he⟩
    · simpa only [ManagerOp.run, he] using hp
    · simp only [ManagerOp.run, he] at hkeep ⊢
      rw [dropPointer_lookup]
      refine ⟨hp, ?_⟩
      rintro ⟨_, rfl⟩
      exact hkeep (AList.lookup_erase _ _)
  | touchAction j userId =>
    rcases touchAction_cases m now j userId with ⟨e, he⟩ | ⟨t, ht, hu, he⟩ <;>
      simpa only [ManagerOp.run, he] using hp
  | sweepExpired =>
    simp only [ManagerOp.run] at hkeep ⊢
    rw [sweepExpired_perUser]
    refine ⟨hp, ?_⟩
    rintro ⟨t, ht, hx, _⟩
    obtain ⟨v, hv⟩ := Option.ne_none_iff_exists'.mp hkeep
    obtain ⟨hv, hnx⟩ := sweepExpired_sessions.mp hv
    rw [ht] at hv
    cases hv
    rw [hx] at hnx
    cases hnx
  | get => exact hp
  | getUserSession => exact hp
  | liveNamespaces => exact hp
  | liveShuttles => exact hp

def Clamped (ttl : ℕ) : Prop := minTtl ≤ ttl ∧ ttl ≤ maxTtl

theorem effective_defaultTtl (configured : ℕ) :
    Clamped ((clampTtl configured).toOption.getD PlaygroundSessions.defaultTtl) := by
  cases h : clampTtl configured with
  | error e =>
    have hnone : (Except.error e : Except SessionError ℕ).toOption = none := rfl
    rw [hnone, Option.getD_none]
    exact ⟨by decide, by decide⟩
  | ok t =>
    obtain ⟨rfl, hbounds⟩ := clampTtl_bounds h
    exact hbounds

theorem checkRequest_clamped {scenarioId : String} {ttlOverride : Option ℕ} {ttl : ℕ}
    (hm : Clamped m.defaultTtl) (h : m.checkRequest scenarioId ttlOverride = .ok ttl) :
    Clamped ttl := by
  unfold SessionManager.checkRequest at h
  split at h
  · cases h
  · split at h
    · cases h
    · cases ttlOverride with
      | none =>
        cases h
        exact hm
      | some t =>
        obtain ⟨rfl, hbounds⟩ := clampTtl_bounds h
        exact hbounds

theorem sweepOne_foldl_defaultTtl (ids : List Uuid) (acc : List Session × SessionManager) :
    (ids.foldl SessionManager.sweepOne acc).2.defaultTtl = acc.2.defaultTtl := by
  induction ids generalizing acc with
  | nil => rfl
  | cons k ks ih =>
    rw [List.foldl_cons, ih]
    unfold SessionManager.sweepOne
    split <;> rfl

theorem run_defaultTtl (o : ManagerOp) :
    (o.run sha256 m now).2.defaultTtl = m.defaultTtl := by
  cases o with
  | create a =>
    rcases create_cases sha256 m now a with
      ⟨e, he⟩ | ⟨ttl, _, _, he⟩ <;> simp only [ManagerOp.run, he]
  | update id userId u =>
    rcases update_cases (m := m) id userId (u.apply now) with ⟨e, he⟩ | ⟨s, _, _, he⟩ <;>
      simp only [ManagerOp.run, he]
  | endSession id userId =>
    rcases endSession_cases (m := m) id userId with ⟨e, he⟩ | ⟨s, _, _, he⟩ <;>
      simp only [ManagerOp.run, he]
  | touchAction id userId =>
    rcases touchAction_cases m now id userId with ⟨e, he⟩ | ⟨s, _, _, he⟩ <;>
      simp only [ManagerOp.run, he]
  | sweepExpired => exact sweepOne_foldl_defaultTtl _ _
  | get => rfl
  | getUserSession => rfl
  | liveNamespaces => rfl
  | liveShuttles => rfl

theorem hydrate_lookup {rows : List SessionRow} (acc : HashMap Uuid Session × HashMap String Uuid)
    (hids : rows.Pairwise fun r r' => r.id ≠ r'.id) {id : Uuid} {s : Session} :
    (rows.foldl (hydrateRow now) acc).1.lookup id = some s ↔
      (acc.1.lookup id = some s ∧ ∀ r ∈ rows, r.dropped now = false → r.id ≠ id) ∨
      ∃ r ∈ rows, r.dropped now = false ∧ r.id = id ∧ s = r.restore now := by
  induction rows generalizing acc with
  | nil => simp
  | cons r rest ih =>
    obtain ⟨hr, hrest⟩ := List.pairwise_cons.mp hids
    rw [List.foldl_cons, ih _ hrest]
    by_cases hd : r.dropped now = true
    · simp [hydrateRow, hd]
    · have hd' : r.dropped now = false := by simpa using hd
      simp only [hydrateRow, hd', Bool.false_eq_true, if_false, lookup_insert_iff,
        List.forall_mem_cons, List.exists_mem_cons_iff, true_and, forall_const]
      constructor
      · rintro (⟨⟨rfl, rfl⟩ | ⟨hne, hl⟩, hn⟩ | h)
        · exact Or.inr (Or.inl ⟨rfl, rfl⟩)
        · exact Or.inl ⟨hl, fun e => hne e.symm, hn⟩
        · exact Or.inr (Or.inr h)
      · rintro (⟨hl, hne, hn⟩ | ⟨rfl, rfl⟩ | h)
        · exact Or.inl ⟨Or.inr ⟨fun e => hne e.symm, hl⟩, hn⟩
        · exact Or.inl ⟨Or.inl ⟨rfl, rfl⟩, fun r' hr' _ e => hr r' hr' e.symm⟩
        · exact Or.inr h

theorem hydrate_pointed {rows : List SessionRow}
    (acc : HashMap Uuid Session × HashMap String Uuid) {u : String} {id : Uuid}
    (h : (rows.foldl (hydrateRow now) acc).2.lookup u = some id) :
    acc.2.lookup u = some id ∨
      ∃ r ∈ rows, r.dropped now = false ∧ r.userId = u ∧ r.id = id := by
  induction rows generalizing acc with
  | nil => exact Or.inl h
  | cons r rest ih =>
    rw [List.foldl_cons] at h
    rcases ih _ h with h | ⟨r', hr', hkept⟩
    · by_cases hd : r.dropped now = true
      · simp only [hydrateRow, hd, if_true] at h
        exact Or.inl h
      · have hd' : r.dropped now = false := by simpa using hd
        simp only [hydrateRow, hd', Bool.false_eq_true, if_false, lookup_insert_iff] at h
        rcases h with ⟨rfl, rfl⟩ | ⟨_, h⟩
        · exact Or.inr ⟨r, List.mem_cons_self, hd', rfl, rfl⟩
        · exact Or.inl h
    · exact Or.inr ⟨r', List.mem_cons_of_mem _ hr', hkept⟩

/-- The user of a kept row stays in the rebuilt index, whichever row comes last. -/
theorem hydrate_pointer {rows : List SessionRow}
    (acc : HashMap Uuid Session × HashMap String Uuid) {u : String}
    (h : acc.2.lookup u ≠ none ∨ ∃ r ∈ rows, r.dropped now = false ∧ r.userId = u) :
    (rows.foldl (hydrateRow now) acc).2.lookup u ≠ none := by
  induction rows generalizing acc with
  | nil => simpa using h
  | cons r rest ih =>
    rw [List.foldl_cons]
    apply ih
    by_cases hd : r.dropped now = true
    · simp only [hydrateRow, hd, if_true]
      simpa [hd] using h
    · have hd' : r.dropped now = false := by simpa using hd
      simp only [hydrateRow, hd', Bool.false_eq_true, if_false]
      by_cases hu : u = r.userId
      · subst hu
        simp
      · rw [AList.lookup_insert_ne hu]
        rcases h with h | ⟨r', hr', hkept, hru⟩
        · exact Or.inl h
        · rcases List.mem_cons.mp hr' with rfl | hr'
          · exact absurd hru.symm hu
          · exact Or.inr ⟨r', hr', hkept, hru⟩

structure WellFormed (sha256 : String → Digest) (id : Uuid) (s : Session) : Prop where
  id : s.id = id
  status : s.status ≠ .ended
  namespaceName : s.namespaceName = deriveNamespace sha256 s.userId s.id
  shuttleName : s.shuttleName = deriveShuttle sha256 s.userId s.id
  connectionName : s.connectionName = deriveConnection s.shuttleName

theorem WellFormed.same {id : Uuid} {s t : Session} (h : WellFormed sha256 id s)
    (hst : SameSession s t) (hne : t.status ≠ .ended) : WellFormed sha256 id t where
  id := hst.id.trans h.id
  status := hne
  namespaceName := by rw [hst.namespaceName, hst.userId, hst.id, h.namespaceName]
  shuttleName := by rw [hst.shuttleName, hst.userId, hst.id, h.shuttleName]
  connectionName := by rw [hst.connectionName, hst.shuttleName, h.connectionName]

theorem op_wellFormed (h : ∀ id s, m.sessions.lookup id = some s → WellFormed sha256 id s)
    (o : ManagerOp) (id : Uuid) (s : Session)
    (hs : (o.run sha256 m now).2.sessions.lookup id = some s) : WellFormed sha256 id s := by
  cases run_origin hs with
  | kept hk => exact h id s hk
  | created ho hid hc hl => exact ⟨hid, by simp [Session.new], rfl, rfl, rfl⟩
  | updated ho hk hu =>
    exact (h id _ hk).same (apply_same _ _ _) (apply_not_ended (h id _ hk).status)
  | touched ho hk hu =>
    exact (h id _ hk).same ⟨rfl, rfl, rfl, rfl, rfl, rfl⟩ (h id _ hk).status

theorem rows_distinct (h : ∀ id s, m.sessions.lookup id = some s → s.id = id)
    {b : Reboot} (hb : b.rows.Perm m.rows) : b.rows.Pairwise fun r r' => r.id ≠ r'.id := by
  refine hb.symm.pairwise ?_ fun hne => Ne.symm hne
  exact List.pairwise_map.mpr (values_pairwise h)

theorem mem_rows (h : ∀ id s, m.sessions.lookup id = some s → s.id = id) {b : Reboot}
    (hb : b.rows.Perm m.rows) {r : SessionRow} :
    r ∈ b.rows ↔ ∃ t, m.sessions.lookup r.id = some t ∧ r = toRow t := by
  rw [hb.mem_iff]
  constructor
  · intro hr
    obtain ⟨t, ht, rfl⟩ := List.mem_map.mp hr
    obtain ⟨id, hid⟩ := mem_values.mp ht
    have hkey : t.id = id := h id t hid
    exact ⟨t, by rw [← hkey] at hid; exact hid, rfl⟩
  · rintro ⟨t, ht, rfl⟩
    exact List.mem_map.mpr ⟨t, mem_values.mpr ⟨_, ht⟩, rfl⟩

/-- A restart keeps exactly the sessions that are neither ended nor past their deadline, each as
its row. -/
theorem boot_keeps (h : ∀ id s, m.sessions.lookup id = some s → s.id = id)
    {b : Reboot} (hb : b.rows.Perm m.rows) {id : Uuid} {s : Session} :
    (b.boot now).sessions.lookup id = some s ↔
      ∃ t, m.sessions.lookup id = some t ∧ (toRow t).dropped now = false ∧
        s = (toRow t).restore now := by
  simp only [Reboot.boot, SessionManager.newWithPersistence, hydrateFromDisk, Option.getD_some]
  rw [hydrate_lookup _ (rows_distinct h hb)]
  simp only [AList.lookup_empty, reduceCtorEq, false_and, false_or, mem_rows h hb]
  constructor
  · rintro ⟨r, ⟨t, ht, rfl⟩, hd, rfl, rfl⟩
    exact ⟨t, ht, hd, rfl⟩
  · rintro ⟨t, ht, hd, rfl⟩
    have hkey : (toRow t).id = id := h id t ht
    exact ⟨toRow t, ⟨t, by rw [hkey]; exact ht, rfl⟩, hd, hkey, rfl⟩

theorem boot_pointed (h : ∀ id s, m.sessions.lookup id = some s → s.id = id)
    {b : Reboot} (hb : b.rows.Perm m.rows) {u : String} {id : Uuid}
    (hp : (b.boot now).perUser.lookup u = some id) :
    ∃ t, m.sessions.lookup id = some t ∧ (toRow t).dropped now = false ∧ t.userId = u := by
  simp only [Reboot.boot, SessionManager.newWithPersistence, hydrateFromDisk,
    Option.getD_some] at hp
  rcases hydrate_pointed _ hp with hp | ⟨r, hr, hd, hu, rfl⟩
  · simp at hp
  · obtain ⟨t, ht, rfl⟩ := (mem_rows h hb).mp hr
    exact ⟨t, ht, hd, hu⟩

theorem boot_pointer (h : ∀ id s, m.sessions.lookup id = some s → s.id = id)
    {b : Reboot} (hb : b.rows.Perm m.rows) {id : Uuid} {t : Session}
    (ht : m.sessions.lookup id = some t) (hd : (toRow t).dropped now = false) :
    (b.boot now).perUser.lookup t.userId ≠ none := by
  simp only [Reboot.boot, SessionManager.newWithPersistence, hydrateFromDisk, Option.getD_some]
  have hkey : t.id = id := h id t ht
  exact hydrate_pointer _ (Or.inr ⟨toRow t,
    (mem_rows h hb).mpr ⟨t, by rw [show (toRow t).id = id from hkey]; exact ht, rfl⟩, hd, rfl⟩)

theorem boot_lookup (h : ∀ id s, m.sessions.lookup id = some s → WellFormed sha256 id s)
    {b : Reboot} (hb : b.rows.Perm m.rows) {id : Uuid} {s : Session} :
    (b.boot now).sessions.lookup id = some s ↔
      ∃ t, m.sessions.lookup id = some t ∧ now.wall < t.expiresAt ∧
        s = (toRow t).restore now := by
  rw [boot_keeps (fun id s hs => (h id s hs).id) hb]
  constructor
  · rintro ⟨t, ht, hd, rfl⟩
    exact ⟨t, ht, (dropped_false_iff.mp hd).1, rfl⟩
  · rintro ⟨t, ht, hlt, rfl⟩
    exact ⟨t, ht, dropped_false_iff.mpr ⟨hlt, (h id t ht).status⟩, rfl⟩

theorem ManagerRun.wellFormed {guard : SessionManager → Clock → Clock → Event → Prop}
    (h : ManagerRun sha256 guard m now) :
    ∀ id s, m.sessions.lookup id = some s → WellFormed sha256 id s := by
  induction h with
  | start manifest enabled defaultTtl now => simp [SessionManager.new]
  | op o now _ _ _ ih => exact op_wellFormed ih o
  | restart b now _ _ hb _ ih =>
    intro id s hs
    obtain ⟨t, ht, _, rfl⟩ := (boot_lookup ih hb).mp hs
    exact (ih id t ht).same ⟨rfl, rfl, rfl, rfl, rfl, rfl⟩ (ih id t ht).status

-- One scenario and one user, for runs that are written out.
def atSecond (n : ℕ) : Clock := ⟨fromSecs n, fromSecs n⟩

def oneScenario : Manifest :=
  { version := 1
    sources := []
    scenarios := [{
      id := "mongo-cdc"
      sourceId := "mongo"
      deployment := []
      initSql := none
      shuttleSql := none
      actions := []
      breakScenarios := [] }] }

def createFor (id : Uuid) : ManagerOp := .create ⟨id, "u1", none, "mongo-cdc", some minTtl⟩

def oneSession : SessionManager :=
  ((createFor 1).run (fun _ => 0) (.new oneScenario true defaultTtl) (atSecond 0)).2

def firstSession : Session :=
  .new (fun _ => 0) 1 (atSecond 0) "u1" none "mongo-cdc" minTtl

theorem oneSession_lookup : oneSession.sessions.lookup 1 = some firstSession := rfl

theorem oneSession_run {guard : SessionManager → Clock → Clock → Event → Prop}
    (hg : guard (.new oneScenario true defaultTtl) (atSecond 0) (atSecond 0) (.op (createFor 1))) :
    ManagerRun (fun _ => 0) guard oneSession (atSecond 0) :=
  .op _ _ (.start oneScenario true defaultTtl (atSecond 0)) (by decide) hg

end PlaygroundManagerRuns
