import Mathlib.Data.List.DropRight
import Playground.PlaygroundManagerRuns

/-! # The event log of a session

A session keeps its last events. Beside the code goes the log of everything that was recorded for
the session, which never drops anything; the stored events are its end, also across restarts. -/
namespace PlaygroundEventLog

open PlaygroundManagerRuns
open PlaygroundSessionManager
open PlaygroundSessions

abbrev Log := Uuid → List SessionEvent

def SessionUpdate.event (now : Clock) (s : Session) : SessionUpdate → List SessionEvent
  | .record kind message actionId success => [⟨now.wall, kind, message s, actionId, success⟩]
  | .resetStart => [⟨now.wall, "reset-start",
      "user-triggered reset — dropping + recreating shuttle", none, some true⟩]
  | .resetComplete => [⟨now.wall, "reset-complete", "reset finished", none, some true⟩]
  | .sessionCreated => [⟨now.wall, "session-created",
      "namespace=" ++ s.namespaceName ++ " shuttle=" ++ s.shuttleName ++ " scenario=" ++
        s.scenarioId, none, some true⟩]
  | .extend _ => []

def Log.after (sha256 : String → Digest) (m : SessionManager) (now : Clock) (log : Log) :
    ManagerOp → Log
  | .create a =>
    match (m.create sha256 now a).1 with
    | .ok _ => Function.update log a.id []
    | .error _ => log
  | .update id userId u =>
    match m.get id userId with
    | .ok s => Function.update log id (log id ++ SessionUpdate.event now s u)
    | .error _ => log
  | _ => log

variable (sha256 : String → Digest)

inductive LoggedRun (guard : SessionManager → Clock → Clock → Event → Prop) :
    SessionManager → Clock → Log → Prop where
  | start (manifest : PlaygroundManifest.Manifest) (enabled : Bool) (defaultTtl : ℕ) (now : Clock)
      (log : Log) : LoggedRun guard (.new manifest enabled defaultTtl) now log
  | op {m t log} (o : ManagerOp) (now : Clock) : LoggedRun guard m t log → t ≤ now →
      guard m t now (.op o) →
      LoggedRun guard (o.run sha256 m now).2 now (Log.after sha256 m now log o)
  | restart {m t log} (b : Reboot) (now : Clock) : LoggedRun guard m t log → t.wall ≤ now.wall →
      b.rows.Perm m.rows → guard m t now (.restart b) → LoggedRun guard (b.boot now) now log

variable {sha256} {guard : SessionManager → Clock → Clock → Event → Prop} {m : SessionManager}
  {t now : Clock} {log : Log} {id : Uuid} {s : Session}

theorem ManagerRun.logged (h : ManagerRun sha256 guard m t) :
    ∃ log, LoggedRun sha256 guard m t log := by
  induction h with
  | start manifest enabled defaultTtl now =>
    exact ⟨fun _ => [], .start manifest enabled defaultTtl now _⟩
  | op o now _ hle hguard ih =>
    obtain ⟨log, hlog⟩ := ih
    exact ⟨_, hlog.op o now hle hguard⟩
  | restart b now _ hle hrows hguard ih =>
    obtain ⟨log, hlog⟩ := ih
    exact ⟨log, hlog.restart b now hle hrows hguard⟩

theorem LoggedRun.run (h : LoggedRun sha256 guard m t log) : ManagerRun sha256 guard m t := by
  induction h with
  | start manifest enabled defaultTtl now => exact .start manifest enabled defaultTtl now
  | op o now _ hle hguard ih => exact ih.op o now hle hguard
  | restart b now _ hle hrows hguard ih => exact ih.restart b now hle hrows hguard

section Windows

variable {α : Type} {l : List α} {x : α} {n : ℕ}

/-- Bounding a list that is already bounded loses nothing more. -/
theorem rtake_push (hn : 0 < n) : (l.rtake n ++ [x]).rtake n = (l ++ [x]).rtake n := by
  obtain ⟨k, rfl⟩ := Nat.exists_eq_succ_of_ne_zero hn.ne'
  rw [List.rtake_concat_succ, List.rtake_concat_succ]
  congr 1
  simp only [List.rtake, List.length_drop, List.drop_drop]
  congr 1
  omega

end Windows

section Steps

/-- The stored events are the end of the log, which is in the order of time and starts with the
session. -/
structure KeepsLog (t : Clock) (events : List SessionEvent) (s : Session) : Prop where
  stored : s.events = events.rtake Session.maxEvents
  sorted : events.Pairwise fun e e' => e.at_ ≤ e'.at_
  recent : ∀ e ∈ events, s.createdAt ≤ e.at_ ∧ e.at_ ≤ t.wall
  created : s.createdAt ≤ t.wall

variable {events : List SessionEvent}

theorem KeepsLog.later (h : KeepsLog t events s) (hle : t.wall ≤ now.wall) :
    KeepsLog now events s where
  stored := h.stored
  sorted := h.sorted
  recent e he := ⟨(h.recent e he).1, (h.recent e he).2.trans hle⟩
  created := h.created.trans hle

theorem KeepsLog.same {s' : Session} (h : KeepsLog t events s) (hevents : s'.events = s.events)
    (hcreated : s'.createdAt = s.createdAt) : KeepsLog t events s' where
  stored := hevents.trans h.stored
  sorted := h.sorted
  recent e he := hcreated ▸ h.recent e he
  created := hcreated ▸ h.created

theorem KeepsLog.record {s' : Session} {e : SessionEvent} (h : KeepsLog now events s)
    (hevents : s'.events = (s.events ++ [e]).rtake Session.maxEvents) (hat : e.at_ = now.wall)
    (hcreated : s'.createdAt = s.createdAt) : KeepsLog now (events ++ [e]) s' where
  stored := by
    rw [hevents, h.stored]
    exact rtake_push (by decide)
  sorted := by
    refine List.pairwise_append.mpr ⟨h.sorted, List.pairwise_singleton _ _, ?_⟩
    intro a ha b hb
    rw [List.mem_singleton.mp hb, hat]
    exact (h.recent a ha).2
  recent a ha := by
    rw [hcreated]
    rcases List.mem_append.mp ha with ha | ha
    · exact h.recent a ha
    · rw [List.mem_singleton.mp ha, hat]
      exact ⟨h.created, le_refl _⟩
  created := hcreated ▸ h.created

theorem record_rtake (s : Session) (now : Clock) (kind message : String) (actionId : Option String)
    (success : Option Bool) : (s.record now kind message actionId success).events =
      (s.events ++ [(⟨now.wall, kind, message, actionId, success⟩ : SessionEvent)]).rtake
        Session.maxEvents := by
  simp only [Session.record, List.rtake]

theorem apply_createdAt (u : SessionUpdate) : (u.apply now s).2.createdAt = s.createdAt :=
  apply_keeps (fun _ _ _ _ _ => rfl) now u s

theorem apply_keepsLog (u : SessionUpdate) (h : KeepsLog now events s) :
    KeepsLog now (events ++ SessionUpdate.event now s u) (u.apply now s).2 := by
  cases u with
  | extend extra =>
    rw [SessionUpdate.event, List.append_nil]
    refine h.same ?_ (apply_createdAt _)
    cases he : s.extend now extra with
    | mk o s' =>
      simp only [SessionUpdate.apply, he]
      by_cases ho : o = .done
      · subst ho
        obtain ⟨_, rfl⟩ := extend_done he
        rfl
      · rw [extend_unchanged he ho]
  | record | resetStart | resetComplete | sessionCreated =>
    refine h.record ?_ ?_ (apply_createdAt _)
    · simp only [SessionUpdate.apply, record_rtake]
    · rfl

end Steps

section Runs

def Logged (m : SessionManager) (t : Clock) (log : Log) : Prop :=
  ∀ id s, m.sessions.lookup id = some s → KeepsLog t (log id) s

/-- The operations that leave the log alone keep or touch the sessions they leave in the map. -/
theorem logged_origin {o : ManagerOp} (h : Logged m now log)
    (hcreate : ∀ a, o ≠ .create a) (hupdate : ∀ i userId u, o ≠ .update i userId u) :
    Logged (o.run sha256 m now).2 now log := by
  intro id s hs
  cases run_origin hs with
  | kept hk => exact h id s hk
  | created ho _ _ _ => exact absurd ho (hcreate _)
  | updated ho _ _ => exact absurd ho (hupdate _ _ _)
  | touched _ hk _ => exact (h id _ hk).same rfl rfl

theorem logged_create (a : SessionManager.CreateArgs) (h : Logged m now log) :
    Logged (m.create sha256 now a).2 now (Log.after sha256 m now log (.create a)) := by
  rcases create_cases sha256 m now a with ⟨e, he⟩ | ⟨ttl, -, -, he⟩
  · simp only [Log.after, he]
    exact h
  · simp only [Log.after, he]
    intro id s hs
    rcases HashMaps.lookup_insert_iff.mp hs with ⟨rfl, rfl⟩ | ⟨hne, hs⟩
    · rw [Function.update_self]
      exact ⟨rfl, List.Pairwise.nil, fun e he => absurd he List.not_mem_nil, le_refl now.wall⟩
    · rw [Function.update_of_ne hne]
      exact h id s hs

theorem update_get {R : Type} (i : Uuid) (userId : String) (f : Session → R × Session) :
    (∃ e, m.get i userId = .error e ∧ (m.update i userId f).2 = m) ∨
    (∃ s, m.get i userId = .ok s ∧ m.sessions.lookup i = some s ∧
      (m.update i userId f).2 = { m with sessions := m.sessions.insert i (f s).2 }) := by
  unfold SessionManager.get SessionManager.update
  cases hs : m.sessions.lookup i with
  | none => exact Or.inl ⟨_, rfl, rfl⟩
  | some s =>
    by_cases hu : s.userId = userId
    · exact Or.inr ⟨s, by simp [hu], rfl, by simp [hu]⟩
    · exact Or.inl ⟨.forbidden, by simp [hu], by simp [hu]⟩

theorem logged_update (i : Uuid) (userId : String) (u : SessionUpdate) (h : Logged m now log) :
    Logged (m.update i userId (u.apply now)).2 now
      (Log.after sha256 m now log (.update i userId u)) := by
  rcases update_get (m := m) i userId (u.apply now) with ⟨e, hget, hm⟩ | ⟨s, hget, hs, hm⟩
  · simp only [Log.after, hget, hm]
    exact h
  · simp only [Log.after, hget, hm]
    intro id s' hs'
    rcases HashMaps.lookup_insert_iff.mp hs' with ⟨rfl, rfl⟩ | ⟨hne, hs'⟩
    · rw [Function.update_self]
      exact apply_keepsLog u (h id s hs)
    · rw [Function.update_of_ne hne]
      exact h id s' hs'

theorem logged_step (o : ManagerOp) (h : Logged m now log) :
    Logged (o.run sha256 m now).2 now (Log.after sha256 m now log o) := by
  cases o with
  | create a => exact logged_create a h
  | update i userId u => exact logged_update i userId u h
  | _ => exact logged_origin h (by simp) (by simp)

theorem Logged.later (h : Logged m t log) (hle : t.wall ≤ now.wall) : Logged m now log :=
  fun id s hs => (h id s hs).later hle

theorem logged_boot {b : Reboot}
    (hwell : ∀ id s, m.sessions.lookup id = some s → WellFormed sha256 id s)
    (hrows : b.rows.Perm m.rows) (h : Logged m now log) : Logged (b.boot now) now log := by
  intro id s hs
  obtain ⟨s', hs', -, rfl⟩ := (boot_lookup hwell hrows).mp hs
  exact (h id s' hs').same rfl rfl

theorem LoggedRun.logged (h : LoggedRun sha256 guard m t log) : Logged m t log := by
  induction h with
  | start manifest enabled defaultTtl now log => simp [Logged, SessionManager.new]
  | op o now _ hle _ ih => exact logged_step o (ih.later hle.2)
  | restart b now hrun hle hrows _ ih => exact logged_boot hrun.run.wellFormed hrows (ih.later hle)

/-- In every run, restarts included, a session holds the last events of everything that was ever
recorded for it, in the order of time, none of them from before its creation. -/
theorem log_keeps_latest (h : LoggedRun sha256 guard m t log)
    (hs : m.sessions.lookup id = some s) : KeepsLog t (log id) s :=
  h.logged id s hs

end Runs

section Example

/-- The user's session after an action, and after a restart. -/
def afterAction : SessionManager :=
  ((ManagerOp.update 1 "u1" (.record "action" (fun _ => "done") (some "insert") (some true))).run
    (fun _ => 0) oneSession (atSecond 1)).2

def rebooted : SessionManager :=
  (Reboot.mk afterAction.rows oneScenario true defaultTtl "sessions.json").boot (atSecond 2)

theorem log_keeps_latest_rebooted : ∃ (log : Log) (s : Session),
    rebooted.sessions.lookup 1 = some s ∧ s.events ≠ [] ∧ KeepsLog (atSecond 2) (log 1) s := by
  have hstart : LoggedRun (fun _ => 0) anyEvent (.new oneScenario true defaultTtl) (atSecond 0)
    fun _ => [] := .start _ _ _ _ _
  have hcreate := hstart.op (createFor 1) (atSecond 0) (by decide) trivial
  have haction := hcreate.op (.update 1 "u1" (.record "action" (fun _ => "done") (some "insert")
    (some true))) (atSecond 1) (by decide) trivial
  have hreboot := haction.restart ⟨afterAction.rows, oneScenario, true, defaultTtl,
    "sessions.json"⟩ (atSecond 2) (by decide) (List.Perm.refl _) trivial
  refine ⟨_, (toRow (firstSession.record (atSecond 1) "action" "done" (some "insert")
    (some true))).restore (atSecond 2), rfl, ?_, log_keeps_latest hreboot rfl⟩
  exact List.cons_ne_nil _ _

end Example

end PlaygroundEventLog
