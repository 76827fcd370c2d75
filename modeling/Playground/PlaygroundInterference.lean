import Playground.PlaygroundHandlers
import Playground.PlaygroundServer

/-! # One handler among others

What the others may do to the map between two operations of the handler is a relation, closed
under doing nothing and under doing two things in a row. -/
namespace PlaygroundInterference

open InteractionPrograms
open PlaygroundApiClient (Identity)
open PlaygroundHandlers
open PlaygroundManagerRuns
open PlaygroundOperations
open PlaygroundServer
open PlaygroundSessionManager
open PlaygroundSessions

def Reads : Op → Prop
  | .manager _ => False
  | _ => True

instance : Lenient Reads where
  quiet {op} h := by
    cases op with
    | manager o => exact h.elim
    | _ => trivial

instance : AllowsOthers Reads := ⟨fun _ => trivial⟩

instance (identity : Identity) : AllowsCaller identity Reads := ⟨fun _ => trivial⟩

variable (sha256 : String → Digest) (outside : Outside)
  (others : SessionManager → SessionManager → Prop)

def amongStep : Semantics Op Op.Result ServerState := fun s op r s' =>
  ∃ mid, others s.manager mid.manager ∧ ServerStep sha256 outside mid op r s'

variable {sha256 outside others} {env : ServerEnv} {identity : Identity} {id : Uuid}
  {s s' t : ServerState}

theorem step_reads {op : Op} {r : op.Result} (hop : Reads op)
    (h : amongStep sha256 outside others s op r s') : others s.manager s'.manager := by
  obtain ⟨mid, hmid, hstep⟩ := h
  rw [step_manager hstep]
  · exact hmid
  · rintro o rfl
    exact hop

theorem locked_completes {o : ManagerOp} {r : o.Result}
    (h : (locked o).Completes (amongStep sha256 outside others) s r t) :
    ∃ m now, others s.manager m ∧ r = (o.run sha256 m now).1 ∧
      t.manager = (o.run sha256 m now).2 := by
  obtain ⟨found, s₁, ⟨mid, hmid, now, -, hfound, rfl⟩, h⟩ := Program.completes_request h
  obtain ⟨rfl, rfl⟩ := Program.completes_done h
  exact ⟨mid.manager, now, hmid, hfound, rfl⟩

variable [IsPreorder SessionManager others]

theorem completes_reads {α : Type} {p : Handler α} {a : α}
    (h : p.Completes (amongStep sha256 outside others) s a t)
    (hp : p.Always (fun _ _ => True) Reads) : others s.manager t.manager :=
  h.keeps (Q := fun u => others s.manager u.manager) hp
    (fun _ _ _ _ hop hs hu => trans_of others hu (step_reads hop hs)) (refl_of others _)

theorem create_completes {a : SessionManager.CreateArgs} {r : Except SessionError Session}
    (h : (create env a).Completes (amongStep sha256 outside others) s r t) :
    ∃ m now, others s.manager m ∧ r = (m.create sha256 now a).1 ∧
      others (m.create sha256 now a).2 t.manager := by
  obtain ⟨found, s₁, hlocked, h⟩ := Program.completes_bind h
  obtain ⟨m, now, hm, hfound, hafter⟩ := locked_completes hlocked
  refine ⟨m, now, hm, ?_⟩
  rw [show (m.create sha256 now a).2 = s₁.manager from hafter.symm]
  cases found with
  | error e =>
    obtain ⟨rfl, rfl⟩ := Program.completes_done h
    exact ⟨hfound, refl_of others _⟩
  | ok session =>
    obtain ⟨_, s₂, hpersist, h⟩ := Program.completes_bind h
    obtain ⟨rfl, rfl⟩ := Program.completes_done h
    exact ⟨hfound, completes_reads hpersist persist_ops⟩

theorem update_completes {userId : String} {u : SessionUpdate}
    {r : Except SessionError UpdateOutcome}
    (h : (update env id userId u).Completes (amongStep sha256 outside others) s r t) :
    ∃ m now, others s.manager m ∧ r = (m.update id userId (u.apply now)).1 ∧
      others (m.update id userId (u.apply now)).2 t.manager := by
  obtain ⟨outcome, s₁, hlocked, h⟩ := Program.completes_bind h
  obtain ⟨m, now, hm, houtcome, hafter⟩ := locked_completes hlocked
  refine ⟨m, now, hm, ?_⟩
  rw [show (m.update id userId (u.apply now)).2 = s₁.manager from hafter.symm]
  have hdone : ∀ {o : UpdateOutcome}, outcome = .ok o →
      (persist env >>= fun _ => .done (.ok o)).Completes (amongStep sha256 outside others) s₁ r t →
      r = (m.update id userId (u.apply now)).1 ∧ others s₁.manager t.manager := by
    intro o ho h
    obtain ⟨_, s₂, hpersist, h⟩ := Program.completes_bind h
    obtain ⟨rfl, rfl⟩ := Program.completes_done h
    exact ⟨ho.symm.trans houtcome, completes_reads hpersist persist_ops⟩
  rcases outcome with e | o | message | _
  · obtain ⟨rfl, rfl⟩ := Program.completes_done h
    exact ⟨houtcome, refl_of others _⟩
  · exact hdone rfl h
  · exact hdone rfl h
  · obtain ⟨rfl, rfl⟩ := Program.completes_done h
    exact ⟨houtcome, refl_of others _⟩

/-- A snapshot that cannot be written ends the persist, and the sessions stay as they are. -/
theorem persist_completes (env : ServerEnv) (s : ServerState) :
    (persist env).Completes (amongStep sha256 outside others) s () s := by
  unfold persist
  cases env.persistencePath with
  | none => exact .done () s
  | some path =>
    have hsnapshot : amongStep sha256 outside others s .snapshot s.manager.rows s :=
      ⟨s, refl_of others _, rfl, rfl⟩
    have hwrite : amongStep sha256 outside others s (.writeTmp s.manager.rows) false s :=
      ⟨s, refl_of others _, Or.inr ⟨rfl, s.tmp, rfl⟩⟩
    exact .step hsnapshot (.step hwrite (.done () s))

/-- A stored session is replaced by what the closure makes of it, if the others do nothing. -/
theorem update_runs (env : ServerEnv) {userId : String} {x : Session} {u : SessionUpdate}
    (hx : s.manager.sessions.lookup id = some x) (hu : x.userId = userId)
    (hdone : (u.apply s.clock x).1 = .done) :
    ∃ t, (update env id userId u).Completes (amongStep sha256 outside others) s (.ok .done) t ∧
      t.manager.sessions.lookup id = some (u.apply s.clock x).2 := by
  let after : ServerState := { s with
    manager := { s.manager with sessions := s.manager.sessions.insert id (u.apply s.clock x).2 } }
  have hupdate : s.manager.update id userId (u.apply s.clock) = (.ok .done, after.manager) := by
    simp [after, SessionManager.update, hx, hu, hdone]
  have hlocked : amongStep sha256 outside others s (.manager (.update id userId u)) (.ok .done)
      after := by
    refine ⟨s, refl_of others _, s.clock, Clock.le_refl _, ?_, ?_⟩
    · exact (congrArg Prod.fst hupdate).symm
    · rw [ManagerOp.run, hupdate]
  refine ⟨after, .step hlocked ?_, AList.lookup_insert _⟩
  exact (persist_completes env after).bind (.done _ after)

section Alone

def answering : Outside := ⟨fun _ c r => r = accepted c, fun _ => [], fun _ _ => false⟩

def perform (s : ServerState) : (op : Op) → op.Result × ServerState
  | .manager o => ((o.run (fun _ => 0) s.manager s.clock).1,
      { s with manager := (o.run (fun _ => 0) s.manager s.clock).2 })
  | .snapshot => (s.manager.rows, s)
  | .writeTmp rows => (true, { s with tmp := some (some rows) })
  | .renameTmp =>
    match s.tmp with
    | none => (false, s)
    | some content => (true, { s with file := some content, tmp := none })
  | .tryConsume _ => (.ok 1, s)
  | .metric _ => ((), s)
  | .readClock => (s.clock, s)
  | .actionStart _ _ => ((), s)
  | .external c => (accepted c, { s with world := answering.effect s.world c })

theorem perform_serverStep (s : ServerState) (op : Op) :
    ServerStep (fun _ => 0) answering s op (perform s op).1 (perform s op).2 := by
  cases op with
  | manager o => exact ⟨s.clock, Clock.le_refl _, rfl, rfl⟩
  | snapshot => exact ⟨rfl, rfl⟩
  | writeTmp rows => exact Or.inl ⟨rfl, rfl⟩
  | renameTmp =>
    unfold perform
    cases htmp : s.tmp with
    | none => exact Or.inr ⟨rfl, rfl⟩
    | some content => exact Or.inl ⟨rfl, content, htmp, rfl⟩
  | tryConsume | metric => rfl
  | readClock => exact ⟨Clock.le_refl _, rfl⟩
  | actionStart => exact ⟨s.clock, Clock.le_refl _, rfl⟩
  | external c => exact ⟨rfl, _, Or.inl rfl, rfl⟩

theorem perform_completes {α : Type} (p : Handler α) (s : ServerState) :
    p.Completes (amongStep (fun _ => 0) answering others) s (p.eval perform s).1
      (p.eval perform s).2 :=
  Program.eval_completes (fun s op => ⟨s, refl_of others _, perform_serverStep s op⟩) p s

end Alone

end PlaygroundInterference
