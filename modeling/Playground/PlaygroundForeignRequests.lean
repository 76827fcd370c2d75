import Playground.PlaygroundLiveActions
import Playground.ProofOutlines

/-! # Requests on the session of another user

Every request on a session looks it up under the lock with the id and the user of the caller. A
request of another user ends there, whatever the other handlers do meanwhile. -/
namespace PlaygroundForeignRequests

open InteractionPrograms
open InteractionPrograms.Program
open PlaygroundActions
open PlaygroundApiClient
open PlaygroundHandlers
open PlaygroundLiveActions
open PlaygroundManagerRuns
open PlaygroundOperations
open PlaygroundServer
open PlaygroundSessionManager
open PlaygroundSessions
open ProofOutlines
open ProofOutlines.Contract

inductive Request where
  | get
  | endSession
  | reset
  | extend (seconds : UInt64)
  | action (actionId : String)
  deriving DecidableEq, Repr

def answer {α : Type} (p : Handler (Except Failure α)) : Handler (Except Failure Unit) :=
  p >>= fun r => .done (r.map fun _ => ())

def Request.program (env : ServerEnv) (identity : Identity) (id : Uuid) :
    Request → Handler (Except Failure Unit)
  | .get => answer (getSession env identity id)
  | .endSession => answer (PlaygroundHandlers.endSession env identity id)
  | .reset => answer (resetSession env identity id)
  | .extend seconds => answer (extendSession env identity id seconds)
  | .action actionId => answer (executeAction env identity id actionId)

def OwnedBy (id : Uuid) (owner : String) (m : SessionManager) : Prop :=
  ∀ s, m.sessions.lookup id = some s → s.userId = owner

/-- What a stranger is told: that the session is not theirs or does not exist, or that the
playground is not initialized. -/
def Refused (id : Uuid) (f : Failure) : Prop :=
  f = .session .forbidden ∨ f = .session (.notFound id) ∨ f = notInitialized

/-- An operation that would have to find the session, and leaves the map as it is. -/
def Harmless (sha256 : String → Digest) (s : ServerState) (op : Op) : Prop :=
  ∃ o, op = .manager o ∧ ∀ now, (o.run sha256 s.manager now).2 = s.manager

def OnlyTime (s s' : ServerState) : Prop := s' = { s with clock := s'.clock }

def contract (sha256 : String → Digest) (outside : Outside) (id : Uuid) (owner : String) :
    Contract Op Op.Result ServerState where
  step := ServerStep sha256 outside
  rely s s' := OwnedBy id owner s.manager → OwnedBy id owner s'.manager
  guarantee := OnlyTime
  safe := Harmless sha256

section Lookups

variable {m : SessionManager} {id : Uuid} {owner userId : String} {now : Clock}

def Missed (id : Uuid) (e : SessionError) : Prop := e = .forbidden ∨ e = .notFound id

theorem lookup_foreign (h : OwnedBy id owner m) (hu : userId ≠ owner) :
    m.sessions.lookup id = none ∨ ∃ s, m.sessions.lookup id = some s ∧ s.userId ≠ userId := by
  cases hs : m.sessions.lookup id with
  | none => exact Or.inl rfl
  | some s => exact Or.inr ⟨s, rfl, (h s hs).trans_ne hu.symm⟩

theorem get_foreign (h : OwnedBy id owner m) (hu : userId ≠ owner) :
    ∃ e, m.get id userId = .error e ∧ Missed id e := by
  rcases lookup_foreign h hu with hs | ⟨s, hs, hne⟩
  · exact ⟨_, by simp only [SessionManager.get, hs], Or.inr rfl⟩
  · exact ⟨_, by simp only [SessionManager.get, hs, if_pos hne], Or.inl rfl⟩

theorem update_foreign {R : Type} (h : OwnedBy id owner m) (hu : userId ≠ owner)
    (f : Session → R × Session) : ∃ e, m.update id userId f = (.error e, m) ∧ Missed id e := by
  rcases lookup_foreign h hu with hs | ⟨s, hs, hne⟩
  · exact ⟨_, by simp only [SessionManager.update, hs], Or.inr rfl⟩
  · exact ⟨_, by simp only [SessionManager.update, hs, if_pos hne], Or.inl rfl⟩

theorem endSession_foreign (h : OwnedBy id owner m) (hu : userId ≠ owner) :
    ∃ e, m.endSession id userId = (.error e, m) ∧ Missed id e := by
  rcases lookup_foreign h hu with hs | ⟨s, hs, hne⟩
  · exact ⟨_, by simp only [SessionManager.endSession, hs], Or.inr rfl⟩
  · exact ⟨_, by simp only [SessionManager.endSession, hs, if_pos hne], Or.inl rfl⟩

def Looks (id : Uuid) (userId : String) : ManagerOp → Prop
  | .get i u => i = id ∧ u = userId
  | .update i u _ => i = id ∧ u = userId
  | .endSession i u => i = id ∧ u = userId
  | _ => False

def Misses (id : Uuid) : (o : ManagerOp) → o.Result → Prop
  | .get _ _, r => ∃ e, r = .error e ∧ Missed id e
  | .update _ _ _, r => ∃ e, r = .error e ∧ Missed id e
  | .endSession _ _, r => ∃ e, r = .error e ∧ Missed id e
  | _, _ => False

theorem foreign_run {sha256 : String → Digest} {o : ManagerOp} (ho : Looks id userId o)
    (h : OwnedBy id owner m) (hu : userId ≠ owner) :
    Misses id o (o.run sha256 m now).1 ∧ (o.run sha256 m now).2 = m := by
  cases o with
  | get i u =>
    obtain ⟨rfl, rfl⟩ := ho
    exact ⟨get_foreign h hu, rfl⟩
  | update i u c =>
    obtain ⟨rfl, rfl⟩ := ho
    obtain ⟨e, hrun, hmissed⟩ := update_foreign h hu (c.apply now)
    exact ⟨⟨e, congrArg Prod.fst hrun, hmissed⟩, congrArg Prod.snd hrun⟩
  | endSession i u =>
    obtain ⟨rfl, rfl⟩ := ho
    obtain ⟨e, hrun, hmissed⟩ := endSession_foreign h hu
    exact ⟨⟨e, congrArg Prod.fst hrun, hmissed⟩, congrArg Prod.snd hrun⟩
  | create | touchAction | sweepExpired | getUserSession | liveNamespaces | liveShuttles =>
    exact ho.elim

theorem Missed.refused {e : SessionError} (h : Missed id e) : Refused id (.session e) := by
  rcases h with rfl | rfl
  · exact Or.inl rfl
  · exact Or.inr (Or.inl rfl)

end Lookups

section Outlines

variable {sha256 : String → Digest} {outside : Outside} {env : ServerEnv} {identity : Identity}
  {id : Uuid} {owner : String} {α : Type}

def Refuses (id : Uuid) (r : Except Failure α) (_ : ServerState) : Prop :=
  ∃ f, r = .error f ∧ Refused id f

def Owned (id : Uuid) (owner : String) (s : ServerState) : Prop := OwnedBy id owner s.manager

theorem owned_stable : (contract sha256 outside id owner).Stable (Owned id owner) :=
  fun _ _ hs hrely => hrely hs

theorem lookup_outline {o : ManagerOp} (ho : Looks id identity.userId o)
    (hu : identity.userId ≠ owner) {f : o.Result → Handler (Except Failure α)}
    (hf : ∀ r, Misses id o r → ∃ failure, f r = .done (.error failure) ∧ Refused id failure) :
    (contract sha256 outside id owner).Outline (Refuses id) (locked o >>= f) (Owned id owner) := by
  refine outline_perform (C := fun r s => Misses id o r ∧ Owned id owner s) ?_ ?_ ?_ ?_
  · exact fun s hs => ⟨o, rfl, fun now => (foreign_run ho hs hu).2⟩
  · rintro s r s' hs ⟨now, -, rfl, rfl⟩
    obtain ⟨hmissed, hsame⟩ : Misses id o (o.run sha256 s.manager now).1 ∧
      (o.run sha256 s.manager now).2 = s.manager := foreign_run ho hs hu
    refine ⟨?_, hmissed, ?_⟩
    · change _ = _
      rw [hsame]
    · change OwnedBy id owner _
      rw [hsame]
      exact hs
  · exact fun r s s' hs hrely => ⟨hs.1, owned_stable s s' hs.2 hrely⟩
  · intro r
    by_cases hr : Misses id o r
    · obtain ⟨failure, hdone, hrefused⟩ := hf r hr
      rw [hdone]
      exact fun s _ => ⟨failure, rfl, hrefused⟩
    · exact Outline.of_false _ fun s hs => hr hs.1

theorem answer_outline {p : Handler (Except Failure α)}
    (hp : (contract sha256 outside id owner).Outline (Refuses id) p (Owned id owner)) :
    (contract sha256 outside id owner).Outline (Refuses id) (answer p) (Owned id owner) := by
  refine hp.bind fun r => ?_
  rintro s ⟨f, rfl, hf⟩
  exact ⟨f, rfl, hf⟩

theorem initialized_outline {p : Handler (Except Failure α)}
    (hp : (contract sha256 outside id owner).Outline (Refuses id) p (Owned id owner)) :
    (contract sha256 outside id owner).Outline (Refuses id)
      (if env.initialized = false then .done (.error notInitialized) else p) (Owned id owner) := by
  split
  · exact fun s _ => ⟨notInitialized, rfl, Or.inr (Or.inr rfl)⟩
  · exact hp

theorem request_outline (request : Request) (hu : identity.userId ≠ owner) :
    (contract sha256 outside id owner).Outline (Refuses id) (request.program env identity id)
      (Owned id owner) := by
  cases request with
  | get | reset | action =>
    refine answer_outline (initialized_outline (lookup_outline ?_ hu ?_))
    · exact ⟨rfl, rfl⟩
    rintro r ⟨e, rfl, hmissed⟩
    exact ⟨_, rfl, hmissed.refused⟩
  | endSession =>
    refine answer_outline (initialized_outline ?_)
    unfold endLocked
    rw [bind_bind]
    refine lookup_outline ?_ hu ?_
    · exact ⟨rfl, rfl⟩
    rintro r ⟨e, rfl, hmissed⟩
    exact ⟨_, rfl, hmissed.refused⟩
  | extend seconds =>
    refine answer_outline (initialized_outline ?_)
    unfold update
    rw [bind_bind]
    refine lookup_outline ?_ hu ?_
    · exact ⟨rfl, rfl⟩
    rintro r ⟨e, rfl, hmissed⟩
    exact ⟨_, rfl, hmissed.refused⟩

end Outlines

section Runs

variable {ι : Type} {sha256 : String → Digest} {outside : Outside} {env : ServerEnv}
  {identity : Identity} {id : Uuid} {owner : String} {i : ι}

abbrev RequestPool (ι : Type) := Pool ι Op Op.Result (Except Failure Unit) ServerState

/-- A fresh id is not the one of this session, unless it is drawn for its owner. -/
def FreshIds (id : Uuid) (owner : String) : Guard ι Op Op.Result (Except Failure Unit) ServerState
  | _, _, .manager (.create a), _, _ => a.id = id → a.userId = owner
  | _, _, _, _, _ => True

theorem owned_run {m : SessionManager} {now : Clock} {o : ManagerOp} (h : OwnedBy id owner m)
    (hcreate : ∀ a, o = .create a → a.id = id → a.userId = owner) :
    OwnedBy id owner (o.run sha256 m now).2 := by
  intro s hs
  cases run_origin hs with
  | kept hk => exact h s hk
  | created ho hid _ _ => exact hcreate _ ho hid
  | updated _ hk _ =>
    rw [(apply_same _ _ _).userId]
    exact h _ hk
  | touched _ hk _ => exact (h _ hk :)

theorem owned_step {q : RequestPool ι} {j : ι} {op : Op} {r : op.Result} {s' : ServerState}
    (hstep : ServerStep sha256 outside q.state op r s') (hfresh : FreshIds id owner q j op r s')
    (h : OwnedBy id owner q.state.manager) : OwnedBy id owner s'.manager := by
  cases op with
  | manager o =>
    obtain ⟨now, -, -, rfl⟩ := hstep
    refine owned_run h ?_
    rintro a rfl
    exact hfresh
  | _ =>
    rw [step_manager hstep (by simp)]
    exact h

/-- What any handlers make of the state, a request on the session of another user changes nothing
but the clock, makes no call, and ends in a refusal. -/
theorem foreign_requests_change_nothing [DecidableEq ι] {p q : RequestPool ι} (request : Request)
    (hthread : p.thread i = request.program env identity id)
    (hforeign : identity.userId ≠ owner) (howned : OwnedBy id owner p.state.manager)
    (hrun : Execution (ServerStep sha256 outside) (FreshIds id owner) p q) :
    (∀ op next, q.thread i = .request op next → (∃ o, op = .manager o) ∧
      ∀ r s', ServerStep sha256 outside q.state op r s' → OnlyTime q.state s') ∧
    ∀ r, q.thread i = .done r → ∃ f, r = .error f ∧ Refused id f := by
  have hmeets : (contract sha256 outside id owner).Meets (Refuses id) (q.thread i) q.state := by
    refine meets_among hrun ?_ (fun t op r s' hstep _ => hstep)
      fun t j op r s' _ hstep hfresh => owned_step hstep hfresh
    rw [hthread]
    exact ⟨Owned id owner, owned_stable, howned, request_outline request hforeign⟩
  constructor
  · intro op next ht
    rw [ht] at hmeets
    obtain ⟨o, rfl, -⟩ := hmeets.safe
    exact ⟨⟨o, rfl⟩, fun r s' hstep => (hmeets.step hstep).1⟩
  · intro r ht
    rw [ht] at hmeets
    exact hmeets.done

end Runs

section Schedules

-- The owner extends the session, then someone else ends it.
def extendOrEnd : Bool → Handler (Except Failure Unit)
  | false => (Request.extend 60).program configured ⟨"u1", none, none, "jwt"⟩ 1
  | true => Request.endSession.program configured ⟨"u2", none, none, "jwt"⟩ 1

def beforeExtend : RequestPool Bool :=
  { thread := extendOrEnd
    state := {
      manager := oneSession
      clock := atSecond 0
      file := none
      tmp := none
      world := [] } }

theorem oneSession_owned : OwnedBy 1 "u1" oneSession := by
  intro s hs
  rw [oneSession_lookup] at hs
  cases hs
  rfl

theorem foreign_requests_end : ∃ (q : RequestPool Bool) (f : Failure),
    Execution (ServerStep (fun _ => 0) silent) (FreshIds 1 "u1") beforeExtend q ∧
      q.thread true = .done (.error f) ∧ Refused 1 f := by
  have hstart : Execution (ServerStep (fun _ => 0) silent) (FreshIds 1 "u1") beforeExtend
    beforeExtend := .refl _
  have hextend := hstart.tail false rfl ⟨atSecond 1, by decide, rfl, rfl⟩ trivial
  have hend := hextend.tail true rfl ⟨atSecond 2, by decide, rfl, rfl⟩ trivial
  have hthread : beforeExtend.thread true =
      Request.endSession.program configured ⟨"u2", none, none, "jwt"⟩ 1 := rfl
  obtain ⟨f, hf, hrefused⟩ := (foreign_requests_change_nothing .endSession hthread (by decide)
    oneSession_owned hend).2 (.error (.session .forbidden)) rfl
  exact ⟨_, f, hend, congrArg Program.done hf, hrefused⟩

end Schedules

end PlaygroundForeignRequests
