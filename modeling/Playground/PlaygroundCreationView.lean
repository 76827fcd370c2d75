import Playground.PlaygroundInterference

/-! # What the creation response shows

The response is the clone taken at the insertion; the updates of the provisioning go to the
stored session. -/
namespace PlaygroundCreationView

open InteractionPrograms
open PlaygroundApiClient (Identity)
open PlaygroundHandlers
open PlaygroundInterference
open PlaygroundManagerRuns
open PlaygroundManifest (Scenario)
open PlaygroundOperations
open PlaygroundServer
open PlaygroundSessionManager
open PlaygroundSessions

def Untouched (id : Uuid) (m m' : SessionManager) : Prop :=
  m'.sessions.lookup id = m.sessions.lookup id

instance (id : Uuid) : IsPreorder SessionManager (Untouched id) where
  refl _ := rfl
  trans _ _ _ h h' := h'.trans h

def Stored (id : Uuid) (userId : String) (m : SessionManager) : Prop :=
  ∃ x, m.sessions.lookup id = some x ∧ x.userId = userId

def Updates (id : Uuid) (userId : String) (o : ManagerOp) : Prop :=
  ∃ u, o = .update id userId u

section Creation

variable {sha256 : String → Digest} {outside : Outside} {id : Uuid} {env : ServerEnv}
  {identity : Identity} {session : Session} {scenario : Scenario} {s s' t u : ServerState}
  {m m' : SessionManager}

theorem Stored.untouched {userId : String} (hs : Stored id userId m) (h : Untouched id m m') :
    Stored id userId m' := by
  obtain ⟨x, hx, hu⟩ := hs
  exact ⟨x, h.trans hx, hu⟩

theorem stored_update {userId : String} (hs : Stored id userId m) (v : SessionUpdate)
    (now : Clock) : ∃ y, (m.update id userId (v.apply now)).2.sessions.lookup id =
      some (v.apply now y).2 ∧ (v.apply now y).2.userId = userId := by
  obtain ⟨x, hx, hu⟩ := hs
  refine ⟨x, ?_, ?_⟩
  · simp [SessionManager.update, hx, hu]
  · rw [(apply_same now v x).userId, hu]

theorem stored_step {userId : String} {op : Op} {r : op.Result}
    (hop : AsksOnly (Updates id userId) op)
    (h : amongStep sha256 outside (Untouched id) s op r s') (hs : Stored id userId s.manager) :
    Stored id userId s'.manager := by
  obtain ⟨mid, hmid, hstep⟩ := h
  have hstored := hs.untouched hmid
  cases op with
  | manager o =>
    obtain ⟨v, rfl⟩ := hop
    obtain ⟨now, -, -, rfl⟩ := hstep
    obtain ⟨y, hy, hu⟩ := stored_update hstored v now
    exact ⟨_, hy, hu⟩
  | _ =>
    rw [step_manager hstep (by simp)]
    exact hstored

theorem stored_run {α : Type} {userId : String} {p : Handler α} {a : α}
    (h : p.Completes (amongStep sha256 outside (Untouched id)) s a t)
    (hp : p.Always (fun _ _ => True) (AsksOnly (Updates id userId)))
    (hs : Stored id userId s.manager) : Stored id userId t.manager :=
  h.keeps (Q := fun u => Stored id userId u.manager) hp
    (fun _ _ _ _ hop hstep => stored_step hop hstep) hs

/-- Whatever failed before, the provisioning ends with an active session and its event. -/
theorem provision_activates (hid : session.id = id)
    (h : (provision env identity session scenario).Completes
      (amongStep sha256 outside (Untouched id)) s () t)
    (hs : Stored id identity.userId s.manager) :
    ∃ x, t.manager.sessions.lookup id = some x ∧ x.userId = identity.userId ∧
      x.status = .active ∧ x.events ≠ [] := by
  subst hid
  have hupdates : ∀ v, AsksOnly (Updates session.id identity.userId)
      (.manager (.update session.id identity.userId v)) := fun v => ⟨v, rfl⟩
  obtain ⟨_, s₁, hsource, h⟩ := Program.completes_bind h
  have hs₁ := stored_run hsource (provisionAnySource_ops hupdates) hs
  obtain ⟨_, s₂, hshuttle, h⟩ := Program.completes_bind h
  have hs₂ := stored_run hshuttle (provisionAnyShuttle_ops hupdates) hs₁
  obtain ⟨r, s₃, hactive, h⟩ := Program.completes_bind h
  obtain ⟨-, rfl⟩ := Program.completes_done h
  obtain ⟨m, now, hm, -, hafter⟩ := update_completes hactive
  obtain ⟨y, hy, hu⟩ := stored_update (hs₂.untouched hm) .sessionCreated now
  refine ⟨_, hafter.trans hy, hu, rfl, ?_⟩
  simp only [SessionUpdate.apply, Session.record_events]
  exact List.append_ne_nil_of_right_ne_nil _ (by simp)

/-- The view is the session as it was inserted, before anything was provisioned. -/
theorem created_view {body : CreateSessionBody} {view : SessionView}
    (h : (createSession env identity id body).Completes
      (amongStep sha256 outside (Untouched id)) s (.ok view) t) :
    env.initialized = true ∧ view.status = .provisioning ∧ view.events = [] ∧
      ∃ x, t.manager.sessions.lookup id = some x ∧ x.userId = identity.userId ∧
        x.status = .active ∧ x.events ≠ [] := by
  obtain ⟨hinit, scenario, session, now, s₁, s₂, s₃, hcreate, hprovision, hclock, rfl⟩ :=
    createSession_completes h
  obtain ⟨m, created, -, hr, hafter⟩ := create_completes hcreate
  rcases create_cases sha256 m created (createArgs identity id body) with
    ⟨e, he⟩ | ⟨ttl, -, -, he⟩
  · rw [he] at hr
    cases hr
  · rw [he] at hr hafter
    cases hr
    have hinserted : Stored id identity.userId s₂.manager :=
      ⟨_, hafter.trans (AList.lookup_insert _), rfl⟩
    have hid : (Session.new sha256 id created identity.userId identity.tenantId body.scenarioId
        ttl).id = id := rfl
    obtain ⟨x, hx, hu, hstatus, hevents⟩ := provision_activates hid hprovision hinserted
    have hreads : Reads .readClock := trivial
    have hkept : t.manager.sessions.lookup id = s₃.manager.sessions.lookup id :=
      step_reads hreads hclock
    exact ⟨hinit, rfl, rfl, x, hkept.trans hx, hu, hstatus, hevents⟩

theorem get_shows {r : Except Failure SessionView} {x : Session} (hinit : env.initialized = true)
    (hx : s.manager.sessions.lookup id = some x) (hu : x.userId = identity.userId)
    (h : (getSession env identity id).Completes (amongStep sha256 outside (Untouched id)) s r t) :
    ∃ now, r = .ok (x.view now) := by
  unfold getSession at h
  rw [hinit, if_neg (by decide)] at h
  obtain ⟨found, s₁, hget, h⟩ := Program.completes_bind h
  obtain ⟨m, now, hm, hfound, -⟩ := locked_completes hget
  have hok : found = .ok x := by
    rw [hfound]
    simp [ManagerOp.run, SessionManager.get, hm.trans hx, hu]
  subst hok
  obtain ⟨clock, s₂, -, h⟩ := Program.completes_perform h
  exact ⟨clock, (Program.completes_done h).1⟩

/-- No creation shows the session as a request right after it finds it. -/
theorem creation_view_stale {body : CreateSessionBody} {view : SessionView}
    {r : Except Failure SessionView}
    (hcreate : (createSession env identity id body).Completes
      (amongStep sha256 outside (Untouched id)) s (.ok view) t)
    (hget : (getSession env identity id).Completes
      (amongStep sha256 outside (Untouched id)) t r u) :
    ∃ stored, r = .ok stored ∧ view.status ≠ stored.status ∧ view.events ≠ stored.events := by
  obtain ⟨hinit, hstatus, hevents, x, hx, hu, hactive, hlogged⟩ := created_view hcreate
  obtain ⟨now, hshown⟩ := get_shows hinit hx hu hget
  refine ⟨x.view now, hshown, ?_, ?_⟩
  · rw [hstatus, show (x.view now).status = .active from hactive]
    decide
  · rw [hevents]
    exact hlogged.symm

def creator : Identity := ⟨"u1", none, none, "unknown"⟩

def beforeCreation : ServerState :=
  { manager := .new oneScenario true defaultTtl
    clock := atSecond 0
    file := none
    tmp := none
    world := [] }

def creation : Except Failure SessionView × ServerState :=
  (createSession configured creator 1 ⟨"mongo-cdc", none⟩).eval perform beforeCreation

def shownAfter : Except Failure SessionView × ServerState :=
  (getSession configured creator 1).eval perform creation.2

theorem creation_completes : ∃ view, creation.1 = .ok view ∧
    (createSession configured creator 1 ⟨"mongo-cdc", none⟩).Completes
      (amongStep (fun _ => 0) answering (Untouched 1)) beforeCreation (.ok view) creation.2 := by
  obtain ⟨view, hview⟩ : ∃ view, creation.1 = .ok view := ⟨_, rfl⟩
  refine ⟨view, hview, ?_⟩
  rw [← hview]
  exact perform_completes _ beforeCreation

theorem shownAfter_completes : (getSession configured creator 1).Completes
    (amongStep (fun _ => 0) answering (Untouched 1)) creation.2 shownAfter.1 shownAfter.2 :=
  perform_completes _ creation.2

theorem creation_view_stale_mongo : ∃ view, creation.1 = .ok view ∧
    ∃ stored, shownAfter.1 = .ok stored ∧
      view.status ≠ stored.status ∧ view.events ≠ stored.events := by
  obtain ⟨view, hview, hcreate⟩ := creation_completes
  exact ⟨view, hview, creation_view_stale hcreate shownAfter_completes⟩

/-- The response says provisioning and no events; the stored session is active with one event. -/
theorem mongo_creation_shown :
    ∃ view stored, (createSession configured creator 1 ⟨"mongo-cdc", none⟩).Completes
        (amongStep (fun _ => 0) answering (Untouched 1)) beforeCreation (.ok view) creation.2 ∧
      (getSession configured creator 1).Completes
        (amongStep (fun _ => 0) answering (Untouched 1)) creation.2 (.ok stored) shownAfter.2 ∧
      ¬(view.status = stored.status ∧ view.events = stored.events) := by
  obtain ⟨view, -, hcreate⟩ := creation_completes
  obtain ⟨stored, hstored⟩ : ∃ stored, shownAfter.1 = .ok stored := ⟨_, rfl⟩
  refine ⟨view, stored, hcreate, hstored ▸ shownAfter_completes, ?_⟩
  rintro ⟨hstatus, -⟩
  have hprovisioning := (created_view hcreate).2.1
  have hactive : shownAfter.1.map (·.status) = .ok .active := rfl
  rw [hstored] at hactive
  have hshown : stored.status = .active := Except.ok.inj hactive
  rw [hprovisioning, hshown] at hstatus
  cases hstatus

end Creation

end PlaygroundCreationView
