import Playground.PlaygroundClassify
import Playground.PlaygroundInterference
import Playground.PlaygroundSafeNames

/-! # What a reset leaves behind

The drop of the namespace is a statement of no class, and a reset without an API client gives up
after it has marked the session. -/
namespace PlaygroundReset

open InteractionPrograms
open PlaygroundApiClient
open PlaygroundClassify
open PlaygroundCleanup
open PlaygroundHandlers
open PlaygroundInterference
open PlaygroundManagerRuns
open PlaygroundManifest (Scenario)
open PlaygroundNames
open PlaygroundOperations
open PlaygroundSafeNames
open PlaygroundServer
open PlaygroundSessionManager
open PlaygroundSessions
open RustText

section Target

def dropNamespaceSql (namespaceName : String) : String :=
  "DROP NAMESPACE IF EXISTS " ++ namespaceName ++ " CASCADE"

/-- Whatever the namespace is called, the statement starts with no keywords of a class. -/
theorem classify_dropNamespace (namespaceName : String) :
    classifyStatement (dropNamespaceSql namespaceName) = none := by
  have htext : (dropNamespaceSql namespaceName).toList =
      ('D' :: "ROP NAMESPACE IF EXIST".toList) ++
        'S' :: (' ' :: (namespaceName.toList ++ " CASCADE".toList)) := by
    have hkeywords : "DROP NAMESPACE IF EXISTS ".toList =
        ('D' :: "ROP NAMESPACE IF EXIST".toList) ++ ['S', ' '] := by decide
    unfold dropNamespaceSql
    rw [String.toList_append, String.toList_append, hkeywords, List.append_assoc,
      List.append_assoc]
    exact congrArg _ rfl
  obtain ⟨l, ls, hl⟩ := lines_visible (c := 'S') (by decide) (by decide)
    (' ' :: (namespaceName.toList ++ " CASCADE".toList))
  obtain ⟨text, htrim, -⟩ := trimmed_statement (d := 'D') (k := "ROP NAMESPACE IF EXIST".toList)
    (by decide) (by decide) (by decide) (by decide) hl
  rw [classifyStatement_eq, statementText, htext, htrim]
  apply classifyTrimmed_none
  intro p rest hkeyword
  have hkeywords : toAsciiUppercase ('D' :: "ROP NAMESPACE IF EXIST".toList) =
      "DROP NAMESPACE IF EXIST".toList := by decide
  have hupper : "DROP NAMESPACE IF EXIST".toList <+:
      toAsciiUppercase (('D' :: "ROP NAMESPACE IF EXIST".toList) ++ 'S' :: text) := by
    rw [toAsciiUppercase_append, hkeywords]
    exact List.prefix_append _ _
  rcases List.prefix_or_prefix_of_prefix (keyword_isPrefix hkeyword) hupper with h | h
  · revert h
    cases p <;> decide
  · revert h
    cases p <;> decide

/-- The manager finds the session and updates it, and the API accepts every call. -/
def Granted (session : Session) : (op : Op) → op.Result → Prop
  | .manager (.get _ _), r => r = .ok session
  | .manager (.update _ _ _), r => r = .ok .done
  | .external (.api _ _), r => ∃ reply, r = .ok reply
  | _, _ => True

def OtherCall (identity : Identity) (session : Session) (op : Op) : Prop :=
  (∃ r other, op = .external (.api r other)) ∧
    op ≠ deleteShuttle identity session.shuttleName ∧
    op ≠ deleteNamespace identity session.namespaceName

/-- Where the API accepts every call, the reset has it drop the shuttle and the target namespace
before any other call, so before the template is applied again. -/
structure EmptiesTarget (env : ServerEnv) (identity : Identity) (id : Uuid) (session : Session) :
    Prop where
  shuttle : (resetSession env identity id).Precedes (Granted session)
    (· = deleteShuttle identity session.shuttleName) (OtherCall identity session)
  target : (resetSession env identity id).Precedes (Granted session)
    (· = deleteNamespace identity session.namespaceName) (OtherCall identity session)

theorem granted_total (session : Session) (op : Op) : ∃ r, Granted session op r := by
  cases op with
  | manager o =>
    cases o with
    | get | update => exact ⟨_, rfl⟩
    | create | endSession | touchAction => exact ⟨.error .disabled, trivial⟩
    | sweepExpired | liveNamespaces | liveShuttles => exact ⟨[], trivial⟩
    | getUserSession => exact ⟨none, trivial⟩
  | external c =>
    cases c with
    | api => exact ⟨.ok (200, .null), _, rfl⟩
    | dispatcher call => exact ⟨accepted (.dispatcher call), trivial⟩
    | command program args => exact ⟨accepted (.command program args), trivial⟩
    | readToString | readBytes => exact ⟨.error "", trivial⟩
    | exists_ => exact ⟨true, trivial⟩
    | post => exact ⟨.error "", trivial⟩
  | snapshot => exact ⟨[], trivial⟩
  | writeTmp | renameTmp => exact ⟨true, trivial⟩
  | tryConsume => exact ⟨.ok 1, trivial⟩
  | metric | actionStart => exact ⟨(), trivial⟩
  | readClock => exact ⟨⟨0, 0⟩, trivial⟩

theorem statement_path (d : Dispatch) (sql : String) :
    "/api/v1/co".toList <+: (d.request sql).path.toList ∨
      "/api/v1/sh".toList <+: (d.request sql).path.toList := by
  have hconnection : "/api/v1/co".toList <+: "/api/v1/connections".toList := by decide
  have hshuttle : "/api/v1/sh".toList <+: "/api/v1/shuttles".toList := by decide
  have hconnections : "/api/v1/co".toList <+: "/api/v1/connections/".toList := by decide
  have hshuttles : "/api/v1/sh".toList <+: "/api/v1/shuttles/".toList := by decide
  cases d with
  | createConnection => exact Or.inl hconnection
  | createShuttle => exact Or.inr hshuttle
  | resumeShuttle name =>
    rw [Dispatch.request, String.toList_append, String.toList_append, List.append_assoc]
    exact Or.inr (hshuttles.trans (List.prefix_append _ _))
  | pauseShuttle name =>
    rw [Dispatch.request, String.toList_append, String.toList_append, List.append_assoc]
    exact Or.inr (hshuttles.trans (List.prefix_append _ _))
  | dropShuttle name =>
    rw [Dispatch.request, String.toList_append]
    exact Or.inr (hshuttles.trans (List.prefix_append _ _))
  | dropConnection name =>
    rw [Dispatch.request, String.toList_append]
    exact Or.inl (hconnections.trans (List.prefix_append _ _))

theorem statement_other (identity other : Identity) (d : Dispatch) (sql namespaceName : String) :
    Op.external (.api (d.request sql) identity) ≠ deleteNamespace other namespaceName := by
  intro h
  simp only [deleteNamespace, Op.external.injEq, ExternalCall.api.injEq] at h
  have hcatalog : "/api/v1/ca".toList <+: (d.request sql).path.toList := by
    have hpath : "/api/v1/ca".toList <+: "/api/v1/catalog/namespaces/".toList := by decide
    have hsplit : (namespacePath namespaceName).toList = "/api/v1/catalog/namespaces/".toList ++
        (namespaceName.toList ++ "?cascade=true&purge=true".toList) := by
      unfold namespacePath
      rw [String.toList_append, String.toList_append, List.append_assoc]
    have hdrop : (d.request sql).path = namespacePath namespaceName :=
      congrArg ApiRequest.path h.1
    rw [congrArg String.toList hdrop, hsplit]
    exact hpath.trans (List.prefix_append _ _)
  rcases statement_path d sql with hpath | hpath
  · have hor := List.prefix_or_prefix_of_prefix hcatalog hpath
    revert hor
    decide
  · have hor := List.prefix_or_prefix_of_prefix hcatalog hpath
    revert hor
    decide

def NoDrop (identity : Identity) (namespaceName : String) (op : Op) : Prop :=
  ¬ op = deleteNamespace identity namespaceName

instance (identity : Identity) (namespaceName : String) :
    Lenient (NoDrop identity namespaceName) where
  quiet {op} h := by
    rintro rfl
    exact h

instance (identity : Identity) (namespaceName : String) :
    AllowsOthers (NoDrop identity namespaceName) where
  other h := by
    rintro heq
    cases heq
    exact h

instance (identity other : Identity) (namespaceName : String) :
    AllowsStatements identity (NoDrop other namespaceName) where
  statement d sql := statement_other identity other d sql namespaceName

theorem reset_keeps_namespace (env : ServerEnv) (identity other : Identity) (id : Uuid)
    (namespaceName : String) {ok : (op : Op) → op.Result → Prop} :
    (resetSession env identity id).Always ok (NoDrop other namespaceName) := by
  refine resetSession_ops ?_ fun u => ?_
  · exact fun h => by cases h
  · exact fun h => by cases h

variable {env : ServerEnv} {identity : Identity} {id : Uuid} {session : Session}
  {scenario : Scenario}

def NotOther (identity : Identity) (session : Session) (op : Op) : Prop :=
  ¬ OtherCall identity session op

instance : Lenient (NotOther identity session) where
  quiet {op} h := by
    rintro ⟨⟨r, other, rfl⟩, -⟩
    exact h

theorem manager_notOther (o : ManagerOp) : NotOther identity session (.manager o) := by
  rintro ⟨⟨r, other, hop⟩, -⟩
  cases hop

theorem update_returns {u : SessionUpdate} {userId : String} {r : Except SessionError UpdateOutcome}
    (h : (update env id userId u).Returns (Granted session) r) : r = .ok .done := by
  obtain ⟨outcome, hgranted, h⟩ := h
  have hdone : outcome = .ok .done := hgranted
  subst hdone
  change (persist env >>= fun _ => .done (.ok .done)).Returns (Granted session) r at h
  obtain ⟨_, _, hreturn⟩ := Program.returns_bind.mp h
  exact (hreturn : Except.ok UpdateOutcome.done = r).symm

/-- The half that holds: a reset that gets that far has the shuttle dropped before any other
call. -/
theorem reset_drops_shuttle (hinit : env.initialized = true) (hclient : env.apiClient.isSome = true)
    (hscenario : resettable env session = .ok scenario)
    (hshuttle : isSafeIdentifier session.shuttleName = true) :
    (resetSession env identity id).Precedes (Granted session)
      (· = deleteShuttle identity session.shuttleName) (OtherCall identity session) := by
  have hdrop : (dropShuttle identity session.shuttleName).Performs (Granted session)
      [deleteShuttle identity session.shuttleName] := by
    rw [← dropShuttle_ops hshuttle]
    exact performs_dropShuttle identity session.shuttleName
  have hfirst : (dropShuttle identity session.shuttleName).Precedes (Granted session)
      (· = deleteShuttle identity session.shuttleName) (OtherCall identity session) := by
    obtain ⟨next, hnext⟩ := hdrop.first
    rw [hnext]
    exact Or.inl rfl
  unfold resetSession
  rw [hinit, if_neg (by decide)]
  refine Program.Precedes.bind_right (locked_ops (P := NotOther identity session)
    (manager_notOther _)) fun r hr => ?_
  obtain ⟨found, hgranted, rfl⟩ := hr
  have hfound : found = .ok session := hgranted
  subst hfound
  simp only [hscenario]
  refine Program.Precedes.bind_right (update_ops (P := NotOther identity session)
    (manager_notOther _)) fun r hr => ?_
  rw [update_returns hr]
  simp only [hclient, Bool.true_eq_false, if_false]
  exact hfirst.bind_left.bind_left

theorem reset_leaves_target (env : ServerEnv) (identity : Identity) (id : Uuid)
    (session : Session) : ¬ EmptiesTarget env identity id session := by
  intro h
  have hnever : (resetSession env identity id).Always (Granted session)
      (NoDrop identity session.namespaceName) := reset_keeps_namespace env identity identity id _
  exact hnever.not_eventually (granted_total session) h.target.eventually

theorem dropNamespace_unsupported (identity : Identity) (namespaceName : String) :
    execSql identity (dropNamespaceSql namespaceName) =
      .done (.error (unsupportedStatement (dropNamespaceSql namespaceName))) := by
  unfold execSql
  rw [classify_dropNamespace]

/-- The drop of the namespace ends in the error for unsupported statements, and no reset empties
its target. -/
theorem reset_never_empties_target (env : ServerEnv) (identity : Identity) (id : Uuid)
    (session : Session) :
    execSql identity (dropNamespaceSql session.namespaceName) =
        .done (.error (unsupportedStatement (dropNamespaceSql session.namespaceName))) ∧
      ¬ EmptiesTarget env identity id session :=
  ⟨dropNamespace_unsupported identity _, reset_leaves_target env identity id session⟩

theorem first_session_not_emptied :
    (∃ scenario, resettable configured firstSession = .ok scenario) ∧
      classifyStatement (dropNamespaceSql firstSession.namespaceName) = none ∧
      ¬ EmptiesTarget configured (reaperIdentity firstSession) 1 firstSession := by
  refine ⟨?_, classify_dropNamespace _, reset_leaves_target _ _ _ _⟩
  have hnames := derived_names_pass (fun _ => 0) "u1" 1
  exact ⟨_, PassesGuards.resettable (s := firstSession) hnames configured⟩

end Target

section Status

/-- What other requests may do to a session meanwhile: take it out of the map, or change what
neither its status nor the checks of a reset depend on. -/
def Undisturbed (id : Uuid) (m m' : SessionManager) : Prop :=
  ∀ x', m'.sessions.lookup id = some x' →
    ∃ x, m.sessions.lookup id = some x ∧ SameSession x x' ∧ x'.status = x.status

/-- The status of the session, where it is still in the map, is the one it had. -/
def KeepsStatus (id : Uuid) (m m' : SessionManager) : Prop :=
  ∀ x', m'.sessions.lookup id = some x' →
    ∃ x, m.sessions.lookup id = some x ∧ x'.status = x.status

abbrev resetStep (sha256 : String → Digest) (outside : Outside) (id : Uuid) :
    Semantics Op Op.Result ServerState := amongStep sha256 outside (Undisturbed id)

variable {sha256 : String → Digest} {outside : Outside} {id : Uuid} {env : ServerEnv}
  {identity : Identity} {s t : ServerState} {m m' m'' : SessionManager}

theorem Undisturbed.refl (m : SessionManager) : Undisturbed id m m :=
  fun x hx => ⟨x, hx, .refl x, rfl⟩

theorem Undisturbed.trans (h : Undisturbed id m m') (h' : Undisturbed id m' m'') :
    Undisturbed id m m'' := by
  intro x'' hx''
  obtain ⟨x', hx', hsame', hstatus'⟩ := h' x'' hx''
  obtain ⟨x, hx, hsame, hstatus⟩ := h x' hx'
  exact ⟨x, hx, hsame.trans hsame', hstatus'.trans hstatus⟩

theorem Undisturbed.status (h : Undisturbed id m m') : KeepsStatus id m m' := by
  intro x' hx'
  obtain ⟨x, hx, -, hstatus⟩ := h x' hx'
  exact ⟨x, hx, hstatus⟩

/-- Nobody but the caller has the session, if anybody has it. -/
def Owned (id : Uuid) (userId : String) (m : SessionManager) : Prop :=
  ∀ x, m.sessions.lookup id = some x → x.userId = userId

theorem Undisturbed.owned {userId : String} (h : Undisturbed id m m') (ho : Owned id userId m) :
    Owned id userId m' := by
  intro x' hx'
  obtain ⟨x, hx, hsame, -⟩ := h x' hx'
  rw [hsame.userId, ho x hx]

instance : IsPreorder SessionManager (Undisturbed id) where
  refl := .refl
  trans _ _ _ := .trans

theorem mark_completes {userId : String} {u : SessionUpdate}
    {r : Except SessionError UpdateOutcome}
    (h : (update env id userId u).Completes (resetStep sha256 outside id) s r t) :
    (∃ e, r = .error e ∧ Undisturbed id s.manager t.manager ∧
        ∀ x, t.manager.sessions.lookup id = some x → x.userId ≠ userId) ∨
      (∃ outcome, r = .ok outcome) ∧ ∃ x now, s.manager.sessions.lookup id = some x ∧
        x.userId = userId ∧ ∀ x', t.manager.sessions.lookup id = some x' →
          SameSession x x' ∧ ∃ y, x'.status = (u.apply now y).2.status := by
  obtain ⟨m, now, hm, hr, hafter⟩ := update_completes h
  have hrefused : ∀ {e}, m.update id userId (u.apply now) = (.error e, m) →
      r = .error e ∧ Undisturbed id s.manager t.manager ∧
        ∀ x, t.manager.sessions.lookup id = some x → ∃ x', m.sessions.lookup id = some x' ∧
          x.userId = x'.userId := by
    intro e he
    rw [he] at hr hafter
    refine ⟨hr, hm.trans hafter, ?_⟩
    intro x hx
    obtain ⟨x', hx', hsame, -⟩ := hafter x hx
    exact ⟨x', hx', hsame.userId⟩
  cases hy : m.sessions.lookup id with
  | none =>
    obtain ⟨herror, hsame, hkept⟩ := hrefused (by rw [SessionManager.update, hy])
    refine Or.inl ⟨_, herror, hsame, ?_⟩
    intro x hx
    obtain ⟨x', hx', -⟩ := hkept x hx
    rw [hy] at hx'
    cases hx'
  | some y =>
    by_cases hu : y.userId = userId
    · have hdone : m.update id userId (u.apply now) = (.ok (u.apply now y).1,
          { m with sessions := m.sessions.insert id (u.apply now y).2 }) := by
        simp [SessionManager.update, hy, hu]
      rw [hdone] at hr hafter
      obtain ⟨x, hx, hsame, -⟩ := hm y hy
      refine Or.inr ⟨⟨_, hr⟩, x, now, hx, hsame.userId ▸ hu, ?_⟩
      intro x' hx'
      obtain ⟨z, hz, hsame', hstatus⟩ := hafter x' hx'
      rw [AList.lookup_insert, Option.some_inj] at hz
      subst hz
      exact ⟨(hsame.trans (apply_same now u y)).trans hsame', y, hstatus⟩
    · obtain ⟨herror, hsame, hkept⟩ := hrefused (e := .forbidden) (by
        simp [SessionManager.update, hy, hu])
      refine Or.inl ⟨_, herror, hsame, ?_⟩
      intro x hx
      obtain ⟨x', hx', huser⟩ := hkept x hx
      rw [hy, Option.some_inj] at hx'
      rw [huser, ← hx']
      exact hu

theorem get_completes {userId : String} {r : Except SessionError Session}
    (h : (locked (.get id userId)).Completes (resetStep sha256 outside id) s r t) :
    Undisturbed id s.manager t.manager ∧
      ((∃ e, r = .error e ∧ ∀ x, t.manager.sessions.lookup id = some x → x.userId ≠ userId) ∨
        ∃ x, r = .ok x ∧ t.manager.sessions.lookup id = some x ∧ x.userId = userId) := by
  obtain ⟨m, now, hm, hr, hafter⟩ := locked_completes h
  have hsame : t.manager = m := hafter
  have hfound : r = m.get id userId := hr
  rw [hsame, hfound, SessionManager.get]
  refine ⟨hm, ?_⟩
  cases hx : m.sessions.lookup id with
  | none => exact Or.inl ⟨_, rfl, by simp⟩
  | some x =>
    by_cases hu : x.userId = userId
    · exact Or.inr ⟨x, by simp [hu], rfl, hu⟩
    · refine Or.inl ⟨.forbidden, by simp [hu], ?_⟩
      rintro y hy
      cases hy
      exact hu

theorem resettable_same {x x' : Session} (h : SameSession x x') :
    resettable env x' = resettable env x := by
  rw [resettable, resettable, h.scenarioId, h.shuttleName, h.connectionName, h.namespaceName]

/-- What a reset that ends in an error without an API client leaves behind. -/
def StaysResetting (env : ServerEnv) (identity : Identity) (id : Uuid) (m : SessionManager) :
    Prop :=
  env.initialized = true ∧ env.apiClient.isSome = false ∧
    ∃ x scenario, m.sessions.lookup id = some x ∧ x.userId = identity.userId ∧
      resettable env x = .ok scenario ∧ x.status ≠ .resetting

theorem Owned.missing {userId : String} (ho : Owned id userId m)
    (hn : ∀ x, m.sessions.lookup id = some x → x.userId ≠ userId) :
    m.sessions.lookup id = none := by
  cases hx : m.sessions.lookup id with
  | none => rfl
  | some x => exact absurd (ho x hx) (hn x hx)

theorem KeepsStatus.gone (h : m'.sessions.lookup id = none) : KeepsStatus id m m' := by
  intro x' hx'
  rw [h] at hx'
  cases hx'

theorem showSession_error {e : Failure} (ho : Owned id identity.userId s.manager)
    (h : (showSession identity id).Completes (resetStep sha256 outside id) s (.error e) t) :
    t.manager.sessions.lookup id = none := by
  obtain ⟨found, s₁, hget, h⟩ := Program.completes_bind h
  obtain ⟨hsame, ⟨e', rfl, hnone⟩ | ⟨y, rfl, -, -⟩⟩ := get_completes hget
  · obtain ⟨-, rfl⟩ := Program.completes_done h
    exact (hsame.owned ho).missing hnone
  · obtain ⟨clock, s₂, -, h⟩ := Program.completes_perform h
    cases (Program.completes_done h).1

/-- Once the session is marked, a reset with an API client fails only when the session is gone. -/
theorem resetWith_error {session : Session} {scenario : Scenario} {e : Failure}
    (hclient : env.apiClient.isSome = true) (ho : Owned id identity.userId s.manager)
    (h : (resetWith env identity id session scenario).Completes (resetStep sha256 outside id) s
      (.error e) t) : t.manager.sessions.lookup id = none := by
  obtain ⟨outcome, s₁, hmark, h⟩ := Program.completes_bind h
  rcases mark_completes hmark with ⟨e', rfl, hsame, hnone⟩ | ⟨⟨o, rfl⟩, x, now, hx, hu, hafter⟩
  · obtain ⟨-, rfl⟩ := Program.completes_done h
    exact (hsame.owned ho).missing hnone
  · have ho₁ : Owned id identity.userId s₁.manager := by
      intro x' hx'
      rw [(hafter x' hx').1.userId, hu]
    simp only [hclient, Bool.true_eq_false, if_false] at h
    obtain ⟨_, s₂, hrebuild, h⟩ := Program.completes_bind h
    have ho₂ := (completes_reads hrebuild dropAndRebuild_ops).owned ho₁
    obtain ⟨outcome, s₃, hupdate, h⟩ := Program.completes_bind h
    rcases mark_completes hupdate with
      ⟨e', rfl, hsame, hnone⟩ | ⟨⟨o', rfl⟩, x₂, now₂, hx₂, hu₂, hafter₂⟩
    · obtain ⟨-, rfl⟩ := Program.completes_done h
      exact (hsame.owned ho₂).missing hnone
    · refine showSession_error ?_ h
      intro x' hx'
      rw [(hafter₂ x' hx').1.userId, hu₂]

/-- Without a client the reset gives up right after the session is marked. -/
theorem resetWith_noClient {session : Session} {scenario : Scenario}
    {r : Except Failure SessionView} (hclient : env.apiClient.isSome = false)
    (ho : Owned id identity.userId s.manager)
    (h : (resetWith env identity id session scenario).Completes (resetStep sha256 outside id) s
      r t) : t.manager.sessions.lookup id = none ∨
        ∀ x', t.manager.sessions.lookup id = some x' →
          (∃ x, s.manager.sessions.lookup id = some x) ∧ x'.status = .resetting := by
  obtain ⟨outcome, s₁, hmark, h⟩ := Program.completes_bind h
  rcases mark_completes hmark with ⟨e', rfl, hsame, hnone⟩ | ⟨⟨o, rfl⟩, x, now, hx, hu, hafter⟩
  · obtain ⟨-, rfl⟩ := Program.completes_done h
    exact Or.inl ((hsame.owned ho).missing hnone)
  · simp only [hclient, if_true] at h
    obtain ⟨-, rfl⟩ := Program.completes_done h
    refine Or.inr fun x' hx' => ⟨⟨x, hx⟩, ?_⟩
    obtain ⟨-, y, hstatus⟩ := hafter x' hx'
    exact hstatus

theorem reset_error_keeps {e : Failure} (hnot : ¬ StaysResetting env identity id s.manager)
    (h : (resetSession env identity id).Completes (resetStep sha256 outside id) s (.error e) t) :
    KeepsStatus id s.manager t.manager := by
  rw [resetSession] at h
  split at h
  · obtain ⟨-, rfl⟩ := Program.completes_done h
    exact (Undisturbed.refl _).status
  · rename_i hinit
    obtain ⟨found, s₁, hget, h⟩ := Program.completes_bind h
    obtain ⟨hsame, ⟨e', rfl, hnone⟩ | ⟨x, rfl, hx, hu⟩⟩ := get_completes hget
    · obtain ⟨-, rfl⟩ := Program.completes_done h
      exact hsame.status
    · have ho : Owned id identity.userId s₁.manager := by
        intro y hy
        rw [hx, Option.some_inj] at hy
        rw [← hy, hu]
      cases hcheck : resettable env x with
      | error e' =>
        simp only [hcheck] at h
        obtain ⟨-, rfl⟩ := Program.completes_done h
        exact hsame.status
      | ok scenario =>
        simp only [hcheck] at h
        cases hclient : env.apiClient.isSome with
        | true => exact .gone (resetWith_error hclient ho h)
        | false =>
          obtain ⟨y, hy, hxy, hstatus⟩ := hsame x hx
          have hresetting : y.status = .resetting := by
            by_contra hne
            refine hnot ⟨by simpa using hinit, hclient, y, scenario, hy, ?_, ?_, hne⟩
            · rw [← hxy.userId, hu]
            · rw [← resettable_same hxy, hcheck]
          rcases resetWith_noClient hclient ho h with hgone | hafter
          · exact .gone hgone
          · intro x' hx'
            exact ⟨y, hy, (hafter x' hx').2.trans hresetting.symm⟩

theorem resetStep_of {op : Op} {r : op.Result} (h : ServerStep sha256 outside s op r t) :
    resetStep sha256 outside id s op r t := ⟨s, .refl _, h⟩

theorem reset_stays_resetting (sha256 : String → Digest) (outside : Outside)
    (h : StaysResetting env identity id s.manager) :
    ∃ t, (resetSession env identity id).Completes (resetStep sha256 outside id) s
      (.error noApiClient) t ∧ ¬ KeepsStatus id s.manager t.manager := by
  obtain ⟨hinit, hclient, x, scenario, hx, hu, hcheck, hne⟩ := h
  have hget : s.manager.get id identity.userId = .ok x := by
    simp [SessionManager.get, hx, hu]
  have hfound : resetStep sha256 outside id s (.manager (.get id identity.userId)) (.ok x) s :=
    resetStep_of ⟨s.clock, Clock.le_refl _, hget.symm, rfl⟩
  have hdone : (SessionUpdate.resetStart.apply s.clock x).1 = .done := rfl
  obtain ⟨after, hmark, hafter⟩ : ∃ t, (update env id identity.userId .resetStart).Completes
      (resetStep sha256 outside id) s (.ok .done) t ∧ t.manager.sessions.lookup id =
        some (SessionUpdate.resetStart.apply s.clock x).2 := update_runs env hx hu hdone
  refine ⟨after, ?_, ?_⟩
  · rw [resetSession, hinit, if_neg (by decide)]
    refine .step hfound ?_
    simp only [Program.bind, hcheck]
    refine hmark.bind ?_
    simp only [hclient, if_true]
    exact .done _ _
  · intro hkeeps
    obtain ⟨y, hy, hstatus⟩ := hkeeps _ hafter
    rw [hx, Option.some_inj] at hy
    subst hy
    exact hne hstatus.symm

/-- Every error of a reset leaves the status as it was exactly where no session is left stuck for
want of an API client. -/
theorem failed_reset_keeps_status_iff (sha256 : String → Digest) (outside : Outside)
    (env : ServerEnv) (identity : Identity) (id : Uuid) (s : ServerState) :
    (∀ e t, (resetSession env identity id).Completes (resetStep sha256 outside id) s (.error e) t →
        KeepsStatus id s.manager t.manager) ↔
      ¬ StaysResetting env identity id s.manager := by
  constructor
  · intro hall hstays
    obtain ⟨t, hrun, hlost⟩ := reset_stays_resetting sha256 outside hstays
    exact hlost (hall _ t hrun)
  · intro hnot e t h
    exact reset_error_keeps hnot h

def clientless : ServerEnv := { configured with apiClient := none }

def activeStart : ServerState :=
  { manager := ((ManagerOp.update 1 "u1" .sessionCreated).run (fun _ => 0) oneSession
      (atSecond 0)).2
    clock := atSecond 0
    file := none
    tmp := none
    world := [] }

theorem active_reset_gets_stuck :
    ¬ ∀ e t, (resetSession clientless (reaperIdentity firstSession) 1).Completes
      (resetStep (fun _ => 0) answering 1) activeStart (.error e) t →
        KeepsStatus 1 activeStart.manager t.manager := by
  intro hall
  have hnames := derived_names_pass (fun _ => 0) "u1" 1
  have hstays : StaysResetting clientless (reaperIdentity firstSession) 1 activeStart.manager := by
    refine ⟨rfl, rfl, (SessionUpdate.sessionCreated.apply (atSecond 0) firstSession).2, _, rfl, rfl,
      PassesGuards.resettable hnames clientless, ?_⟩
    decide
  obtain ⟨t, hrun, hlost⟩ :=
    reset_stays_resetting (fun _ => 0) answering hstays
  exact hlost (hall _ t hrun)

end Status

end PlaygroundReset
