import Playground.PlaygroundActions
import Playground.PlaygroundManifestValidation
import Playground.PlaygroundTeardownEffects

/-! # Complete teardown

One session from its creation over any actions and resets to its end, every call outside
succeeding. Whatever calls create, the end removes all that carries the session's own names and
nothing else: Kafka topics stay, and so do shuttles under longer names. -/
namespace PlaygroundCompleteTeardown

open InteractionPrograms
open PlaygroundActions
open PlaygroundApiClient
open PlaygroundCleanup
open PlaygroundDispatcher
open PlaygroundHandlers
open PlaygroundManagerRuns
open PlaygroundManifest (Manifest)
open PlaygroundManifestValidation (validate)
open PlaygroundNames
open PlaygroundNamespaceTeardown (Held InNamespace Selected call_one_page held_without oneBucket
  selected_iff without)
open PlaygroundOperations
open PlaygroundResources hiding Held
open PlaygroundServer (Succeeded accepted accepted_succeeds)
open PlaygroundSessionManager
open PlaygroundSessions
open PlaygroundTeardownEffects
open PlaygroundTeardownFrame
open PlaygroundTemplates (s3BucketFor validateExampleRelativePath)
open ShellWords

theorem uploadFile_keyless {env : ServerEnv} (hkeys : ¬ HasKeys env) (session : Session)
    (payloadFile : String) {ok : (op : Op) → op.Result → Prop} :
    (uploadFile env session payloadFile).Always ok fun _ => False := by
  unfold uploadFile
  cases validateExampleRelativePath payloadFile with
  | error e => trivial
  | ok _ =>
    cases haccess : minioAccess env with
    | none => trivial
    | some access =>
      cases hsecret : minioSecret env with
      | none => trivial
      | some secret => exact absurd ⟨by rw [haccess]; rfl, by rw [hsecret]; rfl⟩ hkeys

section Runs

structure Site where
  manager : SessionManager
  clock : Clock
  assets : World

def siteStep (sha256 : String → Digest) (P : Parties) (s : Site) :
    (op : Op) → op.Result → Site → Prop
  | .manager o, r, s' => ∃ now, s.clock ≤ now ∧ r = (o.run sha256 s.manager now).1 ∧
      s' = { s with manager := (o.run sha256 s.manager now).2, clock := now }
  | .readClock, r, s' => s.clock ≤ r ∧ s' = { s with clock := r }
  | .actionStart _ _, _, s' => ∃ now, s.clock ≤ now ∧ s' = { s with clock := now }
  | .external c, r, s' => ∃ assets, P.answers True s.assets c r assets ∧
      s' = { s with assets := assets }
  | .snapshot, _, s' => s' = s
  | .writeTmp _, _, s' => s' = s
  | .renameTmp, _, s' => s' = s
  | .tryConsume _, _, s' => s' = s
  | .metric _, _, s' => s' = s

inductive SessionRequest where
  | action (actionId : String)
  | reset
  deriving DecidableEq, Repr

def serve (env : ServerEnv) (identity : Identity) (id : Uuid) : SessionRequest → Handler Unit
  | .action actionId => bestEffort (executeAction env identity id actionId)
  | .reset => bestEffort (resetSession env identity id)

def Mine (n : Names) (userId : String) (id : Uuid) (m : SessionManager) : Prop :=
  ∃ s, m.sessions.lookup id = some s ∧ s.userId = userId ∧ sessionNames s = n

/-- Manager operations that neither take a session out of the map nor put one in. -/
def staysIn : ManagerOp → Bool
  | .create _ => false
  | .endSession _ _ => false
  | .sweepExpired => false
  | _ => true

def Keeps : Op → Prop
  | .manager o => staysIn o = true
  | _ => True

instance : Lenient Keeps where
  quiet {op} h := by
    cases op with
    | manager o => exact h.elim
    | _ => trivial

instance : AllowsOthers Keeps := ⟨fun _ => trivial⟩

instance (identity : Identity) : AllowsCaller identity Keeps := ⟨fun _ => trivial⟩

def Inside : Op → Prop
  | .external _ => False
  | _ => True

instance : Lenient Inside where
  quiet {op} h := by
    cases op with
    | external c => exact h.elim
    | _ => trivial

variable {sha256 : String → Digest} {P : Parties} {env : ServerEnv} {identity : Identity}
  {n : Names} {userId : String} {id : Uuid} {m : SessionManager} {now : Clock} {s s' t : Site}

theorem mine_insert (h : Mine n userId id m) {j : Uuid} {v v' : Session}
    (hv : m.sessions.lookup j = some v) (hsame : SameSession v v') :
    Mine n userId id { m with sessions := m.sessions.insert j v' } := by
  obtain ⟨x, hx, huser, hnames⟩ := h
  by_cases hj : id = j
  · subst hj
    rw [hv, Option.some.injEq] at hx
    subst hx
    refine ⟨v', AList.lookup_insert _, ?_, ?_⟩
    · rw [hsame.userId, huser]
    · rw [SameSession.names hsame, hnames]
  · exact ⟨x, (AList.lookup_insert_ne hj).trans hx, huser, hnames⟩

theorem run_mine {o : ManagerOp} (ho : staysIn o = true) (h : Mine n userId id m) :
    Mine n userId id (o.run sha256 m now).2 := by
  cases o with
  | create | endSession | sweepExpired => cases ho
  | update j v u =>
    rcases update_cases (m := m) j v (u.apply now) with ⟨e, he⟩ | ⟨x, hx, _, he⟩
    · simpa only [ManagerOp.run, he] using h
    · simp only [ManagerOp.run, he]
      exact mine_insert h hx (apply_same now u x)
  | touchAction j v =>
    rcases touchAction_cases m now j v with ⟨e, he⟩ | ⟨x, hx, _, he⟩
    · simpa only [ManagerOp.run, he] using h
    · simp only [ManagerOp.run, he]
      exact mine_insert h hx ⟨rfl, rfl, rfl, rfl, rfl, rfl⟩
  | get | getUserSession | liveNamespaces | liveShuttles => exact h

theorem step_mine (op : Op) (r : op.Result) (hop : Keeps op) (h : siteStep sha256 P s op r s')
    (hmine : Mine n userId id s.manager) : Mine n userId id s'.manager := by
  cases op with
  | manager o =>
    obtain ⟨now, _, _, rfl⟩ := h
    exact run_mine hop hmine
  | readClock =>
    obtain ⟨_, rfl⟩ := h
    exact hmine
  | actionStart j actionId =>
    obtain ⟨now, _, rfl⟩ := h
    exact hmine
  | external c =>
    obtain ⟨assets, _, rfl⟩ := h
    exact hmine
  | snapshot | writeTmp | renameTmp | tryConsume | metric =>
    rw [h]
    exact hmine

theorem step_assets (op : Op) (r : op.Result) (hop : Inside op)
    (h : siteStep sha256 P s op r s') : s'.assets = s.assets := by
  cases op with
  | external c => exact hop.elim
  | manager o =>
    obtain ⟨now, _, _, rfl⟩ := h
    rfl
  | readClock =>
    obtain ⟨_, rfl⟩ := h
    rfl
  | actionStart j actionId =>
    obtain ⟨now, _, rfl⟩ := h
    rfl
  | snapshot | writeTmp | renameTmp | tryConsume | metric => rw [h]

theorem inside_assets {α : Type} {p : Handler α} {a : α}
    (h : p.Completes (siteStep sha256 P) s a t)
    (hp : p.Always (fun _ _ => True) Inside) : t.assets = s.assets :=
  h.keeps (Q := fun u => u.assets = s.assets) hp
    (fun _ op r _ hop hs hsame => (step_assets op r hop hs).trans hsame) rfl

theorem keeps_mine {α : Type} {p : Handler α} {a : α}
    (h : p.Completes (siteStep sha256 P) s a t) (hp : p.Always (fun _ _ => True) Keeps)
    (hmine : Mine n userId id s.manager) : Mine n userId id t.manager :=
  h.keeps (Q := fun u => Mine n userId id u.manager) hp
    (fun _ op r _ hop hs => step_mine op r hop hs) hmine

theorem serve_keeps (request : SessionRequest) :
    (serve env identity id request).Always (fun _ _ => True) Keeps := by
  cases request with
  | action actionId =>
    exact bestEffort_ops (executeAction_ops rfl rfl (fun _ => trivial) fun _ => rfl)
  | reset => exact bestEffort_ops (resetSession_ops rfl fun _ => rfl)

theorem create_mine {a : SessionManager.CreateArgs} {r : Except SessionError Session}
    (h : (create env a).Completes (siteStep sha256 P) s r t) : (∃ e, r = .error e) ∨
      Mine (namesOf sha256 a.userId a.id) a.userId a.id t.manager := by
  obtain ⟨created, s', ⟨now, _, hcreated, rfl⟩, h⟩ := Program.completes_perform h
  rcases create_cases sha256 s.manager now a with ⟨e, he⟩ | ⟨ttl, _, _, he⟩
  · have herror : created = .error e := hcreated.trans (congrArg Prod.fst he)
    rw [herror] at h
    exact Or.inl ⟨e, (Program.completes_done h).1⟩
  · have hok : created = .ok _ := hcreated.trans (congrArg Prod.fst he)
    rw [hok] at h
    obtain ⟨_, s₁, hpersist, h⟩ := Program.completes_bind h
    obtain ⟨_, rfl⟩ := Program.completes_done h
    refine Or.inr (keeps_mine hpersist persist_ops ?_)
    simp only [ManagerOp.run, he]
    exact ⟨_, AList.lookup_insert _, rfl, rfl⟩

theorem created_mine {body : CreateSessionBody} {view : SessionView}
    (h : (createSession env identity id body).Completes (siteStep sha256 P) s (.ok view) t) :
    env.initialized = true ∧
      Mine (namesOf sha256 identity.userId id) identity.userId id t.manager := by
  obtain ⟨hinit, scenario, session, now, s₁, s₂, s₃, hcreate, hprovision, hclock, -⟩ :=
    createSession_completes h
  refine ⟨hinit, ?_⟩
  rcases create_mine hcreate with ⟨e, he⟩ | hmine
  · cases he
  · have hprovisioned := keeps_mine hprovision (provision_ops fun _ => rfl) hmine
    exact step_mine .readClock now trivial hclock hprovisioned

theorem endLocked_mine (hmine : Mine n userId id s.manager) {r : Except SessionError Session}
    (h : (endLocked env id userId).Completes (siteStep sha256 P) s r t) :
    (∃ session, r = .ok session ∧ sessionNames session = n) ∧ t.assets = s.assets := by
  obtain ⟨x, hx, huser, hnames⟩ := hmine
  obtain ⟨ended, s', ⟨now, _, hended, rfl⟩, h⟩ := Program.completes_perform h
  have hok : ended = .ok { x with status := .ended } := by
    rw [hended]
    simp [ManagerOp.run, SessionManager.endSession, hx, huser]
  rw [hok] at h
  obtain ⟨_, s₁, hpersist, h⟩ := Program.completes_bind h
  obtain ⟨rfl, rfl⟩ := Program.completes_done h
  have hsame := inside_assets hpersist persist_ops
  exact ⟨⟨_, rfl, hnames⟩, hsame⟩

theorem end_runs_teardown (hinit : env.initialized = true)
    (hmine : Mine n identity.userId id s.manager) {r : Except Failure SessionView}
    (h : (endSession env identity id).Completes (siteStep sha256 P) s r t) :
    (∃ view, r = .ok view) ∧ ∃ u v, u.assets = s.assets ∧ t.assets = v.assets ∧
      (teardownSession env identity n.shuttleName n.connectionName n.namespaceName).Completes
        (siteStep sha256 P) u () v := by
  unfold endSession at h
  rw [hinit, if_neg (by decide)] at h
  obtain ⟨ended, s₁, hended, h⟩ := Program.completes_bind h
  obtain ⟨⟨session, rfl, hnames⟩, hassets⟩ := endLocked_mine hmine hended
  obtain ⟨now, s₂, hclock, h⟩ := Program.completes_perform h
  obtain ⟨_, v, hteardown, h⟩ := Program.completes_bind h
  obtain ⟨later, s₃, hlater, h⟩ := Program.completes_perform h
  obtain ⟨rfl, rfl⟩ := Program.completes_done h
  have hread : ∀ {a b : Site} {c : Clock}, siteStep sha256 P a .readClock c b →
      b.assets = a.assets := fun hstep => step_assets .readClock _ trivial hstep
  refine ⟨⟨_, rfl⟩, s₂, v, (hread hclock).trans hassets, hread hlater, ?_⟩
  · subst hnames
    exact hteardown

section Teardown

variable (hdoc : Documented P.act)
  (h : (teardownSession env identity n.shuttleName n.connectionName n.namespaceName).Completes
    (siteStep sha256 P) s () t)

include hdoc

theorem teardown_step {op : Op} {r : op.Result} (hstep : siteStep sha256 P s op r s')
    (hop : op ∈ teardownOps env identity n.shuttleName n.connectionName n.namespaceName) :
    Shrinks n s.assets s'.assets := by
  cases op with
  | external c =>
    obtain ⟨assets, ⟨-, heffect⟩, rfl⟩ := hstep
    exact teardown_shrinks hdoc hop heffect
  | _ =>
    rw [step_assets _ r trivial hstep]
    exact .refl

include h

theorem teardown_run_shrinks : Shrinks n s.assets t.assets := by
  have hperf : Program.Performs (fun _ _ => True) _ _ := performs_teardown env identity
    n.shuttleName n.connectionName n.namespaceName
  refine h.keeps (Q := fun u => Shrinks n s.assets u.assets) (hperf.always fun op hop => hop) ?_
    .refl
  exact fun u op r u' hop hstep hu => hu.trans (teardown_step hdoc hstep hop)

theorem teardown_run_erases (hn : n = namesOf sha256 userId id)
    (hclient : env.apiClient.isSome = true) {x : Artifact} (hx : Own n x)
    (hkeys : ∀ bucket key, x = .object bucket key → HasKeys env) : .artifact x ∉ t.assets := by
  have hperf : Program.Performs (fun _ _ => True) _ _ := performs_teardown env identity
    n.shuttleName n.connectionName n.namespaceName
  obtain ⟨c, hc, herases⟩ := teardown_erases hdoc identity hn hclient hx hkeys
  refine h.reaches (Q := fun u => .artifact x ∉ u.assets) (hperf.eventually hc rfl)
    (hperf.always fun op hop => hop) ?_ ?_
  · rintro u op r u' rfl ⟨assets, hanswers, rfl⟩
    exact herases _ _ _ hanswers
  · intro u op r u' hop hstep hu hu'
    exact hu ((teardown_step hdoc hstep hop).1 hu')

end Teardown

/-- After the end of a session nothing that carries its own names remains, whatever its creation,
its actions and its resets made; a server without keys of the object store has uploaded nothing.
All else stays: the Kafka topics and the shuttles under longer names too. -/
theorem teardown_complete {body : CreateSessionBody} {requests : List SessionRequest}
    {view : SessionView} {r : Except Failure SessionView} {s₁ s₂ s₃ : Site}
    (hclient : env.apiClient.isSome = true) (hdoc : Documented P.act)
    (hcreate : (createSession env identity id body).Completes (siteStep sha256 P) s (.ok view) s₁)
    (hrequests : (Program.forEach requests (serve env identity id)).Completes
      (siteStep sha256 P) s₁ () s₂)
    (hend : (endSession env identity id).Completes (siteStep sha256 P) s₂ r s₃) :
    (∃ ended, r = .ok ended) ∧
      (∀ x, Own (namesOf sha256 identity.userId id) x →
        (∀ bucket key, x = .object bucket key → HasKeys env) → .artifact x ∉ s₃.assets) ∧
      (¬ HasKeys env → ∀ session payloadFile, (uploadFile env session payloadFile).Always anyResult
        fun _ => False) ∧
      (∀ name, .topic name ∈ s₂.assets → .topic name ∈ s₃.assets) ∧
      ∀ x, ¬ Belongs (namesOf sha256 identity.userId id) x →
        .artifact x ∈ s₂.assets → .artifact x ∈ s₃.assets := by
  obtain ⟨hinit, hmine⟩ := created_mine hcreate
  have hstill := keeps_mine hrequests (Program.always_forEach fun x _ => serve_keeps x) hmine
  obtain ⟨hended, u, v, hu, hv, hteardown⟩ := end_runs_teardown hinit hstill hend
  have hshrinks := (teardown_run_shrinks hdoc hteardown).2
  rw [← hv, hu] at hshrinks
  refine ⟨hended, fun x hx hkeys => ?_, fun hkeys session payloadFile =>
    uploadFile_keyless hkeys session payloadFile, fun name hname => ?_, fun x hx hmem => ?_⟩
  · rw [hv]
    exact teardown_run_erases hdoc hteardown rfl hclient hx hkeys
  · exact hshrinks _ hname fun x hx => by cases hx
  · exact hshrinks _ hmem fun y hy => by cases hy; exact hx

end Runs

section Demo

-- A world as a list, in which every request succeeds and creates and removes what it names.
/-- The name in `CREATE SHUTTLE IF NOT EXISTS <name> …`. -/
def createdShuttle (sql : String) : Option String :=
  (RustText.stripPrefix "CREATE SHUTTLE IF NOT EXISTS ".toList sql.toList).map fun rest =>
    String.ofList (rest.takeWhile fun c => !RustText.isWhitespace c)

def makes : Request → List Asset
  | .api ⟨"POST", "/api/v1/shuttles", some (.object [("sql", .string sql)])⟩ =>
    ((createdShuttle sql).map fun name => .artifact (.shuttle name)).toList
  | _ => []

def takes : Request → Artifact → Bool
  | .api ⟨"DELETE", path, none⟩, .shuttle name => path == "/api/v1/shuttles/" ++ name
  | .api ⟨"DELETE", path, none⟩, .connection name => path == "/api/v1/connections/" ++ name
  | .api ⟨"DELETE", path, none⟩, .catalogNamespace name =>
    path == "/api/v1/catalog/namespaces/" ++ name ++ "?cascade=true&purge=true"
  | .statement .postgres sql, .publication name =>
    sql == "DROP PUBLICATION IF EXISTS \"" ++ name ++ "\""
  | .statement .postgres sql, .replicationSlot name =>
    sql == "DO $$ BEGIN IF EXISTS (SELECT 1 FROM pg_replication_slots WHERE slot_name = '" ++
      name ++ "') THEN PERFORM pg_drop_replication_slot('" ++ name ++ "'); END IF; END $$"
  | .statement .postgres sql, .schema name =>
    sql == "DROP SCHEMA IF EXISTS \"" ++ name ++ "\" CASCADE"
  | .statement .mysql sql, .mysqlDatabase name => sql == "DROP DATABASE IF EXISTS `" ++ name ++ "`"
  | .statement .clickhouse sql, .clickhouseDatabase name =>
    sql == "DROP DATABASE IF EXISTS `" ++ name ++ "`"
  | _, _ => false

theorem takes_mayRemove {q : Request} {x : Artifact} (h : takes q x = true) : MayRemove q x := by
  unfold takes at h
  split at h
  · exact ⟨⟨"", none, none, ""⟩, by simp only [Removes, eq_of_beq h]⟩
  · exact ⟨⟨"", none, none, ""⟩, by simp only [Removes, eq_of_beq h]⟩
  · exact ⟨⟨"", none, none, ""⟩, by simp only [Removes, eq_of_beq h]⟩
  · exact eq_of_beq h
  · exact eq_of_beq h
  · exact eq_of_beq h
  · exact eq_of_beq h
  · exact eq_of_beq h
  · cases h

theorem makes_deletion {q : Request} (h : Deletion q) : makes q = [] := by
  cases q with
  | api request =>
    obtain ⟨x, hx⟩ := h
    cases hx <;> rfl
  | statement | program => rfl

theorem makes_object {q : Request} {bucket key : String} :
    .artifact (.object bucket key) ∉ makes q := by
  unfold makes
  split <;> simp

def demoAct (w : World) (q : Request) (ok : Bool) (w' : World) : Prop :=
  ok = true ∧ (∀ bucket key, .artifact (.object bucket key) ∉ w) ∧
    ∀ a, a ∈ w' ↔ (a ∈ w ∧ ∀ x, a = .artifact x → takes q x = false) ∨ a ∈ makes q

theorem demoAct_documented : Documented demoAct where
  deletes := by
    rintro w q w' x ⟨-, hobjects, hafter⟩ hdeletes hmem
    have htakes : takes q x = true ∨ ∃ bucket key, x = .object bucket key := by
      cases hdeletes with
      | object => exact Or.inr ⟨_, _, rfl⟩
      | _ => exact Or.inl (by simp [takes])
    rcases (hafter _).mp hmem with ⟨hbefore, hkept⟩ | hmade
    · rcases htakes with htaken | ⟨bucket, key, rfl⟩
      · rw [hkept x rfl] at htaken
        cases htaken
      · exact hobjects bucket key hbefore
    · have hdeletion : Deletion q ∨ ∃ argv, q = .program argv := by
        cases q with
        | program argv => exact Or.inr ⟨argv, rfl⟩
        | api | statement => exact Or.inl ⟨x, hdeletes⟩
      rcases hdeletion with hdeletion | ⟨argv, rfl⟩
      · rw [makes_deletion hdeletion] at hmade
        cases hmade
      · cases hmade
  onlyDeletes := by
    rintro w q ok w' ⟨-, -, hafter⟩ hdeletion a ha
    rcases (hafter a).mp ha with ⟨hbefore, -⟩ | hmade
    · exact hbefore
    · rw [makes_deletion hdeletion] at hmade
      cases hmade
  keeps := by
    rintro w q ok w' a ⟨-, -, hafter⟩ hdeletion ha hother
    refine (hafter a).mpr (Or.inl ⟨ha, fun x hx => ?_⟩)
    by_contra htaken
    exact hother x hx (takes_mayRemove (by simpa using htaken))

def world (l : List Asset) : World := {a | a ∈ l}

def NoObjects (l : List Asset) : Prop := ∀ bucket key, .artifact (.object bucket key) ∉ l

def outcome (l : List Asset) (q : Request) : List Asset :=
  l.filter (fun a => match a with
    | .artifact x => !takes q x
    | .topic _ => true) ++ makes q

/-- The outcome of a list of commands that all succeed. -/
def runAll (l : List Asset) : List (Connector × Argv) → List Asset
  | [] => l
  | (joint, argv) :: rest =>
    if joint.runs true then runAll (outcome l (.program argv)) rest else runAll l rest

def callMakes : ExternalCall → List Asset
  | .dispatcher (.provision .clickhouse name) => [.artifact (.clickhouseDatabase name)]
  | .command "rpk" ("topic" :: "create" :: name :: _) => [.topic name]
  | _ => []

def cleaned (l : List Asset) : Except DispatchError Cleanup → List Asset
  | .ok (.statement sidecar sql) => outcome l (.statement sidecar sql)
  | .ok (.deleteMatching pattern) => l.filter fun a => match a with
    | .artifact (.redisKey key) => !RedisGlob.globMatch pattern.toList key.toList
    | _ => true
  | .error _ => l

def callOutcome (l : List Asset) : ExternalCall → List Asset
  | .api request _ => outcome l (.api request)
  | .dispatcher call =>
    match cleanupOf call with
    | some method => cleaned l method
    | none => l ++ callMakes (.dispatcher call)
  | .command program args =>
    match shellList program args with
    | some list => runAll l list
    | none => l ++ callMakes (.command program args)
  | c => l ++ callMakes c

def demoParties : Parties where
  act := demoAct
  other w c _ w' := ∀ a, a ∈ w' ↔ a ∈ w ∨ a ∈ callMakes c
  order := oneBucket

section Sound

variable {l : List Asset}

theorem callMakes_object {c : ExternalCall} {bucket key : String} :
    .artifact (.object bucket key) ∉ callMakes c := by
  unfold callMakes
  split <;> simp

theorem outcome_act (hl : NoObjects l) (q : Request) :
    demoAct (world l) q true (world (outcome l q)) ∧ NoObjects (outcome l q) := by
  have hmem : ∀ a, a ∈ outcome l q ↔
      (a ∈ l ∧ ∀ x, a = .artifact x → takes q x = false) ∨ a ∈ makes q := by
    intro a
    rw [outcome, List.mem_append, List.mem_filter]
    cases a <;> simp
  refine ⟨⟨rfl, hl, hmem⟩, fun bucket key hobject => ?_⟩
  rcases (hmem _).mp hobject with ⟨hbefore, -⟩ | hmade
  · exact hl bucket key hbefore
  · exact makes_object hmade

theorem runAll_runs (hl : NoObjects l) (list : List (Connector × Argv)) :
    RunsList (demoParties.runs True) true list (world l) (world (runAll l list)) ∧
      NoObjects (runAll l list) := by
  induction list generalizing l with
  | nil => exact ⟨rfl, hl⟩
  | cons job rest ih =>
    obtain ⟨joint, argv⟩ := job
    rw [RunsList, runAll]
    by_cases hruns : joint.runs true = true
    · rw [if_pos hruns, if_pos hruns]
      obtain ⟨hact, hkept⟩ := outcome_act hl (.program argv)
      obtain ⟨hrest, hend⟩ := ih hkept
      exact ⟨⟨true, _, ⟨fun _ => rfl, hact⟩, hrest⟩, hend⟩
    · rw [if_neg hruns, if_neg hruns]
      exact ih hl

def namespaceKeys (name : String) (l : List Asset) : List String :=
  l.filterMap fun a => match a with
    | .artifact (.redisKey key) => if InNamespace name key then some key else none
    | _ => none

theorem mem_namespaceKeys {name key : String} :
    key ∈ namespaceKeys name l ↔ .artifact (.redisKey key) ∈ l ∧ InNamespace name key := by
  rw [namespaceKeys, List.mem_filterMap]
  constructor
  · rintro ⟨a, ha, hkey⟩
    split at hkey
    · split at hkey
      · cases hkey
        exact ⟨ha, ‹_›⟩
      · cases hkey
    · cases hkey
  · rintro ⟨ha, hin⟩
    exact ⟨_, ha, if_pos hin⟩

/-- The keys of the namespace are found on one page. -/
theorem cleaned_redis (hl : NoObjects l) (name : String) :
    demoParties.cleans (.ok ()) (world l) (world (cleaned l (teardownRedisNamespace name)))
      (teardownRedisNamespace name) ∧ NoObjects (cleaned l (teardownRedisNamespace name)) := by
  unfold teardownRedisNamespace guarded
  by_cases hsafe : isSafeResourceName name = true
  · rw [if_pos hsafe]
    have hmem : ∀ a, a ∈ cleaned l (.ok (.deleteMatching (name ++ ":*"))) ↔
        a ∈ l ∧ ∀ key, a = .artifact (.redisKey key) → ¬ InNamespace name key := by
      intro a
      rw [cleaned, List.mem_filter]
      refine and_congr_right fun _ => ?_
      cases a with
      | topic => simp
      | artifact x =>
        cases x with
        | redisKey key =>
          simp [← selected_iff hsafe, Selected]
        | _ => simp
    refine ⟨⟨name, rfl, ?_, ?_⟩, fun bucket key hobject => hl bucket key ((hmem _).mp hobject).1⟩
    · have hkeys : ∀ key, key ∈ namespaceKeys name l ↔
          Held (keysIn (world l)) key ∧ InNamespace name key := fun key => by
        rw [held_keysIn, mem_namespaceKeys]
        rfl
      have hafter : keysIn (world (cleaned l (.ok (.deleteMatching (name ++ ":*"))))) =
          without (keysIn (world l)) (namespaceKeys name l) := by
        refine keyspace_ext fun key => ?_
        rw [held_keysIn, held_without, held_keysIn, mem_namespaceKeys]
        refine (hmem _).trans (and_congr_right fun hkey => ⟨?_, ?_⟩)
        · exact fun hout hin => hout key rfl hin.2
        · rintro hout k hk
          cases hk
          exact fun hin => hout ⟨hkey, hin⟩
      rw [hafter]
      exact call_one_page hsafe hkeys
    · intro a ha
      exact (hmem a).trans (and_iff_left fun key hkey => absurd hkey (ha key))
  · rw [if_neg hsafe]
    exact ⟨rfl, hl⟩

theorem cleaned_statement (hl : NoObjects l) {accepted : Bool} {what name sql : String}
    {sidecar : Sidecar} {method : Except DispatchError Cleanup}
    (hmethod : method = guarded accepted what name (.statement sidecar sql)) :
    demoParties.cleans (.ok ()) (world l) (world (cleaned l method)) method ∧
      NoObjects (cleaned l method) := by
  subst hmethod
  unfold guarded
  split
  · exact outcome_act hl _
  · exact ⟨rfl, hl⟩

theorem callMakes_answers (hl : NoObjects l) (c : ExternalCall) :
    (∀ a, a ∈ world (l ++ callMakes c) ↔ a ∈ world l ∨ a ∈ callMakes c) ∧
      NoObjects (l ++ callMakes c) := by
  refine ⟨fun a => List.mem_append, fun bucket key hobject => ?_⟩
  rcases List.mem_append.mp hobject with hbefore | hmade
  · exact hl bucket key hbefore
  · exact callMakes_object hmade

end Sound

/-- The statement of `clickhouse-snapshot/shuttle.sql` for its second shuttle, up to the name. -/
def demoSql : String := "CREATE SHUTTLE IF NOT EXISTS \x7bshuttle\x7d_sessions;"

def demoReply : (c : ExternalCall) → c.Result
  | .readToString _ => .ok demoSql
  | c => accepted c

theorem demoReply_succeeds (c : ExternalCall) : Succeeded c (demoReply c) := by
  cases c with
  | readToString path => exact ⟨_, rfl⟩
  | _ => exact accepted_succeeds _

theorem demo_answers {l : List Asset} (hl : NoObjects l) (c : ExternalCall) :
    demoParties.answers True (world l) c (demoReply c) (world (callOutcome l c)) ∧
      NoObjects (callOutcome l c) := by
  have hwhole : demoParties.effect True (world l) c (demoReply c) (world (callOutcome l c)) ∧
      NoObjects (callOutcome l c) := by
    cases c with
    | api request identity => exact outcome_act hl (.api request)
    | command program args =>
      simp only [callOutcome, Parties.effect]
      cases shellList program args with
      | none => exact callMakes_answers hl _
      | some list => exact runAll_runs hl list
    | dispatcher call =>
      cases call with
      | teardown sidecar name =>
        cases sidecar with
        | redis => exact cleaned_redis hl name
        | _ => exact cleaned_statement hl rfl
      | dropPublication name => exact cleaned_statement hl rfl
      | dropReplicationSlot name => exact cleaned_statement hl rfl
      | exec | provision => exact callMakes_answers hl _
    | readToString | readBytes | exists_ | post => exact callMakes_answers hl _
  exact ⟨⟨fun _ => demoReply_succeeds c, hwhole.1⟩, hwhole.2⟩

def demoManifest : Manifest :=
  { version := 1
    sources := [⟨"ch", some "clickhouse"⟩]
    scenarios := [{
      id := "demo"
      sourceId := "ch"
      deployment := []
      initSql := none
      shuttleSql := some "demo/shuttle.sql"
      actions := [{
        id := "send"
        kind := .produceKafka
        target := none
        sql := none
        sqlFile := none
        shellCmd := none
        httpRequest := none
        payloadFile := some "events.bin"
        repeatCount := none }]
      breakScenarios := [] }] }

def demoServer : ServerEnv := { configured with manifest := demoManifest }

def demoNames : Names := namesOf (fun _ => 0) "u1" 1

structure DemoSite where
  manager : SessionManager
  clock : Clock
  assets : List Asset

def DemoSite.site (s : DemoSite) : Site := ⟨s.manager, s.clock, world s.assets⟩

def DemoSite.perform (s : DemoSite) : (op : Op) → op.Result × DemoSite
  | .manager o => ((o.run (fun _ => 0) s.manager s.clock).1,
      { s with manager := (o.run (fun _ => 0) s.manager s.clock).2 })
  | .snapshot => (s.manager.rows, s)
  | .writeTmp _ => (true, s)
  | .renameTmp => (true, s)
  | .tryConsume _ => (.ok 1, s)
  | .metric _ => ((), s)
  | .readClock => (s.clock, s)
  | .actionStart _ _ => ((), s)
  | .external c => (demoReply c, { s with assets := callOutcome s.assets c })

theorem perform_step (s : DemoSite) (op : Op) (hs : NoObjects s.assets) :
    siteStep (fun _ => 0) demoParties s.site op (s.perform op).1 (s.perform op).2.site ∧
      NoObjects (s.perform op).2.assets := by
  cases op with
  | manager o => exact ⟨⟨s.clock, Clock.le_refl _, rfl, rfl⟩, hs⟩
  | readClock => exact ⟨⟨Clock.le_refl _, rfl⟩, hs⟩
  | actionStart j actionId => exact ⟨⟨s.clock, Clock.le_refl _, rfl⟩, hs⟩
  | external c =>
    obtain ⟨hanswers, hkept⟩ := demo_answers hs c
    exact ⟨⟨_, hanswers, rfl⟩, hkept⟩
  | snapshot | writeTmp | renameTmp | tryConsume | metric => exact ⟨rfl, hs⟩

theorem perform_completes {α : Type} (p : Handler α) (s : DemoSite) (hs : NoObjects s.assets) :
    p.Completes (siteStep (fun _ => 0) demoParties) s.site (p.eval DemoSite.perform s).1
      (p.eval DemoSite.perform s).2.site ∧ NoObjects (p.eval DemoSite.perform s).2.assets :=
  Program.eval_completes_within (I := fun s : DemoSite => NoObjects s.assets) perform_step p hs

def demoStart : DemoSite := ⟨.new demoManifest true defaultTtl, atSecond 0, []⟩

def demoCreated : Except Failure SessionView × DemoSite :=
  (createSession demoServer alice 1 ⟨"demo", none⟩).eval DemoSite.perform demoStart

def demoServed : Unit × DemoSite :=
  (Program.forEach [.action "send"] (serve demoServer alice 1)).eval DemoSite.perform
    demoCreated.2

def demoEnded : Except Failure SessionView × DemoSite :=
  (endSession demoServer alice 1).eval DemoSite.perform demoServed.2

theorem demo_evaluates : demoCreated.1.toBool = true ∧
    demoCreated.2.assets = [.artifact (.clickhouseDatabase "playground_00000000_00000000"),
      .artifact (.shuttle "pg_00000000_00000000_sessions")] ∧
    demoEnded.2.assets = [.artifact (.shuttle "pg_00000000_00000000_sessions"),
      .topic "pg_00000000_00000000_src"] := by decide +kernel

theorem demoNames_eq : demoNames = ⟨"pg_00000000_00000000", "pg_00000000_00000000_src",
    "playground_00000000_00000000"⟩ := by decide +kernel

theorem demo_created : (createSession demoServer alice 1 ⟨"demo", none⟩).Completes
    (siteStep (fun _ => 0) demoParties) demoStart.site demoCreated.1 demoCreated.2.site ∧
      NoObjects demoCreated.2.assets := by
  unfold demoCreated
  exact perform_completes (createSession demoServer alice 1 ⟨"demo", none⟩) demoStart
    fun _ _ => List.not_mem_nil

theorem demo_served : (Program.forEach [.action "send"] (serve demoServer alice 1)).Completes
    (siteStep (fun _ => 0) demoParties) demoCreated.2.site () demoServed.2.site ∧
      NoObjects demoServed.2.assets := by
  unfold demoServed
  have hserved := perform_completes (Program.forEach [.action "send"] (serve demoServer alice 1))
    demoCreated.2 demo_created.2
  rw [Subsingleton.elim (Program.eval _ _ _).1 ()] at hserved
  exact hserved

theorem demo_ended : (endSession demoServer alice 1).Completes
    (siteStep (fun _ => 0) demoParties) demoServed.2.site demoEnded.1 demoEnded.2.site ∧
      NoObjects demoEnded.2.assets := by
  unfold demoEnded
  exact perform_completes (endSession demoServer alice 1) demoServed.2 demo_served.2

theorem demo_view : ∃ view, demoCreated.1 = .ok view := by
  have hview := demo_evaluates.1
  cases hresult : demoCreated.1 with
  | error e =>
    rw [hresult] at hview
    cases hview
  | ok view => exact ⟨view, rfl⟩

/-- The database that the creation made is gone in the end. -/
theorem teardown_complete_demo :
    .artifact (.clickhouseDatabase demoNames.namespaceName) ∈ demoCreated.2.site.assets ∧
      (∃ ended, demoEnded.1 = .ok ended) ∧
      ∀ x, Own demoNames x → (∀ bucket key, x = .object bucket key → HasKeys demoServer) →
        .artifact x ∉ demoEnded.2.site.assets := by
  obtain ⟨view, hview⟩ := demo_view
  have hcreated := demo_created.1
  rw [hview] at hcreated
  have hcomplete := teardown_complete rfl demoAct_documented hcreated demo_served.1 demo_ended.1
  refine ⟨?_, hcomplete.1, hcomplete.2.1⟩
  have hmade : .artifact (.clickhouseDatabase demoNames.namespaceName) ∈ demoCreated.2.assets := by
    rw [demo_evaluates.2.1, demoNames_eq]
    exact List.mem_cons_self
  exact hmade

/-- The topic of the action and the second shuttle are there after the end of the session. -/
theorem demo_topic_remains : validate demoManifest = .ok () ∧ Documented demoParties.act ∧
    ∃ view r, (createSession demoServer alice 1 ⟨"demo", none⟩).Completes
        (siteStep (fun _ => 0) demoParties) demoStart.site (.ok view) demoCreated.2.site ∧
      (Program.forEach [.action "send"] (serve demoServer alice 1)).Completes
        (siteStep (fun _ => 0) demoParties) demoCreated.2.site () demoServed.2.site ∧
      (endSession demoServer alice 1).Completes
        (siteStep (fun _ => 0) demoParties) demoServed.2.site r demoEnded.2.site ∧
      demoStart.site.assets = ∅ ∧
      .topic (demoNames.shuttleName ++ "_src") ∈ demoEnded.2.site.assets ∧
      .artifact (.shuttle (demoNames.shuttleName ++ "_sessions")) ∈ demoEnded.2.site.assets := by
  obtain ⟨view, hview⟩ := demo_view
  have hcreated := demo_created.1
  rw [hview] at hcreated
  refine ⟨by decide, demoAct_documented, view, _, hcreated, demo_served.1, demo_ended.1, ?_, ?_⟩
  · exact Set.eq_empty_of_forall_notMem fun a => List.not_mem_nil
  · have hleft : .topic (demoNames.shuttleName ++ "_src") ∈ demoEnded.2.assets ∧
        .artifact (.shuttle (demoNames.shuttleName ++ "_sessions")) ∈ demoEnded.2.assets := by
      rw [demo_evaluates.2.2, demoNames_eq]
      decide
    exact hleft

end Demo

end PlaygroundCompleteTeardown
