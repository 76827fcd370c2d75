import Mathlib.Data.Set.Basic
import Playground.PlaygroundNamespaceTeardown
import Playground.PlaygroundSafeNames
import Playground.PlaygroundServer
import Playground.PlaygroundTeardownFrame
import Playground.PlaygroundTemplates

/-! # What the calls of a teardown do

What a request does to what exists is a relation of which only documented behaviour is assumed, and
requests are read off their texts. A call of the server comes down to requests: one statement, the
commands of a shell line, or the scan of a keyspace. -/
namespace PlaygroundTeardownEffects

open InteractionPrograms
open KeyspaceScans
open PlaygroundApiClient
open PlaygroundCleanup
open PlaygroundDispatcher
open PlaygroundNames
open PlaygroundNamespaceTeardown (Call Held InNamespace Keyspace)
open PlaygroundOperations
open PlaygroundResources hiding Held
open PlaygroundSafeNames
open PlaygroundServer (Succeeded)
open PlaygroundSessions
open PlaygroundTeardownFrame
open PlaygroundTemplates (s3BucketFor)
open ShellWords

inductive Asset where
  | artifact (x : Artifact)
  | topic (name : String)
  deriving DecidableEq, Repr

abbrev World := Set Asset

section Requests

inductive Request where
  | api (request : ApiRequest)
  | statement (sidecar : Sidecar) (sql : String)
  | program (argv : Argv)

/-- A name that needs no quotes in a URL or a statement. -/
def Plain (name : String) : Prop := ∀ c ∈ name.toList, c.isAlphanum = true ∨ c = '_'

/-- What is gone after a request that succeeds. -/
inductive Deletes : Request → Artifact → Prop where
  | shuttle {name} : Plain name →
      Deletes (.api ⟨"DELETE", "/api/v1/shuttles/" ++ name, none⟩) (.shuttle name)
  | connection {name} : Plain name →
      Deletes (.api ⟨"DELETE", "/api/v1/connections/" ++ name, none⟩) (.connection name)
  | catalogNamespace {name} : Plain name →
      Deletes (.api ⟨"DELETE",
        "/api/v1/catalog/namespaces/" ++ name ++ "?cascade=true&purge=true", none⟩)
        (.catalogNamespace name)
  | publication {name} : Plain name →
      Deletes (.statement .postgres ("DROP PUBLICATION IF EXISTS \"" ++ name ++ "\""))
        (.publication name)
  | replicationSlot {name} : Plain name →
      Deletes (.statement .postgres
        ("DO $$ BEGIN IF EXISTS (SELECT 1 FROM pg_replication_slots WHERE slot_name = '" ++ name ++
          "') THEN PERFORM pg_drop_replication_slot('" ++ name ++ "'); END IF; END $$"))
        (.replicationSlot name)
  | schema {name} : Plain name →
      Deletes (.statement .postgres ("DROP SCHEMA IF EXISTS \"" ++ name ++ "\" CASCADE"))
        (.schema name)
  | mysqlDatabase {name} : Plain name →
      Deletes (.statement .mysql ("DROP DATABASE IF EXISTS `" ++ name ++ "`"))
        (.mysqlDatabase name)
  | clickhouseDatabase {name} : Plain name →
      Deletes (.statement .clickhouse ("DROP DATABASE IF EXISTS `" ++ name ++ "`"))
        (.clickhouseDatabase name)
  | object {argv bucket key} : McRemoves argv bucket key →
      Deletes (.program argv) (.object bucket key)

/-- What a request may remove, whether it succeeds or not. -/
def MayRemove : Request → Artifact → Prop
  | .api r, x => ∃ identity, Removes (.api r identity) x
  | .statement sidecar sql, x => Reaches (.statement sidecar sql) x
  | .program argv, .object bucket key => McRemoves argv bucket key
  | .program _, _ => False

/-- Requests made to delete, and the other two commands of a purge. -/
def Deletion : Request → Prop
  | .program argv => argv = ["true".toList] ∨ ["mc".toList, "alias".toList] <+: argv ∨
      ∃ bucket key, McRemoves argv bucket key
  | q => ∃ x, Deletes q x

/-- What the server relies on: a deletion that succeeds leaves nothing of what it names, and no
deletion creates anything or removes anything else. -/
structure Documented (act : World → Request → Bool → World → Prop) : Prop where
  deletes : ∀ {w q w' x}, act w q true w' → Deletes q x → .artifact x ∉ w'
  onlyDeletes : ∀ {w q ok w'}, act w q ok w' → Deletion q → w' ⊆ w
  keeps : ∀ {w q ok w' a}, act w q ok w' → Deletion q → a ∈ w →
    (∀ x, a = .artifact x → ¬ MayRemove q x) → a ∈ w'

theorem plain_of_all {name : String} (h : name.toList.all identifierChar = true) : Plain name := by
  intro c hc
  have hchar := List.all_eq_true.mp h c hc
  simpa [identifierChar] using hchar

theorem plain_identifier {name : String} (h : isSafeIdentifier name = true) : Plain name := by
  simp only [isSafeIdentifier, Bool.and_eq_true] at h
  exact plain_of_all h.2

theorem plain_resource {name : String} (h : isSafeResourceName name = true) : Plain name := by
  simp only [isSafeResourceName, Bool.and_eq_true] at h
  exact plain_of_all h.2

theorem plain_shuttleArtifact {name : String}
    (h : isSafePlaygroundShuttleArtifact name = true) : Plain name := by
  unfold isSafePlaygroundShuttleArtifact at h
  split at h
  · cases h
  · split at h
    · cases h
    · rename_i hall
      exact plain_of_all (by simpa using hall)

end Requests

section Calls

/-- The parties outside: what they do on a request and on a call of another kind, and how Redis
scans its keys. -/
structure Parties where
  act : World → Request → Bool → World → Prop
  other : World → (c : ExternalCall) → c.Result → World → Prop
  order : ScanOrder String UInt64 0

open Classical in
noncomputable def keysIn (w : World) : Keyspace Unit := fun key =>
  if .artifact (.redisKey key) ∈ w then some () else none

def shellList (program : String) (args : List String) : Option (List (Connector × Argv)) :=
  if program = "bash" then
    match args with
    | [flag, line] => if flag = "-c" then jobs line.toList else none
    | _ => none
  else none

/-- A command of a shell line; in a strict line every command that is run succeeds. -/
def Parties.runs (P : Parties) (strict : Prop) (w : World) (argv : Argv) (ok : Bool)
    (w' : World) : Prop :=
  (strict → ok = true) ∧ P.act w (.program argv) ok w'

/-- What a method of the dispatcher does once its guard has passed: the statement is sent, or the
keyspace is scanned. -/
def Parties.cleans (P : Parties) (r : Except DispatchError Unit) (w w' : World) :
    Except DispatchError Cleanup → Prop
  | .error _ => w' = w
  | .ok (.statement sidecar sql) => P.act w (.statement sidecar sql) r.toBool w'
  | .ok (.deleteMatching pattern) => ∃ name, pattern = name ++ ":*" ∧
      Call P.order name r (keysIn w) (keysIn w') ∧
      ∀ a, (∀ key, a ≠ .artifact (.redisKey key)) → (a ∈ w' ↔ a ∈ w)

def Parties.effect (P : Parties) (strict : Prop) (w : World) :
    (c : ExternalCall) → c.Result → World → Prop
  | .api request _, r, w' => P.act w (.api request) r.toBool w'
  | .dispatcher (.teardown .postgres name), r, w' => P.cleans r w w' (teardownPostgresSchema name)
  | .dispatcher (.teardown .mysql name), r, w' => P.cleans r w w' (teardownMysqlDatabase name)
  | .dispatcher (.teardown .clickhouse name), r, w' =>
    P.cleans r w w' (teardownClickhouseDatabase name)
  | .dispatcher (.teardown .redis name), r, w' => P.cleans r w w' (teardownRedisNamespace name)
  | .dispatcher (.dropPublication name), r, w' => P.cleans r w w' (dropPostgresPublication name)
  | .dispatcher (.dropReplicationSlot name), r, w' =>
    P.cleans r w w' (dropPostgresReplicationSlot name)
  | .command program args, r, w' =>
    match shellList program args with
    | some list => RunsList (P.runs strict) true list w w'
    | none => P.other w (.command program args) r w'
  | c, r, w' => P.other w c r w'

/-- One call; strictly, it succeeds and so does all that it runs. -/
def Parties.answers (P : Parties) (strict : Prop) (w : World) (c : ExternalCall) (r : c.Result)
    (w' : World) : Prop :=
  (strict → Succeeded c r) ∧ P.effect strict w c r w'

end Calls

section Teardown

/-- The server has the keys of the object store. -/
def HasKeys (env : ServerEnv) : Prop :=
  (minioAccess env).isSome = true ∧ (minioSecret env).isSome = true

/-- All that carries a session's own names. -/
def Own (n : Names) : Artifact → Prop
  | .object bucket key => bucket = s3BucketFor ∧ n.namespaceName.toList ++ ['/'] <+: key.toList
  | .redisKey key => n.namespaceName.toList ++ [':'] <+: key.toList
  | x => Belongs n x

/-- Nothing is new, and nothing is gone but what carries the names. -/
def Shrinks (n : Names) (w w' : World) : Prop :=
  w' ⊆ w ∧ ∀ a ∈ w, (∀ x, a = .artifact x → ¬ Belongs n x) → a ∈ w'

variable {P : Parties} {strict : Prop} {n : Names} {env : ServerEnv} {identity : Identity}
  {w w' w'' : World} {x : Artifact}

theorem Shrinks.refl : Shrinks n w w := ⟨Set.Subset.rfl, fun _ ha _ => ha⟩

theorem Shrinks.trans (h : Shrinks n w w') (h' : Shrinks n w' w'') : Shrinks n w w'' :=
  ⟨h'.1.trans h.1, fun a ha hother => h'.2 a (h.2 a ha hother) hother⟩

theorem act_shrinks (hdoc : Documented P.act) {q : Request} {ok : Bool} (h : P.act w q ok w')
    (hdeletion : Deletion q) (hbelongs : ∀ x, MayRemove q x → Belongs n x) : Shrinks n w w' :=
  ⟨hdoc.onlyDeletes h hdeletion, fun _ ha hother =>
    hdoc.keeps h hdeletion ha fun x hx hmay => hother x hx (hbelongs x hmay)⟩

theorem statement_shrinks (hdoc : Documented P.act) {sidecar : Sidecar} {sql what name : String}
    {accepted : Bool} {r : Except DispatchError Unit}
    (h : P.cleans r w w' (guarded accepted what name (.statement sidecar sql)))
    (hdeletes : accepted = true → ∃ x, Deletes (.statement sidecar sql) x)
    (hbelongs : accepted = true → ∀ x, Reaches (.statement sidecar sql) x → Belongs n x) :
    Shrinks n w w' := by
  by_cases haccepted : accepted = true
  · rw [guarded_accepted haccepted] at h
    exact act_shrinks hdoc h (hdeletes haccepted) (hbelongs haccepted)
  · rw [guarded, if_neg haccepted] at h
    obtain rfl : w' = w := h
    exact .refl

theorem mem_keysIn {key : String} : keysIn w key = some () ↔ .artifact (.redisKey key) ∈ w := by
  unfold keysIn
  split <;> simp_all

theorem held_keysIn {key : String} : Held (keysIn w) key ↔ .artifact (.redisKey key) ∈ w := by
  unfold Held keysIn
  split <;> simp_all

theorem keyspace_ext {s t : Keyspace Unit} (h : ∀ key, Held s key ↔ Held t key) : s = t := by
  funext key
  have hkey := h key
  unfold Held at hkey
  cases hs : s key <;> cases ht : t key <;> simp_all

theorem redis_shrinks {r : Except DispatchError Unit}
    (h : P.cleans r w w' (teardownRedisNamespace n.namespaceName)) : Shrinks n w w' := by
  unfold teardownRedisNamespace guarded at h
  split at h
  · obtain ⟨name, hname, hcall, hrest⟩ := h
    obtain rfl : n.namespaceName = name := (String.append_left_inj ":*").mp hname
    -- A key that is not there any more was in the namespace.
    have hkey : ∀ key, (.artifact (.redisKey key) ∈ w' ↔ .artifact (.redisKey key) ∈ w) ∨
        n.namespaceName.toList <+: key.toList ∧ .artifact (.redisKey key) ∉ w' := by
      intro key
      rcases hcall.trims key with hsame | ⟨hin, hgone⟩
      · rw [← mem_keysIn, ← mem_keysIn, hsame]
        exact Or.inl Iff.rfl
      · rw [InNamespace, String.toList_append] at hin
        refine Or.inr ⟨(List.prefix_append _ _).trans hin, fun hmem => ?_⟩
        rw [mem_keysIn.mpr hmem] at hgone
        cases hgone
    have hcases : ∀ a, (a ∈ w' ↔ a ∈ w) ∨ ∃ key, a = .artifact (.redisKey key) ∧
        n.namespaceName.toList <+: key.toList ∧ a ∉ w' := by
      intro a
      by_cases ha : ∃ key, a = .artifact (.redisKey key)
      · obtain ⟨key, rfl⟩ := ha
        exact (hkey key).imp_right fun hgone => ⟨key, rfl, hgone⟩
      · exact Or.inl (hrest a fun key hk => ha ⟨key, hk⟩)
    constructor
    · intro a ha
      rcases hcases a with hsame | ⟨_, _, _, hgone⟩
      · exact hsame.mp ha
      · exact absurd ha hgone
    · intro a ha hother
      rcases hcases a with hsame | ⟨key, rfl, hin, _⟩
      · exact hsame.mpr ha
      · exact absurd hin (hother _ rfl)
  · obtain rfl : w' = w := h
    exact .refl

theorem shellList_bash (line : String) : shellList "bash" ["-c", line] = jobs line.toList := rfl

/-- The words of the two removals of a purge. -/
theorem purge_mcRemoves {bucket namespaceName : List Char} (hbucket : '/' ∉ bucket)
    {key : List Char} (hkey : namespaceName ++ ['/'] <+: key) :
    McRemoves ["mc".toList, "rm".toList, "--recursive".toList, "--force".toList,
      "local/".toList ++ (bucket ++ '/' :: (namespaceName ++ ['/']))] (String.ofList bucket)
      (String.ofList key) := by
  refine ⟨_, namespaceName ++ ['/'], rfl, ?_, ?_⟩
  · rw [splitOnce_append hbucket, String.toList_ofList]
  · rw [String.toList_ofList]
    exact hkey

theorem purge_deletion {endpoint access secret namespaceName : String} {joint : Connector}
    {argv : Argv} {list : List (Connector × Argv)}
    (hlist : jobs (purgeCommand endpoint access secret (warehouseBucket env) namespaceName).toList =
      some list) (hmem : (joint, argv) ∈ list) : Deletion (.program argv) := by
  rw [purgeCommand_jobs, Option.some.injEq] at hlist
  subst hlist
  simp only [List.mem_cons, List.not_mem_nil, or_false, Prod.mk.injEq] at hmem
  rcases hmem with ⟨-, rfl⟩ | ⟨-, rfl⟩ | ⟨-, rfl⟩ | ⟨-, rfl⟩ | ⟨-, rfl⟩
  · exact Or.inr (Or.inl ⟨_, rfl⟩)
  · exact Or.inr (Or.inr ⟨_, _, purge_mcRemoves (warehouseBucket_plain env) List.prefix_rfl⟩)
  · exact Or.inl rfl
  · exact Or.inr (Or.inr ⟨_, _, purge_mcRemoves (by decide) List.prefix_rfl⟩)
  · exact Or.inl rfl

/-- The purge is a list of commands that delete keys of the namespace, of which the one for the
bucket of uploads does not depend on the others. -/
theorem purge_list {c : ExternalCall} (hop : .external c ∈ purgeOps env n.namespaceName) :
    ∃ line list, c = .command "bash" ["-c", line] ∧ jobs line.toList = some list ∧
      (∀ joint argv, (joint, argv) ∈ list → Deletion (.program argv)) ∧
      (.always, ["mc".toList, "rm".toList, "--recursive".toList, "--force".toList,
        "local/".toList ++ ("file-ingestion".toList ++ '/' :: (n.namespaceName.toList ++ ['/']))]) ∈
          list := by
  obtain ⟨access, secret, -, -, heq⟩ := (mem_purgeOps env).mp hop
  cases heq
  have hlist := purgeCommand_jobs (minioEndpoint env) access secret (warehouseBucket env)
    n.namespaceName
  refine ⟨_, _, rfl, hlist, fun _ _ hmem => purge_deletion hlist hmem, ?_⟩
  exact List.mem_cons_of_mem _ (List.mem_cons_of_mem _ (List.mem_cons_of_mem _
    List.mem_cons_self))

theorem purge_shrinks (hdoc : Documented P.act) {c : ExternalCall} {r : c.Result}
    (hop : .external c ∈ purgeOps env n.namespaceName) (h : P.effect strict w c r w') :
    Shrinks n w w' := by
  obtain ⟨line, list, rfl, hlist, hdeletion, -⟩ := purge_list hop
  have hruns : RunsList (P.runs strict) true list w w' := by
    simpa only [Parties.effect, shellList_bash, hlist] using h
  have hcommands : commands line.toList = some (list.map Prod.snd) := by
    rw [commands, hlist, Option.map_some]
  refine hruns.keeps (Q := fun t => Shrinks n w t) ?_ .refl
  rintro joint argv hmem t ok t' ⟨-, hact⟩ hw
  refine hw.trans (act_shrinks hdoc hact (hdeletion joint argv hmem) fun x hmay => ?_)
  cases x with
  | object bucket key =>
    have hargv : argv ∈ list.map Prod.snd := List.mem_map.mpr ⟨_, hmem, rfl⟩
    exact purge_removes hop ⟨rfl, line, rfl, _, hcommands, argv, hargv, hmay⟩
  | _ => exact hmay.elim

theorem teardown_shrinks (hdoc : Documented P.act) {c : ExternalCall} {r : c.Result}
    (hop : .external c ∈ teardownOps env identity n.shuttleName n.connectionName n.namespaceName)
    (h : P.effect strict w c r w') : Shrinks n w w' := by
  obtain ⟨⟨hshuttle, _⟩, hop⟩ := (mem_teardown env identity).mp hop
  rcases hop with hop | ⟨hnamespace, hop | hop⟩ | ⟨hconnection, hop⟩ |
    ⟨_, hop | ⟨sidecar, hop⟩⟩ | hop
  · cases hop
    refine act_shrinks hdoc h ⟨_, .shuttle (plain_identifier hshuttle)⟩ ?_
    exact fun x ⟨caller, hmay⟩ => @deleteShuttle_removes n caller x hmay
  · cases hop
    refine act_shrinks hdoc h ⟨_, .catalogNamespace (plain_identifier hnamespace)⟩ ?_
    exact fun x ⟨caller, hmay⟩ => @deleteNamespace_removes n caller x hmay
  · exact purge_shrinks hdoc hop h
  · cases hop
    refine act_shrinks hdoc h ⟨_, .connection (plain_identifier hconnection)⟩ ?_
    exact fun x ⟨caller, hmay⟩ => @deleteConnection_removes n caller x hmay
  · rcases replicationOps_dispatcher hop with hop | hop
    · cases hop
      exact statement_shrinks hdoc h
        (fun hsafe => ⟨_, .publication (plain_shuttleArtifact hsafe)⟩) fun hsafe x hreach =>
          publication_removes ⟨_, congrArg some (guarded_accepted hsafe), hreach⟩
    · cases hop
      exact statement_shrinks hdoc h
        (fun hsafe => ⟨_, .replicationSlot (plain_shuttleArtifact hsafe)⟩)
        fun hsafe x hreach => slot_removes ⟨_, congrArg some (guarded_accepted hsafe), hreach⟩
  · cases hop
    cases sidecar with
    | postgres =>
      exact statement_shrinks hdoc h (fun hsafe => ⟨_, .schema (plain_resource hsafe)⟩)
        fun hsafe x hreach => schema_removes ⟨_, congrArg some (guarded_accepted hsafe), hreach⟩
    | mysql =>
      exact statement_shrinks hdoc h (fun hsafe => ⟨_, .mysqlDatabase (plain_resource hsafe)⟩)
        fun hsafe x hreach => mysql_removes ⟨_, congrArg some (guarded_accepted hsafe), hreach⟩
    | clickhouse =>
      exact statement_shrinks hdoc h (fun hsafe => ⟨_, .clickhouseDatabase (plain_resource hsafe)⟩)
        fun hsafe x hreach => clickhouse_removes ⟨_, congrArg some (guarded_accepted hsafe), hreach⟩
    | redis => exact redis_shrinks h
  · cases hop

section Erased

variable {sha256 : String → Digest} {userId : String} {id : Uuid}

theorem api_erases (hdoc : Documented P.act) {request : ApiRequest} {caller : Identity}
    {r : Except ApiCallError (ℕ × PlaygroundManifest.Value)} (hdeletes : Deletes (.api request) x)
    (h : P.answers True w (.api request caller) r w') : .artifact x ∉ w' := by
  obtain ⟨hsucceeded, hact⟩ := h
  obtain ⟨v, rfl⟩ := hsucceeded trivial
  exact hdoc.deletes hact hdeletes

theorem statement_erases (hdoc : Documented P.act) {sidecar : Sidecar} {sql what name : String}
    {accepted : Bool} {r : Except DispatchError Unit} (haccepted : accepted = true)
    (hdeletes : Deletes (.statement sidecar sql) x) (hr : ∃ v, r = .ok v)
    (h : P.cleans r w w' (guarded accepted what name (.statement sidecar sql))) :
    .artifact x ∉ w' := by
  obtain ⟨v, rfl⟩ := hr
  rw [guarded_accepted haccepted] at h
  exact hdoc.deletes h hdeletes

theorem redis_erases {key : String} (hsafe : isSafeResourceName n.namespaceName = true)
    (hx : Own n (.redisKey key)) {r : Except DispatchError Unit} (hr : ∃ v, r = .ok v)
    (h : P.cleans r w w' (teardownRedisNamespace n.namespaceName)) :
    .artifact (.redisKey key) ∉ w' := by
  obtain ⟨v, rfl⟩ := hr
  rw [teardownRedisNamespace, guarded_accepted hsafe] at h
  obtain ⟨name, hname, hcall, -⟩ := h
  obtain rfl : n.namespaceName = name := (String.append_left_inj ":*").mp hname
  have hin : InNamespace n.namespaceName key := by
    rw [InNamespace, String.toList_append]
    exact hx
  intro hmem
  have hgone := hcall.empties key hin
  rw [mem_keysIn.mpr hmem] at hgone
  cases hgone

theorem purge_erases (hdoc : Documented P.act) {bucket key : String} {c : ExternalCall}
    {r : c.Result} (hop : .external c ∈ purgeOps env n.namespaceName)
    (hx : Own n (.object bucket key)) (h : P.answers True w c r w') :
    .artifact (.object bucket key) ∉ w' := by
  obtain ⟨line, list, rfl, hlist, hdeletion, hremoval⟩ := purge_list hop
  obtain ⟨rfl, hkey⟩ := hx
  have hruns : RunsList (P.runs True) true list w w' := by
    simpa only [Parties.effect, shellList_bash, hlist] using h.2
  refine hruns.reaches (Q := fun t => .artifact (.object s3BucketFor key) ∉ t)
    (fun _ _ _ _ hrun => hrun.1 trivial) hremoval (by decide) ?_ ?_
  · rintro t ok t' ⟨hok, hact⟩
    rw [hok trivial] at hact
    exact hdoc.deletes hact (.object ⟨_, _, rfl, splitOnce_append (by decide), hkey⟩)
  · rintro joint argv hmem t ok t' ⟨-, hact⟩ hgone hback
    exact hgone (hdoc.onlyDeletes hact (hdeletion joint argv hmem) hback)

/-- For all that carries the session's own names a teardown has a call after which it is gone. -/
theorem teardown_erases (hdoc : Documented P.act) (identity : Identity)
    (hn : n = namesOf sha256 userId id) (hclient : env.apiClient.isSome = true) (hx : Own n x)
    (hkeys : ∀ bucket key, x = .object bucket key → HasKeys env) :
    ∃ c, .external c ∈ teardownOps env identity n.shuttleName n.connectionName n.namespaceName ∧
      ∀ w r w', P.answers True w c r w' → .artifact x ∉ w' := by
  have hpass : PassesGuards n.shuttleName n.connectionName n.namespaceName := by
    rw [hn]
    exact derived_names_pass sha256 userId id
  have hmem : ∀ {c : ExternalCall}, TeardownCall env identity n.shuttleName n.connectionName
      n.namespaceName (.external c) → .external c ∈ teardownOps env identity n.shuttleName
      n.connectionName n.namespaceName := hpass.mem_teardown hclient
  cases x with
  | shuttle name =>
    subst hx
    exact ⟨_, hmem .shuttle, fun _ _ _ => api_erases hdoc
      (.shuttle (plain_identifier hpass.shuttleIdentifier))⟩
  | connection name =>
    subst hx
    exact ⟨_, hmem .connection, fun _ _ _ => api_erases hdoc
      (.connection (plain_identifier hpass.connectionIdentifier))⟩
  | catalogNamespace name =>
    subst hx
    exact ⟨_, hmem .catalogNamespace, fun _ _ _ => api_erases hdoc
      (.catalogNamespace (plain_identifier hpass.namespaceIdentifier))⟩
  | object bucket key =>
    obtain ⟨haccess, hsecret⟩ := hkeys bucket key rfl
    obtain ⟨access, haccess⟩ := Option.isSome_iff_exists.mp haccess
    obtain ⟨secret, hsecret⟩ := Option.isSome_iff_exists.mp hsecret
    have hop : .external (.command "bash" ["-c", purgeCommand (minioEndpoint env) access secret
        (warehouseBucket env) n.namespaceName]) ∈ purgeOps env n.namespaceName :=
      (mem_purgeOps env).mpr ⟨access, secret, haccess, hsecret, rfl⟩
    exact ⟨_, hmem (.purge hop), fun _ _ _ => purge_erases hdoc hop hx⟩
  | publication name =>
    subst hx
    have hsafe := hpass.publicationArtifact
    exact ⟨_, hmem .publication, fun _ _ _ h => statement_erases hdoc hsafe
      (.publication (plain_shuttleArtifact hsafe)) (h.1 trivial) h.2⟩
  | replicationSlot name =>
    subst hx
    have hsafe := hpass.slotArtifact
    exact ⟨_, hmem .slot, fun _ _ _ h => statement_erases hdoc hsafe
      (.replicationSlot (plain_shuttleArtifact hsafe)) (h.1 trivial) h.2⟩
  | schema name =>
    subst hx
    have hsafe := hpass.namespaceResource
    exact ⟨_, hmem (.source .postgres), fun _ _ _ h => statement_erases hdoc hsafe
      (.schema (plain_resource hsafe)) (h.1 trivial) h.2⟩
  | mysqlDatabase name =>
    subst hx
    have hsafe := hpass.namespaceResource
    exact ⟨_, hmem (.source .mysql), fun _ _ _ h => statement_erases hdoc hsafe
      (.mysqlDatabase (plain_resource hsafe)) (h.1 trivial) h.2⟩
  | clickhouseDatabase name =>
    subst hx
    have hsafe := hpass.namespaceResource
    exact ⟨_, hmem (.source .clickhouse), fun _ _ _ h => statement_erases hdoc hsafe
      (.clickhouseDatabase (plain_resource hsafe)) (h.1 trivial) h.2⟩
  | redisKey key =>
    exact ⟨_, hmem (.source .redis), fun _ _ _ h => redis_erases hpass.namespaceResource hx
      (h.1 trivial) h.2⟩

end Erased

end Teardown

end PlaygroundTeardownEffects
