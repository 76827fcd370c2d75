import Playground.PlaygroundDispatcher
import Playground.PlaygroundResources
import Playground.PlaygroundSafeNames
import Playground.RedisGlob
import Playground.ShellWords

/-! # What a teardown may remove

The resources of a session outside the server, and which of them a call can remove: the API drops
by exact name, the shell command by key prefix, the dispatcher by quoted name and by glob
pattern. A teardown reaches nothing of a session with other names. -/
namespace PlaygroundTeardownFrame

open InteractionPrograms
open PlaygroundApiClient
open PlaygroundCleanup
open PlaygroundDispatcher
open PlaygroundNames
open PlaygroundOperations
open PlaygroundResources
open PlaygroundSafeNames
open PlaygroundSessions
open RedisGlob
open ShellWords

inductive Artifact where
  | shuttle (name : String)
  | connection (name : String)
  | catalogNamespace (name : String)
  | object (bucket key : String)
  | publication (name : String)
  | replicationSlot (name : String)
  | schema (name : String)
  | mysqlDatabase (name : String)
  | clickhouseDatabase (name : String)
  | redisKey (key : String)
  deriving DecidableEq, Repr

/-- Everything outside that carries a session's names. The two prefixes are taken without the
separator the session's own keys have after them. -/
def Belongs (n : Names) : Artifact → Prop
  | .shuttle name => name = n.shuttleName
  | .connection name => name = n.connectionName
  | .catalogNamespace name => name = n.namespaceName
  | .object _ key => n.namespaceName.toList <+: key.toList
  | .publication name => name = n.shuttleName ++ "_pub"
  | .replicationSlot name => name = n.shuttleName ++ "_slot"
  | .schema name => name = n.namespaceName
  | .mysqlDatabase name => name = n.namespaceName
  | .clickhouseDatabase name => name = n.namespaceName
  | .redisKey key => n.namespaceName.toList <+: key.toList

/-- `mc rm --recursive` removes the keys under `local/<bucket>/<prefix>`. -/
def McRemoves (args : List (List Char)) (bucket key : String) : Prop :=
  ∃ rest keyPrefix, args = ["mc".toList, "rm".toList, "--recursive".toList, "--force".toList,
      "local/".toList ++ rest] ∧
    RustText.splitOnce '/' rest = some (bucket.toList, keyPrefix) ∧ keyPrefix <+: key.toList

/-- What a statement or a scan of a sidecar removes. A page of `SCAN MATCH` holds keys that match
the pattern. -/
def Reaches : Cleanup → Artifact → Prop
  | .statement .postgres sql, .schema name =>
    sql = "DROP SCHEMA IF EXISTS \"" ++ name ++ "\" CASCADE"
  | .statement .postgres sql, .publication name =>
    sql = "DROP PUBLICATION IF EXISTS \"" ++ name ++ "\""
  | .statement .postgres sql, .replicationSlot name =>
    sql = "DO $$ BEGIN IF EXISTS (SELECT 1 FROM pg_replication_slots WHERE slot_name = '" ++ name ++
      "') THEN PERFORM pg_drop_replication_slot('" ++ name ++ "'); END IF; END $$"
  | .statement .mysql sql, .mysqlDatabase name => sql = "DROP DATABASE IF EXISTS `" ++ name ++ "`"
  | .statement .clickhouse sql, .clickhouseDatabase name =>
    sql = "DROP DATABASE IF EXISTS `" ++ name ++ "`"
  | .deleteMatching pattern, .redisKey key =>
    ∃ replies : List (UInt64 × List String),
      (∀ r ∈ replies, ∀ k ∈ r.2, globMatch pattern.toList k.toList = true) ∧
        key ∈ deletedKeys replies
  | _, _ => False

/-- Which resources a call may remove. Deleting a namespace with `purge` also removes the files of
its tables, which lie under its name. -/
def Removes : ExternalCall → Artifact → Prop
  | .api r _, .shuttle name => r = ⟨"DELETE", "/api/v1/shuttles/" ++ name, none⟩
  | .api r _, .connection name => r = ⟨"DELETE", "/api/v1/connections/" ++ name, none⟩
  | .api r _, .catalogNamespace name =>
    r = ⟨"DELETE", "/api/v1/catalog/namespaces/" ++ name ++ "?cascade=true&purge=true", none⟩
  | .api r _, .object _ key => ∃ name : String,
    r = ⟨"DELETE", "/api/v1/catalog/namespaces/" ++ name ++ "?cascade=true&purge=true", none⟩ ∧
      name.toList ++ ['/'] <+: key.toList
  | .command program args, .object bucket key => program = "bash" ∧ ∃ line, args = ["-c", line] ∧
      ∃ argLists, commands line.toList = some argLists ∧ ∃ a ∈ argLists, McRemoves a bucket key
  | .dispatcher c, x => ∃ cleanup, cleanupOf c = some (.ok cleanup) ∧ Reaches cleanup x
  | _, _ => False

def OpRemoves : Op → Artifact → Prop
  | .external c, x => Removes c x
  | _, _ => False

section PurgeCommand

theorem splitOnce_append {sep : Char} {a b : List Char} (ha : sep ∉ a) :
    RustText.splitOnce sep (a ++ sep :: b) = some (a, b) := by
  induction a with
  | nil => simp [RustText.splitOnce]
  | cons c a ih =>
    have hne : c ≠ sep := fun e => ha (e ▸ List.mem_cons_self)
    have hrest : sep ∉ a := fun hmem => ha (List.mem_cons_of_mem c hmem)
    rw [List.cons_append, RustText.splitOnce, if_neg hne, ih hrest]
    rfl

theorem warehouseBucket_plain (env : ServerEnv) : '/' ∉ (warehouseBucket env).toList := by
  unfold warehouseBucket
  cases (env.envVar "DS_WAREHOUSE").bind fun s =>
      RustText.stripPrefix "s3://".toList s.toList with
  | none => decide
  | some rest =>
    have hhost : '/' ∉ (RustText.trimEndMatches '/' rest).takeWhile (· != '/') := by
      intro hmem
      have hne := List.mem_takeWhile_imp hmem
      simp at hne
    rw [Option.map_some]
    generalize (RustText.trimEndMatches '/' rest).takeWhile (· != '/') = host at hhost ⊢
    dsimp only
    by_cases hempty : (!(String.ofList host).isEmpty) = true
    · rw [Option.filter_some, if_pos hempty, Option.getD_some, String.toList_ofList]
      exact hhost
    · rw [Option.filter_some, if_neg hempty, Option.getD_none]
      decide

theorem shellQuote_toList (s : String) : (shellQuote s).toList = quote s.toList := by
  rw [shellQuote, String.toList_ofList, quote, List.cons_append]

-- What the fixed texts of the command do to a shell between two words.
theorem run_alias : Lexer.run ⟨.plain, none, []⟩ "mc alias set local ".toList =
    some ⟨.plain, none, ["local", "set", "alias", "mc"].map fun s => Token.word s.toList⟩ := by
  decide +kernel

theorem run_first : Lexer.run ⟨.plain, none, []⟩
    " >/dev/null && mc rm --recursive --force local/".toList =
    some ⟨.plain, some "local/".toList.reverse,
      (["--force", "--recursive", "rm", "mc"].map fun s => Token.word s.toList) ++
        [Token.separator .onSuccess, Token.word "/dev/null".toList, Token.redirect]⟩ := by
  decide +kernel

theorem run_second : Lexer.run ⟨.plain, none, []⟩
    " >/dev/null 2>&1 || true; mc rm --recursive --force local/file-ingestion/".toList =
    some ⟨.plain, some "local/file-ingestion/".toList.reverse,
      (["--force", "--recursive", "rm", "mc"].map fun s => Token.word s.toList) ++
        [Token.separator .always, Token.word "true".toList, Token.separator .onFailure,
          Token.word "1".toList, Token.redirect, Token.word "/dev/null".toList,
          Token.redirect]⟩ := by
  decide +kernel

theorem run_rest : Lexer.run ⟨.plain, none, []⟩ " >/dev/null 2>&1 || true".toList =
    some ⟨.plain, some "true".toList.reverse, [.separator .onFailure, .word "1".toList, .redirect,
      .word "/dev/null".toList, .redirect]⟩ := by
  decide +kernel

/-- The shell reads the command as a list of five simple commands; each quoted text is one word or
part of one, whatever its characters are. -/
theorem purgeCommand_jobs (endpoint access secret warehouse namespaceName : String) :
    jobs (purgeCommand endpoint access secret warehouse namespaceName).toList = some
      [(.always, ["mc".toList, "alias".toList, "set".toList, "local".toList, endpoint.toList,
          access.toList, secret.toList]),
        (.onSuccess, ["mc".toList, "rm".toList, "--recursive".toList, "--force".toList,
          "local/".toList ++ (warehouse.toList ++ '/' :: (namespaceName.toList ++ ['/']))]),
        (.onFailure, ["true".toList]),
        (.always, ["mc".toList, "rm".toList, "--recursive".toList, "--force".toList,
          "local/".toList ++ ("file-ingestion".toList ++ '/' :: (namespaceName.toList ++ ['/']))]),
        (.onFailure, ["true".toList])] := by
  have hquiet : "/ >/dev/null 2>&1 || true; mc rm --recursive --force local/file-ingestion/" =
      "/" ++ " >/dev/null 2>&1 || true; mc rm --recursive --force local/file-ingestion/" := by
    decide +kernel
  have hlast : "/ >/dev/null 2>&1 || true" = "/" ++ " >/dev/null 2>&1 || true" := by
    decide +kernel
  have hslash : "/".toList = ['/'] := by decide
  have hblank : Lexer.run ⟨.plain, none, []⟩ " ".toList = some ⟨.plain, none, []⟩ := by
    decide +kernel
  have hingest : "local/file-ingestion/".toList = "local/".toList ++ ("file-ingestion".toList ++
      ['/']) := by decide +kernel
  unfold jobs purgeCommand
  rw [hquiet, hlast]
  simp only [String.toList_append, shellQuote_toList, List.append_assoc, hslash]
  rw [Lexer.run_then run_alias, Lexer.run_then (run_quote _ _ _),
    Lexer.run_then (Lexer.run_blank rfl hblank _ _), Lexer.run_then (run_quote _ _ _),
    Lexer.run_then (Lexer.run_blank rfl hblank _ _), Lexer.run_then (run_quote _ _ _),
    Lexer.run_then (Lexer.run_blank rfl run_first _ _), Lexer.run_then (run_quote _ _ _),
    Lexer.run_then (Lexer.run_slash _ _), Lexer.run_then (run_quote _ _ _),
    Lexer.run_then (Lexer.run_slash _ _), Lexer.run_then (Lexer.run_blank rfl run_second _ _),
    Lexer.run_then (run_quote _ _ _), Lexer.run_then (Lexer.run_slash _ _),
    Lexer.run_blank rfl run_rest]
  simp [Lexer.flush, jobsOf, hingest]

theorem purgeCommand_commands (endpoint access secret warehouse namespaceName : String) :
    commands (purgeCommand endpoint access secret warehouse namespaceName).toList = some
      [["mc".toList, "alias".toList, "set".toList, "local".toList, endpoint.toList,
          access.toList, secret.toList],
        ["mc".toList, "rm".toList, "--recursive".toList, "--force".toList,
          "local/".toList ++ (warehouse.toList ++ '/' :: (namespaceName.toList ++ ['/']))],
        ["true".toList],
        ["mc".toList, "rm".toList, "--recursive".toList, "--force".toList,
          "local/".toList ++ ("file-ingestion".toList ++ '/' :: (namespaceName.toList ++ ['/']))],
        ["true".toList]] := by
  rw [commands, purgeCommand_jobs]
  rfl

theorem mc_removes {args : List (List Char)}
    {endpoint access secret warehouse namespaceName bucket key : String}
    (hwarehouse : '/' ∉ warehouse.toList)
    (hargs : ∃ argLists, commands (purgeCommand endpoint access secret warehouse
      namespaceName).toList = some argLists ∧ args ∈ argLists)
    (h : McRemoves args bucket key) : namespaceName.toList ++ ['/'] <+: key.toList := by
  obtain ⟨argLists, hcommands, hmem⟩ := hargs
  rw [purgeCommand_commands, Option.some.injEq] at hcommands
  obtain ⟨rest, keyPrefix, hshape, hsplit, hpre⟩ := h
  have hunder : ∀ bucket' : List Char, '/' ∉ bucket' →
      args = ["mc".toList, "rm".toList, "--recursive".toList, "--force".toList,
        "local/".toList ++ (bucket' ++ '/' :: (namespaceName.toList ++ ['/']))] →
      namespaceName.toList ++ ['/'] <+: key.toList := by
    intro bucket' hplain hargs'
    rw [hargs'] at hshape
    simp only [List.cons.injEq, and_true, true_and, List.append_cancel_left_eq] at hshape
    rw [← hshape, splitOnce_append hplain, Option.some.injEq, Prod.mk.injEq] at hsplit
    rw [hsplit.2]
    exact hpre
  subst hcommands
  simp only [List.mem_cons, List.not_mem_nil, or_false] at hmem
  rcases hmem with heq | heq | heq | heq | heq
  · rw [heq] at hshape
    simp at hshape
  · exact hunder _ hwarehouse heq
  · rw [heq] at hshape
    simp at hshape
  · exact hunder _ (by decide) heq
  · rw [heq] at hshape
    simp at hshape

end PurgeCommand

section Statements

variable {n : Names} {env : ServerEnv} {identity : Identity} {x : Artifact}

theorem deleteShuttle_removes (h : OpRemoves (deleteShuttle identity n.shuttleName) x) :
    Belongs n x := by
  cases x with
  | shuttle name =>
    have hname : n.shuttleName = name :=
      (deleteShuttle_inj.mp (congrArg (fun r => Op.external (.api r identity)) h)).1
    exact hname.symm
  | connection name =>
    exact absurd (congrArg (fun r => Op.external (.api r identity)) h) deleteShuttle_ne_connection
  | catalogNamespace name =>
    exact absurd (congrArg (fun r => Op.external (.api r identity)) h) deleteShuttle_ne_namespace
  | object bucket key =>
    obtain ⟨name, hname, _⟩ := h
    exact absurd (congrArg (fun r => Op.external (.api r identity)) hname)
      deleteShuttle_ne_namespace
  | publication | replicationSlot | schema | mysqlDatabase | clickhouseDatabase | redisKey =>
    cases h

theorem deleteConnection_removes (h : OpRemoves (deleteConnection identity n.connectionName) x) :
    Belongs n x := by
  cases x with
  | shuttle name =>
    exact absurd (congrArg (fun r => Op.external (.api r identity)) h) deleteConnection_ne_shuttle
  | connection name =>
    have hname : n.connectionName = name :=
      (deleteConnection_inj.mp (congrArg (fun r => Op.external (.api r identity)) h)).1
    exact hname.symm
  | catalogNamespace name =>
    exact absurd (congrArg (fun r => Op.external (.api r identity)) h)
      deleteConnection_ne_namespace
  | object bucket key =>
    obtain ⟨name, hname, _⟩ := h
    exact absurd (congrArg (fun r => Op.external (.api r identity)) hname)
      deleteConnection_ne_namespace
  | publication | replicationSlot | schema | mysqlDatabase | clickhouseDatabase | redisKey =>
    cases h

theorem deleteNamespace_removes (h : OpRemoves (deleteNamespace identity n.namespaceName) x) :
    Belongs n x := by
  cases x with
  | shuttle name =>
    exact absurd (congrArg (fun r => Op.external (.api r identity)) h) deleteNamespace_ne_shuttle
  | connection name =>
    exact absurd (congrArg (fun r => Op.external (.api r identity)) h)
      deleteNamespace_ne_connection
  | catalogNamespace name =>
    have hname : n.namespaceName = name :=
      (deleteNamespace_inj.mp (congrArg (fun r => Op.external (.api r identity)) h)).1
    exact hname.symm
  | object bucket key =>
    obtain ⟨name, heq, hkey⟩ := h
    have hname : n.namespaceName = name :=
      (deleteNamespace_inj.mp (congrArg (fun r => Op.external (.api r identity)) heq)).1
    rw [← hname] at hkey
    exact (List.prefix_append _ _).trans hkey
  | publication | replicationSlot | schema | mysqlDatabase | clickhouseDatabase | redisKey =>
    cases h

theorem purge_removes {op : Op} (hop : op ∈ purgeOps env n.namespaceName)
    (h : OpRemoves op x) : Belongs n x := by
  obtain ⟨access, secret, -, -, rfl⟩ := (mem_purgeOps env).mp hop
  cases x with
  | object bucket key =>
    obtain ⟨_, line, hline, argLists, hcommands, a, ha, hremoves⟩ := h
    simp only [List.cons.injEq, true_and, and_true] at hline
    subst hline
    have hkey := mc_removes (warehouseBucket_plain env) ⟨argLists, hcommands, ha⟩ hremoves
    exact (List.prefix_append _ _).trans hkey
  | shuttle | connection | catalogNamespace | publication | replicationSlot | schema
  | mysqlDatabase | clickhouseDatabase | redisKey => cases h

theorem publication_removes
    (h : OpRemoves (dispatcherOp (.dropPublication (n.shuttleName ++ "_pub"))) x) :
    Belongs n x := by
  obtain ⟨cleanup, hcleanup, hreach⟩ := h
  obtain ⟨_, rfl⟩ := guarded_ok (Option.some.inj hcleanup)
  cases x with
  | publication name =>
    exact (dropPublicationSql_inj hreach).symm
  | schema name => exact absurd hreach.symm dropSchemaSql_ne_publication
  | replicationSlot name => exact absurd hreach dropPublicationSql_ne_slot
  | shuttle | connection | catalogNamespace | object | mysqlDatabase | clickhouseDatabase
  | redisKey => cases hreach

theorem slot_removes
    (h : OpRemoves (dispatcherOp (.dropReplicationSlot (n.shuttleName ++ "_slot"))) x) :
    Belongs n x := by
  obtain ⟨cleanup, hcleanup, hreach⟩ := h
  obtain ⟨_, rfl⟩ := guarded_ok (Option.some.inj hcleanup)
  cases x with
  | replicationSlot name =>
    exact (dropReplicationSlotSql_inj hreach).symm
  | schema name => exact absurd hreach.symm dropSchemaSql_ne_slot
  | publication name => exact absurd hreach.symm dropPublicationSql_ne_slot
  | shuttle | connection | catalogNamespace | object | mysqlDatabase | clickhouseDatabase
  | redisKey => cases hreach

theorem schema_removes (h : OpRemoves (dispatcherOp (.teardown .postgres n.namespaceName)) x) :
    Belongs n x := by
  obtain ⟨cleanup, hcleanup, hreach⟩ := h
  obtain ⟨_, rfl⟩ := guarded_ok (Option.some.inj hcleanup)
  cases x with
  | schema name =>
    exact (dropSchemaSql_inj hreach).symm
  | publication name => exact absurd hreach dropSchemaSql_ne_publication
  | replicationSlot name => exact absurd hreach dropSchemaSql_ne_slot
  | shuttle | connection | catalogNamespace | object | mysqlDatabase | clickhouseDatabase
  | redisKey => cases hreach

theorem mysql_removes (h : OpRemoves (dispatcherOp (.teardown .mysql n.namespaceName)) x) :
    Belongs n x := by
  obtain ⟨cleanup, hcleanup, hreach⟩ := h
  obtain ⟨_, rfl⟩ := guarded_ok (Option.some.inj hcleanup)
  cases x with
  | mysqlDatabase name =>
    exact (dropDatabaseSql_inj hreach).symm
  | shuttle | connection | catalogNamespace | object | publication | replicationSlot | schema
  | clickhouseDatabase | redisKey => cases hreach

theorem clickhouse_removes
    (h : OpRemoves (dispatcherOp (.teardown .clickhouse n.namespaceName)) x) : Belongs n x := by
  obtain ⟨cleanup, hcleanup, hreach⟩ := h
  obtain ⟨_, rfl⟩ := guarded_ok (Option.some.inj hcleanup)
  cases x with
  | clickhouseDatabase name =>
    exact (dropDatabaseSql_inj hreach).symm
  | shuttle | connection | catalogNamespace | object | publication | replicationSlot | schema
  | mysqlDatabase | redisKey => cases hreach

/-- A safe name means nothing to the glob language but itself. -/
theorem safe_literal {s : String} (h : isSafeResourceName s = true) :
    ∀ c ∈ s.toList ++ [':'], Literal c := by
  have hall : ∀ c ∈ s.toList, identifierChar c = true := by
    simp only [isSafeResourceName, Bool.and_eq_true, List.all_eq_true] at h
    exact h.2
  have hplain : ∀ c : Char, identifierChar c = true → Literal c := by
    intro c hc
    have hcases := identifierChar_cases hc
    have hne : ∀ d : Char, c.toNat ≠ d.toNat → c ≠ d := fun d hd e => hd (e ▸ rfl)
    have hnum : c.toNat ≠ 42 ∧ c.toNat ≠ 63 ∧ c.toNat ≠ 91 ∧ c.toNat ≠ 92 := by omega
    exact ⟨hne '*' hnum.1, hne '?' hnum.2.1, hne '[' hnum.2.2.1, hne '\\' hnum.2.2.2⟩
  intro c hc
  rcases List.mem_append.mp hc with hc | hc
  · exact hplain c (hall c hc)
  · rw [List.mem_singleton.mp hc]
    exact ⟨by decide, by decide, by decide, by decide⟩

theorem redis_removes (h : OpRemoves (dispatcherOp (.teardown .redis n.namespaceName)) x) :
    Belongs n x := by
  obtain ⟨cleanup, hcleanup, hreach⟩ := h
  obtain ⟨hsafe, rfl⟩ := guarded_ok (Option.some.inj hcleanup)
  cases x with
  | redisKey key =>
    obtain ⟨replies, hpages, hdeleted⟩ := hreach
    obtain ⟨r, hr, hkey⟩ := deletedKeys_scanned hdeleted
    have hmatch := hpages r hr key hkey
    have hpattern :
        (n.namespaceName ++ ":*").toList = n.namespaceName.toList ++ [':'] ++ ['*'] := by
      rw [String.toList_append, List.append_assoc]
      rfl
    rw [hpattern, globMatch_starts (safe_literal hsafe)] at hmatch
    exact (List.prefix_append _ _).trans hmatch
  | shuttle | connection | catalogNamespace | object | publication | replicationSlot | schema
  | mysqlDatabase | clickhouseDatabase => cases hreach

/-- A teardown removes nothing but what carries the names it was given. -/
theorem teardown_removes {op : Op}
    (hop : op ∈ teardownOps env identity n.shuttleName n.connectionName n.namespaceName)
    (h : OpRemoves op x) : Belongs n x := by
  obtain ⟨_, hop⟩ := (mem_teardown env identity).mp hop
  rcases hop with rfl | ⟨_, rfl | hop⟩ | ⟨_, rfl⟩ | ⟨_, hop | ⟨sidecar, rfl⟩⟩ | rfl
  · exact deleteShuttle_removes h
  · exact deleteNamespace_removes h
  · exact purge_removes hop h
  · exact deleteConnection_removes h
  · unfold replicationOps at hop
    split at hop
    · simp only [List.mem_cons, List.not_mem_nil, or_false] at hop
      rcases hop with rfl | rfl
      · exact publication_removes h
      · exact slot_removes h
    · cases hop
  · cases sidecar with
    | postgres => exact schema_removes h
    | mysql => exact mysql_removes h
    | clickhouse => exact clickhouse_removes h
    | redis => exact redis_removes h
  · cases h

end Statements

section Apart

def hashes (sha256 : String → Digest) (userId : String) (id : Uuid) : String × String :=
  (shortUser sha256 userId, shortSid id)

variable {sha256 : String → Digest} {userId₁ userId₂ : String} {id₁ id₂ : Uuid}

/-- Both parts have eight characters, whatever stands before them. -/
theorem hashed_inj {lead : String}
    (h : lead ++ shortUser sha256 userId₁ ++ "_" ++ shortSid id₁ =
      lead ++ shortUser sha256 userId₂ ++ "_" ++ shortSid id₂) :
    hashes sha256 userId₁ id₁ = hashes sha256 userId₂ id₂ := by
  have hlist := congrArg String.toList h
  simp only [String.toList_append, List.append_assoc, List.append_cancel_left_eq] at hlist
  have huser : (shortUser sha256 userId₁).toList.length =
      (shortUser sha256 userId₂).toList.length := by
    rw [(shortUser_hex8 sha256 userId₁).1, (shortUser_hex8 sha256 userId₂).1]
  obtain ⟨hfirst, hrest⟩ := List.append_inj hlist huser
  have hsecond := List.append_cancel_left hrest
  unfold hashes
  rw [String.toList_injective hfirst, String.toList_injective hsecond]

theorem namespace_length (sha256 : String → Digest) (userId : String) (id : Uuid) :
    (namesOf sha256 userId id).namespaceName.toList.length = 28 := by
  obtain ⟨a, b, ha, hb, hs⟩ := deriveNamespace_form sha256 userId id
  change (deriveNamespace sha256 userId id).toList.length = 28
  rw [hs, List.length_append, List.length_append, List.length_cons, ha.1, hb.1]
  rfl

/-- Two namespaces of one length are no prefixes of one key, unless they are the same. -/
theorem namespace_same {key : List Char}
    (h₁ : (namesOf sha256 userId₁ id₁).namespaceName.toList <+: key)
    (h₂ : (namesOf sha256 userId₂ id₂).namespaceName.toList <+: key) :
    (namesOf sha256 userId₁ id₁).namespaceName = (namesOf sha256 userId₂ id₂).namespaceName := by
  have hlen : (namesOf sha256 userId₁ id₁).namespaceName.toList.length =
      (namesOf sha256 userId₂ id₂).namespaceName.toList.length := by
    rw [namespace_length, namespace_length]
  have hpre := List.prefix_of_prefix_length_le h₁ h₂ (le_of_eq hlen)
  exact String.toList_injective (hpre.eq_of_length hlen)

/-- Nothing belongs to two sessions whose user and id parts differ. -/
theorem belongs_apart {x : Artifact}
    (hne : hashes sha256 userId₁ id₁ ≠ hashes sha256 userId₂ id₂)
    (h₁ : Belongs (namesOf sha256 userId₁ id₁) x) : ¬ Belongs (namesOf sha256 userId₂ id₂) x := by
  intro h₂
  apply hne
  have hnamespace : (namesOf sha256 userId₁ id₁).namespaceName =
      (namesOf sha256 userId₂ id₂).namespaceName →
      hashes sha256 userId₁ id₁ = hashes sha256 userId₂ id₂ := fun h => hashed_inj h
  have hshuttle : (namesOf sha256 userId₁ id₁).shuttleName =
      (namesOf sha256 userId₂ id₂).shuttleName →
      hashes sha256 userId₁ id₁ = hashes sha256 userId₂ id₂ := fun h => hashed_inj h
  have hsuffixed : ∀ suffix : String, (namesOf sha256 userId₁ id₁).shuttleName ++ suffix =
      (namesOf sha256 userId₂ id₂).shuttleName ++ suffix →
      hashes sha256 userId₁ id₁ = hashes sha256 userId₂ id₂ :=
    fun suffix h => hshuttle ((String.append_left_inj suffix).mp h)
  cases x with
  | shuttle name => exact hshuttle (Eq.trans (Eq.symm h₁) h₂)
  | connection name => exact hsuffixed "_src" (Eq.trans (Eq.symm h₁) h₂)
  | publication name => exact hsuffixed "_pub" (Eq.trans (Eq.symm h₁) h₂)
  | replicationSlot name => exact hsuffixed "_slot" (Eq.trans (Eq.symm h₁) h₂)
  | catalogNamespace name | schema name | mysqlDatabase name | clickhouseDatabase name =>
    exact hnamespace (Eq.trans (Eq.symm h₁) h₂)
  | object bucket key => exact hnamespace (namespace_same h₁ h₂)
  | redisKey key => exact hnamespace (namespace_same h₁ h₂)

/-- What exists outside: an operation changes nothing but what it may remove. -/
def touching : Semantics Op Op.Result (Set Artifact) :=
  fun world op _ world' => ∀ x, ¬ OpRemoves op x → (x ∈ world' ↔ x ∈ world)

/-- However far a teardown gets and whatever exists, all that belongs to another session stays
as it is. -/
theorem teardown_touches_own {env : ServerEnv} {identity : Identity} {world world' : Set Artifact}
    {n : Names} {x : Artifact} (hn : n = namesOf sha256 userId₁ id₁)
    (hne : hashes sha256 userId₁ id₁ ≠ hashes sha256 userId₂ id₂)
    (hrun : (teardownSession env identity n.shuttleName n.connectionName n.namespaceName).Runs
      touching world world')
    (hx : Belongs (namesOf sha256 userId₂ id₂) x) : x ∈ world' ↔ x ∈ world := by
  have hreach : ∀ op ∈ teardownOps env identity n.shuttleName n.connectionName n.namespaceName,
      ¬ OpRemoves op x := by
    intro op hop hremoves
    have hown : Belongs n x := teardown_removes hop hremoves
    rw [hn] at hown
    exact belongs_apart hne hown hx
  have hperf : Program.Performs anyResult _ _ := performs_teardown env identity n.shuttleName
    n.connectionName n.namespaceName
  exact hrun.keeps (hperf.always hreach) (fun _ _ _ _ _ => trivial)
    fun w op r w' hkeep heffect => heffect x hkeep

section Witness

def things (n : Names) : List Artifact :=
  [.shuttle n.shuttleName, .catalogNamespace n.namespaceName,
    .object "warehouse" (n.namespaceName ++ "/" ++ "a.parquet"),
    .object "file-ingestion" (n.namespaceName ++ "/" ++ "orders.csv"), .connection n.connectionName,
    .publication (n.shuttleName ++ "_pub"), .replicationSlot (n.shuttleName ++ "_slot"),
    .schema n.namespaceName, .mysqlDatabase n.namespaceName, .clickhouseDatabase n.namespaceName,
    .redisKey (n.namespaceName ++ ":k")]

def keyed : ServerEnv :=
  { configured with
    envVar := fun name =>
      if name ∈ ["DS_MINIO_ACCESS_KEY", "DS_MINIO_SECRET_KEY"] then some "minio" else none }

variable {n : Names} {identity : Identity} {x : Artifact}

theorem things_belong (h : x ∈ things n) : Belongs n x := by
  have hunder : ∀ key : String, n.namespaceName.toList <+: (n.namespaceName ++ key).toList := by
    intro key
    rw [String.toList_append]
    exact List.prefix_append _ _
  simp only [things, List.mem_cons, List.not_mem_nil, or_false] at h
  rcases h with rfl | rfl | rfl | rfl | rfl | rfl | rfl | rfl | rfl | rfl | rfl
  · rfl
  · rfl
  · rw [String.append_assoc]
    exact hunder _
  · rw [String.append_assoc]
    exact hunder _
  · rfl
  · rfl
  · rfl
  · rfl
  · rfl
  · rfl
  · exact hunder ":k"

theorem purge_reaches (n : Names) {bucket : String} (key : String)
    (hbucket : bucket = "warehouse" ∨ bucket = "file-ingestion") :
    ∃ op ∈ purgeOps keyed n.namespaceName,
      OpRemoves op (.object bucket (n.namespaceName ++ "/" ++ key)) := by
  have hkey : n.namespaceName.toList ++ ['/'] <+: (n.namespaceName ++ "/" ++ key).toList := by
    rw [String.toList_append, String.toList_append]
    exact List.prefix_append _ _
  have hcommands := purgeCommand_commands (minioEndpoint keyed) "minio" "minio"
    (warehouseBucket keyed) n.namespaceName
  have hwarehouse : warehouseBucket keyed = "warehouse" := rfl
  refine ⟨_, (mem_purgeOps keyed).mpr ⟨"minio", "minio", rfl, rfl, rfl⟩, rfl, _, rfl, _, hcommands,
    ?_⟩
  rcases hbucket with rfl | rfl
  · refine ⟨_, List.mem_cons_of_mem _ List.mem_cons_self, _, _, rfl,
      splitOnce_append (warehouseBucket_plain keyed), hkey⟩
  · exact ⟨_, List.mem_cons_of_mem _ (List.mem_cons_of_mem _ (List.mem_cons_of_mem _
      List.mem_cons_self)), _, _, rfl, splitOnce_append (by decide), hkey⟩

theorem redis_reaches (hsafe : isSafeResourceName n.namespaceName = true) :
    OpRemoves (dispatcherOp (.teardown .redis n.namespaceName))
      (.redisKey (n.namespaceName ++ ":k")) := by
  refine ⟨_, congrArg some (guarded_accepted hsafe), [(0, [n.namespaceName ++ ":k"])], ?_,
    by simp [deletedKeys]⟩
  intro r hr k hk
  rw [List.mem_singleton.mp hr, List.mem_singleton] at hk
  have hpattern : (n.namespaceName ++ ":*").toList = n.namespaceName.toList ++ [':'] ++ ['*'] := by
    rw [String.toList_append, List.append_assoc]
    rfl
  rw [hk, hpattern, globMatch_starts (safe_literal hsafe), String.toList_append]
  exact ⟨['k'], List.append_assoc _ _ _⟩

theorem things_removed (identity : Identity) (hn : n = namesOf sha256 userId₁ id₁)
    (h : x ∈ things n) :
    ∃ op ∈ teardownOps keyed identity n.shuttleName n.connectionName n.namespaceName,
      OpRemoves op x := by
  have hpass : PassesGuards n.shuttleName n.connectionName n.namespaceName := by
    rw [hn]
    exact derived_names_pass sha256 userId₁ id₁
  have hmem : ∀ {op : Op}, TeardownCall keyed identity n.shuttleName n.connectionName
      n.namespaceName op → op ∈ teardownOps keyed identity n.shuttleName n.connectionName
      n.namespaceName := hpass.mem_teardown rfl
  have hcleanup : ∀ {accepted : Bool} {what name : String} {c : Cleanup}, accepted = true →
      some (guarded accepted what name c) = some (.ok c) :=
    fun haccepted => congrArg some (guarded_accepted haccepted)
  simp only [things, List.mem_cons, List.not_mem_nil, or_false] at h
  rcases h with rfl | rfl | rfl | rfl | rfl | rfl | rfl | rfl | rfl | rfl | rfl
  · exact ⟨_, hmem .shuttle, rfl⟩
  · exact ⟨_, hmem .catalogNamespace, rfl⟩
  · obtain ⟨op, hop, hremoves⟩ := purge_reaches n "a.parquet" (Or.inl rfl)
    exact ⟨op, hmem (.purge hop), hremoves⟩
  · obtain ⟨op, hop, hremoves⟩ := purge_reaches n "orders.csv" (Or.inr rfl)
    exact ⟨op, hmem (.purge hop), hremoves⟩
  · exact ⟨_, hmem .connection, rfl⟩
  · exact ⟨_, hmem .publication, _, hcleanup hpass.publicationArtifact, rfl⟩
  · exact ⟨_, hmem .slot, _, hcleanup hpass.slotArtifact, rfl⟩
  · exact ⟨_, hmem (.source .postgres), _, hcleanup hpass.namespaceResource, rfl⟩
  · exact ⟨_, hmem (.source .mysql), _, hcleanup hpass.namespaceResource, rfl⟩
  · exact ⟨_, hmem (.source .clickhouse), _, hcleanup hpass.namespaceResource, rfl⟩
  · exact ⟨_, hmem (.source .redis), redis_reaches hpass.namespaceResource⟩

theorem teardown_call {op : Op} (hop : op ∈ teardownOps keyed identity n.shuttleName
    n.connectionName n.namespaceName) : ∃ r : op.Result, anyResult op r := by
  obtain ⟨_, hop⟩ := (mem_teardown keyed identity).mp hop
  rcases hop with rfl | ⟨_, rfl | hop⟩ | ⟨_, rfl⟩ | ⟨_, hop | ⟨sidecar, rfl⟩⟩ | rfl
  · exact ⟨.ok (200, .null), trivial⟩
  · exact ⟨.ok (200, .null), trivial⟩
  · obtain ⟨_, _, _, _, rfl⟩ := (mem_purgeOps keyed).mp hop
    exact ⟨.error "", trivial⟩
  · exact ⟨.ok (200, .null), trivial⟩
  · rcases replicationOps_dispatcher hop with rfl | rfl
    · exact ⟨.ok (), trivial⟩
    · exact ⟨.ok (), trivial⟩
  · exact ⟨.ok (), trivial⟩
  · exact ⟨(), trivial⟩

def left (w : Set Artifact) (op : Op) : Set Artifact := {x ∈ w | ¬ OpRemoves op x}

theorem mem_left {ops : List Op} {w : Set Artifact} :
    x ∈ ops.foldl left w ↔ x ∈ w ∧ ∀ op ∈ ops, ¬ OpRemoves op x := by
  induction ops generalizing w with
  | nil => simp
  | cons op ops ih =>
    rw [List.foldl_cons, ih]
    simp [left, and_assoc]

theorem teardown_runs (n : Names) (identity : Identity) (w : Set Artifact) :
    (teardownSession keyed identity n.shuttleName n.connectionName n.namespaceName).Runs touching
      w ((teardownOps keyed identity n.shuttleName n.connectionName n.namespaceName).foldl left
        w) := by
  have hperf : Program.Performs anyResult _ _ := performs_teardown keyed identity n.shuttleName
    n.connectionName n.namespaceName
  refine hperf.runs (fun op hop s => ?_) w
  obtain ⟨r, hr⟩ := teardown_call hop
  exact ⟨r, hr, fun x hx => and_iff_left hx⟩

end Witness

def laterNames : Names := namesOf (fun _ => 0) "u1" (1 <<< 96)

/-- Two sessions of one user with something of each kind; the teardown of one takes away all of
its own. -/
theorem teardown_touches_own_later : ∃ w,
    (teardownSession keyed alice aliceNames.shuttleName aliceNames.connectionName
        aliceNames.namespaceName).Runs touching
      {x | x ∈ things aliceNames ∨ x ∈ things laterNames} w ∧
      (∀ x ∈ things aliceNames, x ∉ w) ∧ ∀ x ∈ things laterNames, x ∈ w := by
  have hrun := teardown_runs aliceNames alice {x | x ∈ things aliceNames ∨ x ∈ things laterNames}
  refine ⟨_, hrun, fun x hx hmem => ?_, fun x hx => ?_⟩
  · obtain ⟨op, hop, hremoves⟩ := things_removed alice (rfl : aliceNames = namesOf _ _ _) hx
    exact (mem_left.mp hmem).2 op hop hremoves
  · have hsid : shortSid 1 ≠ shortSid (1 <<< 96) := by
      intro h
      have hchars := String.ofList_injective h
      exact absurd hchars (by decide)
    have hkept := teardown_touches_own rfl (fun h => hsid (Prod.mk.inj h).2) hrun
      (things_belong hx)
    exact hkept.mpr (Or.inr hx)

end Apart

end PlaygroundTeardownFrame
