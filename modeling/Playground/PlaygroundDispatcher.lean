import Playground.PlaygroundOperations

/-! # Cleanup methods of the dispatcher

Each method checks the name once more and builds the text it sends to the sidecar. -/
namespace PlaygroundDispatcher

open PlaygroundNames
open PlaygroundOperations

/-- What reaches a sidecar: one statement, or the `SCAN` and `DEL` loop over a pattern. -/
inductive Cleanup where
  | statement (sidecar : Sidecar) (sql : String)
  | deleteMatching (pattern : String)
  deriving DecidableEq, Repr

/-- The cleanup if the guard accepts the name, else the error that shows it. -/
def guarded (accepted : Bool) (what name : String) (c : Cleanup) : Except DispatchError Cleanup :=
  if accepted then .ok c else .error (.config ("unsafe " ++ what ++ ": " ++ name))

def dropSchemaSql (name : String) : String := "DROP SCHEMA IF EXISTS \"" ++ name ++ "\" CASCADE"

def dropDatabaseSql (name : String) : String := "DROP DATABASE IF EXISTS `" ++ name ++ "`"

def dropPublicationSql (name : String) : String := "DROP PUBLICATION IF EXISTS \"" ++ name ++ "\""

def dropReplicationSlotSql (name : String) : String :=
  "DO $$ BEGIN IF EXISTS (SELECT 1 FROM pg_replication_slots WHERE slot_name = '" ++ name ++
    "') THEN PERFORM pg_drop_replication_slot('" ++ name ++ "'); END IF; END $$"

def teardownPostgresSchema (name : String) : Except DispatchError Cleanup :=
  guarded (isSafeResourceName name) "postgres schema name" name
    (.statement .postgres (dropSchemaSql name))

def teardownMysqlDatabase (name : String) : Except DispatchError Cleanup :=
  guarded (isSafeResourceName name) "mysql database name" name
    (.statement .mysql (dropDatabaseSql name))

def teardownClickhouseDatabase (name : String) : Except DispatchError Cleanup :=
  guarded (isSafeResourceName name) "clickhouse database name" name
    (.statement .clickhouse (dropDatabaseSql name))

def teardownRedisNamespace (namespaceName : String) : Except DispatchError Cleanup :=
  guarded (isSafeResourceName namespaceName) "redis namespace" namespaceName
    (.deleteMatching (namespaceName ++ ":*"))

def dropPostgresPublication (name : String) : Except DispatchError Cleanup :=
  guarded (isSafePlaygroundShuttleArtifact name) "postgres publication name" name
    (.statement .postgres (dropPublicationSql name))

def dropPostgresReplicationSlot (name : String) : Except DispatchError Cleanup :=
  guarded (isSafePlaygroundShuttleArtifact name) "postgres replication slot name" name
    (.statement .postgres (dropReplicationSlotSql name))

/-- The cleanup methods; the others are no cleanup. -/
def cleanupOf : DispatcherCall → Option (Except DispatchError Cleanup)
  | .teardown .postgres name => some (teardownPostgresSchema name)
  | .teardown .mysql name => some (teardownMysqlDatabase name)
  | .teardown .clickhouse name => some (teardownClickhouseDatabase name)
  | .teardown .redis name => some (teardownRedisNamespace name)
  | .dropPublication name => some (dropPostgresPublication name)
  | .dropReplicationSlot name => some (dropPostgresReplicationSlot name)
  | .exec _ _ _ => none
  | .provision _ _ => none

theorem guarded_accepted {accepted : Bool} {what name : String} {c : Cleanup}
    (h : accepted = true) : guarded accepted what name c = .ok c := if_pos h

theorem guarded_ok {accepted : Bool} {what name : String} {c d : Cleanup}
    (h : guarded accepted what name c = .ok d) : accepted = true ∧ d = c := by
  unfold guarded at h
  split at h
  · cases h
    exact ⟨‹_›, rfl⟩
  · cases h

-- No two cleanup statements of postgres are the same text, and each text determines its name.
section Texts

variable {k m : String}

theorem dropSchemaSql_inj (h : dropSchemaSql k = dropSchemaSql m) : k = m := by
  unfold dropSchemaSql at h
  simpa using h

theorem dropDatabaseSql_inj (h : dropDatabaseSql k = dropDatabaseSql m) : k = m := by
  unfold dropDatabaseSql at h
  simpa using h

theorem dropPublicationSql_inj (h : dropPublicationSql k = dropPublicationSql m) : k = m := by
  unfold dropPublicationSql at h
  simpa using h

theorem twice_inj {a b c : String} (h : a ++ k ++ b ++ k ++ c = a ++ m ++ b ++ m ++ c) :
    k = m := by
  have hlist := congrArg String.toList h
  simp only [String.toList_append, List.append_assoc, List.append_cancel_left_eq] at hlist
  have hlen := congrArg List.length hlist
  simp only [List.length_append] at hlen
  exact String.toList_injective (List.append_inj_left hlist (by omega))

theorem dropReplicationSlotSql_inj (h : dropReplicationSlotSql k = dropReplicationSlotSql m) :
    k = m := by
  unfold dropReplicationSlotSql at h
  exact twice_inj h

theorem dropSchemaSql_ne_publication : dropSchemaSql k ≠ dropPublicationSql m := by
  intro h
  have hlist := congrArg String.toList h
  unfold dropSchemaSql dropPublicationSql at hlist
  simp at hlist

theorem dropSchemaSql_ne_slot : dropSchemaSql k ≠ dropReplicationSlotSql m := by
  intro h
  have hlist := congrArg String.toList h
  unfold dropSchemaSql dropReplicationSlotSql at hlist
  simp at hlist

theorem dropPublicationSql_ne_slot : dropPublicationSql k ≠ dropReplicationSlotSql m := by
  intro h
  have hlist := congrArg String.toList h
  unfold dropPublicationSql dropReplicationSlotSql at hlist
  simp at hlist

end Texts

/-- The keys deleted by the loop of `teardown_redis_namespace`, from the replies to `SCAN`: a next
cursor and a page of keys. A page may be empty; the cursor zero ends the scan. -/
def deletedKeys : List (UInt64 × List String) → List String
  | [] => []
  | (next, keys) :: replies => keys ++ if next = 0 then [] else deletedKeys replies

theorem deletedKeys_scanned {replies : List (UInt64 × List String)} {key : String}
    (h : key ∈ deletedKeys replies) : ∃ r ∈ replies, key ∈ r.2 := by
  induction replies with
  | nil => cases h
  | cons r replies ih =>
    rcases List.mem_append.mp h with h | h
    · exact ⟨r, List.mem_cons_self, h⟩
    · by_cases hz : r.1 = 0
      · simp [hz] at h
      · obtain ⟨r', hr', hkey⟩ := ih (by simpa [hz] using h)
        exact ⟨r', List.mem_cons_of_mem _ hr', hkey⟩

end PlaygroundDispatcher
