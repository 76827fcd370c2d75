import Playground.DecimalText
import Playground.PlaygroundSessionManager
import Playground.RecordFields

/-! # The JSON of a session

What the derived serialization of `Session` writes and what the derived deserialization reads. How
times and ids are written is up to their crates. -/
namespace PlaygroundSessionCodec

open DecimalText
open PlaygroundManifest (Value)
open PlaygroundSessionManager
open PlaygroundSessions
open RecordFields

/-- The text forms of `DateTime<Utc>` and `Uuid`. -/
structure TextForms where
  time : ℤ → String
  readTime : String → Option ℤ
  readUuid : String → Option Uuid

section Encoding

variable (forms : TextForms)

def natural (n : ℕ) : Value := .number (toString n)

def encodeTime (t : ℤ) : Value := .string (forms.time t)

def encodeDuration (d : ℕ) : Value :=
  .object [("secs", natural (d / 1000000000)), ("nanos", natural (d % 1000000000))]

def statusText : SessionStatus → String
  | .provisioning => "provisioning"
  | .active => "active"
  | .resetting => "resetting"
  | .terminating => "terminating"
  | .ended => "ended"

def skipNone (name : String) : Option Value → List (String × Value)
  | none => []
  | some v => [(name, v)]

def encodeEvent (e : SessionEvent) : Value :=
  .object ([("at", encodeTime forms e.at_), ("kind", .string e.kind),
    ("message", .string e.message)] ++ skipNone "action_id" (e.actionId.map .string) ++
    skipNone "success" (e.success.map .bool))

def encodeSession (r : SessionRow) : Value :=
  .object [("id", .string (uuidText r.id)), ("user_id", .string r.userId),
    ("tenant_id", (r.tenantId.map .string).getD .null), ("scenario_id", .string r.scenarioId),
    ("namespace", .string r.namespaceName), ("shuttle_name", .string r.shuttleName),
    ("connection_name", .string r.connectionName), ("created_at", encodeTime forms r.createdAt),
    ("expires_at", encodeTime forms r.expiresAt), ("ttl", encodeDuration r.ttl),
    ("status", .string (statusText r.status)),
    ("events", .array (r.events.map (encodeEvent forms)))]

def encodeSnapshot (rows : List SessionRow) : Value := .array (rows.map (encodeSession forms))

end Encoding

section Decoding

variable (forms : TextForms)

def isNull : Value → Bool
  | .null => true
  | _ => false

def asBool : Value → Option Bool
  | .bool b => some b
  | _ => none

def asNatural (limit : ℕ) : Value → Option ℕ
  | .number text => parseUnsigned limit text.toList
  | _ => none

def asTime (v : Value) : Option ℤ := v.asStr.bind forms.readTime

def asUuid (v : Value) : Option Uuid := v.asStr.bind forms.readUuid

def readStatus (s : String) : Option SessionStatus :=
  [SessionStatus.provisioning, .active, .resetting, .terminating, .ended].find? fun status =>
    statusText status = s

/-- A variant is its name, alone or as the only key of an object. -/
def asStatus : Value → Option SessionStatus
  | .string s => readStatus s
  | .object [(s, .null)] => readStatus s
  | _ => none

/-- Nanoseconds carry over into the seconds, which may overflow. -/
def durationOf (secs nanos : ℕ) : Option ℕ :=
  if fromSecs secs + nanos < durationLimit then some (fromSecs secs + nanos) else none

/-- A record is an object of its members, or an array of its fields in the order of the source, of
which the first `needed` have no default there. -/
def asRecord (fields : List String) (needed : ℕ) : Value → Option (List (String × Value))
  | .object members => some members
  | .array entries => if entries.length < needed then none else inOrder fields entries
  | _ => none

/-- Other fields are refused. -/
def asDuration (v : Value) : Option ℕ :=
  (asRecord ["secs", "nanos"] 2 v).bind fun members =>
    if members.all (fun m => m.1 = "secs" || m.1 = "nanos") = false then none
    else
      (required (asNatural (2 ^ 64)) members "secs").bind fun secs =>
        (required (asNatural (2 ^ 32)) members "nanos").bind fun nanos => durationOf secs nanos

def decodeEvent (v : Value) : Option SessionEvent := do
  let members ← asRecord ["at", "kind", "message", "action_id", "success"] 5 v
  let at_ ← required (asTime forms) members "at"
  let kind ← required Value.asStr members "kind"
  let message ← required Value.asStr members "message"
  let actionId ← optional isNull Value.asStr members "action_id"
  let success ← optional isNull asBool members "success"
  some ⟨at_, kind, message, actionId, success⟩

def asEvents : Value → Option (List SessionEvent)
  | .array items => items.mapM (decodeEvent forms)
  | _ => none

def sessionFields : List String :=
  ["id", "user_id", "tenant_id", "scenario_id", "namespace", "shuttle_name", "connection_name",
    "created_at", "expires_at", "ttl", "status", "events"]

def decodeSession (v : Value) : Option SessionRow := do
  let members ← asRecord sessionFields 12 v
  let id ← required (asUuid forms) members "id"
  let userId ← required Value.asStr members "user_id"
  let tenantId ← optional isNull Value.asStr members "tenant_id"
  let scenarioId ← required Value.asStr members "scenario_id"
  let namespaceName ← required Value.asStr members "namespace"
  let shuttleName ← required Value.asStr members "shuttle_name"
  let connectionName ← required Value.asStr members "connection_name"
  let createdAt ← required (asTime forms) members "created_at"
  let expiresAt ← required (asTime forms) members "expires_at"
  let ttl ← required asDuration members "ttl"
  let status ← required asStatus members "status"
  let events ← required (asEvents forms) members "events"
  some ⟨id, userId, tenantId, scenarioId, namespaceName, shuttleName, connectionName, createdAt,
    expiresAt, ttl, status, events⟩

/-- The whole file is refused with its first row that does not decode. -/
def decodeSnapshot : Value → Option (List SessionRow)
  | .array items => items.mapM (decodeSession forms)
  | _ => none

end Decoding

section Documents

variable (forms : TextForms)

/-- The members describe an event; others are beside the point, and what is not set may be left
out. -/
structure DescribesEvent (e : SessionEvent) (members : List (String × Value)) : Prop where
  at_ : Has members "at" (encodeTime forms e.at_)
  kind : Has members "kind" (.string e.kind)
  message : Has members "message" (.string e.message)
  actionId : May isNull members "action_id" (e.actionId.map .string)
  success : May isNull members "success" (e.success.map .bool)

def EventDocument (e : SessionEvent) (doc : Value) : Prop :=
  ∃ members, doc = .object members ∧ DescribesEvent forms e members

structure DescribesSession (r : SessionRow) (members : List (String × Value)) : Prop where
  id : Has members "id" (.string (uuidText r.id))
  userId : Has members "user_id" (.string r.userId)
  tenantId : May isNull members "tenant_id" (r.tenantId.map .string)
  scenarioId : Has members "scenario_id" (.string r.scenarioId)
  namespaceName : Has members "namespace" (.string r.namespaceName)
  shuttleName : Has members "shuttle_name" (.string r.shuttleName)
  connectionName : Has members "connection_name" (.string r.connectionName)
  createdAt : Has members "created_at" (encodeTime forms r.createdAt)
  expiresAt : Has members "expires_at" (encodeTime forms r.expiresAt)
  ttl : Has members "ttl" (encodeDuration r.ttl)
  status : Has members "status" (.string (statusText r.status))
  events : ∃ docs, Has members "events" (.array docs) ∧
    List.Forall₂ (EventDocument forms) r.events docs

def SessionDocument (r : SessionRow) (doc : Value) : Prop :=
  ∃ members, doc = .object members ∧ DescribesSession forms r members

/-- The texts of a row are read back by their crates, and its duration fits its type. -/
structure Readable (r : SessionRow) : Prop where
  id : forms.readUuid (uuidText r.id) = some r.id
  createdAt : forms.readTime (forms.time r.createdAt) = some r.createdAt
  expiresAt : forms.readTime (forms.time r.expiresAt) = some r.expiresAt
  ttl : r.ttl < durationLimit
  events : ∀ e ∈ r.events, forms.readTime (forms.time e.at_) = some e.at_

variable {forms} {r : SessionRow} {members members' : List (String × Value)} {name : String}
  {v : Value}

theorem DescribesSession.cons_other (h : DescribesSession forms r members)
    (hname : name ∉ sessionFields) : DescribesSession forms r ((name, v) :: members) := by
  have hne : ∀ field ∈ sessionFields, name ≠ field := fun field hfield e => hname (e ▸ hfield)
  have hother : ∀ field ∈ sessionFields, ∀ w, Has members field w →
      Has ((name, v) :: members) field w :=
    fun field hfield w hw => (has_cons_other (hne field hfield)).mpr hw
  obtain ⟨docs, hdocs, hevents⟩ := h.events
  exact
    { id := hother _ (by decide) _ h.id
      userId := hother _ (by decide) _ h.userId
      tenantId := (may_cons_other (hne _ (by decide))).mpr h.tenantId
      scenarioId := hother _ (by decide) _ h.scenarioId
      namespaceName := hother _ (by decide) _ h.namespaceName
      shuttleName := hother _ (by decide) _ h.shuttleName
      connectionName := hother _ (by decide) _ h.connectionName
      createdAt := hother _ (by decide) _ h.createdAt
      expiresAt := hother _ (by decide) _ h.expiresAt
      ttl := hother _ (by decide) _ h.ttl
      status := hother _ (by decide) _ h.status
      events := ⟨docs, hother _ (by decide) _ hdocs, hevents⟩ }

theorem DescribesSession.perm (h : DescribesSession forms r members)
    (hp : members.Perm members') : DescribesSession forms r members' := by
  obtain ⟨docs, hdocs, hevents⟩ := h.events
  exact ⟨h.id.perm hp, h.userId.perm hp, h.tenantId.perm hp, h.scenarioId.perm hp,
    h.namespaceName.perm hp, h.shuttleName.perm hp, h.connectionName.perm hp, h.createdAt.perm hp,
    h.expiresAt.perm hp, h.ttl.perm hp, h.status.perm hp, docs, hdocs.perm hp, hevents⟩

end Documents

section Reading

variable {forms : TextForms} {r : SessionRow} {e : SessionEvent} {doc : Value} {t : ℤ} {d n : ℕ}

theorem asNatural_natural {limit : ℕ} (h : n < limit) :
    asNatural limit (natural n) = some n :=
  (parseUnsigned_toString limit n).trans (if_pos h)

theorem asTime_encode (h : forms.readTime (forms.time t) = some t) :
    asTime forms (encodeTime forms t) = some t := h

theorem asStatus_text (status : SessionStatus) : asStatus (.string (statusText status)) =
    some status := by
  cases status <;> decide

theorem asDuration_encode (h : d < durationLimit) : asDuration (encodeDuration d) = some d := by
  have hlimit : d < 18446744073709551616 * 1000000000 := by
    simpa [durationLimit, fromSecs] using h
  have hsecs : required (asNatural (2 ^ 64)) [("secs", natural (d / 1000000000)),
      ("nanos", natural (d % 1000000000))] "secs" = some (d / 1000000000) := by
    refine required_has (has_cons.mpr ?_) (asNatural_natural (by omega))
    exact (lacks_cons_other (by decide)).mpr lacks_nil
  have hnanos : required (asNatural (2 ^ 32)) [("secs", natural (d / 1000000000)),
      ("nanos", natural (d % 1000000000))] "nanos" = some (d % 1000000000) := by
    refine required_has ?_ (asNatural_natural (by omega))
    exact (has_cons_other (by decide)).mpr (has_cons.mpr lacks_nil)
  have hsum : fromSecs (d / 1000000000) + d % 1000000000 = d := by
    unfold fromSecs
    omega
  unfold encodeDuration
  rw [asDuration, asRecord, Option.bind_some, if_neg (by simp), hsecs, hnanos, Option.bind_some,
    Option.bind_some, durationOf, hsum, if_pos h]

theorem decodeEvent_of (hat : forms.readTime (forms.time e.at_) = some e.at_)
    (h : EventDocument forms e doc) : decodeEvent forms doc = some e := by
  obtain ⟨members, rfl, h⟩ := h
  have haction : optional isNull Value.asStr members "action_id" = some e.actionId := by
    have hmay := h.actionId
    cases haction : e.actionId with
    | none =>
      rw [haction] at hmay
      exact optional_none hmay
    | some a =>
      rw [haction] at hmay
      exact optional_some hmay rfl
  have hsuccess : optional isNull asBool members "success" = some e.success := by
    have hmay := h.success
    cases hsuccess : e.success with
    | none =>
      rw [hsuccess] at hmay
      exact optional_none hmay
    | some b =>
      rw [hsuccess] at hmay
      exact optional_some hmay rfl
  have hkind : required Value.asStr members "kind" = some e.kind := required_has h.kind rfl
  have hmessage : required Value.asStr members "message" = some e.message :=
    required_has h.message rfl
  simp only [decodeEvent, asRecord, required_has h.at_ (asTime_encode hat), hkind, hmessage,
    haction, hsuccess, Option.bind_eq_bind, Option.bind_some]

theorem mapM_reads {α β : Type} {f : β → Option α} {R : α → β → Prop} {P : α → Prop}
    (hread : ∀ a b, P a → R a b → f b = some a) {as : List α} {bs : List β}
    (h : List.Forall₂ R as bs) (hp : ∀ a ∈ as, P a) : bs.mapM f = some as := by
  induction h with
  | nil => rfl
  | cons hab _ ih =>
    have hrest := ih fun a ha => hp a (List.mem_cons_of_mem _ ha)
    rw [List.mapM_cons, hread _ _ (hp _ List.mem_cons_self) hab, hrest]
    rfl

theorem decodeSession_of (hr : Readable forms r) (h : SessionDocument forms r doc) :
    decodeSession forms doc = some r := by
  obtain ⟨members, rfl, h⟩ := h
  have htenant : optional isNull Value.asStr members "tenant_id" = some r.tenantId := by
    have hmay := h.tenantId
    cases htenant : r.tenantId with
    | none =>
      rw [htenant] at hmay
      exact optional_none hmay
    | some tenant =>
      rw [htenant] at hmay
      exact optional_some hmay rfl
  have hevents : required (asEvents forms) members "events" = some r.events := by
    obtain ⟨docs, hhas, hdocs⟩ := h.events
    exact required_has hhas
      (mapM_reads (fun _ _ hat hdoc => decodeEvent_of hat hdoc) hdocs hr.events)
  have huser : required Value.asStr members "user_id" = some r.userId := required_has h.userId rfl
  have hscenario : required Value.asStr members "scenario_id" = some r.scenarioId :=
    required_has h.scenarioId rfl
  have hnamespace : required Value.asStr members "namespace" = some r.namespaceName :=
    required_has h.namespaceName rfl
  have hshuttle : required Value.asStr members "shuttle_name" = some r.shuttleName :=
    required_has h.shuttleName rfl
  have hconnection : required Value.asStr members "connection_name" = some r.connectionName :=
    required_has h.connectionName rfl
  have hid : required (asUuid forms) members "id" = some r.id := required_has h.id hr.id
  simp only [decodeSession, asRecord, hid, huser, htenant, hscenario, hnamespace, hshuttle,
    hconnection, required_has h.createdAt (asTime_encode hr.createdAt),
    required_has h.expiresAt (asTime_encode hr.expiresAt),
    required_has h.ttl (asDuration_encode hr.ttl), required_has h.status (asStatus_text r.status),
    hevents, Option.bind_eq_bind, Option.bind_some]

end Reading

section Writing

variable {forms : TextForms} {name : String} {rest : List (String × Value)}

theorem may_skipNone {v : Option Value} (h : ∀ w ∈ v, isNull w = false) (hrest : Lacks rest name) :
    May isNull (skipNone name v ++ rest) name v := by
  cases v with
  | none => exact Or.inl hrest
  | some w => exact ⟨has_cons.mpr hrest, h w rfl⟩

theorem may_skipNone_other {other : String} {v w : Option Value} (h : other ≠ name) :
    May isNull (skipNone other v ++ rest) name w ↔ May isNull rest name w := by
  cases v with
  | none => exact Iff.rfl
  | some u => exact may_cons_other h

theorem lacks_skipNone {other : String} {v : Option Value} (h : other ≠ name) :
    Lacks (skipNone other v ++ rest) name ↔ Lacks rest name := by
  cases v with
  | none => exact Iff.rfl
  | some w => exact lacks_cons_other h

theorem isNull_string (v : Option String) : ∀ w ∈ v.map Value.string, isNull w = false := by
  cases v with
  | none => simp
  | some s => simp [isNull]

theorem isNull_bool (v : Option Bool) : ∀ w ∈ v.map Value.bool, isNull w = false := by
  cases v with
  | none => simp
  | some b => simp [isNull]

theorem encodeEvent_describes (e : SessionEvent) : EventDocument forms e (encodeEvent forms e) := by
  refine ⟨("at", encodeTime forms e.at_) :: ("kind", .string e.kind) ::
    ("message", .string e.message) :: (skipNone "action_id" (e.actionId.map .string) ++
      (skipNone "success" (e.success.map .bool) ++ [])), ?_, ?_⟩
  · simp [encodeEvent]
  have hlast : Lacks (skipNone "success" (e.success.map Value.bool) ++ []) "action_id" :=
    (lacks_skipNone (by decide)).mpr lacks_nil
  constructor
  · simp only [has_cons, lacks_cons_other, lacks_skipNone, lacks_nil, ne_eq, String.reduceEq,
      not_false_eq_true]
  · simp only [has_cons_other, has_cons, lacks_cons_other, lacks_skipNone, lacks_nil, ne_eq,
      String.reduceEq, not_false_eq_true]
  · simp only [has_cons_other, has_cons, lacks_skipNone, lacks_nil, ne_eq, String.reduceEq,
      not_false_eq_true]
  · simp only [may_cons_other, ne_eq, String.reduceEq, not_false_eq_true]
    exact may_skipNone (isNull_string e.actionId) hlast
  · simp only [may_cons_other, may_skipNone_other, ne_eq, String.reduceEq, not_false_eq_true]
    exact may_skipNone (isNull_bool e.success) lacks_nil

theorem encodeSession_describes (r : SessionRow) :
    SessionDocument forms r (encodeSession forms r) := by
  refine ⟨_, rfl, ?_⟩
  constructor
  case tenantId =>
    simp only [may_cons_other, ne_eq, String.reduceEq, not_false_eq_true]
    cases r.tenantId with
    | none => exact Or.inr ⟨.null, by simp [has_cons, lacks_cons_other, lacks_nil], rfl⟩
    | some tenant => exact ⟨by simp [has_cons, lacks_cons_other, lacks_nil], rfl⟩
  case events =>
    refine ⟨r.events.map (encodeEvent forms), by simp [has_cons_other, has_cons, lacks_nil], ?_⟩
    rw [List.forall₂_map_right_iff]
    exact List.forall₂_same.mpr fun e _ => encodeEvent_describes e
  all_goals simp [has_cons_other, has_cons, lacks_cons_other, lacks_nil]

/-- Whatever document describes the rows of a snapshot, with its members in any order, with others
among them and with empty fields left out, is read as these rows; and what `persist` writes is such
a document. -/
theorem snapshot_decodes {rows : List SessionRow} (hrows : ∀ r ∈ rows, Readable forms r) :
    (∀ docs, List.Forall₂ (SessionDocument forms) rows docs →
        decodeSnapshot forms (.array docs) = some rows) ∧
      ∃ docs, encodeSnapshot forms rows = .array docs ∧
        List.Forall₂ (SessionDocument forms) rows docs := by
  refine ⟨fun docs hdocs => ?_, _, rfl, ?_⟩
  · exact mapM_reads (fun _ _ hr hdoc => decodeSession_of hr hdoc) hdocs hrows
  rw [List.forall₂_map_right_iff]
  exact List.forall₂_same.mpr fun r _ => encodeSession_describes r

end Writing

section Example

def epochForms : TextForms where
  time _ := "1970-01-01T00:00:00Z"
  readTime s := if s = "1970-01-01T00:00:00Z" then some 0 else none
  readUuid s := if s = uuidText 0 then some 0 else none

def epochRow : SessionRow :=
  ⟨0, "u1", none, "cdc", "playground_a_b", "pg_a_b", "pg_a_b_src", 0, 0, fromSecs 7200, .active,
    [⟨0, "created", "Session created", none, none⟩,
      ⟨0, "action", "insert", some "insert", some true⟩]⟩

def epochEvents : List Value :=
  [.object [("kind", .string "created"), ("at", .string "1970-01-01T00:00:00Z"),
      ("message", .string "Session created"), ("action_id", .null)],
    .object [("at", .string "1970-01-01T00:00:00Z"), ("kind", .string "action"),
      ("message", .string "insert"), ("success", .bool true), ("action_id", .string "insert")]]

/-- The tenant is left out, and so is the success of the first event. -/
def epochMembers : List (String × Value) :=
  [("id", .string (uuidText 0)), ("user_id", .string "u1"), ("scenario_id", .string "cdc"),
    ("namespace", .string "playground_a_b"), ("shuttle_name", .string "pg_a_b"),
    ("connection_name", .string "pg_a_b_src"), ("created_at", .string "1970-01-01T00:00:00Z"),
    ("expires_at", .string "1970-01-01T00:00:00Z"), ("ttl", encodeDuration (fromSecs 7200)),
    ("status", .string "active"), ("events", .array epochEvents)]

theorem epoch_events_described :
    List.Forall₂ (EventDocument epochForms) epochRow.events epochEvents := by
  refine .cons ⟨_, rfl, ?_⟩ (.cons ⟨_, rfl, ?_⟩ .nil)
  · exact ⟨by simp [encodeTime, epochForms], by simp, by simp, Or.inr ⟨.null, by simp, rfl⟩,
      Or.inl (by simp)⟩
  · exact ⟨by simp [encodeTime, epochForms], by simp, by simp, ⟨by simp, rfl⟩, ⟨by simp, rfl⟩⟩

theorem epoch_described : DescribesSession epochForms epochRow epochMembers := by
  unfold epochMembers
  constructor
  case tenantId => exact Or.inl (by simp)
  case events => exact ⟨epochEvents, by simp, epoch_events_described⟩
  all_goals simp [encodeTime, epochForms, statusText, epochRow]

/-- With a field from a later version in front and the first two members swapped. -/
theorem snapshot_decodes_extended :
    decodeSnapshot epochForms (.array [.object (("theme", .string "dark") ::
      ("user_id", .string "u1") :: ("id", .string (uuidText 0)) :: epochMembers.drop 2)]) =
        some [epochRow] := by
  have hread : ∀ r ∈ [epochRow], Readable epochForms r := by
    intro r hr
    rw [List.mem_singleton.mp hr]
    exact ⟨by decide, by decide, by decide, by decide, by decide⟩
  have hadded : DescribesSession epochForms epochRow (("theme", .string "dark") :: epochMembers) :=
    epoch_described.cons_other (by decide)
  refine (snapshot_decodes hread).1 _ (.cons ⟨_, rfl, hadded.perm ?_⟩ .nil)
  exact List.Perm.cons _ (List.Perm.swap _ _ _)

end Example

end PlaygroundSessionCodec
