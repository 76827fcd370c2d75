import Playground.PlaygroundLiveActions

/-! # Whose identity a callback carries

A request calls the API with its own identity and the reaper with one it makes up. A session
stores the user and the tenant it was created by, and only the user is ever looked at. -/
namespace PlaygroundOneIdentity

open HashMaps
open InteractionPrograms
open PlaygroundActions
open PlaygroundApiClient
open PlaygroundCleanup
open PlaygroundHandlers
open PlaygroundLiveActions
open PlaygroundManagerRuns
open PlaygroundNames
open PlaygroundOperations
open PlaygroundResources
open PlaygroundServer
open PlaygroundSessionManager
open PlaygroundSessions

abbrev Owners := Uuid → String × Option String

def callerOf (identity : Identity) : String × Option String := (identity.userId, identity.tenantId)

def requestOf : Role → Option (Identity × Uuid)
  | .create identity id _ => some (identity, id)
  | .view identity id => some (identity, id)
  | .reset identity id => some (identity, id)
  | .extend identity id _ => some (identity, id)
  | .endSession identity id => some (identity, id)
  | .action identity id _ => some (identity, id)
  | .reaper _ => none

/-- The handler may act on the session: its request carries the stored identity. The reaper has
none but the one it makes up, which has no tenant. -/
def ActsFor (owner : Owners) (role : Role) (id : Uuid) : Prop :=
  match requestOf role with
  | some (identity, own) => id = own ∧ callerOf identity = owner id
  | none => (owner id).2 = none

/-- A callback carries the stored identity of its session: the session of the request, or one
whose names the reaper drops. -/
def MadeFor (sha256 : String → Digest) (env : ServerEnv) (owner : Owners) (role : Role)
    (r : ApiRequest) (identity : Identity) : Prop :=
  match requestOf role with
  | some (_, id) => callerOf identity = owner id
  | none => ∃ id n, n = namesOf sha256 (owner id).1 id ∧ callerOf identity = owner id ∧
      .external (.api r identity) ∈
        teardownOps env identity n.shuttleName n.connectionName n.namespaceName

def Own (role : Role) (id : Uuid) (userId : String) : Prop :=
  ∃ identity, requestOf role = some (identity, id) ∧ userId = identity.userId

def Asks (owner : Owners) (role : Role) : ManagerOp → Prop
  | .create a => (a.userId, a.tenantId) = owner a.id ∧
      ∃ identity, requestOf role = some (identity, a.id) ∧ callerOf identity = owner a.id
  | .get id userId => Own role id userId
  | .update id userId _ => Own role id userId
  | .endSession id userId => Own role id userId
  | .touchAction id userId => Own role id userId
  | .sweepExpired => requestOf role = none
  | _ => True

def Carries (sha256 : String → Digest) (env : ServerEnv) (owner : Owners) (role : Role) :
    Op → Prop
  | .external (.api r identity) => MadeFor sha256 env owner role r identity
  | .manager o => Asks owner role o
  | _ => True

instance {sha256 : String → Digest} {env : ServerEnv} {owner : Owners} {role : Role} :
    Lenient (Carries sha256 env owner role) where
  quiet {op} h := by
    cases op with
    | manager o => exact h.elim
    | actionStart id actionId => exact h.elim
    | external c => exact h.elim
    | _ => trivial

instance {sha256 : String → Digest} {env : ServerEnv} {owner : Owners} {role : Role} :
    AllowsOthers (Carries sha256 env owner role) where
  other {c} h := by
    cases c with
    | api r identity => exact h.elim
    | _ => trivial

def Found (id : Uuid) : (op : Op) → op.Result → Prop
  | .manager (.get j _), r => j = id ∧ ∃ s, r = .ok s
  | .manager (.update j _ _), r => j = id ∧ ∃ outcome, r = .ok outcome
  | .manager (.endSession j _), r => j = id ∧ ∃ s, r = .ok s
  | .manager (.touchAction j _), r => j = id ∧ ∃ u, r = .ok u
  | _, _ => False

def Answers (sha256 : String → Digest) (owner : Owners) (role : Role) :
    (op : Op) → op.Result → Prop
  | .manager (.create a), r => ∀ s, r = .ok s → s.id = a.id
  | .manager (.get id _), r => (∃ s, r = .ok s) → ActsFor owner role id
  | .manager (.endSession id _), r => (∃ s, r = .ok s) → ActsFor owner role id
  | .manager .sweepExpired, r => ∀ s ∈ r, ∃ id,
      sessionNames s = namesOf sha256 s.userId id ∧ (s.userId, none) = owner id
  | _, _ => True

section Steps

variable {sha256 : String → Digest} {owner : Owners} {m : SessionManager} {now : Clock}

variable {ι : Type} {outside : Outside} {env : ServerEnv} {roles : ι → Role} {q : HandlerPool ι}
  {i : ι} {op : Op} {r : op.Result} {s' : ServerState}

end Steps

section Programs

variable {sha256 : String → Digest} {env : ServerEnv} {owner : Owners}

theorem carries_request (sha256 : String → Digest) (env : ServerEnv) {role : Role}
    {identity asking : Identity} {id : Uuid} (hrole : requestOf role = some (asking, id))
    (h : callerOf identity = owner id) :
    AllowsCaller identity (Carries sha256 env owner role) where
  api r := by
    change MadeFor sha256 env owner role r identity
    unfold MadeFor
    rw [hrole]
    exact h

variable {identity : Identity} {id : Uuid}

end Programs

section Runs

variable {ι : Type} [DecidableEq ι] {sha256 : String → Digest} {outside : Outside}
  {env : ServerEnv} {owner : Owners} {roles : ι → Role} {p q : HandlerPool ι}

end Runs

section Schedules

-- One user creates a session from the tenant "a" and ends it from the given one.
def aliceOf (tenant : String) : Identity := ⟨"u1", some tenant, none, "jwt"⟩

def createAndEnd (tenant : String) : Bool → Role
  | false => .create (aliceOf "a") 1 ⟨"mongo-cdc", none⟩
  | true => .endSession (aliceOf tenant) 1

def beforeCreate (tenant : String) : HandlerPool Bool :=
  { thread := fun i => (createAndEnd tenant i).program configured
    state := {
      manager := .new oneScenario true defaultTtl
      clock := atSecond 0
      file := none
      tmp := none
      world := [] } }

def caller : Handler Unit → Option Identity
  | .request (.external (.api _ identity)) _ => some identity
  | _ => none

end Schedules

end PlaygroundOneIdentity
