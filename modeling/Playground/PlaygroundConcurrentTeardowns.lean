import Playground.PlaygroundCompleteTeardown

/-! # Teardowns side by side

The reaper, the end of a session and the boot sweep tear sessions down at the same time, among any
other handlers. Each teardown leaves nothing of its own session, and none touches anything else. -/
namespace PlaygroundConcurrentTeardowns

open InteractionPrograms
open PlaygroundApiClient
open PlaygroundCleanup
open PlaygroundCompleteTeardown
open PlaygroundNames
open PlaygroundOperations
open PlaygroundResources
open PlaygroundSessions
open PlaygroundTeardownEffects
open PlaygroundTeardownFrame

structure Torn where
  identity : Identity
  userId : String
  id : Uuid

def Torn.names (sha256 : String → Digest) (torn : Torn) : Names :=
  namesOf sha256 torn.userId torn.id

def Torn.ops (sha256 : String → Digest) (env : ServerEnv) (torn : Torn) : List Op :=
  teardownOps env torn.identity (torn.names sha256).shuttleName (torn.names sha256).connectionName
    (torn.names sha256).namespaceName

def Torn.program (sha256 : String → Digest) (env : ServerEnv) (torn : Torn) : Handler Unit :=
  teardownSession env torn.identity (torn.names sha256).shuttleName
    (torn.names sha256).connectionName (torn.names sha256).namespaceName

def StrictStep (P : Parties) (w : World) : (op : Op) → op.Result → World → Prop
  | .external c, r, w' => P.answers True w c r w'
  | _, _, _ => True

section Steps

variable {sha256 : String → Digest} {env : ServerEnv} {torn : Torn} {P : Parties} {w w' : World}
  {op : Op} {r : op.Result}

end Steps

section Runs

variable {ι : Type} [DecidableEq ι] {sha256 : String → Digest} {env : ServerEnv} {P : Parties}
  {roles : ι → Option Torn} {guard : Guard ι Op Op.Result Unit World}
  {p q : Pool ι Op Op.Result Unit World} {i : ι} {torn : Torn} {x : Artifact}

def CallsSucceed (P : Parties) (guard : Guard ι Op Op.Result Unit World) (i : ι) : Prop :=
  ∀ q op r w', guard q i op r w' → StrictStep P q.state op r w'

end Runs

section Schedules

variable {ι : Type} [DecidableEq ι] {sha256 : String → Digest} {env : ServerEnv} {torn : Torn}
  {p : Pool ι Op Op.Result Unit World} {i : ι} {l : List Asset}

def Ready (sha256 : String → Digest) (env : ServerEnv) (torn : Torn) (i : ι)
    (p : Pool ι Op Op.Result Unit World) : Prop :=
  (p.thread i).Always anyResult (fun op => op ∈ torn.ops sha256 env) ∧
    ∃ l, NoObjects l ∧ p.state = world l

end Schedules

end PlaygroundConcurrentTeardowns
