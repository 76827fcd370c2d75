import Mathlib.Data.Nat.Notation

/-! # The scenario manifest

The records the server reads; fields that no modelled function reads are left out. -/
namespace PlaygroundManifest

/-- `serde_json::Value`; a number keeps its text. -/
inductive Value where
  | null
  | bool (b : Bool)
  | number (text : String)
  | string (s : String)
  | array (items : List Value)
  | object (members : List (String × Value))

def Value.get (v : Value) (field : String) : Option Value :=
  match v with
  | .object members => members.lookup field
  | _ => none

def Value.asStr : Value → Option String
  | .string s => some s
  | _ => none

def Value.asArray : Value → Option (List Value)
  | .array items => some items
  | _ => none

/-- `v.get(field).and_then(|v| v.as_str())`. -/
def Value.getStr (v : Value) (field : String) : Option String :=
  (v.get field).bind Value.asStr

structure Source where
  id : String
  dockerService : Option String
  deriving DecidableEq, Repr

inductive Deployment where
  | dev
  | selfManaged
  | cloud
  deriving DecidableEq, Repr

inductive ActionKind where
  | sql
  | shell
  | http
  | produceKafka
  | uploadFile
  | toxiproxy
  | resetSnapshot
  deriving DecidableEq, Repr

inductive ActionTarget where
  | source
  | target
  | kafka
  | s3
  | rest
  | ops
  deriving DecidableEq, Repr

structure HttpRequest where
  method : String
  url : String
  body : Option Value

structure Action where
  id : String
  kind : ActionKind
  target : Option ActionTarget
  sql : Option String
  sqlFile : Option String
  shellCmd : Option String
  httpRequest : Option HttpRequest
  payloadFile : Option String
  repeatCount : Option ℕ

structure Scenario where
  id : String
  sourceId : String
  deployment : List Deployment
  initSql : Option String
  shuttleSql : Option String
  actions : List Action
  breakScenarios : List Action

structure Manifest where
  version : ℕ
  sources : List Source
  scenarios : List Scenario

def Manifest.scenario (m : Manifest) (id : String) : Option Scenario :=
  m.scenarios.find? fun s => s.id == id

def Manifest.source (m : Manifest) (id : String) : Option Source :=
  m.sources.find? fun s => s.id == id

def Scenario.action (s : Scenario) (id : String) : Option Action :=
  (s.actions ++ s.breakScenarios).find? fun a => a.id == id

def Scenario.allowedIn (s : Scenario) (deployment : Deployment) : Bool :=
  s.deployment.isEmpty || s.deployment.contains deployment

end PlaygroundManifest
