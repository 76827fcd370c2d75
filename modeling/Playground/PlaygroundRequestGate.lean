import Playground.PlaygroundApiClient

/-! # The request gate

The bearer check and the identity extraction in front of every route, and the routes. A request
carries its header values as bytes, under lower-case names and in the order they came. -/
namespace PlaygroundRequestGate

open PlaygroundApiClient (Identity)
open RustText (asBytes byteAsChar)

/-- `identity` is the request extension that the middleware sets. -/
structure Request where
  method : String
  path : String
  headers : List (String × List UInt8)
  identity : Option Identity := none
  deriving DecidableEq, Repr

def authorization : String := "authorization"

def headerUserId : String := "x-datashuttle-user-id"

def headerTenantId : String := "x-datashuttle-tenant-id"

def headerActorId : String := "x-datashuttle-actor-id"

def headerAuthMethod : String := "x-datashuttle-auth-method"

/-- `HeaderMap::get`: the first value of the name. -/
def Request.get (req : Request) (name : String) : Option (List UInt8) := req.headers.lookup name

def visibleByte (b : UInt8) : Bool := (32 ≤ b && b < 127) || b == 9

/-- `HeaderValue::to_str`: only visible ASCII and tabs are readable. -/
def toStr (value : List UInt8) : Option (List Char) :=
  if value.all visibleByte then some (value.map byteAsChar) else none

section Middleware

def constantTimeEq (a b : List UInt8) : Bool :=
  if a.length != b.length then false
  else (a.zip b).foldl (fun diff xy => diff ||| (xy.1 ^^^ xy.2)) 0 == 0

def validBearer (req : Request) (expected : String) : Bool :=
  match ((req.get authorization).bind toStr).bind (RustText.stripPrefix "Bearer ".toList) with
  | some tok => constantTimeEq (asBytes (String.ofList tok)) (asBytes expected)
  | none => false

inductive Route where
  | health
  | metrics
  | getManifest
  | createSession
  | listMySessions
  | getSession (id : String)
  | endSession (id : String)
  | resetSession (id : String)
  | extendSession (id : String)
  | executeAction (id actionId : String)
  deriving DecidableEq, Repr

inductive Reply where
  | unauthorized (error : String)
  | handled (route : Route) (identity : Option Identity)
  | notRouted
  deriving DecidableEq, Repr

def authMiddleware (authToken : Option String) (req : Request) (next : Request → Reply) : Reply :=
  if req.path == "/health" || req.path == "/metrics" || req.path == "/api/v1/health" ||
      req.path == "/api/v1/manifest" then next req
  else
    match authToken with
    | none => next req
    | some expected =>
      if validBearer req expected then next req
      else .unauthorized "missing or invalid bearer token"

def isExempt (path : String) : Bool :=
  match path with
  | "/health" | "/metrics" | "/api/v1/health" | "/api/v1/manifest" => true
  | _ => false

def headerText (req : Request) (name : String) : Option String :=
  (((req.get name).bind toStr).map fun s => String.ofList (RustText.trim s)).filter
    fun s => !s.isEmpty

def identityMiddleware (req : Request) (next : Request → Reply) : Reply :=
  if isExempt req.path then next req
  else
    match headerText req headerUserId with
    | none => .unauthorized "playground requires authenticated identity"
    | some userId =>
      let identity : Identity :=
        { userId := userId
          tenantId := headerText req headerTenantId
          actorId := headerText req headerActorId
          authMethod := (headerText req headerAuthMethod).getD "unknown" }
      next { req with identity := some identity }

end Middleware

section Routes

/-- A `get` route answers `HEAD` as well. -/
def isGet (method : String) : Bool := method == "GET" || method == "HEAD"

/-- The routes below `/api/v1`. A parameter matches one segment that is not empty. -/
def sessionRoute (method : String) : List String → Option Route
  | ["manifest"] => if isGet method then some .getManifest else none
  | ["sessions"] =>
    if method == "POST" then some .createSession
    else if isGet method then some .listMySessions
    else none
  | ["sessions", id] =>
    if id.isEmpty then none
    else if isGet method then some (.getSession id)
    else if method == "DELETE" then some (.endSession id)
    else none
  | ["sessions", id, "reset"] =>
    if !id.isEmpty && method == "POST" then some (.resetSession id) else none
  | ["sessions", id, "extend"] =>
    if !id.isEmpty && method == "POST" then some (.extendSession id) else none
  | ["sessions", id, "actions", actionId] =>
    if !id.isEmpty && !actionId.isEmpty && method == "POST" then
      some (.executeAction id actionId)
    else none
  | _ => none

def segmentsOf (path : String) : List String := (path.toList.splitOn '/').map String.ofList

def routeOf (method path : String) : Option Route :=
  match segmentsOf path with
  | ["", "health"] => if isGet method then some .health else none
  | ["", "metrics"] => if isGet method then some .metrics else none
  | ["", "api", "v1", "health"] => if isGet method then some .health else none
  | "" :: "api" :: "v1" :: rest => sessionRoute method rest
  | _ => none

def handle (req : Request) : Reply :=
  match routeOf req.method req.path with
  | some route => .handled route req.identity
  | none => .notRouted

/-- The router with its layers: the bearer check runs first. -/
def router (authToken : Option String) (req : Request) : Reply :=
  authMiddleware authToken req fun req => identityMiddleware req handle

end Routes

section Comparison

theorem foldl_diff (pairs : List (UInt8 × UInt8)) (diff : UInt8) :
    pairs.foldl (fun diff xy => diff ||| (xy.1 ^^^ xy.2)) diff = 0 ↔
      diff = 0 ∧ ∀ xy ∈ pairs, xy.1 = xy.2 := by
  induction pairs generalizing diff with
  | nil => simp
  | cons xy pairs ih =>
    rw [List.foldl_cons, ih, UInt8.or_eq_zero_iff, UInt8.xor_eq_zero_iff, List.forall_mem_cons,
      and_assoc]

/-- The fold of differences is equality, on all byte strings. -/
theorem constantTimeEq_iff {a b : List UInt8} : constantTimeEq a b = true ↔ a = b := by
  unfold constantTimeEq
  by_cases hlen : a.length = b.length
  · rw [if_neg (by simp [hlen]), beq_iff_eq, foldl_diff]
    constructor
    · rintro ⟨-, hall⟩
      apply List.ext_getElem hlen
      intro i ha hb
      exact hall (a[i], b[i]) (List.mem_iff_getElem.mpr ⟨i, by simp [ha, hb], by simp⟩)
    · rintro rfl
      refine ⟨rfl, fun xy hxy => ?_⟩
      obtain ⟨i, hi, rfl⟩ := List.mem_iff_getElem.mp hxy
      simp
  · constructor
    · intro h
      simp [hlen] at h
    · rintro rfl
      exact absurd rfl hlen

theorem encode_byte {b : UInt8} (h : b.toNat ≤ 127) :
    String.utf8EncodeChar (byteAsChar b) = [b] := by
  have hval : (byteAsChar b).val.toNat = b.toNat := RustText.toNat_byteAsChar b
  rw [String.utf8EncodeChar, hval, if_pos h, UInt8.ofNat_toNat]

theorem visibleByte_ascii {b : UInt8} (h : visibleByte b = true) : b.toNat ≤ 127 := by
  simp only [visibleByte, Bool.or_eq_true, Bool.and_eq_true, decide_eq_true_eq, beq_iff_eq,
    UInt8.lt_iff_toNat_lt] at h
  rcases h with ⟨-, h⟩ | rfl
  · exact Nat.le_of_lt h
  · decide

theorem toStr_bytes {value : List UInt8} {text : List Char} (h : toStr value = some text) :
    asBytes (String.ofList text) = value := by
  unfold toStr at h
  split at h
  · rename_i hall
    cases h
    rw [List.all_eq_true] at hall
    rw [RustText.asBytes_eq, String.toList_ofList]
    induction value with
    | nil => rfl
    | cons b value ih =>
      rw [List.map_cons, List.flatMap_cons, encode_byte (visibleByte_ascii (hall b (by simp))),
        ih fun d hd => hall d (by simp [hd])]
      rfl
  · cases h

theorem asBytes_append (a b : String) : asBytes (a ++ b) = asBytes a ++ asBytes b := by
  simp only [RustText.asBytes_eq, String.toList_append, List.flatMap_append]

theorem validBearer_header {req : Request} {expected : String}
    (h : validBearer req expected = true) :
    req.get authorization = some (asBytes ("Bearer " ++ expected)) := by
  unfold validBearer at h
  split at h
  · rename_i tok hstrip
    obtain ⟨text, hread, htok⟩ := Option.bind_eq_some_iff.mp hstrip
    obtain ⟨value, hget, hvalue⟩ := Option.bind_eq_some_iff.mp hread
    have htext : text = "Bearer ".toList ++ tok := by
      unfold RustText.stripPrefix at htok
      split at htok
      · rename_i hbearer
        cases htok
        exact (List.prefix_iff_eq_append.mp (List.isPrefixOf_iff_prefix.mp hbearer)).symm
      · cases htok
    rw [constantTimeEq_iff] at h
    rw [hget, ← toStr_bytes hvalue, htext, String.ofList_append, String.ofList_toList,
      asBytes_append, asBytes_append, h]
  · cases h

end Comparison

section Gate

def Route.isSession : Route → Bool
  | .health | .metrics | .getManifest => false
  | .createSession | .listMySessions | .getSession _ | .endSession _ | .resetSession _
  | .extendSession _ | .executeAction _ _ => true

theorem exempt_paths {path : String} (h : isExempt path = true) :
    path = "/health" ∨ path = "/metrics" ∨ path = "/api/v1/health" ∨
      path = "/api/v1/manifest" := by
  unfold isExempt at h
  split at h
  · exact Or.inl rfl
  · exact Or.inr (Or.inl rfl)
  · exact Or.inr (Or.inr (Or.inl rfl))
  · exact Or.inr (Or.inr (Or.inr rfl))
  · cases h

theorem authMiddleware_exempt (authToken : Option String) (req : Request)
    (next : Request → Reply) : authMiddleware authToken req next =
      if isExempt req.path then next req
      else
        match authToken with
        | none => next req
        | some expected =>
          if validBearer req expected then next req
          else .unauthorized "missing or invalid bearer token" := by
  cases h : isExempt req.path with
  | true =>
    rcases exempt_paths h with hpath | hpath | hpath | hpath <;> simp [authMiddleware, hpath]
  | false =>
    have hne : ∀ path, isExempt path = true → req.path ≠ path := by
      intro path hpath heq
      rw [heq, hpath] at h
      cases h
    have h1 := hne "/health" rfl
    have h2 := hne "/metrics" rfl
    have h3 := hne "/api/v1/health" rfl
    have h4 := hne "/api/v1/manifest" rfl
    simp [authMiddleware, h1, h2, h3, h4]

theorem get_route {method : String} {route r : Route} (hr : r.isSession = false)
    (h : (if isGet method then some r else none) = some route) : route.isSession = false := by
  split at h
  · cases h
    exact hr
  · cases h

/-- No session handler is routed at an exempt path. -/
theorem exempt_routes {method path : String} {route : Route} (h : isExempt path = true)
    (hroute : routeOf method path = some route) : route.isSession = false := by
  rcases exempt_paths h with rfl | rfl | rfl | rfl
  · exact get_route (r := .health) rfl hroute
  · exact get_route (r := .metrics) rfl hroute
  · exact get_route (r := .health) rfl hroute
  · exact get_route (r := .getManifest) rfl hroute

theorem headerText_some {req : Request} {name s : String} (h : headerText req name = some s) :
    ∃ value text, req.get name = some value ∧ toStr value = some text ∧
      RustText.trim text ≠ [] ∧ s = String.ofList (RustText.trim text) := by
  obtain ⟨hmap, hne⟩ := Option.filter_eq_some_iff.mp h
  obtain ⟨text, hread, rfl⟩ := Option.map_eq_some_iff.mp hmap
  obtain ⟨value, hget, hvalue⟩ := Option.bind_eq_some_iff.mp hread
  exact ⟨value, text, hget, hvalue, by simpa using hne, rfl⟩

theorem headerText_of_readable {req : Request} {name : String} {value : List UInt8}
    {text : List Char} (hget : req.get name = some value) (hvalue : toStr value = some text)
    (hne : RustText.trim text ≠ []) :
    headerText req name = some (String.ofList (RustText.trim text)) := by
  simp [headerText, hget, hvalue, hne]

section Handled

variable {authToken : Option String} {req : Request} {route : Route} {identity : Option Identity}

theorem handle_handled (h : handle req = .handled route identity) :
    routeOf req.method req.path = some route ∧ identity = req.identity := by
  unfold handle at h
  split at h
  · cases h
    exact ⟨‹_›, rfl⟩
  · cases h

theorem authMiddleware_handled {next : Request → Reply}
    (h : authMiddleware authToken req next = .handled route identity) :
    next req = .handled route identity ∧ (isExempt req.path = false → ∀ expected,
      authToken = some expected → validBearer req expected = true) := by
  rw [authMiddleware_exempt] at h
  split at h
  · rename_i hexempt
    refine ⟨h, fun hpath => ?_⟩
    rw [hexempt] at hpath
    cases hpath
  split at h
  · exact ⟨h, fun _ expected htoken => by cases htoken⟩
  split at h
  · rename_i hbearer
    refine ⟨h, fun _ expected htoken => ?_⟩
    cases htoken
    exact hbearer
  · cases h

theorem identityMiddleware_handled (h : identityMiddleware req handle = .handled route identity) :
    routeOf req.method req.path = some route ∧ (isExempt req.path = false →
      ∃ caller, identity = some caller ∧ headerText req headerUserId = some caller.userId ∧
        caller.tenantId = headerText req headerTenantId) := by
  unfold identityMiddleware at h
  split at h
  · rename_i hexempt
    refine ⟨(handle_handled h).1, fun hpath => ?_⟩
    rw [hexempt] at hpath
    cases hpath
  split at h
  · cases h
  · rename_i userId huser
    obtain ⟨hroute, rfl⟩ := handle_handled h
    exact ⟨hroute, fun _ => ⟨_, rfl, huser, rfl⟩⟩

end Handled

/-- What a session handler may rely on. -/
structure Admitted (authToken : Option String) (req : Request) (identity : Identity) : Prop where
  bearer : ∀ expected, authToken = some expected →
    req.get authorization = some (asBytes ("Bearer " ++ expected))
  user : ∃ value text, req.get headerUserId = some value ∧ toStr value = some text ∧
    RustText.trim text ≠ [] ∧ identity.userId = String.ofList (RustText.trim text)
  tenant : ∀ value text, req.get headerTenantId = some value → toStr value = some text →
    RustText.trim text ≠ [] →
      identity.tenantId = some (String.ofList (RustText.trim text))
  no_tenant : (∀ value text, req.get headerTenantId = some value → toStr value = some text →
    RustText.trim text = []) → identity.tenantId = none

theorem session_handler_gated {authToken : Option String} {req : Request} {route : Route}
    {identity : Option Identity} (h : router authToken req = .handled route identity)
    (hsession : route.isSession = true) :
    ∃ caller, identity = some caller ∧ Admitted authToken req caller := by
  obtain ⟨hnext, hbearer⟩ := authMiddleware_handled h
  obtain ⟨hroute, hidentity⟩ := identityMiddleware_handled hnext
  have hpath : isExempt req.path = false := by
    rw [← Bool.not_eq_true]
    intro hexempt
    rw [exempt_routes hexempt hroute] at hsession
    cases hsession
  obtain ⟨caller, rfl, huser, htenant⟩ := hidentity hpath
  refine ⟨caller, rfl, ?_, headerText_some huser, ?_, ?_⟩
  · intro expected htoken
    exact validBearer_header (hbearer hpath expected htoken)
  · intro value text hget hvalue hne
    rw [htenant, headerText_of_readable hget hvalue hne]
  · intro hblank
    cases htext : headerText req headerTenantId with
    | none => rw [htenant, htext]
    | some tenantId =>
      obtain ⟨value, text, hget, hvalue, hne, -⟩ := headerText_some htext
      exact absurd (hblank value text hget hvalue) hne

def listRequest (tenantId : List UInt8) : Request where
  method := "GET"
  path := "/api/v1/sessions"
  headers := [(authorization, asBytes "Bearer tok"), (headerUserId, asBytes " user-1"),
    (headerTenantId, tenantId)]

theorem list_request_gated :
    ∃ caller, (some ⟨"user-1", some "tenant-1", none, "unknown"⟩ : Option Identity) =
      some caller ∧ Admitted (some "tok") (listRequest (asBytes "tenant-1")) caller := by
  have hhandled : router (some "tok") (listRequest (asBytes "tenant-1")) =
      .handled .listMySessions (some ⟨"user-1", some "tenant-1", none, "unknown"⟩) := by
    decide +kernel
  exact session_handler_gated hhandled rfl

/-- A tenant header outside ASCII is neither absent nor blank, and still no tenant is seen. -/
theorem unreadable_tenant_dropped :
    (listRequest (asBytes "é")).get headerTenantId = some (asBytes "é") ∧
      RustText.trim "é".toList = ['é'] ∧
      router (some "tok") (listRequest (asBytes "é")) =
        .handled .listMySessions (some ⟨"user-1", none, none, "unknown"⟩) := by
  decide +kernel

end Gate

end PlaygroundRequestGate
