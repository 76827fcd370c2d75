import Playground.PlaygroundActions
import Playground.PlaygroundResources
import Playground.UrlEndpoints

/-! # Where the service token goes

The API client sends the service token and the user it stands for with every request, also
where an http action names a host of its own. -/
namespace PlaygroundTokenScope

open InteractionPrograms
open PlaygroundActions
open PlaygroundApiClient
open PlaygroundManagerRuns
open PlaygroundManifest (Action HttpRequest Value)
open PlaygroundOperations
open PlaygroundResources
open PlaygroundSessions
open PlaygroundTemplates
open UrlEndpoints

/-- What the HTTP library accepts: methods, URLs it can send to, and header values. -/
structure HttpLibrary where
  method : String → Except String Unit
  url : String → Except String (Endpoint String)
  header : String → String → Except String Unit

/-- URLs lead where the URL Standard says. -/
def FollowsUrlStandard (lib : HttpLibrary) (readHost : List Char → Option String) : Prop :=
  ∀ s, (lib.url s).toOption = endpoint readHost s.toList

structure OutgoingRequest where
  method : String
  url : String
  endpoint : Endpoint String
  headers : List (String × String)
  body : Option Value

def isAbsolute (path : String) : Bool :=
  "http://".toList.isPrefixOf path.toList || "https://".toList.isPrefixOf path.toList

def userIdHeader : String := "X-Datashuttle-Impersonate-User-Id"
def tenantIdHeader : String := "X-Datashuttle-Impersonate-Tenant-Id"

section Client

variable (lib : HttpLibrary) (client : ApiClient) (r : ApiRequest) (identity : Identity)

def target (path : String) : String := if isAbsolute path then path else client.baseUrl ++ path

def tokenHeader : String × String := ("Authorization", "Bearer " ++ client.serviceToken)

def requestHeaders : List (String × String) :=
  [tokenHeader client, (userIdHeader, identity.userId)] ++
    identity.tenantId.toList.map fun tid => (tenantIdHeader, tid)

def checkHeaders (headers : List (String × String)) : Except String Unit :=
  headers.forM fun h => lib.header h.1 h.2

/-- `ApiClient::request` up to the exchange. What the library refuses while the request is put
together, other than its method, comes up when it is sent. -/
def request : Except ApiCallError OutgoingRequest :=
  match lib.method r.method with
  | .error e => .error (.build (r.method ++ " " ++ r.path ++ ": " ++ e))
  | .ok () =>
    match lib.url (target client r.path) with
    | .error e => .error (.transport (r.method ++ " " ++ r.path ++ ": " ++ e))
    | .ok endpoint =>
      match checkHeaders lib (requestHeaders client identity) with
      | .error e => .error (.transport (r.method ++ " " ++ r.path ++ ": " ++ e))
      | .ok () => .ok
          { method := r.method
            url := target client r.path
            endpoint := endpoint
            headers := requestHeaders client identity
            body := r.body }

def Accepted : Prop :=
  lib.method r.method = .ok () ∧ (∃ e, lib.url (target client r.path) = .ok e) ∧
    checkHeaders lib (requestHeaders client identity) = .ok ()

def Carries (out : OutgoingRequest) : Prop :=
  tokenHeader client ∈ out.headers ∨ (userIdHeader, identity.userId) ∈ out.headers

theorem request_ok_iff {out : OutgoingRequest} :
    request lib client r identity = .ok out ↔ Accepted lib client r identity ∧
      lib.url (target client r.path) = .ok out.endpoint ∧
      out = ⟨r.method, target client r.path, out.endpoint, requestHeaders client identity,
        r.body⟩ := by
  unfold request Accepted
  cases lib.method r.method with
  | error e => simp
  | ok _ =>
    cases lib.url (target client r.path) with
    | error e => simp
    | ok endpoint =>
      cases checkHeaders lib (requestHeaders client identity) with
      | error e => simp
      | ok _ =>
        dsimp only
        constructor
        · rintro ⟨⟩
          exact ⟨⟨rfl, ⟨_, rfl⟩, rfl⟩, rfl, rfl⟩
        · rintro ⟨_, hendpoint, hout⟩
          cases hendpoint
          rw [hout]

end Client

/-- A request that carries the token or the user goes to the base's host and port. -/
def TokenKept (lib : HttpLibrary) (env : ServerEnv) : Op → Prop
  | .external (.api r identity) => ∀ client out, env.apiClient = some client →
      request lib client r identity = .ok out → Carries client identity out →
      lib.url client.baseUrl = .ok out.endpoint
  | _ => True

/-- When a request stays with the base: it is refused, its absolute URL has the base's endpoint,
or the base's authority has it still with what a relative one adds to it. -/
inductive Confined (lib : HttpLibrary) (readHost : List Char → Option String) (client : ApiClient)
    (r : ApiRequest) (identity : Identity) : Prop where
  | refused : ¬ Accepted lib client r identity → Confined lib readHost client r identity
  | absolute : isAbsolute r.path = true →
      endpoint readHost r.path.toList = endpoint readHost client.baseUrl.toList →
      Confined lib readHost client r identity
  | relative (l : Location) : isAbsolute r.path = false →
      (endpoint readHost client.baseUrl.toList).isSome →
      locate (visible client.baseUrl.toList) = some l →
      hostAndPort readHost l.defaultPort
          (l.authority ++ addedAuthority client.baseUrl.toList r.path.toList) =
        endpoint readHost client.baseUrl.toList →
      Confined lib readHost client r identity

section Scope

variable {lib : HttpLibrary} {readHost : List Char → Option String} {env : ServerEnv}
  {identity : Identity} {session : Session} {action : Action} {client : ApiClient}
  {r : ApiRequest} {e : Endpoint String}

theorem url_ok_iff (hurl : FollowsUrlStandard lib readHost) {s : String} :
    lib.url s = .ok e ↔ endpoint readHost s.toList = some e := by
  rw [← hurl s]
  cases lib.url s with
  | error message => simp [Except.toOption]
  | ok endpoint => simp [Except.toOption]

theorem carries_request {out : OutgoingRequest} (h : request lib client r identity = .ok out) :
    Carries client identity out := by
  obtain ⟨_, _, hout⟩ := (request_ok_iff lib client r identity).mp h
  rw [hout]
  exact Or.inl (by simp [requestHeaders])

theorem kept_iff_confined (hurl : FollowsUrlStandard lib readHost) :
    (∀ out, request lib client r identity = .ok out → Carries client identity out →
      lib.url client.baseUrl = .ok out.endpoint) ↔ Confined lib readHost client r identity := by
  constructor
  · intro h
    by_cases haccepted : Accepted lib client r identity
    · obtain ⟨e, he⟩ := haccepted.2.1
      have hout : request lib client r identity =
          .ok ⟨r.method, target client r.path, e, requestHeaders client identity, r.body⟩ :=
        (request_ok_iff lib client r identity).mpr ⟨haccepted, he, rfl⟩
      have hbase : endpoint readHost client.baseUrl.toList = some e :=
        (url_ok_iff hurl).mp (h _ hout (carries_request hout))
      have htarget := (url_ok_iff hurl).mp he
      cases habs : isAbsolute r.path with
      | true =>
        rw [target, if_pos habs] at htarget
        exact .absolute habs (htarget.trans hbase.symm)
      | false =>
        rw [target, if_neg (by simp [habs]), String.toList_append] at htarget
        obtain ⟨l, hl, happend⟩ := endpoint_append r.path.toList hbase
        exact .relative l habs (by simp [hbase]) hl
          (happend.symm.trans (htarget.trans hbase.symm))
    · exact .refused haccepted
  · intro h out hout _
    obtain ⟨haccepted, htarget, _⟩ := (request_ok_iff lib client r identity).mp hout
    rw [url_ok_iff hurl] at htarget ⊢
    cases h with
    | refused hrefused => exact absurd haccepted hrefused
    | absolute habs heq =>
      rw [target, if_pos habs] at htarget
      rw [← heq, htarget]
    | relative l habs hsome hl heq =>
      rw [target, if_neg (by simp [habs]), String.toList_append] at htarget
      obtain ⟨e, hbase⟩ := Option.isSome_iff_exists.mp hsome
      obtain ⟨l', hl', happend⟩ := endpoint_append r.path.toList hbase
      rw [hl, Option.some.injEq] at hl'
      subst hl'
      rw [← heq, ← happend, htarget]

theorem runHttp_always_iff {P : Op → Prop} :
    (runHttp env identity session action).Always anyResult P ↔ ∀ client req,
      env.apiClient = some client → action.httpRequest = some req →
      P (.external (.api (httpActionRequest env session req) identity)) := by
  unfold runHttp
  cases action.httpRequest with
  | none => simp
  | some req =>
    cases env.apiClient with
    | none => simp
    | some client =>
      constructor
      · intro h client' req' _ hreq
        cases hreq
        exact h.1
      · intro h
        refine ⟨h client req rfl rfl, fun r _ => ?_⟩
        cases r <;> trivial

/-- The token of an http action stays with the API exactly when its request is confined. -/
theorem token_kept_iff (hurl : FollowsUrlStandard lib readHost) (hkind : action.kind = .http) :
    (runAction env identity session action).Always anyResult (TokenKept lib env) ↔
      ∀ client req, env.apiClient = some client → action.httpRequest = some req →
        Confined lib readHost client (httpActionRequest env session req) identity := by
  have hrun : runAction env identity session action = runHttp env identity session action := by
    unfold runAction
    rw [hkind]
  rw [hrun, runHttp_always_iff]
  constructor
  · intro h client req hclient hreq
    exact (kept_iff_confined hurl).mp fun out => h client req hclient hreq client out hclient
  · intro h client req hclient hreq client' out hclient'
    exact (kept_iff_confined hurl).mpr (h client' req hclient' hreq) out

/-- A path that starts with a delimiter is confined, whatever follows. -/
theorem delimited_confined {c : Char} {rest : List Char}
    (hbase : (endpoint readHost client.baseUrl.toList).isSome)
    (hblank : client.baseUrl.toList.rtakeWhile isBlank = []) (hc : inAuthority c = false)
    (hpath : r.path.toList = c :: rest) : Confined lib readHost client r identity := by
  have hletter : ('h' == c) = false := by
    rw [beq_eq_false_iff_ne]
    rintro rfl
    cases hc
  have habs : isAbsolute r.path = false := by
    rw [isAbsolute, hpath]
    simp [List.isPrefixOf, hletter]
  obtain ⟨e, he⟩ := Option.isSome_iff_exists.mp hbase
  obtain ⟨l, hl, _, hhost⟩ := endpoint_eq he
  refine .relative l habs hbase hl ?_
  rw [hpath, addedAuthority_delimiter hblank hc, List.append_nil, hhost, he]

end Scope

section Actions

def letterHost (host : List Char) : Option String := some (String.ofList (host.map Char.toLower))

/-- A library that refuses only what is no URL. -/
def lenientLibrary : HttpLibrary :=
  { method := fun _ => .ok ()
    url := fun s =>
      match endpoint letterHost s.toList with
      | some e => .ok e
      | none => .error "builder error"
    header := fun _ _ => .ok () }

theorem lenientLibrary_standard : FollowsUrlStandard lenientLibrary letterHost := by
  intro s
  unfold lenientLibrary
  dsimp only
  cases endpoint letterHost s.toList <;> rfl

def post (url : String) : HttpRequest := ⟨"POST", url, none⟩

def posting (req : HttpRequest) : Action :=
  ⟨"reset-mappings", .http, some .rest, none, none, none, some req, none, none⟩

def toApi : HttpRequest := post "/api/v1/shuttles"

def toWiremock : HttpRequest := post "http://wiremock-playground:8080/__admin/mappings/reset"

theorem plain_path {req : HttpRequest} (h : '\x7b' ∉ req.url.toList) :
    (httpActionRequest configured firstSession req).path = req.url :=
  substitutePlaceholders_plain configured h firstSession

theorem token_kept_relative :
    (runAction configured alice firstSession (posting toApi)).Always anyResult
      (TokenKept lenientLibrary configured) := by
  refine (token_kept_iff lenientLibrary_standard rfl).mpr ?_
  intro client req hclient hreq
  cases hclient
  cases hreq
  exact delimited_confined (c := '/') (by decide +kernel) (by decide +kernel) rfl
    (congrArg String.toList (plain_path (by decide)))

/-- The action posts to another service, with the token. -/
theorem token_sent_elsewhere : ¬ ∀ (lib : HttpLibrary) (readHost : List Char → Option String)
    (env : ServerEnv) (identity : Identity) (session : Session) (action : Action),
    FollowsUrlStandard lib readHost → action.kind = .http →
    (runAction env identity session action).Always anyResult (TokenKept lib env) := by
  intro h
  have hrun : (runHttp configured alice firstSession (posting toWiremock)).Always anyResult
      (TokenKept lenientLibrary configured) :=
    h lenientLibrary letterHost configured alice firstSession (posting toWiremock)
      lenientLibrary_standard rfl
  let client := ApiClient.new "http://api:8080" "svc"
  have hkept := runHttp_always_iff.mp hrun client toWiremock rfl rfl
  have hurl : lenientLibrary.url (target client
      (httpActionRequest configured firstSession toWiremock).path) =
      .ok ⟨"wiremock-playground", 8080⟩ := by
    rw [plain_path (by decide), url_ok_iff lenientLibrary_standard]
    decide +kernel
  have hsent : request lenientLibrary client (httpActionRequest configured firstSession toWiremock)
      alice = .ok ⟨_, _, ⟨"wiremock-playground", 8080⟩, _, _⟩ :=
    (request_ok_iff lenientLibrary client _ alice).mpr ⟨⟨rfl, ⟨_, hurl⟩, rfl⟩, hurl, rfl⟩
  have hbase := hkept client _ rfl hsent (carries_request hsent)
  rw [url_ok_iff lenientLibrary_standard] at hbase
  exact absurd hbase (by decide +kernel)

end Actions

end PlaygroundTokenScope
