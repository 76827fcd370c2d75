import Playground.PlaygroundHandlers
import Playground.PlaygroundQuota
import Playground.PlaygroundServer

/-! # Session-start accounting

One request charges the quota, ticks the counter and inserts the session, in this order. A history
is a sequence of requests; between two of them the sessions may change in any way. -/
namespace PlaygroundStartAccounting

open InteractionPrograms
open PlaygroundApiClient (Identity)
open PlaygroundHandlers
open PlaygroundManagerRuns
open PlaygroundOperations
open PlaygroundQuota (PlaygroundQuotaTracker)
open PlaygroundServer
open PlaygroundSessionManager
open PlaygroundSessions

/-- A POST with the clock values that the quota and the manager see. -/
structure StartRequest where
  identity : Identity
  body : CreateSessionBody
  id : Uuid
  chargedAt : ℤ
  createdAt : Clock

/-- The ticks are the label pairs of `session_started_total`. -/
structure StartState where
  server : ServerState
  quota : PlaygroundQuotaTracker
  ticks : List (String × Bool)

def ticksOf : Metric → List (String × Bool)
  | .sessionStart scenarioId ok => [(scenarioId, ok)]
  | _ => []

def ticked (ok : Bool) (s : StartState) : ℕ := s.ticks.countP fun tick => tick.2 == ok

section Requests

variable (env : ServerEnv) (sha256 : String → Digest) (outside : Outside) (r : StartRequest)

def startStep : Semantics Op Op.Result StartState := fun s op result s' =>
  match op, result with
  | .tryConsume tenantId, result =>
    result = (s.quota.tryConsumeAt tenantId r.chargedAt).1 ∧
      s' = { s with quota := (s.quota.tryConsumeAt tenantId r.chargedAt).2 }
  | .metric m, _ => s' = { s with ticks := s.ticks ++ ticksOf m }
  | .manager (.create a), result =>
    result = (s.server.manager.create sha256 r.createdAt a).1 ∧
      s' = { s with server := { s.server with
        manager := (s.server.manager.create sha256 r.createdAt a).2
        clock := r.createdAt } }
  | op, result => ∃ server, ServerStep sha256 outside s.server op result server ∧
      s' = { s with server := server }

def Passes : Prop := env.initialized = true ∧ ∃ scenario, startable env r.body = .ok scenario

def charge (s : StartState) : Except QuotaError ℕ :=
  (s.quota.tryConsumeAt r.identity.tenantId r.chargedAt).1

def creation (s : StartState) : Except SessionError Session :=
  (s.server.manager.create sha256 r.createdAt (createArgs r.identity r.id r.body)).1

/-- How a request may end, and what it has ticked by then. -/
inductive Ends (s t : StartState) : Except Failure SessionView → Prop where
  | turnedAway (e : Failure) (hgate : ¬ Passes env r) (hticks : t.ticks = s.ticks) :
    Ends s t (.error e)
  | overQuota (e : Failure) {q : QuotaError} (hgate : Passes env r)
    (hcharge : charge r s = .error q)
    (hticks : t.ticks = s.ticks ++ [(r.body.scenarioId, false)]) : Ends s t (.error e)
  | notCreated (e : Failure) {n : ℕ} {c : SessionError} (hgate : Passes env r)
    (hcharge : charge r s = .ok n) (hcreate : creation sha256 r s = .error c)
    (hticks : t.ticks = s.ticks ++ [(r.body.scenarioId, true)]) : Ends s t (.error e)
  | started (view : SessionView) {n : ℕ} {session : Session} (hgate : Passes env r)
    (hcharge : charge r s = .ok n) (hcreate : creation sha256 r s = .ok session)
    (hticks : t.ticks = s.ticks ++ [(r.body.scenarioId, true)]) : Ends s t (.ok view)

end Requests

def Uncounted : Op → Prop
  | .metric _ => False
  | _ => True

instance : AllowsBookkeeping Uncounted where
  own {op} h := by
    cases op with
    | metric m => exact h.elim
    | _ => trivial

instance : AllowsOthers Uncounted := ⟨fun _ => trivial⟩

instance (identity : Identity) : AllowsCaller identity Uncounted := ⟨fun _ => trivial⟩

variable {env : ServerEnv} {sha256 : String → Digest} {outside : Outside} {r : StartRequest}
  {s t : StartState}

theorem step_uncounted {op : Op} {result : op.Result} (hop : Uncounted op)
    (h : startStep sha256 outside r s op result t) : t.ticks = s.ticks := by
  cases op with
  | metric m => exact hop.elim
  | tryConsume tenantId => rw [h.2]
  | manager o =>
    cases o with
    | create a => rw [h.2]
    | _ =>
      obtain ⟨server, -, rfl⟩ := h
      rfl
  | _ =>
    obtain ⟨server, -, rfl⟩ := h
    rfl

theorem run_uncounted {α : Type} {p : Handler α} {a : α}
    (h : p.Completes (startStep sha256 outside r) s a t)
    (hp : p.Always (fun _ _ => True) Uncounted) : t.ticks = s.ticks :=
  h.keeps (Q := fun u => u.ticks = s.ticks) hp
    (fun _ _ _ _ hop hs hu => (step_uncounted hop hs).trans hu) rfl

theorem created_answers {session : Session} {scenario : PlaygroundManifest.Scenario}
    {answer : Except Failure SessionView}
    (h : (provision env r.identity session scenario >>= fun _ => render session).Completes
      (startStep sha256 outside r) s answer t) :
    (∃ view, answer = .ok view) ∧ t.ticks = s.ticks := by
  obtain ⟨_, s₁, hprovision, h⟩ := Program.completes_bind h
  obtain ⟨now, s₂, hclock, h⟩ := Program.completes_request h
  obtain ⟨rfl, rfl⟩ := Program.completes_done h
  have hread : Uncounted .readClock := trivial
  refine ⟨⟨_, rfl⟩, (step_uncounted hread hclock).trans ?_⟩
  exact run_uncounted hprovision (provision_ops fun _ => trivial)

theorem create_ends {α : Type} {a : SessionManager.CreateArgs} {answer : α}
    {next : Except SessionError Session → Handler α}
    (h : (create env a >>= next).Completes (startStep sha256 outside r) s answer t) :
    ∃ made mid, (next made).Completes (startStep sha256 outside r) mid answer t ∧
      made = (s.server.manager.create sha256 r.createdAt a).1 ∧ mid.ticks = s.ticks := by
  obtain ⟨made, s₁, hmake, h⟩ := Program.completes_bind h
  obtain ⟨found, s₂, hlocked, hmake⟩ := Program.completes_bind hmake
  obtain ⟨_, s₃, ⟨hfound, rfl⟩, hlocked⟩ := Program.completes_request hlocked
  obtain ⟨rfl, rfl⟩ := Program.completes_done hlocked
  cases found with
  | error c =>
    obtain ⟨rfl, rfl⟩ := Program.completes_done hmake
    exact ⟨_, _, h, hfound, rfl⟩
  | ok session =>
    obtain ⟨_, s₃, hpersist, hmake⟩ := Program.completes_bind hmake
    obtain ⟨rfl, rfl⟩ := Program.completes_done hmake
    have hkept := run_uncounted hpersist persist_ops
    exact ⟨_, _, h, hfound, hkept⟩

theorem start_ends {answer : Except Failure SessionView}
    (h : (createSession env r.identity r.id r.body).Completes
      (startStep sha256 outside r) s answer t) : Ends env sha256 r s t answer := by
  rw [createSession] at h
  by_cases hinit : env.initialized = false
  · rw [if_pos hinit] at h
    obtain ⟨rfl, rfl⟩ := Program.completes_done h
    refine .turnedAway _ ?_ rfl
    rintro ⟨hready, -⟩
    exact absurd (hready.symm.trans hinit) (by decide)
  rw [if_neg hinit] at h
  cases hstartable : startable env r.body with
  | error e =>
    rw [hstartable] at h
    obtain ⟨rfl, rfl⟩ := Program.completes_done h
    refine .turnedAway _ ?_ rfl
    rintro ⟨-, scenario, hok⟩
    rw [hstartable] at hok
    cases hok
  | ok scenario =>
    rw [hstartable] at h
    have hgate : Passes env r := ⟨by simpa using hinit, scenario, hstartable⟩
    obtain ⟨charged, s₁, ⟨hcharge, rfl⟩, h⟩ := Program.completes_request h
    cases charged with
    | error q =>
      obtain ⟨_, s₂, rfl, h⟩ := Program.completes_request h
      obtain ⟨rfl, rfl⟩ := Program.completes_done h
      exact .overQuota _ hgate hcharge.symm rfl
    | ok n =>
      obtain ⟨_, s₂, rfl, h⟩ := Program.completes_request h
      obtain ⟨made, s₃, h, hcreate, hticks⟩ := create_ends h
      cases made with
      | error c =>
        obtain ⟨rfl, rfl⟩ := Program.completes_done h
        exact .notCreated _ hgate hcharge.symm hcreate.symm hticks
      | ok session =>
        obtain ⟨⟨view, rfl⟩, hafter⟩ := created_answers h
        exact .started view hgate hcharge.symm hcreate.symm (hafter.trans hticks)

section Histories

variable (env sha256 outside)

structure Entry where
  before : StartState
  request : StartRequest
  answer : Except Failure SessionView
  after : StartState

/-- The requests of a history in order; `other` is all that happens between them. -/
inductive History : StartState → List Entry → StartState → Prop where
  | nil (s : StartState) : History s [] s
  | request {s t u : StartState} {log : List Entry} {r : StartRequest}
    {answer : Except Failure SessionView} (h : History s log t)
    (hrun : (createSession env r.identity r.id r.body).Completes (startStep sha256 outside r)
      t answer u) : History s (log ++ [⟨t, r, answer, u⟩]) u
  | other {s t : StartState} {log : List Entry} (h : History s log t) (server : ServerState) :
    History s log { t with server := server }

def OverQuota (e : Entry) : Prop :=
  Passes env e.request ∧ ∃ q, charge e.request e.before = .error q

def NotCreated (e : Entry) : Prop :=
  Passes env e.request ∧ (∃ n, charge e.request e.before = .ok n) ∧
    ∃ c, creation sha256 e.request e.before = .error c

/-- The counter says ok once for every session that a request started, and denied once for every
request that the quota or the manager refused. -/
structure Accounts (s : StartState) (log : List Entry) (t : StartState) : Prop where
  started : ticked true t = ticked true s + log.countP fun e => e.answer.isOk
  refused : ∀ e ∈ log, OverQuota env e ∨ NotCreated env sha256 e →
    ticked false e.after = ticked false e.before + 1 ∧ ticked true e.after = ticked true e.before

/-- The manager would start the session: the scenario is known, the lifetime is allowed and the
user has no live session. -/
def Creatable (e : Entry) : Prop :=
  (∃ ttl, e.before.server.manager.checkRequest e.request.body.scenarioId
    (createArgs e.request.identity e.request.id e.request.body).ttlOverride = .ok ttl) ∧
  e.before.server.manager.liveHolder e.request.createdAt e.request.identity.userId = none

def Charged (e : Entry) : Prop :=
  Passes env e.request ∧ ∃ n, charge e.request e.before = .ok n

variable {env sha256 outside} {log : List Entry}

theorem ticked_append {ok flag : Bool} {scenarioId : String}
    (h : t.ticks = s.ticks ++ [(scenarioId, flag)]) :
    ticked ok t = ticked ok s + if flag = ok then 1 else 0 := by
  rw [ticked, h, List.countP_append, ticked]
  cases flag <;> cases ok <;> rfl

theorem ticked_same {ok : Bool} (h : t.ticks = s.ticks) : ticked ok t = ticked ok s := by
  rw [ticked, h, ticked]

theorem History.ends (h : History env sha256 outside s log t) :
    ∀ e ∈ log, Ends env sha256 e.request e.before e.after e.answer := by
  induction h with
  | nil => simp
  | request h hrun ih =>
    intro e he
    rcases List.mem_append.mp he with he | he
    · exact ih e he
    · rw [List.mem_singleton.mp he]
      exact start_ends hrun
  | other h server ih => exact ih

/-- Where the manager starts the sessions a request ticks ok exactly if it answers with one. -/
theorem Ends.counts {answer : Except Failure SessionView} (h : Ends env sha256 r s t answer)
    (hcreate : Passes env r → ∀ n, charge r s = .ok n → ∀ c, creation sha256 r s ≠ .error c) :
    ticked true t = ticked true s + if answer.isOk = true then 1 else 0 := by
  cases h with
  | turnedAway e hgate hticks => exact ticked_same hticks
  | overQuota e hgate hcharge hticks => exact ticked_append hticks
  | notCreated e hgate hcharge hfailed => exact absurd hfailed (hcreate hgate _ hcharge _)
  | started view hgate hcharge hmade hticks => exact ticked_append hticks

/-- Without a refusal by the manager the counter keeps pace with the sessions. -/
theorem History.started (h : History env sha256 outside s log t)
    (hcreate : ∀ e ∈ log, Passes env e.request → ∀ n, charge e.request e.before = .ok n →
      ∀ c, creation sha256 e.request e.before ≠ .error c) :
    ticked true t = ticked true s + log.countP fun e => e.answer.isOk := by
  induction h with
  | nil => simp
  | @request t u log r answer h hrun ih =>
    have hbefore := ih fun e he => hcreate e (List.mem_append_left _ he)
    have hlast := (start_ends hrun).counts
      (hcreate ⟨t, r, answer, u⟩ (List.mem_append_right _ (List.mem_singleton_self _)))
    rw [hlast, hbefore, List.countP_append, List.countP_singleton, Nat.add_assoc]
  | other h server ih => exact ih hcreate

theorem Creatable.created {e : Entry} (h : Creatable e) (c : SessionError) :
    creation sha256 e.request e.before ≠ .error c := by
  obtain ⟨⟨ttl, hcheck⟩, hfree⟩ := h
  intro hcreate
  have hargs : (createArgs e.request.identity e.request.id e.request.body).userId =
      e.request.identity.userId := rfl
  have hbody : (createArgs e.request.identity e.request.id e.request.body).scenarioId =
      e.request.body.scenarioId := rfl
  simp [creation, SessionManager.create, hargs, hbody, hcheck, hfree] at hcreate

theorem creatable_of_created {e : Entry} {session : Session}
    (h : creation sha256 e.request e.before = .ok session) : Creatable e := by
  rcases create_cases sha256 e.before.server.manager e.request.createdAt
    (createArgs e.request.identity e.request.id e.request.body) with
    ⟨c, hcreate⟩ | ⟨ttl, hcheck, hfree, -⟩
  · rw [creation, hcreate] at h
    cases h
  · exact ⟨⟨ttl, hcheck⟩, hfree⟩

/-- The counter is right in the histories in which the manager starts a session for every request
that the quota lets through. -/
theorem accounts_iff (h : History env sha256 outside s log t) :
    Accounts env sha256 s log t ↔ ∀ e ∈ log, Charged env e → Creatable e := by
  constructor
  · rintro haccounts ⟨before, request, answer, after⟩ he ⟨hgate, n, hcharge⟩
    have hends := h.ends _ he
    cases hends with
    | turnedAway f hturned => exact absurd hgate hturned
    | overQuota f hgate' hover =>
      rw [hcharge] at hover
      cases hover
    | notCreated f hgate' hcharge' hcreate hticks =>
      obtain ⟨hdenied, -⟩ := haccounts.refused _ he (.inr ⟨hgate, ⟨n, hcharge⟩, _, hcreate⟩)
      have hsame : ticked false after = ticked false before := ticked_append hticks
      have hone : ticked false after = ticked false before + 1 := hdenied
      omega
    | started view hgate' hcharge' hcreate hticks => exact creatable_of_created hcreate
  · intro hall
    have hcreated : ∀ e ∈ log, Passes env e.request → ∀ n, charge e.request e.before = .ok n →
        ∀ c, creation sha256 e.request e.before ≠ .error c :=
      fun e he hgate n hcharge => (hall e he ⟨hgate, n, hcharge⟩).created
    refine ⟨h.started hcreated, ?_⟩
    rintro ⟨before, request, answer, after⟩ he
      (⟨hgate, q, hover⟩ | ⟨hgate, ⟨n, hcharge⟩, c, hcreate⟩)
    · have hends := h.ends _ he
      cases hends with
      | turnedAway f hturned => exact absurd hgate hturned
      | overQuota f hgate' hover' hticks => exact ⟨ticked_append hticks, ticked_append hticks⟩
      | notCreated f hgate' hcharge | started view hgate' hcharge =>
        rw [hover] at hcharge
        cases hcharge
    · exact absurd hcreate (hcreated _ he hgate n hcharge c)

end Histories

def memoryOnly : ServerEnv := { configured with persistencePath := none }

def unreached : Outside := ⟨fun _ _ _ => False, fun _ => [], fun _ _ => false⟩

def fresh : StartState :=
  ⟨⟨.new oneScenario true defaultTtl, atSecond 0, none, none, []⟩, .withLimit 20, []⟩

def post (id : Uuid) : StartRequest :=
  ⟨⟨"u1", none, none, "unknown"⟩, ⟨"mongo-cdc", none⟩, id, 0, atSecond 0⟩

theorem first_post_accounts : ∃ e : Entry,
    e.request = post 1 ∧ e.answer.isOk = true ∧
      Accounts memoryOnly (fun _ => 0) fresh [e] e.after := by
  have hclock : atSecond 0 ≤ atSecond 0 := Clock.le_refl _
  have hstart : History memoryOnly (fun _ => 0) unreached fresh [] fresh := .nil fresh
  have hfirst := History.request (r := post 1) hstart (.step ⟨rfl, rfl⟩ (.step (r := ()) rfl
    (.step ⟨rfl, rfl⟩ (.step ⟨_, ⟨atSecond 0, hclock, rfl, rfl⟩, rfl⟩
      (.step ⟨_, ⟨hclock, rfl⟩, rfl⟩ (.done _ _))))))
  refine ⟨_, rfl, rfl, (accounts_iff hfirst).mpr ?_⟩
  intro e he hcharged
  rw [List.mem_singleton.mp he]
  exact ⟨⟨_, rfl⟩, rfl⟩

/-- The first POST starts a session; the second is refused because the session lives, and ticks ok
all the same. -/
theorem second_post_counted : ∃ log t,
    History memoryOnly (fun _ => 0) unreached fresh log t ∧
      log.map (fun e => (e.request, e.answer.isOk)) = [(post 1, true), (post 2, false)] ∧
      ticked true t = 2 ∧ ¬ Accounts memoryOnly (fun _ => 0) fresh log t := by
  have hclock : atSecond 0 ≤ atSecond 0 := Clock.le_refl _
  have hstart : History memoryOnly (fun _ => 0) unreached fresh [] fresh := .nil fresh
  have hfirst := History.request (r := post 1) hstart (.step ⟨rfl, rfl⟩ (.step (r := ()) rfl
    (.step ⟨rfl, rfl⟩ (.step ⟨_, ⟨atSecond 0, hclock, rfl, rfl⟩, rfl⟩
      (.step ⟨_, ⟨hclock, rfl⟩, rfl⟩ (.done _ _))))))
  have hsecond := History.request (r := post 2) hfirst (.step ⟨rfl, rfl⟩ (.step (r := ()) rfl
    (.step ⟨rfl, rfl⟩ (.done _ _))))
  refine ⟨_, _, hsecond, rfl, rfl, ?_⟩
  intro haccounts
  exact absurd haccounts.started (by decide)

end PlaygroundStartAccounting
