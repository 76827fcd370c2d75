import Mathlib.Algebra.Ring.Nat
import Playground.PlaygroundActions

/-! # Kafka batches

The `while` loop of `produce_kafka` as it stands in the source: a counter, a bound, and what each
request is answered. It runs on fuel; enough of it makes the loop the list of chunks that the
executor posts. -/
namespace PlaygroundKafkaBatches

open InteractionPrograms
open PlaygroundActions
open PlaygroundManifest (Value)
open PlaygroundOperations
open PlaygroundSessions
open PlaygroundTemplates

abbrev Events := List ((op : Op) × op.Result)

def isSuccess (reply : PostReply) : Bool := decide (200 ≤ reply.code ∧ reply.code < 300)

def unsentText (url e : String) : String := "pandaproxy POST " ++ url ++ ": " ++ e

def refusedText (topic : String) (produced : ℕ) (reply : PostReply) : String :=
  "pandaproxy returned " ++ reply.status ++ " for topic " ++ topic ++
    " (after " ++ toString produced ++ " produced): " ++ reply.body

def producedText (env : ServerEnv) (topic contentType : String) (produced : ℕ) : String :=
  "produced " ++ toString produced ++ " record(s) to " ++ topic ++ " via " ++
    (kafkaTarget env).host ++ ":" ++ (kafkaTarget env).port ++ " (" ++ contentType ++ ")"

section Loop

variable (url topic contentType : String) (template : Value) (total : ℕ)

/-- `while produced < repeat`; the result is `none` when the fuel runs out, else the final counter
and the last body. -/
def produceLoop : ℕ → ℕ → String → Handler (Option (Except String (ℕ × String)))
  | 0, produced, lastBody =>
    if produced < total then .done none else .done (some (.ok (produced, lastBody)))
  | fuel + 1, produced, lastBody =>
    if produced < total then do
      let n := min chunk (total - produced)
      match ← call (.post url contentType n template) with
      | .error e => .done (some (.error (unsentText url e)))
      | .ok reply =>
        if isSuccess reply then produceLoop fuel (produced + n) reply.body
        else .done (some (.error (refusedText topic produced reply)))
    else .done (some (.ok (produced, lastBody)))

def produceRecords (env : ServerEnv) (fuel : ℕ) (payloadFile : String) (bytes : List UInt8) :
    Handler (Option (Except String (String × String))) := do
  let target := kafkaTarget env
  let record := kafkaRecord env payloadFile bytes
  match ← produceLoop ("http://" ++ target.host ++ ":" ++ target.port ++ "/topics/" ++ topic)
      topic record.1 record.2 total fuel 0 "" with
  | none => .done none
  | some (.error e) => .done (some (.error e))
  | some (.ok (produced, lastBody)) =>
    .done (some (.ok (producedText env topic record.1 produced, lastBody)))

end Loop

-- The loop is the list of chunks of the executor.
section Chunks

variable {url topic contentType : String} {template : Value} {total : ℕ}

theorem chunk_pos : 0 < chunk := by decide

theorem chunks_zero : chunks 0 = [] := rfl

theorem chunks_step {n : ℕ} (hn : 0 < n) :
    chunks n = min chunk n :: chunks (n - min chunk n) := by
  have hpos := chunk_pos
  unfold chunks
  by_cases hfull : chunk ≤ n
  · have hdiv : n / chunk = (n - chunk) / chunk + 1 := Nat.div_eq_sub_div hpos hfull
    have hmod : n % chunk = (n - chunk) % chunk := Nat.mod_eq_sub_mod hfull
    rw [Nat.min_eq_left hfull, hdiv, hmod, List.replicate_succ, List.cons_append]
  · have hdiv : n / chunk = 0 := Nat.div_eq_of_lt (by omega)
    have hmod : n % chunk = n := Nat.mod_eq_of_lt (by omega)
    have hne : n ≠ 0 := by omega
    rw [Nat.min_eq_right (by omega), hdiv, hmod, if_neg hne, Nat.sub_self]
    simp [Nat.zero_mod]

theorem produceLoop_chunks {fuel produced : ℕ} {lastBody : String} (hle : produced ≤ total)
    (hfuel : total ≤ produced + fuel * chunk) :
    produceLoop url topic contentType template total fuel produced lastBody =
      postChunks url topic contentType template (chunks (total - produced)) produced lastBody >>=
        fun r => .done (some (r.map fun body => (total, body))) := by
  induction fuel generalizing produced lastBody with
  | zero =>
    have hdone : produced = total := by omega
    rw [hdone, Nat.sub_self, chunks_zero, produceLoop, if_neg (Nat.lt_irrefl _)]
    rfl
  | succ fuel ih =>
    by_cases hlt : produced < total
    · rw [produceLoop, if_pos hlt, chunks_step (by omega)]
      rw [Nat.add_mul] at hfuel
      refine congrArg (Program.request _) (funext fun outcome => ?_)
      cases outcome with
      | error e => rfl
      | ok reply =>
        by_cases hcode : 200 ≤ reply.code ∧ reply.code < 300
        · have hsuccess : isSuccess reply = true := decide_eq_true hcode
          have hrest : total - produced - min chunk (total - produced) =
              total - (produced + min chunk (total - produced)) := by omega
          simp only [Program.done_bind_eq, hsuccess, if_true, if_pos hcode, hrest]
          apply ih
          · omega
          · have hpos := chunk_pos
            omega
        · have hrefused : isSuccess reply = false := decide_eq_false hcode
          simp only [Program.done_bind_eq, hrefused, Bool.false_eq_true, if_false, if_neg hcode]
          rfl
    · have hdone : produced = total := by omega
      rw [hdone, Nat.sub_self, chunks_zero, produceLoop, if_neg (Nat.lt_irrefl _)]
      rfl

/-- With enough fuel the loop is what the executor does. -/
theorem produceRecords_payload {env : ServerEnv} {fuel : ℕ} {payloadFile : String}
    {bytes : List UInt8} (hfuel : total ≤ fuel * chunk) :
    produceRecords topic total env fuel payloadFile bytes =
      producePayload env payloadFile total topic bytes >>= fun r => .done (some r) := by
  rw [produceRecords, producePayload, produceLoop_chunks (Nat.zero_le total) (by omega)]
  rw [Program.bind_bind, Program.bind_bind, Nat.sub_zero]
  refine congrArg _ (funext fun outcome => ?_)
  cases outcome with
  | error e => rfl
  | ok body => rfl

end Chunks

def batches (events : Events) : List (ℕ × Except String PostReply) :=
  events.filterMap fun
    | ⟨.external (.post _ _ n _), outcome⟩ => some (n, outcome)
    | _ => none

def acknowledged : Except String PostReply → Bool
  | .ok reply => isSuccess reply
  | .error _ => false

/-- The records of the acknowledged requests. -/
def sent (requests : List (ℕ × Except String PostReply)) : ℕ :=
  ((requests.filter fun b => acknowledged b.2).map Prod.fst).sum

theorem sent_cons {n : ℕ} {reply : PostReply} {rest : List (ℕ × Except String PostReply)}
    (hreply : isSuccess reply = true) : sent ((n, .ok reply) :: rest) = n + sent rest := by
  have hkept : acknowledged (.ok reply) = true := hreply
  simp [sent, hkept]

section Runs

variable (url topic : String) (total : ℕ)

/-- What the loop may do from a counter: its requests with their outcomes, and its result. -/
inductive BatchRun :
    ℕ → List (ℕ × Except String PostReply) → Except String (ℕ × String) → Prop where
  | finished {produced : ℕ} (body : String) (h : total ≤ produced) :
    BatchRun produced [] (.ok (produced, body))
  | unsent {produced : ℕ} (e : String) (h : produced < total) :
    BatchRun produced [(min chunk (total - produced), .error e)] (.error (unsentText url e))
  | refused {produced : ℕ} (reply : PostReply) (h : produced < total)
    (hreply : isSuccess reply = false) :
    BatchRun produced [(min chunk (total - produced), .ok reply)]
      (.error (refusedText topic produced reply))
  | accepted {produced : ℕ} {reply : PostReply}
    {rest : List (ℕ × Except String PostReply)} {result : Except String (ℕ × String)}
    (h : produced < total) (hreply : isSuccess reply = true)
    (hrest : BatchRun (produced + min chunk (total - produced)) rest result) :
    BatchRun produced ((min chunk (total - produced), .ok reply) :: rest) result

variable {url topic total} {produced : ℕ} {requests : List (ℕ × Except String PostReply)}
  {result : Except String (ℕ × String)}

theorem batchRun_of_trace {contentType lastBody : String} {template : Value} {fuel : ℕ}
    {events : Events} {outcome : Option (Except String (ℕ × String))} (hle : produced ≤ total)
    (hfuel : total ≤ produced + fuel * chunk)
    (h : (produceLoop url topic contentType template total fuel produced lastBody).Trace
      events outcome) :
    ∃ r, outcome = some r ∧ BatchRun url topic total produced (batches events) r := by
  induction fuel generalizing produced lastBody events with
  | zero =>
    rw [produceLoop, if_neg (by omega)] at h
    obtain ⟨rfl, rfl⟩ := Program.trace_done h
    exact ⟨_, rfl, .finished lastBody (by omega)⟩
  | succ fuel ih =>
    by_cases hlt : produced < total
    · rw [produceLoop, if_pos hlt] at h
      obtain ⟨reply, rest, rfl, hnext⟩ := Program.trace_request h
      rw [Program.done_bind_eq] at hnext
      cases reply with
      | error e =>
        obtain ⟨rfl, rfl⟩ := Program.trace_done hnext
        exact ⟨_, rfl, .unsent e hlt⟩
      | ok reply =>
        cases hreply : isSuccess reply with
        | false =>
          simp only [hreply, Bool.false_eq_true, if_false] at hnext
          obtain ⟨rfl, rfl⟩ := Program.trace_done hnext
          exact ⟨_, rfl, .refused reply hlt hreply⟩
        | true =>
          simp only [hreply, if_true] at hnext
          rw [Nat.add_mul] at hfuel
          have hpos := chunk_pos
          obtain ⟨r, hr, hrun⟩ := ih (by omega) (by omega) hnext
          exact ⟨r, hr, .accepted hlt hreply hrun⟩
    · rw [produceLoop, if_neg hlt] at h
      obtain ⟨rfl, rfl⟩ := Program.trace_done h
      exact ⟨_, rfl, .finished lastBody (by omega)⟩

theorem BatchRun.sizes (h : BatchRun url topic total produced requests result) :
    ∀ b ∈ requests, 1 ≤ b.1 ∧ b.1 ≤ chunk := by
  have hpos := chunk_pos
  induction h with
  | finished => simp
  | unsent e h | refused reply h =>
    intro b hb
    rw [List.mem_singleton.mp hb]
    omega
  | accepted h hreply hrest ih =>
    intro b hb
    rcases List.mem_cons.mp hb with rfl | hb
    · omega
    · exact ih b hb

/-- Where every request is acknowledged the counter reaches the total. -/
theorem BatchRun.complete (h : BatchRun url topic total produced requests result)
    (hle : produced ≤ total) (hall : ∀ b ∈ requests, acknowledged b.2 = true) :
    produced + (requests.map Prod.fst).sum = total ∧ ∃ body, result = .ok (total, body) := by
  induction h with
  | @finished produced body h =>
    have hdone : produced = total := by omega
    exact ⟨by simpa using hdone, body, by rw [hdone]⟩
  | unsent e h => exact absurd (hall _ List.mem_cons_self) Bool.false_ne_true
  | refused reply h hreply =>
    have hack : isSuccess reply = true := hall _ List.mem_cons_self
    rw [hreply] at hack
    exact absurd hack Bool.false_ne_true
  | accepted h hreply hrest ih =>
    obtain ⟨hsum, hresult⟩ := ih (by omega) fun b hb => hall b (List.mem_cons_of_mem _ hb)
    refine ⟨?_, hresult⟩
    rw [List.map_cons, List.sum_cons]
    omega

theorem singleton_split {α : Type} {x b : α} {before after : List α}
    (h : [x] = before ++ b :: after) : before = [] ∧ b = x ∧ after = [] := by
  rcases List.singleton_eq_append_iff.mp h with ⟨hbefore, hrest⟩ | ⟨-, hrest⟩
  · rw [List.cons.injEq] at hrest
    exact ⟨hbefore, hrest.1, hrest.2⟩
  · cases hrest

/-- A request that is not acknowledged is the last one; only an answer makes the error say how much
was sent before. -/
theorem BatchRun.stops (h : BatchRun url topic total produced requests result)
    {before after : List (ℕ × Except String PostReply)} {b : ℕ × Except String PostReply}
    (hsplit : requests = before ++ b :: after) (hb : acknowledged b.2 = false) :
    after = [] ∧
      ((∃ reply, b.2 = .ok reply ∧
          result = .error (refusedText topic (produced + sent before) reply)) ∨
        ∃ e, b.2 = .error e ∧ result = .error (unsentText url e)) := by
  induction h generalizing before with
  | finished => simp at hsplit
  | unsent e h =>
    obtain ⟨rfl, rfl, rfl⟩ := singleton_split hsplit
    exact ⟨rfl, .inr ⟨e, rfl, rfl⟩⟩
  | refused reply h hreply =>
    obtain ⟨rfl, rfl, rfl⟩ := singleton_split hsplit
    exact ⟨rfl, .inl ⟨reply, rfl, rfl⟩⟩
  | accepted h hreply hrest ih =>
    cases before with
    | nil =>
      rw [List.nil_append, List.cons.injEq] at hsplit
      rw [← hsplit.1] at hb
      exact absurd (hreply.symm.trans hb) Bool.noConfusion
    | cons first before =>
      rw [List.cons_append, List.cons.injEq] at hsplit
      obtain ⟨rfl, hsplit⟩ := hsplit
      obtain ⟨hafter, hresult⟩ := ih hsplit
      refine ⟨hafter, hresult.imp_left ?_⟩
      rintro ⟨last, hlast, heq⟩
      refine ⟨last, hlast, ?_⟩
      rw [heq, sent_cons hreply, Nat.add_assoc]

end Runs

section Produce

variable {env : ServerEnv} {topic payloadFile : String} {bytes : List UInt8}
  {repeatCount fuel : ℕ} {events : Events} {outcome : Option (Except String (String × String))}

/-- The loop ends, its requests are of a size that the proxy takes, and the count in what it returns
is the number of records it knows to be sent. -/
structure AddsUp (env : ServerEnv) (topic : String) (repeatCount : ℕ) (events : Events)
    (outcome : Option (Except String (String × String))) : Prop where
  terminates : outcome ≠ none
  sizes : ∀ b ∈ batches events, 1 ≤ b.1 ∧ b.1 ≤ 500
  complete : (∀ b ∈ batches events, acknowledged b.2 = true) →
    ((batches events).map Prod.fst).sum = min repeatCount 100000 ∧
      ∃ contentType body, outcome =
        some (.ok (producedText env topic contentType (min repeatCount 100000), body))
  stops : ∀ before b after, batches events = before ++ b :: after → acknowledged b.2 = false →
    after = [] ∧ ∃ reply, outcome = some (.error (refusedText topic (sent before) reply))

theorem produceRecords_run (hfuel : 200 ≤ fuel)
    (h : (produceRecords topic (min repeatCount 100000) env fuel payloadFile bytes).Trace
      events outcome) :
    ∃ url contentType r, BatchRun url topic (min repeatCount 100000) 0 (batches events) r ∧
      outcome = some (r.map fun done => (producedText env topic contentType done.1, done.2)) := by
  rw [produceRecords] at h
  obtain ⟨first, looped, rest, rfl, hloop, hrest⟩ := Program.trace_bind h
  have hturns : 200 * chunk ≤ fuel * chunk := Nat.mul_le_mul_right _ hfuel
  have hcap : 200 * chunk = 100000 := rfl
  obtain ⟨r, rfl, hrun⟩ := batchRun_of_trace (Nat.zero_le _) (by omega) hloop
  cases r with
  | error e =>
    obtain ⟨rfl, rfl⟩ := Program.trace_done hrest
    rw [List.append_nil]
    exact ⟨_, "", _, hrun, rfl⟩
  | ok done =>
    obtain ⟨rfl, rfl⟩ := Program.trace_done hrest
    rw [List.append_nil]
    exact ⟨_, _, _, hrun, rfl⟩

theorem append_ne_of_take {a b : String} (k : ℕ) (ha : k ≤ a.toList.length)
    (hb : k ≤ b.toList.length) (hne : a.toList.take k ≠ b.toList.take k) (x y : String) :
    a ++ x ≠ b ++ y := by
  intro h
  have htake := congrArg (fun s : String => s.toList.take k) h
  simp only [String.toList_append] at htake
  rw [List.take_append_of_le_length ha, List.take_append_of_le_length hb] at htake
  exact hne htake

theorem unsentText_ne (url e topic : String) (count : ℕ) (reply : PostReply) :
    unsentText url e ≠ refusedText topic count reply := by
  have hne : "pandaproxy POST ".toList.take 12 ≠ "pandaproxy returned ".toList.take 12 := by simp
  have hstart := append_ne_of_take 12 (by decide) (by decide) hne
  unfold unsentText refusedText
  simp only [String.append_assoc]
  exact hstart _ _

/-- The batches add up unless a request gets no answer. -/
theorem batches_add_up_iff (hfuel : 200 ≤ fuel)
    (h : (produceRecords topic (min repeatCount 100000) env fuel payloadFile bytes).Trace
      events outcome) :
    AddsUp env topic repeatCount events outcome ↔ ∀ b ∈ batches events, b.2.isOk = true := by
  obtain ⟨url, contentType, r, hrun, houtcome⟩ := produceRecords_run hfuel h
  constructor
  · intro hadds b hb
    cases hok : b.2 with
    | ok reply => rfl
    | error e =>
      have hfailed : acknowledged b.2 = false := by rw [hok]; rfl
      obtain ⟨before, after, hsplit⟩ := List.append_of_mem hb
      obtain ⟨-, reply, hreported⟩ := hadds.stops before b after hsplit hfailed
      obtain ⟨-, ⟨last, hlast, -⟩ | ⟨e', he, hr⟩⟩ := hrun.stops hsplit hfailed
      · rw [hok] at hlast
        cases hlast
      · rw [houtcome, hr] at hreported
        exact absurd (Except.error.inj (Option.some.inj hreported)) (unsentText_ne _ _ _ _ _)
  · intro hanswered
    refine ⟨?_, hrun.sizes, ?_, ?_⟩
    · rw [houtcome]
      exact Option.some_ne_none _
    · intro hall
      obtain ⟨hsum, body, hr⟩ := hrun.complete (Nat.zero_le _) hall
      rw [Nat.zero_add] at hsum
      exact ⟨hsum, contentType, body, by rw [houtcome, hr]; rfl⟩
    · intro before b after hsplit hfailed
      obtain ⟨hafter, ⟨reply, -, hr⟩ | ⟨e, he, -⟩⟩ := hrun.stops hsplit hfailed
      · rw [Nat.zero_add] at hr
        exact ⟨hafter, reply, by rw [houtcome, hr]; rfl⟩
      · have hmem : b ∈ batches events := by simp [hsplit]
        have hok := hanswered b hmem
        rw [he] at hok
        cases hok

def orders : String × Value := kafkaRecord configured "order.raw" []

def topicUrl : String :=
  "http://" ++ (kafkaTarget configured).host ++ ":" ++ (kafkaTarget configured).port ++
    "/topics/" ++ "events"

def oneBatch : Events :=
  [⟨.external (.post topicUrl orders.1 3 orders.2), .ok ⟨200, "200 OK", "offsets"⟩⟩]

theorem three_records_add_up :
    AddsUp configured "events" 3 oneBatch
      (some (.ok (producedText configured "events" orders.1 3, "offsets"))) :=
  have hrun : (produceRecords "events" (min 3 100000) configured 200 "order.raw" []).Trace oneBatch
      (some (.ok (producedText configured "events" orders.1 3, "offsets"))) := .step (.done _)
  (batches_add_up_iff (le_refl 200) hrun).mpr
    (by simp [oneBatch, batches, Except.isOk, Except.toBool])

/-- The second of two batches: the first was acknowledged, this one timed out. -/
def lostBatch : Events :=
  [⟨.external (.post topicUrl orders.1 500 orders.2), .ok ⟨200, "200 OK", "offsets"⟩⟩,
    ⟨.external (.post topicUrl orders.1 500 orders.2), .error "operation timed out"⟩]

theorem lost_batch_uncounted :
    (produceRecords "events" (min 1000 100000) configured 200 "order.raw" []).Trace lostBatch
        (some (.error (unsentText topicUrl "operation timed out"))) ∧
      sent (batches lostBatch) = 500 ∧
      ¬ AddsUp configured "events" 1000 lostBatch
        (some (.error (unsentText topicUrl "operation timed out"))) := by
  refine ⟨.step (.step (.done _)), rfl, ?_⟩
  intro hadds
  obtain ⟨-, reply, hreported⟩ := hadds.stops [_] _ [] rfl rfl
  exact absurd (Except.error.inj (Option.some.inj hreported)) (unsentText_ne _ _ _ _ _)

end Produce

end PlaygroundKafkaBatches
