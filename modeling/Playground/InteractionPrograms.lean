import Mathlib.Logic.Function.Basic

/-! # Interaction programs and pools

A program is a finite tree of atomic operations; each operation continues on its result.
A pool runs any number of programs over one shared state, one operation at a time and in
any order. A guard restricts the steps of a pool without changing what a step does. -/
namespace InteractionPrograms

inductive Program (Op : Type) (Res : Op → Type) (α : Type) where
  | done (a : α)
  | request (op : Op) (next : Res op → Program Op Res α)

variable {Op : Type} {Res : Op → Type} {α β γ : Type}

namespace Program

protected def bind (p : Program Op Res α) (f : α → Program Op Res β) : Program Op Res β :=
  match p with
  | .done a => f a
  | .request op next => .request op fun r => (next r).bind f

instance : Monad (Program Op Res) where
  pure := .done
  bind := Program.bind

def perform (op : Op) : Program Op Res (Res op) := .request op .done

@[simp] theorem done_bind (a : α) (f : α → Program Op Res β) : (.done a >>= f) = f a := rfl

@[simp] theorem done_bind_eq (a : α) (f : α → Program Op Res β) :
    (Program.done a).bind f = f a := rfl

@[simp] theorem request_bind (op : Op) (next : Res op → Program Op Res α)
    (f : α → Program Op Res β) :
    (.request op next >>= f) = .request op fun r => next r >>= f := rfl

@[simp] theorem perform_bind (op : Op) (f : Res op → Program Op Res β) :
    (perform op >>= f) = .request op f := rfl

theorem bind_done (p : Program Op Res α) : (p >>= .done) = p := by
  induction p with
  | done a => rfl
  | request op next ih => simp only [request_bind, ih]

theorem bind_bind (p : Program Op Res α) (f : α → Program Op Res β)
    (g : β → Program Op Res γ) : (p >>= f) >>= g = p >>= fun a => f a >>= g := by
  induction p with
  | done a => rfl
  | request op next ih => simp only [request_bind, ih]

instance : LawfulMonad (Program Op Res) :=
  LawfulMonad.mk' _ bind_done (fun _ _ => rfl) bind_bind

def forEach (xs : List β) (body : β → Program Op Res Unit) : Program Op Res Unit :=
  match xs with
  | [] => .done ()
  | x :: rest => body x >>= fun _ => forEach rest body

def when (c : Bool) (p : Program Op Res Unit) : Program Op Res Unit :=
  if c then p else .done ()

@[simp] theorem forEach_cons (x : β) (xs : List β) (body : β → Program Op Res Unit) :
    forEach (x :: xs) body = body x >>= fun _ => forEach xs body := rfl

@[simp] theorem when_true (p : Program Op Res Unit) : when true p = p := rfl

section Predicates

-- `ok op r` says that `r` is a result operation `op` may have.
variable (ok : (op : Op) → Res op → Prop) (P : Op → Prop)

/-- Every operation of every execution satisfies `P`. -/
def Always : Program Op Res α → Prop
  | .done _ => True
  | .request op next => P op ∧ ∀ r, ok op r → (next r).Always

/-- Every complete execution performs an operation that satisfies `P`. -/
def Eventually : Program Op Res α → Prop
  | .done _ => False
  | .request op next => P op ∨ ∀ r, ok op r → (next r).Eventually

def Returns : Program Op Res α → α → Prop
  | .done a, b => a = b
  | .request op next, b => ∃ r, ok op r ∧ (next r).Returns b

@[simp] theorem always_done (a : α) : (.done a : Program Op Res α).Always ok P := trivial

@[simp] theorem always_request (op : Op) (next : Res op → Program Op Res α) :
    (request op next).Always ok P ↔ P op ∧ ∀ r, ok op r → (next r).Always ok P := Iff.rfl

@[simp] theorem returns_done (a b : α) :
    (.done a : Program Op Res α).Returns ok b ↔ a = b := Iff.rfl

@[simp] theorem returns_request (op : Op) (next : Res op → Program Op Res α) (b : α) :
    (request op next).Returns ok b ↔ ∃ r, ok op r ∧ (next r).Returns ok b := Iff.rfl

variable {ok P}

theorem always_bind {p : Program Op Res α} {f : α → Program Op Res β} :
    (p >>= f).Always ok P ↔ p.Always ok P ∧ ∀ a, p.Returns ok a → (f a).Always ok P := by
  induction p with
  | done a => simp
  | request op next ih =>
    simp only [request_bind, always_request, returns_request, ih]
    constructor
    · rintro ⟨hop, hnext⟩
      refine ⟨⟨hop, fun r hr => (hnext r hr).1⟩, ?_⟩
      rintro a ⟨r, hr, ha⟩
      exact (hnext r hr).2 a ha
    · rintro ⟨⟨hop, hnext⟩, hf⟩
      exact ⟨hop, fun r hr => ⟨hnext r hr, fun a ha => hf a ⟨r, hr, ha⟩⟩⟩

theorem Always.bind {p : Program Op Res α} {f : α → Program Op Res β}
    (hp : p.Always ok P) (hf : ∀ a, (f a).Always ok P) : (p >>= f).Always ok P :=
  always_bind.mpr ⟨hp, fun a _ => hf a⟩

theorem Always.mono {Q : Op → Prop} {p : Program Op Res α} (hp : p.Always ok P)
    (h : ∀ op, P op → Q op) : p.Always ok Q := by
  induction p with
  | done a => trivial
  | request op next ih => exact ⟨h op hp.1, fun r hr => ih r (hp.2 r hr)⟩

theorem Always.and {Q : Op → Prop} {p : Program Op Res α} (hp : p.Always ok P)
    (hq : p.Always ok Q) : p.Always ok fun op => P op ∧ Q op := by
  induction p with
  | done a => trivial
  | request op next ih =>
    exact ⟨⟨hp.1, hq.1⟩, fun r hr => ih r (hp.2 r hr) (hq.2 r hr)⟩

theorem returns_bind {p : Program Op Res α} {f : α → Program Op Res β} {b : β} :
    (p >>= f).Returns ok b ↔ ∃ a, p.Returns ok a ∧ (f a).Returns ok b := by
  induction p with
  | done a => simp
  | request op next ih =>
    simp only [request_bind, returns_request, ih]
    constructor
    · rintro ⟨r, hr, a, ha, hb⟩
      exact ⟨a, ⟨r, hr, ha⟩, hb⟩
    · rintro ⟨a, ⟨r, hr, ha⟩, hb⟩
      exact ⟨r, hr, a, ha, hb⟩

theorem Eventually.weaken {ok' : (op : Op) → Res op → Prop} {p : Program Op Res α}
    (hp : p.Eventually ok P) (h : ∀ op r, ok' op r → ok op r) : p.Eventually ok' P := by
  induction p with
  | done a => exact hp.elim
  | request op next ih => exact hp.imp_right fun hnext r hr => ih r (hnext r (h op r hr))

theorem Eventually.bind_left {p : Program Op Res α} {f : α → Program Op Res β}
    (hp : p.Eventually ok P) : (p >>= f).Eventually ok P := by
  induction p with
  | done a => exact hp.elim
  | request op next ih =>
    rcases hp with hop | hnext
    · exact Or.inl hop
    · exact Or.inr fun r hr => ih r (hnext r hr)

theorem Eventually.bind_right {p : Program Op Res α} {f : α → Program Op Res β}
    (hf : ∀ a, p.Returns ok a → (f a).Eventually ok P) : (p >>= f).Eventually ok P := by
  induction p with
  | done a => exact hf a rfl
  | request op next ih =>
    exact Or.inr fun r hr => ih r fun a ha => hf a ⟨r, hr, ha⟩

theorem always_forEach {xs : List β} {body : β → Program Op Res Unit}
    (h : ∀ x ∈ xs, (body x).Always ok P) : (forEach xs body).Always ok P := by
  induction xs with
  | nil => trivial
  | cons x rest ih =>
    exact Always.bind (h x (by simp)) fun _ => ih fun y hy => h y (by simp [hy])

theorem eventually_forEach {xs : List β} {body : β → Program Op Res Unit} {x : β}
    (hx : x ∈ xs) (h : (body x).Eventually ok P) : (forEach xs body).Eventually ok P := by
  induction xs with
  | nil => simp at hx
  | cons y rest ih =>
    rcases List.mem_cons.mp hx with rfl | hx
    · exact h.bind_left
    · exact Eventually.bind_right fun _ _ => ih hx

theorem always_when {c : Bool} {p : Program Op Res Unit} (h : c = true → p.Always ok P) :
    (when c p).Always ok P := by
  cases c with
  | false => trivial
  | true => exact h rfl

/-- Every execution performs exactly these operations, whatever their results. -/
def Performs (ok : (op : Op) → Res op → Prop) : Program Op Res α → List Op → Prop
  | .done _, ops => ops = []
  | .request op next, ops => ∃ rest, ops = op :: rest ∧ ∀ r, ok op r → (next r).Performs ok rest

@[simp] theorem performs_done (a : α) (ops : List Op) :
    (.done a : Program Op Res α).Performs ok ops ↔ ops = [] := Iff.rfl

theorem performs_perform (op : Op) : (perform op : Program Op Res (Res op)).Performs ok [op] :=
  ⟨[], rfl, fun _ _ => rfl⟩

theorem Performs.bind {p : Program Op Res α} {f : α → Program Op Res β} {as bs : List Op}
    (hp : p.Performs ok as) (hf : ∀ a, p.Returns ok a → (f a).Performs ok bs) :
    (p >>= f).Performs ok (as ++ bs) := by
  induction p generalizing as with
  | done a =>
    simp only [performs_done] at hp
    subst hp
    exact hf a rfl
  | request op next ih =>
    obtain ⟨rest, rfl, hnext⟩ := hp
    refine ⟨rest ++ bs, rfl, ?_⟩
    intro r hr
    exact ih r (hnext r hr) fun a ha => hf a ⟨r, hr, ha⟩

theorem performs_forEach {xs : List β} {body : β → Program Op Res Unit} {ops : β → List Op}
    (h : ∀ x ∈ xs, (body x).Performs ok (ops x)) :
    (forEach xs body).Performs ok (xs.flatMap ops) := by
  induction xs with
  | nil => rfl
  | cons x rest ih =>
    rw [forEach_cons, List.flatMap_cons]
    exact (h x List.mem_cons_self).bind fun _ _ =>
      ih fun y hy => h y (List.mem_cons_of_mem _ hy)

theorem performs_when {c : Bool} {p : Program Op Res Unit} {ops : List Op}
    (h : c = true → p.Performs ok ops) : (when c p).Performs ok (if c then ops else []) := by
  cases c with
  | false => rfl
  | true => exact h rfl

theorem Performs.first {p : Program Op Res α} {op : Op} {rest : List Op}
    (hp : p.Performs ok (op :: rest)) : ∃ next, p = .request op next := by
  cases p with
  | done a => cases hp
  | request op' next =>
    obtain ⟨_, heq, _⟩ := hp
    cases heq
    exact ⟨next, rfl⟩

theorem Performs.always {p : Program Op Res α} {ops : List Op} (hp : p.Performs ok ops)
    (h : ∀ op ∈ ops, P op) : p.Always ok P := by
  induction p generalizing ops with
  | done a => trivial
  | request op next ih =>
    obtain ⟨rest, rfl, hnext⟩ := hp
    refine ⟨h op List.mem_cons_self, fun r hr => ih r (hnext r hr) fun x hx => ?_⟩
    exact h x (List.mem_cons_of_mem _ hx)

theorem Performs.eventually {p : Program Op Res α} {ops : List Op} (hp : p.Performs ok ops)
    {op : Op} (hop : op ∈ ops) (h : P op) : p.Eventually ok P := by
  induction p generalizing ops with
  | done a =>
    simp only [performs_done] at hp
    subst hp
    cases hop
  | request x next ih =>
    obtain ⟨rest, rfl, hnext⟩ := hp
    rcases List.mem_cons.mp hop with rfl | hop
    · exact Or.inl h
    · exact Or.inr fun r hr => ih r (hnext r hr) hop

theorem Performs.always_iff (total : ∀ op, ∃ r, ok op r) {p : Program Op Res α}
    {ops : List Op} (hp : p.Performs ok ops) : p.Always ok P ↔ ∀ op ∈ ops, P op := by
  refine ⟨fun h => ?_, hp.always⟩
  induction p generalizing ops with
  | done a =>
    simp only [performs_done] at hp
    subst hp
    simp
  | request op next ih =>
    obtain ⟨rest, rfl, hnext⟩ := hp
    obtain ⟨r, hr⟩ := total op
    intro x hx
    rcases List.mem_cons.mp hx with rfl | hx
    · exact h.1
    · exact ih r (hnext r hr) (h.2 r hr) x hx

section Precedence

variable (ok P) (Q : Op → Prop)

/-- Every complete execution performs an operation that satisfies `P`, and none that satisfies `Q`
before it. -/
def Precedes : Program Op Res α → Prop
  | .done _ => False
  | .request op next => P op ∨ (¬ Q op ∧ ∀ r, ok op r → (next r).Precedes)

variable {ok P Q}

theorem Precedes.eventually {p : Program Op Res α} (h : p.Precedes ok P Q) :
    p.Eventually ok P := by
  induction p with
  | done a => exact h.elim
  | request op next ih => exact h.imp_right fun hnext r hr => ih r (hnext.2 r hr)

theorem Precedes.bind_left {p : Program Op Res α} {f : α → Program Op Res β}
    (h : p.Precedes ok P Q) : (p >>= f).Precedes ok P Q := by
  induction p with
  | done a => exact h.elim
  | request op next ih =>
    exact h.imp_right fun hnext => ⟨hnext.1, fun r hr => ih r (hnext.2 r hr)⟩

theorem Precedes.bind_right {p : Program Op Res α} {f : α → Program Op Res β}
    (hp : p.Always ok fun op => ¬ Q op) (hf : ∀ a, p.Returns ok a → (f a).Precedes ok P Q) :
    (p >>= f).Precedes ok P Q := by
  induction p with
  | done a => exact hf a rfl
  | request op next ih =>
    refine Or.inr ⟨hp.1, fun r hr => ?_⟩
    exact ih r (hp.2 r hr) fun a ha => hf a ⟨r, hr, ha⟩

theorem Always.not_eventually (total : ∀ op, ∃ r, ok op r) {p : Program Op Res α}
    (h : p.Always ok fun op => ¬ P op) : ¬ p.Eventually ok P := by
  induction p with
  | done a => exact id
  | request op next ih =>
    rintro (hop | hnext)
    · exact h.1 hop
    · obtain ⟨r, hr⟩ := total op
      exact ih r (h.2 r hr) (hnext r hr)

end Precedence

section Triggers

variable (ok P) (trigger : (op : Op) → Res op → Prop)

def LeadsTo : Program Op Res α → Prop
  | .done _ => True
  | .request op next =>
    ∀ r, ok op r → (trigger op r → (next r).Eventually ok P) ∧ (next r).LeadsTo

def Starts : Program Op Res α → Prop
  | .done _ => False
  | .request op _ => P op

/-- An operation that satisfies `P` comes directly after a triggering result. -/
def OnlyAfter : Program Op Res α → Prop
  | .done _ => True
  | .request op next => ∀ r, ok op r → ((next r).Starts P → trigger op r) ∧ (next r).OnlyAfter

variable {ok P trigger}

theorem LeadsTo.of_always {p : Program Op Res α}
    (h : p.Always ok fun op => ∀ r, ¬ trigger op r) : p.LeadsTo ok P trigger := by
  induction p with
  | done a => trivial
  | request op next ih => exact fun r hr => ⟨fun ht => absurd ht (h.1 r), ih r (h.2 r hr)⟩

theorem LeadsTo.bind {p : Program Op Res α} {f : α → Program Op Res β}
    (hp : p.LeadsTo ok P trigger) (hf : ∀ a, (f a).LeadsTo ok P trigger) :
    (p >>= f).LeadsTo ok P trigger := by
  induction p with
  | done a => exact hf a
  | request op next ih =>
    exact fun r hr => ⟨fun ht => ((hp r hr).1 ht).bind_left, ih r (hp r hr).2⟩

theorem leadsTo_forEach {xs : List β} {body : β → Program Op Res Unit}
    (h : ∀ x ∈ xs, (body x).LeadsTo ok P trigger) : (forEach xs body).LeadsTo ok P trigger := by
  induction xs with
  | nil => trivial
  | cons x rest ih =>
    exact (h x List.mem_cons_self).bind fun _ => ih fun y hy => h y (List.mem_cons_of_mem _ hy)

theorem Always.not_starts {p : Program Op Res α} (h : p.Always ok fun op => ¬ P op) :
    ¬ p.Starts P := by
  cases p with
  | done a => exact id
  | request op next => exact h.1

theorem OnlyAfter.of_always {p : Program Op Res α} (h : p.Always ok fun op => ¬ P op) :
    p.OnlyAfter ok P trigger := by
  induction p with
  | done a => trivial
  | request op next ih =>
    exact fun r hr => ⟨fun hs => absurd hs (h.2 r hr).not_starts, ih r (h.2 r hr)⟩

theorem OnlyAfter.of_next {op : Op} {next : Res op → Program Op Res α}
    (h : ∀ r, ok op r → (next r).Always ok fun op => ¬ P op) :
    (request op next).OnlyAfter ok P trigger :=
  fun r hr => ⟨fun hs => absurd hs (h r hr).not_starts, .of_always (h r hr)⟩

theorem starts_of_bind {p : Program Op Res α} {f : α → Program Op Res β}
    (hf : ∀ a, ¬ (f a).Starts P) (h : (p >>= f).Starts P) : p.Starts P := by
  cases p with
  | done a => exact absurd h (hf a)
  | request op next => exact h

theorem OnlyAfter.bind {p : Program Op Res α} {f : α → Program Op Res β}
    (hp : p.OnlyAfter ok P trigger) (hf : ∀ a, (f a).OnlyAfter ok P trigger)
    (hs : ∀ a, ¬ (f a).Starts P) : (p >>= f).OnlyAfter ok P trigger := by
  induction p with
  | done a => exact hf a
  | request op next ih =>
    intro r hr
    obtain ⟨htrigger, hnext⟩ := hp r hr
    exact ⟨fun hstarts => htrigger (starts_of_bind hs hstarts), ih r hnext⟩

end Triggers

end Predicates

def isDone : Program Op Res α → Bool
  | .done _ => true
  | .request _ _ => false

theorem isDone_iff {p : Program Op Res α} : p.isDone = true ↔ ∃ a, p = .done a := by
  cases p <;> simp [isDone]

/-- A complete execution: its operations with their results, and what it returns. -/
inductive Trace : Program Op Res α → List ((op : Op) × Res op) → α → Prop where
  | done (a : α) : Trace (.done a) [] a
  | step {op : Op} {next : Res op → Program Op Res α} {r : Res op}
      {events : List ((op : Op) × Res op)} {a : α} :
      Trace (next r) events a → Trace (.request op next) (⟨op, r⟩ :: events) a

variable {events : List ((op : Op) × Res op)}

theorem trace_done {a b : α} (h : (.done a : Program Op Res α).Trace events b) :
    events = [] ∧ b = a := by
  cases h
  exact ⟨rfl, rfl⟩

theorem trace_request {op : Op} {next : Res op → Program Op Res α} {a : α}
    (h : (request op next).Trace events a) :
    ∃ r rest, events = ⟨op, r⟩ :: rest ∧ (next r).Trace rest a := by
  cases h with
  | step h => exact ⟨_, _, rfl, h⟩

theorem trace_perform {op : Op} {f : Res op → Program Op Res β} {b : β}
    (h : (perform op >>= f).Trace events b) :
    ∃ r rest, events = ⟨op, r⟩ :: rest ∧ (f r).Trace rest b := trace_request h

theorem trace_bind {p : Program Op Res α} {f : α → Program Op Res β} {b : β}
    (h : (p >>= f).Trace events b) :
    ∃ first a rest, events = first ++ rest ∧ p.Trace first a ∧ (f a).Trace rest b := by
  induction p generalizing events with
  | done a => exact ⟨[], a, events, rfl, .done a, h⟩
  | request op next ih =>
    obtain ⟨r, tail, rfl, hnext⟩ := trace_request h
    obtain ⟨first, a, rest, rfl, hp, hf⟩ := ih r hnext
    exact ⟨⟨op, r⟩ :: first, a, rest, rfl, .step hp, hf⟩

theorem Trace.bind {p : Program Op Res α} {f : α → Program Op Res β} {a : α} {b : β}
    {first rest : List ((op : Op) × Res op)} (hp : p.Trace first a) (hf : (f a).Trace rest b) :
    (p >>= f).Trace (first ++ rest) b := by
  induction hp with
  | done => exact hf
  | step _ ih => exact .step (ih hf)

theorem Always.trace {p : Program Op Res α} (hp : p.Always (fun _ _ => True) P) {a : α}
    (h : p.Trace events a) : ∀ event ∈ events, P event.1 := by
  induction h with
  | done => exact fun _ hmem => absurd hmem List.not_mem_nil
  | step _ ih =>
    intro event hmem
    rcases List.mem_cons.mp hmem with rfl | hmem
    · exact hp.1
    · exact ih (hp.2 _ trivial) event hmem

section Replies

variable (reply : (op : Op) → Res op)

def performed : Program Op Res α → List Op
  | .done _ => []
  | .request op next => op :: (next (reply op)).performed

def returned : Program Op Res α → α
  | .done a => a
  | .request op next => (next (reply op)).returned

theorem trace_replies (p : Program Op Res α) :
    p.Trace ((p.performed reply).map fun op => ⟨op, reply op⟩) (p.returned reply) := by
  induction p with
  | done a => exact .done a
  | request op next ih => exact .step (ih (reply op))

theorem performed_bind (p : Program Op Res α) (f : α → Program Op Res β) :
    (p >>= f).performed reply =
      p.performed reply ++ (f (p.returned reply)).performed reply := by
  induction p with
  | done a => rfl
  | request op next ih => exact congrArg _ (ih (reply op))

theorem returned_bind (p : Program Op Res α) (f : α → Program Op Res β) :
    (p >>= f).returned reply = (f (p.returned reply)).returned reply := by
  induction p with
  | done a => rfl
  | request op next ih => exact ih (reply op)

variable {reply} {P : Op → Prop}

theorem Always.performed {p : Program Op Res α} (hp : p.Always (fun _ _ => True) P) :
    ∀ op ∈ p.performed reply, P op := by
  intro op hop
  exact hp.trace (trace_replies reply p) ⟨op, reply op⟩ (List.mem_map_of_mem hop)

/-- Functions that agree on the operations of a program answer in the same execution. -/
theorem replies_congr {reply' : (op : Op) → Res op} {p : Program Op Res α}
    (hp : p.Always (fun _ _ => True) P) (h : ∀ op, P op → reply op = reply' op) :
    p.performed reply = p.performed reply' ∧ p.returned reply = p.returned reply' := by
  induction p with
  | done a => exact ⟨rfl, rfl⟩
  | request op next ih =>
    obtain ⟨hops, hvalue⟩ := ih (reply' op) (hp.2 _ trivial)
    simp only [Program.performed, Program.returned, h op hp.1]
    exact ⟨congrArg _ hops, hvalue⟩

end Replies

end Program

/-- What an operation may do to the shared state, and with which result. -/
abbrev Semantics (Op : Type) (Res : Op → Type) (S : Type) :=
  S → (op : Op) → Res op → S → Prop

/-- A program that runs alone; it may stop anywhere. -/
inductive Program.Runs {S : Type} (sem : Semantics Op Res S) : Program Op Res α → S → S → Prop where
  | stop (p s) : Runs sem p s s
  | step {op : Op} {next : Res op → Program Op Res α} {r : Res op} {s t u : S} :
      sem s op r t → Runs sem (next r) t u → Runs sem (.request op next) s u

theorem Program.Runs.keeps {S : Type} {sem : Semantics Op Res S} {P : Op → Prop} {Q : S → Prop}
    {ok : (op : Op) → Res op → Prop} {p : Program Op Res α} {s t : S} (h : Runs sem p s t)
    (hp : p.Always ok P) (hok : ∀ s op r s', sem s op r s' → ok op r)
    (hstep : ∀ s op r s', P op → sem s op r s' → (Q s' ↔ Q s)) : Q t ↔ Q s := by
  induction h with
  | stop => exact Iff.rfl
  | step hs _ ih =>
    have hnext := ih (hp.2 _ (hok _ _ _ _ hs))
    exact hnext.trans (hstep _ _ _ _ hp.1 hs)

theorem Program.Performs.runs {S : Type} {sem : Semantics Op Res S}
    {ok : (op : Op) → Res op → Prop} {p : Program Op Res α} {ops : List Op}
    (hp : p.Performs ok ops) {after : S → Op → S}
    (hsem : ∀ op ∈ ops, ∀ s, ∃ r, ok op r ∧ sem s op r (after s op)) (s : S) :
    Runs sem p s (ops.foldl after s) := by
  induction p generalizing ops s with
  | done a =>
    obtain rfl : ops = [] := hp
    exact .stop _ s
  | request op next ih =>
    obtain ⟨rest, rfl, hnext⟩ := hp
    obtain ⟨r, hr, hs⟩ := hsem op List.mem_cons_self s
    exact .step hs (ih r (hnext r hr)
      (fun other hother => hsem other (List.mem_cons_of_mem _ hother)) (after s op))

/-- A program that runs alone to its end, with what it returns. -/
inductive Program.Completes {S : Type} (sem : Semantics Op Res S) :
    Program Op Res α → S → α → S → Prop where
  | done (a s) : Completes sem (.done a) s a s
  | step {op : Op} {next : Res op → Program Op Res α} {r : Res op} {s t u : S} {a : α} :
      sem s op r t → Completes sem (next r) t a u → Completes sem (.request op next) s a u

namespace Program

section Completes

variable {S : Type} {sem : Semantics Op Res S} {s t u : S}

theorem completes_done {a b : α} (h : (.done a : Program Op Res α).Completes sem s b t) :
    b = a ∧ t = s := by
  cases h
  exact ⟨rfl, rfl⟩

theorem completes_request {op : Op} {next : Res op → Program Op Res α} {a : α}
    (h : (request op next).Completes sem s a u) :
    ∃ r t, sem s op r t ∧ (next r).Completes sem t a u := by
  cases h with
  | step hs hnext => exact ⟨_, _, hs, hnext⟩

theorem completes_perform {op : Op} {f : Res op → Program Op Res β} {b : β}
    (h : (perform op >>= f).Completes sem s b u) :
    ∃ r t, sem s op r t ∧ (f r).Completes sem t b u := completes_request h

theorem completes_bind {p : Program Op Res α} {f : α → Program Op Res β} {b : β}
    (h : (p >>= f).Completes sem s b u) :
    ∃ a t, p.Completes sem s a t ∧ (f a).Completes sem t b u := by
  induction p generalizing s with
  | done a => exact ⟨a, s, .done a s, h⟩
  | request op next ih =>
    obtain ⟨r, s', hs, hnext⟩ := completes_request h
    obtain ⟨a, t, hp, hf⟩ := ih r hnext
    exact ⟨a, t, .step hs hp, hf⟩

theorem Completes.bind {p : Program Op Res α} {f : α → Program Op Res β} {a : α} {b : β}
    (hp : p.Completes sem s a t) (hf : (f a).Completes sem t b u) :
    (p >>= f).Completes sem s b u := by
  induction hp with
  | done => exact hf
  | step hop _ ih => exact .step hop (ih hf)

variable {P R : Op → Prop} {Q : S → Prop} {p : Program Op Res α} {a : α}

/-- The invariant rule: what every operation of a program keeps the program keeps. -/
theorem Completes.keeps (h : p.Completes sem s a t) (hp : p.Always (fun _ _ => True) P)
    (hstep : ∀ s op r s', P op → sem s op r s' → Q s → Q s') (hs : Q s) : Q t := by
  induction h with
  | done => exact hs
  | step hop _ ih => exact ih (hp.2 _ trivial) (hstep _ _ _ _ hp.1 hop hs)

/-- What one operation of every execution brings about and no operation undoes holds in the
end. -/
theorem Completes.reaches (h : p.Completes sem s a t) (hp : p.Eventually (fun _ _ => True) P)
    (hall : p.Always (fun _ _ => True) R) (hset : ∀ s op r s', P op → sem s op r s' → Q s')
    (hkeep : ∀ s op r s', R op → sem s op r s' → Q s → Q s') : Q t := by
  induction h with
  | done => exact hp.elim
  | step hop hrest ih =>
    rcases hp with hset' | hnext
    · exact hrest.keeps (hall.2 _ trivial) hkeep (hset _ _ _ _ hset' hop)
    · exact ih (hnext _ trivial) (hall.2 _ trivial)

/-- A run in which every operation is answered by a function. -/
def eval (act : S → (op : Op) → Res op × S) : Program Op Res α → S → α × S
  | .done a, s => (a, s)
  | .request op next, s => (next (act s op).1).eval act (act s op).2

/-- An interpreter on a state of its own that is sound for what the state stands for, as long as an
invariant holds. -/
theorem eval_completes_within {T : Type} {I : T → Prop} {view : T → S}
    {act : T → (op : Op) → Res op × T} (sound : ∀ t op, I t →
      sem (view t) op (act t op).1 (view (act t op).2) ∧ I (act t op).2)
    (p : Program Op Res α) {t : T} (ht : I t) :
    p.Completes sem (view t) (p.eval act t).1 (view (p.eval act t).2) ∧ I (p.eval act t).2 := by
  induction p generalizing t with
  | done a => exact ⟨.done a (view t), ht⟩
  | request op next ih =>
    obtain ⟨hstep, hkept⟩ := sound t op ht
    obtain ⟨hrest, hend⟩ := ih (act t op).1 hkept
    exact ⟨.step hstep hrest, hend⟩

theorem eval_completes {act : S → (op : Op) → Res op × S}
    (sound : ∀ s op, sem s op (act s op).1 (act s op).2) (p : Program Op Res α) (s : S) :
    p.Completes sem s (p.eval act s).1 (p.eval act s).2 := by
  have hstep : ∀ t op, True → sem (id t) op (act t op).1 (id (act t op).2) ∧ True :=
    fun t op _ => ⟨sound t op, trivial⟩
  exact (eval_completes_within hstep p trivial).1

end Completes

end Program

structure Pool (ι Op : Type) (Res : Op → Type) (α S : Type) where
  thread : ι → Program Op Res α
  state : S

/-- A condition on a step: the pool before it, the thread, the operation, its result and
the state after it. -/
abbrev Guard (ι Op : Type) (Res : Op → Type) (α S : Type) :=
  Pool ι Op Res α S → ι → (op : Op) → Res op → S → Prop

variable {ι S : Type} [DecidableEq ι]

def Pool.advance (p : Pool ι Op Res α S) (i : ι) (rest : Program Op Res α) (s : S) :
    Pool ι Op Res α S :=
  ⟨Function.update p.thread i rest, s⟩

def Pool.Finished (p : Pool ι Op Res α S) : Prop := ∀ i, ∃ a, p.thread i = .done a

@[simp] theorem Pool.advance_state (p : Pool ι Op Res α S) (i : ι) (rest : Program Op Res α)
    (s : S) : (p.advance i rest s).state = s := rfl

@[simp] theorem Pool.advance_self (p : Pool ι Op Res α S) (i : ι) (rest : Program Op Res α)
    (s : S) : (p.advance i rest s).thread i = rest := by simp [Pool.advance]

theorem Pool.advance_other (p : Pool ι Op Res α S) {i j : ι} (rest : Program Op Res α)
    (s : S) (h : j ≠ i) : (p.advance i rest s).thread j = p.thread j := by
  simp [Pool.advance, h]

/-- Interleavings of the threads of a pool in which every step meets the guard. -/
inductive Execution (sem : Semantics Op Res S) (guard : Guard ι Op Res α S) :
    Pool ι Op Res α S → Pool ι Op Res α S → Prop where
  | refl (p) : Execution sem guard p p
  | tail {p q} (i : ι) {op : Op} {next : Res op → Program Op Res α} {r : Res op} {s : S} :
      Execution sem guard p q → q.thread i = .request op next → sem q.state op r s →
      guard q i op r s → Execution sem guard p (q.advance i (next r) s)

def anyStep : Guard ι Op Res α S := fun _ _ _ _ _ => True

variable {sem : Semantics Op Res S} {guard : Guard ι Op Res α S}

/-- The induction every safety argument over a pool uses. -/
theorem Execution.invariant {I : Pool ι Op Res α S → Prop} {p q : Pool ι Op Res α S}
    (h : Execution sem guard p q) (h0 : I p)
    (step : ∀ q i op (next : Res op → Program Op Res α) r s, I q →
      q.thread i = .request op next → sem q.state op r s → guard q i op r s →
      I (q.advance i (next r) s)) : I q := by
  induction h with
  | refl => exact h0
  | tail i _ ht hs hg ih => exact step _ i _ _ _ _ ih ht hs hg

theorem Execution.trans {p q t : Pool ι Op Res α S} (h : Execution sem guard p q)
    (k : Execution sem guard q t) : Execution sem guard p t := by
  induction k with
  | refl => exact h
  | tail i _ ht hs hg ih => exact .tail i ih ht hs hg

/-- What a program keeps through its own steps its thread keeps whatever the others do. -/
theorem Execution.threadwise {ok : (op : Op) → Res op → Prop} {Q : Program Op Res α → Prop}
    {p q : Pool ι Op Res α S} (h : Execution sem guard p q)
    (hok : ∀ s op r s', sem s op r s' → ok op r)
    (hstep : ∀ op next r, Q (.request op next) → ok op r → Q (next r))
    {i : ι} (h0 : Q (p.thread i)) : Q (q.thread i) := by
  refine h.invariant (I := fun q => Q (q.thread i)) h0 ?_
  intro q j op next r s ih ht hs _
  by_cases hj : i = j
  · subst hj
    rw [ht] at ih
    rw [Pool.advance_self]
    exact hstep op next r ih (hok _ _ _ _ hs)
  · rwa [Pool.advance_other _ _ _ hj]

theorem Execution.always {ok : (op : Op) → Res op → Prop} {P : Op → Prop}
    {p q : Pool ι Op Res α S} (h : Execution sem guard p q)
    (hok : ∀ s op r s', sem s op r s' → ok op r) {i : ι}
    (h0 : (p.thread i).Always ok P) : (q.thread i).Always ok P :=
  h.threadwise hok (fun _ _ r hq hr => hq.2 r hr) h0

/-- Each thread relies on the results an invariant lets it have, and the invariant on the
operations the threads have left. -/
theorem Execution.rely {ok : ι → (op : Op) → Res op → Prop} {P : ι → Op → Prop} {J : S → Prop}
    {p q : Pool ι Op Res α S} (h : Execution sem guard p q) (hJ : J p.state)
    (hP : ∀ i, (p.thread i).Always (ok i) (P i))
    (hstep : ∀ (q : Pool ι Op Res α S) i op r s', J q.state → P i op → sem q.state op r s' →
      guard q i op r s' → ok i op r ∧ J s') :
    J q.state ∧ ∀ i, (q.thread i).Always (ok i) (P i) := by
  refine h.invariant (I := fun q => J q.state ∧ ∀ i, (q.thread i).Always (ok i) (P i)) ⟨hJ, hP⟩ ?_
  intro q i op next r s' ih ht hs hg
  have hthread := ih.2 i
  rw [ht] at hthread
  obtain ⟨hr, hJ'⟩ := hstep q i op r s' ih.1 hthread.1 hs hg
  refine ⟨hJ', ?_⟩
  intro j
  by_cases hj : j = i
  · subst hj
    rw [Pool.advance_self]
    exact hthread.2 r hr
  · rw [Pool.advance_other _ _ _ hj]
    exact ih.2 j

theorem Execution.leadsTo {ok : (op : Op) → Res op → Prop} {P : Op → Prop}
    {trigger : (op : Op) → Res op → Prop} {p q : Pool ι Op Res α S}
    (h : Execution sem guard p q) (hok : ∀ s op r s', sem s op r s' → ok op r) {i : ι}
    (h0 : (p.thread i).LeadsTo ok P trigger) : (q.thread i).LeadsTo ok P trigger :=
  h.threadwise hok (fun _ _ r hq hr => (hq r hr).2) h0

theorem Execution.onlyAfter {ok : (op : Op) → Res op → Prop} {P : Op → Prop}
    {trigger : (op : Op) → Res op → Prop} {p q : Pool ι Op Res α S}
    (h : Execution sem guard p q) (hok : ∀ s op r s', sem s op r s' → ok op r) {i : ι}
    (h0 : (p.thread i).OnlyAfter ok P trigger) : (q.thread i).OnlyAfter ok P trigger :=
  h.threadwise hok (fun _ _ r hq hr => (hq r hr).2) h0

/-- A step of a pool uses up what a thread has ahead only by performing it. -/
theorem Pool.eventually_advance {ok : (op : Op) → Res op → Prop} {P : Op → Prop}
    {p : Pool ι Op Res α S} {i j : ι} {op : Op} {next : Res op → Program Op Res α} {r : Res op}
    {s : S} (ht : p.thread i = .request op next) (hr : ok op r)
    (h : (p.thread j).Eventually ok P) :
    ((p.advance i (next r) s).thread j).Eventually ok P ∨ P op := by
  by_cases hj : j = i
  · subst hj
    rw [ht] at h
    rcases h with hop | hnext
    · exact Or.inr hop
    · exact Or.inl (by simpa using hnext r hr)
  · rw [Pool.advance_other _ _ _ hj]
    exact Or.inl h

/-- A scripted run: at each entry the named thread performs its next operation as the
interpreter says. -/
def Pool.replay {δ : Type}
    (interp : δ → Pool ι Op Res α S → (op : Op) → Option (Res op × S)) :
    List (ι × δ) → Pool ι Op Res α S → Option (Pool ι Op Res α S)
  | [], p => some p
  | (i, d) :: script, p =>
    match p.thread i with
    | .done _ => none
    | .request op next =>
      match interp d p op with
      | none => none
      | some (r, s) => (p.advance i (next r) s).replay interp script

theorem Pool.replay_execution {δ : Type}
    {interp : δ → Pool ι Op Res α S → (op : Op) → Option (Res op × S)}
    (sound : ∀ d (p : Pool ι Op Res α S) i op r s', interp d p op = some (r, s') →
      sem p.state op r s' ∧ guard p i op r s')
    (script : List (ι × δ)) {p q : Pool ι Op Res α S} (h : p.replay interp script = some q) :
    Execution sem guard p q := by
  induction script generalizing p with
  | nil =>
    simp only [Pool.replay, Option.some.injEq] at h
    exact h ▸ .refl p
  | cons entry script ih =>
    obtain ⟨i, d⟩ := entry
    simp only [Pool.replay] at h
    split at h
    · cases h
    · rename_i op next ht
      split at h
      · cases h
      · rename_i r s hr
        obtain ⟨hsem, hguard⟩ := sound d p i op r s hr
        exact (Execution.tail i (.refl p) ht hsem hguard).trans (ih h)

end InteractionPrograms
