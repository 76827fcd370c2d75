import Playground.KeyspaceScans
import Playground.PlaygroundRedis
import Playground.PlaygroundTeardownFrame
import Playground.ProofOutlines

/-! # The scan loop of `teardown_redis_namespace`

`SCAN` and `DEL` alternate until the cursor is zero again, while other connections go on sending
commands. The loop takes fuel, as a server might never end a scan. -/
namespace PlaygroundNamespaceTeardown

open InteractionPrograms
open InteractionPrograms.Program
open KeyspaceScans
open PlaygroundNames
open PlaygroundOperations
open PlaygroundRedis
open PlaygroundTeardownFrame (safe_literal)
open ProofOutlines
open ProofOutlines.Contract
open RedisGlob

/-- What the dispatcher sends to Redis; `command` is any command of a script. -/
inductive WireOp where
  | config
  | connect
  | scan (cursor : UInt64) (pattern : String) (count : ℕ)
  | del (keys : List String)
  | command (argv : List String)
  deriving DecidableEq, Repr

@[reducible] def WireOp.Result : WireOp → Type
  | .config => Except DispatchError String
  | .connect => Except RedisError Unit
  | .scan _ _ _ => Except RedisError (UInt64 × List String)
  | .del _ => Except RedisError ℤ
  | .command _ => Except RedisError String

abbrev WireProgram (α : Type) := Program WireOp WireOp.Result α

abbrev Outcome := Option (Except DispatchError Unit)

def getConfig : WireProgram (Except DispatchError String) := perform WireOp.config

def getConnection : WireProgram (Except RedisError Unit) := perform WireOp.connect

def scan (cursor : UInt64) (pattern : String) :
    WireProgram (Except RedisError (UInt64 × List String)) :=
  perform (WireOp.scan cursor pattern 200)

def del (keys : List String) : WireProgram (Except RedisError ℤ) := perform (WireOp.del keys)

/-- An empty page is not sent. -/
def deletePage (keys : List String) : WireProgram (Except RedisError Unit) :=
  if keys.isEmpty then .done (.ok ())
  else do
    let reply ← del keys
    .done (reply.map fun _ => ())

def scanLoop (pattern : String) : ℕ → UInt64 → WireProgram Outcome
  | 0, _ => .done none
  | fuel + 1, cursor => do
    match ← scan cursor pattern with
    | .error e => .done (some (.error (mapRedisError e)))
    | .ok (next, keys) =>
      match ← deletePage keys with
      | .error e => .done (some (.error (mapRedisError e)))
      | .ok () => if next = 0 then .done (some (.ok ())) else scanLoop pattern fuel next

def teardownRedisNamespace (fuel : ℕ) (namespaceName : String) : WireProgram Outcome :=
  if isSafeResourceName namespaceName then do
    match ← getConfig with
    | .error e => .done (some (.error e))
    | .ok _ =>
      match ← getConnection with
      | .error e => .done (some (.error (mapRedisError e)))
      | .ok () => scanLoop (namespaceName ++ ":*") fuel 0
  else .done (some (.error (.config ("unsafe redis namespace: " ++ namespaceName))))

section Server

variable {Entry : Type}

abbrev Keyspace (Entry : Type) := String → Option Entry

def Held (s : Keyspace Entry) (key : String) : Prop := (s key).isSome = true

def without (s : Keyspace Entry) (keys : List String) : Keyspace Entry :=
  fun key => if key ∈ keys then none else s key

def Selected (pattern key : String) : Prop := globMatch pattern.toList key.toList = true

def InNamespace (namespaceName key : String) : Prop := (namespaceName ++ ":").toList <+: key.toList

instance (namespaceName key : String) : Decidable (InNamespace namespaceName key) :=
  inferInstanceAs (Decidable (_ <+: _))

/-- What Redis does with the keys. A failed `DEL` may have removed some of them; what a command
of a script does is left open. -/
def serve (order : ScanOrder String UInt64 0) (s : Keyspace Entry) :
    (op : WireOp) → op.Result → Keyspace Entry → Prop
  | .config, _, s' => s' = s
  | .connect, _, s' => s' = s
  | .scan _ _ _, .error _, s' => s' = s
  | .scan cursor pattern _, .ok (next, keys), s' =>
    s' = s ∧ Page order (Held s) (Selected pattern) cursor next keys
  | .del keys, .error _, s' => ∃ gone, gone ⊆ keys ∧ s' = without s gone
  | .del keys, .ok _, s' => s' = without s keys
  | .command _, _, _ => True

/-- Nobody else brings a new key into the namespace. -/
def NoNewKeys (namespaceName : String) (s s' : Keyspace Entry) : Prop :=
  ∀ key, InNamespace namespaceName key → Held s' key → Held s key

theorem held_without {s : Keyspace Entry} {keys : List String} {key : String} :
    Held (without s keys) key ↔ Held s key ∧ key ∉ keys := by
  unfold Held without
  by_cases hkey : key ∈ keys <;> simp [hkey]

theorem selected_iff {namespaceName key : String} (h : isSafeResourceName namespaceName = true) :
    Selected (namespaceName ++ ":*") key ↔ InNamespace namespaceName key := by
  have hpattern : (namespaceName ++ ":*").toList = namespaceName.toList ++ [':'] ++ ['*'] := by
    rw [String.toList_append, List.append_assoc]
    rfl
  have hkeys : (namespaceName ++ ":").toList = namespaceName.toList ++ [':'] :=
    String.toList_append
  rw [Selected, InNamespace, hpattern, hkeys]
  exact globMatch_starts (safe_literal h) _

end Server

section Loop

variable {Entry : Type} {order : ScanOrder String UInt64 0} {namespaceName : String}

def keyed (Entry : Type) (order : ScanOrder String UInt64 0) (namespaceName : String) :
    Contract WireOp WireOp.Result (Keyspace Entry) :=
  relying (serve order) (NoNewKeys namespaceName)

/-- The loop ended, and after a success no key of the namespace is left. -/
def Emptied (namespaceName : String) (out : Outcome) (s : Keyspace Entry) : Prop :=
  out ≠ none ∧ (out = some (.ok ()) → ∀ key, InNamespace namespaceName key → s key = none)

/-- Before a `SCAN`: the rest of the scan has room in the fuel and meets every key left. -/
def Scanning (order : ScanOrder String UInt64 0) (namespaceName : String) (fuel : ℕ)
    (cursor : UInt64) (s : Keyspace Entry) : Prop :=
  order.size ≤ fuel + order.reached cursor ∧
    Ahead order (Held s) (InNamespace namespaceName) cursor

/-- After a `SCAN`: every key left is on the page or met by the rest of the scan. -/
def Scanned (order : ScanOrder String UInt64 0) (namespaceName : String) (fuel : ℕ)
    (next : UInt64) (keys : List String) (s : Keyspace Entry) : Prop :=
  (next ≠ 0 → order.size ≤ fuel + order.reached next) ∧
    PageOrAhead order (Held s) (InNamespace namespaceName) next keys

/-- After the page is deleted: if the scan goes on, `Scanning`; else nothing is left. -/
def PageDeleted (order : ScanOrder String UInt64 0) (namespaceName : String) (fuel : ℕ)
    (next : UInt64) (s : Keyspace Entry) : Prop :=
  if next = 0 then ∀ key, InNamespace namespaceName key → ¬ Held s key
  else Scanning order namespaceName fuel next s

theorem scanning_stable (fuel : ℕ) (cursor : UInt64) :
    (keyed Entry order namespaceName).Stable (Scanning order namespaceName fuel cursor) :=
  fun _ _ hs hrely => ⟨hs.1, hs.2.shrink hrely⟩

theorem scanned_stable (fuel : ℕ) (next : UInt64) (keys : List String) :
    (keyed Entry order namespaceName).Stable
      (Scanned order namespaceName fuel next keys) :=
  fun _ _ hs hrely => ⟨hs.1, hs.2.shrink hrely⟩

theorem pageDeleted_stable (fuel : ℕ) (next : UInt64) :
    (keyed Entry order namespaceName).Stable
      (PageDeleted order namespaceName fuel next) := by
  intro s s' hs hrely
  unfold PageDeleted at hs ⊢
  split at hs
  · rename_i hzero
    rw [if_pos hzero]
    exact fun key hkey hheld => hs key hkey (hrely key hkey hheld)
  · rename_i hnext
    rw [if_neg hnext]
    exact scanning_stable fuel next s s' hs hrely

theorem Scanned.deleted {fuel : ℕ} {next : UInt64} {keys : List String} {s s' : Keyspace Entry}
    (h : Scanned order namespaceName fuel next keys s)
    (hs' : ∀ key, Held s' key → Held s key ∧ key ∉ keys) :
    PageDeleted order namespaceName fuel next s' := by
  unfold PageDeleted
  by_cases hzero : next = 0
  · rw [if_pos hzero]
    subst hzero
    intro key hkey
    exact h.2.last hs' hkey
  · rw [if_neg hzero]
    exact ⟨h.1 hzero, h.2.ahead hs'⟩

theorem deletePage_outline {fuel : ℕ} {next : UInt64} {keys : List String} :
    (keyed Entry order namespaceName).Outline
      (fun r s => r = .ok () → PageDeleted order namespaceName fuel next s)
      (deletePage keys) (Scanned order namespaceName fuel next keys) := by
  unfold deletePage
  split
  · rename_i hempty
    intro s hs _
    rw [List.isEmpty_iff] at hempty
    subst hempty
    exact hs.deleted fun key hheld => ⟨hheld, List.not_mem_nil⟩
  · refine outline_relying (C := fun r s => r.toBool = true →
      PageDeleted order namespaceName fuel next s) ?_ ?_ ?_
    · intro s r s' hs hserve hr
      cases r with
      | error e => cases hr
      | ok n =>
        rw [serve] at hserve
        subst hserve
        exact hs.deleted fun key hheld => held_without.mp hheld
    · exact fun r s s' hs hrely hr => pageDeleted_stable fuel next s s' (hs hr) hrely
    · intro r s hs hr
      cases r with
      | error e => cases hr
      | ok n => exact hs rfl

theorem scanLoop_outline (hsafe : isSafeResourceName namespaceName = true) (fuel : ℕ)
    (cursor : UInt64) :
    (keyed Entry order namespaceName).Outline (Emptied namespaceName)
      (scanLoop (namespaceName ++ ":*") fuel cursor)
      (Scanning order namespaceName fuel cursor) := by
  induction fuel generalizing cursor with
  | zero =>
    -- Without fuel the cursor would be past the end.
    intro s hs
    have hroom := hs.1
    have hinside := order.inside cursor
    omega
  | succ fuel ih =>
    refine outline_relying (C := fun r s => match r with
      | .error _ => True
      | .ok (next, keys) => Scanned order namespaceName fuel next keys s) ?_ ?_ ?_
    · intro s r s' hs hserve
      cases r with
      | error e => trivial
      | ok page =>
        obtain ⟨next, keys⟩ := page
        obtain ⟨rfl, hpage⟩ := hserve
        have hpage' : Page order (Held s') (InNamespace namespaceName) cursor next keys := by
          have hsel : Selected (namespaceName ++ ":*") = InNamespace namespaceName :=
            funext fun key => propext (selected_iff hsafe)
          rw [← hsel]
          exact hpage
        exact ⟨fun hnext => hpage'.rounds hs.1 hnext, hs.2.page hpage'⟩
    · intro r
      cases r with
      | error e => exact fun _ _ _ _ => trivial
      | ok page => exact scanned_stable fuel page.1 page.2
    · intro r
      cases r with
      | error e => exact fun s _ => ⟨by simp, by simp⟩
      | ok page =>
        obtain ⟨next, keys⟩ := page
        refine deletePage_outline.bind ?_
        intro result
        cases result with
        | error e => exact fun s _ => ⟨by simp, by simp⟩
        | ok u =>
          dsimp only
          by_cases hzero : next = 0
          · rw [if_pos hzero]
            intro s hs
            refine ⟨by simp, fun _ key hkey => ?_⟩
            have hgone := hs rfl
            rw [PageDeleted, if_pos hzero] at hgone
            simpa [Held] using hgone key hkey
          · rw [if_neg hzero]
            refine (ih next).strengthen fun s hs => ?_
            have hmore := hs rfl
            rwa [PageDeleted, if_neg hzero] at hmore

theorem teardown_outline {fuel : ℕ} (hfuel : order.size ≤ fuel) :
    (keyed Entry order namespaceName).Outline (Emptied namespaceName)
      (teardownRedisNamespace fuel namespaceName) fun _ => True := by
  unfold teardownRedisNamespace
  by_cases hsafe : isSafeResourceName namespaceName = true
  · rw [if_pos hsafe]
    refine outline_relying (C := fun _ _ => True) (by simp) (fun _ _ _ _ _ => trivial) ?_
    intro config
    cases config with
    | error e => exact fun s _ => ⟨by simp, by simp⟩
    | ok password =>
      refine outline_relying (C := fun _ _ => True) (by simp) (fun _ _ _ _ _ => trivial) ?_
      intro connection
      cases connection with
      | error e => exact fun s _ => ⟨by simp, by simp⟩
      | ok u =>
        refine (scanLoop_outline hsafe fuel 0).strengthen fun s _ => ⟨?_, ahead_start⟩
        rw [order.start]
        exact hfuel
  · rw [if_neg hsafe]
    exact fun s _ => ⟨by simp, by simp⟩

/-- Of the keys before, some of the namespace may be gone. -/
def Trimmed (namespaceName : String) (before s : Keyspace Entry) : Prop :=
  ∀ key, s key = before key ∨ InNamespace namespaceName key ∧ s key = none

theorem Trimmed.without {before s : Keyspace Entry} {keys : List String}
    (h : Trimmed namespaceName before s) (hkeys : ∀ key ∈ keys, InNamespace namespaceName key) :
    Trimmed namespaceName before (without s keys) := by
  intro key
  rw [PlaygroundNamespaceTeardown.without]
  by_cases hkey : key ∈ keys
  · rw [if_pos hkey]
    exact Or.inr ⟨hkeys key hkey, rfl⟩
  · rw [if_neg hkey]
    exact h key

/-- The contract of a teardown with nobody beside it. -/
def alone (Entry : Type) (order : ScanOrder String UInt64 0) :
    Contract WireOp WireOp.Result (Keyspace Entry) :=
  relying (serve order) fun s s' => s' = s

theorem alone_stable (A : Keyspace Entry → Prop) : (alone Entry order).Stable A := by
  rintro s s' hs rfl
  exact hs

theorem deletePage_trims {before : Keyspace Entry} {keys : List String} :
    (alone Entry order).Outline (fun _ s => Trimmed namespaceName before s) (deletePage keys)
      fun s => Trimmed namespaceName before s ∧ ∀ key ∈ keys, InNamespace namespaceName key := by
  unfold deletePage
  split
  · exact fun s hs => hs.1
  · refine outline_relying (C := fun _ s => Trimmed namespaceName before s) ?_
      (fun _ => alone_stable _) (fun _ s hs => hs)
    rintro s (e | n) s' ⟨hs, hkeys⟩ hserve
    · obtain ⟨gone, hgone, rfl⟩ := hserve
      exact hs.without fun key hkey => hkeys key (hgone hkey)
    · rw [serve] at hserve
      subst hserve
      exact hs.without hkeys

/-- The loop deletes what `SCAN` finds, and that is in the namespace. -/
theorem scanLoop_trims (hsafe : isSafeResourceName namespaceName = true)
    {before : Keyspace Entry} (fuel : ℕ) (cursor : UInt64) :
    (alone Entry order).Outline (fun _ s => Trimmed namespaceName before s)
      (scanLoop (namespaceName ++ ":*") fuel cursor) (Trimmed namespaceName before) := by
  induction fuel generalizing cursor with
  | zero => exact fun s hs => hs
  | succ fuel ih =>
    refine outline_relying (C := fun r s => Trimmed namespaceName before s ∧ match r with
      | .error _ => True
      | .ok (_, keys) => ∀ key ∈ keys, InNamespace namespaceName key) ?_
      (fun _ => alone_stable _) ?_
    · rintro s (e | ⟨next, keys⟩) s' hs hserve
      · obtain rfl : s' = s := hserve
        exact ⟨hs, trivial⟩
      · obtain ⟨rfl, hpage⟩ := hserve
        exact ⟨hs, fun key hkey => (selected_iff hsafe).mp (hpage.chosen key hkey)⟩
    · rintro (e | ⟨next, keys⟩)
      · exact fun s hs => hs.1
      · refine deletePage_trims.bind fun result => ?_
        cases result with
        | error e => exact fun s hs => hs
        | ok u =>
          dsimp only
          by_cases hzero : next = 0
          · rw [if_pos hzero]
            exact fun s hs => hs
          · rw [if_neg hzero]
            exact ih next

theorem teardown_trims {before : Keyspace Entry} (fuel : ℕ) :
    (alone Entry order).Outline (fun _ s => Trimmed namespaceName before s)
      (teardownRedisNamespace fuel namespaceName) (Trimmed namespaceName before) := by
  have hquiet : ∀ {s s' : Keyspace Entry}, s' = s → Trimmed namespaceName before s →
      Trimmed namespaceName before s' := fun h hs => h ▸ hs
  unfold teardownRedisNamespace
  by_cases hsafe : isSafeResourceName namespaceName = true
  · rw [if_pos hsafe]
    refine outline_relying (C := fun _ s => Trimmed namespaceName before s)
      (fun s r s' hs h => hquiet h hs) (fun _ => alone_stable _) ?_
    intro config
    cases config with
    | error e => exact fun s hs => hs
    | ok password =>
      refine outline_relying (C := fun _ s => Trimmed namespaceName before s)
        (fun s r s' hs h => hquiet h hs) (fun _ => alone_stable _) ?_
      intro connection
      cases connection with
      | error e => exact fun s hs => hs
      | ok u => exact scanLoop_trims hsafe fuel 0
  · rw [if_neg hsafe]
    exact fun s hs => hs

/-- One call of the method from the keys before it to those after it, with nobody beside it and
fuel for the whole scan. -/
def Call (order : ScanOrder String UInt64 0) (namespaceName : String)
    (r : Except DispatchError Unit) (s s' : Keyspace Entry) : Prop :=
  ∃ fuel, order.size ≤ fuel ∧
    (teardownRedisNamespace fuel namespaceName).Completes (serve order) s (some r) s'

theorem Call.empties {s s' : Keyspace Entry} (h : Call order namespaceName (.ok ()) s s') :
    ∀ key, InNamespace namespaceName key → s' key = none := by
  obtain ⟨fuel, hfuel, hrun⟩ := h
  have hend : Emptied namespaceName (some (.ok ())) s' :=
    (teardown_outline hfuel).completes trivial hrun
  exact hend.2 rfl

theorem Call.trims {r : Except DispatchError Unit} {s s' : Keyspace Entry}
    (h : Call order namespaceName r s s') : Trimmed namespaceName s s' := by
  obtain ⟨fuel, _, hrun⟩ := h
  exact (teardown_trims fuel).completes (fun _ => Or.inl rfl) hrun

/-- A table of one bucket, scanned in one page. -/
def oneBucket : ScanOrder String UInt64 0 :=
  ⟨fun _ => 0, fun _ => 0, 1, rfl, fun _ => Nat.one_pos⟩

/-- The call that finds all keys of the namespace on one page. -/
theorem call_one_page (hsafe : isSafeResourceName namespaceName = true) {s : Keyspace Entry}
    {keys : List String}
    (hkeys : ∀ key, key ∈ keys ↔ Held s key ∧ InNamespace namespaceName key) :
    Call oneBucket namespaceName (.ok ()) s (without s keys) := by
  have hpage : Page oneBucket (Held s) (Selected (namespaceName ++ ":*")) 0 0 keys := by
    refine ⟨fun key hkey => (selected_iff hsafe).mpr ((hkeys key).mp hkey).2, ?_,
      fun h => absurd rfl h⟩
    exact fun key hheld hsel _ => Or.inl ((hkeys key).mpr ⟨hheld, (selected_iff hsafe).mp hsel⟩)
  have hdelete : (deletePage keys).Completes (serve oneBucket) s (.ok ()) (without s keys) := by
    unfold deletePage
    split
    · rename_i hempty
      rw [List.isEmpty_iff] at hempty
      subst hempty
      exact .done _ s
    · have hdel : serve oneBucket s (.del keys) (.ok 0) (without s keys) := rfl
      exact .step hdel (.done _ _)
  refine ⟨1, Nat.le_refl 1, ?_⟩
  rw [teardownRedisNamespace, if_pos hsafe]
  refine .step (r := .ok "") rfl (.step (r := .ok ()) rfl
    (.step (r := .ok (0, keys)) ⟨rfl, hpage⟩ ?_))
  change (deletePage keys >>= fun _ => _).Completes _ _ _ _
  exact hdelete.bind (.done _ _)

/-- Other connections may do anything but add keys to the namespace. -/
def Bystanders {ι : Type} (i : ι) (namespaceName : String) :
    Guard ι WireOp WireOp.Result Outcome (Keyspace Entry) :=
  fun t j _ _ s' => j ≠ i → NoNewKeys namespaceName t.state s'

/-- Whatever runs beside it, a teardown that is done has ended its scan, and if it reports success
no key of the namespace is left. -/
theorem teardown_empties_namespace {ι : Type} [DecidableEq ι] {i : ι} {fuel : ℕ}
    {p q : Pool ι WireOp WireOp.Result Outcome (Keyspace Entry)} {out : Outcome}
    (hfuel : order.size ≤ fuel)
    (hthread : p.thread i = teardownRedisNamespace fuel namespaceName)
    (hrun : Execution (serve order) (Bystanders i namespaceName) p q)
    (hdone : q.thread i = .done out) :
    ∃ result, out = some result ∧
      (result = .ok () → ∀ key, InNamespace namespaceName key → q.state key = none) := by
  have hstart : (keyed Entry order namespaceName).Meets (Emptied namespaceName) (p.thread i)
      p.state := by
    rw [hthread]
    exact ⟨fun _ => True, fun _ _ _ _ => trivial, trivial, teardown_outline hfuel⟩
  have hend := meets_among hrun hstart (fun t op r s' hserve _ => hserve)
    fun t j op r s' hj _ hguard => hguard hj
  rw [hdone] at hend
  have hpost : Emptied namespaceName out q.state := hend.done
  cases out with
  | none => exact absurd rfl hpost.1
  | some result => exact ⟨result, rfl, fun hr => hpost.2 (congrArg some hr)⟩

/-- A table of two buckets, scanned in two pages. -/
def twoBuckets : ScanOrder String UInt64 0 where
  place key := if key = "playground_a_b:1" then 0 else 1
  reached cursor := if cursor = 0 then 0 else 1
  size := 2
  start := rfl
  inside cursor := by split <;> decide

def besideScript : Pool Bool WireOp WireOp.Result Outcome (Keyspace Unit) where
  thread own :=
    if own then teardownRedisNamespace 2 "playground_a_b"
    else .request (.command ["SET", "playground_c_d:n", "1"]) fun _ => .done none
  state key :=
    if key ∈ ["playground_a_b:1", "playground_c_d:m", "playground_a_b:2"] then some () else none

def withKey (s : Keyspace Unit) (added : String) : Keyspace Unit :=
  fun key => if key = added then some () else s key

theorem first_page : Page twoBuckets (Held besideScript.state) (Selected "playground_a_b:*") 0 1
    ["playground_a_b:1"] := by
  refine ⟨?_, ?_, fun _ => by decide⟩
  · intro key hkey
    rw [List.mem_singleton.mp hkey]
    exact (selected_iff (by decide)).mpr (by decide : InNamespace "playground_a_b" _)
  · intro key _ _ _
    by_cases hkey : key = "playground_a_b:1"
    · exact Or.inl (List.mem_singleton.mpr hkey)
    · refine Or.inr ⟨by decide, ?_⟩
      simp [twoBuckets, hkey]

def betweenPages : Keyspace Unit :=
  without (withKey besideScript.state "playground_c_d:n") ["playground_a_b:1"]

theorem second_page : Page twoBuckets (Held betweenPages) (Selected "playground_a_b:*") 1 0
    ["playground_a_b:2"] := by
  refine ⟨?_, ?_, fun h => absurd rfl h⟩
  · intro key hkey
    rw [List.mem_singleton.mp hkey]
    exact (selected_iff (by decide)).mpr (by decide : InNamespace "playground_a_b" _)
  · intro key hheld hselected _
    have hin : InNamespace "playground_a_b" key := (selected_iff (by decide)).mp hselected
    have hforeign : ¬ InNamespace "playground_a_b" "playground_c_d:m" ∧
        ¬ InNamespace "playground_a_b" "playground_c_d:n" := by decide
    obtain ⟨hold, hdeleted⟩ := held_without.mp hheld
    have hnew : key ≠ "playground_c_d:n" := by
      rintro rfl
      exact hforeign.2 hin
    have hother : key ≠ "playground_c_d:m" := by
      rintro rfl
      exact hforeign.1 hin
    have hheld' : Held besideScript.state key := by
      rwa [Held, withKey, if_neg hnew] at hold
    simp only [List.mem_singleton] at hdeleted
    by_cases hkey : key = "playground_a_b:2"
    · exact Or.inl (List.mem_singleton.mpr hkey)
    · simp [Held, besideScript, hdeleted, hother, hkey] at hheld'

theorem teardown_empties_namespace_beside :
    ∃ q : Pool Bool WireOp WireOp.Result Outcome (Keyspace Unit),
      q.state "playground_c_d:m" = some () ∧ q.state "playground_c_d:n" = some () ∧
        ∀ key, InNamespace "playground_a_b" key → q.state key = none := by
  have hother : NoNewKeys "playground_a_b" besideScript.state
      (withKey besideScript.state "playground_c_d:n") := by
    intro key hin hheld
    by_cases hkey : key = "playground_c_d:n"
    · rw [hkey] at hin
      exact absurd hin (by decide)
    · rwa [Held, withKey, if_neg hkey] at hheld
  have hstart : Execution (serve twoBuckets) (Bystanders true "playground_a_b") besideScript
      besideScript := .refl _
  have hconfig := hstart.tail true rfl
    (show serve twoBuckets besideScript.state .config (.ok "") _ from rfl) fun h => absurd rfl h
  have hconnect := hconfig.tail true rfl
    (show serve twoBuckets besideScript.state .connect (.ok ()) _ from rfl) fun h => absurd rfl h
  have hscan := hconnect.tail true rfl
    (show serve twoBuckets besideScript.state (.scan 0 "playground_a_b:*" 200)
      (.ok (1, ["playground_a_b:1"])) _ from ⟨rfl, first_page⟩) fun h => absurd rfl h
  have hset := hscan.tail false rfl
    (show serve twoBuckets besideScript.state (.command ["SET", "playground_c_d:n", "1"])
      (.ok "OK") (withKey besideScript.state "playground_c_d:n") from trivial) fun _ => hother
  have hdel := hset.tail true rfl
    (show serve twoBuckets (withKey besideScript.state "playground_c_d:n")
      (.del ["playground_a_b:1"]) (.ok 1) betweenPages from rfl) fun h => absurd rfl h
  have hrescan := hdel.tail true rfl
    (show serve twoBuckets betweenPages (.scan 1 "playground_a_b:*" 200)
      (.ok (0, ["playground_a_b:2"])) _ from ⟨rfl, second_page⟩) fun h => absurd rfl h
  have hredel := hrescan.tail true rfl
    (show serve twoBuckets betweenPages (.del ["playground_a_b:2"]) (.ok 1) _ from rfl)
    fun h => absurd rfl h
  obtain ⟨result, hresult, hempty⟩ :=
    teardown_empties_namespace (Nat.le_refl 2) rfl hredel rfl
  refine ⟨_, ?_, ?_, hempty ?_⟩
  · decide
  · decide
  · exact (Option.some.inj hresult).symm

end Loop

end PlaygroundNamespaceTeardown
