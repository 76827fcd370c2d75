import Playground.PlaygroundServer

/-! # The snapshot file

Mutators change the map under its lock, but each takes, writes and renames its snapshot on
its own, over one temp file. A snapshot that is overtaken by a newer one replaces it. -/
namespace PlaygroundSnapshotFile

open HashMaps
open InteractionPrograms
open PlaygroundManagerRuns
open PlaygroundOperations
open PlaygroundServer
open PlaygroundSessionManager
open PlaygroundSessions

/-- The calls that change the map and persist it; the result says whether they did. -/
inductive Mutator where
  | create (a : SessionManager.CreateArgs)
  | update (id : Uuid) (userId : String) (u : SessionUpdate)
  | endSession (id : Uuid) (userId : String)
  | sweepExpired

def Mutator.program (env : ServerEnv) : Mutator → Handler Bool
  | .create a => PlaygroundOperations.create env a >>= fun r => .done r.isOk
  | .update id userId u => PlaygroundOperations.update env id userId u >>= fun r =>
    .done (match r with
      | .error _ => false
      | .ok o => o != .panicked)
  | .endSession id userId => endLocked env id userId >>= fun r => .done r.isOk
  | .sweepExpired => PlaygroundOperations.sweepExpired env >>= fun expired => .done !expired.isEmpty

def Mutator.op : Mutator → ManagerOp
  | .create a => .create a
  | .update id userId u => .update id userId u
  | .endSession id userId => .endSession id userId
  | .sweepExpired => .sweepExpired

def Mutator.changed : (mu : Mutator) → mu.op.Result → Bool
  | .create _, r => r.isOk
  | .update _ _ _, r => match r with
    | .error _ => false
    | .ok o => o != .panicked
  | .endSession _ _, r => r.isOk
  | .sweepExpired, r => !r.isEmpty

-- The three steps of `persist`.
def publishing : Handler Bool := .request .renameTmp fun _ => .done true

def writing (rows : List SessionRow) : Handler Bool :=
  .request (.writeTmp rows) fun written => if written = true then publishing else .done true

def taking : Handler Bool := .request .snapshot writing

variable {env : ServerEnv} {path : String}

theorem persist_eq (hpath : env.persistencePath = some path) :
    (persist env >>= fun _ => .done true) = taking := by
  unfold persist taking
  rw [hpath]
  refine congrArg (Program.request Op.snapshot) (funext fun rows => ?_)
  refine congrArg (Program.request (Op.writeTmp rows)) (funext fun written => ?_)
  cases written <;> rfl

theorem program_eq (hpath : env.persistencePath = some path) (mu : Mutator) :
    mu.program env = .request (.manager mu.op) fun r =>
      if mu.changed r = true then taking else .done false := by
  rw [← persist_eq hpath]
  cases mu with
  | create a =>
    refine congrArg (Program.request (Op.manager (.create a))) (funext fun r => ?_)
    cases r with
    | error e => rfl
    | ok session => exact Program.bind_bind (persist env) _ _
  | update id userId u =>
    refine congrArg (Program.request (Op.manager (.update id userId u))) (funext fun r => ?_)
    cases r with
    | error e => rfl
    | ok o =>
      cases o with
      | panicked => rfl
      | done => exact Program.bind_bind (persist env) _ _
      | refused message => exact Program.bind_bind (persist env) _ _
  | endSession id userId =>
    refine congrArg (Program.request (Op.manager (.endSession id userId))) (funext fun r => ?_)
    cases r with
    | error e => rfl
    | ok session => exact Program.bind_bind (persist env) _ _
  | sweepExpired =>
    refine congrArg (Program.request (Op.manager .sweepExpired)) (funext fun r => ?_)
    cases r with
    | nil => rfl
    | cons s rest => exact Program.bind_bind (persist env) _ _

section Rows

variable {sha256 : String → Digest} {m : SessionManager} {now : Clock}

theorem values_insert_same {id : Uuid} {s : Session} (h : m.sessions.lookup id = some s) :
    (values (m.sessions.insert id s)).Perm (values m.sessions) := by
  refine List.Perm.map _ ?_
  refine (List.perm_ext_iff_of_nodup (m.sessions.insert id s).nodupKeys.nodup
    m.sessions.nodupKeys.nodup).mpr ?_
  rintro ⟨j, t⟩
  rw [mem_entries_iff, mem_entries_iff, lookup_insert_iff]
  by_cases hj : j = id
  · subst hj
    simp [h]
  · simp [hj]

theorem unchanged_rows (sha256 : String → Digest) (m : SessionManager) (now : Clock) (mu : Mutator)
    (h : mu.changed (mu.op.run sha256 m now).1 = false) :
    (mu.op.run sha256 m now).2.rows.Perm m.rows := by
  cases mu with
  | create a =>
    rcases create_cases sha256 m now a with
      ⟨e, he⟩ | ⟨ttl, _, _, he⟩
    · simp only [Mutator.op, ManagerOp.run, he]
      exact List.Perm.refl _
    · simp only [Mutator.changed, Mutator.op, ManagerOp.run, he] at h
      cases h
  | update id userId u =>
    rcases update_cases (m := m) id userId (u.apply now) with ⟨e, he⟩ | ⟨s, hs, _, he⟩
    · simp only [Mutator.op, ManagerOp.run, he]
      exact List.Perm.refl _
    · simp only [Mutator.changed, Mutator.op, ManagerOp.run, he] at h
      have hsame := apply_panicked (by simpa using h)
      simp only [Mutator.op, ManagerOp.run, he, hsame]
      exact (values_insert_same hs).map _
  | endSession id userId =>
    rcases endSession_cases (m := m) id userId with ⟨e, he⟩ | ⟨s, _, _, he⟩
    · simp only [Mutator.op, ManagerOp.run, he]
      exact List.Perm.refl _
    · simp only [Mutator.changed, Mutator.op, ManagerOp.run, he] at h
      cases h
  | sweepExpired =>
    have hempty : (m.sweepExpired now).1 = [] := by
      simpa [Mutator.changed, Mutator.op, ManagerOp.run] using h
    have hnone : ∀ id s, m.sessions.lookup id = some s → s.isExpired now = false := by
      intro id s hs
      by_contra hx
      have hmem : { s with status := .ended } ∈ (m.sweepExpired now).1 :=
        mem_sweepExpired.mpr ⟨id, s, hs, by simpa using hx, rfl⟩
      rw [hempty] at hmem
      cases hmem
    refine List.Perm.map _ (List.Perm.map _ ?_)
    refine (List.perm_ext_iff_of_nodup (AList.nodupKeys _).nodup m.sessions.nodupKeys.nodup).mpr ?_
    rintro ⟨j, t⟩
    rw [mem_entries_iff, mem_entries_iff]
    exact sweepExpired_sessions.trans ⟨fun ht => ht.1, fun ht => ⟨ht, hnone j t ht⟩⟩

end Rows

section Pools

variable {ι : Type} [DecidableEq ι] {sha256 : String → Digest} {outside : Outside}

abbrev MutatorPool (ι : Type) := Pool ι Op Op.Result Bool ServerState

def InSync (s : ServerState) : Prop := s.decoded.Perm s.manager.rows

def FilesWork : Guard ι Op Op.Result Bool ServerState
  | _, _, .writeTmp _, r, _ => r = true
  | _, _, .renameTmp, r, _ => r = true
  | _, _, _, _, _ => True

/-- Another mutator has yet to take its snapshot, or to write one that matches the map. -/
def Covered (q : MutatorPool ι) (i : ι) : Prop :=
  ∃ j, j ≠ i ∧ (q.thread j = taking ∨
    ∃ rows, q.thread j = writing rows ∧ rows.Perm q.state.manager.rows)

def NoStaleWrite : Guard ι Op Op.Result Bool ServerState
  | q, i, .writeTmp rows, _, _ => rows.Perm q.state.manager.rows ∨ Covered q i
  | _, _, _, _, _ => True

def FreshTmp (s : ServerState) : Prop :=
  ∃ rows, s.tmp = some (some rows) ∧ rows.Perm s.manager.rows

/-- The present map is in the file, or some mutator is on its way to put it there. -/
def Secured (q : MutatorPool ι) : Prop :=
  (∃ j, q.thread j = taking) ∨
    (∃ j rows, q.thread j = writing rows ∧ rows.Perm q.state.manager.rows) ∨
    (FreshTmp q.state ∧ ∃ j, q.thread j = publishing) ∨
    (InSync q.state ∧ ∀ j, q.thread j = publishing → q.state.tmp = none ∨ FreshTmp q.state)

inductive Stage (env : ServerEnv) (mu : Mutator) : Handler Bool → Prop where
  | start : Stage env mu (mu.program env)
  | taking : Stage env mu taking
  | writing (rows) : Stage env mu (writing rows)
  | publishing : Stage env mu publishing
  | done (b) : Stage env mu (.done b)

structure Untouched (env : ServerEnv) (mutators : ι → Mutator) (p q : MutatorPool ι) :
    Prop where
  threads : ∀ j, q.thread j = (mutators j).program env ∨ q.thread j = .done false
  file : q.state.file = p.state.file
  rows : q.state.manager.rows.Perm p.state.manager.rows

structure Invariant (env : ServerEnv) (mutators : ι → Mutator) (p q : MutatorPool ι) :
    Prop where
  stage : ∀ j, Stage env (mutators j) (q.thread j)
  secured : Untouched env mutators p q ∨ Secured q

variable {mutators : ι → Mutator} {p q : MutatorPool ι} {i : ι}

theorem Stage.advance (hs : ∀ j, Stage env (mutators j) (q.thread j)) {rest : Handler Bool}
    (hr : Stage env (mutators i) rest) (s : ServerState) :
    ∀ j, Stage env (mutators j) ((q.advance i rest s).thread j) := by
  intro j
  by_cases hj : j = i
  · subst hj
    simpa using hr
  · rw [Pool.advance_other _ _ _ hj]
    exact hs j

/-- A mutator's change to the map: it goes on to take a snapshot, or nothing changed. -/
theorem mutate_step (hpath : env.persistencePath = some path)
    (h : Invariant env mutators p q) (hi : q.thread i = (mutators i).program env) {now : Clock}
    {r : (mutators i).op.Result}
    (hr : r = ((mutators i).op.run sha256 q.state.manager now).1) :
    Invariant env mutators p (q.advance i
      (if (mutators i).changed r = true then taking else .done false)
      { q.state with
        manager := ((mutators i).op.run sha256 q.state.manager now).2, clock := now }) := by
  by_cases hc : (mutators i).changed r = true
  · rw [if_pos hc]
    exact ⟨Stage.advance h.stage .taking _, Or.inr (Or.inl ⟨i, by simp⟩)⟩
  · rw [if_neg hc]
    have hrows := unchanged_rows sha256 q.state.manager now (mutators i)
      (by rw [← hr]; simpa using hc)
    have hother : ∀ j t, t ≠ (mutators i).program env → q.thread j = t →
        (q.advance i (.done false) { q.state with
          manager := ((mutators i).op.run sha256 q.state.manager now).2, clock := now }).thread j =
          t := by
      intro j t ht hj
      have hne : j ≠ i := by
        rintro rfl
        exact ht (hj.symm.trans hi)
      rw [Pool.advance_other _ _ _ hne, hj]
    have hstart := program_eq hpath (mutators i)
    refine ⟨Stage.advance h.stage (.done false) _, ?_⟩
    rcases h.secured with hu | ⟨j, hj⟩ | ⟨j, rows, hj, hfresh⟩ | ⟨⟨rows, htmp, hfresh⟩, j, hj⟩ |
      ⟨hsync, htmp⟩
    · refine Or.inl ⟨?_, hu.file, hrows.trans hu.rows⟩
      intro j
      by_cases hj : j = i
      · subst hj
        exact Or.inr (by simp)
      · rw [Pool.advance_other _ _ _ hj]
        exact hu.threads j
    · exact Or.inr (Or.inl ⟨j, hother j _ (by rw [hstart]; simp [taking]) hj⟩)
    · exact Or.inr (Or.inr (Or.inl ⟨j, rows, hother j _ (by rw [hstart]; simp [writing]) hj,
        hfresh.trans hrows.symm⟩))
    · exact Or.inr (Or.inr (Or.inr (Or.inl ⟨⟨rows, htmp, hfresh.trans hrows.symm⟩, j,
        hother j _ (by rw [hstart]; simp [publishing]) hj⟩)))
    · refine Or.inr (Or.inr (Or.inr (Or.inr ⟨hsync.trans hrows.symm, ?_⟩)))
      intro j hj
      have hne : j ≠ i := by
        rintro rfl
        simp [publishing] at hj
      rw [Pool.advance_other _ _ _ hne] at hj
      rcases htmp j hj with hn | ⟨rows, htmp, hfresh⟩
      · exact Or.inl hn
      · exact Or.inr ⟨rows, htmp, hfresh.trans hrows.symm⟩

omit [DecidableEq ι] in
theorem not_untouched (hpath : env.persistencePath = some path) (hi : q.thread i = taking ∨
    (∃ rows, q.thread i = writing rows) ∨ q.thread i = publishing) :
    ¬ Untouched env mutators p q := by
  intro hu
  have hstart := program_eq hpath (mutators i)
  rcases hu.threads i with ht | ht
  · rw [hstart] at ht
    rcases hi with hi | ⟨rows, hi⟩ | hi <;> rw [hi] at ht <;> cases ht
  · rcases hi with hi | ⟨rows, hi⟩ | hi <;> rw [hi] at ht <;> cases ht

theorem snapshot_step (h : Invariant env mutators p q) :
    Invariant env mutators p (q.advance i (writing q.state.manager.rows) q.state) :=
  ⟨Stage.advance h.stage (.writing _) _,
    Or.inr (Or.inr (Or.inl ⟨i, _, by simp, List.Perm.refl _⟩))⟩

theorem write_step {rows : List SessionRow} (h : Invariant env mutators p q)
    (hg : rows.Perm q.state.manager.rows ∨ Covered q i) :
    Invariant env mutators p
      (q.advance i publishing { q.state with tmp := some (some rows) }) := by
  refine ⟨Stage.advance h.stage .publishing _, Or.inr ?_⟩
  rcases hg with hfresh | ⟨j, hne, hj⟩
  · exact Or.inr (Or.inr (Or.inl ⟨⟨rows, rfl, hfresh⟩, i, by simp⟩))
  · have hother := Pool.advance_other q publishing { q.state with tmp := some (some rows) } hne
    rcases hj with hj | ⟨rows', hj, hfresh⟩
    · exact Or.inl ⟨j, hother.trans hj⟩
    · exact Or.inr (Or.inl ⟨j, rows', hother.trans hj, hfresh⟩)

theorem rename_step (hpath : env.persistencePath = some path) (h : Invariant env mutators p q)
    (hi : q.thread i = publishing) {content : Option (List SessionRow)}
    (htmp : q.state.tmp = some content) :
    Invariant env mutators p
      (q.advance i (.done true) { q.state with file := some content, tmp := none }) := by
  refine ⟨Stage.advance h.stage (.done true) _, Or.inr ?_⟩
  have hother : ∀ j t, t ≠ publishing → q.thread j = t →
      (q.advance i (.done true) { q.state with file := some content, tmp := none }).thread j =
        t := by
    intro j t ht hj
    have hne : j ≠ i := by
      rintro rfl
      exact ht (hj.symm.trans hi)
    rw [Pool.advance_other _ _ _ hne, hj]
  have hpublished : FreshTmp q.state →
      InSync { q.state with file := some content, tmp := none } := by
    rintro ⟨rows, hrows, hfresh⟩
    rw [htmp, Option.some.injEq] at hrows
    subst hrows
    exact hfresh
  rcases h.secured with hu | ⟨j, hj⟩ | ⟨j, rows, hj, hfresh⟩ | ⟨hfresh, _⟩ | ⟨_, hall⟩
  · exact absurd hu (not_untouched hpath (Or.inr (Or.inr hi)))
  · exact Or.inl ⟨j, hother j _ (by simp [taking, publishing]) hj⟩
  · exact Or.inr (Or.inl ⟨j, rows, hother j _ (by simp [writing, publishing]) hj, hfresh⟩)
  · exact Or.inr (Or.inr (Or.inr ⟨hpublished hfresh, fun _ _ => Or.inl rfl⟩))
  · rcases hall i hi with hnone | hfresh
    · rw [htmp] at hnone
      cases hnone
    · exact Or.inr (Or.inr (Or.inr ⟨hpublished hfresh, fun _ _ => Or.inl rfl⟩))

def InOrder : Guard ι Op Op.Result Bool ServerState :=
  fun q i op r s => FilesWork q i op r s ∧ NoStaleWrite q i op r s

theorem pool_invariant (hpath : env.persistencePath = some path)
    (hp : ∀ j, p.thread j = (mutators j).program env)
    (h : Execution (ServerStep sha256 outside) InOrder p q) : Invariant env mutators p q := by
  refine h.invariant (I := Invariant env mutators p) ?_ ?_
  · exact ⟨fun j => hp j ▸ .start, Or.inl ⟨fun j => Or.inl (hp j), rfl, List.Perm.refl _⟩⟩
  · intro q i op next r s hinv ht hs hg
    have hstage := hinv.stage i
    generalize hthread : q.thread i = t at hstage
    cases hstage with
    | start =>
      rw [hthread, program_eq hpath] at ht
      cases ht
      obtain ⟨now, _, hr, rfl⟩ := hs
      exact mutate_step hpath hinv hthread hr
    | taking =>
      rw [hthread] at ht
      cases ht
      obtain ⟨rfl, rfl⟩ := hs
      exact snapshot_step hinv
    | writing rows =>
      rw [hthread] at ht
      cases ht
      obtain ⟨hw, hstale⟩ := hg
      rcases hs with ⟨rfl, rfl⟩ | ⟨rfl, _⟩
      · exact write_step hinv hstale
      · cases hw
    | publishing =>
      rw [hthread] at ht
      cases ht
      rcases hs with ⟨rfl, content, htmp, rfl⟩ | ⟨rfl, _⟩
      · exact rename_step hpath hinv hthread htmp
      · cases hg.1
    | done b =>
      rw [hthread] at ht
      cases ht

/-- When all mutators have finished, the file decodes to the sessions in the map, if it did
at the start or any of them changed the map. -/
theorem file_in_sync (env : ServerEnv) (hpath : env.persistencePath = some path)
    (mutators : ι → Mutator) (hp : ∀ j, p.thread j = (mutators j).program env)
    (h : Execution (ServerStep sha256 outside) InOrder p q) (hdone : q.Finished)
    (hsync : InSync p.state ∨ ∃ j, q.thread j = .done true) : InSync q.state := by
  rcases (pool_invariant hpath hp h).secured with hu | ⟨j, hj⟩ | ⟨j, rows, hj, _⟩ | ⟨_, j, hj⟩ |
    ⟨hfile, _⟩
  · rcases hsync with hsync | ⟨j, hj⟩
    · have hfile : InSync q.state := by
        unfold InSync ServerState.decoded
        rw [hu.file]
        exact hsync.trans hu.rows.symm
      exact hfile
    · rcases hu.threads j with ht | ht
      · rw [program_eq hpath, hj] at ht
        cases ht
      · rw [hj] at ht
        cases ht
  · obtain ⟨b, hb⟩ := hdone j
    rw [hj] at hb
    cases hb
  · obtain ⟨b, hb⟩ := hdone j
    rw [hj] at hb
    cases hb
  · obtain ⟨b, hb⟩ := hdone j
    rw [hj] at hb
    cases hb
  · exact hfile

end Pools

section Overlap

/-- Two users' sessions are created at the same time. -/
def overlapping : Bool → Mutator
  | false => .create ⟨1, "u1", none, "mongo-cdc", some minTtl⟩
  | true => .create ⟨2, "u2", none, "mongo-cdc", some minTtl⟩

def overlappingCreates : MutatorPool Bool :=
  { thread := fun j => (overlapping j).program configured
    state :=
      { manager := .new oneScenario true defaultTtl
        clock := atSecond 0
        file := none
        tmp := none
        world := [] } }

def quiet : Outside :=
  { reply := fun _ c r => r = accepted c
    creates := fun _ => []
    removes := fun _ _ => false }

theorem overlapping_finished {q : MutatorPool Bool} (hfalse : q.thread false = .done true)
    (htrue : q.thread true = .done true) : q.Finished := by
  intro j
  cases j with
  | false => exact ⟨true, hfalse⟩
  | true => exact ⟨true, htrue⟩

/-- The first snapshot is taken before the second user's session exists and written after
it, while the second mutator has yet to take its own. -/
theorem file_in_sync_overlapping : ∃ q, Execution (ServerStep (fun _ => 0) quiet) InOrder
    overlappingCreates q ∧ q.Finished ∧ InSync q.state := by
  obtain ⟨q, hrun, hfalse, htrue⟩ : ∃ q, Execution (ServerStep (fun _ => 0) quiet) InOrder
      overlappingCreates q ∧ q.thread false = .done true ∧ q.thread true = .done true := by
    have hlate : atSecond 0 ≤ atSecond 0 := Clock.le_refl _
    have h1 : Execution (ServerStep (fun _ => 0) quiet) InOrder overlappingCreates _ :=
      .tail false (.refl overlappingCreates) rfl ⟨atSecond 0, hlate, rfl, rfl⟩ ⟨trivial, trivial⟩
    have h2 := h1.tail false rfl ⟨rfl, rfl⟩ ⟨trivial, trivial⟩
    have h3 := h2.tail true rfl ⟨atSecond 0, hlate, rfl, rfl⟩ ⟨trivial, trivial⟩
    have h4 := h3.tail false rfl (Or.inl ⟨rfl, rfl⟩)
      ⟨rfl, Or.inr ⟨true, by decide,
        Or.inl ((Program.bind_bind (persist configured) _ _).trans (persist_eq rfl))⟩⟩
    have h5 := h4.tail false rfl (Or.inl ⟨rfl, _, rfl, rfl⟩) ⟨rfl, trivial⟩
    have h6 := h5.tail true rfl ⟨rfl, rfl⟩ ⟨trivial, trivial⟩
    have h7 := h6.tail true rfl (Or.inl ⟨rfl, rfl⟩) ⟨rfl, Or.inl (List.Perm.refl _)⟩
    have h8 := h7.tail true rfl (Or.inl ⟨rfl, _, rfl, rfl⟩) ⟨rfl, trivial⟩
    exact ⟨_, h8, rfl, rfl⟩
  have hdone := overlapping_finished hfalse htrue
  exact ⟨q, hrun, hdone,
    file_in_sync configured rfl overlapping (fun _ => rfl) hrun hdone (Or.inr ⟨true, htrue⟩)⟩

theorem replay_filesWork {script : List (Bool × Clock)} {p q : MutatorPool Bool}
    {answer : List Resource → (c : ExternalCall) → c.Result} {sha256 : String → Digest}
    {outside : Outside} (hanswer : ∀ world c, outside.reply world c (answer world c))
    (h : p.replay (fun now p op => p.state.carryOut sha256 outside answer now op) script = some q) :
    Execution (ServerStep sha256 outside) FilesWork p q := by
  refine Pool.replay_execution ?_ script h
  intro now p i op r s' hr
  refine ⟨carryOut_step hanswer hr, ?_⟩
  cases op with
  | writeTmp rows =>
    cases hr
    rfl
  | renameTmp =>
    obtain ⟨content, _, heq⟩ := Option.map_eq_some_iff.mp hr
    cases heq
    rfl
  | manager | snapshot | tryConsume | metric | readClock | actionStart | external => trivial

/-- Both sessions are in the map when the first one's snapshot, taken before the second was
created, is published last. -/
theorem overtaken_snapshot_published : ¬ ∀ (sha256 : String → Digest) (outside : Outside)
    (env : ServerEnv) (mutators : Bool → Mutator) (p q : MutatorPool Bool),
    env.persistencePath.isSome = true → InSync p.state →
    (∀ j, p.thread j = (mutators j).program env) →
    Execution (ServerStep sha256 outside) FilesWork p q → q.Finished → InSync q.state := by
  intro h
  obtain ⟨q, hq⟩ : ∃ q, overlappingCreates.replay
      (fun now p op => p.state.carryOut (fun _ => 0) quiet (fun _ => accepted) now op)
      ([false, false, true, true, true, true, false, false].map fun j => (j, atSecond 0)) =
        some q := ⟨_, rfl⟩
  have hrun := replay_filesWork (fun _ _ => rfl) hq
  cases hq
  have hsync := h (fun _ => 0) quiet configured overlapping overlappingCreates _ rfl
    (List.Perm.refl _) (fun _ => rfl) hrun (overlapping_finished rfl rfl)
  exact absurd hsync.length_eq (by decide)

end Overlap

end PlaygroundSnapshotFile
