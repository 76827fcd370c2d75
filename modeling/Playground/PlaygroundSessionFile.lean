import Playground.FileReplacement
import Playground.InteractionPrograms
import Playground.PlaygroundSessionCodec

/-! # Writing the session file

`persist` down to the writes: the serialized snapshot goes to a temporary file in as many pieces as
the system takes, and a rename puts it in place. The process may stop after any of these steps. -/
namespace PlaygroundSessionFile

open FileReplacement
open InteractionPrograms
open PlaygroundManifest (Value)
open PlaygroundSessionCodec
open PlaygroundSessionManager
open PlaygroundSessions

/-- The serialization of the session list, for rows that their types can hold. -/
structure SnapshotText where
  fits : SessionRow → Prop
  serialize : List SessionRow → Option (List UInt8)
  deserialize : List UInt8 → Option (List SessionRow)
  reads : ∀ rows bytes, (∀ r ∈ rows, fits r) → serialize rows = some bytes →
    deserialize bytes = some rows

/-- Any JSON text that is read back as it was written serves as one. -/
def SnapshotText.ofJson (forms : TextForms) (render : Value → List UInt8)
    (parse : List UInt8 → Option Value)
    (law : ∀ rows, parse (render (encodeSnapshot forms rows)) = some (encodeSnapshot forms rows)) :
    SnapshotText where
  fits := Readable forms
  serialize rows := some (render (encodeSnapshot forms rows))
  deserialize bytes := (parse bytes).bind (decodeSnapshot forms)
  reads rows bytes hfits hbytes := by
    rw [← Option.some.inj hbytes, law, Option.bind_some]
    refine mapM_reads (fun _ _ hr hdoc => decodeSession_of hr hdoc) ?_ hfits
    rw [List.forall₂_map_right_iff]
    exact List.forall₂_same.mpr fun r _ => encodeSession_describes r

def sessionsPath (dataDir : String) : String := dataDir ++ "/playground/sessions.json"

/-- `path.with_extension("json.tmp")`. -/
def tmpPath (dataDir : String) : String := dataDir ++ "/playground/sessions.json.tmp"

inductive FileOp where
  | snapshot
  | create (path : String)
  | write (file : ℕ) (bytes : List UInt8)
  | rename (src dst : String)
  deriving DecidableEq, Repr

@[reducible] def FileOp.Result : FileOp → Type
  | .snapshot => List SessionRow
  | .create _ => Except String ℕ
  | .write _ _ => Except String ℕ
  | .rename _ _ => Except String Unit

abbrev FileProgram := Program FileOp FileOp.Result Unit

def writing (dataDir : String) (file : ℕ) (bytes : List UInt8) : FileProgram :=
  if bytes = [] then
    .request (.rename (tmpPath dataDir) (sessionsPath dataDir)) fun _ => .done ()
  else
    .request (.write file bytes) fun r =>
      match r with
      | .error _ => .done ()
      | .ok n => if n = 0 then .done () else writing dataDir file (bytes.drop n)
  termination_by bytes.length
  decreasing_by
    have hlen := List.length_pos_iff.mpr ‹bytes ≠ []›
    rw [List.length_drop]
    omega

def saving (dataDir : String) (json : List UInt8) : FileProgram :=
  .request (.create (tmpPath dataDir)) fun r =>
    match r with
    | .error _ => .done ()
    | .ok file => writing dataDir file json

def persist (text : SnapshotText) (dataDir : String) : FileProgram :=
  .request .snapshot fun rows =>
    match text.serialize rows with
    | none => .done ()
    | some json => saving dataDir json

structure FileState where
  disk : Disk String
  taken : List (List SessionRow)

/-- A failed write may have written some of its bytes. -/
def serve (text : SnapshotText) (s : FileState) : (op : FileOp) → op.Result → FileState → Prop
  | .snapshot, rows, s' => (∀ r ∈ rows, text.fits r) ∧ s' = { s with taken := s.taken ++ [rows] }
  | .create _, .error _, s' => s' = s
  | .create path, .ok file, s' => file = (s.disk.create path).1 ∧
    s' = { s with disk := (s.disk.create path).2 }
  | .write file bytes, .error _, s' => ∃ n, s' = { s with disk := s.disk.write file (bytes.take n) }
  | .write file bytes, .ok n, s' => s' = { s with disk := s.disk.write file (bytes.take n) }
  | .rename _ _, .error _, s' => s' = s
  | .rename src dst, .ok (), s' => s' = { s with disk := s.disk.rename src dst }

/-- A persist that has opened the temporary file and not yet renamed it. -/
def Inside : FileProgram → Prop
  | .request (.write _ _) _ => True
  | .request (.rename _ _) _ => True
  | _ => False

def bootRows (text : SnapshotText) (dataDir : String) (s : FileState) : Option (List SessionRow) :=
  (s.disk.read (sessionsPath dataDir)).bind text.deserialize

section Stages

variable {text : SnapshotText} {dataDir : String} {file : ℕ} {rest json : List UInt8}
  {rows : List SessionRow} {s s' : FileState}

theorem paths_ne (dataDir : String) : sessionsPath dataDir ≠ tmpPath dataDir := by
  intro h
  have hlen := congrArg String.length h
  unfold sessionsPath tmpPath at hlen
  rw [String.length_append, String.length_append, Nat.add_left_cancel_iff] at hlen
  exact absurd hlen (by decide)

def Taken (text : SnapshotText) (taken : List (List SessionRow)) (json : List UInt8) : Prop :=
  ∃ rows ∈ taken, (∀ r ∈ rows, text.fits r) ∧ text.serialize rows = some json

inductive Stage (text : SnapshotText) (dataDir : String) (s : FileState) : FileProgram → Prop where
  | start : Stage text dataDir s (persist text dataDir)
  | saving {json : List UInt8} (h : Taken text s.taken json) :
    Stage text dataDir s (saving dataDir json)
  | writing {file : ℕ} {rest json : List UInt8} (h : Taken text s.taken json)
    (hf : Filling (tmpPath dataDir) file rest json s.disk) :
    Stage text dataDir s (writing dataDir file rest)
  | done : Stage text dataDir s (.done ())

theorem inside_writing : Inside (writing dataDir file rest) := by
  rw [writing]
  split
  · trivial
  · trivial

theorem Taken.later {taken taken' : List (List SessionRow)} (h : Taken text taken json)
    (hsub : taken ⊆ taken') : Taken text taken' json := by
  obtain ⟨rows, hrows, hfits, htext⟩ := h
  exact ⟨rows, hsub hrows, hfits, htext⟩

theorem Stage.outside {p : FileProgram} (h : Stage text dataDir s p) (hp : ¬ Inside p)
    (hsub : s.taken ⊆ s'.taken) : Stage text dataDir s' p := by
  cases h with
  | start => exact .start
  | saving h => exact .saving (h.later hsub)
  | writing h hf => exact absurd inside_writing hp
  | done => exact .done

/-- The main file is what it was at the start or one of the snapshots. -/
def Whole (text : SnapshotText) (initial : Option (List UInt8)) (taken : List (List SessionRow))
    (content : Option (List UInt8)) : Prop :=
  content = initial ∨ ∃ json, content = some json ∧ Taken text taken json

/-- Stages move on with the steps of others that leave the disk alone. -/
theorem Stage.later {p : FileProgram} (h : Stage text dataDir s p) (hdisk : s'.disk = s.disk)
    (hsub : s.taken ⊆ s'.taken) : Stage text dataDir s' p := by
  cases h with
  | start => exact .start
  | saving h => exact .saving (h.later hsub)
  | writing h hf => exact .writing (h.later hsub) (hdisk ▸ hf)
  | done => exact .done

def IsCreate : FileOp → Prop
  | .create _ => True
  | _ => False

/-- What a step of a persist does: the main file stays whole, and only one that is inside or opens
the temporary file touches the disk. -/
structure Stepped (text : SnapshotText) (dataDir : String) (initial : Option (List UInt8))
    (p : FileProgram) (op : FileOp) (s : FileState) (p' : FileProgram) (s' : FileState) : Prop where
  intact : Intact (sessionsPath dataDir) (tmpPath dataDir) (Whole text initial s'.taken) s'.disk
  stage : Stage text dataDir s' p'
  taken : s.taken ⊆ s'.taken
  disk : ¬ Inside p → ¬ IsCreate op → s'.disk = s.disk
  inside : Inside p' → Inside p ∨ IsCreate op

theorem Stage.step {initial : Option (List UInt8)} {op : FileOp} {next : op.Result → FileProgram}
    {r : op.Result} (h : Stage text dataDir s (.request op next))
    (hd : Intact (sessionsPath dataDir) (tmpPath dataDir) (Whole text initial s.taken) s.disk)
    (hserve : serve text s op r s') :
    Stepped text dataDir initial (.request op next) op s (next r) s' := by
  generalize hp : Program.request op next = p at h
  cases h with
  | start =>
    cases hp
    obtain ⟨hfits, rfl⟩ := hserve
    have hsub : s.taken ⊆ s.taken ++ [r] := List.subset_append_left _ _
    refine ⟨hd.imp fun _ h => ?_, ?_, hsub, fun _ _ => rfl, ?_⟩
    · exact h.imp_right fun ⟨json, hjson, htaken⟩ => ⟨json, hjson, htaken.later hsub⟩
    · dsimp only
      cases htext : text.serialize r with
      | none => exact .done
      | some json => exact .saving ⟨r, by simp, hfits, htext⟩
    · dsimp only
      cases text.serialize r with
      | none => exact False.elim
      | some json => exact False.elim
  | saving h =>
    cases hp
    cases r with
    | error e =>
      obtain rfl : s' = s := hserve
      exact ⟨hd, .done, List.Subset.refl _, fun _ _ => rfl, False.elim⟩
    | ok file =>
      obtain ⟨rfl, rfl⟩ := hserve
      refine ⟨?_, .writing h (create_filling _), List.Subset.refl _, ?_, fun _ => Or.inr trivial⟩
      · exact create_intact (paths_ne dataDir) hd
      · exact fun _ hcreate => absurd trivial hcreate
  | writing h hf =>
    rename_i file rest json
    unfold PlaygroundSessionFile.writing at hp
    split at hp
    · rename_i hempty
      cases hp
      subst hempty
      cases r with
      | error e =>
        obtain rfl : s' = s := hserve
        exact ⟨hd, .done, List.Subset.refl _, fun _ _ => rfl, False.elim⟩
      | ok u =>
        obtain rfl : s' = _ := hserve
        refine ⟨?_, .done, List.Subset.refl _, ?_, False.elim⟩
        swap
        · exact fun hinside => absurd inside_writing hinside
        exact hf.rename_intact (paths_ne dataDir) hd (Or.inr ⟨_, rfl, h⟩)
    · cases hp
      cases r with
      | error e =>
        obtain ⟨n, rfl⟩ := hserve
        refine ⟨hf.write_intact hd _, .done, List.Subset.refl _, ?_, False.elim⟩
        exact fun hinside => absurd inside_writing hinside
      | ok n =>
        obtain rfl : s' = _ := hserve
        refine ⟨hf.write_intact hd _, ?_, List.Subset.refl _, ?_, fun _ => Or.inl inside_writing⟩
        · dsimp only
          split
          · exact .done
          · exact .writing h (hf.write n)
        · exact fun hinside => absurd inside_writing hinside
  | done => cases hp

end Stages

section Pools

variable {ι : Type} [DecidableEq ι] {text : SnapshotText} {dataDir : String}
  {initial : Option (List UInt8)}

abbrev PersistPool (ι : Type) := Pool ι FileOp FileOp.Result Unit FileState

/-- The steps are served, and a persist opens the temporary file when no other has it open. -/
def oneWriter (text : SnapshotText) : Guard ι FileOp FileOp.Result Unit FileState :=
  fun t i op r s' => serve text t.state op r s' ∧
    (IsCreate op → ∀ j, j ≠ i → ¬ Inside (t.thread j))

structure Orderly (text : SnapshotText) (dataDir : String) (initial : Option (List UInt8))
    (q : PersistPool ι) : Prop where
  intact : Intact (sessionsPath dataDir) (tmpPath dataDir) (Whole text initial q.state.taken)
    q.state.disk
  stage : ∀ i, Stage text dataDir q.state (q.thread i)
  alone : ∀ i j, Inside (q.thread i) → Inside (q.thread j) → i = j

theorem Orderly.step {q : PersistPool ι} (h : Orderly text dataDir initial q) {i : ι} {op : FileOp}
    {next : op.Result → FileProgram} {r : op.Result} {s' : FileState}
    (hthread : q.thread i = .request op next) (hguard : oneWriter text q i op r s') :
    Orderly text dataDir initial (q.advance i (next r) s') := by
  obtain ⟨hserve, hcreate⟩ := hguard
  have hstage := h.stage i
  rw [hthread] at hstage
  have hstep := hstage.step h.intact hserve
  rw [← hthread] at hstep
  -- While the thread is inside, or gets inside, the others are not.
  have hothers : Inside (q.thread i) ∨ IsCreate op → ∀ j, j ≠ i → ¬ Inside (q.thread j) := by
    rintro (hinside | hop) j hj hother
    · exact hj (h.alone j i hother hinside)
    · exact hcreate hop j hj hother
  refine ⟨hstep.intact, fun j => ?_, fun j k hj hk => ?_⟩
  · by_cases hji : j = i
    · subst hji
      rw [Pool.advance_self]
      exact hstep.stage
    · rw [Pool.advance_other _ _ _ hji]
      by_cases hbusy : Inside (q.thread i) ∨ IsCreate op
      · exact (h.stage j).outside (hothers hbusy j hji) hstep.taken
      · rw [not_or] at hbusy
        exact (h.stage j).later (hstep.disk hbusy.1 hbusy.2) hstep.taken
  · by_cases hji : j = i
    · by_cases hki : k = i
      · rw [hji, hki]
      · rw [hji, Pool.advance_self] at hj
        rw [Pool.advance_other _ _ _ hki] at hk
        exact absurd hk (hothers (hstep.inside hj) k hki)
    · rw [Pool.advance_other _ _ _ hji] at hj
      by_cases hki : k = i
      · rw [hki, Pool.advance_self] at hk
        exact absurd hj (hothers (hstep.inside hk) j hji)
      · rw [Pool.advance_other _ _ _ hki] at hk
        exact h.alone j k hj hk

end Pools

section Example

def emptyText : SnapshotText where
  fits _ := True
  serialize rows := match rows with
    | [] => some [91, 93]
    | _ => none
  deserialize bytes := if bytes = [91, 93] then some [] else none
  reads rows bytes _ h := by
    cases rows with
    | nil =>
      rw [← Option.some.inj h]
      rfl
    | cons r rows => cases h

theorem writing_nil (dataDir : String) (file : ℕ) : writing dataDir file [] =
    .request (.rename (tmpPath dataDir) (sessionsPath dataDir)) fun _ => .done () := by
  rw [writing, if_pos rfl]

theorem writing_cons (dataDir : String) (file : ℕ) (b : UInt8) (rest : List UInt8) :
    writing dataDir file (b :: rest) = .request (.write file (b :: rest)) fun r =>
      match r with
      | .error _ => .done ()
      | .ok n => if n = 0 then .done () else writing dataDir file ((b :: rest).drop n) := by
  rw [writing, if_neg (List.cons_ne_nil b rest)]
  refine congrArg (Program.request (FileOp.write file (b :: rest))) (funext fun r => ?_)
  cases r <;> rfl

def twoPersists : PersistPool Bool where
  thread _ := persist emptyText "/data"
  state := ⟨⟨fun _ => none, fun _ => [], 0⟩, []⟩

/-- Without that condition the second persist empties the file that the first is about to rename:
the session file ends up empty and the next boot finds no session. -/
theorem overlapping_persists_lose_the_file :
    ∃ q : PersistPool Bool,
      Execution (fun _ _ _ _ => True) (fun t _ op r s' => serve emptyText t.state op r s')
        twoPersists q ∧
      q.state.disk.read (sessionsPath "/data") = some [] ∧
      bootRows emptyText "/data" q.state = none := by
  have hstart : Execution (fun _ _ _ _ => True)
      (fun t _ op r s' => serve emptyText t.state op r s') twoPersists twoPersists := .refl _
  have hfirst := ((hstart.tail true rfl trivial
    (show serve emptyText _ .snapshot [] _ from ⟨fun _ _ => trivial, rfl⟩)).tail true rfl trivial
    (show serve emptyText _ (.create (tmpPath "/data")) (.ok 0) _ from ⟨rfl, rfl⟩)).tail true
    (writing_cons "/data" 0 91 [93]) trivial
    (show serve emptyText _ (.write 0 [91, 93]) (.ok 2) _ from rfl)
  have hsecond := (hfirst.tail false rfl trivial
    (show serve emptyText _ .snapshot [] _ from ⟨fun _ _ => trivial, rfl⟩)).tail false rfl trivial
    (show serve emptyText _ (.create (tmpPath "/data")) (.ok 0) _ from ⟨rfl, rfl⟩)
  have hrename := hsecond.tail true (writing_nil "/data" 0) trivial
    (show serve emptyText _ (.rename (tmpPath "/data") (sessionsPath "/data")) (.ok ()) _ from rfl)
  refine ⟨_, hrename, ?_, ?_⟩
  · decide
  · decide

end Example

end PlaygroundSessionFile
