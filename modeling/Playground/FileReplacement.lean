import Mathlib.Data.Nat.Notation
import Mathlib.Logic.Function.Basic

/-! # Replacing a file by a renamed one

A directory maps paths to files and a file is a list of bytes. Opening a path truncates the file it
names, writing goes to the open file whatever it is called by then, and a rename only changes the
directory. A new content that is written under a temporary path and then renamed is never seen in
part. -/
namespace FileReplacement

variable {Path : Type}

/-- The files from `fresh` on have not been created yet. -/
structure Disk (Path : Type) where
  entry : Path → Option ℕ
  content : ℕ → List UInt8
  fresh : ℕ

def Disk.read (d : Disk Path) (path : Path) : Option (List UInt8) := (d.entry path).map d.content

theorem read_eq {d : Disk Path} {path : Path} {file : ℕ} (h : d.entry path = some file) :
    d.read path = some (d.content file) := by
  rw [Disk.read, h, Option.map_some]

def Disk.write (d : Disk Path) (file : ℕ) (bytes : List UInt8) : Disk Path :=
  { d with content := Function.update d.content file (d.content file ++ bytes) }

@[simp] theorem write_entry (d : Disk Path) (file : ℕ) (bytes : List UInt8) :
    (d.write file bytes).entry = d.entry := rfl

@[simp] theorem write_content (d : Disk Path) (file : ℕ) (bytes : List UInt8) :
    (d.write file bytes).content file = d.content file ++ bytes := by
  simp [Disk.write]

theorem write_content_other (d : Disk Path) {file other : ℕ} (h : other ≠ file)
    (bytes : List UInt8) : (d.write file bytes).content other = d.content other := by
  simp [Disk.write, h]

/-- The main file is missing or has a content as it may be, and is not the temporary one. -/
structure Intact (main tmp : Path) (whole : Option (List UInt8) → Prop) (d : Disk Path) : Prop where
  whole : whole (d.read main)
  apart : ∀ file, d.entry main = some file → d.entry tmp ≠ some file
  known : ∀ path file, d.entry path = some file → file < d.fresh

/-- The temporary file is open and lacks the rest of a content. -/
structure Filling (tmp : Path) (file : ℕ) (rest bytes : List UInt8) (d : Disk Path) : Prop where
  entry : d.entry tmp = some file
  content : d.content file ++ rest = bytes

variable {main tmp : Path} {whole : Option (List UInt8) → Prop} {d : Disk Path} {file : ℕ}
  {rest bytes : List UInt8}

theorem Intact.imp {whole' : Option (List UInt8) → Prop} (hd : Intact main tmp whole d)
    (h : ∀ content, whole content → whole' content) : Intact main tmp whole' d :=
  ⟨h _ hd.whole, hd.apart, hd.known⟩

section Writing

theorem Filling.write_read_main (hd : Intact main tmp whole d) (hf : Filling tmp file rest bytes d)
    (more : List UInt8) : (d.write file more).read main = d.read main := by
  cases hmain : d.entry main with
  | none => rw [Disk.read, Disk.read, write_entry, hmain, Option.map_none, Option.map_none]
  | some other =>
    have hne : other ≠ file := by
      rintro rfl
      exact hd.apart other hmain hf.entry
    rw [read_eq (by rwa [write_entry]), read_eq hmain, write_content_other d hne]

theorem Filling.write_intact (hd : Intact main tmp whole d) (hf : Filling tmp file rest bytes d)
    (more : List UInt8) : Intact main tmp whole (d.write file more) :=
  ⟨(hf.write_read_main hd more).symm ▸ hd.whole, hd.apart, hd.known⟩

theorem Filling.write (hf : Filling tmp file rest bytes d) (n : ℕ) :
    Filling tmp file (rest.drop n) bytes (d.write file (rest.take n)) := by
  refine ⟨hf.entry, ?_⟩
  rw [write_content, List.append_assoc, List.take_append_drop]
  exact hf.content

end Writing

variable [DecidableEq Path]

def Disk.create (d : Disk Path) (path : Path) : ℕ × Disk Path :=
  match d.entry path with
  | some file => (file, { d with content := Function.update d.content file [] })
  | none => (d.fresh, ⟨Function.update d.entry path (some d.fresh),
      Function.update d.content d.fresh [], d.fresh + 1⟩)

def Disk.rename (d : Disk Path) (src dst : Path) : Disk Path :=
  { d with entry := Function.update (Function.update d.entry dst (d.entry src)) src none }

@[simp] theorem rename_content (d : Disk Path) (src dst : Path) :
    (d.rename src dst).content = d.content := rfl

@[simp] theorem rename_entry_src (d : Disk Path) (src dst : Path) :
    (d.rename src dst).entry src = none := by
  simp [Disk.rename]

theorem rename_entry_dst (d : Disk Path) {src dst : Path} (h : dst ≠ src) :
    (d.rename src dst).entry dst = d.entry src := by
  simp [Disk.rename, h]

theorem rename_entry_other (d : Disk Path) {src dst path : Path} (hsrc : path ≠ src)
    (hdst : path ≠ dst) : (d.rename src dst).entry path = d.entry path := by
  simp [Disk.rename, hsrc, hdst]

section Steps

theorem create_entry_main (h : main ≠ tmp) : (d.create tmp).2.entry main = d.entry main := by
  unfold Disk.create
  split
  · rfl
  · exact Function.update_of_ne h _ _

theorem create_read_main (h : main ≠ tmp) (hd : Intact main tmp whole d) :
    (d.create tmp).2.read main = d.read main := by
  cases hmain : d.entry main with
  | none => rw [Disk.read, Disk.read, create_entry_main h, hmain, Option.map_none, Option.map_none]
  | some file =>
    rw [read_eq ((create_entry_main h).trans hmain), read_eq hmain]
    unfold Disk.create
    split
    · rename_i other hother
      have hne : file ≠ other := fun heq => hd.apart file hmain (heq ▸ hother)
      simp only [Function.update_of_ne hne]
    · have hlt := hd.known main file hmain
      have hne : file ≠ d.fresh := by omega
      simp only [Function.update_of_ne hne]

theorem create_filling (bytes : List UInt8) :
    Filling tmp (d.create tmp).1 bytes bytes (d.create tmp).2 := by
  unfold Disk.create
  split
  · rename_i file hfile
    exact ⟨hfile, by simp⟩
  · exact ⟨Function.update_self .., by simp⟩

theorem create_intact (h : main ≠ tmp) (hd : Intact main tmp whole d) :
    Intact main tmp whole (d.create tmp).2 := by
  refine ⟨(create_read_main h hd).symm ▸ hd.whole, ?_, ?_⟩
  · intro file hmain
    rw [create_entry_main h] at hmain
    have hne := hd.apart file hmain
    have hlt := hd.known main file hmain
    unfold Disk.create
    split
    · exact hne
    · simp only [Function.update_self, ne_eq, Option.some.injEq]
      omega
  · intro path file hfile
    unfold Disk.create at hfile ⊢
    split at hfile
    · exact hd.known path file hfile
    · by_cases hpath : path = tmp
      · simp only [hpath, Function.update_self, Option.some.injEq] at hfile
        rw [← hfile]
        exact Nat.lt_succ_self _
      · simp only [Function.update_of_ne hpath] at hfile
        exact Nat.lt_succ_of_lt (hd.known path file hfile)

/-- The rename of a complete file puts the content in place as a whole. -/
theorem Filling.rename_read (h : main ≠ tmp) (hf : Filling tmp file [] bytes d) :
    (d.rename tmp main).read main = some bytes := by
  have hcontent := hf.content
  rw [List.append_nil] at hcontent
  rw [read_eq ((rename_entry_dst d h).trans hf.entry), rename_content, hcontent]

theorem Filling.rename_intact (h : main ≠ tmp) (hd : Intact main tmp whole d)
    (hf : Filling tmp file [] bytes d) (hbytes : whole (some bytes)) :
    Intact main tmp whole (d.rename tmp main) := by
  refine ⟨?_, ?_, ?_⟩
  · rw [hf.rename_read h]
    exact hbytes
  · intro other _
    rw [rename_entry_src]
    exact (Option.some_ne_none other).symm
  · intro path other hother
    by_cases htmp : path = tmp
    · rw [htmp, rename_entry_src] at hother
      cases hother
    · by_cases hmain : path = main
      · rw [hmain, rename_entry_dst d h] at hother
        exact hd.known tmp other hother
      · rw [rename_entry_other d htmp hmain] at hother
        exact hd.known path other hother

end Steps

end FileReplacement
