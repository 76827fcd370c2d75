import Playground.Base64
import Playground.RustText

/-! # Shell pipelines of plain words

Commands between bars, each a list of words between blanks. A line with any character of another
meaning to the shell is refused, as is a command that starts with an assignment or a reserved
word, so what is read is what the shell reads. -/
namespace ShellPipelines

abbrev Word := List Char

def plainChar (c : Char) : Bool := c.isAlphanum || "/._-=+:,@".toList.contains c

/-- What a command consists of. -/
def commandChar (c : Char) : Bool := plainChar c || c == ' '

def words (text : List Char) : List Word := (text.splitOn ' ').filter fun w => !w.isEmpty

def reserved : List Word :=
  ["case", "coproc", "do", "done", "elif", "else", "esac", "fi", "for", "function", "if", "select",
    "then", "time", "until", "while"].map String.toList

def named : List Word → Bool
  | [] => false
  | name :: _ => !name.contains '=' && !reserved.contains name

def read (line : List Char) : Option (List (List Word)) :=
  let commands := (line.splitOn '|').map words
  if line.all (fun c => commandChar c || c == '|') && commands.all named then some commands
  else none

/-- What a program writes, given its words and its input; `none` where it does not say. -/
abbrev Programs := List Word → List UInt8 → Option (List UInt8)

/-- The words of the last command and the input that reaches it through the others. -/
def feed (run : Programs) : List (List Word) → List UInt8 → Option (List Word × List UInt8)
  | [], _ => none
  | [last], input => some (last, input)
  | command :: rest, input => (run command input).bind (feed run rest)

section Reading

variable {parts : List (List Char)} {text : List Char} {c : Char}

theorem words_append (first last : List Char) :
    words (first ++ ' ' :: last) = words first ++ words last := by
  rw [words, List.splitOn_append_cons_self, List.filter_append]
  rfl

theorem words_intercalate (hparts : parts ≠ []) (hblank : ∀ part ∈ parts, ' ' ∉ part) :
    words ([' '].intercalate parts) = parts.filter fun w => !w.isEmpty := by
  rw [words, List.splitOn_intercalate ' ' hblank hparts]

theorem not_mem_of_all (h : text.all commandChar = true) (hc : commandChar c = false) :
    c ∉ text := by
  intro hmem
  rw [List.all_eq_true.mp h c hmem] at hc
  cases hc

theorem mem_intercalate {sep : Char} (h : c ∈ [sep].intercalate parts) :
    c = sep ∨ ∃ part ∈ parts, c ∈ part := by
  induction parts with
  | nil => cases h
  | cons part parts ih =>
    by_cases hlast : parts = []
    · subst hlast
      rw [List.intercalate_singleton] at h
      exact Or.inr ⟨part, List.mem_cons_self, h⟩
    · rw [List.intercalate_cons_of_ne_nil hlast, List.mem_append, List.mem_append,
        List.mem_singleton] at h
      rcases h with (h | h) | h
      · exact Or.inr ⟨part, List.mem_cons_self, h⟩
      · exact Or.inl h
      · rcases ih h with h | ⟨other, hother, h⟩
        · exact Or.inl h
        · exact Or.inr ⟨other, List.mem_cons_of_mem _ hother, h⟩

theorem read_intercalate (hparts : parts ≠ [])
    (hchars : ∀ part ∈ parts, part.all commandChar = true)
    (hnamed : ∀ part ∈ parts, named (words part) = true) :
    read (['|'].intercalate parts) = some (parts.map words) := by
  have hbar : ∀ part ∈ parts, '|' ∉ part := fun part hpart =>
    not_mem_of_all (hchars part hpart) (by decide)
  have hline : (['|'].intercalate parts).all (fun c => commandChar c || c == '|') = true := by
    refine List.all_eq_true.mpr fun c hc => ?_
    rcases mem_intercalate hc with rfl | ⟨part, hpart, hc⟩
    · rfl
    · rw [List.all_eq_true.mp (hchars part hpart) c hc]
      rfl
  have hall : (parts.map words).all named = true := by
    refine List.all_eq_true.mpr fun command hcommand => ?_
    obtain ⟨part, hpart, rfl⟩ := List.mem_map.mp hcommand
    exact hnamed part hpart
  rw [read, List.splitOn_intercalate '|' hbar hparts, hline, hall]
  rfl

end Reading

section Utilities

def ascii (text : List Char) : List UInt8 := text.map fun c => UInt8.ofNat c.toNat

def echoed (args : List Word) : List Char := [' '].intercalate args ++ ['\n']

/-- The line breaks of the input do not count. -/
def decoded (A : Base64.Alphabet) (input : List UInt8) : Option (List UInt8) :=
  Base64.decode A ((input.map fun b => Char.ofNat b.toNat).filter fun c => c != '\n')

/-- `echo` without options and `base64 -d`. -/
def utilities (A : Base64.Alphabet) : Programs := fun command input =>
  if command = ["base64".toList, "-d".toList] then decoded A input
  else
    match command with
    | [] => none
    | name :: args =>
      if name = "echo".toList ∧ args.all (fun w => w.head? != some '-') then
        some (ascii (echoed args))
      else none

variable {A : Base64.Alphabet} {text : List Char}

theorem ascii_chars (h : ∀ c ∈ text, c.toNat < 128) :
    (ascii text).map (fun b => Char.ofNat b.toNat) = text := by
  rw [ascii, List.map_map]
  refine (List.map_congr_left fun c hc => ?_).trans (List.map_id text)
  have hbyte : (UInt8.ofNat c.toNat).toNat = c.toNat := by
    rw [UInt8.toNat_ofNat']
    exact Nat.mod_eq_of_lt ((h c hc).trans (by decide))
  simp only [Function.comp_apply, hbyte, Char.ofNat_toNat, id_eq]

/-- A text sent through `base64 -d` arrives as what it encodes. -/
theorem decoded_echoed {bytes : List UInt8} {args : List Word}
    (hargs : [' '].intercalate args = Base64.encode A bytes)
    (hchars : ∀ c ∈ Base64.encode A bytes, c.toNat < 128 ∧ c ≠ '\n') :
    decoded A (ascii (echoed args)) = some bytes := by
  have hascii : ∀ c ∈ echoed args, c.toNat < 128 := by
    intro c hc
    rcases List.mem_append.mp hc with hc | hc
    · exact (hchars c (hargs ▸ hc)).1
    · rw [List.mem_singleton.mp hc]
      decide
  have hkept : (Base64.encode A bytes).filter (fun c => c != '\n') = Base64.encode A bytes :=
    List.filter_eq_self.mpr fun c hc => bne_iff_ne.mpr (hchars c hc).2
  rw [decoded, ascii_chars hascii, echoed, List.filter_append, hargs, hkept,
    show ['\n'].filter (fun c => c != '\n') = [] from rfl, List.append_nil, Base64.decode_encode]

end Utilities

end ShellPipelines
