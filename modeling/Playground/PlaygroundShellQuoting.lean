import Playground.PlaygroundTeardownFrame

/-! # Quoted texts in command lines

What the shell reads where `shell_quote` has written, and the words of the command that removes
the files of a namespace. -/
namespace PlaygroundShellQuoting

open InteractionPrograms
open PlaygroundCleanup
open PlaygroundOperations
open PlaygroundTeardownFrame
open PlaygroundSessions
open ShellWords

/-- A quoted text with pieces before and after it. -/
def embedded (before : List Piece) (s : String) (after : List Piece) : List Char :=
  before.flatMap Piece.written ++ ((shellQuote s).toList ++ after.flatMap Piece.written)

def embeddedText (before : List Piece) (s : String) (after : List Piece) : List Char :=
  before.flatMap Piece.text ++ (s.toList ++ after.flatMap Piece.text)

theorem embedded_pieces (before : List Piece) (s : String) (after : List Piece) :
    embedded before s after = (before ++ .quoted s.toList :: after).flatMap Piece.written := by
  rw [List.flatMap_append, List.flatMap_cons, embedded, shellQuote_toList]
  rfl

theorem embeddedText_pieces (before : List Piece) (s : String) (after : List Piece) :
    embeddedText before s after = (before ++ .quoted s.toList :: after).flatMap Piece.text := by
  rw [List.flatMap_append, List.flatMap_cons]
  rfl

/-- The words `mc` is to receive, and the `true` after each removal. -/
def purgeWords (endpoint access secret warehouse namespaceName : String) :
    List (List (List Char)) :=
  let remove (bucket : String) := ["mc", "rm", "--recursive", "--force",
    "local/" ++ bucket ++ "/" ++ namespaceName ++ "/"]
  [["mc", "alias", "set", "local", endpoint, access, secret], remove warehouse, ["true"],
    remove "file-ingestion", ["true"]].map (List.map String.toList)

theorem purgeCommand_words (endpoint access secret warehouse namespaceName : String) :
    commands (purgeCommand endpoint access secret warehouse namespaceName).toList =
      some (purgeWords endpoint access secret warehouse namespaceName) := by
  have hslash : "/".toList = ['/'] := by decide
  rw [purgeCommand_commands, purgeWords]
  simp only [List.map_cons, List.map_nil, String.toList_append, List.append_assoc, hslash]
  rfl

/-- Inside a word or between words, whatever pieces are next to it, quoted text is read as itself
and the shell is unquoted after it. So the purge runs `mc` with the words it was built from, for
every value of the variables and every namespace. -/
theorem shell_quote_round_trip (before after : List Piece) (s : String) :
    (∀ w ts, Lexer.run ⟨.plain, w, ts⟩ (embedded before s after) =
      some ⟨.plain, some ((embeddedText before s after).reverse ++ w.getD []), ts⟩) ∧
    commands (embedded before s after) = some [[embeddedText before s after]] ∧
    (∀ endpoint access secret warehouse namespaceName,
      commands (purgeCommand endpoint access secret warehouse namespaceName).toList =
        some (purgeWords endpoint access secret warehouse namespaceName)) ∧
    ∀ env namespaceName ok, (purgeS3Namespace env namespaceName).Performs ok
        (purgeOps env namespaceName) ∧
      ∀ op ∈ purgeOps env namespaceName, ∃ access secret line, minioAccess env = some access ∧
        minioSecret env = some secret ∧ op = .external (.command "bash" ["-c", line]) ∧
          commands line.toList = some (purgeWords (minioEndpoint env) access secret
            (warehouseBucket env) namespaceName) := by
  have hne : before ++ .quoted s.toList :: after ≠ [] :=
    List.append_ne_nil_of_right_ne_nil _ (List.cons_ne_nil _ _)
  refine ⟨?_, ?_, purgeCommand_words, ?_⟩
  · intro w ts
    rw [embedded_pieces, embeddedText_pieces]
    exact run_pieces hne w ts
  · rw [embedded_pieces, embeddedText_pieces]
    exact commands_pieces hne
  · intro env namespaceName ok
    refine ⟨performs_purge env namespaceName, ?_⟩
    intro op hop
    obtain ⟨access, secret, haccess, hsecret, rfl⟩ := (mem_purgeOps env).mp hop
    exact ⟨access, secret, _, haccess, hsecret, rfl, purgeCommand_words _ _ _ _ _⟩

end PlaygroundShellQuoting
