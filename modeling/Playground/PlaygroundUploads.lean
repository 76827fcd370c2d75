import Playground.PlaygroundActions
import Playground.PlaygroundPlaceholders
import Playground.PlaygroundTeardownFrame

/-! # Uploads

The command of `upload_file` is quoted first and its placeholders are replaced afterwards. It runs
as it was built where nothing in it reads as a known placeholder. -/
namespace PlaygroundUploads

open BracedKeys
open InteractionPrograms
open PlaygroundActions
open PlaygroundCleanup
open PlaygroundManagerRuns (WellFormed)
open PlaygroundNames
open PlaygroundOperations
open PlaygroundPlaceholders
open PlaygroundSessions
open PlaygroundTeardownFrame
open PlaygroundTemplates
open RustText (infix_append_cons infix_of_mem_splitOn)
open ShellWords

variable (env : ServerEnv) (session : Session) (access secret payloadFile : String)

def builtCommand : String :=
  uploadCommand env session access secret (joinPath examplesRoot payloadFile) payloadFile

def finalCommand : String :=
  substitutePlaceholders env (builtCommand env session access secret payloadFile) session

def baseName : String := ((fileName payloadFile).map String.ofList).getD payloadFile

def uploadWords : List (List (List Char)) :=
  [["mc", "alias", "set", "local", minioEndpoint env, access, secret],
    ["mc", "mb", "--ignore-existing", "local/" ++ s3BucketFor],
    ["mc", "cp", joinPath examplesRoot payloadFile, "local/" ++ s3BucketFor ++ "/" ++
      session.namespaceName ++ "/" ++ baseName payloadFile]].map (List.map String.toList)

def found : (op : Op) → op.Result → Prop
  | .external (.exists_ _), r => r = true
  | _, _ => True

/-- With its payload there the upload runs one command, and the shell passes the words the command
was built for. -/
def RunsWords : Prop :=
  ∃ line, (uploadFile env session payloadFile).Performs found
      [.external (.exists_ (joinPath examplesRoot payloadFile)),
        .external (.command "bash" ["-c", line])] ∧
    commands line.toList = some (uploadWords env session access secret payloadFile)

/-- No step of the substitution changes the quoted command. -/
structure RunsAsBuilt : Prop where
  words : RunsWords env session access secret payloadFile
  untouched : ∀ steps, steps <+: replacements env session →
    replaceAll steps (builtCommand env session access secret payloadFile).toList =
      (builtCommand env session access secret payloadFile).toList

/-- Where a value of the command has a known placeholder, the placeholder stands for itself. -/
def Unmentioned : Prop :=
  ∀ r ∈ replacements env session, (∃ value ∈ [minioEndpoint env, access, secret, payloadFile],
    braced r.1 <:+: value.toList) → r.2 = braced r.1

section Command

variable {env session access secret payloadFile}

theorem joinPath_examplesRoot (path : String) :
    (joinPath examplesRoot path).toList = examplesRoot.toList ++ '/' :: path.toList := by
  have hslash : (examplesRoot.isEmpty || "/".toList.isSuffixOf examplesRoot.toList) = false := by
    decide
  rw [joinPath, hslash, if_neg Bool.false_ne_true, String.toList_append, String.toList_append,
    List.append_assoc]
  rfl

theorem builtCommand_toList : (builtCommand env session access secret payloadFile).toList =
    "mc alias set local ".toList ++ (quote (minioEndpoint env).toList ++ (" ".toList ++
      (quote access.toList ++ (" ".toList ++ (quote secret.toList ++
        (" >/dev/null && mc mb --ignore-existing local/".toList ++ (quote s3BucketFor.toList ++
          (" >/dev/null && mc cp ".toList ++ (quote (joinPath examplesRoot payloadFile).toList ++
            (" local/".toList ++ (quote s3BucketFor.toList ++ ("/".toList ++
              (quote session.namespaceName.toList ++ ("/".toList ++
                quote (baseName payloadFile).toList)))))))))))))) := by
  unfold builtCommand uploadCommand
  simp only [baseName, String.toList_append, shellQuote_toList, List.append_assoc]

-- What the fixed texts of the command do to a shell between two words.
theorem run_bucket : Lexer.run ⟨.plain, none, []⟩
    " >/dev/null && mc mb --ignore-existing local/".toList =
    some ⟨.plain, some "local/".toList.reverse,
      (["--ignore-existing", "mb", "mc"].map fun s => Token.word s.toList) ++
        [Token.separator .onSuccess, Token.word "/dev/null".toList, Token.redirect]⟩ := by
  decide +kernel

theorem run_copy : Lexer.run ⟨.plain, none, []⟩ " >/dev/null && mc cp ".toList =
    some ⟨.plain, none, (["cp", "mc"].map fun s => Token.word s.toList) ++
      [Token.separator .onSuccess, Token.word "/dev/null".toList, Token.redirect]⟩ := by
  decide +kernel

theorem run_target : Lexer.run ⟨.plain, none, []⟩ " local/".toList =
    some ⟨.plain, some "local/".toList.reverse, []⟩ := by
  decide +kernel

theorem builtCommand_words :
    commands (builtCommand env session access secret payloadFile).toList =
      some (uploadWords env session access secret payloadFile) := by
  have hblank : Lexer.run ⟨.plain, none, []⟩ " ".toList = some ⟨.plain, none, []⟩ := by
    decide +kernel
  have hslash : "/".toList = ['/'] := by decide
  rw [builtCommand_toList, commands, jobs, hslash, Lexer.run_then run_alias,
    Lexer.run_then (run_quote _ _ _), Lexer.run_then (Lexer.run_blank rfl hblank _ _),
    Lexer.run_then (run_quote _ _ _), Lexer.run_then (Lexer.run_blank rfl hblank _ _),
    Lexer.run_then (run_quote _ _ _), Lexer.run_then (Lexer.run_blank rfl run_bucket _ _),
    Lexer.run_then (run_quote _ _ _), Lexer.run_then (Lexer.run_blank rfl run_copy _ _),
    Lexer.run_then (run_quote _ _ _), Lexer.run_then (Lexer.run_blank rfl run_target _ _),
    Lexer.run_then (run_quote _ _ _), Lexer.run_then (Lexer.run_slash _ _),
    Lexer.run_then (run_quote _ _ _), Lexer.run_then (Lexer.run_slash _ _), run_quote]
  simp [Lexer.flush, jobsOf, uploadWords, hslash]

theorem uploadFile_performs (hpayload : validateExampleRelativePath payloadFile = .ok ())
    (haccess : minioAccess env = some access) (hsecret : minioSecret env = some secret)
    {ops : List Op} : (uploadFile env session payloadFile).Performs found ops ↔
      ops = [.external (.exists_ (joinPath examplesRoot payloadFile)),
        .external (.command "bash"
          ["-c", finalCommand env session access secret payloadFile])] := by
  unfold uploadFile
  rw [hpayload, haccess, hsecret]
  constructor
  · rintro ⟨rest, rfl, hcopy⟩
    obtain ⟨last, rfl, hlast⟩ := hcopy true rfl
    have hnil : last = [] := hlast (.error "") trivial
    rw [hnil]
    rfl
  · rintro rfl
    refine ⟨_, rfl, ?_⟩
    intro there hthere
    cases hthere
    refine ⟨[], rfl, ?_⟩
    intro r _
    cases r with
    | error e => rfl
    | ok output => cases h : output.success <;> simp [h]

theorem runsWords_iff (hpayload : validateExampleRelativePath payloadFile = .ok ())
    (haccess : minioAccess env = some access) (hsecret : minioSecret env = some secret) :
    RunsWords env session access secret payloadFile ↔
      commands (finalCommand env session access secret payloadFile).toList =
        some (uploadWords env session access secret payloadFile) := by
  simp only [RunsWords, uploadFile_performs hpayload haccess hsecret, List.cons.injEq,
    Op.external.injEq, ExternalCall.command.injEq, true_and, and_true]
  constructor
  · rintro ⟨line, rfl, hwords⟩
    exact hwords
  · intro hwords
    exact ⟨_, rfl, hwords⟩

end Command

section Placeholders

variable {env session access secret payloadFile}

theorem replacements_plain : ∀ r ∈ replacements env session,
    '\'' ∉ braced r.1 ∧ '\\' ∉ braced r.1 ∧ '/' ∉ braced r.1 := by
  have hall : ∀ key ∈ placeholderKeys,
      '\'' ∉ braced key ∧ '\\' ∉ braced key ∧ '/' ∉ braced key := by decide
  exact fun r hr => hall r.1 (replacements_key hr)

/-- A placeholder that the command has is in one of its values, since its fixed texts and the name
of the namespace have no braces. -/
theorem mentioned_iff (hnamespace : BraceFree session.namespaceName.toList)
    {r : List Char × List Char} (hr : r ∈ replacements env session) :
    braced r.1 <:+: (builtCommand env session access secret payloadFile).toList ↔
      ∃ value ∈ [minioEndpoint env, access, secret, payloadFile],
        braced r.1 <:+: value.toList := by
  obtain ⟨hquote, hescape, hslash⟩ := replacements_plain r hr
  have hopening : ∀ {text : List Char}, '\x7b' ∉ text → ¬ braced r.1 <:+: text :=
    fun htext hp => htext (hp.subset List.mem_cons_self)
  have hfixed : ∀ text ∈ ["mc alias set local ", " ",
      " >/dev/null && mc mb --ignore-existing local/", " >/dev/null && mc cp ", " local/", "/",
      s3BucketFor, examplesRoot], '\x7b' ∉ text.toList := by decide
  have hroot : braced r.1 <:+: (joinPath examplesRoot payloadFile).toList ↔
      braced r.1 <:+: payloadFile.toList := by
    rw [joinPath_examplesRoot, infix_append_cons hslash]
    exact or_iff_right (hopening (hfixed examplesRoot (by simp)))
  have hbase : braced r.1 <:+: (baseName payloadFile).toList →
      braced r.1 <:+: payloadFile.toList := by
    rw [baseName, fileName]
    cases hname : ((payloadFile.toList.splitOn '/').filter fun seg =>
        !seg.isEmpty && seg != ['.']).getLast? with
    | none => exact id
    | some name =>
      rw [Option.map_some, Option.getD_some, String.toList_ofList]
      have hmem := (List.mem_filter.mp (List.mem_of_getLast? hname)).1
      exact fun hp => hp.trans (infix_of_mem_splitOn hmem)
  have hlast : quote (baseName payloadFile).toList = quote (baseName payloadFile).toList ++ [] :=
    (List.append_nil _).symm
  rw [builtCommand_toList, hlast]
  simp only [infix_append_quoted hquote hescape, hroot, hopening hnamespace.1,
    hopening (hfixed "mc alias set local " (by simp)), hopening (hfixed " " (by simp)),
    hopening (hfixed " >/dev/null && mc mb --ignore-existing local/" (by simp)),
    hopening (hfixed " >/dev/null && mc cp " (by simp)), hopening (hfixed " local/" (by simp)),
    hopening (hfixed "/" (by simp)), hopening (hfixed s3BucketFor (by simp)),
    hopening List.not_mem_nil, false_or, or_false, List.mem_cons, List.not_mem_nil,
    exists_eq_or_imp, exists_eq_left]
  constructor
  · rintro (h | h | h | h | h)
    · exact Or.inl h
    · exact Or.inr (Or.inl h)
    · exact Or.inr (Or.inr (Or.inl h))
    · exact Or.inr (Or.inr (Or.inr h))
    · exact Or.inr (Or.inr (Or.inr (hbase h)))
  · rintro (h | h | h | h)
    · exact Or.inl h
    · exact Or.inr (Or.inl h)
    · exact Or.inr (Or.inr (Or.inl h))
    · exact Or.inr (Or.inr (Or.inr (Or.inl h)))

theorem untouched_iff_unmentioned (hnamespace : BraceFree session.namespaceName.toList) :
    (∀ steps, steps <+: replacements env session →
      replaceAll steps (builtCommand env session access secret payloadFile).toList =
        (builtCommand env session access secret payloadFile).toList) ↔
      Unmentioned env session access secret payloadFile := by
  rw [untouched_iff, Unmentioned]
  constructor
  · intro h r hr hmentioned
    exact h r hr ((mentioned_iff hnamespace hr).mpr hmentioned)
  · intro h r hr hp
    exact h r hr ((mentioned_iff hnamespace hr).mp hp)

theorem count_words :
    (uploadWords env session access secret payloadFile).flatten.flatten.count '\x7b' =
      (builtCommand env session access secret payloadFile).toList.count '\x7b' := by
  have hfixed : ∀ text ∈ ["mc alias set local ", " ",
      " >/dev/null && mc mb --ignore-existing local/", " >/dev/null && mc cp ", " local/", "/",
      "mc", "alias", "set", "local", "mb", "--ignore-existing", "local/", "cp", s3BucketFor],
      text.toList.count '\x7b' = 0 := by decide
  have hquote : ∀ s : List Char, (quote s).count '\x7b' = s.count '\x7b' :=
    count_quote (by decide) (by decide)
  simp only [List.forall_mem_cons] at hfixed
  rw [builtCommand_toList, uploadWords]
  simp only [List.map_cons, List.map_nil, List.flatten_append, List.flatten_cons,
    List.flatten_nil, List.append_nil, List.count_append, String.toList_append, hquote, hfixed]
  omega

theorem unmentioned_of_words (hnames : ∀ name ∈ [session.shuttleName, session.namespaceName,
      session.connectionName], isSafeIdentifier name = true)
    (haccess : minioAccess env = some access) (hsecret : minioSecret env = some secret)
    (hvars : ∀ value ∈ [minioEndpoint env, access, secret], '\x7b' ∉ value.toList)
    (hwords : commands (finalCommand env session access secret payloadFile).toList =
      some (uploadWords env session access secret payloadFile)) :
    Unmentioned env session access secret payloadFile := by
  have hnamespace : BraceFree session.namespaceName.toList :=
    identifier_braceFree (hnames _ (by simp))
  have hvalues : ∀ r ∈ replacements env session, '\x7b' ∉ r.2 := by
    apply replacements_values (p := fun text => '\x7b' ∉ text)
    · intro name hname
      exact (identifier_braceFree (hnames name hname)).1
    · exact (uuidText_braceFree session.id).1
    · rw [haccess, hsecret]
      exact hvars
  intro r hr hmentioned
  have hoccurs := (mentioned_iff hnamespace hr).mpr hmentioned
  have hfewer := (replaceAll_count hvalues
    (builtCommand env session access secret payloadFile).toList).2 ⟨r, hr, hoccurs⟩
  have hheld := count_commands hwords '\x7b'
  rw [finalCommand, substitutePlaceholders_eq, count_words] at hheld
  omega

end Placeholders

/-- An upload runs the command it was built for, and no step of the substitution changes it,
exactly when no known placeholder is in the payload's path or in one of the three variables,
unless it stands for itself. Where the variables have no opening brace, already the words tell. -/
theorem uploads_run_as_built {env : ServerEnv} {session : Session}
    {access secret payloadFile : String} {sha256 : String → Digest} {id : Uuid}
    (hsession : WellFormed sha256 id session)
    (hpayload : validateExampleRelativePath payloadFile = .ok ())
    (haccess : minioAccess env = some access) (hsecret : minioSecret env = some secret) :
    (RunsAsBuilt env session access secret payloadFile ↔
      Unmentioned env session access secret payloadFile) ∧
    ((∀ value ∈ [minioEndpoint env, access, secret], '\x7b' ∉ value.toList) →
      (RunsWords env session access secret payloadFile ↔
        Unmentioned env session access secret payloadFile)) := by
  have hnames := session_safe hsession
  have hnamespace : BraceFree session.namespaceName.toList :=
    identifier_braceFree (hnames _ (by simp))
  have hwords : Unmentioned env session access secret payloadFile →
      RunsWords env session access secret payloadFile := by
    intro h
    rw [runsWords_iff hpayload haccess hsecret, finalCommand, substitutePlaceholders_eq,
      (untouched_iff_unmentioned hnamespace).mpr h _ List.prefix_rfl]
    exact builtCommand_words
  refine ⟨⟨?_, ?_⟩, ?_⟩
  · intro h
    exact (untouched_iff_unmentioned hnamespace).mp h.untouched
  · intro h
    exact ⟨hwords h, (untouched_iff_unmentioned hnamespace).mpr h⟩
  · intro hvars
    refine ⟨fun h => ?_, hwords⟩
    rw [runsWords_iff hpayload haccess hsecret] at h
    exact unmentioned_of_words hnames haccess hsecret hvars h

def keyed : ServerEnv :=
  { configured with
    envVar := fun name => if name = "MINIO_ROOT_USER" ∨ name = "MINIO_ROOT_PASSWORD" then
      some "minioadmin" else none }

theorem uploads_run_as_built_export :
    RunsAsBuilt keyed demoSession "minioadmin" "minioadmin" "orders/export.csv" := by
  have hplain : ∀ value ∈ [minioEndpoint keyed, "minioadmin", "minioadmin", "orders/export.csv"],
      '\x7b' ∉ value.toList := by decide
  refine (uploads_run_as_built demoSession_wellFormed (by decide) (by decide) (by decide)).1.mpr ?_
  rintro r _ ⟨value, hvalue, hp⟩
  exact absurd (hp.subset List.mem_cons_self) (hplain value hvalue)

/-- The name of a payload is replaced like a placeholder of a template, inside its quotes. -/
theorem payload_name_replaced : ¬ ∀ (env : ServerEnv) (session : Session)
    (access secret payloadFile : String) (sha256 : String → Digest) (id : Uuid),
    WellFormed sha256 id session → validateExampleRelativePath payloadFile = .ok () →
    minioAccess env = some access → minioSecret env = some secret →
    RunsWords env session access secret payloadFile := by
  intro h
  have haccess : minioAccess keyed = some "minioadmin" := by decide
  have hsecret : minioSecret keyed = some "minioadmin" := by decide
  have hpayload : validateExampleRelativePath "exports/\x7bshuttle\x7d.csv" = .ok () := by decide
  have hwords := h keyed demoSession "minioadmin" "minioadmin" "exports/\x7bshuttle\x7d.csv" _ _
    demoSession_wellFormed hpayload haccess hsecret
  rw [runsWords_iff hpayload haccess hsecret] at hwords
  have hnames := session_safe demoSession_wellFormed
  have hvars : ∀ value ∈ [minioEndpoint keyed, "minioadmin", "minioadmin"],
      '\x7b' ∉ value.toList := by decide
  have hsplit : "exports/\x7bshuttle\x7d.csv".toList =
      "exports/".toList ++ (braced "shuttle".toList ++ ".csv".toList) := by decide
  have hsame : demoSession.shuttleName.toList = braced "shuttle".toList := by
    refine unmentioned_of_words hnames haccess hsecret hvars hwords
      ("shuttle".toList, demoSession.shuttleName.toList) List.mem_cons_self ?_
    refine ⟨"exports/\x7bshuttle\x7d.csv", by simp, ?_⟩
    rw [hsplit]
    exact List.infix_append' _ _ _
  have hfree := identifier_braceFree (hnames demoSession.shuttleName (by simp))
  rw [hsame] at hfree
  exact hfree.1 List.mem_cons_self

end PlaygroundUploads
