import Playground.PlaygroundTemplates
import Playground.ShellPipelines

/-! # What the docker shell hands to a client

A script reaches the client of a service as base 64 in a shell line. Whatever the script is, the
shell reads the same three commands, and the client gets its bytes. -/
namespace PlaygroundShellScripts

open Base64 (encode)
open InteractionPrograms
open PlaygroundManifest (Source)
open PlaygroundOperations
open PlaygroundTemplates
open ShellPipelines

theorem encode_plain {bytes : List UInt8} {c : Char} (h : c ∈ encode standard bytes) :
    plainChar c = true ∧ c.toNat < 128 := by
  have hchars : ('=' :: standard.chars).all
      (fun d => plainChar d && decide (d.toNat < 128)) = true := by decide
  have hall : ∀ d ∈ '=' :: standard.chars, plainChar d = true ∧ d.toNat < 128 := by
    intro d hd
    simpa using List.all_eq_true.mp hchars d hd
  rcases Base64.mem_encode h with hc | rfl
  · exact hall c (List.mem_cons_of_mem _ hc)
  · exact hall '=' List.mem_cons_self

/-- The client of a service in its container. -/
def clientWords (service : String) : List Word :=
  let client :=
    match service with
    | "postgres" => ["postgres", "psql", "-U", "postgres", "-d", "ecommerce", "-v",
        "ON_ERROR_STOP=1"]
    | "mysql" => ["mysql", "mysql", "-uroot", "-prootpass", "--default-character-set=utf8mb4",
        "iot"]
    | "clickhouse" => ["clickhouse", "clickhouse-client", "--multiquery"]
    | "mongodb" => ["mongodb", "mongosh", "--quiet"]
    | "cassandra" => ["cassandra", "cqlsh"]
    | _ => []
  (["docker", "compose", "-f", "/opt/datashuttle/examples/docker-compose.yml", "exec", "-T"] ++
    client).map String.toList

/-- The process a shell line ends in: its words and its input. -/
def delivered (line : String) : Option (List Word × List UInt8) :=
  (read line.toList).bind fun commands => feed (utilities standard) commands []

section Lines

variable {bytes : List UInt8} {container : String}

theorem encode_no_blank : ' ' ∉ encode standard bytes := fun h =>
  absurd (encode_plain h).1 (by decide)

theorem dockerExec_toList (container : String) (bytes : List UInt8) :
    (dockerExec container (base64Encode bytes)).toList = ['|'].intercalate
      ["echo ".toList ++ encode standard bytes ++ [' '], " base64 -d ".toList,
        (" docker compose -f /opt/datashuttle/examples/docker-compose.yml exec -T " ++
          container).toList] := by
  have hbars : " | base64 -d | docker compose -f ".toList =
      [' ', '|'] ++ " base64 -d ".toList ++ ['|'] ++ " docker compose -f ".toList := by decide
  have hfile : " docker compose -f /opt/datashuttle/examples/docker-compose.yml exec -T ".toList =
      " docker compose -f ".toList ++
        "/opt/datashuttle/examples/docker-compose.yml exec -T ".toList := by decide +kernel
  rw [dockerExec, String.toList_append, String.toList_append, String.toList_append,
    String.toList_append, base64Encode, hbars, String.toList_append, hfile,
    List.intercalate_cons_cons, List.intercalate_cons_cons, List.intercalate_singleton]
  simp only [String.toList_ofList, List.append_assoc, List.cons_append, List.nil_append]

/-- An empty script is no word. -/
def echoWords (bytes : List UInt8) : List Word := if bytes = [] then [] else [encode standard bytes]

theorem intercalate_echoWords (bytes : List UInt8) :
    [' '].intercalate (echoWords bytes) = encode standard bytes := by
  rw [echoWords]
  split
  · rename_i hempty
    rw [hempty]
    rfl
  · exact List.intercalate_singleton

theorem words_echo (bytes : List UInt8) :
    words ("echo ".toList ++ encode standard bytes ++ [' ']) =
      "echo".toList :: echoWords bytes := by
  have hline : "echo ".toList ++ encode standard bytes ++ [' '] =
      [' '].intercalate ["echo".toList, encode standard bytes, []] := by
    rw [List.intercalate_cons_cons, List.intercalate_cons_cons, List.intercalate_singleton,
      List.append_nil, show "echo ".toList = "echo".toList ++ [' '] by decide, List.append_assoc]
  rw [hline, words_intercalate (List.cons_ne_nil _ _)]
  · rw [echoWords]
    split
    · rename_i hempty
      rw [hempty]
      rfl
    · rename_i hne
      have hword : (!(encode standard bytes).isEmpty) = true := by
        simpa using Base64.encode_ne_nil hne
      simp [hword]
  · intro part hpart
    simp only [List.mem_cons, List.not_mem_nil, or_false] at hpart
    rcases hpart with rfl | rfl | rfl
    · decide
    · exact encode_no_blank
    · exact List.not_mem_nil

theorem all_echo (bytes : List UInt8) :
    ("echo ".toList ++ encode standard bytes ++ [' ']).all commandChar = true := by
  refine List.all_eq_true.mpr fun c hc => ?_
  rcases List.mem_append.mp hc with hc | hc
  · rcases List.mem_append.mp hc with hc | hc
    · exact List.all_eq_true.mp (show "echo ".toList.all commandChar = true by decide) c hc
    · rw [commandChar, (encode_plain hc).1]
      rfl
  · rw [List.mem_singleton.mp hc]
    rfl

/-- No script starts an option of `echo`. -/
theorem no_options (bytes : List UInt8) :
    (echoWords bytes).all (fun w => w.head? != some '-') = true := by
  refine List.all_eq_true.mpr fun w hw => bne_iff_ne.mpr fun hhead => ?_
  rw [echoWords] at hw
  split at hw
  · cases hw
  · rw [List.mem_singleton.mp hw] at hhead
    have hmem : '-' ∈ encode standard bytes := List.mem_of_head? hhead
    rcases Base64.mem_encode hmem with hmem | hmem
    · exact absurd hmem (by decide)
    · exact absurd hmem (by decide)

theorem feed_echo (client : List Word) (bytes : List UInt8) :
    feed (utilities standard) ["echo".toList :: echoWords bytes, ["base64".toList, "-d".toList],
      client] [] = some (client, bytes) := by
  have hecho : utilities standard ("echo".toList :: echoWords bytes) [] =
      some (ascii (echoed (echoWords bytes))) := by
    rw [utilities, if_neg (by simp), if_pos ⟨rfl, no_options bytes⟩]
  have hdecode : utilities standard ["base64".toList, "-d".toList]
      (ascii (echoed (echoWords bytes))) = some bytes := by
    rw [utilities, if_pos rfl]
    refine decoded_echoed (intercalate_echoWords bytes) fun c hc => ?_
    refine ⟨(encode_plain hc).2, ?_⟩
    rintro rfl
    exact absurd (encode_plain hc).1 (by decide)
  simp only [feed, hecho, Option.bind_some, hdecode]

/-- What comes before the container in the command of a client. -/
def composeWords : List Word :=
  ["docker", "compose", "-f", "/opt/datashuttle/examples/docker-compose.yml", "exec", "-T"].map
    String.toList

theorem compose_toList (container : String) :
    (" docker compose -f /opt/datashuttle/examples/docker-compose.yml exec -T " ++
      container).toList =
        " docker compose -f /opt/datashuttle/examples/docker-compose.yml exec -T".toList ++
          ' ' :: container.toList := by
  have hblank : " docker compose -f /opt/datashuttle/examples/docker-compose.yml exec -T ".toList =
      " docker compose -f /opt/datashuttle/examples/docker-compose.yml exec -T".toList ++ [' '] :=
    by decide +kernel
  rw [String.toList_append, hblank, List.append_assoc]
  rfl

theorem words_compose :
    words " docker compose -f /opt/datashuttle/examples/docker-compose.yml exec -T".toList =
      composeWords := by decide +kernel

theorem all_compose :
    " docker compose -f /opt/datashuttle/examples/docker-compose.yml exec -T".toList.all
      commandChar = true := by decide +kernel

theorem delivered_dockerExec {client : List Word} (hwords : words container.toList = client)
    (hchars : container.toList.all commandChar = true) :
    delivered (dockerExec container (base64Encode bytes)) =
      some (composeWords ++ client, bytes) := by
  have hdecode : words " base64 -d ".toList = ["base64".toList, "-d".toList] := by decide
  have hclient := (words_append _ container.toList).trans (congrArg₂ _ words_compose hwords)
  rw [delivered, dockerExec_toList, compose_toList, read_intercalate (List.cons_ne_nil _ _),
    Option.bind_some, List.map_cons, List.map_cons, List.map_singleton, words_echo, hdecode,
    hclient]
  · exact feed_echo _ bytes
  · intro part hpart
    simp only [List.mem_cons, List.not_mem_nil, or_false] at hpart
    rcases hpart with rfl | rfl | rfl
    · exact all_echo bytes
    · decide
    · rw [List.all_append, all_compose, List.all_cons, hchars]
      rfl
  · intro part hpart
    simp only [List.mem_cons, List.not_mem_nil, or_false] at hpart
    rcases hpart with rfl | rfl | rfl
    · rw [words_echo]
      rfl
    · decide
    · rw [hclient]
      rfl

end Lines

theorem registry_delivers {service : String} {buildShell : String → String}
    (h : dockerShellRegistry service = some buildShell) (bytes : List UInt8) :
    delivered (buildShell (base64Encode bytes)) = some (clientWords service, bytes) := by
  unfold dockerShellRegistry at h
  split at h
  all_goals cases h
  all_goals exact delivered_dockerExec (by decide +kernel) (by decide +kernel)

section Dispatch

/-- A process started for a source is a shell line that hands the script to the client of its
service. -/
def Hands (source : Source) (script : String) : Op → Prop
  | .external (.command program args) => ∃ service line, source.dockerService = some service ∧
      program = "bash" ∧ args = ["-c", line] ∧
      delivered line = some (clientWords service, script.toUTF8.toList)
  | _ => True

/-- The SQL of a dispatch as the shell gets it: for a service with a sidecar behind the lines that
put it into the session's schema or database. -/
def fallbackSql (source : Source) (namespaceName sql : String) : String :=
  match source.dockerService.bind sidecarOf with
  | none => sql
  | some sidecar =>
    isolatedSql (PlaygroundNames.isSafeResourceName namespaceName) namespaceName sql sidecar

def provisionSql (source : Source) (namespaceName : String) : String :=
  match source.dockerService.bind provisionedSidecar with
  | none => ""
  | some sidecar => createDatabase namespaceName sidecar

variable {source : Source}

theorem execSourceSql_hands (source : Source) (sql : String) (tcp : Bool) :
    (execSourceSql source sql tcp).Always (fun _ _ => True) (Hands source sql) := by
  rcases execSourceSql_cases source sql tcp with
    ⟨e, he⟩ | ⟨service, buildShell, hservice, -, hshell, hexec⟩
  · rw [he]
    trivial
  · rw [hexec]
    exact ⟨⟨service, _, hservice, rfl, rfl, registry_delivers hshell _⟩, fun _ _ => trivial⟩

theorem dispatchSourceSql_hands (env : ServerEnv) (source : Source) (namespaceName sql : String) :
    (dispatchSourceSql env source namespaceName sql).Always (fun _ _ => True)
      (Hands source (fallbackSql source namespaceName sql)) := by
  cases hservice : source.dockerService with
  | none =>
    simp only [dispatchSourceSql, hservice]
    trivial
  | some service =>
    cases hsidecar : sidecarOf service with
    | none =>
      have hsql : fallbackSql source namespaceName sql = sql := by
        simp only [fallbackSql, hservice, Option.bind_some, hsidecar]
      rw [hsql]
      simp only [dispatchSourceSql, hservice, hsidecar]
      exact execSourceSql_hands source sql env.tcpBacked
    | some sidecar =>
      have hsql : fallbackSql source namespaceName sql = isolatedSql
          (PlaygroundNames.isSafeResourceName namespaceName) namespaceName sql sidecar := by
        simp only [fallbackSql, hservice, Option.bind_some, hsidecar]
      rw [hsql]
      simp only [dispatchSourceSql, hservice, hsidecar]
      refine ⟨trivial, fun r _ => ?_⟩
      cases r with
      | ok out => trivial
      | error e =>
        cases e with
        | unavailable =>
          change Program.Always _ _ (if sidecar = .redis then _ else _)
          split
          · trivial
          · exact execSourceSql_hands source _ env.tcpBacked
        | _ => trivial

theorem provisionSessionResources_hands (env : ServerEnv) (source : Source)
    (namespaceName : String) :
    (provisionSessionResources env source namespaceName).Always (fun _ _ => True)
      (Hands source (provisionSql source namespaceName)) := by
  unfold provisionSessionResources provisionSql
  cases source.dockerService.bind provisionedSidecar with
  | none => trivial
  | some sidecar =>
    refine ⟨trivial, fun r _ => ?_⟩
    cases r with
    | ok _ => trivial
    | error e =>
      cases e with
      | unavailable =>
        change Program.Always _ (Hands source (createDatabase namespaceName sidecar))
          (if PlaygroundNames.isSafeResourceName namespaceName = false then _ else _)
        split
        · trivial
        · exact (execSourceSql_hands source _ env.tcpBacked).bind fun _ => trivial
      | _ => trivial

/-- Whatever the SQL is and whatever the dispatcher answers, each process that is started for a
source is its client in its container, and it reads exactly the bytes of its script: the SQL of the
dispatch, kept in the session's schema or database, or the SQL that creates these. -/
theorem scripts_reach_their_client (env : ServerEnv) (source : Source)
    (namespaceName sql : String) :
    (dispatchSourceSql env source namespaceName sql).Always (fun _ _ => True)
        (Hands source (fallbackSql source namespaceName sql)) ∧
      (provisionSessionResources env source namespaceName).Always (fun _ _ => True)
        (Hands source (provisionSql source namespaceName)) :=
  ⟨dispatchSourceSql_hands env source namespaceName sql,
    provisionSessionResources_hands env source namespaceName⟩

end Dispatch

end PlaygroundShellScripts
