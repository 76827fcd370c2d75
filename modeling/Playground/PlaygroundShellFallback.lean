import Playground.PlaygroundTemplates

/-! # The docker shell behind the dispatcher

With a dispatcher over TCP no SQL for postgres or mysql goes through the docker shell. The guard
is in `exec_source_sql` alone and knows only the plain names; the other names reach no shell
because the registry has none for them. -/
namespace PlaygroundShellFallback

open InteractionPrograms
open PlaygroundManifest (Source)
open PlaygroundOperations
open PlaygroundTemplates

def Spawns : Op → Prop
  | .external (.command _ _) => True
  | _ => False

/-- A docker-compose command of the registry, for the service. -/
def ShellFor (service : String) (op : Op) : Prop :=
  ∃ buildShell b64, dockerShellRegistry service = some buildShell ∧
    op = .external (.command "bash" ["-c", buildShell b64])

def databaseServices : List String :=
  ["postgres", "postgres-playground", "mysql", "mysql-playground"]

/-- The operation is no docker shell of postgres or mysql, and for a source that is one of these
it starts no process at all. -/
structure KeepsOffShell (source : Source) (op : Op) : Prop where
  shell : ∀ service ∈ databaseServices, ¬ShellFor service op
  process : ∀ service ∈ databaseServices, source.dockerService = some service → ¬Spawns op

theorem keepsOffShell_call {source : Source} {op : Op} (h : ¬Spawns op) :
    KeepsOffShell source op where
  shell := by
    rintro service - ⟨buildShell, b64, -, rfl⟩
    exact h trivial
  process _ _ _ := h

section Commands

def lastTwo (s : String) : List Char := s.toList.reverse.take 2

theorem lastTwo_append (a : String) {b : String} (h : 2 ≤ b.toList.length) :
    lastTwo (a ++ b) = lastTwo b := by
  rw [lastTwo, String.toList_append, List.reverse_append,
    List.take_append_of_le_length (by simpa using h), lastTwo]

def shellEnds : List (String × List Char) :=
  [("postgres", ['1', '=']), ("mysql", ['t', 'o']), ("clickhouse", ['y', 'r']),
    ("mongodb", ['t', 'e']), ("cassandra", ['h', 's'])]

theorem registry_end {service : String} {buildShell : String → String}
    (h : dockerShellRegistry service = some buildShell) (b64 : String) :
    (service, lastTwo (buildShell b64)) ∈ shellEnds := by
  unfold dockerShellRegistry at h
  split at h
  all_goals cases h
  all_goals
    rw [dockerExec, lastTwo_append _ (by decide +kernel)]
    decide +kernel

/-- A command of the registry is one service's. -/
theorem registry_service {s t : String} {build build' : String → String} {x y : String}
    (hs : dockerShellRegistry s = some build) (ht : dockerShellRegistry t = some build')
    (h : build x = build' y) : s = t := by
  have hkeys : (shellEnds.map Prod.snd).Nodup := by decide
  have hs := registry_end hs x
  have ht := registry_end ht y
  rw [h] at hs
  exact congrArg Prod.fst (List.inj_on_of_nodup_map hkeys hs ht rfl)

end Commands

variable {ok : (op : Op) → op.Result → Prop} {source : Source}

theorem execSourceSql_off (sql : String) :
    (execSourceSql source sql true).Always ok (KeepsOffShell source) := by
  rcases execSourceSql_cases source sql true with
    ⟨e, hrun⟩ | ⟨service, buildShell, hsource, hguard, hshell, hrun⟩
  · rw [hrun]
    trivial
  have hne := hguard rfl
  have hoff : service ∉ databaseServices := by
    intro hmem
    simp only [databaseServices, List.mem_cons, List.not_mem_nil, or_false] at hmem
    rcases hmem with rfl | rfl | rfl | rfl
    · exact hne.1 rfl
    · cases hshell
    · exact hne.2 rfl
    · cases hshell
  rw [hrun]
  refine ⟨⟨?_, ?_⟩, fun _ _ => trivial⟩
  · rintro s hs ⟨build', b64, hbuild, hop⟩
    simp only [Op.external.injEq, ExternalCall.command.injEq, List.cons.injEq, true_and,
      and_true] at hop
    exact hoff (registry_service hshell hbuild hop ▸ hs)
  · intro s hs hservice
    rw [hsource, Option.some.injEq] at hservice
    exact absurd (hservice ▸ hs) hoff

theorem dispatchSourceSql_off {env : ServerEnv} (h : env.tcpBacked = true)
    (namespaceName sql : String) :
    (dispatchSourceSql env source namespaceName sql).Always ok (KeepsOffShell source) := by
  rcases dispatchSourceSql_cases env source namespaceName sql with
    ⟨-, e, hrun⟩ | ⟨service, -, -, hrun⟩ | ⟨service, sidecar, next, -, -, hok, herror, hrun⟩
  · rw [hrun]
    trivial
  · rw [hrun, h]
    exact execSourceSql_off sql
  · rw [hrun]
    refine ⟨keepsOffShell_call fun hcall => hcall, fun r _ => ?_⟩
    cases r with
    | ok out =>
      rw [hok]
      trivial
    | error e =>
      rcases herror e with ⟨text, hnext⟩ | ⟨script, hnext⟩
      · rw [hnext]
        trivial
      · rw [hnext, h]
        exact execSourceSql_off script

theorem provisionSessionResources_off {env : ServerEnv} (h : env.tcpBacked = true)
    (namespaceName : String) :
    (provisionSessionResources env source namespaceName).Always ok (KeepsOffShell source) := by
  unfold provisionSessionResources
  rw [h]
  cases source.dockerService.bind provisionedSidecar with
  | none => trivial
  | some sidecar =>
    refine ⟨keepsOffShell_call fun hcall => hcall, fun r _ => ?_⟩
    cases r with
    | ok _ => trivial
    | error e =>
      cases e with
      | unavailable =>
        change Program.Always _ _ (if PlaygroundNames.isSafeResourceName namespaceName = false
          then _ else _)
        split
        · trivial
        · exact (execSourceSql_off _).bind fun _ => trivial
      | _ => trivial

/-- Whatever the dispatcher answers. -/
theorem no_shell_for_databases {env : ServerEnv} (h : env.tcpBacked = true) (source : Source)
    (namespaceName sql : String) :
    (provisionSessionResources env source namespaceName).Always (fun _ _ => True)
        (KeepsOffShell source) ∧
      (dispatchSourceSql env source namespaceName sql).Always (fun _ _ => True)
        (KeepsOffShell source) :=
  ⟨provisionSessionResources_off h namespaceName, dispatchSourceSql_off h namespaceName sql⟩

theorem no_shell_configured :
    (provisionSessionResources configured ⟨"pg", some "postgres"⟩ "play").Always
        (fun _ _ => True) (KeepsOffShell ⟨"pg", some "postgres"⟩) ∧
      (dispatchSourceSql configured ⟨"pg", some "postgres"⟩ "play" "SELECT 1").Always
        (fun _ _ => True) (KeepsOffShell ⟨"pg", some "postgres"⟩) :=
  no_shell_for_databases rfl _ _ _

end PlaygroundShellFallback
