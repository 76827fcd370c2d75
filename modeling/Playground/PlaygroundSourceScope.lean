import Playground.PlaygroundTemplates

/-! # Where scoped SQL lands

`dispatch_source_sql` runs SQL in the schema or database of the session, which
`provision_session_resources` has to create first. The two match the service of a source on their
own: one knows a second name for each, the other does not. -/
namespace PlaygroundSourceScope

open InteractionPrograms
open PlaygroundManifest (Source)
open PlaygroundNames
open PlaygroundOperations
open PlaygroundSessions
open PlaygroundTemplates

abbrev Events := List ((op : Op) × op.Result)

def Called (events : Events) (c : DispatcherCall) : Prop :=
  ∃ event ∈ events, event.1 = .external (.dispatcher c)

/-- Whatever is answered, SQL for the source only runs scoped to a schema or database of the
session's name if provisioning the source asks for that schema or database. The scope of redis is
a key prefix, which nobody creates. -/
def HasPlace (env : ServerEnv) (source : Source) (namespaceName sql : String) : Prop :=
  ∀ sidecar text events result, sidecar ≠ .redis →
    (dispatchSourceSql env source namespaceName sql).Trace events result →
    Called events (.exec sidecar (some namespaceName) text) →
    ∀ prepared outcome,
      (provisionSessionResources env source namespaceName).Trace prepared outcome →
      Called prepared (.provision sidecar namespaceName)

def aliases : List String := ["postgres-playground", "mysql-playground", "clickhouse-playground"]

variable {env : ServerEnv} {source : Source} {service namespaceName sql : String}

def NotDispatcher : Op → Prop
  | .external (.dispatcher _) => False
  | _ => True

theorem execSourceSql_calls {tcpActive : Bool} :
    (execSourceSql source sql tcpActive).Always (fun _ _ => True) NotDispatcher := by
  rcases execSourceSql_cases source sql tcpActive with
    ⟨e, hrun⟩ | ⟨service, buildShell, -, -, -, hrun⟩
  · rw [hrun]
    trivial
  · rw [hrun]
    exact ⟨trivial, fun _ _ => trivial⟩

theorem not_called {α : Type} {p : Handler α} (hp : p.Always (fun _ _ => True) NotDispatcher)
    {events : Events} {a : α} (h : p.Trace events a) (c : DispatcherCall) : ¬ Called events c := by
  rintro ⟨event, hevent, hop⟩
  have hnot := hp.trace h event hevent
  rw [hop] at hnot
  exact hnot

theorem dispatch_calls (env : ServerEnv) (namespaceName sql : String) {sidecar : Sidecar}
    (hservice : source.dockerService = some service)
    (hsidecar : sidecarOf service = some sidecar) :
    ∃ next, dispatchSourceSql env source namespaceName sql =
        .request (.external (.dispatcher (.exec sidecar
          (if isSafeResourceName namespaceName then some namespaceName else none) sql))) next ∧
      ∀ r, (next r).Always (fun _ _ => True) NotDispatcher := by
  rcases dispatchSourceSql_cases env source namespaceName sql with
    ⟨hs, -⟩ | ⟨s, hs, hnone, hrun⟩ | ⟨s, own, next, hs, hown, hok, herror, hrun⟩
  · rw [hservice] at hs
    cases hs
  · rw [hservice] at hs
    cases hs
    rw [hsidecar] at hnone
    cases hnone
  · rw [hservice] at hs
    cases hs
    rw [hsidecar] at hown
    cases hown
    refine ⟨next, hrun, ?_⟩
    intro r
    cases r with
    | ok out =>
      rw [hok]
      trivial
    | error e =>
      rcases herror e with ⟨text, hnext⟩ | ⟨script, hnext⟩
      · rw [hnext]
        trivial
      · rw [hnext]
        exact execSourceSql_calls

theorem dispatch_called {events : Events} {result : Except String (String × String)}
    {sidecar : Sidecar} {text : String}
    (h : (dispatchSourceSql env source namespaceName sql).Trace events result)
    (hcalled : Called events (.exec sidecar (some namespaceName) text)) :
    ∃ service, source.dockerService = some service ∧ sidecarOf service = some sidecar := by
  rcases dispatchSourceSql_cases env source namespaceName sql with
    ⟨-, e, hrun⟩ | ⟨service, -, -, hrun⟩ | ⟨service, own, -, hservice, hown, -⟩
  · rw [hrun] at h
    obtain ⟨rfl, _⟩ := Program.trace_done h
    obtain ⟨event, hevent, _⟩ := hcalled
    cases hevent
  · rw [hrun] at h
    exact absurd hcalled (not_called execSourceSql_calls h _)
  · obtain ⟨next, hnext, hquiet⟩ := dispatch_calls env namespaceName sql hservice hown
    refine ⟨service, hservice, ?_⟩
    rw [hnext] at h
    obtain ⟨r, rest, rfl, hrest⟩ := Program.trace_request h
    obtain ⟨event, hevent, hop⟩ := hcalled
    rcases List.mem_cons.mp hevent with rfl | hlater
    · simp only [Op.external.injEq, ExternalCall.dispatcher.injEq,
        DispatcherCall.exec.injEq] at hop
      rw [hown, hop.1]
    · exact absurd ⟨event, hlater, hop⟩ (not_called (hquiet r) hrest _)

theorem dispatch_scoped (env : ServerEnv) (sql : String) {sidecar : Sidecar}
    (hsafe : isSafeResourceName namespaceName = true)
    (hservice : source.dockerService = some service)
    (hsidecar : sidecarOf service = some sidecar) :
    ∃ events result, (dispatchSourceSql env source namespaceName sql).Trace events result ∧
      Called events (.exec sidecar (some namespaceName) sql) := by
  refine ⟨[⟨.external (.dispatcher (.exec sidecar
    (if isSafeResourceName namespaceName then some namespaceName else none) sql)), .ok ("", "")⟩],
    .ok ("", ""), ?_, _, List.mem_cons_self, by rw [if_pos hsafe]⟩
  simp only [dispatchSourceSql, hservice, hsidecar]
  exact .step (.done _)

theorem provision_called {sidecar : Sidecar} (hservice : source.dockerService = some service)
    (hprovisioned : provisionedSidecar service = some sidecar) {events : Events}
    {outcome : Except String Unit}
    (h : (provisionSessionResources env source namespaceName).Trace events outcome) :
    Called events (.provision sidecar namespaceName) := by
  have hfound : source.dockerService.bind provisionedSidecar = some sidecar := by
    rw [hservice]
    exact hprovisioned
  simp only [provisionSessionResources, hfound] at h
  obtain ⟨r, rest, rfl, _⟩ := Program.trace_perform h
  exact ⟨_, List.mem_cons_self, rfl⟩

theorem provision_skipped (hservice : source.dockerService = some service)
    (hprovisioned : provisionedSidecar service = none) :
    (provisionSessionResources env source namespaceName).Trace [] (.ok ()) := by
  have hfound : source.dockerService.bind provisionedSidecar = none := by
    rw [hservice]
    exact hprovisioned
  simp only [provisionSessionResources, hfound]
  exact .done _

/-- Every service with a schema or database of its own is provisioned, but for its second name. -/
theorem provisioned_or_alias {sidecar : Sidecar} (h : sidecarOf service = some sidecar)
    (hredis : sidecar ≠ .redis) :
    (service ∉ aliases ∧ provisionedSidecar service = some sidecar) ∨
      (service ∈ aliases ∧ provisionedSidecar service = none) := by
  unfold sidecarOf at h
  split at h
  all_goals cases h
  all_goals first
    | exact absurd rfl hredis
    | exact Or.inl ⟨by decide, rfl⟩
    | exact Or.inr ⟨by decide, rfl⟩

/-- Whatever the SQL and the session, scoped SQL has a place to land unless the source is named by
the second name of its service. -/
theorem has_place_iff (sha256 : String → Digest) (userId : String) (id : Uuid) (env : ServerEnv)
    (source : Source) (sql : String) :
    HasPlace env source (deriveNamespace sha256 userId id) sql ↔
      ∀ service ∈ aliases, source.dockerService ≠ some service := by
  constructor
  · intro h service halias hservice
    have hsafe := (deriveNamespace_form sha256 userId id).resource
    obtain ⟨sidecar, hsidecar, hredis⟩ :
        ∃ sidecar, sidecarOf service = some sidecar ∧ sidecar ≠ .redis := by
      simp only [aliases, List.mem_cons, List.not_mem_nil, or_false] at halias
      rcases halias with rfl | rfl | rfl
      · exact ⟨.postgres, rfl, by decide⟩
      · exact ⟨.mysql, rfl, by decide⟩
      · exact ⟨.clickhouse, rfl, by decide⟩
    rcases provisioned_or_alias hsidecar hredis with ⟨hnot, _⟩ | ⟨_, hskip⟩
    · exact hnot halias
    · obtain ⟨events, result, hrun, hcalled⟩ := dispatch_scoped env sql hsafe hservice hsidecar
      obtain ⟨event, hevent, _⟩ := h sidecar sql events result hredis hrun hcalled [] (.ok ())
        (provision_skipped hservice hskip)
      cases hevent
  · intro h sidecar text events result hredis hrun hcalled prepared outcome hprovision
    obtain ⟨service, hservice, hsidecar⟩ := dispatch_called hrun hcalled
    rcases provisioned_or_alias hsidecar hredis with ⟨_, hprovisioned⟩ | ⟨halias, _⟩
    · exact provision_called hservice hprovisioned hprovision
    · exact absurd hservice (h service halias)

/-- A source on the sidecar that compose files call `postgres-playground`. -/
def aliasSource : Source := ⟨"orders", some "postgres-playground"⟩

theorem alias_has_no_place :
    ¬ HasPlace configured aliasSource (deriveNamespace (fun _ => 0) "u1" 1) "SELECT 1" := by
  intro h
  have hsafe := (deriveNamespace_form (fun _ => 0) "u1" 1).resource
  have hservice : aliasSource.dockerService = some "postgres-playground" := rfl
  have hsidecar : sidecarOf "postgres-playground" = some .postgres := rfl
  obtain ⟨events, result, hrun, hcalled⟩ :=
    dispatch_scoped configured "SELECT 1" hsafe hservice hsidecar
  obtain ⟨event, hevent, _⟩ := h .postgres _ events result (by decide) hrun hcalled [] (.ok ())
    (provision_skipped hservice rfl)
  cases hevent

end PlaygroundSourceScope
