import M8flow.Identity.SeedingChecks

/-!
# The bundled permissions

The document `m8flow.yml`, and what a tenant has once it is seeded with it.

`m8flowYml_lists` says that the document lists what the checks on a seeded tenant ask for;
`ensurePermissions_bundled` that the request that finds a tenant unseeded seeds it, that the
checks find nothing missing then, and that later requests write nothing.
-/

namespace M8flow.Identity.Seeding

open M8flow.Auth M8flow.Authorization M8flow.Lib

/-- An entry for a route without a command. -/
def route (groups actions : List String) (uri : String) : Permission where
  uris := [uri.toList]
  actions := actions.map String.toList
  command := none
  resourceType := none
  resourceId := none
  groups := groups.map String.toList

def routeFor (groups actions : List String) (uri command : String) : Permission :=
  { route groups actions uri with command := some command.toList }

/-- `m8flow.yml`. -/
def m8flowYml : Document where
  groups := ["super-admin", "tenant-admin", "editor", "viewer", "integrator", "reviewer",
    "submitter"].map String.toList
  permissions :=
   [route ["everybody"] ["read"] "/frontend-access",
    route ["everybody"] ["read"] "/onboarding",
    route ["everybody"] ["create"] "/active-users/*",
    route ["everybody"] ["read"] "/extensions",
    route ["everybody"] ["read"] "/user-groups/for-current-user",
    route ["everybody"] ["create"] "/users/exists/by-username",
    route ["everybody"] ["read"] "/debug/version-info",
    route ["everybody"] ["read"] "/upsearch-locations",
    route ["everybody"] ["read"] "/connector-proxy/typeahead/*",
    route ["everybody"] ["read"] "/script-assist/enabled",
    route ["super-admin"] ["read"] "/frontend-access",
    route ["super-admin"] ["all"] "/m8flow/tenants*",
    route ["tenant-admin"] ["read"] "/m8flow/tenant-management",
    route ["everybody"] ["read"] "/m8flow/organization-memberships",
    route ["everybody"] ["read"] "/m8flow/session",
    route ["tenant-admin"] ["update"] "/m8flow/tenants/*",
    route ["tenant-admin"]
      ["read", "create", "update", "delete"] "/m8flow/tenants/\x7btenant_id\x7d/members*",
    route ["tenant-admin"]
      ["read", "create", "update", "delete"] "/m8flow/tenants/\x7btenant_id\x7d/groups*",
    route ["tenant-admin"] ["read"] "/m8flow/tenants/\x7btenant_id\x7d/available-users*",
    route ["super-admin"] ["all"] "/m8flow/tenant-realms*",
    route ["viewer", "super-admin", "submitter"] ["read"] "PG:ALL",
    route ["tenant-admin", "editor", "super-admin"] ["all"] "PG:ALL",
    route ["tenant-admin", "editor", "viewer", "submitter"] ["read"] "/process-groups",
    routeFor ["viewer", "reviewer", "super-admin", "submitter"]
      ["read"] "PM:ALL" "process_model.read",
    route ["tenant-admin", "editor", "super-admin"] ["all"] "PM:ALL",
    { routeFor ["tenant-admin", "editor"]
      ["create"] "/process-definitions/*" "process_definition.import" with
      resourceType := some "process_definition".toList, resourceId := some "%".toList },
    routeFor ["tenant-admin", "editor", "viewer", "submitter"]
      ["read"] "/process-models" "process_model.list",
    route ["tenant-admin", "editor", "viewer", "super-admin"] ["read"] "/process-model-files/*",
    route ["tenant-admin", "editor", "viewer"] ["read"] "/processes",
    route ["tenant-admin", "editor", "viewer", "reviewer", "super-admin", "submitter"]
      ["read"] "/processes/*",
    routeFor ["tenant-admin", "editor", "super-admin", "submitter"]
      ["start"] "PM:ALL" "process.start",
    routeFor ["tenant-admin"] ["read"] "/process-instances" "process_instance.list",
    route ["editor", "viewer", "submitter"] ["read"] "/process-instances/for-me",
    route ["tenant-admin", "editor", "submitter"] ["create"] "/process-instances/for-me",
    route ["tenant-admin", "editor", "submitter"] ["create"] "/process-instances*",
    route ["tenant-admin", "editor", "viewer", "submitter"]
      ["read"] "/process-instances/report-metadata",
    routeFor ["tenant-admin", "super-admin"]
      ["read"] "/process-instances/*" "process_instance.read",
    routeFor ["tenant-admin", "editor"] ["execute"] "/process-instances/*" "process.suspend",
    routeFor ["tenant-admin", "editor"] ["execute"] "/process-instances/*" "process.resume",
    routeFor ["tenant-admin", "editor"] ["execute"] "/process-instances/*" "process.retry",
    routeFor ["tenant-admin", "editor"] ["execute"] "/process-instances/*" "process.terminate",
    route ["tenant-admin", "editor"] ["delete"] "/process-instances/*",
    route ["tenant-admin", "editor", "viewer", "reviewer", "integrator"] ["read"] "/users/search",
    route ["super-admin"] ["create"] "/process-instances/for-me",
    route ["super-admin"] ["create"] "/process-instances",
    route ["tenant-admin", "editor", "viewer", "super-admin", "submitter"]
      ["read"] "/user-groups/*",
    route ["tenant-admin", "editor", "viewer"] ["read"] "/service-tasks",
    route ["tenant-admin", "editor", "viewer", "reviewer", "super-admin", "submitter"]
      ["read"] "/script-assist/*",
    route ["tenant-admin", "editor", "viewer", "super-admin", "submitter", "integrator"]
      ["read"] "/service-tasks/*",
    route ["tenant-admin", "editor", "viewer", "reviewer", "submitter", "integrator"]
      ["read"] "/service-tasks",
    route ["tenant-admin", "editor", "viewer", "integrator", "super-admin"]
      ["read"] "/m8flow/connectors-grouped",
    route ["tenant-admin", "editor", "viewer", "reviewer", "submitter", "integrator", "super-admin"]
      ["read"] "/m8flow/connector-templates",
    route ["tenant-admin", "editor", "viewer", "reviewer", "submitter", "integrator", "super-admin"]
      ["read"] "/m8flow/connector-templates/*",
    route ["tenant-admin", "editor", "viewer", "reviewer", "submitter", "integrator", "super-admin"]
      ["read"] "/m8flow/connector-profiles",
    route ["tenant-admin", "editor", "viewer", "reviewer", "submitter", "integrator", "super-admin"]
      ["read"] "/m8flow/connector-profiles/*",
    route ["tenant-admin", "integrator", "super-admin"]
      ["create", "update", "delete"] "/m8flow/connector-profiles",
    route ["tenant-admin", "integrator", "super-admin"]
      ["create", "update", "delete"] "/m8flow/connector-profiles/*",
    route ["tenant-admin", "editor", "integrator", "super-admin"] ["read"] "/m8flow/mcp-connection",
    route ["tenant-admin", "super-admin"] ["read"] "/m8flow/mcp-tools",
    route ["tenant-admin", "super-admin"] ["read"] "/m8flow/mcp-tools/ping",
    route ["tenant-admin", "super-admin"] ["create"] "/m8flow/mcp-tools/execute",
    route ["viewer", "super-admin"] ["read"] "/data-stores/*",
    route ["viewer", "super-admin"] ["read"] "/data-stores/types/",
    route ["tenant-admin", "editor"] ["all"] "/data-stores/*",
    route ["tenant-admin", "editor"] ["read"] "/data-stores",
    route ["tenant-admin", "editor"] ["all"] "/data-stores/types/",
    route ["viewer", "super-admin"] ["read"] "/messages/*",
    route ["tenant-admin", "editor"] ["all"] "/messages/*",
    route ["tenant-admin", "editor"] ["read"] "/messages",
    route ["integrator", "viewer", "super-admin"] ["read"] "/secrets",
    route ["integrator", "viewer", "super-admin"] ["read"] "/secrets/*",
    route ["tenant-admin", "integrator", "super-admin"] ["all"] "/secrets",
    route ["tenant-admin", "integrator", "super-admin"] ["all"] "/secrets/*",
    route ["tenant-admin", "editor"] ["all"] "/m8flow/templates",
    route ["tenant-admin", "editor"] ["all"] "/m8flow/templates/*",
    route ["viewer", "super-admin"] ["read"] "/m8flow/templates",
    route ["viewer", "super-admin"] ["read"] "/m8flow/templates/*",
    route ["tenant-admin"] ["all"] "/m8flow/admin/templates",
    route ["tenant-admin", "editor", "viewer", "reviewer", "submitter"]
      ["read"] "/m8flow/templates/process-models/*",
    route ["tenant-admin", "editor", "reviewer", "submitter"] ["all", "execute"] "/tasks/*",
    routeFor ["tenant-admin", "editor", "viewer", "reviewer", "submitter"]
      ["read"] "/tasks" "task.list",
    route ["tenant-admin", "reviewer", "submitter"] ["read"] "/m8flow/task-review-access",
    route ["tenant-admin", "editor", "reviewer", "submitter"]
      ["read"] "/m8flow/task-review-access/*",
    route ["tenant-admin", "editor", "reviewer", "submitter"]
      ["create"] "/m8flow/task-review-access/*/submit",
    route ["tenant-admin", "reviewer", "submitter"] ["read"] "/m8flow/home-task-count",
    routeFor ["viewer", "super-admin"] ["read"] "/tasks/*" "task.read",
    route ["viewer", "super-admin", "submitter"] ["read"] "/task-data/*",
    route ["viewer", "super-admin"] ["read"] "/logs/*",
    route ["super-admin"] ["read"] "/m8flow/nats/*",
    route ["tenant-admin", "super-admin"] ["read"] "/m8flow/nats/events",
    route ["tenant-admin", "super-admin"] ["read"] "/m8flow/nats/events/*",
    route ["super-admin"] ["read"] "/m8flow/celery/*",
    route ["super-admin"] ["create"] "/m8flow/celery/control/*",
    route ["tenant-admin", "super-admin"] ["read"] "/m8flow/nats-tokens",
    route ["tenant-admin", "super-admin"] ["read"] "/m8flow/nats-tokens/*",
    route ["tenant-admin"] ["all"] "/m8flow/nats-tokens",
    route ["tenant-admin"] ["all"] "/m8flow/nats-tokens/*"]

instance (document : Document) (check : GrantCheck) : Decidable (document.Lists check) :=
  inferInstanceAs (Decidable (∀ role ∈ check.roles, ∀ command ∈ check.commands, _))

theorem m8flowYml_lists : ∀ check ∈ seedChecks, m8flowYml.Lists check := by
  decide +kernel

theorem seedChecks_plain : ∀ check ∈ seedChecks, check.Plain := by
  unfold GrantCheck.Plain
  decide

/-- The request that finds its tenant unseeded seeds it, where the authorization keys of the
document's groups are on rows with their identifiers: the marker is current then, no check finds a
grant missing, and the requests after it go on without writing. -/
theorem ensurePermissions_bundled {ρ : Type} (core : Core ρ) (hlaw : core.Lawful) {rows : Rows ρ}
    (hrows : Constraints rows) {tenantId : Text} (hstrip : tenantId.strip = tenantId)
    (htenant : tenantId ≠ [])
    (hkeyed : ∀ identifier ∈ m8flowYml.identifiers (some tenantId),
      KeyedFor rows.groups identifier)
    (hseed : tenantPermissionSeedCurrent rows tenantId = false) {groupIdentifiers : List Text}
    (hgroups : groupIdentifiers ≠ []) :
    ∃ after, ensurePermissions core tenantId groupIdentifiers m8flowYml rows = .ok after ∧
      tenantPermissionSeedCurrent after tenantId = true ∧
      (∀ check ∈ seedChecks, missingPermissionGrants after tenantId check = []) ∧
      ∀ others, ensurePermissions core tenantId others m8flowYml after = .ok after := by
  have hlifecycle : m8flowYml.Lists lifecycleCheck := m8flowYml_lists _ List.mem_cons_self
  have hcurrent := seedCurrent_finish core htenant
    ((plan (some tenantId) m8flowYml).foldl (settle core Request.cacheKey) rows) hstrip
  have hrequire :=
    requireLifecycleGrants_finish hlaw hrows hstrip htenant hkeyed hlifecycle
  refine ⟨_, ?_, hcurrent, fun check hcheck => ?_, fun others => ?_⟩
  · unfold ensurePermissions
    rw [if_neg hgroups, hseed, if_neg Bool.false_ne_true, importYaml_eq hlaw _ hrows]
    exact hrequire groupIdentifiers
  · exact missing_finish hlaw hrows hstrip htenant hkeyed (m8flowYml_lists check hcheck)
      (seedChecks_plain check hcheck)
  · unfold ensurePermissions
    by_cases hothers : others = []
    · rw [if_pos hothers]
    · rw [if_neg hothers, if_pos hcurrent]
      exact hrequire others

theorem demoRows_bundled : ∀ identifier ∈ m8flowYml.identifiers (some "t".toList),
    KeyedFor demoRows.groups identifier := by
  intro identifier hidentifier group hgroup hkey
  have hhead : ∀ identifier ∈ m8flowYml.identifiers (some "t".toList),
      identifier.head? ≠ some 'l' := by decide +kernel
  have hkeys : ∀ group ∈ demoRows.groups, ∀ key ∈ group.authorizationKey,
      groupAuthorizationKey group.identifier = key ∨ key = groupAuthorizationKey "lane:1".toList := by
    decide
  obtain hown | hlane := hkeys group hgroup _ hkey
  · exact groupAuthorizationKey_injective hown
  · rw [groupAuthorizationKey_injective hlane] at hidentifier
    exact absurd rfl (hhead _ hidentifier)

theorem ensurePermissions_bundled_demo :
    ∃ after, ensurePermissions byIdentity "t".toList ["t:editor".toList] m8flowYml demoRows =
        .ok after ∧
      tenantPermissionSeedCurrent after "t".toList = true ∧
      (∀ check ∈ seedChecks, missingPermissionGrants after "t".toList check = []) ∧
      ∀ others, ensurePermissions byIdentity "t".toList others m8flowYml after = .ok after :=
  ensurePermissions_bundled byIdentity byIdentity_lawful demoRows_constraints (by decide)
    (by decide) demoRows_bundled (by decide) (by decide)

end M8flow.Identity.Seeding
