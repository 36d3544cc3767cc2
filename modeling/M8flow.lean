import M8flow.ExternalForm.Guard
import M8flow.ExternalForm.Absorbing
import M8flow.ExternalForm.Outcome
import M8flow.ExternalForm.Delivery
import M8flow.ExternalForm.OpenLinks
import M8flow.Nats.ExactlyOnce
import M8flow.Nats.AuditTrail
import M8flow.Template.Frozen
import M8flow.Auth.Selection
import M8flow.Identity.Binding
import M8flow.Auth.Bind
import M8flow.Auth.Agreement
import M8flow.Authorization.Lanes
import M8flow.Authorization.Isolation
import M8flow.Authorization.Lifecycle
import M8flow.Catalog.Containment
import M8flow.Catalog.Rejected
import M8flow.Catalog.Accepted
import M8flow.Catalog.Deletion
import M8flow.Celery.Convergence
import M8flow.Mcp.Organizations
import M8flow.Auth.MembershipCache
import M8flow.Invitation.OnePending
import M8flow.Invitation.SingleUse
import M8flow.Identity.TemporaryMembership
import M8flow.Mcp.Selection
import M8flow.Workflow.Start
import M8flow.Workflow.TaskData
import M8flow.Workflow.EventLog
import M8flow.Workflow.CallActivity
import M8flow.Workflow.FormWrites
import M8flow.Workflow.Metadata
import M8flow.Workflow.Outcomes
import M8flow.Workflow.OutcomeGateway
import M8flow.Workflow.OutcomeButtons
import M8flow.Secrets.Masking
import M8flow.Lib.Percent
import M8flow.Secrets.Paths
import M8flow.Secrets.Isolation
import M8flow.Secrets.Store
import M8flow.Secrets.Backends
import M8flow.Secrets.Values
import M8flow.Connectors.Templates
import M8flow.Connectors.Service
import M8flow.Connectors.Held
import M8flow.Template.FileEdits
import M8flow.Template.Usable
import M8flow.Template.AllOrNothing
import M8flow.Identity.Removal
import M8flow.Authorization.UnknownAction
import M8flow.Authorization.NormalForm
import M8flow.Workflow.CompletionEvents
import M8flow.Workflow.Deletion
import M8flow.Catalog.ConcurrentCreate
import M8flow.Catalog.ModelStays
import M8flow.Lib.Xml
import M8flow.Workflow.ModelTests
import M8flow.Workflow.DiagramXml
import M8flow.Lib.PyLiteral
import M8flow.Lib.Separator
import M8flow.Lib.Url
import M8flow.Lib.Lower
import M8flow.Lib.Link
import M8flow.Keycloak.Oidc
import M8flow.Keycloak.Provider
import M8flow.Keycloak.Trust
import M8flow.Workflow.TestVerdicts
import M8flow.Keycloak.RealmTemplate
import M8flow.Keycloak.TenantRealm
import M8flow.Lib.Results
import M8flow.Lib.JsonObject
import M8flow.Auth.SafeRedirect
import M8flow.Lib.Codec
import M8flow.Template.Archive
import M8flow.Template.RoundTrip
import M8flow.Lib.JsonCanonical
import M8flow.Nats.Trigger
import M8flow.Identity.AvailableUsers
import M8flow.Template.NextVersion
import M8flow.Authorization.PathPatterns
import M8flow.Lib.Cookie
import M8flow.Mcp.Headers
import M8flow.Keycloak.GroupPaths
import M8flow.Keycloak.DefaultGroups
import M8flow.Migration.JsonData
import M8flow.Lib.Sql
import M8flow.Migration.CoreContract
import M8flow.Migration.CoreUpgrade
import M8flow.Migration.LosesNothing
import M8flow.Identity.Seeding
import M8flow.Identity.SeedingLaws
import M8flow.Identity.Seeding
import M8flow.Identity.SeedingLaws
import M8flow.Identity.SeedingRuns
import M8flow.Identity.SeedingRuns
import M8flow.Identity.SeedingImport
import M8flow.Identity.SeedingChecks
import M8flow.Identity.PermissionDocument
import M8flow.Migration.Permissions
import M8flow.Migration.PermissionSteps
import M8flow.Migration.PermissionRuns
