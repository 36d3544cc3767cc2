import M8flow.Lib.Text

/-!
# Connector templates

`connectors/templates.py` with its registry, as far as profiles read it: the fields of a
profile, each with its label, whether it is required and whether it is stored as a secret.
-/

namespace M8flow.Connectors

open M8flow.Lib

/-- An entry of `profileFields`. -/
structure ProfileField where
  id : Text
  label : String
  required : Bool
  secret : Bool
  deriving Repr, DecidableEq

/-- A descriptor. -/
structure Template where
  id : Text
  profileFields : List ProfileField
  deriving Repr, DecidableEq

/-- `_secret`. -/
def secretField (fieldId : String) (label : String) (required : Bool) : ProfileField :=
  ⟨fieldId.toList, label, required, true⟩

/-- `http_descriptor`. -/
def httpDescriptor : Template :=
  ⟨"http".toList, [secretField "basic_auth_username" "Basic auth username" false,
    secretField "basic_auth_password" "Basic auth password" false]⟩

/-- `github_descriptor`. -/
def githubDescriptor : Template :=
  ⟨"github".toList, [secretField "token" "Personal access token" true]⟩

/-- `n8n_descriptor`. -/
def n8nDescriptor : Template :=
  ⟨"n8n".toList, [secretField "base_url" "Base URL" false, secretField "api_key" "API key" false]⟩

/-- `smtp_descriptor`. -/
def smtpDescriptor : Template :=
  ⟨"smtp".toList, [secretField "smtp_host" "Host" true, secretField "smtp_port" "Port" true,
    secretField "smtp_starttls" "Use STARTTLS" false,
    secretField "email_from" "From address" false, secretField "smtp_user" "Username" false,
    secretField "smtp_password" "Password" false]⟩

/-- `slack_descriptor`. -/
def slackDescriptor : Template := ⟨"slack".toList, [secretField "token" "Bot token" true]⟩

/-- `salesforce_descriptor`. -/
def salesforceDescriptor : Template :=
  ⟨"salesforce".toList, [secretField "instance_url" "Instance URL" true,
    secretField "access_token" "Access token" true,
    secretField "refresh_token" "Refresh token" false, secretField "client_id" "Client ID" false,
    secretField "client_secret" "Client secret" false]⟩

/-- `stripe_descriptor`. -/
def stripeDescriptor : Template := ⟨"stripe".toList, [secretField "api_key" "Secret key" true]⟩

/-- `postgres_descriptor`. -/
def postgresDescriptor : Template :=
  ⟨"postgres_v2".toList, [secretField "database_connection_str" "Connection string" true]⟩

/-- `_TEMPLATES`. -/
def templates : List Template :=
  [httpDescriptor, githubDescriptor, n8nDescriptor, smtpDescriptor, slackDescriptor,
    salesforceDescriptor, stripeDescriptor, postgresDescriptor]

/-- `template_for`. -/
def templateFor (connectorType : Text) : Option Template :=
  templates.find? fun template => template.id = connectorType

/-- `known_connector_type`. -/
def knownConnectorType (connectorType : Text) : Bool := (templateFor connectorType).isSome

/-- The fields of a connector's profiles. -/
def profileFields (connectorType : Text) : List ProfileField :=
  ((templateFor connectorType).map Template.profileFields).getD []

/-- `secret_field_names`. -/
def secretFieldNames (connectorType : Text) : List Text :=
  ((profileFields connectorType).filter ProfileField.secret).map ProfileField.id

/-- The names of fields are made of small letters, digits and underscores. -/
theorem names_of_templates : templates.all (fun template => template.profileFields.all fun field =>
    field.id.all fun c => c.isAlphanum || c = '_') = true := by decide

theorem chars_of_secretFieldNames {connectorType name : Text}
    (h : name ∈ secretFieldNames connectorType) :
    ∀ c ∈ name, c.isAlphanum = true ∨ c = '_' := by
  obtain ⟨field, hfield, hname⟩ := List.mem_map.mp h
  have hmem := List.mem_of_mem_filter hfield
  unfold profileFields templateFor at hmem
  cases hfind : templates.find? fun template => template.id = connectorType with
  | none =>
      rw [hfind] at hmem
      exact absurd hmem List.not_mem_nil
  | some template =>
      rw [hfind] at hmem
      have htemplate := List.all_eq_true.mp names_of_templates template
        (List.mem_of_find?_eq_some hfind)
      have hchars := List.all_eq_true.mp htemplate field hmem
      intro c hc
      rw [← hname] at hc
      have hchar := List.all_eq_true.mp hchars c hc
      rw [Bool.or_eq_true, decide_eq_true_eq] at hchar
      exact hchar

end M8flow.Connectors
