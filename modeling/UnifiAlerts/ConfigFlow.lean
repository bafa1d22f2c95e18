import Mathlib.Data.List.DropRight
import UnifiAlerts.Auth

/-!
# Config entries and their flows

A flow is a sequence of forms. Submitting one is a `take`, and so is the
end of a validation: between the two the flow is suspended in requests
to the controller (`checking…`) and other flows may run. What a flow
does besides moving on is at most one `Write` to the config entries and
some calls on the issue registry; nothing else in Home Assistant happens
between the parts of one `take`.

`react` is what an event makes its flow do, `step` carries it out. Any
list of events is an interleaving of flows.

`_pending_data` is kept with the edits it was made from and the entry
data it was made over, for stating what a flow does.
-/

namespace UnifiAlerts.ConfigFlow

open Py Lib

/-! ## Entries -/

/-- The settings that `entry.options` may hold besides `entry.data`; `none` is an
absent key. -/
structure Settings where
  enabledCategories : Option (List String) := none
  pollInterval : Option Int := none
  clearTimeout : Option Int := none
  site : Option String := none
  minSeverity : Option Json := none

/-- `entry.data`. The keys that are only ever read with one default stand at that
default when they are absent. -/
structure EntryData extends Settings where
  controllerUrl : String
  apiKey : String := ""
  verifySsl : Bool := true
  webhookSecret : String := ""
  webhookIdSuffix : String := ""
  deviceSerial : String := ""

structure ConfigEntry where
  entryId : Nat
  uniqueId : String
  data : EntryData
  options : Settings := {}

/-- `dict(entry.data) | dict(entry.options)` at the site. -/
def ConfigEntry.effectiveSite (entry : ConfigEntry) : String :=
  (entry.options.site.or entry.data.site).getD defaultSite

/-- `url.rstrip("/")`, as the flows and the client's constructor do. -/
def rstripSlash (url : String) : String := String.ofList (url.toList.rdropWhile (· == '/'))

theorem rstripSlash_idem (url : String) : rstripSlash (rstripSlash url) = rstripSlash url := by
  unfold rstripSlash
  rw [String.toList_ofList, List.rdropWhile_idempotent]

/-- `yarl.URL(url).scheme`: parsing may raise, and a relative URL has none. -/
structure Urls where
  scheme : String → Except Exc String
  scheme_empty : scheme "" = .ok ""

def isValidUrlScheme (urls : Urls) (url : String) : Except Exc Bool := do
  let scheme ← urls.scheme url
  return scheme == "http" || scheme == "https"

/-! ## Forms -/

structure UserInput where
  controllerUrl : String
  apiKey : String
  verifySsl : Bool := true

structure CategoriesInput where
  cat : Category → Bool
  minSeverity : Category → Option String := fun _ => none
  pollInterval : Option Int := none
  clearTimeout : Option Int := none
  site : Option String := none

structure CredentialsInput where
  controllerUrl : Option String := none
  apiKey : Option String := none
  verifySsl : Option Bool := none
  regenerateWebhookSecret : Bool := false

/-- `_MIN_SEVERITY_TO_WIDGET`. -/
def minSeverityToWidget : List (MinimumSeverity × String) :=
  [(.noFilter, MinimumSeverity.noFilter.text), (.low, "low"), (.medium, "medium"),
   (.high, "high"), (.veryHigh, "very_high")]

/-- `_WIDGET_TO_MIN_SEVERITY.get(widget, MIN_SEVERITY_NO_FILTER)`. -/
def widgetToMinSeverity (widget : String) : MinimumSeverity :=
  ((minSeverityToWidget.find? fun p => p.2 == widget).map Prod.fst).getD .noFilter

namespace CategoriesInput

def enabled (input : CategoriesInput) : List String :=
  (allCategories.filter input.cat).map Category.name

def chosenSite (input : CategoriesInput) : String := input.site.getD defaultSite

/-- What a valid categories form stores. -/
def settings (input : CategoriesInput) : Settings where
  enabledCategories := some input.enabled
  pollInterval := some (input.pollInterval.getD defaultPollInterval)
  clearTimeout := some (input.clearTimeout.getD defaultClearTimeout)
  site := some input.chosenSite
  minSeverity := some (.obj (allCategories.map fun c => (c.name, .str (widgetToMinSeverity
    ((input.minSeverity c).getD MinimumSeverity.noFilter.text)).text)))

end CategoriesInput

/-- `_CredentialsFormInput`. -/
structure CredentialsFormInput where
  newUrlRaw : String
  newApiKey : String
  regenerateSecret : Bool
  newVerifySsl : Bool
  verifySslChanged : Bool
  credentialsChanged : Bool

def parseCredentialsFormInput (input : CredentialsInput) (current : EntryData) :
    CredentialsFormInput :=
  let newUrlRaw := strip (input.controllerUrl.getD "")
  let newApiKey := strip (input.apiKey.getD "")
  let newVerifySsl := input.verifySsl.getD current.verifySsl
  { newUrlRaw, newApiKey
    regenerateSecret := input.regenerateWebhookSecret
    newVerifySsl
    verifySslChanged := newVerifySsl != current.verifySsl
    credentialsChanged := newUrlRaw != "" || newApiKey != "" }

/-! ## Staged data -/

/-- The fields that a credentials form can edit. -/
structure Edits where
  controllerUrl : Option String := none
  apiKey : Option String := none
  verifySsl : Option Bool := none
  webhookSecret : Option String := none

namespace CredentialsFormInput

def changesNothing (parsed : CredentialsFormInput) : Bool :=
  !parsed.credentialsChanged && !parsed.regenerateSecret && !parsed.verifySslChanged

/-- What the user entered; a typed URL counts in its stripped form. -/
def edits (parsed : CredentialsFormInput) (secret : String) : Edits where
  controllerUrl := if parsed.newUrlRaw != "" then some (rstripSlash parsed.newUrlRaw) else none
  apiKey := if parsed.newApiKey != "" then some parsed.newApiKey else none
  verifySsl := if parsed.verifySslChanged then some parsed.newVerifySsl else none
  webhookSecret := if parsed.regenerateSecret then some secret else none

def effectiveUrl (parsed : CredentialsFormInput) (current : EntryData) : String :=
  if parsed.newUrlRaw != "" then rstripSlash parsed.newUrlRaw else current.controllerUrl

/-- `{**data, **_credential_overrides(parsed)}`. -/
def credentialOverrides (parsed : CredentialsFormInput) (data : EntryData) : EntryData :=
  if parsed.newApiKey != "" then { data with apiKey := parsed.newApiKey } else data

end CredentialsFormInput

/-- `secret` is the `secrets.token_urlsafe(32)` of this call. -/
def buildVerifySslAndSecretOnlyPending (current : EntryData) (parsed : CredentialsFormInput)
    (secret : String) : EntryData :=
  let pending := if parsed.verifySslChanged then { current with verifySsl := parsed.newVerifySsl }
    else current
  if parsed.regenerateSecret then { pending with webhookSecret := secret } else pending

def buildCredentialsTestData (current : EntryData) (effectiveUrl : String)
    (parsed : CredentialsFormInput) : EntryData :=
  parsed.credentialOverrides
    { current with controllerUrl := effectiveUrl, verifySsl := parsed.newVerifySsl }

def buildCredentialsPendingData (current : EntryData) (effectiveUrl : String)
    (parsed : CredentialsFormInput) (secret : String) : EntryData :=
  let pending := parsed.credentialOverrides
    { current with controllerUrl := effectiveUrl, verifySsl := parsed.newVerifySsl }
  if parsed.regenerateSecret then { pending with webhookSecret := secret } else pending

/-! What staged data keeps. -/

section

variable {current : EntryData} {effectiveUrl : String} {parsed : CredentialsFormInput}
  {secret : String}

@[simp] theorem verifySslPending_controllerUrl :
    (buildVerifySslAndSecretOnlyPending current parsed secret).controllerUrl =
      current.controllerUrl := by
  unfold buildVerifySslAndSecretOnlyPending
  split <;> split <;> rfl

@[simp] theorem verifySslPending_apiKey :
    (buildVerifySslAndSecretOnlyPending current parsed secret).apiKey = current.apiKey := by
  unfold buildVerifySslAndSecretOnlyPending
  split <;> split <;> rfl

@[simp] theorem verifySslPending_deviceSerial :
    (buildVerifySslAndSecretOnlyPending current parsed secret).deviceSerial =
      current.deviceSerial := by
  unfold buildVerifySslAndSecretOnlyPending
  split <;> split <;> rfl

@[simp] theorem verifySslPending_settings :
    (buildVerifySslAndSecretOnlyPending current parsed secret).toSettings =
      current.toSettings := by
  unfold buildVerifySslAndSecretOnlyPending
  split <;> split <;> rfl

@[simp] theorem credentialsPending_controllerUrl :
    (buildCredentialsPendingData current effectiveUrl parsed secret).controllerUrl =
      effectiveUrl := by
  unfold buildCredentialsPendingData CredentialsFormInput.credentialOverrides
  split <;> split <;> rfl

@[simp] theorem credentialsPending_apiKey :
    (buildCredentialsPendingData current effectiveUrl parsed secret).apiKey =
      if parsed.newApiKey != "" then parsed.newApiKey else current.apiKey := by
  unfold buildCredentialsPendingData CredentialsFormInput.credentialOverrides
  split <;> split <;> rfl

@[simp] theorem credentialsPending_deviceSerial :
    (buildCredentialsPendingData current effectiveUrl parsed secret).deviceSerial =
      current.deviceSerial := by
  unfold buildCredentialsPendingData CredentialsFormInput.credentialOverrides
  split <;> split <;> rfl

@[simp] theorem credentialsPending_settings :
    (buildCredentialsPendingData current effectiveUrl parsed secret).toSettings =
      current.toSettings := by
  unfold buildCredentialsPendingData CredentialsFormInput.credentialOverrides
  split <;> split <;> rfl

@[simp] theorem credentialsTest_apiKey :
    (buildCredentialsTestData current effectiveUrl parsed).apiKey =
      if parsed.newApiKey != "" then parsed.newApiKey else current.apiKey := by
  unfold buildCredentialsTestData CredentialsFormInput.credentialOverrides
  split <;> rfl

end

/-! ## Validation -/

/-- `authenticate` and `validate_connectivity(site)` on a client of its own. The
answers are those of the controller at `url`. -/
def validateCredentials (net : Net) (url apiKey site : String) : Except Error Unit :=
  let net := { net with base := rstripSlash url }
  let checks : ClientM Unit := do
    authenticate net apiKey
    let _ ← validateConnectivity net site
  (checks {}).1

/-- A field of the form and the key of its message. -/
abbrev FormError : Type := String × String

def invalidUrlScheme : FormError := ("controller_url", "invalid_url_scheme")
def atLeastOneCategory : FormError := ("base", "at_least_one_category")

/-- The `except` clauses of the three credentials forms, which differ in the field that
a certificate error is shown at; `none` is an exception that none of them takes. -/
def credentialError (sslField : String) : Error → Option FormError
  | .invalidAuth _ => some ("base", "invalid_auth")
  | .cannotConnect .sslCertificate _ => some (sslField, "invalid_ssl_cert")
  | .cannotConnect .alarmEndpointUnavailable _ => some ("base", "alarm_endpoint_unavailable")
  | .cannotConnect _ _ => some ("base", "cannot_connect")
  | _ => none

/-- Those of the two categories forms. -/
def siteError : Error → Option FormError
  | .cannotConnect .invalidSite _ => some ("site", "invalid_site")
  | .cannotConnect .alarmEndpointUnavailable _ => some ("base", "alarm_endpoint_unavailable")
  | .invalidAuth _ => some ("base", "cannot_connect")
  | .cannotConnect _ _ => some ("base", "cannot_connect")
  | _ => none

/-- Those of the reauth form. -/
def reauthError : Error → Option FormError
  | .invalidAuth _ => some ("base", "invalid_auth")
  | .cannotConnect .sslCertificate _ => some ("base", "invalid_ssl_cert")
  | .cannotConnect _ _ => some ("base", "cannot_connect")
  | _ => none

/-! ## Flows -/

inductive SetupStep
  | user
  | checkingUser (input : UserInput)
  | categories (credentials : EntryData)
  | checkingSite (credentials : EntryData) (input : CategoriesInput)
  | finish (entryData : EntryData)

structure SetupFlow where
  uniqueId : String := ""
  controllerUrl : String := ""
  deviceSerial : String := ""
  step : SetupStep := .user
  errors : List FormError := []

inductive OptionsStep
  | credentials
  | checkingCredentials (effectiveUrl : String) (parsed : CredentialsFormInput)
    (testData : EntryData)
  | categories
  | checkingSite (creds : EntryData) (input : CategoriesInput)
  | finish

structure OptionsFlow where
  entryId : Nat
  pendingOptions : Settings := {}
  pendingData : Option EntryData := none
  edits : Edits := {}
  read : Option EntryData := none
  step : OptionsStep := .credentials
  errors : List FormError := []

inductive ReconfigureStep
  | form
  | checking (effectiveUrl : String) (parsed : CredentialsFormInput) (testData : EntryData)

structure ReconfigureFlow where
  entryId : Nat
  step : ReconfigureStep := .form
  errors : List FormError := []

inductive ReauthStep
  | confirm
  | checking (url apiKey : String)

structure ReauthFlow where
  entryId : Nat
  step : ReauthStep := .confirm
  errors : List FormError := []

inductive Flow
  | setup (flow : SetupFlow)
  | options (flow : OptionsFlow)
  | reconfigure (flow : ReconfigureFlow)
  | reauth (flow : ReauthFlow)

/-! ## Home Assistant -/

inductive Write
  | create (uniqueId : String) (data : EntryData)
  | update (entryId : Nat) (data : Option EntryData) (uniqueId : Option String)
    (options : Option Settings)

inductive IssueCall
  | create (issueId : String)
  | delete (issueId : String)

/-- What a flow does at one event: `flow := none` ends it. -/
structure Outcome where
  flow : Option Flow
  write : Option Write := none
  issues : List IssueCall := []

structure Hass where
  entries : List ConfigEntry := []
  nextEntry : Nat := 0
  flows : Nat → Option Flow := fun _ => none
  issues : List String := []

/-- The host of an SSDP location. -/
structure Host where
  name : String
  nonempty : name ≠ ""
  noSlash : '/' ∉ name.toList

inductive Start
  | user
  | ssdp (host : Option Host) (serial : Option String)
  | options (entryId : Nat)
  | reconfigure (entryId : Nat)
  | reauth (entryId : Nat)

/-- What a flow in progress gets: a submitted form, or the end of the validation it
is suspended in. The strings are what `secrets` returns there. -/
inductive Input
  | user (input : UserInput)
  | categories (input : CategoriesInput)
  | credentials (input : CredentialsInput) (secret : String)
  | reauth (apiKey : String)
  | finish
  | answer (net : Net) (secret suffix : String)

inductive FlowEvent
  | start (id : Nat) (kind : Start)
  | take (id : Nat) (input : Input)
  | abandon (id : Nat)

def FlowEvent.id : FlowEvent → Nat
  | .start id _ => id
  | .take id _ => id
  | .abandon id => id

namespace Hass

/-- No flow is in progress. -/
def idle (h : Hass) : Hass := { h with flows := fun _ => none }

def findEntry (h : Hass) (entryId : Nat) : Option ConfigEntry :=
  h.entries.find? fun entry => entry.entryId == entryId

/-- `_abort_if_unique_id_configured` aborts. -/
def configured (h : Hass) (uniqueId : String) : Bool :=
  h.entries.any fun entry => entry.uniqueId == uniqueId

def findEntryBySerial (h : Hass) (serial : String) : Option ConfigEntry :=
  h.entries.find? fun entry => entry.data.deviceSerial == serial

def findDuplicateEntry (h : Hass) (currentEntryId : Nat) (url : String) : Option ConfigEntry :=
  h.entries.find? fun entry => entry.entryId != currentEntryId && entry.data.controllerUrl == url

end Hass

/-! ## The setup flow -/

/-- The form again, with the error that `ladder` makes of the exception; one that
it does not take leaves the flow at the form as it was. -/
def formErrors (ladder : Error → Option FormError) (old : List FormError) (e : Error) :
    List FormError :=
  match ladder e with
  | some error => [error]
  | none => old

namespace SetupFlow

def submitUser (urls : Urls) (h : Hass) (flow : SetupFlow) (input : UserInput) : Outcome :=
  let url := rstripSlash input.controllerUrl
  match isValidUrlScheme urls url with
  | .error _ => { flow := some (.setup flow) }
  | .ok false => { flow := some (.setup { flow with errors := [invalidUrlScheme] }) }
  | .ok true =>
    if h.configured url then { flow := none }
    else { flow := some (.setup { flow with uniqueId := url, step := .checkingUser input }) }

/-- The rest of `async_step_user`. The credentials keep the URL as it was typed. -/
def userChecked (flow : SetupFlow) (input : UserInput) (net : Net) (secret suffix : String) :
    SetupFlow :=
  let url := rstripSlash input.controllerUrl
  match validateCredentials net url input.apiKey defaultSite with
  | .error e => { flow with
      step := .user, errors := formErrors (credentialError "controller_url") flow.errors e }
  | .ok () => { flow with
      controllerUrl := url
      errors := []
      step := .categories {
        controllerUrl := input.controllerUrl
        apiKey := input.apiKey
        verifySsl := input.verifySsl
        webhookSecret := secret
        webhookIdSuffix := suffix
        deviceSerial := flow.deviceSerial } }

def submitCategories (flow : SetupFlow) (credentials : EntryData) (input : CategoriesInput) :
    SetupFlow :=
  if input.enabled = [] then { flow with errors := [atLeastOneCategory] }
  else if input.chosenSite ≠ defaultSite then
    { flow with step := .checkingSite credentials input }
  else { flow with
    errors := [], step := .finish { credentials with toSettings := input.settings } }

def siteChecked (flow : SetupFlow) (credentials : EntryData) (input : CategoriesInput)
    (net : Net) : SetupFlow :=
  match validateCredentials net flow.controllerUrl credentials.apiKey input.chosenSite with
  | .error e => { flow with
      step := .categories credentials, errors := formErrors siteError flow.errors e }
  | .ok () => { flow with
      errors := [], step := .finish { credentials with toSettings := input.settings } }

def take (urls : Urls) (h : Hass) (flow : SetupFlow) (input : Input) : Option Outcome :=
  match flow.step, input with
  | .user, .user input => some (flow.submitUser urls h input)
  | .checkingUser input, .answer net secret suffix =>
    some { flow := some (.setup (flow.userChecked input net secret suffix)) }
  | .categories credentials, .categories input =>
    some { flow := some (.setup (flow.submitCategories credentials input)) }
  | .checkingSite credentials input, .answer net _ _ =>
    some { flow := some (.setup (flow.siteChecked credentials input net)) }
  | .finish entryData, .finish =>
    some { flow := none, write := some (.create flow.uniqueId entryData) }
  | _, _ => none

end SetupFlow

/-- `async_step_ssdp`, up to the user form. -/
def ssdp (h : Hass) (host : Option Host) (serial : Option String) : Outcome :=
  match host with
  | none => { flow := none }
  | some host =>
    let url := "https://" ++ host.name
    let flow : SetupFlow := { uniqueId := url, controllerUrl := url }
    if h.configured url then { flow := none }
    else match serial.filter (· != "") with
      | none => { flow := some (.setup flow) }
      | some serial =>
        match (h.findEntryBySerial serial).filter (·.data.controllerUrl != url) with
        | some existing => {
            flow := none
            write := some (.update existing.entryId
              (some { existing.data with controllerUrl := url, deviceSerial := serial })
              (some url) none) }
        | none => { flow := some (.setup { flow with deviceSerial := serial }) }

/-! ## The options flow -/

namespace OptionsFlow

def stage (flow : OptionsFlow) (pending read : EntryData) (edits : Edits) : OptionsFlow :=
  { flow with
    pendingData := some pending, read := some read, edits, step := .categories, errors := [] }

def submitCredentials (urls : Urls) (entry : ConfigEntry) (flow : OptionsFlow)
    (input : CredentialsInput) (secret : String) : OptionsFlow :=
  let parsed := parseCredentialsFormInput input entry.data
  if parsed.changesNothing then { flow with step := .categories, errors := [] }
  else if !parsed.credentialsChanged then
    flow.stage (buildVerifySslAndSecretOnlyPending entry.data parsed secret) entry.data
      (parsed.edits secret)
  else
    let effectiveUrl := parsed.effectiveUrl entry.data
    match isValidUrlScheme urls effectiveUrl with
    | .error _ => flow
    | .ok false => { flow with errors := [invalidUrlScheme] }
    | .ok true =>
      let testData := buildCredentialsTestData entry.data effectiveUrl parsed
      { flow with step := .checkingCredentials effectiveUrl parsed testData }

/-- The rest of `async_step_credentials`; `none` aborts the flow. -/
def credentialsChecked (h : Hass) (entry : ConfigEntry) (flow : OptionsFlow)
    (effectiveUrl : String) (parsed : CredentialsFormInput) (testData : EntryData) (net : Net)
    (secret : String) : Option OptionsFlow :=
  match validateCredentials net effectiveUrl testData.apiKey defaultSite with
  | .error e => some { flow with
      step := .credentials, errors := formErrors (credentialError "base") flow.errors e }
  | .ok () =>
    if effectiveUrl ≠ entry.data.controllerUrl ∧
        (h.findDuplicateEntry entry.entryId effectiveUrl).isSome then none
    else some (flow.stage (buildCredentialsPendingData entry.data effectiveUrl parsed secret)
      { entry.data with controllerUrl := effectiveUrl, verifySsl := parsed.newVerifySsl }
      (parsed.edits secret))

def submitCategories (entry : ConfigEntry) (flow : OptionsFlow) (input : CategoriesInput) :
    OptionsFlow :=
  if input.enabled = [] then { flow with errors := [atLeastOneCategory] }
  else if input.chosenSite ≠ defaultSite then
    { flow with step := .checkingSite (flow.pendingData.getD entry.data) input }
  else { flow with errors := [], pendingOptions := input.settings, step := .finish }

def siteChecked (flow : OptionsFlow) (creds : EntryData) (input : CategoriesInput) (net : Net) :
    OptionsFlow :=
  match validateCredentials net creds.controllerUrl creds.apiKey input.chosenSite with
  | .error e => { flow with
      step := .categories, errors := formErrors siteError flow.errors e }
  | .ok () => { flow with errors := [], pendingOptions := input.settings, step := .finish }

def rotatedIssue (entryId : Nat) : String := s!"{issueIdWebhookSecretRotated}_{entryId}"

/-- The `unique_id` argument of the final update. -/
def newUniqueId (entry : ConfigEntry) (pending : EntryData) : Option String :=
  if pending.controllerUrl ≠ "" ∧ pending.controllerUrl ≠ entry.data.controllerUrl then
    some pending.controllerUrl
  else none

/-- `async_step_finish`. Staged data without a secret does not count as rotated. -/
def submitFinish (entry : ConfigEntry) (flow : OptionsFlow) : Outcome :=
  match flow.pendingData with
  | none => {
      flow := none
      write := some (.update entry.entryId none none (some flow.pendingOptions)) }
  | some pending => {
      flow := none
      write := some (.update entry.entryId (some pending) (newUniqueId entry pending)
        (some flow.pendingOptions))
      issues :=
        if pending.webhookSecret ≠ "" ∧ pending.webhookSecret ≠ entry.data.webhookSecret then
          [.create (rotatedIssue entry.entryId)]
        else [] }

def take (urls : Urls) (h : Hass) (entry : ConfigEntry) (flow : OptionsFlow) (input : Input) :
    Option Outcome :=
  match flow.step, input with
  | .credentials, .credentials input secret =>
    some { flow := some (.options (flow.submitCredentials urls entry input secret)) }
  | .checkingCredentials effectiveUrl parsed testData, .answer net secret _ =>
    let checked := flow.credentialsChecked h entry effectiveUrl parsed testData net secret
    some { flow := checked.map Flow.options }
  | .categories, .categories input =>
    some { flow := some (.options (flow.submitCategories entry input)) }
  | .checkingSite creds input, .answer net _ _ =>
    some { flow := some (.options (flow.siteChecked creds input net)) }
  | .finish, .finish => some (flow.submitFinish entry)
  | _, _ => none

end OptionsFlow

/-! ## Reconfigure and reauth -/

namespace ReconfigureFlow

def submit (urls : Urls) (entry : ConfigEntry) (flow : ReconfigureFlow)
    (input : CredentialsInput) (secret : String) : Outcome :=
  let parsed := parseCredentialsFormInput input entry.data
  if parsed.changesNothing then { flow := none }
  else if !parsed.credentialsChanged then {
    flow := none
    write := some (.update entry.entryId
      (some (buildVerifySslAndSecretOnlyPending entry.data parsed secret)) none none) }
  else
    let effectiveUrl := parsed.effectiveUrl entry.data
    match isValidUrlScheme urls effectiveUrl with
    | .error _ => { flow := some (.reconfigure flow) }
    | .ok false => { flow := some (.reconfigure { flow with errors := [invalidUrlScheme] }) }
    | .ok true =>
      let testData := buildCredentialsTestData entry.data effectiveUrl parsed
      { flow := some (.reconfigure { flow with step := .checking effectiveUrl parsed testData }) }

def checked (h : Hass) (entry : ConfigEntry) (flow : ReconfigureFlow) (effectiveUrl : String)
    (parsed : CredentialsFormInput) (testData : EntryData) (net : Net) (secret : String) :
    Outcome :=
  match validateCredentials net effectiveUrl testData.apiKey defaultSite with
  | .error e => { flow := some (.reconfigure { flow with
      step := .form, errors := formErrors (credentialError "base") flow.errors e }) }
  | .ok () =>
    let urlChanged := effectiveUrl ≠ entry.data.controllerUrl
    if urlChanged ∧ (h.findDuplicateEntry entry.entryId effectiveUrl).isSome then { flow := none }
    else {
      flow := none
      write := some (.update entry.entryId
        (some (buildCredentialsPendingData entry.data effectiveUrl parsed secret))
        (if urlChanged then some effectiveUrl else none) none) }

def take (urls : Urls) (h : Hass) (entry : ConfigEntry) (flow : ReconfigureFlow)
    (input : Input) : Option Outcome :=
  match flow.step, input with
  | .form, .credentials input secret => some (flow.submit urls entry input secret)
  | .checking effectiveUrl parsed testData, .answer net secret _ =>
    some (flow.checked h entry effectiveUrl parsed testData net secret)
  | _, _ => none

end ReconfigureFlow

namespace ReauthFlow

def authFailedIssue (entryId : Nat) : String := s!"{issueIdAuthFailed}_{entryId}"
def apikeyMigrationIssue (entryId : Nat) : String := s!"{issueIdApikeyMigration}_{entryId}"

/-- `async_step_reauth`: an entry without a key is one that the migration left so. -/
def start (entry : ConfigEntry) : Outcome where
  flow := some (.reauth { entryId := entry.entryId })
  issues := if entry.data.apiKey = "" then [.create (apikeyMigrationIssue entry.entryId)]
    else [.create (authFailedIssue entry.entryId)]

def checked (entry : ConfigEntry) (flow : ReauthFlow) (url apiKey : String) (net : Net) :
    Outcome :=
  match (authenticate { net with base := rstripSlash url } apiKey {}).1 with
  | .error e => { flow := some (.reauth { flow with
      step := .confirm, errors := formErrors reauthError flow.errors e }) }
  | .ok () => {
      flow := none
      write := some (.update entry.entryId (some { entry.data with apiKey }) none none)
      issues := [.delete (authFailedIssue entry.entryId),
        .delete (apikeyMigrationIssue entry.entryId)] }

def take (entry : ConfigEntry) (flow : ReauthFlow) (input : Input) : Option Outcome :=
  match flow.step, input with
  | .confirm, .reauth apiKey => some { flow := some (.reauth { flow with
      step := .checking entry.data.controllerUrl apiKey }) }
  | .checking url apiKey, .answer net _ _ => some (flow.checked entry url apiKey net)
  | _, _ => none

end ReauthFlow

/-! ## Events -/

namespace Hass

def start (h : Hass) : Start → Option Outcome
  | .user => some { flow := some (.setup {}) }
  | .ssdp host serial => some (ssdp h host serial)
  | .options entryId => (h.findEntry entryId).map fun entry =>
      { flow := some (.options { entryId := entry.entryId }) }
  | .reconfigure entryId => (h.findEntry entryId).map fun entry =>
      { flow := some (.reconfigure { entryId := entry.entryId }) }
  | .reauth entryId => (h.findEntry entryId).map ReauthFlow.start

def take (urls : Urls) (h : Hass) (flow : Flow) (input : Input) : Option Outcome :=
  match flow with
  | .setup flow => flow.take urls h input
  | .options flow => (h.findEntry flow.entryId).bind fun entry => flow.take urls h entry input
  | .reconfigure flow => (h.findEntry flow.entryId).bind fun entry => flow.take urls h entry input
  | .reauth flow => (h.findEntry flow.entryId).bind fun entry => flow.take entry input

/-- What the event makes its flow do; `none` when there is nothing that gets it. -/
def react (urls : Urls) (h : Hass) : FlowEvent → Option Outcome
  | .start id kind => if (h.flows id).isSome then none else h.start kind
  | .take id input => (h.flows id).bind fun flow => h.take urls flow input
  | .abandon id => (h.flows id).map fun _ => { flow := none }

end Hass

def ConfigEntry.update (entry : ConfigEntry) (data : Option EntryData) (uniqueId : Option String)
    (options : Option Settings) : ConfigEntry :=
  { entry with
    data := data.getD entry.data
    uniqueId := uniqueId.getD entry.uniqueId
    options := options.getD entry.options }

namespace Hass

def write (h : Hass) : Write → Hass
  | .create uniqueId data => { h with
      entries := h.entries ++ [{ entryId := h.nextEntry, uniqueId, data }]
      nextEntry := h.nextEntry + 1 }
  | .update entryId data uniqueId options => { h with
      entries := h.entries.map fun entry =>
        if entry.entryId = entryId then entry.update data uniqueId options else entry }

def callIssue (issues : List String) : IssueCall → List String
  | .create issueId => if issues.contains issueId then issues else issues ++ [issueId]
  | .delete issueId => issues.filter (· != issueId)

/-- The outcome carried out. -/
def finish (h : Hass) (id : Nat) (outcome : Outcome) : Hass :=
  let written := match outcome.write with
    | some w => h.write w
    | none => h
  { written with
    flows := Function.update h.flows id outcome.flow
    issues := outcome.issues.foldl callIssue h.issues }

def step (urls : Urls) (h : Hass) (event : FlowEvent) : Hass :=
  match h.react urls event with
  | none => h
  | some outcome => h.finish event.id outcome

end Hass

/-! ## Concrete parameters -/

/-- The scheme of an absolute web URL. -/
def webUrls : Urls where
  scheme url :=
    .ok (if startsWith url "https://" then "https" else if startsWith url "http://" then "http"
      else "")
  scheme_empty := rfl

/-- A controller that accepts the key and has the v2 system log. -/
def acceptingNet : Net where
  text := Text.counting fun _ => none
  base := ""
  now := 0
  respond _ request := match request with
    | .get _ => .response { status := 200, content := .value (.obj [("meta",
        .obj [("rc", .str "ok")])]) }
    | _ => .response { status := 200, content := .empty }

def everyCategory : CategoriesInput where
  cat _ := true

end UnifiAlerts.ConfigFlow
