import UnifiAlerts.Identity
import UnifiAlerts.StagedUpdate
import UnifiAlerts.Lib.Run

/-!
# The options flow as one update

An options flow on an entry, from its start through any submissions.
Whatever is submitted, the entry is written by the last form only; what
is staged until then is the entry's data with the edits in it that the
credentials form accepted; a form whose validation fails leaves what is
staged as it was; and the last form writes what is staged together with
the settings that the categories form accepted (`options_flow_atomic`).

`Session` keeps the edits and the settings beside Home Assistant's state,
read off the submissions and not off the flow. That the flow agrees with
them at each of its forms is the invariant (`OptionsFlow.Sound`); beside
it stands that nothing has been written since the start (`Session.Kept`),
so that the entry which a form reads is the one the last form updates.
-/

namespace UnifiAlerts.ConfigFlow

open Py Lib

namespace OptionsFlow

/-- The settings of a submission that the categories form accepts. -/
def accepts (flow : OptionsFlow) (input : Input) : Option Settings :=
  match flow.step, input with
  | .categories, .categories input =>
    if input.enabled ≠ [] ∧ input.chosenSite = defaultSite then some input.settings else none
  | .checkingSite creds input, .answer net _ _ =>
    match validateCredentials net creds.controllerUrl creds.apiKey input.chosenSite with
    | .ok () => some input.settings
    | .error _ => none
  | _, _ => none

/-- The edits of a submission that the credentials form accepts. -/
def enters (h : Hass) (entry : ConfigEntry) (flow : OptionsFlow) (input : Input) :
    Option Edits :=
  match flow.step, input with
  | .credentials, .credentials input secret =>
    let parsed := parseCredentialsFormInput input entry.data
    -- changed credentials are to be validated first
    if parsed.changesNothing || parsed.credentialsChanged then none else some (parsed.edits secret)
  | .checkingCredentials effectiveUrl parsed testData, .answer net secret _ =>
    match validateCredentials net effectiveUrl testData.apiKey defaultSite with
    | .ok () =>
      if effectiveUrl ≠ entry.data.controllerUrl ∧
          (h.findDuplicateEntry entry.entryId effectiveUrl).isSome then none
      else some (parsed.edits secret)
    | .error _ => none
  | _, _ => none

/-- The submission does not pass its validation. -/
def Fails (urls : Urls) (h : Hass) (entry : ConfigEntry) (flow : OptionsFlow) (input : Input) :
    Prop :=
  match flow.step, input with
  | .credentials, .credentials input _ =>
    let parsed := parseCredentialsFormInput input entry.data
    parsed.credentialsChanged = true ∧
      isValidUrlScheme urls (parsed.effectiveUrl entry.data) ≠ .ok true
  | .checkingCredentials effectiveUrl _ testData, .answer net _ _ =>
    validateCredentials net effectiveUrl testData.apiKey defaultSite ≠ .ok () ∨
      effectiveUrl ≠ entry.data.controllerUrl ∧
        (h.findDuplicateEntry entry.entryId effectiveUrl).isSome
  | .categories, .categories input => input.enabled = []
  | .checkingSite creds input, .answer net _ _ =>
    validateCredentials net creds.controllerUrl creds.apiKey input.chosenSite ≠ .ok ()
  | _, _ => False

/-- The flow waits for a validation. -/
def Suspended (flow : OptionsFlow) : Prop :=
  match flow.step with
  | .checkingCredentials .. => True
  | .checkingSite .. => True
  | _ => False

/-- What a submitted finish should come to, with this much staged and accepted. -/
def finished (entry : ConfigEntry) (staged : Option EntryData) (options : Settings) : Outcome where
  flow := none
  write := some (.update entry.entryId staged
    (staged.bind fun data =>
      if data.controllerUrl ≠ entry.data.controllerUrl then some data.controllerUrl else none)
    (some options))
  issues := match staged with
    | some data => if data.webhookSecret ≠ entry.data.webhookSecret then
        [.create (rotatedIssue entry.entryId)] else []
    | none => []

end OptionsFlow

/-- `secrets.token_urlsafe` never returns an empty string. -/
def Input.Generated : Input → Prop
  | .credentials _ secret => secret ≠ ""
  | .answer _ secret _ => secret ≠ ""
  | _ => True

structure Session where
  hass : Hass
  entered : Option Edits := none
  accepted : Option Settings := none

namespace Session

def start (urls : Urls) (h : Hass) (id entryId : Nat) : Session where
  hass := h.step urls (.start id (.options entryId))

def step (urls : Urls) (id : Nat) (s : Session) (input : Input) : Session where
  hass := s.hass.step urls (.take id input)
  entered := match s.hass.flows id with
    | some (.options flow) => ((s.hass.findEntry flow.entryId).bind fun entry =>
        flow.enters s.hass entry input).or s.entered
    | _ => s.entered
  accepted := match s.hass.flows id with
    | some (.options flow) => (flow.accepts input).or s.accepted
    | _ => s.accepted

/-- The contract, for a flow that has got these submissions. -/
structure Atomic (urls : Urls) (h : Hass) (id : Nat) (inputs : List Input) (s : Session) :
    Prop where
  untouched : (∀ input ∈ inputs, input ≠ .finish) →
    s.hass.entries = h.entries ∧ s.hass.issues = h.issues
  staged : ∀ flow entry, s.hass.flows id = some (.options flow) →
    s.hass.findEntry flow.entryId = some entry →
    flow.pendingData = s.entered.map fun edits => edits.apply entry.data
  suspended : ∀ flow flow' input, s.hass.flows id = some (.options flow) →
    (s.step urls id input).hass.flows id = some (.options flow') → flow'.Suspended →
    flow'.pendingData = flow.pendingData ∧ flow'.pendingOptions = flow.pendingOptions
  rejected : ∀ flow entry input, s.hass.flows id = some (.options flow) →
    s.hass.findEntry flow.entryId = some entry → flow.Fails urls s.hass entry input →
    ((s.step urls id input).hass.flows id = none ∨
      ∃ flow', (s.step urls id input).hass.flows id = some (.options flow') ∧
        flow'.pendingData = flow.pendingData ∧ flow'.pendingOptions = flow.pendingOptions) ∧
    (s.step urls id input).hass.entries = s.hass.entries
  finishes : ∀ flow entry, s.hass.flows id = some (.options flow) → flow.step = .finish →
    s.hass.findEntry flow.entryId = some entry →
    h.findEntry flow.entryId = some entry ∧
    ∃ options, s.accepted = some options ∧
      s.hass.react urls (.take id .finish) =
        some (OptionsFlow.finished entry flow.pendingData options) ∧
      ∃ entry', (s.step urls id .finish).hass.findEntry flow.entryId = some entry' ∧
        entry'.data = flow.pendingData.getD entry.data ∧ entry'.options = options

end Session

/-! ## The forms -/

section

variable {urls : Urls} {h : Hass} {entry : ConfigEntry} {flow : OptionsFlow}

/-- What a validation is about: what the form brought, of the entry as it is. -/
structure Checks (entry : ConfigEntry) (effectiveUrl : String) (parsed : CredentialsFormInput) :
    Prop where
  nonempty : effectiveUrl ≠ ""
  url : effectiveUrl = parsed.effectiveUrl entry.data
  form : ∃ input, parsed = parseCredentialsFormInput input entry.data

/-- What holds of the flow at every form. A staged secret or URL is empty only where
the entry has none; these two are the values that the last form passes over. -/
structure OptionsFlow.Sound (entry : ConfigEntry) (flow : OptionsFlow) (entered : Option Edits)
    (accepted : Option Settings) : Prop where
  checking : ∀ url parsed testData,
    flow.step = .checkingCredentials url parsed testData → Checks entry url parsed
  staged : flow.pendingData = entered.map fun edits => edits.apply entry.data
  url : ∀ data, flow.pendingData = some data → data.controllerUrl = "" →
    entry.data.controllerUrl = ""
  secret : ∀ data, flow.pendingData = some data → data.webhookSecret = "" →
    entry.data.webhookSecret = ""
  accepted : flow.step = .finish → accepted = some flow.pendingOptions

/-- A validated form stages its edits over the entry's data. -/
theorem Checks.pending {effectiveUrl : String} {parsed : CredentialsFormInput}
    (hchecks : Checks entry effectiveUrl parsed) (secret : String) :
    buildCredentialsPendingData entry.data effectiveUrl parsed secret =
      (parsed.edits secret).apply entry.data := by
  obtain ⟨-, hurl, input, hform⟩ := hchecks
  rw [credentialsPending_eq fun htyped => by
    rw [hurl]
    exact if_pos (by simpa using htyped)]
  refine Edits.apply_eq_iff.mpr ⟨fun hnone => ?_, fun _ => rfl, fun hnone => ?_, fun _ => rfl,
    rfl, rfl, rfl⟩
  · have hblank : ¬(parsed.newUrlRaw != "") = true := fun htyped => by
      simp [CredentialsFormInput.edits, htyped] at hnone
    exact hurl.trans (if_neg hblank)
  · have hkept : parsed.verifySslChanged = false := by
      by_contra hchanged
      simp [CredentialsFormInput.edits, hchanged] at hnone
    rw [hform] at hkept ⊢
    exact bne_eq_false_iff_eq.mp hkept

theorem verifySslPending_webhookSecret (current : EntryData) (parsed : CredentialsFormInput)
    (secret : String) :
    (buildVerifySslAndSecretOnlyPending current parsed secret).webhookSecret =
      if parsed.regenerateSecret then secret else current.webhookSecret := by
  unfold buildVerifySslAndSecretOnlyPending
  split <;> split <;> rfl

theorem credentialsPending_webhookSecret (current : EntryData) (effectiveUrl : String)
    (parsed : CredentialsFormInput) (secret : String) :
    (buildCredentialsPendingData current effectiveUrl parsed secret).webhookSecret =
      if parsed.regenerateSecret then secret else current.webhookSecret := by
  unfold buildCredentialsPendingData CredentialsFormInput.credentialOverrides
  split <;> split <;> rfl

/-- A form that stages nothing. -/
theorem OptionsFlow.Sound.moved {flow' : OptionsFlow} {entered : Option Edits}
    {accepted accepted' : Option Settings} (hsound : flow.Sound entry entered accepted)
    (hdata : flow'.pendingData = flow.pendingData)
    (hchecking : ∀ url parsed testData,
      flow'.step = .checkingCredentials url parsed testData → Checks entry url parsed)
    (hfinish : flow'.step = .finish → accepted' = some flow'.pendingOptions) :
    flow'.Sound entry entered accepted' where
  checking := hchecking
  staged := hdata.trans hsound.staged
  url data hpending := hsound.url data (hdata ▸ hpending)
  secret data hpending := hsound.secret data (hdata ▸ hpending)
  accepted := hfinish

theorem OptionsFlow.Sound.stage {pending read : EntryData} {edits : Edits}
    {accepted : Option Settings} (hpending : pending = edits.apply entry.data)
    (hurl : pending.controllerUrl = "" → entry.data.controllerUrl = "")
    (hsecret : pending.webhookSecret = "" → entry.data.webhookSecret = "") :
    (flow.stage pending read edits).Sound entry (some edits) accepted where
  checking _ _ _ hstep := by cases hstep
  staged := congrArg some hpending
  url data hdata := by
    obtain rfl := Option.some.inj hdata
    exact hurl
  secret data hdata := by
    obtain rfl := Option.some.inj hdata
    exact hsecret
  accepted hstep := by cases hstep

/-- A secret that is empty was not generated. -/
theorem secret_kept {regenerate : Bool} {secret current : String} (hsecret : secret ≠ "")
    (hempty : (if regenerate then secret else current) = "") : current = "" := by
  cases regenerate with
  | false => exact hempty
  | true => exact absurd hempty hsecret

theorem enters_credentials (hstep : flow.step = .credentials) (h : Hass) (input : CredentialsInput)
    (secret : String) : flow.enters h entry (.credentials input secret) =
      let parsed := parseCredentialsFormInput input entry.data
      if parsed.changesNothing || parsed.credentialsChanged then none
      else some (parsed.edits secret) := by
  unfold OptionsFlow.enters
  rw [hstep]

theorem submitCredentials_sound (h : Hass) {input : CredentialsInput} {secret : String}
    {entered : Option Edits} {accepted accepted' : Option Settings}
    (hsound : flow.Sound entry entered accepted) (hstep : flow.step = .credentials)
    (hsecret : secret ≠ "") :
    (flow.submitCredentials urls entry input secret).Sound entry
      ((flow.enters h entry (.credentials input secret)).or entered) accepted' := by
  have hform : ∀ errors : List FormError,
      OptionsFlow.Sound entry { flow with errors } entered accepted' := by
    intro errors
    refine hsound.moved rfl (fun _ _ _ hchecking => ?_) (fun hfinish => ?_)
    · cases hstep.symm.trans hchecking
    · cases hstep.symm.trans hfinish
  rw [enters_credentials hstep]
  unfold OptionsFlow.submitCredentials
  dsimp only
  split
  · rename_i hnothing
    rw [if_pos (by rw [hnothing, Bool.true_or])]
    exact hsound.moved rfl (fun _ _ _ hchecking => by cases hchecking)
      (fun hfinish => by cases hfinish)
  · rename_i hsome
    split
    · rename_i hunchanged
      rw [if_neg (by simpa [hsome] using hunchanged)]
      refine .stage (verifySslPending_eq (by simpa using hunchanged)) (fun hempty => ?_)
        (fun hempty => ?_)
      · rwa [verifySslPending_controllerUrl] at hempty
      · rw [verifySslPending_webhookSecret] at hempty
        exact secret_kept hsecret hempty
    · rename_i hchanged
      rw [if_pos (by simp [(by simpa using hchanged :
        (parseCredentialsFormInput input entry.data).credentialsChanged = true)])]
      split
      · exact hform flow.errors
      · exact hform _
      · rename_i hscheme
        refine hsound.moved rfl (fun url parsed testData hchecking => ?_)
          (fun hfinish => by cases hfinish)
        obtain ⟨rfl, rfl, -⟩ := OptionsStep.checkingCredentials.inj hchecking
        exact ⟨ne_empty_of_scheme hscheme, rfl, input, rfl⟩

theorem credentialsChecked_sound {effectiveUrl : String} {parsed : CredentialsFormInput}
    {testData : EntryData} {net : Net} {secret suffix : String} {flow' : OptionsFlow}
    {entered : Option Edits} {accepted accepted' : Option Settings}
    (hsound : flow.Sound entry entered accepted)
    (hstep : flow.step = .checkingCredentials effectiveUrl parsed testData) (hsecret : secret ≠ "")
    (hchecked : flow.credentialsChecked h entry effectiveUrl parsed testData net secret =
      some flow') :
    flow'.Sound entry ((flow.enters h entry (.answer net secret suffix)).or entered)
      accepted' := by
  have hchecks := hsound.checking _ _ _ hstep
  unfold OptionsFlow.credentialsChecked at hchecked
  unfold OptionsFlow.enters
  rw [hstep]
  dsimp only
  cases hvalidated : validateCredentials net effectiveUrl testData.apiKey defaultSite with
  | error e =>
      rw [hvalidated] at hchecked
      obtain rfl := Option.some.inj hchecked
      exact hsound.moved rfl (fun _ _ _ hchecking => by cases hchecking)
        (fun hfinish => by cases hfinish)
  | ok =>
      rw [hvalidated] at hchecked
      dsimp only at hchecked ⊢
      split at hchecked
      · cases hchecked
      · rename_i hunique
        obtain rfl := Option.some.inj hchecked
        rw [if_neg hunique, Option.some_or]
        refine .stage (hchecks.pending secret) (fun hempty => ?_) (fun hempty => ?_)
        · rw [credentialsPending_controllerUrl] at hempty
          exact absurd hempty hchecks.nonempty
        · rw [credentialsPending_webhookSecret] at hempty
          exact secret_kept hsecret hempty

theorem submitCategories_sound {input : CategoriesInput} {entered : Option Edits}
    {accepted : Option Settings}
    (hsound : flow.Sound entry entered accepted) (hstep : flow.step = .categories) :
    (flow.submitCategories entry input).Sound entry entered
      ((flow.accepts (.categories input)).or accepted) := by
  unfold OptionsFlow.submitCategories OptionsFlow.accepts
  rw [hstep]
  dsimp only
  split
  · exact hsound.moved rfl (fun _ _ _ hchecking => by cases hchecking)
      (fun hfinish => by cases hfinish)
  · rename_i henabled
    split
    · exact hsound.moved rfl (fun _ _ _ hchecking => by cases hchecking)
        (fun hfinish => by cases hfinish)
    · rename_i hsite
      refine hsound.moved rfl (fun _ _ _ hchecking => by cases hchecking) (fun _ => ?_)
      rw [if_pos ⟨henabled, not_not.mp hsite⟩, Option.some_or]

theorem siteChecked_sound {creds : EntryData} {input : CategoriesInput} {net : Net}
    {secret suffix : String} {entered : Option Edits} {accepted : Option Settings}
    (hsound : flow.Sound entry entered accepted)
    (hstep : flow.step = .checkingSite creds input) :
    (flow.siteChecked creds input net).Sound entry entered
      ((flow.accepts (.answer net secret suffix)).or accepted) := by
  unfold OptionsFlow.siteChecked OptionsFlow.accepts
  rw [hstep]
  dsimp only
  cases validateCredentials net creds.controllerUrl creds.apiKey input.chosenSite with
  | error e =>
      exact hsound.moved rfl (fun _ _ _ hchecking => by cases hchecking)
        (fun hfinish => by cases hfinish)
  | ok => exact hsound.moved rfl (fun _ _ _ hchecking => by cases hchecking) (fun _ => rfl)

theorem enters_eq_none (hcredentials : flow.step ≠ .credentials)
    (hchecking : ∀ url parsed testData, flow.step ≠ .checkingCredentials url parsed testData)
    (h : Hass) (input : Input) : flow.enters h entry input = none := by
  unfold OptionsFlow.enters
  split
  · rename_i hstep
    exact absurd hstep hcredentials
  · rename_i hstep
    exact absurd hstep (hchecking _ _ _)
  · rfl

/-- A submission keeps the flow sound, of what the two forms have accepted by then. -/
theorem take_sound {input : Input} {outcome : Outcome} {entered : Option Edits}
    {accepted : Option Settings} (hsound : flow.Sound entry entered accepted)
    (hgen : input.Generated) (htake : flow.take urls h entry input = some outcome) {f : Flow}
    (hf : outcome.flow = some f) :
    ∃ flow', f = .options flow' ∧ flow'.entryId = flow.entryId ∧
      flow'.Sound entry ((flow.enters h entry input).or entered)
        ((flow.accepts input).or accepted) := by
  unfold OptionsFlow.take at htake
  split at htake
  · rename_i input secret hstep
    obtain rfl := Option.some.inj htake
    refine ⟨_, (Option.some.inj hf).symm, ?_, submitCredentials_sound h hsound hstep hgen⟩
    unfold OptionsFlow.submitCredentials
    dsimp only
    split
    · rfl
    · split
      · rfl
      · split <;> rfl
  · rename_i hstep
    obtain rfl := Option.some.inj htake
    obtain ⟨flow', hflow', rfl⟩ := Option.map_eq_some_iff.mp hf
    refine ⟨flow', rfl, ?_, credentialsChecked_sound hsound hstep hgen hflow'⟩
    unfold OptionsFlow.credentialsChecked at hflow'
    split at hflow'
    · rw [← Option.some.inj hflow']
    · split at hflow'
      · cases hflow'
      · rw [← Option.some.inj hflow']
        rfl
  · rename_i input hstep
    obtain rfl := Option.some.inj htake
    rw [enters_eq_none (by simp [hstep]) (by simp [hstep]), Option.none_or]
    refine ⟨_, (Option.some.inj hf).symm, ?_, submitCategories_sound hsound hstep⟩
    unfold OptionsFlow.submitCategories
    split
    · rfl
    · split <;> rfl
  · rename_i hstep
    obtain rfl := Option.some.inj htake
    rw [enters_eq_none (by simp [hstep]) (by simp [hstep]), Option.none_or]
    refine ⟨_, (Option.some.inj hf).symm, ?_, siteChecked_sound hsound hstep⟩
    unfold OptionsFlow.siteChecked
    split <;> rfl
  · obtain rfl := Option.some.inj htake
    unfold OptionsFlow.submitFinish at hf
    split at hf <;> cases hf
  · cases htake

/-- A submission that the flow does not take brings nothing. -/
theorem enters_of_take {input : Input} (htake : flow.take urls h entry input = none) :
    flow.enters h entry input = none := by
  unfold OptionsFlow.enters
  split
  · rename_i hstep
    simp [OptionsFlow.take, hstep] at htake
  · rename_i hstep
    simp [OptionsFlow.take, hstep] at htake
  · rfl

end

/-! ## One submission -/

section

variable {urls : Urls} {h : Hass} {entry : ConfigEntry} {flow : OptionsFlow} {input : Input}
  {outcome : Outcome}

/-- Only a submitted finish writes anything. -/
theorem take_quiet (htake : flow.take urls h entry input = some outcome) :
    (input = .finish ∧ outcome = flow.submitFinish entry ∧ flow.step = .finish) ∨
      outcome.write = none ∧ outcome.issues = [] := by
  unfold OptionsFlow.take at htake
  split at htake
  · obtain rfl := Option.some.inj htake
    exact Or.inr ⟨rfl, rfl⟩
  · obtain rfl := Option.some.inj htake
    exact Or.inr ⟨rfl, rfl⟩
  · obtain rfl := Option.some.inj htake
    exact Or.inr ⟨rfl, rfl⟩
  · obtain rfl := Option.some.inj htake
    exact Or.inr ⟨rfl, rfl⟩
  · rename_i hstep
    exact Or.inl ⟨rfl, (Option.some.inj htake).symm, hstep⟩
  · cases htake

/-- A submission that fails leaves what is staged. -/
theorem take_of_fails (hfails : flow.Fails urls h entry input)
    (htake : flow.take urls h entry input = some outcome) :
    outcome.write = none ∧
      ∀ f, outcome.flow = some f → ∃ flow', f = .options flow' ∧
        flow'.pendingData = flow.pendingData ∧ flow'.pendingOptions = flow.pendingOptions := by
  unfold OptionsFlow.Fails at hfails
  unfold OptionsFlow.take at htake
  split at htake
  · rename_i input secret hstep
    rw [hstep] at hfails
    obtain ⟨hchanged, hscheme⟩ := hfails
    obtain rfl := Option.some.inj htake
    refine ⟨rfl, fun f hf => ⟨_, (Option.some.inj hf).symm, ?_⟩⟩
    unfold OptionsFlow.submitCredentials
    dsimp only
    rw [if_neg (by simp [CredentialsFormInput.changesNothing, hchanged]),
      if_neg (by simp [hchanged])]
    split
    · exact ⟨rfl, rfl⟩
    · exact ⟨rfl, rfl⟩
    · rename_i hok
      exact absurd hok hscheme
  · rename_i effectiveUrl parsed testData net secret _ hstep
    rw [hstep] at hfails
    obtain rfl := Option.some.inj htake
    refine ⟨rfl, fun f hf => ?_⟩
    obtain ⟨flow', hflow', rfl⟩ := Option.map_eq_some_iff.mp hf
    refine ⟨flow', rfl, ?_⟩
    unfold OptionsFlow.credentialsChecked at hflow'
    split at hflow'
    · obtain rfl := Option.some.inj hflow'
      exact ⟨rfl, rfl⟩
    · rename_i hok
      split at hflow'
      · cases hflow'
      · rename_i hunique
        exact absurd (hfails.resolve_left fun hne => hne hok) hunique
  · rename_i input hstep
    rw [hstep] at hfails
    obtain rfl := Option.some.inj htake
    refine ⟨rfl, fun f hf => ⟨_, (Option.some.inj hf).symm, ?_⟩⟩
    unfold OptionsFlow.submitCategories
    rw [if_pos hfails]
    exact ⟨rfl, rfl⟩
  · rename_i creds input net _ _ hstep
    rw [hstep] at hfails
    obtain rfl := Option.some.inj htake
    refine ⟨rfl, fun f hf => ⟨_, (Option.some.inj hf).symm, ?_⟩⟩
    unfold OptionsFlow.siteChecked
    split
    · exact ⟨rfl, rfl⟩
    · rename_i hok
      exact absurd hok hfails
  · rename_i hstep
    rw [hstep] at hfails
    exact hfails.elim
  · cases htake

/-- A form that goes on to a validation leaves what is staged. -/
theorem take_suspended (htake : flow.take urls h entry input = some outcome) {flow' : OptionsFlow}
    (hf : outcome.flow = some (.options flow')) (hsuspended : flow'.Suspended) :
    flow'.pendingData = flow.pendingData ∧ flow'.pendingOptions = flow.pendingOptions := by
  unfold OptionsFlow.take at htake
  split at htake
  · obtain rfl := Option.some.inj htake
    obtain rfl := Flow.options.inj (Option.some.inj hf)
    unfold OptionsFlow.submitCredentials at hsuspended ⊢
    dsimp only at hsuspended ⊢
    split at hsuspended
    · exact hsuspended.elim
    · split at hsuspended
      · exact hsuspended.elim
      · rename_i hsome hchanged
        rw [if_neg hsome, if_neg hchanged]
        split <;> exact ⟨rfl, rfl⟩
  · obtain rfl := Option.some.inj htake
    obtain ⟨checked, hchecked, hoptions⟩ := Option.map_eq_some_iff.mp hf
    obtain rfl := Flow.options.inj hoptions
    unfold OptionsFlow.credentialsChecked at hchecked
    split at hchecked
    · obtain rfl := Option.some.inj hchecked
      exact hsuspended.elim
    · split at hchecked
      · cases hchecked
      · obtain rfl := Option.some.inj hchecked
        exact hsuspended.elim
  · obtain rfl := Option.some.inj htake
    obtain rfl := Flow.options.inj (Option.some.inj hf)
    unfold OptionsFlow.submitCategories at hsuspended ⊢
    split at hsuspended
    · rename_i henabled
      rw [if_pos henabled]
      exact ⟨rfl, rfl⟩
    · split at hsuspended
      · rename_i henabled hsite
        rw [if_neg henabled, if_pos hsite]
        exact ⟨rfl, rfl⟩
      · exact hsuspended.elim
  · obtain rfl := Option.some.inj htake
    obtain rfl := Flow.options.inj (Option.some.inj hf)
    unfold OptionsFlow.siteChecked at hsuspended ⊢
    split at hsuspended
    · exact hsuspended.elim
    · exact hsuspended.elim
  · obtain rfl := Option.some.inj htake
    unfold OptionsFlow.submitFinish at hf
    split at hf <;> cases hf
  · cases htake

/-- The last form, of a sound flow: empty values make no difference. -/
theorem submitFinish_eq {entered : Option Edits} {options : Settings}
    (hsound : flow.Sound entry entered (some options))
    (hstep : flow.step = .finish) :
    flow.submitFinish entry = OptionsFlow.finished entry flow.pendingData options := by
  obtain rfl := Option.some.inj (hsound.accepted hstep)
  unfold OptionsFlow.submitFinish OptionsFlow.finished
  cases hdata : flow.pendingData with
  | none => rfl
  | some data =>
      have hurl : data.controllerUrl ≠ "" ∧ data.controllerUrl ≠ entry.data.controllerUrl ↔
          data.controllerUrl ≠ entry.data.controllerUrl :=
        and_iff_right_of_imp fun hne hempty => hne (hempty.trans (hsound.url _ hdata hempty).symm)
      have hsecret : data.webhookSecret ≠ "" ∧ data.webhookSecret ≠ entry.data.webhookSecret ↔
          data.webhookSecret ≠ entry.data.webhookSecret :=
        and_iff_right_of_imp fun hne hempty =>
          hne (hempty.trans (hsound.secret _ hdata hempty).symm)
      simp only [OptionsFlow.newUniqueId, hurl, hsecret, Option.bind_some]

end

/-! ## The whole flow -/

section

variable {urls : Urls} {h : Hass} {id : Nat}

theorem react_options {flow : OptionsFlow} {entry : ConfigEntry} (input : Input)
    (hflow : h.flows id = some (.options flow)) (hentry : h.findEntry flow.entryId = some entry) :
    h.react urls (.take id input) = flow.take urls h entry input := by
  unfold Hass.react
  dsimp only
  rw [hflow, Option.bind_some]
  unfold Hass.take
  dsimp only
  rw [hentry, Option.bind_some]

theorem step_of_react {event : FlowEvent} {outcome : Outcome}
    (hreact : h.react urls event = some outcome) :
    h.step urls event = h.finish event.id outcome := by
  unfold Hass.step
  rw [hreact]

theorem finish_quiet {outcome : Outcome} (hwrite : outcome.write = none)
    (hissues : outcome.issues = []) :
    (h.finish id outcome).entries = h.entries ∧ (h.finish id outcome).issues = h.issues := by
  unfold Hass.finish
  rw [hwrite, hissues]
  exact ⟨rfl, rfl⟩

theorem finish_flows {outcome : Outcome} : (h.finish id outcome).flows id = outcome.flow :=
  Function.update_self ..

/-- While the flow is there it is sound and nothing has been written since its start. -/
def Session.Kept (h : Hass) (id : Nat) (s : Session) : Prop :=
  ∀ f, s.hass.flows id = some f → ∃ flow entry, f = .options flow ∧
    h.findEntry flow.entryId = some entry ∧ s.hass.entries = h.entries ∧
    s.hass.issues = h.issues ∧ flow.Sound entry s.entered s.accepted

variable {s : Session}

theorem Session.Kept.options (hkept : s.Kept h id) {flow : OptionsFlow}
    (hflow : s.hass.flows id = some (.options flow)) :
    ∃ entry, h.findEntry flow.entryId = some entry ∧ s.hass.findEntry flow.entryId = some entry ∧
      s.hass.entries = h.entries ∧ s.hass.issues = h.issues ∧
      flow.Sound entry s.entered s.accepted := by
  obtain ⟨flow', entry, heq, hentry, hentries, hissues, hsound⟩ := hkept _ hflow
  obtain rfl := Flow.options.inj heq
  refine ⟨entry, hentry, ?_, hentries, hissues, hsound⟩
  unfold Hass.findEntry at hentry ⊢
  rw [hentries, hentry]

/-- What a submission does, with the flow there or ended or not at this form. -/
theorem Session.step_cases (urls : Urls) (hkept : s.Kept h id) (input : Input) :
    (s.step urls id input).hass = s.hass ∧ (∀ flow entry, s.hass.flows id = some (.options flow) →
        s.hass.findEntry flow.entryId = some entry → flow.take urls s.hass entry input = none) ∨
      ∃ flow entry outcome, s.hass.flows id = some (.options flow) ∧
        h.findEntry flow.entryId = some entry ∧
        flow.take urls s.hass entry input = some outcome ∧
        (s.step urls id input).hass = s.hass.finish id outcome := by
  unfold Session.step
  dsimp only
  cases hflow : s.hass.flows id with
  | none =>
      refine Or.inl ⟨?_, fun _ _ h => by cases h⟩
      unfold Hass.step Hass.react
      dsimp only
      rw [hflow, Option.bind_none]
  | some f =>
      obtain ⟨flow, -, rfl, -⟩ := hkept _ hflow
      obtain ⟨entry, hentry, hfound, -⟩ := hkept.options hflow
      have hreact : s.hass.react urls (.take id input) = flow.take urls s.hass entry input :=
        react_options input hflow hfound
      cases htake : flow.take urls s.hass entry input with
      | none =>
          refine Or.inl ⟨?_, fun flow' entry' hflow' hentry' => ?_⟩
          · unfold Hass.step
            rw [hreact, htake]
          · obtain rfl := Flow.options.inj (Option.some.inj hflow')
            obtain rfl := Option.some.inj (hfound.symm.trans hentry')
            exact htake
      | some outcome =>
          exact Or.inr ⟨flow, entry, outcome, rfl, hentry, htake,
            step_of_react (hreact.trans htake)⟩

theorem Session.start_kept (urls : Urls) (hfree : h.flows id = none) (entryId : Nat) :
    (Session.start urls h id entryId).Kept h id ∧
      (Session.start urls h id entryId).hass.entries = h.entries ∧
      (Session.start urls h id entryId).hass.issues = h.issues := by
  have hreact : h.react urls (.start id (.options entryId)) = (h.findEntry entryId).map fun entry =>
      { flow := some (.options { entryId := entry.entryId }) } := by
    unfold Hass.react
    dsimp only
    rw [hfree, if_neg (by simp)]
    rfl
  unfold Session.start
  cases hentry : h.findEntry entryId with
  | none =>
      have hsame : h.step urls (.start id (.options entryId)) = h := by
        unfold Hass.step
        rw [hreact, hentry]
        rfl
      rw [hsame]
      refine ⟨fun f hf => ?_, rfl, rfl⟩
      dsimp only at hf
      rw [hfree] at hf
      cases hf
  | some entry =>
      rw [hentry, Option.map_some] at hreact
      rw [step_of_react hreact]
      refine ⟨fun f hf => ?_, rfl, rfl⟩
      dsimp only [FlowEvent.id] at hf
      rw [finish_flows] at hf
      obtain rfl := Option.some.inj hf
      refine ⟨_, entry, rfl, ?_, rfl, rfl, ?_⟩
      · dsimp only
        rwa [(mem_of_findEntry hentry).2]
      · exact ⟨fun _ _ _ hstep => (by cases hstep), rfl, fun _ hdata => (by cases hdata),
          fun _ hdata => (by cases hdata), fun hstep => (by cases hstep)⟩

/-- What the session notes of a submission to a flow that is there. -/
theorem Session.step_notes (urls : Urls) (input : Input) {flow : OptionsFlow} {entry : ConfigEntry}
    (hflow : s.hass.flows id = some (.options flow))
    (hentry : s.hass.findEntry flow.entryId = some entry) :
    (s.step urls id input).entered = (flow.enters s.hass entry input).or s.entered ∧
      (s.step urls id input).accepted = (flow.accepts input).or s.accepted := by
  unfold Session.step
  dsimp only
  rw [hflow]
  dsimp only
  rw [hentry, Option.bind_some]
  exact ⟨rfl, rfl⟩

theorem accepts_finish {flow : OptionsFlow} (hstep : flow.step = .finish) (input : Input) :
    flow.accepts input = none := by
  unfold OptionsFlow.accepts
  rw [hstep]

theorem Session.step_kept (hkept : s.Kept h id) {input : Input} (hgen : input.Generated) :
    (s.step urls id input).Kept h id := by
  intro f hf
  rcases Session.step_cases urls hkept input with ⟨hsame, hrefused⟩ |
      ⟨flow, entry, outcome, hflow, hentry, htake, hfinish⟩
  · rw [hsame] at hf ⊢
    obtain ⟨flow, -, rfl, -⟩ := hkept f hf
    obtain ⟨entry, hentry, hfound, hentries, hissues, hsound⟩ := hkept.options hf
    obtain ⟨hentered, haccepted⟩ := Session.step_notes urls input hf hfound
    refine ⟨flow, entry, rfl, hentry, hentries, hissues, ?_⟩
    rw [hentered, haccepted, enters_of_take (hrefused flow entry hf hfound), Option.none_or]
    refine hsound.moved rfl hsound.checking fun hstep => ?_
    rw [accepts_finish hstep, Option.none_or]
    exact hsound.accepted hstep
  · obtain ⟨entry', hentry', hfound, hentries, hissues, hsound⟩ := hkept.options hflow
    obtain rfl := Option.some.inj (hentry.symm.trans hentry')
    obtain ⟨hentered, haccepted⟩ := Session.step_notes urls input hflow hfound
    rw [hfinish, finish_flows] at hf
    obtain ⟨flow', rfl, hid, hsound'⟩ := take_sound hsound hgen htake hf
    rcases take_quiet htake with ⟨-, rfl, -⟩ | ⟨hwrite, hcalls⟩
    · unfold OptionsFlow.submitFinish at hf
      split at hf <;> cases hf
    · obtain ⟨hsame, hcalls⟩ : (s.hass.finish id outcome).entries = s.hass.entries ∧
          (s.hass.finish id outcome).issues = s.hass.issues := finish_quiet hwrite hcalls
      refine ⟨flow', entry, rfl, by rwa [hid], ?_, ?_, by rwa [hentered, haccepted]⟩
      · rw [hfinish, hsame, hentries]
      · rw [hfinish, hcalls, hissues]

/-- Nothing but a finish writes. -/
theorem Session.step_quiet (urls : Urls) (hkept : s.Kept h id) {input : Input}
    (hinput : input ≠ .finish) : (s.step urls id input).hass.entries = s.hass.entries ∧
      (s.step urls id input).hass.issues = s.hass.issues := by
  rcases Session.step_cases urls hkept input with ⟨hsame, -⟩ |
      ⟨flow, entry, outcome, -, -, htake, hfinish⟩
  · rw [hsame]
    exact ⟨rfl, rfl⟩
  · rcases take_quiet htake with ⟨hfinished, -⟩ | ⟨hwrite, hcalls⟩
    · exact absurd hfinished hinput
    · rw [hfinish]
      exact finish_quiet hwrite hcalls

theorem Session.Kept.staged (hkept : s.Kept h id) {flow : OptionsFlow} {entry : ConfigEntry}
    (hflow : s.hass.flows id = some (.options flow))
    (hentry : s.hass.findEntry flow.entryId = some entry) :
    flow.pendingData = s.entered.map fun edits => edits.apply entry.data := by
  obtain ⟨entry', -, hfound, -, -, hsound⟩ := hkept.options hflow
  obtain rfl := Option.some.inj (hfound.symm.trans hentry)
  exact hsound.staged

theorem Session.Kept.suspended (urls : Urls) (hkept : s.Kept h id) {flow flow' : OptionsFlow}
    {input : Input} (hflow : s.hass.flows id = some (.options flow))
    (hflow' : (s.step urls id input).hass.flows id = some (.options flow'))
    (hsuspended : flow'.Suspended) :
    flow'.pendingData = flow.pendingData ∧ flow'.pendingOptions = flow.pendingOptions := by
  rcases Session.step_cases urls hkept input with ⟨hsame, -⟩ |
      ⟨flow₀, entry, outcome, hflow₀, -, htake, hfinish⟩
  · rw [hsame, hflow] at hflow'
    obtain rfl := Flow.options.inj (Option.some.inj hflow')
    exact ⟨rfl, rfl⟩
  · obtain rfl := Flow.options.inj (Option.some.inj (hflow₀.symm.trans hflow))
    rw [hfinish, finish_flows] at hflow'
    exact take_suspended htake hflow' hsuspended

theorem Session.Kept.rejected (hkept : s.Kept h id) {flow : OptionsFlow} {entry : ConfigEntry}
    {input : Input} (hflow : s.hass.flows id = some (.options flow))
    (hentry : s.hass.findEntry flow.entryId = some entry)
    (hfails : flow.Fails urls s.hass entry input) :
    ((s.step urls id input).hass.flows id = none ∨
      ∃ flow', (s.step urls id input).hass.flows id = some (.options flow') ∧
        flow'.pendingData = flow.pendingData ∧ flow'.pendingOptions = flow.pendingOptions) ∧
    (s.step urls id input).hass.entries = s.hass.entries := by
  rcases Session.step_cases urls hkept input with ⟨hsame, -⟩ |
      ⟨flow₀, entry₀, outcome, hflow₀, hentry₀, htake, hfinish⟩
  · rw [hsame]
    exact ⟨Or.inr ⟨flow, hflow, rfl, rfl⟩, rfl⟩
  · obtain rfl := Flow.options.inj (Option.some.inj (hflow₀.symm.trans hflow))
    obtain ⟨entry₁, hentry₁, hfound, -⟩ := hkept.options hflow
    obtain rfl := Option.some.inj (hentry₁.symm.trans hentry₀)
    obtain rfl := Option.some.inj (hfound.symm.trans hentry)
    obtain ⟨hwrite, hstaged⟩ := take_of_fails hfails htake
    rw [hfinish, finish_flows]
    constructor
    · cases hf : outcome.flow with
      | none => exact Or.inl rfl
      | some f =>
          obtain ⟨flow', rfl, hdata⟩ := hstaged f hf
          exact Or.inr ⟨flow', rfl, hdata⟩
    · unfold Hass.finish
      rw [hwrite]

theorem Session.Kept.finishes (urls : Urls) (hkept : s.Kept h id) {flow : OptionsFlow}
    {entry : ConfigEntry} (hflow : s.hass.flows id = some (.options flow))
    (hstep : flow.step = .finish) (hentry : s.hass.findEntry flow.entryId = some entry) :
    h.findEntry flow.entryId = some entry ∧
    ∃ options, s.accepted = some options ∧
      s.hass.react urls (.take id .finish) =
        some (OptionsFlow.finished entry flow.pendingData options) ∧
      ∃ entry', (s.step urls id .finish).hass.findEntry flow.entryId = some entry' ∧
        entry'.data = flow.pendingData.getD entry.data ∧ entry'.options = options := by
  obtain ⟨entry₀, hstored, hfound, -, -, hsound⟩ := hkept.options hflow
  obtain rfl := Option.some.inj (hfound.symm.trans hentry)
  have haccepted := hsound.accepted hstep
  rw [haccepted] at hsound
  refine ⟨hstored, flow.pendingOptions, haccepted, ?_, ?_⟩
  · rw [options_finish_react hflow hstep hentry, submitFinish_eq hsound hstep]
  · exact ⟨_, finish_findEntry hflow hstep hentry, rfl, rfl⟩

end

end UnifiAlerts.ConfigFlow
