import UnifiAlerts.Lib.Run
import UnifiAlerts.FlowWrites

/-!
# Only what was validated is stored

A client polls one controller with one key at one site, so these three
together are what a flow has to try out before it stores any of them.
`Record` is the history of a flow: the combinations that passed, and the
entry as it was when a form was submitted.

Setup tries out what it stores. The other two flows try the credentials at
the default site and, in the options flow, a site that is not the default
with the credentials at hand. What they store is then put together from
the staged data, the entry and the site, and `Confirms` says when the parts
are those of one combination.

The histories are followed form by form: after each form one lemma says
what has passed by then and how it is related to what the flow holds
(`userChecked_tracked`, `optionsSite_tracked` and their siblings), and
`Tracked` collects them. The last step of a flow then reads off whether
the combination it stores is among those that passed, and that is an
equivalence for each kind of write.
-/

namespace UnifiAlerts.ConfigFlow

open Py Lib

/-! ## What was tried -/

structure Combination where
  controllerUrl : String
  apiKey : String
  site : String
  deriving DecidableEq

/-- With the URL as the client's constructor takes it. -/
def Combination.stripped (t : Combination) : Combination :=
  { t with controllerUrl := rstripSlash t.controllerUrl }

def ConfigEntry.combination (entry : ConfigEntry) : Combination :=
  ⟨entry.data.controllerUrl, entry.data.apiKey, entry.effectiveSite⟩

/-- What the validation that a flow is suspended in tries. -/
def Flow.tests : Flow → Option Combination
  | .setup flow => match flow.step with
    | .checkingUser input => some ⟨rstripSlash input.controllerUrl, input.apiKey, defaultSite⟩
    | .checkingSite credentials input =>
      some ⟨flow.controllerUrl, credentials.apiKey, input.chosenSite⟩
    | _ => none
  | .options flow => match flow.step with
    | .checkingCredentials effectiveUrl _ testData =>
      some ⟨effectiveUrl, testData.apiKey, defaultSite⟩
    | .checkingSite creds input => some ⟨creds.controllerUrl, creds.apiKey, input.chosenSite⟩
    | _ => none
  | .reconfigure flow => match flow.step with
    | .checking effectiveUrl _ testData => some ⟨effectiveUrl, testData.apiKey, defaultSite⟩
    | _ => none
  | .reauth _ => none

/-- What passes with these answers of the controller. -/
def Flow.passes (flow : Flow) (net : Net) : List Combination :=
  match flow.tests with
  | some t => match validateCredentials net t.controllerUrl t.apiKey t.site with
    | .ok () => [t.stripped]
    | .error _ => []
  | none => []

/-- The history of a flow: what passed in it, and the data of its entry when the
credentials form and the categories form were last submitted. -/
structure Record where
  passed : List Combination := []
  credentials : Option EntryData := none
  categories : Option EntryData := none

def Record.take (h : Hass) (flow : Flow) (input : Input) (r : Record) : Record :=
  match flow, input with
  | .options flow, .credentials _ _ =>
    { r with credentials := (h.findEntry flow.entryId).map (·.data) }
  | .options flow, .categories _ =>
    { r with categories := (h.findEntry flow.entryId).map (·.data) }
  | flow, .answer net _ _ => { r with passed := r.passed ++ flow.passes net }
  | _, _ => r

/-- Home Assistant with the history of each flow. -/
structure Checked where
  hass : Hass
  records : Nat → Record := fun _ => {}

namespace Checked

def record (c : Checked) : FlowEvent → Record
  | .take id input => match c.hass.flows id with
    | some flow => (c.records id).take c.hass flow input
    | none => {}
  | _ => {}

def step (urls : Urls) (c : Checked) (event : FlowEvent) : Checked :=
  match c.hass.react urls event with
  | none => c
  | some outcome => {
      hass := c.hass.finish event.id outcome
      records := Function.update c.records event.id (c.record event) }

/-! ## The contract -/

/-- A combination that a setup, options or reconfigure flow gives an entry, and that the
entry did not have, passed in that flow. -/
def StoresValidated (urls : Urls) (c : Checked) : FlowEvent → Prop
  | .take id input => (∀ flow, c.hass.flows id ≠ some (.reauth flow)) →
      ∀ i entry', (c.step urls (.take id input)).hass.findEntry i = some entry' →
        (c.hass.findEntry i).map (·.combination) ≠ some entry'.combination →
        entry'.combination.stripped ∈ ((c.step urls (.take id input)).records id).passed
  | _ => True

end Checked

namespace OptionsFlow

/-- The data that the last form stores. -/
def finalData (flow : OptionsFlow) (entry : ConfigEntry) : EntryData :=
  flow.pendingData.getD entry.data

def finalCombination (flow : OptionsFlow) (entry : ConfigEntry) : Combination :=
  ⟨(flow.finalData entry).controllerUrl, (flow.finalData entry).apiKey,
    (flow.pendingOptions.site.or (flow.finalData entry).site).getD defaultSite⟩

/-- The credentials form was validated with the key of `data`: it was typed, or it is
the one that the entry had when the form was submitted. -/
def KeyTried (r : Record) (flow : OptionsFlow) (data : EntryData) : Prop :=
  flow.edits.apiKey ≠ none ∨
    flow.edits.controllerUrl ≠ none ∧ r.credentials.map (·.apiKey) = some data.apiKey

/-- The site was tried with the credentials of `data`: they are staged, or they are the
entry's and have not changed since. -/
def SiteTried (r : Record) (flow : OptionsFlow) (data : EntryData) : Prop :=
  flow.pendingData ≠ none ∨
    r.categories.map (fun d => (rstripSlash d.controllerUrl, d.apiKey)) =
      some (rstripSlash data.controllerUrl, data.apiKey)

/-- The last form stores nothing new, or what the flow tried. -/
def Confirmed (r : Record) (flow : OptionsFlow) (entry : ConfigEntry) : Prop :=
  flow.finalCombination entry ≠ entry.combination →
    if (flow.finalCombination entry).site = defaultSite then flow.KeyTried r (flow.finalData entry)
    else flow.SiteTried r entry.data

end OptionsFlow

/-- The credentials are as they were, or the entry is on the default site and the key
was typed or has not changed since the form was submitted. -/
def ReconfigureFlow.Confirmed (effectiveUrl : String) (parsed : CredentialsFormInput)
    (testData : EntryData) (entry : ConfigEntry) : Prop :=
  effectiveUrl ≠ entry.data.controllerUrl ∨
      parsed.newApiKey ≠ "" ∧ parsed.newApiKey ≠ entry.data.apiKey →
    entry.effectiveSite = defaultSite ∧
      (parsed.newApiKey = "" → testData.apiKey = entry.data.apiKey)

/-- What the options flow's last form and the end of a reconfiguration need. -/
def Confirms (c : Checked) : FlowEvent → Prop
  | .take id .finish => match c.hass.flows id with
    | some (.options flow) => flow.step = .finish →
        ∀ entry, c.hass.findEntry flow.entryId = some entry →
          flow.Confirmed (c.records id) entry
    | _ => True
  | .take id (.answer net _ _) => match c.hass.flows id with
    | some (.reconfigure flow) => ∀ effectiveUrl parsed testData,
        flow.step = .checking effectiveUrl parsed testData →
        ∀ entry, c.hass.findEntry flow.entryId = some entry →
          validateCredentials net effectiveUrl testData.apiKey defaultSite = .ok () →
          (effectiveUrl ≠ entry.data.controllerUrl →
            c.hass.findDuplicateEntry entry.entryId effectiveUrl = none) →
          ReconfigureFlow.Confirmed effectiveUrl parsed testData entry
    | _ => True
  | _ => True

/-! ## Histories -/

/-- The credentials of a setup flow passed. -/
def SetupFlow.CredentialsPassed (r : Record) (flow : SetupFlow) (credentials : EntryData) : Prop :=
  flow.controllerUrl = rstripSlash credentials.controllerUrl ∧
    ⟨rstripSlash credentials.controllerUrl, credentials.apiKey, defaultSite⟩ ∈ r.passed

/-- What has passed by each form of a setup flow: its credentials once the first form is
done, and what it stores once the last is there. -/
def SetupFlow.Tracked (r : Record) (flow : SetupFlow) : Prop :=
  match flow.step with
  | .user => True
  | .checkingUser _ => True
  | .categories credentials => flow.CredentialsPassed r credentials
  | .checkingSite credentials _ => flow.CredentialsPassed r credentials
  | .finish data =>
    ⟨rstripSlash data.controllerUrl, data.apiKey, data.site.getD defaultSite⟩ ∈ r.passed

namespace OptionsFlow

/-- Nothing is staged and nothing passed. -/
structure Untouched (r : Record) (flow : OptionsFlow) : Prop where
  passed : r.passed = []
  pending : flow.pendingData = none
  edits : flow.edits = {}

/-- Past the credentials form: whether what is staged passed at the default site. -/
def CredentialsDone (r : Record) (flow : OptionsFlow) : Prop :=
  ∀ data, let final := flow.pendingData.getD data
    ⟨rstripSlash final.controllerUrl, final.apiKey, defaultSite⟩ ∈ r.passed ↔
      flow.KeyTried r final

/-- What passed at a site other than the default one. -/
def SiteDone (r : Record) (flow : OptionsFlow) (site : String) : Prop :=
  ∃ data, r.categories = some data ∧ let creds := flow.pendingData.getD data
    ∀ url apiKey, ⟨url, apiKey, site⟩ ∈ r.passed ↔
      url = rstripSlash creds.controllerUrl ∧ apiKey = creds.apiKey

/-- What has passed by each form of an options flow, and whether that is what the flow
holds: nothing before the credentials form is done, then its credentials at the default
site, and at the end the chosen site as well. -/
def Tracked (r : Record) (flow : OptionsFlow) : Prop :=
  match flow.step with
  | .credentials => flow.Untouched r
  | .checkingCredentials _ parsed testData => flow.Untouched r ∧
    (parsed.newApiKey = "" → parsed.newUrlRaw ≠ "" ∧
      r.credentials.map (·.apiKey) = some testData.apiKey) ∧
    (parsed.newApiKey ≠ "" → testData.apiKey = parsed.newApiKey)
  | .categories => flow.CredentialsDone r ∧ ∀ t ∈ r.passed, t.site = defaultSite
  | .checkingSite creds input => flow.CredentialsDone r ∧ (∀ t ∈ r.passed, t.site = defaultSite) ∧
    input.chosenSite ≠ defaultSite ∧
    ∃ data, r.categories = some data ∧ creds = flow.pendingData.getD data
  | .finish => flow.CredentialsDone r ∧
    ∃ site, flow.pendingOptions.site = some site ∧ (site ≠ defaultSite → flow.SiteDone r site)

end OptionsFlow

/-- Nothing passes before the end of a reconfiguration; until then a typed key is the one
under test. -/
def ReconfigureFlow.Tracked (r : Record) (flow : ReconfigureFlow) : Prop :=
  r.passed = [] ∧ ∀ effectiveUrl parsed testData,
    flow.step = .checking effectiveUrl parsed testData →
    parsed.newApiKey ≠ "" → testData.apiKey = parsed.newApiKey

def Flow.Tracked (r : Record) : Flow → Prop
  | .setup flow => flow.Tracked r
  | .options flow => flow.Tracked r
  | .reconfigure flow => flow.Tracked r
  | .reauth _ => True

/-! ### Each kind of flow -/

section

variable {urls : Urls} {h : Hass} {r : Record} {net : Net} {secret suffix : String}

theorem passes_of_ok {flow : Flow} {t : Combination} (htests : flow.tests = some t)
    (hvalid : validateCredentials net t.controllerUrl t.apiKey t.site = .ok ()) :
    flow.passes net = [t.stripped] := by
  unfold Flow.passes
  rw [htests]
  dsimp only
  rw [hvalid]

theorem passes_of_error {flow : Flow} {t : Combination} {e : Error} (htests : flow.tests = some t)
    (hfails : validateCredentials net t.controllerUrl t.apiKey t.site = .error e) :
    flow.passes net = [] := by
  unfold Flow.passes
  rw [htests]
  dsimp only
  rw [hfails]

/-- An answer adds what passed. -/
theorem take_answer (flow : Flow) :
    r.take h flow (.answer net secret suffix) =
      { r with passed := r.passed ++ flow.passes net } := by
  cases flow <;> rfl

/-! The setup flow, form by form. -/

section

variable {flow flow' : SetupFlow} {credentials : EntryData}

theorem submitUser_tracked {input : UserInput} (hstep : flow.step = .user)
    (hout : (flow.submitUser urls h input).flow = some (.setup flow')) : flow'.Tracked r := by
  unfold SetupFlow.submitUser at hout
  dsimp only at hout
  unfold SetupFlow.Tracked
  split at hout
  · obtain rfl := Flow.setup.inj (Option.some.inj hout)
    rw [hstep]
    trivial
  · obtain rfl := Flow.setup.inj (Option.some.inj hout)
    dsimp only
    rw [hstep]
    trivial
  · split at hout
    · cases hout
    · obtain rfl := Flow.setup.inj (Option.some.inj hout)
      trivial

theorem userChecked_tracked {input : UserInput} (hstep : flow.step = .checkingUser input) :
    (flow.userChecked input net secret suffix).Tracked
      (r.take h (.setup flow) (.answer net secret suffix)) := by
  unfold SetupFlow.userChecked
  dsimp only
  split
  · trivial
  · rename_i hvalid
    have htests : (Flow.setup flow).tests =
        some ⟨rstripSlash input.controllerUrl, input.apiKey, defaultSite⟩ := by
      unfold Flow.tests
      dsimp only
      rw [hstep]
    rw [take_answer, passes_of_ok htests hvalid]
    refine ⟨rfl, List.mem_append_right _ ?_⟩
    unfold Combination.stripped
    rw [rstripSlash_idem]
    exact List.mem_singleton_self _

theorem setupCategories_tracked (hstep : flow.step = .categories credentials)
    (hpassed : flow.CredentialsPassed r credentials) (input : CategoriesInput) :
    (flow.submitCategories credentials input).Tracked r := by
  unfold SetupFlow.submitCategories
  split
  · unfold SetupFlow.Tracked
    dsimp only
    rw [hstep]
    exact hpassed
  · split
    · exact hpassed
    · rename_i hsite
      have hdefault : input.chosenSite = defaultSite := not_not.mp hsite
      show ⟨_, _, input.chosenSite⟩ ∈ r.passed
      rw [hdefault]
      exact hpassed.2

theorem setupSite_tracked {input : CategoriesInput}
    (hstep : flow.step = .checkingSite credentials input)
    (hpassed : flow.CredentialsPassed r credentials) :
    (flow.siteChecked credentials input net).Tracked
      (r.take h (.setup flow) (.answer net secret suffix)) := by
  obtain ⟨hurl, hmem⟩ := hpassed
  unfold SetupFlow.siteChecked
  rw [take_answer]
  split
  · exact ⟨hurl, List.mem_append_left _ hmem⟩
  · rename_i hvalid
    have htests : (Flow.setup flow).tests =
        some ⟨flow.controllerUrl, credentials.apiKey, input.chosenSite⟩ := by
      unfold Flow.tests
      dsimp only
      rw [hstep]
    rw [passes_of_ok htests hvalid]
    refine List.mem_append_right _ ?_
    unfold Combination.stripped
    rw [hurl, rstripSlash_idem]
    exact List.mem_singleton_self _

theorem setup_tracked {input : Input} {outcome : Outcome} (hflow : flow.Tracked r)
    (htake : flow.take urls h input = some outcome)
    (hout : outcome.flow = some (.setup flow')) :
    flow'.Tracked (r.take h (.setup flow) input) := by
  unfold SetupFlow.Tracked at hflow
  unfold SetupFlow.take at htake
  split at htake
  · rename_i hstep
    obtain rfl := Option.some.inj htake
    exact submitUser_tracked hstep hout
  · rename_i hstep
    obtain rfl := Option.some.inj htake
    obtain rfl := Flow.setup.inj (Option.some.inj hout)
    exact userChecked_tracked hstep
  · rename_i hstep
    obtain rfl := Option.some.inj htake
    obtain rfl := Flow.setup.inj (Option.some.inj hout)
    rw [hstep] at hflow
    exact setupCategories_tracked hstep hflow _
  · rename_i hstep
    obtain rfl := Option.some.inj htake
    obtain rfl := Flow.setup.inj (Option.some.inj hout)
    rw [hstep] at hflow
    exact setupSite_tracked hstep hflow
  · obtain rfl := Option.some.inj htake
    cases hout
  · cases htake

end

theorem reconfigure_tracked {flow flow' : ReconfigureFlow} {entry : ConfigEntry} {input : Input}
    {outcome : Outcome} (hflow : flow.Tracked r)
    (htake : flow.take urls h entry input = some outcome)
    (hout : outcome.flow = some (.reconfigure flow')) :
    flow'.Tracked (r.take h (.reconfigure flow) input) := by
  obtain ⟨hpassed, hchecking⟩ := hflow
  unfold ReconfigureFlow.take at htake
  split at htake
  · obtain rfl := Option.some.inj htake
    unfold ReconfigureFlow.submit at hout
    dsimp only at hout
    refine ⟨hpassed, ?_⟩
    split at hout
    · cases hout
    · split at hout
      · cases hout
      · split at hout
        · obtain rfl := Flow.reconfigure.inj (Option.some.inj hout)
          exact hchecking
        · obtain rfl := Flow.reconfigure.inj (Option.some.inj hout)
          exact hchecking
        · obtain rfl := Flow.reconfigure.inj (Option.some.inj hout)
          intro effectiveUrl parsed testData hstep htyped
          obtain ⟨rfl, rfl, rfl⟩ := ReconfigureStep.checking.inj hstep
          rw [credentialsTest_apiKey, if_pos (by simpa using htyped)]
  · rename_i effectiveUrl parsed testData net secret suffix hstep
    obtain rfl := Option.some.inj htake
    unfold ReconfigureFlow.checked at hout
    dsimp only at hout
    split at hout
    · rename_i hfails
      obtain rfl := Flow.reconfigure.inj (Option.some.inj hout)
      have htests : (Flow.reconfigure flow).tests =
          some ⟨effectiveUrl, testData.apiKey, defaultSite⟩ := by
        unfold Flow.tests
        dsimp only
        rw [hstep]
      rw [take_answer, passes_of_error htests hfails, List.append_nil]
      exact ⟨hpassed, fun _ _ _ hstep => nomatch hstep⟩
    · split at hout <;> cases hout
  · cases htake

/-! The options flow. -/

theorem edits_apiKey_ne_none {parsed : CredentialsFormInput} :
    (parsed.edits secret).apiKey ≠ none ↔ parsed.newApiKey ≠ "" := by
  unfold CredentialsFormInput.edits
  by_cases hkey : parsed.newApiKey = "" <;> simp [hkey]

theorem edits_controllerUrl_ne_none {parsed : CredentialsFormInput} :
    (parsed.edits secret).controllerUrl ≠ none ↔ parsed.newUrlRaw ≠ "" := by
  unfold CredentialsFormInput.edits
  by_cases hurl : parsed.newUrlRaw = "" <;> simp [hurl]

theorem keyTried_of_empty {flow : OptionsFlow} {data : EntryData} (hedits : flow.edits = {}) :
    ¬flow.KeyTried r data := by
  unfold OptionsFlow.KeyTried
  rw [hedits]
  rintro (hkey | ⟨hurl, -⟩)
  · exact hkey rfl
  · exact hurl rfl

/-- No credentials were typed, and none passed. -/
theorem credentialsDone_untried {flow : OptionsFlow} (hpassed : r.passed = [])
    (huntried : ∀ data, ¬flow.KeyTried r data) : flow.CredentialsDone r := by
  intro data
  rw [hpassed]
  exact iff_of_false List.not_mem_nil (huntried _)

/-- What passes at another site does not count. -/
theorem credentialsDone_append {flow flow' : OptionsFlow} {passed : List Combination}
    (hdone : flow.CredentialsDone r) (hpending : flow'.pendingData = flow.pendingData)
    (hedits : flow'.edits = flow.edits) (hsites : ∀ t ∈ passed, t.site ≠ defaultSite) :
    flow'.CredentialsDone { r with passed := r.passed ++ passed } := by
  intro data
  unfold OptionsFlow.KeyTried
  rw [hpending, hedits]
  refine Iff.trans ?_ (hdone data)
  rw [List.mem_append]
  exact or_iff_left fun hmem => hsites _ hmem rfl

theorem credentialsDone_stage {flow : OptionsFlow} {entry : ConfigEntry} {effectiveUrl : String}
    {parsed : CredentialsFormInput} {testData read : EntryData} (hpassed : r.passed = [])
    (huntyped : parsed.newApiKey = "" → parsed.newUrlRaw ≠ "" ∧
      r.credentials.map (·.apiKey) = some testData.apiKey)
    (htyped : parsed.newApiKey ≠ "" → testData.apiKey = parsed.newApiKey) :
    (flow.stage (buildCredentialsPendingData entry.data effectiveUrl parsed secret) read
      (parsed.edits secret)).CredentialsDone
        { r with passed := r.passed ++
          [Combination.stripped ⟨effectiveUrl, testData.apiKey, defaultSite⟩] } := by
  intro data
  unfold OptionsFlow.stage OptionsFlow.KeyTried Combination.stripped
  dsimp only
  rw [hpassed, List.nil_append, List.mem_singleton, Option.getD_some,
    credentialsPending_controllerUrl, credentialsPending_apiKey]
  rw [edits_apiKey_ne_none, edits_controllerUrl_ne_none]
  by_cases hkey : parsed.newApiKey = ""
  · obtain ⟨hurl, hread⟩ := huntyped hkey
    rw [hread, if_neg (by simpa using hkey)]
    simp [hkey, hurl, eq_comm]
  · rw [htyped hkey, if_pos (by simpa using hkey)]
    exact iff_of_true rfl (Or.inl hkey)

theorem submitCredentials_tracked {flow : OptionsFlow} {entry : ConfigEntry}
    (hentry : h.findEntry flow.entryId = some entry) (hstep : flow.step = .credentials)
    (hflow : flow.Untouched r) (input : CredentialsInput) (secret : String) :
    (flow.submitCredentials urls entry input secret).Tracked
      { r with credentials := (h.findEntry flow.entryId).map (·.data) } := by
  obtain ⟨hpassed, hpending, hedits⟩ := hflow
  unfold OptionsFlow.submitCredentials
  dsimp only
  split
  · exact ⟨credentialsDone_untried hpassed fun _ => keyTried_of_empty hedits,
      fun t ht => by rw [hpassed] at ht; cases ht⟩
  · split
    · rename_i hchanged
      refine ⟨credentialsDone_untried hpassed fun _ => ?_,
        fun t ht => by rw [hpassed] at ht; cases ht⟩
      have hblank : (parseCredentialsFormInput input entry.data).newUrlRaw = "" ∧
          (parseCredentialsFormInput input entry.data).newApiKey = "" := by
        simpa [parseCredentialsFormInput] using hchanged
      rintro (hkey | ⟨hurl, -⟩)
      · exact edits_apiKey_ne_none.mp hkey hblank.2
      · exact edits_controllerUrl_ne_none.mp hurl hblank.1
    · rename_i hchanged
      split
      · unfold OptionsFlow.Tracked
        rw [hstep]
        exact ⟨hpassed, hpending, hedits⟩
      · unfold OptionsFlow.Tracked
        dsimp only
        rw [hstep]
        exact ⟨hpassed, hpending, hedits⟩
      · refine ⟨⟨hpassed, hpending, hedits⟩,
          fun hkey => ⟨fun hurl => hchanged ?_, ?_⟩, fun hkey => ?_⟩
        · unfold parseCredentialsFormInput at hurl hkey ⊢
          dsimp only at hurl hkey ⊢
          rw [hurl, hkey]
          rfl
        · rw [hentry, credentialsTest_apiKey, if_neg (by simpa using hkey)]
          rfl
        · rw [credentialsTest_apiKey, if_pos (by simpa using hkey)]

theorem credentialsChecked_tracked {flow flow' : OptionsFlow} {entry : ConfigEntry}
    {effectiveUrl : String} {parsed : CredentialsFormInput} {testData : EntryData}
    (hstep : flow.step = .checkingCredentials effectiveUrl parsed testData)
    (hflow : flow.Untouched r)
    (huntyped : parsed.newApiKey = "" → parsed.newUrlRaw ≠ "" ∧
      r.credentials.map (·.apiKey) = some testData.apiKey)
    (htyped : parsed.newApiKey ≠ "" → testData.apiKey = parsed.newApiKey)
    (hchecked : flow.credentialsChecked h entry effectiveUrl parsed testData net secret =
      some flow') :
    flow'.Tracked (r.take h (.options flow) (.answer net secret suffix)) := by
  obtain ⟨hpassed, hpending, hedits⟩ := hflow
  have htests : (Flow.options flow).tests =
      some ⟨effectiveUrl, testData.apiKey, defaultSite⟩ := by
    unfold Flow.tests
    dsimp only
    rw [hstep]
  unfold OptionsFlow.credentialsChecked at hchecked
  split at hchecked
  · rename_i hfails
    obtain rfl := Option.some.inj hchecked
    rw [take_answer, passes_of_error htests hfails, List.append_nil]
    exact ⟨hpassed, hpending, hedits⟩
  · rename_i hvalid
    split at hchecked
    · cases hchecked
    · obtain rfl := Option.some.inj hchecked
      rw [take_answer, passes_of_ok htests hvalid]
      refine ⟨credentialsDone_stage hpassed huntyped htyped, fun t ht => ?_⟩
      rw [hpassed, List.nil_append] at ht
      rw [List.mem_singleton.mp ht]
      rfl

theorem optionsCategories_tracked {flow : OptionsFlow} {entry : ConfigEntry}
    (hentry : h.findEntry flow.entryId = some entry) (hstep : flow.step = .categories)
    (hdone : flow.CredentialsDone r) (hsites : ∀ t ∈ r.passed, t.site = defaultSite)
    (input : CategoriesInput) : (flow.submitCategories entry input).Tracked
      (r.take h (.options flow) (.categories input)) := by
  unfold OptionsFlow.submitCategories
  split
  · unfold OptionsFlow.Tracked
    dsimp only
    rw [hstep]
    exact ⟨hdone, hsites⟩
  · split
    · rename_i hsite
      refine ⟨hdone, hsites, hsite, entry.data, ?_, rfl⟩
      unfold Record.take
      dsimp only
      rw [hentry]
      rfl
    · rename_i hsite
      exact ⟨hdone, input.chosenSite, rfl, fun hne => absurd hne hsite⟩

theorem optionsSite_tracked {flow : OptionsFlow} {data : EntryData} {input : CategoriesInput}
    (hstep : flow.step = .checkingSite (flow.pendingData.getD data) input)
    (hdone : flow.CredentialsDone r) (hsites : ∀ t ∈ r.passed, t.site = defaultSite)
    (hsite : input.chosenSite ≠ defaultSite) (hcategories : r.categories = some data) :
    (flow.siteChecked (flow.pendingData.getD data) input net).Tracked
      (r.take h (.options flow) (.answer net secret suffix)) := by
  have htests : (Flow.options flow).tests = some ⟨(flow.pendingData.getD data).controllerUrl,
      (flow.pendingData.getD data).apiKey, input.chosenSite⟩ := by
    unfold Flow.tests
    dsimp only
    rw [hstep]
  rw [take_answer]
  unfold OptionsFlow.siteChecked
  split
  · rename_i hfails
    rw [passes_of_error htests hfails, List.append_nil]
    exact ⟨hdone, hsites⟩
  · rename_i hvalid
    rw [passes_of_ok htests hvalid]
    refine ⟨credentialsDone_append hdone rfl rfl fun t ht => ?_, input.chosenSite, rfl,
      fun _ => ⟨data, hcategories, fun url apiKey => ?_⟩⟩
    · rw [List.mem_singleton.mp ht]
      exact hsite
    · rw [List.mem_append, or_iff_right fun hmem => hsite (hsites _ hmem), List.mem_singleton]
      simp [Combination.stripped]

theorem options_tracked {flow flow' : OptionsFlow} {entry : ConfigEntry} {input : Input}
    {outcome : Outcome} (hentry : h.findEntry flow.entryId = some entry) (hflow : flow.Tracked r)
    (htake : flow.take urls h entry input = some outcome)
    (hout : outcome.flow = some (.options flow')) :
    flow'.Tracked (r.take h (.options flow) input) := by
  unfold OptionsFlow.Tracked at hflow
  unfold OptionsFlow.take at htake
  split at htake
  · rename_i hstep
    obtain rfl := Option.some.inj htake
    obtain rfl := Flow.options.inj (Option.some.inj hout)
    rw [hstep] at hflow
    exact submitCredentials_tracked hentry hstep hflow _ _
  · rename_i hstep
    obtain rfl := Option.some.inj htake
    obtain ⟨flow'', hchecked, hsame⟩ := Option.map_eq_some_iff.mp hout
    obtain rfl := Flow.options.inj hsame
    rw [hstep] at hflow
    obtain ⟨huntouched, huntyped, htyped⟩ := hflow
    exact credentialsChecked_tracked hstep huntouched huntyped htyped hchecked
  · rename_i hstep
    obtain rfl := Option.some.inj htake
    obtain rfl := Flow.options.inj (Option.some.inj hout)
    rw [hstep] at hflow
    exact optionsCategories_tracked hentry hstep hflow.1 hflow.2 _
  · rename_i hstep
    obtain rfl := Option.some.inj htake
    obtain rfl := Flow.options.inj (Option.some.inj hout)
    rw [hstep] at hflow
    obtain ⟨hdone, hsites, hsite, data, hcategories, rfl⟩ := hflow
    exact optionsSite_tracked hstep hdone hsites hsite hcategories
  · obtain rfl := Option.some.inj htake
    unfold OptionsFlow.submitFinish at hout
    split at hout <;> cases hout
  · cases htake

end

/-! ### Every flow -/

/-- The history of each flow in progress fits it. -/
def Tracked (c : Checked) : Prop :=
  ∀ id flow, c.hass.flows id = some flow → flow.Tracked (c.records id)

theorem start_tracked {h : Hass} {kind : Start} {outcome : Outcome} {flow' : Flow}
    (hstart : h.start kind = some outcome) (hout : outcome.flow = some flow') :
    flow'.Tracked {} := by
  cases kind with
  | user =>
      obtain rfl := Option.some.inj hstart
      obtain rfl := Option.some.inj hout
      trivial
  | ssdp host serial =>
      obtain rfl := Option.some.inj hstart
      unfold ssdp at hout
      split at hout
      · cases hout
      · dsimp only at hout
        split at hout
        · cases hout
        · split at hout
          · obtain rfl := Option.some.inj hout
            trivial
          · split at hout
            · cases hout
            · obtain rfl := Option.some.inj hout
              trivial
  | options entryId =>
      obtain ⟨entry, -, rfl⟩ := Option.map_eq_some_iff.mp hstart
      obtain rfl := Option.some.inj hout
      exact ⟨rfl, rfl, rfl⟩
  | reconfigure entryId =>
      obtain ⟨entry, -, rfl⟩ := Option.map_eq_some_iff.mp hstart
      obtain rfl := Option.some.inj hout
      exact ⟨rfl, fun _ _ _ hstep => nomatch hstep⟩
  | reauth entryId =>
      obtain ⟨entry, -, rfl⟩ := Option.map_eq_some_iff.mp hstart
      obtain rfl := Option.some.inj hout
      trivial

section

variable {urls : Urls} {c : Checked}

theorem record_take {id : Nat} {flow : Flow} (hflow : c.hass.flows id = some flow)
    (input : Input) : c.record (.take id input) = (c.records id).take c.hass flow input := by
  unfold Checked.record
  dsimp only
  rw [hflow]

theorem react_tracked {event : FlowEvent} {outcome : Outcome} {flow' : Flow} (hc : Tracked c)
    (hreact : c.hass.react urls event = some outcome) (hout : outcome.flow = some flow') :
    flow'.Tracked (c.record event) := by
  cases reacts_of_react hreact with
  | started hstart => exact start_tracked hstart hout
  | setup hflow htake =>
      obtain ⟨_, rfl⟩ := setup_kind htake hout
      rw [record_take hflow]
      exact setup_tracked (hc _ _ hflow) htake hout
  | options hflow hentry htake =>
      obtain ⟨_, rfl⟩ := options_kind htake hout
      rw [record_take hflow]
      exact options_tracked hentry (hc _ _ hflow) htake hout
  | reconfigure hflow hentry htake =>
      obtain ⟨_, rfl⟩ := reconfigure_kind htake hout
      rw [record_take hflow]
      exact reconfigure_tracked (hc _ _ hflow) htake hout
  | reauth hflow hentry htake =>
      obtain ⟨_, rfl⟩ := reauth_kind htake hout
      trivial
  | abandoned => cases hout

theorem checked_hass (event : FlowEvent) :
    (c.step urls event).hass = c.hass.step urls event := by
  unfold Checked.step Hass.step
  cases c.hass.react urls event <;> rfl

theorem tracked_step (c : Checked) (event : FlowEvent) (hc : Tracked c) :
    Tracked (c.step urls event) := by
  unfold Checked.step
  cases hreact : c.hass.react urls event with
  | none => exact hc
  | some outcome =>
      intro id flow hflow
      dsimp only at hflow ⊢
      by_cases hid : id = event.id
      · rw [hid] at hflow ⊢
        rw [show (c.hass.finish event.id outcome).flows event.id = outcome.flow from
          Function.update_self ..] at hflow
        rw [Function.update_self]
        exact react_tracked hc hreact hflow
      · rw [show (c.hass.finish event.id outcome).flows id = c.hass.flows id from
          Function.update_of_ne hid ..] at hflow
        rw [Function.update_of_ne hid]
        exact hc id flow hflow

end

/-! ## When what is stored was tried -/

/-- What the last form of the options flow stores passed. -/
theorem final_passed_iff {r : Record} {flow : OptionsFlow} {entry : ConfigEntry}
    (hflow : flow.Tracked r) (hstep : flow.step = .finish) :
    (flow.finalCombination entry).stripped ∈ r.passed ↔
      if (flow.finalCombination entry).site = defaultSite then
        flow.KeyTried r (flow.finalData entry)
      else flow.SiteTried r entry.data := by
  unfold OptionsFlow.Tracked at hflow
  rw [hstep] at hflow
  obtain ⟨hdone, site, hchosen, hsite⟩ := hflow
  have hfinal : flow.finalCombination entry =
      ⟨(flow.finalData entry).controllerUrl, (flow.finalData entry).apiKey, site⟩ := by
    unfold OptionsFlow.finalCombination
    rw [hchosen]
    rfl
  rw [hfinal]
  unfold Combination.stripped
  dsimp only
  by_cases hdefault : site = defaultSite
  · rw [if_pos hdefault, hdefault]
    exact hdone entry.data
  · rw [if_neg hdefault]
    obtain ⟨data, hcategories, hpassed⟩ := hsite hdefault
    rw [hpassed]
    unfold OptionsFlow.SiteTried OptionsFlow.finalData
    rw [hcategories]
    cases flow.pendingData with
    | none =>
        simp only [Option.getD_none, ne_eq, not_true_eq_false, false_or, Option.map_some,
          Option.some.injEq, Prod.mk.injEq]
        exact and_congr eq_comm eq_comm
    | some pending => exact iff_of_true ⟨rfl, rfl⟩ (Or.inl (Option.some_ne_none pending))

/-- The entry that a reconfiguration leaves. -/
def reconfiguredEntry (entry : ConfigEntry) (effectiveUrl : String)
    (parsed : CredentialsFormInput) (secret : String) : ConfigEntry :=
  entry.update (some (buildCredentialsPendingData entry.data effectiveUrl parsed secret))
    (if effectiveUrl ≠ entry.data.controllerUrl then some effectiveUrl else none) none

theorem reconfigured_combination {entry : ConfigEntry} {effectiveUrl secret : String}
    {parsed : CredentialsFormInput} :
    (reconfiguredEntry entry effectiveUrl parsed secret).combination =
      ⟨effectiveUrl, if parsed.newApiKey != "" then parsed.newApiKey else entry.data.apiKey,
        entry.effectiveSite⟩ := by
  unfold reconfiguredEntry ConfigEntry.combination ConfigEntry.update ConfigEntry.effectiveSite
  dsimp only
  rw [Option.getD_some, Option.getD_none, credentialsPending_controllerUrl,
    credentialsPending_apiKey, credentialsPending_settings]

/-- What a reconfiguration stores is new. -/
theorem reconfigured_new_iff {entry : ConfigEntry} {effectiveUrl secret : String}
    {parsed : CredentialsFormInput} :
    (reconfiguredEntry entry effectiveUrl parsed secret).combination ≠ entry.combination ↔
      effectiveUrl ≠ entry.data.controllerUrl ∨
        parsed.newApiKey ≠ "" ∧ parsed.newApiKey ≠ entry.data.apiKey := by
  rw [reconfigured_combination]
  unfold ConfigEntry.combination
  by_cases hkey : parsed.newApiKey = ""
  · simp [hkey]
  · simp [hkey, Decidable.imp_iff_not_or]

/-- What a reconfiguration stores is what it tried. -/
theorem reconfigured_passed_iff {r : Record} {flow : ReconfigureFlow} {entry : ConfigEntry}
    {effectiveUrl secret : String} {parsed : CredentialsFormInput} {testData : EntryData}
    (hflow : flow.Tracked r) (hstep : flow.step = .checking effectiveUrl parsed testData) :
    (reconfiguredEntry entry effectiveUrl parsed secret).combination.stripped ∈
        r.passed ++ [Combination.stripped ⟨effectiveUrl, testData.apiKey, defaultSite⟩] ↔
      entry.effectiveSite = defaultSite ∧
        (parsed.newApiKey = "" → testData.apiKey = entry.data.apiKey) := by
  rw [reconfigured_combination, hflow.1, List.nil_append, List.mem_singleton]
  unfold Combination.stripped
  by_cases hkey : parsed.newApiKey = ""
  · simp [hkey, and_comm, eq_comm]
  · rw [if_pos (by simpa using hkey), hflow.2 _ _ _ hstep hkey]
    simp [hkey]

section

variable {urls : Urls} {c : Checked} {id : Nat}

/-- An update changes the combination of its own entry only. -/
theorem entry_of_update {h : Hass} {entry entry' : ConfigEntry} {i j : Nat}
    {data : Option EntryData} {uniqueId : Option String} {options : Option Settings}
    (hentry : h.findEntry j = some entry)
    (hentry' : (h.write (.update entry.entryId data uniqueId options)).findEntry i = some entry')
    (hnew : (h.findEntry i).map (·.combination) ≠ some entry'.combination) :
    entry' = entry.update data uniqueId options ∧ entry'.combination ≠ entry.combination := by
  rw [findEntry_update] at hentry'
  obtain ⟨e, he, rfl⟩ := Option.map_eq_some_iff.mp hentry'
  rw [he, Option.map_some] at hnew
  split at hnew
  · rename_i hid
    rw [if_pos hid]
    obtain rfl : j = i :=
      (mem_of_findEntry hentry).2.symm.trans (hid.symm.trans (mem_of_findEntry he).2)
    obtain rfl := Option.some.inj (he.symm.trans hentry)
    exact ⟨rfl, fun hsame => hnew (congrArg some hsame.symm)⟩
  · exact absurd rfl hnew

/-- An update of other fields is no new combination. -/
theorem not_new_of_update {h : Hass} {entry entry' : ConfigEntry} {i j : Nat} {data : EntryData}
    (hentry : h.findEntry j = some entry) (hurl : data.controllerUrl = entry.data.controllerUrl)
    (hkey : data.apiKey = entry.data.apiKey) (hsettings : data.toSettings = entry.data.toSettings)
    (hentry' : (h.write (.update entry.entryId (some data) none none)).findEntry i = some entry') :
    (h.findEntry i).map (·.combination) = some entry'.combination := by
  by_contra hnew
  obtain ⟨rfl, hne⟩ := entry_of_update hentry hentry' hnew
  refine hne ?_
  unfold ConfigEntry.combination ConfigEntry.update ConfigEntry.effectiveSite
  dsimp only
  rw [Option.getD_some, Option.getD_none, hurl, hkey, hsettings]

theorem records_step {event : FlowEvent} {outcome : Outcome}
    (hreact : c.hass.react urls event = some outcome) :
    (c.step urls event).records event.id = c.record event := by
  unfold Checked.step
  rw [hreact]
  exact Function.update_self ..

theorem reconfigured_react {flow : ReconfigureFlow} {entry : ConfigEntry} {effectiveUrl : String}
    {parsed : CredentialsFormInput} {testData : EntryData} {net : Net} {secret suffix : String}
    {h : Hass} (hflow : h.flows id = some (.reconfigure flow))
    (hstep : flow.step = .checking effectiveUrl parsed testData)
    (hentry : h.findEntry flow.entryId = some entry)
    (hvalid : validateCredentials net effectiveUrl testData.apiKey defaultSite = .ok ())
    (hfree : effectiveUrl ≠ entry.data.controllerUrl →
      h.findDuplicateEntry entry.entryId effectiveUrl = none) :
    h.react urls (.take id (.answer net secret suffix)) = some {
      flow := none
      write := some (.update entry.entryId
        (some (buildCredentialsPendingData entry.data effectiveUrl parsed secret))
        (if effectiveUrl ≠ entry.data.controllerUrl then some effectiveUrl else none) none) } := by
  unfold Hass.react
  dsimp only
  rw [hflow, Option.bind_some]
  unfold Hass.take
  dsimp only
  rw [hentry, Option.bind_some]
  unfold ReconfigureFlow.take
  rw [hstep]
  dsimp only
  unfold ReconfigureFlow.checked
  rw [hvalid]
  dsimp only
  rw [if_neg]
  rintro ⟨hchanged, hsome⟩
  rw [hfree hchanged] at hsome
  cases hsome

theorem passes_reconfigured {flow : ReconfigureFlow} {effectiveUrl : String}
    {parsed : CredentialsFormInput} {testData : EntryData} {net : Net} {secret suffix : String}
    (hflow : c.hass.flows id = some (.reconfigure flow))
    (hstep : flow.step = .checking effectiveUrl parsed testData)
    (hvalid : validateCredentials net effectiveUrl testData.apiKey defaultSite = .ok ()) :
    (c.record (.take id (.answer net secret suffix))).passed = (c.records id).passed ++
      [Combination.stripped ⟨effectiveUrl, testData.apiKey, defaultSite⟩] := by
  have htests : (Flow.reconfigure flow).tests =
      some ⟨effectiveUrl, testData.apiKey, defaultSite⟩ := by
    unfold Flow.tests
    dsimp only
    rw [hstep]
  rw [record_take hflow, take_answer, passes_of_ok htests hvalid]

/-! Each of the writes. -/

/-- What a setup flow creates passed in it. -/
theorem created_passed {flow : SetupFlow} {data : EntryData} {entry' : ConfigEntry} {i : Nat}
    (hc : Tracked c) (hflow : c.hass.flows id = some (.setup flow))
    (hstep : flow.step = .finish data)
    (hentry' : (c.hass.write (.create flow.uniqueId data)).findEntry i = some entry')
    (hnew : (c.hass.findEntry i).map (·.combination) ≠ some entry'.combination) :
    entry'.combination.stripped ∈ (c.record (.take id .finish)).passed := by
  rw [findEntry_create] at hentry'
  rcases Option.or_eq_some_iff.mp hentry' with hold | ⟨-, hcreated⟩
  · exact absurd (by rw [hold, Option.map_some]) hnew
  · split at hcreated
    · obtain rfl := Option.some.inj hcreated
      have hpassed := hc _ _ hflow
      simp only [Flow.Tracked, SetupFlow.Tracked, hstep] at hpassed
      rw [record_take hflow]
      exact hpassed
    · cases hcreated

/-- What the last form of the options flow stores passed in it, if it is confirmed. -/
theorem finished_passed {flow : OptionsFlow} {entry entry' : ConfigEntry} {i : Nat}
    {data : Option EntryData} {uniqueId : Option String} (hc : Tracked c)
    (hconfirms : Confirms c (.take id .finish))
    (hflow : c.hass.flows id = some (.options flow)) (hstep : flow.step = .finish)
    (hentry : c.hass.findEntry flow.entryId = some entry) (hpending : flow.pendingData = data)
    (hentry' : (c.hass.write (.update entry.entryId data uniqueId
      (some flow.pendingOptions))).findEntry i = some entry')
    (hnew : (c.hass.findEntry i).map (·.combination) ≠ some entry'.combination) :
    entry'.combination.stripped ∈ (c.record (.take id .finish)).passed := by
  obtain ⟨rfl, hne⟩ := entry_of_update hentry hentry' hnew
  simp only [Confirms, hflow] at hconfirms
  have hfinal : (entry.update data uniqueId (some flow.pendingOptions)).combination =
      flow.finalCombination entry := by
    rw [← hpending]
    rfl
  rw [hfinal] at hne ⊢
  rw [record_take hflow]
  exact (final_passed_iff (hc _ _ hflow) hstep).mpr (hconfirms hstep entry hentry hne)

/-- And what a confirmed reconfiguration stores passed in that. -/
theorem reconfigured_passed {flow : ReconfigureFlow} {entry entry' : ConfigEntry} {i : Nat}
    {effectiveUrl secret suffix : String} {parsed : CredentialsFormInput} {testData : EntryData}
    {net : Net} (hc : Tracked c) (hconfirms : Confirms c (.take id (.answer net secret suffix)))
    (hflow : c.hass.flows id = some (.reconfigure flow))
    (hstep : flow.step = .checking effectiveUrl parsed testData)
    (hentry : c.hass.findEntry flow.entryId = some entry)
    (hvalid : validateCredentials net effectiveUrl testData.apiKey defaultSite = .ok ())
    (hfree : effectiveUrl ≠ entry.data.controllerUrl →
      c.hass.findDuplicateEntry entry.entryId effectiveUrl = none)
    (hentry' : (c.hass.write (.update entry.entryId
      (some (buildCredentialsPendingData entry.data effectiveUrl parsed secret))
      (if effectiveUrl ≠ entry.data.controllerUrl then some effectiveUrl else none)
      none)).findEntry i = some entry')
    (hnew : (c.hass.findEntry i).map (·.combination) ≠ some entry'.combination) :
    entry'.combination.stripped ∈ (c.record (.take id (.answer net secret suffix))).passed := by
  obtain ⟨rfl, hne⟩ := entry_of_update hentry hentry' hnew
  simp only [Confirms, hflow] at hconfirms
  rw [passes_reconfigured hflow hstep hvalid]
  exact (reconfigured_passed_iff (hc _ _ hflow) hstep).mpr
    (hconfirms _ _ _ hstep entry hentry hvalid hfree (reconfigured_new_iff.mp hne))

/-- Every write that the condition holds for is of a combination that passed. -/
theorem stores_of_confirms {event : FlowEvent} (hc : Tracked c) (hconfirms : Confirms c event) :
    c.StoresValidated urls event := by
  cases event with
  | start id kind => trivial
  | abandon id => trivial
  | take id input =>
      intro hreauth i entry' hentry' hnew
      rw [checked_hass] at hentry'
      cases hreact : c.hass.react urls (.take id input) with
      | none =>
          refine absurd ?_ hnew
          unfold Hass.step at hentry'
          rw [hreact] at hentry'
          rw [show c.hass.findEntry i = some entry' from hentry', Option.map_some]
      | some outcome =>
          rw [show (c.step urls (.take id input)).records id = c.record (.take id input) from
            records_step hreact]
          rcases step_findEntry urls c.hass (.take id input) with hsame | ⟨w, hw, hwritten⟩
          · refine absurd ?_ hnew
            rw [← hsame, hentry', Option.map_some]
          · rw [hwritten] at hentry'
            cases hw with
            | created hflow hstep => exact created_passed hc hflow hstep hentry' hnew
            | optionsOnly hflow hstep hentry hpending =>
                exact finished_passed hc hconfirms hflow hstep hentry hpending hentry' hnew
            | optionsFinished hflow hstep hentry hpending =>
                exact finished_passed hc hconfirms hflow hstep hentry hpending hentry' hnew
            | sslReconfigured hflow hstep hentry hchanged =>
                refine absurd ?_ hnew
                exact not_new_of_update hentry (by simp) (by simp) (by simp) hentry'
            | reconfigured hflow hstep hentry hvalid hfree =>
                exact reconfigured_passed hc hconfirms hflow hstep hentry hvalid hfree hentry' hnew
            | reauthenticated hflow hstep hentry => exact absurd hflow (hreauth _)

theorem confirms_of_stores {event : FlowEvent} (hc : Tracked c)
    (hstores : c.StoresValidated urls event) : Confirms c event := by
  cases event with
  | start id kind => trivial
  | abandon id => trivial
  | take id input =>
      cases input with
      | finish =>
          unfold Confirms
          dsimp only
          split
          · rename_i flow hflow
            intro hstep entry hentry hne
            have hreact : c.hass.react urls (.take id .finish) = some (flow.submitFinish entry) :=
              options_finish_react hflow hstep hentry
            have hpassed := hstores (fun _ hreauth => by rw [hflow] at hreauth; cases hreauth)
              flow.entryId _ (by rw [checked_hass]; exact finish_findEntry hflow hstep hentry)
            have hfinal : (entry.update flow.pendingData
                (flow.pendingData.bind (OptionsFlow.newUniqueId entry))
                (some flow.pendingOptions)).combination = flow.finalCombination entry := rfl
            rw [hfinal, hentry, Option.map_some,
              show (c.step urls (.take id .finish)).records id = c.record (.take id .finish) from
                records_step hreact, record_take hflow] at hpassed
            exact (final_passed_iff (hc _ _ hflow) hstep).mp
              (hpassed fun hsame => hne (Option.some.inj hsame).symm)
          · trivial
      | answer net secret suffix =>
          unfold Confirms
          dsimp only
          split
          · rename_i flow hflow
            intro effectiveUrl parsed testData hstep entry hentry hvalid hfree hchanged
            have hreact : c.hass.react urls (.take id (.answer net secret suffix)) = some _ :=
              reconfigured_react hflow hstep hentry hvalid hfree
            have hentry' : (c.hass.step urls (.take id (.answer net secret suffix))).findEntry
                flow.entryId = some (reconfiguredEntry entry effectiveUrl parsed secret) := by
              rw [findEntry_of_react hreact rfl, findEntry_update, hentry,
                Option.map_some, if_pos rfl]
              rfl
            have hpassed := hstores (fun _ hreauth => by rw [hflow] at hreauth; cases hreauth)
              flow.entryId _ (by rw [checked_hass]; exact hentry')
            rw [hentry, Option.map_some, show (c.step urls
              (.take id (.answer net secret suffix))).records id = c.record _ from
                records_step hreact, passes_reconfigured hflow hstep hvalid] at hpassed
            exact (reconfigured_passed_iff (hc _ _ hflow) hstep).mp
              (hpassed fun hsame => reconfigured_new_iff.mpr hchanged (Option.some.inj hsame).symm)
          · trivial
      | _ => trivial

/-- From any entries, and over every interleaving of the flows: whatever a setup, options
or reconfigure flow stores passed in that flow exactly when the options flows and
reconfigurations store the parts of one combination that they tried. -/
theorem stores_validated_iff (urls : Urls) (h : Hass) (events : List FlowEvent) :
    Lib.Along (Checked.step urls) (Checked.StoresValidated urls) { hass := h.idle } events ↔
      Lib.Along (Checked.step urls) Confirms { hass := h.idle } events :=
  Lib.along_congr tracked_step (fun _ _ hc => ⟨confirms_of_stores hc, stores_of_confirms hc⟩)
    fun _ _ hflow => nomatch hflow

end

/-- An entry that is polled at a site chosen in its options. -/
def branchEntry : Hass where
  entries := [{
    entryId := 0
    uniqueId := "https://unifi"
    data := { controllerUrl := "https://unifi", apiKey := "old key" }
    options := { site := some "branch" } }]
  nextEntry := 1

/-- Its key is reconfigured. -/
def newKey : List FlowEvent :=
  [.start 0 (.reconfigure 0),
   .take 0 (.credentials { apiKey := some "new key" } ""),
   .take 0 (.answer acceptingNet "" "")]

/-- The new key is stored for the site, and was tried at the default site only. -/
theorem reconfigure_skips_site :
    let c := Lib.run (Checked.step webUrls) { hass := branchEntry.idle } newKey
    (c.hass.findEntry 0).map (·.combination) = some ⟨"https://unifi", "new key", "branch"⟩ ∧
      (c.records 0).passed = [⟨"https://unifi", "new key", "default"⟩] ∧
      ¬Lib.Along (Checked.step webUrls) (Checked.StoresValidated webUrls)
        { hass := branchEntry.idle } newKey := by
  intro c
  have hentry : (c.hass.findEntry 0).map (·.combination) =
      some ⟨"https://unifi", "new key", "branch"⟩ := by decide +kernel
  have hpassed : (c.records 0).passed = [⟨"https://unifi", "new key", "default"⟩] := by
    decide +kernel
  refine ⟨hentry, hpassed, ?_⟩
  rintro ⟨-, -, hlast, -⟩
  obtain ⟨entry, hfound, hcombination⟩ := Option.map_eq_some_iff.mp hentry
  have hmem := hlast (fun _ hreauth => nomatch hreauth) 0 entry hfound
    (by rw [hcombination]; decide +kernel)
  have hin : (⟨"https://unifi", "new key", "branch"⟩ : Combination).stripped ∈
      (c.records 0).passed := by
    rw [← hcombination]
    exact hmem
  rw [hpassed] at hin
  exact absurd hin (by decide +kernel)

end UnifiAlerts.ConfigFlow
