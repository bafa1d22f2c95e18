import UnifiAlerts.Forms
import UnifiAlerts.Lib.Dict
import UnifiAlerts.OptionsAtomicity
import UnifiAlerts.WebhookRegistry

/-!
# What the finish step shows

The last form of the setup and of the options flow shows the webhook
URLs and the secret, for the user to copy into the controller. It is
rendered when the flow reaches it and submitted later, with any flows in
between. The URLs shown are those that the entry registers once the form
is submitted: the suffix of an entry never changes, and the categories
are those that the flow stores. The secret shown is the entry's unless
the flow stages no data and another flow has rotated it meanwhile
(`finish_form_served`).

Each flow carries what it will store from the categories form on, and
what other flows store meanwhile can only change the entry behind it. So
the proof has two invariants: what a flow is about to store has a secret
and follows the entry it is for (`Armed`), and whatever the run changes
of the entry follows it too. The URLs then agree because
`webhookUrlPlaceholders` and `registerAll` ask for the same ids
(`serves_of_placeholders`).
-/

namespace UnifiAlerts.ConfigFlow

open Py Lib

/-! ## The placeholders -/

/-- `_webhook_url_placeholders`; `urlOf` is `async_generate_url`, none where it raises. -/
def webhookUrlPlaceholders (urlOf : String → Option String) (enabled : Category → Bool)
    (suffix : String) : Option (List (String × String)) :=
  allCategories.mapM fun c =>
    (if enabled c then urlOf (webhookIdForCategory c.name suffix) else some "not enabled").map
      (Prod.mk ("url_" ++ c.name))

/-- `cat in enabled`, for a setting that may be absent. -/
def Settings.enables (s : Settings) (c : Category) : Bool :=
  match s.enabledCategories with
  | some names => names.contains c.name
  | none => true

/-- The description placeholders of a finish form. -/
structure FinishForm where
  urls : List (String × String)
  webhookSecret : String

def SetupFlow.finishForm (urlOf : String → Option String) (data : EntryData) :
    Option FinishForm := do
  let urls ← webhookUrlPlaceholders urlOf data.toSettings.enables data.webhookIdSuffix
  return { urls, webhookSecret := data.webhookSecret }

/-- Staged data without a secret shows the one of the entry. -/
def OptionsFlow.finishForm (urlOf : String → Option String) (entry : ConfigEntry)
    (flow : OptionsFlow) : Option FinishForm := do
  let webhookSecret := match flow.pendingData with
    | some pending =>
      if pending.webhookSecret = "" then entry.data.webhookSecret else pending.webhookSecret
    | none => entry.data.webhookSecret
  let urls ← webhookUrlPlaceholders urlOf flow.pendingOptions.enables entry.data.webhookIdSuffix
  return { urls, webhookSecret }

/-- What the flow shows at its finish form, when it is there and no URL raises. -/
def Hass.finishForm (urlOf : String → Option String) (h : Hass) (id : Nat) : Option FinishForm :=
  match h.flows id with
  | some (.setup flow) => match flow.step with
    | .finish data => SetupFlow.finishForm urlOf data
    | _ => none
  | some (.options flow) => match flow.step with
    | .finish => (h.findEntry flow.entryId).bind (flow.finishForm urlOf)
    | _ => none
  | _ => none

/-- The flow stores the entry data that it shows the secret of: setup always does, the
options flow if its credentials form staged any. -/
def Hass.Stages (h : Hass) (id : Nat) : Prop :=
  match h.flows id with
  | some (.options flow) => flow.pendingData.isSome
  | _ => True

/-- Every category has its placeholder. -/
theorem placeholders_lookup {urlOf : String → Option String} {enabled : Category → Bool}
    {suffix : String} {urls : List (String × String)}
    (h : webhookUrlPlaceholders urlOf enabled suffix = some urls) (c : Category) :
    ∃ shown, (if enabled c then urlOf (webhookIdForCategory c.name suffix)
      else some "not enabled") =
      some shown ∧ urls.lookup ("url_" ++ c.name) = some shown := by
  refine Dict.lookup_comprehension (fun c : Category => "url_" ++ c.name) ?_ h c c.mem_all
  intro c d hcd
  exact Category.name_injective (String.append_right_inj _ |>.mp hcd)

/-! ## What is registered -/

/-- The webhooks of the entry, as a setup makes them. -/
def ConfigEntry.webhookManager (entry : ConfigEntry) : WebhookManager where
  entryId := entry.entryId
  config := { entry.config with
    webhookSecret := some entry.data.webhookSecret
    webhookIdSuffix := some entry.data.webhookIdSuffix }

section

variable {m : WebhookManager} {answers : RegisterAnswers}

theorem registerFrom_urls : ∀ (cs : List Category) (r : Registering),
    ∀ p ∈ (m.registerFrom answers cs r).urls, p ∈ r.urls ∨ answers.url p.1 = some p.2
  | [], _, _, hp => Or.inl hp
  | c :: cs, r, p, hp => by
      have ih := registerFrom_urls cs
      unfold WebhookManager.registerFrom at hp
      split at hp
      · exact ih r p hp
      split at hp
      · exact ih r p hp
      dsimp only at hp
      split at hp
      · exact Or.inl hp
      · rename_i url hurl
        rcases ih _ p hp with hmem | hp
        · rcases List.mem_append.mp hmem with hmem | hmem
          · exact Or.inl hmem
          · obtain rfl := List.mem_singleton.mp hmem
            exact Or.inr hurl
        · exact Or.inr hp

/-- On a registry without its ids, a manager that nothing refuses registers every
enabled category, and reports the URL of each. -/
theorem registerAll_free {registry : Registry} (hfree : ∀ c, registry (m.webhookId c) = none)
    (hrefuses : ∀ c, answers.refuses c = false)
    (hurl : ∀ c, m.config.enabled c = true → answers.url c ≠ none) :
    (m.registerAll answers registry).raised = false ∧
      (∀ c, (m.registerAll answers registry).registry (m.webhookId c) =
        if m.config.enabled c then some ⟨m.entryId, c⟩ else none) ∧
      ∀ c, (m.registerAll answers registry).urls.lookup c =
        if m.config.enabled c then answers.url c else none := by
  have haccepted : m.accepted answers registry allCategories =
      allCategories.filter m.config.enabled := by
    unfold WebhookManager.accepted
    simp [hfree, hrefuses]
  have hspec := @WebhookManager.registerFrom_spec m answers allCategories
    { registry } (by decide) rfl
  have hurls := @registerFrom_urls m answers allCategories { registry }
  dsimp only at hspec
  rw [haccepted] at hspec
  rcases hspec with ⟨-, hraised, hregistry, -, hkeys⟩ | ⟨c, hc, hnone, -⟩
  · refine ⟨hraised, fun c => ?_, fun c => ?_⟩
    · rw [WebhookManager.registerAll, hregistry]
      split
      · rename_i hc
        exact WebhookManager.claim_webhookId (List.mem_filter.mpr ⟨c.mem_all, hc⟩)
      · rename_i hc
        -- the ids of the enabled categories are other ids
        refine (WebhookManager.claim_of_not_mem fun d hd heq => hc ?_).trans (hfree c)
        rw [← WebhookManager.webhookId_inj.mp heq]
        exact (List.mem_filter.mp hd).2
    · cases hlookup : (m.registerAll answers registry).urls.lookup c with
      | some url =>
          obtain ⟨before, after, heq, -⟩ := List.lookup_eq_some_iff.mp hlookup
          have hmem : (c, url) ∈ (m.registerFrom answers allCategories { registry }).urls := by
            rw [← WebhookManager.registerAll, heq]
            simp
          have hkey : c ∈ allCategories.filter m.config.enabled := by
            have := List.mem_map_of_mem (f := Prod.fst) hmem
            simpa [hkeys] using this
          rw [if_pos (List.mem_filter.mp hkey).2]
          rcases hurls _ hmem with hnil | hurl
          · cases hnil
          · exact hurl.symm
      | none =>
          rw [List.lookup_eq_none_iff] at hlookup
          rw [if_neg]
          intro hen
          have hkey :
              c ∈ (m.registerFrom answers allCategories { registry }).urls.map Prod.fst := by
            rw [hkeys]
            exact List.mem_append_right _ (List.mem_filter.mpr ⟨c.mem_all, hen⟩)
          obtain ⟨p, hp, rfl⟩ := List.mem_map.mp hkey
          have := hlookup p hp
          simp at this
  · exact absurd hnone (hurl c (List.mem_filter.mp hc).2)

end

/-! ## What stays with an entry -/

def FlowEvent.Generated : FlowEvent → Prop
  | .take _ input => input.Generated
  | _ => True

@[simp] theorem verifySslPending_webhookIdSuffix (current : EntryData)
    (parsed : CredentialsFormInput) (secret : String) :
    (buildVerifySslAndSecretOnlyPending current parsed secret).webhookIdSuffix =
      current.webhookIdSuffix := by
  unfold buildVerifySslAndSecretOnlyPending
  split <;> split <;> rfl

@[simp] theorem credentialsPending_webhookIdSuffix (current : EntryData) (effectiveUrl : String)
    (parsed : CredentialsFormInput) (secret : String) :
    (buildCredentialsPendingData current effectiveUrl parsed secret).webhookIdSuffix =
      current.webhookIdSuffix := by
  unfold buildCredentialsPendingData CredentialsFormInput.credentialOverrides
  split <;> split <;> rfl

/-- The data could replace that of the entry without its webhooks moving: the suffix of
the ids is the same, and there is a secret. -/
structure Follows (data current : EntryData) : Prop where
  suffix : data.webhookIdSuffix = current.webhookIdSuffix
  secret : data.webhookSecret ≠ ""

/-- Data that a flow is about to store has a secret, and follows the entry it is for. -/
def Flow.Armed (h : Hass) : Flow → Prop
  | .setup flow => match flow.step with
    | .categories data => data.webhookSecret ≠ ""
    | .checkingSite data _ => data.webhookSecret ≠ ""
    | .finish data => data.webhookSecret ≠ ""
    | _ => True
  | .options flow => ∃ entry, h.findEntry flow.entryId = some entry ∧
      ∀ pending, flow.pendingData = some pending → Follows pending entry.data
  | _ => True

structure Armed (h : Hass) : Prop where
  ids : h.Ids
  secrets : ∀ i entry, h.findEntry i = some entry → entry.data.webhookSecret ≠ ""
  flows : ∀ id flow, h.flows id = some flow → flow.Armed h

section

variable {urls : Urls} {h : Hass} {event : FlowEvent}

theorem follows_verifySsl {current : EntryData} (hcurrent : current.webhookSecret ≠ "")
    (parsed : CredentialsFormInput) {secret : String} (hsecret : secret ≠ "") :
    Follows (buildVerifySslAndSecretOnlyPending current parsed secret) current := by
  refine ⟨verifySslPending_webhookIdSuffix .., fun hempty => hcurrent ?_⟩
  rw [verifySslPending_webhookSecret] at hempty
  exact secret_kept hsecret hempty

theorem follows_credentials {current : EntryData} (hcurrent : current.webhookSecret ≠ "")
    (effectiveUrl : String) (parsed : CredentialsFormInput) {secret : String}
    (hsecret : secret ≠ "") :
    Follows (buildCredentialsPendingData current effectiveUrl parsed secret) current := by
  refine ⟨credentialsPending_webhookIdSuffix .., fun hempty => hcurrent ?_⟩
  rw [credentialsPending_webhookSecret] at hempty
  exact secret_kept hsecret hempty

/-- What an event updates follows what was there. -/
theorem update_follows (harmed : Armed h) (hgenerated : event.Generated) {i : Nat}
    {data : EntryData} {uniqueId : Option String} {options : Option Settings}
    (hw : Writes h event (.update i (some data) uniqueId options)) {entry : ConfigEntry}
    (hentry : h.findEntry i = some entry) : Follows data entry.data := by
  have hfound : ∀ {j : Nat} {old : ConfigEntry}, h.findEntry j = some old →
      h.findEntry old.entryId = some entry → old = entry := by
    intro j old hold hold'
    rw [(mem_of_findEntry hold).2, hold] at hold'
    exact Option.some.inj hold'
  have hsecret := harmed.secrets i entry hentry
  cases hw with
  | rediscovered hserial hnew hfind hurl =>
      rw [harmed.ids.findEntry (List.mem_of_find?_eq_some hfind)] at hentry
      obtain rfl := Option.some.inj hentry
      exact ⟨rfl, hsecret⟩
  | optionsFinished hflow hstep hold hpending =>
      obtain rfl := hfound hold hentry
      obtain ⟨current, hcurrent, hfollows⟩ := harmed.flows _ _ hflow
      rw [hold] at hcurrent
      obtain rfl := Option.some.inj hcurrent
      exact hfollows _ hpending
  | sslReconfigured hflow hstep hold hchanged =>
      obtain rfl := hfound hold hentry
      exact follows_verifySsl hsecret _ hgenerated
  | reconfigured hflow hstep hold hvalid hfree =>
      obtain rfl := hfound hold hentry
      exact follows_credentials hsecret _ _ hgenerated
  | reauthenticated hflow hstep hold =>
      obtain rfl := hfound hold hentry
      exact ⟨rfl, hsecret⟩

/-- An entry stays, with its suffix and with a secret. -/
theorem entry_step (urls : Urls) (harmed : Armed h) (hgenerated : event.Generated) {i : Nat}
    {entry : ConfigEntry} (hentry : h.findEntry i = some entry) :
    ∃ entry', (h.step urls event).findEntry i = some entry' ∧ Follows entry'.data entry.data := by
  have hsecret := harmed.secrets i entry hentry
  rcases step_findEntry urls h event with hsame | ⟨w, hw, hwritten⟩
  · exact ⟨entry, by rw [hsame, hentry], rfl, hsecret⟩
  rw [hwritten]
  cases w with
  | create uniqueId data =>
      exact ⟨entry, by rw [findEntry_create, hentry, Option.some_or], rfl, hsecret⟩
  | update j data uniqueId options =>
      rw [findEntry_update, hentry, Option.map_some]
      refine ⟨_, rfl, ?_⟩
      split
      · rename_i hj
        cases data with
        | none => exact ⟨rfl, hsecret⟩
        | some data =>
            have hid := (mem_of_findEntry hentry).2
            exact update_follows harmed hgenerated hw (by rw [← hj, hid]; exact hentry)
      · exact ⟨rfl, hsecret⟩

theorem armed_later (urls : Urls) (harmed : Armed h) (hgenerated : event.Generated) :
    ∀ {flow : Flow}, flow.Armed h → flow.Armed (h.step urls event)
  | .setup _, hflow => hflow
  | .options _, ⟨_, hentry, hfollows⟩ => by
      obtain ⟨entry', hentry', hsame⟩ := entry_step urls harmed hgenerated hentry
      exact ⟨entry', hentry', fun pending hpending =>
        ⟨(hfollows pending hpending).suffix.trans hsame.suffix.symm,
          (hfollows pending hpending).secret⟩⟩
  | .reconfigure _, _ | .reauth _, _ => trivial

variable {input : Input} {outcome : Outcome} {flow' : Flow}

theorem setup_armed {flow : SetupFlow} (hflow : (Flow.setup flow).Armed h)
    (hgenerated : input.Generated) (htake : flow.take urls h input = some outcome)
    (hout : outcome.flow = some flow') : flow'.Armed h := by
  obtain ⟨next, rfl, hmoves⟩ := setup_moves htake hout
  simp only [Flow.Armed] at hflow ⊢
  generalize flow.step = step at hflow hmoves
  generalize next.step = step' at hmoves ⊢
  cases hmoves with
  | refused | tried | rejected => trivial
  | accepted hsecret =>
      obtain rfl := hsecret
      exact hgenerated
  -- the credentials stay what they were accepted as
  | empty | named | chosen | noSite | site => exact hflow

theorem options_armed {id : Nat} {flow : OptionsFlow} {entry : ConfigEntry} (harmed : Armed h)
    (hflow : h.flows id = some (.options flow)) (hgenerated : input.Generated)
    (hentry : h.findEntry flow.entryId = some entry)
    (htake : flow.take urls h entry input = some outcome) (hout : outcome.flow = some flow') :
    flow'.Armed h := by
  have hsecret := harmed.secrets _ _ hentry
  have hmoved : ∀ {next : OptionsFlow}, next.entryId = flow.entryId →
      next.pendingData = flow.pendingData → (Flow.options next).Armed h := by
    intro next hid hpending
    obtain ⟨current, hcurrent, hfollows⟩ := harmed.flows _ _ hflow
    exact ⟨current, by rw [hid, hcurrent], fun pending hp => hfollows pending (hpending ▸ hp)⟩
  have hstaged : ∀ {pending read : EntryData} {edits : Edits}, Follows pending entry.data →
      (Flow.options (flow.stage pending read edits)).Armed h := by
    intro pending read edits hfollows
    exact ⟨entry, hentry, fun data hdata => Option.some.inj hdata ▸ hfollows⟩
  unfold OptionsFlow.take at htake
  split at htake
  · obtain rfl := Option.some.inj htake
    obtain rfl := Option.some.inj hout
    unfold OptionsFlow.submitCredentials
    dsimp only
    split
    · exact hmoved rfl rfl
    · split
      · exact hstaged (follows_verifySsl hsecret _ hgenerated)
      · split <;> exact hmoved rfl rfl
  · obtain rfl := Option.some.inj htake
    obtain ⟨flow'', hchecked, rfl⟩ := Option.map_eq_some_iff.mp hout
    unfold OptionsFlow.credentialsChecked at hchecked
    split at hchecked
    · obtain rfl := Option.some.inj hchecked
      exact hmoved rfl rfl
    · split at hchecked
      · cases hchecked
      · obtain rfl := Option.some.inj hchecked
        exact hstaged (follows_credentials hsecret _ _ hgenerated)
  · obtain rfl := Option.some.inj htake
    obtain rfl := Option.some.inj hout
    unfold OptionsFlow.submitCategories
    split
    · exact hmoved rfl rfl
    · split <;> exact hmoved rfl rfl
  · obtain rfl := Option.some.inj htake
    obtain rfl := Option.some.inj hout
    unfold OptionsFlow.siteChecked
    split <;> exact hmoved rfl rfl
  · obtain rfl := Option.some.inj htake
    unfold OptionsFlow.submitFinish at hout
    split at hout <;> cases hout
  · cases htake

theorem start_armed {kind : Start} (hstart : h.start kind = some outcome)
    (hout : outcome.flow = some flow') : flow'.Armed h := by
  rcases started_cases hstart hout with
    ⟨next, rfl, hstep⟩ | ⟨i, entry, hentry, rfl⟩ | ⟨next, rfl⟩ | ⟨next, rfl⟩
  · simp only [Flow.Armed, hstep]
  · refine ⟨entry, ?_, fun _ hp => nomatch hp⟩
    rw [(mem_of_findEntry hentry).2]
    exact hentry
  · trivial
  · trivial

theorem react_armed (harmed : Armed h) (hgenerated : event.Generated)
    (hreact : h.react urls event = some outcome) (hout : outcome.flow = some flow') :
    flow'.Armed h := by
  cases reacts_of_react hreact with
  | started hstart => exact start_armed hstart hout
  | setup hflow htake => exact setup_armed (harmed.flows _ _ hflow) hgenerated htake hout
  | options hflow hentry htake =>
      exact options_armed harmed hflow hgenerated hentry htake hout
  | reconfigure hflow hentry htake =>
      obtain ⟨next, rfl⟩ := reconfigure_kind htake hout
      trivial
  | reauth hflow hentry htake =>
      obtain ⟨next, rfl⟩ := reauth_kind htake hout
      trivial
  | abandoned => cases hout

/-- What the entries keep, every event keeps. -/
theorem armed_step (urls : Urls) (harmed : Armed h) (hgenerated : event.Generated) :
    Armed (h.step urls event) := by
  refine ⟨harmed.ids.step urls event, fun i entry hentry => ?_, fun id flow hflow => ?_⟩
  · cases hold : h.findEntry i with
    | some old =>
        obtain ⟨entry', hentry', hfollows⟩ := entry_step urls harmed hgenerated hold
        rw [hentry] at hentry'
        obtain rfl := Option.some.inj hentry'
        exact hfollows.secret
    | none =>
        rcases step_findEntry urls h event with hsame | ⟨w, hw, hwritten⟩
        · rw [hsame, hold] at hentry
          cases hentry
        rw [hwritten] at hentry
        cases w with
        | create uniqueId data =>
            cases hw with
            | created hflow hstep =>
                have hdata := harmed.flows _ _ hflow
                simp only [Flow.Armed, hstep] at hdata
                rw [findEntry_create, hold, Option.none_or] at hentry
                split at hentry
                · obtain rfl := Option.some.inj hentry
                  exact hdata
                · cases hentry
        | update j data uniqueId options =>
            rw [findEntry_update, hold] at hentry
            cases hentry
  · rcases step_flows urls h event id with hsame | ⟨-, outcome, hreact, hout⟩
    · exact armed_later urls harmed hgenerated (harmed.flows id flow (hsame ▸ hflow))
    · exact armed_later urls harmed hgenerated
        (react_armed harmed hgenerated hreact (hout.symm.trans hflow))

end

/-! ## The form and the entry -/

/-- Set up on a registry that has room for its webhooks, the entry registers what the
form shows: each URL for its category, and nothing for a category that is not enabled. -/
def Serves (urlOf : String → Option String) (form : FinishForm) (entry : ConfigEntry) : Prop :=
  ∀ (registry : Registry) (answers : RegisterAnswers),
    (∀ c, registry (entry.webhookManager.webhookId c) = none) →
    (∀ c, answers.refuses c = false) →
    (∀ c, answers.url c = urlOf (entry.webhookManager.webhookId c)) →
    let r := entry.webhookManager.registerAll answers registry
    r.raised = false ∧ ∀ c,
      form.urls.lookup ("url_" ++ c.name) = some ((r.urls.lookup c).getD "not enabled") ∧
      r.registry (entry.webhookManager.webhookId c) =
        (r.urls.lookup c).map fun _ => ⟨entry.entryId, c⟩

theorem serves_of_placeholders {urlOf : String → Option String} {form : FinishForm}
    {entry : ConfigEntry} {enabled : Category → Bool} {suffix : String}
    (hurls : webhookUrlPlaceholders urlOf enabled suffix = some form.urls)
    (henabled : ∀ c, enabled c = entry.config.enabled c)
    (hsuffix : suffix = entry.data.webhookIdSuffix) : Serves urlOf form entry := by
  intro registry answers hfree hrefuses hanswers
  have hshown := placeholders_lookup hurls
  have hid : ∀ c : Category, entry.webhookManager.webhookId c =
    webhookIdForCategory c.name suffix :=
    fun c => by rw [hsuffix]; rfl
  have hconfig : ∀ c, entry.webhookManager.config.enabled c = enabled c :=
    fun c => (henabled c).symm
  have hurl : ∀ c, entry.webhookManager.config.enabled c = true → answers.url c ≠ none := by
    intro c hc
    obtain ⟨shown, hshows, -⟩ := hshown c
    rw [if_pos (hconfig c ▸ hc), ← hid] at hshows
    rw [hanswers, hshows]
    exact Option.some_ne_none _
  obtain ⟨hraised, hrouted, hlookup⟩ := registerAll_free hfree hrefuses hurl
  refine ⟨hraised, fun c => ?_⟩
  obtain ⟨shown, hshows, hfound⟩ := hshown c
  rw [hlookup, hrouted, hconfig, hfound]
  cases hen : enabled c with
  | true =>
      rw [hen, if_pos rfl, ← hid, ← hanswers] at hshows
      rw [if_pos rfl, hshows]
      exact ⟨rfl, rfl⟩
  | false =>
      rw [hen] at hshows
      obtain rfl := Option.some.inj hshows
      exact ⟨rfl, rfl⟩

/-- The secret of the entry. -/
def Hass.secretOf (h : Hass) (i : Nat) : Option String :=
  (h.findEntry i).map fun entry => entry.data.webhookSecret

/-- A flow that the events leave alone stays where it is. -/
theorem run_flows (urls : Urls) {id : Nat} {events : List FlowEvent}
    (hevents : ∀ event ∈ events, event.id ≠ id) (h : Hass) :
    (run (Hass.step urls) h events).flows id = h.flows id := by
  refine @run_preserves_labels _ _ (Hass.step urls) (fun event => event.id ≠ id)
    (fun h' => h'.flows id = h.flows id) (fun h' event hsame hother => ?_) h rfl events hevents
  rcases step_flows urls h' event id with hkept | ⟨hid, -⟩
  · exact hkept.trans hsame
  · exact absurd hid.symm hother

/-- An entry over a run: it stays, with its suffix. -/
theorem run_entry (urls : Urls) {i : Nat} {entry : ConfigEntry} {events : List FlowEvent}
    (hevents : ∀ event ∈ events, event.Generated) {h : Hass} (harmed : Armed h)
    (hentry : h.findEntry i = some entry) :
    ∃ entry', (run (Hass.step urls) h events).findEntry i = some entry' ∧
      entry'.data.webhookIdSuffix = entry.data.webhookIdSuffix := by
  have hrun := @run_preserves_labels _ _ (Hass.step urls) FlowEvent.Generated
    (fun h' => Armed h' ∧ ∃ entry', h'.findEntry i = some entry' ∧
      entry'.data.webhookIdSuffix = entry.data.webhookIdSuffix)
    (fun h' event ⟨harmed', entry', hentry', hsuffix⟩ hgenerated => by
      obtain ⟨next, hnext, hfollows⟩ := entry_step urls harmed' hgenerated hentry'
      exact ⟨armed_step urls harmed' hgenerated, next, hnext, hfollows.suffix.trans hsuffix⟩)
    h ⟨harmed, entry, hentry, rfl⟩ events hevents
  exact hrun.2

theorem run_drafts (urls : Urls) (events : List FlowEvent) {h : Hass}
    (hflows : ∀ id flow, h.flows id = some flow → flow.Drafts fun _ => True) :
    ∀ id flow, (run (Hass.step urls) h events).flows id = some flow → flow.Drafts fun _ => True :=
  @run_preserves _ _ (Hass.step urls)
    (fun h => ∀ id flow, h.flows id = some flow → flow.Drafts fun _ => True)
    (fun _ _ hkept _ _ hflow =>
      drafts_step hkept (fun _ _ _ _ => trivial) (fun _ _ _ _ => trivial) hflow) h hflows events

/-- The setup that is submitted. -/
theorem setup_serves (urls : Urls) {urlOf : String → Option String} {h : Hass} {id : Nat}
    {flow : SetupFlow} {data : EntryData} {form : FinishForm} (hids : h.Ids)
    (hflow : h.flows id = some (.setup flow)) (hstep : flow.step = .finish data)
    (hform : SetupFlow.finishForm urlOf data = some form) :
    ∃ entry, (h.step urls (.take id .finish)).findEntry h.nextEntry = some entry ∧
      Serves urlOf form entry ∧ form.webhookSecret = entry.data.webhookSecret := by
  refine ⟨_, setupFinish_findEntry hids hflow hstep, ?_⟩
  obtain ⟨shown, hshown, hform⟩ := Option.bind_eq_some_iff.mp hform
  obtain rfl := Option.some.inj hform
  exact ⟨serves_of_placeholders hshown (fun _ => rfl) rfl, rfl⟩

/-- The options that are submitted; `shown` is the entry as it was when the form was
rendered. -/
theorem options_serves (urls : Urls) {urlOf : String → Option String} {h : Hass} {id : Nat}
    {flow : OptionsFlow} {shown entry : ConfigEntry} {form : FinishForm} (harmed : Armed h)
    (hdrafts : (Flow.options flow).Drafts fun _ => True)
    (hflow : h.flows id = some (.options flow)) (hstep : flow.step = .finish)
    (hentry : h.findEntry flow.entryId = some entry)
    (hsuffix : entry.data.webhookIdSuffix = shown.data.webhookIdSuffix)
    (hform : flow.finishForm urlOf shown = some form) :
    ∃ entry', (h.step urls (.take id .finish)).findEntry flow.entryId = some entry' ∧
      Serves urlOf form entry' ∧ (form.webhookSecret = entry'.data.webhookSecret ↔
        flow.pendingData.isSome ∨ entry.data.webhookSecret = shown.data.webhookSecret) := by
  refine ⟨_, finish_findEntry hflow hstep hentry, ?_⟩
  obtain ⟨placeholders, hshown, hform⟩ := Option.bind_eq_some_iff.mp hform
  obtain rfl := Option.some.inj hform
  simp only [Flow.Drafts, hstep] at hdrafts
  obtain ⟨input, -, -, hpending⟩ := hdrafts
  have hfollows : ∀ pending, flow.pendingData = some pending → Follows pending entry.data := by
    obtain ⟨current, hcurrent, hfollows⟩ := harmed.flows _ _ hflow
    rw [hentry] at hcurrent
    obtain rfl := Option.some.inj hcurrent
    exact hfollows
  refine ⟨serves_of_placeholders hshown (fun c => ?_) ?_, ?_⟩
  · rw [hpending]
    rfl
  · cases hdata : flow.pendingData with
    | none => exact hsuffix.symm
    | some pending => exact hsuffix.symm.trans (hfollows pending hdata).suffix.symm
  · cases hdata : flow.pendingData with
    | none =>
        simp only [ConfigEntry.update, Option.getD_none, Option.isSome_none, Bool.false_eq_true,
          false_or]
        exact eq_comm
    | some pending =>
        simp only [ConfigEntry.update, Option.getD_some, if_neg (hfollows pending hdata).secret,
          Option.isSome_some, true_or]

/-- A finish form is rendered, and submitted after any events of other flows. The entry
then registers the URLs that the form showed, and has the secret it showed exactly when
the flow stores data with it or no other flow has changed it. -/
theorem finish_form_served (urls : Urls) (urlOf : String → Option String) (h₀ : Hass)
    (hids : h₀.Ids) (hidle : ∀ id, h₀.flows id = none)
    (hsecrets : ∀ entry ∈ h₀.entries, entry.data.webhookSecret ≠ "")
    (before between : List FlowEvent) (hbefore : ∀ event ∈ before, event.Generated)
    (hbetween : ∀ event ∈ between, event.Generated) (id : Nat)
    (hother : ∀ event ∈ between, event.id ≠ id) :
    let rendered := run (Hass.step urls) h₀ before
    let submitted := run (Hass.step urls) rendered between
    ∀ form, rendered.finishForm urlOf id = some form →
      ∃ i entry, submitted.Files i id (.take id .finish) ∧
        (submitted.step urls (.take id .finish)).findEntry i = some entry ∧
        Serves urlOf form entry ∧
        (form.webhookSecret = entry.data.webhookSecret ↔
          rendered.Stages id ∨ submitted.secretOf i = rendered.secretOf i) := by
  intro rendered submitted form hform
  have harmed₀ : Armed h₀ :=
    ⟨hids, fun i entry hentry => hsecrets entry (mem_of_findEntry hentry).1,
    fun id flow hflow => by rw [hidle] at hflow; cases hflow⟩
  have harmed : Armed rendered := run_preserves_labels
    (P := FlowEvent.Generated) (fun _ _ h hgenerated => armed_step urls h hgenerated)
    harmed₀ hbefore
  have harmed' : Armed submitted := run_preserves_labels
    (P := FlowEvent.Generated) (fun _ _ h hgenerated => armed_step urls h hgenerated)
    harmed hbetween
  have hdrafts₀ : ∀ id flow, h₀.flows id = some flow → flow.Drafts fun _ => True := by
    intro id flow hflow
    rw [hidle] at hflow
    cases hflow
  have hdrafts := run_drafts urls between (run_drafts urls before hdrafts₀)
  have hflows : submitted.flows id = rendered.flows id := run_flows urls hother rendered
  unfold Hass.finishForm at hform
  split at hform
  · rename_i flow hflow
    split at hform
    · rename_i data hstep
      rw [← hflows] at hflow
      obtain ⟨entry, hentry, hserves, hsecret⟩ := setup_serves urls harmed'.ids hflow hstep hform
      refine ⟨submitted.nextEntry, entry, ⟨rfl, Or.inl ⟨flow, data, hflow, hstep, rfl⟩⟩,
        hentry, hserves,
        iff_of_true hsecret (Or.inl ?_)⟩
      rw [Hass.Stages, ← hflows, hflow]
      trivial
    · cases hform
  · rename_i flow hflow
    split at hform
    · rename_i hstep
      obtain ⟨shown, hshown, hform⟩ := Option.bind_eq_some_iff.mp hform
      obtain ⟨entry, hentry, hsuffix⟩ := run_entry urls hbetween harmed hshown
      have hstages : rendered.Stages id ↔ flow.pendingData.isSome := by rw [Hass.Stages, hflow]
      have hsecretOf : submitted.secretOf flow.entryId = rendered.secretOf flow.entryId ↔
          entry.data.webhookSecret = shown.data.webhookSecret := by
        rw [Hass.secretOf, Hass.secretOf, hentry, hshown]
        exact Option.some_inj
      rw [← hflows] at hflow
      obtain ⟨entry', hentry', hserves, hsecret⟩ := options_serves urls harmed'
        (hdrafts id _ hflow) hflow hstep hentry hsuffix hform
      exact ⟨flow.entryId, entry', ⟨rfl, Or.inr ⟨flow, hflow, hstep, rfl, by rw [hentry]; rfl⟩⟩,
        hentry', hserves, by rw [hstages, hsecretOf]; exact hsecret⟩
    · cases hform
  · cases hform

/-- While the options wait for their last form, the secret is rotated: what they show
is not what they leave. -/
theorem finish_form_served_rotated :
    let urlOf := fun webhookId => some ("http://homeassistant.local:8123/api/webhook/" ++ webhookId)
    let rendered := run (Hass.step webUrls) {} setupAndOptions.dropLast
    let submitted := run (Hass.step webUrls) rendered [.start 2 (.reconfigure 0),
      .take 2 (.credentials { regenerateWebhookSecret := true } "again")]
    ∃ form i entry, rendered.finishForm urlOf 1 = some form ∧
      (submitted.step webUrls (.take 1 .finish)).findEntry i = some entry ∧
      Serves urlOf form entry ∧
      (form.webhookSecret = entry.data.webhookSecret ↔
        rendered.Stages 1 ∨ submitted.secretOf i = rendered.secretOf i) ∧
      submitted.secretOf 0 ≠ rendered.secretOf 0 := by
  intro urlOf rendered submitted
  have hsome : (rendered.finishForm urlOf 1).isSome := by decide +kernel
  obtain ⟨form, hform⟩ := Option.isSome_iff_exists.mp hsome
  have hgenerated : ∀ event ∈ setupAndOptions.dropLast, event.Generated := by
    simp [setupAndOptions, FlowEvent.Generated, Input.Generated]
  have hrotated : ∀ event ∈ ([.start 2 (.reconfigure 0),
      .take 2 (.credentials { regenerateWebhookSecret := true } "again")] : List FlowEvent),
      event.Generated ∧ event.id ≠ 1 := by
    simp [FlowEvent.Generated, Input.Generated, FlowEvent.id]
  obtain ⟨i, entry, -, hentry, hserves, hsecret⟩ := finish_form_served webUrls urlOf {} ids_empty
    (fun _ => rfl) (fun _ he => (nomatch he)) setupAndOptions.dropLast _ hgenerated
    (fun event he => (hrotated event he).1) 1 (fun event he => (hrotated event he).2) form hform
  exact ⟨form, i, entry, hform, hentry, hserves, hsecret, by decide +kernel⟩

end UnifiAlerts.ConfigFlow
