import UnifiAlerts.Diagnostics
import UnifiAlerts.Durability
import UnifiAlerts.FlowWrites
import UnifiAlerts.Lib.History

/-!
# The categories form

Both flows ask for the alert settings in the same form: a switch and a
severity for each category, the poll interval, the clear timeout and the
site. Its schema gives every field a default, which stands in for a
field left out, and checks what was submitted (`CategoriesForm.validate`).
The setup flow starts from fixed defaults, the options flow from the
entry (`ConfigEntry.categoriesForm`).

The form is a view of the entry: what is stored from it opens as it was
submitted (`categoriesForm_stored`), and storing the form as it opened
leaves the integration with the same settings (`behaves_unchanged`). The
entries that the flows make are among those that the view is defined on
(`options_form_view`).
-/

namespace UnifiAlerts.ConfigFlow

open Py Lib

/-! ## The schema -/

/-- The options of `_min_severity_selector`. -/
def minSeverityOptions : List String := minSeverityToWidget.map Prod.snd

/-- A value for each field. -/
@[ext]
structure CategoriesForm where
  cat : Category → Bool
  minSeverity : Category → String
  pollInterval : Int
  clearTimeout : Int
  site : String

/-- What is submitted; a field left out is `none`. -/
structure CategoriesData where
  cat : Category → Option Bool := fun _ => none
  minSeverity : Category → Option String := fun _ => none
  pollInterval : Option Int := none
  clearTimeout : Option Int := none
  site : Option String := none

namespace CategoriesForm

/-- Each field left out gets the default of the form. -/
def fill (form : CategoriesForm) (data : CategoriesData) : CategoriesForm where
  cat c := (data.cat c).getD (form.cat c)
  minSeverity c := (data.minSeverity c).getD (form.minSeverity c)
  pollInterval := data.pollInterval.getD form.pollInterval
  clearTimeout := data.clearTimeout.getD form.clearTimeout
  site := data.site.getD form.site

/-- What the schema of the form accepts: an offered severity for each category, a poll
interval from ten seconds to an hour, and a timeout from a minute to a day. -/
structure Valid (form : CategoriesForm) : Prop where
  minSeverity : ∀ c, form.minSeverity c ∈ minSeverityOptions
  pollInterval : 10 ≤ form.pollInterval ∧ form.pollInterval ≤ 3600
  clearTimeout : 1 ≤ form.clearTimeout ∧ form.clearTimeout ≤ 1440

/-- What the step gets: every field is there. -/
def input (form : CategoriesForm) : CategoriesInput where
  cat := form.cat
  minSeverity c := some (form.minSeverity c)
  pollInterval := some form.pollInterval
  clearTimeout := some form.clearTimeout
  site := some form.site

def valid (form : CategoriesForm) : Bool :=
  (allCategories.all fun c => minSeverityOptions.contains (form.minSeverity c)) &&
    decide (10 ≤ form.pollInterval ∧ form.pollInterval ≤ 3600) &&
    decide (1 ≤ form.clearTimeout ∧ form.clearTimeout ≤ 1440)

/-- `data_schema(user_input)`; `none` when a field is rejected. -/
def validate (form : CategoriesForm) (data : CategoriesData) : Option CategoriesInput :=
  if (form.fill data).valid then some (form.fill data).input else none

theorem valid_iff {form : CategoriesForm} : form.valid = true ↔ form.Valid := by
  simp only [valid, Bool.and_eq_true, List.all_eq_true, List.contains_iff_mem, decide_eq_true_eq]
  exact ⟨fun ⟨⟨hs, hp⟩, hc⟩ => ⟨fun c => hs c c.mem_all, hp, hc⟩,
    fun h => ⟨⟨fun c _ => h.minSeverity c, h.pollInterval⟩, h.clearTimeout⟩⟩

theorem validate_eq_some {form : CategoriesForm} {data : CategoriesData} {input : CategoriesInput} :
    form.validate data = some input ↔ (form.fill data).Valid ∧ (form.fill data).input = input := by
  unfold validate
  split
  · rename_i h
    simp [valid_iff.mp h]
  · rename_i h
    exact ⟨fun hnone => (nomatch hnone), fun hv => absurd (valid_iff.mpr hv.1) h⟩

end CategoriesForm

/-- The form of the setup flow; the categories switched off are its `_chatty` ones. -/
def SetupFlow.categoriesForm : CategoriesForm where
  cat c := !(["network_device", "network_client"].contains c.name)
  minSeverity _ := MinimumSeverity.noFilter.text
  pollInterval := defaultPollInterval
  clearTimeout := defaultClearTimeout
  site := defaultSite

/-- The setup flow offers what it accepts. -/
theorem SetupFlow.categoriesForm_valid : SetupFlow.categoriesForm.Valid :=
  ⟨fun _ => (by decide : MinimumSeverity.noFilter.text ∈ minSeverityOptions), by decide, by decide⟩

/-! ## The form of an entry -/

/-- `_MIN_SEVERITY_TO_WIDGET.get(stored, MIN_SEVERITY_NO_FILTER)`. -/
def minSeverityWidget : Json → String
  | .str stored => ((minSeverityToWidget.find? fun p => p.1.text == stored).map Prod.snd).getD
      MinimumSeverity.noFilter.text
  | _ => MinimumSeverity.noFilter.text

namespace ConfigEntry

/-- The settings in force: those of `entry.options`, then those of `entry.data`. -/
def settings (entry : ConfigEntry) : Settings where
  enabledCategories := entry.options.enabledCategories.or entry.data.enabledCategories
  pollInterval := entry.options.pollInterval.or entry.data.pollInterval
  clearTimeout := entry.options.clearTimeout.or entry.data.clearTimeout
  site := entry.options.site.or entry.data.site
  minSeverity := entry.options.minSeverity.or entry.data.minSeverity

/-- The defaults of the options form, over the stored minimum severities. -/
def defaults (entry : ConfigEntry) (stored : Category → Json) : CategoriesForm where
  cat c := match entry.settings.enabledCategories with
    | some names => names.contains c.name
    | none => true
  minSeverity c := minSeverityWidget (stored c)
  pollInterval := entry.settings.pollInterval.getD defaultPollInterval
  clearTimeout := entry.settings.clearTimeout.getD defaultClearTimeout
  site := entry.settings.site.getD defaultSite

/-- The options form. A stored value that is no map has no `get`, and a map with an
unhashable value fails the lookup of the widget. -/
def categoriesForm (entry : ConfigEntry) : Except Exc CategoriesForm := do
  let minSeverity ← (entry.settings.minSeverity.getD (.obj [])).asDict
  let stored := fun c : Category => minSeverity.getD c.name (.str MinimumSeverity.noFilter.text)
  if allCategories.all fun c => (stored c).hashable then return entry.defaults stored
  else throw .typeError

/-- The entry with the settings that a form stores. -/
def store (entry : ConfigEntry) (form : CategoriesForm) : ConfigEntry :=
  { entry with options := form.input.settings }

end ConfigEntry

/-! ## Widget values -/

/-- What `get_effective_min_severity` makes of a stored value. -/
def resolveMinSeverity : Json → MinimumSeverity
  | .str resolved => (minSeverityOrder.find? fun level => level.text == resolved).getD .noFilter
  | _ => .noFilter

theorem getEffectiveMinSeverity_eq (config : UniFiClientConfig) {map : JsonObj} {category : String}
    (hmap : config.minSeverity.getD (.obj []) = .obj map) :
    getEffectiveMinSeverity config category =
      resolveMinSeverity (map.getD category (.str MinimumSeverity.noFilter.text)) := by
  unfold getEffectiveMinSeverity
  rw [hmap]
  dsimp only
  cases map.getD category (.str MinimumSeverity.noFilter.text) <;> rfl

/-- An option comes back from the store as the option it was. -/
theorem widget_of_option : ∀ w ∈ minSeverityOptions,
    minSeverityWidget (.str (widgetToMinSeverity w).text) = w := by
  decide

/-- A stored value and the option it is shown as stand for the same minimum. -/
theorem resolve_widget (v : Json) :
    resolveMinSeverity (.str (widgetToMinSeverity (minSeverityWidget v)).text) =
      resolveMinSeverity v := by
  have hnoFilter : resolveMinSeverity
      (.str (widgetToMinSeverity MinimumSeverity.noFilter.text).text) = .noFilter := by
    decide
  cases v with
  | str s =>
      cases hfind : minSeverityToWidget.find? fun p => p.1.text == s with
      | some p =>
          obtain rfl : p.1.text = s := by simpa using List.find?_some hfind
          have hall : ∀ q ∈ minSeverityToWidget,
              resolveMinSeverity
                  (.str (widgetToMinSeverity (minSeverityWidget (.str q.1.text))).text) =
                resolveMinSeverity (.str q.1.text) := by
            decide
          exact hall p (List.mem_of_find?_eq_some hfind)
      | none =>
          have hother : ∀ p ∈ minSeverityToWidget, p.1.text ≠ s := by
            simpa using List.find?_eq_none.mp hfind
          have hwidget : minSeverityWidget (.str s) = MinimumSeverity.noFilter.text := by
            rw [minSeverityWidget, hfind]
            rfl
          have hresolve : resolveMinSeverity (.str s) = .noFilter := by
            have hnone : (minSeverityOrder.find? fun level => level.text == s) = none := by
              rw [List.find?_eq_none]
              have hlevels : minSeverityOrder = minSeverityToWidget.map Prod.fst := rfl
              rw [hlevels]
              simpa using hother
            rw [resolveMinSeverity, hnone]
            rfl
          rw [hwidget, hresolve]
          exact hnoFilter
  | _ => exact hnoFilter

/-! ## The form is a view -/

/-- The same settings for the coordinator and the webhooks: the two configurations may be
stored differently, but every default that stands in for a missing value gives one result.
-/
structure Behaves (config config' : UniFiClientConfig) : Prop where
  enabled : ∀ c, config.enabled c = config'.enabled c
  minSeverity : ∀ c : Category,
    getEffectiveMinSeverity config c.name = getEffectiveMinSeverity config' c.name
  pollInterval : config.pollInterval.getD defaultPollInterval =
    config'.pollInterval.getD defaultPollInterval
  clearTimeout : config.clearDelaySeconds = config'.clearDelaySeconds
  site : config.effectiveSite = config'.effectiveSite

namespace ConfigEntry

variable {entry : ConfigEntry} {form : CategoriesForm}

theorem mem_enabled {input : CategoriesInput} {c : Category} :
    input.enabled.contains c.name = input.cat c := by
  rw [Bool.eq_iff_iff, List.contains_iff_mem]
  constructor
  · intro h
    obtain ⟨d, hd, hname⟩ := List.mem_map.mp h
    exact Category.name_injective hname ▸ (List.mem_filter.mp hd).2
  · exact fun h => List.mem_map.mpr ⟨c, List.mem_filter.mpr ⟨c.mem_all, h⟩, rfl⟩

/-- The stored map has the chosen minimum of each category. -/
theorem stored_minSeverity (input : CategoriesInput) (c : Category) (default : Json) :
    JsonObj.getD (allCategories.map fun c => (c.name, Json.str (widgetToMinSeverity
      ((input.minSeverity c).getD MinimumSeverity.noFilter.text)).text)) c.name default =
    .str (widgetToMinSeverity ((input.minSeverity c).getD MinimumSeverity.noFilter.text)).text := by
  rw [JsonObj.getD, lookup_map_key Category.name_injective _ c.mem_all]
  rfl

theorem categoriesForm_ok_iff : entry.categoriesForm = .ok form ↔ ∃ map : JsonObj,
    entry.settings.minSeverity.getD (.obj []) = .obj map ∧
      (∀ c : Category, (map.getD c.name (.str MinimumSeverity.noFilter.text)).hashable = true) ∧
      entry.defaults (fun c => map.getD c.name (.str MinimumSeverity.noFilter.text)) = form := by
  unfold categoriesForm
  constructor
  · intro h
    obtain ⟨map, hmap, h⟩ := bind_eq_ok.mp h
    dsimp only at h
    split at h
    · rename_i hall
      refine ⟨map, ?_, fun c => List.all_eq_true.mp hall c c.mem_all, Except.ok.inj h⟩
      cases hstored : entry.settings.minSeverity.getD (.obj []) with
      | obj kvs =>
          rw [hstored] at hmap
          rw [Except.ok.inj hmap]
      | _ =>
          rw [hstored] at hmap
          cases hmap
    · cases h
  · rintro ⟨map, hmap, hhash, rfl⟩
    rw [hmap, Json.asDict, ok_bind]
    dsimp only
    rw [if_pos (List.all_eq_true.mpr fun c _ => hhash c)]
    rfl

/-- What is stored opens as it was submitted. -/
theorem categoriesForm_stored (hvalid : form.Valid)
    (hstored : entry.settings = form.input.settings) : entry.categoriesForm = .ok form := by
  refine categoriesForm_ok_iff.mpr ⟨_, by rw [hstored]; rfl, fun c => ?_, ?_⟩
  · rw [stored_minSeverity]
    rfl
  · ext1
    · funext c
      simp only [defaults, hstored]
      exact mem_enabled
    · funext c
      simp only [defaults, stored_minSeverity]
      exact widget_of_option _ (hvalid.minSeverity c)
    · simp only [defaults, hstored]
      rfl
    · simp only [defaults, hstored]
      rfl
    · simp only [defaults, hstored]
      rfl

/-- Storing the form as it opened changes no setting in force, also in an entry that
no flow made. -/
theorem behaves_unchanged (hform : entry.categoriesForm = .ok form) :
    Behaves (entry.store form).config entry.config := by
  obtain ⟨map, hmap, -, rfl⟩ := categoriesForm_ok_iff.mp hform
  refine ⟨fun c => ?_, fun c => ?_, rfl, rfl, rfl⟩
  · exact mem_enabled
  · rw [getEffectiveMinSeverity_eq entry.config hmap, getEffectiveMinSeverity_eq _ rfl,
      stored_minSeverity]
    exact resolve_widget _

end ConfigEntry

/-! ## What a flow is about to store -/

/-- A submission that the form passes on to its step: the schema has filled it in and
accepted it. -/
def CategoriesInput.Offered (input : CategoriesInput) : Prop :=
  ∃ form : CategoriesForm, form.Valid ∧ form.input = input

/-- A categories form is taken as its schema left it. -/
def FlowEvent.Validated : FlowEvent → Prop
  | .take _ (.categories input) => input.Offered
  | _ => True

/-- The steps of the setup flow, with what each hands on to the next. -/
inductive SetupFlow.Moves : SetupStep → Input → SetupStep → Prop
  | refused {form : UserInput} : Moves .user (.user form) .user
  | tried {form : UserInput} : Moves .user (.user form) (.checkingUser form)
  | rejected {form : UserInput} {net : Net} {secret suffix : String} :
      Moves (.checkingUser form) (.answer net secret suffix) .user
  | accepted {form : UserInput} {net : Net} {secret suffix : String} {credentials : EntryData}
      (hsecret : credentials.webhookSecret = secret) :
      Moves (.checkingUser form) (.answer net secret suffix) (.categories credentials)
  | empty {credentials : EntryData} {form : CategoriesInput} :
      Moves (.categories credentials) (.categories form) (.categories credentials)
  | named {credentials : EntryData} {form : CategoriesInput} (henabled : form.enabled ≠ []) :
      Moves (.categories credentials) (.categories form) (.checkingSite credentials form)
  | chosen {credentials : EntryData} {form : CategoriesInput} (henabled : form.enabled ≠ []) :
      Moves (.categories credentials) (.categories form)
        (.finish { credentials with toSettings := form.settings })
  | noSite {credentials : EntryData} {form : CategoriesInput} {net : Net} {secret suffix : String} :
      Moves (.checkingSite credentials form) (.answer net secret suffix) (.categories credentials)
  | site {credentials : EntryData} {form : CategoriesInput} {net : Net} {secret suffix : String} :
      Moves (.checkingSite credentials form) (.answer net secret suffix)
        (.finish { credentials with toSettings := form.settings })

section

variable {urls : Urls} {h : Hass} {outcome : Outcome} {flow' : Flow} {input : Input}

theorem setup_moves {flow : SetupFlow} (htake : flow.take urls h input = some outcome)
    (hout : outcome.flow = some flow') :
    ∃ next : SetupFlow, flow' = .setup next ∧ SetupFlow.Moves flow.step input next.step := by
  unfold SetupFlow.take at htake
  split at htake
  · rename_i hstep
    obtain rfl := Option.some.inj htake
    unfold SetupFlow.submitUser at hout
    dsimp only at hout
    rw [hstep]
    split at hout
    · obtain rfl := Option.some.inj hout
      exact ⟨_, rfl, hstep ▸ .refused⟩
    · obtain rfl := Option.some.inj hout
      exact ⟨_, rfl, hstep ▸ .refused⟩
    · split at hout
      · cases hout
      · obtain rfl := Option.some.inj hout
        exact ⟨_, rfl, .tried⟩
  · rename_i hstep
    obtain rfl := Option.some.inj htake
    obtain rfl := Option.some.inj hout
    refine ⟨_, rfl, ?_⟩
    unfold SetupFlow.userChecked
    dsimp only
    rw [hstep]
    split
    · exact .rejected
    · exact .accepted rfl
  · rename_i hstep
    obtain rfl := Option.some.inj htake
    obtain rfl := Option.some.inj hout
    refine ⟨_, rfl, ?_⟩
    unfold SetupFlow.submitCategories
    split
    · simp only [hstep]
      exact .empty
    · rename_i hne
      rw [hstep]
      split
      · exact .named hne
      · exact .chosen hne
  · rename_i hstep
    obtain rfl := Option.some.inj htake
    obtain rfl := Option.some.inj hout
    refine ⟨_, rfl, ?_⟩
    unfold SetupFlow.siteChecked
    rw [hstep]
    split
    · exact .noSite
    · exact .site
  · obtain rfl := Option.some.inj htake
    cases hout
  · cases htake

/-- The flow that a start opens. -/
theorem started_cases {kind : Start} (hstart : h.start kind = some outcome)
    (hout : outcome.flow = some flow') :
    (∃ next : SetupFlow, flow' = .setup next ∧ next.step = .user) ∨
      (∃ i entry, h.findEntry i = some entry ∧ flow' = .options { entryId := entry.entryId }) ∨
      (∃ next, flow' = .reconfigure next) ∨ ∃ next, flow' = .reauth next := by
  cases kind with
  | user =>
      obtain rfl := Option.some.inj hstart
      obtain rfl := Option.some.inj hout
      exact Or.inl ⟨_, rfl, rfl⟩
  | ssdp host serial =>
      obtain rfl := Option.some.inj hstart
      unfold ssdp at hout
      split at hout
      · cases hout
      · dsimp only at hout
        split at hout
        · cases hout
        · split at hout
          · obtain rfl := Option.some.inj hout
            exact Or.inl ⟨_, rfl, rfl⟩
          · split at hout
            · cases hout
            · obtain rfl := Option.some.inj hout
              exact Or.inl ⟨_, rfl, rfl⟩
  | options entryId =>
      obtain ⟨entry, hentry, rfl⟩ := Option.map_eq_some_iff.mp hstart
      obtain rfl := Option.some.inj hout
      exact Or.inr (Or.inl ⟨entryId, entry, hentry, rfl⟩)
  | reconfigure entryId =>
      obtain ⟨entry, -, rfl⟩ := Option.map_eq_some_iff.mp hstart
      obtain rfl := Option.some.inj hout
      exact Or.inr (Or.inr (Or.inl ⟨_, rfl⟩))
  | reauth entryId =>
      obtain ⟨entry, -, rfl⟩ := Option.map_eq_some_iff.mp hstart
      obtain rfl := Option.some.inj hout
      exact Or.inr (Or.inr (Or.inr ⟨_, rfl⟩))

end

/-- What is on its way to the entry satisfies `D`. -/
def Flow.Drafts (D : CategoriesInput → Prop) : Flow → Prop
  | .setup flow => match flow.step with
    | .checkingSite _ input => D input ∧ input.enabled ≠ []
    | .finish data => ∃ input, D input ∧ input.enabled ≠ [] ∧ data.toSettings = input.settings
    | _ => True
  | .options flow => match flow.step with
    | .checkingSite _ input => D input ∧ input.enabled ≠ []
    | .finish => ∃ input, D input ∧ input.enabled ≠ [] ∧ flow.pendingOptions = input.settings
    | _ => True
  | _ => True

section

variable {urls : Urls} {h : Hass} {outcome : Outcome} {flow' : Flow} {input : Input}
  {D D' : CategoriesInput → Prop}

theorem setup_drafts {flow : SetupFlow} (hflow : (Flow.setup flow).Drafts D)
    (hkeep : (∀ i, input ≠ .categories i) → ∀ i, D i → D' i)
    (hnew : ∀ i, input = .categories i → D' i) (htake : flow.take urls h input = some outcome)
    (hout : outcome.flow = some flow') : flow'.Drafts D' := by
  obtain ⟨next, rfl, hmoves⟩ := setup_moves htake hout
  simp only [Flow.Drafts] at hflow ⊢
  generalize flow.step = step at hflow hmoves
  generalize next.step = step' at hmoves ⊢
  cases hmoves with
  | named henabled => exact ⟨hnew _ rfl, henabled⟩
  | chosen henabled => exact ⟨_, hnew _ rfl, henabled, rfl⟩
  | site => exact ⟨_, hkeep (by simp) _ hflow.1, hflow.2, rfl⟩
  | _ => trivial

theorem options_drafts {flow : OptionsFlow} {entry : ConfigEntry}
    (hflow : (Flow.options flow).Drafts D)
    (hkeep : (∀ i, input ≠ .categories i) → ∀ i, D i → D' i)
    (hnew : ∀ i, input = .categories i → D' i)
    (htake : flow.take urls h entry input = some outcome) (hout : outcome.flow = some flow') :
    flow'.Drafts D' := by
  unfold OptionsFlow.take at htake
  split at htake
  · rename_i hstep
    obtain rfl := Option.some.inj htake
    obtain rfl := Option.some.inj hout
    unfold OptionsFlow.submitCredentials
    dsimp only
    split
    · trivial
    · split
      · trivial
      · split
        · simp only [Flow.Drafts, hstep]
        · simp only [Flow.Drafts, hstep]
        · trivial
  · obtain rfl := Option.some.inj htake
    obtain ⟨flow'', hchecked, rfl⟩ := Option.map_eq_some_iff.mp hout
    unfold OptionsFlow.credentialsChecked at hchecked
    split at hchecked
    · obtain rfl := Option.some.inj hchecked
      trivial
    · split at hchecked
      · cases hchecked
      · obtain rfl := Option.some.inj hchecked
        trivial
  · rename_i hstep
    obtain rfl := Option.some.inj htake
    obtain rfl := Option.some.inj hout
    unfold OptionsFlow.submitCategories
    split
    · simp only [Flow.Drafts, hstep]
    · rename_i hne
      split
      · exact ⟨hnew _ rfl, hne⟩
      · exact ⟨_, hnew _ rfl, hne, rfl⟩
  · rename_i hstep
    obtain rfl := Option.some.inj htake
    obtain rfl := Option.some.inj hout
    simp only [Flow.Drafts, hstep] at hflow
    unfold OptionsFlow.siteChecked
    split
    · trivial
    · exact ⟨_, hkeep (fun i hi => nomatch hi) _ hflow.1, hflow.2, rfl⟩
  · obtain rfl := Option.some.inj htake
    unfold OptionsFlow.submitFinish at hout
    split at hout <;> cases hout
  · cases htake

theorem drafts_of_start {kind : Start} (hstart : h.start kind = some outcome)
    (hout : outcome.flow = some flow') : flow'.Drafts D' := by
  rcases started_cases hstart hout with
    ⟨next, rfl, hstep⟩ | ⟨i, entry, -, rfl⟩ | ⟨next, rfl⟩ | ⟨next, rfl⟩
  · simp only [Flow.Drafts, hstep]
  · trivial
  · trivial
  · trivial

end

/-! ## Where a form comes from -/

namespace Hass

/-- The flow takes a categories form. -/
def Submits (urls : Urls) (id : Nat) (h : Hass) (event : FlowEvent) : Prop :=
  (∃ input, event = .take id (.categories input)) ∧ (h.react urls event).isSome

/-- The flow is finished and stores settings for the entry. -/
def Files (i id : Nat) (h : Hass) (event : FlowEvent) : Prop :=
  event = .take id .finish ∧
    ((∃ flow data, h.flows id = some (.setup flow) ∧ flow.step = .finish data ∧ h.nextEntry = i) ∨
      ∃ flow, h.flows id = some (.options flow) ∧ flow.step = .finish ∧ flow.entryId = i ∧
        (h.findEntry i).isSome)

end Hass

/-- Of the forms the flow took, this was the last. -/
def LastTaken (urls : Urls) (h₀ : Hass) (events : List FlowEvent) (id : Nat)
    (input : CategoriesInput) : Prop :=
  Since (Hass.step urls)
    (fun h event => event = .take id (.categories input) ∧ (h.react urls event).isSome)
    (fun h event => ¬h.Submits urls id event) h₀ events

/-- The form is the one that the entry had at first, or the last one taken by the
last flow that stored settings for it. -/
def Origin (urls : Urls) (h₀ : Hass) (events : List FlowEvent) (i : Nat) (form : CategoriesForm) :
    Prop :=
  (∃ entry, h₀.findEntry i = some entry ∧ entry.categoriesForm = .ok form ∧
    Along (Hass.step urls) (fun h event => ¬∃ id, h.Files i id event) h₀ events) ∨
  ∃ before id after, events = before ++ .take id .finish :: after ∧
    (run (Hass.step urls) h₀ before).Files i id (.take id .finish) ∧
    Along (Hass.step urls) (fun h event => ¬∃ id, h.Files i id event)
      (run (Hass.step urls) h₀ (before ++ [.take id .finish])) after ∧
    LastTaken urls h₀ before id form.input

theorem Flow.Drafts.mono {D D' : CategoriesInput → Prop} (hkeep : ∀ i, D i → D' i) :
    ∀ {flow : Flow}, flow.Drafts D → flow.Drafts D'
  | .setup flow, hflow => by
      simp only [Flow.Drafts] at hflow ⊢
      split
      · rename_i hstep
        simp only [hstep] at hflow
        exact ⟨hkeep _ hflow.1, hflow.2⟩
      · rename_i hstep
        simp only [hstep] at hflow
        obtain ⟨input, hD, hrest⟩ := hflow
        exact ⟨input, hkeep _ hD, hrest⟩
      · trivial
  | .options flow, hflow => by
      simp only [Flow.Drafts] at hflow ⊢
      split
      · rename_i hstep
        simp only [hstep] at hflow
        exact ⟨hkeep _ hflow.1, hflow.2⟩
      · rename_i hstep
        simp only [hstep] at hflow
        obtain ⟨input, hD, hrest⟩ := hflow
        exact ⟨input, hkeep _ hD, hrest⟩
      · trivial
  | .reconfigure _, _ | .reauth _, _ => trivial

section

variable {urls : Urls} {h : Hass} {event : FlowEvent}

theorem drafts_step {D D' : Nat → CategoriesInput → Prop}
    (hflows : ∀ id flow, h.flows id = some flow → flow.Drafts (D id))
    (hkeep : ∀ id, ¬h.Submits urls id event → ∀ i, D id i → D' id i)
    (hnew : ∀ id i, event = .take id (.categories i) → (h.react urls event).isSome → D' id i)
    {id : Nat} {flow : Flow} (hflow : (h.step urls event).flows id = some flow) :
    flow.Drafts (D' id) := by
  unfold Hass.step at hflow
  cases hreact : h.react urls event with
  | none =>
      rw [hreact] at hflow
      have hquiet : ¬h.Submits urls id event := fun hsub => by
        rw [Hass.Submits, hreact] at hsub
        cases hsub.2
      exact (hflows id flow hflow).mono (hkeep id hquiet)
  | some outcome =>
      rw [hreact] at hflow
      by_cases hid : id = event.id
      · subst hid
        have hout : outcome.flow = some flow :=
          Eq.trans (b := (h.finish event.id outcome).flows event.id)
            (Function.update_self event.id outcome.flow h.flows).symm hflow
        have htaken : ∀ {input : Input}, event = .take event.id input →
            (∀ i, input ≠ .categories i) → ∀ i, D event.id i → D' event.id i := by
          intro input hevent hother
          refine hkeep event.id fun ⟨⟨i, hi⟩, _⟩ => ?_
          exact hother i (FlowEvent.take.inj (hevent.symm.trans hi)).2
        have hsome : (h.react urls event).isSome := by rw [hreact]; rfl
        cases reacts_of_react hreact with
        | started hstart => exact drafts_of_start hstart hout
        | setup hf htake =>
            exact setup_drafts (hflows _ _ hf) (htaken rfl)
              (fun i hi => hnew _ i (by rw [hi]; rfl) hsome) htake hout
        | options hf hentry htake =>
            exact options_drafts (hflows _ _ hf) (htaken rfl)
              (fun i hi => hnew _ i (by rw [hi]; rfl) hsome) htake hout
        | reconfigure hf hentry htake =>
            obtain ⟨next, rfl⟩ := reconfigure_kind htake hout
            trivial
        | reauth hf hentry htake =>
            obtain ⟨next, rfl⟩ := reauth_kind htake hout
            trivial
        | abandoned => cases hout
      · have hother : ¬h.Submits urls id event := fun ⟨⟨i, hi⟩, _⟩ => hid (by rw [hi]; rfl)
        have hsame : (h.finish event.id outcome).flows id = h.flows id :=
          Function.update_of_ne hid ..
        exact (hflows id flow (hsame ▸ hflow)).mono (hkeep id hother)

end

/-- An entry whose form opens with values that it would accept, at least one category
among them. -/
def ConfigEntry.Opens (entry : ConfigEntry) (form : CategoriesForm) : Prop :=
  entry.categoriesForm = .ok form ∧ form.Valid ∧ ∃ c, form.cat c = true

theorem Origin.snoc {urls : Urls} {h₀ : Hass} {events : List FlowEvent} {i : Nat}
    {form : CategoriesForm} {event : FlowEvent} (horigin : Origin urls h₀ events i form)
    (hnot : ¬∃ id, (run (Hass.step urls) h₀ events).Files i id event) :
    Origin urls h₀ (events ++ [event]) i form := by
  rcases horigin with ⟨entry, hentry, hform, halong⟩ |
      ⟨before, id, after, rfl, hfiles, halong, hlast⟩
  · exact Or.inl ⟨entry, hentry, hform, Along.append.mpr ⟨halong, hnot, trivial⟩⟩
  · refine Or.inr ⟨before, id, after ++ [event], by simp, hfiles,
      Along.append.mpr ⟨halong, ?_, trivial⟩, hlast⟩
    rwa [← run_append, List.append_assoc, List.singleton_append]

theorem opens_of_offered {entry : ConfigEntry} {input : CategoriesInput} {form : CategoriesForm}
    (hvalid : form.Valid) (hinput : form.input = input) (hne : input.enabled ≠ [])
    (hstored : entry.settings = input.settings) : entry.Opens form := by
  subst hinput
  refine ⟨ConfigEntry.categoriesForm_stored hvalid hstored, hvalid, ?_⟩
  obtain ⟨name, hname⟩ := List.exists_mem_of_ne_nil _ hne
  obtain ⟨c, hc, -⟩ := List.mem_map.mp hname
  exact ⟨c, (List.mem_filter.mp hc).2⟩

/-- The entry that a finished setup leaves. -/
theorem setupFinish_findEntry {urls : Urls} {h : Hass} {id : Nat} {flow : SetupFlow}
    {data : EntryData} (hids : h.Ids) (hflow : h.flows id = some (.setup flow))
    (hstep : flow.step = .finish data) :
    (h.step urls (.take id .finish)).findEntry h.nextEntry =
      some { entryId := h.nextEntry, uniqueId := flow.uniqueId, data } := by
  have hfree : h.findEntry h.nextEntry = none := by
    cases hfind : h.findEntry h.nextEntry with
    | none => rfl
    | some old =>
        have hlt := hids.given old (mem_of_findEntry hfind).1
        rw [(mem_of_findEntry hfind).2] at hlt
        exact absurd hlt (lt_irrefl _)
  have hcreated : (h.step urls (.take id .finish)).findEntry h.nextEntry =
      (h.write (.create flow.uniqueId data)).findEntry h.nextEntry := by
    rw [step_setupFinish hflow hstep]
    rfl
  rw [hcreated, findEntry_create, hfree, Option.none_or, if_pos rfl]

/-- A finished flow leaves the entry with the settings it was about to store. -/
theorem settings_filed {urls : Urls} {h : Hass} {D : CategoriesInput → Prop} {i id : Nat}
    (hids : h.Ids) (hflows : ∀ flow, h.flows id = some flow → flow.Drafts D)
    (hfiles : h.Files i id (.take id .finish)) {entry : ConfigEntry}
    (hentry : (h.step urls (.take id .finish)).findEntry i = some entry) :
    ∃ input, D input ∧ input.enabled ≠ [] ∧ entry.settings = input.settings := by
  obtain ⟨-, ⟨flow, data, hflow, hstep, rfl⟩ | ⟨flow, hflow, hstep, rfl, hsome⟩⟩ := hfiles
  · have hdrafts := hflows _ hflow
    simp only [Flow.Drafts, hstep] at hdrafts
    obtain ⟨input, hD, hne, hdata⟩ := hdrafts
    rw [setupFinish_findEntry hids hflow hstep] at hentry
    obtain rfl := Option.some.inj hentry
    refine ⟨input, hD, hne, ?_⟩
    rw [← hdata]
    rfl
  · have hdrafts := hflows _ hflow
    simp only [Flow.Drafts, hstep] at hdrafts
    obtain ⟨input, hD, hne, hpending⟩ := hdrafts
    obtain ⟨old, hold⟩ := Option.isSome_iff_exists.mp hsome
    rw [finish_findEntry hflow hstep hold] at hentry
    obtain rfl := Option.some.inj hentry
    refine ⟨input, hD, hne, ?_⟩
    simp only [ConfigEntry.settings, ConfigEntry.update, hpending, Option.getD_some]
    rfl

/-- An update of an entry's data keeps the settings in it. -/
theorem settings_of_update {h : Hass} {i j : Nat} {data : EntryData} {uniqueId : Option String}
    {entry : ConfigEntry}
    (hentry : (h.write (.update j (some data) uniqueId none)).findEntry i = some entry)
    (hdata : ∀ old, h.findEntry j = some old → data.toSettings = old.data.toSettings) :
    ∃ old, h.findEntry i = some old ∧ old.settings = entry.settings := by
  rw [findEntry_update] at hentry
  obtain ⟨old, hold, rfl⟩ := Option.map_eq_some_iff.mp hentry
  refine ⟨old, hold, ?_⟩
  split
  · rename_i hj
    have hid := (mem_of_findEntry hold).2
    have hsettings := hdata old (by rw [← hj, hid]; exact hold)
    simp [ConfigEntry.settings, ConfigEntry.update, hsettings]
  · rfl

/-- An options flow that finishes stores settings for its own entry only. -/
theorem settings_of_options {h : Hass} {i id : Nat} {flow : OptionsFlow} {filed : ConfigEntry}
    {data : Option EntryData} {uniqueId : Option String} {entry : ConfigEntry}
    (hnot : ¬∃ id', h.Files i id' (.take id .finish)) (hflow : h.flows id = some (.options flow))
    (hstep : flow.step = .finish) (hfiled : h.findEntry flow.entryId = some filed)
    (hentry : (h.write (.update filed.entryId data uniqueId (some flow.pendingOptions))).findEntry
      i = some entry) :
    ∃ old, h.findEntry i = some old ∧ old.settings = entry.settings := by
  rw [findEntry_update] at hentry
  obtain ⟨old, hold, rfl⟩ := Option.map_eq_some_iff.mp hentry
  refine ⟨old, hold, ?_⟩
  split
  · rename_i hid
    have hsame : flow.entryId = i := by
      rw [← (mem_of_findEntry hold).2, hid, (mem_of_findEntry hfiled).2]
    exact absurd ⟨id, rfl, Or.inr ⟨flow, hflow, hstep, hsame, by rw [hold]; rfl⟩⟩ hnot
  · rfl

/-- Any other event leaves the settings of an entry as they were. -/
theorem settings_kept {urls : Urls} {h : Hass} {event : FlowEvent} {i : Nat} (hids : h.Ids)
    (hnot : ¬∃ id, h.Files i id event) {entry : ConfigEntry}
    (hentry : (h.step urls event).findEntry i = some entry) :
    ∃ old, h.findEntry i = some old ∧ old.settings = entry.settings := by
  rcases step_findEntry urls h event with hsame | ⟨w, hw, hwritten⟩
  · exact ⟨entry, hsame i ▸ hentry, rfl⟩
  rw [hwritten] at hentry
  have hfound : ∀ {j : Nat} {old old' : ConfigEntry}, h.findEntry j = some old →
      h.findEntry old.entryId = some old' → old' = old := by
    intro j old old' hold hold'
    rw [(mem_of_findEntry hold).2, hold] at hold'
    exact (Option.some.inj hold').symm
  cases hw with
  | created hflow hstep =>
      rename_i id flow data
      rw [findEntry_create] at hentry
      cases hold : h.findEntry i with
      | some old =>
          rw [hold] at hentry
          exact ⟨old, rfl, congrArg ConfigEntry.settings (Option.some.inj hentry)⟩
      | none =>
          rw [hold, Option.none_or] at hentry
          split at hentry
          · rename_i hnext
            exact absurd ⟨id, rfl, Or.inl ⟨flow, data, hflow, hstep, hnext⟩⟩ hnot
          · cases hentry
  | optionsOnly hflow hstep hold hpending =>
      exact settings_of_options hnot hflow hstep hold hentry
  | optionsFinished hflow hstep hold hpending =>
      exact settings_of_options hnot hflow hstep hold hentry
  | rediscovered hserial hnew hfind hurl =>
      refine settings_of_update hentry fun old hold => ?_
      rw [hids.findEntry (List.mem_of_find?_eq_some hfind)] at hold
      obtain rfl := Option.some.inj hold
      rfl
  | sslReconfigured hflow hstep hold hchanged =>
      refine settings_of_update hentry fun old' hold' => ?_
      rw [hfound hold hold', verifySslPending_settings]
  | reconfigured hflow hstep hold hvalid hfree =>
      refine settings_of_update hentry fun old' hold' => ?_
      rw [hfound hold hold', credentialsPending_settings]
  | reauthenticated hflow hstep hold =>
      refine settings_of_update hentry fun old' hold' => ?_
      rw [hfound hold hold']

theorem categoriesForm_congr {entry entry' : ConfigEntry} (h : entry.settings = entry'.settings) :
    entry.categoriesForm = entry'.categoriesForm := by
  unfold ConfigEntry.categoriesForm ConfigEntry.defaults
  rw [h]

/-! ## Every run -/

/-- Every entry has a form that opens, and it is where it comes from that says which. -/
def Traced (urls : Urls) (h₀ : Hass) (events : List FlowEvent) (h : Hass) : Prop :=
  h.Ids ∧
  (∀ id flow, h.flows id = some flow →
    flow.Drafts fun input => input.Offered ∧ LastTaken urls h₀ events id input) ∧
  ∀ i entry, h.findEntry i = some entry →
    ∃ form, entry.Opens form ∧ Origin urls h₀ events i form

theorem traced_step {urls : Urls} {h₀ : Hass} {events : List FlowEvent} {event : FlowEvent}
    (h : Traced urls h₀ events (run (Hass.step urls) h₀ events)) (hvalid : event.Validated) :
    Traced urls h₀ (events ++ [event]) (run (Hass.step urls) h₀ (events ++ [event])) := by
  obtain ⟨hids, hflows, hentries⟩ := h
  rw [run_snoc]
  refine ⟨hids.step urls event, fun id flow hflow => @drafts_step _ _ _ _ (fun id input =>
    input.Offered ∧ LastTaken urls h₀ (events ++ [event]) id input) hflows ?_ ?_ id flow hflow,
    fun i entry hentry => ?_⟩
  · exact fun id hquiet i hi => ⟨hi.1, hi.2.snoc hquiet⟩
  · rintro id i rfl htaken
    exact ⟨hvalid, since_snoc_of_sets ⟨rfl, htaken⟩⟩
  · by_cases hfiles : ∃ id, (run (Hass.step urls) h₀ events).Files i id event
    · obtain ⟨id, hfiles⟩ := hfiles
      obtain rfl := hfiles.1
      obtain ⟨input, ⟨⟨form, hform, hinput⟩, hlast⟩, hne, hstored⟩ :=
        settings_filed hids (hflows id) hfiles hentry
      refine ⟨form, opens_of_offered hform hinput hne hstored, Or.inr ?_⟩
      exact ⟨events, id, [], rfl, hfiles, trivial, hinput ▸ hlast⟩
    · obtain ⟨old, hold, hsame⟩ := settings_kept hids hfiles hentry
      obtain ⟨form, ⟨hopens, hrest⟩, horigin⟩ := hentries i old hold
      exact ⟨form, ⟨categoriesForm_congr hsame ▸ hopens, hrest⟩, horigin.snoc hfiles⟩

/-- An installation at rest: entries under distinct ids, no flow in progress, and every
options form opens with values that it accepts. -/
structure AtRest (h : Hass) : Prop where
  ids : h.Ids
  idle : ∀ id, h.flows id = none
  opens : ∀ entry ∈ h.entries, ∃ form, entry.Opens form

theorem traced_run {urls : Urls} {h₀ : Hass} (hrest : AtRest h₀) {events : List FlowEvent}
    (hevents : ∀ event ∈ events, event.Validated) :
    Traced urls h₀ events (run (Hass.step urls) h₀ events) := by
  refine @run_preserves_history _ _ (Hass.step urls) FlowEvent.Validated (Traced urls h₀) h₀
    (fun pre event h hvalid => traced_step h hvalid) ⟨hrest.ids, ?_, ?_⟩ events hevents
  · intro id flow hflow
    rw [hrest.idle] at hflow
    cases hflow
  · intro i entry hentry
    obtain ⟨form, hopens⟩ := hrest.opens entry (mem_of_findEntry hentry).1
    exact ⟨form, hopens, Or.inl ⟨entry, hentry, hopens.1, trivial⟩⟩

/-- The options form of an entry opens with what the last flow that stored settings for
it last took, whatever other flows do in between. -/
theorem options_form_follows (urls : Urls) (h₀ : Hass) (hrest : AtRest h₀)
    (events : List FlowEvent) (hevents : ∀ event ∈ events, event.Validated) :
    ∀ entry ∈ (run (Hass.step urls) h₀ events).entries,
      ∃ form, entry.Opens form ∧ Origin urls h₀ events entry.entryId form := by
  intro entry hentry
  obtain ⟨hids, -, hentries⟩ := @traced_run urls h₀ hrest events hevents
  exact hentries entry.entryId entry (hids.findEntry hentry)

/-- A setup, and a change of its options: everything is on and nothing is filtered. -/
def setupAndOptions : List FlowEvent :=
  [.start 0 .user,
   .take 0 (.user { controllerUrl := "https://192.168.1.1", apiKey := "key" }),
   .take 0 (.answer acceptingNet "secret" "0a1b2c3d"),
   .take 0 (.categories SetupFlow.categoriesForm.input),
   .take 0 .finish,
   .start 1 (.options 0),
   .take 1 (.credentials {} "rotated"),
   .take 1 (.categories { SetupFlow.categoriesForm with cat := fun _ => true }.input),
   .take 1 .finish]

theorem setupAndOptions_validated : ∀ event ∈ setupAndOptions, event.Validated := by
  have hvalid := SetupFlow.categoriesForm_valid
  unfold setupAndOptions
  simp only [List.forall_mem_cons, List.not_mem_nil, false_implies, implies_true, and_true,
    FlowEvent.Validated, true_and]
  exact ⟨⟨_, hvalid, rfl⟩, { SetupFlow.categoriesForm with cat := fun _ => true },
    ⟨hvalid.minSeverity, hvalid.pollInterval, hvalid.clearTimeout⟩, rfl⟩

theorem atRest_empty : AtRest {} :=
  ⟨ids_empty, fun _ => rfl, fun _ he => nomatch he⟩

theorem options_form_follows_setup :
    let h := run (Hass.step webUrls) {} setupAndOptions
    h.entries.length = 1 ∧ ∀ entry ∈ h.entries,
      ∃ form, entry.Opens form ∧ Origin webUrls {} setupAndOptions entry.entryId form := by
  exact ⟨by decide +kernel, options_form_follows webUrls {} atRest_empty setupAndOptions
    setupAndOptions_validated⟩

/-- In every installation that the flows reach, the options form of an entry passes its
own schema, storing it as it opened changes no setting in force, and whatever else it
accepts is what it opens with once that is stored. -/
theorem options_form_view (urls : Urls) (h₀ : Hass) (hrest : AtRest h₀)
    (events : List FlowEvent) (hevents : ∀ event ∈ events, event.Validated) :
    ∀ entry ∈ (run (Hass.step urls) h₀ events).entries, ∃ form, entry.categoriesForm = .ok form ∧
      form.validate {} = some form.input ∧ form.input.enabled ≠ [] ∧
      Behaves (entry.store form).config entry.config ∧
      ∀ data input, form.validate data = some input →
        ConfigEntry.categoriesForm { entry with options := input.settings } =
          .ok (form.fill data) := by
  intro entry hentry
  obtain ⟨form, ⟨hform, hvalid, c, hc⟩, -⟩ := options_form_follows urls h₀ hrest events hevents
    entry hentry
  refine ⟨form, hform, CategoriesForm.validate_eq_some.mpr ⟨hvalid, rfl⟩, fun hnil => ?_,
    ConfigEntry.behaves_unchanged hform, fun data input hdata => ?_⟩
  · have hmem : c.name ∈ form.input.enabled :=
      List.mem_map.mpr ⟨c, List.mem_filter.mpr ⟨c.mem_all, hc⟩, rfl⟩
    rw [hnil] at hmem
    cases hmem
  · obtain ⟨hfilled, rfl⟩ := CategoriesForm.validate_eq_some.mp hdata
    exact ConfigEntry.categoriesForm_stored hfilled rfl

theorem options_form_view_setup :
    let h := run (Hass.step webUrls) {} setupAndOptions
    h.entries.length = 1 ∧ ∀ entry ∈ h.entries, ∃ form, entry.categoriesForm = .ok form ∧
      form.validate {} = some form.input ∧ form.input.enabled ≠ [] ∧
      Behaves (entry.store form).config entry.config ∧
      ∀ data input, form.validate data = some input →
        ConfigEntry.categoriesForm { entry with options := input.settings } =
          .ok (form.fill data) := by
  exact ⟨by decide +kernel, options_form_view webUrls {} atRest_empty setupAndOptions
    setupAndOptions_validated⟩

end UnifiAlerts.ConfigFlow
