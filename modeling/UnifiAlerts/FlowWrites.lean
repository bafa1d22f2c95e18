import Mathlib.Data.List.Pairwise
import UnifiAlerts.ConfigFlow

/-!
# What an event writes

`Reacts` lists what an event can get to, and `Writes` the writes that
there are: one constructor for each place where a flow stores something,
with what holds of the flow and of the entries at that moment.
`reacts_of_react` and `react_write` say that the lists are complete, so
a property of every step is a case analysis on them. An event changes
the entries by its write (`step_entries`) and moves its own flow only
(`step_flows`).

The two lists are what the flow modules share. Each of their invariants
is about the entries and the flows in progress together, and is proved
by cases on `Reacts` for the flow that moved, and on `Writes` for the
entries; none of them unfolds a form again. The ids of entries are
distinct and below the next one (`Hass.Ids`), so that `findEntry` after
a write is one equation (`findEntry_update`, `findEntry_create`).
-/

namespace UnifiAlerts.ConfigFlow

open Py Lib

/-! ## What an event gets to -/

/-- The reactions there are: a new flow, a flow that takes its input, and the end of an
abandoned one. -/
inductive Reacts (urls : Urls) (h : Hass) : FlowEvent → Outcome → Prop
  | started {id : Nat} {kind : Start} {outcome : Outcome} (hstart : h.start kind = some outcome) :
      Reacts urls h (.start id kind) outcome
  | setup {id : Nat} {flow : SetupFlow} {input : Input} {outcome : Outcome}
      (hflow : h.flows id = some (.setup flow)) (htake : flow.take urls h input = some outcome) :
      Reacts urls h (.take id input) outcome
  | options {id : Nat} {flow : OptionsFlow} {entry : ConfigEntry} {input : Input}
      {outcome : Outcome} (hflow : h.flows id = some (.options flow))
      (hentry : h.findEntry flow.entryId = some entry)
      (htake : flow.take urls h entry input = some outcome) : Reacts urls h (.take id input) outcome
  | reconfigure {id : Nat} {flow : ReconfigureFlow} {entry : ConfigEntry} {input : Input}
      {outcome : Outcome} (hflow : h.flows id = some (.reconfigure flow))
      (hentry : h.findEntry flow.entryId = some entry)
      (htake : flow.take urls h entry input = some outcome) : Reacts urls h (.take id input) outcome
  | reauth {id : Nat} {flow : ReauthFlow} {entry : ConfigEntry} {input : Input}
      {outcome : Outcome} (hflow : h.flows id = some (.reauth flow))
      (hentry : h.findEntry flow.entryId = some entry)
      (htake : flow.take entry input = some outcome) :
      Reacts urls h (.take id input) outcome
  | abandoned {id : Nat} : Reacts urls h (.abandon id) { flow := none }

theorem reacts_of_react {urls : Urls} {h : Hass} {event : FlowEvent} {outcome : Outcome}
    (hreact : h.react urls event = some outcome) : Reacts urls h event outcome := by
  cases event with
  | start id kind =>
      unfold Hass.react at hreact
      dsimp only at hreact
      split at hreact
      · cases hreact
      · exact .started hreact
  | take id input =>
      obtain ⟨flow, hflow, htake⟩ := Option.bind_eq_some_iff.mp hreact
      cases flow with
      | setup flow => exact .setup hflow htake
      | options flow =>
          obtain ⟨entry, hentry, htake⟩ := Option.bind_eq_some_iff.mp htake
          exact .options hflow hentry htake
      | reconfigure flow =>
          obtain ⟨entry, hentry, htake⟩ := Option.bind_eq_some_iff.mp htake
          exact .reconfigure hflow hentry htake
      | reauth flow =>
          obtain ⟨entry, hentry, htake⟩ := Option.bind_eq_some_iff.mp htake
          exact .reauth hflow hentry htake
  | abandon id =>
      obtain ⟨flow, -, rfl⟩ := Option.map_eq_some_iff.mp hreact
      exact .abandoned

/-! A flow stays of its kind. -/

section

variable {urls : Urls} {h : Hass} {input : Input} {outcome : Outcome} {flow' : Flow}

theorem setup_kind {flow : SetupFlow} (htake : flow.take urls h input = some outcome)
    (hout : outcome.flow = some flow') : ∃ next, flow' = .setup next := by
  unfold SetupFlow.take at htake
  split at htake
  · obtain rfl := Option.some.inj htake
    unfold SetupFlow.submitUser at hout
    dsimp only at hout
    split at hout
    · exact ⟨_, (Option.some.inj hout).symm⟩
    · exact ⟨_, (Option.some.inj hout).symm⟩
    · split at hout
      · cases hout
      · exact ⟨_, (Option.some.inj hout).symm⟩
  · obtain rfl := Option.some.inj htake
    exact ⟨_, (Option.some.inj hout).symm⟩
  · obtain rfl := Option.some.inj htake
    exact ⟨_, (Option.some.inj hout).symm⟩
  · obtain rfl := Option.some.inj htake
    exact ⟨_, (Option.some.inj hout).symm⟩
  · obtain rfl := Option.some.inj htake
    cases hout
  · cases htake

theorem options_kind {flow : OptionsFlow} {entry : ConfigEntry}
    (htake : flow.take urls h entry input = some outcome) (hout : outcome.flow = some flow') :
    ∃ next, flow' = .options next := by
  unfold OptionsFlow.take at htake
  split at htake
  · obtain rfl := Option.some.inj htake
    exact ⟨_, (Option.some.inj hout).symm⟩
  · obtain rfl := Option.some.inj htake
    obtain ⟨next, -, rfl⟩ := Option.map_eq_some_iff.mp hout
    exact ⟨next, rfl⟩
  · obtain rfl := Option.some.inj htake
    exact ⟨_, (Option.some.inj hout).symm⟩
  · obtain rfl := Option.some.inj htake
    exact ⟨_, (Option.some.inj hout).symm⟩
  · obtain rfl := Option.some.inj htake
    unfold OptionsFlow.submitFinish at hout
    split at hout <;> cases hout
  · cases htake

theorem reconfigure_kind {flow : ReconfigureFlow} {entry : ConfigEntry}
    (htake : flow.take urls h entry input = some outcome) (hout : outcome.flow = some flow') :
    ∃ next, flow' = .reconfigure next := by
  unfold ReconfigureFlow.take at htake
  split at htake
  · obtain rfl := Option.some.inj htake
    unfold ReconfigureFlow.submit at hout
    dsimp only at hout
    split at hout
    · cases hout
    · split at hout
      · cases hout
      · split at hout <;> exact ⟨_, (Option.some.inj hout).symm⟩
  · obtain rfl := Option.some.inj htake
    unfold ReconfigureFlow.checked at hout
    dsimp only at hout
    split at hout
    · exact ⟨_, (Option.some.inj hout).symm⟩
    · split at hout <;> cases hout
  · cases htake

theorem reauth_kind {flow : ReauthFlow} {entry : ConfigEntry}
    (htake : flow.take entry input = some outcome) (hout : outcome.flow = some flow') :
    ∃ next, flow' = .reauth next := by
  unfold ReauthFlow.take at htake
  split at htake
  · obtain rfl := Option.some.inj htake
    exact ⟨_, (Option.some.inj hout).symm⟩
  · obtain rfl := Option.some.inj htake
    unfold ReauthFlow.checked at hout
    split at hout
    · exact ⟨_, (Option.some.inj hout).symm⟩
    · cases hout
  · cases htake

theorem ssdp_kind {host : Option Host} {serial : Option String}
    (hout : (ssdp h host serial).flow = some flow') : ∃ next, flow' = .setup next := by
  cases host with
  | none => cases hout
  | some host =>
      unfold ssdp at hout
      dsimp only at hout
      split at hout
      · cases hout
      · split at hout
        · exact ⟨_, (Option.some.inj hout).symm⟩
        · split at hout
          · cases hout
          · exact ⟨_, (Option.some.inj hout).symm⟩

/-- Where an options flow comes from. -/
theorem reacts_options {event : FlowEvent} {next : OptionsFlow}
    (hreacts : Reacts urls h event outcome) (hout : outcome.flow = some (.options next)) :
    (∃ id entryId entry, event = .start id (.options entryId) ∧
        h.findEntry entryId = some entry ∧ next = { entryId := entry.entryId }) ∨
      ∃ id flow entry input, event = .take id input ∧ h.flows id = some (.options flow) ∧
        h.findEntry flow.entryId = some entry ∧ flow.take urls h entry input = some outcome := by
  cases hreacts with
  | started hstart =>
      rename_i id kind
      cases kind with
      | user =>
          obtain rfl := Option.some.inj hstart
          cases hout
      | ssdp host serial =>
          obtain rfl := Option.some.inj hstart
          obtain ⟨_, hkind⟩ := ssdp_kind hout
          cases hkind
      | options entryId =>
          obtain ⟨entry, hentry, rfl⟩ := Option.map_eq_some_iff.mp hstart
          obtain rfl := Flow.options.inj (Option.some.inj hout)
          exact Or.inl ⟨id, entryId, entry, rfl, hentry, rfl⟩
      | reconfigure entryId =>
          obtain ⟨entry, -, rfl⟩ := Option.map_eq_some_iff.mp hstart
          cases hout
      | reauth entryId =>
          obtain ⟨entry, -, rfl⟩ := Option.map_eq_some_iff.mp hstart
          cases hout
  | setup hflow htake =>
      obtain ⟨_, hkind⟩ := setup_kind htake hout
      cases hkind
  | options hflow hentry htake => exact Or.inr ⟨_, _, _, _, rfl, hflow, hentry, htake⟩
  | reconfigure hflow hentry htake =>
      obtain ⟨_, hkind⟩ := reconfigure_kind htake hout
      cases hkind
  | reauth hflow hentry htake =>
      obtain ⟨_, hkind⟩ := reauth_kind htake hout
      cases hkind
  | abandoned => cases hout

end

/-! ## What an event can write -/

/-- The writes there are, with what holds where each is made. -/
inductive Writes (h : Hass) : FlowEvent → Write → Prop
  | created {id : Nat} {flow : SetupFlow} {data : EntryData}
      (hflow : h.flows id = some (.setup flow)) (hstep : flow.step = .finish data) :
      Writes h (.take id .finish) (.create flow.uniqueId data)
  | rediscovered {id : Nat} {host : Host} {serial : String} {existing : ConfigEntry}
      (hserial : serial ≠ "") (hnew : h.configured ("https://" ++ host.name) = false)
      (hfind : h.findEntryBySerial serial = some existing)
      (hurl : existing.data.controllerUrl ≠ "https://" ++ host.name) :
      Writes h (.start id (.ssdp (some host) (some serial)))
        (.update existing.entryId (some { existing.data with
          controllerUrl := "https://" ++ host.name, deviceSerial := serial })
          (some ("https://" ++ host.name)) none)
  | optionsOnly {id : Nat} {flow : OptionsFlow} {entry : ConfigEntry}
      (hflow : h.flows id = some (.options flow)) (hstep : flow.step = .finish)
      (hentry : h.findEntry flow.entryId = some entry) (hpending : flow.pendingData = none) :
      Writes h (.take id .finish) (.update entry.entryId none none (some flow.pendingOptions))
  | optionsFinished {id : Nat} {flow : OptionsFlow} {entry : ConfigEntry} {pending : EntryData}
      (hflow : h.flows id = some (.options flow)) (hstep : flow.step = .finish)
      (hentry : h.findEntry flow.entryId = some entry)
      (hpending : flow.pendingData = some pending) :
      Writes h (.take id .finish) (.update entry.entryId (some pending)
        (OptionsFlow.newUniqueId entry pending) (some flow.pendingOptions))
  | sslReconfigured {id : Nat} {flow : ReconfigureFlow} {entry : ConfigEntry}
      {input : CredentialsInput} {secret : String}
      (hflow : h.flows id = some (.reconfigure flow)) (hstep : flow.step = .form)
      (hentry : h.findEntry flow.entryId = some entry)
      (hchanged : (parseCredentialsFormInput input entry.data).credentialsChanged = false) :
      Writes h (.take id (.credentials input secret)) (.update entry.entryId
        (some (buildVerifySslAndSecretOnlyPending entry.data
          (parseCredentialsFormInput input entry.data) secret)) none none)
  | reconfigured {id : Nat} {flow : ReconfigureFlow} {entry : ConfigEntry} {effectiveUrl : String}
      {parsed : CredentialsFormInput} {testData : EntryData} {net : Net} {secret suffix : String}
      (hflow : h.flows id = some (.reconfigure flow))
      (hstep : flow.step = .checking effectiveUrl parsed testData)
      (hentry : h.findEntry flow.entryId = some entry)
      (hvalid : validateCredentials net effectiveUrl testData.apiKey defaultSite = .ok ())
      (hfree : effectiveUrl ≠ entry.data.controllerUrl →
        h.findDuplicateEntry entry.entryId effectiveUrl = none) :
      Writes h (.take id (.answer net secret suffix)) (.update entry.entryId
        (some (buildCredentialsPendingData entry.data effectiveUrl parsed secret))
        (if effectiveUrl ≠ entry.data.controllerUrl then some effectiveUrl else none) none)
  | reauthenticated {id : Nat} {flow : ReauthFlow} {entry : ConfigEntry} {url apiKey : String}
      {net : Net} {secret suffix : String}
      (hflow : h.flows id = some (.reauth flow)) (hstep : flow.step = .checking url apiKey)
      (hentry : h.findEntry flow.entryId = some entry) :
      Writes h (.take id (.answer net secret suffix)) (.update entry.entryId
        (some { entry.data with apiKey }) none none)

section

variable {urls : Urls} {h : Hass} {event : FlowEvent} {outcome : Outcome} {w : Write}

theorem ssdp_write {host : Option Host} {serial : Option String} {id : Nat}
    (hw : (ssdp h host serial).write = some w) : Writes h (.start id (.ssdp host serial)) w := by
  cases host with
  | none => cases hw
  | some host =>
      unfold ssdp at hw
      dsimp only at hw
      split at hw
      · cases hw
      · rename_i hnew
        split at hw
        · cases hw
        · rename_i serial' hserial
          obtain ⟨hserial, hne⟩ := Option.filter_eq_some_iff.mp hserial
          split at hw
          · rename_i existing hexisting
            obtain ⟨hfind, hurl⟩ := Option.filter_eq_some_iff.mp hexisting
            obtain rfl := Option.some.inj hw
            subst hserial
            exact .rediscovered (by simpa using hne) (by simpa using hnew) hfind
              (by simpa using hurl)
          · cases hw

theorem setup_write {id : Nat} {flow : SetupFlow} {input : Input}
    (hflow : h.flows id = some (.setup flow)) (htake : flow.take urls h input = some outcome)
    (hw : outcome.write = some w) : Writes h (.take id input) w := by
  unfold SetupFlow.take at htake
  split at htake
  · obtain rfl := Option.some.inj htake
    unfold SetupFlow.submitUser at hw
    dsimp only at hw
    split at hw
    · cases hw
    · cases hw
    · split at hw <;> cases hw
  · obtain rfl := Option.some.inj htake
    cases hw
  · obtain rfl := Option.some.inj htake
    cases hw
  · obtain rfl := Option.some.inj htake
    cases hw
  · rename_i hstep
    obtain rfl := Option.some.inj htake
    obtain rfl := Option.some.inj hw
    exact .created hflow hstep
  · cases htake

theorem options_write {id : Nat} {flow : OptionsFlow} {entry : ConfigEntry} {input : Input}
    (hflow : h.flows id = some (.options flow)) (hentry : h.findEntry flow.entryId = some entry)
    (htake : flow.take urls h entry input = some outcome) (hw : outcome.write = some w) :
    Writes h (.take id input) w := by
  unfold OptionsFlow.take at htake
  split at htake
  · obtain rfl := Option.some.inj htake
    cases hw
  · obtain rfl := Option.some.inj htake
    cases hw
  · obtain rfl := Option.some.inj htake
    cases hw
  · obtain rfl := Option.some.inj htake
    cases hw
  · rename_i hstep
    obtain rfl := Option.some.inj htake
    unfold OptionsFlow.submitFinish at hw
    split at hw
    · rename_i hpending
      obtain rfl := Option.some.inj hw
      exact .optionsOnly hflow hstep hentry hpending
    · rename_i hpending
      obtain rfl := Option.some.inj hw
      exact .optionsFinished hflow hstep hentry hpending
  · cases htake

theorem reconfigure_write {id : Nat} {flow : ReconfigureFlow} {entry : ConfigEntry} {input : Input}
    (hflow : h.flows id = some (.reconfigure flow)) (hentry : h.findEntry flow.entryId = some entry)
    (htake : flow.take urls h entry input = some outcome) (hw : outcome.write = some w) :
    Writes h (.take id input) w := by
  unfold ReconfigureFlow.take at htake
  split at htake
  · rename_i hstep
    obtain rfl := Option.some.inj htake
    unfold ReconfigureFlow.submit at hw
    dsimp only at hw
    split at hw
    · cases hw
    · split at hw
      · rename_i hchanged
        obtain rfl := Option.some.inj hw
        exact .sslReconfigured hflow hstep hentry (by simpa using hchanged)
      · split at hw <;> cases hw
  · rename_i hstep
    obtain rfl := Option.some.inj htake
    unfold ReconfigureFlow.checked at hw
    dsimp only at hw
    split at hw
    · cases hw
    · rename_i hvalid
      split at hw
      · cases hw
      · rename_i hfree
        obtain rfl := Option.some.inj hw
        refine .reconfigured hflow hstep hentry hvalid fun hurl => ?_
        by_contra hsome
        exact hfree ⟨hurl, Option.isSome_iff_ne_none.mpr hsome⟩
  · cases htake

theorem reauth_write {id : Nat} {flow : ReauthFlow} {entry : ConfigEntry} {input : Input}
    (hflow : h.flows id = some (.reauth flow)) (hentry : h.findEntry flow.entryId = some entry)
    (htake : flow.take entry input = some outcome) (hw : outcome.write = some w) :
    Writes h (.take id input) w := by
  unfold ReauthFlow.take at htake
  split at htake
  · obtain rfl := Option.some.inj htake
    cases hw
  · rename_i hstep
    obtain rfl := Option.some.inj htake
    unfold ReauthFlow.checked at hw
    split at hw
    · cases hw
    · obtain rfl := Option.some.inj hw
      exact .reauthenticated hflow hstep hentry
  · cases htake

theorem start_write {id : Nat} {kind : Start} (hstart : h.start kind = some outcome)
    (hw : outcome.write = some w) : Writes h (.start id kind) w := by
  cases kind with
  | user =>
      obtain rfl := Option.some.inj hstart
      cases hw
  | ssdp host serial =>
      obtain rfl := Option.some.inj hstart
      exact ssdp_write hw
  | options entryId =>
      obtain ⟨entry, -, rfl⟩ := Option.map_eq_some_iff.mp hstart
      cases hw
  | reconfigure entryId =>
      obtain ⟨entry, -, rfl⟩ := Option.map_eq_some_iff.mp hstart
      cases hw
  | reauth entryId =>
      obtain ⟨entry, -, rfl⟩ := Option.map_eq_some_iff.mp hstart
      cases hw

/-- Every write of an event is one of those. -/
theorem react_write (hreact : h.react urls event = some outcome) (hw : outcome.write = some w) :
    Writes h event w := by
  cases reacts_of_react hreact with
  | started hstart => exact start_write hstart hw
  | setup hflow htake => exact setup_write hflow htake hw
  | options hflow hentry htake => exact options_write hflow hentry htake hw
  | reconfigure hflow hentry htake => exact reconfigure_write hflow hentry htake hw
  | reauth hflow hentry htake => exact reauth_write hflow hentry htake hw
  | abandoned => cases hw

/-- The entries change by a write or not at all. -/
theorem step_entries (urls : Urls) (h : Hass) (event : FlowEvent) :
    ((h.step urls event).entries = h.entries ∧ (h.step urls event).nextEntry = h.nextEntry) ∨
      ∃ w, Writes h event w ∧ (h.step urls event).entries = (h.write w).entries ∧
        (h.step urls event).nextEntry = (h.write w).nextEntry := by
  unfold Hass.step
  cases hreact : h.react urls event with
  | none => exact Or.inl ⟨rfl, rfl⟩
  | some outcome =>
      cases hw : outcome.write with
      | none =>
          refine Or.inl ?_
          unfold Hass.finish
          dsimp only
          rw [hw]
          exact ⟨rfl, rfl⟩
      | some w =>
          refine Or.inr ⟨w, react_write hreact hw, ?_⟩
          unfold Hass.finish
          dsimp only
          rw [hw]
          exact ⟨rfl, rfl⟩

/-- An event is about one flow. -/
theorem step_flows (urls : Urls) (h : Hass) (event : FlowEvent) (i : Nat) :
    (h.step urls event).flows i = h.flows i ∨ i = event.id ∧
      ∃ outcome, h.react urls event = some outcome ∧
        (h.step urls event).flows i = outcome.flow := by
  unfold Hass.step
  cases hreact : h.react urls event with
  | none => exact Or.inl rfl
  | some outcome =>
      by_cases hi : i = event.id
      · exact Or.inr ⟨hi, outcome, rfl, by rw [hi]; exact Function.update_self ..⟩
      · exact Or.inl (Function.update_of_ne hi ..)

end

/-! ## Looking entries up -/

theorem mem_of_findEntry {h : Hass} {entryId : Nat} {entry : ConfigEntry}
    (hentry : h.findEntry entryId = some entry) : entry ∈ h.entries ∧ entry.entryId = entryId :=
  ⟨List.mem_of_find?_eq_some hentry, by simpa using List.find?_some hentry⟩

/-- Looking an entry up after an update. -/
theorem findEntry_update {h : Hass} {i j : Nat} {data : Option EntryData} {uniqueId : Option String}
    {options : Option Settings} :
    (h.write (.update j data uniqueId options)).findEntry i =
      (h.findEntry i).map fun entry =>
        if entry.entryId = j then entry.update data uniqueId options else entry := by
  unfold Hass.findEntry Hass.write
  rw [List.find?_map]
  congr 2
  funext entry
  dsimp only [Function.comp]
  split <;> rfl

/-- Looking an entry up after one was created: new ids are not in use. -/
theorem findEntry_create {h : Hass} {i : Nat} {uniqueId : String} {data : EntryData} :
    (h.write (.create uniqueId data)).findEntry i = (h.findEntry i).or
      (if h.nextEntry = i then some { entryId := h.nextEntry, uniqueId, data } else none) := by
  unfold Hass.findEntry Hass.write
  rw [List.find?_append, List.find?_singleton]
  congr 1
  by_cases hi : h.nextEntry = i
  · rw [if_pos (by simpa using hi), if_pos hi]
  · rw [if_neg (by simpa using hi), if_neg hi]

/-- What an event does to the entries, looked up one by one. -/
theorem step_findEntry (urls : Urls) (h : Hass) (event : FlowEvent) :
    (∀ i, (h.step urls event).findEntry i = h.findEntry i) ∨
      ∃ w, Writes h event w ∧ ∀ i, (h.step urls event).findEntry i = (h.write w).findEntry i := by
  rcases step_entries urls h event with ⟨hsame, -⟩ | ⟨w, hw, hwritten, -⟩
  · exact Or.inl fun i => congrArg (List.find? fun e : ConfigEntry => e.entryId == i) hsame
  · exact Or.inr ⟨w, hw, fun i =>
      congrArg (List.find? fun e : ConfigEntry => e.entryId == i) hwritten⟩

theorem findEntry_of_react {urls : Urls} {h : Hass} {event : FlowEvent} {outcome : Outcome}
    {w : Write} (hreact : h.react urls event = some outcome) (hw : outcome.write = some w)
    (i : Nat) : (h.step urls event).findEntry i = (h.write w).findEntry i := by
  have hentries : (h.step urls event).entries = (h.write w).entries := by
    unfold Hass.step Hass.finish
    rw [hreact]
    dsimp only
    rw [hw]
  exact congrArg (List.find? fun e : ConfigEntry => e.entryId == i) hentries

/-! ## The two final submissions -/

section

variable {urls : Urls} {h : Hass} {id : Nat}

theorem step_setupFinish {flow : SetupFlow} {data : EntryData}
    (hflow : h.flows id = some (.setup flow)) (hstep : flow.step = .finish data) :
    h.step urls (.take id .finish) = h.finish id
      { flow := none, write := some (.create flow.uniqueId data) } := by
  have hreact : h.react urls (.take id .finish) =
      some { flow := none, write := some (.create flow.uniqueId data) } := by
    unfold Hass.react
    dsimp only
    rw [hflow, Option.bind_some]
    unfold Hass.take SetupFlow.take
    dsimp only
    rw [hstep]
  unfold Hass.step
  rw [hreact]
  rfl

theorem options_finish_react {flow : OptionsFlow} {entry : ConfigEntry}
    (hflow : h.flows id = some (.options flow)) (hstep : flow.step = .finish)
    (hentry : h.findEntry flow.entryId = some entry) :
    h.react urls (.take id .finish) = some (flow.submitFinish entry) := by
  unfold Hass.react
  dsimp only
  rw [hflow, Option.bind_some]
  unfold Hass.take
  dsimp only
  rw [hentry, Option.bind_some]
  unfold OptionsFlow.take
  rw [hstep]

theorem step_optionsFinish {flow : OptionsFlow} {entry : ConfigEntry}
    (hflow : h.flows id = some (.options flow)) (hstep : flow.step = .finish)
    (hentry : h.findEntry flow.entryId = some entry) :
    h.step urls (.take id .finish) = h.finish id (flow.submitFinish entry) := by
  unfold Hass.step
  rw [options_finish_react hflow hstep hentry]
  rfl

/-- The entry that a submitted finish leaves. -/
theorem finish_findEntry {flow : OptionsFlow} {entry : ConfigEntry}
    (hflow : h.flows id = some (.options flow)) (hstep : flow.step = .finish)
    (hentry : h.findEntry flow.entryId = some entry) :
    (h.step urls (.take id .finish)).findEntry flow.entryId = some (entry.update flow.pendingData
      (flow.pendingData.bind (OptionsFlow.newUniqueId entry)) (some flow.pendingOptions)) := by
  have hwrite : (flow.submitFinish entry).write = some (.update entry.entryId flow.pendingData
      (flow.pendingData.bind (OptionsFlow.newUniqueId entry)) (some flow.pendingOptions)) := by
    unfold OptionsFlow.submitFinish
    cases flow.pendingData <;> rfl
  rw [findEntry_of_react (options_finish_react hflow hstep hentry) hwrite]
  rw [findEntry_update, hentry, Option.map_some, if_pos rfl]

end

/-! ## Entry ids -/

/-- A list with pairwise different keys has one element to a key. -/
theorem ne_of_pairwise {α β : Type} {f : α → β} {l : List α}
    (h : l.Pairwise fun a b => f a ≠ f b) {a b : α} (ha : a ∈ l) (hb : b ∈ l) (hne : a ≠ b) :
    f a ≠ f b := by
  have : Std.Symm fun a b : α => f a ≠ f b := ⟨fun _ _ => Ne.symm⟩
  exact h.forall ha hb hne

/-- Entries have ids of their own, all of them given out. -/
structure Hass.Ids (h : Hass) : Prop where
  distinct : h.entries.Pairwise fun a b => a.entryId ≠ b.entryId
  given : ∀ e ∈ h.entries, e.entryId < h.nextEntry

section

variable {h : Hass} {entry : ConfigEntry}

namespace Hass.Ids

theorem eq_of_id (hids : h.Ids) {a b : ConfigEntry} (ha : a ∈ h.entries) (hb : b ∈ h.entries)
    (hid : a.entryId = b.entryId) : a = b := by
  by_contra hne
  exact ne_of_pairwise hids.distinct ha hb hne hid

theorem findEntry (hids : h.Ids) (hmem : entry ∈ h.entries) :
    h.findEntry entry.entryId = some entry := by
  cases hfind : h.findEntry entry.entryId with
  | none =>
      have := List.find?_eq_none.mp hfind entry hmem
      simp at this
  | some found =>
      obtain ⟨hfound, hid⟩ := mem_of_findEntry hfind
      rw [hids.eq_of_id hfound hmem hid]

theorem write (hids : h.Ids) (w : Write) : (h.write w).Ids := by
  cases w with
  | create uniqueId data =>
      constructor
      · refine List.pairwise_append.mpr ⟨hids.distinct, List.pairwise_singleton .., ?_⟩
        intro a ha b hb
        obtain rfl := List.mem_singleton.mp hb
        have := hids.given a ha
        exact Nat.ne_of_lt this
      · intro e he
        show e.entryId < h.nextEntry + 1
        rcases List.mem_append.mp he with he | he
        · have := hids.given e he
          omega
        · obtain rfl := List.mem_singleton.mp he
          exact Nat.lt_succ_self h.nextEntry
  | update id data uniqueId options =>
      have hkeep : ∀ e : ConfigEntry, (if e.entryId = id then e.update data uniqueId options
          else e).entryId = e.entryId := by
        intro e
        split <;> rfl
      constructor
      · refine List.pairwise_map.mpr (hids.distinct.imp fun {a b} hab => ?_)
        rw [hkeep, hkeep]
        exact hab
      · intro e he
        obtain ⟨e', he', rfl⟩ := List.mem_map.mp he
        rw [hkeep]
        exact hids.given e' he'

theorem step (hids : h.Ids) (urls : Urls) (event : FlowEvent) : (h.step urls event).Ids := by
  rcases step_entries urls h event with ⟨hentries, hnext⟩ | ⟨w, -, hentries, hnext⟩
  · exact ⟨by rw [hentries]; exact hids.distinct, by rw [hentries, hnext]; exact hids.given⟩
  · have hw := hids.write w
    exact ⟨by rw [hentries]; exact hw.distinct, by rw [hentries, hnext]; exact hw.given⟩

end Hass.Ids

theorem ids_empty : ({} : Hass).Ids := ⟨.nil, fun _ he => nomatch he⟩

end

end UnifiAlerts.ConfigFlow
