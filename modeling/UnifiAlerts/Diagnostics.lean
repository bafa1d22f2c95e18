import UnifiAlerts.AlarmUrlCache
import UnifiAlerts.ConfigFlow
import UnifiAlerts.Listeners

/-!
# Diagnostics and the polled site

A loaded entry polls the site of its data merged with its options, and
a poll writes the alarm-URL cache at that site only
(`polled_site_only`). The diagnostics look the cached URL up at the site
of the entry's data. Options are what the options flow writes, so the two
are one site exactly as long as the options hold none, or that of the data
(`SameSite`).

The report is `async_get_config_entry_diagnostics` with the unrecognised
keys as they are counted, not in the order in which it lists them. What
Home Assistant's `async_redact_data` puts in the place of a text under
one of the two keys is a parameter (`redact`).
-/

namespace UnifiAlerts

open Py Lib ConfigFlow

/-! ## The report -/

/-- `dict(entry.data) | dict(entry.options)`, as far as the coordinator reads it. -/
def ConfigFlow.ConfigEntry.config (entry : ConfigEntry) : UniFiClientConfig where
  enabledCategories := entry.options.enabledCategories.or entry.data.enabledCategories
  pollInterval := entry.options.pollInterval.or entry.data.pollInterval
  clearTimeout := entry.options.clearTimeout.or entry.data.clearTimeout
  site := entry.options.site.or entry.data.site
  minSeverity := entry.options.minSeverity.or entry.data.minSeverity

inductive ResolvedTransport
  | v2
  | legacy
  | unknown
deriving Repr, DecidableEq

def ClientState.discoveredAlarmUrl (client : ClientState) (site : String) : Option String :=
  client.alarmUrlCache site

namespace Coordinator

/-- `site` is the coordinator's `_site`. -/
def resolvedTransport (coord : Coordinator) (site : String) : ResolvedTransport :=
  if coord.hasSystemLog = some true then .v2
  else if (coord.client.discoveredAlarmUrl site).isSome then .legacy
  else .unknown

end Coordinator

/-- `entry.runtime_data`, with what the coordinator was made from. -/
structure RuntimeData where
  coordinator : Coordinator
  config : UniFiClientConfig
  webhookUrls : List (Category × String) := []
  controllerVersion : Option String := none

structure CategoryInfo where
  enabled : Bool
  isAlerting : Bool
  openCount : Nat
  alertCount : Int
  filteredCount : Nat
  lastClearedAt : Option String
  lastWebhookAt : Option String
  lastFilteredAt : Option String
  webhookHealth : WebhookHealth

structure CoordinatorInfo where
  anyAlerting : Bool
  rollupAlertCount : Int
  rollupOpenCount : Nat
  categories : List (Category × CategoryInfo)
  unrecognisedKeys : String → Nat
  resolvedTransport : ResolvedTransport

structure ControllerInfo where
  discoveredAlarmUrl : Option String := none
  controllerVersion : Option String := none

structure Diagnostics where
  configEntry : EntryData
  options : Settings
  webhookUrls : List (Category × String) := []
  coordinator : Option CoordinatorInfo := none
  controller : ControllerInfo := {}

/-- `async_redact_data` with the two keys; the options have neither. -/
def redactEntry (redact : String → String) (data : EntryData) : EntryData :=
  { data with apiKey := redact data.apiKey, webhookSecret := redact data.webhookSecret }

def categoryInfo (text : Text) (now : Instant) (state : CategoryState) :
    Except Exc CategoryInfo := do
  let webhookHealth ← state.webhookHealth now
  return {
    enabled := state.enabled
    isAlerting := state.isAlerting
    openCount := state.openCount
    alertCount := state.alertCount
    filteredCount := state.filteredCount
    lastClearedAt := state.lastClearedAt.map text.isoformat
    lastWebhookAt := state.lastWebhookAt.map text.isoformat
    lastFilteredAt := state.lastFilteredAt.map fun t => text.isoformat (.aware t)
    webhookHealth }

def coordinatorInfo (text : Text) (now : Instant) (runtime : RuntimeData) :
    Except Exc CoordinatorInfo := do
  let coord := runtime.coordinator
  let categories ← allCategories.mapM fun c => do
    let info ← categoryInfo text now (coord.states c)
    return (c, info)
  return {
    anyAlerting := coord.anyAlerting
    rollupAlertCount := coord.rollupAlertCount
    rollupOpenCount := coord.rollupOpenCount
    categories
    unrecognisedKeys := coord.unrecognisedKeys
    resolvedTransport := coord.resolvedTransport runtime.config.effectiveSite }

/-- `runtime` is missing while the entry is not loaded. -/
def getConfigEntryDiagnostics (redact : String → String) (text : Text) (now : Instant)
    (entry : ConfigEntry) (runtime : Option RuntimeData) : Except Exc Diagnostics := do
  let site := entry.data.site.getD defaultSite
  let report : Diagnostics :=
    { configEntry := redactEntry redact entry.data, options := entry.options }
  match runtime with
  | none => return report
  | some runtime => do
    let coordinator ← coordinatorInfo text now runtime
    return { report with
      webhookUrls := runtime.webhookUrls
      coordinator := some coordinator
      controller := {
        discoveredAlarmUrl := runtime.coordinator.client.discoveredAlarmUrl site
        controllerVersion := runtime.controllerVersion } }

/-! ## What a poll caches -/

theorem fetchAlarms_keeps (net : Net) {site other : String} (hne : other ≠ site) :
    Comp.Keeps (fun s : ClientState => s.alarmUrlCache other) (fetchAlarms net site) := fun s =>
  (AlarmFetch.others net.base ⟨s, []⟩ ⟨net, site⟩ hne).1

theorem categoriseAlarms_keeps (net : Net) {site other : String} (hne : other ≠ site) :
    Comp.Keeps (fun s : ClientState => s.alarmUrlCache other) (categoriseAlarms net site) :=
  .bind (fetchAlarms_keeps net hne) fun raw => .bind (.update fun _ => rfl) fun _ =>
    categoriseLoop_keeps (fun _ _ => rfl) net raw []

namespace Coordinator

section

variable {site other : String}

/-- The two coordinators have one cached path for the site `other`. -/
def SameCached (other : String) : Coordinator → Coordinator → Prop :=
  OfClient fun s s' => s'.alarmUrlCache other = s.alarmUrlCache other

theorem SameCached.refl (s : Coordinator) : SameCached other s s := rfl

theorem SameCached.trans (s s' s'' : Coordinator) (h : SameCached other s s')
    (h' : SameCached other s' s'') : SameCached other s s'' := Eq.trans h' h

theorem onClient_sameCached {α : Type} {x : ClientM α}
    (hx : Comp.Keeps (fun s : ClientState => s.alarmUrlCache other) x) :
    Comp.Within (SameCached other) (onClient x) := .zoom hx fun _ _ h => h

theorem probeHasSystemLog_sameCached (net : Net) :
    Comp.Within (SameCached other) (probeHasSystemLog net site) := by
  have hprobe : Comp.Keeps (fun s : ClientState => s.alarmUrlCache other)
      (probeSystemLogEndpoint net site) := .bind (fun _ => rfl) fun _ => .lift _
  exact probeHasSystemLog_within
    (R := fun s s' : ClientState => s'.alarmUrlCache other = s.alarmUrlCache other)
    (fun _ => rfl) (fun _ _ _ h h' => h'.trans h) hprobe

theorem fetchV2_sameCached (net : Net) : Comp.Within (SameCached other) (fetchV2 net site) := by
  have hpages : ∀ since, Comp.Keeps (fun s : ClientState => s.alarmUrlCache other)
      (fetchSystemLogAlarms net site since) := fun _ =>
    fetchPages_within (R := fun s s' => s'.alarmUrlCache other = s.alarmUrlCache other)
      (fun _ => rfl) (fun _ _ _ h h' => h'.trans h) (fun _ _ => rfl) (fun _ => rfl) _ _ _
  exact fetchV2_within .refl .trans (fun since => onClient_sameCached (hpages since))
    (fun _ _ => rfl) fun _ _ => rfl

/-- A fetch for one site leaves the cached paths of the others. -/
theorem fetchCategorised_sameCached (net : Net) (hne : other ≠ site) :
    Comp.Within (SameCached other) (fetchCategorised net site) :=
  fetchCategorised_within .refl .trans (probeHasSystemLog_sameCached net)
    (onClient_sameCached (categoriseAlarms_keeps net hne)) (fetchV2_sameCached net) fun _ _ => rfl

end

theorem step_sameCached {config : UniFiClientConfig} {other : String}
    (hne : other ≠ config.effectiveSite) (coord : Coordinator) (t : TimedOp) :
    SameCached other coord (step config coord t) := by
  by_cases hfetch : ∃ net, t.op = .fetch net
  · obtain ⟨net, hop⟩ := hfetch
    obtain ⟨now, op⟩ := t
    subst hop
    exact fetchCategorised_sameCached net hne coord
  · have hclient := (@step_client config coord t fun net hop => hfetch ⟨net, hop⟩).1
    unfold SameCached OfClient
    rw [hclient]

end Coordinator

/-! ## A loaded entry -/

/-- The entry after the operations `ops`, from the category states that were restored. -/
def ConfigFlow.ConfigEntry.loaded (entry : ConfigEntry) (states : Category → CategoryState)
    (ops : List TimedOp) : RuntimeData where
  coordinator := run (Coordinator.step entry.config)
    { Coordinator.fresh entry.config with states } ops
  config := entry.config

/-- Only the site of the merged data is ever cached. -/
theorem polled_site_only (entry : ConfigEntry) (states : Category → CategoryState)
    (ops : List TimedOp) {other : String} (hne : other ≠ entry.config.effectiveSite) :
    (entry.loaded states ops).coordinator.client.alarmUrlCache other = none := by
  refine run_preserves (I := fun coord : Coordinator => coord.client.alarmUrlCache other = none) ?_
    rfl ops
  intro coord t h
  have hsame : (Coordinator.step entry.config coord t).client.alarmUrlCache other =
      coord.client.alarmUrlCache other := Coordinator.step_sameCached hne coord t
  rw [hsame, h]

/-! ## Agreement -/

/-- The options hold no site, or that of the data: the site that is polled is the one that
the diagnostics look up. -/
def SameSite (entry : ConfigEntry) : Prop :=
  ∀ site, entry.options.site = some site → site = entry.data.site.getD defaultSite

theorem sameSite_iff {entry : ConfigEntry} :
    SameSite entry ↔ entry.config.effectiveSite = entry.data.site.getD defaultSite := by
  unfold SameSite UniFiClientConfig.effectiveSite ConfigFlow.ConfigEntry.config
  cases entry.options.site with
  | none => simp
  | some site => simp

/-- A report of the legacy transport has the cached path of the polled site. -/
def Agrees (redact : String → String) (entry : ConfigEntry) (runtime : RuntimeData) : Prop :=
  ∀ text now report info,
    getConfigEntryDiagnostics redact text now entry (some runtime) = .ok report →
    report.coordinator = some info → info.resolvedTransport = .legacy →
    ∃ url, report.controller.discoveredAlarmUrl = some url ∧
      runtime.coordinator.client.alarmUrlCache runtime.config.effectiveSite = some url

theorem resolvedTransport_legacy_iff {coord : Coordinator} {site : String} :
    coord.resolvedTransport site = .legacy ↔
      coord.hasSystemLog ≠ some true ∧ ∃ url, coord.client.alarmUrlCache site = some url := by
  unfold Coordinator.resolvedTransport ClientState.discoveredAlarmUrl
  rw [← Option.isSome_iff_exists]
  split
  · rename_i hv2
    simp [hv2]
  · rename_i hv2
    split
    · rename_i hurl
      simp [hv2, hurl]
    · rename_i hurl
      simp [hv2, hurl]

/-- What a report of a loaded entry says about the transport. -/
theorem diagnostics_transport {redact : String → String} {text : Text} {now : Instant}
    {entry : ConfigEntry} {runtime : RuntimeData} {report : Diagnostics}
    (h : getConfigEntryDiagnostics redact text now entry (some runtime) = .ok report) :
    (∃ info, report.coordinator = some info ∧ info.resolvedTransport =
      runtime.coordinator.resolvedTransport runtime.config.effectiveSite) ∧
    report.controller.discoveredAlarmUrl =
      runtime.coordinator.client.alarmUrlCache (entry.data.site.getD defaultSite) := by
  obtain ⟨info, hinfo, hreport⟩ := bind_eq_ok.mp h
  obtain ⟨categories, -, hinfo⟩ := bind_eq_ok.mp hinfo
  obtain rfl := Except.ok.inj hinfo
  obtain rfl := Except.ok.inj hreport
  exact ⟨⟨_, rfl, rfl⟩, rfl⟩

/-- Without a naive webhook time there is a report. -/
theorem diagnostics_ok {text : Text} {now : Instant} {runtime : RuntimeData}
    (haware : ∀ c t, (runtime.coordinator.states c).lastWebhookAt ≠ some (.naive t))
    (redact : String → String) (entry : ConfigEntry) :
    ∃ report, getConfigEntryDiagnostics redact text now entry (some runtime) = .ok report := by
  have hinfo : ∀ c, ∃ info, categoryInfo text now (runtime.coordinator.states c) = .ok info := by
    intro c
    unfold categoryInfo CategoryState.webhookHealth
    cases hat : (runtime.coordinator.states c).lastWebhookAt with
    | none => exact ⟨_, rfl⟩
    | some t =>
        cases t with
        | naive wall => exact absurd hat (haware c wall)
        | aware t => exact ⟨_, rfl⟩
  have hcategories : ∃ categories, (allCategories.mapM fun c => do
      let info ← categoryInfo text now (runtime.coordinator.states c)
      return (c, info)) = Except.ok categories := by
    refine exists_mapM_ok.mpr fun c _ => ?_
    obtain ⟨info, hinfo⟩ := hinfo c
    exact ⟨(c, info), by rw [hinfo]; rfl⟩
  obtain ⟨categories, hcategories⟩ := hcategories
  unfold getConfigEntryDiagnostics coordinatorInfo
  dsimp only
  rw [hcategories]
  exact ⟨_, rfl⟩

theorem agrees_of_sameSite (redact : String → String) {entry : ConfigEntry}
    (hsame : SameSite entry) (runtime : RuntimeData) (hconfig : runtime.config = entry.config) :
    Agrees redact entry runtime := by
  intro text now report info hreport hinfo hlegacy
  obtain ⟨⟨info', hinfo', htransport⟩, hurl⟩ := diagnostics_transport hreport
  obtain rfl := Option.some.inj (hinfo.symm.trans hinfo')
  rw [htransport, resolvedTransport_legacy_iff] at hlegacy
  obtain ⟨-, url, hcached⟩ := hlegacy
  refine ⟨url, ?_, hcached⟩
  rw [hurl, ← sameSite_iff.mp hsame, ← hconfig]
  exact hcached

/-- A controller with the first legacy path only. -/
def legacyNet : Net where
  text := .counting fun _ => none
  base := "https://192.168.1.1"
  now := 0
  respond _ request := match request with
    | .get _ => .response { status := 200, content := .value (.obj [("meta",
        .obj [("rc", .str "ok")])]) }
    | _ => .response { status := 404, content := .empty }

def legacyPoll : List TimedOp := [⟨⟨0, 0⟩, .fetch legacyNet⟩]

/-- One poll of that controller resolves to the legacy transport. -/
theorem legacyPoll_resolves (entry : ConfigEntry) (states : Category → CategoryState) :
    let coord := (entry.loaded states legacyPoll).coordinator
    coord.resolvedTransport entry.config.effectiveSite = .legacy ∧ coord.states = states := by
  intro coord
  have hprobed : coord.hasSystemLog = some false := rfl
  have hcache : coord.client.alarmUrlCache = Function.update (fun _ => none)
      entry.config.effectiveSite (some ("https://192.168.1.1" ++ unifiOsNetworkPrefix ++
        "/api/s/" ++ entry.config.effectiveSite ++ "/list/alarm")) := rfl
  have hcached : ∃ url, coord.client.alarmUrlCache entry.config.effectiveSite = some url :=
    ⟨_, by rw [hcache, Function.update_self]⟩
  exact ⟨resolvedTransport_legacy_iff.mpr ⟨by simp [hprobed], hcached⟩,
    Coordinator.fetch_states ..⟩

/-- With another site in the options, the report after that poll has no path. -/
theorem legacyPoll_disagrees (redact : String → String) {entry : ConfigEntry}
    (hother : ¬SameSite entry) :
    ¬Agrees redact entry (entry.loaded (Coordinator.fresh entry.config).states legacyPoll) := by
  intro hagrees
  obtain ⟨hlegacy, hstates⟩ :=
    legacyPoll_resolves entry (Coordinator.fresh entry.config).states
  obtain ⟨report, hreport⟩ := @diagnostics_ok legacyNet.text 0
    (entry.loaded (Coordinator.fresh entry.config).states legacyPoll)
    (fun c t => by rw [hstates]; exact fun h => nomatch h) redact entry
  obtain ⟨⟨info, hinfo, htransport⟩, hurl⟩ := diagnostics_transport hreport
  obtain ⟨url, hdiscovered, -⟩ :=
    hagrees _ _ report info hreport hinfo (htransport.trans hlegacy)
  have hne : entry.data.site.getD defaultSite ≠ entry.config.effectiveSite := fun heq =>
    hother (sameSite_iff.mpr heq.symm)
  rw [hurl, polled_site_only entry _ _ hne] at hdiscovered
  cases hdiscovered

/-- For every data and options, the report agrees with the coordinator about the polled
site after every sequence of operations exactly when the options hold no other site
than the data. -/
theorem diagnostics_agrees_iff (redact : String → String) (entry : ConfigEntry) :
    (∀ states ops, Agrees redact entry (entry.loaded states ops)) ↔ SameSite entry := by
  constructor
  · intro hagrees
    by_contra hother
    exact legacyPoll_disagrees redact hother (hagrees _ _)
  · intro hsame states ops
    exact agrees_of_sameSite redact hsame _ rfl

/-- What Home Assistant puts in place of a secret, which leaves an empty text as it is. -/
def redactedText (s : String) : String := if s = "" then s else "**REDACTED**"

/-- A setup for the default site, then an options flow that chooses another one. -/
def branchFlows : List FlowEvent :=
  [.start 0 .user,
   .take 0 (.user { controllerUrl := "https://192.168.1.1", apiKey := "key" }),
   .take 0 (.answer legacyNet "secret" "0a1b2c3d"),
   .take 0 (.categories everyCategory),
   .take 0 .finish,
   .start 1 (.options 0),
   .take 1 (.credentials {} "generated"),
   .take 1 (.categories { everyCategory with site := some "branch" }),
   .take 1 (.answer legacyNet "" ""),
   .take 1 .finish]

/-- The flows store the site in the options, where the diagnostics do not look. -/
theorem diagnostics_miss_options_site :
    ∃ entry ∈ (run (Hass.step webUrls) {} branchFlows).entries,
      entry.data.site = some "default" ∧ entry.options.site = some "branch" ∧
      ¬Agrees redactedText entry
        (entry.loaded (Coordinator.fresh entry.config).states legacyPoll) := by
  have hsites : ((run (Hass.step webUrls) {} branchFlows).entries.map fun entry =>
      (entry.data.site, entry.options.site)) = [(some "default", some "branch")] := by
    decide +kernel
  obtain ⟨entry, hentry, hpair⟩ := List.mem_map.mp
    (show (some "default", some "branch") ∈
        (run (Hass.step webUrls) {} branchFlows).entries.map _ by
      rw [hsites]; exact List.mem_singleton_self _)
  obtain ⟨hdata, hoptions⟩ := Prod.mk.inj hpair
  refine ⟨entry, hentry, hdata, hoptions, legacyPoll_disagrees redactedText fun hsame => ?_⟩
  have heq := hsame "branch" hoptions
  rw [hdata] at heq
  exact absurd heq (by decide)

end UnifiAlerts
