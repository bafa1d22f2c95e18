import UnifiAlerts.Lib.Run
import UnifiAlerts.FlowWrites

/-!
# The identity of an entry

An entry is identified by its controller URL: `unique_id` is that URL,
and no two entries share one, trailing slashes aside. Four flows write
URLs. Setup stores the URL as it was typed under the stripped one, and
looks for duplicates two forms before it writes; the options flow looks
for them one form before. Reconfigure and SSDP look and write at once.

The invariant that carries the runs is stronger (`Sound`): the stored
URLs are stripped, and so is every URL a flow holds on to. Then the
three comparisons of the source (with the stored URL, with `unique_id`,
and after stripping) are one.

A flow may finish long after it looked for duplicates, and what happened
in between decides. The condition is therefore about the moment of the
write: no other entry has the URL by then, trailing slashes aside, and
what setup stores was typed without one (`StoresFresh`). With the
stronger invariant at hand, a write that meets it keeps the identity,
and one that does not breaks it, so that the equivalence holds step by
step and then along the run.
-/

namespace UnifiAlerts.ConfigFlow

open Py Lib

/-! ## Stripped URLs -/

theorem rstripSlash_host (host : Host) :
    rstripSlash ("https://" ++ host.name) = "https://" ++ host.name := by
  have hne : host.name.toList ≠ [] := fun h =>
    host.nonempty (by rw [← String.ofList_toList (s := host.name), h])
  have hself : ("https://" ++ host.name).toList.rdropWhile (· == '/') =
      ("https://" ++ host.name).toList := by
    refine List.rdropWhile_eq_self_iff.mpr fun hl => ?_
    simp only [String.toList_append]
    rw [List.getLast_append_of_ne_nil _ hne]
    have hlast := List.getLast_mem hne
    intro hslash
    rw [beq_iff_eq.mp hslash] at hlast
    exact host.noSlash hlast
  unfold rstripSlash
  rw [hself, String.ofList_toList]

/-- A URL as the flows normalise it. -/
def Stripped (url : String) : Prop := rstripSlash url = url ∧ url ≠ ""

/-- What passes the scheme check is not empty. -/
theorem ne_empty_of_scheme {urls : Urls} {url : String}
    (h : isValidUrlScheme urls url = .ok true) : url ≠ "" := by
  rintro rfl
  unfold isValidUrlScheme at h
  rw [urls.scheme_empty] at h
  exact absurd h (by decide)

theorem stripped_rstripSlash {urls : Urls} {url : String}
    (h : isValidUrlScheme urls (rstripSlash url) = .ok true) : Stripped (rstripSlash url) :=
  ⟨rstripSlash_idem url, ne_empty_of_scheme h⟩

theorem stripped_host (host : Host) : Stripped ("https://" ++ host.name) := by
  refine ⟨rstripSlash_host host, fun h => ?_⟩
  have hlen := congrArg String.length h
  simp at hlen

theorem stripped_effectiveUrl {urls : Urls} {parsed : CredentialsFormInput} {current : EntryData}
    (hcurrent : Stripped current.controllerUrl)
    (h : isValidUrlScheme urls (parsed.effectiveUrl current) = .ok true) :
    Stripped (parsed.effectiveUrl current) := by
  unfold CredentialsFormInput.effectiveUrl at h ⊢
  split
  · rename_i htyped
    rw [if_pos htyped] at h
    exact stripped_rstripSlash h
  · exact hcurrent

/-! ## The contract -/

/-- Every entry is under its own URL, and no two entries have one URL, with or without
slashes at the end. -/
structure Identity (h : Hass) : Prop where
  uniqueId : ∀ entry ∈ h.entries, entry.uniqueId = entry.data.controllerUrl
  distinct : h.entries.Pairwise fun a b => a.uniqueId ≠ b.uniqueId ∧
    rstripSlash a.data.controllerUrl ≠ rstripSlash b.data.controllerUrl

/-- No entry but `entryId` is at the URL, trailing slashes aside; `none` leaves no entry
out. -/
def Hass.Free (h : Hass) (entryId : Option Nat) (url : String) : Prop :=
  ∀ entry ∈ h.entries, some entry.entryId ≠ entryId →
    rstripSlash entry.data.controllerUrl ≠ rstripSlash url

/-- Where a flow stores a URL that it checked earlier, the URL is still free; and a
typed one has no trailing slash. -/
def Hass.StoresFresh (h : Hass) : FlowEvent → Prop
  | .take id .finish => match h.flows id with
    | some (.setup flow) => ∀ data, flow.step = .finish data →
        rstripSlash data.controllerUrl = data.controllerUrl ∧ h.Free none data.controllerUrl
    | some (.options flow) => flow.step = .finish →
        ∀ pending, flow.pendingData = some pending →
        ∀ entry, h.findEntry flow.entryId = some entry →
          pending.controllerUrl ≠ entry.data.controllerUrl →
          h.Free (some entry.entryId) pending.controllerUrl
    | _ => True
  | _ => True

/-! ## The invariant -/

/-- The URLs that a flow carries towards a write are stripped. -/
def Flow.Sound : Flow → Prop
  | .setup flow => match flow.step with
    | .user => True
    | .checkingUser input =>
      flow.uniqueId = rstripSlash input.controllerUrl ∧ Stripped flow.uniqueId
    | .categories data =>
      flow.uniqueId = rstripSlash data.controllerUrl ∧ Stripped flow.uniqueId
    | .checkingSite data _ =>
      flow.uniqueId = rstripSlash data.controllerUrl ∧ Stripped flow.uniqueId
    | .finish data => flow.uniqueId = rstripSlash data.controllerUrl ∧ Stripped flow.uniqueId
  | .options flow => (∀ pending, flow.pendingData = some pending → Stripped pending.controllerUrl) ∧
      ∀ effectiveUrl parsed testData,
        flow.step = .checkingCredentials effectiveUrl parsed testData → Stripped effectiveUrl
  | .reconfigure flow => ∀ effectiveUrl parsed testData,
      flow.step = .checking effectiveUrl parsed testData → Stripped effectiveUrl
  | .reauth _ => True

/-- The invariant of the runs: beside the identity, every URL is stored as the flows
normalise it, and the flows in progress hold on to normalised URLs only. -/
structure Sound (h : Hass) : Prop where
  ids : h.Ids
  stripped : ∀ entry ∈ h.entries, Stripped entry.data.controllerUrl
  uniqueId : ∀ entry ∈ h.entries, entry.uniqueId = entry.data.controllerUrl
  distinct : h.entries.Pairwise fun a b => a.data.controllerUrl ≠ b.data.controllerUrl
  flows : ∀ id flow, h.flows id = some flow → flow.Sound

theorem Sound.identity {h : Hass} (hsound : Sound h) : Identity h where
  uniqueId := hsound.uniqueId
  distinct := by
    refine hsound.distinct.imp_of_mem fun {a b} ha hb hne => ?_
    rw [hsound.uniqueId a ha, hsound.uniqueId b hb, (hsound.stripped a ha).1,
      (hsound.stripped b hb).1]
    exact ⟨hne, hne⟩

/-! ### Flows -/

section

variable {urls : Urls} {h : Hass} {outcome : Outcome} {flow' : Flow} {input : Input}

theorem setup_sound {flow : SetupFlow} (hflow : (Flow.setup flow).Sound)
    (htake : flow.take urls h input = some outcome) (hout : outcome.flow = some flow') :
    flow'.Sound := by
  unfold SetupFlow.take at htake
  split at htake
  · obtain rfl := Option.some.inj htake
    unfold SetupFlow.submitUser at hout
    dsimp only at hout
    split at hout
    · obtain rfl := Option.some.inj hout
      exact hflow
    · obtain rfl := Option.some.inj hout
      exact hflow
    · rename_i hscheme
      split at hout
      · cases hout
      · obtain rfl := Option.some.inj hout
        exact ⟨rfl, stripped_rstripSlash hscheme⟩
  · rename_i hstep
    obtain rfl := Option.some.inj htake
    obtain rfl := Option.some.inj hout
    simp only [Flow.Sound, hstep] at hflow
    unfold SetupFlow.userChecked
    dsimp only
    split
    · trivial
    · exact hflow
  · rename_i hstep
    obtain rfl := Option.some.inj htake
    obtain rfl := Option.some.inj hout
    have hcategories := hflow
    simp only [Flow.Sound, hstep] at hcategories
    unfold SetupFlow.submitCategories
    split
    · exact hflow
    · split <;> exact hcategories
  · rename_i hstep
    obtain rfl := Option.some.inj htake
    obtain rfl := Option.some.inj hout
    simp only [Flow.Sound, hstep] at hflow
    unfold SetupFlow.siteChecked
    split <;> exact hflow
  · obtain rfl := Option.some.inj htake
    cases hout
  · cases htake

theorem stage_sound {flow : OptionsFlow} {pending read : EntryData} {edits : Edits}
    (hpending : Stripped pending.controllerUrl) :
    (Flow.options (flow.stage pending read edits)).Sound := by
  refine ⟨fun p hp => ?_, fun _ _ _ hstep => nomatch hstep⟩
  obtain rfl := Option.some.inj hp
  exact hpending

theorem options_sound {flow : OptionsFlow} {entry : ConfigEntry}
    (hflow : (Flow.options flow).Sound) (hentry : Stripped entry.data.controllerUrl)
    (htake : flow.take urls h entry input = some outcome) (hout : outcome.flow = some flow') :
    flow'.Sound := by
  unfold OptionsFlow.take at htake
  split at htake
  · obtain rfl := Option.some.inj htake
    obtain rfl := Option.some.inj hout
    unfold OptionsFlow.submitCredentials
    dsimp only
    split
    · exact ⟨hflow.1, fun _ _ _ hstep => nomatch hstep⟩
    · split
      · exact stage_sound (by simpa using hentry)
      · split
        · exact hflow
        · exact hflow
        · rename_i hscheme
          refine ⟨hflow.1, fun _ _ _ hstep => ?_⟩
          obtain ⟨rfl, -, -⟩ := OptionsStep.checkingCredentials.inj hstep
          exact stripped_effectiveUrl hentry hscheme
  · rename_i hstep
    obtain rfl := Option.some.inj htake
    obtain ⟨flow'', hchecked, rfl⟩ := Option.map_eq_some_iff.mp hout
    unfold OptionsFlow.credentialsChecked at hchecked
    split at hchecked
    · obtain rfl := Option.some.inj hchecked
      exact ⟨hflow.1, fun _ _ _ hstep => nomatch hstep⟩
    · split at hchecked
      · cases hchecked
      · obtain rfl := Option.some.inj hchecked
        exact stage_sound (by simpa using hflow.2 _ _ _ hstep)
  · obtain rfl := Option.some.inj htake
    obtain rfl := Option.some.inj hout
    unfold OptionsFlow.submitCategories
    split
    · exact hflow
    · split <;> exact ⟨hflow.1, fun _ _ _ hstep => nomatch hstep⟩
  · obtain rfl := Option.some.inj htake
    obtain rfl := Option.some.inj hout
    unfold OptionsFlow.siteChecked
    split <;> exact ⟨hflow.1, fun _ _ _ hstep => nomatch hstep⟩
  · obtain rfl := Option.some.inj htake
    unfold OptionsFlow.submitFinish at hout
    split at hout <;> cases hout
  · cases htake

theorem reconfigure_sound {flow : ReconfigureFlow} {entry : ConfigEntry}
    (hflow : (Flow.reconfigure flow).Sound) (hentry : Stripped entry.data.controllerUrl)
    (htake : flow.take urls h entry input = some outcome) (hout : outcome.flow = some flow') :
    flow'.Sound := by
  unfold ReconfigureFlow.take at htake
  split at htake
  · obtain rfl := Option.some.inj htake
    unfold ReconfigureFlow.submit at hout
    dsimp only at hout
    split at hout
    · cases hout
    · split at hout
      · cases hout
      · split at hout
        · obtain rfl := Option.some.inj hout
          exact hflow
        · obtain rfl := Option.some.inj hout
          exact hflow
        · rename_i hscheme
          obtain rfl := Option.some.inj hout
          intro _ _ _ hstep
          obtain ⟨rfl, -, -⟩ := ReconfigureStep.checking.inj hstep
          exact stripped_effectiveUrl hentry hscheme
  · obtain rfl := Option.some.inj htake
    unfold ReconfigureFlow.checked at hout
    dsimp only at hout
    split at hout
    · obtain rfl := Option.some.inj hout
      exact fun _ _ _ hstep => nomatch hstep
    · split at hout <;> cases hout
  · cases htake

theorem reauth_sound {flow : ReauthFlow} {entry : ConfigEntry}
    (htake : flow.take entry input = some outcome) (hout : outcome.flow = some flow') :
    flow'.Sound := by
  unfold ReauthFlow.take at htake
  split at htake
  · obtain rfl := Option.some.inj htake
    obtain rfl := Option.some.inj hout
    trivial
  · obtain rfl := Option.some.inj htake
    unfold ReauthFlow.checked at hout
    split at hout
    · obtain rfl := Option.some.inj hout
      trivial
    · cases hout
  · cases htake

theorem start_sound {kind : Start} (hstart : h.start kind = some outcome)
    (hout : outcome.flow = some flow') : flow'.Sound := by
  cases kind with
  | user =>
      obtain rfl := Option.some.inj hstart
      obtain rfl := Option.some.inj hout
      trivial
  | ssdp host serial =>
      obtain rfl := Option.some.inj hstart
      unfold ssdp at hout
      split at hout
      · cases hout
      · dsimp only at hout
        split at hout
        · cases hout
        · split at hout
          · obtain rfl := Option.some.inj hout
            trivial
          · split at hout
            · cases hout
            · obtain rfl := Option.some.inj hout
              trivial
  | options entryId =>
      obtain ⟨entry, -, rfl⟩ := Option.map_eq_some_iff.mp hstart
      obtain rfl := Option.some.inj hout
      exact ⟨fun _ h => (nomatch h), fun _ _ _ h => nomatch h⟩
  | reconfigure entryId =>
      obtain ⟨entry, -, rfl⟩ := Option.map_eq_some_iff.mp hstart
      obtain rfl := Option.some.inj hout
      exact fun _ _ _ h => nomatch h
  | reauth entryId =>
      obtain ⟨entry, -, rfl⟩ := Option.map_eq_some_iff.mp hstart
      obtain rfl := Option.some.inj hout
      trivial

/-- The flow of an event stays sound. -/
theorem react_sound {event : FlowEvent} (hsound : Sound h)
    (hreact : h.react urls event = some outcome) (hout : outcome.flow = some flow') :
    flow'.Sound := by
  cases reacts_of_react hreact with
  | started hstart => exact start_sound hstart hout
  | setup hflow htake => exact setup_sound (hsound.flows _ _ hflow) htake hout
  | options hflow hentry htake =>
      exact options_sound (hsound.flows _ _ hflow) (hsound.stripped _ (mem_of_findEntry hentry).1)
        htake hout
  | reconfigure hflow hentry htake =>
      exact reconfigure_sound (hsound.flows _ _ hflow)
        (hsound.stripped _ (mem_of_findEntry hentry).1)
        htake hout
  | reauth hflow hentry htake => exact reauth_sound htake hout
  | abandoned => cases hout

end

/-! ### Entries -/

/-- The part of `Sound` that is about the entries alone. -/
structure SoundEntries (entries : List ConfigEntry) : Prop where
  stripped : ∀ entry ∈ entries, Stripped entry.data.controllerUrl
  uniqueId : ∀ entry ∈ entries, entry.uniqueId = entry.data.controllerUrl
  distinct : entries.Pairwise fun a b => a.data.controllerUrl ≠ b.data.controllerUrl

namespace Sound

variable {h : Hass} {entry : ConfigEntry}

theorem others (hsound : Sound h) (hentry : entry ∈ h.entries) {e : ConfigEntry}
    (he : e ∈ h.entries) (hid : e.entryId ≠ entry.entryId) :
    e.data.controllerUrl ≠ entry.data.controllerUrl :=
  ne_of_pairwise hsound.distinct he hentry fun heq => hid (by rw [heq])

theorem free_iff (hsound : Sound h) {entryId : Option Nat} {url : String} (hurl : Stripped url) :
    h.Free entryId url ↔
      ∀ e ∈ h.entries, some e.entryId ≠ entryId → e.data.controllerUrl ≠ url := by
  refine forall_congr' fun e => forall_congr' fun he => forall_congr' fun _ => ?_
  rw [(hsound.stripped e he).1, hurl.1]

/-- An update that leaves its entry with a stripped URL, the same as its unique id, and
no other entry's. -/
theorem update (hsound : Sound h) (hentry : entry ∈ h.entries) {data : Option EntryData}
    {uniqueId : Option String} {options : Option Settings} {url : String}
    (hdata : (data.getD entry.data).controllerUrl = url) (hurl : Stripped url)
    (huid : uniqueId.getD entry.uniqueId = url)
    (hfree : ∀ e ∈ h.entries, e.entryId ≠ entry.entryId → e.data.controllerUrl ≠ url) :
    SoundEntries (h.write (.update entry.entryId data uniqueId options)).entries := by
  have hself : ∀ e ∈ h.entries, e.entryId = entry.entryId → e = entry := fun e he hid =>
    hsound.ids.eq_of_id he hentry hid
  constructor
  · intro e he
    obtain ⟨e', he', rfl⟩ := List.mem_map.mp he
    split
    · rename_i hid
      obtain rfl := hself e' he' hid
      show Stripped (data.getD e'.data).controllerUrl
      rwa [hdata]
    · exact hsound.stripped e' he'
  · intro e he
    obtain ⟨e', he', rfl⟩ := List.mem_map.mp he
    split
    · rename_i hid
      obtain rfl := hself e' he' hid
      show uniqueId.getD e'.uniqueId = (data.getD e'.data).controllerUrl
      rw [huid, hdata]
    · exact hsound.uniqueId e' he'
  · refine List.pairwise_map.mpr ((hsound.distinct.and hsound.ids.distinct).imp_of_mem ?_)
    rintro a b ha hb ⟨hne, hids⟩
    by_cases hida : a.entryId = entry.entryId
    · have hidb : b.entryId ≠ entry.entryId := fun hidb => hids (by rw [hida, hidb])
      obtain rfl := hself a ha hida
      rw [if_pos rfl, if_neg hidb]
      show (data.getD a.data).controllerUrl ≠ b.data.controllerUrl
      rw [hdata]
      exact (hfree b hb hidb).symm
    · rw [if_neg hida]
      by_cases hidb : b.entryId = entry.entryId
      · obtain rfl := hself b hb hidb
        rw [if_pos rfl]
        show a.data.controllerUrl ≠ (data.getD b.data).controllerUrl
        rw [hdata]
        exact hfree a ha hida
      · rw [if_neg hidb]
        exact hne

/-- An update that leaves the URL and the unique id alone. -/
theorem updateSame (hsound : Sound h) (hentry : entry ∈ h.entries) {data : Option EntryData}
    {options : Option Settings}
    (hdata : (data.getD entry.data).controllerUrl = entry.data.controllerUrl) :
    SoundEntries (h.write (.update entry.entryId data none options)).entries :=
  hsound.update hentry hdata (hsound.stripped entry hentry) (hsound.uniqueId entry hentry)
    fun _ he hid => hsound.others hentry he hid

theorem create (hsound : Sound h) {uniqueId : String} {data : EntryData}
    (hurl : Stripped data.controllerUrl) (huid : uniqueId = data.controllerUrl)
    (hfree : ∀ e ∈ h.entries, e.data.controllerUrl ≠ data.controllerUrl) :
    SoundEntries (h.write (.create uniqueId data)).entries := by
  constructor
  · intro e he
    rcases List.mem_append.mp he with he | he
    · exact hsound.stripped e he
    · obtain rfl := List.mem_singleton.mp he
      exact hurl
  · intro e he
    rcases List.mem_append.mp he with he | he
    · exact hsound.uniqueId e he
    · obtain rfl := List.mem_singleton.mp he
      exact huid
  · refine List.pairwise_append.mpr ⟨hsound.distinct, List.pairwise_singleton .., ?_⟩
    intro a ha b hb
    obtain rfl := List.mem_singleton.mp hb
    exact hfree a ha

end Sound

/-- Every write of a step that stores fresh URLs keeps the entries sound. -/
theorem write_sound {h : Hass} {event : FlowEvent} {w : Write} (hsound : Sound h)
    (hfresh : h.StoresFresh event) (hw : Writes h event w) : SoundEntries (h.write w).entries := by
  cases hw with
  | created hflow hstep =>
      have hsetup := hsound.flows _ _ hflow
      simp only [Flow.Sound, hstep] at hsetup
      simp only [Hass.StoresFresh, hflow] at hfresh
      obtain ⟨hslash, hfree⟩ := hfresh _ hstep
      rw [hslash] at hsetup
      have hurl : Stripped _ := hsetup.1 ▸ hsetup.2
      exact hsound.create hurl hsetup.1
        fun e he => (hsound.free_iff hurl).mp hfree e he (Option.some_ne_none _)
  | rediscovered hserial hnew hfind hurl =>
      rename_i host serial existing
      refine hsound.update (List.mem_of_find?_eq_some hfind) rfl (stripped_host host) rfl
        fun e he _ hsame => ?_
      have hconfigured : h.configured ("https://" ++ host.name) = true :=
        List.any_eq_true.mpr ⟨e, he, beq_iff_eq.mpr ((hsound.uniqueId e he).trans hsame)⟩
      rw [hnew] at hconfigured
      cases hconfigured
  | optionsOnly hflow hstep hentry hpending =>
      exact hsound.updateSame (mem_of_findEntry hentry).1 rfl
  | optionsFinished hflow hstep hentry hpending =>
      rename_i flow entry pending
      obtain ⟨hmem, -⟩ := mem_of_findEntry hentry
      have hurl : Stripped pending.controllerUrl := (hsound.flows _ _ hflow).1 pending hpending
      simp only [Hass.StoresFresh, hflow] at hfresh
      unfold OptionsFlow.newUniqueId
      by_cases hchanged : pending.controllerUrl = entry.data.controllerUrl
      · rw [if_neg fun hne => hne.2 hchanged]
        exact hsound.updateSame hmem hchanged
      · rw [if_pos ⟨hurl.2, hchanged⟩]
        refine hsound.update hmem rfl hurl rfl fun e he hid => ?_
        exact (hsound.free_iff hurl).mp (hfresh hstep pending hpending entry hentry hchanged) e he
          fun hsame => hid (Option.some.inj hsame)
  | sslReconfigured hflow hstep hentry hchanged =>
      exact hsound.updateSame (mem_of_findEntry hentry).1 (by simp)
  | reconfigured hflow hstep hentry hvalid hfree =>
      rename_i flow entry effectiveUrl parsed testData net secret suffix
      obtain ⟨hmem, -⟩ := mem_of_findEntry hentry
      by_cases hchanged : effectiveUrl = entry.data.controllerUrl
      · rw [if_neg fun hne => hne hchanged]
        exact hsound.updateSame hmem (by simpa using hchanged)
      · rw [if_pos hchanged]
        refine hsound.update hmem (by simp) ((hsound.flows _ _ hflow) _ _ _ hstep) rfl
          fun e he hid hsame => ?_
        have hnone := List.find?_eq_none.mp (hfree hchanged) e he
        simp [hid, hsame] at hnone
  | reauthenticated hflow hstep hentry => exact hsound.updateSame (mem_of_findEntry hentry).1 rfl

theorem sound_step {urls : Urls} (h : Hass) (event : FlowEvent) (hsound : Sound h)
    (hfresh : h.StoresFresh event) : Sound (h.step urls event) := by
  have hentries : SoundEntries (h.step urls event).entries := by
    rcases step_entries urls h event with ⟨hsame, -⟩ | ⟨w, hw, hwritten, -⟩
    · rw [hsame]
      exact ⟨hsound.stripped, hsound.uniqueId, hsound.distinct⟩
    · rw [hwritten]
      exact write_sound hsound hfresh hw
  refine ⟨hsound.ids.step urls event, hentries.stripped, hentries.uniqueId, hentries.distinct, ?_⟩
  intro id flow hflow
  rcases step_flows urls h event id with hsame | ⟨-, outcome, hreact, hout⟩
  · exact hsound.flows id flow (by rw [← hsame]; exact hflow)
  · exact react_sound hsound hreact (by rw [← hout]; exact hflow)

/-! ## What a violation comes from -/

theorem storesFresh_of_identity {urls : Urls} (h : Hass) (event : FlowEvent) (hsound : Sound h)
    (hafter : Identity (h.step urls event)) : h.StoresFresh event := by
  cases event with
  | start id kind => trivial
  | abandon id => trivial
  | take id input =>
      cases input with
      | finish =>
          unfold Hass.StoresFresh
          dsimp only
          split
          · rename_i flow hflow
            intro data hstep
            have hsetup := hsound.flows _ _ hflow
            simp only [Flow.Sound, hstep] at hsetup
            rw [step_setupFinish hflow hstep] at hafter
            have hnew := hafter.uniqueId { entryId := h.nextEntry, uniqueId := flow.uniqueId, data }
              (List.mem_append_right _ (List.mem_singleton_self _))
            have hslash : rstripSlash data.controllerUrl = data.controllerUrl := by
              rw [← hsetup.1]
              exact hnew
            refine ⟨hslash, fun e he _ => ?_⟩
            exact ((List.pairwise_append.mp hafter.distinct).2.2 e he _
              (List.mem_singleton_self _)).2
          · rename_i flow hflow
            intro hstep pending hpending entry hentry hchanged e he hid
            obtain ⟨hmem, -⟩ := mem_of_findEntry hentry
            have hother : e.entryId ≠ entry.entryId := fun hsame => hid (by rw [hsame])
            rw [step_optionsFinish hflow hstep hentry] at hafter
            unfold OptionsFlow.submitFinish at hafter
            rw [hpending] at hafter
            have hdistinct := (List.pairwise_map.mp hafter.distinct).imp fun hab => hab.2
            have hne : e ≠ entry := fun heq => hother (by rw [heq])
            have hpair := ne_of_pairwise hdistinct he hmem hne
            simp only [if_neg hother, if_true] at hpair
            exact hpair
          · trivial
      | _ => trivial

theorem sound_empty : Sound {} :=
  ⟨ids_empty, fun _ he => (nomatch he), fun _ he => (nomatch he), .nil, fun _ _ hflow =>
    nomatch hflow⟩

/-- Over every interleaving of flows, from no entries on: every reachable state has the
identity invariant exactly when each step that stores a URL checked earlier finds
it free, and free of trailing slashes. -/
theorem entry_identity_iff (urls : Urls) (events : List FlowEvent) :
    (∀ pre, pre <+: events → Identity (Lib.run (Hass.step urls) {} pre)) ↔
      Lib.Along (Hass.step urls) Hass.StoresFresh {} events :=
  (Lib.along_iff_reached (fun _ => Sound.identity) sound_step storesFresh_of_identity
    sound_empty).symm

/-- A setup whose user types the URL with a slash at its end. -/
def slashSetup : List FlowEvent :=
  [.start 0 .user,
   .take 0 (.user { controllerUrl := "https://192.168.1.1/", apiKey := "key" }),
   .take 0 (.answer acceptingNet "secret" "0a1b2c3d"),
   .take 0 (.categories everyCategory),
   .take 0 .finish]

/-- The entry is stored under the stripped URL with the typed one in its data. -/
theorem slash_setup_identity :
    let h := Lib.run (Hass.step webUrls) {} slashSetup
    (h.entries.map fun entry => (entry.uniqueId, entry.data.controllerUrl)) =
        [("https://192.168.1.1", "https://192.168.1.1/")] ∧
      ¬∀ pre, pre <+: slashSetup → Identity (Lib.run (Hass.step webUrls) {} pre) := by
  intro h
  have hentries : (h.entries.map fun entry => (entry.uniqueId, entry.data.controllerUrl)) =
      [("https://192.168.1.1", "https://192.168.1.1/")] := by decide +kernel
  refine ⟨hentries, fun hidentity => ?_⟩
  obtain ⟨entry, hentry, hpair⟩ := List.mem_map.mp
    (show ("https://192.168.1.1", "https://192.168.1.1/") ∈ h.entries.map _ by
      rw [hentries]; exact List.mem_singleton_self _)
  have hsame := (hidentity slashSetup List.prefix_rfl).uniqueId entry hentry
  obtain ⟨huid, hurl⟩ := Prod.mk.inj hpair
  rw [huid, hurl] at hsame
  exact absurd hsame (by decide)

end UnifiAlerts.ConfigFlow
