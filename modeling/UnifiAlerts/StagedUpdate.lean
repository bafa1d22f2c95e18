import UnifiAlerts.Lib.Run
import UnifiAlerts.FlowWrites

/-!
# Staged data and concurrent updates

The options flow copies `entry.data` at its first form, with the user's
edits in it, and writes the copy at its last. So what it writes is the
edits over the data as it was read (`Staged`), and it should be the edits
over the data as it is. The two are one exactly when nothing that the
user left alone has changed in between (`Unmoved`).

The flow in the model carries two fields that the source has not: what
it read (`read`) and what the user entered (`edits`). No step reads
them. They are there to say which part of the staged data is the user's,
which the data itself no longer shows once the two are merged.

`Staged` connects them to the staged data at every form
(`allStaged_step`), and with it the condition about one finish becomes
an equivalence (`finishKeeps_iff`).
-/

namespace UnifiAlerts.ConfigFlow

open Py Lib

/-! ## Edits -/

namespace Edits

/-- The edits over `data`. -/
def apply (edits : Edits) (data : EntryData) : EntryData :=
  { data with
    controllerUrl := edits.controllerUrl.getD data.controllerUrl
    apiKey := edits.apiKey.getD data.apiKey
    verifySsl := edits.verifySsl.getD data.verifySsl
    webhookSecret := edits.webhookSecret.getD data.webhookSecret }

@[simp] theorem apply_empty (data : EntryData) : ({} : Edits).apply data = data := rfl

/-- What was not edited is in `current` as it was in `read`. -/
structure Unmoved (edits : Edits) (read current : EntryData) : Prop where
  controllerUrl : edits.controllerUrl = none → read.controllerUrl = current.controllerUrl
  apiKey : edits.apiKey = none → read.apiKey = current.apiKey
  verifySsl : edits.verifySsl = none → read.verifySsl = current.verifySsl
  webhookSecret : edits.webhookSecret = none → read.webhookSecret = current.webhookSecret
  settings : read.toSettings = current.toSettings
  webhookIdSuffix : read.webhookIdSuffix = current.webhookIdSuffix
  deviceSerial : read.deviceSerial = current.deviceSerial

theorem getD_eq_iff {α : Type} {edit : Option α} {a b : α} :
    edit.getD a = edit.getD b ↔ (edit = none → a = b) := by
  cases edit <;> simp

theorem apply_eq_iff {edits : Edits} {read current : EntryData} :
    edits.apply read = edits.apply current ↔ edits.Unmoved read current := by
  obtain ⟨settings, url, key, ssl, secret, suffix, serial⟩ := read
  obtain ⟨settings', url', key', ssl', secret', suffix', serial'⟩ := current
  simp only [apply, EntryData.mk.injEq, getD_eq_iff]
  constructor
  · rintro ⟨hsettings, hurl, hkey, hssl, hsecret, hsuffix, hserial⟩
    exact ⟨hurl, hkey, hssl, hsecret, hsettings, hsuffix, hserial⟩
  · rintro ⟨hurl, hkey, hssl, hsecret, hsettings, hsuffix, hserial⟩
    exact ⟨hsettings, hurl, hkey, hssl, hsecret, hsuffix, hserial⟩

end Edits

/-! ## The contract -/

/-- A submitted finish changes what the user edited and nothing else. -/
def FinishKeeps (urls : Urls) (h : Hass) : FlowEvent → Prop
  | .take id .finish => match h.flows id with
    | some (.options flow) => flow.step = .finish →
        ∀ entry, h.findEntry flow.entryId = some entry →
        ∀ entry', (h.step urls (.take id .finish)).findEntry flow.entryId = some entry' →
          entry'.data = flow.edits.apply entry.data ∧
            (entry'.uniqueId ≠ entry.uniqueId → flow.edits.controllerUrl ≠ none)
    | _ => True
  | _ => True

/-- Nothing that the flow read and the user did not edit has moved since. -/
def ReadStands (h : Hass) : FlowEvent → Prop
  | .take id .finish => match h.flows id with
    | some (.options flow) => flow.step = .finish →
        ∀ entry, h.findEntry flow.entryId = some entry →
        ∀ read, flow.read = some read → flow.edits.Unmoved read entry.data
    | _ => True
  | _ => True

/-! ## Staging -/

/-- Staged data is the edits over what was read. -/
structure OptionsFlow.Staged (flow : OptionsFlow) : Prop where
  pending : flow.pendingData = flow.read.map flow.edits.apply
  unread : flow.read = none → flow.edits = {}
  checking : ∀ effectiveUrl parsed testData,
    flow.step = .checkingCredentials effectiveUrl parsed testData →
    parsed.newUrlRaw ≠ "" → effectiveUrl = rstripSlash parsed.newUrlRaw

section

variable {current : EntryData} {secret : String}

theorem verifySslPending_eq {input : CredentialsInput}
    (hchanged : (parseCredentialsFormInput input current).credentialsChanged = false) :
    buildVerifySslAndSecretOnlyPending current (parseCredentialsFormInput input current) secret =
      ((parseCredentialsFormInput input current).edits secret).apply current := by
  have hblank : (parseCredentialsFormInput input current).newUrlRaw = "" ∧
      (parseCredentialsFormInput input current).newApiKey = "" := by
    simpa [parseCredentialsFormInput] using hchanged
  unfold buildVerifySslAndSecretOnlyPending CredentialsFormInput.edits Edits.apply
  rw [hblank.1, hblank.2]
  split <;> split <;> rfl

theorem credentialsPending_eq {effectiveUrl : String} {parsed : CredentialsFormInput}
    (hurl : parsed.newUrlRaw ≠ "" → effectiveUrl = rstripSlash parsed.newUrlRaw) :
    buildCredentialsPendingData current effectiveUrl parsed secret = (parsed.edits secret).apply
      { current with controllerUrl := effectiveUrl, verifySsl := parsed.newVerifySsl } := by
  have htyped : ((parsed.edits secret).controllerUrl.getD effectiveUrl) = effectiveUrl := by
    unfold CredentialsFormInput.edits
    dsimp only
    split
    · rename_i htyped
      exact (hurl (by simpa using htyped)).symm
    · rfl
  have hssl : ((parsed.edits secret).verifySsl.getD parsed.newVerifySsl) = parsed.newVerifySsl := by
    unfold CredentialsFormInput.edits
    dsimp only
    split <;> rfl
  unfold Edits.apply
  dsimp only
  rw [htyped, hssl]
  unfold buildCredentialsPendingData CredentialsFormInput.credentialOverrides
    CredentialsFormInput.edits
  split <;> split <;> rfl

end

theorem stage_staged {flow : OptionsFlow} {pending read : EntryData} {edits : Edits}
    (h : pending = edits.apply read) : (flow.stage pending read edits).Staged where
  pending := by rw [h]; rfl
  unread hread := nomatch hread
  checking _ _ _ hstep := nomatch hstep

/-- Moving on without touching what is staged, to a form that is no credentials check. -/
theorem OptionsFlow.Staged.move {flow flow' : OptionsFlow} (hflow : flow.Staged)
    (hpending : flow'.pendingData = flow.pendingData) (hread : flow'.read = flow.read)
    (hedits : flow'.edits = flow.edits)
    (hstep : ∀ effectiveUrl parsed testData,
      flow'.step ≠ .checkingCredentials effectiveUrl parsed testData) : flow'.Staged where
  pending := by rw [hpending, hread, hedits]; exact hflow.pending
  unread hnone := by rw [hedits]; exact hflow.unread (by rw [← hread]; exact hnone)
  checking _ _ _ h := absurd h (hstep _ _ _)

section

variable {urls : Urls} {h : Hass} {outcome : Outcome} {input : Input} {flow flow' : OptionsFlow}
  {entry : ConfigEntry}

theorem submitCredentials_staged (hflow : flow.Staged) (input : CredentialsInput)
    (secret : String) : (flow.submitCredentials urls entry input secret).Staged := by
  unfold OptionsFlow.submitCredentials
  dsimp only
  split
  · exact hflow.move rfl rfl rfl fun _ _ _ hstep => nomatch hstep
  · split
    · rename_i hchanged
      exact stage_staged (verifySslPending_eq (by simpa using hchanged))
    · split
      · exact hflow
      · exact ⟨hflow.pending, hflow.unread, hflow.checking⟩
      · refine ⟨hflow.pending, hflow.unread, fun _ _ _ hstep htyped => ?_⟩
        obtain ⟨rfl, rfl, -⟩ := OptionsStep.checkingCredentials.inj hstep
        unfold CredentialsFormInput.effectiveUrl
        rw [if_pos (by simpa using htyped)]

theorem options_staged (hflow : flow.Staged)
    (htake : flow.take urls h entry input = some outcome)
    (hout : outcome.flow = some (.options flow')) : flow'.Staged := by
  unfold OptionsFlow.take at htake
  split at htake
  · obtain rfl := Option.some.inj htake
    obtain rfl := Flow.options.inj (Option.some.inj hout)
    exact submitCredentials_staged hflow _ _
  · rename_i hstep
    obtain rfl := Option.some.inj htake
    obtain ⟨flow'', hchecked, hsame⟩ := Option.map_eq_some_iff.mp hout
    obtain rfl := Flow.options.inj hsame
    unfold OptionsFlow.credentialsChecked at hchecked
    split at hchecked
    · obtain rfl := Option.some.inj hchecked
      exact hflow.move rfl rfl rfl fun _ _ _ hstep => nomatch hstep
    · split at hchecked
      · cases hchecked
      · obtain rfl := Option.some.inj hchecked
        exact stage_staged (credentialsPending_eq (hflow.checking _ _ _ hstep))
  · obtain rfl := Option.some.inj htake
    obtain rfl := Flow.options.inj (Option.some.inj hout)
    unfold OptionsFlow.submitCategories
    split
    · exact ⟨hflow.pending, hflow.unread, hflow.checking⟩
    · split <;> exact hflow.move rfl rfl rfl fun _ _ _ hstep => nomatch hstep
  · obtain rfl := Option.some.inj htake
    obtain rfl := Flow.options.inj (Option.some.inj hout)
    unfold OptionsFlow.siteChecked
    split <;> exact hflow.move rfl rfl rfl fun _ _ _ hstep => nomatch hstep
  · obtain rfl := Option.some.inj htake
    unfold OptionsFlow.submitFinish at hout
    split at hout <;> cases hout
  · cases htake

end

/-- Every options flow in progress is staged. -/
def AllStaged (h : Hass) : Prop := ∀ id flow, h.flows id = some (.options flow) → flow.Staged

theorem allStaged_step {urls : Urls} (h : Hass) (event : FlowEvent) (hstaged : AllStaged h) :
    AllStaged (h.step urls event) := by
  intro id flow hflow
  rcases step_flows urls h event id with hsame | ⟨-, outcome, hreact, hout⟩
  · exact hstaged id flow (by rw [← hsame]; exact hflow)
  · rw [hflow] at hout
    rcases reacts_options (reacts_of_react hreact) hout.symm with
      ⟨_, _, entry, -, -, rfl⟩ | ⟨i, flow₀, entry, input, -, hflow₀, -, htake⟩
    · exact ⟨rfl, fun _ => rfl, fun _ _ _ hstep => nomatch hstep⟩
    · exact options_staged (hstaged i flow₀ hflow₀) htake hout.symm

/-! ## Finishing -/

section

variable {urls : Urls} {h : Hass} {id : Nat} {flow : OptionsFlow} {entry : ConfigEntry}

/-- What one finish stores is right exactly when its read still stands. -/
theorem finish_iff (hstaged : flow.Staged) :
    ((flow.pendingData.getD entry.data = flow.edits.apply entry.data) ∧
        ((flow.pendingData.bind (OptionsFlow.newUniqueId entry)).getD entry.uniqueId ≠
          entry.uniqueId → flow.edits.controllerUrl ≠ none)) ↔
      ∀ read, flow.read = some read → flow.edits.Unmoved read entry.data := by
  rw [hstaged.pending]
  cases hread : flow.read with
  | none =>
      rw [hstaged.unread hread]
      simp
  | some read =>
      simp only [Option.map_some, Option.getD_some, Edits.apply_eq_iff, Option.bind_some,
        Option.some.injEq, forall_eq']
      refine ⟨And.left, fun hunmoved => ⟨hunmoved, fun huid hnone => huid ?_⟩⟩
      -- an URL that was not edited is written back as it is
      have hurl : (flow.edits.apply read).controllerUrl = entry.data.controllerUrl := by
        unfold Edits.apply
        rw [hnone]
        exact hunmoved.controllerUrl hnone
      unfold OptionsFlow.newUniqueId
      rw [if_neg fun hne => hne.2 hurl]
      rfl

end

theorem finishKeeps_iff {urls : Urls} (h : Hass) (event : FlowEvent) (hstaged : AllStaged h) :
    FinishKeeps urls h event ↔ ReadStands h event := by
  unfold FinishKeeps ReadStands
  split
  · rename_i id
    split
    · rename_i flow hflow
      refine forall_congr' fun hstep => forall_congr' fun entry => forall_congr' fun hentry => ?_
      rw [← finish_iff (hstaged _ _ hflow), finish_findEntry hflow hstep hentry]
      simp only [Option.some.injEq, forall_eq']
      exact Iff.rfl
    · exact Iff.rfl
  · exact Iff.rfl

/-- From any entries, and over every interleaving of the flows: all submitted finishes
change what their user edited and nothing else exactly when each finds everything
else as its flow read it. -/
theorem options_update_iff (urls : Urls) (h : Hass) (events : List FlowEvent) :
    Lib.Along (Hass.step urls) (FinishKeeps urls) h.idle events ↔
      Lib.Along (Hass.step urls) ReadStands h.idle events :=
  Lib.along_congr allStaged_step finishKeeps_iff fun _ _ hflow => nomatch hflow

/-- One entry, with the key that is about to be replaced. -/
def oneEntry : Hass where
  entries := [{
    entryId := 0
    uniqueId := "https://unifi"
    data := { controllerUrl := "https://unifi", apiKey := "old key" } }]
  nextEntry := 1

/-- The user turns certificate checks off in the options flow; before the last form,
reauth stores a new key. -/
def beforeFinish : List FlowEvent :=
  [.start 0 (.options 0),
   .take 0 (.credentials { verifySsl := some false } ""),
   .start 1 (.reauth 0),
   .take 1 (.reauth "new key"),
   .take 1 (.answer acceptingNet "" ""),
   .take 0 (.categories everyCategory)]

/-- The last form puts the old key back. -/
theorem options_flow_reverts_key :
    let before := Lib.run (Hass.step webUrls) oneEntry.idle beforeFinish
    let after := before.step webUrls (.take 0 .finish)
    (before.findEntry 0).map (·.data.apiKey) = some "new key" ∧
      (after.findEntry 0).map (·.data.apiKey) = some "old key" ∧
      ¬Lib.Along (Hass.step webUrls) (FinishKeeps webUrls) oneEntry.idle
        (beforeFinish ++ [.take 0 .finish]) := by
  intro before after
  have hnew : (before.findEntry 0).map (·.data.apiKey) = some "new key" := by decide +kernel
  have hold : (after.findEntry 0).map (·.data.apiKey) = some "old key" := by decide +kernel
  refine ⟨hnew, hold, fun halong => ?_⟩
  have hkeeps : FinishKeeps webUrls before (.take 0 .finish) := (Lib.Along.append.mp halong).2.1
  obtain ⟨flow, hflow, hstep, hid, hedits⟩ : ∃ flow, before.flows 0 = some (.options flow) ∧
      flow.step = .finish ∧ flow.entryId = 0 ∧ flow.edits.apiKey = none := ⟨_, rfl, rfl, rfl, rfl⟩
  simp only [FinishKeeps, hflow] at hkeeps
  obtain ⟨entry, hentry, hkey⟩ := Option.map_eq_some_iff.mp hnew
  obtain ⟨entry', hentry', hkey'⟩ := Option.map_eq_some_iff.mp hold
  have hdata :=
    (hkeeps hstep entry (by rw [hid]; exact hentry) entry' (by rw [hid]; exact hentry')).1
  have hsame : entry'.data.apiKey = entry.data.apiKey := by
    rw [hdata]
    unfold Edits.apply
    rw [hedits]
    rfl
  rw [hkey, hkey'] at hsame
  exact absurd hsame (by decide)

end UnifiAlerts.ConfigFlow
