import UnifiAlerts.Lib.Run
import UnifiAlerts.FlowWrites

/-!
# Rediscovery of a known console

An SSDP announcement with a serial that an entry has, from an address that
is not the entry's, moves the entry to that address. This follows a
console when the serial is that of the console behind the entry's URL. The
URL is written by all flows, the serial by setup alone, so a user who moves
an entry to another console leaves the serial of the old one in it.

`Watched` keeps for each entry which console was at its URL when the URL
was stored. That an entry with a serial has its own console there
(`AtHome`) is what every write of a URL has to keep (`MovesWithConsole`);
announcements keep it by themselves.

Consoles are not visible to the integration. They are given from outside
by `Moment`, which says which console answers at which address when an
event happens, and consoles may move between any two events. The
condition looks at the writes of the users only, at the moment of each:
the address that is stored is one where the console of the entry's
serial answers.
-/

namespace UnifiAlerts.ConfigFlow

open Py Lib

/-! ## Moments -/

/-- An event, with the serial of the console that is at each URL at the time. An
announcement comes from the console it names. -/
structure Moment where
  world : String → Option String
  event : FlowEvent
  truthful : ∀ id host serial, event = .start id (.ssdp (some host) (some serial)) →
    world ("https://" ++ host.name) = some serial

def Hass.url? (h : Hass) (i : Nat) : Option String :=
  (h.findEntry i).map (·.data.controllerUrl)

/-- The console that was at the URL of each entry when the URL was stored. -/
structure Watched where
  hass : Hass := {}
  home : Nat → Option String := fun _ => none

namespace Watched

def step (urls : Urls) (w : Watched) (m : Moment) : Watched :=
  let after := w.hass.step urls m.event
  { hass := after
    home := fun i =>
      if after.url? i = w.hass.url? i then w.home i else (after.url? i).bind m.world }

/-- An announcement that changes the URL of an entry comes from the console that was at
the old URL when it was stored. -/
def NeverRepoints (urls : Urls) (w : Watched) (m : Moment) : Prop :=
  match m.event with
  | .start _ (.ssdp _ serial) => ∀ i, w.hass.url? i ≠ none →
      (w.hass.step urls m.event).url? i ≠ w.hass.url? i →
      ∃ console, serial = some console ∧ w.home i = some console
  | _ => True

end Watched

/-! ## The condition -/

/-- The serial, if there is one, is that of the console at the URL. -/
def Moment.IsAt (m : Moment) (serial url : String) : Prop :=
  serial ≠ "" → m.world url = some serial

/-- A user who gives an entry a new URL gives it to the console that the entry has the
serial of. -/
def MovesWithConsole (w : Watched) (m : Moment) : Prop :=
  match m.event with
  | .take id .finish => match w.hass.flows id with
    | some (.setup flow) => ∀ data, flow.step = .finish data →
        m.IsAt data.deviceSerial data.controllerUrl
    | some (.options flow) => flow.step = .finish →
        ∀ pending, flow.pendingData = some pending →
        ∀ entry, w.hass.findEntry flow.entryId = some entry →
          pending.controllerUrl ≠ entry.data.controllerUrl →
          m.IsAt entry.data.deviceSerial pending.controllerUrl
    | _ => True
  | .take id (.answer net _ _) => match w.hass.flows id with
    | some (.reconfigure flow) => ∀ effectiveUrl parsed testData,
        flow.step = .checking effectiveUrl parsed testData →
        ∀ entry, w.hass.findEntry flow.entryId = some entry →
          effectiveUrl ≠ entry.data.controllerUrl →
          w.hass.findDuplicateEntry entry.entryId effectiveUrl = none →
          validateCredentials net effectiveUrl testData.apiKey defaultSite = .ok () →
          m.IsAt entry.data.deviceSerial effectiveUrl
    | _ => True
  | _ => True

/-! ## The invariant -/

/-- Staged data has the serial of its entry. -/
def StagedSerial (h : Hass) (flow : OptionsFlow) : Prop :=
  ∀ pending, flow.pendingData = some pending →
    ∃ entry, h.findEntry flow.entryId = some entry ∧
      entry.data.deviceSerial = pending.deviceSerial

/-- Entries with a serial have their own console at their URL. What the options flow has
staged keeps the serial of its entry, so that its write cannot change whose console that
is. -/
structure AtHome (w : Watched) : Prop where
  ids : w.hass.Ids
  home : ∀ i entry, w.hass.findEntry i = some entry → entry.data.deviceSerial ≠ "" →
    w.home i = some entry.data.deviceSerial
  staged : ∀ id flow, w.hass.flows id = some (.options flow) → StagedSerial w.hass flow

/-! ### Serials -/

/-- No entry loses its serial. -/
def KeepsSerials (h h' : Hass) : Prop :=
  ∀ i entry, h.findEntry i = some entry →
    ∃ entry', h'.findEntry i = some entry' ∧
      entry'.data.deviceSerial = entry.data.deviceSerial

theorem StagedSerial.mono {h h' : Hass} {flow : OptionsFlow} (hkeeps : KeepsSerials h h')
    (hflow : StagedSerial h flow) : StagedSerial h' flow := by
  intro pending hpending
  obtain ⟨entry, hentry, hserial⟩ := hflow pending hpending
  obtain ⟨entry', hentry', hsame⟩ := hkeeps _ entry hentry
  exact ⟨entry', hentry', hsame.trans hserial⟩

section

variable {urls : Urls} {h : Hass} {entry : ConfigEntry}

theorem update_keepsSerials {data : Option EntryData} {uniqueId : Option String}
    {options : Option Settings} (hids : h.Ids) (hmem : entry ∈ h.entries)
    (hserial : (data.getD entry.data).deviceSerial = entry.data.deviceSerial) :
    KeepsSerials h (h.write (.update entry.entryId data uniqueId options)) := by
  intro i e he
  rw [findEntry_update, he, Option.map_some]
  refine ⟨_, rfl, ?_⟩
  split
  · rename_i hid
    obtain rfl := hids.eq_of_id (mem_of_findEntry he).1 hmem hid
    exact hserial
  · rfl

theorem write_keepsSerials {event : FlowEvent} {w : Write} (hids : h.Ids)
    (hstaged : ∀ id flow, h.flows id = some (.options flow) → StagedSerial h flow)
    (hw : Writes h event w) : KeepsSerials h (h.write w) := by
  cases hw with
  | created hflow hstep =>
      intro i entry hentry
      rw [findEntry_create, hentry]
      exact ⟨entry, rfl, rfl⟩
  | rediscovered hserial hnew hfind hurl =>
      rename_i host serial existing
      have hsame : existing.data.deviceSerial = serial := by
        simpa using List.find?_some hfind
      exact update_keepsSerials hids (List.mem_of_find?_eq_some hfind) hsame.symm
  | optionsOnly hflow hstep hentry hpending =>
      exact update_keepsSerials hids (mem_of_findEntry hentry).1 rfl
  | optionsFinished hflow hstep hentry hpending =>
      obtain ⟨entry', hentry', hserial⟩ := hstaged _ _ hflow _ hpending
      obtain rfl := Option.some.inj (hentry.symm.trans hentry')
      exact update_keepsSerials hids (mem_of_findEntry hentry).1 hserial.symm
  | sslReconfigured hflow hstep hentry hchanged =>
      exact update_keepsSerials hids (mem_of_findEntry hentry).1 (by simp)
  | reconfigured hflow hstep hentry hvalid hfree =>
      exact update_keepsSerials hids (mem_of_findEntry hentry).1 (by simp)
  | reauthenticated hflow hstep hentry =>
      exact update_keepsSerials hids (mem_of_findEntry hentry).1 rfl

theorem step_keepsSerials {event : FlowEvent} (hids : h.Ids)
    (hstaged : ∀ id flow, h.flows id = some (.options flow) → StagedSerial h flow) :
    KeepsSerials h (h.step urls event) := by
  intro i entry hentry
  rcases step_findEntry urls h event with hsame | ⟨w, hw, hwritten⟩
  · exact ⟨entry, by rw [hsame, hentry], rfl⟩
  · rw [hwritten]
    exact write_keepsSerials hids hstaged hw i entry hentry

/-! ### Staged data -/

theorem stage_serial {flow : OptionsFlow} {pending read : EntryData} {edits : Edits}
    (hentry : h.findEntry flow.entryId = some entry)
    (hserial : pending.deviceSerial = entry.data.deviceSerial) :
    StagedSerial h (flow.stage pending read edits) := by
  intro pending' hpending
  obtain rfl := Option.some.inj hpending
  exact ⟨entry, hentry, hserial.symm⟩

theorem options_serial {flow flow' : OptionsFlow} {input : Input} {outcome : Outcome}
    (hflow : StagedSerial h flow) (hentry : h.findEntry flow.entryId = some entry)
    (htake : flow.take urls h entry input = some outcome)
    (hout : outcome.flow = some (.options flow')) : StagedSerial h flow' := by
  unfold OptionsFlow.take at htake
  split at htake
  · obtain rfl := Option.some.inj htake
    obtain rfl := Flow.options.inj (Option.some.inj hout)
    unfold OptionsFlow.submitCredentials
    dsimp only
    split
    · exact hflow
    · split
      · exact stage_serial hentry (by simp)
      · split <;> exact hflow
  · obtain rfl := Option.some.inj htake
    obtain ⟨flow'', hchecked, hsame⟩ := Option.map_eq_some_iff.mp hout
    obtain rfl := Flow.options.inj hsame
    unfold OptionsFlow.credentialsChecked at hchecked
    split at hchecked
    · obtain rfl := Option.some.inj hchecked
      exact hflow
    · split at hchecked
      · cases hchecked
      · obtain rfl := Option.some.inj hchecked
        exact stage_serial hentry (by simp)
  · obtain rfl := Option.some.inj htake
    obtain rfl := Flow.options.inj (Option.some.inj hout)
    unfold OptionsFlow.submitCategories
    split
    · exact hflow
    · split <;> exact hflow
  · obtain rfl := Option.some.inj htake
    obtain rfl := Flow.options.inj (Option.some.inj hout)
    unfold OptionsFlow.siteChecked
    split <;> exact hflow
  · obtain rfl := Option.some.inj htake
    unfold OptionsFlow.submitFinish at hout
    split at hout <;> cases hout
  · cases htake

end

/-! ### Homes -/

/-- Each entry that `h'` has at a URL of its own has the serial of the console there. -/
def MovesHome (m : Moment) (h h' : Hass) : Prop :=
  ∀ i entry', h'.findEntry i = some entry' → h.url? i ≠ some entry'.data.controllerUrl →
    m.IsAt entry'.data.deviceSerial entry'.data.controllerUrl

section

variable {m : Moment} {h : Hass} {entry : ConfigEntry}

theorem update_movesHome {data : Option EntryData} {uniqueId : Option String}
    {options : Option Settings} (hids : h.Ids) (hmem : entry ∈ h.entries)
    (hat : (data.getD entry.data).controllerUrl ≠ entry.data.controllerUrl →
      m.IsAt (data.getD entry.data).deviceSerial (data.getD entry.data).controllerUrl) :
    MovesHome m h (h.write (.update entry.entryId data uniqueId options)) := by
  intro i entry' hentry' hmoved
  rw [findEntry_update] at hentry'
  obtain ⟨e, he, rfl⟩ := Option.map_eq_some_iff.mp hentry'
  have hurl : h.url? i = some e.data.controllerUrl := by
    unfold Hass.url?
    rw [he, Option.map_some]
  rw [hurl] at hmoved
  split at hmoved
  · rename_i hid
    obtain rfl := hids.eq_of_id (mem_of_findEntry he).1 hmem hid
    rw [if_pos rfl]
    exact hat fun hsame => hmoved (congrArg some hsame.symm)
  · exact absurd rfl hmoved

/-- An update that leaves the URL alone. -/
theorem update_movesHome_same {data : Option EntryData} {uniqueId : Option String}
    {options : Option Settings} (hids : h.Ids) (hmem : entry ∈ h.entries)
    (hsame : (data.getD entry.data).controllerUrl = entry.data.controllerUrl) :
    MovesHome m h (h.write (.update entry.entryId data uniqueId options)) :=
  update_movesHome hids hmem fun hmoved => absurd hsame hmoved

end

section

variable {urls : Urls} {w : Watched} {m : Moment}

theorem write_movesHome {wr : Write} (hhome : AtHome w) (hmove : MovesWithConsole w m)
    (hw : Writes w.hass m.event wr) : MovesHome m w.hass (w.hass.write wr) := by
  obtain ⟨world, event, truthful⟩ := m
  dsimp only at hw
  cases hw with
  | created hflow hstep =>
      rename_i id flow data
      intro i entry' hentry' hmoved
      rw [findEntry_create] at hentry'
      rcases Option.or_eq_some_iff.mp hentry' with hold | ⟨-, hnew⟩
      · refine absurd ?_ hmoved
        unfold Hass.url?
        rw [hold, Option.map_some]
      · split at hnew
        · obtain rfl := Option.some.inj hnew
          simp only [MovesWithConsole, hflow] at hmove
          exact hmove data hstep
        · cases hnew
  | rediscovered hserial hnew hfind hurl =>
      rename_i id host serial existing
      exact update_movesHome hhome.ids (List.mem_of_find?_eq_some hfind)
        fun _ _ => truthful id host serial rfl
  | optionsOnly hflow hstep hentry hpending =>
      exact update_movesHome_same hhome.ids (mem_of_findEntry hentry).1 rfl
  | optionsFinished hflow hstep hentry hpending =>
      rename_i id flow entry pending
      obtain ⟨entry', hentry', hserial⟩ := hhome.staged _ _ hflow _ hpending
      obtain rfl := Option.some.inj (hentry.symm.trans hentry')
      refine update_movesHome hhome.ids (mem_of_findEntry hentry).1 fun hmoved => ?_
      simp only [MovesWithConsole, hflow] at hmove
      rw [Option.getD_some, ← hserial]
      exact hmove hstep pending hpending entry hentry hmoved
  | sslReconfigured hflow hstep hentry hchanged =>
      exact update_movesHome_same hhome.ids (mem_of_findEntry hentry).1 (by simp)
  | reconfigured hflow hstep hentry hvalid hfree =>
      rename_i id flow entry effectiveUrl parsed testData net secret suffix
      refine update_movesHome hhome.ids (mem_of_findEntry hentry).1 ?_
      rw [Option.getD_some, credentialsPending_controllerUrl, credentialsPending_deviceSerial]
      intro hmoved
      simp only [MovesWithConsole, hflow] at hmove
      exact hmove _ _ _ hstep entry hentry hmoved (hfree hmoved) hvalid
  | reauthenticated hflow hstep hentry =>
      exact update_movesHome_same hhome.ids (mem_of_findEntry hentry).1 rfl

theorem step_movesHome (hhome : AtHome w) (hmove : MovesWithConsole w m) :
    MovesHome m w.hass (w.hass.step urls m.event) := by
  intro i entry' hentry' hmoved
  rcases step_findEntry urls w.hass m.event with hsame | ⟨wr, hw, hwritten⟩
  · refine absurd ?_ hmoved
    unfold Hass.url?
    rw [← hsame, hentry', Option.map_some]
  · exact write_movesHome hhome hmove hw i entry' (by rw [← hwritten, hentry']) hmoved

/-- Every step of which the user's moves are right keeps entries with their consoles. -/
theorem atHome_step (w : Watched) (m : Moment) (hhome : AtHome w) (hmove : MovesWithConsole w m) :
    AtHome (w.step urls m) := by
  have hkeeps : KeepsSerials w.hass (w.hass.step urls m.event) :=
    step_keepsSerials hhome.ids hhome.staged
  refine ⟨hhome.ids.step urls m.event, ?_, ?_⟩
  · intro i entry' hentry' hserial
    have hurl' : (w.hass.step urls m.event).url? i = some entry'.data.controllerUrl := by
      show ((w.hass.step urls m.event).findEntry i).map _ = _
      rw [show (w.hass.step urls m.event).findEntry i = some entry' from hentry', Option.map_some]
    show (if (w.hass.step urls m.event).url? i = w.hass.url? i then w.home i
      else ((w.hass.step urls m.event).url? i).bind m.world) = _
    rw [hurl']
    split
    · rename_i hsame
      obtain ⟨entry, hentry, -⟩ := Option.map_eq_some_iff.mp hsame.symm
      obtain ⟨entry'', hentry'', hkept⟩ := hkeeps i entry hentry
      obtain rfl := Option.some.inj (hentry'.symm.trans hentry'')
      rw [hkept] at hserial ⊢
      exact hhome.home i entry hentry hserial
    · rename_i hmoved
      rw [Option.bind_some]
      exact step_movesHome hhome hmove i entry' hentry' (fun hsame => hmoved hsame.symm) hserial
  · intro id flow hflow
    rcases step_flows urls w.hass m.event id with hsame | ⟨-, outcome, hreact, hout⟩
    · have hold : w.hass.flows id = some (.options flow) := by
        rw [← hsame]
        exact hflow
      exact (hhome.staged id flow hold).mono hkeeps
    · rw [show (w.hass.step urls m.event).flows id = some (.options flow) from hflow] at hout
      rcases reacts_options (reacts_of_react hreact) hout.symm with
        ⟨_, _, entry, -, -, rfl⟩ | ⟨i, flow₀, entry, input, -, hflow₀, hentry, htake⟩
      · exact fun _ hpending => nomatch hpending
      · exact (options_serial (hhome.staged i flow₀ hflow₀) hentry htake hout.symm).mono hkeeps

/-! ## Announcements -/

theorem neverRepoints_of_atHome (hhome : AtHome w) : w.NeverRepoints urls m := by
  obtain ⟨world, event, truthful⟩ := m
  unfold Watched.NeverRepoints
  dsimp only
  split
  · rename_i id host serial
    intro i hknown hmoved
    rcases step_findEntry urls w.hass (.start id (.ssdp host serial)) with hsame |
        ⟨wr, hw, hwritten⟩
    · refine absurd ?_ hmoved
      unfold Hass.url?
      rw [hsame]
    · cases hw with
      | rediscovered hserial hnew hfind hurl =>
          rename_i host serial existing
          have hmem := List.mem_of_find?_eq_some hfind
          have hown : existing.data.deviceSerial = serial := by
            simpa using List.find?_some hfind
          refine ⟨serial, rfl, ?_⟩
          have hi : i = existing.entryId := by
            by_contra hother
            refine hmoved ?_
            unfold Hass.url?
            rw [hwritten, findEntry_update]
            cases hfound : w.hass.findEntry i with
            | none => rfl
            | some entry =>
                obtain ⟨-, hid⟩ := mem_of_findEntry hfound
                rw [Option.map_some, if_neg fun hsame => hother (hid.symm.trans hsame)]
          rw [hi, ← hown]
          exact hhome.home _ existing (hhome.ids.findEntry hmem) (by rw [hown]; exact hserial)
  · trivial

theorem atHome_empty : AtHome {} :=
  ⟨ids_empty, fun _ _ hentry => (nomatch hentry), fun _ _ hflow => nomatch hflow⟩

end

/-- Over every interleaving of flows and announcements, with consoles that change address
at any time: as long as users give entries new URLs of the consoles they have the
serials of, an announcement moves an entry only after its own console. -/
theorem ssdp_never_repoints (urls : Urls) (moments : List Moment)
    (hmoves : Lib.Along (Watched.step urls) MovesWithConsole {} moments) :
    Lib.Along (Watched.step urls) (Watched.NeverRepoints urls) {} moments :=
  hmoves.of_invariant atHome_step (fun _ _ => neverRepoints_of_atHome) atHome_empty

/-! ## Two runs -/

/-- Console A at one address and B at another. -/
def consolesAt (a b : String) : String → Option String := fun url =>
  if url = "https://" ++ a then some "A" else if url = "https://" ++ b then some "B" else none

def announced (world : String → Option String) (id : Nat) (origin : Host) (serial : String)
    (h : world ("https://" ++ origin.name) = some serial) : Moment where
  world
  event := .start id (.ssdp (some origin) (some serial))
  truthful _ _ _ heq := by
    obtain ⟨-, hkind⟩ := FlowEvent.start.inj heq
    obtain ⟨horigin, hserial⟩ := Start.ssdp.inj hkind
    rw [← Option.some.inj horigin, ← Option.some.inj hserial]
    exact h

def submitted (world : String → Option String) (id : Nat) (input : Input) : Moment where
  world
  event := .take id input
  truthful _ _ _ heq := nomatch heq

def reconfiguring (world : String → Option String) (id entryId : Nat) : Moment where
  world
  event := .start id (.reconfigure entryId)
  truthful _ _ _ heq := nomatch heq

def firstHost : Host := ⟨"10.0.0.1", by decide, by decide⟩
def lastHost : Host := ⟨"10.0.0.4", by decide, by decide⟩

/-- A is discovered and set up at its first address. -/
def discovered : List Moment :=
  let world := consolesAt "10.0.0.1" "10.0.0.2"
  [announced world 0 firstHost "A" (by decide),
   submitted world 0 (.user { controllerUrl := "https://10.0.0.1", apiKey := "key" }),
   submitted world 0 (.answer acceptingNet "secret" "0a1b2c3d"),
   submitted world 0 (.categories everyCategory),
   submitted world 0 .finish]

/-- Then the user moves the entry. -/
def movedTo (world : String → Option String) (url : String) : List Moment :=
  [reconfiguring world 1 0,
   submitted world 1 (.credentials { controllerUrl := some url } ""),
   submitted world 1 (.answer acceptingNet "" "")]

/-- After A, then the user, then A again: the entry is with A, which left the first
address before the user entered the next one. -/
def followed : List Moment :=
  discovered ++ movedTo (consolesAt "10.0.0.3" "10.0.0.2") "https://10.0.0.3" ++
    [announced (consolesAt "10.0.0.4" "10.0.0.2") 2 lastHost "A" (by decide)]

/-- The entry is moved to B, and an announcement of A takes it back. -/
def takenBack : List Moment :=
  discovered ++ movedTo (consolesAt "10.0.0.1" "10.0.0.2") "https://10.0.0.2" ++
    [announced (consolesAt "10.0.0.1" "10.0.0.2") 2 firstHost "A" (by decide)]

theorem followed_moves : Lib.Along (Watched.step webUrls) MovesWithConsole {} followed := by
  refine ⟨trivial, trivial, trivial, trivial, ?_, trivial, trivial, ?_, trivial, trivial⟩
  · intro data hstep
    obtain rfl := SetupStep.finish.inj hstep
    intro _
    decide +kernel
  · intro effectiveUrl parsed testData hstep entry hentry _ _ _
    obtain ⟨rfl, -, -⟩ := ReconfigureStep.checking.inj hstep
    obtain rfl := Option.some.inj hentry
    intro _
    decide +kernel

theorem ssdp_follows_console :
    Lib.Along (Watched.step webUrls) (Watched.NeverRepoints webUrls) {} followed ∧
      (Lib.run (Watched.step webUrls) {} followed).hass.url? 0 = some "https://10.0.0.4" :=
  ⟨ssdp_never_repoints webUrls followed followed_moves, by decide +kernel⟩

/-- The last announcement is of a console that was not at the entry's URL. -/
theorem ssdp_takes_entry_back :
    let before := Lib.run (Watched.step webUrls) {} (takenBack.take 8)
    let after := Lib.run (Watched.step webUrls) {} takenBack
    (before.hass.url? 0 = some "https://10.0.0.2" ∧ before.home 0 = some "B") ∧
      after.hass.url? 0 = some "https://10.0.0.1" ∧
      ¬Lib.Along (Watched.step webUrls) (Watched.NeverRepoints webUrls) {} takenBack := by
  intro before after
  have hbefore : before.hass.url? 0 = some "https://10.0.0.2" ∧ before.home 0 = some "B" := by
    decide +kernel
  have hafter : after.hass.url? 0 = some "https://10.0.0.1" := by decide +kernel
  refine ⟨hbefore, hafter, fun halong => ?_⟩
  obtain ⟨-, hlast, -⟩ := (@Lib.Along.append _ _ _ _ (takenBack.take 8) _ _).mp halong
  obtain ⟨console, hserial, hhome⟩ := hlast 0 (by rw [hbefore.1]; nofun)
    (by rw [hbefore.1]; exact fun h => absurd (h.symm.trans hafter) (by decide))
  rw [hbefore.2] at hhome
  rw [← Option.some.inj hserial] at hhome
  exact absurd hhome (by decide)

end UnifiAlerts.ConfigFlow
