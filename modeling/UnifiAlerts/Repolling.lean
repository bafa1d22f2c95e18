import UnifiAlerts.AbortedPoll
import UnifiAlerts.Sightings
import UnifiAlerts.Timers

/-!
# Polling the same records again

A clear acknowledges what has been seen, so a poll that brings the same
records again should find nothing open. It does for a record that
carries its time: the alert is the same in every poll, and the watermark
is not older. A record whose time is missing or cannot be read is dated
by each poll anew, so the poll after the clear finds it newer than the
watermark; and one whose time has no offset cannot be compared with the
watermark, so that poll stops and leaves the open count as it was.

`StillClear` is what the clear establishes and every later poll keeps when
neither happens (`stillClear_poll`). `Comparable` says for one category that
its poll raises nothing; it does not depend on the time of the poll, so
the categories that did not raise in the first poll never do.
-/

namespace UnifiAlerts

open Py Lib

variable {config : UniFiClientConfig}

namespace Coordinator

/-- A poll leaves the alerts comparable: it keeps the watermark and lowers no flag. -/
theorem Comparable.poll {cat : String} {st : CategoryState} {alerts : List UniFiAlert}
    (h : Comparable st alerts) (polled : List UniFiAlert) :
    Comparable (pollState config cat st polled).1 alerts := by
  have hw := (pollState_frame config cat st polled).2.2.2.1
  have hal := pollState_isAlerting config cat st polled
  refine ⟨fun w hmark => h.watermark w (hw ▸ hmark), fun hnone hquiet => h.newest (hw ▸ hnone) ?_⟩
  rw [hquiet] at hal
  cases hst : st.isAlerting with
  | false => rfl
  | true =>
      rw [hst] at hal
      cases hal

/-! ## The same records at another time -/

/-- The sightings of `c` that pass the severity gate. -/
def due (config : UniFiClientConfig) (c : Category) (sightings : List Sighting) : List Sighting :=
  sightings.filter fun s =>
    s.alert.category == c.name && severityGate config c.name s.alert.severity

/-- What a poll at time `now` groups. -/
def polledAt (now : Instant) (sightings : List Sighting) : Categorised :=
  Categorised.grouped (sightings.map (·.at now)) []

theorem nodup_polledAt (now : Instant) (sightings : List Sighting) :
    (polledAt now sightings).keys.Nodup :=
  Categorised.nodup_grouped (by simp [Categorised.keys])

theorem gated_polledAt (c : Category) (now : Instant) (sightings : List Sighting) :
    gated config c.name ((polledAt now sightings).alertsFor c) =
      (due config c sightings).map (·.at now) := by
  have hnil : Categorised.alertsFor [] c = [] := rfl
  have hdue : sightings.filter ((fun a : UniFiAlert => severityGate config c.name a.severity &&
      a.category == c.name) ∘ (·.at now)) = due config c sightings := by
    refine List.filter_congr fun s _ => ?_
    rw [Function.comp_apply, Sighting.at_category, Sighting.at_severity, Bool.and_comm]
  rw [polledAt, Categorised.alertsFor_grouped, hnil, List.nil_append, gated, List.filter_filter,
    List.filter_map, hdue]

/-- Whether the alerts are comparable does not depend on the time of the poll. -/
theorem Comparable.at {st : CategoryState} {sightings : List Sighting} {now : Instant}
    (h : Comparable st (sightings.map (·.at now))) (now' : Instant) :
    Comparable st (sightings.map (·.at now')) := by
  refine ⟨fun w hw a ha => ?_, fun hnone hal a ha b hb => ?_⟩
  · obtain ⟨s, hs, rfl⟩ := List.mem_map.mp ha
    rw [s.at_isAware now' now]
    exact h.watermark w hw _ (List.mem_map_of_mem hs)
  · obtain ⟨s, hs, rfl⟩ := List.mem_map.mp ha
    obtain ⟨s', hs', rfl⟩ := List.mem_map.mp hb
    rw [s.at_isAware now' now, s'.at_isAware now' now]
    exact h.newest hnone hal _ (List.mem_map_of_mem hs) _ (List.mem_map_of_mem hs')

theorem pollsCleanly_polledAt {now : Instant} {sightings : List Sighting} {coord : Coordinator} :
    PollsCleanly config (polledAt now sightings) coord ↔ ∀ c, (coord.states c).enabled = true →
      Comparable (coord.states c) ((due config c sightings).map (·.at now)) := by
  unfold PollsCleanly
  simp only [pollState_clean_iff, gated_polledAt]

/-! ## After the clear -/

/-- The category is cleared past everything that these records say, and no poll of
them raises. -/
structure StillClear (config : UniFiClientConfig) (c : Category) (sightings : List Sighting)
    (coord : Coordinator) : Prop where
  enabled : (coord.states c).enabled = true
  isAlerting : (coord.states c).isAlerting = false
  past : ∃ w, (coord.states c).lastClearedAt = some (.aware w) ∧
    ∀ s ∈ due config c sightings, ∃ t, s.stamp = some (.aware t) ∧ t ≤ w
  clean : ∀ d, (coord.states d).enabled = true →
    Comparable (coord.states d) ((due config d sightings).map (·.at 0))

theorem stillClear_poll {c : Category} {sightings : List Sighting} {coord : Coordinator}
    (h : StillClear config c sightings coord) (now : Instant) :
    let after := (applyPoll config (polledAt now sightings) coord).coord
    StillClear config c sightings after ∧ (after.states c).openCount = 0 := by
  intro after
  have hclean : PollsCleanly config (polledAt now sightings) coord :=
    pollsCleanly_polledAt.mpr fun d hd => (h.clean d hd).at now
  have hstates := applyPoll_clean (nodup_polledAt now sightings) hclean
  obtain ⟨w, hw, hpast⟩ := h.past
  -- nothing that the records say is newer than the clear
  have hold : ((due config c sightings).map (·.at now)).filter (newer (some (.aware w))) = [] := by
    refine List.filter_eq_nil_iff.mpr fun a ha => ?_
    obtain ⟨s, hs, rfl⟩ := List.mem_map.mp ha
    obtain ⟨t, ht, hle⟩ := hpast s hs
    rw [newer_some, Sighting.at, ht]
    exact not_lt.mpr hle
  have haware : AllAware ((due config c sightings).map (·.at now)) := by
    intro a ha
    obtain ⟨s, hs, rfl⟩ := List.mem_map.mp ha
    obtain ⟨t, ht, -⟩ := hpast s hs
    rw [Sighting.at, ht]
    rfl
  have hpolled : pollState config c.name (coord.states c) ((polledAt now sightings).alertsFor c) =
      raiseFrom (trackNewestSeen (coord.states c)
        ((due config c sightings).map (·.at now))) [] := by
    rw [pollState_run, gated_polledAt, hw, counted_eq (.aware w) haware, hold]
  have hc : after.states c = { coord.states c with
      openCount := 0
      lastAlarmReceivedAt := (after.states c).lastAlarmReceivedAt } := by
    show (applyPoll config (polledAt now sightings) coord).coord.states c = { coord.states c with
      openCount := 0
      lastAlarmReceivedAt :=
        ((applyPoll config (polledAt now sightings) coord).coord.states c).lastAlarmReceivedAt }
    rw [hstates c, if_pos h.enabled, hpolled, trackNewestSeen_eq]
    rfl
  refine ⟨⟨by rw [hc]; exact h.enabled, by rw [hc]; exact h.isAlerting, ⟨w, ?_, hpast⟩, ?_⟩,
    by rw [hc]⟩
  · rw [hc]
    exact hw
  · intro d hd
    show Comparable ((applyPoll config (polledAt now sightings) coord).coord.states d) _
    by_cases hen : (coord.states d).enabled = true
    · rw [hstates d, if_pos hen]
      exact (h.clean d hen).poll _
    · have hkept : (after.states d).enabled = (coord.states d).enabled := by
        show ((applyPoll config (polledAt now sightings) coord).coord.states d).enabled = _
        rw [hstates d, if_neg hen]
      exact absurd (hkept ▸ hd) hen

theorem stillClear_after_clear {c : Category} {sightings : List Sighting} {coord : Coordinator}
    {now : Instant} (hen : (coord.states c).enabled = true)
    (hclean : PollsCleanly config (polledAt now sightings) coord)
    (hdated : ∀ s ∈ due config c sightings, ∃ t, s.stamp = some (.aware t)) (wall : Instant) :
    StillClear config c sightings
      (clearCategory (applyPoll config (polledAt now sightings) coord).coord
        wall c.name).coord := by
  have hstates := applyPoll_clean (nodup_polledAt now sightings) hclean
  have hcomparable := pollsCleanly_polledAt.mp hclean
  generalize hpolled : (applyPoll config (polledAt now sightings) coord).coord = polled at *
  have hcleared : (clearCategory polled wall c.name).coord =
      polled.setState c ((polled.states c).clear wall) := by
    rw [clearCategory, Category.ofName?_name]
  have hc := hstates c
  rw [if_pos hen] at hc
  have hseen : ∀ s ∈ due config c sightings,
      (polled.states c).Seen (s.at now).receivedAt.instant := by
    intro s hs
    unfold CategoryState.Seen
    rw [hc, pollState_lastAlarmReceivedAt, gated_polledAt]
    exact CategoryState.seen_track (List.mem_map_of_mem hs)
  rw [hcleared]
  constructor
  · rw [setState_states, if_pos rfl]
    show (polled.states c).enabled = true
    rw [hc, (pollState_frame config _ _ _).2.1]
    exact hen
  · rw [setState_states, if_pos rfl]
    rfl
  · refine ⟨(polled.states c).lastAlarmReceivedAt.getD wall, ?_, fun s hs => ?_⟩
    · rw [setState_states, if_pos rfl]
      rfl
    · obtain ⟨t, ht⟩ := hdated s hs
      obtain ⟨m, hm, hle⟩ := hseen s hs
      rw [Sighting.at, ht] at hle
      exact ⟨t, ht, by rw [hm]; exact hle⟩
  · intro d hd
    rw [setState_states] at hd ⊢
    by_cases hdc : d = c
    · subst hdc
      rw [if_pos rfl]
      -- the new watermark is aware, and so are the alerts of the category
      refine ⟨fun w hw a ha => ?_, fun hnone => by cases hnone⟩
      obtain rfl := Option.some.inj hw
      obtain ⟨s, hs, rfl⟩ := List.mem_map.mp ha
      obtain ⟨t, ht⟩ := hdated s hs
      rw [Sighting.at, ht]
      rfl
    · rw [if_neg hdc] at hd ⊢
      have hstate := hstates d
      by_cases hend : (coord.states d).enabled = true
      · rw [hstate, if_pos hend]
        exact ((hcomparable d hend).poll _).at 0
      · rw [if_neg hend] at hstate
        rw [hstate] at hd
        exact absurd hd hend

/-! ## What an undated record opens -/

/-- After a poll of a cleared category that has an undated record, later than the
watermark, something is open; so it is after one that raises, if something was open. -/
theorem applyPoll_opens {c : Category} {sightings : List Sighting} {coord : Coordinator}
    {w now : Instant} (hen : ∀ d, (coord.states d).enabled = true ↔ d = c)
    (hw : (coord.states c).lastClearedAt = some (.aware w))
    (hopen : (coord.states c).openCount ≠ 0) (hlater : w < now) {s : Sighting}
    (hs : s ∈ due config c sightings) (hundated : ¬∃ t, s.stamp = some (.aware t)) :
    ((applyPoll config (polledAt now sightings) coord).coord.states c).openCount ≠ 0 := by
  have hnodup := nodup_polledAt now sightings
  have henc := (hen c).mpr rfl
  by_cases hraised : (pollState config c.name (coord.states c)
      ((polledAt now sightings).alertsFor c)).2.2 = none
  · have hclean : PollsCleanly config (polledAt now sightings) coord := by
      intro d hd
      obtain rfl := (hen d).mp hd
      exact hraised
    rw [pollState_clean_iff, gated_polledAt] at hraised
    have haware : AllAware ((due config c sightings).map (·.at now)) :=
      hraised.watermark _ hw
    have hmem : s.at now ∈ (due config c sightings).map (·.at now) := List.mem_map_of_mem hs
    have hnow : (s.at now).receivedAt = .aware now := by
      have hown := haware _ hmem
      unfold Sighting.at at hown ⊢
      cases hstamp : s.stamp with
      | none => rfl
      | some d =>
          rw [hstamp] at hown
          have hd : d = .aware d.instant := DateTime.isAware_iff.mp hown
          exact absurd ⟨d.instant, hstamp.trans (congrArg some hd)⟩ hundated
    have hnewer : s.at now ∈
        ((due config c sightings).map (·.at now)).filter (newer (some (.aware w))) := by
      refine List.mem_filter.mpr ⟨hmem, ?_⟩
      rw [newer_some, hnow]
      exact hlater
    rw [applyPoll_clean hnodup hclean, if_pos henc, pollState_run, gated_polledAt, hw,
      counted_eq (.aware w) haware]
    dsimp only
    rw [raiseFrom_openCount]
    exact (List.length_pos_of_mem hnewer).ne'
  · rw [applyPoll_openCount_of_raised hnodup henc hw hraised]
    exact hopen

end Coordinator

/-! ## The raw records -/

def legacySightings (text : Text) (records : List JsonObj) : Except Exc (List Sighting) :=
  (records.mapM (recordSighting text)).map List.reduceOption

def eventSightings (text : Text) (events : List JsonObj) : Except Exc (List Sighting) :=
  events.mapM (eventSighting text)

/-- To poll the input is to poll these sightings; one that cannot be read is not polled. -/
def Denotes (text : Text) (input : Input) (sightings : Except Exc (List Sighting)) : Prop :=
  ∀ now coord, (input.convert text now coord).2 =
    sightings.toOption.map fun s => .poll (Coordinator.polledAt now s)

theorem denotes_legacy (text : Text) (records : List JsonObj) :
    Denotes text (.legacy records) (legacySightings text records) := by
  intro now coord
  have hbuilt : records.mapM (recordAlert text now) =
      (records.mapM (recordSighting text)).map (List.map (Option.map (·.at now))) := by
    rw [← mapM_map_result]
    exact congrArg records.mapM (funext (recordAlert_eq text now))
  have hloop := categoriseLoop_result (Input.offline text now) records [] coord.client
  rw [show (Input.offline text now).text = text from rfl,
    show (Input.offline text now).now = now from rfl, hbuilt] at hloop
  unfold Input.convert Coordinator.onClient Comp.zoom legacySightings
  dsimp only
  rcases hx : categoriseLoop (Input.offline text now) records [] coord.client with ⟨r, s⟩
  rw [hx] at hloop
  dsimp only at hloop
  subst hloop
  cases records.mapM (recordSighting text) with
  | error e => rfl
  | ok found =>
      show some (Op.poll
        (Categorised.grouped (found.map (Option.map (·.at now))).reduceOption [])) = _
      rw [List.reduceOption_map]
      rfl

theorem denotes_systemLog (text : Text) (events : List JsonObj) :
    Denotes text (.systemLog events) (eventSightings text events) := by
  intro now coord
  have hbuilt : eventAlerts text now events =
      (eventSightings text events).map (List.map (·.at now)) := by
    unfold eventAlerts eventSightings
    rw [← mapM_map_result]
    exact congrArg events.mapM (funext (eventAlert_at text now))
  have hloop := groupEvents_result (Input.offline text now) events [] coord
  rw [show (Input.offline text now).text = text from rfl,
    show (Input.offline text now).now = now from rfl, hbuilt] at hloop
  unfold Input.convert
  dsimp only
  rcases hx : Coordinator.groupEvents (Input.offline text now) events [] coord with ⟨r, s⟩
  rw [hx] at hloop
  dsimp only at hloop
  subst hloop
  cases eventSightings text events with
  | error e => rfl
  | ok sightings => rfl

/-! ## Staying clear -/

/-- The poll is applied: its records are all read, and no comparison raises. -/
def Applies (text : Text) (config : UniFiClientConfig) (coord : Coordinator) (t : TimedInput) :
    Prop :=
  (t.input.convert text t.now.wall coord).2 ≠ none ∧
    (Coordinator.inputTurn text config coord t).raised = none

/-- After a poll that is applied, a clear of the category and any later polls of the same
input, the category is quiet, and with at least one such poll nothing is open. -/
def StaysClear (text : Text) (config : UniFiClientConfig) (c : Category) (input : Input) : Prop :=
  ∀ (coord : Coordinator) (first clear : Reading) (later : List Reading),
    (coord.states c).enabled = true →
    (first :: clear :: later).Pairwise (fun t u => t.wall ≤ u.wall) →
    Applies text config coord ⟨first, input⟩ →
    let after := run (Coordinator.inputStep text config) coord
      (⟨first, input⟩ :: ⟨clear, .clearCategory c.name⟩ :: later.map fun t => ⟨t, input⟩)
    (after.states c).isAlerting = false ∧ (later ≠ [] → (after.states c).openCount = 0)

namespace Coordinator

variable {text : Text} {input : Input} {sightings : List Sighting}

theorem inputTurn_denotes (hdenotes : Denotes text input (.ok sightings)) (coord : Coordinator)
    (t : Reading) : ∃ coord', coord'.states = coord.states ∧
      inputTurn text config coord ⟨t, input⟩ =
        applyPoll config (polledAt t.wall sightings) coord' := by
  have hop := hdenotes t.wall coord
  have hstates := @Input.convert_states text t.wall coord input
  unfold inputTurn
  dsimp only
  rcases hx : input.convert text t.wall coord with ⟨coord', op⟩
  rw [hx] at hop hstates
  dsimp only at hop
  subst hop
  exact ⟨coord', hstates, rfl⟩

theorem pollsCleanly_of_states {categorised : Categorised} {coord coord' : Coordinator}
    (hs : coord'.states = coord.states) (h : PollsCleanly config categorised coord) :
    PollsCleanly config categorised coord' := by
  intro c
  rw [hs]
  exact h c

theorem StillClear.of_states {c : Category} {coord coord' : Coordinator}
    (hs : coord'.states = coord.states) (h : StillClear config c sightings coord) :
    StillClear config c sightings coord' := by
  obtain ⟨hen, hal, hpast, hclean⟩ := h
  constructor
  · rw [hs]
    exact hen
  · rw [hs]
    exact hal
  · rw [hs]
    exact hpast
  · rw [hs]
    exact hclean

theorem stillClear_inputStep {c : Category} (hdenotes : Denotes text input (.ok sightings))
    {coord : Coordinator} (h : StillClear config c sightings coord) (t : Reading) :
    StillClear config c sightings (inputStep text config coord ⟨t, input⟩) ∧
      ((inputStep text config coord ⟨t, input⟩).states c).openCount = 0 := by
  obtain ⟨coord', hs, hturn⟩ := @inputTurn_denotes config text input sightings hdenotes coord t
  unfold inputStep
  rw [hturn]
  exact stillClear_poll (h.of_states hs) t.wall

/-- Every poll after the clear keeps the category quiet, and the first empties it. -/
theorem stillClear_run {c : Category} (hdenotes : Denotes text input (.ok sightings)) :
    ∀ {later : List Reading} {coord : Coordinator}, StillClear config c sightings coord →
      let after := run (inputStep text config) coord (later.map fun t => ⟨t, input⟩)
      StillClear config c sightings after ∧
        (later ≠ [] ∨ (coord.states c).openCount = 0 → (after.states c).openCount = 0)
  | [], _, h => ⟨h, fun hzero => hzero.resolve_left fun hne => hne rfl⟩
  | t :: later, coord, h => by
      obtain ⟨hquiet, hzero⟩ := stillClear_inputStep hdenotes h t
      obtain ⟨hafter, hkept⟩ := @stillClear_run c hdenotes later _ hquiet
      exact ⟨hafter, fun _ => hkept (Or.inr hzero)⟩

theorem staysClear_of_dated {c : Category} (hdenotes : Denotes text input (.ok sightings))
    (hdated : ∀ s ∈ due config c sightings, ∃ t, s.stamp = some (.aware t)) :
    StaysClear text config c input := by
  intro coord first clear later hen _ happlies after
  obtain ⟨coord', hs, hturn⟩ := @inputTurn_denotes config text input sightings hdenotes coord first
  have hraised := happlies.2
  rw [hturn, applyPoll_raised_iff (nodup_polledAt _ _)] at hraised
  have hquiet := stillClear_after_clear (by rw [hs]; exact hen) hraised hdated clear.wall
  have hcleared : inputStep text config (inputStep text config coord ⟨first, input⟩)
      ⟨clear, .clearCategory c.name⟩ =
        (clearCategory (applyPoll config (polledAt first.wall sightings) coord').coord clear.wall
          c.name).coord := by
    rw [← hturn]
    rfl
  rw [← hcleared] at hquiet
  obtain ⟨hafter, hzero⟩ := @stillClear_run config text input sightings c hdenotes later _ hquiet
  exact ⟨hafter.isAlerting, fun hne => hzero (Or.inl hne)⟩

/-- `c` is the only enabled category, is alerting and has never been cleared. -/
def watching (c : Category) : Coordinator where
  states d := { category := d, enabled := decide (d = c), isAlerting := true }

theorem watching_enabled {c : Category} (d : Category) :
    ((watching c).states d).enabled = true ↔ d = c := by
  simp [watching]

theorem watching_clean (config : UniFiClientConfig) (c : Category) (sightings : List Sighting)
    (now : Instant) : PollsCleanly config (polledAt now sightings) (watching c) := by
  refine pollsCleanly_polledAt.mpr fun d _ => ⟨fun w hw => ?_, fun _ hal => ?_⟩
  · cases hw
  · cases hal

theorem watching_polled {c : Category} {coord : Coordinator}
    (hs : coord.states = (watching c).states) (now : Instant) :
    let after := (applyPoll config (polledAt now sightings) coord).coord
    (∀ d, (after.states d).enabled = true ↔ d = c) ∧
      (after.states c).openCount = (due config c sightings).length := by
  intro after
  have hstates := applyPoll_clean (nodup_polledAt now sightings)
    (pollsCleanly_of_states hs (watching_clean config c sightings now))
  constructor
  · intro d
    show ((applyPoll config (polledAt now sightings) coord).coord.states d).enabled = true ↔ d = c
    rw [hstates d, hs, ← watching_enabled d]
    split
    · rw [(pollState_frame config _ _ _).2.1]
    · exact Iff.rfl
  · show ((applyPoll config (polledAt now sightings) coord).coord.states c).openCount = _
    rw [hstates c, hs, if_pos ((watching_enabled c).mpr rfl), pollState_run, gated_polledAt,
      show ((watching c).states c).lastClearedAt = none from rfl, counted_none]
    dsimp only
    rw [raiseFrom_openCount, List.length_map]

theorem not_staysClear {c : Category} (hdenotes : Denotes text input (.ok sightings)) {s : Sighting}
    (hs : s ∈ due config c sightings) (hundated : ¬∃ t, s.stamp = some (.aware t)) :
    ¬StaysClear text config c input := by
  intro hstays
  let first : Reading := ⟨0, 0⟩
  obtain ⟨polled, hpolled, hturn⟩ :=
    @inputTurn_denotes config text input sightings hdenotes (watching c) first
  obtain ⟨hen, hopen⟩ := @watching_polled config sightings c polled hpolled 0
  have happlies : Applies text config (watching c) ⟨first, input⟩ := by
    constructor
    · show (input.convert text 0 (watching c)).2 ≠ none
      rw [hdenotes 0 (watching c)]
      exact Option.some_ne_none _
    · rw [hturn, applyPoll_raised_iff (nodup_polledAt _ _)]
      exact pollsCleanly_of_states hpolled (watching_clean config c sightings _)
  -- the coordinator once the clear is done, and its watermark
  generalize hafter : (applyPoll config (polledAt 0 sightings) polled).coord = after at hen hopen
  let cleared := after.setState c ((after.states c).clear 0)
  have hown : cleared.states c = (after.states c).clear 0 := by
    rw [setState_states, if_pos rfl]
  obtain ⟨w, hw⟩ : ∃ w, (cleared.states c).lastClearedAt = some (.aware w) := by
    rw [hown]
    exact ⟨_, rfl⟩
  have hcleared : inputStep text config (inputStep text config (watching c) ⟨first, input⟩)
      ⟨first, .clearCategory c.name⟩ = cleared := by
    show (clearCategory (inputTurn text config (watching c) ⟨first, input⟩).coord 0 c.name).coord =
      cleared
    rw [hturn, show (applyPoll config (polledAt first.wall sightings) polled).coord = after from
      hafter, clearCategory, Category.ofName?_name]
  obtain ⟨now, hlater, hpos⟩ : ∃ now : Instant, w < now ∧ 0 ≤ now :=
    ⟨max w 0 + 1, (le_max_left w 0).trans_lt (lt_add_one _),
      (le_max_right w 0).trans (lt_add_one _).le⟩
  let second : Reading := ⟨now, 0⟩
  have hclock : [first, first, second].Pairwise (fun t u => t.wall ≤ u.wall) := by
    simp [first, second, hpos]
  obtain ⟨coord, hcoord, hpoll⟩ :=
    @inputTurn_denotes config text input sightings hdenotes cleared second
  obtain ⟨-, hzero⟩ := hstays (watching c) first first [second] ((watching_enabled c).mpr rfl)
    hclock happlies
  have hfinal : (applyPoll config (polledAt second.wall sightings) coord).coord =
      run (inputStep text config) (watching c)
        (⟨first, input⟩ :: ⟨first, .clearCategory c.name⟩ :: [second].map fun t => ⟨t, input⟩) := by
    rw [run_cons, run_cons, hcleared, ← hpoll]
    rfl
  have henabled : ∀ d, (coord.states d).enabled = true ↔ d = c := by
    intro d
    rw [hcoord, setState_states]
    by_cases hdc : d = c
    · subst hdc
      rw [if_pos rfl]
      exact hen d
    · rw [if_neg hdc]
      exact hen d
  have hcount : (coord.states c).openCount ≠ 0 := by
    rw [hcoord, hown]
    show (after.states c).openCount ≠ 0
    rw [hopen]
    exact (List.length_pos_of_mem hs).ne'
  have hopens := @applyPoll_opens config c sightings coord w now henabled (by rw [hcoord]; exact hw)
    hcount hlater s hs hundated
  rw [hfinal] at hopens
  exact hopens (hzero (List.cons_ne_nil _ _))

end Coordinator

theorem staysClear_iff {text : Text} {c : Category} {input : Input}
    {sightings : Except Exc (List Sighting)} (hdenotes : Denotes text input sightings) :
    StaysClear text config c input ↔ ∀ found, sightings = .ok found →
      ∀ s ∈ Coordinator.due config c found, ∃ t, s.stamp = some (.aware t) := by
  cases sightings with
  | error e =>
      refine iff_of_true (fun coord first clear later _ _ happlies => ?_) (fun _ h => by cases h)
      exact absurd (hdenotes first.wall coord) happlies.1
  | ok found =>
      constructor
      · intro hstays found' hfound s hs
        obtain rfl := Except.ok.inj hfound
        by_contra hundated
        exact Coordinator.not_staysClear hdenotes hs hundated hstays
      · exact fun h => Coordinator.staysClear_of_dated hdenotes (h found rfl)

/-! ## Due records -/

/-- A legacy record of `c` that passes the severity gate. -/
def DueRecord (text : Text) (config : UniFiClientConfig) (c : Category) (record : JsonObj) : Prop :=
  classifyEventKey (record.getD "key" (.str "")) (.str "") = .ok (some c) ∧
    severityGate config c.name (slice (text.str
      (((record.get "severity").or (record.get "subsystem")).or (.str ""))) 32) = true

/-- An event of `c`, by its key or else by its enum, that passes the severity gate. -/
def DueEvent (text : Text) (config : UniFiClientConfig) (c : Category) (event : JsonObj) : Prop :=
  (classifyEventKey (event.getD "key" (.str "")) (.str "") = .ok (some c) ∨
    (classifyEventKey (event.getD "key" (.str "")) (.str "") = .ok none ∧
      classifyEventKey (.str "") (event.getD "category" (.str "")) = .ok (some c))) ∧
    severityGate config c.name (slice (text.str ((event.get "severity").or (.str ""))) 32) = true

theorem recordSighting_some {text : Text} {record : JsonObj} {s : Sighting}
    (h : recordSighting text record = .ok (some s)) : ∃ d : Category,
      classifyEventKey (record.getD "key" (.str "")) (.str "") = .ok (some d) ∧
      s.alert.category = d.name ∧ s.alert.severity = slice (text.str
        (((record.get "severity").or (record.get "subsystem")).or (.str ""))) 32 ∧
      readStamp text (recordStamp record) = .ok s.stamp := by
  obtain ⟨found, hfound, h⟩ := bind_eq_ok.mp h
  cases found with
  | none => cases h
  | some alert =>
      obtain ⟨stamp, hstamp, h⟩ := bind_eq_ok.mp h
      obtain rfl := Option.some.inj (Except.ok.inj h)
      obtain ⟨category, hkey, hfound⟩ := bind_eq_ok.mp hfound
      cases category with
      | none => cases hfound
      | some d =>
          obtain ⟨a, ha, hfound⟩ := bind_eq_ok.mp hfound
          obtain rfl := Option.some.inj (Except.ok.inj hfound)
          obtain ⟨receivedAt, -, ha⟩ := bind_eq_ok.mp ha
          obtain rfl := Except.ok.inj ha
          exact ⟨d, hkey, rfl, rfl, hstamp⟩

theorem recordSighting_none {text : Text} {record : JsonObj}
    (h : recordSighting text record = .ok none) :
    classifyEventKey (record.getD "key" (.str "")) (.str "") = .ok none := by
  obtain ⟨found, hfound, h⟩ := bind_eq_ok.mp h
  cases found with
  | some alert =>
      obtain ⟨stamp, -, h⟩ := bind_eq_ok.mp h
      cases h
  | none =>
      obtain ⟨category, hkey, hfound⟩ := bind_eq_ok.mp hfound
      cases category with
      | none => exact hkey
      | some d =>
          obtain ⟨a, -, hfound⟩ := bind_eq_ok.mp hfound
          cases hfound

theorem mem_due {c : Category} {sightings : List Sighting} {s : Sighting} :
    s ∈ Coordinator.due config c sightings ↔ s ∈ sightings ∧ s.alert.category = c.name ∧
      severityGate config c.name s.alert.severity = true := by
  rw [Coordinator.due, List.mem_filter, Bool.and_eq_true, beq_iff_eq]

theorem legacySightings_dated_iff {text : Text} {c : Category} {records : List JsonObj} :
    (∀ found, legacySightings text records = .ok found →
      ∀ s ∈ Coordinator.due config c found, ∃ t, s.stamp = some (.aware t)) ↔
    ((∀ record ∈ records, ∃ found, recordSighting text record = .ok found) →
      ∀ record ∈ records, DueRecord text config c record →
        ∃ t, readStamp text (recordStamp record) = .ok (some (.aware t))) := by
  rw [← exists_mapM_ok]
  unfold legacySightings
  cases hbuilt : records.mapM (recordSighting text) with
  | error e => exact iff_of_true (fun _ h => by cases h) (fun ⟨_, h⟩ => by cases h)
  | ok bs =>
      constructor
      · rintro h - record hrecord ⟨hkey, hgate⟩
        obtain ⟨found, hfound⟩ := exists_mapM_ok.mp ⟨bs, hbuilt⟩ record hrecord
        cases found with
        | none =>
            rw [recordSighting_none hfound] at hkey
            cases hkey
        | some s =>
            obtain ⟨d, hd, hcat, hsev, hstamp⟩ := recordSighting_some hfound
            obtain rfl := Option.some.inj (Except.ok.inj (hd.symm.trans hkey))
            have hmem : s ∈ bs.reduceOption :=
              List.reduceOption_mem_iff.mpr ((mem_mapM_ok hbuilt).mpr ⟨record, hrecord, hfound⟩)
            obtain ⟨t, ht⟩ := h _ rfl s (mem_due.mpr ⟨hmem, hcat, by rw [hsev]; exact hgate⟩)
            exact ⟨t, by rw [hstamp, ht]⟩
      · intro h found hfound s hs
        obtain rfl := Except.ok.inj hfound
        obtain ⟨hmem, hcat, hgate⟩ := mem_due.mp hs
        obtain ⟨record, hrecord, hs'⟩ := (mem_mapM_ok hbuilt).mp (List.reduceOption_mem_iff.mp hmem)
        obtain ⟨d, hd, hname, hsev, hstamp⟩ := recordSighting_some hs'
        obtain rfl := Category.name_injective (hname.symm.trans hcat)
        obtain ⟨t, ht⟩ := h ⟨bs, rfl⟩ record hrecord ⟨hd, by rw [← hsev]; exact hgate⟩
        exact ⟨t, Except.ok.inj (hstamp.symm.trans ht)⟩

theorem eventSighting_ok {text : Text} {event : JsonObj} {s : Sighting}
    (h : eventSighting text event = .ok s) : ∃ keyCategory enumCategory : Option Category,
      classifyEventKey (event.getD "key" (.str "")) (.str "") = .ok keyCategory ∧
      classifyEventKey (.str "") (event.getD "category" (.str "")) = .ok enumCategory ∧
      s.alert.category = ((keyCategory.or enumCategory).map Category.name).getD "" ∧
      s.alert.severity = slice (text.str ((event.get "severity").or (.str ""))) 32 ∧
      s.stamp = readEventStamp (event.get "timestamp") := by
  obtain ⟨alert, halert, h⟩ := bind_eq_ok.mp h
  obtain rfl := Except.ok.inj h
  unfold eventAlert at halert
  cases hbuilt : UniFiAlert.fromSystemLogEvent text 0 event [] with
  | error e =>
      rw [hbuilt] at halert
      cases halert
  | ok built =>
      rw [hbuilt] at halert
      obtain rfl := Except.ok.inj halert
      obtain ⟨message, -, hbuilt⟩ := bind_eq_ok.mp hbuilt
      obtain ⟨keyCategory, hkey, hbuilt⟩ := bind_eq_ok.mp hbuilt
      obtain ⟨enumCategory, henum, hbuilt⟩ := bind_eq_ok.mp hbuilt
      refine ⟨keyCategory, enumCategory, hkey, henum, ?_⟩
      cases keyCategory <;> cases enumCategory <;>
        · obtain rfl := Except.ok.inj hbuilt
          exact ⟨rfl, rfl, rfl⟩

theorem dueEvent_iff {text : Text} {c : Category} {event : JsonObj} {s : Sighting}
    (h : eventSighting text event = .ok s) :
    DueEvent text config c event ↔ s.alert.category = c.name ∧
      severityGate config c.name s.alert.severity = true := by
  obtain ⟨keyCategory, enumCategory, hkey, henum, hcat, hsev, -⟩ := eventSighting_ok h
  have hname := c.name_ne_empty
  unfold DueEvent
  rw [hkey, henum, hcat, hsev]
  refine and_congr_left fun _ => ?_
  cases keyCategory with
  | some d => simp [Category.name_injective.eq_iff]
  | none =>
      cases enumCategory with
      | some d => simp [Category.name_injective.eq_iff]
      | none => simp [hname.symm]

theorem eventSightings_dated_iff {text : Text} {c : Category} {events : List JsonObj} :
    (∀ found, eventSightings text events = .ok found →
      ∀ s ∈ Coordinator.due config c found, ∃ t, s.stamp = some (.aware t)) ↔
    ((∀ event ∈ events, ∃ s, eventSighting text event = .ok s) →
      ∀ event ∈ events, DueEvent text config c event → EventDated event) := by
  rw [← exists_mapM_ok]
  unfold eventSightings
  cases hbuilt : events.mapM (eventSighting text) with
  | error e => exact iff_of_true (fun _ h => by cases h) (fun ⟨_, h⟩ => by cases h)
  | ok bs =>
      constructor
      · rintro h - event hevent hdue
        obtain ⟨s, hs⟩ := exists_mapM_ok.mp ⟨bs, hbuilt⟩ event hevent
        obtain ⟨t, ht⟩ := h bs rfl s
          (mem_due.mpr ⟨(mem_mapM_ok hbuilt).mpr ⟨event, hevent, hs⟩, (dueEvent_iff hs).mp hdue⟩)
        obtain ⟨-, -, -, -, -, -, hstamp⟩ := eventSighting_ok hs
        exact ⟨.aware t, hstamp.symm.trans ht⟩
      · intro h found hfound s hs
        obtain rfl := Except.ok.inj hfound
        obtain ⟨hmem, hdue⟩ := mem_due.mp hs
        obtain ⟨event, hevent, hs'⟩ := (mem_mapM_ok hbuilt).mp hmem
        obtain ⟨d, hd⟩ := h ⟨_, rfl⟩ event hevent ((dueEvent_iff hs').mpr hdue)
        obtain ⟨-, -, -, -, -, -, hstamp⟩ := eventSighting_ok hs'
        have haware := readEventStamp_aware hd
        exact ⟨d.instant, by rw [hstamp, hd, ← DateTime.isAware_iff.mp haware]⟩

/-- Polling the same records again leaves the category clear, in every run, exactly when
each due record carries a time with an offset that can be read. When a record of the list
is unreadable no poll of it is ever applied. -/
theorem repolled_stays_clear_iff (text : Text) (config : UniFiClientConfig) (c : Category)
    (records events : List JsonObj) :
    (StaysClear text config c (.legacy records) ↔
      ((∀ record ∈ records, legacyReadable record = true) →
        ∀ record ∈ records, DueRecord text config c record →
          ∃ t, readStamp text (recordStamp record) = .ok (some (.aware t)))) ∧
    (StaysClear text config c (.systemLog events) ↔
      ((∀ event ∈ events, eventReadable event = true) →
        ∀ event ∈ events, DueEvent text config c event → EventDated event)) := by
  constructor
  · rw [staysClear_iff (denotes_legacy text records), legacySightings_dated_iff]
    simp only [recordSighting_ok_iff]
  · rw [staysClear_iff (denotes_systemLog text events), eventSightings_dated_iff]
    simp only [eventSighting_ok_iff]

/-- An alarm without a time and an event without one are raised again by the poll after the
clear. An alarm whose time has no offset aborts that poll, and its count stands. -/
theorem undated_record_reopens :
    let text := Text.counting fun s =>
      if s = "2024-01-15T10:30:00" then some (.naive 1705314600000000) else none
    let undated : Input := .legacy [[("key", .str "EVT_AP_Lost_Contact")]]
    let event : Input := .systemLog [[("key", .str "CLIENT_ROAMED"), ("timestamp", .str "soon")]]
    let naive : Input := .legacy
      [[("key", .str "EVT_AP_Lost_Contact"), ("datetime", .str "2024-01-15T10:30:00")]]
    let after (c : Category) (input : Input) :=
      (run (Coordinator.inputStep text {}) (.fresh {})
        [⟨⟨0, 0⟩, input⟩, ⟨⟨1, 1⟩, .clearCategory c.name⟩, ⟨⟨2, 2⟩, input⟩]).states c
    ((after .networkDevice undated).isAlerting = true ∧
        (after .networkDevice undated).openCount = 1) ∧
      ((after .networkClient event).isAlerting = true ∧
        (after .networkClient event).openCount = 1) ∧
      ((after .networkDevice naive).isAlerting = false ∧
        (after .networkDevice naive).openCount = 1) ∧
      ¬∀ (text : Text) (config : UniFiClientConfig) (c : Category) (records events : List JsonObj),
        StaysClear text config c (.legacy records) ∧
        StaysClear text config c (.systemLog events) := by
  intro text undated event naive after
  have hundated : (after .networkDevice undated).isAlerting = true ∧
      (after .networkDevice undated).openCount = 1 := by decide +kernel
  refine ⟨hundated, by decide +kernel, by decide +kernel, fun hall => ?_⟩
  obtain ⟨hstays, -⟩ := hall text {} .networkDevice [[("key", .str "EVT_AP_Lost_Contact")]] []
  have happlies : Applies text {} (.fresh {}) ⟨⟨0, 0⟩, undated⟩ := by
    constructor
    · intro hnone
      cases hnone
    · rfl
  obtain ⟨hquiet, -⟩ := hstays (.fresh {}) ⟨0, 0⟩ ⟨1, 1⟩ [⟨2, 2⟩] rfl (by simp) happlies
  exact Bool.false_ne_true (hquiet.symm.trans hundated.1)

end UnifiAlerts
