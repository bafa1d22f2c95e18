import Mathlib.Data.List.ReduceOption
import UnifiAlerts.Acknowledge
import UnifiAlerts.Awareness
import UnifiAlerts.Window

/-!
# The categories of a poll, one by one

What a poll of timezone-aware alerts does to one category depends on the
alerts grouped under its name only (`applyPoll_state`): the loop visits
each key once, and the zeroing of the categories that were not polled is
a poll of no alerts. For data that comes from v2 events those are the
events' alerts of that category, in order (`alertsFor_grouped`).

Three facts make the loop a map over the categories. The keys of a
grouping are distinct, so no category is visited twice; a visit touches
the state of its own category only; and over aware times no visit
raises, so none is missed. A category that no key names ends with an
open count of zero, which is what a poll of an empty list gives it
(`pollState_nil`).
-/

namespace UnifiAlerts

open Py Lib

namespace Categorised

def keys (categorised : Categorised) : List String := categorised.map Prod.fst

/-- The alerts grouped under the name of `c`. -/
def alertsFor (categorised : Categorised) (c : Category) : List UniFiAlert :=
  (categorised.lookup c.name).getD []

theorem alertsFor_subset (c : Category) : ∀ categorised : Categorised,
    categorised.alertsFor c ⊆ categorised.flatMap Prod.snd
  | [] => List.Subset.refl _
  | (cat, alerts) :: rest => by
      intro a ha
      rw [List.flatMap_cons, List.mem_append]
      by_cases hname : c.name = cat
      · left
        rw [alertsFor, hname, List.lookup_cons_self] at ha
        exact ha
      · right
        have hbeq : (c.name == cat) = false := by simpa using hname
        rw [alertsFor, List.lookup_cons, hbeq] at ha
        exact alertsFor_subset c rest ha

theorem alertsFor_of_notMem {categorised : Categorised} {c : Category}
    (h : c.name ∉ categorised.keys) : categorised.alertsFor c = [] := by
  have hnone : categorised.lookup c.name = none := by
    refine List.lookup_eq_none_iff.mpr fun entry hentry => ?_
    simpa using fun heq => h (List.mem_map.mpr ⟨entry, hentry, heq.symm⟩)
  rw [alertsFor, hnone, Option.getD_none]

/-! What one entry says about a category of its name, and of another. -/

section

variable {c : Category} {cat : String} {alerts : List UniFiAlert} {rest : Categorised}

theorem mem_keys_cons_self : c.name ∈ keys ((c.name, alerts) :: rest) := List.mem_cons_self

theorem alertsFor_cons_self : alertsFor ((c.name, alerts) :: rest) c = alerts := by
  simp [alertsFor]

theorem mem_keys_cons_of_ne (hne : c.name ≠ cat) :
    c.name ∈ keys ((cat, alerts) :: rest) ↔ c.name ∈ keys rest := by
  simp [keys, hne]

theorem alertsFor_cons_of_ne (hne : c.name ≠ cat) :
    alertsFor ((cat, alerts) :: rest) c = alertsFor rest c := by
  have hbeq : (c.name == cat) = false := by simpa using hne
  simp [alertsFor, List.lookup_cons, hbeq]

end

/-! ## Grouping -/

theorem mem_keys_append (k : String) (a : UniFiAlert) :
    ∀ {categorised : Categorised} {k' : String},
      k' ∈ (categorised.append k a).keys ↔ k' = k ∨ k' ∈ categorised.keys
  | [], k' => by simp [keys, append]
  | (k₀, alerts) :: rest, k' => by
      unfold append
      split
      · rename_i hk
        subst hk
        simp [keys]
      · have ih := @mem_keys_append k a rest k'
        simp only [keys, List.map_cons, List.mem_cons] at ih ⊢
        rw [ih]
        tauto

theorem nodup_append (k : String) (a : UniFiAlert) :
    ∀ {categorised : Categorised}, categorised.keys.Nodup → (categorised.append k a).keys.Nodup
  | [], _ => by simp [keys, append]
  | (k₀, alerts) :: rest, h => by
      obtain ⟨hnew, hrest⟩ := List.nodup_cons.mp h
      unfold append
      split
      · exact h
      · rename_i hk
        refine List.nodup_cons.mpr ⟨fun hmem => ?_, nodup_append k a hrest⟩
        rcases (mem_keys_append k a).mp hmem with heq | hmem
        · exact hk heq
        · exact hnew hmem

theorem alertsFor_append (k : String) (a : UniFiAlert) (c : Category) :
    ∀ categorised : Categorised, (categorised.append k a).alertsFor c =
      if k = c.name then categorised.alertsFor c ++ [a] else categorised.alertsFor c
  | [] => by
      by_cases hk : k = c.name
      · simp [alertsFor, append, hk]
      · have hne : (c.name == k) = false := by simpa using Ne.symm hk
        simp [alertsFor, append, hk, List.lookup_cons, hne]
  | (k₀, alerts) :: rest => by
      have ih := alertsFor_append k a c rest
      unfold append
      simp only [alertsFor] at ih ⊢
      by_cases h₀ : c.name = k₀
      · subst h₀
        by_cases hk : c.name = k
        · simp [hk]
        · simp [hk, Ne.symm hk]
      · have hne : (c.name == k₀) = false := by simpa using h₀
        split
        · rename_i hk
          subst hk
          simp [List.lookup_cons, hne, Ne.symm h₀]
        · rw [List.lookup_cons, hne, List.lookup_cons, hne]
          exact ih

/-- Add each alert under its category; one without a category is left out. -/
def grouped (alerts : List UniFiAlert) (categorised : Categorised) : Categorised :=
  alerts.foldl (fun d a => if a.category == "" then d else d.append a.category a) categorised

theorem nodup_grouped : ∀ {alerts : List UniFiAlert} {categorised : Categorised},
    categorised.keys.Nodup → (grouped alerts categorised).keys.Nodup
  | [], _, h => h
  | a :: as, categorised, h => by
      rw [grouped, List.foldl_cons]
      split
      · exact nodup_grouped h
      · exact nodup_grouped (nodup_append _ _ h)

theorem alertsFor_grouped (c : Category) :
    ∀ (alerts : List UniFiAlert) (categorised : Categorised),
      (grouped alerts categorised).alertsFor c =
        categorised.alertsFor c ++ alerts.filter (fun a => a.category == c.name)
  | [], _ => (List.append_nil _).symm
  | a :: as, categorised => by
      have ih := alertsFor_grouped c as
      have hname := c.name_ne_empty
      rw [grouped, List.foldl_cons, ← grouped, ih, List.filter_cons]
      by_cases hcat : a.category = c.name
      · simp [hcat, hname, alertsFor_append]
      · simp only [beq_iff_eq, hcat, if_false]
        split
        · rfl
        · rw [alertsFor_append, if_neg hcat]

theorem grouped_forall {P : UniFiAlert → Prop} :
    ∀ {alerts : List UniFiAlert} {categorised : Categorised}, (∀ a ∈ alerts, P a) →
      (∀ a ∈ categorised.flatMap Prod.snd, P a) →
      ∀ a ∈ (grouped alerts categorised).flatMap Prod.snd, P a
  | [], _, _, h => h
  | b :: bs, categorised, hb, h => by
      obtain ⟨hhead, htail⟩ := List.forall_mem_cons.mp hb
      rw [grouped, List.foldl_cons]
      split
      · exact grouped_forall htail h
      · exact grouped_forall htail (Input.forall_append hhead h)

end Categorised

/-! ## The grouping loop -/

def eventAlerts (text : Text) (now : Instant) (events : List JsonObj) :
    Except Exc (List UniFiAlert) :=
  events.mapM (eventAlert text now)

theorem eventAlerts_ok {text : Text} {now : Instant} :
    ∀ {events : List JsonObj}, (∀ event ∈ events, ∃ a, eventAlert text now event = .ok a) →
      eventAlerts text now events =
        .ok (events.filterMap fun event => (eventAlert text now event).toOption)
  | [], _ => rfl
  | event :: events, h => by
      obtain ⟨⟨a, ha⟩, hrest⟩ := List.forall_mem_cons.mp h
      have ih := eventAlerts_ok hrest
      rw [eventAlerts] at ih ⊢
      rw [List.mapM_cons, ha, ok_bind, ih, ok_bind, List.filterMap_cons, ha]
      rfl

theorem eventAlerts_error {text : Text} {now : Instant} {events : List JsonObj}
    (h : ∃ event ∈ events, ∃ e, eventAlert text now event = .error e) :
    ∃ e, eventAlerts text now events = .error e := by
  obtain ⟨bad, hbad, e, he⟩ := h
  cases hall : eventAlerts text now events with
  | error e' => exact ⟨e', rfl⟩
  | ok alerts =>
      obtain ⟨a, ha⟩ := exists_mapM_ok.mp ⟨alerts, hall⟩ bad hbad
      rw [he] at ha
      cases ha

/-- The loop builds the alert of every event, in order, and groups them. -/
theorem groupEvents_result (net : Net) :
    ∀ (events : List JsonObj) (categorised : Categorised) (coord : Coordinator),
      (Coordinator.groupEvents net events categorised coord).1 =
        ofPy ((eventAlerts net.text net.now events).map (Categorised.grouped · categorised))
  | [], _, _ => rfl
  | event :: events, categorised, coord => by
      have ih := groupEvents_result net events
      have halert := eventAlert_eq net.text net.now event coord.seenUnknownKeys
      unfold Coordinator.groupEvents
      rw [Comp.gets_bind]
      unfold eventAlerts at ih ⊢
      rw [List.mapM_cons, ← halert]
      cases UniFiAlert.fromSystemLogEvent net.text net.now event coord.seenUnknownKeys with
      | error e => rfl
      | ok built =>
          obtain ⟨alert, seen'⟩ := built
          have hbuilt : (Except.ok (alert, seen')).map Prod.fst = (.ok alert : Except Exc _) := rfl
          have hrest : ∀ rest : Except Exc (List UniFiAlert),
              (do let as ← rest; return alert :: as : Except Exc (List UniFiAlert)).map
                  (Categorised.grouped · categorised) =
                rest.map (Categorised.grouped ·
                  (if alert.category == "" then categorised
                    else categorised.append alert.category alert)) := by
            intro rest
            cases rest <;> rfl
          rw [hbuilt, ok_bind, hrest,
            show ofPy (Except.ok (alert, seen')) = .ok (alert, seen') from rfl,
            Comp.lift_ok_bind]
          dsimp only
          rw [Comp.update_bind]
          split
          · cases event.getD "key" (.str "") with
            | str k =>
                dsimp only
                split
                · rw [Comp.update_bind]
                  exact ih _ _
                · exact ih _ _
            | _ => exact ih _ _
          · exact ih _ _

/-- The legacy loop does the same with its records. -/
theorem categoriseLoop_result (net : Net) :
    ∀ (records : List JsonObj) (categorised : Categorised) (s : ClientState),
      (categoriseLoop net records categorised s).1 =
        ofPy ((records.mapM (recordAlert net.text net.now)).map fun alerts =>
          Categorised.grouped alerts.reduceOption categorised)
  | [], _, _ => rfl
  | record :: records, categorised, s => by
      have ih := categoriseLoop_result net records
      rw [List.mapM_cons]
      cases hrec : recordAlert net.text net.now record with
      | error e => exact categoriseLoop_error hrec records categorised s
      | ok found =>
          rw [ok_bind]
          cases found with
          | none =>
              obtain ⟨key, -, hnone⟩ := categoriseLoop_none hrec records categorised s
              rw [hnone, ih]
              cases records.mapM (recordAlert net.text net.now) with
              | error e => rfl
              | ok as => rfl
          | some a =>
              obtain ⟨c, hc⟩ := recordAlert_category hrec
              have hcat : (a.category == "") = false := by
                simpa [hc] using c.name_ne_empty
              rw [categoriseLoop_some hrec, ih]
              cases records.mapM (recordAlert net.text net.now) with
              | error e => rfl
              | ok as =>
                  have hgroup : Categorised.grouped (some a :: as).reduceOption categorised =
                      Categorised.grouped as.reduceOption (categorised.append a.category a) := by
                    rw [List.reduceOption_cons_of_some, Categorised.grouped, List.foldl_cons, hcat]
                    rfl
                  exact (congrArg Except.ok hgroup).symm

namespace Coordinator

/-! ## One category of the whole poll -/

variable {config : UniFiClientConfig}

/-- A category's poll reads the alerts that pass the gate. -/
theorem pollState_gated {cat : String} {state : CategoryState} {as bs : List UniFiAlert}
    (h : gated config cat as = gated config cat bs) :
    pollState config cat state as = pollState config cat state bs := by
  rw [pollState_run, pollState_run, h]

theorem pollState_nil (config : UniFiClientConfig) (cat : String) (state : CategoryState) :
    pollState config cat state [] = ({ state with openCount := 0 }, false, none) := by
  rw [pollState_run]
  rfl

/-- No comparison of the poll raises. -/
def PollsCleanly (config : UniFiClientConfig) (categorised : Categorised) (coord : Coordinator) :
    Prop :=
  ∀ c, (coord.states c).enabled = true →
    (pollState config c.name (coord.states c) (categorised.alertsFor c)).2.2 = none

theorem pollsCleanly_of_aware {categorised : Categorised} {coord : Coordinator}
    (hw : AwareMarks coord) (ha : AllAware (categorised.flatMap Prod.snd)) :
    PollsCleanly config categorised coord := fun c _ =>
  pollState_raised (hw c) fun a hmem => ha a (Categorised.alertsFor_subset c categorised hmem)

/-! What the first entry of the loop adds to that. -/

section

variable {cat : String} {as : List UniFiAlert} {rest : Categorised} {coord : Coordinator}

theorem pollsCleanly_skip (h : ∀ c : Category, c.name = cat → (coord.states c).enabled = false) :
    PollsCleanly config ((cat, as) :: rest) coord ↔ PollsCleanly config rest coord := by
  refine forall_congr' fun c => forall_congr' fun hen => ?_
  have hne : c.name ≠ cat := fun heq => by
    rw [h c heq] at hen
    cases hen
  rw [Categorised.alertsFor_cons_of_ne hne]

theorem pollsCleanly_cons {d : Category} (hname : d.name = cat)
    (hnew : cat ∉ Categorised.keys rest) (hen : (coord.states d).enabled = true) :
    PollsCleanly config ((cat, as) :: rest) coord ↔
      (pollState config cat (coord.states d) as).2.2 = none ∧
        PollsCleanly config rest
        (coord.setState d (pollState config cat (coord.states d) as).1) := by
  subst hname
  have hhead : Categorised.alertsFor ((d.name, as) :: rest) d = as :=
    Categorised.alertsFor_cons_self
  have hother : ∀ c, c ≠ d → Categorised.alertsFor ((d.name, as) :: rest) c =
      Categorised.alertsFor rest c := fun c hcd =>
    Categorised.alertsFor_cons_of_ne fun heq => hcd (Category.name_injective heq)
  constructor
  · intro h
    refine ⟨hhead ▸ h d hen, fun c hc => ?_⟩
    by_cases hcd : c = d
    · -- no later entry is of `d`
      subst hcd
      rw [Categorised.alertsFor_of_notMem hnew, pollState_nil]
    · rw [setState_states, if_neg hcd] at hc ⊢
      rw [← hother c hcd]
      exact h c hc
  · rintro ⟨hd, hrest⟩ c hc
    by_cases hcd : c = d
    · subst hcd
      rw [hhead]
      exact hd
    · have hlater := hrest c
      rw [setState_states, if_neg hcd] at hlater
      rw [hother c hcd]
      exact hlater hc

end

theorem pollLoop_raised_iff :
    ∀ {categorised : Categorised} {turn : Turn}, categorised.keys.Nodup → turn.raised = none →
      ((pollLoop config categorised turn).raised = none ↔
        PollsCleanly config categorised turn.coord)
  | [], turn, _, hr => by
      refine iff_of_true hr fun c _ => ?_
      rw [Categorised.alertsFor_of_notMem (by simp [Categorised.keys]), pollState_nil]
  | (cat, as) :: rest, turn, hnodup, hr => by
      obtain ⟨hnew, hrest⟩ := List.nodup_cons.mp hnodup
      rcases pollLoop_cases config cat as rest turn with
        ⟨hskip, hloop⟩ | ⟨d, rfl, hen, ⟨e, hraised, hloop⟩ | ⟨hraised, hloop⟩⟩
      · rw [hloop, pollLoop_raised_iff hrest hr, pollsCleanly_skip hskip]
      · rw [hloop, pollsCleanly_cons rfl hnew hen, hraised]
        simp
      · rw [hloop, pollsCleanly_cons rfl hnew hen, hraised,
          pollLoop_raised_iff hrest (by exact hr)]
        exact (and_iff_right rfl).symm

theorem pollLoop_state (c : Category) :
    ∀ {categorised : Categorised} {turn : Turn}, categorised.keys.Nodup →
      PollsCleanly config categorised turn.coord →
      (pollLoop config categorised turn).coord.states c =
        if (turn.coord.states c).enabled = true ∧ c.name ∈ categorised.keys then
          (pollState config c.name (turn.coord.states c) (categorised.alertsFor c)).1
        else turn.coord.states c
  | [], _, _, _ => by simp [pollLoop, Categorised.keys]
  | (cat, as) :: rest, turn, hnodup, hclean => by
      obtain ⟨hnew, hnodup⟩ := List.nodup_cons.mp hnodup
      have ih := fun {turn : Turn} => @pollLoop_state c rest turn hnodup
      rcases pollLoop_cases config cat as rest turn with
        ⟨hskip, hloop⟩ | ⟨d, rfl, hen, ⟨e, hraised, -⟩ | ⟨-, hloop⟩⟩
      · rw [pollsCleanly_skip hskip] at hclean
        rw [hloop, ih hclean]
        by_cases hname : c.name = cat
        · simp [hskip c hname]
        · simp only [Categorised.mem_keys_cons_of_ne hname, Categorised.alertsFor_cons_of_ne hname]
      · obtain ⟨hhead, -⟩ := (pollsCleanly_cons rfl hnew hen).mp hclean
        rw [hhead] at hraised
        cases hraised
      · obtain ⟨-, hrest⟩ := (pollsCleanly_cons rfl hnew hen).mp hclean
        rw [hloop, ih hrest, polledTurn_states]
        by_cases hcd : c = d
        · -- the entry of `c`, which no later entry touches
          subst hcd
          rw [if_pos rfl, if_neg fun h => hnew h.2, if_pos ⟨hen, Categorised.mem_keys_cons_self⟩,
            Categorised.alertsFor_cons_self]
        · have hne : c.name ≠ d.name := fun heq => hcd (Category.name_injective heq)
          simp only [if_neg hcd, Categorised.mem_keys_cons_of_ne hne,
            Categorised.alertsFor_cons_of_ne hne]

theorem applyPoll_raised_iff {categorised : Categorised} {coord : Coordinator}
    (hnodup : categorised.keys.Nodup) :
    (applyPoll config categorised coord).raised = none ↔ PollsCleanly config categorised coord := by
  rw [← @pollLoop_raised_iff config categorised { coord } hnodup rfl]
  unfold applyPoll
  dsimp only
  cases hraised : (pollLoop config categorised { coord }).raised with
  | none => exact iff_of_true rfl rfl
  | some e => exact iff_of_false (by simp [hraised]) (by simp)

/-- A poll that no comparison aborts polls each enabled category with its own alerts. -/
theorem applyPoll_clean {categorised : Categorised} {coord : Coordinator}
    (hnodup : categorised.keys.Nodup) (hclean : PollsCleanly config categorised coord)
    (c : Category) :
    (applyPoll config categorised coord).coord.states c =
      if (coord.states c).enabled = true then
        (pollState config c.name (coord.states c) (categorised.alertsFor c)).1
      else coord.states c := by
  have hloop := @pollLoop_state config c categorised { coord } hnodup hclean
  have hraised := (@pollLoop_raised_iff config categorised { coord } hnodup rfl).mpr hclean
  unfold applyPoll
  dsimp only at hloop ⊢
  rw [hraised]
  have hcontains : (categorised.map Prod.fst).contains c.name =
      decide (c.name ∈ categorised.keys) := List.contains_eq_mem ..
  simp only [zeroise, hloop, hcontains]
  by_cases hen : (coord.states c).enabled = true
  · by_cases hin : c.name ∈ categorised.keys
    · simp [hen, hin]
    · -- a category that was not polled has no alerts, and is zeroed
      simp [hen, hin, Categorised.alertsFor_of_notMem hin, pollState_nil]
  · simp [hen]

theorem applyPoll_state {categorised : Categorised} {coord : Coordinator}
    (hnodup : categorised.keys.Nodup) (hw : AwareMarks coord)
    (ha : AllAware (categorised.flatMap Prod.snd)) (c : Category) :
    (applyPoll config categorised coord).coord.states c =
      if (coord.states c).enabled = true then
        (pollState config c.name (coord.states c) (categorised.alertsFor c)).1
      else coord.states c :=
  applyPoll_clean hnodup (pollsCleanly_of_aware hw ha) c

/-- What a poll of the grouped alerts may still change in a category: its alerts
past the gate and newer than its watermark. -/
def unsettled (config : UniFiClientConfig) (watermark : Option DateTime) (c : Category)
    (alerts : List UniFiAlert) : List UniFiAlert :=
  alerts.filter fun a => a.category == c.name &&
    (severityGate config c.name a.severity && newer watermark a)

theorem pollState_unsettled {state : CategoryState} (hanchored : state.Anchored)
    {alerts : List UniFiAlert} (ha : AllAware alerts) (c : Category) :
    pollState config c.name state (unsettled config state.lastClearedAt c alerts) =
      pollState config c.name state (alerts.filter fun a => a.category == c.name) := by
  have hnamed : AllAware (alerts.filter fun a => a.category == c.name) := ha.filter _
  have hsplit : unsettled config state.lastClearedAt c alerts =
      (((alerts.filter fun a => a.category == c.name).filter (newer state.lastClearedAt)).filter
        fun a => severityGate config c.name a.severity) := by
    rw [unsettled, List.filter_filter, List.filter_filter]
    refine List.filter_congr fun a _ => ?_
    rw [Bool.and_comm, Bool.and_assoc]
  have hnewer : pollState config c.name state
      ((alerts.filter fun a => a.category == c.name).filter (newer state.lastClearedAt)) =
        pollState config c.name state (alerts.filter fun a => a.category == c.name) := by
    cases hw : state.lastClearedAt with
    | none => rw [List.filter_eq_self.mpr fun a _ => newer_none a]
    | some w =>
        refine pollState_filter (hanchored w hw) hnamed fun a _ hold => ?_
        rw [Bool.eq_false_iff, ne_eq, newer_some] at hold
        exact not_lt.mp hold
  rw [← hnewer, hsplit]
  exact pollState_gated (by simp [gated, List.filter_filter])

theorem applyPoll_grouped {coord : Coordinator} (hanchored : ∀ c, (coord.states c).Anchored)
    {alerts : List UniFiAlert} (ha : AllAware alerts) (c : Category) :
    (applyPoll config (Categorised.grouped alerts []) coord).coord.states c =
      if (coord.states c).enabled = true then
        (pollState config c.name (coord.states c)
          (unsettled config (coord.states c).lastClearedAt c alerts)).1
      else coord.states c := by
  have hmarks : AwareMarks coord := fun c => (hanchored c).awareMark
  rw [applyPoll_state (Categorised.nodup_grouped (by simp [Categorised.keys])) hmarks
    (Categorised.grouped_forall ha (by simp)), Categorised.alertsFor_grouped,
    pollState_unsettled (hanchored c) ha]
  rfl

end Coordinator

end UnifiAlerts
