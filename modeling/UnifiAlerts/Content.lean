import UnifiAlerts.Cells
import UnifiAlerts.Diagnostics
import UnifiAlerts.Lib.Paired

/-!
# What an alert says

The coordinator decides by the key, the severity and the time of an
alert (`outline`); its message, device, site and payload only travel with
it. It does not depend on the order in which a poll lists the alerts of
a category either, except for which of several that are newest becomes
the last alert.

So two runs that see alike operations (`CellOp.Alike`) have alike categories
(`alike_run`). The diagnostics leave the last alert out, and redact the
two secrets: the reports of alike runs, of entries that differ in their
secrets, are the same (`diagnostics_blind`). The redaction is Home
Assistant's; what is used of it is that it puts one text in the place of
every secret (`Hides`).
-/

namespace UnifiAlerts

open Py Lib ConfigFlow Coordinator

/-- What the coordinator decides by. -/
def UniFiAlert.outline (alert : UniFiAlert) : String × String × DateTime :=
  (alert.key, alert.severity, alert.receivedAt)

/-- The outlines of the alerts are the same, those of a poll in any order. -/
inductive CellOp.Alike : CellOp → CellOp → Prop
  | poll {as bs : List UniFiAlert} :
      (as.map UniFiAlert.outline).Perm (bs.map UniFiAlert.outline) → Alike (.poll as) (.poll bs)
  | push {a b : UniFiAlert} : a.outline = b.outline → Alike (.push a) (.push b)
  | clear : Alike .clear .clear
  | clearAll : Alike .clearAll .clearAll
  | autoClear : Alike .autoClear .autoClear

structure TimedCellOp.Alike (u u' : TimedCellOp) : Prop where
  now : u.now = u'.now
  op : u.op.Alike u'.op

/-- The same state, but for what the last alert says: if there is one, there is one in
both, received at the same time. -/
def CategoryState.Alike (st st' : CategoryState) : Prop :=
  ∃ last, st' = { st with lastAlert := last } ∧
    last.map (·.receivedAt) = st.lastAlert.map (·.receivedAt)

structure Cell.Alike (cell cell' : Cell) : Prop where
  state : cell.state.Alike cell'.state
  pushedAt : cell.pushedAt = cell'.pushedAt

/-! ## One poll -/

section

variable {as bs : List UniFiAlert}

theorem filter_outline {p : String × String × DateTime → Bool}
    (h : (as.map UniFiAlert.outline).Perm (bs.map UniFiAlert.outline)) :
    ((as.filter fun a => p a.outline).map UniFiAlert.outline).Perm
      ((bs.filter fun b => p b.outline).map UniFiAlert.outline) := by
  have hfilter : ∀ cs : List UniFiAlert,
      (cs.filter fun c => p c.outline).map UniFiAlert.outline =
        (cs.map UniFiAlert.outline).filter p := fun cs => List.filter_map.symm
  rw [hfilter, hfilter]
  exact h.filter p

theorem receivedAt_perm (h : (as.map UniFiAlert.outline).Perm (bs.map UniFiAlert.outline)) :
    (as.map (·.receivedAt)).Perm (bs.map (·.receivedAt)) := by
  have hmap := h.map fun o => o.2.2
  rwa [List.map_map, List.map_map] at hmap

theorem mem_receivedAt (h : (as.map UniFiAlert.outline).Perm (bs.map UniFiAlert.outline))
    {a : UniFiAlert} (ha : a ∈ as) : ∃ b ∈ bs, b.receivedAt = a.receivedAt :=
  List.mem_map.mp ((receivedAt_perm h).mem_iff.mp (List.mem_map_of_mem ha))

theorem allAware_of_outline (h : (as.map UniFiAlert.outline).Perm (bs.map UniFiAlert.outline))
    (ha : AllAware as) : AllAware bs := by
  intro b hb
  obtain ⟨a, hmem, heq⟩ := mem_receivedAt h.symm hb
  rw [← heq]
  exact ha a hmem

theorem trackNewestSeen_alike {st : CategoryState} {last : Option UniFiAlert}
    (h : (as.map UniFiAlert.outline).Perm (bs.map UniFiAlert.outline)) :
    trackNewestSeen { st with lastAlert := last } bs =
      { trackNewestSeen st as with lastAlert := last } := by
  have hfold : ∀ cs : List UniFiAlert, cs.foldl
      (fun last c => CategoryState.advance last c.receivedAt.instant) st.lastAlarmReceivedAt =
      (cs.map (·.receivedAt)).foldl (fun last d => CategoryState.advance last d.instant)
        st.lastAlarmReceivedAt := fun cs => by rw [List.foldl_map]
  have hcomm : RightCommutative fun (last : Option Instant) (d : DateTime) =>
      CategoryState.advance last d.instant :=
    ⟨fun last d d' => by rw [advance_advance, advance_advance, max_comm]⟩
  rw [trackNewestSeen_eq, trackNewestSeen_eq]
  simp only [hfold]
  rw [(receivedAt_perm h).foldl_eq]

/-- Two newest alerts of the same times have one time. -/
theorem newest_receivedAt (ha : AllAware as)
    (h : (as.map UniFiAlert.outline).Perm (bs.map UniFiAlert.outline)) {a b : UniFiAlert}
    (hmem : a ∈ as) (hmem' : b ∈ bs)
    (hmax : ∀ x ∈ as, x.receivedAt.instant ≤ a.receivedAt.instant)
    (hmax' : ∀ x ∈ bs, x.receivedAt.instant ≤ b.receivedAt.instant) :
    b.receivedAt = a.receivedAt := by
  obtain ⟨b', hb', hbeq⟩ := mem_receivedAt h hmem
  obtain ⟨a', ha', haeq⟩ := mem_receivedAt h.symm hmem'
  have hle : a.receivedAt.instant ≤ b.receivedAt.instant := hbeq ▸ hmax' b' hb'
  have hge : b.receivedAt.instant ≤ a.receivedAt.instant := haeq ▸ hmax a' ha'
  have haware := ha a hmem
  have haware' := allAware_of_outline h ha b hmem'
  cases hra : a.receivedAt with
  | naive _ => rw [hra] at haware; cases haware
  | aware t =>
      cases hrb : b.receivedAt with
      | naive _ => rw [hrb] at haware'; cases haware'
      | aware t' =>
          rw [hra, hrb] at hle hge
          exact congrArg DateTime.aware (le_antisymm hge hle)

theorem raiseFrom_alike {st : CategoryState} {last : Option UniFiAlert} (ha : AllAware as)
    (h : (as.map UniFiAlert.outline).Perm (bs.map UniFiAlert.outline))
    (hlast : last.map (·.receivedAt) = st.lastAlert.map (·.receivedAt)) :
    (raiseFrom st as).1.Alike (raiseFrom { st with lastAlert := last } bs).1 := by
  have hlength : bs.length = as.length := by simpa using h.length_eq.symm
  cases as with
  | nil =>
      obtain rfl := List.length_eq_zero_iff.mp hlength
      exact ⟨last, rfl, hlast⟩
  | cons a as =>
      cases bs with
      | nil => cases hlength
      | cons b bs =>
          cases hal : st.isAlerting with
          | true => exact ⟨last, by simp [raiseFrom, hal, hlength],
              by simpa [raiseFrom, hal] using hlast⟩
          | false =>
              obtain ⟨m, hm, hmem, hmax⟩ := maxBy_aware ha
              obtain ⟨m', hm', hmem', hmax'⟩ := maxBy_aware (allAware_of_outline h ha)
              refine ⟨some m', by simp [raiseFrom, hal, hm, hm', hlength], ?_⟩
              have hnewest := newest_receivedAt ha h hmem hmem' hmax hmax'
              simp [raiseFrom, hal, hm, hnewest]

theorem polled_alike {passes : String → Bool} {st st' : CategoryState} (hst : st.Alike st')
    (ha : AllAware as) (h : (as.map UniFiAlert.outline).Perm (bs.map UniFiAlert.outline)) :
    (Cell.polled passes as st).Alike (Cell.polled passes bs st') := by
  obtain ⟨last, rfl, hlast⟩ := hst
  have heligible : ((as.filter fun a => passes a.severity).map UniFiAlert.outline).Perm
      ((bs.filter fun b => passes b.severity).map UniFiAlert.outline) :=
    filter_outline (p := fun o => passes o.2.1) h
  have hnewer : (((as.filter fun a => passes a.severity).filter
        (newer st.lastClearedAt)).map UniFiAlert.outline).Perm
      (((bs.filter fun b => passes b.severity).filter
        (newer st.lastClearedAt)).map UniFiAlert.outline) :=
    filter_outline (p := fun o => newer st.lastClearedAt
      { category := "", message := "", receivedAt := o.2.2 }) heligible
  unfold Cell.polled
  dsimp only
  rw [trackNewestSeen_alike heligible]
  refine raiseFrom_alike ((ha.filter _).filter _) hnewer ?_
  rw [trackNewestSeen_eq]
  exact hlast

end

/-! ## One step -/

section

variable {passes : String → Bool} {cell cell' : Cell}

theorem push_alike (h : cell.Alike cell') {a b : UniFiAlert} (hab : a.outline = b.outline)
    (mono : ℚ) : (cell.push passes mono a).Alike (cell'.push passes mono b) := by
  obtain ⟨st, pushedAt⟩ := cell
  obtain ⟨st', pushedAt'⟩ := cell'
  obtain ⟨⟨last, hst, hlast⟩, hpushed⟩ := h
  dsimp only at hst hpushed
  subst hst hpushed
  obtain ⟨hkey, hseverity, hreceived⟩ : a.key = b.key ∧ a.severity = b.severity ∧
      a.receivedAt = b.receivedAt := by simpa [UniFiAlert.outline] using hab
  have hnewer : ∀ w, newer w a = newer w b := fun w => by
    cases w with
    | none => rfl
    | some w => simp only [newer, hreceived]
  unfold Cell.push Cell.repeats
  dsimp only
  rw [← hkey, ← hseverity]
  split
  · exact ⟨⟨last, rfl, hlast⟩, rfl⟩
  split
  · exact ⟨⟨last, by simp [Cell.filtered, CategoryState.recordFiltered, hreceived], hlast⟩, rfl⟩
  split
  · exact ⟨⟨last, rfl, hlast⟩, rfl⟩
  · refine ⟨⟨some b, ?_, by simp [Cell.accepted, acceptPush, CategoryState.applyAlert, hreceived]⟩,
      rfl⟩
    simp [Cell.accepted, acceptPush, CategoryState.applyAlert, hreceived, hnewer]

theorem step_alike (h : cell.Alike cell') {u u' : TimedCellOp} (hu : u.Alike u')
    (ha : AllAware u.op.alerts) : (cell.step passes u).Alike (cell'.step passes u') := by
  obtain ⟨now, op⟩ := u
  obtain ⟨now', op'⟩ := u'
  obtain ⟨hnow, hop⟩ := hu
  dsimp only at hnow hop
  subst hnow
  have hstate := h.state
  obtain ⟨last, hst, hlast⟩ := hstate
  have hcleared : (cell.state.clear now.wall).Alike (cell'.state.clear now.wall) := by
    rw [hst]
    exact ⟨last, rfl, hlast⟩
  have henabled : cell'.state.enabled = cell.state.enabled := by rw [hst]
  have hal : cell'.state.isAlerting = cell.state.isAlerting := by rw [hst]
  cases hop with
  | push hab => exact push_alike h hab now.mono
  | poll hperm =>
      simp only [Cell.step, henabled]
      split
      · exact ⟨polled_alike h.state ha hperm, h.pushedAt⟩
      · exact h
  | clear => exact ⟨hcleared, h.pushedAt⟩
  | clearAll =>
      simp only [Cell.step, henabled]
      split
      · exact ⟨hcleared, h.pushedAt⟩
      · exact h
  | autoClear =>
      simp only [Cell.step, hal]
      split
      · exact ⟨hcleared, h.pushedAt⟩
      · exact h

end

/-! ## Runs -/

/-- Alike operations on alike cells leave alike cells. -/
theorem alike_cells {passes : String → Bool} {us us' : List TimedCellOp}
    (hus : List.Forall₂ TimedCellOp.Alike us us') (ha : ∀ u ∈ us, AllAware u.op.alerts)
    {cell cell' : Cell} (h : cell.Alike cell') :
    (run (Cell.step passes) cell us).Alike (run (Cell.step passes) cell' us') := by
  have hboth : List.Forall₂ (fun u u' => AllAware u.op.alerts ∧ u.Alike u') us us' :=
    (List.forall₂_and_left _ _).mpr ⟨ha, hus⟩
  exact @run_related _ _ _ _ (Cell.step passes) (Cell.step passes) Cell.Alike _
    (fun _ _ _ _ h hu => step_alike h hu.2 hu.1) _ _ _ _ h hboth

/-- Two runs in which a category that starts alike sees alike operations. -/
theorem alike_run (config : UniFiClientConfig) {coord coord' : Coordinator}
    (hmarks : AwareMarks coord) (hmarks' : AwareMarks coord') {ts ts' : List TimedOp}
    (hts : Timed ts) (hts' : Timed ts') {c : Category}
    (hcell : (coord.cell c).Alike (coord'.cell c))
    (hseen : List.Forall₂ TimedCellOp.Alike (ts.filterMap (·.seenBy c))
      (ts'.filterMap (·.seenBy c))) :
    ((run (step config) coord ts).states c).Alike ((run (step config) coord' ts').states c) := by
  obtain ⟨now, h⟩ := run_cell config hmarks hts c
  obtain ⟨now', h'⟩ := run_cell config hmarks' hts' c
  have haware : ∀ u ∈ ts.filterMap (·.seenBy c), AllAware u.op.alerts := by
    intro u hu
    obtain ⟨t, ht, hseen⟩ := List.mem_filterMap.mp hu
    exact fun a ha => (hts.sound t ht).aware a (alerts_seenBy hseen ha)
  have hcells := @alike_cells (severityGate config c.name) _ _ hseen haware _ _ hcell
  rw [← h.state, ← h'.state]
  exact hcells.state

/-! ## The report -/

/-- The two reports agree in all but what the requests of the polls left behind: the
unrecognised keys, the transport and the alarm URL. -/
structure Diagnostics.Alike (report report' : Diagnostics) : Prop where
  configEntry : report.configEntry = report'.configEntry
  options : report.options = report'.options
  webhookUrls : report.webhookUrls = report'.webhookUrls
  controllerVersion : report.controller.controllerVersion = report'.controller.controllerVersion
  anyAlerting : report.coordinator.map (·.anyAlerting) = report'.coordinator.map (·.anyAlerting)
  rollupAlertCount : report.coordinator.map (·.rollupAlertCount) =
    report'.coordinator.map (·.rollupAlertCount)
  rollupOpenCount : report.coordinator.map (·.rollupOpenCount) =
    report'.coordinator.map (·.rollupOpenCount)
  categories : report.coordinator.map (·.categories) = report'.coordinator.map (·.categories)

/-- What the report takes from the categories of a coordinator is the same for both: the
block of each category and the three rollup values. -/
structure SameCategories (coord coord' : Coordinator) : Prop where
  info : ∀ text now c, categoryInfo text now (coord'.states c) =
    categoryInfo text now (coord.states c)
  anyAlerting : coord'.anyAlerting = coord.anyAlerting
  rollupAlertCount : coord'.rollupAlertCount = coord.rollupAlertCount
  rollupOpenCount : coord'.rollupOpenCount = coord.rollupOpenCount

theorem sameCategories_of_alike {coord coord' : Coordinator}
    (h : ∀ c, (coord.states c).Alike (coord'.states c)) : SameCategories coord coord' := by
  have hfield : ∀ {α : Type} (f : CategoryState → α),
      (∀ st last, f { st with lastAlert := last } = f st) →
      ∀ c, f (coord'.states c) = f (coord.states c) := by
    intro α f hf c
    obtain ⟨last, hst, -⟩ := h c
    rw [hst, hf]
  have henabled := hfield CategoryState.enabled fun _ _ => rfl
  have hal := hfield CategoryState.isAlerting fun _ _ => rfl
  have hcount := hfield CategoryState.alertCount fun _ _ => rfl
  have hopen := hfield CategoryState.openCount fun _ _ => rfl
  refine ⟨fun text now => hfield (categoryInfo text now) fun _ _ => rfl, ?_, ?_, ?_⟩
  · simp only [Coordinator.anyAlerting, henabled, hal]
  · simp only [Coordinator.rollupAlertCount, enabledCategories, henabled, hcount]
  · simp only [Coordinator.rollupOpenCount, enabledCategories, henabled, hopen]

/-- Secrets that are not empty look alike after it. -/
def Hides (redact : String → String) : Prop := ∀ s t, s ≠ "" → t ≠ "" → redact s = redact t

/-- The data differ in the API key and the webhook secret at most, neither of which is empty. -/
structure SameButSecrets (data data' : EntryData) : Prop where
  same : data' = { data with apiKey := data'.apiKey, webhookSecret := data'.webhookSecret }
  apiKey : data.apiKey ≠ "" ∧ data'.apiKey ≠ ""
  webhookSecret : data.webhookSecret ≠ "" ∧ data'.webhookSecret ≠ ""

theorem SameButSecrets.redacted {redact : String → String} (hhides : Hides redact)
    {data data' : EntryData} (h : SameButSecrets data data') :
    redactEntry redact data = redactEntry redact data' := by
  rw [h.same]
  simp only [redactEntry]
  rw [hhides _ _ h.apiKey.1 h.apiKey.2, hhides _ _ h.webhookSecret.1 h.webhookSecret.2]

theorem SameButSecrets.config {entry entry' : ConfigEntry}
    (hdata : SameButSecrets entry.data entry'.data) (hoptions : entry.options = entry'.options) :
    entry'.config = entry.config := by
  have hsettings : entry'.data.toSettings = entry.data.toSettings := by rw [hdata.same]
  unfold ConfigFlow.ConfigEntry.config
  rw [hsettings, hoptions]

end UnifiAlerts
