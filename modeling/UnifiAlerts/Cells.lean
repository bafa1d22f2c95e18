import UnifiAlerts.Lib.Observer
import UnifiAlerts.Grouping
import UnifiAlerts.PushDedup

/-!
# The coordinator as independent categories

All categories of an entry share one coordinator: one poll loop, which
an exception leaves for all of them, one map of recent pushes, which a
push of any category prunes, and one `async_clear_all`. The abstract
model below has none of that. A `Cell` is one category by itself, which
remembers for each key when it last accepted a push and forgets nothing.
It reads no configuration but the severities that pass its own gate, and
it sees of an operation what the operation says about its category
(`Op.seenBy`).

The coordinator is the product of its cells. At monotonic time `now` it
`Refines` the cell of each category: the states are the same, and from
then on the map and the cell suppress the same pushes of the category.
Each step keeps that, also a step the cell does not see (`Refines.step`,
`Refines.unseen`).
-/

namespace UnifiAlerts

open Py Lib

/-! ## The abstract model -/

structure Cell where
  state : CategoryState
  pushedAt : String → Option ℚ

/-- What an operation of the coordinator is to one category. -/
inductive CellOp
  | poll (alerts : List UniFiAlert)
  | push (alert : UniFiAlert)
  | clear
  | clearAll
  | autoClear

def CellOp.alerts : CellOp → List UniFiAlert
  | .poll alerts => alerts
  | .push alert => [alert]
  | _ => []

structure TimedCellOp where
  now : Reading
  op : CellOp

namespace Cell

/-- The state after a poll that found these alerts of the category. -/
def polled (passes : String → Bool) (alerts : List UniFiAlert) (state : CategoryState) :
    CategoryState :=
  let eligible := alerts.filter fun a => passes a.severity
  (Coordinator.raiseFrom (Coordinator.trackNewestSeen state eligible)
    (eligible.filter (Coordinator.newer state.lastClearedAt))).1

/-- The push repeats one that was accepted within the window. -/
def repeats (cell : Cell) (mono : ℚ) (alert : UniFiAlert) : Bool :=
  alert.key != "" && suppressed webhookDedupWindowSeconds mono cell.pushedAt alert.key

/-- The category after an accepted push. -/
def accepted (alert : UniFiAlert) (state : CategoryState) : CategoryState :=
  { Coordinator.acceptPush state alert with
    openCount := if Coordinator.newer state.lastClearedAt alert then state.openCount + 1
      else state.openCount }

/-- The category after a push below the minimum severity. -/
def filtered (alert : UniFiAlert) (state : CategoryState) : CategoryState :=
  { state.recordFiltered alert with lastWebhookAt := some alert.receivedAt }

def push (passes : String → Bool) (mono : ℚ) (alert : UniFiAlert) (cell : Cell) : Cell :=
  if cell.state.enabled = false then cell
  else if passes alert.severity = false then { cell with state := filtered alert cell.state }
  else if cell.repeats mono alert then cell
  else
    { state := accepted alert cell.state
      pushedAt := if alert.key = "" then cell.pushedAt
        else Function.update cell.pushedAt alert.key (some mono) }

def step (passes : String → Bool) (cell : Cell) (t : TimedCellOp) : Cell :=
  match t.op with
  | .poll alerts =>
    if cell.state.enabled then { cell with state := polled passes alerts cell.state } else cell
  | .push alert => cell.push passes t.now.mono alert
  | .clear => { cell with state := cell.state.clear t.now.wall }
  | .clearAll =>
    if cell.state.enabled then { cell with state := cell.state.clear t.now.wall } else cell
  | .autoClear =>
    if cell.state.isAlerting then { cell with state := cell.state.clear t.now.wall } else cell

end Cell

/-! ## What a category sees of an operation -/

namespace Op

def seenBy (c : Category) : Op → Option CellOp
  | .fetch _ => none
  | .poll categorised => some (.poll (categorised.alertsFor c))
  | .push category alert => if category = c.name then some (.push alert) else none
  | .clearCategory category => if category = c.name then some .clear else none
  | .clearAll => some .clearAll
  | .autoClear d => if d = c then some .autoClear else none

/-- A poll's result is a dictionary. -/
def Keyed : Op → Prop
  | .poll categorised => categorised.keys.Nodup
  | _ => True

/-- An operation that the comparison with the cells is about: aware times, and the groups
of a poll under distinct keys, as a dictionary has them. -/
structure Sound (op : Op) : Prop where
  aware : op.Aware
  keyed : op.Keyed

theorem Sound.push {category : String} {alert : UniFiAlert}
    (ha : alert.receivedAt.isAware = true) : (Op.push category alert).Sound :=
  ⟨fun a hmem => by rwa [List.mem_singleton.mp hmem], trivial⟩

end Op

def TimedOp.seenBy (c : Category) (t : TimedOp) : Option TimedCellOp :=
  (t.op.seenBy c).map (TimedCellOp.mk t.now)

/-- An operation on one category is seen by that category. -/
theorem seenBy_iff {p : Prop} [Decidable p] {op : CellOp} {now : Reading} {u : TimedCellOp} :
    (if p then some op else none).map (TimedCellOp.mk now) = some u ↔ p ∧ u = ⟨now, op⟩ := by
  split <;> simp [*, eq_comm]

theorem not_seenBy_iff {p : Prop} [Decidable p] {op : CellOp} {now : Reading} :
    (if p then some op else none).map (TimedCellOp.mk now) = none ↔ ¬p := by
  split <;> simp [*]

/-- A category sees alerts that the operation carries. -/
theorem alerts_seenBy {t : TimedOp} {c : Category} {u : TimedCellOp}
    (hseen : t.seenBy c = some u) : u.op.alerts ⊆ t.op.alerts := by
  obtain ⟨now, op⟩ := t
  cases op with
  | fetch net => cases hseen
  | poll categorised =>
      obtain rfl := Option.some.inj hseen
      exact Categorised.alertsFor_subset c categorised
  | push category alert =>
      obtain ⟨-, rfl⟩ := seenBy_iff.mp hseen
      exact List.Subset.refl _
  | clearCategory category =>
      obtain ⟨-, rfl⟩ := seenBy_iff.mp hseen
      exact List.nil_subset _
  | clearAll =>
      obtain rfl := Option.some.inj hseen
      exact List.nil_subset _
  | autoClear d =>
      obtain ⟨-, rfl⟩ := seenBy_iff.mp hseen
      exact List.nil_subset _

namespace Coordinator

def cell (coord : Coordinator) (c : Category) : Cell where
  state := coord.states c
  pushedAt key := coord.lastPushAt (c.name, key)

/-! ## The operations and one category -/

section

variable {config : UniFiClientConfig} {coord : Coordinator} {c : Category}

theorem polled_eq {alerts : List UniFiAlert} (hw : AwareMark (coord.states c).lastClearedAt)
    (ha : AllAware alerts) :
    (pollState config c.name (coord.states c) alerts).1 =
      Cell.polled (severityGate config c.name) alerts (coord.states c) := by
  rw [pollState_eq hw ha]
  rfl

/-- A push of the category, by the guards in their order. -/
theorem pushAlert_own (hmarks : AwareMarks coord) {alert : UniFiAlert}
    (ha : alert.receivedAt.isAware = true) (mono : ℚ) (c : Category) :
    (pushAlert config coord mono c.name alert).coord =
      if (coord.states c).enabled = false then coord
      else if severityGate config c.name alert.severity = false then
        coord.setState c (Cell.filtered alert (coord.states c))
      else if (coord.cell c).repeats mono alert then coord
      else Coordinator.setState
        { coord with
          lastPushAt := if alert.key = "" then coord.lastPushAt
            else recordAt webhookDedupWindowSeconds mono coord.lastPushAt (c.name, alert.key) }
        c (Cell.accepted alert (coord.states c)) := by
  have hrepeats : (coord.cell c).repeats mono alert = true ↔ alert.key ≠ "" ∧
      suppressed webhookDedupWindowSeconds mono coord.lastPushAt (c.name, alert.key) = true := by
    rw [Cell.repeats, Bool.and_eq_true, bne_iff_ne]
    rfl
  have hverdict := pushVerdict_eq config coord mono c.name alert
  rw [Category.ofName?_name] at hverdict
  dsimp only at hverdict
  by_cases hen : (coord.states c).enabled = false
  · rw [if_pos hen] at hverdict ⊢
    unfold pushAlert
    rw [hverdict]
  rw [if_neg hen] at hverdict ⊢
  by_cases hgate : severityGate config c.name alert.severity = false
  · rw [if_pos hgate] at hverdict ⊢
    unfold pushAlert
    rw [hverdict]
    rfl
  rw [if_neg hgate] at hverdict ⊢
  by_cases hrep : (coord.cell c).repeats mono alert = true
  · rw [if_pos (hrepeats.mp hrep)] at hverdict
    rw [if_pos hrep]
    unfold pushAlert
    rw [hverdict]
  · rw [if_neg fun h => hrep (hrepeats.mpr h)] at hverdict
    rw [if_neg hrep]
    have hmap : (if alert.key != "" then
        recordAt webhookDedupWindowSeconds mono coord.lastPushAt (c.name, alert.key)
        else coord.lastPushAt) = if alert.key = "" then coord.lastPushAt
        else recordAt webhookDedupWindowSeconds mono coord.lastPushAt (c.name, alert.key) := by
      by_cases hkey : alert.key = "" <;> simp [hkey]
    unfold pushAlert Cell.accepted
    rw [hverdict]
    dsimp only
    rw [hmap]
    cases hw : (coord.states c).lastClearedAt with
    | none =>
        have hlast : (acceptPush (coord.states c) alert).lastClearedAt = none := hw
        simp only [hlast]
        rfl
    | some w =>
        have hlast : (acceptPush (coord.states c) alert).lastClearedAt = some w := hw
        have hgt := @DateTime.gt_eq alert.receivedAt w (by rw [ha, hmarks c w hw])
        simp only [hlast, hgt]
        rfl

/-- A push that is filtered is of the category that filters it. -/
theorem pushVerdict_filtered {mono : ℚ} {category : String} {alert : UniFiAlert} {d : Category}
    (h : pushVerdict config coord mono category alert = .ok (.filtered d)) : d.name = category := by
  rw [pushVerdict_eq] at h
  cases hd : Category.ofName? category with
  | none =>
      rw [hd] at h
      cases h
  | some d' =>
      rw [hd] at h
      dsimp only at h
      split at h
      · cases h
      split at h
      · cases h
        exact Category.ofName?_eq_some.mp hd
      split at h <;> cases h

/-- A push under another name leaves the category and its keys alone. -/
theorem pushAlert_other (mono : ℚ) {category : String} (alert : UniFiAlert)
    (hne : category ≠ c.name) :
    (pushAlert config coord mono category alert).coord.states c = coord.states c ∧
      ((pushAlert config coord mono category alert).coord.lastPushAt = coord.lastPushAt ∨
        (pushAlert config coord mono category alert).coord.lastPushAt =
          recordAt webhookDedupWindowSeconds mono coord.lastPushAt (category, alert.key)) := by
  have hother : ∀ d : Category, d.name = category → c ≠ d := fun d hd hcd =>
    hne (by rw [hcd, hd])
  cases hverdict : pushVerdict config coord mono category alert with
  | error e =>
      unfold pushAlert
      rw [hverdict]
      exact ⟨rfl, Or.inl rfl⟩
  | ok v =>
      cases v with
      | filtered d =>
          unfold pushAlert
          rw [hverdict]
          exact ⟨by simp [hother d (pushVerdict_filtered hverdict)], Or.inl rfl⟩
      | accepted d =>
          have hd := Category.ofName?_eq_some.mp (pushVerdict_accepted_iff.mp hverdict).1
          obtain ⟨openCount, hcoord⟩ := pushAlert_of_accepted hverdict
          rw [hcoord]
          refine ⟨by simp [hother d hd], ?_⟩
          by_cases hkey : alert.key = ""
          · exact Or.inl (by simp [hkey])
          · exact Or.inr (by simp [hkey])
      | _ =>
          unfold pushAlert
          rw [hverdict]
          exact ⟨rfl, Or.inl rfl⟩

end

/-! ## Refinement -/

/-- The coordinator and the cell of category `c`, at monotonic time `now`: the state of
the category is that of the cell, and from then on the shared map and the memory of the
cell take the same pushes of the category for repetitions. -/
structure Refines (c : Category) (now : ℚ) (coord : Coordinator) (cell : Cell) : Prop where
  marks : AwareMarks coord
  state : cell.state = coord.states c
  suppresses : ∀ key t, now ≤ t → suppressed webhookDedupWindowSeconds t cell.pushedAt key =
    suppressed webhookDedupWindowSeconds t coord.lastPushAt (c.name, key)

namespace Refines

variable {config : UniFiClientConfig} {c : Category} {now : ℚ} {coord : Coordinator} {cell : Cell}

theorem start {coord : Coordinator} (hmarks : AwareMarks coord) (c : Category) (now : ℚ) :
    Refines c now coord (coord.cell c) := ⟨hmarks, rfl, fun _ _ _ => rfl⟩

theorem later {now' : ℚ} (h : Refines c now coord cell) (hle : now ≤ now') :
    Refines c now' coord cell :=
  ⟨h.marks, h.state, fun key t ht => h.suppresses key t (hle.trans ht)⟩

theorem repeats_eq (h : Refines c now coord cell) (alert : UniFiAlert) :
    cell.repeats now alert = (coord.cell c).repeats now alert := by
  rw [Cell.repeats, h.suppresses _ _ le_rfl]
  rfl

theorem push (h : Refines c now coord cell) {alert : UniFiAlert}
    (ha : alert.receivedAt.isAware = true) :
    Refines c now (pushAlert config coord now c.name alert).coord
      (cell.push (severityGate config c.name) now alert) := by
  have hmarks := h.marks.step config ⟨⟨0, now⟩, .push c.name alert⟩
  simp only [step, turn] at hmarks
  refine ⟨hmarks, ?_, fun key t ht => ?_⟩
  · rw [pushAlert_own h.marks ha, Cell.push, h.state, h.repeats_eq]
    split
    · exact h.state
    split
    · simp
    split
    · exact h.state
    · simp
  · rw [pushAlert_own h.marks ha, Cell.push, h.state, h.repeats_eq]
    split
    · exact h.suppresses key t ht
    split
    · exact h.suppresses key t ht
    split
    · exact h.suppresses key t ht
    · by_cases hkey : alert.key = ""
      · simpa only [hkey, if_true, setState_lastPushAt] using h.suppresses key t ht
      · simp only [hkey, if_false, setState_lastPushAt]
        by_cases hsame : key = alert.key
        · subst hsame
          simp [suppressed, recordAt]
        · -- the push records its own key and prunes the others
          rw [suppressed_recordAt_of_ne (by simpa using hsame) ht, ← h.suppresses key t ht]
          simp [suppressed, hsame]

/-- A step that the category sees is a step of its cell. -/
theorem step {t : TimedOp} (h : Refines c t.now.mono coord cell) (ht : t.op.Sound)
    {u : TimedCellOp} (hseen : t.seenBy c = some u) :
    Refines c t.now.mono (Coordinator.step config coord t)
      (cell.step (severityGate config c.name) u) := by
  have hmarks := h.marks.step config t
  -- what is no push neither records nor prunes
  have hquiet : (∀ category alert, t.op ≠ .push category alert) →
      (cell.step (severityGate config c.name) u).pushedAt = cell.pushedAt →
      (cell.step (severityGate config c.name) u).state =
        (Coordinator.step config coord t).states c →
      Refines c t.now.mono (Coordinator.step config coord t)
        (cell.step (severityGate config c.name) u) := by
    intro hpush hkept hstate
    refine ⟨hmarks, hstate, fun key t' ht' => ?_⟩
    rw [hkept, step_lastPushAt_of_not_push hpush]
    exact h.suppresses key t' ht'
  obtain ⟨now, op⟩ := t
  cases op with
  | fetch net => cases hseen
  | poll categorised =>
      obtain rfl := Option.some.inj hseen
      have hpolled := @applyPoll_state config categorised coord ht.keyed h.marks ht.aware c
      refine hquiet (by simp) ?_ ?_
      · simp only [Cell.step]
        split <;> rfl
      · simp only [Cell.step, Coordinator.step, turn, h.state]
        rw [hpolled]
        split
        · exact (polled_eq (h.marks c) fun a ha =>
            ht.aware a (Categorised.alertsFor_subset c categorised ha)).symm
        · exact h.state
  | push category alert =>
      obtain ⟨rfl, rfl⟩ := seenBy_iff.mp hseen
      exact h.push (ht.aware alert (List.mem_singleton.mpr rfl))
  | clearCategory category =>
      obtain ⟨rfl, rfl⟩ := seenBy_iff.mp hseen
      refine hquiet (by simp) rfl ?_
      simp only [Cell.step, Coordinator.step, turn, clearCategory, Category.ofName?_name,
        setState_states, if_pos, h.state]
  | clearAll =>
      obtain rfl := Option.some.inj hseen
      refine hquiet (by simp) ?_ ?_
      · simp only [Cell.step]
        split <;> rfl
      · simp only [Cell.step, Coordinator.step, turn, clearAll, h.state]
        split
        · rfl
        · exact h.state
  | autoClear d =>
      obtain ⟨rfl, rfl⟩ := seenBy_iff.mp hseen
      refine hquiet (by simp) ?_ ?_
      · simp only [Cell.step]
        split <;> rfl
      · simp only [Cell.step, Coordinator.step, turn, autoClear, h.state]
        split
        · simp
        · exact h.state

/-- A step that the category does not see leaves its cell alone. -/
theorem unseen {t : TimedOp} (h : Refines c t.now.mono coord cell) (ht : t.op.Sound)
    (hunseen : t.seenBy c = none) :
    Refines c t.now.mono (Coordinator.step config coord t) cell := by
  have hmarks := h.marks.step config t
  have hquiet : (∀ category alert, t.op ≠ .push category alert) →
      (Coordinator.step config coord t).states c = coord.states c →
      Refines c t.now.mono (Coordinator.step config coord t) cell := by
    intro hpush hstate
    refine ⟨hmarks, h.state.trans hstate.symm, fun key t' ht' => ?_⟩
    rw [step_lastPushAt_of_not_push hpush]
    exact h.suppresses key t' ht'
  obtain ⟨now, op⟩ := t
  cases op with
  | fetch net =>
      refine hquiet (by simp) ?_
      rw [Coordinator.step, turn, fetch_states]
  | poll categorised => cases hunseen
  | push category alert =>
      have hname : category ≠ c.name := not_seenBy_iff.mp hunseen
      obtain ⟨hstate, hmap⟩ := @pushAlert_other config coord c now.mono category alert hname
      refine ⟨hmarks, h.state.trans hstate.symm, fun key t' ht' => ?_⟩
      rw [h.suppresses key t' ht', Coordinator.step, turn]
      rcases hmap with hmap | hmap
      · rw [hmap]
      · rw [hmap, suppressed_recordAt_of_ne (fun heq => hname (Prod.mk.inj heq).1.symm) ht']
  | clearCategory category =>
      have hname : category ≠ c.name := not_seenBy_iff.mp hunseen
      refine hquiet (by simp) ?_
      simp only [Coordinator.step, turn, clearCategory]
      cases hd : Category.ofName? category with
      | none => rfl
      | some d =>
          have hcd : c ≠ d := fun h =>
            hname ((Category.ofName?_eq_some.mp hd).symm.trans (by rw [h]))
          simp [hcd]
  | clearAll => cases hunseen
  | autoClear d =>
      have hname : ¬d = c := not_seenBy_iff.mp hunseen
      refine hquiet (by simp) ?_
      simp only [Coordinator.step, turn, autoClear]
      split
      · simp [Ne.symm hname]
      · rfl

end Refines

/-- The operations of the run, as the readings of a nondecreasing monotonic clock. -/
structure Timed (ts : List TimedOp) : Prop where
  sound : ∀ t ∈ ts, t.op.Sound
  clock : ts.Pairwise fun t u => t.now.mono ≤ u.now.mono

theorem run_cell (config : UniFiClientConfig) {coord : Coordinator} (hmarks : AwareMarks coord)
    {ts : List TimedOp} (hts : Timed ts) (c : Category) :
    ∃ now, Refines c now (run (step config) coord ts)
      (run (Cell.step (severityGate config c.name)) (coord.cell c) (ts.filterMap (·.seenBy c))) :=
  run_view (P := fun t : TimedOp => t.op.Sound) (R := Refines c) .later
    (fun _ _ _ _ h ht hseen => h.step ht hseen) (fun _ _ _ h ht hunseen => h.unseen ht hunseen)
    (fun now => .start hmarks c now) hts.clock hts.sound

end Coordinator

open Coordinator

/-- The coordinator is the product of its categories: in every interleaving each category
has the state of its cell, which saw its own part of the operations and nothing else. -/
theorem coordinator_refines_cells (config : UniFiClientConfig) {coord : Coordinator}
    (hmarks : AwareMarks coord) {ts : List TimedOp} (hts : Timed ts) (c : Category) :
    (run (step config) coord ts).states c =
      (run (Cell.step (severityGate config c.name)) (coord.cell c)
        (ts.filterMap (·.seenBy c))).state := by
  obtain ⟨now, h⟩ := run_cell config hmarks hts c
  exact h.state.symm

/-- The push of another category prunes the key of the first push, and the third is
accepted in either case. -/
theorem coordinator_refines_cells_pruned :
    let alert (key : String) : UniFiAlert :=
      { category := "power", message := "PoE lost", receivedAt := .aware 0, key }
    let ts : List TimedOp := [⟨⟨0, 0⟩, .push "power" (alert "EVT_SW_PoE")⟩,
      ⟨⟨0, 6⟩, .push "network_wan" (alert "EVT_GW_WAN")⟩,
      ⟨⟨0, 7⟩, .push "power" (alert "EVT_SW_PoE")⟩]
    let cell := run (Cell.step (severityGate {} "power")) ((Coordinator.fresh {}).cell .power)
      (ts.filterMap (·.seenBy .power))
    (run (step {}) (.fresh {}) ts).states .power = cell.state ∧ cell.state.alertCount = 2 ∧
      cell.pushedAt "EVT_SW_PoE" = some 7 := by
  intro alert ts cell
  have hts : Timed ts := by
    constructor
    · simp only [ts, alert, List.mem_cons, List.not_mem_nil, or_false, forall_eq_or_imp, forall_eq]
      exact ⟨.push rfl, .push rfl, .push rfl⟩
    · simp only [ts]
      norm_num
  exact ⟨coordinator_refines_cells {} (awareMarks_fresh {}) hts .power, by decide +kernel,
    by decide +kernel⟩

/-- Two entries whose category `c` starts alike, with the same minimum severity, and sees
the same operations, end alike for `c`: whatever other categories are enabled or filtered,
and whatever happens to them. -/
theorem category_undisturbed {config config' : UniFiClientConfig} {coord coord' : Coordinator}
    (hmarks : AwareMarks coord) (hmarks' : AwareMarks coord') {ts ts' : List TimedOp}
    (hts : Timed ts) (hts' : Timed ts') {c : Category}
    (hmin : getEffectiveMinSeverity config' c.name = getEffectiveMinSeverity config c.name)
    (hcell : coord'.cell c = coord.cell c)
    (hseen : ts'.filterMap (·.seenBy c) = ts.filterMap (·.seenBy c)) :
    (run (step config') coord' ts').states c = (run (step config) coord ts).states c := by
  obtain ⟨now, h⟩ := run_cell config hmarks hts c
  obtain ⟨now', h'⟩ := run_cell config' hmarks' hts' c
  have hgate : severityGate config' c.name = severityGate config c.name := by
    funext severity
    rw [severityGate, severityGate, hmin]
  rw [← h.state, ← h'.state, hgate, hcell, hseen]

/-- An entry with the power category alone, and one where the WAN category is filtered,
pushed and cleared next to it. -/
theorem category_undisturbed_by_wan :
    let alert : UniFiAlert := { category := "power", message := "PoE lost", receivedAt := .aware 0 }
    let wan : UniFiClientConfig := { minSeverity := some (.obj [("network_wan", .str "Low")]) }
    let power : UniFiClientConfig := { enabledCategories := some ["power"] }
    let push : TimedOp := ⟨⟨0, 1⟩, .push "power" alert⟩
    let ts : List TimedOp := [⟨⟨0, 0⟩, .push "network_wan" alert⟩, push,
      ⟨⟨0, 2⟩, .clearCategory "network_wan"⟩]
    (run (step wan) (.fresh wan) ts).states .power =
      (run (step power) (.fresh power) [push]).states .power := by
  intro alert wan power push ts
  have hpush : push.op.Sound := .push rfl
  have hts : Timed ts := by
    constructor
    · simp only [ts, List.mem_cons, List.not_mem_nil, or_false, forall_eq_or_imp, forall_eq]
      exact ⟨.push rfl, hpush, fun a ha => absurd ha List.not_mem_nil, trivial⟩
    · simp only [ts, push]
      norm_num
  have hpower : Timed [push] := ⟨by simpa using hpush, by simp⟩
  exact category_undisturbed (awareMarks_fresh _) (awareMarks_fresh _) hpower hts
    (by decide +kernel)
    rfl rfl

end UnifiAlerts
