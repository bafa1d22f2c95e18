import UnifiAlerts.Awareness
import UnifiAlerts.Cells
import UnifiAlerts.Entities
import UnifiAlerts.Watermark

/-!
# What the entities show

The availability, state and attributes of the entities of an entry, as
functions of its coordinator. Each entity reads the coordinator by
itself: the rollup sensors do not ask the sensors of the categories. They
agree nevertheless (`Coherent`), in every state that a run with aware
times reaches, and no property raises (`views_coherent`).

What the agreement rests on is kept category by category (`Presentable`),
so it is proved for a cell and holds of the coordinator as the product
of its cells.

`Coherent` compares entities and never looks at the coordinator behind
them, except to say which last alert is the newest: a rollup is on
exactly when some available category is, its totals are the sums over
the available categories, and it shows the last alert of one of them.
Restarts are part of the runs, so the states include what a store brings
back: times that were written with an offset, and texts read by the
decoder of the store.
-/

namespace UnifiAlerts

open Py Lib Coordinator

/-! ## What a category keeps -/

/-- An alert whose last time, category and message the entities can show. -/
structure Showable (cat : String) (alert : UniFiAlert) : Prop where
  aware : alert.receivedAt.isAware = true
  category : alert.textValue "category" alert.category = .str cat
  message : ∃ m, alert.textValue "message" alert.message = .str m ∧ m.length ≤ 255

/-- What a category keeps for its entities: an aware webhook time, an alert to show
whenever it alerts, and only while it is enabled. -/
structure Presentable (c : Category) (state : CategoryState) : Prop where
  webhook : ∀ d, state.lastWebhookAt = some d → d.isAware = true
  alerting : state.isAlerting = true → state.enabled = true ∧ state.lastAlert.isSome
  last : ∀ a, state.lastAlert = some a → Showable c.name a

namespace Presentable

variable {c : Category} {state : CategoryState}

theorem clear (h : Presentable c state) (now : Instant) : Presentable c (state.clear now) :=
  ⟨h.webhook, fun hal => (nomatch hal), h.last⟩

theorem polled (h : Presentable c state) (hen : state.enabled = true) {alerts : List UniFiAlert}
    (halerts : ∀ a ∈ alerts, Showable c.name a) (passes : String → Bool) :
    Presentable c (Cell.polled passes alerts state) := by
  have haware : AllAware alerts := fun a ha => (halerts a ha).aware
  unfold Cell.polled
  dsimp only
  rw [trackNewestSeen_eq]
  rcases raiseFrom_aware { state with
      lastAlarmReceivedAt := (alerts.filter fun a => passes a.severity).foldl
        (fun last a => CategoryState.advance last a.receivedAt.instant) state.lastAlarmReceivedAt }
      ((haware.filter _).filter (newer state.lastClearedAt)) with
    ⟨-, heq⟩ | ⟨-, m, hm, heq⟩
  · rw [heq]
    exact ⟨h.webhook, h.alerting, h.last⟩
  · rw [heq]
    have hmem : m ∈ alerts := (List.mem_filter.mp (List.mem_filter.mp hm).1).1
    exact ⟨h.webhook, fun _ => ⟨hen, rfl⟩, fun a ha => Option.some.inj ha ▸ halerts m hmem⟩

theorem step {cell : Cell} (h : Presentable c cell.state) {u : TimedCellOp}
    (halerts : ∀ a ∈ u.op.alerts, Showable c.name a) (passes : String → Bool) :
    Presentable c (cell.step passes u).state := by
  obtain ⟨now, op⟩ := u
  cases op with
  | poll alerts =>
      simp only [Cell.step]
      split
      · rename_i hen
        exact h.polled hen halerts passes
      · exact h
  | push alert =>
      have halert := halerts alert (List.mem_singleton.mpr rfl)
      have hreceived : ∀ d, some alert.receivedAt = some d → d.isAware = true :=
        fun d hd => Option.some.inj hd ▸ halert.aware
      simp only [Cell.step, Cell.push]
      split
      · exact h
      rename_i hen
      split
      · exact ⟨hreceived, h.alerting, h.last⟩
      split
      · exact h
      · exact ⟨hreceived, fun _ => ⟨Bool.not_eq_false _ ▸ hen, rfl⟩,
          fun a ha => Option.some.inj ha ▸ halert⟩
  | clear => exact h.clear now.wall
  | clearAll =>
      simp only [Cell.step]
      split
      · exact h.clear now.wall
      · exact h
  | autoClear =>
      simp only [Cell.step]
      split
      · exact h.clear now.wall
      · exact h

end Presentable

theorem presentable_step {config : UniFiClientConfig} {coord : Coordinator}
    (hmarks : coord.AwareMarks) (h : ∀ c, Presentable c (coord.states c)) {t : TimedOp}
    (ht : t.op.Sound) {c : Category}
    (hseen : ∀ u, t.seenBy c = some u → ∀ a ∈ u.op.alerts, Showable c.name a) :
    Presentable c ((Coordinator.step config coord t).states c) := by
  have hrefines := Refines.start hmarks c t.now.mono
  cases hsees : t.seenBy c with
  | none =>
      have hrefines' := @Refines.unseen config c coord _ t hrefines ht hsees
      exact hrefines'.state ▸ h c
  | some u =>
      have hrefines' := @Refines.step config c coord _ t hrefines ht u hsees
      rw [← hrefines'.state]
      exact Presentable.step (h c) (hseen u hsees) _

/-! ### Raw inputs -/

/-- Every alert is built as text, its message cut to length. -/
theorem madeFrom_showable {text : Text} {now : Instant} {input : Input} {a : UniFiAlert}
    (hoffset : ∀ record ∈ input.records, ¬Offsetless text record)
    (ha : input.MadeFrom text now a) : Showable a.category a := by
  have hbuilt : ∀ {a : UniFiAlert} {s : String}, a.receivedAt.isAware = true → a.untyped = [] →
      a.message = slice s 255 → Showable a.category a := by
    intro a s haware huntyped hmessage
    refine ⟨haware, ?_, a.message, ?_, ?_⟩
    · simp [UniFiAlert.textValue, UniFiAlert.textField, huntyped]
    · simp [UniFiAlert.textValue, UniFiAlert.textField, huntyped]
    · rw [hmessage, ← String.length_toList, slice_toList]
      exact List.length_take_le _ _
  cases input with
  | legacy records =>
      obtain ⟨record, hr, category, ha⟩ := ha
      have haware := fromApiAlarm_aware_iff.mpr (hoffset record hr) category a ha
      obtain ⟨receivedAt, -, ha⟩ := bind_eq_ok.mp ha
      obtain rfl := Except.ok.inj ha
      exact hbuilt haware rfl rfl
  | systemLog events =>
      obtain ⟨event, -, seen, seen', ha⟩ := ha
      have haware := fromSystemLogEvent_aware ha
      obtain ⟨message, -, ha⟩ := bind_eq_ok.mp ha
      obtain ⟨keyCategory, -, ha⟩ := bind_eq_ok.mp ha
      obtain ⟨enumCategory, -, ha⟩ := bind_eq_ok.mp ha
      obtain ⟨rfl, -⟩ := Prod.mk.inj (Except.ok.inj ha)
      exact hbuilt haware rfl rfl
  | webhook category payload =>
      have haware := fromWebhookPayload_aware ha
      obtain ⟨p, -, ha⟩ := bind_eq_ok.mp ha
      obtain rfl := Except.ok.inj ha
      exact hbuilt haware rfl rfl
  | _ => exact ha.elim

/-- What a conversion polls is grouped by the category of the alerts. -/
theorem convert_poll {text : Text} {now : Instant} {coord coord' : Coordinator} {input : Input}
    {categorised : Categorised}
    (h : input.convert text now coord = (coord', some (.poll categorised))) :
    ∃ alerts, categorised = Categorised.grouped alerts [] := by
  cases input with
  | legacy records =>
      have hresult := categoriseLoop_result (Input.offline text now) records [] coord.client
      simp only [Input.convert, Coordinator.onClient, Comp.zoom] at h
      rcases hx : categoriseLoop (Input.offline text now) records [] coord.client with ⟨r, s⟩
      rw [hx] at h hresult
      cases r with
      | error e => cases (Prod.mk.inj h).2
      | ok result =>
          obtain rfl := Op.poll.inj (Option.some.inj (Prod.mk.inj h).2)
          dsimp only at hresult
          cases hall : records.mapM (recordAlert (Input.offline text now).text
              (Input.offline text now).now) with
          | error e =>
              rw [hall] at hresult
              cases hresult
          | ok found =>
              rw [hall] at hresult
              exact ⟨found.reduceOption, Except.ok.inj hresult⟩
  | systemLog events =>
      have hresult := groupEvents_result (Input.offline text now) events [] coord
      simp only [Input.convert] at h
      rcases hx : Coordinator.groupEvents (Input.offline text now) events [] coord with ⟨r, s⟩
      rw [hx] at h hresult
      cases r with
      | error e => cases (Prod.mk.inj h).2
      | ok result =>
          obtain rfl := Op.poll.inj (Option.some.inj (Prod.mk.inj h).2)
          dsimp only at hresult
          cases hall : eventAlerts (Input.offline text now).text (Input.offline text now).now
              events with
          | error e =>
              rw [hall] at hresult
              cases hresult
          | ok found =>
              rw [hall] at hresult
              exact ⟨found, Except.ok.inj hresult⟩
  | webhook category payload =>
      simp only [Input.convert] at h
      split at h <;> cases (Prod.mk.inj h).2
  | _ => cases (Prod.mk.inj h).2

theorem convert_push {text : Text} {now : Instant} {coord coord' : Coordinator} {input : Input}
    {category : String} {alert : UniFiAlert}
    (h : input.convert text now coord = (coord', some (.push category alert))) :
    alert.category = category := by
  cases input with
  | webhook category' payload =>
      simp only [Input.convert] at h
      split at h
      · rename_i built hbuilt
        obtain ⟨rfl, rfl⟩ := Op.push.inj (Option.some.inj (Prod.mk.inj h).2)
        obtain ⟨p, -, hbuilt⟩ := bind_eq_ok.mp hbuilt
        obtain rfl := Except.ok.inj hbuilt
        rfl
      · cases (Prod.mk.inj h).2
  | legacy records =>
      simp only [Input.convert] at h
      split at h <;> cases (Prod.mk.inj h).2
  | systemLog events =>
      simp only [Input.convert] at h
      split at h <;> cases (Prod.mk.inj h).2
  | _ => cases (Prod.mk.inj h).2

section

variable {text : Text} {now : Instant} {coord coord' : Coordinator} {input : Input} {op : Op}

theorem convert_sound (h : input.convert text now coord = (coord', some op))
    (haware : ∀ a ∈ input.constructed text now coord, a.receivedAt.isAware = true) : op.Sound := by
  refine ⟨Input.convert_alerts h haware, ?_⟩
  cases op with
  | poll categorised =>
      obtain ⟨alerts, rfl⟩ := convert_poll h
      exact Categorised.nodup_grouped (by simp [Categorised.keys])
  | _ => trivial

/-- A category sees the alerts of its own name only. -/
theorem convert_filed (h : input.convert text now coord = (coord', some op)) {now' : Reading}
    {c : Category} {u : TimedCellOp} (hsees : (TimedOp.mk now' op).seenBy c = some u) :
    ∀ a ∈ u.op.alerts, a.category = c.name := by
  cases op with
  | fetch net => cases hsees
  | poll categorised =>
      obtain rfl := Option.some.inj hsees
      obtain ⟨alerts, rfl⟩ := convert_poll h
      intro a ha
      simp only [CellOp.alerts, Categorised.alertsFor_grouped, List.mem_append,
        List.mem_filter] at ha
      rcases ha with ha | ⟨-, ha⟩
      · cases ha
      · simpa using ha
  | push category alert =>
      obtain ⟨rfl, rfl⟩ := seenBy_iff.mp hsees
      intro a ha
      obtain rfl := List.mem_singleton.mp ha
      exact convert_push h
  | clearCategory category =>
      obtain ⟨-, rfl⟩ := seenBy_iff.mp hsees
      exact fun a ha => absurd ha List.not_mem_nil
  | clearAll =>
      obtain rfl := Option.some.inj hsees
      exact fun a ha => absurd ha List.not_mem_nil
  | autoClear d =>
      obtain ⟨-, rfl⟩ := seenBy_iff.mp hsees
      exact fun a ha => absurd ha List.not_mem_nil

end

/-! ### Restarts -/

/-- A field stored as text is read back as it was. -/
theorem textValue_untypedFields {data : JsonObj} {name value : String} (names : List String)
    (h : data.getD name (.str "") = .str value) :
    ((UniFiAlert.untypedFields data names).lookup name).getD
      (.str (UniFiAlert.readText data name)) = .str value := by
  have hnone : (UniFiAlert.untypedFields data names).lookup name = none := by
    rw [List.lookup_eq_none_iff]
    rintro ⟨name', v⟩ hmem
    obtain ⟨name'', -, heq⟩ := List.mem_filterMap.mp hmem
    by_contra hsame
    obtain rfl : name = name' := by simpa using hsame
    split at heq
    · cases heq
    · rename_i hnot
      obtain ⟨rfl, -⟩ := Prod.mk.inj (Option.some.inj heq)
      exact hnot value h
  rw [hnone, UniFiAlert.readText, h]
  rfl

/-- An alert comes back from the store as showable as it was. -/
theorem Showable.fromDict (text : Text) (now : Instant) {alert alert' : UniFiAlert} {cat : String}
    (hshow : Showable cat alert)
    (h : UniFiAlert.fromDict text now (alert.toDict text) = .ok alert') : Showable cat alert' := by
  obtain ⟨m, hm, hlength⟩ := hshow.message
  obtain ⟨data, hdata, h⟩ := bind_eq_ok.mp h
  have hcategory : data.getD "category" (.str "") = .str cat := by
    rw [← Except.ok.inj hdata]
    exact hshow.category
  have hmessage : data.getD "message" (.str "") = .str m := by
    rw [← Except.ok.inj hdata]
    exact hm
  have hreceived : data.getD "received_at" (.str "") = .str (text.isoformat alert.receivedAt) := by
    rw [← Except.ok.inj hdata]
    rfl
  obtain rfl := Except.ok.inj h
  refine ⟨?_, textValue_untypedFields _ hcategory, m, textValue_untypedFields _ hmessage, hlength⟩
  dsimp only
  rw [hreceived]
  simp only [text.fromisoformat_isoformat, Option.getD_some]
  exact hshow.aware

theorem Presentable.restored {c : Category} {state : CategoryState} (h : Presentable c state)
    (text : Text) (now : Instant) (config : UniFiClientConfig) :
    Presentable c (Coordinator.restored text now config c state) := by
  refine ⟨h.webhook, fun hal => (nomatch hal), fun b hb => ?_⟩
  obtain ⟨a, ha, hb⟩ := Option.bind_eq_some_iff.mp hb
  refine (h.last a ha).fromDict text now ?_
  cases hdict : UniFiAlert.fromDict text now (a.toDict text) with
  | error e =>
      rw [hdict] at hb
      cases hb
  | ok b' =>
      rw [hdict] at hb
      exact congrArg Except.ok (Option.some.inj hb)

/-! ### Every run -/

/-- What arrives at an installation, as it arrives. -/
inductive RawOp
  | input (t : TimedInput)
  | restart (now : Instant) (config : UniFiClientConfig)

namespace Lifetime

def rawStep (text : Text) (s : Lifetime) : RawOp → Lifetime
  | .input t => { s with coord := inputStep text s.config s.coord t }
  | .restart now config => s.step text (.restart now config)

end Lifetime

/-- No record of it is offsetless. -/
def RawOp.Offset (text : Text) : RawOp → Prop
  | .input t => ∀ record ∈ t.input.records, ¬Offsetless text record
  | .restart _ _ => True

namespace Lifetime

/-- What holds of an installation after any run: aware watermarks, and every category
presentable. -/
structure Inv (s : Lifetime) : Prop where
  marks : s.coord.AwareMarks
  presentable : ∀ c, Presentable c (s.coord.states c)

theorem inv_fresh (config : UniFiClientConfig) : Inv (.fresh config) :=
  ⟨awareMarks_fresh config, fun _ =>
    ⟨fun _ h => (nomatch h), fun h => (nomatch h), fun _ h => (nomatch h)⟩⟩

theorem Inv.input {s : Lifetime} (h : Inv s) {text : Text} {t : TimedInput}
    (ht : (RawOp.input t).Offset text) : Inv (s.rawStep text (.input t)) := by
  have hstates := @Input.convert_states text t.now.wall s.coord t.input
  simp only [rawStep, inputStep, inputTurn]
  rcases hx : t.input.convert text t.now.wall s.coord with ⟨coord', op⟩
  rw [hx] at hstates
  have hmarks : coord'.AwareMarks := fun c => hstates ▸ h.marks c
  have hpresentable : ∀ c, Presentable c (coord'.states c) := fun c => hstates ▸ h.presentable c
  cases op with
  | none => exact ⟨hmarks, hpresentable⟩
  | some op =>
      have hshow : ∀ a ∈ op.alerts, Showable a.category a :=
        Input.convert_alerts hx fun a ha =>
          madeFrom_showable ht (Input.madeFrom_of_constructed ha)
      have hsound : op.Sound := convert_sound hx fun a ha =>
        (madeFrom_showable ht (Input.madeFrom_of_constructed ha)).aware
      refine ⟨hmarks.step s.config ⟨t.now, op⟩, fun c =>
        presentable_step (t := ⟨t.now, op⟩) hmarks hpresentable hsound fun u hsees a ha => ?_⟩
      exact convert_filed hx hsees a ha ▸ hshow a (alerts_seenBy hsees ha)

theorem Inv.step {text : Text} {s : Lifetime} {l : RawOp} (h : Inv s) (hl : l.Offset text) :
    Inv (s.rawStep text l) := by
  cases l with
  | input t => exact h.input hl
  | restart now config =>
      refine ⟨awareMarks_step text h.marks (.restart now config), fun c => ?_⟩
      simp only [rawStep, Lifetime.step, Coordinator.restore_build]
      exact (h.presentable c).restored text now config

end Lifetime

/-! ## The sensors agree -/

/-- What the rollups take for the last alert is a newest one of the enabled categories. -/
theorem rollupLastAlert_spec {coord : Coordinator}
    (haware : ∀ c a, (coord.states c).lastAlert = some a → a.receivedAt.isAware = true) :
    (coord.rollupLastAlert = .ok none ∧
      ∀ c, (coord.states c).enabled = true → (coord.states c).lastAlert = none) ∨
    ∃ c a, coord.rollupLastAlert = .ok (some a) ∧ (coord.states c).enabled = true ∧
      (coord.states c).lastAlert = some a ∧ ∀ d b, (coord.states d).enabled = true →
        (coord.states d).lastAlert = some b → b.receivedAt.instant ≤ a.receivedAt.instant := by
  have hmem := @mem_lastAlerts coord
  unfold Coordinator.rollupLastAlert
  dsimp only
  split
  · rename_i hnil
    refine Or.inl ⟨rfl, fun c hen => ?_⟩
    cases hlast : (coord.states c).lastAlert with
    | none => rfl
    | some a =>
        have hin := hmem.mpr ⟨c, hen, hlast⟩
        rw [hnil] at hin
        cases hin
  · rename_i a as heq
    have hall : ∀ b ∈ a :: as, b.receivedAt.isAware = true := by
      intro b hb
      obtain ⟨c, -, hlast⟩ := hmem.mp (heq ▸ hb)
      exact haware c b hlast
    obtain ⟨m, hm, hin, hmax⟩ := maxBy_aware hall
    obtain ⟨c, hen, hlast⟩ := hmem.mp (heq ▸ hin)
    exact Or.inr ⟨c, m, by rw [hm]; rfl, hen, hlast, fun d b hd hb =>
      hmax b (heq ▸ hmem.mpr ⟨d, hd, hb⟩)⟩

namespace Entity

variable (text : Text) (now : Instant) (coord : Coordinator)

/-- One attribute as Home Assistant shows it, none when the entity has no such attribute. -/
def stateAttr (x : Entity) (name : String) : Option Json :=
  (x.extraStateAttributes text now coord).toOption.bind (·.lookup name)

def IsOn (x : Entity) : Prop := x.state now coord = .ok (some (.bool true))

def healthOptions : List String := ["never_received", "healthy", "stale"]

end Entity

open Entity in
structure Coherent (text : Text) (now : Instant) (coord : Coordinator) : Prop where
  states : ∀ x, ∃ v, state now coord x = .ok v
  attributes : ∀ x, ∃ attrs, extraStateAttributes text now coord x = .ok attrs
  on : ∀ c, IsOn now coord (categoryBinarySensor c) →
    available coord (categoryBinarySensor c) = true ∧
      (stateAttr text now coord (categoryBinarySensor c) "last_message").isSome
  message : ∀ c, state now coord (categoryMessageSensor c) = .ok (some .null) ∧
      stateAttr text now coord (categoryBinarySensor c) "last_message" = none ∨
    ∃ m, m.length ≤ 255 ∧ state now coord (categoryMessageSensor c) = .ok (some (.str m)) ∧
      stateAttr text now coord (categoryBinarySensor c) "last_message" = some (.str m)
  health : ∀ c, ∃ v ∈ healthOptions, state now coord (webhookHealthSensor c) = .ok (some (.str v)) ∧
    stateAttr text now coord (categoryBinarySensor c) "webhook_health" = some (.str v)
  anyOn : IsOn now coord rollupBinarySensor ↔
    ∃ c, available coord (categoryBinarySensor c) = true ∧ IsOn now coord (categoryBinarySensor c)
  totals : ∃ (opens : Category → Nat) (counts : Category → Int),
    (∀ c, state now coord (categoryCountSensor c) = .ok (some (.int (opens c))) ∧
      stateAttr text now coord (categoryBinarySensor c) "open_count" = some (.int (opens c)) ∧
      stateAttr text now coord (categoryBinarySensor c) "alert_count" = some (.int (counts c))) ∧
    let shown := allCategories.filter fun c => available coord (categoryBinarySensor c)
    state now coord rollupCountSensor = .ok (some (.int (shown.map opens).sum)) ∧
      stateAttr text now coord rollupBinarySensor "total_open_count" =
        some (.int (shown.map opens).sum) ∧
      stateAttr text now coord rollupBinarySensor "total_alert_count" =
        some (.int (shown.map counts).sum) ∧
      stateAttr text now coord rollupCountSensor "total_webhook_count" =
        some (.int (shown.map counts).sum)
  last : (∀ x ∈ [rollupBinarySensor, rollupCountSensor],
        stateAttr text now coord x "last_message" = none) ∧
      (∀ c, available coord (categoryBinarySensor c) = true →
        stateAttr text now coord (categoryBinarySensor c) "last_message" = none) ∨
    ∃ c a, available coord (categoryBinarySensor c) = true ∧ (coord.states c).lastAlert = some a ∧
      (∀ d b, available coord (categoryBinarySensor d) = true →
        (coord.states d).lastAlert = some b → b.receivedAt.instant ≤ a.receivedAt.instant) ∧
      ∀ x ∈ [rollupBinarySensor, rollupCountSensor],
        stateAttr text now coord x "last_category" = some (.str c.name) ∧
        ∀ name ∈ ["last_message", "last_alert_at", "last_severity_level"],
          (stateAttr text now coord x name).isSome ∧ stateAttr text now coord x name =
            stateAttr text now coord (categoryBinarySensor c) name

namespace Coherent

open Entity

variable {text : Text} {now : Instant} {coord : Coordinator}

section

variable {c : Category} {health : WebhookHealth}

theorem stateAttr_counts (h : (coord.states c).webhookHealth now = .ok health) :
    stateAttr text now coord (categoryBinarySensor c) "open_count" =
        some (.int (coord.states c).openCount) ∧
      stateAttr text now coord (categoryBinarySensor c) "alert_count" =
        some (.int (coord.states c).alertCount) ∧
      stateAttr text now coord (categoryBinarySensor c) "webhook_health" =
        some (.str health.text) := by
  simp only [stateAttr, extraStateAttributes, binaryAttributes, h]
  exact ⟨rfl, rfl, rfl⟩

theorem stateAttr_none (h : (coord.states c).webhookHealth now = .ok health)
    (hlast : (coord.states c).lastAlert = none) :
    stateAttr text now coord (categoryBinarySensor c) "last_message" = none := by
  simp only [stateAttr, extraStateAttributes, binaryAttributes, h, hlast]
  cases (coord.states c).lastClearedAt <;> rfl

theorem stateAttr_last (text : Text) (h : (coord.states c).webhookHealth now = .ok health)
    {a : UniFiAlert}
    (hlast : (coord.states c).lastAlert = some a) :
    stateAttr text now coord (categoryBinarySensor c) "last_message" =
        some (a.textValue "message" a.message) ∧
      stateAttr text now coord (categoryBinarySensor c) "last_alert_at" =
        some (.str (text.isoformat a.receivedAt)) ∧
      stateAttr text now coord (categoryBinarySensor c) "last_severity_level" =
        some (.str a.severityLevel.text) := by
  simp only [stateAttr, extraStateAttributes, binaryAttributes, h, hlast]
  exact ⟨rfl, rfl, rfl⟩

end

theorem isOn_category (c : Category) :
    IsOn now coord (categoryBinarySensor c) ↔ (coord.states c).isAlerting = true := by
  simp [IsOn, Entity.state]

theorem state_ok (hhealth : ∀ c, ∃ health, (coord.states c).webhookHealth now = .ok health)
    (x : Entity) : ∃ v, state now coord x = .ok v := by
  cases x with
  | webhookHealthSensor c =>
      obtain ⟨health, hc⟩ := hhealth c
      exact ⟨_, by rw [Entity.state, hc]; rfl⟩
  | _ => exact ⟨_, rfl⟩

theorem attributes_ok (hhealth : ∀ c, ∃ health, (coord.states c).webhookHealth now = .ok health)
    (hrollup : ∃ last, coord.rollupLastAlert = .ok last) (x : Entity) :
    ∃ attrs, extraStateAttributes text now coord x = .ok attrs := by
  cases x with
  | categoryBinarySensor c => exact binaryAttributes_ok_iff.mpr (hhealth c)
  | rollupBinarySensor => exact rollupAttributes_ok_iff.1.mpr hrollup
  | rollupCountSensor => exact rollupAttributes_ok_iff.2.mpr hrollup
  | _ => exact ⟨_, rfl⟩

/-! ### The attributes of the rollups -/

theorem rollup_totals (hrollup : ∃ last, coord.rollupLastAlert = .ok last) :
    stateAttr text now coord rollupBinarySensor "total_open_count" =
        some (.int coord.rollupOpenCount) ∧
      stateAttr text now coord rollupBinarySensor "total_alert_count" =
        some (.int coord.rollupAlertCount) ∧
      stateAttr text now coord rollupCountSensor "total_webhook_count" =
        some (.int coord.rollupAlertCount) := by
  obtain ⟨last, hlast⟩ := hrollup
  simp only [stateAttr, extraStateAttributes, rollupBinaryAttributes, rollupCountAttributes, hlast]
  exact ⟨rfl, rfl, rfl⟩

theorem rollup_none (hnone : coord.rollupLastAlert = .ok none) :
    ∀ x ∈ [rollupBinarySensor, rollupCountSensor],
      stateAttr text now coord x "last_message" = none := by
  simp only [List.forall_mem_cons, List.not_mem_nil, false_implies, implies_true, and_true,
    stateAttr, extraStateAttributes, rollupBinaryAttributes, rollupCountAttributes, hnone]
  exact ⟨rfl, rfl⟩

theorem rollup_last {a : UniFiAlert} (hlast : coord.rollupLastAlert = .ok (some a)) :
    ∀ x ∈ [rollupBinarySensor, rollupCountSensor],
      stateAttr text now coord x "last_category" = some (a.textValue "category" a.category) ∧
        stateAttr text now coord x "last_message" = some (a.textValue "message" a.message) ∧
        stateAttr text now coord x "last_alert_at" = some (.str (text.isoformat a.receivedAt)) ∧
        stateAttr text now coord x "last_severity_level" = some (.str a.severityLevel.text) := by
  simp only [List.forall_mem_cons, List.not_mem_nil, false_implies, implies_true, and_true,
    stateAttr, extraStateAttributes, rollupBinaryAttributes, rollupCountAttributes, hlast]
  exact ⟨⟨rfl, rfl, rfl, rfl⟩, rfl, rfl, rfl, rfl⟩

/-- In a state whose categories are presentable the entities agree. -/
theorem of_presentable (h : ∀ c, Presentable c (coord.states c)) : Coherent text now coord := by
  have hhealth := fun c => (@webhookHealth_ok_iff _ now).mpr (h c).webhook
  have hlast := rollupLastAlert_spec fun c a ha => ((h c).last a ha).aware
  have hrollup : ∃ last, coord.rollupLastAlert = .ok last := by
    rcases hlast with ⟨hnone, -⟩ | ⟨-, a, hsome, -⟩
    · exact ⟨_, hnone⟩
    · exact ⟨_, hsome⟩
  constructor
  case states => exact state_ok hhealth
  case attributes => exact attributes_ok hhealth hrollup
  case on =>
    intro c hon
    obtain ⟨health, hc⟩ := hhealth c
    obtain ⟨hen, hsome⟩ := (h c).alerting ((isOn_category c).mp hon)
    obtain ⟨a, ha⟩ := Option.isSome_iff_exists.mp hsome
    exact ⟨hen, by rw [(stateAttr_last text hc ha).1]; rfl⟩
  case message =>
    intro c
    obtain ⟨health, hc⟩ := hhealth c
    cases ha : (coord.states c).lastAlert with
    | none => exact Or.inl ⟨by rw [Entity.state, ha], stateAttr_none hc ha⟩
    | some a =>
        obtain ⟨m, hm, hlength⟩ := ((h c).last a ha).message
        exact Or.inr ⟨m, hlength, by simp only [Entity.state, ha, hm],
          by rw [(stateAttr_last text hc ha).1, hm]⟩
  case health =>
    intro c
    obtain ⟨health, hc⟩ := hhealth c
    refine ⟨health.text, ?_, by rw [Entity.state, hc]; rfl, (stateAttr_counts hc).2.2⟩
    cases health <;> simp [healthOptions, WebhookHealth.text]
  case anyOn =>
    simp only [IsOn, Entity.state, available, category?, anyAlerting, Except.ok.injEq,
      Option.some.injEq, Json.bool.injEq, List.any_eq_true, Bool.and_eq_true]
    exact exists_congr fun c => and_iff_right c.mem_all
  case totals =>
    refine ⟨fun c => (coord.states c).openCount, fun c => (coord.states c).alertCount,
      fun c => ?_, rfl, rollup_totals hrollup⟩
    obtain ⟨health, hc⟩ := hhealth c
    exact ⟨rfl, (stateAttr_counts hc).1, (stateAttr_counts hc).2.1⟩
  case last =>
    rcases hlast with ⟨hnone, hall⟩ | ⟨c, a, hsome, hen, ha, hmax⟩
    · refine Or.inl ⟨rollup_none hnone, fun c hen => ?_⟩
      obtain ⟨health, hc⟩ := hhealth c
      exact stateAttr_none hc (hall c hen)
    · refine Or.inr ⟨c, a, hen, ha, hmax, fun x hx => ?_⟩
      obtain ⟨health, hc⟩ := hhealth c
      obtain ⟨hmessage, hat, hlevel⟩ := stateAttr_last text hc ha
      obtain ⟨hcategory, hmessage', hat', hlevel'⟩ := rollup_last hsome x hx
      rw [hcategory, ((h c).last a ha).category]
      simp only [List.forall_mem_cons, List.not_mem_nil, false_implies, implies_true, and_true,
        hmessage, hat, hlevel, hmessage', hat', hlevel', Option.isSome_some]

end Coherent

/-- Over every run of inputs and restarts without an offsetless record, and at
whatever time they are read, the entities agree with one another. -/
theorem views_coherent (text : Text) (config : UniFiClientConfig) (ls : List RawOp)
    (hls : ∀ l ∈ ls, l.Offset text) (now : Instant) :
    Coherent text now (run (Lifetime.rawStep text) (.fresh config) ls).coord := by
  have hinv : Lifetime.Inv (run (Lifetime.rawStep text) (.fresh config) ls) :=
    @run_preserves_labels _ _ (Lifetime.rawStep text) (RawOp.Offset text) Lifetime.Inv
      (fun _ _ h hl => h.step hl) _ (Lifetime.inv_fresh config) ls hls
  exact .of_presentable hinv.presentable

/-- A push for one category and, after a restart, a poll of another. -/
theorem views_coherent_restarted :
    let text := Text.counting fun _ => none
    let ls : List RawOp := [
      .input ⟨⟨1705310000000000, 0⟩, .webhook "network_wan" (.obj [("message", .str "WAN down")])⟩,
      .restart 1705310001000000 {},
      .input ⟨⟨1705310002000000, 2⟩, .legacy [[("key", .str "EVT_GW_WANTransition")]]⟩]
    (∀ l ∈ ls, l.Offset text) ∧
      Coherent text 1705310003000000 (run (Lifetime.rawStep text) (.fresh {}) ls).coord := by
  intro text ls
  have hls : ∀ l ∈ ls, l.Offset text := by
    rw [List.forall_mem_cons, List.forall_mem_cons, List.forall_mem_singleton]
    refine ⟨fun record hr => (nomatch hr), trivial, fun record hr hoffset => ?_⟩
    obtain rfl := List.mem_singleton.mp hr
    exact hoffset.1 rfl
  exact ⟨hls, views_coherent text {} ls hls _⟩

end UnifiAlerts
