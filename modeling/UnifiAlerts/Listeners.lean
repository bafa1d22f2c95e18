import UnifiAlerts.Coordinator

/-!
# The entities as listeners

What an entity of the four platforms is (`Entity`), the availability, state
and attributes that it computes from the coordinator, and the listeners
of a coordinator: the entities that have been added, in the order in
which they were.

`async_update_listeners` calls them one after the other, and each writes
its state. Three kinds of entity can raise while they do: the health of
a webhook is the age of its last one, and the two rollups take the
newest of the last alerts, so a time without an offset from the store
is one that cannot be subtracted or compared. What a listener raises
ends the update, and the listeners after it are not called. Whether an
entity can write its state is a condition on the states (`Readable`)
which a clear does not touch.
-/

namespace UnifiAlerts

open Py Lib

/-! ## Webhook health and the rollups -/

inductive WebhookHealth
  | never
  | healthy
  | stale
deriving Repr, DecidableEq

def webhookStaleAfterSeconds : Int := 7 * 24 * 60 * 60

/-- Subtracting a naive datetime from an aware one raises TypeError. -/
def CategoryState.webhookHealth (state : CategoryState) (now : Instant) :
    Except Exc WebhookHealth :=
  match state.lastWebhookAt with
  | none => .ok .never
  | some (.aware t) =>
    .ok (if now - t ≤ webhookStaleAfterSeconds * 1000000 then .healthy else .stale)
  | some (.naive _) => .error .typeError

namespace Coordinator

def anyAlerting (coord : Coordinator) : Bool :=
  allCategories.any fun c => (coord.states c).enabled && (coord.states c).isAlerting

def enabledCategories (coord : Coordinator) : List Category :=
  allCategories.filter fun c => (coord.states c).enabled

def rollupAlertCount (coord : Coordinator) : Int :=
  (coord.enabledCategories.map fun c => (coord.states c).alertCount).sum

def rollupOpenCount (coord : Coordinator) : Nat :=
  (coord.enabledCategories.map fun c => (coord.states c).openCount).sum

end Coordinator

/-! ## Entities -/

inductive Platform
  | binarySensor
  | sensor
  | event
  | button
deriving Repr, DecidableEq

inductive Entity
  | categoryBinarySensor (c : Category)
  | rollupBinarySensor
  | categoryMessageSensor (c : Category)
  | categoryCountSensor (c : Category)
  | webhookHealthSensor (c : Category)
  | rollupCountSensor
  | alertEventEntity (c : Category)
  | clearCategoryButton (c : Category)
  | clearAllButton
deriving Repr, DecidableEq

namespace Entity

def platform : Entity → Platform
  | categoryBinarySensor _ | rollupBinarySensor => .binarySensor
  | categoryMessageSensor _ | categoryCountSensor _ | webhookHealthSensor _
  | rollupCountSensor => .sensor
  | alertEventEntity _ => .event
  | clearCategoryButton _ | clearAllButton => .button

def category? : Entity → Option Category
  | categoryBinarySensor c | categoryMessageSensor c | categoryCountSensor c
  | webhookHealthSensor c | alertEventEntity c | clearCategoryButton c => some c
  | rollupBinarySensor | rollupCountSensor | clearAllButton => none

/-- The platforms add the entity for this coordinator. -/
def shown (coord : Coordinator) (x : Entity) : Bool :=
  x.category?.all fun c => (coord.states c).enabled

end Entity

/-! ## Properties -/

/-- `WEBHOOK_HEALTH_*`. -/
def WebhookHealth.text : WebhookHealth → String
  | .never => "never_received"
  | .healthy => "healthy"
  | .stale => "stale"

namespace UniFiAlert

/-- A text field as it stands: a restored one may be no text. -/
def textValue (alert : UniFiAlert) (name value : String) : Json := (alert.textField name value).2

end UniFiAlert

def stampValue (text : Text) (stamp : Option DateTime) : Json :=
  match stamp with
  | some d => .str (text.isoformat d)
  | none => .null

namespace Entity

def available (coord : Coordinator) (x : Entity) : Bool :=
  match x.category? with
  | some c => (coord.states c).enabled
  | none => allCategories.any fun c => (coord.states c).enabled

/-- `is_on` or `native_value`; an event or a button has neither. -/
def state (now : Instant) (coord : Coordinator) : Entity → Except Exc (Option Json)
  | categoryBinarySensor c => .ok (some (.bool (coord.states c).isAlerting))
  | rollupBinarySensor => .ok (some (.bool coord.anyAlerting))
  | categoryMessageSensor c => .ok (some (match (coord.states c).lastAlert with
    | some alert => alert.textValue "message" alert.message
    | none => .null))
  | categoryCountSensor c => .ok (some (.int (coord.states c).openCount))
  | webhookHealthSensor c => do
    let health ← (coord.states c).webhookHealth now
    return some (.str health.text)
  | rollupCountSensor => .ok (some (.int coord.rollupOpenCount))
  | alertEventEntity _ | clearCategoryButton _ | clearAllButton => .ok none

def binaryAttributes (text : Text) (now : Instant) (c : Category) (state : CategoryState) :
    Except Exc JsonObj := do
  let health ← state.webhookHealth now
  return [("category", .str c.name), ("alert_count", .int state.alertCount),
      ("open_count", .int state.openCount), ("webhook_health", .str health.text),
      ("last_webhook_at", stampValue text state.lastWebhookAt)] ++
    (match state.lastAlert with
      | some alert =>
        [("last_message", alert.textValue "message" alert.message),
          ("last_alert_at", .str (text.isoformat alert.receivedAt)),
          ("last_device", alert.textValue "device_name" alert.deviceName),
          ("last_key", alert.textValue "key" alert.key),
          ("last_severity", .str alert.severity),
          ("last_severity_level", .str alert.severityLevel.text)]
      | none => []) ++
    (match state.lastClearedAt with
      | some d => [("last_cleared_at", .str (text.isoformat d))]
      | none => [])

def messageAttributes (text : Text) (state : CategoryState) : JsonObj :=
  match state.lastAlert with
  | some alert =>
    [("received_at", .str (text.isoformat alert.receivedAt)),
      ("device_name", alert.textValue "device_name" alert.deviceName),
      ("alert_key", alert.textValue "key" alert.key),
      ("severity", .str alert.severity), ("severity_level", .str alert.severityLevel.text),
      ("site", alert.textValue "site" alert.site)]
  | none => []

def rollupBinaryAttributes (text : Text) (coord : Coordinator) : Except Exc JsonObj := do
  let last ← coord.rollupLastAlert
  return [("total_alert_count", .int coord.rollupAlertCount),
      ("total_open_count", .int coord.rollupOpenCount)] ++
    (match last with
      | some alert =>
        [("last_message", alert.textValue "message" alert.message),
          ("last_alert_at", .str (text.isoformat alert.receivedAt)),
          ("last_category", alert.textValue "category" alert.category),
          ("last_severity", .str alert.severity),
          ("last_severity_level", .str alert.severityLevel.text)]
      | none => [])

def rollupCountAttributes (text : Text) (coord : Coordinator) : Except Exc JsonObj := do
  let last ← coord.rollupLastAlert
  return [("total_webhook_count", .int coord.rollupAlertCount)] ++
    (match last with
      | some alert =>
        [("last_message", alert.textValue "message" alert.message),
          ("last_category", alert.textValue "category" alert.category),
          ("last_alert_at", .str (text.isoformat alert.receivedAt)),
          ("last_severity_level", .str alert.severityLevel.text)]
      | none => [])

def extraStateAttributes (text : Text) (now : Instant) (coord : Coordinator) :
    Entity → Except Exc JsonObj
  | categoryBinarySensor c => binaryAttributes text now c (coord.states c)
  | rollupBinarySensor => rollupBinaryAttributes text coord
  | categoryMessageSensor c => .ok (messageAttributes text (coord.states c))
  | webhookHealthSensor c =>
    .ok [("last_webhook_at", stampValue text (coord.states c).lastWebhookAt)]
  | rollupCountSensor => rollupCountAttributes text coord
  | _ => .ok []

end Entity

/-! ## Writing the state -/

namespace Entity

/-- `async_write_ha_state`: an entity that is not available computes nothing. -/
def asyncWriteHaState (text : Text) (now : Instant) (coord : Coordinator) (x : Entity) :
    Except Exc Unit :=
  if x.available coord then do
    let _ ← x.state now coord
    let _ ← x.extraStateAttributes text now coord
    return ()
  else .ok ()

/-- The times that the entity subtracts or compares allow it. -/
def Readable (states : Category → CategoryState) : Entity → Prop
  | categoryBinarySensor c | webhookHealthSensor c =>
    (states c).enabled = true → ∀ d, (states c).lastWebhookAt = some d → d.isAware = true
  | rollupBinarySensor | rollupCountSensor =>
    ∀ c d a b, (states c).enabled = true → (states d).enabled = true →
      (states c).lastAlert = some a → (states d).lastAlert = some b →
        a.receivedAt.isAware = b.receivedAt.isAware
  | _ => True

end Entity

theorem webhookHealth_ok_iff {state : CategoryState} {now : Instant} :
    (∃ health, state.webhookHealth now = .ok health) ↔
      ∀ d, state.lastWebhookAt = some d → d.isAware = true := by
  unfold CategoryState.webhookHealth
  split
  · rename_i hnone
    exact iff_of_true ⟨_, rfl⟩ fun d hd => by rw [hnone] at hd; cases hd
  · rename_i t haware
    exact iff_of_true ⟨_, rfl⟩ fun d hd => by rw [haware] at hd; cases hd; rfl
  · rename_i t hnaive
    refine iff_of_false ?_ fun hall => Bool.false_ne_true (hall _ hnaive)
    rintro ⟨health, h⟩
    cases h

theorem mem_lastAlerts {coord : Coordinator} {a : UniFiAlert} :
    a ∈ allCategories.filterMap (fun c =>
      if (coord.states c).enabled then (coord.states c).lastAlert else none) ↔
      ∃ c, (coord.states c).enabled = true ∧ (coord.states c).lastAlert = some a := by
  rw [List.mem_filterMap]
  constructor
  · rintro ⟨c, -, hc⟩
    split at hc
    · rename_i hen
      exact ⟨c, hen, hc⟩
    · cases hc
  · rintro ⟨c, hen, hlast⟩
    exact ⟨c, c.mem_all, by rw [if_pos hen, hlast]⟩

/-- The newest of the last alerts is found when their times are all with, or all without,
an offset. -/
theorem rollupLastAlert_ok_iff {coord : Coordinator} :
    (∃ last, coord.rollupLastAlert = .ok last) ↔
      Entity.rollupBinarySensor.Readable coord.states := by
  have hmem := @mem_lastAlerts coord
  unfold Coordinator.rollupLastAlert
  dsimp only
  split
  · rename_i hnil
    refine iff_of_true ⟨_, rfl⟩ fun c d a b hc _ ha _ => ?_
    have hin := hmem.mpr ⟨c, hc, ha⟩
    rw [hnil] at hin
    cases hin
  · rename_i a as heq
    rw [heq] at hmem
    have hmax : (∃ last, (maxBy (fun a : UniFiAlert => a.receivedAt) a as).map some = .ok last) ↔
        ∃ m, maxBy (fun a : UniFiAlert => a.receivedAt) a as = .ok m := by
      cases maxBy (fun a : UniFiAlert => a.receivedAt) a as <;> simp [Except.map]
    rw [hmax, maxBy_ok_iff]
    constructor
    · intro hsame c d b b' hc hd hb hb'
      have hfirst : ∀ x ∈ a :: as, x.receivedAt.isAware = a.receivedAt.isAware :=
        List.forall_mem_cons.mpr ⟨rfl, hsame⟩
      exact (hfirst b (hmem.mpr ⟨c, hc, hb⟩)).trans (hfirst b' (hmem.mpr ⟨d, hd, hb'⟩)).symm
    · intro hall b hb
      obtain ⟨c, hc, hcb⟩ := hmem.mp (List.mem_cons_of_mem a hb)
      obtain ⟨d, hd, hda⟩ := hmem.mp List.mem_cons_self
      exact hall c d b a hc hd hcb hda

namespace Entity

variable {text : Text} {now : Instant} {coord : Coordinator} {x : Entity}

theorem binaryAttributes_ok_iff {c : Category} {state : CategoryState} :
    (∃ attrs, binaryAttributes text now c state = .ok attrs) ↔
      ∃ health, state.webhookHealth now = .ok health := by
  unfold binaryAttributes
  cases state.webhookHealth now with
  | ok health => exact iff_of_true ⟨_, rfl⟩ ⟨_, rfl⟩
  | error e => exact iff_of_false (by rintro ⟨_, h⟩; cases h) (by rintro ⟨_, h⟩; cases h)

theorem rollupAttributes_ok_iff :
    ((∃ attrs, rollupBinaryAttributes text coord = .ok attrs) ↔
        ∃ last, coord.rollupLastAlert = .ok last) ∧
      ((∃ attrs, rollupCountAttributes text coord = .ok attrs) ↔
        ∃ last, coord.rollupLastAlert = .ok last) := by
  unfold rollupBinaryAttributes rollupCountAttributes
  cases coord.rollupLastAlert with
  | ok last => exact ⟨iff_of_true ⟨_, rfl⟩ ⟨_, rfl⟩, iff_of_true ⟨_, rfl⟩ ⟨_, rfl⟩⟩
  | error e =>
      constructor <;>
        exact iff_of_false (by rintro ⟨_, h⟩; cases h) (by rintro ⟨_, h⟩; cases h)

theorem write_ok_iff : x.asyncWriteHaState text now coord = .ok () ↔
    (x.available coord = true → (∃ v, x.state now coord = .ok v) ∧
      ∃ attrs, x.extraStateAttributes text now coord = .ok attrs) := by
  unfold asyncWriteHaState
  cases x.available coord with
  | false => simp
  | true =>
      cases x.state now coord with
      | error e => simp [bind, Except.bind]
      | ok v => cases x.extraStateAttributes text now coord <;>
        simp [bind, Except.bind, pure, Except.pure]

theorem available_of_category {c : Category} (hcategory : x.category? = some c) :
    x.available coord = (coord.states c).enabled := by
  simp only [available, hcategory]

/-- A rollup with no enabled category is not available, and compares nothing. -/
theorem rollup_readable_iff :
    ((∃ c, (coord.states c).enabled = true) → ∃ last, coord.rollupLastAlert = .ok last) ↔
      rollupBinarySensor.Readable coord.states := by
  rw [rollupLastAlert_ok_iff]
  exact ⟨fun h c d a b hc hd ha hb => h ⟨c, hc⟩ c d a b hc hd ha hb, fun h _ => h⟩

/-- An entity writes its state exactly when the times it needs allow it. -/
theorem asyncWriteHaState_ok_iff :
    x.asyncWriteHaState text now coord = .ok () ↔ x.Readable coord.states := by
  have hany : ∀ y : Entity, y.category? = none →
      (y.available coord = true ↔ ∃ c, (coord.states c).enabled = true) := fun y hy => by
    simp only [available, hy, List.any_eq_true]
    exact exists_congr fun c => and_iff_right c.mem_all
  rw [write_ok_iff]
  cases x with
  | categoryBinarySensor c =>
      rw [available_of_category rfl]
      refine imp_congr_right fun _ => ?_
      rw [← @webhookHealth_ok_iff _ now, ← @binaryAttributes_ok_iff text now c]
      exact and_iff_right ⟨_, rfl⟩
  | webhookHealthSensor c =>
      rw [available_of_category rfl]
      refine imp_congr_right fun _ => ?_
      rw [← @webhookHealth_ok_iff _ now, and_iff_left ⟨_, rfl⟩, Entity.state]
      cases (coord.states c).webhookHealth now with
      | ok health => exact iff_of_true ⟨_, rfl⟩ ⟨_, rfl⟩
      | error e => exact iff_of_false (by rintro ⟨_, h⟩; cases h) (by rintro ⟨_, h⟩; cases h)
  | rollupBinarySensor =>
      rw [hany _ rfl, ← rollup_readable_iff]
      refine imp_congr_right fun _ => ?_
      rw [← (@rollupAttributes_ok_iff text coord).1]
      exact and_iff_right ⟨_, rfl⟩
  | rollupCountSensor =>
      show _ ↔ rollupBinarySensor.Readable coord.states
      rw [hany _ rfl, ← rollup_readable_iff]
      refine imp_congr_right fun _ => ?_
      rw [← (@rollupAttributes_ok_iff text coord).2]
      exact and_iff_right ⟨_, rfl⟩
  | _ => exact iff_of_true (fun _ => ⟨⟨_, rfl⟩, ⟨_, rfl⟩⟩) trivial

/-- What an entity needs is the last times of the enabled categories. -/
theorem readable_congr {states states' : Category → CategoryState}
    (henabled : ∀ c, (states' c).enabled = (states c).enabled)
    (hwebhook : ∀ c, (states' c).lastWebhookAt = (states c).lastWebhookAt)
    (hlast : ∀ c, (states' c).lastAlert = (states c).lastAlert) :
    x.Readable states' ↔ x.Readable states := by
  cases x <;> simp only [Readable, henabled, hwebhook, hlast]

end Entity

/-! ## The update -/

/-- `async_update_listeners`: the listeners that have written their state, and how it ends. -/
def updateListeners (text : Text) (now : Instant) (coord : Coordinator) :
    List Entity → List Entity × Except Exc Unit
  | [] => ([], .ok ())
  | x :: xs =>
    match x.asyncWriteHaState text now coord with
    | .error e => ([], .error e)
    | .ok () =>
      let (told, ended) := updateListeners text now coord xs
      (x :: told, ended)

section

variable {text : Text} {now : Instant} {coord : Coordinator}

theorem updateListeners_cons_ok {x : Entity} (hx : x.Readable coord.states) (xs : List Entity) :
    updateListeners text now coord (x :: xs) =
      (x :: (updateListeners text now coord xs).1, (updateListeners text now coord xs).2) := by
  rw [updateListeners, Entity.asyncWriteHaState_ok_iff.mpr hx]

theorem updateListeners_cons_error {x : Entity} (hx : ¬x.Readable coord.states)
    (xs : List Entity) :
    ∃ e, updateListeners text now coord (x :: xs) = ([], .error e) := by
  cases hwrite : x.asyncWriteHaState text now coord with
  | ok u => exact absurd (Entity.asyncWriteHaState_ok_iff.mp hwrite) hx
  | error e => exact ⟨e, by rw [updateListeners, hwrite]⟩

/-- The update reaches every listener, and raises nothing, when each of them is readable. -/
theorem updateListeners_of_readable : ∀ {xs : List Entity},
    (∀ x ∈ xs, x.Readable coord.states) → updateListeners text now coord xs = (xs, .ok ())
  | [], _ => rfl
  | x :: xs, h => by
      obtain ⟨hx, hxs⟩ := List.forall_mem_cons.mp h
      rw [updateListeners_cons_ok hx, updateListeners_of_readable hxs]

/-- Otherwise it raises, and does not reach them all. -/
theorem updateListeners_of_unreadable : ∀ {xs : List Entity},
    (¬∀ x ∈ xs, x.Readable coord.states) →
      ∃ told e, updateListeners text now coord xs = (told, .error e) ∧ told.length < xs.length
  | [], h => absurd (by simp) h
  | x :: xs, h => by
      by_cases hx : x.Readable coord.states
      · have hxs : ¬∀ y ∈ xs, y.Readable coord.states := fun hall =>
          h (List.forall_mem_cons.mpr ⟨hx, hall⟩)
        obtain ⟨told, e, heq, hlt⟩ := updateListeners_of_unreadable hxs
        exact ⟨x :: told, e, by rw [updateListeners_cons_ok hx, heq], Nat.succ_lt_succ hlt⟩
      · obtain ⟨e, heq⟩ := @updateListeners_cons_error text now coord x hx xs
        exact ⟨[], e, heq, Nat.succ_pos _⟩

theorem updateListeners_ok_iff {xs : List Entity} :
    (updateListeners text now coord xs).2 = .ok () ↔ ∀ x ∈ xs, x.Readable coord.states := by
  constructor
  · intro hok
    by_contra hnot
    obtain ⟨told, e, heq, -⟩ := updateListeners_of_unreadable hnot
    rw [heq] at hok
    cases hok
  · intro hall
    rw [updateListeners_of_readable hall]

/-- A listener that is not called before any that raises: all those in front of it can
show these states. -/
def Reached (states : Category → CategoryState) (x : Entity) (xs : List Entity) : Prop :=
  ∃ before after, xs = before ++ x :: after ∧ ∀ y ∈ before, y.Readable states

theorem not_reached_nil {states : Category → CategoryState} {x : Entity} :
    ¬Reached states x [] := by
  rintro ⟨before, after, heq, -⟩
  cases before <;> cases heq

theorem reached_cons_iff {states : Category → CategoryState} {x y : Entity} {xs : List Entity} :
    Reached states x (y :: xs) ↔ x = y ∨ y.Readable states ∧ Reached states x xs := by
  constructor
  · rintro ⟨before, after, heq, hbefore⟩
    cases before with
    | nil => exact Or.inl (List.cons.inj heq).1.symm
    | cons z before =>
        obtain ⟨rfl, rfl⟩ := List.cons.inj heq
        obtain ⟨hz, hrest⟩ := List.forall_mem_cons.mp hbefore
        exact Or.inr ⟨hz, before, after, rfl, hrest⟩
  · rintro (rfl | ⟨hy, before, after, rfl, hbefore⟩)
    · exact ⟨[], xs, rfl, by simp⟩
    · exact ⟨y :: before, after, rfl, List.forall_mem_cons.mpr ⟨hy, hbefore⟩⟩

theorem reached_congr {states states' : Category → CategoryState} {x : Entity} {xs : List Entity}
    (h : ∀ y : Entity, y.Readable states ↔ y.Readable states') :
    Reached states x xs ↔ Reached states' x xs := by
  unfold Reached
  simp only [h]

theorem told_subset : ∀ {xs : List Entity}, (updateListeners text now coord xs).1 ⊆ xs
  | [] => List.nil_subset _
  | x :: xs => by
      by_cases hx : x.Readable coord.states
      · rw [updateListeners_cons_ok hx]
        exact List.cons_subset_cons x told_subset
      · obtain ⟨e, heq⟩ := @updateListeners_cons_error text now coord x hx xs
        rw [heq]
        exact List.nil_subset _

/-- A listener that raises nothing itself writes its state when the update reaches it. -/
theorem mem_told_iff {x : Entity} (hx : x.Readable coord.states) : ∀ {xs : List Entity},
    x ∈ (updateListeners text now coord xs).1 ↔ Reached coord.states x xs
  | [] => iff_of_false List.not_mem_nil not_reached_nil
  | y :: xs => by
      rw [reached_cons_iff]
      by_cases hy : y.Readable coord.states
      · rw [updateListeners_cons_ok hy, List.mem_cons, mem_told_iff hx, and_iff_right hy]
      · obtain ⟨e, heq⟩ := @updateListeners_cons_error text now coord y hy xs
        rw [heq]
        refine iff_of_false List.not_mem_nil ?_
        rintro (rfl | ⟨hreadable, -⟩)
        · exact hy hx
        · exact hy hreadable

end

/-! ## The push callback -/

namespace Coordinator

/-- The states with the alert as the last one of its category. -/
def withLast (states : Category → CategoryState) (c : Category) (alert : UniFiAlert) :
    Category → CategoryState :=
  Function.update states c
    { states c with lastAlert := some alert, lastWebhookAt := some alert.receivedAt }

/-- `push_alert` as its caller sees it: the update of the listeners is the last thing it does. -/
def pushCallback (text : Text) (config : UniFiClientConfig) (coord : Coordinator) (now : Instant)
    (mono : ℚ) (listeners : List Entity) (category : String) (alert : UniFiAlert) :
    Except Exc Unit :=
  let turn := pushAlert config coord mono category alert
  match turn.raised with
  | some e => .error e
  | none =>
    if turn.calls.contains .notify then (updateListeners text now turn.coord listeners).2
    else .ok ()

/-- The watermark of the category can be compared with the alert. -/
def MarkComparable (coord : Coordinator) (c : Category) (alert : UniFiAlert) : Prop :=
  ∀ w, (coord.states c).lastClearedAt = some w → w.isAware = alert.receivedAt.isAware

section

variable {config : UniFiClientConfig} {coord : Coordinator} {mono : ℚ} {category : String}
  {alert : UniFiAlert} {c : Category}

/-- An accepted push gets as far as the listeners when the watermark comparison does not
raise, and raises that exception otherwise. -/
theorem pushAlert_accepted (h : pushVerdict config coord mono category alert = .ok (.accepted c)) :
    (coord.MarkComparable c alert ∧
        (pushAlert config coord mono category alert).calls.contains .notify = true ∧
        (pushAlert config coord mono category alert).raised = none) ∨
      ¬coord.MarkComparable c alert ∧
        (pushAlert config coord mono category alert).calls.contains .notify = false ∧
        (pushAlert config coord mono category alert).raised.isSome = true := by
  unfold pushAlert MarkComparable
  rw [h]
  dsimp only
  rw [show (acceptPush (coord.states c) alert).lastClearedAt = (coord.states c).lastClearedAt
    from rfl]
  cases hw : (coord.states c).lastClearedAt with
  | none => exact Or.inl ⟨by simp, rfl, rfl⟩
  | some w =>
      dsimp only
      by_cases hsame : w.isAware = alert.receivedAt.isAware
      · rw [DateTime.gt_eq hsame.symm]
        exact Or.inl ⟨fun w' hw' => Option.some.inj hw' ▸ hsame, rfl, rfl⟩
      · rw [DateTime.gt_ne (Ne.symm hsame)]
        exact Or.inr ⟨fun hall => hsame (hall w rfl), rfl, rfl⟩

theorem pushAlert_not_accepted
    (h : ∀ c, pushVerdict config coord mono category alert ≠ .ok (.accepted c)) :
    (pushAlert config coord mono category alert).calls.contains .notify = false ∧
      ((pushAlert config coord mono category alert).raised = none ↔
        ∃ verdict, pushVerdict config coord mono category alert = .ok verdict) := by
  unfold pushAlert
  split
  · rename_i e hverdict
    exact ⟨rfl, iff_of_false (by simp) (by simp [hverdict])⟩
  · rename_i d hverdict
    exact ⟨rfl, iff_of_true rfl ⟨_, hverdict⟩⟩
  · rename_i d hverdict
    exact absurd hverdict (h d)
  · rename_i verdict _ _ hverdict
    exact ⟨rfl, iff_of_true rfl ⟨_, hverdict⟩⟩

/-- What the listeners read of an accepted push. -/
theorem readable_pushAlert (h : pushVerdict config coord mono category alert = .ok (.accepted c))
    (x : Entity) : x.Readable (pushAlert config coord mono category alert).coord.states ↔
      x.Readable (withLast coord.states c alert) := by
  have hstates : ∃ openCount, (pushAlert config coord mono category alert).coord.states =
      Function.update coord.states c { acceptPush (coord.states c) alert with openCount } := by
    unfold pushAlert
    rw [h]
    dsimp only
    split <;> exact ⟨_, rfl⟩
  obtain ⟨openCount, hstates⟩ := hstates
  rw [hstates]
  apply Entity.readable_congr <;> intro d <;> by_cases hd : d = c
  all_goals first
    | (subst hd; simp [withLast, acceptPush, CategoryState.applyAlert])
    | simp [withLast, hd]

/-- `push_alert` raises nothing exactly when the minimum severity can be read and, for an
alert that it accepts, the watermark can be compared with it and every listener can write
its state. -/
theorem pushCallback_ok_iff {text : Text} {now : Instant} {listeners : List Entity} :
    pushCallback text config coord now mono listeners category alert = .ok () ↔
      (∃ verdict, pushVerdict config coord mono category alert = .ok verdict) ∧
        ∀ c, pushVerdict config coord mono category alert = .ok (.accepted c) →
          coord.MarkComparable c alert ∧
            ∀ x ∈ listeners, x.Readable (withLast coord.states c alert) := by
  unfold pushCallback
  dsimp only
  by_cases haccepted : ∃ c, pushVerdict config coord mono category alert = .ok (.accepted c)
  · obtain ⟨c, hverdict⟩ := haccepted
    have hcond : ((∃ verdict, pushVerdict config coord mono category alert = .ok verdict) ∧
        ∀ d, pushVerdict config coord mono category alert = .ok (.accepted d) →
          coord.MarkComparable d alert ∧
            ∀ x ∈ listeners, x.Readable (withLast coord.states d alert)) ↔
        coord.MarkComparable c alert ∧
        ∀ x ∈ listeners, x.Readable (withLast coord.states c alert) := by
      constructor
      · exact fun h => h.2 c hverdict
      · refine fun h => ⟨⟨_, hverdict⟩, fun d hd => ?_⟩
        obtain rfl := Verdict.accepted.inj (Except.ok.inj (hverdict.symm.trans hd))
        exact h
    rw [hcond]
    rcases pushAlert_accepted hverdict with ⟨hcomparable, hnotify, hraised⟩ |
      ⟨hincomparable, -, hraised⟩
    · rw [hraised, and_iff_right hcomparable]
      dsimp only
      rw [if_pos hnotify, updateListeners_ok_iff]
      exact forall₂_congr fun x _ => readable_pushAlert hverdict x
    · obtain ⟨e, he⟩ := Option.isSome_iff_exists.mp hraised
      rw [he]
      exact iff_of_false (by simp) fun h => hincomparable h.1
  · have hnot : ∀ c, pushVerdict config coord mono category alert ≠ .ok (.accepted c) :=
      fun c hc => haccepted ⟨c, hc⟩
    obtain ⟨hnotify, hraised⟩ := pushAlert_not_accepted hnot
    rw [← hraised, and_iff_left fun c hc => absurd hc (hnot c)]
    cases hr : (pushAlert config coord mono category alert).raised with
    | some e => exact iff_of_false (by simp) (by simp)
    | none =>
        dsimp only
        rw [hnotify, if_neg Bool.false_ne_true]
        exact iff_of_true rfl rfl

end

end Coordinator

end UnifiAlerts
