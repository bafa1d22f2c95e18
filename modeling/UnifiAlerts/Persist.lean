import UnifiAlerts.Ops

/-!
# Restoring a snapshot

`_build_persist_data` and `async_restore_watermarks` are inverse on what
the store keeps: a coordinator restored from the snapshot of another has
its watermarks, alert counts, webhook times and active alerts
(`restore_build`). An alert comes back as it was except for its raw
payload, provided it is `Regular`, as every alert is that a constructor
built from the wire or from such a snapshot.

Every field has its own way through JSON, and the proof follows them:
numbers come back as themselves, a timestamp by the law of `Text` that
`fromisoformat` reads what `isoformat` writes, and an alert field by
field (`fromDict_toDict`). Its texts are cut to length when it is read,
so it comes back only if they are short enough already, which is what
`Regular` says.
-/

namespace UnifiAlerts

open Py Lib

/-! ## One alert -/

namespace UniFiAlert

/-- The severity fits its 32 characters and every text field is a string. -/
structure Regular (alert : UniFiAlert) : Prop where
  severity : slice alert.severity 32 = alert.severity
  untyped : alert.untyped = []

def withoutRaw (alert : UniFiAlert) : UniFiAlert := { alert with raw := .obj [] }

theorem fromDict_toDict {text : Text} {now : Instant} {alert : UniFiAlert} (h : alert.Regular) :
    fromDict text now (alert.toDict text) = .ok alert.withoutRaw := by
  have hfields : ∀ name value, alert.textField name value = (name, .str value) := by
    intro name value
    rw [textField, h.untyped]
    rfl
  simp only [toDict, hfields, fromDict, Json.asDict, JsonObj.getD, readText, untypedFields,
    bind, Except.bind, pure, Except.pure]
  simp [List.lookup_cons, text.fromisoformat_isoformat, h.severity, withoutRaw, h.untyped]

theorem fromDict_toDict_ok (text : Text) (now : Instant) (alert : UniFiAlert) :
    ∃ a, fromDict text now (alert.toDict text) = .ok a := ⟨_, rfl⟩

theorem regular_fromWebhookPayload {text : Text} {now : Instant} {category : String}
    {payload : Json} {alert : UniFiAlert}
    (h : fromWebhookPayload text now category payload = .ok alert) : alert.Regular := by
  obtain ⟨p, -, h⟩ := bind_eq_ok.mp h
  rw [← Except.ok.inj h]
  exact ⟨slice_slice _ 32, rfl⟩

end UniFiAlert

/-! ## One category -/

namespace Coordinator

/-- What a fresh coordinator restores of a category from its snapshot. -/
def restored (text : Text) (now : Instant) (config : UniFiClientConfig) (c : Category)
    (state : CategoryState) : CategoryState where
  category := c
  enabled := config.enabled c
  lastClearedAt := state.lastClearedAt
  alertCount := state.alertCount
  lastAlert := state.lastAlert.bind fun a => (UniFiAlert.fromDict text now (a.toDict text)).toOption
  lastWebhookAt := state.lastWebhookAt

theorem restoreAlert_toDict (text : Text) (now : Instant) (a : UniFiAlert) :
    restoreAlert text now (a.toDict text) none =
      .ok (UniFiAlert.fromDict text now (a.toDict text)).toOption := by
  obtain ⟨b, hb⟩ := UniFiAlert.fromDict_toDict_ok text now a
  unfold restoreAlert
  split
  · rename_i hnull
    cases hnull
  · rw [hb]
    rfl

theorem restoreEntry_persistEntry (text : Text) (now : Instant) (config : UniFiClientConfig)
    (c : Category) (state : CategoryState) :
    restoreEntry text now { category := c, enabled := config.enabled c } (persistEntry text state) =
      .ok (restored text now config c state) := by
  have hnull : restoreAlert text now .null none = .ok none := rfl
  have halert := restoreAlert_toDict text now
  cases hclear : state.lastClearedAt <;> cases hhook : state.lastWebhookAt <;>
    cases hlast : state.lastAlert <;>
    simp [restoreEntry, persistEntry, hclear, hhook, hlast, JsonObj.get, JsonObj.getD,
      List.lookup_cons, restoreStamp, text.fromisoformat_isoformat, Json.toInt, hnull, halert,
      restored, bind,
      Except.bind, pure, Except.pure]

/-! ## The whole snapshot -/

/-- Loading a file that has at most one entry to a category. -/
theorem restoreWatermarks_entries {text : Text} {now : Instant} {entry : Category → Option Json}
    {next : Category → CategoryState} :
    ∀ {cs : List Category} {coord : Coordinator}, cs.Nodup →
      (∀ c ∈ cs, match entry c with
        | some v => restoreEntry text now (coord.states c) v = .ok (next c)
        | none => next c = coord.states c) →
      restoreWatermarks text now (cs.filterMap fun c => (entry c).map fun v => (c.name, v)) coord =
        .ok { coord with states := fun c => if c ∈ cs then next c else coord.states c }
  | [], coord, _, _ => by simp [restoreWatermarks]
  | d :: ds, coord, hnodup, hentry => by
      obtain ⟨hd, hds⟩ := List.nodup_cons.mp hnodup
      have hhead := hentry d (by simp)
      have htail := fun c hc => hentry c (List.mem_cons_of_mem d hc)
      cases hv : entry d with
      | none =>
          rw [hv] at hhead
          rw [List.filterMap_cons, hv, Option.map_none]
          dsimp only
          rw [restoreWatermarks_entries hds htail]
          refine congrArg (fun states => Except.ok { coord with states }) (funext fun c => ?_)
          by_cases hcd : c = d
          · subst hcd
            simp [hd, hhead]
          · simp [hcd]
      | some v =>
          rw [hv] at hhead
          have ih := @restoreWatermarks_entries text now entry next ds (coord.setState d (next d))
            hds fun c hc => by
              have hne : c ≠ d := fun heq => hd (heq ▸ hc)
              rw [setState_states, if_neg hne]
              exact htail c hc
          rw [List.filterMap_cons, hv, Option.map_some]
          dsimp only
          rw [restoreWatermarks, Category.ofName?_name]
          dsimp only
          rw [hhead]
          show restoreWatermarks text now _ (coord.setState d _) = _
          rw [ih]
          refine congrArg (fun states => Except.ok { coord with states }) (funext fun c => ?_)
          by_cases hcd : c = d
          · subst hcd
            simp [hd]
          · simp [hcd]

/-- A fresh coordinator takes over the persisted part of the snapshot. -/
theorem restore_build (text : Text) (now : Instant) (config : UniFiClientConfig)
    (coord : Coordinator) :
    restoreWatermarks text now (buildPersistData text coord) (.fresh config) =
      .ok { fresh config with
        states := fun c => restored text now config c (coord.states c) } := by
  have hload := @restoreWatermarks_entries text now
    (fun c => some (persistEntry text (coord.states c)))
    (fun c => restored text now config c (coord.states c)) allCategories (.fresh config)
    Category.all_nodup fun c _ => restoreEntry_persistEntry text now config c (coord.states c)
  simp only [Option.map_some, List.filterMap_eq_map', Category.mem_all, if_true] at hload
  exact hload

end Coordinator

end UnifiAlerts
