import UnifiAlerts.Persist
import UnifiAlerts.Awareness

/-!
# What a restart keeps

A coordinator starts from whatever the store holds and then runs on raw
inputs. Its snapshot restores the watermark, the alert count, the
webhook time and the last alert of every category, enabled or not, and a
coordinator restored from it has the same snapshot
(`persist_round_trip`).

The invariant is `Stored`: an alert comes back from its stored form but
for the raw payload. It holds of what a constructor built, since these
cut the severity to length, and of what was itself read back.

Two facts meet here. What a constructor builds is `Regular`, which is
the hypothesis under which an alert survives JSON; and what was read
back from a file is again of that kind, or is what the decoder of the
legacy format makes of it. So `Stored` holds at the start, whatever the
file was, and every step keeps it, which gives the round trip in every
state of every run.
-/

namespace UnifiAlerts

open Py Lib

/-! ## Alerts that come back -/

namespace UniFiAlert

/-- The alert comes back from its stored form, at whatever time it is read, but for the
raw payload. -/
def Stored (text : Text) (alert : UniFiAlert) : Prop :=
  ∀ now, fromDict text now (alert.toDict text) = .ok alert.withoutRaw

theorem lookup_untypedFields (d : JsonObj) (name : String) :
    ∀ names : List String, (untypedFields d names).lookup name =
      if name ∈ names then match d.getD name (.str "") with
        | .str _ => none
        | v => some v
      else none
  | [] => rfl
  | n :: names => by
      have ih := lookup_untypedFields d name names
      unfold untypedFields at ih ⊢
      rw [List.filterMap_cons]
      by_cases hn : name = n
      · subst hn
        rw [if_pos List.mem_cons_self]
        cases hv : d.getD name (.str "") with
        | str s =>
            dsimp only
            rw [ih, hv]
            split <;> rfl
        | _ => exact List.lookup_cons_self
      · have hmem : name ∈ n :: names ↔ name ∈ names := by simp [hn]
        rw [if_congr hmem rfl rfl, ← ih]
        cases d.getD n (.str "") with
        | str s => rfl
        | _ =>
            dsimp only
            rw [List.lookup_cons, beq_false_of_ne hn]

section

variable {text : Text} {now : Instant} {alert : UniFiAlert} {d d' : JsonObj}
  {receivedAt : DateTime} {raw : Json} {severity : String}

/-- A text field is written back as it was read. -/
theorem textField_untypedFields {name : String} {names : List String} (hname : name ∈ names)
    (halert : alert.untyped = untypedFields d names) :
    alert.textField name (readText d name) = (name, d.getD name (.str "")) := by
  unfold textField readText
  rw [halert, lookup_untypedFields, if_pos hname]
  cases d.getD name (.str "") <;> rfl

def textNames : List String := ["category", "message", "key", "device_name", "site"]

/-- What `from_dict` makes of the dictionary, with the other three values given. -/
def ofFields (d : JsonObj) (receivedAt : DateTime) (raw : Json) (severity : String) :
    UniFiAlert where
  category := readText d "category"
  message := readText d "message"
  receivedAt
  raw
  key := readText d "key"
  deviceName := readText d "device_name"
  site := readText d "site"
  severity
  untyped := untypedFields d textNames

theorem ofFields_congr
    (h : ∀ name ∈ textNames, d'.getD name (.str "") = d.getD name (.str "")) :
    ofFields d' receivedAt raw severity = ofFields d receivedAt raw severity := by
  have hread : ∀ name ∈ textNames, readText d' name = readText d name := by
    intro name hname
    unfold readText
    rw [h name hname]
  have huntyped : untypedFields d' textNames = untypedFields d textNames := by
    refine List.filterMap_congr fun name hname => ?_
    rw [h name hname]
  unfold ofFields
  rw [hread "category" (by decide), hread "message" (by decide), hread "key" (by decide),
    hread "device_name" (by decide), hread "site" (by decide), huntyped]

theorem toDict_ofFields : (ofFields d receivedAt raw severity).toDict text = .obj [
    ("category", d.getD "category" (.str "")),
    ("message", d.getD "message" (.str "")),
    ("received_at", .str (text.isoformat receivedAt)),
    ("key", d.getD "key" (.str "")),
    ("device_name", d.getD "device_name" (.str "")),
    ("site", d.getD "site" (.str "")),
    ("severity", .str severity)] := by
  have hfield : ∀ name ∈ textNames,
      (ofFields d receivedAt raw severity).textField name (readText d name) =
        (name, d.getD name (.str "")) :=
    fun name hname => textField_untypedFields hname rfl
  rw [← hfield "category" (by decide), ← hfield "message" (by decide), ← hfield "key" (by decide),
    ← hfield "device_name" (by decide), ← hfield "site" (by decide)]
  rfl

/-- Reading, writing and reading again. -/
theorem stored_fromDict {data : Json} (h : fromDict text now data = .ok alert) :
    Stored text alert := by
  intro now'
  obtain ⟨d, -, h⟩ := bind_eq_ok.mp h
  obtain ⟨receivedAt, halert⟩ : ∃ receivedAt, alert = ofFields d receivedAt
      (d.getD "raw" (.obj [])) (slice (text.str (d.getD "severity" (.str ""))) 32) :=
    ⟨_, (Except.ok.inj h).symm⟩
  rw [halert, toDict_ofFields]
  have hagain : ∀ severity : String, fromDict text now' (.obj [
      ("category", d.getD "category" (.str "")),
      ("message", d.getD "message" (.str "")),
      ("received_at", .str (text.isoformat receivedAt)),
      ("key", d.getD "key" (.str "")),
      ("device_name", d.getD "device_name" (.str "")),
      ("site", d.getD "site" (.str "")),
      ("severity", .str severity)]) =
        .ok (ofFields d ((text.fromisoformat (text.isoformat receivedAt)).getD (.aware now'))
          (.obj []) (slice severity 32)) := by
    intro severity
    refine congrArg Except.ok (ofFields_congr fun name hname => ?_)
    simp only [textNames, List.mem_cons, List.not_mem_nil, or_false] at hname
    rcases hname with rfl | rfl | rfl | rfl | rfl <;> rfl
  rw [hagain, text.fromisoformat_isoformat, slice_slice]
  rfl

end

end UniFiAlert

namespace Input

theorem MadeFrom.regular {text : Text} {now : Instant} {input : Input} {alert : UniFiAlert}
    (h : input.MadeFrom text now alert) : alert.Regular := by
  cases input with
  | legacy records =>
      obtain ⟨record, -, category, h⟩ := h
      obtain ⟨receivedAt, -, h⟩ := bind_eq_ok.mp h
      rw [← Except.ok.inj h]
      exact ⟨slice_slice _ 32, rfl⟩
  | systemLog events =>
      obtain ⟨event, -, seen, seen', h⟩ := h
      obtain ⟨message, -, h⟩ := bind_eq_ok.mp h
      obtain ⟨keyCategory, -, h⟩ := bind_eq_ok.mp h
      obtain ⟨enumCategory, -, h⟩ := bind_eq_ok.mp h
      cases keyCategory <;> cases enumCategory <;>
        · obtain ⟨rfl, -⟩ := Prod.mk.inj (Except.ok.inj h)
          exact ⟨slice_slice _ 32, rfl⟩
  | webhook category payload => exact UniFiAlert.regular_fromWebhookPayload h
  | _ => exact h.elim

end Input

namespace Coordinator

/-! ## Alerts of a running coordinator -/

/-- Every last alert of the coordinator does, which is the invariant of its runs. -/
def AllStored (text : Text) (coord : Coordinator) : Prop :=
  ∀ c a, (coord.states c).lastAlert = some a → a.Stored text

section

variable {text : Text} {now : Instant} {config : UniFiClientConfig} {coord : Coordinator}

theorem AllStored.input (h : AllStored text coord) (t : TimedInput) :
    AllStored text (inputStep text config coord t) := by
  have hstates := @Input.convert_states text t.now.wall coord t.input
  unfold inputStep inputTurn
  rcases hx : t.input.convert text t.now.wall coord with ⟨coord', op⟩
  rw [hx] at hstates
  have h' : AllStored text coord' := by
    intro c
    rw [hstates]
    exact h c
  cases op with
  | none => exact h'
  | some op =>
      have hop : ∀ a ∈ op.alerts, a.Stored text :=
        Input.convert_alerts hx fun a ha _ =>
          UniFiAlert.fromDict_toDict (Input.madeFrom_of_constructed ha).regular
      intro c a hlast
      rcases step_state config coord' ⟨t.now, op⟩ c with ⟨-, hst⟩ | ⟨-, hm⟩
      · exact h' c a ((congrArg CategoryState.lastAlert hst).symm.trans hlast)
      · rcases hm.lastAlert with hsame | ⟨b, hb, hnew⟩
        · exact h' c a (hsame.symm.trans hlast)
        · obtain rfl := Option.some.inj (hnew.symm.trans hlast)
          exact hop b hb

theorem restoreAlert_stored {v : Json} {current last : Option UniFiAlert}
    (h : restoreAlert text now v current = .ok last) :
    last = current ∨ ∃ a, last = some a ∧ a.Stored text := by
  unfold restoreAlert at h
  split at h
  · exact Or.inl (Except.ok.inj h).symm
  · split at h
    · rename_i a ha
      exact Or.inr ⟨a, (Except.ok.inj h).symm, UniFiAlert.stored_fromDict ha⟩
    · exact Or.inl (Except.ok.inj h).symm
    · exact Or.inl (Except.ok.inj h).symm
    · cases h

theorem restoreEntry_stored {state state' : CategoryState} {v : Json}
    (h : restoreEntry text now state v = .ok state') :
    state'.lastAlert = state.lastAlert ∨ ∃ a, state'.lastAlert = some a ∧ a.Stored text := by
  cases v with
  | str s =>
      obtain rfl := Except.ok.inj h
      exact Or.inl rfl
  | obj entry =>
      obtain ⟨alertCount, -, h⟩ := bind_eq_ok.mp h
      obtain ⟨lastAlert, hlast, h⟩ := bind_eq_ok.mp h
      obtain rfl := Except.ok.inj h
      exact restoreAlert_stored hlast
  | _ =>
      obtain rfl := Except.ok.inj h
      exact Or.inl rfl

theorem AllStored.restore : ∀ {file : JsonObj} {coord coord' : Coordinator},
    AllStored text coord → restoreWatermarks text now file coord = .ok coord' →
      AllStored text coord'
  | [], _, _, h, hload => by
      obtain rfl := Except.ok.inj hload
      exact h
  | (cat, entry) :: file, coord, coord', h, hload => by
      unfold restoreWatermarks at hload
      split at hload
      · exact AllStored.restore h hload
      · rename_i c _
        obtain ⟨state, hstate, hload⟩ := bind_eq_ok.mp hload
        refine AllStored.restore (fun d a hlast => ?_) hload
        rw [setState_states] at hlast
        split at hlast
        · rcases restoreEntry_stored hstate with hsame | ⟨b, hb, hstored⟩
          · exact h c a (hsame.symm.trans hlast)
          · obtain rfl := Option.some.inj (hb.symm.trans hlast)
            exact hstored
        · exact h d a hlast

/-! ## The round trip -/

/-- What a snapshot keeps of a category: the rest is as in a category never seen. -/
def kept (config : UniFiClientConfig) (c : Category) (state : CategoryState) : CategoryState where
  category := c
  enabled := config.enabled c
  isAlerting := false
  lastAlert := state.lastAlert.map UniFiAlert.withoutRaw
  alertCount := state.alertCount
  openCount := 0
  filteredCount := 0
  lastClearedAt := state.lastClearedAt
  lastWebhookAt := state.lastWebhookAt
  lastFilteredAt := none
  lastAlarmReceivedAt := none

/-- The format before 1.6.0: a bare watermark for each category that has one. -/
def legacyData (text : Text) (coord : Coordinator) : JsonObj :=
  allCategories.filterMap fun c =>
    ((coord.states c).lastClearedAt.map fun d => Json.str (text.isoformat d)).map
      fun v => (c.name, v)

/-- The contract, for any options and at any later time: the snapshot restores every
stored field, a coordinator restored from it has the same snapshot, and the legacy format
gives the same watermarks. -/
structure RoundTrips (text : Text) (coord : Coordinator) : Prop where
  restored : ∀ config now,
    restoreWatermarks text now (buildPersistData text coord) (.fresh config) =
      .ok { fresh config with states := fun c => kept config c (coord.states c) }
  again : ∀ config now new,
    restoreWatermarks text now (buildPersistData text coord) (.fresh config) = .ok new →
      buildPersistData text new = buildPersistData text coord
  legacy : ∀ config now new,
    restoreWatermarks text now (buildPersistData text coord) (.fresh config) = .ok new →
      ∃ old, restoreWatermarks text now (legacyData text coord) (.fresh config) = .ok old ∧
        ∀ c, (old.states c).lastClearedAt = (new.states c).lastClearedAt

theorem restore_kept (h : AllStored text coord) (config : UniFiClientConfig) (now : Instant) :
    restoreWatermarks text now (buildPersistData text coord) (.fresh config) =
      .ok { fresh config with states := fun c => kept config c (coord.states c) } := by
  rw [restore_build]
  refine congrArg (fun states => Except.ok { fresh config with states }) (funext fun c => ?_)
  unfold restored kept
  cases hlast : (coord.states c).lastAlert with
  | none => rfl
  | some a =>
      rw [Option.bind_some, h c a hlast now]
      rfl

theorem persistEntry_kept (config : UniFiClientConfig) (c : Category) (state : CategoryState) :
    persistEntry text (kept config c state) = persistEntry text state := by
  unfold persistEntry kept
  cases state.lastAlert <;> rfl

theorem restore_legacyData (coord : Coordinator) (config : UniFiClientConfig) (now : Instant) :
    restoreWatermarks text now (legacyData text coord) (.fresh config) =
      .ok { fresh config with states := fun c => {
        category := c
        enabled := config.enabled c
        lastClearedAt := (coord.states c).lastClearedAt } } := by
  have hload := @restoreWatermarks_entries text now
    (fun c => (coord.states c).lastClearedAt.map fun d => Json.str (text.isoformat d))
    (fun c => {
      category := c
      enabled := config.enabled c
      lastClearedAt := (coord.states c).lastClearedAt }) allCategories (.fresh config)
    Category.all_nodup fun c _ => by
      cases (coord.states c).lastClearedAt with
      | none => rfl
      | some d =>
          simp only [Option.map_some, restoreEntry, restoreStamp, text.fromisoformat_isoformat]
          rfl
  simp only [Category.mem_all, if_true] at hload
  exact hload

end

/-- A coordinator that started from any file and got any inputs since has a snapshot that
gives back all that it is meant to keep. -/
theorem persist_round_trip (text : Text) (config : UniFiClientConfig) (now : Instant)
    (file : JsonObj) (start : Coordinator)
    (hload : restoreWatermarks text now file (.fresh config) = .ok start)
    (inputs : List TimedInput) :
    RoundTrips text (run (inputStep text config) start inputs) := by
  have hstart : AllStored text start :=
    @AllStored.restore text now file (.fresh config) start (fun _ _ hlast => (nomatch hlast)) hload
  have hstored : AllStored text (run (inputStep text config) start inputs) :=
    run_preserves (I := AllStored text) (fun _ t h => h.input t) hstart inputs
  generalize run (inputStep text config) start inputs = coord at hstored
  refine ⟨restore_kept hstored, fun config' now' new hnew => ?_, fun config' now' new hnew => ?_⟩
  · rw [restore_kept hstored] at hnew
    obtain rfl := Except.ok.inj hnew
    refine List.map_congr_left fun c _ => ?_
    rw [persistEntry_kept]
  · rw [restore_kept hstored] at hnew
    obtain rfl := Except.ok.inj hnew
    exact ⟨_, restore_legacyData coord config' now', fun _ => rfl⟩

/-- A push, on a coordinator with one category enabled that starts from a file with a
watermark and with a last alert whose message is a number. -/
theorem persist_round_trip_pushed :
    let text := Text.counting fun _ => none
    let config : UniFiClientConfig := { enabledCategories := some ["network_wan"] }
    let file : JsonObj := [("network_wan", .str "a+5"), ("security_threat",
      .obj [("alert_count", .int 3), ("last_alert", .obj [("message", .int 1)])])]
    ∃ start, restoreWatermarks text 7 file (.fresh config) = .ok start ∧
      RoundTrips text (run (inputStep text config) start
        [⟨⟨9, 0⟩, .webhook "network_wan" (.obj [("message", .str "WAN down")])⟩]) := by
  intro text config file
  exact ⟨_, rfl, persist_round_trip text config 7 file _ rfl _⟩

end Coordinator

end UnifiAlerts
