import UnifiAlerts.Classification
import UnifiAlerts.Sightings

/-!
# Malformed records

A fetch turns a list of JSON objects into alerts, one record after the
other, and what one record raises ends the whole loop. So a response is
`Tolerated` (the fetch returns, with every alert that can be built from
a record in its category) exactly when each of its records is readable
(`records_tolerated_iff`). Records that the filters drop, archived
alarms and events that are not NEW, are never read.

Readable is a decidable test of one record (`legacyReadable`,
`eventReadable`), proved to be exactly when its constructor returns. So
the property of a response becomes one of its records, with no reference
to the loops. The fetches are run against a controller that `Lists` the
records on either path; how a list of answers becomes such a list of
records is the matter of `Answers` and `Pagination`.

The v2 fetch computes the start of its window first. It is taken apart
there (`fetchV2Since`), so that the result holds from any start.
-/

namespace UnifiAlerts

open Py Lib

/-- `x` returns, and no record keeps the alert of another out of its category. -/
def Tolerated {β : Type} (build : JsonObj → Except Exc β) (alert? : β → Option UniFiAlert)
    (records : List JsonObj) (x : Except Error Categorised) : Prop :=
  ∃ result, x = .ok result ∧ ∀ record ∈ records, ∀ b a, build record = .ok b → alert? b = some a →
    ∀ c : Category, a.category = c.name → a ∈ result.alertsFor c

theorem tolerated_iff {β : Type} {build : JsonObj → Except Exc β} {alert? : β → Option UniFiAlert}
    {records : List JsonObj} {x : Except Error Categorised}
    (hx : x = ofPy ((records.mapM build).map fun bs =>
      Categorised.grouped (bs.filterMap alert?) [])) :
    Tolerated build alert? records x ↔ ∀ record ∈ records, ∃ b, build record = .ok b := by
  rw [← exists_mapM_ok]
  cases hbuilt : records.mapM build with
  | error e =>
      refine iff_of_false ?_ fun ⟨_, h⟩ => by cases h
      rintro ⟨result, hresult, -⟩
      rw [hx, hbuilt] at hresult
      cases hresult
  | ok bs =>
      rw [hbuilt] at hx
      refine iff_of_true ⟨_, hx, ?_⟩ ⟨bs, rfl⟩
      intro record hrecord b a hb ha c hcat
      have hmem : a ∈ bs.filterMap alert? :=
        List.mem_filterMap.mpr ⟨b, (mem_mapM_ok hbuilt).mpr ⟨record, hrecord, hb⟩, ha⟩
      rw [Categorised.alertsFor_grouped]
      exact List.mem_append_right _ (List.mem_filter.mpr ⟨hmem, by simpa using hcat⟩)

/-! ## The two fetches -/

/-- What the controller sends for a list of alarms, and for a list of events. -/
def alarmsAnswer (records : List JsonObj) : HttpResult :=
  .response (.mk 200 true (.value (.obj
    [("meta", .obj [("rc", .str "ok")]), ("data", .arr (records.map .obj))])))

def eventsAnswer (events : List JsonObj) : HttpResult :=
  .response (.mk 200 true (.value (.obj [("data", .arr (events.map .obj))])))

/-- The controller lists `records` on its legacy paths and `events` in its system log. -/
structure Lists (net : Net) (records events : List JsonObj) : Prop where
  legacy : ∀ n url, net.respond n (.get url) = alarmsAnswer records
  systemLog : ∀ n url timestampFrom timestampTo pageNumber pageSize,
    net.respond n (.page url timestampFrom timestampTo pageNumber pageSize) = eventsAnswer events

theorem readAlarms_alarmsAnswer (text : Text) (site : String) (records : List JsonObj) :
    readAlarms text site (alarmsAnswer records) = .ok (some (records.filter isOpen)) := by
  have hdata : readAlarms text site (alarmsAnswer records) =
      (ofPy (unarchived (records.map .obj))).map some := by
    show (ofPy (unarchived (records.map .obj)) >>= fun items => return some items) = _
    cases unarchived (records.map .obj) with
    | error e => rfl
    | ok items => rfl
  rw [hdata, unarchived_objs]
  rfl

section

variable {net : Net} {records events : List JsonObj}

theorem tryFetchAlarms_lists (h : Lists net records events) (url site : String) (s : ClientState) :
    ∃ s', tryFetchAlarms net url site s = (.ok (some (records.filter isOpen)), s') := by
  refine ⟨{ s with requests := s.requests ++ [.get url] }, ?_⟩
  unfold tryFetchAlarms
  rw [Comp.bind_run (show send net _ s = _ from rfl), h.legacy, readAlarms_alarmsAnswer]
  rfl

theorem fetchAlarms_lists (h : Lists net records events) (site : String) (s : ClientState) :
    ∃ s', fetchAlarms net site s = (.ok (records.filter isOpen), s') := by
  unfold fetchAlarms
  rw [Comp.gets_bind]
  cases s.alarmUrlCache site with
  | some url =>
      obtain ⟨s', hurl⟩ := tryFetchAlarms_lists h url site s
      dsimp only
      rw [Comp.bind_run hurl]
      exact ⟨s', rfl⟩
  | none =>
      dsimp only
      unfold discoverAlarmUrl alarmPaths discoverFrom
      obtain ⟨s', hpath⟩ := tryFetchAlarms_lists h
        (net.base ++ unifiOsNetworkPrefix ++ "/api/s/" ++ site ++ "/list/alarm") site s
      rw [Comp.bind_run hpath]
      dsimp only
      rw [Comp.update_bind]
      exact ⟨_, rfl⟩

theorem categoriseAlarms_lists (h : Lists net records events) (site : String) (s : ClientState) :
    (categoriseAlarms net site s).1 =
      ofPy (((records.filter isOpen).mapM (recordAlert net.text net.now)).map fun alerts =>
        Categorised.grouped alerts.reduceOption []) := by
  obtain ⟨s', hfetch⟩ := fetchAlarms_lists h site s
  unfold categoriseAlarms
  rw [Comp.bind_run hfetch, Comp.update_bind]
  exact categoriseLoop_result net _ _ _

theorem fetchSystemLogAlarms_lists (h : Lists net records events) (site : String)
    (since : Option Instant) (s : ClientState) :
    ∃ s', fetchSystemLogAlarms net site since s = (.ok (events.filter isNew), s') := by
  have hdata : (JsonObj.get [("data", .arr (events.map .obj))] "data").or (.arr []) =
      .arr (events.map .obj) := by
    cases events <;> rfl
  have hcount : JsonObj.getD [("data", .arr (events.map .obj))] "total_page_count" (.int 1) =
      .int 1 := rfl
  have hpage : (readSystemLogPage (eventsAnswer events)).mapError Error.ofClientError =
      .ok (.obj [("data", .arr (events.map .obj))]) := rfl
  refine ⟨{ s with requests := s.requests ++ [.page (systemLogAllUrl net.base site)
    (epochMs (windowStart net.now since)) (epochMs net.now) 0 systemLogPageSize] }, ?_⟩
  unfold fetchSystemLogAlarms maxSystemLogPages fetchPages
  rw [Comp.bind_run (show send net _ s = _ from rfl), h.systemLog, hpage, Comp.lift_ok_bind]
  simp only [Json.asDict, ofPy, Except.mapError, Comp.lift_ok_bind, hdata, Json.iter,
    newEvents_objs, hcount, intGe]
  rfl

namespace Coordinator

/-- `fetchV2` once it knows the lower bound of its window. -/
def fetchV2Since (net : Net) (site : String) (since : Option Instant) : CoordM Categorised := do
  groupEvents net (← onClient (fetchSystemLogAlarms net site since)) []

theorem fetchV2_since {net : Net} {site : String} {since : Option Instant} {coord : Coordinator}
    (hsince : fetchSince coord.states net.now = .ok since) :
    fetchV2 net site coord = fetchV2Since net site since coord := by
  show (Comp.lift (ofPy (fetchSince coord.states net.now)) >>= fetchV2Since net site) coord = _
  rw [hsince]
  rfl

theorem fetchV2Since_lists (h : Lists net records events) (site : String)
    (since : Option Instant) (coord : Coordinator) :
    (fetchV2Since net site since coord).1 =
      ofPy (((events.filter isNew).mapM (eventAlert net.text net.now)).map
        (Categorised.grouped · [])) := by
  obtain ⟨s', hfetch⟩ := fetchSystemLogAlarms_lists h site since coord.client
  have hrun : onClient (fetchSystemLogAlarms net site since) coord =
      (.ok (events.filter isNew), { coord with client := s' }) := by
    unfold onClient Comp.zoom
    rw [hfetch]
  unfold fetchV2Since
  rw [Comp.bind_run hrun]
  exact groupEvents_result net _ _ _

end Coordinator

end

/-! ## When no record aborts a fetch -/

/-- Both fetches tolerate a response exactly when each record that they read is
readable, whatever the other fields of the records hold; the v2 fetch does so from any
lower bound of its window, and so from the one that the watermarks give. -/
theorem records_tolerated_iff (net : Net) (records events : List JsonObj)
    (h : Lists net records events) (site : String) (s : ClientState) (since : Option Instant)
    (coord : Coordinator) :
    (Tolerated (recordAlert net.text net.now) id (records.filter isOpen)
        (categoriseAlarms net site s).1 ↔
      ∀ record ∈ records, isOpen record = true → legacyReadable record = true) ∧
    (Tolerated (eventAlert net.text net.now) some (events.filter isNew)
        (Coordinator.fetchV2Since net site since coord).1 ↔
      ∀ event ∈ events, isNew event = true → eventReadable event = true) ∧
    (Coordinator.fetchSince coord.states net.now = .ok since →
      (Tolerated (eventAlert net.text net.now) some (events.filter isNew)
          (Coordinator.fetchV2 net site coord).1 ↔
        ∀ event ∈ events, isNew event = true → eventReadable event = true)) := by
  have hlegacy := tolerated_iff (categoriseAlarms_lists h site s)
  have hsystemLog : (Coordinator.fetchV2Since net site since coord).1 =
      ofPy (((events.filter isNew).mapM (eventAlert net.text net.now)).map fun alerts =>
        Categorised.grouped (alerts.filterMap some) []) := by
    simp only [List.filterMap_some, Coordinator.fetchV2Since_lists h site since coord]
  have hevents : Tolerated (eventAlert net.text net.now) some (events.filter isNew)
      (Coordinator.fetchV2Since net site since coord).1 ↔
        ∀ event ∈ events, isNew event = true → eventReadable event = true := by
    rw [tolerated_iff hsystemLog]
    simp only [eventAlert_ok_iff, List.mem_filter, and_imp]
  refine ⟨?_, hevents, fun hsince => ?_⟩
  · rw [hlegacy]
    simp only [recordAlert_ok_iff, List.mem_filter, and_imp]
  · rw [Coordinator.fetchV2_since hsince]
    exact hevents

def listing (records events : List JsonObj) : Net where
  text := Text.counting fun _ => none
  base := "https://unifi"
  now := 0
  respond _ request :=
    match request with
    | .get _ => alarmsAnswer records
    | .probe _ => .response (.mk 200 true .empty)
    | .page .. => eventsAnswer events

theorem lists_listing (records events : List JsonObj) :
    Lists (listing records events) records events :=
  ⟨fun _ _ => rfl, fun _ _ _ _ _ _ => rfl⟩

/-- Coerced fields of every shape, and unreadable records that the filters drop. -/
theorem records_tolerated_coerced :
    let records : List JsonObj :=
      [[("key", .str "EVT_AP_Lost_Contact"), ("msg", .arr []), ("datetime", .obj []),
      ("severity", .int 3)],
        [("key", .null), ("archived", .bool true)]]
    let events : List JsonObj :=
      [[("status", .str "NEW"), ("key", .str "CLIENT_ROAMED_2"), ("timestamp", .arr [.null])],
        [("status", .str "DONE"), ("key", .int 1)]]
    let net := listing records events
    Tolerated (recordAlert net.text net.now) id (records.filter isOpen)
        (categoriseAlarms net "default" {}).1 ∧
      Tolerated (eventAlert net.text net.now) some (events.filter isNew)
        (Coordinator.fetchV2 net "default" (.fresh {})).1 := by
  intro records events net
  obtain ⟨hlegacy, -, hsystemLog⟩ := records_tolerated_iff net records events
    (lists_listing records events) "default" {} none (.fresh {})
  exact ⟨hlegacy.mpr (by decide), (hsystemLog rfl).mpr (by decide)⟩

/-- A key that is no string, on either path, and the infinity in a time field: the alarm
or event beside it is well formed and is not categorised. -/
theorem malformed_record_aborts :
    let alarm : JsonObj := [("key", .str "EVT_AP_Lost_Contact")]
    let event : JsonObj := [("status", .str "NEW"), ("key", .str "CLIENT_ROAMED")]
    let infinite : JsonObj :=
      [("key", .str "EVT_AP_Lost_Contact"), ("datetime", .float (.infinity false))]
    let net := listing [[("key", .null)], alarm] [[("status", .str "NEW"), ("key", .int 1)], event]
    let net' := listing [infinite, alarm] []
    (categoriseAlarms net "default" {}).1 = .error (.py .typeError) ∧
      (categoriseAlarms net' "default" {}).1 = .error (.py .overflowError) ∧
      (Coordinator.fetchV2Since net "default" none (.fresh {})).1 = .error (.py .typeError) ∧
      (∃ a, recordAlert net.text net.now alarm = .ok (some a)) ∧
      (∃ a, eventAlert net.text net.now event = .ok a) ∧
      ¬∀ (net : Net) (records events : List JsonObj), Lists net records events →
        ∀ (site : String) (s : ClientState) (since : Option Instant) (coord : Coordinator),
          Tolerated (recordAlert net.text net.now) id (records.filter isOpen)
              (categoriseAlarms net site s).1 ∧
            Tolerated (eventAlert net.text net.now) some (events.filter isNew)
              (Coordinator.fetchV2Since net site since coord).1 := by
  intro alarm event infinite net net'
  have hlegacy : (categoriseAlarms net "default" {}).1 = .error (.py .typeError) := rfl
  refine ⟨hlegacy, rfl, rfl, ⟨_, rfl⟩, eventAlert_ok_iff.mpr (by decide), fun hall => ?_⟩
  obtain ⟨⟨result, hresult, -⟩, -⟩ := hall net _ _ (lists_listing _ _) "default" {} none (.fresh {})
  rw [hlegacy] at hresult
  cases hresult

end UnifiAlerts
