import UnifiAlerts.EventKeys
import UnifiAlerts.Grouping

/-!
# What a record says

The alert that a record becomes depends on the clock in one field only:
a record whose time cannot be read is dated by the poll that fetches it.
A `Sighting` is the rest, the alert with the time that its record
denotes, if any, and the poll at time `t` gets `sighting.at t`
(`recordAlert_eq`, `eventAlert_at`).

`legacyReadable` and `eventReadable` say which records become an alert
at all. Most fields are coerced and cannot hurt. What can is a key that
is no string, on both paths; for a record of a known category the float
infinity in its time field, which `int()` refuses with an error that
nobody catches; for an event an unhashable category, and a template that
is no string or whose parameters are no object.
-/

namespace UnifiAlerts

open Py Lib

/-! ## Timestamps -/

/-- The time that a legacy timestamp field denotes, when it can be read. -/
def readStamp (text : Text) (ts : Json) : Except Exc (Option DateTime) :=
  match ts with
  | .null => .ok none
  | ts =>
    match ts.toInt with
    | .ok epochMs => .ok (fromTimestampMs epochMs)
    | .error .valueError | .error .typeError => .ok (text.fromisoformat (text.str ts))
    | .error e => .error e

theorem apiReceivedAt_eq (text : Text) (now : Instant) (ts : Json) :
    UniFiAlert.apiReceivedAt text now ts = (readStamp text ts).map (·.getD (.aware now)) := by
  unfold UniFiAlert.apiReceivedAt readStamp
  cases ts with
  | null => rfl
  | _ =>
      dsimp only
      generalize Json.toInt _ = ms
      cases ms with
      | ok ms => rfl
      | error e => cases e <;> rfl

/-- The time that a v2 timestamp field denotes, when it can be read. -/
def readEventStamp (ts : Json) : Option DateTime :=
  match ts with
  | .null => none
  | ts =>
    match ts.toInt with
    | .ok epochMs => fromTimestampMs epochMs
    | .error _ => none

theorem systemLogReceivedAt_eq (now : Instant) (ts : Json) :
    UniFiAlert.systemLogReceivedAt now ts = (readEventStamp ts).getD (.aware now) := by
  unfold UniFiAlert.systemLogReceivedAt readEventStamp
  cases ts with
  | null => rfl
  | _ =>
      dsimp only
      generalize Json.toInt _ = ms
      cases ms <;> rfl

theorem readEventStamp_aware {ts : Json} {d : DateTime} (h : readEventStamp ts = some d) :
    d.isAware = true := by
  unfold readEventStamp at h
  split at h
  · cases h
  · split at h
    · exact fromTimestampMs_aware h
    · cases h

/-- The record carries a time that can be read. -/
def Dated (text : Text) (record : JsonObj) : Prop :=
  ∃ t, readStamp text (recordStamp record) = .ok (some t)

def EventDated (event : JsonObj) : Prop := ∃ t, readEventStamp (event.get "timestamp") = some t


/-! ## Readable records -/

def messageReadable (event : JsonObj) : Bool :=
  let messageRaw := event.getD "message_raw" (.str "")
  !messageRaw.truthy || (messageRaw.isStr && ((event.get "parameters").or (.obj [])).isObj)

def eventReadable (event : JsonObj) : Bool :=
  messageReadable event &&
    ((event.getD "key" (.str "")).isStr && (event.getD "category" (.str "")).hashable)

theorem systemLogMessage_ok_iff {text : Text} {event : JsonObj} :
    (∃ message, UniFiAlert.systemLogMessage text event = .ok message) ↔
      messageReadable event = true := by
  unfold UniFiAlert.systemLogMessage messageReadable
  dsimp only
  cases (event.getD "message_raw" (.str "")).truthy with
  | false => exact iff_of_true ⟨_, rfl⟩ rfl
  | true =>
      simp only [if_true, Bool.not_true, Bool.false_or]
      cases (event.get "parameters").or (.obj []) with
      | obj parameters =>
          cases event.getD "message_raw" (.str "") with
          | str m => exact iff_of_true ⟨_, rfl⟩ rfl
          | _ => exact iff_of_false (fun ⟨_, h⟩ => by cases h) Bool.false_ne_true
      | _ => exact iff_of_false (fun ⟨_, h⟩ => by cases h) (by simp [Json.isObj])

theorem classifyEnum_ok_iff {v : Json} :
    (∃ found, classifyEnum v = .ok found) ↔ v.hashable = true := by
  cases v with
  | arr xs => exact iff_of_false (fun ⟨_, h⟩ => by cases h) Bool.false_ne_true
  | obj kvs => exact iff_of_false (fun ⟨_, h⟩ => by cases h) Bool.false_ne_true
  | _ => exact iff_of_true ⟨_, rfl⟩ rfl

theorem classifyEventKey_ok_iff {key : Json} :
    (∃ found, classifyEventKey key (.str "") = .ok found) ↔ key.isStr = true := by
  cases key with
  | str k =>
      refine iff_of_true ?_ rfl
      unfold classifyEventKey
      dsimp only
      cases classifyKey k with
      | none => exact ⟨_, rfl⟩
      | some c => exact ⟨_, rfl⟩
  | _ => exact iff_of_false (fun ⟨_, h⟩ => by cases h) Bool.false_ne_true

theorem eventAlert_ok_iff {text : Text} {now : Instant} {event : JsonObj} :
    (∃ a, eventAlert text now event = .ok a) ↔ eventReadable event = true := by
  have henum : classifyEventKey (.str "") (event.getD "category" (.str "")) =
      classifyEnum (event.getD "category" (.str "")) :=
    classifyEventKey_enum classifyKey_empty _
  rw [eventReadable, Bool.and_eq_true, Bool.and_eq_true, ← classifyEnum_ok_iff,
    ← classifyEventKey_ok_iff, ← @systemLogMessage_ok_iff text]
  unfold eventAlert UniFiAlert.fromSystemLogEvent
  dsimp only
  rw [henum]
  cases UniFiAlert.systemLogMessage text event with
  | error e => exact iff_of_false (fun ⟨_, h⟩ => by cases h) fun ⟨⟨_, h⟩, _⟩ => by cases h
  | ok message =>
      cases classifyEventKey (event.getD "key" (.str "")) (.str "") with
      | error e => exact iff_of_false (fun ⟨_, h⟩ => by cases h) fun ⟨_, ⟨_, h⟩, _⟩ => by cases h
      | ok keyCategory =>
          cases classifyEnum (event.getD "category" (.str "")) with
          | error e =>
              exact iff_of_false (fun ⟨_, h⟩ => by cases h) fun ⟨_, _, _, h⟩ => by cases h
          | ok enumCategory => exact iff_of_true ⟨_, rfl⟩ ⟨⟨_, rfl⟩, ⟨_, rfl⟩, _, rfl⟩

/-! ## Sightings -/

structure Sighting where
  alert : UniFiAlert
  stamp : Option DateTime

/-- The alert of a poll at time `now`. -/
def Sighting.at (now : Instant) (sighting : Sighting) : UniFiAlert :=
  { sighting.alert with receivedAt := sighting.stamp.getD (.aware now) }

namespace Sighting

@[simp] theorem at_category (now : Instant) (s : Sighting) :
    (s.at now).category = s.alert.category := rfl

@[simp] theorem at_severity (now : Instant) (s : Sighting) :
    (s.at now).severity = s.alert.severity := rfl

theorem at_isAware (s : Sighting) (now now' : Instant) :
    (s.at now).receivedAt.isAware = (s.at now').receivedAt.isAware := by
  unfold Sighting.at
  cases s.stamp <;> rfl

end Sighting

def recordSighting (text : Text) (record : JsonObj) : Except Exc (Option Sighting) := do
  match ← recordAlert text 0 record with
  | none => return none
  | some alert => return some { alert, stamp := ← readStamp text (recordStamp record) }

def eventSighting (text : Text) (event : JsonObj) : Except Exc Sighting := do
  return { alert := ← eventAlert text 0 event, stamp := readEventStamp (event.get "timestamp") }

theorem fromApiAlarm_eq (text : Text) (now : Instant) (category : String) (record : JsonObj) :
    UniFiAlert.fromApiAlarm text now category record =
      (readStamp text (recordStamp record)).bind fun stamp =>
        (UniFiAlert.fromApiAlarm text 0 category record).map fun alert =>
          Sighting.at now { alert, stamp } := by
  unfold UniFiAlert.fromApiAlarm
  rw [apiReceivedAt_eq, apiReceivedAt_eq, ← recordStamp]
  cases readStamp text (recordStamp record) with
  | error e => rfl
  | ok stamp => rfl

theorem recordAlert_eq (text : Text) (now : Instant) (record : JsonObj) :
    recordAlert text now record = (recordSighting text record).map (Option.map (·.at now)) := by
  unfold recordSighting recordAlert
  cases classifyEventKey (record.getD "key" (.str "")) (.str "") with
  | error e => rfl
  | ok found =>
      cases found with
      | none => rfl
      | some c =>
          rw [ok_bind, ok_bind]
          dsimp only
          rw [fromApiAlarm_eq text now]
          unfold UniFiAlert.fromApiAlarm
          rw [apiReceivedAt_eq, ← recordStamp]
          cases readStamp text (recordStamp record) with
          | error e => rfl
          | ok stamp => rfl

theorem eventAlert_at (text : Text) (now : Instant) (event : JsonObj) :
    eventAlert text now event = (eventSighting text event).map (·.at now) := by
  unfold eventSighting eventAlert UniFiAlert.fromSystemLogEvent
  dsimp only
  rw [systemLogReceivedAt_eq]
  cases UniFiAlert.systemLogMessage text event with
  | error e => rfl
  | ok message =>
      cases classifyEventKey (event.getD "key" (.str "")) (.str "") with
      | error e => rfl
      | ok keyCategory =>
          cases classifyEventKey (.str "") (event.getD "category" (.str "")) with
          | error e => rfl
          | ok enumCategory => cases keyCategory <;> cases enumCategory <;> rfl

/-! Whether a record can be read does not depend on the time of the poll either. -/

theorem recordSighting_ok_iff {text : Text} {record : JsonObj} :
    (∃ found, recordSighting text record = .ok found) ↔ legacyReadable record = true := by
  rw [← @recordAlert_ok_iff text 0, recordAlert_eq]
  cases recordSighting text record with
  | error e => exact iff_of_false (fun ⟨_, h⟩ => by cases h) fun ⟨_, h⟩ => by cases h
  | ok found => exact iff_of_true ⟨_, rfl⟩ ⟨_, rfl⟩

theorem eventSighting_ok_iff {text : Text} {event : JsonObj} :
    (∃ s, eventSighting text event = .ok s) ↔ eventReadable event = true := by
  rw [← @eventAlert_ok_iff text 0, eventAlert_at]
  cases eventSighting text event with
  | error e => exact iff_of_false (fun ⟨_, h⟩ => by cases h) fun ⟨_, h⟩ => by cases h
  | ok s => exact iff_of_true ⟨_, rfl⟩ ⟨_, rfl⟩

end UnifiAlerts
