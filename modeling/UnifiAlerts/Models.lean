import UnifiAlerts.Severity

/-!
# Alerts and category state

`UniFiAlert` with its three constructors (webhook payload, legacy alarm
record, v2 system-log event) and its stored form, and `CategoryState`
with the transitions `applyAlert`, `recordFiltered` and `clear`. The
wall clock a constructor reads is its argument `now`.

`lastAlarmReceivedAt` and `lastFilteredAt` only ever hold the result of
`ensure_aware`, so they are instants; `lastClearedAt` and
`lastWebhookAt` are also read back from storage and stay datetimes.

The fields of a payload are JSON values, and the constructors coerce
each as the source does, with `str()`, `int()` or not at all. An
exception of one of these leaves the constructor, which therefore
returns `Except`. The texts of an alert are cut to length here; the time
is read here too, with its fallbacks in the order of the source.
-/

namespace UnifiAlerts

open Py

def ensureAware (dt : DateTime) : Instant := dt.instant

/-! ## Message templates -/

/-- `\{([^{}]+)\}` matched at the front: the token and what follows it. -/
def matchToken : List Char → Option (String × List Char)
  | '{' :: cs =>
    match cs.span fun c => c != '{' && c != '}' with
    | (t :: ts, '}' :: rest) => some (String.ofList (t :: ts), rest)
    | _ => none
  | _ => none

/-- `re.sub`: scan once from the left; `fuel` is the length of the input. -/
def subTokens (replace : String → Option String) : Nat → List Char → List Char
  | 0, cs => cs
  | _, [] => []
  | fuel + 1, c :: cs =>
    match matchToken (c :: cs) with
    | some (token, rest) =>
      ((replace token).map String.toList).getD ('{' :: token.toList ++ ['}'])
        ++ subTokens replace fuel rest
    | none => c :: subTokens replace fuel cs

/-- The display value of one parameter. -/
def displayValue (text : Text) (key : String) : Json → String
  | .obj value => text.str (((JsonObj.get value "name").or (JsonObj.get value "id")).or (.str key))
  | value => text.str value

def renderMessageRaw (text : Text) (messageRaw : String) (parameters : JsonObj) : String :=
  let display token := (parameters.lookup token).map (displayValue text token)
  String.ofList (subTokens display messageRaw.toList.length messageRaw.toList)

/-! ## Alerts -/

/-- One alert. `untyped` holds the stored values of text fields that are not
strings, which `from_dict` keeps as they are; every other constructor leaves it
empty. -/
structure UniFiAlert where
  category : String
  message : String
  receivedAt : DateTime
  raw : Json := .obj []
  key : String := ""
  deviceName : String := ""
  site : String := ""
  severity : String := ""
  untyped : JsonObj := []

namespace UniFiAlert

def severityLevel (alert : UniFiAlert) : MinimumSeverity := normalizeSeverity alert.severity

def fromWebhookPayload (text : Text) (now : Instant) (category : String) (payload : Json) :
    Except Exc UniFiAlert := do
  let p ← payload.asDict
  let message := (((p.get "message").or (p.get "msg")).or (p.get "text")).or
    ((p.get "description").or (.str "Unknown alert"))
  return {
    category
    message := slice (text.str message) 255
    receivedAt := .aware now
    key := slice (text.str (p.getD "key" (.str ""))) 64
    deviceName := slice (text.str
      (((p.get "device_name").or (p.get "ap_name")).or ((p.get "sw_name").or (.str "")))) 255
    site := text.str (((p.get "site_name").or (p.get "site")).or (.str ""))
    severity := slice (text.str (((p.get "severity").or (p.get "subsystem")).or (.str ""))) 32 }

/-- The `received_at` of a legacy alarm with timestamp field `ts`: the numeric
branch first, then ISO text, and `now` when neither parses. -/
def apiReceivedAt (text : Text) (now : Instant) (ts : Json) : Except Exc DateTime :=
  match ts with
  | .null => .ok (.aware now)
  | ts =>
    match ts.toInt with
    | .ok epochMs => .ok ((fromTimestampMs epochMs).getD (.aware now))
    | .error .valueError | .error .typeError =>
      .ok ((text.fromisoformat (text.str ts)).getD (.aware now))
    | .error e => .error e

def fromApiAlarm (text : Text) (now : Instant) (category : String) (alarm : JsonObj) :
    Except Exc UniFiAlert := do
  let message := ((alarm.get "msg").or (alarm.get "message")).or
    ((alarm.get "key").or (.str "Unknown alert"))
  let receivedAt ← apiReceivedAt text now ((alarm.get "datetime").or (alarm.get "timestamp"))
  return {
    category
    message := slice (text.str message) 255
    receivedAt
    key := slice (text.str (alarm.getD "key" (.str ""))) 64
    deviceName := slice (text.str
      (((alarm.get "device_name").or (alarm.get "ap_name")).or (.str ""))) 255
    site := text.str ((alarm.get "site_name").or (.str ""))
    severity := slice (text.str
      (((alarm.get "severity").or (alarm.get "subsystem")).or (.str ""))) 32 }

/-- The `received_at` of a v2 event: epoch milliseconds, `now` on any failure. -/
def systemLogReceivedAt (now : Instant) (ts : Json) : DateTime :=
  match ts with
  | .null => .aware now
  | ts =>
    match ts.toInt with
    | .ok epochMs => (fromTimestampMs epochMs).getD (.aware now)
    | .error _ => .aware now

def systemLogMessage (text : Text) (payload : JsonObj) : Except Exc Json :=
  let messageRaw := payload.getD "message_raw" (.str "")
  if messageRaw.truthy then do
    let parameters ← ((payload.get "parameters").or (.obj [])).asDict
    match messageRaw with
    | .str m => return .str (renderMessageRaw text m parameters)
    | _ => throw .typeError
  else return ((payload.get "title_raw").or (payload.get "key")).or (.str "Unknown alert")

/-- Build an alert from a v2 event; also returns the keys already warned about.
The category is resolved in two stages, key first and then enum, and is the
empty string when neither matches. -/
def fromSystemLogEvent (text : Text) (now : Instant) (payload : JsonObj)
    (seenKeys : List String) : Except Exc (UniFiAlert × List String) := do
  let receivedAt := systemLogReceivedAt now (payload.get "timestamp")
  let message ← systemLogMessage text payload
  let key := payload.getD "key" (.str "")
  let v2CategoryEnum := payload.getD "category" (.str "")
  let keyCategory ← classifyEventKey key (.str "")
  let enumCategory ← classifyEventKey (.str "") v2CategoryEnum
  -- a key that is no string has raised in `classifyEventKey`
  let k := match key with
    | .str k => k
    | _ => ""
  let seen := if k != "" && !seenKeys.contains k then k :: seenKeys else seenKeys
  let (category, seenKeys) := match keyCategory, enumCategory with
    | some c, _ => (c.name, seenKeys)
    | none, some c => (c.name, seen)
    | none, none => ("", seen)
  return ({
    category
    message := slice (text.str message) 255
    receivedAt
    key := slice k 64
    deviceName := slice (text.str ((payload.get "device_name").or (.str ""))) 255
    site := text.str (((payload.get "site_name").or (payload.get "site")).or (.str ""))
    severity := slice (text.str ((payload.get "severity").or (.str ""))) 32 }, seenKeys)

/-! ### The stored form -/

def textField (alert : UniFiAlert) (name value : String) : String × Json :=
  (name, (alert.untyped.lookup name).getD (.str value))

def toDict (text : Text) (alert : UniFiAlert) : Json :=
  .obj [
    alert.textField "category" alert.category,
    alert.textField "message" alert.message,
    ("received_at", .str (text.isoformat alert.receivedAt)),
    alert.textField "key" alert.key,
    alert.textField "device_name" alert.deviceName,
    alert.textField "site" alert.site,
    ("severity", .str alert.severity)]

/-- A text field read back: its string, or "" with the value kept aside. -/
def readText (data : JsonObj) (name : String) : String :=
  match data.getD name (.str "") with
  | .str s => s
  | _ => ""

def untypedFields (data : JsonObj) (names : List String) : JsonObj :=
  names.filterMap fun name =>
    match data.getD name (.str "") with
    | .str _ => none
    | v => some (name, v)

def fromDict (text : Text) (now : Instant) (data : Json) : Except Exc UniFiAlert := do
  let d ← data.asDict
  let receivedAt := match d.getD "received_at" (.str "") with
    | .str s => (text.fromisoformat s).getD (.aware now)
    | _ => .aware now
  return {
    category := readText d "category"
    message := readText d "message"
    receivedAt
    raw := d.getD "raw" (.obj [])
    key := readText d "key"
    deviceName := readText d "device_name"
    site := readText d "site"
    severity := slice (text.str (d.getD "severity" (.str ""))) 32
    untyped := untypedFields d ["category", "message", "key", "device_name", "site"] }

end UniFiAlert

/-! ## Category state -/

structure CategoryState where
  category : Category
  enabled : Bool := true
  isAlerting : Bool := false
  lastAlert : Option UniFiAlert := none
  alertCount : Int := 0
  openCount : Nat := 0
  filteredCount : Nat := 0
  lastClearedAt : Option DateTime := none
  lastWebhookAt : Option DateTime := none
  lastFilteredAt : Option Instant := none
  lastAlarmReceivedAt : Option Instant := none

namespace CategoryState

/-- `if last is None or t > last: last = t`. -/
def advance (last : Option Instant) (t : Instant) : Option Instant :=
  match last with
  | none => some t
  | some l => if l < t then some t else some l

def applyAlert (state : CategoryState) (alert : UniFiAlert) : CategoryState :=
  { state with
    isAlerting := true
    lastAlert := some alert
    alertCount := state.alertCount + 1
    lastAlarmReceivedAt := advance state.lastAlarmReceivedAt (ensureAware alert.receivedAt) }

def recordFiltered (state : CategoryState) (alert : UniFiAlert) : CategoryState :=
  { state with
    filteredCount := state.filteredCount + 1
    lastFilteredAt := some (ensureAware alert.receivedAt) }

/-- Acknowledge everything seen so far. -/
def clear (state : CategoryState) (now : Instant) : CategoryState :=
  { state with
    isAlerting := false
    lastClearedAt := some (.aware (state.lastAlarmReceivedAt.getD now)) }

end CategoryState

end UnifiAlerts
