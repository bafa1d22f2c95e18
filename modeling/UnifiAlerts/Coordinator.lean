import UnifiAlerts.Client
import UnifiAlerts.Lib.Dedup

/-!
# The coordinator

The state one coordinator object carries across polls and pushes, and
its methods. A method that cannot suspend is a function returning a
`Turn`: the new state, the calls it made on the event loop and the store
in order, and the exception it raised, if any. `_fetch_categorised`,
which suspends at its requests, is a `CoordM` computation.

`clearCategory`, `clearAll` and `autoClear` are the synchronous part up
to the awaited write; the call `persist` stands for that write and the
listener notification that follows it when it succeeds.

Nothing here is simplified for the proofs: the comparisons return
`Except`, the dictionaries are lists in insertion order, and the poll
loop goes over the fetched groups, known categories or not. Where it is
convenient to know more, as for aware times or distinct keys, later
modules prove an equation for that case. The clocks are arguments, the
wall clock as an instant and the monotonic one as a rational.
-/

namespace UnifiAlerts

open Py Lib

/-- What a method asks of the event loop, the store and the listeners. -/
inductive Call
  | scheduleClear (c : Category)
  | cancelClear (c : Category)
  | schedulePersist
  | persist
  | notify
deriving Repr, DecidableEq

structure Coordinator where
  states : Category → CategoryState
  lastPushAt : String × String → Option ℚ := fun _ => none
  seenUnknownKeys : List String := []
  unrecognisedKeys : String → Nat := fun _ => 0
  hasSystemLog : Option Bool := none
  probeFailCount : Nat := 0
  probeBackoffUntil : Option Instant := none
  client : ClientState := {}

structure Turn where
  coord : Coordinator
  calls : List Call := []
  raised : Option Exc := none

namespace UniFiClientConfig

def enabled (config : UniFiClientConfig) (c : Category) : Bool :=
  match config.enabledCategories with
  | some names => names.contains c.name
  | none => true

def effectiveSite (config : UniFiClientConfig) : String := config.site.getD defaultSite

/-- `_clear_timeout_minutes * 60`. -/
def clearDelaySeconds (config : UniFiClientConfig) : Int :=
  config.clearTimeout.getD defaultClearTimeout * 60

end UniFiClientConfig

namespace Coordinator

/-- `__init__`: no category has been seen, alerted or cleared. -/
def fresh (config : UniFiClientConfig) : Coordinator where
  states c := { category := c, enabled := config.enabled c }

def setState (coord : Coordinator) (c : Category) (state : CategoryState) : Coordinator :=
  { coord with states := Function.update coord.states c state }

/-! ## Polling: the v2 probe -/

abbrev CoordM := Comp Error Coordinator

def onClient {α : Type} (x : ClientM α) : CoordM α :=
  Comp.zoom (·.client) (fun client coord => { coord with client }) x

def probeFailLimit : Nat := 5
def probeRetryAfter : Int := hours 1

/-- One probe and what it leaves in the cache. -/
def probeOnce (net : Net) (site : String) : CoordM Bool := do
  match ← onClient (probeSystemLogEndpoint net site) with
  | some true =>
    Comp.update fun s => { s with
      hasSystemLog := some true, probeFailCount := 0, probeBackoffUntil := none }
    pure true
  | some false =>
    Comp.update fun s => { s with hasSystemLog := some false, probeFailCount := 0 }
    pure false
  | none =>
    Comp.update fun s => { s with probeFailCount := s.probeFailCount + 1 }
    if probeFailLimit ≤ (← Comp.gets (·.probeFailCount)) then
      Comp.update fun s => { s with
        hasSystemLog := some false, probeBackoffUntil := some (net.now + probeRetryAfter) }
    pure false

def probeHasSystemLog (net : Net) (site : String) : CoordM Bool := do
  match ← Comp.gets (·.hasSystemLog), ← Comp.gets (·.probeBackoffUntil) with
  | none, _ => probeOnce net site
  | some false, some backoffUntil =>
    if backoffUntil ≤ net.now then
      Comp.update fun s => { s with
        hasSystemLog := none, probeFailCount := 0, probeBackoffUntil := none }
      probeOnce net site
    else pure false
  | some cached, _ => pure cached

/-! ## Polling: fetching -/

/-- `min(w, *ws)`. -/
def minOf : DateTime → List DateTime → Except Exc DateTime
  | best, [] => .ok best
  | best, w :: ws => do
    if ← best.gt w then minOf w ws else minOf best ws

def watermarks (states : Category → CategoryState) : List DateTime :=
  allCategories.filterMap fun c =>
    if (states c).enabled then (states c).lastClearedAt else none

/-- The lower bound of the v2 window; `none` leaves it to the client's default. -/
def fetchSince (states : Category → CategoryState) (now : Instant) :
    Except Exc (Option Instant) :=
  match watermarks states with
  | [] => .ok none
  | w :: ws => do
    match ← minOf w ws with
    | .aware oldest => return some (max oldest (now - hours defaultSystemLogLookbackHours))
    | .naive _ => throw .typeError

/-- The grouping loop over v2 events. -/
def groupEvents (net : Net) : List JsonObj → Categorised → CoordM Categorised
  | [], categorised => pure categorised
  | event :: events, categorised => do
    let seen ← Comp.gets (·.seenUnknownKeys)
    let (alert, seen') ← Comp.lift
      (ofPy (UniFiAlert.fromSystemLogEvent net.text net.now event seen))
    Comp.update fun s => { s with seenUnknownKeys := seen' }
    if alert.category == "" then
      match event.getD "key" (.str "") with
      | .str k =>
        if k != "" then
          Comp.update fun s => { s with unrecognisedKeys := bump s.unrecognisedKeys k }
        groupEvents net events categorised
      | _ => groupEvents net events categorised
    else groupEvents net events (categorised.append alert.category alert)

def fetchV2 (net : Net) (site : String) : CoordM Categorised := do
  let since ← Comp.lift (ofPy (fetchSince (← Comp.gets (·.states)) net.now))
  let rawEvents ← onClient (fetchSystemLogAlarms net site since)
  groupEvents net rawEvents []

/-- The legacy fetch; `none` when the client found every legacy path missing. -/
def fetchLegacy (net : Net) (site : String) : CoordM (Option Categorised) :=
  Comp.handle (do return some (← onClient (categoriseAlarms net site))) fun e =>
    match e with
    | .cannotConnect .alarmEndpointUnavailable _ => some (pure none)
    | _ => none

def fetchCategorised (net : Net) (site : String) : CoordM Categorised := do
  let hasV2 ← Comp.handle (probeHasSystemLog net site) fun e =>
    match e with
    | .cannotConnect _ _ => some (pure false)
    | .invalidAuth _ => some (pure false)
    | _ => none
  let confirmed ← Comp.gets fun s => s.client.legacyConfirmedUnavailable site
  if !hasV2 && !confirmed then
    match ← fetchLegacy net site with
    | some result =>
      Comp.update fun s => { s with
        unrecognisedKeys := fun k => s.unrecognisedKeys k + s.client.unrecognisedKeys k }
      pure result
    | none => fetchV2 net site
  else fetchV2 net site

/-! ## Polling: applying the result -/

def trackNewestSeen (state : CategoryState) (alerts : List UniFiAlert) : CategoryState :=
  match alerts.map fun a => ensureAware a.receivedAt with
  | [] => state
  | t :: ts => { state with
      lastAlarmReceivedAt := CategoryState.advance state.lastAlarmReceivedAt (ts.foldl max t) }

/-- The polled alerts that pass the severity gate. -/
def eligible (config : UniFiClientConfig) (cat : String) :
    List UniFiAlert → Except Exc (List UniFiAlert)
  | [] => .ok []
  | a :: as => do
    let meets ← meetsMinimum a.severityLevel (getEffectiveMinSeverity config cat)
    let rest ← eligible config cat as
    return if meets then a :: rest else rest

/-- The alerts strictly newer than the watermark; all of them without one. -/
def counted (watermark : Option DateTime) : List UniFiAlert → Except Exc (List UniFiAlert)
  | [] => .ok []
  | a :: as => do
    let newer ← match watermark with
      | some w => a.receivedAt.gt w
      | none => pure true
    let rest ← counted watermark as
    return if newer then a :: rest else rest

/-- One category of a poll: its new state, whether it was raised to alerting,
and the exception that aborts the poll there. -/
def pollState (config : UniFiClientConfig) (cat : String) (state : CategoryState)
    (alerts : List UniFiAlert) : CategoryState × Bool × Option Exc :=
  match eligible config cat alerts with
  | .error e => (state, false, some e)
  | .ok eligible =>
    let state := trackNewestSeen state eligible
    match counted state.lastClearedAt eligible with
    | .error e => (state, false, some e)
    | .ok counted =>
      let state := { state with openCount := counted.length }
      match counted with
      | [] => (state, false, none)
      | a :: as =>
        if state.isAlerting then (state, false, none)
        else match maxBy (fun a : UniFiAlert => a.receivedAt) a as with
          | .error e => (state, false, some e)
          | .ok mostRecent =>
            ({ state with isAlerting := true, lastAlert := some mostRecent }, true, none)

/-- The loop over the polled categories; unknown and disabled ones are skipped. -/
def pollLoop (config : UniFiClientConfig) : Categorised → Turn → Turn
  | [], turn => turn
  | (cat, alerts) :: rest, turn =>
    match Category.ofName? cat with
    | none => pollLoop config rest turn
    | some c =>
      let state := turn.coord.states c
      if !state.enabled then pollLoop config rest turn
      else
        let (state', raise, raised) := pollState config cat state alerts
        let turn := { turn with
          coord := turn.coord.setState c state'
          calls := if raise then turn.calls ++ [.scheduleClear c] else turn.calls }
        match raised with
        | some e => { turn with raised := some e }
        | none => pollLoop config rest turn

/-- Zero the open count of the enabled categories that were not polled. -/
def zeroise (categorised : Categorised) (coord : Coordinator) : Coordinator :=
  { coord with states := fun c =>
      if (coord.states c).enabled && !(categorised.map Prod.fst).contains c.name then
        { coord.states c with openCount := 0 }
      else coord.states c }

/-- `_async_update_data` after the fetch. -/
def applyPoll (config : UniFiClientConfig) (categorised : Categorised) (coord : Coordinator) :
    Turn :=
  let turn := pollLoop config categorised { coord }
  match turn.raised with
  | some _ => turn
  | none => { turn with coord := zeroise categorised turn.coord }

/-! ## Webhook pushes -/

/-- How `push_alert` disposes of a push. -/
inductive Verdict
  | unknown
  | disabled
  | filtered (c : Category)
  | duplicate (c : Category)
  | accepted (c : Category)
deriving Repr, DecidableEq

/-- The guards of `push_alert`, in order, at monotonic time `mono`. -/
def pushVerdict (config : UniFiClientConfig) (coord : Coordinator) (mono : ℚ) (category : String)
    (alert : UniFiAlert) : Except Exc Verdict :=
  match Category.ofName? category with
  | none => .ok .unknown
  | some c =>
    if !(coord.states c).enabled then .ok .disabled
    else do
      let minimum := getEffectiveMinSeverity config category
      if !(← meetsMinimum alert.severityLevel minimum) then return .filtered c
      if alert.key != "" &&
          suppressed webhookDedupWindowSeconds mono coord.lastPushAt (category, alert.key) then
        return .duplicate c
      return .accepted c

/-- What an accepted push does to its category before the open-count step. -/
def acceptPush (state : CategoryState) (alert : UniFiAlert) : CategoryState :=
  { state.applyAlert alert with lastWebhookAt := some alert.receivedAt }

/-- `push_alert`. A keyed push is recorded in the pruned map when it is
accepted; the optimistic open count compares with the watermark, which raises
on a naive one. -/
def pushAlert (config : UniFiClientConfig) (coord : Coordinator) (mono : ℚ) (category : String)
    (alert : UniFiAlert) : Turn :=
  match pushVerdict config coord mono category alert with
  | .error e => { coord, raised := some e }
  | .ok (.filtered c) =>
    let state := (coord.states c).recordFiltered alert
    let state := { state with lastWebhookAt := some alert.receivedAt }
    { coord := coord.setState c state, calls := [.schedulePersist] }
  | .ok (.accepted c) =>
    let lastPushAt := if alert.key != "" then
        recordAt webhookDedupWindowSeconds mono coord.lastPushAt (category, alert.key)
      else coord.lastPushAt
    let coord := { coord with lastPushAt }
    let state := acceptPush (coord.states c) alert
    let newer : Except Exc Bool := match state.lastClearedAt with
      | none => .ok true
      | some w => alert.receivedAt.gt w
    match newer with
    | .error e => { coord := coord.setState c state, raised := some e }
    | .ok newer =>
      let state := { state with
        openCount := if newer then state.openCount + 1 else state.openCount }
      { coord := coord.setState c state, calls := [.schedulePersist, .scheduleClear c, .notify] }
  | .ok _ => { coord }

/-! ## Clearing -/

def clearCategory (coord : Coordinator) (now : Instant) (category : String) : Turn :=
  match Category.ofName? category with
  | none => { coord }
  | some c =>
    { coord := coord.setState c ((coord.states c).clear now), calls := [.cancelClear c, .persist] }

def clearAll (coord : Coordinator) (now : Instant) : Turn where
  coord := { coord with states := fun c =>
    if (coord.states c).enabled then (coord.states c).clear now else coord.states c }
  calls := (allCategories.filter fun c => (coord.states c).enabled).map .cancelClear ++ [.persist]

/-- `_auto_clear` once its sleep is over. -/
def autoClear (coord : Coordinator) (now : Instant) (c : Category) : Turn :=
  if (coord.states c).isAlerting then
    { coord := coord.setState c ((coord.states c).clear now), calls := [.persist] }
  else { coord }

/-! ## Rollup -/

def rollupLastAlert (coord : Coordinator) : Except Exc (Option UniFiAlert) :=
  let alerts := allCategories.filterMap fun c =>
    if (coord.states c).enabled then (coord.states c).lastAlert else none
  match alerts with
  | [] => .ok none
  | a :: as => (maxBy (fun a : UniFiAlert => a.receivedAt) a as).map some

/-! ## Persistence -/

def persistEntry (text : Text) (state : CategoryState) : Json :=
  let stamp (name : String) (t : Option DateTime) : JsonObj := match t with
    | some d => [(name, .str (text.isoformat d))]
    | none => []
  .obj (stamp "last_cleared_at" state.lastClearedAt
    ++ [("alert_count", .int state.alertCount),
        ("last_alert", match state.lastAlert with
          | some a => a.toDict text
          | none => .null)]
    ++ stamp "last_webhook_at" state.lastWebhookAt)

def buildPersistData (text : Text) (coord : Coordinator) : JsonObj :=
  allCategories.map fun c => (c.name, persistEntry text (coord.states c))

/-- `datetime.fromisoformat(v)` with its ValueError and TypeError ignored. -/
def restoreStamp (text : Text) (v : Json) (current : Option DateTime) : Option DateTime :=
  match v with
  | .str s => (text.fromisoformat s).orElse fun _ => current
  | _ => current

def restoreAlert (text : Text) (now : Instant) (v : Json) (current : Option UniFiAlert) :
    Except Exc (Option UniFiAlert) :=
  match v with
  | .null => .ok current
  | v => match UniFiAlert.fromDict text now v with
    | .ok a => .ok (some a)
    | .error .typeError | .error .valueError => .ok current
    | .error e => .error e

/-- One stored entry: the legacy bare timestamp or the dictionary. -/
def restoreEntry (text : Text) (now : Instant) (state : CategoryState) :
    Json → Except Exc CategoryState
  | .str s => .ok { state with lastClearedAt := restoreStamp text (.str s) state.lastClearedAt }
  | .obj entry => do
    let lastClearedAt := restoreStamp text (JsonObj.get entry "last_cleared_at") state.lastClearedAt
    let alertCount ← (JsonObj.getD entry "alert_count" (.int 0)).toInt
    let lastAlert ← restoreAlert text now (JsonObj.get entry "last_alert") state.lastAlert
    let lastWebhookAt := restoreStamp text (JsonObj.get entry "last_webhook_at") state.lastWebhookAt
    return { state with lastClearedAt, alertCount, lastAlert, lastWebhookAt }
  | _ => .ok state

/-- `async_restore_watermarks` on the loaded data. -/
def restoreWatermarks (text : Text) (now : Instant) :
    JsonObj → Coordinator → Except Exc Coordinator
  | [], coord => .ok coord
  | (cat, entry) :: data, coord =>
    match Category.ofName? cat with
    | none => restoreWatermarks text now data coord
    | some c => do
      let state ← restoreEntry text now (coord.states c) entry
      restoreWatermarks text now data (coord.setState c state)

end Coordinator

end UnifiAlerts
