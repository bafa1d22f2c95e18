import UnifiAlerts.Lib.Comp
import UnifiAlerts.Models

/-!
# The controller client

One request is answered by an `HttpResult`: a response (status, whether
its content type is JSON, and what its body decodes to) or a transport
failure. `Net` is the controller as the client sees it: the answer to
the `n`-th request may differ from the answer to an equal earlier one.

The client's state is its alarm-URL cache and confirmed-unavailable flag
per site, the unrecognised keys of the last categorisation, and (for
stating what it did) the requests it has sent and the page-cap warnings
it has logged.

Each function is a computation in `ClientM`, the state monad with
exceptions of `Lib.Comp`, and keeps the order of the source: what is
raised first is raised first, and the state that the client has reached
by then stays. The exceptions are the ones that the callers tell apart,
and everything else that Python can raise in between (`Error.py`). The
page loop is bounded by the page cap and recurses on it.
-/

namespace UnifiAlerts

open Py Lib

/-! ## Errors -/

inductive ConnectKind
  | plain
  | sslCertificate
  | invalidSite
  | alarmEndpointUnavailable
deriving Repr, DecidableEq

/-- What a client call can raise: the integration's two domain exceptions
(`CannotConnectError` with its subclasses, `InvalidAuthError`), aiohttp's client
errors, the decoding errors of a body, the request timeout, and builtins. -/
inductive Error
  | cannotConnect (kind : ConnectKind) (msg : String)
  | invalidAuth (msg : String)
  | certificate
  | clientResponse (name : String) (status : Nat)
  | client (name : String)
  | timeout
  | jsonDecode
  | unicodeDecode
  | py (e : Exc)
deriving Repr, DecidableEq

namespace Error

/-- Caught by `except CannotConnectError`. -/
def isCannotConnect : Error → Bool
  | .cannotConnect _ _ => true
  | _ => false

/-- The `except aiohttp…` ladder shared by the fetch functions. -/
def ofClientError : Error → Error
  | .certificate => .cannotConnect .sslCertificate "ClientConnectorCertificateError"
  | .clientResponse name status => .cannotConnect .plain s!"{name} {status}"
  | .client name => .cannotConnect .plain name
  | e => e

end Error

def ofPy {α : Type} (x : Except Exc α) : Except Error α := x.mapError Error.py

/-! ## Responses -/

inductive Content
  | empty
  | undecodable
  | malformed
  | value (v : Json)
  | payloadError
  | timeout

structure Response where
  status : Nat
  jsonType : Bool := true
  content : Content

inductive HttpResult
  | response (r : Response)
  | certificate
  | clientError (name : String)
  | timeout

/-- `resp.json()`, or `resp.json(content_type=None)` when `checkType` is false. -/
def Response.json (r : Response) (checkType : Bool) : Except Error Json :=
  match r.content with
  | .payloadError => .error (.client "ClientPayloadError")
  | .timeout => .error .timeout
  | content =>
    if checkType && !r.jsonType then .error (.clientResponse "ContentTypeError" r.status)
    else match content with
      | .undecodable => .error .unicodeDecode
      | .malformed => .error .jsonDecode
      | .value v => .ok v
      | _ => .ok .null

def Response.raiseForStatus (r : Response) : Except Error Unit :=
  if 400 ≤ r.status then .error (.clientResponse "ClientResponseError" r.status) else .ok ()

def redirectMsg (status : Nat) : String :=
  s!"Controller issued a redirect (HTTP {status}) on an authenticated " ++
    "request; refusing to follow to protect credentials"

/-- `body.get("meta", {}).get(field, default)`. -/
def metaField (body : Json) (field : String) (default : Json) : Except Error Json := ofPy do
  let o ← body.asDict
  let m ← (o.getD "meta" (.obj [])).asDict
  return m.getD field default

def parseUnifiErrorMsg (text : Text) (r : Response) : Except Error String :=
  let read : Except Error String := do
    let body ← r.json false
    let msg ← metaField body "msg" (.str "")
    return text.str msg
  match read with
  | .error .jsonDecode | .error .unicodeDecode => .ok ""
  | other => other

def isMissingAlarmPath (unifiMsg : String) : Bool := unifiMsg == "api.err.InvalidObject"

/-- Records that are not archived. -/
def unarchived : List Json → Except Exc (List JsonObj)
  | [] => .ok []
  | v :: vs => do
    let a ← v.asDict
    let rest ← unarchived vs
    return if (a.getD "archived" (.bool false)).truthy then rest else a :: rest

/-- The body of `_try_fetch_alarms`, before its `except` ladder: `none` when the
path does not exist on this firmware. -/
def readAlarms (text : Text) (site : String) : HttpResult → Except Error (Option (List JsonObj))
  | .certificate => .error .certificate
  | .clientError name => .error (.client name)
  | .timeout => .error .timeout
  | .response r =>
    if 300 ≤ r.status ∧ r.status < 400 then .error (.cannotConnect .plain (redirectMsg r.status))
    else if r.status = 401 then do
      let unifiMsg ← parseUnifiErrorMsg text r
      if unifiMsg == "api.err.NoSiteContext" then
        throw (.cannotConnect .invalidSite
          s!"Site '{site}' does not exist on the controller (api.err.NoSiteContext)")
      throw (.invalidAuth "API key rejected (HTTP 401)")
    else if r.status = 404 then .ok none
    else if r.status = 400 then do
      let unifiMsg ← parseUnifiErrorMsg text r
      if isMissingAlarmPath unifiMsg then return none
      let detail := if unifiMsg != "" then s!" ({unifiMsg})" else ""
      throw (.cannotConnect .plain (s!"Alarm endpoint rejected the request (HTTP 400{detail}). " ++
        s!"Check that the site name '{site}' exists on the controller."))
    else do
      r.raiseForStatus
      let data ← r.json true
      match ← metaField data "rc" .null with
      | .str "ok" =>
        let o ← ofPy data.asDict
        let items ← ofPy (o.getD "data" (.arr [])).iter
        return some (← ofPy (unarchived items))
      | _ =>
        let msg ← metaField data "msg" (.str "unknown error")
        throw (.cannotConnect .plain s!"UniFi API error: {text.str msg}")

/-! ## Requests and the client's state -/

inductive Request
  | get (url : String)
  | probe (url : String)
  | page (url : String) (timestampFrom timestampTo : Int) (pageNumber pageSize : Nat)
deriving Repr, DecidableEq

/-- The controller at one poll, with the reading of the wall clock. -/
structure Net where
  text : Text
  base : String
  now : Instant
  respond : Nat → Request → HttpResult

structure ClientState where
  unrecognisedKeys : String → Nat := fun _ => 0
  alarmUrlCache : String → Option String := fun _ => none
  legacyConfirmedUnavailable : String → Bool := fun _ => false
  requests : List Request := []
  pageCapWarnings : Nat := 0

abbrev ClientM := Comp Error ClientState

def send (net : Net) (request : Request) : ClientM HttpResult := fun s =>
  (.ok (net.respond s.requests.length request), { s with requests := s.requests ++ [request] })

/-! ## Legacy alarms -/

def alarmPaths (base site : String) : List String :=
  [base ++ unifiOsNetworkPrefix ++ "/api/s/" ++ site ++ "/list/alarm",
   base ++ unifiOsNetworkPrefix ++ "/api/s/" ++ site ++ "/alarm",
   base ++ unifiOsNetworkPrefix ++ "/api/s/" ++ site ++ "/stat/alarm"]

def tryFetchAlarms (net : Net) (url site : String) : ClientM (Option (List JsonObj)) := do
  let result ← send net (.get url)
  Comp.lift ((readAlarms net.text site result).mapError Error.ofClientError)

def unavailableMsg (base site : String) : String :=
  s!"No legacy alarm endpoint found for site '{site}'. This firmware has " ++
    "removed all legacy alarm paths (UniFi Network 10.6+); the integration " ++
    "needs the v2 system-log API instead. Tried: " ++ ", ".intercalate (alarmPaths base site)

/-- The discovery loop over the candidate paths still to try. -/
def discoverFrom (net : Net) (site : String) : List String → ClientM (List JsonObj)
  | [] => do
    Comp.update fun s => { s with
      legacyConfirmedUnavailable := Function.update s.legacyConfirmedUnavailable site true }
    Comp.raise (.cannotConnect .alarmEndpointUnavailable (unavailableMsg net.base site))
  | path :: paths => do
    match ← tryFetchAlarms net path site with
    | some alarms =>
      Comp.update fun s => { s with
        alarmUrlCache := Function.update s.alarmUrlCache site (some path) }
      pure alarms
    | none => discoverFrom net site paths

def discoverAlarmUrl (net : Net) (site : String) : ClientM (List JsonObj) :=
  discoverFrom net site (alarmPaths net.base site)

def fetchAlarms (net : Net) (site : String) : ClientM (List JsonObj) := do
  match ← Comp.gets fun s => s.alarmUrlCache site with
  | some cachedUrl =>
    match ← tryFetchAlarms net cachedUrl site with
    | some alarms => pure alarms
    | none =>
      Comp.update fun s => { s with alarmUrlCache := Function.update s.alarmUrlCache site none }
      discoverAlarmUrl net site
  | none => discoverAlarmUrl net site

/-! ## Grouping by category -/

/-- A dictionary from category name to alerts, in insertion order. -/
abbrev Categorised := List (String × List UniFiAlert)

/-- `d.setdefault(k, []).append(a)`. -/
def Categorised.append (d : Categorised) (k : String) (a : UniFiAlert) : Categorised :=
  match d with
  | [] => [(k, [a])]
  | (k', alerts) :: d =>
    if k' = k then (k', alerts ++ [a]) :: d else (k', alerts) :: Categorised.append d k a

def bump (counts : String → Nat) (k : String) : String → Nat :=
  Function.update counts k (counts k + 1)

def categoriseLoop (net : Net) : List JsonObj → Categorised → ClientM Categorised
  | [], result => pure result
  | alarm :: alarms, result => do
    let key := alarm.getD "key" (.str "")
    match ← Comp.lift (ofPy (classifyEventKey key (.str ""))) with
    | none =>
      match key with
      | .str k =>
        if k != "" then
          Comp.update fun s => { s with unrecognisedKeys := bump s.unrecognisedKeys k }
        categoriseLoop net alarms result
      | _ => categoriseLoop net alarms result
    | some category =>
      let alert ← Comp.lift (ofPy (UniFiAlert.fromApiAlarm net.text net.now category.name alarm))
      categoriseLoop net alarms (result.append category.name alert)

def categoriseAlarms (net : Net) (site : String) : ClientM Categorised := do
  let raw ← fetchAlarms net site
  Comp.update fun s => { s with unrecognisedKeys := fun _ => 0 }
  categoriseLoop net raw []

/-! ## The v2 system log -/

/-- Status 200 and 404 are definitive; anything else is transient. -/
def readProbe : HttpResult → Except Error (Option Bool)
  | .response r =>
    if r.status = 200 then .ok (some true)
    else if r.status = 404 then .ok (some false)
    else .ok none
  | .certificate => .ok none
  | .clientError _ => .ok none
  | .timeout => .error .timeout

def probeSystemLogEndpoint (net : Net) (site : String) : ClientM (Option Bool) := do
  let url := net.base ++ unifiOsNetworkPrefix ++ "/v2/api/site/" ++ site ++ "/system-log/count"
  let result ← send net (.probe url)
  Comp.lift (readProbe result)

def readSystemLogPage : HttpResult → Except Error Json
  | .certificate => .error .certificate
  | .clientError name => .error (.client name)
  | .timeout => .error .timeout
  | .response r =>
    if 300 ≤ r.status ∧ r.status < 400 then .error (.cannotConnect .plain (redirectMsg r.status))
    else if r.status = 401 then
      .error (.invalidAuth "API key rejected during system-log fetch (HTTP 401)")
    else do
      r.raiseForStatus
      r.json true

/-- Events with status NEW. -/
def newEvents : List Json → Except Exc (List JsonObj)
  | [] => .ok []
  | v :: vs => do
    let e ← v.asDict
    let rest ← newEvents vs
    return match e.get "status" with
      | .str "NEW" => e :: rest
      | _ => rest

/-- `n >= v`. -/
def intGe (n : Int) : Json → Except Exc Bool
  | .int m => .ok (decide (m ≤ n))
  | .bool b => .ok (decide ((if b then 1 else 0) ≤ n))
  | .float (.finite q) => .ok (decide (q ≤ n))
  | .float (.infinity negative) => .ok negative
  | .float .nan => .ok false
  | _ => .error .typeError

/-- The page loop, with `fuel` pages left before the cap. -/
def fetchPages (net : Net) (url : String) (timestampFrom timestampTo : Int) :
    Nat → Nat → List JsonObj → ClientM (List JsonObj)
  | 0, _, results => do
    Comp.update fun s => { s with pageCapWarnings := s.pageCapWarnings + 1 }
    pure results
  | fuel + 1, pageNumber, results => do
    let result ← send net (.page url timestampFrom timestampTo pageNumber systemLogPageSize)
    let body ← Comp.lift ((readSystemLogPage result).mapError Error.ofClientError)
    let data ← Comp.lift (ofPy body.asDict)
    let pageData := (data.get "data").or (.arr [])
    let items ← Comp.lift (ofPy pageData.iter)
    let events ← Comp.lift (ofPy (newEvents items))
    let results := results ++ events
    if ← Comp.lift (ofPy (intGe (pageNumber + 1) (data.getD "total_page_count" (.int 1)))) then
      pure results
    else if !pageData.truthy then pure results
    else fetchPages net url timestampFrom timestampTo fuel (pageNumber + 1) results

/-- The lower bound of the request window: `since`, or a day before `now`. -/
def windowStart (now : Instant) (since : Option Instant) : Instant :=
  since.getD (now - hours defaultSystemLogLookbackHours)

def fetchSystemLogAlarms (net : Net) (site : String) (since : Option Instant) :
    ClientM (List JsonObj) :=
  let url := net.base ++ unifiOsNetworkPrefix ++ "/v2/api/site/" ++ site ++ "/system-log/all"
  fetchPages net url (epochMs (windowStart net.now since)) (epochMs net.now)
    maxSystemLogPages 0 []

end UnifiAlerts
