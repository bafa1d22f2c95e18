import UnifiAlerts.Coordinator

/-!
# Authentication, and what the callers make of an error

`verifyApiKey` asks the controller for the key's own account. Its ladder
of `except` clauses is not the one of the fetch functions: it has no
clause for response errors, so their message carries no status.

Three callers translate the two domain exceptions. Entry setup turns a
rejected key into `ConfigEntryAuthFailed` and an unreachable controller
into `ConfigEntryNotReady`; a poll turns them into
`ConfigEntryAuthFailed` and `UpdateFailed`. Any other exception leaves
both as it is (`escaped`).

Before an entry exists, `validateConnectivity` looks for a transport that
reaches the site's alarms. It knows of the v2 system log by the probe
only, and asks `self/sites` before it calls the alarms unavailable.
-/

namespace UnifiAlerts

open Py Lib

/-! ## The key -/

def selfEndpoint (base : String) : String :=
  base ++ unifiOsNetworkPrefix ++ "/api/s/default/self"

def endpointNotFoundMsg : String :=
  "API key endpoint not found — check the controller URL " ++
    "and that UniFi OS is accessible at this address"

/-- The envelope of a 2xx answer; a body that is no JSON counts as `{}`. -/
def selfEnvelope (r : Response) : Except Error Json :=
  match r.json false with
  | .error .jsonDecode | .error .unicodeDecode => .ok (.obj [])
  | other => other

/-- `meta.rc` is the only signal of a rejected key in a 200 answer. -/
def checkSelf (text : Text) (body : Json) : Except Error Unit := do
  match ← metaField body "rc" .null with
  | .str "ok" => return ()
  | _ =>
    let msg ← metaField body "msg" (.str "unknown error")
    throw (.invalidAuth s!"Invalid API key ({text.str msg})")

/-- The body of `_verify_api_key`, before its `except` ladder. -/
def readSelf (text : Text) : HttpResult → Except Error Unit
  | .certificate => .error .certificate
  | .clientError name => .error (.client name)
  | .timeout => .error .timeout
  | .response r =>
    if 300 ≤ r.status ∧ r.status < 400 then .error (.cannotConnect .plain (redirectMsg r.status))
    else if r.status = 404 then .error (.cannotConnect .plain endpointNotFoundMsg)
    else if r.status = 401 ∨ r.status = 403 then .error (.invalidAuth "Invalid API key")
    else do
      r.raiseForStatus
      let body ← selfEnvelope r
      checkSelf text body

/-- The `except` ladder of `_verify_api_key`. -/
def Error.ofAuthError : Error → Error
  | .certificate => .cannotConnect .sslCertificate "ClientConnectorCertificateError"
  | .clientResponse name _ => .cannotConnect .plain name
  | .client name => .cannotConnect .plain name
  | e => e

def verifyApiKey (net : Net) (apiKey : String) : ClientM Unit := do
  if apiKey == "" then Comp.raise (.invalidAuth "No API key provided")
  else
    let result ← send net (.get (selfEndpoint net.base))
    Comp.lift ((readSelf net.text result).mapError Error.ofAuthError)

def authenticate (net : Net) (apiKey : String) : ClientM Unit := verifyApiKey net apiKey

/-! ## Setup validation -/

/-- The transports that `validate_connectivity` names. -/
inductive AlarmTransport
  | v2
  | legacy
deriving Repr, DecidableEq

def sitesUrl (base : String) : String := base ++ unifiOsNetworkPrefix ++ "/api/self/sites"

/-- `any(entry.get("name") == site for entry in sites)`. -/
def anyNamed (site : String) : List Json → Except Exc Bool
  | [] => .ok false
  | v :: vs => do
    let entry ← v.asDict
    match entry.get "name" with
    | .str name => if name = site then return true else anyNamed site vs
    | _ => anyNamed site vs

/-- The body of `_site_exists`: a failure it expects confirms nothing, so the site
counts as there. -/
def readSites (site : String) : HttpResult → Except Error Bool
  | .certificate => .ok true
  | .clientError _ => .ok true
  | .timeout => .error .timeout
  | .response r =>
    if r.status ≠ 200 then .ok true
    else match r.json true with
      | .error (.client _) => .ok true
      | .error (.clientResponse _ _) => .ok true
      | .error .jsonDecode => .ok true
      | .error e => .error e
      | .ok data => ofPy do
        let o ← data.asDict
        let sites ← (o.getD "data" (.arr [])).iter
        anyNamed site sites

def siteExists (net : Net) (site : String) : ClientM Bool := do
  let result ← send net (.get (sitesUrl net.base))
  Comp.lift (readSites site result)

def siteNotFoundMsg (site : String) : String := s!"Site '{site}' not found on the controller."

/-- What `validate_connectivity` makes of a site without legacy alarm paths. -/
def refuseSite (net : Net) (site msg : String) : ClientM AlarmTransport := do
  if ← siteExists net site then Comp.raise (.cannotConnect .alarmEndpointUnavailable msg)
  else Comp.raise (.cannotConnect .invalidSite (siteNotFoundMsg site))

def validateConnectivity (net : Net) (site : String) : ClientM AlarmTransport := do
  match ← probeSystemLogEndpoint net site with
  | some true => pure .v2
  | _ =>
    Comp.handle (do let _ ← fetchAlarms net site; pure .legacy) fun e =>
      match e with
      | .cannotConnect .alarmEndpointUnavailable msg => some (refuseSite net site msg)
      | _ => none

/-! ## Errors as the callers see them -/

/-- `type(err).__name__` of the domain exceptions. -/
def ConnectKind.className : ConnectKind → String
  | .plain => "CannotConnectError"
  | .sslCertificate => "SslCertificateError"
  | .invalidSite => "InvalidSiteError"
  | .alarmEndpointUnavailable => "AlarmEndpointUnavailableError"

/-- How `async_setup_entry` fails at the authentication; the text is the
placeholder of the translated message. -/
inductive SetupError
  | authFailed (error : String)
  | notReady (error : String)
  | escaped (e : Error)
deriving Repr, DecidableEq

def SetupError.ofError : Error → SetupError
  | .invalidAuth _ => .authFailed "InvalidAuthError"
  | .cannotConnect kind _ => .notReady kind.className
  | e => .escaped e

/-- `async_setup_entry` up to the authentication. -/
def setupAuthenticate (net : Net) (apiKey : String) : Except SetupError Unit :=
  (authenticate net apiKey {}).1.mapError SetupError.ofError

/-- How `_async_update_data` fails at the fetch. -/
inductive PollError
  | authFailed (error : String)
  | updateFailed (error : String)
  | escaped (e : Error)
deriving Repr, DecidableEq

def PollError.ofError : Error → PollError
  | .invalidAuth msg => .authFailed msg
  | .cannotConnect _ msg => .updateFailed msg
  | e => .escaped e

namespace Coordinator

/-- The fetch of `_async_update_data`, with its two `except` clauses. -/
def updateFetch (net : Net) (site : String) (coord : Coordinator) :
    Except PollError Categorised × Coordinator :=
  let (result, coord') := fetchCategorised net site coord
  (result.mapError PollError.ofError, coord')

end Coordinator

/-! ## Domain exceptions -/

namespace Error

/-- `CannotConnectError` with its subclasses, and `InvalidAuthError`. -/
def isDomain : Error → Bool
  | .cannotConnect _ _ => true
  | .invalidAuth _ => true
  | _ => false

/-- The exceptions that the `except` clauses let through as a domain exception or
turn into one. -/
def isCaught : Error → Bool
  | .cannotConnect _ _ => true
  | .invalidAuth _ => true
  | .certificate => true
  | .clientResponse _ _ => true
  | .client _ => true
  | _ => false

theorem isDomain_ofClientError (e : Error) : (ofClientError e).isDomain = e.isCaught := by
  cases e <;> rfl

theorem isDomain_ofAuthError (e : Error) : (ofAuthError e).isDomain = e.isCaught := by
  cases e <;> rfl

end Error

theorem SetupError.ofError_domain {e : Error} (h : e.isDomain = true) (e' : Error) :
    SetupError.ofError e ≠ .escaped e' := by
  cases e with
  | cannotConnect kind msg => exact fun hesc => nomatch hesc
  | invalidAuth msg => exact fun hesc => nomatch hesc
  | _ => cases h

end UnifiAlerts
