import UnifiAlerts.ConfigFlow

/-!
# The version lookup at setup

`fetch_controller_version` asks the controller for its Network
application version, for the log and the diagnostics only. Its `try`
block ends at the decoded body; the version is read off the body after
it, and a timeout is no `ClientError`. So the lookup raises on a timeout
and on a body that has not the shape it expects (`Readable`).

A setup is the authentication, the lookup and the `rest`, which is any
computation. Replacing the lookup by the bookkeeping it should amount to
(`noted`) gives the setup that no lookup can block.

`NeverBlocks` has three clauses: the lookup returns, it leaves the
version that the answer carries and nothing else, and a setup that
authenticates goes on with its rest from there, whatever that is. The
condition is about the answer to one request (`readable`), a decidable
test, and it is exact, since an unreadable answer makes the lookup
itself raise.
-/

namespace UnifiAlerts

open Py Lib ConfigFlow

/-! ## The lookup -/

/-- The client with the version it has cached. -/
structure UniFiClient where
  state : ClientState := {}
  controllerVersion : Option String := none

/-- Indexing a dictionary adds KeyError to what a client call raises. -/
inductive LookupError
  | error (e : Error)
  | keyError
deriving Repr, DecidableEq

def sysinfoUrl (base site : String) : String :=
  base ++ unifiOsNetworkPrefix ++ "/api/s/" ++ site ++ "/stat/sysinfo"

/-- `except (aiohttp.ClientError, json.JSONDecodeError, UnicodeDecodeError)`. -/
def Error.isSwallowed : Error → Bool
  | .certificate => true
  | .clientResponse _ _ => true
  | .client _ => true
  | .jsonDecode => true
  | .unicodeDecode => true
  | _ => false

/-- The `try` block: `none` for a status other than 200. -/
def readSysinfo : HttpResult → Except Error (Option Json)
  | .certificate => .error .certificate
  | .clientError name => .error (.client name)
  | .timeout => .error .timeout
  | .response r => if r.status ≠ 200 then .ok none else (r.json false).map some

/-- `data[0]`. -/
def firstItem : Json → Except LookupError Json
  | .arr (x :: _) => .ok x
  | .arr [] => .error (.error (.py .indexError))
  | .str s => match s.toList with
    | c :: _ => .ok (.str c.toString)
    | [] => .error (.error (.py .indexError))
  | .obj _ => .error .keyError
  | _ => .error (.error (.py .typeError))

def getMethod (v : Json) : Except LookupError JsonObj := (ofPy v.asDict).mapError .error

/-- The version that a decoded body carries. -/
def versionIn (body : Json) : Except LookupError Json := do
  let o ← getMethod body
  let data := (o.get "data").or (.arr [])
  if data.truthy then do
    let first ← getMethod (← firstItem data)
    return first.get "version"
  else return .null

def onState {α : Type} (x : ClientM α) : Comp Error UniFiClient α :=
  Comp.zoom UniFiClient.state (fun state client => { client with state }) x

def fetchControllerVersion (net : Net) (site : String) :
    Comp LookupError UniFiClient (Option String) := do
  let result ← Comp.mapError .error (onState (send net (.get (sysinfoUrl net.base site))))
  match readSysinfo result with
  | .error e =>
    if e.isSwallowed then Comp.gets UniFiClient.controllerVersion else Comp.raise (.error e)
  | .ok none => Comp.gets UniFiClient.controllerVersion
  | .ok (some body) => do
    let version ← Comp.lift (versionIn body)
    if version.truthy then
      Comp.update fun client => { client with controllerVersion := some (net.text.str version) }
    Comp.gets UniFiClient.controllerVersion

/-! ## What an answer amounts to -/

/-- The version found in an answer, or the exception that leaves the lookup. -/
def lookedUp (text : Text) (result : HttpResult) : Except LookupError (Option String) :=
  match readSysinfo result with
  | .error e => if e.isSwallowed then .ok none else .error (.error e)
  | .ok none => .ok none
  | .ok (some body) =>
    (versionIn body).map fun v => if v.truthy then some (text.str v) else none

/-- The answer that the lookup gets from `client`. -/
def sysinfoAnswer (net : Net) (site : String) (client : UniFiClient) : HttpResult :=
  net.respond client.state.requests.length (.get (sysinfoUrl net.base site))

/-- The request is recorded, and a version that was found is cached. -/
def UniFiClient.noted (client : UniFiClient) (request : Request) (found : Option String) :
    UniFiClient where
  state := { client.state with requests := client.state.requests ++ [request] }
  controllerVersion := found.or client.controllerVersion

theorem fetchControllerVersion_run (net : Net) (site : String) (client : UniFiClient) :
    fetchControllerVersion net site client =
      match lookedUp net.text (sysinfoAnswer net site client) with
      | .ok found => (.ok (found.or client.controllerVersion),
          client.noted (.get (sysinfoUrl net.base site)) found)
      | .error e => (.error e, client.noted (.get (sysinfoUrl net.base site)) none) := by
  have hsend : Comp.mapError LookupError.error
      (onState (send net (.get (sysinfoUrl net.base site)))) client =
      (.ok (sysinfoAnswer net site client),
        client.noted (.get (sysinfoUrl net.base site)) none) := rfl
  unfold fetchControllerVersion
  rw [Comp.bind_run hsend, lookedUp]
  cases readSysinfo (sysinfoAnswer net site client) with
  | error e =>
      dsimp only
      split <;> rfl
  | ok body =>
      cases body with
      | none => rfl
      | some body =>
          dsimp only
          cases versionIn body with
          | error e => rfl
          | ok version =>
              rw [Comp.lift_ok_bind]
              dsimp only [Except.map]
              by_cases htruthy : version.truthy = true
              · simp only [if_pos htruthy]
                rfl
              · simp only [if_neg htruthy]
                rfl

/-! ## Which answers are readable -/

/-- Missing, false, or a list that starts with an object. -/
def readableData (data : Json) : Bool :=
  !data.truthy || match data with
    | .arr (.obj _ :: _) => true
    | _ => false

def readableBody : Json → Bool
  | .obj body => readableData (JsonObj.get body "data")
  | _ => false

/-- No timeout, and no body of a 200 answer that the lookup stumbles over. -/
def readable : HttpResult → Bool
  | .timeout => false
  | .response r => r.status != 200 || match r.content with
    | .value body => readableBody body
    | .empty => false
    | .timeout => false
    | _ => true
  | _ => true

/-- The version of the first object listed. -/
def listedVersion : Json → Json
  | .arr (.obj first :: _) => JsonObj.get first "version"
  | _ => .null

/-- The non-empty version that an answer carries. -/
def carriedVersion : HttpResult → Option Json
  | .response ⟨200, _, .value (.obj body)⟩ =>
    let version := listedVersion (JsonObj.get body "data")
    if version.truthy then some version else none
  | _ => none

theorem versionIn_falsy {body : JsonObj} (h : (body.get "data").truthy = false) :
    versionIn (.obj body) = .ok .null := by
  show (if ((body.get "data").or (.arr [])).truthy = true then _ else _) = _
  rw [Json.or, h]
  rfl

theorem versionIn_truthy {body : JsonObj} (h : (body.get "data").truthy = true) :
    versionIn (.obj body) = (do
      let first ← getMethod (← firstItem (body.get "data"))
      return first.get "version") := by
  show (if ((body.get "data").or (.arr [])).truthy = true then _ else _) = _
  rw [Json.or, if_pos h, if_pos h]

theorem versionIn_readable {body : JsonObj} (h : readableBody (.obj body) = true) :
    versionIn (.obj body) = .ok (listedVersion (body.get "data")) := by
  cases htruthy : (body.get "data").truthy with
  | false =>
      rw [versionIn_falsy htruthy]
      -- nothing false is a list with a first item
      cases hdata : body.get "data" with
      | arr xs =>
          rw [hdata] at htruthy
          cases xs with
          | nil => rfl
          | cons x xs => cases htruthy
      | _ => rfl
  | true =>
      rw [versionIn_truthy htruthy]
      simp only [readableBody, readableData, htruthy, Bool.not_true, Bool.false_or] at h
      split at h
      · rename_i hdata
        rw [hdata]
        rfl
      · cases h

/-- A body of any other shape makes one of the three dereferences raise. -/
theorem versionIn_unreadable {body : Json} (h : readableBody body = false) :
    ∃ e, versionIn body = .error e := by
  cases body with
  | obj body =>
      simp only [readableBody, readableData, Bool.or_eq_false_iff, Bool.not_eq_false'] at h
      obtain ⟨htruthy, hshape⟩ := h
      rw [versionIn_truthy htruthy]
      cases hdata : JsonObj.get body "data" with
      | arr xs =>
          cases xs with
          | nil => exact ⟨_, rfl⟩
          | cons x xs =>
              cases x with
              | obj first => rw [hdata] at hshape; cases hshape
              | _ => exact ⟨_, rfl⟩
      | str s =>
          simp only [firstItem]
          cases s.toList with
          | nil => exact ⟨_, rfl⟩
          | cons c cs => exact ⟨_, rfl⟩
      | _ => exact ⟨_, rfl⟩
  | _ => exact ⟨_, rfl⟩

theorem lookedUp_readable {text : Text} {result : HttpResult} (h : readable result = true) :
    lookedUp text result = .ok ((carriedVersion result).map text.str) := by
  cases result with
  | certificate => rfl
  | clientError name => rfl
  | timeout => cases h
  | response r =>
      obtain ⟨status, jsonType, content⟩ := r
      by_cases hstatus : status = 200
      · subst hstatus
        cases content with
        | value body =>
            cases body with
            | obj body =>
                have hversion := @versionIn_readable body h
                simp only [lookedUp, readSysinfo, Response.json, carriedVersion]
                simp only [ne_eq, not_true_eq_false, if_false, Bool.false_and, Bool.false_eq_true,
                  Except.map, hversion]
                split <;> rfl
            | _ => cases h
        | empty => cases h
        | timeout => cases h
        | _ => rfl
      · have hnone : carriedVersion (.response ⟨status, jsonType, content⟩) = none := by
          unfold carriedVersion
          split
          · rename_i heq
            simp only [HttpResult.response.injEq, Response.mk.injEq] at heq
            exact absurd heq.1 hstatus
          · rfl
        rw [hnone, lookedUp, readSysinfo, if_pos hstatus]
        rfl

theorem lookedUp_unreadable {text : Text} {result : HttpResult} (h : readable result = false) :
    ∃ e, lookedUp text result = .error e := by
  cases result with
  | timeout => exact ⟨_, rfl⟩
  | response r =>
      obtain ⟨status, jsonType, content⟩ := r
      simp only [readable, Bool.or_eq_false_iff, bne_eq_false_iff_eq] at h
      obtain ⟨rfl, hcontent⟩ := h
      cases content with
      | value body =>
          obtain ⟨e, he⟩ := versionIn_unreadable hcontent
          refine ⟨e, ?_⟩
          show (versionIn body).map _ = _
          rw [he]
          rfl
      | empty => exact ⟨_, rfl⟩
      | timeout => exact ⟨_, rfl⟩
      | _ => cases hcontent
  | _ => cases h

/-! ## The setup around it -/

/-- How a setup fails: at the authentication, or with what leaves the lookup or the rest. -/
inductive SetupFailure
  | failed (e : SetupError)
  | escaped (e : LookupError)
deriving Repr, DecidableEq

abbrev SetupM := Comp SetupFailure UniFiClient

def logControllerVersion (net : Net) (entry : ConfigEntry) : Comp LookupError UniFiClient Unit := do
  let _ ← fetchControllerVersion net (entry.data.site.getD defaultSite)
  pure ()

def authenticateClient (net : Net) (entry : ConfigEntry) : Comp Error UniFiClient Unit :=
  onState (authenticate net entry.data.apiKey)

/-- `async_setup_entry` with its two first steps on the client. -/
def asyncSetupEntry {α : Type} (net : Net) (entry : ConfigEntry) (rest : SetupM α) : SetupM α := do
  Comp.mapError (fun e => .failed (SetupError.ofError e)) (authenticateClient net entry)
  Comp.mapError .escaped (logControllerVersion net entry)
  rest

/-- The client as a lookup should leave it. -/
def afterLookup (net : Net) (site : String) (client : UniFiClient) : UniFiClient :=
  client.noted (.get (sysinfoUrl net.base site))
    ((carriedVersion (sysinfoAnswer net site client)).map net.text.str)

/-- The lookup returns, caches a version that the answer carries and nothing else, and a
setup that authenticates goes on with its rest. -/
structure NeverBlocks (net : Net) (site : String) (client : UniFiClient) : Prop where
  returns : ∃ version, (fetchControllerVersion net site client).1 = .ok version
  leaves : (fetchControllerVersion net site client).2 = afterLookup net site client
  proceeds : ∀ entry : ConfigEntry, entry.data.site.getD defaultSite = site →
    authenticateClient net entry {} = (.ok (), client) →
    ∀ (α : Type) (rest : SetupM α),
      asyncSetupEntry net entry rest {} = rest (afterLookup net site client)

theorem fetchControllerVersion_readable {net : Net} {site : String} {client : UniFiClient}
    (h : readable (sysinfoAnswer net site client) = true) :
    fetchControllerVersion net site client =
      (.ok (afterLookup net site client).controllerVersion, afterLookup net site client) := by
  rw [fetchControllerVersion_run, lookedUp_readable h]
  rfl

/-- For every answer, the lookup never blocks setup exactly when the answer is readable;
what the setup does after the lookup is left open. -/
theorem version_lookup_never_blocks_iff (net : Net) (site : String) (client : UniFiClient) :
    NeverBlocks net site client ↔ readable (sysinfoAnswer net site client) = true := by
  constructor
  · intro h
    by_contra hread
    obtain ⟨e, he⟩ := @lookedUp_unreadable net.text _ (Bool.eq_false_of_not_eq_true hread)
    obtain ⟨version, hversion⟩ := h.returns
    rw [fetchControllerVersion_run, he] at hversion
    cases hversion
  · intro hread
    have hfetch := fetchControllerVersion_readable hread
    refine ⟨⟨_, by rw [hfetch]⟩, by rw [hfetch], ?_⟩
    intro entry hsite hauth α rest
    have hlog : logControllerVersion net entry client = (.ok (), afterLookup net site client) := by
      unfold logControllerVersion
      rw [hsite, Comp.bind_run hfetch]
      rfl
    unfold asyncSetupEntry
    rw [Comp.bind_run (Comp.mapError_ok hauth), Comp.bind_run (Comp.mapError_ok hlog)]

/-- A controller that accepts the key and answers the lookup with `result`. -/
def sysinfoNet (result : HttpResult) : Net where
  text := .counting fun _ => none
  base := "https://192.168.1.1"
  now := 0
  respond := fun
    | 0, _ => .response ⟨200, true, .value (.obj [("meta", .obj [("rc", .str "ok")])])⟩
    | _, _ => result

def sysinfoEntry : ConfigEntry where
  entryId := 0
  uniqueId := "https://192.168.1.1"
  data := { controllerUrl := "https://192.168.1.1", apiKey := "k" }

/-- A lookup that times out fails the setup. -/
theorem version_lookup_timeout_blocks :
    asyncSetupEntry (sysinfoNet .timeout) sysinfoEntry (pure ()) {} =
      (.error (.escaped (.error .timeout)), (authenticateClient (sysinfoNet .timeout)
        sysinfoEntry {}).2.noted (.get (sysinfoUrl "https://192.168.1.1" "default")) none) ∧
    ¬NeverBlocks (sysinfoNet .timeout) "default"
      (authenticateClient (sysinfoNet .timeout) sysinfoEntry {}).2 := by
  refine ⟨rfl, fun h => ?_⟩
  obtain ⟨version, hversion⟩ := h.returns
  cases hversion

end UnifiAlerts
