import UnifiAlerts.Classification
import UnifiAlerts.Transport

/-!
# Setup validation and polling

`validateConnectivity` and `fetchCategorised` are two fallback trees
over the same answers. Both take a probe that says 200 for the system
log, and both ask the legacy paths otherwise, from the same client. They
part where every legacy path is missing: the poll then goes to
`system-log/all`, validation gives up. So they agree exactly when the
system log that a poll would fall back on is not there (`Overlooked`).

The answers are fixed: equal requests are answered alike, which is what
makes two functions that ask in a different order comparable.

The proof computes both sides from the same three data of a controller:
its answer to the probe, what the discovery of the legacy paths ends in,
and whether the system log serves a first page. For each of the
functions there is one lemma per outcome of these (`validate_v2`,
`validate_missing`, `firstPoll_probed`), and the equivalence compares
the outcomes.
-/

namespace UnifiAlerts

open Py Lib

/-- A controller that answers equal requests alike. -/
def fixedNet (text : Text) (base : String) (now : Instant) (answer : Request → HttpResult) :
    Net where
  text := text
  base := base
  now := now
  respond _ request := answer request

/-- Equal requests are answered alike, however many have been sent before. -/
def Net.Fixed (net : Net) : Prop := ∀ n m request, net.respond n request = net.respond m request

/-- The transport that a request goes to. -/
def Request.transport : Request → Option AlarmTransport
  | .get _ => some .legacy
  | .page _ _ _ _ _ => some .v2
  | .probe _ => none

/-- The transport of the last request. -/
def Coordinator.transportUsed (coord : Coordinator) : Option AlarmTransport :=
  coord.client.requests.getLast?.bind Request.transport

/-! ## The contract -/

section

variable (net : Net) (site : String) (states : Category → CategoryState)

def probeAnswer : Except Error (Option Bool) :=
  readProbe (net.respond 0 (.probe (systemLogCountUrl net.base site)))

/-- The first poll of a coordinator, with whatever was restored into its states. -/
def firstPoll : Except Error Categorised × Coordinator :=
  Coordinator.fetchCategorised net site { states := states }

/-- The system log serves the window of the first poll. -/
def SystemLogServes (events : List JsonObj) : Prop :=
  ∃ since, Coordinator.fetchSince states net.now = .ok since ∧
    (fetchSystemLogAlarms net site since {}).1 = .ok events

/-- The probe says so, or the system log serves the window of the first poll. -/
def V2Reachable : Prop :=
  probeAnswer net site = .ok (some true) ∨ ∃ events, SystemLogServes net site states events

/-- Some legacy path answers with alarms. -/
def LegacyReachable : Prop := ∃ alarms, (fetchAlarms net site {}).1 = .ok alarms

/-- Validation and the first poll agree: what the poll can fetch, validation accepts by
the transport that the poll used; and where validation finds no transport, there is none.
-/
structure Agree : Prop where
  accepts : ∀ alarms, (firstPoll net site states).1 = .ok alarms →
    ∃ transport, (validateConnectivity net site {}).1 = .ok transport ∧
      (firstPoll net site states).2.transportUsed = some transport
  refuses : ∀ msg,
    (validateConnectivity net site {}).1 = .error (.cannotConnect .alarmEndpointUnavailable msg) →
    ¬V2Reachable net site states ∧ ¬LegacyReachable net site

/-- Every event can be made an alert. -/
def Parses (events : List JsonObj) : Prop :=
  ∀ event ∈ events, ∃ alert, eventAlert net.text net.now event = .ok alert

/-- A controller whose one transport is a system log that validation does not look
at: the probe fails, the legacy paths are gone, and `system-log/all` serves the
poll. Should its events not parse, the poll fails as well, and it takes the
site's being there for validation to call the alarms unavailable. -/
structure Overlooked : Prop where
  probe : ∃ answer, probeAnswer net site = .ok answer ∧ answer ≠ some true
  legacy : ∀ url ∈ alarmPaths net.base site, MissingAlarms net.text (net.respond 0 (.get url))
  systemLog : ∃ events, SystemLogServes net site states events ∧
    (Parses net events ∨ readSites site (net.respond 0 (.get (sitesUrl net.base))) = .ok true)

end

/-! ## Missing paths -/

def Error.isUnavailable : Error → Bool
  | .cannotConnect .alarmEndpointUnavailable _ => true
  | _ => false

theorem Error.isUnavailable_iff {e : Error} :
    e.isUnavailable = true ↔ ∃ msg, e = .cannotConnect .alarmEndpointUnavailable msg := by
  cases e with
  | cannotConnect kind msg => cases kind <;> simp [isUnavailable]
  | _ => simp [isUnavailable]

/-- Only the discovery calls the alarms unavailable. -/
abbrev Plain {α : Type} (x : Except Error α) : Prop :=
  OnlyRaises (fun e => e.isUnavailable = false) x

theorem plain_ofPy {α : Type} (x : Except Exc α) : Plain (ofPy x) :=
  onlyRaises_mapError.mpr fun _ _ => rfl

theorem plain_json (r : Response) (checkType : Bool) : Plain (r.json checkType) := by
  unfold Response.json
  cases r.content with
  | payloadError => exact onlyRaises_error.mpr rfl
  | timeout => exact onlyRaises_error.mpr rfl
  | _ => dsimp only; split <;> simp [Error.isUnavailable]

theorem plain_metaField (v : Json) (field : String) (default : Json) :
    Plain (metaField v field default) := plain_ofPy _

theorem plain_parseUnifiErrorMsg (text : Text) (r : Response) :
    Plain (parseUnifiErrorMsg text r) := by
  unfold parseUnifiErrorMsg
  dsimp only
  split
  · exact onlyRaises_ok _
  · exact onlyRaises_ok _
  · exact onlyRaises_bind.mpr ⟨plain_json r false, fun body _ =>
      onlyRaises_bind.mpr ⟨plain_metaField body _ _, fun _ _ => onlyRaises_pure _⟩⟩

theorem plain_readAlarms (text : Text) (site : String) (result : HttpResult) :
    Plain (readAlarms text site result) := by
  cases result with
  | response r =>
      unfold readAlarms
      dsimp only
      split
      · exact onlyRaises_error.mpr rfl
      · split
        · refine onlyRaises_bind.mpr ⟨plain_parseUnifiErrorMsg text r, fun msg _ => ?_⟩
          split <;> simp [Error.isUnavailable]
        · split
          · exact onlyRaises_ok _
          · split
            · refine onlyRaises_bind.mpr ⟨plain_parseUnifiErrorMsg text r, fun msg _ => ?_⟩
              split <;> simp [Error.isUnavailable]
            · refine onlyRaises_bind.mpr ⟨?_, fun _ _ => onlyRaises_bind.mpr
                ⟨plain_json r true, fun data _ => onlyRaises_bind.mpr
                  ⟨plain_metaField data _ _, fun rc _ => ?_⟩⟩⟩
              · unfold Response.raiseForStatus
                split <;> simp [Error.isUnavailable]
              · split
                · exact onlyRaises_bind.mpr ⟨plain_ofPy _, fun _ _ => onlyRaises_bind.mpr
                    ⟨plain_ofPy _, fun _ _ => onlyRaises_bind.mpr
                      ⟨plain_ofPy _, fun _ _ => onlyRaises_pure _⟩⟩⟩
                · exact onlyRaises_bind.mpr ⟨plain_metaField data _ _, fun _ _ =>
                    onlyRaises_throw.mpr rfl⟩
  | _ => exact onlyRaises_error.mpr rfl

/-- Only a missing path is read as no answer. -/
theorem readAlarms_none_iff {text : Text} {site : String} {result : HttpResult} :
    readAlarms text site result = .ok none ↔ MissingAlarms text result := by
  refine ⟨fun h => ?_, readAlarms_missing⟩
  cases result with
  | response r =>
      refine ⟨r, rfl, ?_⟩
      unfold readAlarms at h
      dsimp only at h
      split at h
      · cases h
      · split at h
        · obtain ⟨msg, -, h⟩ := bind_eq_ok.mp h
          split at h <;> cases h
        · split at h
          · rename_i h404
            exact Or.inl h404
          · split at h
            · rename_i h400
              obtain ⟨msg, hmsg, h⟩ := bind_eq_ok.mp h
              split at h
              · rename_i hmissing
                have hobject : msg = "api.err.InvalidObject" := by
                  simpa [isMissingAlarmPath] using hmissing
                exact Or.inr ⟨h400, hobject ▸ hmsg⟩
              · cases h
            · obtain ⟨_, -, h⟩ := bind_eq_ok.mp h
              obtain ⟨data, -, h⟩ := bind_eq_ok.mp h
              obtain ⟨rc, -, h⟩ := bind_eq_ok.mp h
              split at h
              · obtain ⟨o, -, h⟩ := bind_eq_ok.mp h
                obtain ⟨items, -, h⟩ := bind_eq_ok.mp h
                obtain ⟨records, -, h⟩ := bind_eq_ok.mp h
                cases h
              · obtain ⟨msg, -, h⟩ := bind_eq_ok.mp h
                cases h
  | _ => cases h

section

variable {net : Net} {site : String} {s : ClientState}

theorem plain_tryFetchAlarms (url : String) : Plain (tryFetchAlarms net url site s).1 := by
  show Plain ((readAlarms net.text site _).mapError Error.ofClientError)
  refine onlyRaises_mapError.mpr fun e he => ?_
  have := plain_readAlarms net.text site _ e he
  cases e <;> exact this

theorem tryFetchAlarms_none_iff {url : String} :
    (tryFetchAlarms net url site s).1 = .ok none ↔
      MissingAlarms net.text (net.respond s.requests.length (.get url)) := by
  rw [← @readAlarms_none_iff net.text site]
  show (readAlarms net.text site _).mapError Error.ofClientError = _ ↔ _
  cases readAlarms net.text site (net.respond s.requests.length (.get url)) <;>
    simp [Except.mapError]

/-- The discovery calls the alarms unavailable exactly when every path it still has
to try is missing. -/
theorem discoverFrom_unavailable_iff (hfixed : net.Fixed) :
    ∀ (paths : List String) (s : ClientState),
    (∃ msg, (discoverFrom net site paths s).1 =
      .error (.cannotConnect .alarmEndpointUnavailable msg)) ↔
      ∀ url ∈ paths, MissingAlarms net.text (net.respond 0 (.get url))
  | [], s => by simpa using ⟨_, rfl⟩
  | path :: paths, s => by
      rw [List.forall_mem_cons, hfixed 0 s.requests.length, ← @tryFetchAlarms_none_iff net site s]
      have hplain := @plain_tryFetchAlarms net site s path
      unfold discoverFrom
      rcases htry : tryFetchAlarms net path site s with ⟨res, s'⟩
      rw [htry] at hplain
      cases res with
      | error e =>
          have hrun : ∀ k : Option (List JsonObj) → ClientM (List JsonObj),
              (tryFetchAlarms net path site >>= k) s = (.error e, s') := fun k =>
            Comp.bind_error htry
          rw [hrun]
          constructor
          · rintro ⟨msg, hmsg⟩
            have := hplain e rfl
            rw [Except.error.inj hmsg] at this
            cases this
          · rintro ⟨hnone, -⟩
            cases hnone
      | ok alarms =>
          rw [Comp.bind_run htry]
          cases alarms with
          | none => simpa using discoverFrom_unavailable_iff hfixed paths s'
          | some alarms =>
              constructor
              · rintro ⟨msg, hmsg⟩
                cases hmsg
              · rintro ⟨hnone, -⟩
                cases hnone

theorem fetchAlarms_fresh (hcache : s.alarmUrlCache site = none) :
    fetchAlarms net site s = discoverFrom net site (alarmPaths net.base site) s := by
  unfold fetchAlarms
  rw [Comp.gets_bind, hcache]
  rfl

theorem fetchAlarms_unavailable_iff (hfixed : net.Fixed) (hcache : s.alarmUrlCache site = none) :
    (∃ msg, (fetchAlarms net site s).1 = .error (.cannotConnect .alarmEndpointUnavailable msg)) ↔
      ∀ url ∈ alarmPaths net.base site, MissingAlarms net.text (net.respond 0 (.get url)) := by
  rw [fetchAlarms_fresh hcache]
  exact discoverFrom_unavailable_iff hfixed _ s

end

/-! ## The transport of a request -/

/-- All requests of the way are for one transport. -/
def Through (transport : AlarmTransport) (s s' : ClientState) : Prop :=
  Sends (fun request => request.transport = some transport) s s'

theorem Through.refl {transport : AlarmTransport} (s : ClientState) : Through transport s s :=
  Sends.refl s

theorem Through.trans {transport : AlarmTransport} (s s' s'' : ClientState)
    (h : Through transport s s') (h' : Through transport s' s'') : Through transport s s'' :=
  Sends.trans h h'

theorem Through.send {transport : AlarmTransport} {request : Request} (net : Net)
    (h : request.transport = some transport) :
    Comp.Within (Through transport) (send net request) :=
  Sends.send (P := fun request => request.transport = some transport) net h

/-- There is such a request, and there is no other. -/
def UsesOnly (transport : AlarmTransport) (s s' : ClientState) : Prop :=
  Through transport s s' ∧ s'.requests ≠ s.requests

theorem UsesOnly.last {transport : AlarmTransport} {s s' : ClientState}
    (h : UsesOnly transport s s') :
    s'.requests.getLast?.bind Request.transport = some transport := by
  obtain ⟨⟨sent, hsent, hall⟩, hne⟩ := h
  rw [hsent] at hne ⊢
  have hne' : sent ≠ [] := fun hnil => hne (by rw [hnil, List.append_nil])
  rw [List.getLast?_append_of_ne_nil _ hne', List.getLast?_eq_getLast_of_ne_nil hne']
  exact hall _ (List.getLast_mem hne')

theorem ne_of_append_prefix {request : Request} {sent sent' : List Request}
    (h : sent ++ [request] <+: sent') : sent' ≠ sent := by
  intro heq
  have hle := h.length_le
  rw [heq, List.length_append, List.length_singleton] at hle
  omega

section

variable {net : Net} {site : String}

theorem tryFetchAlarms_through (url : String) :
    Comp.Within (Through .legacy) (tryFetchAlarms net url site) :=
  .bind Through.trans (Through.send net rfl) fun _ => .lift Through.refl _

theorem discoverFrom_through : ∀ paths : List String,
    Comp.Within (Through .legacy) (discoverFrom net site paths)
  | [] => .bind Through.trans (.update fun s => Through.refl s) fun _ => .raise Through.refl _
  | path :: paths => by
      refine .bind Through.trans (tryFetchAlarms_through path) fun alarms => ?_
      cases alarms with
      | none => exact discoverFrom_through paths
      | some alarms =>
          exact .bind Through.trans (.update fun s => Through.refl s) fun _ => .pure Through.refl _

theorem fetchAlarms_uses {s : ClientState} (hcache : s.alarmUrlCache site = none) :
    UsesOnly .legacy s (fetchAlarms net site s).2 := by
  obtain ⟨url, hasks⟩ := fetchAlarms_asks net site s
  refine ⟨?_, ne_of_append_prefix hasks⟩
  rw [fetchAlarms_fresh hcache]
  exact discoverFrom_through _ s

theorem fetchSystemLogAlarms_uses (since : Option Instant) (s : ClientState) :
    UsesOnly .v2 s (fetchSystemLogAlarms net site since s).2 := by
  constructor
  · obtain ⟨sent, hsent, hall⟩ := fetchPages_sends net (systemLogAllUrl net.base site)
      (epochMs (windowStart net.now since)) (epochMs net.now) maxSystemLogPages 0 [] s
    refine ⟨sent, hsent, fun request hr => ?_⟩
    obtain ⟨n, rfl⟩ := hall request hr
    rfl
  · exact ne_of_append_prefix (fetchPages_first net _ _ _ _ _ _ s)

/-! ## The system log of a fixed controller -/

theorem fetchPages_fixed (hfixed : net.Fixed) (url : String) (timestampFrom timestampTo : Int) :
    ∀ (fuel pageNumber : Nat) (results : List JsonObj) (s s' : ClientState),
      (fetchPages net url timestampFrom timestampTo fuel pageNumber results s).1 =
        (fetchPages net url timestampFrom timestampTo fuel pageNumber results s').1
  | 0, _, _, _, _ => rfl
  | fuel + 1, pageNumber, results, s, s' => by
      rw [fetchPages_succ, fetchPages_succ, hfixed s.requests.length s'.requests.length]
      split
      · rfl
      · split
        · rfl
        · exact fetchPages_fixed hfixed url timestampFrom timestampTo fuel (pageNumber + 1) _ _ _

namespace Coordinator

theorem groupEvents_ok_iff : ∀ (events : List JsonObj) (categorised : Categorised)
    (coord : Coordinator),
    (∃ result, (groupEvents net events categorised coord).1 = .ok result) ↔ Parses net events
  | [], _, _ => by simp [groupEvents, Parses]
  | event :: events, categorised, coord => by
      have ih := groupEvents_ok_iff events
      have hcons : Parses net (event :: events) ↔
          (∃ alert, eventAlert net.text net.now event = .ok alert) ∧ Parses net events :=
        List.forall_mem_cons
      rw [hcons, ← eventAlert_eq net.text net.now event coord.seenUnknownKeys]
      unfold groupEvents
      rw [Comp.gets_bind]
      cases UniFiAlert.fromSystemLogEvent net.text net.now event coord.seenUnknownKeys with
      | error e =>
          constructor
          · rintro ⟨result, h⟩
            cases h
          · rintro ⟨⟨alert, h⟩, -⟩
            cases h
      | ok read =>
          obtain ⟨alert, seen⟩ := read
          have halert : ∃ a, Except.map Prod.fst (Except.ok (alert, seen) : Except Exc _) = .ok a :=
            ⟨alert, rfl⟩
          rw [and_iff_right halert]
          simp only [ofPy, Except.mapError, Comp.lift_ok_bind, Comp.update_bind]
          split
          · cases event.getD "key" (.str "") with
            | str k =>
                dsimp only
                split
                · rw [Comp.update_bind]
                  exact ih _ _
                · exact ih _ _
            | _ => exact ih _ _
          · exact ih _ _

theorem fetchV2_ok_iff (hfixed : net.Fixed) {coord : Coordinator} :
    (∃ result, (fetchV2 net site coord).1 = .ok result) ↔
      ∃ events, SystemLogServes net site coord.states events ∧ Parses net events := by
  unfold fetchV2
  rw [Comp.gets_bind]
  cases hsince : fetchSince coord.states net.now with
  | error e =>
      constructor
      · rintro ⟨result, h⟩
        cases h
      · rintro ⟨events, ⟨since, h, -⟩, -⟩
        rw [hsince] at h
        cases h
  | ok since =>
      have hserves : ∀ events, SystemLogServes net site coord.states events ↔
          (onClient (fetchSystemLogAlarms net site since) coord).1 = .ok events := by
        intro events
        have hclient : (onClient (fetchSystemLogAlarms net site since) coord).1 =
            (fetchSystemLogAlarms net site since {}).1 :=
          fetchPages_fixed hfixed (systemLogAllUrl net.base site)
            (epochMs (windowStart net.now since)) (epochMs net.now) maxSystemLogPages 0 []
            coord.client {}
        rw [hclient]
        constructor
        · rintro ⟨since', h, hfetch⟩
          rw [hsince] at h
          obtain rfl := Except.ok.inj h
          exact hfetch
        · exact fun hfetch => ⟨since, hsince, hfetch⟩
      simp only [ofPy, Except.mapError, Comp.lift_ok_bind, Comp.bind_ok]
      constructor
      · rintro ⟨result, events, hfetch, hgroup⟩
        exact ⟨events, (hserves events).mpr hfetch, (groupEvents_ok_iff events _ _).mp ⟨_, hgroup⟩⟩
      · rintro ⟨events, hfetch, hparses⟩
        obtain ⟨result, hresult⟩ := (groupEvents_ok_iff events [] _).mpr hparses
        exact ⟨result, events, (hserves events).mp hfetch, hresult⟩

theorem fetchV2_uses {coord : Coordinator} {result : Categorised}
    (h : (fetchV2 net site coord).1 = .ok result) :
    UsesOnly .v2 coord.client (fetchV2 net site coord).2.client := by
  unfold fetchV2 at h ⊢
  rw [Comp.gets_bind] at h ⊢
  cases hsince : fetchSince coord.states net.now with
  | error e =>
      rw [hsince] at h
      cases h
  | ok since =>
      rw [hsince] at h
      simp only [ofPy, Except.mapError, Comp.lift_ok_bind] at h ⊢
      rcases hrun : onClient (fetchSystemLogAlarms net site since) coord with ⟨res, coord'⟩
      cases res with
      | error e =>
          rw [Comp.bind_error hrun] at h
          cases h
      | ok events =>
          have hclient : coord'.client =
              (fetchSystemLogAlarms net site since coord.client).2 :=
            (congrArg (fun r => r.2.client) hrun).symm
          rw [Comp.bind_run hrun, groupEvents_keeps (f := Coordinator.client) (fun _ _ => rfl)
            (fun _ _ => rfl) net events [] coord', hclient]
          exact fetchSystemLogAlarms_uses since coord.client

end Coordinator

/-! ## The legacy branch -/

theorem plain_categoriseLoop : ∀ (records : List JsonObj) (result : Categorised) (s : ClientState),
    Plain (categoriseLoop net records result s).1
  | [], _, _ => onlyRaises_ok _
  | record :: records, result, s => by
      have ih := plain_categoriseLoop records
      unfold categoriseLoop
      dsimp only
      cases classifyEventKey (record.getD "key" (.str "")) (.str "") with
      | error e => exact onlyRaises_error.mpr rfl
      | ok category =>
          simp only [ofPy, Except.mapError, Comp.lift_ok_bind]
          cases category with
          | none =>
              dsimp only
              cases record.getD "key" (.str "") with
              | str k =>
                  dsimp only
                  split
                  · rw [Comp.update_bind]
                    exact ih _ _
                  · exact ih _ _
              | _ => exact ih _ _
          | some category =>
              dsimp only
              cases UniFiAlert.fromApiAlarm net.text net.now category.name record with
              | error e => exact onlyRaises_error.mpr rfl
              | ok alert => exact ih _ _

namespace Coordinator

/-- Without a legacy path the legacy fetch returns nothing. -/
theorem fetchLegacy_unavailable {coord : Coordinator} {s : ClientState} {msg : String}
    (h : fetchAlarms net site coord.client =
      (.error (.cannotConnect .alarmEndpointUnavailable msg), s)) :
    fetchLegacy net site coord = (.ok none, { coord with client := s }) := by
  have hrun : onClient (categoriseAlarms net site) coord =
      (.error (.cannotConnect .alarmEndpointUnavailable msg), { coord with client := s }) := by
    unfold onClient Comp.zoom categoriseAlarms
    rw [Comp.bind_error h]
  unfold fetchLegacy
  rw [Comp.handle_caught (Comp.bind_error hrun) rfl]
  rfl

theorem fetchLegacy_error {coord : Coordinator} {s : ClientState} {e : Error}
    (h : fetchAlarms net site coord.client = (.error e, s)) (he : e.isUnavailable = false) :
    fetchLegacy net site coord = (.error e, { coord with client := s }) := by
  have hrun : onClient (categoriseAlarms net site) coord =
      (.error e, { coord with client := s }) := by
    unfold onClient Comp.zoom categoriseAlarms
    rw [Comp.bind_error h]
  refine Comp.handle_error (Comp.bind_error hrun) ?_
  split
  · cases he
  · rfl

/-- With one, it ends as the loop over the records does. -/
theorem fetchLegacy_run {coord : Coordinator} {s : ClientState} {raw : List JsonObj}
    (h : fetchAlarms net site coord.client = (.ok raw, s)) :
    let loop := categoriseLoop net raw [] { s with unrecognisedKeys := fun _ => 0 }
    fetchLegacy net site coord = (loop.1.map some, { coord with client := loop.2 }) := by
  intro loop
  have hplain := @plain_categoriseLoop net raw [] { s with unrecognisedKeys := fun _ => 0 }
  have hclient : onClient (categoriseAlarms net site) coord =
      (loop.1, { coord with client := loop.2 }) := by
    unfold onClient Comp.zoom categoriseAlarms
    rw [Comp.bind_run h, Comp.update_bind]
  unfold fetchLegacy
  cases hloop : loop.1 with
  | ok result =>
      rw [hloop] at hclient
      have hsome : (do return some (← onClient (categoriseAlarms net site)) :
          CoordM (Option Categorised)) coord =
            (.ok (some result), { coord with client := loop.2 }) := by
        rw [Comp.bind_run hclient]
        rfl
      rw [Comp.handle_ok hsome]
      rfl
  | error e =>
      rw [hloop] at hclient
      have he : e.isUnavailable = false := hplain e hloop
      rw [Comp.handle_error (Comp.bind_error hclient)]
      · rfl
      · split
        · cases he
        · rfl

/-- It then ends in alarms or in an exception of the record handling, and asks nothing
more. -/
theorem fetchLegacy_found {coord : Coordinator} {s : ClientState} {raw : List JsonObj}
    (h : fetchAlarms net site coord.client = (.ok raw, s)) :
    (fetchLegacy net site coord).1 ≠ .ok none ∧
      (fetchLegacy net site coord).2.client.requests = s.requests := by
  rw [fetchLegacy_run h]
  refine ⟨?_, categoriseLoop_quiet net raw [] { s with unrecognisedKeys := fun _ => 0 }⟩
  cases (categoriseLoop net raw [] { s with unrecognisedKeys := fun _ => 0 }).1 <;>
    simp [Except.map]

end Coordinator

/-! ## Validation -/

/-- The client of either tree after its probe. -/
def probedClient (net : Net) (site : String) : ClientState where
  requests := [.probe (systemLogCountUrl net.base site)]

theorem readSites_plain (result : HttpResult) : Plain (readSites site result) := by
  cases result with
  | response r =>
      have hjson := plain_json r true
      unfold readSites
      dsimp only
      split
      · exact onlyRaises_ok _
      · split
        · exact onlyRaises_ok _
        · exact onlyRaises_ok _
        · exact onlyRaises_ok _
        · rename_i e _ _ _ he
          exact onlyRaises_error.mpr (hjson e he)
        · exact plain_ofPy _
  | timeout => exact onlyRaises_error.mpr rfl
  | _ => exact onlyRaises_ok _

/-- A site without legacy paths is refused one way or the other, and as unavailable
exactly when `self/sites` does not deny it. -/
theorem refuseSite_result (hfixed : net.Fixed) (msg : String) (s : ClientState) :
    (∀ transport, (refuseSite net site msg s).1 ≠ .ok transport) ∧
      ((∃ msg', (refuseSite net site msg s).1 =
          .error (.cannotConnect .alarmEndpointUnavailable msg')) ↔
        readSites site (net.respond 0 (.get (sitesUrl net.base))) = .ok true) := by
  have hrun : siteExists net site s = (readSites site (net.respond 0 (.get (sitesUrl net.base))),
      { s with requests := s.requests ++ [.get (sitesUrl net.base)] }) := by
    rw [hfixed 0 s.requests.length]
    rfl
  have hplain := @readSites_plain site (net.respond 0 (.get (sitesUrl net.base)))
  cases hsites : readSites site (net.respond 0 (.get (sitesUrl net.base))) with
  | error e =>
      rw [hsites] at hrun hplain
      have he : e.isUnavailable = false := hplain e rfl
      have hrefuse : (refuseSite net site msg s).1 = .error e := by
        unfold refuseSite
        rw [Comp.bind_error hrun]
      rw [hrefuse]
      refine ⟨by simp, ?_⟩
      constructor
      · rintro ⟨msg', h⟩
        rw [Except.error.inj h] at he
        cases he
      · exact fun h => nomatch h
  | ok there =>
      rw [hsites] at hrun
      unfold refuseSite
      rw [Comp.bind_run hrun]
      cases there <;> simp [Comp.raise]

/-- The one exception of a probe. -/
theorem probeAnswer_error {e : Error} (h : probeAnswer net site = .error e) : e = .timeout := by
  unfold probeAnswer readProbe at h
  split at h
  · split at h
    · cases h
    · split at h <;> cases h
  · cases h
  · cases h
  · exact (Except.error.inj h).symm

theorem validate_v2 (h : probeAnswer net site = .ok (some true)) :
    (validateConnectivity net site {}).1 = .ok .v2 := by
  have hrun : probeSystemLogEndpoint net site {} = (.ok (some true), probedClient net site) :=
    congrArg (·, probedClient net site) h
  unfold validateConnectivity
  rw [Comp.bind_run hrun]
  rfl

theorem validate_error {e : Error} (h : probeAnswer net site = .error e) :
    (validateConnectivity net site {}).1 = .error e := by
  have hrun : probeSystemLogEndpoint net site {} = (.error e, probedClient net site) :=
    congrArg (·, probedClient net site) h
  unfold validateConnectivity
  rw [Comp.bind_error hrun]

section

variable {answer : Option Bool} (h : probeAnswer net site = .ok answer) (hne : answer ≠ some true)

include h hne

theorem validate_legacy :
    validateConnectivity net site {} =
      Comp.handle (do let _ ← fetchAlarms net site; pure .legacy) (fun e =>
        match e with
        | .cannotConnect .alarmEndpointUnavailable msg => some (refuseSite net site msg)
        | _ => none) (probedClient net site) := by
  have hrun : probeSystemLogEndpoint net site {} = (.ok answer, probedClient net site) :=
    congrArg (·, probedClient net site) h
  unfold validateConnectivity
  rw [Comp.bind_run hrun]
  cases answer with
  | none => rfl
  | some b =>
      cases b with
      | false => rfl
      | true => exact absurd rfl hne

theorem validate_found {raw : List JsonObj}
    (hraw : (fetchAlarms net site (probedClient net site)).1 = .ok raw) :
    (validateConnectivity net site {}).1 = .ok .legacy := by
  rcases hrun : fetchAlarms net site (probedClient net site) with ⟨res, s⟩
  rw [hrun] at hraw
  obtain rfl : res = .ok raw := hraw
  have hdone : (do let _ ← fetchAlarms net site; pure .legacy : ClientM AlarmTransport)
      (probedClient net site) = (.ok .legacy, s) := by
    rw [Comp.bind_run hrun]
    rfl
  rw [validate_legacy h hne, Comp.handle_ok hdone]

theorem validate_missing {s : ClientState} {msg : String}
    (hrun : fetchAlarms net site (probedClient net site) =
      (.error (.cannotConnect .alarmEndpointUnavailable msg), s)) :
    validateConnectivity net site {} = refuseSite net site msg s := by
  rw [validate_legacy h hne, Comp.handle_caught (Comp.bind_error hrun) rfl]

theorem validate_failed {s : ClientState} {e : Error} (he : e.isUnavailable = false)
    (hrun : fetchAlarms net site (probedClient net site) = (.error e, s)) :
    (validateConnectivity net site {}).1 = .error e := by
  rw [validate_legacy h hne, Comp.handle_error (Comp.bind_error hrun)]
  split
  · cases he
  · rfl

end

/-! ## The first poll -/

section

variable {states : Category → CategoryState}

theorem firstPoll_error {e : Error} (h : probeAnswer net site = .error e) :
    ∀ alarms, (firstPoll net site states).1 ≠ .ok alarms := by
  have hprobe : probeSystemLogEndpoint net site {} = (.error e, probedClient net site) :=
    congrArg (·, probedClient net site) h
  intro alarms hok
  unfold firstPoll Coordinator.fetchCategorised Coordinator.probeHasSystemLog
    Coordinator.probeOnce Coordinator.onClient at hok
  simp only [Comp.bind_ok] at hok
  obtain ⟨hasV2, hhandle, -⟩ := hok
  have hclient : Comp.zoom Coordinator.client (fun client coord => { coord with client })
      (probeSystemLogEndpoint net site) { states := states } =
      (.error e, { states := states, client := probedClient net site }) := by
    unfold Comp.zoom
    rw [hprobe]
  rw [Comp.handle_error (by
    rw [Comp.gets_bind, Comp.gets_bind]
    exact Comp.bind_error hclient) (by rw [probeAnswer_error h])] at hhandle
  cases hhandle

/-- The probe of a coordinator that has not probed yet. -/
theorem probeHasSystemLog_fresh {answer : Option Bool} (h : probeAnswer net site = .ok answer) :
    ∃ coord, Coordinator.probeHasSystemLog net site { states := states } =
        (.ok (answer == some true), coord) ∧
      coord.client = probedClient net site ∧ coord.states = states := by
  have hprobe : probeSystemLogEndpoint net site {} = (.ok answer, probedClient net site) :=
    congrArg (·, probedClient net site) h
  have hclient : Coordinator.onClient (probeSystemLogEndpoint net site) { states := states } =
      (.ok answer, { states := states, client := probedClient net site }) := by
    unfold Coordinator.onClient Comp.zoom
    rw [hprobe]
  unfold Coordinator.probeHasSystemLog
  rw [Comp.gets_bind, Comp.gets_bind]
  unfold Coordinator.probeOnce
  dsimp only
  rw [Comp.bind_run hclient]
  cases answer with
  | none => exact ⟨_, rfl, rfl, rfl⟩
  | some b => cases b <;> exact ⟨_, rfl, rfl, rfl⟩

/-- After a probe that says 200 the poll is the v2 fetch; after another it is the
legacy fetch, and the v2 fetch should that find nothing. -/
theorem firstPoll_probed {answer : Option Bool} (h : probeAnswer net site = .ok answer) :
    ∃ coord : Coordinator, coord.client = probedClient net site ∧ coord.states = states ∧
      (answer = some true → firstPoll net site states = Coordinator.fetchV2 net site coord) ∧
      (answer ≠ some true → firstPoll net site states =
        (Coordinator.fetchLegacy net site >>= fun result =>
          match result with
          | some result => do
            Comp.update fun s : Coordinator => { s with
              unrecognisedKeys := fun k => s.unrecognisedKeys k + s.client.unrecognisedKeys k }
            pure result
          | none => Coordinator.fetchV2 net site) coord) := by
  obtain ⟨coord, hrun, hclient, hstates⟩ := @probeHasSystemLog_fresh net site states _ h
  have hconfirmed : coord.client.legacyConfirmedUnavailable site = false := by
    rw [hclient]
    rfl
  refine ⟨coord, hclient, hstates, fun htrue => ?_, fun hne => ?_⟩
  · subst htrue
    unfold firstPoll Coordinator.fetchCategorised
    rw [Comp.bind_run (Comp.handle_ok hrun), Comp.gets_bind]
    rfl
  · have hfalse : (answer == some true) = false := by simpa using hne
    rw [hfalse] at hrun
    unfold firstPoll Coordinator.fetchCategorised
    rw [Comp.bind_run (Comp.handle_ok hrun), Comp.gets_bind, hconfirmed]
    rfl

/-! ## Agreement -/

theorem accepts_of_not_overlooked (hfixed : net.Fixed) (hnot : ¬Overlooked net site states)
    {alarms : Categorised} (hok : (firstPoll net site states).1 = .ok alarms) :
    ∃ transport, (validateConnectivity net site {}).1 = .ok transport ∧
      (firstPoll net site states).2.transportUsed = some transport := by
  cases hprobe : probeAnswer net site with
  | error e => exact absurd hok (firstPoll_error hprobe alarms)
  | ok answer =>
      obtain ⟨coord, hclient, hstates, hv2, hlegacy⟩ := @firstPoll_probed net site states _ hprobe
      by_cases hanswer : answer = some true
      · subst hanswer
        rw [hv2 rfl] at hok ⊢
        exact ⟨.v2, validate_v2 hprobe, (Coordinator.fetchV2_uses hok).last⟩
      · rw [hlegacy hanswer] at hok ⊢
        rcases hfetch : fetchAlarms net site (probedClient net site) with ⟨res, s⟩
        have hfetch' : fetchAlarms net site coord.client = (res, s) := by rw [hclient, hfetch]
        cases res with
        | ok raw =>
            obtain ⟨hsome, hrequests⟩ := Coordinator.fetchLegacy_found hfetch'
            rcases hrun : Coordinator.fetchLegacy net site coord with ⟨res, coord'⟩
            rw [hrun] at hsome hrequests
            cases res with
            | error e =>
                rw [Comp.bind_error hrun] at hok
                cases hok
            | ok result =>
                cases result with
                | none => exact absurd rfl hsome
                | some result =>
                    refine ⟨.legacy, validate_found hprobe hanswer (by rw [hfetch]), ?_⟩
                    rw [Comp.bind_run hrun]
                    show coord'.client.requests.getLast?.bind Request.transport = _
                    have huses : UsesOnly .legacy (probedClient net site)
                        (fetchAlarms net site (probedClient net site)).2 := fetchAlarms_uses rfl
                    rw [hfetch] at huses
                    rw [show coord'.client.requests = s.requests from hrequests]
                    exact huses.last
        | error e =>
            cases he : e.isUnavailable with
            | false =>
                rw [Comp.bind_error (Coordinator.fetchLegacy_error hfetch' he)] at hok
                cases hok
            | true =>
                -- the poll goes on to a system log that validation does not ask
                obtain ⟨msg, rfl⟩ := Error.isUnavailable_iff.mp he
                rw [Comp.bind_run (Coordinator.fetchLegacy_unavailable hfetch')] at hok
                obtain ⟨events, hserves, hparses⟩ :=
                  (Coordinator.fetchV2_ok_iff hfixed).mp ⟨alarms, hok⟩
                rw [show Coordinator.states { coord with client := s } = states from hstates]
                  at hserves
                exact absurd ⟨⟨answer, hprobe, hanswer⟩,
                  (fetchAlarms_unavailable_iff hfixed rfl).mp ⟨msg, by rw [hfetch]⟩,
                  events, hserves, Or.inl hparses⟩ hnot

theorem refuses_of_not_overlooked (hfixed : net.Fixed) (hnot : ¬Overlooked net site states)
    {msg : String} (hrefused : (validateConnectivity net site {}).1 =
      .error (.cannotConnect .alarmEndpointUnavailable msg)) :
    ¬V2Reachable net site states ∧ ¬LegacyReachable net site := by
  cases hprobe : probeAnswer net site with
  | error e =>
      rw [validate_error hprobe] at hrefused
      rw [probeAnswer_error hprobe] at hrefused
      cases hrefused
  | ok answer =>
      by_cases hanswer : answer = some true
      · subst hanswer
        rw [validate_v2 hprobe] at hrefused
        cases hrefused
      · rcases hfetch : fetchAlarms net site (probedClient net site) with ⟨res, s⟩
        cases res with
        | ok raw =>
            rw [validate_found hprobe hanswer (by rw [hfetch])] at hrefused
            cases hrefused
        | error e =>
            cases he : e.isUnavailable with
            | false =>
                rw [validate_failed hprobe hanswer he hfetch] at hrefused
                rw [Except.error.inj hrefused] at he
                cases he
            | true =>
                obtain ⟨msg', rfl⟩ := Error.isUnavailable_iff.mp he
                rw [validate_missing hprobe hanswer hfetch] at hrefused
                have hsites := (refuseSite_result hfixed msg' s).2.mp ⟨msg, hrefused⟩
                have hmissing : ∀ url ∈ alarmPaths net.base site,
                    MissingAlarms net.text (net.respond 0 (.get url)) :=
                  (fetchAlarms_unavailable_iff (s := probedClient net site) hfixed rfl).mp
                    ⟨msg', by rw [hfetch]⟩
                constructor
                · rintro (htrue | ⟨events, hserves⟩)
                  · rw [hprobe] at htrue
                    exact hanswer (Except.ok.inj htrue)
                  · exact hnot ⟨⟨answer, hprobe, hanswer⟩, hmissing, events, hserves, Or.inr hsites⟩
                · rintro ⟨alarms, halarms⟩
                  obtain ⟨msg'', hmsg⟩ := (fetchAlarms_unavailable_iff (s := {}) hfixed rfl).mpr
                    hmissing
                  rw [halarms] at hmsg
                  cases hmsg

theorem not_agree_of_overlooked (hfixed : net.Fixed) (h : Overlooked net site states) :
    ¬Agree net site states := by
  rintro ⟨haccepts, hrefuses⟩
  obtain ⟨⟨answer, hprobe, hanswer⟩, hmissing, events, hserves, hlog⟩ := h
  obtain ⟨msg, hmsg⟩ := (fetchAlarms_unavailable_iff (s := probedClient net site) hfixed rfl).mpr
    hmissing
  rcases hfetch : fetchAlarms net site (probedClient net site) with ⟨res, s⟩
  rw [hfetch] at hmsg
  obtain rfl : res = _ := hmsg
  have hvalidate := validate_missing hprobe hanswer hfetch
  rcases hlog with hparses | hsites
  · -- the poll succeeds, and validation ends in a refusal
    obtain ⟨coord, hclient, hstates, -, hlegacy⟩ := @firstPoll_probed net site states _ hprobe
    have hfetch' : fetchAlarms net site coord.client =
        (.error (.cannotConnect .alarmEndpointUnavailable msg), s) := by rw [hclient, hfetch]
    have hpoll := hlegacy hanswer
    rw [Comp.bind_run (Coordinator.fetchLegacy_unavailable hfetch')] at hpoll
    obtain ⟨alarms, hok⟩ := (@Coordinator.fetchV2_ok_iff net site hfixed
      { coord with client := s }).mpr
        ⟨events, by rw [show Coordinator.states _ = states from hstates]; exact hserves,
        hparses⟩
    obtain ⟨transport, htransport, -⟩ := haccepts alarms (by rw [hpoll]; exact hok)
    rw [hvalidate] at htransport
    exact (refuseSite_result hfixed msg s).1 transport htransport
  · -- validation calls the alarms unavailable, and the system log serves them
    obtain ⟨msg', hmsg'⟩ := (refuseSite_result hfixed msg s).2.mpr hsites
    exact (hrefuses msg' (by rw [hvalidate]; exact hmsg')).1 (Or.inr ⟨events, hserves⟩)

end

end

theorem fixedNet_fixed (text : Text) (base : String) (now : Instant)
    (answer : Request → HttpResult) : (fixedNet text base now answer).Fixed :=
  fun _ _ _ => rfl

/-- On every fixed assignment of answers, setup validation and the first poll agree
exactly when the assignment does not hide a working system log behind a failed
probe and missing legacy paths. -/
theorem setup_and_poll_agree_iff (text : Text) (base site : String) (now : Instant)
    (answer : Request → HttpResult) (states : Category → CategoryState) :
    Agree (fixedNet text base now answer) site states ↔
      ¬Overlooked (fixedNet text base now answer) site states := by
  have hfixed := fixedNet_fixed text base now answer
  constructor
  · exact fun hagree hover => not_agree_of_overlooked hfixed hover hagree
  · exact fun hnot => ⟨fun _ => accepts_of_not_overlooked hfixed hnot,
      fun _ => refuses_of_not_overlooked hfixed hnot⟩

/-- A 10.6 controller whose probe fails once with 500: its sites are listed, the
legacy paths are gone, the system log is empty. -/
def modernAnswer : Request → HttpResult
  | .get url =>
    if url = sitesUrl "https://unifi" then
      .response { status := 200, content := .value (.obj [("data",
        .arr [.obj [("name", .str "default")]])]) }
    else .response { status := 404, content := .empty }
  | .probe _ => .response { status := 500, content := .empty }
  | .page _ _ _ _ _ => .response { status := 200, content := .value (.obj [("data", .arr [])]) }

/-- The first poll succeeds over the system log where validation refuses the entry. -/
theorem modern_controller_refused :
    let net := fixedNet (Text.counting fun _ => none) "https://unifi" 0 modernAnswer
    let states := (Coordinator.fresh {}).states
    (firstPoll net "default" states).1 = .ok [] ∧
      (firstPoll net "default" states).2.transportUsed = some .v2 ∧
      (validateConnectivity net "default" {}).1 =
        .error (.cannotConnect .alarmEndpointUnavailable
          (unavailableMsg "https://unifi" "default")) ∧
      ¬Agree net "default" states := by
  intro net states
  have hpoll : (firstPoll net "default" states).1 = .ok [] := rfl
  have hrefused : (validateConnectivity net "default" {}).1 =
      .error (.cannotConnect .alarmEndpointUnavailable
        (unavailableMsg "https://unifi" "default")) := by decide +kernel
  refine ⟨hpoll, rfl, hrefused, fun hagree => ?_⟩
  obtain ⟨transport, htransport, -⟩ := hagree.accepts [] hpoll
  rw [hrefused] at htransport
  cases htransport

end UnifiAlerts
