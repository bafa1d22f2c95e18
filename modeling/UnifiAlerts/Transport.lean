import UnifiAlerts.Requests

/-!
# Choosing a transport

A `Controller` has a fixed set of working transports: the v2 system log
and any of the legacy alarm paths. Every poll may see a different `Net`,
as long as it is one the controller `Offers`. The coordinator's probe
cache and the client's URL cache and confirmed-unavailable flag stay
true to the controller (`TransportInv`), so a poll always ends up on a
transport that works, and a site whose legacy paths were all found
missing is not asked for them again.

The proof follows the calls of a poll downwards with weakest
preconditions (`Lib.Comp`): each client function has one lemma that says
what it ends in and that it keeps `ClientInv`, and the coordinator's
fetch is assembled from these. That a confirmed site is left alone is a
property of the requests that a poll sends (`LeavesLegacyAlone`), so it
does not depend on what is fetched instead.
-/

namespace UnifiAlerts

open Py Lib

/-! ## The controller -/

structure Controller where
  base : String
  v2 : Bool
  legacy : String → Bool

/-- A legacy answer with `meta.rc` "ok". -/
def WorkingAlarms (result : HttpResult) : Prop :=
  ∃ r v, result = .response r ∧ 200 ≤ r.status ∧ r.status < 300 ∧ r.jsonType = true ∧
    r.content = .value v ∧ metaField v "rc" .null = .ok (.str "ok")

/-- The answer of a path that the firmware does not have. -/
def MissingAlarms (text : Text) (result : HttpResult) : Prop :=
  ∃ r, result = .response r ∧
    (r.status = 404 ∨ r.status = 400 ∧ parseUnifiErrorMsg text r = .ok "api.err.InvalidObject")

/-- A 2xx answer with a JSON body. -/
def WorkingPage (result : HttpResult) : Prop :=
  ∃ r v, result = .response r ∧ 200 ≤ r.status ∧ r.status < 300 ∧ r.jsonType = true ∧
    r.content = .value v

/-- The controller's answers at one poll: its working transports work, the other legacy
paths are missing, and a definitive probe answer is right. A probe may also fail for the
moment. -/
structure Offers (ctl : Controller) (site : String) (net : Net) : Prop where
  base : net.base = ctl.base
  works : ∀ n url, url ∈ alarmPaths ctl.base site → ctl.legacy url = true →
    WorkingAlarms (net.respond n (.get url))
  missing : ∀ n url, url ∈ alarmPaths ctl.base site → ctl.legacy url = false →
    MissingAlarms net.text (net.respond n (.get url))
  pages : ctl.v2 = true → ∀ n url timestampFrom timestampTo pageNumber pageSize,
    WorkingPage (net.respond n (.page url timestampFrom timestampTo pageNumber pageSize))
  definitive : ∀ n url r, net.respond n (.probe url) = .response r →
    (r.status = 200 → ctl.v2 = true) ∧ (r.status = 404 → ctl.v2 = false)

/-- The non-empty set of working transports. -/
def Controller.HasTransport (ctl : Controller) (site : String) : Prop :=
  ctl.v2 = true ∨ ∃ url ∈ alarmPaths ctl.base site, ctl.legacy url = true

/-! ## Reading an answer -/

theorem readAlarms_missing {text : Text} {site : String} {result : HttpResult}
    (h : MissingAlarms text result) : readAlarms text site result = .ok none := by
  obtain ⟨r, rfl, h | ⟨h, hmsg⟩⟩ := h
  · simp [readAlarms, h]
  · simp [readAlarms, h, hmsg, isMissingAlarmPath, bind, Except.bind, pure, Except.pure]

/-- A working path yields alarms, or an exception of the record handling. -/
theorem readAlarms_works {text : Text} {site : String} {result : HttpResult}
    (h : WorkingAlarms result) :
    (∃ alarms, readAlarms text site result = .ok (some alarms)) ∨
      ∃ e, readAlarms text site result = .error (.py e) := by
  obtain ⟨r, v, rfl, hlo, hhi, htype, hcontent, hrc⟩ := h
  have h₁ : ¬(300 ≤ r.status ∧ r.status < 400) := by omega
  have h₂ : ¬400 ≤ r.status := by omega
  have h₃ : r.status ≠ 401 := by omega
  have h₄ : r.status ≠ 404 := by omega
  have h₅ : r.status ≠ 400 := by omega
  have hjson : r.json true = .ok v := by
    simp [Response.json, hcontent, htype]
  simp only [readAlarms, if_neg h₁, if_neg h₃, if_neg h₄, if_neg h₅, Response.raiseForStatus,
    if_neg h₂, hjson, bind, Except.bind, hrc]
  cases v.asDict with
  | error e => exact Or.inr ⟨e, rfl⟩
  | ok o =>
      simp only [ofPy, Except.mapError]
      cases Json.iter (o.getD "data" (.arr [])) with
      | error e => exact Or.inr ⟨e, rfl⟩
      | ok items =>
          dsimp only
          cases unarchived items with
          | error e => exact Or.inr ⟨e, rfl⟩
          | ok alarms => exact Or.inl ⟨alarms, rfl⟩

theorem readSystemLogPage_works {result : HttpResult} (h : WorkingPage result) :
    ∃ v, readSystemLogPage result = .ok v := by
  obtain ⟨r, v, rfl, hlo, hhi, htype, hcontent⟩ := h
  have h₁ : ¬(300 ≤ r.status ∧ r.status < 400) := by omega
  have h₂ : ¬400 ≤ r.status := by omega
  have h₃ : r.status ≠ 401 := by omega
  have hjson : r.json true = .ok v := by
    simp [Response.json, hcontent, htype]
  exact ⟨v, by
    simp [readSystemLogPage, h₁, h₂, h₃, Response.raiseForStatus, hjson, bind, Except.bind]⟩

theorem ofPy_error {α : Type} {x : Except Exc α} {e : Error} (h : ofPy x = .error e) :
    e.isCannotConnect = false := by
  cases x with
  | ok a => cases h
  | error x =>
      obtain rfl := Except.error.inj h
      rfl

/-! ## The legacy client -/

section

variable {ctl : Controller} {site : String} {net : Net}

/-- The client's caches are true to the controller: a cached path is one of the site, and
a site that is confirmed without legacy paths has none. -/
structure ClientInv (ctl : Controller) (site : String) (s : ClientState) : Prop where
  cached : ∀ url, s.alarmUrlCache site = some url → url ∈ alarmPaths ctl.base site
  confirmed : s.legacyConfirmedUnavailable site = true →
    ∀ url ∈ alarmPaths ctl.base site, ctl.legacy url = false

/-- An error of a legacy fetch: no connection error, or the discovery's, and
then every legacy path is missing. -/
def LegacyError (ctl : Controller) (site : String) (e : Error) : Prop :=
  e.isCannotConnect = false ∨
    (∃ msg, e = .cannotConnect .alarmEndpointUnavailable msg) ∧
      ∀ url ∈ alarmPaths ctl.base site, ctl.legacy url = false

theorem ClientInv.send {s : ClientState} (h : ClientInv ctl site s) (request : Request) :
    ClientInv ctl site { s with requests := s.requests ++ [request] } :=
  ⟨h.cached, h.confirmed⟩

theorem tryFetchAlarms_wp (hoffers : Offers ctl site net) {url : String}
    (hurl : url ∈ alarmPaths ctl.base site) {s : ClientState} (h : ClientInv ctl site s) :
    Comp.wp (tryFetchAlarms net url site)
      (fun alarms s' => ClientInv ctl site s' ∧ (alarms = none → ctl.legacy url = false))
      (fun e s' => ClientInv ctl site s' ∧ e.isCannotConnect = false) s := by
  unfold tryFetchAlarms
  rw [Comp.wp_bind]
  show Comp.wp (Comp.lift _) _ _ _
  rw [Comp.wp_lift]
  cases hlegacy : ctl.legacy url with
  | false =>
      rw [readAlarms_missing (hoffers.missing _ url hurl hlegacy)]
      refine ⟨fun alarms _ => ⟨h.send _, fun _ => rfl⟩, fun e he => ?_⟩
      cases he
  | true =>
      rcases @readAlarms_works net.text site _
        (hoffers.works s.requests.length url hurl hlegacy) with
        ⟨alarms, hok⟩ | ⟨e, herr⟩
      · rw [hok]
        refine ⟨fun a ha => ⟨h.send _, fun hnone => ?_⟩, fun e he => ?_⟩
        · rw [hnone] at ha
          cases ha
        · cases he
      · rw [herr]
        refine ⟨fun a ha => ?_, fun e' he => ⟨h.send _, ?_⟩⟩
        · cases ha
        · obtain rfl := Except.error.inj he
          rfl

/-- The loop over the paths still to try, the earlier ones being missing. -/
theorem discoverFrom_wp (hoffers : Offers ctl site net) :
    ∀ (paths : List String), paths ⊆ alarmPaths ctl.base site →
      (∀ url ∈ alarmPaths ctl.base site, url ∉ paths → ctl.legacy url = false) →
      ∀ s : ClientState, ClientInv ctl site s →
      Comp.wp (discoverFrom net site paths) (fun _ s' => ClientInv ctl site s')
        (fun e s' => ClientInv ctl site s' ∧ LegacyError ctl site e) s
  | [], _, hmissing, s, h => by
      have hall : ∀ url ∈ alarmPaths ctl.base site, ctl.legacy url = false :=
        fun url hurl => hmissing url hurl (by simp)
      unfold discoverFrom
      rw [Comp.wp_bind, Comp.wp_update]
      exact ⟨⟨h.cached, fun _ => hall⟩, Or.inr ⟨⟨_, rfl⟩, hall⟩⟩
  | path :: paths, hsub, hmissing, s, h => by
      have hpath : path ∈ alarmPaths ctl.base site := hsub (by simp)
      unfold discoverFrom
      rw [Comp.wp_bind]
      refine Comp.wp_mono (tryFetchAlarms_wp hoffers hpath h) (fun alarms s' hs' => ?_)
        fun e s' he => ⟨he.1, Or.inl he.2⟩
      obtain ⟨hinv, hnone⟩ := hs'
      cases alarms with
      | none =>
          refine discoverFrom_wp hoffers paths (fun x hx => hsub (List.mem_cons_of_mem _ hx))
            (fun url hurl hnot => ?_) s' hinv
          by_cases hp : url = path
          · rw [hp]
            exact hnone rfl
          · exact hmissing url hurl (by simp [hp, hnot])
      | some alarms =>
          dsimp only
          rw [Comp.wp_bind, Comp.wp_update]
          refine ⟨fun url hcached => ?_, hinv.confirmed⟩
          simp only [Function.update_self, Option.some.injEq] at hcached
          rw [← hcached]
          exact hpath

theorem discoverAlarmUrl_wp (hoffers : Offers ctl site net) {s : ClientState}
    (h : ClientInv ctl site s) :
    Comp.wp (discoverAlarmUrl net site) (fun _ s' => ClientInv ctl site s')
      (fun e s' => ClientInv ctl site s' ∧ LegacyError ctl site e) s := by
  unfold discoverAlarmUrl
  rw [hoffers.base]
  exact discoverFrom_wp hoffers _ (List.Subset.refl _) (fun url hurl hnot => absurd hurl hnot) s h

theorem fetchAlarms_wp (hoffers : Offers ctl site net) {s : ClientState}
    (h : ClientInv ctl site s) :
    Comp.wp (fetchAlarms net site) (fun _ s' => ClientInv ctl site s')
      (fun e s' => ClientInv ctl site s' ∧ LegacyError ctl site e) s := by
  unfold fetchAlarms
  rw [Comp.wp_bind, Comp.wp_gets]
  cases hcached : s.alarmUrlCache site with
  | none => exact discoverAlarmUrl_wp hoffers h
  | some url =>
      dsimp only
      rw [Comp.wp_bind]
      refine Comp.wp_mono (tryFetchAlarms_wp hoffers (h.cached url hcached) h)
        (fun alarms s' hs' => ?_) fun e s' he => ⟨he.1, Or.inl he.2⟩
      cases alarms with
      | some alarms => exact hs'.1
      | none =>
          dsimp only
          rw [Comp.wp_bind, Comp.wp_update]
          refine discoverAlarmUrl_wp hoffers ⟨fun url hurl => ?_, hs'.1.confirmed⟩
          simp at hurl

/-- Grouping raises exceptions of the record handling only. -/
theorem categoriseLoop_wp (net : Net) : ∀ (records : List JsonObj) (result : Categorised)
    (s : ClientState), ClientInv ctl site s →
    Comp.wp (categoriseLoop net records result) (fun _ s' => ClientInv ctl site s')
      (fun e s' => ClientInv ctl site s' ∧ e.isCannotConnect = false) s
  | [], _, _, h => h
  | record :: records, result, s, h => by
      have ih := fun result s => categoriseLoop_wp net records result s
      unfold categoriseLoop
      rw [Comp.wp_bind, Comp.wp_lift]
      refine ⟨fun category _ => ?_, fun e he => ⟨h, ofPy_error he⟩⟩
      cases category with
      | none =>
          dsimp only
          split
          · split
            · rw [Comp.wp_bind, Comp.wp_update]
              exact ih _ _ ⟨h.cached, h.confirmed⟩
            · exact ih _ _ h
          · exact ih _ _ h
      | some category =>
          dsimp only
          rw [Comp.wp_bind, Comp.wp_lift]
          exact ⟨fun _ _ => ih _ _ h, fun e he => ⟨h, ofPy_error he⟩⟩

theorem categoriseAlarms_wp (hoffers : Offers ctl site net) {s : ClientState}
    (h : ClientInv ctl site s) :
    Comp.wp (categoriseAlarms net site) (fun _ s' => ClientInv ctl site s')
      (fun e s' => ClientInv ctl site s' ∧ LegacyError ctl site e) s := by
  unfold categoriseAlarms
  rw [Comp.wp_bind]
  refine Comp.wp_mono (fetchAlarms_wp hoffers h) (fun raw s' hs' => ?_) fun _ _ he => he
  rw [Comp.wp_bind, Comp.wp_update]
  exact Comp.wp_mono (categoriseLoop_wp net raw [] _ ⟨hs'.cached, hs'.confirmed⟩)
    (fun _ _ h => h) fun e s'' he => ⟨he.1, Or.inl he.2⟩

/-! ## The v2 client -/

theorem fetchPages_wp (hoffers : Offers ctl site net) (hv2 : ctl.v2 = true) (url : String)
    (timestampFrom timestampTo : Int) :
    ∀ (fuel pageNumber : Nat) (results : List JsonObj) (s : ClientState), ClientInv ctl site s →
      Comp.wp (fetchPages net url timestampFrom timestampTo fuel pageNumber results)
        (fun _ s' => ClientInv ctl site s')
        (fun e s' => ClientInv ctl site s' ∧ e.isCannotConnect = false) s
  | 0, _, _, s, h => by
      unfold fetchPages
      rw [Comp.wp_bind, Comp.wp_update]
      exact ⟨h.cached, h.confirmed⟩
  | fuel + 1, pageNumber, results, s, h => by
      obtain ⟨v, hv⟩ := readSystemLogPage_works (hoffers.pages hv2 s.requests.length url
        timestampFrom timestampTo pageNumber systemLogPageSize)
      have h' := h.send (.page url timestampFrom timestampTo pageNumber systemLogPageSize)
      unfold fetchPages
      rw [Comp.wp_bind]
      show Comp.wp (Comp.lift ((readSystemLogPage (net.respond s.requests.length
        (.page url timestampFrom timestampTo pageNumber systemLogPageSize))).mapError
          Error.ofClientError) >>= _) _ _ _
      rw [hv, Comp.wp_bind, Comp.wp_lift]
      refine ⟨fun body _ => ?_, fun e he => by cases he⟩
      rw [Comp.wp_bind, Comp.wp_lift]
      refine ⟨fun data _ => ?_, fun e he => ⟨h', ofPy_error he⟩⟩
      dsimp only
      rw [Comp.wp_bind, Comp.wp_lift]
      refine ⟨fun items _ => ?_, fun e he => ⟨h', ofPy_error he⟩⟩
      rw [Comp.wp_bind, Comp.wp_lift]
      refine ⟨fun events _ => ?_, fun e he => ⟨h', ofPy_error he⟩⟩
      rw [Comp.wp_bind, Comp.wp_lift]
      refine ⟨fun last _ => ?_, fun e he => ⟨h', ofPy_error he⟩⟩
      split
      · exact h'
      · split
        · exact h'
        · exact fetchPages_wp hoffers hv2 url timestampFrom timestampTo fuel (pageNumber + 1) _ _ h'

/-! ## The coordinator -/

namespace Coordinator

/-- And so is the coordinator: a system log that the probe has found is there. -/
structure TransportInv (ctl : Controller) (site : String) (coord : Coordinator) : Prop where
  probed : coord.hasSystemLog = some true → ctl.v2 = true
  client : ClientInv ctl site coord.client

theorem transportInv_fresh (ctl : Controller) (site : String) (config : UniFiClientConfig) :
    TransportInv ctl site (.fresh config) :=
  ⟨fun h => (nomatch h), fun _ h => (nomatch h), fun h => nomatch h⟩

theorem readProbe_definitive (hoffers : Offers ctl site net) (n : Nat) (url : String) :
    (∀ answer, readProbe (net.respond n (.probe url)) = .ok answer →
      answer = some true → ctl.v2 = true) ∧
    ∀ e, readProbe (net.respond n (.probe url)) = .error e → e = .timeout := by
  cases hr : net.respond n (.probe url) with
  | timeout => exact ⟨fun _ h => (nomatch h), fun _ h => (Except.error.inj h).symm⟩
  | certificate => exact ⟨fun _ h ht => (nomatch (Except.ok.inj h).trans ht), fun _ h => nomatch h⟩
  | clientError name =>
      exact ⟨fun _ h ht => (nomatch (Except.ok.inj h).trans ht), fun _ h => nomatch h⟩
  | response r =>
      unfold readProbe
      dsimp only
      split
      · rename_i h200
        exact ⟨fun _ _ _ => (hoffers.definitive n url r hr).1 h200, fun _ h => nomatch h⟩
      · split
        · exact ⟨fun _ h ht => (nomatch (Except.ok.inj h).trans ht), fun _ h => nomatch h⟩
        · exact ⟨fun _ h ht => (nomatch (Except.ok.inj h).trans ht), fun _ h => nomatch h⟩

theorem probeOnce_wp (hoffers : Offers ctl site net) {coord : Coordinator}
    (h : TransportInv ctl site coord) :
    Comp.wp (probeOnce net site)
      (fun hasV2 s' => TransportInv ctl site s' ∧ (hasV2 = true → ctl.v2 = true))
      (fun e s' => TransportInv ctl site s' ∧ e = .timeout) coord := by
  obtain ⟨htrue, htimeout⟩ := readProbe_definitive hoffers coord.client.requests.length
    (net.base ++ unifiOsNetworkPrefix ++ "/v2/api/site/" ++ site ++ "/system-log/count")
  have hclient := h.client.send
    (.probe (net.base ++ unifiOsNetworkPrefix ++ "/v2/api/site/" ++ site ++ "/system-log/count"))
  unfold probeOnce
  rw [Comp.wp_bind, onClient, Comp.wp_zoom, probeSystemLogEndpoint]
  dsimp only
  rw [Comp.wp_bind]
  show Comp.wp (Comp.lift (readProbe (net.respond coord.client.requests.length (.probe _)))) _ _ _
  rw [Comp.wp_lift]
  refine ⟨fun answer hanswer => ?_, fun e he => ⟨⟨h.probed, hclient⟩, htimeout e he⟩⟩
  have hv2 := htrue answer hanswer
  cases answer with
  | some b =>
      cases b with
      | true => exact ⟨⟨fun _ => hv2 rfl, hclient⟩, fun _ => hv2 rfl⟩
      | false => exact ⟨⟨fun hb => (nomatch hb), hclient⟩, fun hb => nomatch hb⟩
  | none =>
      dsimp only
      rw [Comp.wp_bind, Comp.wp_update, Comp.wp_bind, Comp.wp_gets]
      split
      · rw [Comp.wp_bind, Comp.wp_update]
        exact ⟨⟨fun hb => (nomatch hb), hclient⟩, fun hb => nomatch hb⟩
      · exact ⟨⟨h.probed, hclient⟩, fun hb => nomatch hb⟩

theorem probeHasSystemLog_wp (hoffers : Offers ctl site net) {coord : Coordinator}
    (h : TransportInv ctl site coord) :
    Comp.wp (probeHasSystemLog net site)
      (fun hasV2 s' => TransportInv ctl site s' ∧ (hasV2 = true → ctl.v2 = true))
      (fun e s' => TransportInv ctl site s' ∧ e = .timeout) coord := by
  unfold probeHasSystemLog
  rw [Comp.wp_bind, Comp.wp_gets, Comp.wp_bind, Comp.wp_gets]
  split
  · exact probeOnce_wp hoffers h
  · split
    · rw [Comp.wp_bind, Comp.wp_update]
      exact probeOnce_wp hoffers ⟨fun hb => (nomatch hb), h.client⟩
    · exact ⟨h, fun hb => nomatch hb⟩
  · rename_i cached _ hcached _
    exact ⟨h, fun hb => h.probed (by rw [hcached, hb])⟩

/-! ### The fetches -/

theorem groupEvents_inv {coord : Coordinator} (h : TransportInv ctl site coord)
    (events : List JsonObj) (categorised : Categorised) :
    TransportInv ctl site (groupEvents net events categorised coord).2 := by
  have hprobed := groupEvents_keeps (f := Coordinator.hasSystemLog) (fun _ _ => rfl)
    (fun _ _ => rfl) net events categorised coord
  have hclient := groupEvents_keeps (f := Coordinator.client) (fun _ _ => rfl)
    (fun _ _ => rfl) net events categorised coord
  exact ⟨by rw [hprobed]; exact h.probed, by rw [hclient]; exact h.client⟩

/-- Grouping the events raises exceptions of the event handling only. -/
theorem groupEvents_wp : ∀ (events : List JsonObj) (categorised : Categorised)
    (coord : Coordinator),
    Comp.wp (groupEvents net events categorised) (fun _ _ => True)
      (fun e _ => e.isCannotConnect = false) coord
  | [], _, _ => trivial
  | event :: events, categorised, coord => by
      unfold groupEvents
      rw [Comp.wp_bind, Comp.wp_gets, Comp.wp_bind, Comp.wp_lift]
      refine ⟨fun r _ => ?_, fun e he => ofPy_error he⟩
      obtain ⟨alert, seen'⟩ := r
      dsimp only
      rw [Comp.wp_bind, Comp.wp_update]
      split
      · split
        · split
          · rw [Comp.wp_bind, Comp.wp_update]
            exact groupEvents_wp events _ _
          · exact groupEvents_wp events _ _
        · exact groupEvents_wp events _ _
      · exact groupEvents_wp events _ _

theorem fetchV2_wp (hoffers : Offers ctl site net) (hv2 : ctl.v2 = true) {coord : Coordinator}
    (h : TransportInv ctl site coord) :
    Comp.wp (fetchV2 net site) (fun _ s' => TransportInv ctl site s')
      (fun e s' => TransportInv ctl site s' ∧ e.isCannotConnect = false) coord := by
  unfold fetchV2
  rw [Comp.wp_bind, Comp.wp_gets, Comp.wp_bind, Comp.wp_lift]
  refine ⟨fun since _ => ?_, fun e he => ⟨h, ofPy_error he⟩⟩
  rw [Comp.wp_bind, onClient, Comp.wp_zoom]
  refine Comp.wp_mono (fetchPages_wp hoffers hv2 _ _ _ _ _ _ _ h.client)
    (fun events client hclient => ?_) fun e client he => ⟨⟨h.probed, he.1⟩, he.2⟩
  have hinv := @groupEvents_inv ctl site net { coord with client } ⟨h.probed, hclient⟩ events []
  have hgroup := Comp.wp_iff_run.mp (@groupEvents_wp net events [] { coord with client })
  exact Comp.wp_iff_run.mpr ⟨fun _ _ => hinv, fun e he => ⟨hinv, hgroup.2 e he⟩⟩

theorem fetchLegacy_wp (hoffers : Offers ctl site net) {coord : Coordinator}
    (h : TransportInv ctl site coord) :
    Comp.wp (fetchLegacy net site)
      (fun result s' => TransportInv ctl site s' ∧ (result = none →
        ∀ url ∈ alarmPaths ctl.base site, ctl.legacy url = false))
      (fun e s' => TransportInv ctl site s' ∧ e.isCannotConnect = false) coord := by
  unfold fetchLegacy
  rw [Comp.wp_handle, Comp.wp_bind, onClient, Comp.wp_zoom]
  refine Comp.wp_mono (categoriseAlarms_wp hoffers h.client)
    (fun result client hclient => ⟨⟨h.probed, hclient⟩, fun hr => nomatch hr⟩)
    fun e client he => ?_
  obtain ⟨hclient, herr⟩ := he
  rcases herr with hnot | ⟨⟨msg, rfl⟩, hall⟩
  · -- any other error is re-raised
    split
    · rename_i y hy
      split at hy
      · cases hnot
      · cases hy
    · exact ⟨⟨h.probed, hclient⟩, hnot⟩
  · exact ⟨⟨h.probed, hclient⟩, fun _ => hall⟩

/-- A poll of a controller with a working transport raises no connection error. -/
theorem fetchCategorised_wp (hoffers : Offers ctl site net) (htransport : ctl.HasTransport site)
    {coord : Coordinator} (h : TransportInv ctl site coord) :
    Comp.wp (fetchCategorised net site) (fun _ s' => TransportInv ctl site s')
      (fun e s' => TransportInv ctl site s' ∧ e.isCannotConnect = false) coord := by
  have hv2_of_missing : (∀ url ∈ alarmPaths ctl.base site, ctl.legacy url = false) →
      ctl.v2 = true := by
    intro hall
    rcases htransport with hv2 | ⟨url, hurl, hworks⟩
    · exact hv2
    · rw [hall url hurl] at hworks
      cases hworks
  unfold fetchCategorised
  rw [Comp.wp_bind, Comp.wp_handle]
  refine Comp.wp_mono (probeHasSystemLog_wp hoffers h) (fun hasV2 s hs => ?_) ?_
  rotate_left
  · rintro e s ⟨hs, rfl⟩
    exact ⟨hs, rfl⟩
  obtain ⟨hinv, htrue⟩ := hs
  rw [Comp.wp_bind, Comp.wp_gets]
  split
  · rw [Comp.wp_bind]
    refine Comp.wp_mono (fetchLegacy_wp hoffers hinv) (fun result s' hs' => ?_) fun _ _ he => he
    cases result with
    | some result => exact ⟨hs'.1.probed, hs'.1.client⟩
    | none => exact fetchV2_wp hoffers (hv2_of_missing (hs'.2 rfl)) hs'.1
  · rename_i hcond
    refine fetchV2_wp hoffers ?_ hinv
    -- v2 is there, or every legacy path was found missing
    cases hasV2 with
    | true => exact htrue rfl
    | false => exact hv2_of_missing (hinv.client.confirmed (by simpa using hcond))

end Coordinator

end

/-! ## A site confirmed without legacy paths -/

/-- No legacy request was sent, and the confirmations stand. -/
def Quiet (s s' : ClientState) : Prop :=
  Sends (fun r => ∀ url, r ≠ .get url) s s' ∧
    s'.legacyConfirmedUnavailable = s.legacyConfirmedUnavailable

namespace Quiet

theorem refl (s : ClientState) : Quiet s s := ⟨.refl s, rfl⟩

theorem trans (s s' s'' : ClientState) (h : Quiet s s') (h' : Quiet s' s'') : Quiet s s'' :=
  ⟨h.1.trans h'.1, h'.2.trans h.2⟩

theorem send {net : Net} {request : Request} (h : ∀ url, request ≠ .get url) :
    Comp.Within Quiet (send net request) :=
  fun s => ⟨Sends.send net h s, rfl⟩

end Quiet

theorem probeSystemLogEndpoint_quiet (net : Net) (site : String) :
    Comp.Within Quiet (probeSystemLogEndpoint net site) :=
  .bind Quiet.trans (Quiet.send fun _ h => nomatch h) fun _ => .lift Quiet.refl _

theorem fetchSystemLogAlarms_quiet (net : Net) (site : String) (since : Option Instant) :
    Comp.Within Quiet (fetchSystemLogAlarms net site since) :=
  fetchPages_within Quiet.refl Quiet.trans (fun _ => Quiet.send fun _ h => nomatch h)
    (fun _ => ⟨.refl _, rfl⟩) _ _ _

namespace Coordinator

/-- `Quiet` for the client that the coordinator holds. -/
def Quiet (s s' : Coordinator) : Prop := UnifiAlerts.Quiet s.client s'.client

theorem quiet_refl (s : Coordinator) : Quiet s s := .refl _

theorem quiet_trans (s s' s'' : Coordinator) (h : Quiet s s') (h' : Quiet s' s'') : Quiet s s'' :=
  UnifiAlerts.Quiet.trans _ _ _ h h'

theorem probeHasSystemLog_quiet (net : Net) (site : String) :
    Comp.Within Quiet (probeHasSystemLog net site) :=
  probeHasSystemLog_within UnifiAlerts.Quiet.refl UnifiAlerts.Quiet.trans
    (probeSystemLogEndpoint_quiet net site)

theorem fetchV2_quiet (net : Net) (site : String) : Comp.Within Quiet (fetchV2 net site) :=
  fetchV2_within quiet_refl quiet_trans
    (fun since => .zoom (fetchSystemLogAlarms_quiet net site since) fun _ _ h => h)
    (fun s _ => quiet_refl s) fun s _ => quiet_refl s

/-- A poll of a confirmed site goes to the v2 system log only. -/
theorem fetchCategorised_quiet (net : Net) (site : String) {coord : Coordinator}
    (hconfirmed : coord.client.legacyConfirmedUnavailable site = true) :
    Quiet coord (fetchCategorised net site coord).2 := by
  unfold fetchCategorised
  refine Comp.Within.bind_at quiet_trans (probeOrFalse_within quiet_refl quiet_trans
    (probeHasSystemLog_quiet net site) coord) fun hasV2 s hs => ?_
  -- the flag is read after the probe, which leaves it as it is
  have hflag : s.client.legacyConfirmedUnavailable site = true := by
    rw [hs.2]
    exact hconfirmed
  rw [Comp.gets_bind, hflag, if_neg (by simp)]
  exact fetchV2_quiet net site s

/-! ## Runs -/

/-- Everything but a fetch leaves the client and the probe cache alone. -/
theorem step_client {config : UniFiClientConfig} {coord : Coordinator} {t : TimedOp}
    (h : ∀ net, t.op ≠ .fetch net) :
    (step config coord t).client = coord.client ∧
      (step config coord t).hasSystemLog = coord.hasSystemLog := by
  obtain ⟨now, op⟩ := t
  cases op with
  | fetch net => exact absurd rfl (h net)
  | poll categorised =>
      simp only [step, turn]
      rw [applyPoll_frame]
      exact ⟨rfl, rfl⟩
  | push category alert =>
      simp only [step, turn, pushAlert]
      split
      · exact ⟨rfl, rfl⟩
      · exact ⟨rfl, rfl⟩
      · split <;> exact ⟨rfl, rfl⟩
      · exact ⟨rfl, rfl⟩
  | clearCategory category =>
      simp only [step, turn, clearCategory]
      split <;> exact ⟨rfl, rfl⟩
  | clearAll => exact ⟨rfl, rfl⟩
  | autoClear c =>
      simp only [step, turn, autoClear]
      split <;> exact ⟨rfl, rfl⟩

theorem transportInv_step {ctl : Controller} {config : UniFiClientConfig} {coord : Coordinator}
    {t : TimedOp} (htransport : ctl.HasTransport config.effectiveSite)
    (h : TransportInv ctl config.effectiveSite coord)
    (hoffers : ∀ net, t.op = .fetch net → Offers ctl config.effectiveSite net) :
    TransportInv ctl config.effectiveSite (step config coord t) := by
  by_cases hfetch : ∃ net, t.op = .fetch net
  · obtain ⟨net, hop⟩ := hfetch
    have hrun := Comp.wp_iff_run.mp (fetchCategorised_wp (hoffers net hop) htransport h)
    simp only [step, turn, hop]
    cases hres : (fetchCategorised net config.effectiveSite coord).1 with
    | ok result => exact hrun.1 result hres
    | error e => exact (hrun.2 e hres).1
  · obtain ⟨hclient, hprobe⟩ := @step_client config coord t fun net hop => hfetch ⟨net, hop⟩
    exact ⟨by rw [hprobe]; exact h.probed, by rw [hclient]; exact h.client⟩

theorem confirmed_step {config : UniFiClientConfig} {coord : Coordinator} (t : TimedOp)
    (h : coord.client.legacyConfirmedUnavailable config.effectiveSite = true) :
    (step config coord t).client.legacyConfirmedUnavailable config.effectiveSite = true := by
  by_cases hfetch : ∃ net, t.op = .fetch net
  · obtain ⟨net, hop⟩ := hfetch
    simp only [step, turn, hop]
    rw [(fetchCategorised_quiet net config.effectiveSite h).2]
    exact h
  · rw [(@step_client config coord t fun net hop => hfetch ⟨net, hop⟩).1]
    exact h

/-- No poll of the run ends in a connection error, whatever happened before it and
whichever way the controller answers it. -/
def PollsSucceed (config : UniFiClientConfig) (start : Coordinator) (ts : List TimedOp) : Prop :=
  ∀ pre now net post, ts = pre ++ ⟨now, .fetch net⟩ :: post →
    ∀ e, (fetchCategorised net config.effectiveSite (run (step config) start pre)).1 = .error e →
      e.isCannotConnect = false

/-- After a state in which the client has the site confirmed, no poll of the
run requests a legacy path. -/
def LeavesLegacyAlone (config : UniFiClientConfig) (start : Coordinator) (ts : List TimedOp) :
    Prop :=
  ∀ confirmed later now net post, ts = confirmed ++ later ++ ⟨now, .fetch net⟩ :: post →
    (run (step config) start confirmed).client.legacyConfirmedUnavailable
      config.effectiveSite = true →
    let coord := run (step config) start (confirmed ++ later)
    Sends (fun r => ∀ url, r ≠ .get url) coord.client
      (fetchCategorised net config.effectiveSite coord).2.client

theorem leavesLegacyAlone (config : UniFiClientConfig) (start : Coordinator)
    (ts : List TimedOp) : LeavesLegacyAlone config start ts := by
  intro confirmed later now net post _ hconfirmed
  have hstill := @run_preserves _ _ _ (fun s : Coordinator =>
    s.client.legacyConfirmedUnavailable config.effectiveSite = true)
    (fun s t hs => confirmed_step t hs) _ hconfirmed later
  rw [run_append]
  exact (fetchCategorised_quiet net config.effectiveSite hstill).1

end Coordinator

/-- Over every interleaving of polls, each seeing the controller in its own
way and at its own time, with whatever else happens to the coordinator: as
long as some transport works, no poll fails to connect, and a site once
confirmed without legacy paths is never asked for one again. -/
theorem polls_succeed_while_transport_exists (config : UniFiClientConfig) (ctl : Controller)
    (htransport : ctl.HasTransport config.effectiveSite) (states : Category → CategoryState)
    (ts : List TimedOp)
    (hoffers : ∀ t ∈ ts, ∀ net, t.op = .fetch net → Offers ctl config.effectiveSite net) :
    Coordinator.PollsSucceed config { Coordinator.fresh config with states } ts ∧
      Coordinator.LeavesLegacyAlone config { Coordinator.fresh config with states } ts := by
  refine ⟨fun pre now net post hts e he => ?_, Coordinator.leavesLegacyAlone config _ ts⟩
  have hstart := Coordinator.transportInv_fresh ctl config.effectiveSite config
  have hpre : Coordinator.TransportInv ctl config.effectiveSite
      (run (Coordinator.step config) { Coordinator.fresh config with states } pre) :=
    run_preserves_labels (P := fun t : TimedOp => ∀ net, t.op = .fetch net →
        Offers ctl config.effectiveSite net)
      (fun s t hs ht => Coordinator.transportInv_step htransport hs ht)
      (by exact ⟨hstart.probed, hstart.client⟩) fun t ht => hoffers t (by simp [hts, ht])
  have hnet := hoffers ⟨now, .fetch net⟩ (by simp [hts]) net rfl
  exact ((Comp.wp_iff_run.mp
    (Coordinator.fetchCategorised_wp hnet htransport hpre)).2 e he).2

/-- A controller with the v2 system log only. -/
def v2Only : Controller := { base := "https://unifi", v2 := true, legacy := fun _ => false }

/-- Its answers while the probe fails: a transient 500. -/
def v2OnlyNet (now : Instant) : Net where
  text := Text.counting fun _ => none
  base := "https://unifi"
  now := now
  respond _ request := match request with
    | .get _ => .response { status := 404, content := .empty }
    | .probe _ => .response { status := 500, content := .empty }
    | .page _ _ _ _ _ => .response { status := 200, content := .value (.obj [("data", .arr [])]) }

theorem v2Only_offers (site : String) (now : Instant) : Offers v2Only site (v2OnlyNet now) where
  base := rfl
  works _ _ _ h := nomatch h
  missing _ _ _ _ := ⟨_, rfl, Or.inl rfl⟩
  pages _ _ _ _ _ _ _ := ⟨_, _, rfl, by decide, by decide, rfl, rfl⟩
  definitive _ _ r h := by
    obtain rfl := HttpResult.response.inj h
    exact ⟨fun h => absurd h (by decide), fun h => absurd h (by decide)⟩

/-- The legacy paths are found missing at the first poll; the second one,
whose probe fails as well, goes straight to the system log. -/
theorem polls_succeed_while_transport_exists_v2_only :
    let ts : List TimedOp := [⟨⟨0, 0⟩, .fetch (v2OnlyNet 0)⟩, ⟨⟨60, 60⟩, .fetch (v2OnlyNet 60)⟩]
    Coordinator.PollsSucceed {} (.fresh {}) ts ∧ Coordinator.LeavesLegacyAlone {} (.fresh {}) ts :=
  polls_succeed_while_transport_exists {} v2Only (Or.inl rfl) (Coordinator.fresh {}).states _ <| by
    intro t ht net hop
    simp only [List.mem_cons, List.not_mem_nil, or_false] at ht
    rcases ht with rfl | rfl
    · obtain rfl := Op.fetch.inj hop
      exact v2Only_offers _ _
    · obtain rfl := Op.fetch.inj hop
      exact v2Only_offers _ _

end UnifiAlerts
