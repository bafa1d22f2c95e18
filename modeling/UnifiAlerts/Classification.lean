import UnifiAlerts.Answers
import UnifiAlerts.Requests

/-!
# Classifying transport failures

What may happen to a request is a set of answers for each endpoint
(`ends`), and the controller may answer every request with any of them.
`Classified ends` is the contract of the request functions against every
such controller: only domain exceptions leave the three fetching
functions, the probe raises nothing, a probe that ends in neither 200
nor 404 is one failure toward the backoff and the poll goes on to a
legacy path, and a key check that gets no answer is `ConfigEntryNotReady`
at setup.

The contract holds exactly when every possible answer is `Readable`. A
poll of a site whose legacy paths the client knows to be gone goes to
the system log instead, so the legacy request is asked of the others.
-/

namespace UnifiAlerts

open Py Lib

/-! ## The functions on a network -/

section

variable {net : Net} {s : ClientState}

theorem verifyApiKey_domain_iff {apiKey : String} (hkey : apiKey ≠ "") :
    Domain (verifyApiKey net apiKey s).1 ↔
      Endpoint.self.Readable (net.respond s.requests.length (.get (selfEndpoint net.base))) := by
  have hrun : (verifyApiKey net apiKey s).1 = (readSelf net.text (net.respond s.requests.length
      (.get (selfEndpoint net.base)))).mapError Error.ofAuthError := by
    unfold verifyApiKey
    rw [if_neg (by simpa using hkey)]
    rfl
  rw [hrun, domain_ofAuthError, readSelf_caught_iff]

theorem tryFetchAlarms_domain_iff {url site : String} :
    Domain (tryFetchAlarms net url site s).1 ↔
      Endpoint.legacy.Readable (net.respond s.requests.length (.get url)) := by
  have hrun : (tryFetchAlarms net url site s).1 = (readAlarms net.text site
      (net.respond s.requests.length (.get url))).mapError Error.ofClientError := rfl
  rw [hrun, domain_ofClientError, readAlarms_caught_iff]

/-- When every page is readable, the page loop raises domain exceptions only. -/
theorem fetchPages_domain {url : String} {timestampFrom timestampTo : Int}
    (h : ∀ n pageNumber, Endpoint.systemLog.Readable
      (net.respond n (.page url timestampFrom timestampTo pageNumber systemLogPageSize))) :
    ∀ (fuel pageNumber : Nat) (results : List JsonObj) (s : ClientState),
      Domain
        (fetchPages net url timestampFrom timestampTo fuel pageNumber results s).1
  | 0, _, _, _ => onlyRaises_ok _
  | fuel + 1, pageNumber, results, s => by
      have hpage := (@readPage_domain_iff pageNumber _).mpr (h s.requests.length pageNumber)
      rw [fetchPages_succ]
      split
      · rename_i e he
        exact onlyRaises_error.mpr (hpage e he)
      · split
        · exact onlyRaises_ok _
        · exact fetchPages_domain h fuel (pageNumber + 1) _ _

/-- One unreadable page is enough for another exception to leave the loop. -/
theorem fetchPages_not_domain {url : String} {timestampFrom timestampTo : Int}
    {fuel pageNumber : Nat} {results : List JsonObj}
    (h : ¬Endpoint.systemLog.Readable (net.respond s.requests.length
      (.page url timestampFrom timestampTo pageNumber systemLogPageSize))) :
    ¬Domain
      (fetchPages net url timestampFrom timestampTo (fuel + 1) pageNumber results s).1 := by
  rw [← @readPage_domain_iff pageNumber] at h
  rw [fetchPages_succ]
  split
  · rename_i e he
    intro hdomain
    have hdom : e.isDomain = true := hdomain e rfl
    rw [he] at h
    exact h (onlyRaises_error.mpr hdom)
  · rename_i hok
    rw [hok] at h
    exact absurd (onlyRaises_ok _) h

end

/-! ## The probe -/

def systemLogCountUrl (base site : String) : String :=
  base ++ unifiOsNetworkPrefix ++ "/v2/api/site/" ++ site ++ "/system-log/count"

def systemLogAllUrl (base site : String) : String :=
  base ++ unifiOsNetworkPrefix ++ "/v2/api/site/" ++ site ++ "/system-log/all"

/-- An outcome that is neither of the two definitive ones. -/
def Transient : HttpResult → Prop
  | .response r => r.status ≠ 200 ∧ r.status ≠ 404
  | _ => True

/-- No answer came back. -/
def Unanswered : HttpResult → Prop
  | .response _ => False
  | _ => True

theorem readProbe_transient {result : HttpResult} (hread : Endpoint.probe.Readable result)
    (h : Transient result) : readProbe result = .ok none := by
  cases result with
  | response r => simp [readProbe, h.1, h.2]
  | timeout => exact hread.elim
  | _ => rfl

theorem readProbe_ok {result : HttpResult} (hread : Endpoint.probe.Readable result) :
    ∃ answer, readProbe result = .ok answer ∧ (answer = none ↔ Transient result) := by
  cases result with
  | timeout => exact hread.elim
  | response r =>
      unfold readProbe Transient
      dsimp only
      split
      · rename_i h200
        exact ⟨_, rfl, by simp [h200]⟩
      · rename_i h200
        split
        · rename_i h404
          exact ⟨_, rfl, by simp [h404]⟩
        · rename_i h404
          exact ⟨_, rfl, by simp [h200, h404]⟩
  | _ => exact ⟨none, rfl, by simp [Transient]⟩

namespace Coordinator

/-- The failures counted so far when the next poll probes; `none` when it does not. -/
def probeDue (coord : Coordinator) (now : Instant) : Option Nat :=
  match coord.hasSystemLog, coord.probeBackoffUntil with
  | none, _ => some coord.probeFailCount
  | some false, some backoffUntil => if backoffUntil ≤ now then some 0 else none
  | some _, _ => none

/-- One failed probe adds one failure to the count. -/
theorem probeOnce_transient {net : Net} {site : String} {coord : Coordinator}
    (h : readProbe (net.respond coord.client.requests.length
      (.probe (systemLogCountUrl net.base site))) = .ok none) :
    ∃ coord', probeOnce net site coord = (.ok false, coord') ∧
      coord'.probeFailCount = coord.probeFailCount + 1 ∧
      coord'.client = { coord.client with
        requests := coord.client.requests ++ [.probe (systemLogCountUrl net.base site)] } := by
  have hprobe : onClient (probeSystemLogEndpoint net site) coord = (.ok none, { coord with
      client := { coord.client with
        requests := coord.client.requests ++ [.probe (systemLogCountUrl net.base site)] } }) := by
    have hrun : probeSystemLogEndpoint net site coord.client = (.ok none, { coord.client with
        requests := coord.client.requests ++ [.probe (systemLogCountUrl net.base site)] }) :=
      congrArg (·, _) h
    unfold onClient Comp.zoom
    rw [hrun]
  unfold probeOnce
  rw [Comp.bind_run hprobe]
  dsimp only
  rw [Comp.update_bind, Comp.gets_bind]
  split
  · exact ⟨_, rfl, rfl, rfl⟩
  · exact ⟨_, rfl, rfl, rfl⟩

theorem probeHasSystemLog_transient {net : Net} {site : String} {coord : Coordinator} {count : Nat}
    (hdue : coord.probeDue net.now = some count)
    (h : readProbe (net.respond coord.client.requests.length
      (.probe (systemLogCountUrl net.base site))) = .ok none) :
    ∃ coord', probeHasSystemLog net site coord = (.ok false, coord') ∧
      coord'.probeFailCount = count + 1 ∧
      coord'.client = { coord.client with
        requests := coord.client.requests ++ [.probe (systemLogCountUrl net.base site)] } := by
  unfold probeHasSystemLog
  rw [Comp.gets_bind, Comp.gets_bind]
  unfold probeDue at hdue
  split at hdue
  · rename_i hnone
    obtain rfl := Option.some.inj hdue
    rw [hnone]
    exact probeOnce_transient h
  · rename_i backoffUntil hfalse hback
    rw [hfalse, hback]
    dsimp only
    split at hdue
    · rename_i hpast
      obtain rfl := Option.some.inj hdue
      rw [if_pos hpast, Comp.update_bind]
      exact @probeOnce_transient net site { coord with
        hasSystemLog := none, probeFailCount := 0, probeBackoffUntil := none } h
    · cases hdue
  · cases hdue

/-! ## After the probe -/

/-- The client goes on sending and the count of failures stands. -/
def Proceeds (s s' : Coordinator) : Prop :=
  Grows s.client s'.client ∧ s'.probeFailCount = s.probeFailCount

namespace Proceeds

theorem refl (s : Coordinator) : Proceeds s s := ⟨.refl _, rfl⟩

theorem trans (s s' s'' : Coordinator) (h : Proceeds s s') (h' : Proceeds s' s'') :
    Proceeds s s'' := ⟨.trans _ _ _ h.1 h'.1, h'.2.trans h.2⟩

theorem onClient {α : Type} {x : ClientM α} (h : Comp.Within Grows x) :
    Comp.Within Proceeds (onClient x) := .zoom h fun _ _ h => ⟨h, rfl⟩

end Proceeds

theorem fetchV2_proceeds (net : Net) (site : String) : Comp.Within Proceeds (fetchV2 net site) := by
  refine .bind Proceeds.trans (.gets Proceeds.refl _) fun states =>
    .bind Proceeds.trans (.lift Proceeds.refl _) fun since =>
    .bind Proceeds.trans (.onClient (fetchSystemLogAlarms_grows net site since)) fun events s => ?_
  have hkept := groupEvents_keeps (f := fun s : Coordinator => (s.client, s.probeFailCount))
    (fun _ _ => rfl) (fun _ _ => rfl) net events [] s
  have hclient := congrArg Prod.fst hkept
  have hcount := congrArg Prod.snd hkept
  dsimp only at hclient hcount
  exact ⟨by rw [hclient]; exact .refl _, hcount⟩

/-- A legacy fetch asks a path, whatever becomes of the answer. -/
def AsksLegacy (s s' : Coordinator) : Prop :=
  Asks s.client s'.client ∧ s'.probeFailCount = s.probeFailCount

theorem AsksLegacy.proceeds {s s' s'' : Coordinator} (h : AsksLegacy s s') (h' : Proceeds s' s'') :
    AsksLegacy s s'' := ⟨h.1.grows h'.1, h'.2.trans h.2⟩

theorem fetchLegacy_asks (net : Net) (site : String) (s : Coordinator) :
    AsksLegacy s (fetchLegacy net site s).2 := by
  have hasks : AsksLegacy s (onClient (categoriseAlarms net site) s).2 :=
    ⟨categoriseAlarms_asks net site s.client, rfl⟩
  refine Comp.Within.handle_from (fun _ _ => AsksLegacy.proceeds)
    (Comp.Within.bind_from (fun _ _ => AsksLegacy.proceeds) hasks fun result s' _ => .refl s')
    fun e y s' hy _ => ?_
  split at hy
  · obtain rfl := Option.some.inj hy
    exact .refl s'
  · cases hy

/-- A poll whose probe fails counts the failure and asks a legacy path. -/
theorem fetchCategorised_transient {net : Net} {site : String} {coord : Coordinator} {count : Nat}
    (hdue : coord.probeDue net.now = some count)
    (h : readProbe (net.respond coord.client.requests.length
      (.probe (systemLogCountUrl net.base site))) = .ok none)
    (hconfirmed : coord.client.legacyConfirmedUnavailable site = false) :
    let after := (fetchCategorised net site coord).2
    after.probeFailCount = count + 1 ∧
      ∃ url, coord.client.requests ++ [.probe (systemLogCountUrl net.base site), .get url] <+:
        after.client.requests := by
  obtain ⟨coord', hrun, hcount, hclient⟩ := probeHasSystemLog_transient hdue h
  have hhandled : ∀ handler, Comp.handle (probeHasSystemLog net site) handler coord =
      (.ok false, coord') := by
    intro handler
    unfold Comp.handle
    rw [hrun]
  intro after
  have hafter : AsksLegacy coord' after := by
    show AsksLegacy coord' (fetchCategorised net site coord).2
    unfold fetchCategorised
    rw [Comp.bind_run (hhandled _), Comp.gets_bind, hclient]
    dsimp only
    rw [hconfirmed, if_pos (by rfl)]
    refine Comp.Within.bind_from (fun _ _ => AsksLegacy.proceeds) (fetchLegacy_asks net site coord')
      fun result s' _ => ?_
    cases result with
    | none => exact fetchV2_proceeds net site s'
    | some result => exact ⟨.refl _, rfl⟩
  obtain ⟨⟨url, hprefix⟩, hkept⟩ := hafter
  refine ⟨hkept.trans hcount, url, ?_⟩
  rw [hclient] at hprefix
  simpa using hprefix

end Coordinator

/-! ## The contract -/

/-- The contract of the request functions when requests may end as `ends` says. -/
structure Classified (ends : Endpoint → HttpResult → Prop) : Prop where
  verify : ∀ (net : Net) (apiKey : String) (s : ClientState),
    (∀ n, ends .self (net.respond n (.get (selfEndpoint net.base)))) →
      Domain (verifyApiKey net apiKey s).1
  legacy : ∀ (net : Net) (url site : String) (s : ClientState),
    (∀ n, ends .legacy (net.respond n (.get url))) → Domain (tryFetchAlarms net url site s).1
  systemLog : ∀ (net : Net) (site : String) (since : Option Instant) (s : ClientState),
    (∀ n timestampFrom timestampTo pageNumber pageSize, ends .systemLog (net.respond n
      (.page (systemLogAllUrl net.base site) timestampFrom timestampTo pageNumber pageSize))) →
      Domain (fetchSystemLogAlarms net site since s).1
  probe : ∀ (net : Net) (site : String) (s : ClientState),
    let request := Request.probe (systemLogCountUrl net.base site)
    (∀ n, ends .probe (net.respond n request)) →
      ∃ answer, (probeSystemLogEndpoint net site s).1 = .ok answer ∧
        (answer = none ↔ Transient (net.respond s.requests.length request))
  /-- A transient probe is one failure, and the poll goes on to a legacy path. -/
  poll : ∀ (net : Net) (site : String) (coord : Coordinator) (count : Nat),
    let request := Request.probe (systemLogCountUrl net.base site)
    (∀ n, ends .probe (net.respond n request)) → coord.probeDue net.now = some count →
      Transient (net.respond coord.client.requests.length request) →
      coord.client.legacyConfirmedUnavailable site = false →
      let after := (Coordinator.fetchCategorised net site coord).2
      after.probeFailCount = count + 1 ∧
        ∃ url, coord.client.requests ++ [request, .get url] <+: after.client.requests
  /-- Setup ends in one of its two exceptions, the second when nothing answered. -/
  setup : ∀ (net : Net) (apiKey : String), apiKey ≠ "" →
    (∀ n, ends .self (net.respond n (.get (selfEndpoint net.base)))) →
      (∀ e, setupAuthenticate net apiKey ≠ .error (.escaped e)) ∧
        (Unanswered (net.respond 0 (.get (selfEndpoint net.base))) →
          ∃ error, setupAuthenticate net apiKey = .error (.notReady error))

theorem verifyApiKey_domain {net : Net} {s : ClientState}
    (h : ∀ n, Endpoint.self.Readable (net.respond n (.get (selfEndpoint net.base))))
    (apiKey : String) : Domain (verifyApiKey net apiKey s).1 := by
  by_cases hkey : apiKey = ""
  · subst hkey
    exact onlyRaises_error.mpr rfl
  · exact (verifyApiKey_domain_iff hkey).mpr (h _)

theorem setupAuthenticate_classified {net : Net} {apiKey : String} (hkey : apiKey ≠ "")
    (h : ∀ n, Endpoint.self.Readable (net.respond n (.get (selfEndpoint net.base)))) :
    (∀ e, setupAuthenticate net apiKey ≠ .error (.escaped e)) ∧
      (Unanswered (net.respond 0 (.get (selfEndpoint net.base))) →
        ∃ error, setupAuthenticate net apiKey = .error (.notReady error)) := by
  constructor
  · intro e hesc
    have hdomain := @verifyApiKey_domain net {} h apiKey
    unfold setupAuthenticate authenticate at hesc
    cases hx : (verifyApiKey net apiKey {}).1 with
    | ok u => rw [hx] at hesc; cases hesc
    | error e' =>
        rw [hx] at hesc
        exact SetupError.ofError_domain (hdomain e' hx) e (Except.error.inj hesc)
  · intro hnone
    have hread := h 0
    have hrun : (verifyApiKey net apiKey {}).1 = (readSelf net.text
        (net.respond 0 (.get (selfEndpoint net.base)))).mapError Error.ofAuthError := by
      unfold verifyApiKey
      rw [if_neg (by simpa using hkey)]
      rfl
    unfold setupAuthenticate authenticate
    rw [hrun]
    cases hr : net.respond 0 (.get (selfEndpoint net.base)) with
    | response r => rw [hr] at hnone; exact hnone.elim
    | timeout => rw [hr] at hread; exact hread.elim
    | _ => exact ⟨_, rfl⟩

theorem classified_of_readable {ends : Endpoint → HttpResult → Prop}
    (h : ∀ endpoint result, ends endpoint result → endpoint.Readable result) :
    Classified ends where
  verify _ apiKey _ hends := verifyApiKey_domain (fun n => h _ _ (hends n)) apiKey
  legacy _ _ _ _ hends := tryFetchAlarms_domain_iff.mpr (h _ _ (hends _))
  systemLog _ _ _ _ hends :=
    fetchPages_domain (fun n pageNumber => h _ _ (hends n _ _ pageNumber _)) _ _ _ _
  probe _ _ s hends := readProbe_ok (h _ _ (hends s.requests.length))
  poll _ _ coord _ hends hdue htransient hconfirmed :=
    Coordinator.fetchCategorised_transient hdue
      (readProbe_transient (h _ _ (hends coord.client.requests.length)) htransient) hconfirmed
  setup _ _ hkey hends := setupAuthenticate_classified hkey fun n => h _ _ (hends n)

/-- A controller that answers every request alike. -/
def constantNet (result : HttpResult) : Net where
  text := Text.counting fun _ => none
  base := "https://unifi"
  now := 0
  respond _ _ := result

theorem readable_of_classified {ends : Endpoint → HttpResult → Prop} (h : Classified ends)
    (endpoint : Endpoint) (result : HttpResult) (hends : ends endpoint result) :
    endpoint.Readable result := by
  cases endpoint with
  | self =>
      exact (@verifyApiKey_domain_iff _ _ "key" (by decide)).mp
        (h.verify (constantNet result) "key" {} fun _ => hends)
  | legacy =>
      exact tryFetchAlarms_domain_iff.mp (h.legacy (constantNet result) "" "" {} fun _ => hends)
  | systemLog =>
      by_contra hread
      exact fetchPages_not_domain hread
        (h.systemLog (constantNet result) "" none {} fun _ _ _ _ _ => hends)
  | probe =>
      cases result with
      | timeout =>
          obtain ⟨answer, hok, -⟩ := h.probe (constantNet .timeout) "" {} fun _ => hends
          cases hok
      | _ => trivial

/-- Whatever the ways are in which requests may end, transport failures are
classified exactly when each of them is readable: no timeout, and no body of a
shape that the function asking does not expect. -/
theorem transport_failures_classified_iff (ends : Endpoint → HttpResult → Prop) :
    Classified ends ↔ ∀ endpoint result, ends endpoint result → endpoint.Readable result :=
  ⟨readable_of_classified, classified_of_readable⟩

/-- A request that runs into its timeout: the exception leaves all four functions,
the poll counts no failure and asks no legacy path, and setup lets it through. -/
theorem timeout_not_classified :
    let net := constantNet .timeout
    let poll := Coordinator.fetchCategorised net "default" (.fresh {})
    (verifyApiKey net "key" {}).1 = .error .timeout ∧
      (tryFetchAlarms net "https://unifi/alarm" "default" {}).1 = .error .timeout ∧
      (fetchSystemLogAlarms net "default" none {}).1 = .error .timeout ∧
      (probeSystemLogEndpoint net "default" {}).1 = .error .timeout ∧
      (poll.1 = .error .timeout ∧ poll.2.probeFailCount = 0 ∧
        poll.2.client.requests = [.probe (systemLogCountUrl "https://unifi" "default")]) ∧
      setupAuthenticate net "key" = .error (.escaped .timeout) ∧
      ¬Classified fun _ result => result = .timeout :=
  ⟨rfl, rfl, rfl, rfl, ⟨rfl, rfl, rfl⟩, rfl, fun h =>
    readable_of_classified h .self .timeout rfl⟩

end UnifiAlerts
