import UnifiAlerts.Answers
import UnifiAlerts.Requests

/-!
# A rejected key, at setup and while polling

`_verify_api_key` takes 401 and 403 for a rejected key. The two fetch
paths have their own ladders, and the contract is that they agree with
it: a poll that meets such an answer ends in `ConfigEntryAuthFailed`,
except that 401 with `api.err.NoSiteContext` is a missing site on either
path.

The poll level is a property of a whole poll (`Halts`): once a request
for alarms was given the answer, the poll has ended, and has ended in a
rejection, since no handler on the way takes an `InvalidAuthError`.

`Halts` goes through the functions from below: an answer that rejects
the key ends the request function in an error that carries the
rejection, and each caller passes that on, because its handlers take
other exceptions (`fetchPages_halts`, `fetchAlarms_halts`). The
differences that are left are then in the ladders themselves: which
status, and which body, each of them takes for a rejection.
-/

namespace UnifiAlerts

open Py Lib

/-! ## The contract -/

/-- The body names the missing site. -/
def CarriesNoSite (text : Text) (r : Response) : Prop :=
  ∃ o m : JsonObj, r.content = .value (.obj o) ∧ o.getD "meta" (.obj []) = .obj m ∧
    text.str (m.getD "msg" (.str "")) = "api.err.NoSiteContext"

/-- The one answer that is not about the key. -/
def IsNoSite (text : Text) (r : Response) : Prop := r.status = 401 ∧ CarriesNoSite text r

/-- The error of a fetch that was given `r`: the missing site if the answer names it, and
a rejected key for any other. -/
structure Rejects {α : Type} (text : Text) (r : Response) (x : Except Error α) : Prop where
  site : IsNoSite text r → ∃ msg, x = .error (.cannotConnect .invalidSite msg)
  key : ¬IsNoSite text r → ∃ msg, x = .error (.invalidAuth msg)

/-- A request for alarms sent on the way from `s` to `s'` was answered by `r`. -/
def Meets (net : Net) (r : Response) (s s' : ClientState) : Prop :=
  ∃ i request, s.requests.length ≤ i ∧ s'.requests[i]? = some request ∧
    (∀ url, request ≠ .probe url) ∧ net.respond i request = .response r

/-- The statuses that `_verify_api_key` takes for a rejected key. -/
def KeyRejected (r : Response) : Prop := r.status = 401 ∨ r.status = 403

/-- The fetch paths and the poll treat the answer as setup does: each of the three request
functions ends in the error of the answer, and a poll that meets it ends in a failed
authentication. -/
structure RejectedAlike (text : Text) (r : Response) : Prop where
  setup : ∀ net : Net, net.text = text → ∀ apiKey (s : ClientState), apiKey ≠ "" →
    net.respond s.requests.length (.get (selfEndpoint net.base)) = .response r →
    (verifyApiKey net apiKey s).1 = .error (.invalidAuth "Invalid API key")
  legacy : ∀ net : Net, net.text = text → ∀ url site (s : ClientState),
    net.respond s.requests.length (.get url) = .response r →
    Rejects text r (tryFetchAlarms net url site s).1
  systemLog : ∀ net : Net, net.text = text →
    ∀ url timestampFrom timestampTo fuel pageNumber results (s : ClientState),
    net.respond s.requests.length
      (.page url timestampFrom timestampTo pageNumber systemLogPageSize) = .response r →
    Rejects text r
      (fetchPages net url timestampFrom timestampTo (fuel + 1) pageNumber results s).1
  /-- Whatever the poll did before the answer came. -/
  poll : ∀ net : Net, net.text = text → ∀ site coord,
    Meets net r coord.client (Coordinator.updateFetch net site coord).2.client →
    ¬IsNoSite text r →
    ∃ error, (Coordinator.updateFetch net site coord).1 = .error (.authFailed error)

/-- An error body that is read without an exception: no JSON, or an object whose
`meta`, if it has one, is an object. -/
def Content.Legible : Content → Prop
  | .undecodable => True
  | .malformed => True
  | .value v => HasMeta v
  | _ => False

/-! ## A rejection ends the poll -/

section

variable {σ α β : Type} {client : σ → ClientState} {net : Net} {r : Response}

theorem not_meets_of_quiet {s s' : ClientState} (h : s'.requests = s.requests) :
    ¬Meets net r s s' := by
  rintro ⟨i, request, hle, hget, -⟩
  rw [h] at hget
  have hlt := (List.getElem?_eq_some_iff.mp hget).1
  omega

/-- What was met on the way was met before or after any point of it. -/
theorem Meets.split {s s' s'' : ClientState} (h : Meets net r s s'') (hgrow : Grows s' s'') :
    Meets net r s s' ∨ Meets net r s' s'' := by
  obtain ⟨i, request, hle, hget, hreq, hans⟩ := h
  by_cases hi : i < s'.requests.length
  · refine Or.inl ⟨i, request, hle, ?_, hreq, hans⟩
    obtain ⟨sent, hsent⟩ := hgrow
    rw [← hsent, List.getElem?_append_left hi] at hget
    exact hget
  · exact Or.inr ⟨i, request, not_lt.mp hi, hget, hreq, hans⟩

/-- Nothing but probes was sent. -/
def Probes (s s' : ClientState) : Prop := Sends (fun request => ∃ url, request = .probe url) s s'

theorem probeSystemLogEndpoint_probes (net : Net) (site : String) :
    Comp.Within Probes (probeSystemLogEndpoint net site) :=
  .bind (R := Probes) (fun _ _ _ => Sends.trans) (Sends.send net ⟨_, rfl⟩) fun _ =>
    .lift Sends.refl _

/-- A computation that is over, with a rejected key, once it has met the answer. -/
structure Halts (client : σ → ClientState) (net : Net) (r : Response) (x : Comp Error σ α) :
    Prop where
  grows : ∀ s, Grows (client s) (client (x s).2)
  ends : ∀ s, Meets net r (client s) (client (x s).2) → ∃ msg, (x s).1 = .error (.invalidAuth msg)

namespace Halts

theorem of_quiet {x : Comp Error σ α} (h : ∀ s, (client (x s).2).requests = (client s).requests) :
    Halts client net r x where
  grows s := .of_quiet (h s)
  ends s hmeets := absurd hmeets (not_meets_of_quiet (h s))

theorem bind {x : Comp Error σ β} {k : β → Comp Error σ α} (hx : Halts client net r x)
    (hk : ∀ b, Halts client net r (k b)) : Halts client net r (x >>= k) where
  grows := Comp.Within.bind (R := fun s s' => Grows (client s) (client s'))
    (fun _ _ _ h h' => .trans _ _ _ h h') hx.grows fun b => (hk b).grows
  ends s hmeets := by
    have hends := hx.ends s
    rcases hxs : x s with ⟨res, s'⟩
    rw [hxs] at hends
    cases res with
    | error e =>
        have hrun : (x >>= k) s = (.error e, s') := by
          show Comp.bind x k s = _
          unfold Comp.bind
          rw [hxs]
        rw [hrun] at hmeets ⊢
        obtain ⟨msg, hmsg⟩ := hends hmeets
        exact ⟨msg, congrArg Except.error (Except.error.inj hmsg)⟩
    | ok b =>
        rw [Comp.bind_run hxs] at hmeets ⊢
        rcases hmeets.split ((hk b).grows s') with hbefore | hafter
        · obtain ⟨msg, hmsg⟩ := hends hbefore
          cases hmsg
        · exact (hk b).ends s' hafter

/-- A handler that leaves rejections alone. -/
theorem handle {x : Comp Error σ α} {h : Error → Option (Comp Error σ α)}
    (hx : Halts client net r x) (hauth : ∀ msg, h (.invalidAuth msg) = none)
    (hh : ∀ e y, h e = some y → Halts client net r y) : Halts client net r (Comp.handle x h) where
  grows := Comp.Within.handle (R := fun s s' => Grows (client s) (client s'))
    (fun _ _ _ h h' => .trans _ _ _ h h') hx.grows fun e y hy => (hh e y hy).grows
  ends s hmeets := by
    have hends := hx.ends s
    unfold Comp.handle at hmeets ⊢
    rcases hxs : x s with ⟨res, s'⟩
    rw [hxs] at hmeets hends
    cases res with
    | ok a => exact hends hmeets
    | error e =>
        dsimp only at hmeets hends ⊢
        cases hhe : h e with
        | none =>
            rw [hhe] at hmeets
            exact hends hmeets
        | some y =>
            rw [hhe] at hmeets
            rcases hmeets.split ((hh e y hhe).grows s') with hbefore | hafter
            · obtain ⟨msg, hmsg⟩ := hends hbefore
              rw [Except.error.inj hmsg, hauth] at hhe
              cases hhe
            · exact (hh e y hhe).ends s' hafter

/-- Probes are no requests for alarms. -/
theorem of_probes {x : Comp Error σ α}
    (h : ∀ s, Probes (client s) (client (x s).2)) :
    Halts client net r x where
  grows s := by
    obtain ⟨sent, hsent, -⟩ := h s
    exact ⟨sent, hsent.symm⟩
  ends s hmeets := by
    obtain ⟨sent, hsent, hprobes⟩ := h s
    obtain ⟨i, request, hle, hget, hreq, -⟩ := hmeets
    rw [hsent, List.getElem?_append_right hle] at hget
    obtain ⟨url, rfl⟩ := hprobes request (List.mem_of_getElem? hget)
    exact absurd rfl (hreq url)

theorem onClient {x : ClientM α} (h : Halts id net r x) :
    Halts Coordinator.client net r (Coordinator.onClient x) where
  grows s := h.grows s.client
  ends s hmeets := h.ends s.client hmeets

end Halts

end

/-! ### The client -/

section

variable {net : Net} {r : Response} {site : String}

theorem meets_send {s : ClientState} {request : Request}
    (h : Meets net r s { s with requests := s.requests ++ [request] }) :
    net.respond s.requests.length request = .response r := by
  obtain ⟨i, request', hle, hget, -, hans⟩ := h
  obtain ⟨hlt, hget⟩ := List.getElem?_eq_some_iff.mp hget
  simp only [List.length_append, List.length_singleton] at hlt
  obtain rfl : i = s.requests.length := by omega
  obtain rfl : request = request' := by simpa using hget
  exact hans

theorem parseUnifiErrorMsg_legible {text : Text} (h : r.content.Legible) :
    ∃ msg, parseUnifiErrorMsg text r = .ok msg ∧
      (msg = "api.err.NoSiteContext" → CarriesNoSite text r) := by
  unfold parseUnifiErrorMsg Response.json
  cases hc : r.content with
  | value v =>
      rw [hc] at h
      obtain ⟨o, m, rfl, hm⟩ := h
      refine ⟨text.str (m.getD "msg" (.str "")), ?_, fun hmsg => ⟨o, m, hc, hm, hmsg⟩⟩
      simp [metaField, Json.asDict, hm, ofPy, Except.mapError, bind, Except.bind, pure, Except.pure]
  | undecodable => exact ⟨"", rfl, fun hmsg => absurd hmsg (by decide)⟩
  | malformed => exact ⟨"", rfl, fun hmsg => absurd hmsg (by decide)⟩
  | _ => rw [hc] at h; exact h.elim

/-- The rejection of a legacy path. -/
theorem readAlarms_rejected {text : Text} (h401 : r.status = 401)
    (hsite : ¬CarriesNoSite text r) (hlegible : r.content.Legible) :
    readAlarms text site (.response r) = .error (.invalidAuth "API key rejected (HTTP 401)") := by
  obtain ⟨msg, hmsg, hno⟩ := @parseUnifiErrorMsg_legible r text hlegible
  have hne : (msg == "api.err.NoSiteContext") = false := by
    simpa using fun heq => hsite (hno heq)
  simp [readAlarms, h401, hmsg, hne, bind, Except.bind]
  rfl

theorem readPage_rejected (h401 : r.status = 401) (pageNumber : Nat) :
    readPage pageNumber (.response r) =
      .error (.invalidAuth "API key rejected during system-log fetch (HTTP 401)") := by
  unfold readPage readSystemLogPage
  dsimp only
  rw [if_neg (by omega), if_pos h401]
  rfl

/-- The answers that both fetch paths take for a rejected key: 401, not about the site,
and with a body that the error parser can read. -/
structure Rejection (text : Text) (r : Response) : Prop where
  status : r.status = 401
  site : ¬CarriesNoSite text r
  legible : r.content.Legible

theorem tryFetchAlarms_rejected (h : Rejection net.text r) {url : String} {s : ClientState}
    (hans : net.respond s.requests.length (.get url) = .response r) :
    (tryFetchAlarms net url site s).1 =
      .error (.invalidAuth "API key rejected (HTTP 401)") := by
  show (readAlarms net.text site _).mapError Error.ofClientError = _
  rw [hans, readAlarms_rejected h.status h.site h.legible]
  rfl

theorem tryFetchAlarms_halts (h : Rejection net.text r) (url site : String) :
    Halts id net r (tryFetchAlarms net url site) where
  grows := tryFetchAlarms_grows net url site
  ends _ hmeets := ⟨_, tryFetchAlarms_rejected h (meets_send hmeets)⟩

theorem discoverFrom_halts (h : Rejection net.text r) (site : String) :
    ∀ paths : List String, Halts id net r (discoverFrom net site paths)
  | [] => .bind (.of_quiet fun _ => rfl) fun _ => .of_quiet fun _ => rfl
  | path :: paths => by
      refine .bind (tryFetchAlarms_halts h path site) fun alarms => ?_
      cases alarms with
      | none => exact discoverFrom_halts h site paths
      | some alarms => exact .bind (.of_quiet fun _ => rfl) fun _ => .of_quiet fun _ => rfl

theorem fetchAlarms_halts (h : Rejection net.text r) (site : String) :
    Halts id net r (fetchAlarms net site) := by
  have hdiscover : Halts id net r (discoverAlarmUrl net site) := discoverFrom_halts h site _
  refine .bind (.of_quiet fun _ => rfl) fun cached => ?_
  cases cached with
  | none => exact hdiscover
  | some url =>
      refine .bind (tryFetchAlarms_halts h url site) fun alarms => ?_
      cases alarms with
      | none => exact .bind (.of_quiet fun _ => rfl) fun _ => hdiscover
      | some alarms => exact .of_quiet fun _ => rfl

theorem categoriseAlarms_halts (h : Rejection net.text r) (site : String) :
    Halts id net r (categoriseAlarms net site) :=
  .bind (fetchAlarms_halts h site) fun raw => .bind (.of_quiet fun _ => rfl) fun _ =>
    .of_quiet (categoriseLoop_quiet net raw [])

theorem fetchPages_halts (h : Rejection net.text r) (url : String)
    (timestampFrom timestampTo : Int) : ∀ (fuel pageNumber : Nat) (results : List JsonObj),
    Halts id net r (fetchPages net url timestampFrom timestampTo fuel pageNumber results)
  | 0, _, _ => .bind (.of_quiet fun _ => rfl) fun _ => .of_quiet fun _ => rfl
  | fuel + 1, pageNumber, results => by
      have ih := fetchPages_halts h url timestampFrom timestampTo fuel (pageNumber + 1)
      refine ⟨fetchPages_within Grows.refl Grows.trans (fun _ => Grows.send net _)
        (fun s => Grows.refl s) _ _ _, fun s hmeets => ?_⟩
      rw [fetchPages_succ] at hmeets ⊢
      cases hp : readPage pageNumber (net.respond s.requests.length
          (.page url timestampFrom timestampTo pageNumber systemLogPageSize)) with
      | error e =>
          rw [hp] at hmeets
          have hans := meets_send (s := s) hmeets
          rw [hans, readPage_rejected h.status] at hp
          exact ⟨_, congrArg Except.error (Except.error.inj hp).symm⟩
      | ok page =>
          -- this page was not the answer, so the answer came later
          have hother : net.respond s.requests.length
              (.page url timestampFrom timestampTo pageNumber systemLogPageSize) ≠ .response r := by
            intro hans
            rw [hans, readPage_rejected h.status] at hp
            cases hp
          obtain ⟨events, last⟩ := page
          rw [hp] at hmeets
          cases last with
          | true => exact absurd (meets_send hmeets) hother
          | false =>
              rcases hmeets.split ((ih _).grows _) with hbefore | hafter
              · exact absurd (meets_send hbefore) hother
              · exact (ih _).ends _ hafter

/-! ### The poll -/

namespace Coordinator

theorem fetchV2_halts (h : Rejection net.text r) (site : String) :
    Halts Coordinator.client net r (fetchV2 net site) := by
  refine .bind (.of_quiet fun _ => rfl) fun states => .bind (.of_quiet fun _ => rfl) fun since =>
    .bind (.onClient (fetchPages_halts h _ _ _ _ _ _)) fun events => .of_quiet fun s => ?_
  rw [groupEvents_keeps (f := Coordinator.client) (fun _ _ => rfl) (fun _ _ => rfl) net events [] s]

theorem fetchLegacy_halts (h : Rejection net.text r) (site : String) :
    Halts Coordinator.client net r (fetchLegacy net site) := by
  refine .handle (.bind (.onClient (categoriseAlarms_halts h site)) fun _ => .of_quiet fun _ => rfl)
    (fun _ => rfl) fun e y hy => ?_
  split at hy
  · obtain rfl := Option.some.inj hy
    exact .of_quiet fun _ => rfl
  · cases hy

theorem fetchCategorised_halts (h : Rejection net.text r) (site : String) :
    Halts Coordinator.client net r (fetchCategorised net site) := by
  have hprobes : Comp.Within (OfClient Probes) (probeHasSystemLog net site) :=
    probeHasSystemLog_within Sends.refl (fun _ _ _ => Sends.trans)
      (probeSystemLogEndpoint_probes net site)
  refine .bind (.of_probes (probeOrFalse_within (R := OfClient Probes)
    (fun s => Sends.refl s.client) (fun _ _ _ => Sends.trans) hprobes)) fun hasV2 =>
    .bind (.of_quiet fun _ => rfl) fun confirmed => ?_
  split
  · refine .bind (fetchLegacy_halts h site) fun result => ?_
    cases result with
    | none => exact fetchV2_halts h site
    | some result => exact .bind (.of_quiet fun _ => rfl) fun _ => .of_quiet fun _ => rfl
  · exact fetchV2_halts h site

end Coordinator

end

theorem verifyApiKey_rejected {net : Net} {r : Response} (hkey : KeyRejected r) {apiKey : String}
    (hne : apiKey ≠ "") {s : ClientState}
    (hans : net.respond s.requests.length (.get (selfEndpoint net.base)) = .response r) :
    (verifyApiKey net apiKey s).1 = .error (.invalidAuth "Invalid API key") := by
  have hrun : (verifyApiKey net apiKey s).1 = (readSelf net.text (net.respond s.requests.length
      (.get (selfEndpoint net.base)))).mapError Error.ofAuthError := by
    unfold verifyApiKey
    rw [if_neg (by simpa using hne)]
    rfl
  have h3 : ¬(300 ≤ r.status ∧ r.status < 400) := by
    rcases hkey with h | h <;> omega
  have h404 : r.status ≠ 404 := by
    rcases hkey with h | h <;> omega
  rw [hrun, hans]
  unfold readSelf
  dsimp only
  rw [if_neg h3, if_neg h404, if_pos (show r.status = 401 ∨ r.status = 403 from hkey)]
  rfl

theorem rejectedAlike_of_rejection {text : Text} {r : Response} (h : Rejection text r) :
    RejectedAlike text r where
  setup _ _ _ _ hne hans := verifyApiKey_rejected (Or.inl h.status) hne hans
  legacy net htext url site s hans := by
    subst htext
    exact ⟨fun hno => absurd hno.2 h.site, fun _ => ⟨_, tryFetchAlarms_rejected h hans⟩⟩
  systemLog net htext url timestampFrom timestampTo fuel pageNumber results s hans := by
    refine ⟨fun hno => absurd hno.2 h.site, fun _ => ?_⟩
    rw [fetchPages_succ, hans, readPage_rejected h.status]
    exact ⟨_, rfl⟩
  poll net htext site coord hmeets _ := by
    subst htext
    obtain ⟨msg, hmsg⟩ := (Coordinator.fetchCategorised_halts h site).ends coord hmeets
    refine ⟨msg, ?_⟩
    show (Coordinator.fetchCategorised net site coord).1.mapError PollError.ofError = _
    rw [hmsg]
    rfl

/-- An error body that cannot be read is not taken for a rejected key. -/
theorem legible_of_rejected {text : Text} {site : String} {r : Response} {msg : String}
    (h401 : r.status = 401)
    (h : (readAlarms text site (.response r)).mapError Error.ofClientError =
      .error (.invalidAuth msg)) : r.content.Legible := by
  have hparse : ∀ e, parseUnifiErrorMsg text r = .error e →
      Error.ofClientError e = .invalidAuth msg := by
    intro e he
    simp only [readAlarms, h401, he, bind, Except.bind] at h
    exact Except.error.inj h
  unfold parseUnifiErrorMsg Response.json at hparse
  cases hc : r.content with
  | value v =>
      show HasMeta v
      rw [hc] at hparse
      cases hm : metaField v "msg" (.str "") with
      | ok a => exact hasMeta_of_metaField hm
      | error e =>
          obtain ⟨x, rfl⟩ := metaField_error hm
          cases hparse (.py x) (by simp [hm, bind, Except.bind])
  | undecodable => trivial
  | malformed => trivial
  | empty =>
      rw [hc] at hparse
      cases hparse (.py .attributeError) rfl
  | payloadError =>
      rw [hc] at hparse
      cases hparse (.client "ClientPayloadError") rfl
  | timeout =>
      rw [hc] at hparse
      cases hparse .timeout rfl

/-- A controller that answers every request with `r`. -/
def answeringNet (text : Text) (r : Response) : Net where
  text := text
  base := "https://unifi"
  now := 0
  respond _ _ := .response r

theorem rejection_of_rejectedAlike {text : Text} {r : Response} (hkey : KeyRejected r)
    (h : RejectedAlike text r) : Rejection text r := by
  have hlegacy := h.legacy (answeringNet text r) rfl "" "" {} rfl
  have hrun : (tryFetchAlarms (answeringNet text r) "" "" {}).1 =
      (readAlarms text "" (.response r)).mapError Error.ofClientError := rfl
  rw [hrun] at hlegacy
  have h401 : r.status = 401 := by
    refine hkey.resolve_right fun h403 => ?_
    obtain ⟨msg, hmsg⟩ := hlegacy.key fun hno => by
      have := hno.1
      omega
    simp [readAlarms, h403, Response.raiseForStatus, bind, Except.bind, Except.mapError,
      Error.ofClientError] at hmsg
  have hsite : ¬CarriesNoSite text r := by
    intro hno
    obtain ⟨msg, hmsg⟩ := (h.systemLog (answeringNet text r) rfl "" 0 0 0 0 [] {} rfl).site
      ⟨h401, hno⟩
    rw [fetchPages_succ, show (answeringNet text r).respond _ _ = .response r from rfl,
      readPage_rejected h401] at hmsg
    cases hmsg
  obtain ⟨msg, hmsg⟩ := hlegacy.key fun hno => hsite hno.2
  exact ⟨h401, hsite, legible_of_rejected h401 hmsg⟩

/-- A response is treated alike by setup, both fetch paths and the poll exactly when
it is no rejected key for setup, or a 401 with a legible body about something
else than the site. -/
theorem key_rejection_alike_iff (text : Text) (r : Response) :
    (KeyRejected r → RejectedAlike text r) ↔ (KeyRejected r → Rejection text r) :=
  forall_congr' fun hkey => ⟨rejection_of_rejectedAlike hkey, rejectedAlike_of_rejection⟩

def forbidden : Response := { status := 403, content := .empty }

def noSite : Response where
  status := 401
  content := .value (.obj [("meta", .obj [("msg", .str "api.err.NoSiteContext")])])

/-- A revoked key that is answered 403 is a rejected key at setup, and no more than
a failed update for the poll that follows; a missing site that the system log
answers with 401 starts reauthentication. -/
theorem key_rejection_differs :
    let text := Text.counting fun _ => none
    let poll := fun (r : Response) (v2 : Bool) => (Coordinator.updateFetch (answeringNet text r)
      "default" { Coordinator.fresh {} with hasSystemLog := some v2 }).1
    (verifyApiKey (answeringNet text forbidden) "key" {}).1 =
        .error (.invalidAuth "Invalid API key") ∧
      poll forbidden false = .error (.updateFailed "ClientResponseError 403") ∧
      poll forbidden true = .error (.updateFailed "ClientResponseError 403") ∧
      IsNoSite text noSite ∧
      poll noSite true =
        .error (.authFailed "API key rejected during system-log fetch (HTTP 401)") ∧
      ¬RejectedAlike text forbidden ∧ ¬RejectedAlike text noSite := by
  intro text poll
  have hsite : CarriesNoSite text noSite := ⟨_, _, rfl, rfl, rfl⟩
  refine ⟨rfl, rfl, rfl, ⟨rfl, hsite⟩, rfl, fun h => ?_, fun h => ?_⟩
  · exact absurd (rejection_of_rejectedAlike (Or.inr rfl) h).status (by decide)
  · exact (rejection_of_rejectedAlike (Or.inl rfl) h).site hsite

end UnifiAlerts
