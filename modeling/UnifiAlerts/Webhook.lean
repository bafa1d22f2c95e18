import UnifiAlerts.Listeners
import UnifiAlerts.Ops

/-!
# The webhook handler

`handleWebhook` on one request. The body arrives over the network and
the handler reads it with a single `read`, which returns some `raw`: a
prefix of the body that is at least one byte long unless the stream has
ended (`FirstRead`). The JSON decoder is a parameter (`loads`): bytes
decode to a value, are rejected, or make the decoder raise something
that the handler does not catch. The push callback may raise too, and
what it raises leaves the handler before the repair issues are touched.

The body contract is a function of the complete body. The handler meets
it exactly when what it read decides like the body and the callback
raises nothing on the alert (`Decides`). That fails for a partial first
read, for values that are no objects, and for a `push_alert` that meets
a time it cannot compare (`Handler.boundTo_accepts_iff`).
-/

namespace UnifiAlerts

open Py

/-! ## Authorisation -/

def isAscii (s : String) : Bool := s.toList.all fun c => decide (c.toNat < 128)

/-- `hmac.compare_digest` on strings accepts ASCII only. -/
def compareDigest (a b : String) : Except Exc Bool :=
  if isAscii a && isAscii b then .ok (a == b) else .error .typeError

def extractBearerToken (authorizationHeader : String) : String :=
  let (scheme, rest) := authorizationHeader.toList.span (· != ' ')
  if lower (String.ofList scheme) != "bearer" then "" else strip (String.ofList rest.tail)

structure WebhookRequest where
  authorization : String := ""
  token : String := ""

/-- Both comparisons run; the result is (header matched, query matched). -/
def authorize (secret : String) (request : WebhookRequest) : Except Exc (Bool × Bool) := do
  let headerAuthorized ← compareDigest (extractBearerToken request.authorization) secret
  let queryAuthorized ← compareDigest request.token secret
  return (headerAuthorized, queryAuthorized)

/-! ## The body -/

/-- `json.loads(raw.decode())`. -/
inductive Decoded
  | value (v : Json)
  | malformed
  | raised (e : Exc)

def Decoded.isMalformed : Decoded → Bool
  | .malformed => true
  | _ => false

inductive Body
  | tooLong
  | rejected
  | failed (e : Exc)
  | payload (v : Json)

/-- What the handler makes of the bytes it read. -/
def decodeBody (loads : List UInt8 → Decoded) (raw : List UInt8) : Body :=
  if webhookMaxBodyBytes < raw.length then .tooLong
  else match raw with
    | [] => .payload (.obj [])
    | raw => match loads raw with
      | .value v => .payload v
      | .malformed => .rejected
      | .raised .typeError => .rejected
      | .raised e => .failed e

def safeDebugFields : List String := ["category", "alert_key", "key", "severity", "device_name"]

/-- `k in payload`. -/
def isIn (k : String) : Json → Except Exc Bool
  | .obj kvs => .ok (kvs.any fun kv => kv.1 == k)
  | .arr xs => .ok (xs.any fun x => match x with
    | .str s => s == k
    | _ => false)
  | .str s => .ok (s.toList.tails.any fun t => k.toList.isPrefixOf t)
  | _ => .error .typeError

/-- The comprehension over the loggable fields, which calls `payload.get`. -/
def logFields (payload : Json) : List String → Except Exc Unit
  | [] => .ok ()
  | k :: ks => do
    if ← isIn k payload then
      let _ ← payload.asDict
    logFields payload ks

/-! ## The handler -/

inductive IssueCall
  | delete (id : String)
  | create (id : String)
deriving Repr, DecidableEq

/-- What a handler is bound to. -/
structure Handler where
  text : Text
  loads : List UInt8 → Decoded
  category : String
  secret : String
  entryId : String
  pushCallback : String → UniFiAlert → Except Exc Unit
  debug : Bool := false

/-- How a request ends: the status (`none` leaves it to Home Assistant, which
answers 200) or the exception, the push callbacks and the issue-registry calls. -/
structure Outcome where
  result : Except Exc (Option Nat)
  callbacks : List (String × UniFiAlert) := []
  issues : List IssueCall := []

namespace Handler

def rotatedIssue (h : Handler) : String := issueIdWebhookSecretRotated ++ "_" ++ h.entryId

def legacyIssue (h : Handler) : String := issueIdWebhookLegacyQueryAuth ++ "_" ++ h.entryId

/-- The issue calls of a delivered webhook. -/
def issueCalls (h : Handler) (headerAuthorized : Bool) : List IssueCall :=
  [.delete h.rotatedIssue,
   if headerAuthorized then .delete h.legacyIssue else .create h.legacyIssue]

def alertOf (h : Handler) (now : Instant) (payload : Json) : Except Exc UniFiAlert :=
  (if h.debug then logFields payload safeDebugFields else .ok ()) >>= fun _ =>
    UniFiAlert.fromWebhookPayload h.text now h.category payload

def deliver (h : Handler) (now : Instant) (headerAuthorized : Bool) : Body → Outcome
  | .tooLong => { result := .ok (some 413) }
  | .rejected => { result := .ok (some 400) }
  | .failed e => { result := .error e }
  | .payload v =>
    match h.alertOf now v with
    | .error e => { result := .error e }
    | .ok alert =>
      match h.pushCallback h.category alert with
      | .error e => { result := .error e, callbacks := [(h.category, alert)] }
      | .ok () =>
        { result := .ok none, callbacks := [(h.category, alert)],
          issues := h.issueCalls headerAuthorized }

def handleWebhook (h : Handler) (now : Instant) (request : WebhookRequest) (raw : List UInt8) :
    Outcome :=
  if h.secret = "" then { result := .ok (some 500) }
  else match authorize h.secret request with
    | .error e => { result := .error e }
    | .ok (headerAuthorized, queryAuthorized) =>
      if !headerAuthorized && !queryAuthorized then { result := .ok (some 401) }
      else h.deliver now headerAuthorized (decodeBody h.loads raw)

/-! ## Which payloads become alerts -/

theorem logFields_obj (kvs : JsonObj) : ∀ ks, logFields (.obj kvs) ks = .ok ()
  | [] => rfl
  | k :: ks => by
      simp only [logFields, isIn, Json.asDict, bind, Except.bind]
      split <;> exact logFields_obj kvs ks

/-- An alert is built from objects and from nothing else. -/
theorem alertOf_ok_iff {h : Handler} {now : Instant} {v : Json} :
    (∃ alert, h.alertOf now v = .ok alert) ↔ ∃ kvs, v = .obj kvs := by
  constructor
  · rintro ⟨alert, halert⟩
    obtain ⟨-, -, halert⟩ := bind_eq_ok.mp halert
    obtain ⟨p, hp, -⟩ := bind_eq_ok.mp halert
    cases v with
    | obj kvs => exact ⟨kvs, rfl⟩
    | _ => cases hp
  · rintro ⟨kvs, rfl⟩
    unfold alertOf
    cases h.debug with
    | false => exact ⟨_, rfl⟩
    | true =>
        rw [if_pos rfl, logFields_obj]
        exact ⟨_, rfl⟩

/-- The push callback raises nothing on the alert of the object, so the handler gets to
the repair issues and to its answer. -/
def Accepts (h : Handler) (now : Instant) (kvs : JsonObj) : Prop :=
  ∀ alert, h.alertOf now (.obj kvs) = .ok alert → h.pushCallback h.category alert = .ok ()

/-- The handler of the webhook manager: the callback is `push_alert` of the coordinator. -/
def boundTo (h : Handler) (config : UniFiClientConfig) (coord : Coordinator) (now : Reading)
    (listeners : List Entity) : Handler :=
  { h with
    pushCallback := Coordinator.pushCallback h.text config coord now.wall now.mono listeners }

/-- The coordinator takes the alert of the object as far as its listeners, and all of them
show it: the minimum severity can be read and, if the alert is accepted, the watermark can
be compared with it and no listener raises. -/
theorem boundTo_accepts_iff {h : Handler} {config : UniFiClientConfig} {coord : Coordinator}
    {now : Reading} {listeners : List Entity} {kvs : JsonObj} :
    (h.boundTo config coord now listeners).Accepts now.wall kvs ↔
      ∀ alert, h.alertOf now.wall (.obj kvs) = .ok alert →
        (∃ verdict, Coordinator.pushVerdict config coord now.mono h.category alert = .ok verdict) ∧
          ∀ c, Coordinator.pushVerdict config coord now.mono h.category alert = .ok (.accepted c) →
            coord.MarkComparable c alert ∧
              ∀ x ∈ listeners, x.Readable (Coordinator.withLast coord.states c alert) :=
  forall₂_congr fun _ _ => Coordinator.pushCallback_ok_iff

/-! ## What the network delivers -/

/-- `raw` is what one `read(n)` returns of a stream carrying `body`: a beginning of it, of
at most `n` bytes, and empty only at the end. -/
structure FirstRead (n : Nat) (body raw : List UInt8) : Prop where
  sub : raw <+: body
  bound : raw.length ≤ n
  eof : raw = [] → body = []

/-- One of the two tokens matched; `headerAuthorized` tells whether the header did. -/
def Authorised (h : Handler) (request : WebhookRequest) (headerAuthorized : Bool) : Prop :=
  h.secret ≠ "" ∧ ∃ queryAuthorized,
    authorize h.secret request = .ok (headerAuthorized, queryAuthorized) ∧
      (headerAuthorized || queryAuthorized) = true

theorem handleWebhook_authorised {h : Handler} {request : WebhookRequest} {headerAuthorized : Bool}
    (hauth : h.Authorised request headerAuthorized) (now : Instant) (raw : List UInt8) :
    h.handleWebhook now request raw =
      h.deliver now headerAuthorized (decodeBody h.loads raw) := by
  obtain ⟨hsecret, queryAuthorized, hok, hor⟩ := hauth
  simp only [handleWebhook, if_neg hsecret, hok]
  cases headerAuthorized <;> cases queryAuthorized <;> first | rfl | cases hor

/-! ## The body contract -/

/-- The contract on the complete body: too long, not JSON, or delivered. -/
def MeetsContract (h : Handler) (headerAuthorized : Bool) (body : List UInt8) (o : Outcome) :
    Prop :=
  if webhookMaxBodyBytes < body.length then o.result = .ok (some 413) ∧ o.callbacks = []
  else if !body.isEmpty && (h.loads body).isMalformed then
    o.result = .ok (some 400) ∧ o.callbacks = []
  else o.result = .ok none ∧ (∃ alert, o.callbacks = [(h.category, alert)]) ∧
    o.issues = h.issueCalls headerAuthorized

/-- What was read decides like the complete body: both are over the limit, both
are rejected, or both are objects that give the same alert, one on which the push
callback raises nothing. -/
def Decides (h : Handler) (now : Instant) (body raw : List UInt8) : Prop :=
  if webhookMaxBodyBytes < body.length then webhookMaxBodyBytes < raw.length
  else if body.isEmpty then h.Accepts now []
  else match h.loads body with
    | .malformed => h.loads raw = .malformed ∨ h.loads raw = .raised .typeError
    | .value (.obj kvs) => h.Accepts now kvs ∧ ∃ kvs', h.loads raw = .value (.obj kvs') ∧
        h.alertOf now (.obj kvs') = h.alertOf now (.obj kvs)
    | _ => False

theorem decodeBody_nonempty {loads : List UInt8 → Decoded} {raw : List UInt8} (hne : raw ≠ [])
    (hlen : raw.length ≤ webhookMaxBodyBytes) :
    decodeBody loads raw = match loads raw with
      | .value v => .payload v
      | .malformed => .rejected
      | .raised .typeError => .rejected
      | .raised e => .failed e := by
  cases raw with
  | nil => exact absurd rfl hne
  | cons b bs =>
      unfold decodeBody
      rw [if_neg (not_lt.mpr hlen)]

theorem decodeBody_tooLong_iff {loads : List UInt8 → Decoded} {raw : List UInt8} :
    decodeBody loads raw = .tooLong ↔ webhookMaxBodyBytes < raw.length := by
  unfold decodeBody
  split
  · rename_i hlong
    exact ⟨fun _ => hlong, fun _ => rfl⟩
  · rename_i hshort
    refine ⟨fun htoo => ?_, fun hlong => absurd hlong hshort⟩
    split at htoo
    · cases htoo
    · split at htoo <;> cases htoo

section

variable {loads : List UInt8 → Decoded} {raw : List UInt8} (hne : raw ≠ [])
  (hlen : raw.length ≤ webhookMaxBodyBytes)

include hne hlen

theorem decodeBody_rejected_iff :
    decodeBody loads raw = .rejected ↔ loads raw = .malformed ∨ loads raw = .raised .typeError := by
  rw [decodeBody_nonempty hne hlen]
  cases loads raw with
  | value v => simp
  | malformed => simp
  | raised e => cases e <;> simp

theorem decodeBody_payload_iff {v : Json} :
    decodeBody loads raw = .payload v ↔ loads raw = .value v := by
  rw [decodeBody_nonempty hne hlen]
  cases loads raw with
  | value v => simp
  | malformed => simp
  | raised e => cases e <;> simp

end

/-- The status tells how the body was decided. -/
theorem deliver_result {h : Handler} {now : Instant} {headerAuthorized : Bool} {b : Body} :
    ((h.deliver now headerAuthorized b).result = .ok (some 413) ↔ b = .tooLong) ∧
    ((h.deliver now headerAuthorized b).result = .ok (some 400) ↔ b = .rejected) ∧
    ((h.deliver now headerAuthorized b).result = .ok none ↔
      ∃ kvs, b = .payload (.obj kvs) ∧ h.Accepts now kvs) := by
  cases b with
  | tooLong => simp [deliver]
  | rejected => simp [deliver]
  | failed e => simp [deliver]
  | payload v =>
      have hiff := @alertOf_ok_iff h now v
      have haccepts : (∃ kvs, Body.payload v = .payload (.obj kvs) ∧ h.Accepts now kvs) ↔
          ∃ alert, h.alertOf now v = .ok alert ∧ h.pushCallback h.category alert = .ok () := by
        constructor
        · rintro ⟨kvs, hv, haccepts⟩
          obtain rfl := Body.payload.inj hv
          obtain ⟨alert, halert⟩ := hiff.mpr ⟨kvs, rfl⟩
          exact ⟨alert, halert, haccepts alert halert⟩
        · rintro ⟨alert, halert, hpush⟩
          obtain ⟨kvs, rfl⟩ := hiff.mp ⟨alert, halert⟩
          refine ⟨kvs, rfl, fun alert' halert' => ?_⟩
          obtain rfl := Except.ok.inj (halert.symm.trans halert')
          exact hpush
      rw [haccepts]
      simp only [deliver]
      cases h.alertOf now v with
      | error e => simp
      | ok alert => cases hpush : h.pushCallback h.category alert <;> simp [hpush]

/-- A delivered object ends as the contract asks when the callback raises nothing. -/
theorem deliver_obj {h : Handler} {now : Instant} {kvs : JsonObj} (haccepts : h.Accepts now kvs)
    (headerAuthorized : Bool) :
    let o := h.deliver now headerAuthorized (.payload (.obj kvs))
    o.result = .ok none ∧ (∃ alert, o.callbacks = [(h.category, alert)]) ∧
      o.issues = h.issueCalls headerAuthorized := by
  obtain ⟨alert, halert⟩ := (@alertOf_ok_iff h now (.obj kvs)).mpr ⟨kvs, rfl⟩
  simp [deliver, halert, haccepts alert halert]

/-- Two objects with the same alert are alike to the callback. -/
theorem accepts_congr {h : Handler} {now : Instant} {kvs kvs' : JsonObj}
    (hsame : h.alertOf now (.obj kvs') = h.alertOf now (.obj kvs)) :
    h.Accepts now kvs' ↔ h.Accepts now kvs := by
  unfold Accepts
  rw [hsame]

/-- Two payloads are delivered alike exactly when they give the same alert. -/
theorem deliver_payload_eq_iff {h : Handler} {now : Instant} {headerAuthorized : Bool}
    {v v' : Json} :
    h.deliver now headerAuthorized (.payload v) = h.deliver now headerAuthorized (.payload v') ↔
      h.alertOf now v = h.alertOf now v' := by
  cases hv : h.alertOf now v with
  | error e =>
      cases hv' : h.alertOf now v' with
      | error e' => simp [deliver, hv, hv']
      | ok alert' =>
          cases hpush : h.pushCallback h.category alert' <;> simp [deliver, hv, hv', hpush]
  | ok alert =>
      cases hv' : h.alertOf now v' with
      | error e' => cases hpush : h.pushCallback h.category alert <;> simp [deliver, hv, hv', hpush]
      | ok alert' =>
          constructor
          · intro heq
            have hcallbacks := congrArg Outcome.callbacks heq
            cases hpush : h.pushCallback h.category alert <;>
              cases hpush' : h.pushCallback h.category alert' <;>
                simpa [deliver, hv, hv', hpush, hpush'] using hcallbacks
          · intro heq
            simp only [deliver, hv, hv', Except.ok.inj heq]

/-! ### One kind of body each

`b` is what was read; the body itself is on the right of the equation. -/

section

variable {h : Handler} {now : Instant} {headerAuthorized : Bool} {b : Body}

theorem tooLong_meets_iff :
    (((h.deliver now headerAuthorized b).result = .ok (some 413) ∧
        (h.deliver now headerAuthorized b).callbacks = []) ∧
      h.deliver now headerAuthorized b = h.deliver now headerAuthorized .tooLong) ↔
      b = .tooLong := by
  constructor
  · rintro ⟨⟨hresult, -⟩, -⟩
    exact deliver_result.1.mp hresult
  · rintro rfl
    exact ⟨⟨rfl, rfl⟩, rfl⟩

theorem rejected_meets_iff :
    (((h.deliver now headerAuthorized b).result = .ok (some 400) ∧
        (h.deliver now headerAuthorized b).callbacks = []) ∧
      h.deliver now headerAuthorized b = h.deliver now headerAuthorized .rejected) ↔
      b = .rejected := by
  constructor
  · rintro ⟨⟨hresult, -⟩, -⟩
    exact deliver_result.2.1.mp hresult
  · rintro rfl
    exact ⟨⟨rfl, rfl⟩, rfl⟩

/-- An object has to be read as one that gives the same alert, and the callback has to take
that alert. -/
theorem obj_meets_iff {kvs : JsonObj} :
    (((h.deliver now headerAuthorized b).result = .ok none ∧
        (∃ alert, (h.deliver now headerAuthorized b).callbacks = [(h.category, alert)]) ∧
        (h.deliver now headerAuthorized b).issues = h.issueCalls headerAuthorized) ∧
      h.deliver now headerAuthorized b = h.deliver now headerAuthorized (.payload (.obj kvs))) ↔
      h.Accepts now kvs ∧ ∃ kvs', b = .payload (.obj kvs') ∧
        h.alertOf now (.obj kvs') = h.alertOf now (.obj kvs) := by
  constructor
  · rintro ⟨⟨hresult, -⟩, heq⟩
    obtain ⟨kvs', rfl, haccepts⟩ := deliver_result.2.2.mp hresult
    have halert := deliver_payload_eq_iff.mp heq
    exact ⟨(accepts_congr halert).mp haccepts, kvs', rfl, halert⟩
  · rintro ⟨haccepts, kvs', rfl, halert⟩
    exact ⟨deliver_obj ((accepts_congr halert).mpr haccepts) headerAuthorized,
      deliver_payload_eq_iff.mpr halert⟩

/-- Whatever is read of a body that is no object does not end like it and well. -/
theorem not_meets_of_not_obj {whole : Body} (hwhole : ∀ kvs, whole ≠ .payload (.obj kvs))
    (hresult : (h.deliver now headerAuthorized b).result = .ok none)
    (heq : h.deliver now headerAuthorized b = h.deliver now headerAuthorized whole) : False := by
  rw [heq] at hresult
  obtain ⟨kvs, hkvs, -⟩ := deliver_result.2.2.mp hresult
  exact hwhole kvs hkvs

end

end Handler

/-- For an authorised request and any delivery of the body, the handler meets
the body contract, with the outcome it has when the body comes in one piece,
exactly when what it read decides like the body. -/
theorem webhook_body_contract_iff (h : Handler) (now : Instant) (request : WebhookRequest)
    (headerAuthorized : Bool) (hauth : h.Authorised request headerAuthorized)
    (body raw : List UInt8) (hread : Handler.FirstRead (webhookMaxBodyBytes + 1) body raw) :
    (h.MeetsContract headerAuthorized body (h.handleWebhook now request raw) ∧
      h.handleWebhook now request raw =
        h.handleWebhook now request (body.take (webhookMaxBodyBytes + 1))) ↔
      h.Decides now body raw := by
  rw [Handler.handleWebhook_authorised hauth, Handler.handleWebhook_authorised hauth]
  obtain ⟨hsub, -, heof⟩ := hread
  have hle : raw.length ≤ body.length := hsub.length_le
  unfold Handler.MeetsContract Handler.Decides
  by_cases hlong : webhookMaxBodyBytes < body.length
  · -- over the limit: only a read past it says so
    have hwhole : decodeBody h.loads (body.take (webhookMaxBodyBytes + 1)) = .tooLong :=
      Handler.decodeBody_tooLong_iff.mpr (by rw [List.length_take]; omega)
    rw [if_pos hlong, if_pos hlong, hwhole]
    exact Handler.tooLong_meets_iff.trans Handler.decodeBody_tooLong_iff
  · rw [if_neg hlong, if_neg hlong, List.take_of_length_le (by omega)]
    cases body with
    | nil =>
        obtain rfl := List.prefix_nil.mp hsub
        have hwhole : decodeBody h.loads [] = .payload (.obj []) := rfl
        rw [if_neg (by simp), if_pos List.isEmpty_nil, hwhole]
        exact Handler.obj_meets_iff.trans (and_iff_left ⟨[], rfl, rfl⟩)
    | cons b bs =>
        have hne : raw ≠ [] := by
          rintro rfl
          cases heof rfl
        have hlen : raw.length ≤ webhookMaxBodyBytes := by omega
        have hlen' : (b :: bs).length ≤ webhookMaxBodyBytes := by omega
        have hpayload := fun v => @Handler.decodeBody_payload_iff h.loads _
          (List.cons_ne_nil b bs) hlen' v
        simp only [List.isEmpty_cons, Bool.not_false, Bool.true_and, Bool.false_eq_true, if_false]
        cases hloads : h.loads (b :: bs) with
        | malformed =>
            rw [(Handler.decodeBody_rejected_iff (List.cons_ne_nil b bs) hlen').mpr
              (Or.inl hloads)]
            simp only [Decoded.isMalformed, if_true]
            exact Handler.rejected_meets_iff.trans (Handler.decodeBody_rejected_iff hne hlen)
        | value v =>
            rw [(hpayload v).mpr hloads]
            simp only [Decoded.isMalformed, Bool.false_eq_true, if_false]
            cases v with
            | obj kvs =>
                rw [Handler.obj_meets_iff]
                simp only [Handler.decodeBody_payload_iff hne hlen]
            | _ =>
                refine iff_of_false ?_ id
                rintro ⟨⟨hresult, -⟩, heq⟩
                exact Handler.not_meets_of_not_obj (by simp) hresult heq
        | raised e =>
            simp only [Decoded.isMalformed, Bool.false_eq_true, if_false]
            refine iff_of_false ?_ id
            rintro ⟨⟨hresult, -⟩, heq⟩
            refine Handler.not_meets_of_not_obj (fun kvs hkvs => ?_) hresult heq
            rw [hpayload, hloads] at hkvs
            cases hkvs

/-- The JSON texts of the empty object and the empty list; nothing else decodes. -/
def decodeEmpty : List UInt8 → Decoded
  | [123, 125] => .value (.obj [])
  | [91, 93] => .value (.arr [])
  | _ => .malformed

/-- The handler of the power webhook, whose coordinator has that watermark and two entities. -/
def powerHandlerAt (lastClearedAt : Option DateTime) : Handler :=
  let coord := Coordinator.fresh {}
  Handler.boundTo
    { text := .counting fun _ => none
      loads := decodeEmpty
      category := "power"
      secret := "s3cret"
      entryId := "e1"
      pushCallback := fun _ _ => .ok () }
    {} (coord.setState .power { coord.states .power with lastClearedAt }) ⟨0, 0⟩
    [.categoryBinarySensor .power, .rollupBinarySensor]

def powerHandler : Handler := powerHandlerAt none

theorem powerHandler_authorised :
    powerHandler.Authorised { authorization := "Bearer s3cret" } true :=
  ⟨by decide, false, by decide +kernel, rfl⟩

/-- The empty object, read whole, is delivered. -/
theorem webhook_body_contract_whole_object :
    powerHandler.MeetsContract true [123, 125]
      (powerHandler.handleWebhook 0 { authorization := "Bearer s3cret" } [123, 125]) := by
  have hread : Handler.FirstRead (webhookMaxBodyBytes + 1) [123, 125] [123, 125] :=
    ⟨List.prefix_rfl, by decide, by simp⟩
  refine ((webhook_body_contract_iff powerHandler 0 _ true powerHandler_authorised _ _ hread).mpr
    ?_).1
  refine ⟨fun alert halert => ?_, [], rfl, rfl⟩
  obtain rfl := Except.ok.inj halert
  rfl

/-- The same object whose first byte arrives alone is answered 400, the empty list, read
whole, ends in an exception, and so does the empty object, read whole, when the watermark
has no offset: the alert has been pushed then, and no issue is touched. -/
theorem webhook_body_contract_fails :
    ¬powerHandler.MeetsContract true [123, 125]
      (powerHandler.handleWebhook 0 { authorization := "Bearer s3cret" } [123]) ∧
    ¬powerHandler.MeetsContract true [91, 93]
      (powerHandler.handleWebhook 0 { authorization := "Bearer s3cret" } [91, 93]) ∧
    ¬(powerHandlerAt (some (.naive 0))).MeetsContract true [123, 125]
      ((powerHandlerAt (some (.naive 0))).handleWebhook 0
        { authorization := "Bearer s3cret" } [123, 125]) := by
  refine ⟨?_, ?_, ?_⟩
  · rw [Handler.handleWebhook_authorised powerHandler_authorised]
    rintro ⟨hresult, -⟩
    exact absurd hresult (by decide +kernel)
  · rw [Handler.handleWebhook_authorised powerHandler_authorised]
    rintro ⟨hresult, -⟩
    exact absurd hresult (by decide +kernel)
  · rw [Handler.handleWebhook_authorised (h := powerHandlerAt (some (.naive 0)))
      powerHandler_authorised]
    rintro ⟨hresult, -⟩
    exact absurd hresult (by decide +kernel)

end UnifiAlerts
