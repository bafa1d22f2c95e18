import UnifiAlerts.Webhook

/-!
# The authentication gate of a webhook

What a request does before its body is touched. `handleWebhook` takes
the bytes of its read as an argument; `admission` is the same handler
stopped at that read. Either the handler has ended there, with an
`Outcome` and no read, or it waits for at most so many bytes and
`handleWebhook` is the rest of it on what arrives (`handleWebhook_eq`).

`hmac.compare_digest` raises on text outside ASCII, and nothing in the
handler catches it. So the gate keeps its contract exactly when the
three texts that are compared are ASCII.

`GateContract` is stated for every request, header and query, and about
the whole admission: who gets in, what the refusal answers, that a
refused body is not read, and how many bytes of an admitted one are.
Headers and query values are texts here, since the comparison of the
source is one of texts; the constant-time comparison of ASCII texts is
their equality (`compareDigest_ascii`).
-/

namespace UnifiAlerts

open Py

/-- A handler up to its first read. -/
inductive Admission
  | ended (o : Outcome)
  | reading (limit : Nat) (rest : List UInt8 → Outcome)

def Admission.finish : Admission → List UInt8 → Outcome
  | .ended o, _ => o
  | .reading _ rest, raw => rest raw

/-- The handler goes on to the body. -/
def Admission.accepted : Admission → Bool
  | .ended _ => false
  | .reading _ _ => true

namespace Handler

def admission (h : Handler) (now : Instant) (request : WebhookRequest) : Admission :=
  if h.secret = "" then .ended { result := .ok (some 500) }
  else match authorize h.secret request with
    | .error e => .ended { result := .error e }
    | .ok (headerAuthorized, queryAuthorized) =>
      if !headerAuthorized && !queryAuthorized then .ended { result := .ok (some 401) }
      else .reading (webhookMaxBodyBytes + 1) fun raw =>
        h.deliver now headerAuthorized (decodeBody h.loads raw)

theorem handleWebhook_eq (h : Handler) (now : Instant) (request : WebhookRequest)
    (raw : List UInt8) :
    h.handleWebhook now request raw = (h.admission now request).finish raw := by
  unfold handleWebhook admission
  split
  · rfl
  · rcases authorize h.secret request with e | ⟨headerAuthorized, queryAuthorized⟩
    · rfl
    · cases headerAuthorized <;> cases queryAuthorized <;> rfl

/-! ## The comparison -/

theorem compareDigest_ascii {a b : String} (ha : isAscii a = true) (hb : isAscii b = true) :
    compareDigest a b = .ok (a == b) := by
  simp [compareDigest, ha, hb]

theorem compareDigest_other {a b : String} (h : ¬(isAscii a = true ∧ isAscii b = true)) :
    compareDigest a b = .error .typeError := by
  simpa [compareDigest] using h

/-- The three texts of a request's authorisation are ASCII, so that `hmac.compare_digest`
compares them. -/
def Comparable (secret : String) (request : WebhookRequest) : Prop :=
  isAscii secret = true ∧ isAscii (extractBearerToken request.authorization) = true ∧
    isAscii request.token = true

instance (secret : String) (request : WebhookRequest) : Decidable (Comparable secret request) :=
  inferInstanceAs (Decidable (_ ∧ _ ∧ _))

/-- One of the two tokens is the secret. -/
def Matches (secret : String) (request : WebhookRequest) : Prop :=
  extractBearerToken request.authorization = secret ∨ request.token = secret

theorem authorize_comparable {secret : String} {request : WebhookRequest}
    (h : Comparable secret request) :
    authorize secret request =
      .ok (extractBearerToken request.authorization == secret, request.token == secret) := by
  obtain ⟨hsecret, hheader, hquery⟩ := h
  unfold authorize
  rw [compareDigest_ascii hheader hsecret, compareDigest_ascii hquery hsecret]
  rfl

theorem authorize_incomparable {secret : String} {request : WebhookRequest}
    (h : ¬Comparable secret request) : authorize secret request = .error .typeError := by
  unfold authorize
  by_cases hheader : isAscii (extractBearerToken request.authorization) = true ∧
      isAscii secret = true
  · -- the header compares, so it is the query token that does not
    have hquery : ¬(isAscii request.token = true ∧ isAscii secret = true) := fun hq =>
      h ⟨hq.2, hheader.1, hq.1⟩
    rw [compareDigest_ascii hheader.1 hheader.2, compareDigest_other hquery]
    rfl
  · rw [compareDigest_other hheader]
    rfl

/-! ## The gate -/

/-- The contract of the gate: a request passes when one of its tokens is the
secret, and one that does not pass is answered 401, with no read of the body,
no push callback and no change of a repair issue. -/
def GateContract (h : Handler) (now : Instant) (request : WebhookRequest) : Prop :=
  ((h.admission now request).accepted = true ↔ Matches h.secret request) ∧
    ((h.admission now request).accepted = false →
      h.admission now request =
        .ended { result := .ok (some 401), callbacks := [], issues := [] })

theorem gateContract_of_comparable {h : Handler} {request : WebhookRequest}
    (hsecret : h.secret ≠ "") (hcmp : Comparable h.secret request) (now : Instant) :
    h.GateContract now request := by
  unfold GateContract admission Matches
  rw [if_neg hsecret, authorize_comparable hcmp]
  by_cases hheader : extractBearerToken request.authorization = h.secret
  · simp [hheader, Admission.accepted]
  · by_cases hquery : request.token = h.secret
    · simp [hheader, hquery, Admission.accepted]
    · simp [hheader, hquery, Admission.accepted]

/-- A comparison that raises ends the request with no answer at all. -/
theorem admission_incomparable {h : Handler} {request : WebhookRequest}
    (hsecret : h.secret ≠ "") (hcmp : ¬Comparable h.secret request) (now : Instant) :
    h.admission now request = .ended { result := .error .typeError } := by
  unfold admission
  rw [if_neg hsecret, authorize_incomparable hcmp]

end Handler

/-- For every non-empty secret and every request, the gate keeps its contract
exactly when the secret, the header's token and the query token are ASCII. -/
theorem webhook_gate_iff (h : Handler) (hsecret : h.secret ≠ "") (now : Instant)
    (request : WebhookRequest) :
    h.GateContract now request ↔ Handler.Comparable h.secret request := by
  constructor
  · rintro ⟨-, hrefused⟩
    by_contra hcmp
    have hraises := Handler.admission_incomparable hsecret hcmp now
    rw [hraises] at hrefused
    exact absurd (hrefused rfl) (by simp)
  · intro hcmp
    exact Handler.gateContract_of_comparable hsecret hcmp now

/-- The right header is let through, whatever the query says. -/
theorem webhook_gate_header :
    powerHandler.GateContract 0 { authorization := "bearer  s3cret ", token := "wrong" } :=
  (webhook_gate_iff powerHandler (by decide) 0 _).mpr (by decide +kernel)

/-- A header token outside ASCII makes the handler raise: no 401. -/
theorem webhook_gate_raises :
    (powerHandler.handleWebhook 0 { authorization := "Bearer é" } []).result
        = .error .typeError ∧
      ¬powerHandler.GateContract 0 { authorization := "Bearer é" } := by
  have hcmp : ¬Handler.Comparable powerHandler.secret { authorization := "Bearer é" } := by
    decide +kernel
  have hraises := Handler.admission_incomparable (h := powerHandler) (by decide) hcmp 0
  constructor
  · rw [Handler.handleWebhook_eq, hraises]
    rfl
  · rintro ⟨-, hrefused⟩
    rw [hraises] at hrefused
    exact absurd (hrefused rfl) (by simp)

end UnifiAlerts
