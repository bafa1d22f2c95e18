import UnifiAlerts.Classification
import UnifiAlerts.KeyRejection

/-!
# What one request for legacy alarms ends in

`expectedAnswer` is the table for a body that has arrived: the records
of a 2xx envelope, a missing path, a missing site, a rejected key, and
`CannotConnectError` for everything else. `_try_fetch_alarms` follows it
where `Regular` holds (`tryFetchAlarms_answers_iff`).

What is not regular are the bodies that the function reads without
asking for their shape: the empty body of a 400 or 401 answer is `None`
to the error parser, and a 2xx body that is no JSON, no object or has no
list of objects under `data` ends in the exception of whatever touches
it first. An interim answer is read like a 2xx one.

The table is a function of the answer alone and is total; it says
nothing about which exception is raised inside and which handler takes
it. The function is followed through `readAlarms_envelope` and the error
parser, and `LegacyAnswer.of` maps its result to an entry of the table,
with `escaped` for what no entry covers.
-/

namespace UnifiAlerts

open Py Lib

/-! ## The table -/

inductive LegacyAnswer
  | records (alarms : List JsonObj)
  | missing
  | invalidSite
  | invalidAuth
  | cannotConnect
  | escaped (e : Error)

def LegacyAnswer.of : Except Error (Option (List JsonObj)) → LegacyAnswer
  | .ok (some alarms) => .records alarms
  | .ok none => .missing
  | .error (.cannotConnect .invalidSite _) => .invalidSite
  | .error (.cannotConnect _ _) => .cannotConnect
  | .error (.invalidAuth _) => .invalidAuth
  | .error e => .escaped e

/-- The body has been received: empty, no text, no JSON, or a value. -/
def Content.Arrived : Content → Prop
  | .payloadError => False
  | .timeout => False
  | _ => True

/-- The `meta` of an object, which it need not have. -/
def Content.metaOf : Content → Option JsonObj
  | .value (.obj o) =>
    match JsonObj.getD o "meta" (.obj []) with
    | .obj m => some m
    | _ => none
  | _ => none

/-- `meta.msg` as text, empty when there is none. -/
def Content.errorMsg (text : Text) (c : Content) : String :=
  (c.metaOf.map fun m => text.str (m.getD "msg" (.str ""))).getD ""

/-- `meta.rc` is "ok". -/
def Content.acknowledged (c : Content) : Bool :=
  match c.metaOf with
  | some m =>
    match m.getD "rc" .null with
    | .str "ok" => true
    | _ => false
  | none => false

def asObject : Json → Option JsonObj
  | .obj o => some o
  | _ => none

/-- The records of a value, when it can be run through and has only objects. -/
def dataRecords (v : Json) : Option (List JsonObj) :=
  match v.iter with
  | .ok items => items.mapM asObject
  | .error _ => none

/-- The answer of a well-formed envelope with `rc` "ok", and of any other body. -/
def Response.bodyAnswer (r : Response) : LegacyAnswer :=
  match r.content with
  | .value (.obj o) =>
    if r.jsonType && r.content.acknowledged then
      match dataRecords (JsonObj.getD o "data" (.arr [])) with
      | some records => .records (records.filter isOpen)
      | none => .cannotConnect
    else .cannotConnect
  | _ => .cannotConnect

def expectedAnswer (text : Text) (r : Response) : LegacyAnswer :=
  if r.status = 404 then .missing
  else if r.status = 400 then
    if r.content.errorMsg text = "api.err.InvalidObject" then .missing else .cannotConnect
  else if r.status = 401 then
    if r.content.errorMsg text = "api.err.NoSiteContext" then .invalidSite else .invalidAuth
  else if 200 ≤ r.status ∧ r.status < 300 then r.bodyAnswer
  else .cannotConnect

/-- The error bodies and the bodies below 300 have the shape the function takes for
granted, and no interim answer has the body of a successful one. -/
structure Response.Regular (r : Response) : Prop where
  rejected : r.status = 400 ∨ r.status = 401 → r.content.Legible
  accepted : r.status < 300 → r.Strict IsAlarmList
  interim : r.status < 200 → r.jsonType = true → r.content.acknowledged = false

/-! ## Bodies -/

theorem metaOf_of_hasMeta {v : Json} (h : HasMeta v) :
    ∃ o m : JsonObj, v = .obj o ∧ o.getD "meta" (.obj []) = .obj m ∧
      (Content.value v).metaOf = some m := by
  obtain ⟨o, m, rfl, hm⟩ := h
  exact ⟨o, m, rfl, hm, by simp [Content.metaOf, hm]⟩

theorem parseUnifiErrorMsg_eq {text : Text} {r : Response} (h : r.content.Legible) :
    parseUnifiErrorMsg text r = .ok (r.content.errorMsg text) := by
  unfold parseUnifiErrorMsg Response.json
  cases hc : r.content with
  | value v =>
      rw [hc] at h
      obtain ⟨o, m, rfl, hm, hmeta⟩ := metaOf_of_hasMeta h
      simp [metaField, Json.asDict, hm, hmeta, Content.errorMsg, ofPy, Except.mapError, bind,
        Except.bind, pure, Except.pure]
  | undecodable => rfl
  | malformed => rfl
  | _ => rw [hc] at h; exact h.elim

theorem mapM_asObject (records : List JsonObj) :
    (records.map Json.obj).mapM asObject = some records := by
  induction records with
  | nil => rfl
  | cons a records ih => simp [asObject, ih]

/-- Items are a list of objects. -/
theorem exists_records {v : Json} (h : Items v) :
    ∃ records : List JsonObj, v.iter = .ok (records.map .obj) := by
  obtain ⟨items, hiter, hobjs⟩ := h
  suffices ∃ records : List JsonObj, items = records.map .obj by
    obtain ⟨records, rfl⟩ := this
    exact ⟨records, hiter⟩
  clear hiter
  induction items with
  | nil => exact ⟨[], rfl⟩
  | cons x items ih =>
      obtain ⟨records, rfl⟩ := ih fun y hy => hobjs y (List.mem_cons_of_mem _ hy)
      obtain ⟨o, rfl⟩ := hobjs x List.mem_cons_self
      exact ⟨o :: records, rfl⟩

/-- What is done with the value of an answer below 300. -/
def readEnvelope (text : Text) (v : Json) : Except Error (Option (List JsonObj)) := do
  match ← metaField v "rc" .null with
  | .str "ok" =>
    let o ← ofPy v.asDict
    let items ← ofPy (JsonObj.getD o "data" (.arr [])).iter
    return some (← ofPy (unarchived items))
  | _ =>
    let msg ← metaField v "msg" (.str "unknown error")
    throw (.cannotConnect .plain s!"UniFi API error: {text.str msg}")

theorem readAlarms_envelope {text : Text} {site : String} {r : Response} (h : r.status < 300) :
    readAlarms text site (.response r) = r.json true >>= readEnvelope text := by
  unfold readAlarms Response.raiseForStatus
  dsimp only
  rw [if_neg (by omega), if_neg (by omega), if_neg (by omega), if_neg (by omega), if_neg (by omega)]
  rfl

theorem readEnvelope_answer {text : Text} {status : Nat} {v : Json} (h : IsAlarmList v) :
    LegacyAnswer.of ((readEnvelope text v).mapError Error.ofClientError) =
      (Response.mk status true (.value v)).bodyAnswer := by
  obtain ⟨hmeta, hitems⟩ := h
  obtain ⟨o, m, rfl, hm, hmetaOf⟩ := metaOf_of_hasMeta hmeta
  have hfield : ∀ field default, metaField (.obj o) field default =
      .ok (m.getD field default) := by
    intro field default
    simp [metaField, Json.asDict, hm, ofPy, Except.mapError, bind, Except.bind, pure, Except.pure]
  unfold readEnvelope Response.bodyAnswer Content.acknowledged
  simp only [hfield, hmetaOf, ok_bind, Bool.true_and]
  split
  · rename_i hrc
    obtain ⟨records, hrecords⟩ := exists_records (hitems o rfl ((hfield _ _).trans (by rw [hrc])))
    simp only [Json.asDict, hrecords, unarchived_objs, dataRecords, mapM_asObject, ofPy,
      Except.mapError, ok_bind]
    rfl
  · rfl

theorem readBody_answer {text : Text} {r : Response} (harr : r.content.Arrived)
    (h : r.Strict IsAlarmList) :
    LegacyAnswer.of ((r.json true >>= readEnvelope text).mapError Error.ofClientError) =
      r.bodyAnswer := by
  obtain ⟨status, jsonType, content⟩ := r
  cases jsonType with
  | false =>
      cases content with
      | payloadError => exact harr.elim
      | timeout => exact harr.elim
      | value v => cases v <;> rfl
      | _ => rfl
  | true =>
      cases content with
      | value v => exact readEnvelope_answer (h.resolve_left Bool.noConfusion)
      | empty =>
          obtain ⟨⟨o, m, hobj, -⟩, -⟩ := h.resolve_left Bool.noConfusion
          cases hobj
      | payloadError => exact harr.elim
      | timeout => exact harr.elim
      | _ => cases h

theorem bodyAnswer_of_acknowledged {r : Response} (h : r.Strict IsAlarmList)
    (htype : r.jsonType = true) (hack : r.content.acknowledged = true) :
    ∃ alarms, r.bodyAnswer = .records alarms := by
  obtain ⟨status, jsonType, content⟩ := r
  dsimp only at htype hack
  subst htype
  cases content with
  | value v =>
      obtain ⟨hmeta, hitems⟩ := h.resolve_left Bool.noConfusion
      obtain ⟨o, m, rfl, hm, hmetaOf⟩ := metaOf_of_hasMeta hmeta
      have hrc : metaField (.obj o) "rc" .null = .ok (.str "ok") := by
        unfold Content.acknowledged at hack
        rw [hmetaOf] at hack
        dsimp only at hack
        split at hack
        · rename_i hrc
          simp [metaField, Json.asDict, hm, hrc, ofPy, Except.mapError, bind, Except.bind, pure,
            Except.pure]
        · cases hack
      obtain ⟨records, hrecords⟩ := exists_records (hitems o rfl hrc)
      refine ⟨records.filter isOpen, ?_⟩
      simp only [Response.bodyAnswer, hack, dataRecords, hrecords, mapM_asObject, Bool.true_and,
        if_true]
  | _ => cases hack

theorem bodyAnswer_of_not_acknowledged {r : Response}
    (h : r.jsonType = true → r.content.acknowledged = false) : r.bodyAnswer = .cannotConnect := by
  have hnot : (r.jsonType && r.content.acknowledged) = false := by
    cases htype : r.jsonType with
    | false => rfl
    | true => rw [h htype]; rfl
  unfold Response.bodyAnswer
  split
  · rw [hnot]
    rfl
  · rfl

/-! ## The ladder -/

/-- An interim answer is read like a successful one; the others follow the table. -/
theorem readAlarms_answer {text : Text} {site : String} {r : Response} (harr : r.content.Arrived)
    (hrejected : r.status = 400 ∨ r.status = 401 → r.content.Legible)
    (haccepted : r.status < 300 → r.Strict IsAlarmList) :
    LegacyAnswer.of ((readAlarms text site (.response r)).mapError Error.ofClientError) =
      if r.status < 200 then r.bodyAnswer else expectedAnswer text r := by
  by_cases h300 : r.status < 300
  · rw [readAlarms_envelope h300, readBody_answer harr (haccepted h300)]
    unfold expectedAnswer
    split
    · rfl
    · rw [if_neg (by omega), if_neg (by omega), if_neg (by omega), if_pos (by omega)]
  · rw [if_neg (by omega)]
    unfold readAlarms expectedAnswer
    dsimp only
    split
    · -- a redirect
      rw [if_neg (by omega), if_neg (by omega), if_neg (by omega), if_neg (by omega)]
      rfl
    · split
      · rename_i h401
        rw [if_neg (by omega), if_neg (by omega), parseUnifiErrorMsg_eq (hrejected (Or.inr h401)),
          ok_bind]
        by_cases hsite : r.content.errorMsg text = "api.err.NoSiteContext"
        · simp [hsite]
          rfl
        · simp [hsite]
          rfl
      · split
        · rfl
        · split
          · rename_i h400
            rw [parseUnifiErrorMsg_eq (hrejected (Or.inl h400)), ok_bind, isMissingAlarmPath]
            by_cases hobj : r.content.errorMsg text = "api.err.InvalidObject"
            · simp [hobj]
              rfl
            · simp [hobj]
              rfl
          · -- any other error status
            rw [if_neg (by omega)]
            unfold Response.raiseForStatus
            rw [if_pos (by omega)]
            rfl

theorem legible_iff_forgiven {c : Content} (h : c.Arrived) : c.Legible ↔ c.Forgiven := by
  cases c with
  | payloadError => exact h.elim
  | _ => rfl

theorem domain_of_answer {x : Except Error (Option (List JsonObj))}
    (h : ∀ e, LegacyAnswer.of x ≠ .escaped e) : Domain x := by
  intro e hx
  subst hx
  cases e with
  | cannotConnect kind msg => rfl
  | invalidAuth msg => rfl
  | _ => exact absurd rfl (h _)

theorem bodyAnswer_ne_escaped (r : Response) (e : Error) : r.bodyAnswer ≠ .escaped e := by
  unfold Response.bodyAnswer
  split
  · split
    · split <;> exact LegacyAnswer.noConfusion
    · exact LegacyAnswer.noConfusion
  · exact LegacyAnswer.noConfusion

theorem expectedAnswer_ne_escaped (text : Text) (r : Response) (e : Error) :
    expectedAnswer text r ≠ .escaped e := by
  have hbody := bodyAnswer_ne_escaped r e
  unfold expectedAnswer
  split_ifs
  case pos => exact LegacyAnswer.noConfusion
  all_goals first
    | exact hbody
    | exact LegacyAnswer.noConfusion

/-! ## The contract of a request -/

theorem expectedAnswer_interim {text : Text} {r : Response} (h : r.status < 200) :
    expectedAnswer text r = .cannotConnect := by
  unfold expectedAnswer
  rw [if_neg (by omega), if_neg (by omega), if_neg (by omega), if_neg (by omega)]

/-- Whatever its status and its body, a request for legacy alarms ends as the table
says exactly when the answer is regular. -/
theorem tryFetchAlarms_answers_iff (net : Net) (url site : String) (s : ClientState) (r : Response)
    (harr : r.content.Arrived) (hnet : net.respond s.requests.length (.get url) = .response r) :
    LegacyAnswer.of (tryFetchAlarms net url site s).1 = expectedAnswer net.text r ↔ r.Regular := by
  have hrun : (tryFetchAlarms net url site s).1 =
      (readAlarms net.text site (.response r)).mapError Error.ofClientError := by
    rw [← hnet]
    rfl
  have hreadable : Endpoint.legacy.Readable (.response r) ↔
      (r.status = 400 ∨ r.status = 401 → r.content.Legible) ∧
        (r.status < 300 → r.Strict IsAlarmList) := by
    rw [legible_iff_forgiven harr]
    rfl
  rw [hrun]
  constructor
  · intro h
    have hdomain := domain_of_answer fun e he => expectedAnswer_ne_escaped net.text r e (h ▸ he)
    rw [domain_ofClientError, readAlarms_caught_iff, hreadable] at hdomain
    obtain ⟨hrejected, haccepted⟩ := hdomain
    refine ⟨hrejected, haccepted, fun h200 htype => ?_⟩
    rw [readAlarms_answer harr hrejected haccepted, if_pos h200, expectedAnswer_interim h200] at h
    by_contra hack
    obtain ⟨alarms, halarms⟩ := bodyAnswer_of_acknowledged (haccepted (by omega)) htype
      (by simpa using hack)
    rw [halarms] at h
    cases h
  · intro h
    rw [readAlarms_answer harr h.rejected h.accepted]
    split
    · rename_i h200
      rw [bodyAnswer_of_not_acknowledged (h.interim h200), expectedAnswer_interim h200]
    · rfl

/-- Two of three records are open. -/
def openAlarms : Response where
  status := 200
  content := .value (.obj [("meta", .obj [("rc", .str "ok")]),
    ("data", .arr [.obj [("key", .str "a")], .obj [("archived", .bool true)],
      .obj [("key", .str "b"), ("archived", .bool false)]])])

theorem openAlarms_regular : openAlarms.Regular where
  rejected h := absurd h (by decide)
  accepted _ := by
    refine Or.inr ⟨⟨_, _, rfl, rfl⟩, ?_⟩
    intro o ho _
    obtain rfl := Json.obj.inj ho
    refine ⟨_, rfl, fun x hx => ?_⟩
    simp only [List.mem_cons, List.not_mem_nil, or_false] at hx
    rcases hx with rfl | rfl | rfl <;> exact ⟨_, rfl⟩
  interim h := absurd h (by decide)

theorem tryFetchAlarms_answers_open :
    LegacyAnswer.of
        (tryFetchAlarms (constantNet (.response openAlarms)) "/list/alarm" "default" {}).1 =
      .records [[("key", .str "a")], [("key", .str "b"), ("archived", .bool false)]] :=
  ((tryFetchAlarms_answers_iff (constantNet (.response openAlarms)) "/list/alarm" "default" {}
    openAlarms trivial rfl).mpr openAlarms_regular).trans rfl

/-- The controller rejects the request without a body. -/
def bareRejection : Response where
  status := 400
  content := .empty

/-- The parser of the error body is handed `None` and raises. -/
theorem tryFetchAlarms_answers_bare :
    LegacyAnswer.of
        (tryFetchAlarms (constantNet (.response bareRejection)) "/list/alarm" "default" {}).1 =
      .escaped (.py .attributeError) ∧
    expectedAnswer (constantNet (.response bareRejection)).text bareRejection = .cannotConnect :=
  ⟨rfl, rfl⟩

end UnifiAlerts
