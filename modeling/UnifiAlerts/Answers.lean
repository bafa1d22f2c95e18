import UnifiAlerts.Auth
import UnifiAlerts.SystemLog

/-!
# Answers that a request function copes with

Four functions send requests, each with its own ladder of `except`
clauses. `Endpoint.Readable` says of one answer of the controller that
the function that asked for it can cope: the request did not time out,
and a body that is looked at has the shape the function expects. For
each function this is exactly when only domain exceptions leave it.

The iff lemmas follow the functions: `OnlyRaises` is pushed through the
status ladder, the body and the records, and what remains at a leaf is
the shape at that leaf.

`Endpoint` names the four functions, so that the property is one
statement with a case for each and not four that resemble each other.
The bodies are arbitrary JSON and the content type is part of the
answer, because `response.json()` looks at it first. Records are read up
to the first that is no object, and a page also has a page count, which
is compared with a number and can be anything.
-/

namespace UnifiAlerts

open Py Lib

/-! ## Shapes of a body -/

/-- An object whose `meta`, if it has one, is an object. -/
def HasMeta (v : Json) : Prop := ∃ o m : JsonObj, v = .obj o ∧ o.getD "meta" (.obj []) = .obj m

/-- A value that a loop over records can run through. -/
def Items (v : Json) : Prop := ∃ items, v.iter = .ok items ∧ ∀ x ∈ items, ∃ kvs, x = .obj kvs

/-- A 2xx answer of a legacy alarm path: an error envelope, or a list of records. -/
def IsAlarmList (v : Json) : Prop :=
  HasMeta v ∧ ∀ o : JsonObj, v = .obj o → metaField v "rc" .null = .ok (.str "ok") →
    Items (o.getD "data" (.arr []))

def IsNumber : Json → Prop
  | .int _ => True
  | .bool _ => True
  | .float _ => True
  | _ => False

/-- A 2xx answer of the system log. -/
def IsPage (v : Json) : Prop :=
  ∃ o : JsonObj, v = .obj o ∧ Items ((o.get "data").or (.arr [])) ∧
    IsNumber (o.getD "total_page_count" (.int 1))

/-- What `resp.json(content_type=None)` may meet where bodies that are no JSON are
forgiven and the rest is read for its `meta`. -/
def Content.Forgiven : Content → Prop
  | .payloadError => True
  | .undecodable => True
  | .malformed => True
  | .value v => HasMeta v
  | .empty => False
  | .timeout => False

/-- What `resp.json()` may meet where nothing is forgiven: a broken transfer and a
wrong content type are client errors. -/
def Response.Strict (P : Json → Prop) (r : Response) : Prop :=
  match r.content with
  | .payloadError => True
  | .timeout => False
  | .undecodable => r.jsonType = false
  | .malformed => r.jsonType = false
  | .empty => r.jsonType = false ∨ P .null
  | .value v => r.jsonType = false ∨ P v

/-- What a request is for. -/
inductive Endpoint
  | self
  | legacy
  | systemLog
  | probe
deriving Repr, DecidableEq

/-- Answers that the function asking the endpoint copes with. -/
def Endpoint.Readable : Endpoint → HttpResult → Prop
  | _, .timeout => False
  | .self, .response r => r.status < 300 → r.content.Forgiven
  | .legacy, .response r => (r.status = 400 ∨ r.status = 401 → r.content.Forgiven) ∧
      (r.status < 300 → r.Strict IsAlarmList)
  | .systemLog, .response r => r.status < 300 → r.Strict IsPage
  | _, _ => True

/-! ## Steps that raise only caught exceptions -/

/-- Every exception of the computation is a domain exception, or one that the
ladder around it turns into one. -/
abbrev Caught {α : Type} (x : Except Error α) : Prop := OnlyRaises (fun e => e.isCaught = true) x

/-- Only domain exceptions leave the computation. -/
abbrev Domain {α : Type} (x : Except Error α) : Prop := OnlyRaises (fun e => e.isDomain = true) x

theorem domain_ofClientError {α : Type} {x : Except Error α} :
    Domain (x.mapError Error.ofClientError) ↔ Caught x := by
  rw [Domain, onlyRaises_mapError]
  simp only [Error.isDomain_ofClientError]

theorem domain_ofAuthError {α : Type} {x : Except Error α} :
    Domain (x.mapError Error.ofAuthError) ↔ Caught x := by
  rw [Domain, onlyRaises_mapError]
  simp only [Error.isDomain_ofAuthError]

theorem caught_ofPy {α : Type} {x : Except Exc α} : Caught (ofPy x) ↔ ∃ a, x = .ok a := by
  cases x with
  | ok a => simp [Caught, ofPy, Except.mapError]
  | error e => simp [Caught, ofPy, Except.mapError, Error.isCaught]

theorem metaField_error {v : Json} {field : String} {default : Json} {e : Error}
    (h : metaField v field default = .error e) : ∃ x, e = .py x := by
  unfold metaField ofPy Except.mapError at h
  split at h
  · exact ⟨_, (Except.error.inj h).symm⟩
  · cases h

theorem caught_metaField {v : Json} {field : String} {default : Json} :
    Caught (metaField v field default) ↔ HasMeta v := by
  unfold metaField
  rw [caught_ofPy]
  constructor
  · rintro ⟨a, ha⟩
    obtain ⟨o, ho, ha⟩ := bind_eq_ok.mp ha
    obtain ⟨m, hm, -⟩ := bind_eq_ok.mp ha
    cases v with
    | obj kvs =>
        obtain rfl := Except.ok.inj ho
        cases hmeta : JsonObj.getD kvs "meta" (.obj []) with
        | obj m => exact ⟨kvs, m, rfl, hmeta⟩
        | _ => rw [hmeta] at hm; cases hm
    | _ => cases ho
  · rintro ⟨o, m, rfl, hm⟩
    exact ⟨m.getD field default, by simp [Json.asDict, hm, bind, Except.bind, pure, Except.pure]⟩

theorem unarchived_ok_iff {vs : List Json} :
    (∃ records, unarchived vs = .ok records) ↔ ∀ v ∈ vs, ∃ kvs, v = .obj kvs := by
  induction vs with
  | nil => simp [unarchived]
  | cons v vs ih =>
      rw [List.forall_mem_cons, ← ih]
      constructor
      · rintro ⟨records, h⟩
        obtain ⟨a, ha, h⟩ := bind_eq_ok.mp h
        obtain ⟨rest, hrest, -⟩ := bind_eq_ok.mp h
        cases v with
        | obj kvs => exact ⟨⟨kvs, rfl⟩, rest, hrest⟩
        | _ => cases ha
      · rintro ⟨⟨kvs, rfl⟩, rest, hrest⟩
        simp [unarchived, Json.asDict, hrest, bind, Except.bind, pure, Except.pure]

def isOpen (record : JsonObj) : Bool := !(record.getD "archived" (.bool false)).truthy

theorem unarchived_objs : ∀ records : List JsonObj,
    unarchived (records.map .obj) = .ok (records.filter isOpen)
  | [] => rfl
  | record :: records => by
      have ih := unarchived_objs records
      rw [List.map_cons, unarchived, ih,
        show (Json.obj record).asDict = .ok record from rfl, ok_bind,
        ok_bind, List.filter_cons, isOpen]
      cases (record.getD "archived" (.bool false)).truthy with
      | true => rfl
      | false => rfl

theorem newEvents_ok_iff {vs : List Json} :
    (∃ events, newEvents vs = .ok events) ↔ ∀ v ∈ vs, ∃ kvs, v = .obj kvs := by
  induction vs with
  | nil => simp [newEvents]
  | cons v vs ih =>
      rw [List.forall_mem_cons, ← ih]
      constructor
      · rintro ⟨events, h⟩
        obtain ⟨e, he, h⟩ := bind_eq_ok.mp h
        obtain ⟨rest, hrest, -⟩ := bind_eq_ok.mp h
        cases v with
        | obj kvs => exact ⟨⟨kvs, rfl⟩, rest, hrest⟩
        | _ => cases he
      · rintro ⟨⟨kvs, rfl⟩, rest, hrest⟩
        simp [newEvents, Json.asDict, hrest, bind, Except.bind, pure, Except.pure]

theorem intGe_ok_iff {n : Int} {v : Json} : (∃ b, intGe n v = .ok b) ↔ IsNumber v := by
  cases v with
  | float x => cases x <;> simp [intGe, IsNumber]
  | _ => simp [intGe, IsNumber]

/-- A strict body read, followed by whatever the caller does with the value. -/
theorem caught_json_bind {α : Type} {r : Response} {f : Json → Except Error α} :
    Caught (r.json true >>= f) ↔ r.Strict fun v => Caught (f v) := by
  unfold Caught Response.json Response.Strict
  cases r.content with
  | payloadError => simp [bind, Except.bind, Error.isCaught]
  | timeout => simp [bind, Except.bind, Error.isCaught]
  | _ => cases r.jsonType <;> simp [bind, Except.bind, Error.isCaught]

theorem Response.Strict.congr {P Q : Json → Prop} {r : Response} (h : ∀ v, P v ↔ Q v) :
    r.Strict P ↔ r.Strict Q := by
  rw [funext fun v => propext (h v)]

/-! ## The three fetching functions -/

theorem parseUnifiErrorMsg_caught {text : Text} {r : Response} :
    Caught (parseUnifiErrorMsg text r) ↔ r.content.Forgiven := by
  unfold parseUnifiErrorMsg Response.json
  cases r.content with
  | value v =>
      have hmeta := @caught_metaField v "msg" (.str "")
      show _ ↔ HasMeta v
      rw [← hmeta]
      cases hm : metaField v "msg" (.str "") with
      | ok a => simp [hm, bind, Except.bind, pure, Except.pure]
      | error e =>
          obtain ⟨x, rfl⟩ := metaField_error hm
          simp [hm, bind, Except.bind]
  | _ => simp [bind, Except.bind, Content.Forgiven, metaField, ofPy, Json.asDict, Except.mapError,
      Error.isCaught]

/-- The reading of an envelope: `rc` decides what follows. -/
theorem caught_envelope {α : Type} {v : Json} {k : Json → Except Error α}
    (hk : HasMeta v → ∀ rc, metaField v "rc" .null = .ok rc → Caught (k rc)) :
    Caught (metaField v "rc" .null >>= k) ↔ HasMeta v := by
  rw [Caught, onlyRaises_bind]
  constructor
  · exact fun h => caught_metaField.mp h.1
  · exact fun h => ⟨caught_metaField.mpr h, hk h⟩

theorem checkSelf_caught {text : Text} {v : Json} : Caught (checkSelf text v) ↔ HasMeta v := by
  refine caught_envelope fun hmeta rc _ => ?_
  split
  · simp
  · exact onlyRaises_bind.mpr ⟨caught_metaField.mpr hmeta, fun _ _ => by simp [Error.isCaught]⟩

theorem selfEnvelope_caught {text : Text} {r : Response} :
    Caught (selfEnvelope r >>= checkSelf text) ↔ r.content.Forgiven := by
  have hmissing : Caught (checkSelf text (.obj [])) := checkSelf_caught.mpr ⟨[], [], rfl, rfl⟩
  have hnull : ¬Caught (checkSelf text .null) := fun h => by
    obtain ⟨o, m, hobj, -⟩ := checkSelf_caught.mp h
    cases hobj
  unfold selfEnvelope Response.json
  cases r.content with
  | value v => exact checkSelf_caught
  | empty => exact iff_of_false hnull id
  | timeout => simp [bind, Except.bind, Error.isCaught, Content.Forgiven]
  | payloadError => simp [bind, Except.bind, Error.isCaught, Content.Forgiven]
  | _ => exact iff_of_true hmissing trivial

/-- Past the status checks, a 2xx answer leaves its body, and a 4xx or 5xx one is a
response error. -/
theorem caught_raiseForStatus_bind {α : Type} {r : Response} {x : Except Error α}
    (h3 : ¬(300 ≤ r.status ∧ r.status < 400)) :
    Caught (r.raiseForStatus >>= fun _ => x) ↔ (r.status < 300 → Caught x) := by
  unfold Response.raiseForStatus
  split
  · rename_i h4
    have : ¬r.status < 300 := by omega
    simp [this, bind, Except.bind, Error.isCaught]
  · have : r.status < 300 := by omega
    simp [this, bind, Except.bind]

theorem readSelf_caught_iff {text : Text} {result : HttpResult} :
    Caught (readSelf text result) ↔ Endpoint.self.Readable result := by
  cases result with
  | response r =>
      unfold readSelf Endpoint.Readable
      dsimp only
      split
      · rename_i h3
        simp [Error.isCaught, not_lt.mpr h3.1]
      · rename_i h3
        split
        · rename_i h404
          simp [Error.isCaught, h404]
        · split
          · rename_i hkey
            have : ¬r.status < 300 := by omega
            simp [Error.isCaught, this]
          · rw [caught_raiseForStatus_bind h3, selfEnvelope_caught]
  | _ => simp [readSelf, Endpoint.Readable, Error.isCaught]

/-- A loop over the records of `v`, followed by steps that are caught when `Q` holds. -/
theorem caught_items {α β : Type} {v : Json} {read : List Json → Except Exc α} {Q : Prop}
    (hread : ∀ {items}, (∃ a, read items = .ok a) ↔ ∀ x ∈ items, ∃ kvs, x = .obj kvs)
    {k : α → Except Error β} (hk : ∀ a, Caught (k a) ↔ Q) :
    Caught (ofPy v.iter >>= fun items => ofPy (read items) >>= k) ↔ Items v ∧ Q := by
  rw [Caught, onlyRaises_bind]
  constructor
  · rintro ⟨hiter, hrest⟩
    obtain ⟨items, hitems⟩ := caught_ofPy.mp hiter
    obtain ⟨hcaught, hk'⟩ := onlyRaises_bind.mp (hrest items (by rw [hitems]; rfl))
    obtain ⟨a, ha⟩ := caught_ofPy.mp hcaught
    exact ⟨⟨items, hitems, hread.mp ⟨a, ha⟩⟩, (hk a).mp (hk' a (by rw [ha]; rfl))⟩
  · rintro ⟨⟨items, hitems, hobjs⟩, hQ⟩
    refine ⟨caught_ofPy.mpr ⟨items, hitems⟩, fun items' hitems' => ?_⟩
    rw [hitems] at hitems'
    obtain rfl := Except.ok.inj hitems'
    exact onlyRaises_bind.mpr ⟨caught_ofPy.mpr (hread.mpr hobjs), fun a _ => (hk a).mpr hQ⟩

theorem hasMeta_of_metaField {v : Json} {field : String} {default a : Json}
    (h : metaField v field default = .ok a) : HasMeta v :=
  caught_metaField.mp (by rw [h]; exact onlyRaises_ok a)

/-- The value of a 2xx answer of a legacy path. -/
theorem alarmList_caught {text : Text} {v : Json} :
    Caught (do
      match ← metaField v "rc" .null with
      | .str "ok" =>
        let o ← ofPy v.asDict
        let items ← ofPy (JsonObj.getD o "data" (.arr [])).iter
        return some (← ofPy (unarchived items))
      | _ =>
        let msg ← metaField v "msg" (.str "unknown error")
        throw (.cannotConnect .plain s!"UniFi API error: {text.str msg}")) ↔ IsAlarmList v := by
  rw [Caught, onlyRaises_bind]
  constructor
  · rintro ⟨hmeta, hrest⟩
    refine ⟨caught_metaField.mp hmeta, ?_⟩
    rintro o rfl hrc
    exact ((caught_items unarchived_ok_iff fun _ => iff_true_intro (onlyRaises_pure _)).mp
      (hrest _ hrc)).1
  · rintro ⟨hmeta, hitems⟩
    refine ⟨caught_metaField.mpr hmeta, fun rc hrc => ?_⟩
    split
    · obtain ⟨o, m, rfl, -⟩ := hmeta
      exact (caught_items unarchived_ok_iff fun _ => iff_true_intro (onlyRaises_pure _)).mpr
        ⟨hitems o rfl hrc, trivial⟩
    · exact onlyRaises_bind.mpr ⟨caught_metaField.mpr hmeta, fun _ _ => by simp [Error.isCaught]⟩

theorem caught_errorBody {α : Type} {text : Text} {r : Response} {k : String → Except Error α}
    (hk : ∀ msg, Caught (k msg)) :
    Caught (parseUnifiErrorMsg text r >>= k) ↔ r.content.Forgiven := by
  rw [← @parseUnifiErrorMsg_caught text r]
  constructor
  · exact fun h => (onlyRaises_bind.mp h).1
  · exact fun h => onlyRaises_bind.mpr ⟨h, fun msg _ => hk msg⟩

theorem readAlarms_caught_iff {text : Text} {site : String} {result : HttpResult} :
    Caught (readAlarms text site result) ↔ Endpoint.legacy.Readable result := by
  cases result with
  | response r =>
      unfold readAlarms Endpoint.Readable
      dsimp only
      split
      · rename_i h3
        have hnot : ¬(r.status = 400 ∨ r.status = 401) ∧ ¬r.status < 300 := by omega
        simp [Error.isCaught, hnot.1, hnot.2]
      · rename_i h3
        split
        · rename_i h401
          rw [caught_errorBody fun msg => by
            split <;> simp [Error.isCaught]]
          simp [h401]
        · rename_i h401
          split
          · rename_i h404
            simp [h404]
          · split
            · rename_i h400
              rw [caught_errorBody fun msg => by
                split <;> simp [Error.isCaught]]
              simp [h400]
            · rename_i h400
              rw [caught_raiseForStatus_bind h3, caught_json_bind]
              simp only [h400, h401, or_self, false_implies, true_and]
              exact imp_congr_right fun _ => Response.Strict.congr fun v => alarmList_caught
  | _ => simp [readAlarms, Endpoint.Readable, Error.isCaught]

/-! ### One page -/

/-- One turn of the page loop on a decoded body. -/
def readPageBody (pageNumber : Nat) (body : Json) : Except Error (List JsonObj × Bool) := do
  let data ← ofPy body.asDict
  let pageData := (data.get "data").or (.arr [])
  let items ← ofPy pageData.iter
  let events ← ofPy (newEvents items)
  let last ← ofPy (intGe (pageNumber + 1) (data.getD "total_page_count" (.int 1)))
  return (events, last || !pageData.truthy)

/-- One turn of the page loop on an answer: its NEW events, and whether it is the
last page to read. -/
def readPage (pageNumber : Nat) (result : HttpResult) : Except Error (List JsonObj × Bool) := do
  let body ← (readSystemLogPage result).mapError Error.ofClientError
  readPageBody pageNumber body

theorem fetchPages_succ (net : Net) (url : String) (timestampFrom timestampTo : Int)
    (fuel pageNumber : Nat) (results : List JsonObj) (s : ClientState) :
    let request := Request.page url timestampFrom timestampTo pageNumber systemLogPageSize
    let s' := { s with requests := s.requests ++ [request] }
    fetchPages net url timestampFrom timestampTo (fuel + 1) pageNumber results s =
      match readPage pageNumber (net.respond s.requests.length request) with
      | .error e => (.error e, s')
      | .ok (events, last) =>
        if last then (.ok (results ++ events), s')
        else fetchPages net url timestampFrom timestampTo fuel (pageNumber + 1)
          (results ++ events) s' := by
  intro request s'
  rw [fetchPages, Comp.bind_run (show send net request s =
    (.ok (net.respond s.requests.length request), s') from rfl)]
  unfold readPage
  cases (readSystemLogPage (net.respond s.requests.length request)).mapError
    Error.ofClientError with
  | error e => rfl
  | ok body =>
      rw [ok_bind, Comp.lift_ok_bind, readPageBody]
      cases ofPy body.asDict with
      | error e => rfl
      | ok data =>
          rw [ok_bind, Comp.lift_ok_bind]
          dsimp only
          cases ofPy ((data.get "data").or (.arr [])).iter with
          | error e => rfl
          | ok items =>
              rw [ok_bind, Comp.lift_ok_bind]
              cases ofPy (newEvents items) with
              | error e => rfl
              | ok events =>
                  rw [ok_bind, Comp.lift_ok_bind]
                  cases ofPy (intGe (pageNumber + 1) (data.getD "total_page_count" (.int 1))) with
                  | error e => rfl
                  | ok last =>
                      rw [ok_bind, Comp.lift_ok_bind]
                      cases last <;> cases ((data.get "data").or (.arr [])).truthy <;> rfl

/-- A page loop with a page left asks for it, whatever follows. -/
theorem fetchPages_first (net : Net) (url : String) (timestampFrom timestampTo : Int)
    (fuel pageNumber : Nat) (results : List JsonObj) (s : ClientState) :
    s.requests ++ [.page url timestampFrom timestampTo pageNumber systemLogPageSize] <+:
      (fetchPages net url timestampFrom timestampTo (fuel + 1) pageNumber
        results s).2.requests := by
  rw [fetchPages_succ]
  split
  · exact List.prefix_rfl
  · split
    · exact List.prefix_rfl
    · obtain ⟨sent, hsent, -⟩ := fetchPages_sends net url timestampFrom timestampTo fuel
        (pageNumber + 1) _ { s with requests := s.requests ++
          [.page url timestampFrom timestampTo pageNumber systemLogPageSize] }
      exact ⟨sent, hsent.symm⟩

theorem caught_last {events : List JsonObj} {n : Int} {v : Json} {more : Bool} :
    Caught (do
      let last ← ofPy (intGe n v)
      return (events, last || more)) ↔ IsNumber v := by
  rw [Caught, onlyRaises_bind, ← @intGe_ok_iff n v]
  exact (and_iff_left fun _ _ => onlyRaises_pure _).trans caught_ofPy

theorem readPageBody_caught {pageNumber : Nat} {v : Json} :
    Caught (readPageBody pageNumber v) ↔ IsPage v := by
  unfold readPageBody
  rw [Caught, onlyRaises_bind]
  constructor
  · rintro ⟨hdict, hrest⟩
    obtain ⟨o, ho⟩ := caught_ofPy.mp hdict
    cases v with
    | obj kvs =>
        obtain rfl := Except.ok.inj ho
        exact ⟨kvs, rfl, (caught_items newEvents_ok_iff fun _ => caught_last).mp (hrest kvs rfl)⟩
    | _ => cases ho
  · rintro ⟨o, rfl, hitems⟩
    refine ⟨onlyRaises_ok o, fun o' ho' => ?_⟩
    obtain rfl := Except.ok.inj ho'
    exact (caught_items newEvents_ok_iff fun _ => caught_last).mpr hitems

/-- Behind the ladder only builtin exceptions are raised, and those are neither
caught by it nor domain exceptions. -/
theorem readPageBody_py {pageNumber : Nat} {v : Json} :
    OnlyRaises (fun e => ∃ x, e = .py x) (readPageBody pageNumber v) := by
  have hpy : ∀ {α : Type} (x : Except Exc α), OnlyRaises (fun e => ∃ x, e = .py x) (ofPy x) :=
    fun x => onlyRaises_mapError.mpr fun e _ => ⟨e, rfl⟩
  unfold readPageBody
  refine onlyRaises_bind.mpr ⟨hpy _, fun data _ => onlyRaises_bind.mpr ⟨hpy _, fun items _ => ?_⟩⟩
  refine onlyRaises_bind.mpr ⟨hpy _, fun events _ => onlyRaises_bind.mpr ⟨hpy _, fun last _ => ?_⟩⟩
  exact onlyRaises_pure _

theorem readPage_domain_iff_caught {pageNumber : Nat} {result : HttpResult} :
    Domain (readPage pageNumber result) ↔
      Caught (readSystemLogPage result >>= readPageBody pageNumber) := by
  unfold readPage
  cases readSystemLogPage result with
  | error e => simp [Except.mapError, Error.isDomain_ofClientError]
  | ok v =>
      rw [Except.mapError, ok_bind]
      constructor
      · intro h e he
        obtain ⟨x, rfl⟩ := readPageBody_py e he
        exact nomatch h _ he
      · intro h e he
        obtain ⟨x, rfl⟩ := readPageBody_py e he
        exact nomatch h _ he

theorem readPage_domain_iff {pageNumber : Nat} {result : HttpResult} :
    Domain (readPage pageNumber result) ↔
      Endpoint.systemLog.Readable result := by
  rw [readPage_domain_iff_caught]
  cases result with
  | response r =>
      unfold readSystemLogPage Endpoint.Readable
      dsimp only
      split
      · rename_i h3
        simp [Error.isCaught, not_lt.mpr h3.1]
      · rename_i h3
        split
        · rename_i h401
          simp [Error.isCaught, h401]
        · rw [bind_assoc, caught_raiseForStatus_bind h3, caught_json_bind]
          exact imp_congr_right fun _ => Response.Strict.congr fun v => readPageBody_caught
  | _ => simp [readSystemLogPage, Endpoint.Readable, Error.isCaught]

end UnifiAlerts
