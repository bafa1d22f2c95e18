import UnifiAlerts.Listeners
import UnifiAlerts.Polling
import UnifiAlerts.PushDedup

/-!
# Naive and aware timestamps

`Input` is the raw side of the interleavings: lists of legacy records
and v2 events, webhook payloads, clears. Each is converted by its
constructor and then performed. The webhook and v2 constructors always
stamp aware timestamps; the legacy one keeps what `fromisoformat` reads,
so a record whose time is ISO text without an offset gives a naive
alert, and the first comparison with a watermark raises. Without such
`Offsetless` records no comparison ever raises.

`Converted` is what a constructor built on the way, in the order of the
source: the record before the one that raises counts, the one after it
does not. So an alert is counted as constructed only if the code comes
to build it.

Both directions go through the same lemma on one operation
(`madeFrom_of_constructed`): its alerts are made from its records, and
an alert made from a record is naive exactly when the record is
offsetless.
-/

namespace UnifiAlerts

open Py Lib

/-! ## The three constructors -/

/-- `ts` is text that parses as a timestamp without an offset. -/
def OffsetlessText (text : Text) (ts : Json) : Prop :=
  ts ≠ .null ∧ (ts.toInt = .error .valueError ∨ ts.toInt = .error .typeError) ∧
    ∃ wall, text.fromisoformat (text.str ts) = some (.naive wall)

/-- The timestamp field of a legacy record. -/
def recordStamp (record : JsonObj) : Json := (record.get "datetime").or (record.get "timestamp")

def Offsetless (text : Text) (record : JsonObj) : Prop := OffsetlessText text (recordStamp record)

/-- Converting the record raises nothing: its key is text, and `int()` takes or refuses its
time in a way that the constructor catches, unless no alert is built from it. -/
def legacyReadable (record : JsonObj) : Bool :=
  match record.getD "key" (.str "") with
  | .str k => (classifyKey k).isNone || !(recordStamp record).isInfinity
  | _ => false

/-- The loop over the records builds an alert from this one: no record before it raises, and
its key has a category. -/
def Converted (records : List JsonObj) (record : JsonObj) : Prop :=
  ∃ pre post c, records = pre ++ record :: post ∧ (∀ r ∈ pre, legacyReadable r = true) ∧
    classifyEventKey (record.getD "key" (.str "")) (.str "") = .ok (some c)

theorem fromTimestampMs_aware {ms : Int} {d : DateTime} (h : fromTimestampMs ms = some d) :
    d.isAware = true := by
  unfold fromTimestampMs at h
  split at h
  · obtain rfl := Option.some.inj h
    rfl
  · cases h

theorem fromTimestampMs_getD_aware (ms : Int) (now : Instant) :
    ((fromTimestampMs ms).getD (.aware now)).isAware = true := by
  cases h : fromTimestampMs ms with
  | none => rfl
  | some d => exact fromTimestampMs_aware h

theorem systemLogReceivedAt_aware (now : Instant) (ts : Json) :
    (UniFiAlert.systemLogReceivedAt now ts).isAware = true := by
  unfold UniFiAlert.systemLogReceivedAt
  split
  · rfl
  · split
    · exact fromTimestampMs_getD_aware _ _
    · rfl

theorem getD_aware {d : Option DateTime} {now : Instant} (h : ∀ wall, d ≠ some (.naive wall)) :
    (d.getD (.aware now)).isAware = true := by
  rcases d with _ | d
  · rfl
  · cases d with
    | naive wall => exact absurd rfl (h wall)
    | aware utc => rfl

theorem apiReceivedAt_aware_iff {text : Text} {now : Instant} {ts : Json} :
    (∀ d, UniFiAlert.apiReceivedAt text now ts = .ok d → d.isAware = true) ↔
      ¬OffsetlessText text ts := by
  constructor
  · rintro h ⟨hnull, herr, wall, hwall⟩
    have hnaive : UniFiAlert.apiReceivedAt text now ts = .ok (.naive wall) := by
      unfold UniFiAlert.apiReceivedAt
      split
      · exact absurd rfl hnull
      · rcases herr with herr | herr <;> simp [herr, hwall]
    cases h _ hnaive
  · intro hnot d hd
    unfold UniFiAlert.apiReceivedAt at hd
    split at hd
    · obtain rfl := Except.ok.inj hd
      rfl
    · rename_i hnull
      split at hd
      · obtain rfl := Except.ok.inj hd
        exact fromTimestampMs_getD_aware _ _
      · rename_i herr
        obtain rfl := Except.ok.inj hd
        exact getD_aware fun wall hwall => hnot ⟨hnull, Or.inl herr, wall, hwall⟩
      · rename_i herr
        obtain rfl := Except.ok.inj hd
        exact getD_aware fun wall hwall => hnot ⟨hnull, Or.inr herr, wall, hwall⟩
      · cases hd

/-- The legacy constructor gives aware alerts exactly on records that are not
`Offsetless`. -/
theorem fromApiAlarm_aware_iff {text : Text} {now : Instant} {record : JsonObj} :
    (∀ category a, UniFiAlert.fromApiAlarm text now category record = .ok a →
      a.receivedAt.isAware = true) ↔ ¬Offsetless text record := by
  unfold Offsetless
  rw [← @apiReceivedAt_aware_iff text now]
  constructor
  · intro h d hd
    have hok := h "" _ (bind_eq_ok.mpr ⟨d, hd, rfl⟩)
    exact hok
  · intro h category a ha
    obtain ⟨d, hd, ha⟩ := bind_eq_ok.mp ha
    obtain rfl := Except.ok.inj ha
    exact h d hd

theorem Offsetless.naive {text : Text} {record : JsonObj} (h : Offsetless text record)
    (now : Instant) (category : String) :
    ∃ a, UniFiAlert.fromApiAlarm text now category record = .ok a ∧
      a.receivedAt.isAware = false := by
  have hnot := mt (@apiReceivedAt_aware_iff text now (recordStamp record)).mp (not_not.mpr h)
  simp only [not_forall, Bool.not_eq_true] at hnot
  obtain ⟨d, hd, hnaive⟩ := hnot
  exact ⟨_, bind_eq_ok.mpr ⟨d, hd, rfl⟩, hnaive⟩

theorem fromSystemLogEvent_aware {text : Text} {now : Instant} {event : JsonObj}
    {seen seen' : List String} {a : UniFiAlert}
    (h : UniFiAlert.fromSystemLogEvent text now event seen = .ok (a, seen')) :
    a.receivedAt.isAware = true := by
  obtain ⟨message, -, h⟩ := bind_eq_ok.mp h
  obtain ⟨keyCategory, -, h⟩ := bind_eq_ok.mp h
  obtain ⟨enumCategory, -, h⟩ := bind_eq_ok.mp h
  have haware := systemLogReceivedAt_aware now (event.get "timestamp")
  cases keyCategory <;> cases enumCategory <;>
    · obtain ⟨rfl, -⟩ := Prod.mk.inj (Except.ok.inj h)
      exact haware

theorem fromWebhookPayload_aware {text : Text} {now : Instant} {category : String}
    {payload : Json} {a : UniFiAlert}
    (h : UniFiAlert.fromWebhookPayload text now category payload = .ok a) :
    a.receivedAt.isAware = true := by
  obtain ⟨p, -, h⟩ := bind_eq_ok.mp h
  rw [← Except.ok.inj h]
  rfl

/-! ## One legacy record -/

/-- The alert of a legacy record; `none` when its key has no category. -/
def recordAlert (text : Text) (now : Instant) (record : JsonObj) :
    Except Exc (Option UniFiAlert) := do
  match ← classifyEventKey (record.getD "key" (.str "")) (.str "") with
  | none => return none
  | some c => return some (← UniFiAlert.fromApiAlarm text now c.name record)

theorem fromApiAlarm_category {text : Text} {now : Instant} {category : String}
    {record : JsonObj} {a : UniFiAlert}
    (h : UniFiAlert.fromApiAlarm text now category record = .ok a) : a.category = category := by
  obtain ⟨receivedAt, -, h⟩ := bind_eq_ok.mp h
  rw [← Except.ok.inj h]

theorem recordAlert_category {text : Text} {now : Instant} {record : JsonObj} {a : UniFiAlert}
    (h : recordAlert text now record = .ok (some a)) : ∃ c : Category, a.category = c.name := by
  obtain ⟨found, -, h⟩ := bind_eq_ok.mp h
  cases found with
  | none => cases h
  | some c =>
      obtain ⟨b, hb, h⟩ := bind_eq_ok.mp h
      obtain rfl := Option.some.inj (Except.ok.inj h)
      exact ⟨c, fromApiAlarm_category hb⟩

/-! One round of the legacy loop, by what becomes of its record. -/

section

variable {net : Net} {record : JsonObj}

theorem categoriseLoop_error {e : Exc} (h : recordAlert net.text net.now record = .error e)
    (records : List JsonObj) (categorised : Categorised) (s : ClientState) :
    (categoriseLoop net (record :: records) categorised s).1 = .error (.py e) := by
  rw [categoriseLoop]
  unfold recordAlert at h
  cases hkey : classifyEventKey (record.getD "key" (.str "")) (.str "") with
  | error e' =>
      rw [hkey] at h
      obtain rfl := Except.error.inj h
      rfl
  | ok found =>
      rw [hkey, ok_bind] at h
      cases found with
      | none => cases h
      | some c =>
          dsimp only at h
          cases hbuilt : UniFiAlert.fromApiAlarm net.text net.now c.name record with
          | error e' =>
              rw [hbuilt] at h
              obtain rfl := Except.error.inj h
              rw [show ofPy (Except.ok (some c)) = .ok (some c) from rfl, Comp.lift_ok_bind]
              dsimp only
              rw [hbuilt]
              rfl
          | ok a =>
              rw [hbuilt, ok_bind] at h
              cases h

/-- A record without a category has a string for a key, which is counted. -/
theorem categoriseLoop_none (h : recordAlert net.text net.now record = .ok none)
    (records : List JsonObj) (categorised : Categorised) (s : ClientState) :
    ∃ key, record.getD "key" (.str "") = .str key ∧
      categoriseLoop net (record :: records) categorised s =
        categoriseLoop net records categorised (if key != "" then
          { s with unrecognisedKeys := bump s.unrecognisedKeys key } else s) := by
  obtain ⟨found, hclass, h⟩ := bind_eq_ok.mp h
  cases found with
  | none =>
      cases hkey : record.getD "key" (.str "") with
      | str key =>
          refine ⟨key, rfl, ?_⟩
          rw [categoriseLoop]
          dsimp only
          rw [hclass, show ofPy (Except.ok (none : Option Category)) = .ok none from rfl,
            Comp.lift_ok_bind, hkey]
          dsimp only
          split <;> rfl
      | _ =>
          rw [hkey] at hclass
          cases hclass
  | some c =>
      obtain ⟨a, -, h⟩ := bind_eq_ok.mp h
      cases h

theorem categoriseLoop_some {a : UniFiAlert}
    (h : recordAlert net.text net.now record = .ok (some a))
    (records : List JsonObj) (categorised : Categorised) (s : ClientState) :
    categoriseLoop net (record :: records) categorised s =
      categoriseLoop net records (categorised.append a.category a) s := by
  rw [categoriseLoop]
  unfold recordAlert at h
  obtain ⟨found, hkey, h⟩ := bind_eq_ok.mp h
  rw [hkey]
  cases found with
  | none => cases h
  | some c =>
      obtain ⟨b, hbuilt, h⟩ := bind_eq_ok.mp h
      obtain rfl := Option.some.inj (Except.ok.inj h)
      rw [show ofPy (Except.ok (some c)) = .ok (some c) from rfl, Comp.lift_ok_bind]
      dsimp only
      rw [hbuilt, show ofPy (Except.ok b) = .ok b from rfl, Comp.lift_ok_bind,
        fromApiAlarm_category hbuilt]

end

theorem apiReceivedAt_ok_iff {text : Text} {now : Instant} {ts : Json} :
    (∃ d, UniFiAlert.apiReceivedAt text now ts = .ok d) ↔ ts.isInfinity = false := by
  rw [← Bool.not_eq_true, ← Json.toInt_overflow_iff]
  unfold UniFiAlert.apiReceivedAt
  split
  · exact iff_of_true ⟨_, rfl⟩ (by simp [Json.toInt])
  · split
    · rename_i n hn
      exact iff_of_true ⟨_, rfl⟩ (by simp [hn])
    · rename_i hvalue
      exact iff_of_true ⟨_, rfl⟩ (by simp [hvalue])
    · rename_i htype
      exact iff_of_true ⟨_, rfl⟩ (by simp [htype])
    · rename_i e hvalue htype he
      refine iff_of_false ?_ (not_not.mpr ?_)
      · rintro ⟨d, h⟩
        cases h
      rcases Json.toInt_error he with rfl | rfl | rfl
      · exact (hvalue rfl).elim
      · exact (htype rfl).elim
      · exact he

theorem fromApiAlarm_ok_iff {text : Text} {now : Instant} {category : String}
    {record : JsonObj} : (∃ a, UniFiAlert.fromApiAlarm text now category record = .ok a) ↔
      (recordStamp record).isInfinity = false := by
  rw [← @apiReceivedAt_ok_iff text now]
  constructor
  · rintro ⟨a, h⟩
    obtain ⟨d, hd, -⟩ := bind_eq_ok.mp h
    exact ⟨d, hd⟩
  · rintro ⟨d, hd⟩
    exact ⟨_, bind_eq_ok.mpr ⟨d, hd, rfl⟩⟩

/-- Whether a record can be converted does not depend on the time of the poll. -/
theorem recordAlert_ok_iff {text : Text} {now : Instant} {record : JsonObj} :
    (∃ found, recordAlert text now record = .ok found) ↔ legacyReadable record = true := by
  unfold recordAlert legacyReadable classifyEventKey
  cases record.getD "key" (.str "") with
  | str k =>
      dsimp only
      cases classifyKey k with
      | none => exact iff_of_true ⟨none, rfl⟩ rfl
      | some c =>
          rw [ok_bind, Option.isNone_some, Bool.false_or, Bool.not_eq_true',
            ← @fromApiAlarm_ok_iff text now c.name]
          constructor
          · rintro ⟨found, h⟩
            obtain ⟨a, ha, -⟩ := bind_eq_ok.mp h
            exact ⟨a, ha⟩
          · rintro ⟨a, ha⟩
            exact ⟨some a, bind_eq_ok.mpr ⟨a, ha, rfl⟩⟩
  | _ => exact iff_of_false (fun ⟨_, h⟩ => by cases h) Bool.false_ne_true

theorem recordAlert_some_iff {text : Text} {now : Instant} {record : JsonObj} {a : UniFiAlert} :
    recordAlert text now record = .ok (some a) ↔
      ∃ c, classifyEventKey (record.getD "key" (.str "")) (.str "") = .ok (some c) ∧
        UniFiAlert.fromApiAlarm text now c.name record = .ok a := by
  unfold recordAlert
  constructor
  · intro h
    obtain ⟨found, hclass, h⟩ := bind_eq_ok.mp h
    cases found with
    | none => cases h
    | some c =>
        obtain ⟨b, hb, h⟩ := bind_eq_ok.mp h
        obtain rfl := Option.some.inj (Except.ok.inj h)
        exact ⟨c, hclass, hb⟩
  · rintro ⟨c, hclass, ha⟩
    exact bind_eq_ok.mpr ⟨some c, hclass, bind_eq_ok.mpr ⟨a, ha, rfl⟩⟩

/-! ## Raw inputs -/

inductive Input
  | legacy (records : List JsonObj)
  | systemLog (events : List JsonObj)
  | webhook (category : String) (payload : Json)
  | clearCategory (category : String)
  | clearAll
  | autoClear (c : Category)

structure TimedInput where
  now : Reading
  input : Input

namespace Input

def records : Input → List JsonObj
  | .legacy records => records
  | _ => []

/-- The alerts that the loop over legacy records builds: it passes over a record of no
category, and ends at one that raises. -/
def legacyAlerts (text : Text) (now : Instant) : List JsonObj → List UniFiAlert
  | [] => []
  | record :: records =>
    match recordAlert text now record with
    | .error _ => []
    | .ok none => legacyAlerts text now records
    | .ok (some alert) => alert :: legacyAlerts text now records

/-- The alerts that the loop over v2 events builds, also those of no category. -/
def systemLogAlerts (text : Text) (now : Instant) : List JsonObj → List String → List UniFiAlert
  | [], _ => []
  | event :: events, seen =>
    match UniFiAlert.fromSystemLogEvent text now event seen with
    | .error _ => []
    | .ok (alert, seen') => alert :: systemLogAlerts text now events seen'

/-- Every alert that the conversion of the input builds, at wall time `now`. -/
def constructed (text : Text) (now : Instant) (coord : Coordinator) : Input → List UniFiAlert
  | .legacy records => legacyAlerts text now records
  | .systemLog events => systemLogAlerts text now events coord.seenUnknownKeys
  | .webhook category payload =>
    match UniFiAlert.fromWebhookPayload text now category payload with
    | .ok alert => [alert]
    | .error _ => []
  | _ => []

/-- The alert is what a constructor makes of one of the input's records. -/
def MadeFrom (text : Text) (now : Instant) (a : UniFiAlert) : Input → Prop
  | .legacy records => ∃ record ∈ records, ∃ category,
      UniFiAlert.fromApiAlarm text now category record = .ok a
  | .systemLog events => ∃ event ∈ events, ∃ seen seen',
      UniFiAlert.fromSystemLogEvent text now event seen = .ok (a, seen')
  | .webhook category payload => UniFiAlert.fromWebhookPayload text now category payload = .ok a
  | _ => False

/-- The interpreter and the clock of a conversion; it sends nothing. -/
def offline (text : Text) (now : Instant) : Net where
  text
  base := ""
  now
  respond _ _ := .timeout

/-- Convert the input: the coordinator with its key records updated, and the
operation to perform, none when the conversion raised. -/
def convert (text : Text) (now : Instant) (coord : Coordinator) :
    Input → Coordinator × Option Op
  | .legacy records =>
    match Coordinator.onClient (categoriseLoop (offline text now) records []) coord with
    | (.ok categorised, coord) => (coord, some (.poll categorised))
    | (.error _, coord) => (coord, none)
  | .systemLog events =>
    match Coordinator.groupEvents (offline text now) events [] coord with
    | (.ok categorised, coord) => (coord, some (.poll categorised))
    | (.error _, coord) => (coord, none)
  | .webhook category payload =>
    match UniFiAlert.fromWebhookPayload text now category payload with
    | .ok alert => (coord, some (.push category alert))
    | .error _ => (coord, none)
  | .clearCategory category => (coord, some (.clearCategory category))
  | .clearAll => (coord, some .clearAll)
  | .autoClear c => (coord, some (.autoClear c))

theorem forall_append {P : UniFiAlert → Prop} {k : String} {a : UniFiAlert} (ha : P a) :
    ∀ {categorised : Categorised}, (∀ b ∈ categorised.flatMap Prod.snd, P b) →
      ∀ b ∈ (categorised.append k a).flatMap Prod.snd, P b
  | [], _ => by simpa [Categorised.append] using ha
  | (k', alerts) :: rest, h => by
      simp only [List.flatMap_cons, List.forall_mem_append] at h
      unfold Categorised.append
      split
      · simp only [List.flatMap_cons, List.forall_mem_append]
        exact ⟨⟨h.1, by simpa using ha⟩, h.2⟩
      · simp only [List.flatMap_cons, List.forall_mem_append]
        exact ⟨h.1, forall_append ha h.2⟩

theorem categoriseLoop_forall {P : UniFiAlert → Prop} (net : Net) :
    ∀ (records : List JsonObj) (result : Categorised) (s : ClientState),
      (∀ a ∈ legacyAlerts net.text net.now records, P a) →
      (∀ a ∈ result.flatMap Prod.snd, P a) →
      ∀ grouped, (categoriseLoop net records result s).1 = .ok grouped →
        ∀ a ∈ grouped.flatMap Prod.snd, P a
  | [], _, _, _, hr, _, hgrouped => by
      obtain rfl := Except.ok.inj hgrouped
      exact hr
  | record :: records, result, s, hP, hr, grouped, hgrouped => by
      have ih := categoriseLoop_forall (P := P) net records
      rw [legacyAlerts] at hP
      cases hrec : recordAlert net.text net.now record with
      | error e =>
          rw [categoriseLoop_error hrec] at hgrouped
          cases hgrouped
      | ok found =>
          rw [hrec] at hP
          cases found with
          | none =>
              obtain ⟨key, -, hnone⟩ := categoriseLoop_none hrec records result s
              rw [hnone] at hgrouped
              exact ih _ _ hP hr grouped hgrouped
          | some a =>
              rw [categoriseLoop_some hrec] at hgrouped
              obtain ⟨ha, hrest⟩ := List.forall_mem_cons.mp hP
              exact ih _ _ hrest (forall_append ha hr) grouped hgrouped

theorem groupEvents_forall {P : UniFiAlert → Prop} (net : Net) :
    ∀ (events : List JsonObj) (result : Categorised) (s : Coordinator),
      (∀ a ∈ systemLogAlerts net.text net.now events s.seenUnknownKeys, P a) →
      (∀ a ∈ result.flatMap Prod.snd, P a) →
      Comp.wp (Coordinator.groupEvents net events result)
        (fun result _ => ∀ a ∈ result.flatMap Prod.snd, P a) (fun _ _ => True) s
  | [], _, _, _, hr => hr
  | event :: events, result, s, hP, hr => by
      have ih := groupEvents_forall (P := P) net events
      unfold Coordinator.groupEvents
      rw [Comp.wp_bind, Comp.wp_gets, Comp.wp_bind, Comp.wp_lift]
      refine ⟨fun r hx => ?_, fun _ _ => trivial⟩
      obtain ⟨alert, seen'⟩ := r
      rw [systemLogAlerts] at hP
      cases hy : UniFiAlert.fromSystemLogEvent net.text net.now event s.seenUnknownKeys with
      | error e =>
          rw [hy] at hx
          cases hx
      | ok built =>
          rw [hy] at hx hP
          obtain rfl := Except.ok.inj hx
          obtain ⟨halert, hrest⟩ := List.forall_mem_cons.mp hP
          rw [Comp.wp_bind, Comp.wp_update]
          dsimp only
          split
          · split
            · split
              · rw [Comp.wp_bind, Comp.wp_update]
                exact ih _ _ hrest hr
              · exact ih _ _ hrest hr
            · exact ih _ _ hrest hr
          · exact ih _ _ hrest (forall_append halert hr)

/-- What holds of every alert that the conversion builds holds of every alert that the
operation carries. -/
theorem convert_alerts {text : Text} {now : Instant} {coord coord' : Coordinator} {input : Input}
    {op : Op} (h : input.convert text now coord = (coord', some op)) {P : UniFiAlert → Prop}
    (hP : ∀ a ∈ input.constructed text now coord, P a) : ∀ a ∈ op.alerts, P a := by
  cases input with
  | legacy records =>
      have hloop := categoriseLoop_forall (P := P) (offline text now) records [] coord.client hP
        (by simp)
      simp only [convert, Coordinator.onClient, Comp.zoom] at h
      rcases hx : categoriseLoop (offline text now) records [] coord.client with ⟨r, s⟩
      rw [hx] at h hloop
      cases r with
      | ok categorised =>
          obtain rfl := Option.some.inj (Prod.mk.inj h).2
          exact hloop categorised rfl
      | error e => cases (Prod.mk.inj h).2
  | systemLog events =>
      have hloop := Comp.wp_iff_run.mp (groupEvents_forall (P := P) (offline text now) events []
        coord hP (by simp))
      simp only [convert] at h
      rcases hx : Coordinator.groupEvents (offline text now) events [] coord with ⟨r, s⟩
      rw [hx] at h hloop
      cases r with
      | ok categorised =>
          obtain rfl := Option.some.inj (Prod.mk.inj h).2
          exact hloop.1 categorised rfl
      | error e => cases (Prod.mk.inj h).2
  | webhook category payload =>
      simp only [convert] at h
      cases hx : UniFiAlert.fromWebhookPayload text now category payload with
      | error e =>
          rw [hx] at h
          cases (Prod.mk.inj h).2
      | ok alert =>
          rw [hx] at h
          obtain rfl := Option.some.inj (Prod.mk.inj h).2
          rw [constructed, hx] at hP
          exact hP
  | _ =>
      obtain rfl := Option.some.inj (Prod.mk.inj h).2
      intro a ha
      cases ha

theorem mem_legacyAlerts_iff {text : Text} {now : Instant} {a : UniFiAlert} :
    ∀ {records : List JsonObj}, a ∈ legacyAlerts text now records ↔
      ∃ record, (∃ pre post, records = pre ++ record :: post ∧ ∀ r ∈ pre, legacyReadable r = true) ∧
        recordAlert text now record = .ok (some a)
  | [] => by simp [legacyAlerts]
  | record :: records => by
      have ih := @mem_legacyAlerts_iff text now a records
      have hreadable := @recordAlert_ok_iff text now record
      -- a record is reached when it comes first, or the first one does not raise
      have hreached : (∃ r, (∃ pre post, record :: records = pre ++ r :: post ∧
            ∀ r' ∈ pre, legacyReadable r' = true) ∧ recordAlert text now r = .ok (some a)) ↔
          recordAlert text now record = .ok (some a) ∨ legacyReadable record = true ∧
            ∃ r, (∃ pre post, records = pre ++ r :: post ∧
              ∀ r' ∈ pre, legacyReadable r' = true) ∧ recordAlert text now r = .ok (some a) := by
        constructor
        · rintro ⟨r, ⟨pre, post, heq, hpre⟩, hr⟩
          cases pre with
          | nil =>
              obtain ⟨rfl, -⟩ := List.cons.inj heq
              exact Or.inl hr
          | cons p pre =>
              obtain ⟨rfl, rfl⟩ := List.cons.inj heq
              obtain ⟨hp, hpre⟩ := List.forall_mem_cons.mp hpre
              exact Or.inr ⟨hp, r, ⟨pre, post, rfl, hpre⟩, hr⟩
        · rintro (hr | ⟨hp, r, ⟨pre, post, rfl, hpre⟩, hr⟩)
          · exact ⟨record, ⟨[], records, rfl, by simp⟩, hr⟩
          · exact ⟨r, ⟨record :: pre, post, rfl, List.forall_mem_cons.mpr ⟨hp, hpre⟩⟩, hr⟩
      rw [hreached, ← ih, legacyAlerts, ← hreadable]
      cases hrec : recordAlert text now record with
      | error e => simp
      | ok found =>
          cases found with
          | none => simp
          | some b =>
              dsimp only
              rw [List.mem_cons]
              refine or_congr ⟨fun h => h ▸ rfl, fun h => ?_⟩ (by simp)
              exact (Option.some.inj (Except.ok.inj h)).symm

/-- The legacy loop builds aware alerts exactly when none of the records that it converts is
offsetless. -/
theorem legacyAlerts_aware_iff {text : Text} {now : Instant} {records : List JsonObj} :
    (∀ a ∈ legacyAlerts text now records, a.receivedAt.isAware = true) ↔
      ∀ record, Converted records record → ¬Offsetless text record := by
  constructor
  · rintro haware record ⟨pre, post, c, hsplit, hpre, hclass⟩ hoffset
    obtain ⟨a, ha, hnaive⟩ := hoffset.naive now c.name
    have hmem := mem_legacyAlerts_iff.mpr
      ⟨record, ⟨pre, post, hsplit, hpre⟩, recordAlert_some_iff.mpr ⟨c, hclass, ha⟩⟩
    rw [haware a hmem] at hnaive
    cases hnaive
  · intro hoffset a ha
    obtain ⟨record, ⟨pre, post, hsplit, hpre⟩, ha⟩ := mem_legacyAlerts_iff.mp ha
    obtain ⟨c, hclass, ha⟩ := recordAlert_some_iff.mp ha
    exact fromApiAlarm_aware_iff.mpr (hoffset record ⟨pre, post, c, hsplit, hpre, hclass⟩) _ a ha

theorem systemLogAlerts_made {text : Text} {now : Instant} {a : UniFiAlert} :
    ∀ {events : List JsonObj} {seen : List String}, a ∈ systemLogAlerts text now events seen →
      ∃ event ∈ events, ∃ seen seen',
        UniFiAlert.fromSystemLogEvent text now event seen = .ok (a, seen')
  | event :: events, seen, h => by
      rw [systemLogAlerts] at h
      cases hbuilt : UniFiAlert.fromSystemLogEvent text now event seen with
      | error e =>
          rw [hbuilt] at h
          cases h
      | ok built =>
          rw [hbuilt] at h
          rcases List.mem_cons.mp h with rfl | h
          · exact ⟨event, List.mem_cons_self, seen, built.2, hbuilt⟩
          · obtain ⟨event', hevent, hmade⟩ := systemLogAlerts_made h
            exact ⟨event', List.mem_cons_of_mem _ hevent, hmade⟩

/-- Every alert that is built is made from a record. -/
theorem madeFrom_of_constructed {text : Text} {now : Instant} {coord : Coordinator}
    {input : Input} {a : UniFiAlert} (h : a ∈ input.constructed text now coord) :
    input.MadeFrom text now a := by
  cases input with
  | legacy records =>
      obtain ⟨record, ⟨pre, post, rfl, -⟩, ha⟩ := mem_legacyAlerts_iff.mp h
      obtain ⟨c, -, ha⟩ := recordAlert_some_iff.mp ha
      exact ⟨record, by simp, c.name, ha⟩
  | systemLog events => exact systemLogAlerts_made h
  | webhook category payload =>
      simp only [constructed] at h
      split at h
      · rename_i alert hbuilt
        obtain rfl := List.mem_singleton.mp h
        exact hbuilt
      · cases h
  | _ => cases h

/-- Only the legacy loop can build a naive alert. -/
theorem constructed_aware_iff {text : Text} {now : Instant} {coord : Coordinator}
    {input : Input} : (∀ a ∈ input.constructed text now coord, a.receivedAt.isAware = true) ↔
      ∀ record, Converted input.records record → ¬Offsetless text record := by
  have hnone : ∀ record, ¬Converted [] record := by
    rintro record ⟨pre, post, c, hsplit, -⟩
    cases pre <;> cases hsplit
  cases input with
  | legacy records => exact legacyAlerts_aware_iff
  | systemLog events =>
      refine iff_of_true (fun a ha => ?_) fun record h => absurd h (hnone record)
      obtain ⟨event, -, seen, seen', ha⟩ := systemLogAlerts_made ha
      exact fromSystemLogEvent_aware ha
  | webhook category payload =>
      refine iff_of_true (fun a ha => ?_) fun record h => absurd h (hnone record)
      exact fromWebhookPayload_aware (madeFrom_of_constructed ha)
  | _ => exact iff_of_true (fun a ha => by cases ha) fun record h => absurd h (hnone record)

theorem convert_states {text : Text} {now : Instant} (coord : Coordinator) (input : Input) :
    (input.convert text now coord).1.states = coord.states := by
  cases input with
  | legacy records =>
      have h := @Coordinator.onClient_keeps _ _ Coordinator.states (fun _ _ => rfl)
        (categoriseLoop (offline text now) records []) coord
      unfold convert
      dsimp only
      rcases hx : Coordinator.onClient (categoriseLoop (offline text now) records []) coord with
        ⟨r, s⟩
      rw [hx] at h
      cases r <;> exact h
  | systemLog events =>
      have h := @Coordinator.groupEvents_keeps _ Coordinator.states (fun _ _ => rfl)
        (fun _ _ => rfl)
        (offline text now) events [] coord
      unfold convert
      dsimp only
      rcases hx : Coordinator.groupEvents (offline text now) events [] coord with ⟨r, s⟩
      rw [hx] at h
      cases r <;> exact h
  | webhook category payload =>
      unfold convert
      dsimp only
      split <;> rfl
  | _ => rfl

end Input

/-! ## Comparisons over a run -/

namespace Coordinator

def inputTurn (text : Text) (config : UniFiClientConfig) (coord : Coordinator) (t : TimedInput) :
    Turn :=
  match t.input.convert text t.now.wall coord with
  | (coord, some op) => turn config coord ⟨t.now, op⟩
  | (coord, none) => { coord }

def inputStep (text : Text) (config : UniFiClientConfig) (coord : Coordinator) (t : TimedInput) :
    Coordinator := (inputTurn text config coord t).coord

/-- Every timestamp that a comparison can read is aware. -/
structure AllTimesAware (coord : Coordinator) : Prop where
  marks : AwareMarks coord
  alerts : ∀ c a, (coord.states c).lastAlert = some a → a.receivedAt.isAware = true

/-- The times of a category that comparisons read are aware: the watermark, that of the
last alert, and the webhook time. -/
structure TimesAware (st : CategoryState) : Prop where
  lastClearedAt : AwareMark st.lastClearedAt
  lastAlert : ∀ a, st.lastAlert = some a → a.receivedAt.isAware = true
  lastWebhookAt : AwareMark st.lastWebhookAt

theorem allTimesAware_fresh (config : UniFiClientConfig) : AllTimesAware (.fresh config) :=
  ⟨awareMarks_fresh config, fun _ _ h => nomatch h⟩

theorem AllTimesAware.step {coord : Coordinator} (h : AllTimesAware coord)
    (config : UniFiClientConfig) {t : TimedOp} (ht : t.op.Aware) :
    AllTimesAware (step config coord t) := by
  refine ⟨h.marks.step config t, fun c a hlast => ?_⟩
  rcases step_state config coord t c with ⟨-, hst⟩ | ⟨-, hm⟩
  · rw [hst] at hlast
    exact h.alerts c a hlast
  · rcases hm.lastAlert with hsame | ⟨b, hb, hnew⟩
    · exact h.alerts c a (hsame ▸ hlast)
    · rw [hnew] at hlast
      obtain rfl := Option.some.inj hlast
      exact ht b hb

theorem pushAlert_raised {config : UniFiClientConfig} {coord : Coordinator} {mono : ℚ}
    {category : String} {alert : UniFiAlert} (hmarks : AwareMarks coord)
    (ha : alert.receivedAt.isAware = true) :
    (pushAlert config coord mono category alert).raised = none := by
  unfold pushAlert
  split
  · rename_i e hv
    have hok : ∃ v, pushVerdict config coord mono category alert = .ok v := by
      rw [pushVerdict_eq]
      exact ⟨_, rfl⟩
    obtain ⟨v, hv'⟩ := hok
    rw [hv'] at hv
    cases hv
  · rfl
  · rename_i c _
    dsimp only
    have hlast : (acceptPush (coord.states c) alert).lastClearedAt =
        (coord.states c).lastClearedAt := rfl
    rw [hlast]
    cases hw : (coord.states c).lastClearedAt with
    | none => rfl
    | some w =>
        have hgt := @DateTime.gt_eq alert.receivedAt w (by rw [ha, hmarks c w hw])
        simp only [hgt]
  · rfl

theorem turn_raised {config : UniFiClientConfig} {coord : Coordinator} {t : TimedOp}
    (hmarks : AwareMarks coord) (ht : t.op.Aware) : (turn config coord t).raised = none := by
  obtain ⟨now, op⟩ := t
  cases op with
  | fetch net => rfl
  | poll categorised => exact applyPoll_raised hmarks ht
  | push category alert => exact pushAlert_raised hmarks (ht alert (List.mem_singleton.mpr rfl))
  | clearCategory category =>
      simp only [turn, clearCategory]
      split <;> rfl
  | clearAll => rfl
  | autoClear c =>
      simp only [turn, autoClear]
      split <;> rfl

theorem rollupLastAlert_ok {coord : Coordinator} (h : AllTimesAware coord) :
    ∃ last, rollupLastAlert coord = .ok last :=
  rollupLastAlert_ok_iff.mpr fun c d a b _ _ ha hb => (h.alerts c a ha).trans (h.alerts d b hb).symm

theorem timesAware_step {coord : Coordinator} (h : ∀ c, TimesAware (coord.states c))
    (config : UniFiClientConfig) {t : TimedOp} (ht : t.op.Aware) (c : Category) :
    TimesAware ((step config coord t).states c) := by
  have hall : AllTimesAware coord := ⟨fun c => (h c).lastClearedAt, fun c => (h c).lastAlert⟩
  have hstep := hall.step config ht
  refine ⟨hstep.marks c, hstep.alerts c, ?_⟩
  rcases step_state config coord t c with ⟨-, hst⟩ | ⟨-, hm⟩
  · rw [hst]
    exact (h c).lastWebhookAt
  · rcases hm.lastWebhookAt with hsame | ⟨a, ha, hnew⟩
    · rw [hsame]
      exact (h c).lastWebhookAt
    · intro d hd
      obtain rfl := Option.some.inj (hnew.symm.trans hd)
      exact ht a ha

/-- No listener raises on aware times. -/
theorem updateListeners_of_timesAware {coord : Coordinator}
    (h : ∀ c, TimesAware (coord.states c)) (text : Text) (now : Instant) (xs : List Entity) :
    updateListeners text now coord xs = (xs, .ok ()) := by
  refine updateListeners_of_readable fun x _ => ?_
  cases x with
  | categoryBinarySensor c => exact fun _ => (h c).lastWebhookAt
  | webhookHealthSensor c => exact fun _ => (h c).lastWebhookAt
  | rollupBinarySensor =>
      exact fun c d a b _ _ ha hb => ((h c).lastAlert a ha).trans ((h d).lastAlert b hb).symm
  | rollupCountSensor =>
      exact fun c d a b _ _ ha hb => ((h c).lastAlert a ha).trans ((h d).lastAlert b hb).symm
  | _ => trivial

/-- One input whose alerts are all aware raises nothing and keeps the times aware. -/
theorem AllTimesAware.input {coord : Coordinator} (h : AllTimesAware coord) (text : Text)
    (config : UniFiClientConfig) {t : TimedInput}
    (ht : ∀ a ∈ t.input.constructed text t.now.wall coord, a.receivedAt.isAware = true) :
    (inputTurn text config coord t).raised = none ∧
      AllTimesAware (inputStep text config coord t) := by
  have hstates := @Input.convert_states text t.now.wall coord t.input
  unfold inputStep inputTurn
  rcases hx : t.input.convert text t.now.wall coord with ⟨coord', op⟩
  rw [hx] at hstates
  have h' : AllTimesAware coord' :=
    ⟨fun c => by rw [hstates]; exact h.marks c, fun c => by rw [hstates]; exact h.alerts c⟩
  cases op with
  | none => exact ⟨rfl, h'⟩
  | some op =>
      have hop : op.Aware := Input.convert_alerts hx ht
      exact ⟨turn_raised (t := ⟨t.now, op⟩) h'.marks hop, h'.step config (t := ⟨t.now, op⟩) hop⟩

end Coordinator

/-! ## The awareness contract -/

/-- Every alert that the run constructs is aware. -/
def ConstructedAware (text : Text) (config : UniFiClientConfig) (ts : List TimedInput) : Prop :=
  ∀ pre t post, ts = pre ++ t :: post →
    ∀ a ∈ t.input.constructed text t.now.wall
      (run (Coordinator.inputStep text config) (.fresh config) pre), a.receivedAt.isAware = true

/-- No poll or push of the run is aborted by a comparison, and the rollup can
be computed after every step. -/
def ComparesCleanly (text : Text) (config : UniFiClientConfig) (ts : List TimedInput) : Prop :=
  ∀ pre t post, ts = pre ++ t :: post →
    let coord := run (Coordinator.inputStep text config) (.fresh config) pre
    (Coordinator.inputTurn text config coord t).raised = none ∧
      ∃ last, Coordinator.rollupLastAlert (Coordinator.inputStep text config coord t) = .ok last

/-- Every constructed alert is aware, and no comparison of the run raises,
exactly when no legacy record that the run converts is offsetless. -/
theorem timestamps_aware_iff (text : Text) (config : UniFiClientConfig) (ts : List TimedInput) :
    (ConstructedAware text config ts ∧ ComparesCleanly text config ts) ↔
      ∀ t ∈ ts, ∀ record, Converted t.input.records record → ¬Offsetless text record := by
  constructor
  · rintro ⟨haware, -⟩ t ht
    obtain ⟨pre, post, hsplit⟩ := List.append_of_mem ht
    exact Input.constructed_aware_iff.mp (haware pre t post hsplit)
  · intro hoffset
    have haware : ∀ t ∈ ts, ∀ coord, ∀ a ∈ t.input.constructed text t.now.wall coord,
        a.receivedAt.isAware = true :=
      fun t ht coord => Input.constructed_aware_iff.mpr (hoffset t ht)
    refine ⟨fun pre t post hts => haware t (by rw [hts]; simp) _, fun pre t post hts => ?_⟩
    have hpre : (run (Coordinator.inputStep text config) (.fresh config) pre).AllTimesAware :=
      run_preserves_labels
        (P := fun t : TimedInput => ∀ coord, ∀ a ∈ t.input.constructed text t.now.wall coord,
          a.receivedAt.isAware = true)
        (fun coord t h ht => (h.input text config (ht coord)).2)
        (Coordinator.allTimesAware_fresh config)
        fun u hu => haware u (by rw [hts]; exact List.mem_append_left _ hu)
    have ht := hpre.input text config (haware t (by rw [hts]; simp) _)
    exact ⟨ht.1, Coordinator.rollupLastAlert_ok ht.2⟩

/-- After a clear, a legacy record with an offsetless ISO time aborts the poll. -/
theorem offsetless_record_raises :
    let text := Text.counting fun s =>
      if s = "2024-01-15T10:30:00" then some (.naive 1705314600000000) else none
    let record : JsonObj :=
      [("key", .str "EVT_GW_WANTransition"), ("datetime", .str "2024-01-15T10:30:00")]
    ¬ComparesCleanly text {} [⟨⟨1705310000000000, 0⟩, .clearCategory "network_wan"⟩,
      ⟨⟨1705314700000000, 1⟩, .legacy [record]⟩] := by
  intro text record h
  have hraised := (h [⟨⟨1705310000000000, 0⟩, .clearCategory "network_wan"⟩]
    ⟨⟨1705314700000000, 1⟩, .legacy [record]⟩ [] rfl).1
  have htype : (Coordinator.inputTurn text {}
      (run (Coordinator.inputStep text {}) (.fresh {})
        [⟨⟨1705310000000000, 0⟩, .clearCategory "network_wan"⟩])
      ⟨⟨1705314700000000, 1⟩, .legacy [record]⟩).raised = some .typeError := by
    decide +kernel
  rw [htype] at hraised
  cases hraised

end UnifiAlerts
