import UnifiAlerts.EventKeys
import UnifiAlerts.ShiftedFetch

/-!
# What becomes of every record

A record has one `Fate`: it is listed under a category, its key is
counted as unrecognised, or it has neither category nor key and is
dropped. `Conserved` says that a grouping did with each of its records
what its fate says, in their order; both grouping loops do
(`categoriseAlarms_conserves`, `groupEvents_conserves`).

The legacy loop counts into the client, from zero at each fetch, and the
poll adds its counts to the coordinator's; the v2 loop counts into the
coordinator. A poll is a `fetchBatch` followed by the grouping of what
was fetched (`fetchCategorised_batch`), so over a run of polls on both
paths the coordinator's count of a key is the number of batches' records
with that fate (`Tallied`).
-/

namespace UnifiAlerts

open Py Lib

/-! ## Fates -/

inductive Fate
  | listed (c : Category)
  | unrecognised (key : String)
  | dropped
deriving Repr, DecidableEq

/-- The fate of a record with the given enum. -/
def fateOf (record : JsonObj) (enum : Json) : Fate :=
  match classifyEventKey (record.getD "key" (.str "")) enum with
  | .ok (some c) => .listed c
  | _ =>
    match record.getD "key" (.str "") with
    | .str key => if key != "" then .unrecognised key else .dropped
    | _ => .dropped

/-- A legacy record carries no enum. -/
def recordFate (record : JsonObj) : Fate := fateOf record (.str "")

def eventFate (event : JsonObj) : Fate := fateOf event (event.getD "category" (.str ""))

/-- The name under which an alert of this fate is listed. -/
def Fate.name : Fate → String
  | .listed c => c.name
  | _ => ""

theorem Fate.name_eq_iff {fate : Fate} {c : Category} : fate.name = c.name ↔ fate = .listed c := by
  have hne := c.name_ne_empty
  cases fate with
  | listed d =>
      constructor
      · intro h
        rw [Category.name_injective h]
      · rintro h
        obtain rfl := Fate.listed.inj h
        rfl
  | _ => exact iff_of_false (fun h => hne h.symm) Fate.noConfusion

/-- Only a record without a key and without a category is dropped. -/
theorem fateOf_dropped {record : JsonObj} {enum : Json} {key : String}
    (hkey : record.getD "key" (.str "") = .str key) (h : fateOf record enum = .dropped) :
    key = "" ∧ ∀ c, classifyEventKey (.str key) enum ≠ .ok (some c) := by
  unfold fateOf at h
  rw [hkey] at h
  split at h
  · cases h
  · rename_i hnone
    split at h
    · rename_i k heq
      obtain rfl := Json.str.inj heq
      split at h
      · cases h
      · rename_i hempty
        exact ⟨by simpa using hempty, hnone⟩
    · rename_i hstr
      exact absurd rfl (hstr key)

/-! ## One record -/

section

variable {text : Text} {now : Instant} {record event : JsonObj}

theorem recordAlert_listed {c : Category} {found : Option UniFiAlert}
    (hfate : recordFate record = .listed c) (h : recordAlert text now record = .ok found) :
    ∃ a, found = some a ∧ UniFiAlert.fromApiAlarm text now c.name record = .ok a := by
  unfold recordFate fateOf at hfate
  unfold recordAlert at h
  split at hfate
  · rename_i c' hclass
    obtain rfl := Fate.listed.inj hfate
    rw [hclass, ok_bind] at h
    obtain ⟨a, ha, h⟩ := bind_eq_ok.mp h
    exact ⟨a, (Except.ok.inj h).symm, ha⟩
  · split at hfate
    · split at hfate <;> cases hfate
    · cases hfate

theorem recordAlert_some {a : UniFiAlert} (h : recordAlert text now record = .ok (some a)) :
    ∃ c, recordFate record = .listed c ∧ a.category = c.name := by
  unfold recordAlert at h
  obtain ⟨found, hclass, h⟩ := bind_eq_ok.mp h
  cases found with
  | none => cases h
  | some c =>
      obtain ⟨b, hb, h⟩ := bind_eq_ok.mp h
      obtain rfl := Option.some.inj (Except.ok.inj h)
      refine ⟨c, ?_, fromApiAlarm_category hb⟩
      unfold recordFate fateOf
      rw [hclass]

/-- The two lookups of a v2 event, one of the key and one of the enum. -/
theorem eventFate_of_lookups {keyCategory enumCategory : Option Category}
    (hkey : classifyEventKey (event.getD "key" (.str "")) (.str "") = .ok keyCategory)
    (henum : classifyEventKey (.str "") (event.getD "category" (.str "")) = .ok enumCategory) :
    (eventFate event).name = ((keyCategory.or enumCategory).map Category.name).getD "" := by
  rw [classifyEventKey_enum classifyKey_empty] at henum
  have hnone : classifyEnum (.str "") = .ok none := congrArg Except.ok fallback_empty
  unfold eventFate fateOf
  cases hk : event.getD "key" (.str "") with
  | str key =>
      rw [hk] at hkey
      unfold classifyEventKey at hkey ⊢
      dsimp only at hkey ⊢
      cases hclass : classifyKey key with
      | some c =>
          rw [hclass] at hkey
          obtain rfl := Except.ok.inj hkey
          rfl
      | none =>
          rw [hclass] at hkey
          dsimp only at hkey ⊢
          rw [hnone] at hkey
          obtain rfl := Except.ok.inj hkey
          rw [henum]
          cases enumCategory with
          | some c => rfl
          | none =>
              dsimp only
              split <;> rfl
  | _ =>
      rw [hk] at hkey
      cases hkey

theorem fromSystemLogEvent_fate {seenKeys : List String} {built : UniFiAlert × List String}
    (h : UniFiAlert.fromSystemLogEvent text now event seenKeys = .ok built) :
    built.1.category = (eventFate event).name := by
  obtain ⟨message, -, h⟩ := bind_eq_ok.mp h
  obtain ⟨keyCategory, hkey, h⟩ := bind_eq_ok.mp h
  obtain ⟨enumCategory, henum, h⟩ := bind_eq_ok.mp h
  rw [eventFate_of_lookups hkey henum, ← Except.ok.inj h]
  cases keyCategory with
  | some c => rfl
  | none =>
      cases enumCategory with
      | some c => rfl
      | none => rfl

theorem fromSystemLogEvent_key {seenKeys : List String} {built : UniFiAlert × List String}
    (h : UniFiAlert.fromSystemLogEvent text now event seenKeys = .ok built) :
    ∃ key, event.getD "key" (.str "") = .str key := by
  obtain ⟨message, -, h⟩ := bind_eq_ok.mp h
  obtain ⟨keyCategory, hkey, -⟩ := bind_eq_ok.mp h
  cases hk : event.getD "key" (.str "") with
  | str key => exact ⟨key, rfl⟩
  | _ =>
      rw [hk] at hkey
      cases hkey

theorem eventAlert_category {a : UniFiAlert} (h : eventAlert text now event = .ok a) :
    a.category = (eventFate event).name := by
  unfold eventAlert at h
  cases hbuilt : UniFiAlert.fromSystemLogEvent text now event [] with
  | error e =>
      rw [hbuilt] at h
      cases h
  | ok built =>
      rw [hbuilt] at h
      obtain rfl := Except.ok.inj h
      exact fromSystemLogEvent_fate hbuilt

end

/-! ## The grouped alerts -/

/-- The grouping did with each record what its fate says: the alerts under a category are
those of its records in their order, the unrecognised keys are counted, and what was
dropped has no key and no category. -/
structure Conserved (enum : JsonObj → Json) (build : Category → JsonObj → Except Exc UniFiAlert)
    (records : List JsonObj) (result : Categorised) (before after : String → Nat) : Prop where
  /-- The alerts of a category are those of its records, in their order. -/
  listed : ∀ c, List.Forall₂ (fun record a => build c record = .ok a)
    (records.filter fun record => fateOf record (enum record) == .listed c) (result.alertsFor c)
  named : ∀ k ∈ result.keys, k ∈ allCategories.map Category.name
  once : result.keys.Nodup
  counted : ∀ k, after k =
    before k + (records.map fun record => fateOf record (enum record)).count (.unrecognised k)
  dropped : ∀ record ∈ records, fateOf record (enum record) = .dropped →
    record.getD "key" (.str "") = .str "" ∧
      ∀ c, classifyEventKey (record.getD "key" (.str "")) (enum record) ≠ .ok (some c)

theorem listed_records {text : Text} {now : Instant} {records : List JsonObj}
    {alerts : List (Option UniFiAlert)} (h : records.mapM (recordAlert text now) = .ok alerts)
    (c : Category) :
    List.Forall₂ (fun record a => UniFiAlert.fromApiAlarm text now c.name record = .ok a)
      (records.filter fun record => recordFate record == .listed c)
      ((Categorised.grouped alerts.reduceOption []).alertsFor c) := by
  have hall := mapM_eq_ok.mp h
  rw [Categorised.alertsFor_grouped]
  show List.Forall₂ _ _ (alerts.reduceOption.filter _)
  clear h
  induction hall with
  | nil => exact .nil
  | @cons record found records alerts hrecord _ ih =>
      rw [List.filter_cons]
      cases found with
      | none =>
          have hnot : recordFate record ≠ .listed c := by
            intro hfate
            obtain ⟨a, ha, -⟩ := recordAlert_listed hfate hrecord
            cases ha
          rw [if_neg (by simpa using hnot), List.reduceOption_cons_of_none]
          exact ih
      | some a =>
          obtain ⟨d, hfate, hcat⟩ := recordAlert_some hrecord
          rw [List.reduceOption_cons_of_some, List.filter_cons]
          by_cases hd : d = c
          · subst hd
            obtain ⟨b, hb, hbuilt⟩ := recordAlert_listed hfate hrecord
            obtain rfl := Option.some.inj hb
            rw [if_pos (by simp [hfate]), if_pos (by simp [hcat])]
            exact .cons hbuilt ih
          · have hname : a.category ≠ c.name := fun heq =>
              hd (Category.name_injective (hcat.symm.trans heq))
            rw [if_neg (by simpa [hfate] using hd), if_neg (by simpa using hname)]
            exact ih

theorem listed_events {text : Text} {now : Instant} {events : List JsonObj}
    {alerts : List UniFiAlert} (h : eventAlerts text now events = .ok alerts) (c : Category) :
    List.Forall₂ (fun event a => eventAlert text now event = .ok a)
      (events.filter fun event => eventFate event == .listed c)
      ((Categorised.grouped alerts []).alertsFor c) := by
  rw [Categorised.alertsFor_grouped]
  refine List.rel_filter (fun event a ha => ?_) (mapM_eq_ok.mp h)
  show (eventFate event == .listed c) = true ↔ (a.category == c.name) = true
  rw [beq_iff_eq, beq_iff_eq, eventAlert_category ha, Fate.name_eq_iff]

theorem mem_keys_grouped : ∀ {alerts : List UniFiAlert} {categorised : Categorised} {k : String},
    k ∈ (Categorised.grouped alerts categorised).keys →
      k ∈ categorised.keys ∨ ∃ a ∈ alerts, a.category = k ∧ k ≠ ""
  | [], _, _, h => Or.inl h
  | a :: as, categorised, k, h => by
      rw [Categorised.grouped, List.foldl_cons] at h
      rcases mem_keys_grouped h with h | ⟨b, hb, hbk⟩
      · split at h
        · exact Or.inl h
        · rename_i hcat
          rcases (Categorised.mem_keys_append _ _).mp h with rfl | h
          · exact Or.inr ⟨a, List.mem_cons_self, rfl, by simpa using hcat⟩
          · exact Or.inl h
      · exact Or.inr ⟨b, List.mem_cons_of_mem _ hb, hbk⟩

theorem named_grouped {alerts : List UniFiAlert} (h : ∀ a ∈ alerts, ∃ fate : Fate,
    a.category = fate.name) :
    ∀ k ∈ (Categorised.grouped alerts []).keys, k ∈ allCategories.map Category.name := by
  intro k hk
  rcases mem_keys_grouped hk with hk | ⟨a, ha, hcat, hne⟩
  · cases hk
  · obtain ⟨fate, hfate⟩ := h a ha
    rw [hcat] at hfate
    cases fate with
    | listed c =>
        rw [hfate]
        exact List.mem_map_of_mem (Category.mem_all c)
    | _ => exact absurd hfate hne

/-! ## The counts -/

/-- The counts after records of these fates. -/
def tallied (counts : String → Nat) (fates : List Fate) : String → Nat := fun k =>
  counts k + fates.count (.unrecognised k)

theorem tallied_nil (counts : String → Nat) : tallied counts [] = counts := rfl

theorem tallied_append (counts : String → Nat) (fates fates' : List Fate) :
    tallied counts (fates ++ fates') = tallied (tallied counts fates) fates' := by
  funext k
  simp only [tallied, List.count_append, Nat.add_assoc]

theorem tallied_cons (counts : String → Nat) (fate : Fate) (fates : List Fate) :
    tallied counts (fate :: fates) = tallied (tallied counts [fate]) fates :=
  tallied_append counts [fate] fates

theorem tallied_unrecognised (counts : String → Nat) (key : String) (fates : List Fate) :
    tallied counts (.unrecognised key :: fates) = tallied (bump counts key) fates := by
  funext k
  unfold tallied bump
  by_cases hk : k = key
  · subst hk
    rw [List.count_cons_self, Function.update_self]
    omega
  · have hne : Fate.unrecognised key ≠ .unrecognised k := fun heq =>
      hk (Fate.unrecognised.inj heq).symm
    rw [List.count_cons_of_ne hne, Function.update_of_ne hk]

theorem tallied_other (counts : String → Nat) {fate : Fate} (h : ∀ key, fate ≠ .unrecognised key)
    (fates : List Fate) : tallied counts (fate :: fates) = tallied counts fates := by
  funext k
  unfold tallied
  rw [List.count_cons_of_ne (h k)]

theorem fateOf_none {record : JsonObj} {enum : Json} {key : String}
    (hkey : record.getD "key" (.str "") = .str key) (h : (fateOf record enum).name = "") :
    fateOf record enum = if key != "" then .unrecognised key else .dropped := by
  unfold fateOf at h ⊢
  split at h
  · rename_i c _
    exact absurd h c.name_ne_empty
  · rw [hkey]

/-- The round of a record without a category. -/
theorem categoriseLoop_unlisted {net : Net} {record : JsonObj}
    (h : recordAlert net.text net.now record = .ok none) (records : List JsonObj)
    (categorised : Categorised) (s : ClientState) :
    categoriseLoop net (record :: records) categorised s =
      categoriseLoop net records categorised
        { s with unrecognisedKeys := tallied s.unrecognisedKeys [recordFate record] } := by
  have hname : (recordFate record).name = "" := by
    cases hfate : recordFate record with
    | listed c =>
        obtain ⟨a, ha, -⟩ := recordAlert_listed hfate h
        cases ha
    | _ => rfl
  obtain ⟨key, hkey, hloop⟩ := categoriseLoop_none h records categorised s
  rw [hloop, recordFate, fateOf_none hkey hname]
  by_cases hempty : (key != "") = true
  · rw [if_pos hempty, if_pos hempty, tallied_unrecognised, tallied_nil]
  · rw [if_neg hempty, if_neg hempty, tallied_other _ (by simp), tallied_nil]

/-- A legacy loop that ends without an exception has counted its records. -/
theorem categoriseLoop_counts (net : Net) : ∀ (records : List JsonObj) (categorised : Categorised)
    (s : ClientState) {result : Categorised},
      (categoriseLoop net records categorised s).1 = .ok result →
      (categoriseLoop net records categorised s).2 =
        { s with unrecognisedKeys := tallied s.unrecognisedKeys (records.map recordFate) }
  | [], _, _, _, _ => rfl
  | record :: records, categorised, s, result, h => by
      have ih := categoriseLoop_counts net records
      rw [List.map_cons, tallied_cons]
      cases hrecord : recordAlert net.text net.now record with
      | error e =>
          rw [categoriseLoop_error hrecord] at h
          cases h
      | ok found =>
          cases found with
          | none =>
              rw [categoriseLoop_unlisted hrecord] at h ⊢
              rw [ih _ _ h]
          | some a =>
              obtain ⟨c, hfate, -⟩ := recordAlert_some hrecord
              rw [categoriseLoop_some hrecord] at h ⊢
              rw [ih _ _ h, hfate, tallied_other _ (by simp), tallied_nil]

/-- So has a v2 loop. -/
theorem groupEvents_counts (net : Net) : ∀ (events : List JsonObj) (categorised : Categorised)
    (coord : Coordinator) {result : Categorised},
      (Coordinator.groupEvents net events categorised coord).1 = .ok result →
      (Coordinator.groupEvents net events categorised coord).2.unrecognisedKeys =
        tallied coord.unrecognisedKeys (events.map eventFate)
  | [], _, _, _, _ => rfl
  | event :: events, categorised, coord, result, h => by
      have ih := groupEvents_counts net events
      rw [List.map_cons, tallied_cons]
      unfold Coordinator.groupEvents at h ⊢
      rw [Comp.gets_bind] at h ⊢
      cases hbuilt : UniFiAlert.fromSystemLogEvent net.text net.now event coord.seenUnknownKeys with
      | error e =>
          rw [hbuilt] at h
          cases h
      | ok built =>
          obtain ⟨alert, seen'⟩ := built
          have hfate : alert.category = (eventFate event).name := fromSystemLogEvent_fate hbuilt
          rw [hbuilt] at h
          rw [show ofPy (Except.ok (alert, seen')) = .ok (alert, seen') from rfl,
            Comp.lift_ok_bind] at h ⊢
          dsimp only at h ⊢
          rw [Comp.update_bind] at h ⊢
          by_cases hcat : alert.category = ""
          · rw [if_pos (by simpa using hcat)] at h ⊢
            obtain ⟨key, hkey⟩ := fromSystemLogEvent_key hbuilt
            rw [hkey] at h ⊢
            rw [eventFate, fateOf_none hkey (hfate.symm.trans hcat)]
            dsimp only at h ⊢
            by_cases hne : (key != "") = true
            · rw [if_pos hne, Comp.update_bind] at h
              rw [if_pos hne, if_pos hne, Comp.update_bind, ih _ _ h, tallied_unrecognised,
                tallied_nil]
            · rw [if_neg hne] at h
              rw [if_neg hne, if_neg hne, ih _ _ h, tallied_other _ (by simp), tallied_nil]
          · have hlisted : ∀ key, eventFate event ≠ .unrecognised key := by
              intro key heq
              rw [heq] at hfate
              exact hcat hfate
            rw [if_neg (by simpa using hcat)] at h ⊢
            rw [ih _ _ h, tallied_other _ hlisted, tallied_nil]

/-! ## The two groupings -/

theorem fateOf_keyed {record : JsonObj} {enum : Json} {key : String}
    (hkey : record.getD "key" (.str "") = .str key) (h : fateOf record enum = .dropped) :
    record.getD "key" (.str "") = .str "" ∧
      ∀ c, classifyEventKey (record.getD "key" (.str "")) enum ≠ .ok (some c) := by
  obtain ⟨rfl, hnone⟩ := fateOf_dropped hkey h
  rw [hkey]
  exact ⟨rfl, hnone⟩

theorem categoriseAlarms_conserves {net : Net} {site : String} {s s' : ClientState}
    {raw : List JsonObj} (hfetch : fetchAlarms net site s = (.ok raw, s'))
    (hraw : ∀ record ∈ raw, legacyReadable record = true) :
    ∃ result s'', categoriseAlarms net site s = (.ok result, s'') ∧
      Conserved (fun _ => .str "") (fun c => UniFiAlert.fromApiAlarm net.text net.now c.name) raw
        result (fun _ => 0) s''.unrecognisedKeys := by
  obtain ⟨alerts, halerts⟩ := exists_mapM_ok.mpr fun record hrecord =>
    (@recordAlert_ok_iff net.text net.now record).mpr (hraw record hrecord)
  have hresult := categoriseLoop_result net raw [] { s' with unrecognisedKeys := fun _ => 0 }
  rw [halerts] at hresult
  have hcounts := categoriseLoop_counts net raw [] _ hresult
  refine ⟨Categorised.grouped alerts.reduceOption [],
    { s' with unrecognisedKeys := tallied (fun _ => 0) (raw.map recordFate) }, ?_, ?_,
    ?_, ?_, ?_, ?_⟩
  · unfold categoriseAlarms
    rw [Comp.bind_run hfetch, Comp.update_bind]
    exact Prod.ext hresult hcounts
  · exact listed_records halerts
  · refine named_grouped fun a ha => ?_
    obtain ⟨record, -, hrecord⟩ := (mem_mapM_ok halerts).mp (List.reduceOption_mem_iff.mp ha)
    obtain ⟨c, -, hc⟩ := recordAlert_some hrecord
    exact ⟨.listed c, hc⟩
  · exact Categorised.nodup_grouped (by simp [Categorised.keys])
  · exact fun k => rfl
  · intro record hrecord hdropped
    have hread := hraw record hrecord
    unfold legacyReadable at hread
    split at hread
    · rename_i key hkey
      exact fateOf_keyed hkey hdropped
    · cases hread

theorem groupEvents_conserves (net : Net) {events : List JsonObj} (coord : Coordinator)
    (hevents : ∀ event ∈ events, eventReadable event = true) :
    ∃ result coord', Coordinator.groupEvents net events [] coord = (.ok result, coord') ∧
      Conserved (fun event => event.getD "category" (.str ""))
        (fun _ => eventAlert net.text net.now) events result coord.unrecognisedKeys
        coord'.unrecognisedKeys := by
  obtain ⟨alerts, halerts⟩ := exists_mapM_ok.mpr fun event hevent =>
    (@eventAlert_ok_iff net.text net.now event).mpr (hevents event hevent)
  have hresult := groupEvents_result net events [] coord
  rw [eventAlerts, halerts] at hresult
  have hcounts := groupEvents_counts net events [] coord hresult
  refine ⟨Categorised.grouped alerts [], _, Prod.ext hresult rfl, ?_, ?_, ?_, ?_, ?_⟩
  · exact listed_events halerts
  · refine named_grouped fun a ha => ?_
    obtain ⟨event, -, hevent⟩ := (mem_mapM_ok halerts).mp ha
    exact ⟨_, eventAlert_category hevent⟩
  · exact Categorised.nodup_grouped (by simp [Categorised.keys])
  · exact fun k => congrFun hcounts k
  · intro event hevent hdropped
    obtain ⟨a, ha⟩ := (@eventAlert_ok_iff net.text net.now event).mpr (hevents event hevent)
    unfold eventAlert at ha
    cases hbuilt : UniFiAlert.fromSystemLogEvent net.text net.now event [] with
    | error e =>
        rw [hbuilt] at ha
        cases ha
    | ok built =>
        obtain ⟨key, hkey⟩ := fromSystemLogEvent_key hbuilt
        exact fateOf_keyed hkey hdropped

/-! ## A poll as a fetch and a grouping -/

/-- What one poll has fetched. -/
inductive Batch
  | legacy (records : List JsonObj)
  | systemLog (events : List JsonObj)

def Batch.fates : Batch → List Fate
  | .legacy records => records.map recordFate
  | .systemLog events => events.map eventFate

namespace Coordinator

def fetchEvents (net : Net) (site : String) : CoordM Batch := do
  let since ← Comp.lift (ofPy (fetchSince (← Comp.gets (·.states)) net.now))
  return .systemLog (← onClient (fetchSystemLogAlarms net site since))

/-- The records of the site, or `none` when every legacy path is missing. -/
def fetchRecords (net : Net) (site : String) : CoordM (Option (List JsonObj)) :=
  Comp.handle (do return some (← onClient (fetchAlarms net site))) fun e =>
    match e with
    | .cannotConnect .alarmEndpointUnavailable _ => some (pure none)
    | _ => none

/-- A poll up to the point where its records are there. -/
def fetchBatch (net : Net) (site : String) : CoordM Batch := do
  let hasV2 ← probed net site
  let confirmed ← Comp.gets fun s => s.client.legacyConfirmedUnavailable site
  if !hasV2 && !confirmed then
    match ← fetchRecords net site with
    | some records => return .legacy records
    | none => fetchEvents net site
  else fetchEvents net site

/-- The grouping of a batch. -/
def groupBatch (net : Net) : Batch → CoordM Categorised
  | .legacy records => do
    let result ← onClient do
      Comp.update fun s => { s with unrecognisedKeys := fun _ => 0 }
      categoriseLoop net records []
    Comp.update fun s => { s with
      unrecognisedKeys := fun k => s.unrecognisedKeys k + s.client.unrecognisedKeys k }
    pure result
  | .systemLog events => groupEvents net events []

theorem fetchV2_batch (net : Net) (site : String) :
    fetchV2 net site = fetchEvents net site >>= groupBatch net := by
  unfold fetchV2 fetchEvents
  simp only [Comp.bind_bind, Comp.pure_bind_run]
  rfl

theorem fetchRecords_run {net : Net} {site : String} {coord : Coordinator}
    {raw : List JsonObj} {s : ClientState} (h : fetchAlarms net site coord.client = (.ok raw, s)) :
    fetchRecords net site coord = (.ok (some raw), { coord with client := s }) := by
  have hclient : onClient (fetchAlarms net site) coord = (.ok raw, { coord with client := s }) := by
    unfold onClient Comp.zoom
    rw [h]
  exact Comp.handle_ok (by rw [Comp.bind_run hclient]; rfl)

theorem fetchRecords_unavailable {net : Net} {site : String} {coord : Coordinator}
    {s : ClientState} {msg : String} (h : fetchAlarms net site coord.client =
      (.error (.cannotConnect .alarmEndpointUnavailable msg), s)) :
    fetchRecords net site coord = (.ok none, { coord with client := s }) := by
  have hclient : onClient (fetchAlarms net site) coord =
      (.error (.cannotConnect .alarmEndpointUnavailable msg), { coord with client := s }) := by
    unfold onClient Comp.zoom
    rw [h]
  exact Comp.handle_caught (Comp.bind_error hclient) rfl

theorem fetchRecords_error {net : Net} {site : String} {coord : Coordinator} {s : ClientState}
    {e : Error} (h : fetchAlarms net site coord.client = (.error e, s))
    (he : e.isUnavailable = false) :
    fetchRecords net site coord = (.error e, { coord with client := s }) := by
  have hclient : onClient (fetchAlarms net site) coord =
      (.error e, { coord with client := s }) := by
    unfold onClient Comp.zoom
    rw [h]
  refine Comp.handle_error (Comp.bind_error hclient) ?_
  split
  · cases he
  · rfl

/-- The records are grouped where the legacy fetch left off. -/
theorem groupBatch_legacy (net : Net) (raw : List JsonObj) (coord : Coordinator) :
    let loop := categoriseLoop net raw [] { coord.client with unrecognisedKeys := fun _ => 0 }
    groupBatch net (.legacy raw) coord =
      match loop with
      | (.ok result, s) => (.ok result, { coord with
          client := s
          unrecognisedKeys := fun k => coord.unrecognisedKeys k + s.unrecognisedKeys k })
      | (.error e, s) => (.error e, { coord with client := s }) := by
  intro loop
  have hclient : onClient (do
      Comp.update fun s => { s with unrecognisedKeys := fun _ => 0 }
      categoriseLoop net raw []) coord = (loop.1, { coord with client := loop.2 }) := rfl
  unfold groupBatch
  dsimp only
  rcases hloop : loop with ⟨r, s⟩
  rw [hloop] at hclient
  cases r with
  | ok result =>
      rw [Comp.bind_run hclient]
      rfl
  | error e => rw [Comp.bind_error hclient]

theorem fetchCategorised_batch (net : Net) (site : String) (coord : Coordinator) :
    fetchCategorised net site coord = (fetchBatch net site >>= groupBatch net) coord := by
  unfold fetchBatch
  rw [Comp.bind_bind]
  rcases hprobe : probed net site coord with ⟨r, coord'⟩
  cases r with
  | error e =>
      rw [Comp.bind_error hprobe]
      exact Comp.bind_error hprobe
  | ok hasV2 =>
      rw [fetchCategorised_probed hprobe, Comp.bind_run hprobe, Comp.bind_bind, Comp.gets_bind]
      split
      · rw [Comp.bind_bind]
        rcases hfetch : fetchAlarms net site coord'.client with ⟨result, s⟩
        cases result with
        | ok raw =>
            rw [Comp.bind_run (fetchRecords_run hfetch), Comp.pure_bind_run]
            rw [groupBatch_legacy]
            have hlegacy := fetchLegacy_run hfetch
            dsimp only at hlegacy ⊢
            rcases hloop : categoriseLoop net raw [] { s with unrecognisedKeys := fun _ => 0 } with
              ⟨r, s'⟩
            rw [hloop] at hlegacy
            cases r with
            | ok d =>
                rw [Comp.bind_run hlegacy]
                rfl
            | error e => rw [Comp.bind_error hlegacy]
        | error e =>
            by_cases he : e.isUnavailable = true
            · obtain ⟨msg, rfl⟩ := Error.isUnavailable_iff.mp he
              rw [Comp.bind_run (fetchLegacy_unavailable hfetch),
                Comp.bind_run (fetchRecords_unavailable hfetch)]
              dsimp only
              rw [fetchV2_batch]
            · rw [Bool.not_eq_true] at he
              rw [Comp.bind_error (fetchLegacy_error hfetch he),
                Comp.bind_error (fetchRecords_error hfetch he)]
      · rw [fetchV2_batch]

theorem fetchBatch_keeps (net : Net) (site : String) :
    Comp.Keeps Coordinator.unrecognisedKeys (fetchBatch net site) := by
  have hclient : ∀ {α : Type} (x : ClientM α),
      Comp.Keeps Coordinator.unrecognisedKeys (onClient x) := onClient_keeps fun _ _ => rfl
  have hprobed : Comp.Keeps Coordinator.unrecognisedKeys (probed net site) := by
    refine .handle (probeHasSystemLog_keeps (fun _ _ => rfl) (fun _ _ _ _ => rfl) net site)
      fun e y hy => ?_
    split at hy
    · obtain rfl := Option.some.inj hy
      exact .pure _
    · obtain rfl := Option.some.inj hy
      exact .pure _
    · cases hy
  have hevents : Comp.Keeps Coordinator.unrecognisedKeys (fetchEvents net site) :=
    .bind (.gets _) fun _ => .bind (.lift _) fun _ => .bind (hclient _) fun _ => .pure _
  have hrecords : Comp.Keeps Coordinator.unrecognisedKeys (fetchRecords net site) := by
    refine .handle (.bind (hclient _) fun _ => .pure _) fun e y hy => ?_
    split at hy
    · obtain rfl := Option.some.inj hy
      exact .pure _
    · cases hy
  refine .bind hprobed fun hasV2 => .bind (.gets _) fun confirmed => ?_
  split
  · refine .bind hrecords fun found => ?_
    cases found with
    | some records => exact .pure _
    | none => exact hevents
  · exact hevents

/-- A grouping that succeeds has added the counts of its batch. -/
theorem groupBatch_counts {net : Net} {batch : Batch} {coord : Coordinator} {result : Categorised}
    (h : (groupBatch net batch coord).1 = .ok result) :
    (groupBatch net batch coord).2.unrecognisedKeys =
      tallied coord.unrecognisedKeys batch.fates := by
  cases batch with
  | systemLog events => exact groupEvents_counts net events [] coord h
  | legacy records =>
      have hcounts := @categoriseLoop_counts net records []
        { coord.client with unrecognisedKeys := fun _ => 0 }
      have hrun := groupBatch_legacy net records coord
      dsimp only at hrun
      rcases hloop : categoriseLoop net records []
        { coord.client with unrecognisedKeys := fun _ => 0 } with ⟨r, s⟩
      rw [hloop] at hrun hcounts
      rw [hrun] at h ⊢
      cases r with
      | error e => cases h
      | ok d =>
          funext k
          dsimp only at hcounts ⊢
          rw [hcounts rfl]
          simp only [tallied, Batch.fates, Nat.zero_add]

/-- What a successful poll fetched, and what it added. -/
theorem fetchCategorised_counts {net : Net} {site : String} {coord : Coordinator}
    {result : Categorised} (h : (fetchCategorised net site coord).1 = .ok result) :
    ∃ batch, (fetchBatch net site coord).1 = .ok batch ∧
      (fetchCategorised net site coord).2.unrecognisedKeys =
        tallied coord.unrecognisedKeys batch.fates := by
  have hkeeps := fetchBatch_keeps net site coord
  rw [fetchCategorised_batch] at h ⊢
  rcases hfetch : fetchBatch net site coord with ⟨r, coord'⟩
  rw [hfetch] at hkeeps
  cases r with
  | error e =>
      rw [Comp.bind_error hfetch] at h
      cases h
  | ok batch =>
      rw [Comp.bind_run hfetch] at h ⊢
      refine ⟨batch, rfl, ?_⟩
      rw [groupBatch_counts h]
      exact congrArg (tallied · batch.fates) hkeeps

end Coordinator

/-! ## Runs of polls -/

/-- A coordinator with the fates of all records that its polls have fetched. -/
structure Tallied where
  coord : Coordinator
  fates : List Fate := []

namespace Tallied

variable (config : UniFiClientConfig)

def succeeds (t : Tallied) (net : Net) : Prop :=
  ∃ result, (Coordinator.fetchCategorised net config.effectiveSite t.coord).1 = .ok result

/-- One poll, with its batch added to the record. -/
def poll (t : Tallied) (net : Net) : Tallied :=
  let fetch := Coordinator.fetchCategorised net config.effectiveSite t.coord
  { coord := match fetch.1 with
      | .ok result => (Coordinator.applyPoll config result fetch.2).coord
      | .error _ => fetch.2
    fates := match (Coordinator.fetchBatch net config.effectiveSite t.coord).1 with
      | .ok batch => t.fates ++ batch.fates
      | .error _ => t.fates }

/-- The counts of unrecognised keys are those of the fates that the polls have recorded,
from zero on. -/
def Agrees (t : Tallied) : Prop := t.coord.unrecognisedKeys = tallied (fun _ => 0) t.fates

theorem agrees_poll {t : Tallied} {net : Net} (h : t.Agrees) (hok : t.succeeds config net) :
    (t.poll config net).Agrees := by
  obtain ⟨result, hresult⟩ := hok
  obtain ⟨batch, hbatch, hcounts⟩ := Coordinator.fetchCategorised_counts hresult
  unfold Agrees poll
  dsimp only
  rw [hresult, hbatch]
  dsimp only
  rw [Coordinator.applyPoll_frame]
  show (Coordinator.fetchCategorised net config.effectiveSite t.coord).2.unrecognisedKeys = _
  rw [hcounts, h, tallied_append]

end Tallied

/-- No record of a fetch is lost or counted twice, on either path, and the polls of a
run add up. -/
structure ConservesRecords (config : UniFiClientConfig) : Prop where
  legacy : ∀ (net : Net) (site : String) (s s' : ClientState) (raw : List JsonObj),
    fetchAlarms net site s = (.ok raw, s') → (∀ record ∈ raw, legacyReadable record = true) →
    ∃ result s'', categoriseAlarms net site s = (.ok result, s'') ∧
      Conserved (fun _ => .str "") (fun c => UniFiAlert.fromApiAlarm net.text net.now c.name) raw
        result (fun _ => 0) s''.unrecognisedKeys
  systemLog : ∀ (net : Net) (events : List JsonObj) (coord : Coordinator),
    (∀ event ∈ events, eventReadable event = true) →
    ∃ result coord', Coordinator.groupEvents net events [] coord = (.ok result, coord') ∧
      Conserved (fun event => event.getD "category" (.str ""))
        (fun _ => eventAlert net.text net.now) events result coord.unrecognisedKeys
        coord'.unrecognisedKeys
  polls : ∀ nets : List Net,
    Along (Tallied.poll config) (Tallied.succeeds config) { coord := .fresh config } nets →
    let t := Lib.run (Tallied.poll config) { coord := .fresh config } nets
    ∀ key, t.coord.unrecognisedKeys key = t.fates.count (.unrecognised key)

theorem categorisation_conserves (config : UniFiClientConfig) : ConservesRecords config where
  legacy _ _ _ _ _ hfetch hraw := categoriseAlarms_conserves hfetch hraw
  systemLog net _ coord hevents := groupEvents_conserves net coord hevents
  polls nets hok key := by
    have hagrees := run_preserves_along (fun t net h hok => Tallied.agrees_poll config h hok)
      (show Tallied.Agrees { coord := .fresh config } from rfl) hok
    rw [show Coordinator.unrecognisedKeys _ = _ from hagrees]
    exact Nat.zero_add _

/-- A record of a known key, one of an unknown key, and one that has none. -/
def mixedRecords : List JsonObj :=
  [[("key", .str "EVT_GW_WANTransition"), ("status", .str "NEW")],
   [("key", .str "SOMETHING_NEW"), ("status", .str "NEW")],
   [("status", .str "NEW")]]

/-- A controller that answers these records on the first legacy path. -/
def mixedNet : Net where
  text := .counting fun _ => none
  base := "https://192.168.1.1"
  now := 0
  respond _ request := match request with
    | .get _ => .response { status := 200, content := .value (.obj [
        ("meta", .obj [("rc", .str "ok")]), ("data", .arr (mixedRecords.map .obj))]) }
    | _ => .response { status := 404, content := .empty }

/-- On either path the first record is listed, the second counted and the third dropped. -/
theorem categorisation_conserves_mixed :
    (∃ result coord', Coordinator.groupEvents mixedNet mixedRecords [] (.fresh {}) =
        (.ok result, coord') ∧ result.keys = ["network_wan"] ∧
      Conserved (fun event => event.getD "category" (.str ""))
        (fun _ => eventAlert mixedNet.text mixedNet.now) mixedRecords result (fun _ => 0)
        coord'.unrecognisedKeys) ∧
    ∃ result s', categoriseAlarms mixedNet "default" {} = (.ok result, s') ∧
      result.keys = ["network_wan"] ∧
      Conserved (fun _ => .str "")
        (fun c => UniFiAlert.fromApiAlarm mixedNet.text mixedNet.now c.name) mixedRecords result
        (fun _ => 0) s'.unrecognisedKeys := by
  constructor
  · obtain ⟨result, coord', hgroup, hconserved⟩ :=
      (categorisation_conserves {}).systemLog mixedNet mixedRecords (.fresh {}) (by decide +kernel)
    refine ⟨result, coord', hgroup, ?_, hconserved⟩
    have hkeys : ((Coordinator.groupEvents mixedNet mixedRecords [] (.fresh {})).1.map
        Categorised.keys) = .ok ["network_wan"] := by decide +kernel
    rw [hgroup] at hkeys
    exact Except.ok.inj hkeys
  · obtain ⟨result, s', hcategorise, hconserved⟩ :=
      (categorisation_conserves {}).legacy mixedNet "default" {} _ mixedRecords rfl
        (by decide +kernel)
    refine ⟨result, s', hcategorise, ?_, hconserved⟩
    have hkeys : ((categoriseAlarms mixedNet "default" {}).1.map Categorised.keys) =
        .ok ["network_wan"] := by decide +kernel
    rw [hcategorise] at hkeys
    exact Except.ok.inj hkeys

end UnifiAlerts
