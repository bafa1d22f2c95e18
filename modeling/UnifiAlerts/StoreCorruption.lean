import UnifiAlerts.Awareness
import UnifiAlerts.Lib.Dict
import UnifiAlerts.Sightings

/-!
# Restoring whatever the store holds

`async_restore_watermarks` reads each entry on its own, and of an entry
each field on its own, so a field that cannot be read should cost that
field and nothing else. For the two timestamps it does. The count goes
through an unguarded `int()` and the stored alert through a decoder that
asks for an object, and what either raises ends the whole restore; and a
stored time without an offset is taken as it is.

`Intact` says of a stored object that it has none of these, and
`RestoresSoundly` is the contract: the restore returns, a corrupt field
or entry restores as if it were absent, and every restored time is
aware. Either holds exactly when the other does.
-/

namespace UnifiAlerts

open Py Lib

/-! ## The stored object -/

/-- What the store holds: an object, so no two entries share a key. -/
structure Stored where
  entries : JsonObj
  nodup : (entries.map Prod.fst).Nodup

def corruptStamp (text : Text) : Json → Bool
  | .null => false
  | .str s => (text.fromisoformat s).isNone
  | _ => true

def corruptAlert : Json → Bool
  | .null => false
  | v => !v.isObj

inductive StoredField
  | lastClearedAt
  | alertCount
  | lastAlert
  | lastWebhookAt
deriving Repr, DecidableEq

namespace StoredField

def name : StoredField → String
  | .lastClearedAt => "last_cleared_at"
  | .alertCount => "alert_count"
  | .lastAlert => "last_alert"
  | .lastWebhookAt => "last_webhook_at"

/-- What an absent field is read as. -/
def absent : StoredField → Json
  | .alertCount => .int 0
  | _ => .null

/-- The value of the field cannot be read. -/
def corrupt (text : Text) (field : StoredField) (v : Json) : Bool :=
  match field with
  | .lastClearedAt => corruptStamp text v
  | .alertCount => v.toInt.toOption.isNone
  | .lastAlert => corruptAlert v
  | .lastWebhookAt => corruptStamp text v

def corruptIn (text : Text) (field : StoredField) : Json → Bool
  | .obj entry => field.corrupt text (JsonObj.getD entry field.name field.absent)
  | _ => false

end StoredField

def withoutKey (k : String) (o : JsonObj) : JsonObj := o.filter fun e => e.1 != k

/-- The entry without the field; an entry that is no object has none. -/
def withoutField (field : StoredField) : Json → Json
  | .obj entry => .obj (withoutKey field.name entry)
  | v => v

/-- Neither a bare timestamp that can be read nor an object. -/
def corruptEntry (text : Text) : Json → Bool
  | .str s => (text.fromisoformat s).isNone
  | v => !v.isObj

/-! ## Stored times -/

/-- The time, if it is one, has an offset. -/
def hasOffset (text : Text) : Json → Bool
  | .str s => match text.fromisoformat s with
    | some d => d.isAware
    | none => true
  | _ => true

/-- The time of a stored alert. -/
def alertTime : Json → Json
  | .obj alert => JsonObj.getD alert "received_at" (.str "")
  | _ => .null

def timesHaveOffsets (text : Text) : Json → Bool
  | .str s => hasOffset text (.str s)
  | .obj entry => hasOffset text (JsonObj.get entry "last_cleared_at") &&
      (hasOffset text (alertTime (JsonObj.get entry "last_alert")) &&
        hasOffset text (JsonObj.get entry "last_webhook_at"))
  | _ => true

/-- The entry restores without an exception and without a naive time. -/
def intactEntry (text : Text) (v : Json) : Bool :=
  !StoredField.alertCount.corruptIn text v &&
    (!StoredField.lastAlert.corruptIn text v && timesHaveOffsets text v)

namespace Stored

/-- The entry of a category. -/
def at? (stored : Stored) (c : Category) : Option Json := stored.entries.lookup c.name

/-- The stored object with the entry of `c` changed. -/
def modify (stored : Stored) (c : Category) (f : Json → Json) : Stored where
  entries := stored.entries.map fun e => if e.1 = c.name then (e.1, f e.2) else e
  nodup := by
    have hkeys :
        (stored.entries.map fun e => if e.1 = c.name then (e.1, f e.2) else e).map Prod.fst =
        stored.entries.map Prod.fst := by
      rw [List.map_map]
      refine List.map_congr_left fun e _ => ?_
      rw [Function.comp_apply]
      split <;> rfl
    rw [hkeys]
    exact stored.nodup

/-- The stored object without the entry of `c`. -/
def drop (stored : Stored) (c : Category) : Stored where
  entries := withoutKey c.name stored.entries
  nodup := List.Nodup.sublist (List.Sublist.map Prod.fst List.filter_sublist) stored.nodup

/-- Every entry that is stored for a category can be read without an exception, and
without a time that has no offset. -/
def Intact (text : Text) (stored : Stored) : Prop :=
  ∀ c v, stored.at? c = some v → intactEntry text v = true

theorem at?_eq_some {stored : Stored} {c : Category} {v : Json} :
    stored.at? c = some v ↔ (c.name, v) ∈ stored.entries := by
  obtain ⟨entries, hnodup⟩ := stored
  show entries.lookup c.name = some v ↔ (c.name, v) ∈ entries
  induction entries with
  | nil => simp
  | cons e rest ih =>
      obtain ⟨k, v'⟩ := e
      obtain ⟨hnew, hnodup⟩ := List.nodup_cons.mp hnodup
      by_cases hk : c.name = k
      · subst hk
        have hrest : (c.name, v) ∉ rest := fun hmem =>
          hnew (List.mem_map.mpr ⟨(c.name, v), hmem, rfl⟩)
        simp [hrest, eq_comm]
      · have hbeq : (c.name == k) = false := by simpa using hk
        rw [List.lookup_cons, hbeq]
        simp [ih hnodup, hk]

end Stored

theorem lookup_withoutKey (k f : String) (o : JsonObj) :
    (withoutKey f o).lookup k = if k = f then none else o.lookup k := by
  have hpop : withoutKey f o = Dict.pop o f := rfl
  rw [hpop, Dict.lookup_pop]
  simp only [beq_iff_eq]

theorem getD_withoutKey {k f : String} (h : k ≠ f) (o : JsonObj) (default : Json) :
    (withoutKey f o).getD k default = o.getD k default := by
  unfold JsonObj.getD
  rw [lookup_withoutKey, if_neg h]

theorem getD_withoutKey_self (f : String) (o : JsonObj) (default : Json) :
    (withoutKey f o).getD f default = default := by
  unfold JsonObj.getD
  rw [lookup_withoutKey, if_pos rfl, Option.getD_none]

/-! ## One entry -/

namespace Coordinator

section

variable {text : Text} {now : Instant}

theorem alertCount_ok_iff {v : Json} :
    (∃ n, v.toInt = .ok n) ↔ StoredField.alertCount.corrupt text v = false := by
  unfold StoredField.corrupt
  dsimp only
  cases v.toInt with
  | error e => exact iff_of_false (fun ⟨_, h⟩ => by cases h) (by simp [Except.toOption])
  | ok n => exact iff_of_true ⟨n, rfl⟩ rfl

theorem restoreAlert_ok_iff {v : Json} {current : Option UniFiAlert} :
    (∃ found, restoreAlert text now v current = .ok found) ↔
      StoredField.lastAlert.corrupt text v = false := by
  cases v with
  | null => exact iff_of_true ⟨_, rfl⟩ rfl
  | obj alert => exact iff_of_true ⟨_, rfl⟩ rfl
  | _ =>
      refine iff_of_false ?_ (by simp [StoredField.corrupt, corruptAlert, Json.isObj])
      rintro ⟨found, h⟩
      cases h

theorem restoreEntry_ok_iff {st : CategoryState} {v : Json} :
    (∃ st', restoreEntry text now st v = .ok st') ↔
      StoredField.alertCount.corruptIn text v = false ∧
        StoredField.lastAlert.corruptIn text v = false := by
  cases v with
  | obj entry =>
      unfold StoredField.corruptIn
      dsimp only
      rw [← alertCount_ok_iff, ← @restoreAlert_ok_iff text now _ st.lastAlert]
      constructor
      · rintro ⟨st', h⟩
        obtain ⟨alertCount, hcount, h⟩ := bind_eq_ok.mp h
        obtain ⟨lastAlert, halert, -⟩ := bind_eq_ok.mp h
        exact ⟨⟨alertCount, hcount⟩, lastAlert, halert⟩
      · rintro ⟨⟨alertCount, hcount⟩, lastAlert, halert⟩
        exact ⟨_, bind_eq_ok.mpr ⟨alertCount, hcount, bind_eq_ok.mpr ⟨lastAlert, halert, rfl⟩⟩⟩
  | str s => exact iff_of_true ⟨_, rfl⟩ ⟨rfl, rfl⟩
  | _ => exact iff_of_true ⟨_, rfl⟩ ⟨rfl, rfl⟩

theorem restoreStamp_corrupt {v : Json} {current : Option DateTime}
    (h : corruptStamp text v = true) : restoreStamp text v current = current := by
  cases v with
  | str s =>
      unfold restoreStamp
      dsimp only
      rw [Option.isNone_iff_eq_none.mp h]
      rfl
  | _ => rfl

/-- A corrupt timestamp, or any corrupt field of an entry that can be restored, is as
good as absent. -/
theorem restoreEntry_withoutField {field : StoredField} {st : CategoryState} {v : Json}
    (hok : ∃ st', restoreEntry text now st v = .ok st') (h : field.corruptIn text v = true) :
    restoreEntry text now st (withoutField field v) = restoreEntry text now st v := by
  obtain ⟨hcount, halert⟩ := restoreEntry_ok_iff.mp hok
  cases v with
  | obj entry =>
      cases field with
      | alertCount => exact absurd (h.symm.trans hcount) (by decide)
      | lastAlert => exact absurd (h.symm.trans halert) (by decide)
      | lastClearedAt =>
          have hself : restoreStamp text .null st.lastClearedAt = st.lastClearedAt := rfl
          have hkept := @restoreStamp_corrupt text (JsonObj.get entry "last_cleared_at")
            st.lastClearedAt h
          unfold withoutField StoredField.name restoreEntry JsonObj.get at *
          simp (disch := decide) only [getD_withoutKey, getD_withoutKey_self, hself, hkept]
      | lastWebhookAt =>
          have hself : restoreStamp text .null st.lastWebhookAt = st.lastWebhookAt := rfl
          have hkept := @restoreStamp_corrupt text (JsonObj.get entry "last_webhook_at")
            st.lastWebhookAt h
          unfold withoutField StoredField.name restoreEntry JsonObj.get at *
          simp (disch := decide) only [getD_withoutKey, getD_withoutKey_self, hself, hkept]
  | _ => cases h

theorem restoreEntry_corrupt {st : CategoryState} {v : Json} (h : corruptEntry text v = true) :
    restoreEntry text now st v = .ok st := by
  cases v with
  | str s =>
      have hkept := @restoreStamp_corrupt text (.str s) st.lastClearedAt h
      unfold restoreEntry
      dsimp only
      rw [hkept]
  | obj entry => cases h
  | _ => rfl

/-! ## Naive times -/

theorem restoreStamp_aware_iff {v : Json} :
    AwareMark (restoreStamp text v none) ↔ hasOffset text v = true := by
  cases v with
  | str s =>
      unfold restoreStamp hasOffset
      dsimp only
      cases text.fromisoformat s with
      | none => exact iff_of_true .none rfl
      | some d =>
          constructor
          · exact fun h => h d rfl
          · intro h w hw
            obtain rfl := Option.some.inj hw
            exact h
  | _ => exact iff_of_true .none rfl

theorem restoreAlert_aware_iff {v : Json} {found : Option UniFiAlert}
    (h : restoreAlert text now v none = .ok found) :
    (∀ a, found = some a → a.receivedAt.isAware = true) ↔ hasOffset text (alertTime v) = true := by
  cases v with
  | null =>
      obtain rfl := Except.ok.inj h
      exact iff_of_true (fun _ hnone => by cases hnone) rfl
  | obj alert =>
      obtain rfl := Except.ok.inj h
      simp only [Option.some.injEq, forall_eq']
      unfold alertTime hasOffset
      dsimp only
      cases JsonObj.getD alert "received_at" (.str "") with
      | str s =>
          dsimp only
          cases text.fromisoformat s with
          | none => exact iff_of_true rfl rfl
          | some d => exact Iff.rfl
      | _ => exact iff_of_true rfl rfl
  | _ => cases h

/-- From a state that has no times yet. -/
theorem restoreEntry_aware_iff {st st' : CategoryState} {v : Json}
    (hclear : st.lastClearedAt = none) (halert : st.lastAlert = none)
    (hhook : st.lastWebhookAt = none) (h : restoreEntry text now st v = .ok st') :
    TimesAware st' ↔ timesHaveOffsets text v = true := by
  cases v with
  | str s =>
      obtain rfl := Except.ok.inj h
      rw [hclear]
      have hiff := @restoreStamp_aware_iff text (.str s)
      constructor
      · exact fun haware => hiff.mp haware.lastClearedAt
      · intro hs
        refine ⟨hiff.mpr hs, fun a ha => ?_, fun w hw => ?_⟩
        · cases halert.symm.trans ha
        · cases hhook.symm.trans hw
  | obj entry =>
      obtain ⟨alertCount, -, h⟩ := bind_eq_ok.mp h
      obtain ⟨lastAlert, hlast, h⟩ := bind_eq_ok.mp h
      obtain rfl := Except.ok.inj h
      rw [halert] at hlast
      unfold timesHaveOffsets
      rw [hclear, hhook, Bool.and_eq_true, Bool.and_eq_true, ← restoreAlert_aware_iff hlast,
        ← restoreStamp_aware_iff, ← restoreStamp_aware_iff]
      exact ⟨fun ⟨h₁, h₂, h₃⟩ => ⟨h₁, h₂, h₃⟩, fun ⟨h₁, h₂, h₃⟩ => ⟨h₁, h₂, h₃⟩⟩
  | _ =>
      obtain rfl := Except.ok.inj h
      refine iff_of_true ⟨fun w hw => ?_, fun a ha => ?_, fun w hw => ?_⟩ rfl
      · cases hclear.symm.trans hw
      · cases halert.symm.trans ha
      · cases hhook.symm.trans hw

/-! ## The loop over the entries -/

theorem restoreWatermarks_ok_iff : ∀ {entries : JsonObj} {coord : Coordinator},
    (∃ coord', restoreWatermarks text now entries coord = .ok coord') ↔
      ∀ (c : Category) v, (c.name, v) ∈ entries →
        StoredField.alertCount.corruptIn text v = false ∧
          StoredField.lastAlert.corruptIn text v = false
  | [], coord => iff_of_true ⟨coord, rfl⟩ (by simp)
  | (cat, entry) :: rest, coord => by
      rw [restoreWatermarks]
      cases hd : Category.ofName? cat with
      | none =>
          have hne : ∀ c : Category, c.name ≠ cat := fun c heq => by
            rw [← heq, Category.ofName?_name] at hd
            cases hd
          dsimp only
          rw [restoreWatermarks_ok_iff]
          simp only [List.mem_cons, Prod.mk.injEq, hne, false_and, false_or]
      | some d =>
          have hname := Category.ofName?_eq_some.mp hd
          subst hname
          dsimp only
          cases hentry : restoreEntry text now (coord.states d) entry with
          | error e =>
              refine iff_of_false (fun ⟨_, h⟩ => by cases h) fun hall => ?_
              obtain ⟨st', hst'⟩ := restoreEntry_ok_iff.mpr (hall d entry List.mem_cons_self)
              cases hentry.symm.trans hst'
          | ok st' =>
              have hown := restoreEntry_ok_iff.mp ⟨st', hentry⟩
              rw [ok_bind, restoreWatermarks_ok_iff]
              constructor
              · intro hall c v hmem
                rcases List.mem_cons.mp hmem with heq | hmem
                · rw [(Prod.mk.inj heq).2]
                  exact hown
                · exact hall c v hmem
              · exact fun hall c v hmem => hall c v (List.mem_cons_of_mem _ hmem)

/-- Each category ends up as its one entry restores it. -/
theorem restoreWatermarks_states (c : Category) :
    ∀ {entries : JsonObj} {coord coord' : Coordinator}, (entries.map Prod.fst).Nodup →
      restoreWatermarks text now entries coord = .ok coord' →
      (∀ v, (c.name, v) ∈ entries →
        restoreEntry text now (coord.states c) v = .ok (coord'.states c)) ∧
        (c.name ∉ entries.map Prod.fst → coord'.states c = coord.states c)
  | [], coord, coord', _, h => by
      obtain rfl := Except.ok.inj h
      exact ⟨by simp, fun _ => rfl⟩
  | (cat, entry) :: rest, coord, coord', hnodup, h => by
      obtain ⟨hnew, hrest⟩ := List.nodup_cons.mp hnodup
      rw [restoreWatermarks] at h
      cases hd : Category.ofName? cat with
      | none =>
          have hne : c.name ≠ cat := fun heq => by
            rw [← heq, Category.ofName?_name] at hd
            cases hd
          rw [hd] at h
          obtain ⟨hmem, hnot⟩ := restoreWatermarks_states c hrest h
          simp only [List.mem_cons, Prod.mk.injEq, hne, false_and, false_or, List.map_cons]
          exact ⟨hmem, hnot⟩
      | some d =>
          have hname := Category.ofName?_eq_some.mp hd
          subst hname
          rw [hd] at h
          obtain ⟨st', hentry, h⟩ := bind_eq_ok.mp h
          obtain ⟨hmem, hnot⟩ := restoreWatermarks_states c hrest h
          by_cases hcd : c = d
          · -- this is the entry of `c`, and no later one is
            subst hcd
            have hlast := hnot hnew
            rw [setState_states, if_pos rfl] at hlast
            constructor
            · intro v hv
              rcases List.mem_cons.mp hv with heq | hv
              · rw [(Prod.mk.inj heq).2, hlast]
                exact hentry
              · exact absurd (List.mem_map.mpr ⟨_, hv, rfl⟩) hnew
            · exact fun hout => absurd List.mem_cons_self hout
          · rw [setState_states, if_neg hcd] at hmem hnot
            have hne : c.name ≠ d.name := fun heq => hcd (Category.name_injective heq)
            simp only [List.mem_cons, Prod.mk.injEq, hne, false_and, false_or, List.map_cons]
            exact ⟨hmem, hnot⟩

/-- Entries of `c` that restore alike may be exchanged. -/
theorem restoreWatermarks_modify {c : Category} {f : Json → Json} :
    ∀ {entries : JsonObj} {coord : Coordinator},
      (∀ v st, (c.name, v) ∈ entries →
        restoreEntry text now st (f v) = restoreEntry text now st v) →
      restoreWatermarks text now
          (entries.map fun e => if e.1 = c.name then (e.1, f e.2) else e) coord =
        restoreWatermarks text now entries coord
  | [], _, _ => rfl
  | (cat, entry) :: rest, coord, h => by
      have ih := fun {coord : Coordinator} => @restoreWatermarks_modify c f rest coord
        fun v st hv => h v st (List.mem_cons_of_mem _ hv)
      rw [List.map_cons]
      by_cases hcat : cat = c.name
      · subst hcat
        rw [if_pos rfl, restoreWatermarks, restoreWatermarks, Category.ofName?_name]
        dsimp only
        rw [h entry (coord.states c) List.mem_cons_self]
        simp only [ih]
      · rw [if_neg hcat, restoreWatermarks, restoreWatermarks]
        simp only [ih]

/-- Entries of `c` that restore nothing may be left out. -/
theorem restoreWatermarks_drop {c : Category} :
    ∀ {entries : JsonObj} {coord : Coordinator},
      (∀ v st, (c.name, v) ∈ entries → restoreEntry text now st v = .ok st) →
      restoreWatermarks text now (withoutKey c.name entries) coord =
        restoreWatermarks text now entries coord
  | [], _, _ => rfl
  | (cat, entry) :: rest, coord, h => by
      have ih := fun {coord : Coordinator} => @restoreWatermarks_drop c rest coord
        fun v st hv => h v st (List.mem_cons_of_mem _ hv)
      unfold withoutKey at ih ⊢
      rw [List.filter_cons]
      by_cases hcat : cat = c.name
      · subst hcat
        have hsame : coord.setState c (coord.states c) = coord := by
          unfold setState
          rw [Function.update_eq_self]
        simp only [bne_self_eq_false, Bool.false_eq_true, if_false]
        rw [ih, restoreWatermarks, Category.ofName?_name]
        dsimp only
        rw [h entry (coord.states c) List.mem_cons_self, ok_bind, hsame]
      · have hbne : (cat != c.name) = true := by simpa using hcat
        simp only [hbne, if_true]
        rw [restoreWatermarks, restoreWatermarks]
        simp only [ih]

end

end Coordinator

/-! ## The contract -/

def Stored.restore (text : Text) (now : Instant) (config : UniFiClientConfig) (stored : Stored) :
    Except Exc Coordinator :=
  Coordinator.restoreWatermarks text now stored.entries (.fresh config)

/-- The state has every field of the entry that can be read, whatever is wrong with the
others. -/
structure HasReadable (text : Text) (now : Instant) (v : Json) (st : CategoryState) : Prop where
  bare : ∀ s d, v = .str s → text.fromisoformat s = some d → st.lastClearedAt = some d
  lastClearedAt : ∀ entry s d, v = .obj entry → JsonObj.get entry "last_cleared_at" = .str s →
    text.fromisoformat s = some d → st.lastClearedAt = some d
  alertCount : ∀ entry n, v = .obj entry →
    (JsonObj.getD entry "alert_count" (.int 0)).toInt = .ok n → st.alertCount = n
  lastAlert : ∀ entry alert a, v = .obj entry → JsonObj.get entry "last_alert" = .obj alert →
    UniFiAlert.fromDict text now (.obj alert) = .ok a → st.lastAlert = some a
  lastWebhookAt : ∀ entry s d, v = .obj entry → JsonObj.get entry "last_webhook_at" = .str s →
    text.fromisoformat s = some d → st.lastWebhookAt = some d

/-- The contract of `async_restore_watermarks` on a fresh coordinator: it returns, what is
corrupt restores as if it were absent and costs nothing else, what can be read is there,
and no time is naive. -/
structure RestoresSoundly (text : Text) (now : Instant) (config : UniFiClientConfig)
    (stored : Stored) : Prop where
  returns : ∃ coord, stored.restore text now config = .ok coord
  /-- A corrupt field is as good as absent, for its category and for every other. -/
  field : ∀ c v (field : StoredField), stored.at? c = some v → field.corruptIn text v = true →
    (stored.modify c (withoutField field)).restore text now config =
      stored.restore text now config
  entry : ∀ c v, stored.at? c = some v → corruptEntry text v = true →
    (stored.drop c).restore text now config = stored.restore text now config
  readable : ∀ coord, stored.restore text now config = .ok coord →
    ∀ c v, stored.at? c = some v → HasReadable text now v (coord.states c)
  aware : ∀ coord, stored.restore text now config = .ok coord →
    ∀ c, Coordinator.TimesAware (coord.states c)

section

variable {text : Text} {now : Instant}

theorem restoreStamp_readable {v : Json} {s : String} {d : DateTime} {current : Option DateTime}
    (hv : v = .str s) (hs : text.fromisoformat s = some d) :
    Coordinator.restoreStamp text v current = some d := by
  rw [hv, Coordinator.restoreStamp, hs]
  rfl

theorem hasReadable_of_restoreEntry {st st' : CategoryState} {v : Json}
    (h : Coordinator.restoreEntry text now st v = .ok st') : HasReadable text now v st' := by
  cases v with
  | str s =>
      obtain rfl := Except.ok.inj h
      refine ⟨fun s' d hs hd => ?_, fun _ _ _ hv => ?_, fun _ _ hv => ?_, fun _ _ _ hv => ?_,
        fun _ _ _ hv => ?_⟩
      · exact restoreStamp_readable hs hd
      all_goals cases hv
  | obj entry =>
      obtain ⟨alertCount, hcount, h⟩ := bind_eq_ok.mp h
      obtain ⟨lastAlert, hlast, h⟩ := bind_eq_ok.mp h
      obtain rfl := Except.ok.inj h
      constructor
      · intro s d hv
        cases hv
      · rintro _ s d ⟨⟩ hs hd
        exact restoreStamp_readable hs hd
      · rintro _ n ⟨⟩ hn
        exact Except.ok.inj (hcount.symm.trans hn)
      · rintro _ alert a ⟨⟩ halert ha
        have hdecoded : Coordinator.restoreAlert text now (.obj alert) st.lastAlert =
            .ok (some a) := by
          unfold Coordinator.restoreAlert
          dsimp only
          rw [ha]
        rw [halert] at hlast
        exact Except.ok.inj (hlast.symm.trans hdecoded)
      · rintro _ s d ⟨⟩ hs hd
        exact restoreStamp_readable hs hd
  | _ =>
      refine ⟨fun _ _ hv => ?_, fun _ _ _ hv => ?_, fun _ _ hv => ?_, fun _ _ _ hv => ?_,
        fun _ _ _ hv => ?_⟩
      all_goals cases hv

theorem intact_of_restoresSoundly {config : UniFiClientConfig} {stored : Stored}
    (h : RestoresSoundly text now config stored) : stored.Intact text := by
  intro c v hv
  obtain ⟨coord, hok⟩ := h.returns
  have hmem := Stored.at?_eq_some.mp hv
  obtain ⟨hcount, halert⟩ := Coordinator.restoreWatermarks_ok_iff.mp ⟨coord, hok⟩ c v hmem
  have hentry := (Coordinator.restoreWatermarks_states c stored.nodup hok).1 v hmem
  have htimes := (Coordinator.restoreEntry_aware_iff rfl rfl rfl hentry).mp (h.aware coord hok c)
  rw [intactEntry, hcount, halert, htimes]
  rfl

theorem restoresSoundly_of_intact {stored : Stored} (h : stored.Intact text) (now : Instant)
    (config : UniFiClientConfig) : RestoresSoundly text now config stored := by
  have hread : ∀ (c : Category) v, (c.name, v) ∈ stored.entries →
      StoredField.alertCount.corruptIn text v = false ∧
        StoredField.lastAlert.corruptIn text v = false := by
    intro c v hmem
    have hv := h c v (Stored.at?_eq_some.mpr hmem)
    rw [intactEntry, Bool.and_eq_true, Bool.and_eq_true, Bool.not_eq_true', Bool.not_eq_true'] at hv
    exact ⟨hv.1, hv.2.1⟩
  have hown : ∀ {c : Category} {v v'}, stored.at? c = some v → (c.name, v') ∈ stored.entries →
      v' = v := fun hv hmem =>
    Option.some.inj ((Stored.at?_eq_some.mpr hmem).symm.trans hv)
  constructor
  · exact Coordinator.restoreWatermarks_ok_iff.mpr hread
  · intro c v field hv hcorrupt
    refine Coordinator.restoreWatermarks_modify fun v' st hmem => ?_
    obtain rfl := hown hv hmem
    exact Coordinator.restoreEntry_withoutField
      (Coordinator.restoreEntry_ok_iff.mpr (hread c _ hmem)) hcorrupt
  · intro c v hv hcorrupt
    refine Coordinator.restoreWatermarks_drop fun v' st hmem => ?_
    obtain rfl := hown hv hmem
    exact Coordinator.restoreEntry_corrupt hcorrupt
  · intro coord hok c v hv
    exact hasReadable_of_restoreEntry
      ((Coordinator.restoreWatermarks_states c stored.nodup hok).1 v (Stored.at?_eq_some.mp hv))
  · intro coord hok c
    obtain ⟨hmem, hnot⟩ := Coordinator.restoreWatermarks_states c stored.nodup hok
    by_cases hin : c.name ∈ stored.entries.map Prod.fst
    · obtain ⟨⟨k, v⟩, hv, hk⟩ := List.mem_map.mp hin
      dsimp only at hk
      subst hk
      have hintact := h c v (Stored.at?_eq_some.mpr hv)
      rw [intactEntry, Bool.and_eq_true, Bool.and_eq_true] at hintact
      exact (Coordinator.restoreEntry_aware_iff rfl rfl rfl (hmem v hv)).mpr hintact.2.2
    · rw [hnot hin]
      refine ⟨.none, fun a hnone => ?_, .none⟩
      cases hnone

end

/-- Every stored object restores soundly exactly when it is intact: in the entries of the
categories each count is one that `int()` reads, each alert is an object or null, and each
time that can be read has an offset. -/
theorem restores_soundly_iff (text : Text) (now : Instant) (config : UniFiClientConfig)
    (stored : Stored) : RestoresSoundly text now config stored ↔ stored.Intact text :=
  ⟨intact_of_restoresSoundly, fun h => restoresSoundly_of_intact h now config⟩

/-- A count that is no number and an alert that is no object end the restore, whatever the
other entries hold; a watermark without an offset is restored as it is. -/
theorem corrupt_store_raises :
    let text := Text.counting fun s =>
      if s = "2024-01-15T10:30:00" then some (.naive 1705314600000000) else none
    let power : String × Json := ("power", .obj [("alert_count", .int 3)])
    let badCount : Stored :=
      ⟨[("network_wan", .obj [("alert_count", .str "many")]), power], by decide⟩
    let badAlert : Stored :=
      ⟨[("network_wan", .obj [("last_alert", .arr [])]), power], by decide⟩
    let naive : Stored := ⟨[("network_wan", .str "2024-01-15T10:30:00")], by decide⟩
    badCount.restore text 0 {} = .error .valueError ∧
      badAlert.restore text 0 {} = .error .attributeError ∧
      (∃ coord, naive.restore text 0 {} = .ok coord ∧
        (coord.states .networkWan).lastClearedAt = some (.naive 1705314600000000)) ∧
      ¬∀ (text : Text) (now : Instant) (config : UniFiClientConfig) (stored : Stored),
        RestoresSoundly text now config stored := by
  intro text power badCount badAlert naive
  have hcount : badCount.restore text 0 {} = .error .valueError := rfl
  refine ⟨hcount, rfl, ⟨_, rfl, rfl⟩, fun hall => ?_⟩
  obtain ⟨coord, hok⟩ := (hall text 0 {} badCount).returns
  rw [hcount] at hok
  cases hok

end UnifiAlerts
