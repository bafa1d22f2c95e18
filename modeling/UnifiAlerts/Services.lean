import UnifiAlerts.Lib.Dict
import UnifiAlerts.Lib.History

/-!
# The services and the entries

The two clear services belong to the integration, not to an entry: every
setup that ends well registers what is missing of them, and an unload
that ends well unregisters them when no other entry is left. What counts
is whether another entry exists, loaded or not, so the services are
there for every loaded entry, and may outlive the last one
(`services_follow_history`).

`ConfigEntries` holds the entries of the integration as Home Assistant lists
them. It locks an entry while it is set up, unloaded or removed; two
entries interleave in any way.

The contract gives the state of the two services as a function of the
history: registered by the first setup that ended well since they were
last unregistered, and unregistered by an unload that found itself the
last. It is proved from the general facts about such switches in
`Lib.History`, with one lemma that says what an event does to the
services (`step_services`).
-/

namespace UnifiAlerts

open Lib

/-! ## Services -/

def serviceClearCategory : String := "clear_category"
def serviceClearAll : String := "clear_all"

namespace Services

/-- `if not has_service(name): async_register(name)`. -/
def register (name : String) (services : List String) : List String :=
  if name ∈ services then services else name :: services

/-- `if has_service(name): async_remove(name)`. -/
def unregister (name : String) (services : List String) : List String :=
  if name ∈ services then services.filter (· != name) else services

@[simp] theorem mem_register {name name' : String} {services : List String} :
    name' ∈ register name services ↔ name' = name ∨ name' ∈ services := by
  unfold register
  split
  · rename_i hmem
    exact ⟨Or.inr, fun h => h.elim (fun heq => heq ▸ hmem) id⟩
  · exact List.mem_cons

@[simp] theorem mem_unregister {name name' : String} {services : List String} :
    name' ∈ unregister name services ↔ name' ≠ name ∧ name' ∈ services := by
  unfold unregister
  split
  · rw [List.mem_filter, bne_iff_ne, and_comm]
  · rename_i hmem
    exact ⟨fun h => ⟨fun heq => hmem (heq ▸ h), h⟩, And.right⟩

end Services

def asyncRegisterServices (services : List String) : List String :=
  Services.register serviceClearAll (Services.register serviceClearCategory services)

def asyncUnregisterServices (services : List String) : List String :=
  Services.unregister serviceClearAll (Services.unregister serviceClearCategory services)

/-! ## Entries -/

/-- `ConfigEntryState`; a setup that failed or is to be retried is not loaded. -/
inductive EntryState
  | notLoaded
  | setupInProgress
  | loaded
  | unloadInProgress
  | failedUnload
deriving Repr, DecidableEq

structure ConfigEntries where
  entries : List (String × EntryState) := []
  services : List String := []

inductive LifecycleEvent
  | added (entryId : String)
  | setUp (entryId : String)
  | setUpFailed (entryId : String)
  | setUpDone (entryId : String)
  | unload (entryId : String)
  | unloadDone (entryId : String) (unloadOk : Bool)
  | removed (entryId : String)
deriving DecidableEq

namespace ConfigEntries

def state (t : ConfigEntries) (i : String) : Option EntryState := t.entries.lookup i

def setState (t : ConfigEntries) (i : String) (state : EntryState) : ConfigEntries :=
  { t with entries := Dict.set t.entries i state }

/-- The entries besides `i`. -/
def remaining (t : ConfigEntries) (i : String) : List (String × EntryState) :=
  t.entries.filter (·.1 != i)

/-- The end of `async_unload_entry`. -/
def finishUnload (t : ConfigEntries) (i : String) : ConfigEntries :=
  { t.setState i .notLoaded with
    services := if t.remaining i = [] then asyncUnregisterServices t.services else t.services }

def step (t : ConfigEntries) : LifecycleEvent → ConfigEntries
  | .added i => if t.state i = none then t.setState i .notLoaded else t
  | .setUp i => if t.state i = some .notLoaded then t.setState i .setupInProgress else t
  | .setUpFailed i => if t.state i = some .setupInProgress then t.setState i .notLoaded else t
  | .setUpDone i =>
    if t.state i = some .setupInProgress then
      { t.setState i .loaded with services := asyncRegisterServices t.services }
    else t
  | .unload i => if t.state i = some .loaded then t.setState i .unloadInProgress else t
  | .unloadDone i unloadOk =>
    if t.state i = some .unloadInProgress then
      if unloadOk then t.finishUnload i else t.setState i .failedUnload
    else t
  | .removed i =>
    if t.state i = some .notLoaded ∨ t.state i = some .failedUnload then
      { t with entries := Dict.pop t.entries i }
    else t

@[simp] theorem setState_state (t : ConfigEntries) (i j : String) (state : EntryState) :
    (t.setState i state).state j = if j = i then some state else t.state j := by
  unfold ConfigEntries.state setState
  rw [Dict.lookup_set]
  by_cases hji : j = i <;> simp [hji]

theorem remaining_of_state {t : ConfigEntries} {i j : String} {state : EntryState}
    (hj : t.state j = some state) (hji : j ≠ i) : t.remaining i ≠ [] := by
  have hmem : ∃ p ∈ t.entries, p.1 = j := by
    have hsome : (t.entries.lookup j).isSome = true := by
      rw [show t.entries.lookup j = some state from hj]
      rfl
    obtain ⟨p, hp, hk⟩ := List.lookup_isSome_iff.mp hsome
    exact ⟨p, hp, (beq_iff_eq.mp hk).symm⟩
  obtain ⟨p, hp, rfl⟩ := hmem
  exact List.ne_nil_of_mem (List.mem_filter.mpr ⟨hp, by simpa using hji⟩)

/-! ## The contract -/

/-- Both services are registered. -/
def Offers (t : ConfigEntries) : Prop :=
  serviceClearCategory ∈ t.services ∧ serviceClearAll ∈ t.services

instance (t : ConfigEntries) : Decidable t.Offers := inferInstanceAs (Decidable (_ ∧ _))

/-- A setup ends well. -/
def Loads (t : ConfigEntries) (e : LifecycleEvent) : Prop :=
  ∃ i, e = .setUpDone i ∧ t.state i = some .setupInProgress

/-- An unload that ends well leaves another entry. -/
def Retains (t : ConfigEntries) (e : LifecycleEvent) : Prop :=
  ∀ i, e = .unloadDone i true → t.state i = some .unloadInProgress → t.remaining i ≠ []

theorem services_unregister {name : String} {services : List String} :
    name ∈ asyncUnregisterServices services ↔
      name ≠ serviceClearAll ∧ name ≠ serviceClearCategory ∧ name ∈ services := by
  simp [asyncUnregisterServices]

/-- What a step does to the services: a setup that ends well offers both, an unload that
leaves no entry withdraws both, and the rest keeps them. -/
theorem step_services (t : ConfigEntries) (e : LifecycleEvent) :
    (Loads t e ∧ (t.step e).services = asyncRegisterServices t.services) ∨
      (¬Loads t e ∧ ¬Retains t e ∧ (t.step e).services = asyncUnregisterServices t.services) ∨
        (¬Loads t e ∧ Retains t e ∧ (t.step e).services = t.services) := by
  have hquiet : (∀ i, e ≠ .setUpDone i) → (∀ i, e ≠ .unloadDone i true) →
      ¬Loads t e ∧ Retains t e := fun hnot hnot' =>
    ⟨fun ⟨i, he, _⟩ => hnot i he, fun i he => absurd he (hnot' i)⟩
  have hkept : ∀ (c : Prop) [Decidable c] (i : String) (state : EntryState),
      (if c then t.setState i state else t).services = t.services := by
    intro c _ i state
    split <;> rfl
  cases e with
  | setUpDone i =>
      by_cases hi : t.state i = some .setupInProgress
      · exact Or.inl ⟨⟨i, rfl, hi⟩, by simp [step, hi]⟩
      · refine Or.inr (Or.inr ⟨?_, fun _ he => (nomatch he), by simp [step, hi]⟩)
        rintro ⟨j, hj, hstate⟩
        obtain rfl := LifecycleEvent.setUpDone.inj hj
        exact hi hstate
  | unloadDone i unloadOk =>
      refine Or.inr ?_
      have hnot : ¬Loads t (.unloadDone i unloadOk) := fun ⟨_, he, _⟩ => nomatch he
      by_cases hlast : unloadOk = true ∧ t.state i = some .unloadInProgress ∧ t.remaining i = []
      · obtain ⟨rfl, hi, hnone⟩ := hlast
        exact Or.inl ⟨hnot, fun h => h i rfl hi hnone, by simp [step, hi, finishUnload, hnone]⟩
      · refine Or.inr ⟨hnot, fun j hj hstate hnone => ?_, ?_⟩
        · obtain ⟨rfl, rfl⟩ := LifecycleEvent.unloadDone.inj hj
          exact hlast ⟨rfl, hstate, hnone⟩
        · simp only [step]
          split
          · rename_i hi
            split
            · rename_i hok
              have hsome : t.remaining i ≠ [] := fun hnone => hlast ⟨hok, hi, hnone⟩
              simp only [finishUnload, if_neg hsome]
            · rfl
          · rfl
  | removed i =>
      obtain ⟨hnot, hretains⟩ := hquiet (by simp) (by simp)
      refine Or.inr (Or.inr ⟨hnot, hretains, ?_⟩)
      simp only [step]
      split <;> rfl
  | added i =>
      obtain ⟨hnot, hretains⟩ := hquiet (by simp) (by simp)
      exact Or.inr (Or.inr ⟨hnot, hretains, hkept _ _ _⟩)
  | setUp i =>
      obtain ⟨hnot, hretains⟩ := hquiet (by simp) (by simp)
      exact Or.inr (Or.inr ⟨hnot, hretains, hkept _ _ _⟩)
  | setUpFailed i =>
      obtain ⟨hnot, hretains⟩ := hquiet (by simp) (by simp)
      exact Or.inr (Or.inr ⟨hnot, hretains, hkept _ _ _⟩)
  | unload i =>
      obtain ⟨hnot, hretains⟩ := hquiet (by simp) (by simp)
      exact Or.inr (Or.inr ⟨hnot, hretains, hkept _ _ _⟩)

/-- Both services stand together, and do for a loaded entry. -/
structure Inv (t : ConfigEntries) : Prop where
  together : serviceClearCategory ∈ t.services ↔ serviceClearAll ∈ t.services
  loaded : ∀ i, t.state i = some .loaded → t.Offers

/-- A loaded entry was loaded before, or has just been set up. -/
theorem loaded_of_step {t : ConfigEntries} {e : LifecycleEvent} {i : String}
    (hi : (t.step e).state i = some .loaded) : Loads t e ∨
      (t.state i = some .loaded ∧ ∀ j, e = .unloadDone j true → t.state j = some .unloadInProgress →
        j ≠ i) := by
  have hset : ∀ (c : Prop) [Decidable c] (j : String) (state : EntryState), state ≠ .loaded →
      (if c then t.setState j state else t).state i = some .loaded → t.state i = some .loaded := by
    intro c _ j state hne h
    split at h
    · rw [setState_state] at h
      split at h
      · exact absurd (Option.some.inj h) hne
      · exact h
    · exact h
  cases e with
  | setUpDone j =>
      by_cases hj : t.state j = some .setupInProgress
      · exact Or.inl ⟨j, rfl, hj⟩
      · rw [step, if_neg hj] at hi
        exact Or.inr ⟨hi, fun _ he => nomatch he⟩
  | unloadDone j unloadOk =>
      have hold : t.state i = some .loaded := by
        simp only [step] at hi
        split at hi
        · split at hi
          · have hfinish : (t.setState j .notLoaded).state i = some .loaded := hi
            rw [setState_state] at hfinish
            split at hfinish
            · cases hfinish
            · exact hfinish
          · rw [setState_state] at hi
            split at hi
            · cases hi
            · exact hi
        · exact hi
      refine Or.inr ⟨hold, fun k hk hstate hki => ?_⟩
      rw [← hki, hstate] at hold
      cases hold
  | removed j =>
      refine Or.inr ⟨?_, fun _ he => nomatch he⟩
      simp only [step] at hi
      split at hi
      · simp only [ConfigEntries.state, Dict.lookup_pop] at hi
        split at hi
        · cases hi
        · exact hi
      · exact hi
  | added j => exact Or.inr ⟨hset _ _ _ (by decide) hi, fun _ he => nomatch he⟩
  | setUp j => exact Or.inr ⟨hset _ _ _ (by decide) hi, fun _ he => nomatch he⟩
  | setUpFailed j => exact Or.inr ⟨hset _ _ _ (by decide) hi, fun _ he => nomatch he⟩
  | unload j => exact Or.inr ⟨hset _ _ _ (by decide) hi, fun _ he => nomatch he⟩

theorem Inv.step {t : ConfigEntries} (h : Inv t) (e : LifecycleEvent) : Inv (t.step e) := by
  have hne : serviceClearCategory ≠ serviceClearAll := by decide
  rcases step_services t e with ⟨-, hs⟩ | ⟨hnot, hlast, hs⟩ | ⟨hnot, -, hs⟩
  · exact ⟨by simp [hs, asyncRegisterServices], fun _ _ => by
      simp [Offers, hs, asyncRegisterServices]⟩
  · refine ⟨by simp [hs, services_unregister], fun i hi => ?_⟩
    -- a loaded entry is what the unload leaves
    rcases loaded_of_step hi with hloads | ⟨hloaded, hother⟩
    · exact absurd hloads hnot
    · exact absurd (fun j he hj => remaining_of_state hloaded (hother j he hj).symm) hlast
  · refine ⟨by rw [hs]; exact h.together, fun i hi => ?_⟩
    rcases loaded_of_step hi with hloads | ⟨hloaded, -⟩
    · exact absurd hloads hnot
    · unfold Offers
      rw [hs]
      exact h.loaded i hloaded

theorem offers_step (t : ConfigEntries) (e : LifecycleEvent) :
    (t.step e).Offers ↔ Loads t e ∨ t.Offers ∧ Retains t e := by
  unfold Offers
  rcases step_services t e with ⟨hloads, hs⟩ | ⟨hnot, hlast, hs⟩ | ⟨hnot, hretains, hs⟩
  · rw [hs]
    exact iff_of_true (by simp [asyncRegisterServices]) (Or.inl hloads)
  · rw [hs]
    exact iff_of_false (by simp [services_unregister]) fun h =>
      h.elim hnot fun hkept => hlast hkept.2
  · rw [hs, or_iff_right hnot, and_iff_left hretains]

theorem inv_empty : Inv {} := ⟨by decide, fun _ hi => nomatch hi⟩

/-- What the services are to the rest of Home Assistant after a run. -/
structure ServicesContract (es : List LifecycleEvent) : Prop where
  together : serviceClearCategory ∈ (run step {} es).services ↔
    serviceClearAll ∈ (run step {} es).services
  loaded : ∀ i, (run step {} es).state i = some .loaded → (run step {} es).Offers
  history : (run step {} es).Offers ↔ Since step Loads Retains {} es

end ConfigEntries

open ConfigEntries

/-- For any number of entries that are set up, unloaded and removed in any interleaving:
the two services are there together, they are there while an entry is loaded, and they are
there exactly since a setup after which no unload was that of the only entry. -/
theorem services_follow_history (es : List LifecycleEvent) : ServicesContract es := by
  have hinv : Inv (run step {} es) := run_preserves (fun _ e h => h.step e) inv_empty es
  refine ⟨hinv.together, hinv.loaded, ?_⟩
  rw [run_iff_since (fun _ e h => h.step e) (fun t e _ => offers_step t e) inv_empty]
  exact or_iff_right fun h => absurd h.1 (by decide)

/-- The services of an entry that was unloaded while another entry existed stay, also when
both are removed. -/
example : (run step {} [.added "home", .added "office", .setUp "home", .setUpDone "home",
    .unload "home", .unloadDone "home" true, .removed "home", .removed "office"]).Offers := by
  decide

end UnifiAlerts
