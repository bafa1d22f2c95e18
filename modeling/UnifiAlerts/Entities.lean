import UnifiAlerts.Diagnostics
import UnifiAlerts.Lib.Catalog
import UnifiAlerts.Lib.History
import UnifiAlerts.Lib.Words

/-!
# Entities and the entity registry

The entities that the four platforms add for an entry, their unique ids,
and what a setup does to Home Assistant's entity registry: the entities
of disabled categories are pruned, by a prefix of their unique ids, and
the platforms register those of the enabled ones.

Unique ids are free texts around words, and no two entities of any
entries share one (`uniqueId_injective`), so a prefix selects exactly
the entities of its category (`hasPrefix_iff`). `Host` is any number of
entries that are set up, pruned, forwarded to the platforms and unloaded
in any order over one registry, which keeps the item of a registered key.
What id it hands out for any other, a new one or that of an item which
has been removed, is its own affair (`Catalog.Mint`).
-/

namespace UnifiAlerts

open Py Lib

/-! ## Unique ids and platforms -/

namespace Entity

/-- `_attr_unique_id`. -/
def uniqueId (entryId : String) : Entity → String
  | categoryBinarySensor c => entryId ++ "_" ++ c.name ++ "_binary"
  | rollupBinarySensor => entryId ++ "_rollup_binary"
  | categoryMessageSensor c => entryId ++ "_" ++ c.name ++ "_message"
  | categoryCountSensor c => entryId ++ "_" ++ c.name ++ "_count"
  | webhookHealthSensor c => entryId ++ "_" ++ c.name ++ "_webhook_health"
  | rollupCountSensor => entryId ++ "_rollup_count"
  | alertEventEntity c => entryId ++ "_" ++ c.name ++ "_event"
  | clearCategoryButton c => entryId ++ "_" ++ c.name ++ "_clear"
  | clearAllButton => entryId ++ "_clear_all"

/-- What the registry knows an entity by. -/
def key (entryId : String) (x : Entity) : Platform × String := (x.platform, x.uniqueId entryId)

end Entity

namespace Platform

def all : List Platform := [.binarySensor, .sensor, .event, .button]

theorem mem_all (p : Platform) : p ∈ all := by cases p <;> decide

/-- The `async_setup_entry` of each platform: the entities it adds. -/
def setupEntry (coord : Coordinator) : Platform → List Entity
  | .binarySensor => coord.enabledCategories.map .categoryBinarySensor ++ [.rollupBinarySensor]
  | .sensor =>
    (coord.enabledCategories.flatMap fun c =>
      [.categoryMessageSensor c, .categoryCountSensor c, .webhookHealthSensor c]) ++
        [.rollupCountSensor]
  | .event => coord.enabledCategories.map .alertEventEntity
  | .button => coord.enabledCategories.map .clearCategoryButton ++ [.clearAllButton]

theorem mem_enabledCategories {coord : Coordinator} {c : Category} :
    c ∈ coord.enabledCategories ↔ (coord.states c).enabled = true := by
  rw [Coordinator.enabledCategories, List.mem_filter]
  exact and_iff_right c.mem_all

theorem mem_setupEntry {coord : Coordinator} {p : Platform} {x : Entity} :
    x ∈ p.setupEntry coord ↔ x.platform = p ∧ x.shown coord = true := by
  have hmem := fun c => @mem_enabledCategories coord c
  cases p <;> cases x <;>
    simp [setupEntry, Entity.platform, Entity.shown, Entity.category?, hmem]

end Platform

/-! ## Unique ids -/

namespace Entity

/-- The words of a unique id: what comes after the entry id, and the last one. -/
def stem : Entity → String
  | rollupBinarySensor | rollupCountSensor => "rollup"
  | clearAllButton => "clear"
  | categoryBinarySensor c | categoryMessageSensor c | categoryCountSensor c
  | webhookHealthSensor c | alertEventEntity c | clearCategoryButton c => c.name

def kind : Entity → String
  | categoryBinarySensor _ | rollupBinarySensor => "binary"
  | categoryMessageSensor _ => "message"
  | categoryCountSensor _ | rollupCountSensor => "count"
  | webhookHealthSensor _ => "webhook_health"
  | alertEventEntity _ => "event"
  | clearCategoryButton _ => "clear"
  | clearAllButton => "all"

def stems : List (List Char) :=
  ("rollup" :: "clear" :: allCategories.map Category.name).map String.toList

def kinds : List (List Char) :=
  ["binary", "message", "count", "webhook_health", "event", "clear", "all"].map String.toList

theorem stems_suffixFree : SuffixFree '_' stems := by decide +kernel

theorem stems_prefixFree : PrefixFree '_' stems := by decide +kernel

theorem kinds_suffixFree : SuffixFree '_' kinds := by decide +kernel

theorem name_mem_stems (c : Category) : c.name.toList ∈ stems := by
  have hname : c.name ∈ allCategories.map Category.name := List.mem_map_of_mem c.mem_all
  exact List.mem_map_of_mem (List.mem_cons_of_mem _ (List.mem_cons_of_mem _ hname))

theorem stem_mem (x : Entity) : x.stem.toList ∈ stems := by
  cases x <;> first | exact name_mem_stems _ | exact List.mem_map_of_mem (by simp [stem])

theorem kind_mem (x : Entity) : x.kind.toList ∈ kinds :=
  List.mem_map_of_mem (by cases x <;> simp [kind])

/-- The texts between the entry id and the category, and after it. -/
theorem toList_of_sep {s t : String} (h : "_" ++ t = s) : s.toList = '_' :: t.toList := by
  rw [← h, String.toList_append]
  rfl

theorem categoryId_toList {i : String} {c : Category} {s t : String} (h : "_" ++ t = s) :
    (i ++ "_" ++ c.name ++ s).toList = (i.toList ++ '_' :: c.name.toList) ++ '_' :: t.toList := by
  rw [String.toList_append, toList_of_sep h, String.append_assoc, String.toList_append,
    toList_of_sep rfl]

theorem rollupId_toList {i : String} {s t u : String} (h : "_" ++ t ++ ("_" ++ u) = s) :
    (i ++ s).toList = (i.toList ++ '_' :: t.toList) ++ '_' :: u.toList := by
  rw [← h, String.toList_append, String.toList_append, toList_of_sep rfl, toList_of_sep rfl,
    List.append_assoc]

theorem uniqueId_toList (i : String) (x : Entity) :
    (x.uniqueId i).toList = (i.toList ++ '_' :: x.stem.toList) ++ '_' :: x.kind.toList := by
  cases x with
  | rollupBinarySensor => exact rollupId_toList (by decide)
  | rollupCountSensor => exact rollupId_toList (by decide)
  | clearAllButton => exact rollupId_toList (by decide)
  | categoryBinarySensor c => exact @categoryId_toList i c "_binary" "binary" (by decide)
  | categoryMessageSensor c => exact @categoryId_toList i c "_message" "message" (by decide)
  | categoryCountSensor c => exact @categoryId_toList i c "_count" "count" (by decide)
  | webhookHealthSensor c =>
      exact @categoryId_toList i c "_webhook_health" "webhook_health" (by decide)
  | alertEventEntity c => exact @categoryId_toList i c "_event" "event" (by decide)
  | clearCategoryButton c => exact @categoryId_toList i c "_clear" "clear" (by decide)

theorem eq_of_words {x y : Entity} (hstem : x.stem = y.stem) (hkind : x.kind = y.kind) : x = y := by
  have hrollup : ∀ c : Category, c.name ≠ "rollup" := fun c => by cases c <;> decide
  cases x <;> cases y <;>
    first
    | rfl
    | exact congrArg _ (Category.name_injective hstem)
    | exact absurd hstem (hrollup _)
    | exact absurd hstem.symm (hrollup _)
    | simp [kind] at hkind

/-- No two entities share a unique id, whatever the ids of their entries. -/
theorem uniqueId_injective {i j : String} {x y : Entity} :
    x.uniqueId i = y.uniqueId j ↔ i = j ∧ x = y := by
  refine ⟨fun h => ?_, fun ⟨hi, hx⟩ => by rw [hi, hx]⟩
  have hlist := congrArg String.toList h
  rw [uniqueId_toList, uniqueId_toList] at hlist
  obtain ⟨hfront, hkind⟩ := kinds_suffixFree.eq_of_append x.kind_mem y.kind_mem hlist
  obtain ⟨hentry, hstem⟩ := stems_suffixFree.eq_of_append x.stem_mem y.stem_mem hfront
  exact ⟨String.toList_inj.mp hentry,
    eq_of_words (String.toList_inj.mp hstem) (String.toList_inj.mp hkind)⟩

theorem key_injective {i j : String} {x y : Entity} (h : x.key i = y.key j) : i = j ∧ x = y :=
  uniqueId_injective.mp (congrArg Prod.snd h)

theorem stem_eq_name {x : Entity} {c : Category} : c.name = x.stem ↔ x.category? = some c := by
  have hrollup : c.name ≠ "rollup" := by cases c <;> decide
  have hclear : c.name ≠ "clear" := by cases c <;> decide
  cases x <;> simp [stem, category?, Category.name_injective.eq_iff, hrollup, hclear, eq_comm]

end Entity

/-! ## Pruning -/

abbrev EntityRegistry := Catalog (Platform × String) String

def disabledPrefixes (entryId : String) (coord : Coordinator) : List String :=
  (allCategories.filter fun c => !(coord.states c).enabled).map fun c =>
    entryId ++ "_" ++ c.name ++ "_"

/-- `unique_id.startswith(disabled_prefixes)`. -/
def startsWithAny (uniqueId : String) (starts : List String) : Bool :=
  starts.any (startsWith uniqueId)

def pruneDisabledCategoryEntities (entryId : String) (coord : Coordinator)
    (registry : EntityRegistry) : EntityRegistry :=
  let starts := disabledPrefixes entryId coord
  if starts.isEmpty then registry
  else registry.removeEach (fun item => startsWithAny item.key.2 starts) (registry.ofOwner entryId)

theorem startsWith_category {i : String} {c : Category} {x : Entity} :
    startsWith (x.uniqueId i) (i ++ "_" ++ c.name ++ "_") = true ↔ x.category? = some c := by
  have hstart : (i ++ "_" ++ c.name ++ "_").toList =
      i.toList ++ '_' :: (c.name.toList ++ ['_']) := by
    rw [String.append_assoc, String.append_assoc, String.toList_append,
      Entity.toList_of_sep (t := c.name ++ "_") rfl, String.toList_append]
    rfl
  rw [startsWith, List.isPrefixOf_iff_prefix, hstart, Entity.uniqueId_toList, List.append_assoc,
    List.prefix_append_right_inj, List.cons_append, List.cons_prefix_cons, ← Entity.stem_eq_name]
  refine ⟨fun h => ?_, fun h => ?_⟩
  · exact String.toList_inj.mp (Entity.stems_prefixFree.eq_of_prefix (Entity.name_mem_stems c)
      x.stem_mem h.2)
  · rw [h]
    exact ⟨rfl, ⟨x.kind.toList, by simp⟩⟩

/-- An entity is pruned exactly when the platforms do not add it. -/
theorem startsWithAny_disabled {i : String} {coord : Coordinator} {x : Entity} :
    startsWithAny (x.uniqueId i) (disabledPrefixes i coord) = !x.shown coord := by
  rw [Bool.eq_iff_iff, startsWithAny, disabledPrefixes, List.any_map, List.any_eq_true]
  simp only [Function.comp, startsWith_category, List.mem_filter, Bool.not_eq_true', Entity.shown]
  constructor
  · rintro ⟨c, ⟨-, hdisabled⟩, hc⟩
    rw [hc]
    exact hdisabled
  · intro hnot
    cases hc : x.category? with
    | none =>
        rw [hc] at hnot
        cases hnot
    | some c =>
        rw [hc] at hnot
        exact ⟨c, ⟨c.mem_all, hnot⟩, rfl⟩

/-- The loop and its shortcut are one filter. -/
theorem prune_eq {registry : EntityRegistry} (h : registry.WellFormed) (i : String)
    (coord : Coordinator) : pruneDisabledCategoryEntities i coord registry =
      { items := registry.items.filter fun item =>
          !(item.owner == i && startsWithAny item.key.2 (disabledPrefixes i coord)) } := by
  unfold pruneDisabledCategoryEntities
  dsimp only
  split
  · rename_i hnone
    rw [List.isEmpty_iff] at hnone
    simp [hnone, startsWithAny]
  · exact h.removeEach_ofOwner _ i

/-! ## Entries over one registry -/

/-- An entry from its pruning to its unload, with the platforms it has been forwarded to. -/
structure RunningEntry where
  config : UniFiClientConfig
  coord : Coordinator
  forwarded : Platform → Bool := fun _ => false

structure Host where
  registry : EntityRegistry := {}
  running : String → Option RunningEntry := fun _ => none

/-- What happens to an entry, and to the registry besides: the user deletes an entity that
no entry provides, and Home Assistant drops the items of an entry that is removed. The ids
of the entities that a platform registers may be any. -/
inductive HostEvent
  | setUp (entryId : String) (config : UniFiClientConfig) (coord : Coordinator)
  | forward (entryId : String) (p : Platform) (mint : Catalog.Mint (Platform × String) String)
  | call (entryId : String) (t : TimedOp)
  | unload (entryId : String)
  | deleted (id : Nat)
  | removed (entryId : String)

/-- The entry that the event is about. -/
def HostEvent.entryId? : HostEvent → Option String
  | .setUp i _ _ | .forward i _ _ | .call i _ | .unload i | .removed i => some i
  | .deleted _ => none

namespace Host

/-- Some entry that is set up has an entity under this id. -/
def provides (s : Host) (id : Nat) : Bool :=
  s.registry.items.any fun item => item.id == id && (s.running item.owner).isSome

def step (s : Host) : HostEvent → Host
  | .setUp i config coord =>
    match s.running i with
    | some _ => s
    | none =>
      { registry := pruneDisabledCategoryEntities i coord s.registry
        running := Function.update s.running i (some { config, coord }) }
  | .forward i p mint =>
    match s.running i with
    | none => s
    | some e =>
      { registry := s.registry.registerAll mint i ((p.setupEntry e.coord).map (Entity.key i))
        running := Function.update s.running i
          (some { e with forwarded := Function.update e.forwarded p true }) }
  | .call i t =>
    match s.running i with
    | none => s
    | some e =>
      { s with
        running := Function.update s.running i
          (some { e with coord := Coordinator.step e.config e.coord t }) }
  | .unload i => { s with running := Function.update s.running i none }
  | .deleted id => if s.provides id then s else { s with registry := s.registry.remove id }
  | .removed i =>
    match s.running i with
    | some _ => s
    | none => { s with registry := s.registry.removeOwned i }

/-! ## What every step keeps -/

/-- What every step of the host keeps: the registry is well formed and has entities of
this integration only, of a running entry none whose category is disabled, and all
entities of the platforms that are set up. -/
structure Consistent (s : Host) : Prop where
  wellFormed : s.registry.WellFormed
  owned : ∀ item ∈ s.registry.items, ∃ x : Entity, item.key = x.key item.owner
  /-- No entity of a disabled category is left. -/
  shown : ∀ i e, s.running i = some e → ∀ x : Entity, s.registry.Holds (x.key i) →
    x.shown e.coord = true
  /-- A platform's entities are registered once it is set up. -/
  added : ∀ i e, s.running i = some e → ∀ p, e.forwarded p = true →
    ∀ x ∈ p.setupEntry e.coord, s.registry.Holds (x.key i)

theorem shown_step (config : UniFiClientConfig) (coord : Coordinator) (t : TimedOp) (x : Entity) :
    x.shown (Coordinator.step config coord t) = x.shown coord := by
  unfold Entity.shown
  cases x.category? with
  | none => rfl
  | some c => exact Coordinator.step_enabled config coord t c

variable {s : Host}

/-- An item under an entity's key belongs to the entity's entry. -/
theorem Consistent.owner_of_key (h : Consistent s) {item : Catalog.Item (Platform × String) String}
    (hitem : item ∈ s.registry.items) {i : String} {x : Entity} (hk : item.key = x.key i) :
    item.owner = i := by
  obtain ⟨y, hy⟩ := h.owned item hitem
  exact (Entity.key_injective (hy.symm.trans hk)).1

/-- Dropping items of entries that are not running, or that no running entry shows. -/
theorem Consistent.filter (h : Consistent s) (p : Catalog.Item (Platform × String) String → Bool)
    (hp : ∀ i e, s.running i = some e → ∀ item ∈ s.registry.items, item.owner = i → p item = true) :
    Consistent { s with registry := { items := s.registry.items.filter p } } where
  wellFormed := h.wellFormed.filter p
  owned := fun item hitem => h.owned item (List.mem_of_mem_filter hitem)
  shown := fun i e hi x ⟨item, hitem, hk⟩ =>
    h.shown i e hi x ⟨item, List.mem_of_mem_filter hitem, hk⟩
  added := fun i e hi q hq x hx => by
    obtain ⟨item, hitem, hk⟩ := h.added i e hi q hq x hx
    have hkeep := hp i e hi item hitem (h.owner_of_key hitem hk)
    exact ⟨item, List.mem_filter.mpr ⟨hitem, hkeep⟩, hk⟩

theorem Consistent.unload (h : Consistent s) (i : String) :
    Consistent (s.step (.unload i)) where
  wellFormed := h.wellFormed
  owned := h.owned
  shown := fun j e hj => by
    by_cases hji : j = i
    · subst hji
      simp [step] at hj
    · simp only [step, Function.update_of_ne hji] at hj
      exact h.shown j e hj
  added := fun j e hj => by
    by_cases hji : j = i
    · subst hji
      simp [step] at hj
    · simp only [step, Function.update_of_ne hji] at hj
      exact h.added j e hj

/-- The registry of a setup holds what it held, without the pruned entities. -/
theorem holds_setUp (h : Consistent s) {i : String} (hi : s.running i = none)
    {config : UniFiClientConfig} {coord : Coordinator}
    {item : Catalog.Item (Platform × String) String} :
    item ∈ (s.step (.setUp i config coord)).registry.items ↔ item ∈ s.registry.items ∧
      (item.owner = i → ∀ x : Entity, item.key = x.key i → x.shown coord = true) := by
  simp only [step, hi, prune_eq h.wellFormed, List.mem_filter]
  refine and_congr_right fun hitem => ?_
  obtain ⟨x, hx⟩ := h.owned item hitem
  rw [Bool.not_eq_true', Bool.and_eq_false_iff]
  constructor
  · rintro hkept rfl y hy
    obtain ⟨-, rfl⟩ := Entity.key_injective (hx.symm.trans hy)
    rw [hx] at hkept
    simpa [Entity.key, startsWithAny_disabled] using hkept
  · intro hshown
    by_cases howner : item.owner = i
    · refine Or.inr ?_
      subst howner
      rw [hx, Entity.key, startsWithAny_disabled, hshown rfl x hx]
      rfl
    · exact Or.inl (beq_false_of_ne howner)

theorem Consistent.setUp (h : Consistent s) {i : String} (hi : s.running i = none)
    (config : UniFiClientConfig) (coord : Coordinator) :
    Consistent (s.step (.setUp i config coord)) where
  wellFormed := by
    simp only [step, hi, prune_eq h.wellFormed]
    exact h.wellFormed.filter _
  owned := fun item hitem => h.owned item ((holds_setUp h hi).mp hitem).1
  shown := fun j e hj x ⟨item, hitem, hk⟩ => by
    obtain ⟨hbefore, hkept⟩ := (holds_setUp h hi).mp hitem
    simp only [step, hi, Function.update_apply] at hj
    split at hj
    · rename_i hji
      obtain rfl := Option.some.inj hj
      subst hji
      exact hkept (h.owner_of_key hbefore hk) x hk
    · exact h.shown j e hj x ⟨item, hbefore, hk⟩
  added := fun j e hj p hp x hx => by
    simp only [step, hi, Function.update_apply] at hj
    split at hj
    · obtain rfl := Option.some.inj hj
      cases hp
    · rename_i hji
      obtain ⟨item, hitem, hk⟩ := h.added j e hj p hp x hx
      refine ⟨item, (holds_setUp h hi).mpr ⟨hitem, fun howner => ?_⟩, hk⟩
      exact absurd ((h.owner_of_key hitem hk).symm.trans howner) hji

theorem Consistent.forward_own (h : Consistent s) {i : String} {e : RunningEntry} {p : Platform} :
    ∀ item ∈ s.registry.items,
      item.key ∈ (p.setupEntry e.coord).map (Entity.key i) → item.owner = i := by
  intro item hitem hk
  obtain ⟨x, -, hx⟩ := List.mem_map.mp hk
  exact h.owner_of_key hitem hx.symm

theorem Consistent.forward (h : Consistent s) {i : String} {e : RunningEntry}
    (hi : s.running i = some e) (p : Platform)
    (mint : Catalog.Mint (Platform × String) String) :
    Consistent (s.step (.forward i p mint)) := by
  simp only [step, hi]
  refine ⟨h.wellFormed.registerAll _ _ _, fun item hitem => ?_, fun j e' hj x hx => ?_,
    fun j e' hj q hq x hx => ?_⟩
  · rcases Catalog.mem_of_registerAll h.forward_own hitem with hitem | ⟨howner, hk⟩
    · exact h.owned item hitem
    · obtain ⟨x, -, hx⟩ := List.mem_map.mp hk
      exact ⟨x, by rw [howner, hx]⟩
  · dsimp only at hj hx
    rw [Catalog.holds_registerAll] at hx
    have hshown : ∀ e'', s.running j = some e'' → x.shown e''.coord = true := by
      intro e'' hj''
      rcases hx with hx | hx
      · obtain ⟨y, hy, hyx⟩ := List.mem_map.mp hx
        obtain ⟨rfl, rfl⟩ := Entity.key_injective hyx
        obtain rfl := Option.some.inj (hi.symm.trans hj'')
        exact (Platform.mem_setupEntry.mp hy).2
      · exact h.shown j e'' hj'' x hx
    rw [Function.update_apply] at hj
    split at hj
    · rename_i hji
      obtain rfl := Option.some.inj hj
      exact hshown e (hji ▸ hi)
    · exact hshown e' hj
  · dsimp only at hj ⊢
    rw [Catalog.holds_registerAll]
    rw [Function.update_apply] at hj
    split at hj
    · rename_i hji
      subst hji
      obtain rfl := Option.some.inj hj
      dsimp only at hq hx
      rw [Function.update_apply] at hq
      split at hq
      · rename_i hqp
        exact Or.inl (List.mem_map_of_mem (hqp ▸ hx))
      · exact Or.inr (h.added j e hi q hq x hx)
    · exact Or.inr (h.added j e' hj q hq x hx)

theorem Consistent.call (h : Consistent s) {i : String} {e : RunningEntry}
    (hi : s.running i = some e) (t : TimedOp) : Consistent (s.step (.call i t)) := by
  -- a method of the coordinator enables and disables nothing
  have hsame : ∀ (p : Platform) x, x ∈ p.setupEntry (Coordinator.step e.config e.coord t) ↔
      x ∈ p.setupEntry e.coord := by
    intro p x
    rw [Platform.mem_setupEntry, Platform.mem_setupEntry, shown_step]
  simp only [step, hi]
  refine ⟨h.wellFormed, h.owned, fun j e' hj x hx => ?_, fun j e' hj q hq x hx => ?_⟩
  · dsimp only at hj
    rw [Function.update_apply] at hj
    split at hj
    · rename_i hji
      obtain rfl := Option.some.inj hj
      rw [shown_step]
      exact h.shown i e hi x (hji ▸ hx)
    · exact h.shown j e' hj x hx
  · dsimp only at hj
    rw [Function.update_apply] at hj
    split at hj
    · rename_i hji
      obtain rfl := Option.some.inj hj
      exact h.added j e (hji ▸ hi) q hq x ((hsame q x).mp hx)
    · exact h.added j e' hj q hq x hx

theorem Consistent.step (h : Consistent s) (e : HostEvent) : Consistent (s.step e) := by
  cases e with
  | setUp i config coord =>
      cases hi : s.running i with
      | none => exact h.setUp hi config coord
      | some e => simpa only [Host.step, hi] using h
  | forward i p mint =>
      cases hi : s.running i with
      | none => simpa only [Host.step, hi] using h
      | some e => exact h.forward hi p mint
  | call i t =>
      cases hi : s.running i with
      | none => simpa only [Host.step, hi] using h
      | some e => exact h.call hi t
  | unload i => exact h.unload i
  | deleted id =>
      simp only [Host.step]
      split
      · exact h
      · rename_i hprovides
        refine h.filter _ fun i e hi item hitem howner => ?_
        simp only [provides, List.any_eq_true, Bool.and_eq_true, beq_iff_eq, not_exists,
          not_and] at hprovides
        rw [bne_iff_ne]
        intro hid
        exact hprovides item hitem hid (by rw [howner, hi]; rfl)
  | removed i =>
      cases hi : s.running i with
      | some e => simpa only [Host.step, hi] using h
      | none =>
          simp only [Host.step, hi]
          refine h.filter _ fun j e hj item hitem howner => ?_
          rw [bne_iff_ne, howner]
          rintro rfl
          rw [hi] at hj
          cases hj

/-! ## The registry of a run -/

/-- A registry of what the integration has registered, with nothing running. -/
structure Stored (registry : EntityRegistry) : Prop where
  wellFormed : registry.WellFormed
  owned : ∀ item ∈ registry.items, ∃ x : Entity, item.key = x.key item.owner

theorem Stored.consistent {registry : EntityRegistry} (h : Stored registry) :
    Consistent { registry } where
  wellFormed := h.wellFormed
  owned := h.owned
  shown := fun _ _ hi => nomatch hi
  added := fun _ _ hi => nomatch hi

theorem Consistent.run (h : Consistent s) (es : List HostEvent) :
    Consistent (Lib.run Host.step s es) :=
  run_preserves (fun _ e h => h.step e) h es

/-- What the registry holds for an entry is what its platforms add: nothing besides, and
each entity under one item. -/
structure Exact (s : Host) (i : String) (coord : Coordinator) : Prop where
  only : ∀ item ∈ s.registry.ofOwner i, ∃ p : Platform, ∃ x ∈ p.setupEntry coord, item.key = x.key i
  each : ∀ p : Platform, ∀ x ∈ p.setupEntry coord,
    ∃! item, item ∈ s.registry.ofOwner i ∧ item.key = x.key i

theorem Consistent.exact (h : Consistent s) {i : String} {e : RunningEntry}
    (hi : s.running i = some e) (hall : ∀ p, e.forwarded p = true) : Exact s i e.coord where
  only := fun item hitem => by
    obtain ⟨hmem, rfl⟩ := Catalog.mem_ofOwner.mp hitem
    obtain ⟨x, hx⟩ := h.owned item hmem
    have hshown := h.shown _ e hi x ⟨item, hmem, hx⟩
    exact ⟨x.platform, x, Platform.mem_setupEntry.mpr ⟨rfl, hshown⟩, hx⟩
  each := fun p x hx => by
    obtain ⟨item, hitem, hk⟩ := h.added i e hi p (hall p) x hx
    refine ⟨item, ⟨Catalog.mem_ofOwner.mpr ⟨hitem, h.owner_of_key hitem hk⟩, hk⟩, ?_⟩
    rintro other ⟨hother, hok⟩
    exact h.wellFormed.eq_of_key (Catalog.mem_ofOwner.mp hother).1 hitem (hok.trans hk.symm)

/-- The event does not take the item away: its category is enabled when its entry is set up,
and neither it nor its entry is removed. -/
def Keeps (item : Catalog.Item (Platform × String) String) (s : Host) : HostEvent → Prop
  | .setUp i _ coord => s.running i = none → item.owner = i →
      ∀ x : Entity, item.key = x.key i → x.shown coord = true
  | .deleted id => s.provides id = false → id ≠ item.id
  | .removed i => s.running i = none → i ≠ item.owner
  | _ => True

variable {item : Catalog.Item (Platform × String) String}

theorem mem_step_iff (h : Consistent s) (hitem : item ∈ s.registry.items) (e : HostEvent) :
    item ∈ (s.step e).registry.items ↔ Keeps item s e := by
  cases e with
  | setUp i config coord =>
      cases hi : s.running i with
      | none =>
          rw [holds_setUp h hi, and_iff_right hitem]
          exact ⟨fun hkept _ => hkept, fun hkept => hkept hi⟩
      | some e =>
          simp only [Host.step, Keeps, hi]
          exact iff_of_true hitem fun hnone => nomatch hnone
  | forward i p mint =>
      refine iff_of_true ?_ trivial
      cases hi : s.running i with
      | none => simpa only [Host.step, hi] using hitem
      | some e =>
          simp only [Host.step, hi]
          exact Catalog.mem_registerAll_own hitem (h.forward_own item hitem)
  | call i t =>
      refine iff_of_true ?_ trivial
      cases hi : s.running i <;> simpa only [Host.step, hi] using hitem
  | unload i => exact iff_of_true hitem trivial
  | deleted id =>
      simp only [Host.step, Keeps]
      cases s.provides id with
      | true => exact iff_of_true hitem fun hfalse => nomatch hfalse
      | false =>
          simp only [Bool.false_eq_true, if_false, Catalog.remove, List.mem_filter, bne_iff_ne]
          rw [and_iff_right hitem]
          exact ⟨fun hne _ => Ne.symm hne, fun hne => Ne.symm (hne trivial)⟩
  | removed i =>
      simp only [Host.step, Keeps]
      cases hi : s.running i with
      | some e => exact iff_of_true hitem fun hnone => nomatch hnone
      | none =>
          simp only [Catalog.removeOwned, List.mem_filter, bne_iff_ne]
          rw [and_iff_right hitem]
          exact ⟨fun hne _ => Ne.symm hne, fun hne => Ne.symm (hne trivial)⟩

/-- The event leaves the items of every entry but its own as they were. -/
def Untouched (s : Host) (e : HostEvent) : Prop :=
  ∀ i, e.entryId? = some i → ∀ j, j ≠ i → (s.step e).registry.ofOwner j = s.registry.ofOwner j

theorem Consistent.untouched (h : Consistent s) (e : HostEvent) : Untouched s e := by
  rintro i hi j hj
  cases e with
  | setUp i' config coord =>
      obtain rfl := Option.some.inj hi
      simp only [Host.step]
      split
      · rfl
      · rw [prune_eq h.wellFormed]
        refine Catalog.ofOwner_filter fun item howner => ?_
        rw [beq_false_of_ne (howner ▸ hj), Bool.false_and, Bool.not_false]
  | forward i' p mint =>
      obtain rfl := Option.some.inj hi
      simp only [Host.step]
      split
      · rfl
      · exact Catalog.ofOwner_registerAll hj h.forward_own
  | call i' t =>
      simp only [Host.step]
      split <;> rfl
  | unload i' => rfl
  | deleted id => cases hi
  | removed i' =>
      obtain rfl := Option.some.inj hi
      simp only [Host.step]
      split
      · rfl
      · refine Catalog.ofOwner_filter fun item howner => ?_
        rw [bne_iff_ne, howner]
        exact hj

end Host

/-- Over every run of setups, unloads and removals of any entries, with whatever was
registered before: once an entry is forwarded to all platforms, the registry holds exactly
their entities for it, each once, and what happens to an entry never touches the items of
another. -/
theorem registry_exact {registry : EntityRegistry} (hstored : Host.Stored registry)
    (es : List HostEvent) {i : String} {e : RunningEntry}
    (hi : (run Host.step { registry } es).running i = some e)
    (hall : ∀ p, e.forwarded p = true) :
    Host.Exact (run Host.step { registry } es) i e.coord ∧
      Along Host.step Host.Untouched { registry } es := by
  refine ⟨(hstored.consistent.run es).exact hi hall, ?_⟩
  exact @Along.of_invariant _ _ Host.step (fun _ _ => True) _ Host.Consistent
    (fun _ e h _ => h.step e) (fun _ e h => h.untouched e) es _ hstored.consistent
    (along_labels.mpr fun _ _ => trivial)

/-- The clear button of a category that is disabled now goes, the nine entities that an
entry with one other category has come, and the item of the entry beside it stays. -/
theorem registry_exact_pruned :
    let registry : EntityRegistry :=
      { items := [⟨0, Entity.key "home" (.clearCategoryButton .power), "home"⟩,
        ⟨1, Entity.key "office" (.clearCategoryButton .power), "office"⟩] }
    let config : UniFiClientConfig := { enabledCategories := some ["network_wan"] }
    let es : List HostEvent := .setUp "home" config (.fresh config) ::
      Platform.all.map fun p => .forward "home" p (.restoring fun _ => none)
    let s := run Host.step { registry } es
    (Host.Exact s "home" (.fresh config) ∧ Along Host.step Host.Untouched { registry } es) ∧
      s.registry.items.map (·.id) = [1, 2, 3, 4, 5, 6, 7, 8, 9, 10] := by
  intro registry config es s
  have hstored : Host.Stored registry :=
    ⟨⟨by decide, by decide⟩, fun item hitem => by
      rcases List.mem_cons.mp hitem with rfl | hitem
      · exact ⟨_, rfl⟩
      · rw [List.mem_singleton.mp hitem]
        exact ⟨_, rfl⟩⟩
  have hexact := @registry_exact registry hstored es "home" _ rfl fun p => by cases p <;> rfl
  exact ⟨hexact, by decide +kernel⟩

/-- A registered entity has its item, under the id it has, in every state of a run exactly
when every setup of its entry finds its category enabled and neither it nor its entry is
removed: whatever happens to other entries, and through any number of reloads. -/
theorem registry_item_kept_iff {registry : EntityRegistry} (hstored : Host.Stored registry)
    (es es' : List HostEvent) {item : Catalog.Item (Platform × String) String}
    (hitem : item ∈ (run Host.step { registry } es).registry.items) :
    Along Host.step (Host.Keeps item) (run Host.step { registry } es) es' ↔
      ∀ pre, pre <+: es' → item ∈ (run Host.step { registry } (es ++ pre)).registry.items := by
  simp only [run_append]
  refine @along_iff_reached _ _ Host.step (Host.Keeps item)
    (fun s => s.Consistent ∧ item ∈ s.registry.items) (fun s => item ∈ s.registry.items)
    (fun s h => h.2) (fun s e h hkeeps => ⟨h.1.step e, (Host.mem_step_iff h.1 h.2 e).mpr hkeeps⟩)
    (fun s e h hmem => (Host.mem_step_iff h.1 h.2 e).mp hmem) es' _ ⟨?_, hitem⟩
  exact hstored.consistent.run es

/-- Disabling the power category for one setup takes its button away, even if the registry
remembers its id and the button comes back under it. -/
theorem registry_item_kept_not :
    let config : UniFiClientConfig := { enabledCategories := some ["network_wan"] }
    let item := ⟨6, Entity.key "home" (.clearCategoryButton .power), "home"⟩
    let mint := Catalog.Mint.restoring fun k => if k = item.key then some 6 else none
    let es : List HostEvent := [.setUp "home" {} (.fresh {}), .forward "home" .button mint]
    let es' : List HostEvent := [.unload "home", .setUp "home" config (.fresh config),
      .unload "home", .setUp "home" {} (.fresh {}), .forward "home" .button mint]
    (Along Host.step (Host.Keeps item) (run Host.step {} es) es' ↔
      ∀ pre, pre <+: es' → item ∈ (run Host.step {} (es ++ pre)).registry.items) ∧
      item ∉ (run Host.step {} (es ++ es'.take 4)).registry.items ∧
      item ∈ (run Host.step {} (es ++ es')).registry.items := by
  intro config item mint es es'
  have hstored : Host.Stored {} :=
    ⟨Catalog.wellFormed_empty, fun _ hitem => absurd hitem List.not_mem_nil⟩
  exact ⟨registry_item_kept_iff hstored es es' (by decide +kernel), by decide +kernel,
    by decide +kernel⟩

end UnifiAlerts
