import UnifiAlerts.Coordinator
import UnifiAlerts.Lib.Run

/-!
# Registering webhooks

The ids of an entry's webhooks, the registry of Home Assistant that all
entries share, and `register_all` and `unregister_all` on it. A taken id
makes `async_register` raise ValueError, which the loop catches; the
exception of `async_generate_url` leaves the loop.

`accepted` is what a run of the loop registers (`registerFrom_spec`).
An id determines the suffix and the category it was made from
(`webhookId_injective`), so entries with distinct suffixes never meet in
the registry (`webhook_ids_route`).

The loop is followed for any order and any list of categories, with the
registry it starts from as a parameter. A taken id is skipped, and what
is registered by the end are the first `accepted` ones, or those up to a
URL that raises; nothing else in the registry has changed.

The run is over a `Hub` of entries that are set up and unloaded in any
order. Its invariant is that each registered id belongs to an entry that
is set up, under the id made from its suffix, and the other way round
(`Owned`).
-/

namespace UnifiAlerts

open Py Lib

def webhookIdPrefix : String := "unifi_alerts_"

def webhookIdForCategory (category suffix : String) : String :=
  if suffix != "" then webhookIdPrefix ++ suffix ++ "_" ++ category
  else webhookIdPrefix ++ category

/-! ## The ids -/

/-- No category name ends in an underscore and another one. -/
theorem not_name_tail (c d : Category) : ¬('_' :: d.name.toList) <:+ c.name.toList := by
  cases c <;> cases d <;> decide

/-- The part of an id after the prefix. -/
theorem webhookId_toList (c : Category) (suffix : String) :
    (webhookIdForCategory c.name suffix).toList = webhookIdPrefix.toList ++
      if suffix = "" then c.name.toList else suffix.toList ++ '_' :: c.name.toList := by
  unfold webhookIdForCategory
  by_cases h : suffix = ""
  · simp [h]
  · simp [h]

/-- Two tails that start at an underscore and end alike are the same tail. -/
theorem name_eq_of_suffix {c d : Category} {s t : List Char}
    (h : s ++ '_' :: c.name.toList = t ++ '_' :: d.name.toList) : s = t ∧ c = d := by
  have hc : ('_' :: c.name.toList) <:+ t ++ '_' :: d.name.toList := ⟨s, h⟩
  have hd : ('_' :: d.name.toList) <:+ t ++ '_' :: d.name.toList := ⟨t, rfl⟩
  have hsame : '_' :: c.name.toList = '_' :: d.name.toList := by
    rcases List.suffix_or_suffix_of_suffix hc hd with hcd | hdc
    · rcases List.suffix_cons_iff.mp hcd with heq | htail
      · exact heq
      · exact absurd htail (not_name_tail d c)
    · rcases List.suffix_cons_iff.mp hdc with heq | htail
      · exact heq.symm
      · exact absurd htail (not_name_tail c d)
  refine ⟨List.append_cancel_right (hsame ▸ h), Category.name_injective ?_⟩
  exact String.toList_inj.mp (List.cons.inj hsame).2

theorem webhookId_injective {c d : Category} {s t : String}
    (h : webhookIdForCategory c.name s = webhookIdForCategory d.name t) : s = t ∧ c = d := by
  have hlist := congrArg String.toList h
  rw [webhookId_toList, webhookId_toList] at hlist
  have htail := List.append_cancel_left hlist
  by_cases hs : s = "" <;> by_cases ht : t = ""
  · rw [if_pos hs, if_pos ht] at htail
    exact ⟨hs.trans ht.symm, Category.name_injective (String.toList_inj.mp htail)⟩
  · rw [if_pos hs, if_neg ht] at htail
    exact absurd ⟨t.toList, htail.symm⟩ (not_name_tail c d)
  · rw [if_neg hs, if_pos ht] at htail
    exact absurd ⟨s.toList, htail⟩ (not_name_tail d c)
  · rw [if_neg hs, if_neg ht] at htail
    obtain ⟨hst, hcd⟩ := name_eq_of_suffix htail
    exact ⟨String.toList_inj.mp hst, hcd⟩

/-! ## The registry -/

/-- The push callback of an entry, bound to a category. -/
structure Target where
  entryId : Nat
  category : Category
deriving DecidableEq

/-- The webhooks that Home Assistant routes, and where to. -/
abbrev Registry := String → Option Target

structure WebhookManager where
  entryId : Nat
  config : UniFiClientConfig

/-- What Home Assistant does with the calls of one `register_all`: whether
`async_register` refuses a category's webhook for another reason than its id, and what
`async_generate_url` returns, `none` being its exception. -/
structure RegisterAnswers where
  refuses : Category → Bool := fun _ => false
  url : Category → Option String

/-- The registry and the manager in the course of the loop. -/
structure Registering where
  registry : Registry
  registered : List String := []
  urls : List (Category × String) := []
  raised : Bool := false

namespace WebhookManager

variable (m : WebhookManager) (answers : RegisterAnswers)

def webhookId (c : Category) : String :=
  webhookIdForCategory c.name (m.config.webhookIdSuffix.getD "")

def registerFrom : List Category → Registering → Registering
  | [], r => r
  | c :: cs, r =>
    if !m.config.enabled c then registerFrom cs r
    else if (r.registry (m.webhookId c)).isSome || answers.refuses c then registerFrom cs r
    else
      let r := { r with
        registry := Function.update r.registry (m.webhookId c) (some ⟨m.entryId, c⟩)
        registered := r.registered ++ [m.webhookId c] }
      match answers.url c with
      | none => { r with raised := true }
      | some url => registerFrom cs { r with urls := r.urls ++ [(c, url)] }

def registerAll (registry : Registry) : Registering :=
  m.registerFrom answers allCategories { registry }

end WebhookManager

/-- `unregister_all`. -/
def Registry.unregisterAll (registry : Registry) (registered : List String) : Registry :=
  registered.foldl (fun registry id => Function.update registry id none) registry

theorem unregisterAll_apply (id : String) : ∀ (ids : List String) (registry : Registry),
    registry.unregisterAll ids id = if id ∈ ids then none else registry id
  | [], registry => rfl
  | id' :: ids, registry => by
      have ih := unregisterAll_apply id ids (Function.update registry id' none)
      show Registry.unregisterAll (Function.update registry id' none) ids id = _
      rw [ih, Function.update_apply]
      by_cases hid : id = id'
      · simp [hid]
      · simp [hid]

namespace WebhookManager

variable {m : WebhookManager} {answers : RegisterAnswers}

theorem webhookId_inj {c d : Category} : m.webhookId c = m.webhookId d ↔ c = d :=
  ⟨fun h => (webhookId_injective h).2, fun h => by rw [h]⟩

/-! ## What the loop registers -/

/-- The categories whose `async_register` succeeds when the loop reaches them. -/
def accepted (m : WebhookManager) (answers : RegisterAnswers) (registry : Registry)
    (cs : List Category) : List Category :=
  cs.filter fun c =>
    m.config.enabled c && (registry (m.webhookId c)).isNone && !answers.refuses c

/-- The registry with the ids of these categories on it. -/
def claim (m : WebhookManager) (registry : Registry) (cs : List Category) : Registry := fun id =>
  ((cs.find? fun c => m.webhookId c == id).map (Target.mk m.entryId)).or (registry id)

theorem claim_webhookId {registry : Registry} {cs : List Category} {c : Category} (h : c ∈ cs) :
    m.claim registry cs (m.webhookId c) = some ⟨m.entryId, c⟩ := by
  unfold claim
  have hfind : cs.find? (fun d => m.webhookId d == m.webhookId c) = some c := by
    cases hd : cs.find? fun d => m.webhookId d == m.webhookId c with
    | none => exact absurd (List.find?_eq_none.mp hd c h) (by simp)
    | some d =>
        have heq : m.webhookId d = m.webhookId c := by simpa using List.find?_some hd
        rw [webhookId_inj.mp heq]
  rw [hfind]
  rfl

theorem claim_of_not_mem {registry : Registry} {cs : List Category} {id : String}
    (h : ∀ c ∈ cs, m.webhookId c ≠ id) : m.claim registry cs id = registry id := by
  unfold claim
  have hfind : cs.find? (fun d => m.webhookId d == id) = none :=
    List.find?_eq_none.mpr fun c hc => by simpa using h c hc
  rw [hfind]
  rfl

/-- What registering one more category first comes to. -/
theorem claim_cons {registry : Registry} {c : Category} {cs : List Category} (hc : c ∉ cs) :
    m.claim (Function.update registry (m.webhookId c) (some ⟨m.entryId, c⟩)) cs =
      m.claim registry (c :: cs) := by
  funext id
  by_cases hmem : ∃ d ∈ c :: cs, m.webhookId d = id
  · obtain ⟨d, hd, rfl⟩ := hmem
    rw [claim_webhookId hd]
    rcases List.mem_cons.mp hd with rfl | hd
    · rw [claim_of_not_mem, Function.update_self]
      exact fun e he heq => hc (webhookId_inj.mp heq ▸ he)
    · exact claim_webhookId hd
  · have hnone : ∀ d ∈ c :: cs, m.webhookId d ≠ id := fun d hd heq => hmem ⟨d, hd, heq⟩
    rw [claim_of_not_mem hnone, claim_of_not_mem fun d hd => hnone d (List.mem_cons_of_mem c hd),
      Function.update_of_ne (hnone c List.mem_cons_self).symm]

/-- The ids that are taken on the way are not those of the categories to come. -/
theorem accepted_update {registry : Registry} {c : Category} {cs : List Category} (hc : c ∉ cs)
    (target : Option Target) :
    m.accepted answers (Function.update registry (m.webhookId c) target) cs =
      m.accepted answers registry cs := by
  refine List.filter_congr fun d hd => ?_
  have hne : m.webhookId d ≠ m.webhookId c := fun heq => hc (webhookId_inj.mp heq ▸ hd)
  rw [Function.update_of_ne hne]

/-- The loop registers the accepted categories, up to one whose URL raises. -/
theorem registerFrom_spec : ∀ (cs : List Category) (r : Registering), cs.Nodup →
    r.raised = false →
    let acc := m.accepted answers r.registry cs
    let r' := m.registerFrom answers cs r
    ((∀ c ∈ acc, answers.url c ≠ none) ∧ r'.raised = false ∧
      r'.registry = m.claim r.registry acc ∧
      r'.registered = r.registered ++ acc.map m.webhookId ∧
      r'.urls.map Prod.fst = r.urls.map Prod.fst ++ acc) ∨
    (∃ c ∈ acc, answers.url c = none ∧ r'.raised = true ∧
      r'.registry (m.webhookId c) = some ⟨m.entryId, c⟩)
  | [], r, _, hraised => Or.inl ⟨fun _ h => (nomatch h), hraised, rfl,
      by simp [registerFrom, accepted],
      by simp [registerFrom, accepted]⟩
  | c :: cs, r, hnodup, hraised => by
      obtain ⟨hc, hnodup⟩ := List.nodup_cons.mp hnodup
      intro acc r'
      by_cases htake : (m.config.enabled c && (r.registry (m.webhookId c)).isNone
          && !answers.refuses c) = true
      · have hacc : acc = c :: m.accepted answers r.registry cs := List.filter_cons_of_pos htake
        let taken : Registering := { r with
          registry := Function.update r.registry (m.webhookId c) (some ⟨m.entryId, c⟩)
          registered := r.registered ++ [m.webhookId c] }
        simp only [Bool.and_eq_true, Bool.not_eq_true', Option.isNone_iff_eq_none] at htake
        obtain ⟨⟨henabled, hfree⟩, hrefuses⟩ := htake
        have hstep : r' = match answers.url c with
            | none => { taken with raised := true }
            | some url => m.registerFrom answers cs
              { taken with urls := r.urls ++ [(c, url)] } := by
          simp only [r', registerFrom, henabled, hfree, hrefuses]
          rfl
        cases hurl : answers.url c with
        | none =>
            rw [hurl] at hstep
            refine Or.inr ⟨c, by simp [hacc], hurl, by rw [hstep], ?_⟩
            rw [hstep]
            exact Function.update_self _ _ _
        | some url =>
            rw [hurl] at hstep
            dsimp only at hstep
            have ih := registerFrom_spec cs { taken with urls := r.urls ++ [(c, url)] }
              hnodup hraised
            simp only [taken, accepted_update hc] at ih
            rw [← hstep] at ih
            rcases ih with ⟨hurls, hdone, hregistry, hregistered, hkeys⟩ | ⟨d, hd, hnone, hrest⟩
            · refine Or.inl ⟨?_, hdone, ?_, ?_, ?_⟩
              · rw [hacc]
                exact List.forall_mem_cons.mpr ⟨by simp [hurl], hurls⟩
              · rw [hregistry, hacc]
                exact claim_cons fun hmem => hc (List.mem_filter.mp hmem).1
              · rw [hregistered, hacc]
                simp
              · rw [hkeys, hacc]
                simp
            · exact Or.inr ⟨d, by rw [hacc]; exact List.mem_cons_of_mem c hd, hnone, hrest⟩
      · have hacc : acc = m.accepted answers r.registry cs := List.filter_cons_of_neg htake
        have hstep : r' = m.registerFrom answers cs r := by
          simp only [r', registerFrom]
          split
          · rfl
          · split
            · rfl
            · rename_i henabled hfree
              refine absurd ?_ htake
              simp_all
        rw [hacc, hstep]
        exact registerFrom_spec cs r hnodup hraised

end WebhookManager

/-! ## Many entries -/

/-- The registry, and `_registered` of each entry that is set up. -/
structure Hub where
  registry : Registry := fun _ => none
  registered : Nat → Option (List String) := fun _ => none

inductive HubEvent
  | setUp (entryId : Nat) (config : UniFiClientConfig) (url : Category → String)
  | unload (entryId : Nat)

namespace Hub

/-- The manager of an entry, whose suffix is the same whenever it is set up. -/
def manager (suffix : Nat → String) (entryId : Nat) (config : UniFiClientConfig) :
    WebhookManager where
  entryId
  config := { config with webhookIdSuffix := some (suffix entryId) }

def register (suffix : Nat → String) (h : Hub) (entryId : Nat) (config : UniFiClientConfig)
    (url : Category → String) : Registering :=
  (manager suffix entryId config).registerAll { url := fun c => some (url c) } h.registry

def step (suffix : Nat → String) (h : Hub) : HubEvent → Hub
  | .setUp entryId config url =>
    match h.registered entryId with
    | some _ => h
    | none =>
      let r := h.register suffix entryId config url
      { registry := r.registry
        registered := Function.update h.registered entryId (some r.registered) }
  | .unload entryId =>
    match h.registered entryId with
    | none => h
    | some ids =>
      { registry := h.registry.unregisterAll ids
        registered := Function.update h.registered entryId none }

/-- Entries never meet in the registry: a setup registers all that it asks for and
disturbs nothing, an unload takes away its own, and every id that is registered leads to
one entry and one category. -/
structure Routes (suffix : Nat → String) (h : Hub) : Prop where
  /-- A set up registers every enabled category. -/
  registers : ∀ i config url, h.registered i = none →
    (h.register suffix i config url).urls.map Prod.fst = allCategories.filter config.enabled ∧
      (h.register suffix i config url).raised = false
  /-- Each of them is in the registry then, and reaches it. -/
  enabled : ∀ i config url, h.registered i = none → ∀ c, config.enabled c = true →
    (h.step suffix (.setUp i config url)).registry (webhookIdForCategory c.name (suffix i)) =
      some ⟨i, c⟩
  /-- A set up leaves the webhooks that are there alone. -/
  setUp : ∀ i config url id t, h.registry id = some t →
    (h.step suffix (.setUp i config url)).registry id = some t
  /-- An unload leaves the webhooks of the other entries alone. -/
  unload : ∀ i id t, h.registry id = some t → t.entryId ≠ i →
    (h.step suffix (.unload i)).registry id = some t
  /-- A registered id is that of one entry that is set up and one category, and reaches it. -/
  routed : ∀ id t, h.registry id = some t →
    (∃ ids, h.registered t.entryId = some ids ∧ id ∈ ids) ∧
      ∀ i c, webhookIdForCategory c.name (suffix i) = id ↔ t = ⟨i, c⟩
  reached : ∀ i ids, h.registered i = some ids → ∀ id ∈ ids, ∃ c, h.registry id = some ⟨i, c⟩

/-- What the registry holds belongs to an entry that is set up, under the id made from its
suffix, and the other way round. -/
structure Owned (suffix : Nat → String) (h : Hub) : Prop where
  own : ∀ id t, h.registry id = some t → (∃ ids, h.registered t.entryId = some ids ∧ id ∈ ids) ∧
    id = webhookIdForCategory t.category.name (suffix t.entryId)
  reach : ∀ i ids, h.registered i = some ids → ∀ id ∈ ids, ∃ c, h.registry id = some ⟨i, c⟩

variable {suffix : Nat → String} (hdistinct : Function.Injective suffix) {h : Hub}

theorem manager_webhookId (i : Nat) (config : UniFiClientConfig) (c : Category) :
    (manager suffix i config).webhookId c = webhookIdForCategory c.name (suffix i) := rfl

theorem step_setUp {i : Nat} (hi : h.registered i = none) (config : UniFiClientConfig)
    (url : Category → String) : h.step suffix (.setUp i config url) =
      { registry := (h.register suffix i config url).registry
        registered := Function.update h.registered i
          (some (h.register suffix i config url).registered) } := by
  simp only [step, hi]

theorem step_unload {i : Nat} {ids : List String} (hi : h.registered i = some ids) :
    h.step suffix (.unload i) =
      { registry := h.registry.unregisterAll ids
        registered := Function.update h.registered i none } := by
  simp only [step, hi]

include hdistinct

/-- The ids of an entry that is not set up are free. -/
theorem Owned.free (hown : Owned suffix h) {i : Nat} (hi : h.registered i = none) (c : Category) :
    h.registry (webhookIdForCategory c.name (suffix i)) = none := by
  cases ht : h.registry (webhookIdForCategory c.name (suffix i)) with
  | none => rfl
  | some t =>
      obtain ⟨⟨ids, hids, -⟩, hid⟩ := hown.own _ t ht
      have hsame : i = t.entryId := hdistinct (webhookId_injective hid).1
      rw [← hsame, hi] at hids
      cases hids

theorem Owned.register (hown : Owned suffix h) {i : Nat} (hi : h.registered i = none)
    (config : UniFiClientConfig) (url : Category → String) :
    let m := manager suffix i config
    let acc := allCategories.filter config.enabled
    let r := h.register suffix i config url
    r.raised = false ∧ r.registry = m.claim h.registry acc ∧
      r.registered = acc.map m.webhookId ∧ r.urls.map Prod.fst = acc := by
  intro m acc r
  have hacc : m.accepted { url := fun c => some (url c) } h.registry allCategories = acc := by
    refine List.filter_congr fun c _ => ?_
    have hfree : h.registry (m.webhookId c) = none := hown.free hdistinct hi c
    rw [hfree]
    simp only [Option.isNone_none, Bool.and_true, Bool.not_false]
    rfl
  have hspec := @WebhookManager.registerFrom_spec m { url := fun c => some (url c) }
    allCategories { registry := h.registry } Category.all_nodup rfl
  dsimp only at hspec
  rw [hacc] at hspec
  rcases hspec with ⟨-, hraised, hregistry, hregistered, hkeys⟩ | ⟨c, -, hnone, -⟩
  · exact ⟨hraised, hregistry, hregistered, hkeys⟩
  · cases hnone

theorem Owned.setUp (hown : Owned suffix h) {i : Nat} (hi : h.registered i = none)
    (config : UniFiClientConfig) (url : Category → String) :
    Owned suffix (h.step suffix (.setUp i config url)) := by
  obtain ⟨-, hregistry, hregistered, -⟩ := hown.register hdistinct hi config url
  rw [step_setUp hi, hregistry, hregistered]
  constructor
  · intro id t ht
    by_cases hmem : ∃ c ∈ allCategories.filter config.enabled,
        (manager suffix i config).webhookId c = id
    · obtain ⟨c, hc, rfl⟩ := hmem
      dsimp only at ht
      rw [WebhookManager.claim_webhookId hc] at ht
      obtain rfl := Option.some.inj ht
      exact ⟨⟨_, Function.update_self _ _ _, List.mem_map_of_mem hc⟩, rfl⟩
    · dsimp only at ht
      rw [WebhookManager.claim_of_not_mem fun c hc heq => hmem ⟨c, hc, heq⟩] at ht
      obtain ⟨⟨ids, hids, hin⟩, hid⟩ := hown.own id t ht
      have hne : t.entryId ≠ i := by
        intro hti
        rw [hti, hi] at hids
        cases hids
      exact ⟨⟨ids, by dsimp only; rw [Function.update_of_ne hne, hids], hin⟩, hid⟩
  · intro j ids hj id hid
    dsimp only at hj ⊢
    by_cases hji : j = i
    · subst hji
      rw [Function.update_self] at hj
      obtain rfl := Option.some.inj hj
      obtain ⟨c, hc, rfl⟩ := List.mem_map.mp hid
      exact ⟨c, WebhookManager.claim_webhookId hc⟩
    · rw [Function.update_of_ne hji] at hj
      obtain ⟨c, hc⟩ := hown.reach j ids hj id hid
      refine ⟨c, ?_⟩
      rw [WebhookManager.claim_of_not_mem, hc]
      rintro d - rfl
      rw [manager_webhookId, hown.free hdistinct hi d] at hc
      cases hc

omit hdistinct in
/-- The ids of two entries that are set up are different ones. -/
theorem Owned.disjoint (hown : Owned suffix h) {i j : Nat} {ids ids' : List String} {id : String}
    (hi : h.registered i = some ids) (hid : id ∈ ids) (hj : h.registered j = some ids')
    (hid' : id ∈ ids') : i = j := by
  obtain ⟨c, hc⟩ := hown.reach i ids hi id hid
  obtain ⟨d, hd⟩ := hown.reach j ids' hj id hid'
  exact congrArg Target.entryId (Option.some.inj (hc.symm.trans hd))

omit hdistinct in
theorem Owned.unload (hown : Owned suffix h) {i : Nat} {ids : List String}
    (hi : h.registered i = some ids) : Owned suffix (h.step suffix (.unload i)) := by
  rw [step_unload hi]
  constructor
  · intro id t ht
    dsimp only at ht
    rw [unregisterAll_apply] at ht
    split at ht
    · cases ht
    · rename_i hnot
      obtain ⟨⟨ids', hids', hin⟩, hid⟩ := hown.own id t ht
      have hne : t.entryId ≠ i := by
        rintro rfl
        obtain rfl := Option.some.inj (hi.symm.trans hids')
        exact hnot hin
      exact ⟨⟨ids', by dsimp only; rw [Function.update_of_ne hne, hids'], hin⟩, hid⟩
  · intro j ids' hj id hid
    dsimp only at hj ⊢
    by_cases hji : j = i
    · rw [hji, Function.update_self] at hj
      cases hj
    · rw [Function.update_of_ne hji] at hj
      obtain ⟨c, hc⟩ := hown.reach j ids' hj id hid
      refine ⟨c, ?_⟩
      rw [unregisterAll_apply, if_neg fun hin => hji (hown.disjoint hj hid hi hin), hc]

theorem Owned.step (hown : Owned suffix h) (e : HubEvent) : Owned suffix (h.step suffix e) := by
  cases e with
  | setUp i config url =>
      cases hi : h.registered i with
      | none => exact hown.setUp hdistinct hi config url
      | some ids =>
          have hsame : h.step suffix (.setUp i config url) = h := by simp only [Hub.step, hi]
          rw [hsame]
          exact hown
  | unload i =>
      cases hi : h.registered i with
      | none =>
          have hsame : h.step suffix (.unload i) = h := by simp only [Hub.step, hi]
          rw [hsame]
          exact hown
      | some ids => exact hown.unload hi

theorem owned_run (events : List HubEvent) : Owned suffix (run (Hub.step suffix) {} events) :=
  @run_preserves _ _ (Hub.step suffix) (Owned suffix) (fun _ e hown => hown.step hdistinct e) {}
    ⟨fun _ _ ht => (nomatch ht), fun _ _ hj => (nomatch hj)⟩ events

theorem Owned.routes (hown : Owned suffix h) : Routes suffix h where
  registers i config url hi :=
    have hall := hown.register hdistinct hi config url
    ⟨hall.2.2.2, hall.1⟩
  enabled i config url hi c hc := by
    rw [step_setUp hi, (hown.register hdistinct hi config url).2.1]
    exact WebhookManager.claim_webhookId (List.mem_filter.mpr ⟨c.mem_all, hc⟩)
  setUp i config url id t ht := by
    cases hi : h.registered i with
    | some ids => simp only [Hub.step, hi, ht]
    | none =>
        rw [step_setUp hi, (hown.register hdistinct hi config url).2.1]
        refine (WebhookManager.claim_of_not_mem ?_).trans ht
        rintro d - rfl
        rw [manager_webhookId, hown.free hdistinct hi d] at ht
        cases ht
  unload i id t ht hne := by
    cases hi : h.registered i with
    | none => simp only [Hub.step, hi, ht]
    | some ids =>
        rw [step_unload hi]
        dsimp only
        rw [unregisterAll_apply, if_neg, ht]
        intro hin
        obtain ⟨⟨ids', hids', hin'⟩, -⟩ := hown.own id t ht
        exact hne (hown.disjoint hids' hin' hi hin)
  routed id t ht := by
    obtain ⟨hset, hid⟩ := hown.own id t ht
    refine ⟨hset, fun i c => ⟨fun hic => ?_, ?_⟩⟩
    · obtain ⟨hsuffix, hc⟩ := webhookId_injective (hic.trans hid)
      rw [hdistinct hsuffix, hc]
    · rintro rfl
      exact hid.symm
  reached := hown.reach

/-- An id determines its suffix and its category, so entries with distinct suffixes have
their webhooks to themselves, over any setups and unloads and whatever options they have.
-/
theorem webhook_ids_route (events : List HubEvent) :
    (∀ c ∈ allCategories, ∀ d ∈ allCategories, ∀ s t : String,
      webhookIdForCategory c.name s = webhookIdForCategory d.name t → s = t ∧ c = d) ∧
    Routes suffix (run (Hub.step suffix) {} events) :=
  ⟨fun _ _ _ _ _ _ h => webhookId_injective h, (owned_run hdistinct events).routes hdistinct⟩

/-- Suffixes of underscores only; the first entry has none, as old entries do. -/
def underscores (n : Nat) : String := String.ofList (List.replicate n '_')

omit hdistinct in
theorem webhook_ids_route_underscores : Function.Injective underscores ∧
    Routes underscores (run (Hub.step underscores) {}
      [.setUp 0 {} Category.name, .setUp 1 {} Category.name, .unload 0]) := by
  have hdistinct : Function.Injective underscores := by
    intro n k h
    have hlength := congrArg (fun s => s.toList.length) h
    simpa [underscores] using hlength
  exact ⟨hdistinct, (webhook_ids_route hdistinct _).2⟩

end Hub

end UnifiAlerts
