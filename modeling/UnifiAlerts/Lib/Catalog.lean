import Mathlib.Data.List.Nodup

/-!
# A catalog of keyed items with owners

`Catalog κ ο` registers items under keys of type `κ` for owners of type
`ο`, each with an id of its own: `getOrCreate` returns the item of a key
or registers one, `remove` takes an id, and `removeOwned` drops what an
owner has.

Which id a key gets that has no item is left open (`Mint`): a new one, or
that of an item of the key which has been removed. All that is asked is
that it is not in use.

In a `WellFormed` catalog a key has at most one item and an id too, so
removing items one by one by their ids, as a loop over a snapshot does,
is one filter (`WellFormed.removeEach`). Keys that an owner registers
leave the items of every other owner alone (`ofOwner_registerAll`).
-/

namespace Lib

structure Catalog.Item (κ ο : Type) where
  id : Nat
  key : κ
  owner : ο
deriving DecidableEq

structure Catalog (κ ο : Type) where
  items : List (Catalog.Item κ ο) := []

namespace Catalog

variable {κ ο : Type} {r : Catalog κ ο} {o : ο} {k : κ} {x y : Item κ ο}

/-- Some item is registered under the key. -/
def Holds (r : Catalog κ ο) (k : κ) : Prop := ∃ x ∈ r.items, x.key = k

def remove (r : Catalog κ ο) (id : Nat) : Catalog κ ο :=
  { items := r.items.filter (·.id != id) }

/-- `for x in snapshot: if p(x): remove(x.id)`. -/
def removeEach (p : Item κ ο → Bool) (r : Catalog κ ο) (snapshot : List (Item κ ο)) :
    Catalog κ ο :=
  snapshot.foldl (fun r x => if p x then r.remove x.id else r) r

/-- A key has at most one item, and no two items have one id. -/
structure WellFormed (r : Catalog κ ο) : Prop where
  keys : (r.items.map Item.key).Nodup
  ids : (r.items.map Item.id).Nodup

theorem wellFormed_empty : WellFormed ({} : Catalog κ ο) := ⟨List.nodup_nil, List.nodup_nil⟩

namespace WellFormed

theorem eq_of_key (h : WellFormed r) (hx : x ∈ r.items) (hy : y ∈ r.items) (hk : x.key = y.key) :
    x = y := List.inj_on_of_nodup_map h.keys hx hy hk

theorem eq_of_id (h : WellFormed r) (hx : x ∈ r.items) (hy : y ∈ r.items) (hid : x.id = y.id) :
    x = y := List.inj_on_of_nodup_map h.ids hx hy hid

/-- Dropping items keeps a catalog well formed. -/
theorem filter (h : WellFormed r) (p : Item κ ο → Bool) :
    WellFormed { items := r.items.filter p } where
  keys := h.keys.sublist (List.filter_sublist.map _)
  ids := h.ids.sublist (List.filter_sublist.map _)

end WellFormed

/-! ## Ids -/

/-- How ids are handed out. -/
structure Mint (κ ο : Type) where
  id : Catalog κ ο → κ → Nat
  unused : ∀ r k, ∀ x ∈ r.items, x.id ≠ id r k

/-- An id above all that are in use. -/
def above (r : Catalog κ ο) : Nat := r.items.foldr (fun x n => max (x.id + 1) n) 0

theorem lt_above (hx : x ∈ r.items) : x.id < r.above := by
  have hall : ∀ {xs : List (Item κ ο)}, x ∈ xs →
      x.id < xs.foldr (fun y n => max (y.id + 1) n) 0 := by
    intro xs hx
    induction xs with
    | nil => cases hx
    | cons y ys ih =>
        rw [List.foldr_cons]
        rcases List.mem_cons.mp hx with rfl | hx
        · exact Nat.lt_of_lt_of_le (Nat.lt_succ_self _) (Nat.le_max_left _ _)
        · exact Nat.lt_of_lt_of_le (ih hx) (Nat.le_max_right _ _)
  exact hall hx

/-- A key gets back the id that is remembered for it, and others get a new one. -/
def Mint.restoring (remembered : κ → Option Nat) : Mint κ ο where
  id r k := match remembered k with
    | some i => if r.items.any (·.id == i) then r.above else i
    | none => r.above
  unused := by
    intro r k x hx
    have hfresh : x.id ≠ r.above := Nat.ne_of_lt (lt_above hx)
    split
    · rename_i i _
      split
      · exact hfresh
      · rename_i hunused
        rintro rfl
        exact hunused (List.any_eq_true.mpr ⟨x, hx, by simp⟩)
    · exact hfresh

/-! ## Registering -/

section

variable [DecidableEq κ]

instance (r : Catalog κ ο) (k : κ) : Decidable (r.Holds k) :=
  inferInstanceAs (Decidable (∃ x ∈ r.items, x.key = k))

/-- The item of the key, which changes to the owner that asks for it. A key without one gets
an item at the end, with the id that the mint hands out. -/
def getOrCreate (mint : Mint κ ο) (o : ο) (r : Catalog κ ο) (k : κ) : Catalog κ ο :=
  if r.Holds k then
    { items := r.items.map fun x => if x.key = k then { x with owner := o } else x }
  else { items := r.items ++ [⟨mint.id r k, k, o⟩] }

@[simp] theorem map_reown_key (o : ο) (k : κ) (xs : List (Item κ ο)) :
    (xs.map fun x => if x.key = k then { x with owner := o } else x).map Item.key =
      xs.map Item.key := by
  rw [List.map_map]
  refine List.map_congr_left fun x _ => ?_
  simp only [Function.comp]
  split <;> rfl

@[simp] theorem map_reown_id (o : ο) (k : κ) (xs : List (Item κ ο)) :
    (xs.map fun x => if x.key = k then { x with owner := o } else x).map Item.id =
      xs.map Item.id := by
  rw [List.map_map]
  refine List.map_congr_left fun x _ => ?_
  simp only [Function.comp]
  split <;> rfl

variable {mint : Mint κ ο}

theorem WellFormed.getOrCreate (h : WellFormed r) (mint : Mint κ ο) (o : ο) (k : κ) :
    WellFormed (r.getOrCreate mint o k) := by
  unfold Catalog.getOrCreate
  split
  · exact ⟨by rw [map_reown_key]; exact h.keys, by rw [map_reown_id]; exact h.ids⟩
  · rename_i hnew
    refine ⟨?_, ?_⟩
    · rw [List.map_append, List.nodup_append]
      refine ⟨h.keys, List.nodup_singleton _, ?_⟩
      intro k₁ hk₁ k₂ hk₂ heq
      obtain ⟨x, hx, rfl⟩ := List.mem_map.mp hk₁
      exact hnew ⟨x, hx, heq.trans (List.mem_singleton.mp hk₂)⟩
    · rw [List.map_append, List.nodup_append]
      refine ⟨h.ids, List.nodup_singleton _, ?_⟩
      intro i hi j hj heq
      obtain ⟨x, hx, rfl⟩ := List.mem_map.mp hi
      exact mint.unused r k x hx (heq.trans (List.mem_singleton.mp hj))

/-- What a key is registered for stands in the catalog under its old id, if it had one. -/
theorem mem_getOrCreate (o : ο) (k : κ) : y ∈ (r.getOrCreate mint o k).items ↔
    (y ∈ r.items ∧ y.key ≠ k) ∨ (∃ x ∈ r.items, x.key = k ∧ y = { x with owner := o }) ∨
      (¬r.Holds k ∧ y = ⟨mint.id r k, k, o⟩) := by
  unfold Catalog.getOrCreate
  split
  · rename_i hold
    rw [List.mem_map]
    constructor
    · rintro ⟨x, hx, rfl⟩
      by_cases hk : x.key = k
      · rw [if_pos hk]
        exact Or.inr (Or.inl ⟨x, hx, hk, rfl⟩)
      · rw [if_neg hk]
        exact Or.inl ⟨hx, hk⟩
    · rintro (⟨hy, hk⟩ | ⟨x, hx, hk, rfl⟩ | ⟨hnew, -⟩)
      · exact ⟨y, hy, if_neg hk⟩
      · exact ⟨x, hx, if_pos hk⟩
      · exact absurd hold hnew
  · rename_i hnew
    rw [List.mem_append, List.mem_singleton]
    constructor
    · rintro (hy | rfl)
      · exact Or.inl ⟨hy, fun hk => hnew ⟨y, hy, hk⟩⟩
      · exact Or.inr (Or.inr ⟨hnew, rfl⟩)
    · rintro (⟨hy, -⟩ | ⟨x, hx, hk, -⟩ | ⟨-, rfl⟩)
      · exact Or.inl hy
      · exact absurd ⟨x, hx, hk⟩ hnew
      · exact Or.inr rfl

/-- An owner that registers what it has changes nothing. -/
theorem mem_getOrCreate_own (hx : x ∈ r.items) (hown : x.key = k → x.owner = o) :
    x ∈ (r.getOrCreate mint o k).items := by
  rw [mem_getOrCreate]
  by_cases hk : x.key = k
  · refine Or.inr (Or.inl ⟨x, hx, hk, ?_⟩)
    rw [← hown hk]
  · exact Or.inl ⟨hx, hk⟩

theorem holds_getOrCreate (o : ο) (k : κ) {k' : κ} :
    (r.getOrCreate mint o k).Holds k' ↔ k' = k ∨ r.Holds k' := by
  constructor
  · rintro ⟨y, hy, rfl⟩
    rcases (mem_getOrCreate o k).mp hy with ⟨hy, -⟩ | ⟨x, hx, hk, rfl⟩ | ⟨-, rfl⟩
    · exact Or.inr ⟨y, hy, rfl⟩
    · exact Or.inl hk
    · exact Or.inl rfl
  · rintro (rfl | ⟨y, hy, rfl⟩)
    · by_cases hold : r.Holds k'
      · obtain ⟨x, hx, hk⟩ := hold
        exact ⟨_, (mem_getOrCreate o k').mpr (Or.inr (Or.inl ⟨x, hx, hk, rfl⟩)), hk⟩
      · exact ⟨_, (mem_getOrCreate o k').mpr (Or.inr (Or.inr ⟨hold, rfl⟩)), rfl⟩
    · by_cases hk : y.key = k
      · exact ⟨_, (mem_getOrCreate o k).mpr (Or.inr (Or.inl ⟨y, hy, hk, rfl⟩)), rfl⟩
      · exact ⟨y, (mem_getOrCreate o k).mpr (Or.inl ⟨hy, hk⟩), rfl⟩

/-- An owner registers keys one after the other. -/
def registerAll (mint : Mint κ ο) (o : ο) (r : Catalog κ ο) (ks : List κ) : Catalog κ ο :=
  ks.foldl (getOrCreate mint o) r

theorem WellFormed.registerAll (h : WellFormed r) (mint : Mint κ ο) (o : ο) (ks : List κ) :
    WellFormed (r.registerAll mint o ks) := by
  induction ks generalizing r with
  | nil => exact h
  | cons k ks ih => exact ih (h.getOrCreate mint o k)

theorem holds_registerAll (o : ο) (ks : List κ) {k' : κ} :
    (r.registerAll mint o ks).Holds k' ↔ k' ∈ ks ∨ r.Holds k' := by
  induction ks generalizing r with
  | nil => simp [registerAll]
  | cons k ks ih =>
      have hrest := @ih (r.getOrCreate mint o k)
      rw [holds_getOrCreate] at hrest
      rw [List.mem_cons, or_assoc, or_left_comm]
      exact hrest

/-- An owner that registers what it has already changes nothing of it, -/
theorem mem_registerAll_own {ks : List κ} (hx : x ∈ r.items) (hown : x.key ∈ ks → x.owner = o) :
    x ∈ (r.registerAll mint o ks).items := by
  induction ks generalizing r with
  | nil => exact hx
  | cons k ks ih =>
      have hstep : x ∈ (r.getOrCreate mint o k).items :=
        mem_getOrCreate_own hx fun hk => hown (hk ▸ List.mem_cons_self)
      exact ih hstep fun hk => hown (List.mem_cons_of_mem _ hk)

/-- and what else is there afterwards is its own. -/
theorem mem_of_registerAll {ks : List κ} (hown : ∀ x ∈ r.items, x.key ∈ ks → x.owner = o)
    (hy : y ∈ (r.registerAll mint o ks).items) :
    y ∈ r.items ∨ (y.owner = o ∧ y.key ∈ ks) := by
  induction ks generalizing r with
  | nil => exact Or.inl hy
  | cons k ks ih =>
      have hstep : ∀ x ∈ (r.getOrCreate mint o k).items,
          x ∈ r.items ∨ (x.owner = o ∧ x.key = k) := by
        intro x hx
        rcases (mem_getOrCreate o k).mp hx with ⟨hx, -⟩ | ⟨z, hz, hk, rfl⟩ | ⟨-, rfl⟩
        · exact Or.inl hx
        · exact Or.inr ⟨rfl, hk⟩
        · exact Or.inr ⟨rfl, rfl⟩
      have hown' : ∀ x ∈ (r.getOrCreate mint o k).items, x.key ∈ ks → x.owner = o := by
        intro x hx hk
        rcases hstep x hx with hx | ⟨howner, -⟩
        · exact hown x hx (List.mem_cons_of_mem _ hk)
        · exact howner
      rcases ih hown' hy with hy | ⟨howner, hk⟩
      · rcases hstep y hy with hy | ⟨howner, hk⟩
        · exact Or.inl hy
        · exact Or.inr ⟨howner, hk ▸ List.mem_cons_self⟩
      · exact Or.inr ⟨howner, List.mem_cons_of_mem _ hk⟩

end

/-! ## Removing -/

section

variable [DecidableEq ο]

def ofOwner (r : Catalog κ ο) (o : ο) : List (Item κ ο) := r.items.filter (·.owner == o)

def removeOwned (r : Catalog κ ο) (o : ο) : Catalog κ ο :=
  { items := r.items.filter (·.owner != o) }

/-- The keys of one owner do not touch the items of another. -/
theorem ofOwner_registerAll [DecidableEq κ] {mint : Mint κ ο} {o' : ο} (ho : o' ≠ o) :
    ∀ {ks : List κ} {r : Catalog κ ο}, (∀ x ∈ r.items, x.key ∈ ks → x.owner = o) →
      (r.registerAll mint o ks).ofOwner o' = r.ofOwner o'
  | [], _, _ => rfl
  | k :: ks, r, hown => by
      have hstep : (r.getOrCreate mint o k).ofOwner o' = r.ofOwner o' := by
        unfold getOrCreate ofOwner
        split
        · -- the item that is taken over has the owner already
          have hsame : (r.items.map fun x => if x.key = k then { x with owner := o } else x) =
              r.items := by
            refine (List.map_congr_left fun x hx => ?_).trans (List.map_id r.items)
            split
            · rename_i hk
              rw [← hown x hx (hk ▸ List.mem_cons_self)]
              rfl
            · rfl
          rw [hsame]
        · rw [List.filter_append]
          simp [Ne.symm ho]
      have hown' : ∀ x ∈ (r.getOrCreate mint o k).items, x.key ∈ ks → x.owner = o := by
        intro x hx hk
        rcases (mem_getOrCreate o k).mp hx with ⟨hx, -⟩ | ⟨z, -, -, rfl⟩ | ⟨-, rfl⟩
        · exact hown x hx (List.mem_cons_of_mem _ hk)
        · rfl
        · rfl
      exact (ofOwner_registerAll ho hown').trans hstep

theorem ofOwner_filter {p : Item κ ο → Bool} (hp : ∀ x, x.owner = o → p x = true) :
    ofOwner { items := r.items.filter p } o = r.ofOwner o := by
  unfold ofOwner
  rw [List.filter_filter]
  refine List.filter_congr fun x _ => ?_
  by_cases hx : x.owner = o
  · rw [hp x hx, Bool.and_true]
  · rw [beq_false_of_ne hx, Bool.false_and]

theorem mem_ofOwner : x ∈ r.ofOwner o ↔ x ∈ r.items ∧ x.owner = o := by
  rw [ofOwner, List.mem_filter, beq_iff_eq]

variable [DecidableEq κ]

/-- Removing by id what a snapshot holds is one filter. -/
theorem WellFormed.removeEach (p : Item κ ο → Bool) :
    ∀ {snapshot : List (Item κ ο)} {r : Catalog κ ο}, WellFormed r →
      (∀ x ∈ snapshot, ∀ y ∈ r.items, y.id = x.id → y = x) →
      r.removeEach p snapshot =
        { items := r.items.filter fun y => !(decide (y ∈ snapshot) && p y) }
  | [], r, _, _ => by simp [Catalog.removeEach]
  | x :: snapshot, r, h, hsnap => by
      have hstep : r.removeEach p (x :: snapshot) =
          (if p x then r.remove x.id else r).removeEach p snapshot := rfl
      rw [hstep]
      by_cases hp : p x = true
      · have hrest := WellFormed.removeEach p (h.filter (·.id != x.id)) fun z hz y hy =>
          hsnap z (List.mem_cons_of_mem _ hz) y (List.mem_of_mem_filter hy)
        rw [if_pos hp, remove, hrest, List.filter_filter]
        congr 1
        refine List.filter_congr fun y hy => ?_
        by_cases hyx : y = x
        · subst hyx
          simp [hp]
        · have hid : y.id ≠ x.id := fun hid => hyx (hsnap x List.mem_cons_self y hy hid)
          simp [hyx, hid]
      · rw [if_neg hp, WellFormed.removeEach p h fun z hz => hsnap z (List.mem_cons_of_mem _ hz)]
        congr 1
        refine List.filter_congr fun y _ => ?_
        by_cases hyx : y = x
        · subst hyx
          simp [hp]
        · simp [hyx]

/-- The loop over what an owner has. -/
theorem WellFormed.removeEach_ofOwner (h : WellFormed r) (p : Item κ ο → Bool) (o : ο) :
    r.removeEach p (r.ofOwner o) =
      { items := r.items.filter fun y => !(y.owner == o && p y) } := by
  rw [h.removeEach p fun x hx y hy hid => h.eq_of_id hy (mem_ofOwner.mp hx).1 hid]
  congr 1
  refine List.filter_congr fun y hy => ?_
  have hmem : decide (y ∈ r.ofOwner o) = (y.owner == o) := by
    rw [Bool.eq_iff_iff, decide_eq_true_eq, beq_iff_eq, mem_ofOwner]
    exact and_iff_right hy
  rw [hmem]

end

end Catalog

end Lib
