import Mathlib.Data.List.Nodup
import Mathlib.Tactic.Common

/-!
# Dictionaries in insertion order

A dictionary is the list of its items. Reading it (`List.lookup`) takes
the first item of a key; `set` writes in place or at the end, as
`d[k] = v` does, and `pop` removes a key. What a lookup sees of each is
said once, and a lookup does not see the order of items with distinct
keys (`lookup_perm`).

The lemmas about writing are about lookups: what `lookup` finds after a
`set` or a `pop`, for every key (`lookup_set`, `lookup_pop`). A second
kind of reading is a scan, the first item whose key passes a test
(`firstMatch`). It depends on the order of the items in general, and
does not when all keys that pass carry one value
(`Coherent.firstMatch_perm`).
-/

namespace Lib.Dict

variable {κ β : Type*} [DecidableEq κ]

def set (d : List (κ × β)) (k : κ) (v : β) : List (κ × β) :=
  match d with
  | [] => [(k, v)]
  | item :: rest => if item.1 == k then (k, v) :: rest else item :: set rest k v

def pop (d : List (κ × β)) (k : κ) : List (κ × β) := d.filter fun item => item.1 != k

theorem lookup_set (k : κ) (v : β) (k' : κ) : ∀ d : List (κ × β),
    (set d k v).lookup k' = if k' == k then some v else d.lookup k'
  | [] => by
      simp only [set, List.lookup_cons, List.lookup_nil]
      cases k' == k <;> rfl
  | (k₀, v₀) :: rest => by
      have ih := lookup_set k v k' rest
      unfold set
      by_cases h₀ : k₀ = k
      · subst h₀
        simp only [BEq.rfl, if_true, List.lookup_cons]
        cases k' == k₀ <;> rfl
      · rw [if_neg (by simpa using h₀), List.lookup_cons, List.lookup_cons, ih]
        by_cases hk : k' = k₀
        · subst hk
          simp [h₀]
        · rw [beq_false_of_ne hk]

theorem lookup_pop (k k' : κ) : ∀ d : List (κ × β),
    (pop d k).lookup k' = if k' == k then none else d.lookup k'
  | [] => by simp [pop]
  | (k₀, v₀) :: rest => by
      have ih := lookup_pop k k' rest
      unfold pop at ih ⊢
      rw [List.filter_cons]
      by_cases h₀ : k₀ = k
      · subst h₀
        rw [if_neg (by simp), ih, List.lookup_cons]
        cases k' == k₀ <;> rfl
      · rw [if_pos (by simpa using h₀), List.lookup_cons, List.lookup_cons, ih]
        by_cases hk : k' = k₀
        · subst hk
          simp [h₀]
        · rw [beq_false_of_ne hk]

theorem lookup_pops (k : κ) : ∀ (ks : List κ) (d : List (κ × β)),
    (ks.foldl pop d).lookup k = if k ∈ ks then none else d.lookup k
  | [], d => by simp
  | k₀ :: ks, d => by
      rw [List.foldl_cons, lookup_pops k ks, lookup_pop]
      by_cases hk : k = k₀
      · simp [hk]
      · simp [hk]

/-- A comprehension over distinct keys, whose values may fail. -/
theorem lookup_comprehension {α : Type*} (key : α → κ) (hkey : Function.Injective key)
    {value : α → Option β} : ∀ {as : List α} {d : List (κ × β)},
    as.mapM (fun a => (value a).map (Prod.mk (key a))) = some d → ∀ a ∈ as,
      ∃ b, value a = some b ∧ d.lookup (key a) = some b
  | a' :: as, d, h, a, ha => by
      rw [List.mapM_cons] at h
      obtain ⟨item, hitem, h⟩ := Option.bind_eq_some_iff.mp h
      obtain ⟨rest, hrest, h⟩ := Option.bind_eq_some_iff.mp h
      obtain ⟨b', hb', rfl⟩ := Option.map_eq_some_iff.mp hitem
      obtain rfl := Option.some.inj h
      by_cases hsame : key a = key a'
      · obtain rfl := hkey hsame
        exact ⟨b', hb', List.lookup_cons_self⟩
      · have ih := lookup_comprehension key hkey hrest a
          ((List.mem_cons.mp ha).resolve_left fun heq => hsame (congrArg key heq))
        rw [List.lookup_cons, beq_false_of_ne hsame]
        exact ih

theorem lookup_perm {d d' : List (κ × β)} (h : d.Perm d') (hkeys : (d.map Prod.fst).Nodup) (k : κ) :
    d.lookup k = d'.lookup k := by
  induction h with
  | nil => rfl
  | cons item _ ih =>
      obtain ⟨k₀, v₀⟩ := item
      rw [List.map_cons, List.nodup_cons] at hkeys
      rw [List.lookup_cons, List.lookup_cons, ih hkeys.2]
  | swap item item' rest =>
      obtain ⟨k₀, v₀⟩ := item
      obtain ⟨k₁, v₁⟩ := item'
      have hne : k₁ ≠ k₀ := by
        rw [List.map_cons, List.nodup_cons, List.map_cons, List.mem_cons, not_or] at hkeys
        exact hkeys.1.1
      simp only [List.lookup_cons]
      by_cases hk : k = k₀
      · subst hk
        rw [beq_false_of_ne (Ne.symm hne)]
      · rw [beq_false_of_ne hk]
  | trans h₁ _ ih₁ ih₂ =>
      rw [ih₁ hkeys, ih₂ ((h₁.map Prod.fst).nodup_iff.mp hkeys)]

/-! ## Scanning for a key -/

section

variable {κ β : Type*} {test : κ → Bool} {d d' : List (κ × β)}

def firstMatch (test : κ → Bool) (d : List (κ × β)) : Option β :=
  (d.find? fun item => test item.1).map Prod.snd

/-- Keys that pass the test carry the same value. -/
def Coherent (test : κ → Bool) (d : List (κ × β)) : Prop :=
  ∀ a ∈ d, ∀ b ∈ d, test a.1 = true → test b.1 = true → a.2 = b.2

theorem firstMatch_eq_none : firstMatch test d = none ↔ ∀ a ∈ d, test a.1 = false := by
  unfold firstMatch
  rw [Option.map_eq_none_iff, List.find?_eq_none]
  simp only [Bool.not_eq_true]

theorem Coherent.firstMatch (h : Coherent test d) {a : κ × β} (ha : a ∈ d)
    (htest : test a.1 = true) : firstMatch test d = some a.2 := by
  unfold Dict.firstMatch
  cases hfind : d.find? fun item => test item.1 with
  | none => exact absurd htest (List.find?_eq_none.mp hfind a ha)
  | some b =>
      have hb := List.find?_some hfind
      rw [Option.map_some, h b (List.mem_of_find?_eq_some hfind) a ha hb htest]

theorem Coherent.firstMatch_perm (h : Coherent test d) (hperm : d'.Perm d) :
    Dict.firstMatch test d' = Dict.firstMatch test d := by
  have h' : Coherent test d' := fun a ha b hb =>
    h a (hperm.mem_iff.mp ha) b (hperm.mem_iff.mp hb)
  cases hfound : Dict.firstMatch test d with
  | none =>
      rw [firstMatch_eq_none] at hfound ⊢
      exact fun a ha => hfound a (hperm.mem_iff.mp ha)
  | some v =>
      obtain ⟨a, hfind, rfl⟩ := Option.map_eq_some_iff.mp hfound
      have ha := List.find?_some hfind
      exact h'.firstMatch (hperm.mem_iff.mpr (List.mem_of_find?_eq_some hfind)) ha

end

end Lib.Dict
