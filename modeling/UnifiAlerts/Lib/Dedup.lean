import Mathlib.Algebra.Order.Group.Basic
import Mathlib.Algebra.Order.Sub.Defs
import Mathlib.Data.List.Perm.Subperm
import Mathlib.Tactic.Linarith

/-!
# Windowed deduplication with a pruned map

A deduplicator keeps, per key, the time of the last admission and
suppresses an arrival strictly closer than `w` to it. On every admission
it drops the entries older than `w`. The specification keeps the whole
history of admissions and never forgets.

`Agrees` relates the two: what the map holds is in the history, and
what the map lacks is already out of the window. It is preserved by an
admission at a later time (`Agrees.recordAt`), survives the passing of time
(`Agrees.advance`), and makes the two verdicts equal
(`Agrees.suppressed_iff`).

Two deduplicators that see one stream, the second less of it, need not
suppress the same arrivals: one that only the first saw can unsuppress a
later one for the second. `Ahead` is what stays true all the same, key by
key, and it bounds the number of admissions (`Ahead.countP_le`).
-/

namespace Lib

/-! ## The pruned map and the unbounded history -/

section

variable {K T : Type*} [AddCommGroup T] [LinearOrder T]

def suppressed (w now : T) (m : K → Option T) (k : K) : Bool :=
  match m k with
  | some prev => decide (now - prev < w)
  | none => false

/-- Drop the entries older than `w`, then record the admission of `k`. -/
def recordAt [DecidableEq K] (w now : T) (m : K → Option T) (k : K) : K → Option T :=
  fun k' => if k' = k then some now else (m k').filter (fun t => decide (now - w ≤ t))

/-- The specification: the history has an admission of the key less than a window ago. -/
def SuppressedBy (w now : T) (h : List (K × T)) (k : K) : Prop :=
  ∃ t, (k, t) ∈ h ∧ now - t < w

/-- At time `now`, every entry of the map is an admission of the history, every
admission is in the past, and an admission the map does not cover with one at
least as recent has left the window. -/
structure Agrees (w now : T) (m : K → Option T) (h : List (K × T)) : Prop where
  sound : ∀ k t, m k = some t → (k, t) ∈ h
  past : ∀ k t, (k, t) ∈ h → t ≤ now
  covered : ∀ k t, (k, t) ∈ h → (∃ t', m k = some t' ∧ t ≤ t') ∨ w ≤ now - t

theorem Agrees.empty (w now : T) : Agrees w now (fun _ : K => none) [] :=
  ⟨by simp, by simp, by simp⟩

variable [IsOrderedAddMonoid T]

theorem Agrees.advance {w now now' : T} {m : K → Option T} {h : List (K × T)}
    (ha : Agrees w now m h) (hle : now ≤ now') : Agrees w now' m h where
  sound := ha.sound
  past := fun k t ht => (ha.past k t ht).trans hle
  covered := fun k t ht => (ha.covered k t ht).imp id fun hw =>
    hw.trans (sub_le_sub_right hle t)

/-- The pruned map and the unbounded history give the same verdict. -/
theorem Agrees.suppressed_iff {w now : T} {m : K → Option T} {h : List (K × T)}
    (ha : Agrees w now m h) (k : K) :
    suppressed w now m k = true ↔ SuppressedBy w now h k := by
  constructor
  · intro hs
    cases hm : m k with
    | none => simp [suppressed, hm] at hs
    | some t =>
        simp only [suppressed, hm, decide_eq_true_eq] at hs
        exact ⟨t, ha.sound k t hm, hs⟩
  · rintro ⟨t, ht, hlt⟩
    rcases ha.covered k t ht with ⟨t', hm, hle⟩ | hw
    · have hlt' : now - t' < w := (sub_le_sub_left hle now).trans_lt hlt
      simp [suppressed, hm, hlt']
    · exact absurd hlt (not_lt.mpr hw)

/-- Admitting `k` keeps the agreement: the entries pruned are exactly out of
the window, and they stay out as time passes. -/
theorem Agrees.recordAt [DecidableEq K] {w now : T} {m : K → Option T} {h : List (K × T)}
    (ha : Agrees w now m h) (k : K) :
    Agrees w now (recordAt w now m k) (h ++ [(k, now)]) where
  sound := by
    intro k' t ht
    by_cases hk : k' = k
    · subst hk
      simp only [Lib.recordAt, if_true, Option.some.injEq] at ht
      simp [ht]
    · simp only [Lib.recordAt, if_neg hk, Option.filter_eq_some_iff] at ht
      exact List.mem_append_left _ (ha.sound k' t ht.1)
  past := by
    intro k' t ht
    rcases List.mem_append.mp ht with hold | hnew
    · exact ha.past k' t hold
    · obtain ⟨-, rfl⟩ := Prod.mk.injEq .. |>.mp (List.mem_singleton.mp hnew)
      exact le_rfl
  covered := by
    intro k' t ht
    rcases List.mem_append.mp ht with hold | hnew
    · by_cases hk : k' = k
      · subst hk
        exact Or.inl ⟨now, by simp [Lib.recordAt], ha.past k' t hold⟩
      · rcases ha.covered k' t hold with ⟨t', hm, hle⟩ | hw
        · -- the covering entry is either kept or older than the window
          by_cases hcut : now - w ≤ t'
          · refine Or.inl ⟨t', ?_, hle⟩
            rw [Lib.recordAt, if_neg hk, hm, Option.filter_some, if_pos (decide_eq_true hcut)]
          · refine Or.inr ?_
            have hlt : t < now - w := hle.trans_lt (not_le.mp hcut)
            exact (le_sub_comm.mp hlt.le)
        · exact Or.inr hw
    · obtain ⟨rfl, rfl⟩ := Prod.mk.injEq .. |>.mp (List.mem_singleton.mp hnew)
      exact Or.inl ⟨_, by simp [Lib.recordAt], le_rfl⟩

/-- After an admission at `now` every entry is at most `w` old. -/
theorem recordAt_recent [DecidableEq K] {w now : T} (hw : 0 ≤ w) {m : K → Option T}
    {k k' : K} {t : T}
    (ht : recordAt w now m k k' = some t) : now - t ≤ w := by
  by_cases hk : k' = k
  · simp only [recordAt, if_pos hk, Option.some.injEq] at ht
    simpa [ht] using hw
  · simp only [recordAt, if_neg hk, Option.filter_eq_some_iff, decide_eq_true_eq] at ht
    exact sub_le_comm.mp ht.2

/-- Pruning is not observable: what an admission drops has left the window for good. -/
theorem suppressed_recordAt_of_ne [DecidableEq K] {w now t : T} {m : K → Option T} {k k' : K}
    (hk : k' ≠ k) (hle : now ≤ t) :
    suppressed w t (Lib.recordAt w now m k) k' = suppressed w t m k' := by
  simp only [suppressed, Lib.recordAt, if_neg hk]
  cases hm : m k' with
  | none => rfl
  | some prev =>
      rw [Option.filter_some]
      by_cases hcut : now - w ≤ prev
      · rw [if_pos (decide_eq_true hcut)]
      · have hpast : ¬t - prev < w := not_lt.mpr
          ((le_sub_comm.mp (not_le.mp hcut).le).trans (sub_le_sub_right hle prev))
        rw [if_neg (by simpa using hcut)]
        exact (decide_eq_false hpast).symm

end

/-! ## Two histories of one stream -/

section

variable {K T : Type*} [DecidableEq K]

def admissions (h : List (K × T)) (k : K) : Nat := (h.map Prod.fst).count k

theorem admissions_concat (h : List (K × T)) (k k' : K) (t : T) :
    admissions (h ++ [(k, t)]) k' = admissions h k' + if k = k' then 1 else 0 := by
  unfold admissions
  rw [List.map_append, List.count_append, List.map_singleton, List.count_singleton]
  simp only [beq_iff_eq]

variable [LinearOrder T] {h h' : List (K × T)}

/-- Of each key, `h` has more admissions than `h'`, or as many and none later than
the last one of `h'`. -/
def Ahead (h h' : List (K × T)) : Prop :=
  ∀ k, admissions h' k < admissions h k ∨
    (admissions h' k = admissions h k ∧ ∀ t, (k, t) ∈ h → ∃ t', (k, t') ∈ h' ∧ t ≤ t')

theorem Ahead.nil : Ahead ([] : List (K × T)) [] := fun _ => Or.inr ⟨rfl, by simp⟩

theorem Ahead.le (ha : Ahead h h') (k : K) : admissions h' k ≤ admissions h k := by
  rcases ha k with hlt | ⟨heq, -⟩
  · exact hlt.le
  · exact heq.le

/-- Both admit the arrival. -/
theorem Ahead.both (ha : Ahead h h') (k : K) (now : T) :
    Ahead (h ++ [(k, now)]) (h' ++ [(k, now)]) := by
  intro k'
  rw [admissions_concat, admissions_concat]
  rcases ha k' with hlt | ⟨heq, hcover⟩
  · exact Or.inl (by omega)
  · refine Or.inr ⟨by rw [heq], fun t ht => ?_⟩
    rcases List.mem_append.mp ht with hold | hnew
    · obtain ⟨t', ht', hle⟩ := hcover t hold
      exact ⟨t', List.mem_append_left _ ht', hle⟩
    · exact ⟨t, List.mem_append_right _ hnew, le_rfl⟩

/-- Only the first admits the arrival. -/
theorem Ahead.first (ha : Ahead h h') (k : K) (now : T) : Ahead (h ++ [(k, now)]) h' := by
  intro k'
  have hle := ha.le k'
  rw [admissions_concat]
  by_cases hk : k = k'
  · rw [if_pos hk]
    exact Or.inl (by omega)
  · rw [if_neg hk]
    refine (ha k').imp id fun ⟨heq, hcover⟩ => ⟨heq, fun t ht => hcover t ?_⟩
    rcases List.mem_append.mp ht with hold | hnew
    · exact hold
    · exact absurd (Prod.mk.inj (List.mem_singleton.mp hnew)).1.symm hk

/-- Only the second admits the arrival, because the first saw an earlier one. Then
the first is an admission ahead, and the second catches up at most. -/
theorem Ahead.second [AddCommGroup T] [IsOrderedAddMonoid T] {w now : T} (ha : Ahead h h') {k : K}
    (hpast : ∀ t, (k, t) ∈ h → t ≤ now)
    (hfirst : SuppressedBy w now h k) (hsecond : ¬SuppressedBy w now h' k) :
    Ahead h (h' ++ [(k, now)]) := by
  intro k'
  rw [admissions_concat]
  by_cases hk : k = k'
  · subst hk
    have hlt : admissions h' k < admissions h k := by
      rcases ha k with hlt | ⟨-, hcover⟩
      · exact hlt
      · obtain ⟨t, ht, hrecent⟩ := hfirst
        obtain ⟨t', ht', hle⟩ := hcover t ht
        exact absurd ⟨t', ht', (sub_le_sub_left hle now).trans_lt hrecent⟩ hsecond
    rw [if_pos rfl]
    rcases Nat.lt_or_eq_of_le hlt with hlt | heq
    · exact Or.inl hlt
    · exact Or.inr ⟨heq, fun t ht => ⟨now, by simp, hpast t ht⟩⟩
  · rw [if_neg hk]
    refine (ha k').imp id fun ⟨heq, hcover⟩ => ⟨heq, fun t ht => ?_⟩
    obtain ⟨t', ht', hle⟩ := hcover t ht
    exact ⟨t', List.mem_append_left _ ht', hle⟩

/-- Over any set of keys the first has at least as many admissions. -/
theorem Ahead.countP_le (ha : Ahead h h') (p : K → Bool) :
    (h'.countP fun e => p e.1) ≤ h.countP fun e => p e.1 := by
  have hsub : (h'.map Prod.fst).Subperm (h.map Prod.fst) :=
    List.subperm_ext_iff.mpr fun k _ => ha.le k
  have hcount := hsub.countP_le p
  rw [List.countP_map, List.countP_map] at hcount
  exact hcount

end

end Lib
