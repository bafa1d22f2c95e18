import Mathlib.Algebra.BigOperators.Group.List.Basic
import Mathlib.Data.List.Induction
import Mathlib.Algebra.GroupWithZero.Nat
import Mathlib.Data.Nat.Cast.Defs
import UnifiAlerts.Lib.Run

/-!
# What the last state says about the run

A property of the last state of a run, read as a fact about the steps
that led there. What is lost for good when it is lost is there at the
end exactly when every step of the run kept it (`run_iff_along`). What
some steps set and others reset holds at the end exactly when it held
first and every step kept it, or has been kept since a step that set it
(`run_iff_since`).

A field that some steps write, those in `stepsWhere`, is read in the
same way: a counter is their number (`run_count`), and a record of the
latest is what the last of them wrote (`run_latest`).

`Along` and `Since` are the two ways in which a run can have kept
something: at every step, or at every step after some step. Both are
defined by recursion on the run, and `since_iff_split` names the
decisive step. With an invariant at hand, what a step sets and keeps
need only be said of states that satisfy it (`run_iff_since_labels`),
and the invariant may ask something of the labels too.
-/

namespace Lib

variable {σ ι : Type*} {step : σ → ι → σ} {I P : σ → Prop}

theorem run_iff_along {C : σ → ι → Prop} (hI : ∀ s l, I s → I (step s l))
    (hkeep : ∀ s l, I s → P s → (P (step s l) ↔ C s l))
    (hlost : ∀ s l, I s → ¬P s → ¬P (step s l)) :
    ∀ {ls : List ι} {s : σ}, I s → P s → (P (run step s ls) ↔ Along step C s ls)
  | [], _, _, hP => iff_of_true hP trivial
  | l :: ls, s, hs, hP => by
      rw [run_cons, Along]
      by_cases hC : C s l
      · rw [run_iff_along hI hkeep hlost (hI s l hs) ((hkeep s l hs hP).mpr hC)]
        exact (and_iff_right hC).symm
      · have hgone : ¬P (step s l) := fun h => hC ((hkeep s l hs hP).mp h)
        have hend := @run_preserves _ _ step (fun s => I s ∧ ¬P s)
          (fun s l h => ⟨hI s l h.1, hlost s l h.1 h.2⟩) _ ⟨hI s l hs, hgone⟩ ls
        exact iff_of_false hend.2 fun h => hC h.1

/-- A condition on the labels alone. -/
theorem along_labels {C : ι → Prop} : ∀ {ls : List ι} {s : σ},
    Along step (fun _ => C) s ls ↔ ∀ l ∈ ls, C l
  | [], _ => by simp [Along]
  | l :: ls, s => by rw [Along, along_labels, List.forall_mem_cons]

/-- A step of the run satisfies `Sets`, and every later one `Keeps`. -/
def Since (step : σ → ι → σ) (Sets Keeps : σ → ι → Prop) : σ → List ι → Prop
  | _, [] => False
  | s, l :: ls => (Sets s l ∧ Along step Keeps (step s l) ls) ∨ Since step Sets Keeps (step s l) ls

/-- `Since`, read at the splitting of the run. -/
theorem since_iff_split {Sets Keeps : σ → ι → Prop} {ls : List ι} {s : σ} :
    Since step Sets Keeps s ls ↔ ∃ pre l post, ls = pre ++ l :: post ∧
      Sets (run step s pre) l ∧ Along step Keeps (step (run step s pre) l) post := by
  induction ls generalizing s with
  | nil => simp [Since]
  | cons m ls ih =>
      rw [Since, ih]
      constructor
      · rintro (⟨hset, hkeep⟩ | ⟨pre, l, post, rfl, hset, hkeep⟩)
        · exact ⟨[], m, ls, rfl, hset, hkeep⟩
        · exact ⟨m :: pre, l, post, rfl, hset, hkeep⟩
      · rintro ⟨pre, l, post, heq, hset, hkeep⟩
        cases pre with
        | nil =>
            obtain ⟨rfl, rfl⟩ := List.cons.inj heq
            exact Or.inl ⟨hset, hkeep⟩
        | cons p pre =>
            obtain ⟨rfl, rfl⟩ := List.cons.inj heq
            exact Or.inr ⟨pre, l, post, rfl, hset, hkeep⟩

section

variable {Sets Keeps : σ → ι → Prop} {ls : List ι} {s : σ} {l : ι}

theorem since_snoc_of_sets (hl : Sets (run step s ls) l) : Since step Sets Keeps s (ls ++ [l]) :=
  since_iff_split.mpr ⟨ls, l, [], rfl, hl, trivial⟩

theorem Since.snoc (h : Since step Sets Keeps s ls) (hl : Keeps (run step s ls) l) :
    Since step Sets Keeps s (ls ++ [l]) := by
  obtain ⟨pre, m, post, rfl, hset, hkeep⟩ := since_iff_split.mp h
  refine since_iff_split.mpr
    ⟨pre, m, post ++ [l], by simp, hset, Along.append.mpr ⟨hkeep, ?_, trivial⟩⟩
  rwa [run_append, run_cons] at hl

end

/-- An invariant of the state and of the labels that led to it. -/
theorem run_preserves_history {L : ι → Prop} {J : List ι → σ → Prop} {s : σ}
    (hstep : ∀ pre l, J pre (run step s pre) → L l → J (pre ++ [l]) (run step s (pre ++ [l])))
    (hs : J [] s) {ls : List ι} (hL : ∀ l ∈ ls, L l) : J ls (run step s ls) := by
  induction ls using List.reverseRecOn with
  | nil => exact hs
  | append_singleton ls l ih =>
      exact hstep ls l (ih fun m hm => hL m (List.mem_append_left _ hm)) (hL l (by simp))

/-- For labels that satisfy `L`. -/
theorem run_iff_since_labels {L : ι → Prop} {Sets Keeps : σ → ι → Prop}
    (hI : ∀ s l, I s → L l → I (step s l))
    (hP : ∀ s l, I s → L l → (P (step s l) ↔ Sets s l ∨ P s ∧ Keeps s l)) :
    ∀ {ls : List ι} {s : σ}, I s → (∀ l ∈ ls, L l) → (P (run step s ls) ↔
      (P s ∧ Along step Keeps s ls) ∨ Since step Sets Keeps s ls)
  | [], s, _, _ => by simp [Along, Since]
  | l :: ls, s, hs, hL => by
      obtain ⟨hl, hls⟩ := List.forall_mem_cons.mp hL
      rw [run_cons, run_iff_since_labels hI hP (hI s l hs hl) hls, hP s l hs hl, Along, Since]
      constructor
      · rintro (⟨hset | ⟨hold, hkeep⟩, hrest⟩ | hsince)
        · exact Or.inr (Or.inl ⟨hset, hrest⟩)
        · exact Or.inl ⟨hold, hkeep, hrest⟩
        · exact Or.inr (Or.inr hsince)
      · rintro (⟨hold, hkeep, hrest⟩ | ⟨hset, hrest⟩ | hsince)
        · exact Or.inl ⟨Or.inr ⟨hold, hkeep⟩, hrest⟩
        · exact Or.inl ⟨Or.inl hset, hrest⟩
        · exact Or.inr hsince

theorem run_iff_since {Sets Keeps : σ → ι → Prop} (hI : ∀ s l, I s → I (step s l))
    (hP : ∀ s l, I s → (P (step s l) ↔ Sets s l ∨ P s ∧ Keeps s l)) {ls : List ι} {s : σ}
    (hs : I s) : P (run step s ls) ↔
      (P s ∧ Along step Keeps s ls) ∨ Since step Sets Keeps s ls :=
  @run_iff_since_labels _ _ _ I P (fun _ => True) _ _ (fun s l h _ => hI s l h)
    (fun s l h _ => hP s l h) _ _ hs fun _ _ => trivial

/-- A copy that some steps refresh is current, or the original has changed since the
last of them. -/
theorem copy_or_since {α : Type*} {L : ι → Prop} {Refreshes Changes : σ → ι → Prop}
    (copy original : σ → α) (hI : ∀ s l, I s → L l → I (step s l))
    (hrefresh : ∀ s l, Refreshes s l → copy (step s l) = original (step s l))
    (hstill : ∀ s l, I s → L l → ¬Refreshes s l → ¬Changes s l →
      copy (step s l) = copy s ∧ original (step s l) = original s)
    {s : σ} (hs : I s) (hcopy : copy s = original s) {ls : List ι} (hL : ∀ l ∈ ls, L l) :
    copy (run step s ls) = original (run step s ls) ∨
      Since step Changes (fun s l => ¬Refreshes s l) s ls := by
  have h := @run_preserves_history _ _ step L
    (fun ls s' => I s' ∧ (copy s' = original s' ∨
      Since step Changes (fun s l => ¬Refreshes s l) s ls)) s ?_ ⟨hs, Or.inl hcopy⟩ ls hL
  · exact h.2
  intro pre l ⟨hpre, hcur⟩ hl
  rw [run_snoc]
  refine ⟨hI _ l hpre hl, ?_⟩
  by_cases hnew : Refreshes (run step s pre) l
  · exact Or.inl (hrefresh _ l hnew)
  · by_cases hchange : Changes (run step s pre) l
    · exact Or.inr (since_snoc_of_sets hchange)
    · obtain ⟨hcopy', horiginal⟩ := hstill _ l hpre hl hnew hchange
      rw [hcopy', horiginal]
      exact hcur.imp id fun hsince => hsince.snoc hnew

/-! ## The steps that write a field -/

/-- The labels of the steps that satisfy `p` at the state they are taken from. -/
def stepsWhere (step : σ → ι → σ) (p : σ → ι → Bool) : σ → List ι → List ι
  | _, [] => []
  | s, l :: ls => (if p s l then [l] else []) ++ stepsWhere step p (step s l) ls

section

variable {p r : σ → ι → Bool} {ls : List ι} {s : σ}

theorem run_count {α : Type*} [AddCommMonoidWithOne α] {f : σ → α}
    (hstep : ∀ s l, f (step s l) = f s + if p s l then 1 else 0) :
    f (run step s ls) = f s + (stepsWhere step p s ls).length := by
  induction ls generalizing s with
  | nil => simp [stepsWhere]
  | cons l ls ih =>
      rw [run_cons, ih, hstep, stepsWhere, add_assoc]
      cases p s l with
      | true => simp [add_comm]
      | false => simp

theorem run_latest {α : Type*} {g : σ → α} {h : ι → α}
    (hstep : ∀ s l, g (step s l) = if p s l then h l else g s) :
    g (run step s ls) = ((stepsWhere step p s ls).getLast?.map h).getD (g s) := by
  induction ls generalizing s with
  | nil => rfl
  | cons l ls ih =>
      rw [run_cons, ih, hstep, stepsWhere]
      cases p s l with
      | false => rfl
      | true =>
          simp only [if_true, List.singleton_append, List.getLast?_cons, Option.map_some,
            Option.getD_some]
          cases (stepsWhere step p (step s l) ls).getLast? <;> rfl

theorem length_stepsWhere (p : σ → ι → Bool) (l : ι) (ls : List ι) (s : σ) :
    (stepsWhere step p s (l :: ls)).length =
      (p s l).toNat + (stepsWhere step p (step s l) ls).length := by
  rw [stepsWhere, List.length_append]
  cases p s l <;> rfl

/-- When each step of `r` is of one of the kinds, the kinds add up to `r`. -/
theorem sum_length_stepsWhere {κ : Type*} {kinds : List κ} {p : κ → σ → ι → Bool}
    (hsplit : ∀ s l, (kinds.map fun k => (p k s l).toNat).sum = (r s l).toNat) :
    (kinds.map fun k => (stepsWhere step (p k) s ls).length).sum =
      (stepsWhere step r s ls).length := by
  induction ls generalizing s with
  | nil => simp [stepsWhere]
  | cons l ls ih =>
      simp only [length_stepsWhere]
      rw [List.sum_map_add, hsplit, ih]

theorem stepsWhere_label (p : ι → Bool) : stepsWhere step (fun _ => p) s ls = ls.filter p := by
  induction ls generalizing s with
  | nil => rfl
  | cons l ls ih =>
      rw [stepsWhere, ih, List.filter_cons]
      cases p l <;> rfl

end

end Lib
