import Mathlib.Data.List.Forall2
import UnifiAlerts.Lib.Run

/-!
# What one observer sees of a run

An observer sees of each label what `view` makes of it, and nothing of
the labels that `view` hides. When a step on a visible label and the step
on its view keep two states alike, and a step on a hidden label keeps a
state like one that does not move, the run ends like the run of what
the observer sees (`run_view`). So two runs of which the observer sees
the same end alike for it: `run_view` on either side of one run.

`run_related` is the case where nothing is hidden: two runs in lockstep
on related labels.

Both are statements about `run` over any states and labels, with the
likeness an arbitrary relation; it need not be an equivalence. The views
of the labels form the run that the observer believes in, and the
condition on hidden labels is what keeps it from noticing that anything
is missing.
-/

namespace Lib

variable {σ σ' τ ι κ : Type*}

section

variable [Preorder τ] {time : ι → τ} {step : σ → ι → σ} {step' : σ' → κ → σ'}
  {view : ι → Option κ} {P : ι → Prop} {R : τ → σ → σ' → Prop}
  (hlater : ∀ {s s' t t'}, R t s s' → t ≤ t' → R t' s s')
  (hseen : ∀ s s' l k, R (time l) s s' → P l → view l = some k →
    R (time l) (step s l) (step' s' k))
  (hhidden : ∀ s s' l, R (time l) s s' → P l → view l = none → R (time l) (step s l) s')

include hlater hseen hhidden

theorem run_view_from : ∀ {ls : List ι} {s : σ} {s' : σ'} {t : τ}, R t s s' →
    ls.Pairwise (fun l m => time l ≤ time m) → (∀ l ∈ ls, P l ∧ t ≤ time l) →
    ∃ t', R t' (run step s ls) (run step' s' (ls.filterMap view))
  | [], _, _, t, hR, _, _ => ⟨t, hR⟩
  | l :: ls, s, s', t, hR, hclock, hls => by
      obtain ⟨hhead, htail⟩ := List.pairwise_cons.mp hclock
      obtain ⟨hP, ht⟩ := hls l List.mem_cons_self
      have hfrom : ∀ m ∈ ls, P m ∧ time l ≤ time m := fun m hm =>
        ⟨(hls m (List.mem_cons_of_mem _ hm)).1, hhead m hm⟩
      cases hview : view l with
      | none =>
          rw [List.filterMap_cons_none hview]
          exact run_view_from (hhidden s s' l (hlater hR ht) hP hview) htail hfrom
      | some k =>
          rw [List.filterMap_cons_some hview]
          exact run_view_from (hseen s s' l k (hlater hR ht) hP hview) htail hfrom

/-- Two states that are alike at any time are alike after a run and its view. -/
theorem run_view [Nonempty τ] {ls : List ι} {s : σ} {s' : σ'} (hR : ∀ t, R t s s')
    (hclock : ls.Pairwise fun l m => time l ≤ time m) (hls : ∀ l ∈ ls, P l) :
    ∃ t, R t (run step s ls) (run step' s' (ls.filterMap view)) := by
  cases ls with
  | nil => exact ⟨Classical.arbitrary τ, hR _⟩
  | cons l ls =>
      have hfrom : ∀ m ∈ l :: ls, P m ∧ time l ≤ time m := by
        intro m hm
        refine ⟨hls m hm, ?_⟩
        rcases List.mem_cons.mp hm with rfl | hm
        · exact le_rfl
        · exact (List.pairwise_cons.mp hclock).1 m hm
      exact run_view_from (R := R) hlater hseen hhidden (hR (time l)) hclock hfrom

end

theorem run_related {step : σ → ι → σ} {step' : σ' → κ → σ'} {R : σ → σ' → Prop}
    {L : ι → κ → Prop} (hstep : ∀ s s' l l', R s s' → L l l' → R (step s l) (step' s' l')) :
    ∀ {ls : List ι} {ls' : List κ} {s : σ} {s' : σ'}, R s s' → List.Forall₂ L ls ls' →
      R (run step s ls) (run step' s' ls')
  | [], [], _, _, hR, _ => hR
  | l :: ls, l' :: ls', s, s', hR, hls => by
      obtain ⟨hl, hls⟩ := List.forall₂_cons.mp hls
      rw [run_cons, run_cons]
      exact run_related hstep (hstep s s' l l' hR hl) hls

end Lib
