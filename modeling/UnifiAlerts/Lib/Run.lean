import Mathlib.Order.Basic

/-!
# Runs of a labelled step function

A total step function `step : σ → ι → σ` read as a machine: the label
carries whatever the environment chose (an input, a clock reading, the
outcome of a call), and a label that is not enabled leaves the state as
it is. `run` folds a list of labels, so "every interleaving" is "every
list of labels".

Invariants come in three forms: `run_preserves` for what every step
keeps, `run_preserves_along` for what a step keeps when a side condition
`C` on the state and the label holds (`Along`), and `run_preserves_timed`
for what refers to the time, when the labels carry the readings of a
nondecreasing clock. The history of a run is read off its splittings
`ls = pre ++ l :: post` (`along_iff_split`).
-/

namespace Lib

variable {σ τ ι κ : Type*}

/-! ## Runs -/

/-- The state after taking the labels `ls` in order from `s`. -/
def run (step : σ → ι → σ) (s : σ) (ls : List ι) : σ := ls.foldl step s

section

variable {step : σ → ι → σ}

@[simp] theorem run_nil (s : σ) : run step s [] = s := rfl

@[simp] theorem run_cons (s : σ) (l : ι) (ls : List ι) :
    run step s (l :: ls) = run step (step s l) ls := rfl

theorem run_append (s : σ) (ls ms : List ι) :
    run step s (ls ++ ms) = run step (run step s ls) ms := List.foldl_append

theorem run_snoc (s : σ) (ls : List ι) (l : ι) :
    run step s (ls ++ [l]) = step (run step s ls) l := by
  rw [run_append]; rfl

/-! ## Invariants -/

/-- Every step of the run satisfies `C` at the state it is taken from. -/
def Along (step : σ → ι → σ) (C : σ → ι → Prop) : σ → List ι → Prop
  | _, [] => True
  | s, l :: ls => C s l ∧ Along step C (step s l) ls

theorem Along.append {C : σ → ι → Prop} {ls ms : List ι} {s : σ} :
    Along step C s (ls ++ ms) ↔
      Along step C s ls ∧ Along step C (run step s ls) ms := by
  induction ls generalizing s with
  | nil => simp [Along]
  | cons l ls ih => simp only [List.cons_append, Along, run_cons, ih, and_assoc]

/-- `Along`, read at every splitting of the run. -/
theorem along_iff_split {C : σ → ι → Prop} {ls : List ι} {s : σ} :
    Along step C s ls ↔ ∀ pre l post, ls = pre ++ l :: post → C (run step s pre) l := by
  induction ls generalizing s with
  | nil => simp [Along]
  | cons m ls ih =>
      rw [Along, ih]
      constructor
      · rintro ⟨hm, hls⟩ pre l post heq
        cases pre with
        | nil =>
            obtain ⟨rfl, -⟩ := List.cons.inj heq
            exact hm
        | cons p pre =>
            obtain ⟨rfl, htail⟩ := List.cons.inj heq
            exact hls pre l post htail
      · intro h
        exact ⟨h [] m ls rfl, fun pre l post heq => h (m :: pre) l post (by rw [heq]; rfl)⟩

theorem Along.imp {C D : σ → ι → Prop} (h : ∀ s l, C s l → D s l) :
    ∀ {ls : List ι} {s : σ}, Along step C s ls → Along step D s ls
  | [], _, _ => trivial
  | _ :: _, _, ⟨hC, hls⟩ => ⟨h _ _ hC, Along.imp h hls⟩

theorem Along.and {C D : σ → ι → Prop} :
    ∀ {ls : List ι} {s : σ}, Along step C s ls → Along step D s ls →
      Along step (fun s l => C s l ∧ D s l) s ls
  | [], _, _, _ => trivial
  | _ :: _, _, ⟨hC, hCs⟩, ⟨hD, hDs⟩ => ⟨⟨hC, hD⟩, hCs.and hDs⟩

/-- A predicate that every step satisfying `C` preserves holds at the end of
every run along `C`. -/
theorem run_preserves_along {C : σ → ι → Prop} {I : σ → Prop}
    (hstep : ∀ s l, I s → C s l → I (step s l)) :
    ∀ {ls : List ι} {s : σ}, I s → Along step C s ls → I (run step s ls)
  | [], _, hI, _ => hI
  | l :: _, s, hI, ⟨hC, hls⟩ => by
      rw [run_cons]
      exact run_preserves_along hstep (hstep s l hI hC) hls

/-- What an invariant gives at each step holds along every run that keeps it. -/
theorem Along.of_invariant {C D : σ → ι → Prop} {I : σ → Prop}
    (hstep : ∀ s l, I s → C s l → I (step s l)) (hD : ∀ s l, I s → D s l) :
    ∀ {ls : List ι} {s : σ}, I s → Along step C s ls → Along step D s ls
  | [], _, _, _ => trivial
  | l :: _, s, hI, ⟨hC, hls⟩ => ⟨hD s l hI, Along.of_invariant hstep hD (hstep s l hI hC) hls⟩

/-- When `C` is what each step needs for the property `P` to hold after it, a run is
along `C` exactly when `P` holds in every state it reaches. -/
theorem along_iff_reached {C : σ → ι → Prop} {I P : σ → Prop} (hP : ∀ s, I s → P s)
    (hkeep : ∀ s l, I s → C s l → I (step s l))
    (hback : ∀ s l, I s → P (step s l) → C s l) :
    ∀ {ls : List ι} {s : σ}, I s →
      (Along step C s ls ↔ ∀ pre, pre <+: ls → P (run step s pre))
  | [], s, hI => by
      refine iff_of_true trivial fun pre hpre => ?_
      rw [List.prefix_nil.mp hpre]
      exact hP s hI
  | l :: ls, s, hI => by
      rw [Along]
      constructor
      · rintro ⟨hC, hls⟩ pre hpre
        cases pre with
        | nil => exact hP s hI
        | cons m pre =>
            obtain ⟨rfl, htail⟩ := List.cons_prefix_cons.mp hpre
            exact (along_iff_reached hP hkeep hback (hkeep s m hI hC)).mp hls pre htail
      · intro h
        have hC : C s l := hback s l hI (h [l] (by simp))
        exact ⟨hC, (along_iff_reached hP hkeep hback (hkeep s l hI hC)).mpr fun pre hpre =>
          h (l :: pre) (List.cons_prefix_cons.mpr ⟨rfl, hpre⟩)⟩

/-- Two conditions that agree wherever an invariant holds agree along every run, if the
first of them keeps it. -/
theorem along_iff_of_kept {C D : σ → ι → Prop} {I : σ → Prop}
    (hkeep : ∀ s l, I s → C s l → I (step s l)) (hCD : ∀ s l, I s → (C s l ↔ D s l)) :
    ∀ {ls : List ι} {s : σ}, I s → (Along step C s ls ↔ Along step D s ls)
  | [], _, _ => Iff.rfl
  | l :: _, s, hI => by
      rw [Along, Along, ← hCD s l hI]
      exact and_congr_right fun hC => along_iff_of_kept hkeep hCD (hkeep s l hI hC)

/-- The same with an invariant that every step keeps. -/
theorem along_congr {C D : σ → ι → Prop} {I : σ → Prop} (hstep : ∀ s l, I s → I (step s l))
    (hCD : ∀ s l, I s → (C s l ↔ D s l)) {ls : List ι} {s : σ} (hI : I s) :
    Along step C s ls ↔ Along step D s ls :=
  along_iff_of_kept (fun s l hI _ => hstep s l hI) hCD hI

theorem run_preserves {I : σ → Prop} (hstep : ∀ s l, I s → I (step s l))
    {s : σ} (hI : I s) (ls : List ι) : I (run step s ls) := by
  induction ls generalizing s with
  | nil => exact hI
  | cons l ls ih => exact ih (hstep s l hI)

theorem run_preserves_labels {P : ι → Prop} {I : σ → Prop}
    (hstep : ∀ s l, I s → P l → I (step s l)) {s : σ} (hI : I s) {ls : List ι}
    (hls : ∀ l ∈ ls, P l) : I (run step s ls) := by
  induction ls generalizing s with
  | nil => exact hI
  | cons l ls ih =>
      exact ih (hstep s l hI (hls l (by simp))) (fun m hm => hls m (by simp [hm]))

/-! ## Runs on a clock -/

section

variable [Preorder τ] {time : ι → τ} {I : τ → σ → Prop}
  (hlater : ∀ {s t t'}, I t s → t ≤ t' → I t' s)
  (hstep : ∀ s l, I (time l) s → I (time l) (step s l))

include hlater hstep

theorem run_preserves_from : ∀ {ls : List ι} {s : σ} {t : τ}, I t s →
    ls.Pairwise (fun l m => time l ≤ time m) → (∀ l ∈ ls, t ≤ time l) →
    ∀ {t'}, t ≤ t' → (∀ l ∈ ls, time l ≤ t') → I t' (run step s ls)
  | [], _, _, hI, _, _, _, hle, _ => hlater hI hle
  | l :: ls, _, _, hI, hclock, hfrom, _, _, hto => by
      obtain ⟨hhead, htail⟩ := List.pairwise_cons.mp hclock
      rw [run_cons]
      exact run_preserves_from (hstep _ l (hlater hI (hfrom l (by simp)))) htail hhead
        (hto l (by simp)) fun m hm => hto m (by simp [hm])

/-- What holds of the first state at any time, and every step keeps at its own
time, holds from the time of the last label on. -/
theorem run_preserves_timed {ls : List ι} {s : σ} (hI : ∀ t, I t s)
    (hclock : ls.Pairwise fun l m => time l ≤ time m) {t : τ} (hto : ∀ l ∈ ls, time l ≤ t) :
    I t (run step s ls) := by
  cases ls with
  | nil => exact hI t
  | cons l ls =>
      refine run_preserves_from (I := I) hlater hstep (hI (time l)) hclock (fun m hm => ?_)
        (hto l (by simp)) hto
      rcases List.mem_cons.mp hm with rfl | hm
      · exact le_rfl
      · exact (List.pairwise_cons.mp hclock).1 m hm

end

end

/-! ## Simulation -/

/-- Two machines side by side on the same labels. -/
theorem run_pair (f : σ → ι → σ) (g : τ → ι → τ) (ls : List ι) (s : σ) (t : τ) :
    run (fun p l => (f p.1 l, g p.2 l)) (s, t) ls = (run f s ls, run g t ls) := by
  induction ls generalizing s t with
  | nil => rfl
  | cons l ls ih => exact ih (f s l) (g t l)

/-- If every concrete step is a (possibly empty) run of the abstract machine
under `abs`, so is every concrete run. -/
theorem run_simulates {step : σ → ι → σ} {astep : τ → κ → τ} {abs : σ → τ}
    (hstep : ∀ s l, ∃ ks, abs (step s l) = run astep (abs s) ks) :
    ∀ (ls : List ι) (s : σ), ∃ ks, abs (run step s ls) = run astep (abs s) ks
  | [], s => ⟨[], rfl⟩
  | l :: ls, s => by
      obtain ⟨ks, hks⟩ := hstep s l
      obtain ⟨ks', hks'⟩ := run_simulates hstep ls (step s l)
      exact ⟨ks ++ ks', by rw [run_cons, hks', hks, run_append]⟩

end Lib
