import UnifiAlerts.Grouping

/-!
# Polls that a comparison aborts

Comparing a naive with an aware time raises, and that ends the poll where
it is. `Comparable` says of one category and its eligible alerts that
none of its comparisons does (`pollState_clean_iff`). A category with a
watermark whose comparison raises keeps the open count it had
(`applyPoll_openCount_of_raised`).

The loop over the categories has no handler. So the categories after the
one that raised are not visited, and the open counts of the categories
without alerts are not zeroed, since that happens after the loop; what
was done to the categories before it stays.

The watermark of the category and the times of its own alerts decide
whether this happens, and nothing else: `Comparable` says nothing about
the other categories of the poll.
-/

namespace UnifiAlerts

open Py Lib

variable {config : UniFiClientConfig}

namespace Coordinator

/-! ## Comparable times -/

/-- No comparison that a category's poll makes of these alerts is between a naive and
an aware time. -/
structure Comparable (st : CategoryState) (alerts : List UniFiAlert) : Prop where
  watermark : ∀ w, st.lastClearedAt = some w → ∀ a ∈ alerts, a.receivedAt.isAware = w.isAware
  newest : st.lastClearedAt = none → st.isAlerting = false →
    ∀ a ∈ alerts, ∀ b ∈ alerts, a.receivedAt.isAware = b.receivedAt.isAware

theorem counted_none : ∀ alerts : List UniFiAlert, counted none alerts = .ok alerts
  | [] => rfl
  | a :: as => by
      rw [counted, counted_none as]
      rfl

theorem counted_ok_iff {w : DateTime} : ∀ {alerts : List UniFiAlert},
    (∃ as, counted (some w) alerts = .ok as) ↔
      ∀ a ∈ alerts, a.receivedAt.isAware = w.isAware
  | [] => iff_of_true ⟨[], rfl⟩ (by simp)
  | a :: alerts => by
      rw [List.forall_mem_cons, ← @counted_ok_iff w alerts, counted]
      by_cases ha : a.receivedAt.isAware = w.isAware
      · dsimp only
        rw [DateTime.gt_eq ha, ok_bind]
        constructor
        · rintro ⟨as, h⟩
          obtain ⟨rest, hrest, -⟩ := bind_eq_ok.mp h
          exact ⟨ha, rest, hrest⟩
        · rintro ⟨-, rest, hrest⟩
          rw [hrest]
          exact ⟨_, rfl⟩
      · refine iff_of_false ?_ fun h => ha h.1
        dsimp only
        rw [DateTime.gt_ne ha, error_bind]
        rintro ⟨as, h⟩
        cases h

theorem raiseFrom_clean_iff {st : CategoryState} {counted : List UniFiAlert} :
    (raiseFrom st counted).2.2 = none ↔ (st.isAlerting = false →
      ∀ a ∈ counted, ∀ b ∈ counted, a.receivedAt.isAware = b.receivedAt.isAware) := by
  cases counted with
  | nil => exact iff_of_true rfl (by simp)
  | cons a as =>
      cases hal : st.isAlerting with
      | true => exact iff_of_true (by simp [raiseFrom, hal]) (by simp)
      | false =>
          have hmax := @maxBy_ok_iff _ (fun a : UniFiAlert => a.receivedAt) as a
          have hsame : (∀ x ∈ as, x.receivedAt.isAware = a.receivedAt.isAware) ↔
              ∀ x ∈ a :: as, ∀ y ∈ a :: as, x.receivedAt.isAware = y.receivedAt.isAware := by
            constructor
            · intro h
              have hall : ∀ x ∈ a :: as, x.receivedAt.isAware = a.receivedAt.isAware :=
                List.forall_mem_cons.mpr ⟨rfl, h⟩
              intro x hx y hy
              rw [hall x hx, hall y hy]
            · intro h x hx
              exact h x (List.mem_cons_of_mem _ hx) a List.mem_cons_self
          rw [← hsame, ← hmax]
          unfold raiseFrom
          dsimp only
          rw [hal]
          cases maxBy (fun a : UniFiAlert => a.receivedAt) a as with
          | error e => simp
          | ok m => simp

/-- A category's poll raises nothing exactly when its eligible alerts are comparable. -/
theorem pollState_clean_iff {cat : String} {st : CategoryState} {alerts : List UniFiAlert} :
    (pollState config cat st alerts).2.2 = none ↔ Comparable st (gated config cat alerts) := by
  have hal : (trackNewestSeen st (gated config cat alerts)).isAlerting = st.isAlerting := by
    rw [trackNewestSeen_eq]
  rw [pollState_run]
  cases hw : st.lastClearedAt with
  | none =>
      rw [counted_none]
      dsimp only
      rw [raiseFrom_clean_iff, hal]
      constructor
      · intro h
        refine ⟨fun w hw' => ?_, fun _ => h⟩
        rw [hw] at hw'
        cases hw'
      · exact fun h => h.newest hw
  | some w =>
      have hcounted := @counted_ok_iff w (gated config cat alerts)
      cases hc : counted (some w) (gated config cat alerts) with
      | error e =>
          refine iff_of_false (by simp) fun h => ?_
          obtain ⟨as, has⟩ := hcounted.mpr (h.watermark w hw)
          rw [hc] at has
          cases has
      | ok as =>
          have hall := hcounted.mp ⟨as, hc⟩
          refine iff_of_true (raiseFrom_clean_iff.mpr fun _ a ha b hb => ?_)
            ⟨fun w' hw' => ?_, fun hnone => ?_⟩
          · rw [hall a (counted_subset hc ha), hall b (counted_subset hc hb)]
          · obtain rfl := Option.some.inj (hw.symm.trans hw')
            exact hall
          · rw [hw] at hnone
            cases hnone

/-! ## A poll that a comparison aborts -/

theorem raiseFrom_openCount (st : CategoryState) (counted : List UniFiAlert) :
    (raiseFrom st counted).1.openCount = counted.length := by
  unfold raiseFrom
  dsimp only
  split
  · rfl
  · split
    · rfl
    · split <;> rfl

theorem pollState_openCount (cat : String) (st : CategoryState) (alerts : List UniFiAlert) :
    (pollState config cat st alerts).1.openCount =
      match counted st.lastClearedAt (gated config cat alerts) with
      | .ok as => as.length
      | .error _ => st.openCount := by
  rw [pollState_run]
  cases counted st.lastClearedAt (gated config cat alerts) with
  | error e =>
      dsimp only
      rw [trackNewestSeen_eq]
  | ok as => exact raiseFrom_openCount _ as

/-- A poll of a cleared category that raises leaves its open count alone. -/
theorem pollState_openCount_of_raised {cat : String} {st : CategoryState} {w : DateTime}
    {alerts : List UniFiAlert} (hw : st.lastClearedAt = some w)
    (hraised : (pollState config cat st alerts).2.2 ≠ none) :
    (pollState config cat st alerts).1.openCount = st.openCount := by
  rw [ne_eq, pollState_clean_iff] at hraised
  rw [pollState_openCount, hw]
  cases hc : counted (some w) (gated config cat alerts) with
  | error e => rfl
  | ok as =>
      refine absurd ⟨fun w' hw' => ?_, fun hnone => ?_⟩ hraised
      · obtain rfl := Option.some.inj (hw.symm.trans hw')
        exact counted_ok_iff.mp ⟨as, hc⟩
      · rw [hw] at hnone
        cases hnone

theorem pollLoop_openCount_of_raised {c : Category} {w : DateTime} :
    ∀ {categorised : Categorised} {turn : Turn}, categorised.keys.Nodup →
      (turn.coord.states c).enabled = true → (turn.coord.states c).lastClearedAt = some w →
      (pollState config c.name (turn.coord.states c) (categorised.alertsFor c)).2.2 ≠ none →
      ((pollLoop config categorised turn).coord.states c).openCount =
        (turn.coord.states c).openCount
  | [], _, _, _, _, _ => rfl
  | (cat, as) :: rest, turn, hnodup, hen, hw, hraised => by
      obtain ⟨hnew, hnodup⟩ := List.nodup_cons.mp hnodup
      have ih := fun {turn : Turn} => @pollLoop_openCount_of_raised c w rest turn hnodup
      rcases pollLoop_cases config cat as rest turn with
        ⟨hskip, hloop⟩ | ⟨d, rfl, -, hpolled⟩
      · have hne : c.name ≠ cat := fun hname => by
          rw [hskip c hname] at hen
          cases hen
        rw [Categorised.alertsFor_cons_of_ne hne] at hraised
        rw [hloop]
        exact ih hen hw hraised
      · by_cases hcd : c = d
        · -- the loop ends here
          subst hcd
          rw [Categorised.alertsFor_cons_self] at hraised
          rcases hpolled with ⟨e, -, hloop⟩ | ⟨hnone, -⟩
          · rw [hloop]
            dsimp only
            rw [polledTurn_states, if_pos rfl]
            exact pollState_openCount_of_raised hw hraised
          · exact absurd hnone hraised
        · have hne : c.name ≠ d.name := fun heq => hcd (Category.name_injective heq)
          have hkept : (polledTurn config turn d as).coord.states c = turn.coord.states c := by
            rw [polledTurn_states, if_neg hcd]
          rw [Categorised.alertsFor_cons_of_ne hne] at hraised
          rcases hpolled with ⟨e, -, hloop⟩ | ⟨-, hloop⟩
          · rw [hloop]
            dsimp only
            rw [hkept]
          · rw [hloop, ih (by rw [hkept]; exact hen) (by rw [hkept]; exact hw)
              (by rw [hkept]; exact hraised), hkept]

theorem applyPoll_openCount_of_raised {c : Category} {w : DateTime} {categorised : Categorised}
    {coord : Coordinator} (hnodup : categorised.keys.Nodup) (hen : (coord.states c).enabled = true)
    (hw : (coord.states c).lastClearedAt = some w)
    (hraised : (pollState config c.name (coord.states c) (categorised.alertsFor c)).2.2 ≠ none) :
    ((applyPoll config categorised coord).coord.states c).openCount =
      (coord.states c).openCount := by
  have hloop := @pollLoop_openCount_of_raised config c w categorised { coord } hnodup hen hw hraised
  have hstop : (pollLoop config categorised { coord }).raised ≠ none := fun hnone =>
    hraised ((pollLoop_raised_iff hnodup rfl).mp hnone c hen)
  unfold applyPoll
  dsimp only
  split
  · exact hloop
  · rename_i hnone
    exact absurd hnone hstop

end Coordinator

end UnifiAlerts
