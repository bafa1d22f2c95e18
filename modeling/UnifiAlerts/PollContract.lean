import Mathlib.Data.List.MinMax
import UnifiAlerts.Grouping
import UnifiAlerts.Timers

/-!
# What a poll does

The contract of `_async_update_data` after the fetch, category by
category: the alerts that count are those that pass the severity gate
and are newer than the watermark (`opened`), and the six fields that the
poll leaves alone are said at once, by the update that it amounts to
(`poll_contract`).

The contract has three parts. `Polled` is what an enabled category gets:
its open count, whether it alerts, which alert it shows if it was
raised, and the newest alarm it has seen. The frame says that nothing
else of the coordinator has changed, and that names which are no
category do not matter. The last part is the calls: a clear is scheduled
for exactly the categories that the poll has raised, and no other call
is made.
-/

namespace UnifiAlerts

open Py Lib

namespace Coordinator

/-- The polled alerts of the category that are open since its last clear. -/
def opened (config : UniFiClientConfig) (c : Category) (st : CategoryState)
    (alerts : List UniFiAlert) : List UniFiAlert :=
  (gated config c.name alerts).filter (newer st.lastClearedAt)

/-- The contract for an enabled category with these alerts in the result. -/
structure Polled (config : UniFiClientConfig) (c : Category) (alerts : List UniFiAlert)
    (st st' : CategoryState) : Prop where
  openCount : st'.openCount = (opened config c st alerts).length
  isAlerting : st'.isAlerting = true ↔ st.isAlerting = true ∨ opened config c st alerts ≠ []
  raised : st.isAlerting = false → st'.isAlerting = true →
    ∃ a ∈ opened config c st alerts, st'.lastAlert = some a ∧
      ∀ b ∈ opened config c st alerts, b.receivedAt.instant ≤ a.receivedAt.instant
  unraised : ¬(st.isAlerting = false ∧ st'.isAlerting = true) → st'.lastAlert = st.lastAlert
  lastAlarmReceivedAt : st'.lastAlarmReceivedAt = (st.lastAlarmReceivedAt.toList ++
    (gated config c.name alerts).map fun a => a.receivedAt.instant).max?
  others : st' = { st with
    openCount := st'.openCount
    isAlerting := st'.isAlerting
    lastAlert := st'.lastAlert
    lastAlarmReceivedAt := st'.lastAlarmReceivedAt }

structure PollContract (config : UniFiClientConfig) (categorised : Categorised)
    (coord : Coordinator) (turn : Turn) : Prop where
  returns : turn.raised = none
  enabled : ∀ c, (coord.states c).enabled = true →
    Polled config c (categorised.alertsFor c) (coord.states c) (turn.coord.states c)
  disabled : ∀ c, (coord.states c).enabled = false → turn.coord.states c = coord.states c
  unknown :
    applyPoll config (categorised.filter fun e => (Category.ofName? e.1).isSome) coord = turn
  frame : turn.coord = { coord with states := turn.coord.states }
  scheduled : ∀ c, .scheduleClear c ∈ turn.calls ↔
    (coord.states c).isAlerting = false ∧ (turn.coord.states c).isAlerting = true
  nothingElse : ∃ cs : List Category, turn.calls = cs.map .scheduleClear

section

variable {config : UniFiClientConfig}

/-! ## One category -/

/-- The end of a category's poll, on aware alerts. -/
theorem raiseFrom_polled (st : CategoryState) {counted : List UniFiAlert} (ha : AllAware counted) :
    ∃ isAlerting lastAlert,
      (raiseFrom st counted).1 = { st with openCount := counted.length, isAlerting, lastAlert } ∧
      (isAlerting = true ↔ st.isAlerting = true ∨ counted ≠ []) ∧
      (st.isAlerting = false → isAlerting = true → ∃ a ∈ counted, lastAlert = some a ∧
        ∀ b ∈ counted, b.receivedAt.instant ≤ a.receivedAt.instant) ∧
      (¬(st.isAlerting = false ∧ isAlerting = true) → lastAlert = st.lastAlert) := by
  cases counted with
  | nil =>
      exact ⟨st.isAlerting, st.lastAlert, rfl, by simp, fun h h' => by simp [h] at h',
        fun _ => rfl⟩
  | cons a as =>
      cases hal : st.isAlerting with
      | true => exact ⟨true, st.lastAlert, by simp [raiseFrom, hal], by simp, by simp, fun _ => rfl⟩
      | false =>
          obtain ⟨m, hm, hmem, hmax⟩ := maxBy_aware ha
          exact ⟨true, some m, by simp [raiseFrom, hal, hm], by simp,
            fun _ _ => ⟨m, hmem, rfl, hmax⟩,
            fun h => absurd ⟨rfl, rfl⟩ h⟩

/-- The newest alarm seen is the maximum over the old one and the eligible alerts. -/
theorem advance_max? (last : Option Instant) : ∀ alerts : List UniFiAlert,
    alerts.foldl (fun last a => CategoryState.advance last a.receivedAt.instant) last =
      (last.toList ++ alerts.map fun a => a.receivedAt.instant).max?
  | [] => by cases last <;> rfl
  | a :: as => by
      rw [List.foldl_cons, advance_max? _ as]
      cases last with
      | none => rfl
      | some l =>
          rw [advance_some]
          rfl

/-- An enabled category whose comparisons are all between aware times. -/
theorem pollState_polled {c : Category} {st : CategoryState} {alerts : List UniFiAlert}
    (hw : AwareMark st.lastClearedAt) (ha : AllAware alerts) :
    Polled config c alerts st (pollState config c.name st alerts).1 := by
  have hopened : AllAware (opened config c st alerts) := (ha.filter _).filter _
  obtain ⟨isAlerting, lastAlert, hstate, hal, hraised, hunraised⟩ :=
    raiseFrom_polled (trackNewestSeen st (gated config c.name alerts)) hopened
  have hpoll : pollState config c.name st alerts =
      raiseFrom (trackNewestSeen st (gated config c.name alerts)) (opened config c st alerts) :=
    pollState_eq hw ha
  rw [hpoll, hstate]
  rw [trackNewestSeen_eq] at hal hraised hunraised ⊢
  exact ⟨rfl, hal, hraised, hunraised, advance_max? _ _, rfl⟩

/-! ## The loop -/

theorem pollLoop_known : ∀ (categorised : Categorised) (turn : Turn),
    pollLoop config (categorised.filter fun e => (Category.ofName? e.1).isSome) turn =
      pollLoop config categorised turn
  | [], _ => rfl
  | (cat, alerts) :: rest, turn => by
      cases hcat : Category.ofName? cat with
      | none =>
          rw [List.filter_cons_of_neg (by simp [hcat]), pollLoop_known rest]
          conv_rhs => rw [pollLoop, hcat]
      | some c =>
          rw [List.filter_cons_of_pos (by simp [hcat])]
          unfold pollLoop
          simp only [hcat, pollLoop_known rest]

/-- Names that are no category change nothing. -/
theorem applyPoll_known (categorised : Categorised) (coord : Coordinator) :
    applyPoll config (categorised.filter fun e => (Category.ofName? e.1).isSome) coord =
      applyPoll config categorised coord := by
  have hkeys : ∀ c : Category,
      ((categorised.filter fun e => (Category.ofName? e.1).isSome).map Prod.fst).contains c.name =
        (categorised.map Prod.fst).contains c.name := by
    intro c
    rw [Bool.eq_iff_iff, List.contains_iff_mem, List.contains_iff_mem, List.mem_map, List.mem_map]
    constructor
    · rintro ⟨e, he, hname⟩
      exact ⟨e, List.mem_of_mem_filter he, hname⟩
    · rintro ⟨e, he, hname⟩
      exact ⟨e, List.mem_filter.mpr ⟨he, by rw [hname, Category.ofName?_name]; rfl⟩, hname⟩
  unfold applyPoll zeroise
  simp only [pollLoop_known, hkeys]

/-- The loop schedules the categories that it raises. -/
theorem pollLoop_scheduled (c : Category) :
    ∀ {categorised : Categorised} {turn : Turn}, categorised.keys.Nodup →
      PollsCleanly config categorised turn.coord →
      (.scheduleClear c ∈ (pollLoop config categorised turn).calls ↔
        .scheduleClear c ∈ turn.calls ∨ ((turn.coord.states c).enabled = true ∧
          c.name ∈ categorised.keys) ∧
          (pollState config c.name (turn.coord.states c) (categorised.alertsFor c)).2.1 = true)
  | [], _, _, _ => by simp [pollLoop, Categorised.keys]
  | (cat, as) :: rest, turn, hnodup, hclean => by
      obtain ⟨hnew, hnodup⟩ := List.nodup_cons.mp hnodup
      have ih := fun {turn : Turn} => @pollLoop_scheduled c rest turn hnodup
      rcases pollLoop_cases config cat as rest turn with
        ⟨hskip, hloop⟩ | ⟨d, rfl, hen, ⟨e, hraised, -⟩ | ⟨-, hloop⟩⟩
      · rw [pollsCleanly_skip hskip] at hclean
        rw [hloop, ih hclean]
        by_cases hname : c.name = cat
        · simp [hskip c hname]
        · simp only [Categorised.mem_keys_cons_of_ne hname, Categorised.alertsFor_cons_of_ne hname]
      · obtain ⟨hhead, -⟩ := (pollsCleanly_cons rfl hnew hen).mp hclean
        rw [hhead] at hraised
        cases hraised
      · obtain ⟨-, hrest⟩ := (pollsCleanly_cons rfl hnew hen).mp hclean
        rw [hloop, ih hrest, polledTurn_states]
        unfold polledTurn
        dsimp only
        by_cases hcd : c = d
        · -- the entry of `c`, which no later entry touches
          subst hcd
          have hlater : c.name ∉ Categorised.keys rest := hnew
          rw [Categorised.alertsFor_cons_self]
          simp only [hen, Categorised.mem_keys_cons_self, hlater, and_false, false_and, or_false,
            true_and, and_self]
          split
          · rename_i hraise
            simp [hraise]
          · rename_i hraise
            simp [hraise]
        · have hskip : .scheduleClear c ∈ (if (pollState config d.name (turn.coord.states d) as).2.1
                then turn.calls ++ [.scheduleClear d] else turn.calls) ↔
                .scheduleClear c ∈ turn.calls := by
            split
            · simp [hcd]
            · exact Iff.rfl
          have hne : c.name ≠ d.name := fun heq => hcd (Category.name_injective heq)
          rw [hskip]
          simp only [if_neg hcd, Categorised.mem_keys_cons_of_ne hne,
            Categorised.alertsFor_cons_of_ne hne]

/-- What the loop raises was not alerting before. -/
theorem pollState_raise {cat : String} {st : CategoryState} {alerts : List UniFiAlert} :
    (pollState config cat st alerts).2.1 = true ↔
      st.isAlerting = false ∧ (pollState config cat st alerts).1.isAlerting = true := by
  rw [pollState_isAlerting]
  cases hal : st.isAlerting with
  | false => simp
  | true =>
      refine iff_of_false (fun hraise => ?_) (by simp)
      have hkept : (trackNewestSeen st (gated config cat alerts)).isAlerting = true := by
        rw [trackNewestSeen_eq]
        exact hal
      rw [pollState_run] at hraise
      split at hraise
      · cases hraise
      · unfold raiseFrom at hraise
        dsimp only at hraise
        split at hraise
        · cases hraise
        · rw [if_pos hkept] at hraise
          cases hraise

theorem applyPoll_scheduled {categorised : Categorised} {coord : Coordinator}
    (hnodup : categorised.keys.Nodup) (hw : AwareMarks coord)
    (ha : AllAware (categorised.flatMap Prod.snd)) (c : Category) :
    .scheduleClear c ∈ (applyPoll config categorised coord).calls ↔
      (coord.states c).isAlerting = false ∧
        ((applyPoll config categorised coord).coord.states c).isAlerting = true := by
  have hcalls : (applyPoll config categorised coord).calls =
      (pollLoop config categorised { coord }).calls := by
    unfold applyPoll
    dsimp only
    split <;> rfl
  have hstate := @applyPoll_state config categorised coord hnodup hw ha c
  have hloop := @pollLoop_scheduled config c categorised { coord } hnodup
    (pollsCleanly_of_aware hw ha)
  dsimp only at hloop
  rw [hcalls, hloop, hstate]
  by_cases hen : (coord.states c).enabled = true
  · rw [if_pos hen, pollState_raise]
    have hpolled : (coord.states c).isAlerting = false →
        (pollState config c.name (coord.states c) (categorised.alertsFor c)).1.isAlerting = true →
        c.name ∈ categorised.keys := by
      intro hal hraised
      by_contra hin
      rw [Categorised.alertsFor_of_notMem hin, pollState_nil] at hraised
      exact absurd (hal.symm.trans hraised) (by decide)
    simp only [List.not_mem_nil, false_or, hen, true_and]
    exact ⟨fun h => h.2, fun h => ⟨hpolled h.1 h.2, h⟩⟩
  · simp [hen]

end

/-- For every coordinator and every result of aware times, grouped under distinct keys: a
poll raises nothing, does to each enabled category what its own alerts ask for, and
schedules a clear for exactly the categories that it has raised. Nothing else changes. -/
theorem poll_contract (config : UniFiClientConfig) (categorised : Categorised) (coord : Coordinator)
    (hnodup : categorised.keys.Nodup) (hmarks : AwareMarks coord)
    (halerts : AllAware (categorised.flatMap Prod.snd)) :
    PollContract config categorised coord (applyPoll config categorised coord) where
  returns := applyPoll_raised hmarks halerts
  enabled c hen := by
    have hown : AllAware (categorised.alertsFor c) :=
      fun a ha => halerts a (Categorised.alertsFor_subset c categorised ha)
    rw [applyPoll_state hnodup hmarks halerts, if_pos hen]
    exact pollState_polled (hmarks c) hown
  disabled c hen := by
    rw [applyPoll_state hnodup hmarks halerts, if_neg (by simp [hen])]
  unknown := applyPoll_known categorised coord
  frame := applyPoll_frame config categorised coord
  scheduled := applyPoll_scheduled hnodup hmarks halerts
  nothingElse := applyPoll_calls config categorised coord

/-- Two alerts around the watermark of a category, one below its minimum, and a name that
is no category. -/
theorem poll_contract_watermark :
    let alert (severity : String) (t : Instant) : UniFiAlert :=
      { category := "network_wan", message := "", receivedAt := .aware t, severity }
    let config : UniFiClientConfig := { minSeverity := some (.obj [("network_wan", .str "HIGH")]) }
    let categorised : Categorised :=
      [("network_wan", [alert "high" 3, alert "high" 8, alert "low" 9]), ("other", [alert "" 1])]
    let coord := (Coordinator.fresh config).setState .networkWan
      { category := .networkWan, lastClearedAt := some (.aware 5) }
    PollContract config categorised coord (applyPoll config categorised coord) := by
  intro alert config categorised coord
  refine poll_contract config categorised coord (by decide) (fun c w hw => ?_)
    (by unfold AllAware; decide)
  rw [setState_states] at hw
  split at hw
  · obtain rfl := Option.some.inj hw
    rfl
  · cases hw

end Coordinator

end UnifiAlerts
