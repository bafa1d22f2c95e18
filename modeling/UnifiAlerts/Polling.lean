import UnifiAlerts.Ops

/-!
# A poll over timezone-aware timestamps

With aware timestamps no comparison of a poll raises, and its lists are
filters: the eligible alerts are those that pass the severity gate, the
counted ones those `newer` than the watermark. `pollState_eq` says what
a poll does to one category in these terms, and `pollLoop_raised` that
the loop reaches every category.

The raw definitions compare datetimes and may raise, so a proof about
them has to carry an exception through every loop. This module pays that
price once. What it asks for is `AwareMarks` of the state and `AllAware`
of the alerts, which every step over aware alerts keeps; later modules
argue about filtered lists and maxima only. What a poll of naive times
does is in `AbortedPoll`.
-/

namespace UnifiAlerts

open Py Lib

/-! ## Aware watermarks -/

def AwareMark (watermark : Option DateTime) : Prop := ∀ w, watermark = some w → w.isAware = true

theorem AwareMark.none : AwareMark none := fun _ h => nomatch h

theorem AwareMark.aware (t : Instant) : AwareMark (some (.aware t)) := fun _ h => by
  obtain rfl := Option.some.inj h
  rfl

namespace Coordinator

def AwareMarks (coord : Coordinator) : Prop := ∀ c, AwareMark (coord.states c).lastClearedAt

theorem awareMarks_fresh (config : UniFiClientConfig) : AwareMarks (.fresh config) :=
  fun _ => .none

theorem AwareMarks.setState {coord : Coordinator} (h : AwareMarks coord) {d : Category}
    {state : CategoryState} (hstate : AwareMark state.lastClearedAt) :
    AwareMarks (coord.setState d state) := by
  intro c
  rw [setState_states]
  split
  · exact hstate
  · exact h c

theorem AwareMarks.step {coord : Coordinator} (h : AwareMarks coord) (config : UniFiClientConfig)
    (t : TimedOp) : AwareMarks (step config coord t) := by
  intro c
  rcases step_state config coord t c with ⟨-, hst⟩ | ⟨-, hm⟩
  · rw [hst]
    exact .aware _
  · rw [hm.lastClearedAt]
    exact h c

theorem AwareMarks.run {coord : Coordinator} (h : AwareMarks coord) (config : UniFiClientConfig)
    (ts : List TimedOp) : AwareMarks (Lib.run (Coordinator.step config) coord ts) :=
  @run_preserves _ _ _ AwareMarks (fun _ t hs => AwareMarks.step hs config t) coord h ts

/-! ## The lists of a poll -/

def AllAware (alerts : List UniFiAlert) : Prop := ∀ a ∈ alerts, a.receivedAt.isAware = true

/-- Received strictly after the watermark; without one everything is. -/
def newer (watermark : Option DateTime) (a : UniFiAlert) : Bool :=
  match watermark with
  | none => true
  | some w => decide (w.instant < a.receivedAt.instant)

@[simp] theorem newer_none (a : UniFiAlert) : newer none a = true := rfl

@[simp] theorem newer_some (w : DateTime) (a : UniFiAlert) :
    newer (some w) a = true ↔ w.instant < a.receivedAt.instant := by
  unfold newer
  dsimp only
  rw [decide_eq_true_eq]

theorem eligible_eq (config : UniFiClientConfig) (cat : String) (alerts : List UniFiAlert) :
    eligible config cat alerts =
      .ok (alerts.filter fun a => severityGate config cat a.severity) := by
  induction alerts with
  | nil => rfl
  | cons a as ih =>
      simp only [eligible, UniFiAlert.severityLevel, meetsMinimum_eq_gate, ih, bind, Except.bind,
        pure, Except.pure, List.filter_cons]

/-- The watermark, if there is one, is aware or naive as the alerts are. -/
def SameKind (watermark : Option DateTime) (alerts : List UniFiAlert) : Prop :=
  ∀ w, watermark = some w → ∀ a ∈ alerts, a.receivedAt.isAware = w.isAware

theorem counted_of_sameKind {watermark : Option DateTime} :
    ∀ {alerts : List UniFiAlert}, SameKind watermark alerts →
      counted watermark alerts = .ok (alerts.filter (newer watermark))
  | [], _ => rfl
  | a :: as, ha => by
      have ih := counted_of_sameKind fun w hw b hb => ha w hw b (List.mem_cons_of_mem _ hb)
      cases watermark with
      | none =>
          simp only [counted, ih, bind, Except.bind, pure, Except.pure, List.filter_cons, newer]
      | some w =>
          have hgt : a.receivedAt.gt w = .ok (decide (w.instant < a.receivedAt.instant)) :=
            DateTime.gt_eq (ha w rfl a List.mem_cons_self)
          simp only [counted, ih, hgt, bind, Except.bind, pure, Except.pure, List.filter_cons,
            newer]
          rfl

theorem counted_eq {watermark : Option DateTime} (hw : AwareMark watermark)
    {alerts : List UniFiAlert} (ha : AllAware alerts) :
    counted watermark alerts = .ok (alerts.filter (newer watermark)) :=
  counted_of_sameKind fun w hmark a hmem => by rw [ha a hmem, hw w hmark]

theorem counted_subset {watermark : Option DateTime} :
    ∀ {alerts as : List UniFiAlert}, counted watermark alerts = .ok as → as ⊆ alerts
  | [], as, h => by
      obtain rfl := Except.ok.inj h
      exact List.Subset.refl _
  | a :: alerts, as, h => by
      obtain ⟨newer, rest, hrest, rfl⟩ : ∃ newer rest, counted watermark alerts = .ok rest ∧
          (if newer = true then a :: rest else rest) = as := by
        cases watermark with
        | none =>
            obtain ⟨newer, -, h⟩ := bind_eq_ok.mp h
            obtain ⟨rest, hrest, h⟩ := bind_eq_ok.mp h
            exact ⟨newer, rest, hrest, Except.ok.inj h⟩
        | some w =>
            obtain ⟨newer, -, h⟩ := bind_eq_ok.mp h
            obtain ⟨rest, hrest, h⟩ := bind_eq_ok.mp h
            exact ⟨newer, rest, hrest, Except.ok.inj h⟩
      have hsub := counted_subset hrest
      cases newer with
      | true => exact List.cons_subset_cons a hsub
      | false => exact List.Subset.trans hsub (List.subset_cons_self a alerts)

theorem AllAware.filter {alerts : List UniFiAlert} (h : AllAware alerts) (p : UniFiAlert → Bool) :
    AllAware (alerts.filter p) := fun a ha => h a (List.mem_filter.mp ha).1

/-! ## The newest alarm seen -/

@[simp] theorem advance_none (t : Instant) : CategoryState.advance none t = some t := rfl

@[simp] theorem advance_some (l t : Instant) :
    CategoryState.advance (some l) t = some (max l t) := by
  simp only [CategoryState.advance]
  split
  · rename_i h
    rw [max_eq_right h.le]
  · rename_i h
    rw [max_eq_left (not_lt.mp h)]

theorem advance_advance (last : Option Instant) (s t : Instant) :
    CategoryState.advance (CategoryState.advance last s) t =
      CategoryState.advance last (max s t) := by
  cases last <;> simp [max_assoc]

theorem trackNewestSeen_eq (state : CategoryState) (alerts : List UniFiAlert) :
    trackNewestSeen state alerts = { state with
      lastAlarmReceivedAt := alerts.foldl
        (fun last a => CategoryState.advance last a.receivedAt.instant)
        state.lastAlarmReceivedAt } := by
  cases alerts with
  | nil => rfl
  | cons a as =>
      have hfold : ∀ (as : List UniFiAlert) (last : Option Instant) (t : Instant),
          as.foldl (fun last a => CategoryState.advance last a.receivedAt.instant)
              (CategoryState.advance last t) =
            CategoryState.advance last
            ((as.map fun a => ensureAware a.receivedAt).foldl max t) := by
        intro as
        induction as with
        | nil => exact fun _ _ => rfl
        | cons b bs ih =>
            intro last t
            rw [List.foldl_cons, advance_advance, ih]
            rfl
      rw [List.foldl_cons, hfold]
      rfl

/-! ## One category -/

/-- The end of a category's poll: set the open count, and raise the category
when something is counted and it is not alerting yet. -/
def raiseFrom (state : CategoryState) (counted : List UniFiAlert) :
    CategoryState × Bool × Option Exc :=
  let state := { state with openCount := counted.length }
  match counted with
  | [] => (state, false, none)
  | a :: as =>
    if state.isAlerting then (state, false, none)
    else match maxBy (fun a : UniFiAlert => a.receivedAt) a as with
      | .error e => (state, false, some e)
      | .ok mostRecent =>
        ({ state with isAlerting := true, lastAlert := some mostRecent }, true, none)

def gated (config : UniFiClientConfig) (cat : String) (alerts : List UniFiAlert) :
    List UniFiAlert :=
  alerts.filter fun a => severityGate config cat a.severity

theorem pollState_run (config : UniFiClientConfig) (cat : String) (state : CategoryState)
    (alerts : List UniFiAlert) :
    pollState config cat state alerts =
      match counted state.lastClearedAt (gated config cat alerts) with
      | .error e => (trackNewestSeen state (gated config cat alerts), false, some e)
      | .ok counted => raiseFrom (trackNewestSeen state (gated config cat alerts)) counted := by
  have heligible : eligible config cat alerts = .ok (gated config cat alerts) := eligible_eq _ _ _
  have hcounted : counted (trackNewestSeen state (gated config cat alerts)).lastClearedAt
      (gated config cat alerts) = counted state.lastClearedAt (gated config cat alerts) := by
    rw [trackNewestSeen_eq]
  unfold pollState
  simp only [heligible, hcounted]
  cases counted state.lastClearedAt (gated config cat alerts) <;> rfl

theorem pollState_eq {config : UniFiClientConfig} {cat : String} {state : CategoryState}
    {alerts : List UniFiAlert} (hw : AwareMark state.lastClearedAt) (ha : AllAware alerts) :
    pollState config cat state alerts =
      raiseFrom (trackNewestSeen state (gated config cat alerts))
        ((gated config cat alerts).filter (newer state.lastClearedAt)) := by
  have hgated : AllAware (gated config cat alerts) := ha.filter _
  rw [pollState_run, counted_eq hw hgated]

/-- A poll of aware alerts does one of two things to a category. -/
theorem raiseFrom_aware (state : CategoryState) {counted : List UniFiAlert}
    (ha : AllAware counted) :
    ((counted = [] ∨ state.isAlerting = true) ∧
      raiseFrom state counted = ({ state with openCount := counted.length }, false, none)) ∨
    (state.isAlerting = false ∧ ∃ m ∈ counted,
      raiseFrom state counted =
        ({ state with openCount := counted.length, isAlerting := true, lastAlert := some m },
          true, none)) := by
  cases counted with
  | nil => exact Or.inl ⟨Or.inl rfl, rfl⟩
  | cons a as =>
      cases hal : state.isAlerting with
      | true => exact Or.inl ⟨Or.inr rfl, by simp [raiseFrom, hal]⟩
      | false =>
          obtain ⟨m, hm, hmem, -⟩ := maxBy_aware ha
          exact Or.inr ⟨rfl, m, hmem, by simp [raiseFrom, hal, hm]⟩

theorem pollState_raised {config : UniFiClientConfig} {cat : String} {state : CategoryState}
    {alerts : List UniFiAlert} (hw : AwareMark state.lastClearedAt) (ha : AllAware alerts) :
    (pollState config cat state alerts).2.2 = none := by
  have hcounted : AllAware ((gated config cat alerts).filter
      (newer state.lastClearedAt)) := (ha.filter _).filter _
  rw [pollState_eq hw ha]
  rcases raiseFrom_aware (trackNewestSeen state (gated config cat alerts)) hcounted with
    ⟨-, h⟩ | ⟨-, m, -, h⟩ <;> rw [h]

/-! ## The whole poll -/

/-- No comparison raises, so the loop visits every category. -/
theorem pollLoop_raised {config : UniFiClientConfig} :
    ∀ {categorised : Categorised} {turn : Turn}, AwareMarks turn.coord →
      AllAware (categorised.flatMap Prod.snd) → turn.raised = none →
      (pollLoop config categorised turn).raised = none
  | [], _, _, _, hr => hr
  | (cat, alerts) :: rest, turn, hw, ha, hr => by
      have hhead : AllAware alerts := fun a h => ha a (List.mem_append_left _ h)
      have hrest : AllAware (rest.flatMap Prod.snd) := fun a h => ha a (List.mem_append_right _ h)
      rcases pollLoop_cases config cat alerts rest turn with
        ⟨-, hloop⟩ | ⟨d, -, -, ⟨e, hraised, -⟩ | ⟨-, hloop⟩⟩
      · rw [hloop]
        exact pollLoop_raised hw hrest hr
      · rw [pollState_raised (hw d) hhead] at hraised
        cases hraised
      · rw [hloop]
        refine pollLoop_raised (hw.setState ?_) hrest hr
        rw [(pollState_frame config _ _ alerts).2.2.2.1]
        exact hw d

theorem applyPoll_raised {config : UniFiClientConfig} {categorised : Categorised}
    {coord : Coordinator} (hw : AwareMarks coord) (ha : AllAware (categorised.flatMap Prod.snd)) :
    (applyPoll config categorised coord).raised = none := by
  have hloop := @pollLoop_raised config categorised { coord } hw ha rfl
  unfold applyPoll
  dsimp only
  rw [hloop]

/-- Raising a category, whatever the timestamps, makes one of the counted alerts the
last one. -/
theorem raiseFrom_lastAlert (state : CategoryState) (counted : List UniFiAlert) :
    (raiseFrom state counted).1.lastAlert = state.lastAlert ∨
      ∃ a ∈ counted, (raiseFrom state counted).1.lastAlert = some a := by
  unfold raiseFrom
  dsimp only
  split
  · exact Or.inl rfl
  · split
    · exact Or.inl rfl
    · split
      · exact Or.inl rfl
      · rename_i m hm
        exact Or.inr ⟨m, maxBy_mem hm, rfl⟩

theorem Moves.lastAlert {config : UniFiClientConfig} {as : List UniFiAlert}
    {st st' : CategoryState} (h : Moves config as st st') :
    st'.lastAlert = st.lastAlert ∨ ∃ a ∈ as, st'.lastAlert = some a := by
  induction h with
  | refl _ => exact Or.inl rfl
  | filtered _ => exact Or.inl rfl
  | accepted hmem _ => exact Or.inr ⟨_, hmem, rfl⟩
  | @polled st alerts cat hsub =>
      rw [pollState_run]
      split
      · left
        dsimp only
        rw [trackNewestSeen_eq]
      · rename_i counted hcounted
        rcases raiseFrom_lastAlert (trackNewestSeen st (gated config cat alerts)) counted with
          hsame | ⟨a, ha, hnew⟩
        · left
          rw [hsame, trackNewestSeen_eq]
        · exact Or.inr
            ⟨a, hsub (List.mem_of_mem_filter (counted_subset hcounted ha)), hnew⟩
  | zeroed _ => exact Or.inl rfl
  | trans _ _ ih₁ ih₂ =>
      rcases ih₂ with h₂ | h₂
      · rw [h₂]
        exact ih₁
      · exact Or.inr h₂

end Coordinator

end UnifiAlerts
