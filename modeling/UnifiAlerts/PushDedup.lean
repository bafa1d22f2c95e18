import Mathlib.Data.Finset.Order
import Mathlib.Data.Finset.Dedup
import UnifiAlerts.Ops

/-!
# Push deduplication against an unbounded history

The coordinator keeps one pruned map from (category, key) to the time of
the last applied push. The reference below keeps every push it ever
accepted and prunes nothing. Run side by side over any interleaving the
two accept the same pushes, because the map and the history `Agree`
(`Tracks`), and that is preserved by each operation (`Tracks.step`).

What the pruned map has forgotten is too old to matter: an entry is
dropped only when it is older than the window, and time goes on. The
argument is that of `Lib.Dedup` and is used here by name; this module
supplies the rest of `push_alert`, which asks for the category, its
switch and its severity gate before the map, so that a push which is
dropped there leaves no entry and is none of the reference either.
-/

namespace UnifiAlerts

open Py Lib

/-! ## The guards of a push -/

namespace Coordinator

/-- The severity comparison never raises, so the guards always decide. -/
theorem pushVerdict_eq (config : UniFiClientConfig) (coord : Coordinator) (mono : ℚ)
    (category : String) (alert : UniFiAlert) :
    pushVerdict config coord mono category alert = .ok (match Category.ofName? category with
      | none => .unknown
      | some c =>
        if (coord.states c).enabled = false then .disabled
        else if severityGate config category alert.severity = false then .filtered c
        else if alert.key ≠ "" ∧
            suppressed webhookDedupWindowSeconds mono coord.lastPushAt (category, alert.key) = true
          then .duplicate c
        else .accepted c) := by
  unfold pushVerdict
  cases hcat : Category.ofName? category with
  | none => rfl
  | some c =>
      dsimp only
      cases henabled : (coord.states c).enabled with
      | false => rfl
      | true =>
          simp only [UniFiAlert.severityLevel, meetsMinimum_eq_gate]
          cases hgate : severityGate config category alert.severity with
          | false => rfl
          | true =>
              by_cases hkey : alert.key = ""
              · simp [bind, Except.bind, hkey, pure, Except.pure]
              · cases hsup : suppressed webhookDedupWindowSeconds mono coord.lastPushAt
                    (category, alert.key) with
                | false => simp [bind, Except.bind, pure, Except.pure]
                | true => simp [bind, Except.bind, hkey, pure, Except.pure]

theorem pushVerdict_accepted_iff {config : UniFiClientConfig} {coord : Coordinator} {mono : ℚ}
    {category : String} {alert : UniFiAlert} {c : Category} :
    pushVerdict config coord mono category alert = .ok (.accepted c) ↔
      Category.ofName? category = some c ∧ (coord.states c).enabled = true ∧
        severityGate config category alert.severity = true ∧
        (alert.key = "" ∨
          suppressed webhookDedupWindowSeconds mono coord.lastPushAt (category, alert.key)
            = false) := by
  rw [pushVerdict_eq]
  cases hcat : Category.ofName? category with
  | none => simp
  | some d =>
      by_cases henabled : (coord.states d).enabled = false
      · simp only [if_pos henabled, Except.ok.injEq, Option.some.injEq, reduceCtorEq, false_iff]
        rintro ⟨rfl, h, -⟩
        simp [henabled] at h
      · by_cases hgate : severityGate config category alert.severity = false
        · simp [henabled, hgate]
        · by_cases hdup : alert.key ≠ "" ∧
              suppressed webhookDedupWindowSeconds mono coord.lastPushAt
                (category, alert.key) = true
          · simp [henabled, hgate, hdup]
          · simp only [if_neg henabled, if_neg hgate, if_neg hdup, Except.ok.injEq,
              Verdict.accepted.injEq, Option.some.injEq]
            simp only [Bool.not_eq_false] at henabled hgate
            rw [not_and_or, not_not, Bool.not_eq_true] at hdup
            constructor
            · rintro rfl
              exact ⟨rfl, henabled, hgate, hdup⟩
            · exact fun h => h.1

/-- An accepted push applies the alert to its category, whatever the watermark
comparison does to the open count. -/
theorem pushAlert_of_accepted {config : UniFiClientConfig} {coord : Coordinator} {mono : ℚ}
    {category : String} {alert : UniFiAlert} {c : Category}
    (h : pushVerdict config coord mono category alert = .ok (.accepted c)) :
    ∃ openCount, (pushAlert config coord mono category alert).coord =
      Coordinator.setState
        { coord with
          lastPushAt := if alert.key != "" then
              recordAt webhookDedupWindowSeconds mono coord.lastPushAt (category, alert.key)
            else coord.lastPushAt }
        c { acceptPush (coord.states c) alert with openCount } := by
  unfold pushAlert
  rw [h]
  dsimp only
  split
  · exact ⟨(coord.states c).openCount, rfl⟩
  · exact ⟨_, rfl⟩

/-- After an accepted push with a key, the map goes back no further than the window. -/
theorem pushAlert_recent {config : UniFiClientConfig} {coord : Coordinator} {mono : ℚ}
    {category : String} {alert : UniFiAlert} {c : Category}
    (h : pushVerdict config coord mono category alert = .ok (.accepted c)) (hkey : alert.key ≠ "")
    {k : String × String} {t : ℚ}
    (hk : (pushAlert config coord mono category alert).coord.lastPushAt k = some t) :
    mono - t ≤ webhookDedupWindowSeconds := by
  obtain ⟨openCount, hcoord⟩ := pushAlert_of_accepted h
  have hmap : (pushAlert config coord mono category alert).coord.lastPushAt =
      recordAt webhookDedupWindowSeconds mono coord.lastPushAt (category, alert.key) := by
    rw [hcoord]
    simp [hkey]
  rw [hmap] at hk
  exact recordAt_recent (by norm_num [webhookDedupWindowSeconds]) hk

/-- The alert was applied to category `c` and to no other. The open count is left out: it
grows only if the alert is newer than the watermark. -/
structure Applied (coord coord' : Coordinator) (c : Category) (alert : UniFiAlert) : Prop where
  state : coord'.states c =
    { acceptPush (coord.states c) alert with openCount := (coord'.states c).openCount }
  others : ∀ d, d ≠ c → coord'.states d = coord.states d

theorem pushAlert_applied {config : UniFiClientConfig} {coord : Coordinator} {mono : ℚ}
    {category : String} {alert : UniFiAlert} {c : Category}
    (h : pushVerdict config coord mono category alert = .ok (.accepted c)) :
    Applied coord (pushAlert config coord mono category alert).coord c alert := by
  obtain ⟨openCount, hcoord⟩ := pushAlert_of_accepted h
  rw [hcoord]
  exact ⟨by simp, fun d hd => by simp [hd]⟩

/-- Nothing happened but, for a filtered push, the record of it: its count, its time and
the time of the webhook. -/
structure Dropped (coord coord' : Coordinator) : Prop where
  states : ∀ c, coord'.states c = { coord.states c with
    filteredCount := (coord'.states c).filteredCount
    lastFilteredAt := (coord'.states c).lastFilteredAt
    lastWebhookAt := (coord'.states c).lastWebhookAt }
  rest : coord' = { coord with states := coord'.states }

theorem Dropped.refl (coord : Coordinator) : Dropped coord coord := ⟨fun _ => rfl, rfl⟩

theorem pushAlert_of_not_accepted {config : UniFiClientConfig} {coord : Coordinator} {mono : ℚ}
    {category : String} {alert : UniFiAlert}
    (h : ∀ c, pushVerdict config coord mono category alert ≠ .ok (.accepted c)) :
    Dropped coord (pushAlert config coord mono category alert).coord := by
  unfold pushAlert
  split
  · exact .refl coord
  · rename_i d _
    refine ⟨fun c => ?_, rfl⟩
    dsimp only
    rw [setState_states]
    split
    · rename_i hcd
      rw [hcd]
      rfl
    · rfl
  · rename_i c hv
    exact absurd hv (h c)
  · exact .refl coord

theorem step_lastPushAt_of_not_push {config : UniFiClientConfig} {coord : Coordinator}
    {t : TimedOp} (h : ∀ category alert, t.op ≠ .push category alert) :
    (step config coord t).lastPushAt = coord.lastPushAt := by
  obtain ⟨now, op⟩ := t
  cases op with
  | fetch net => exact fetch_lastPushAt net config.effectiveSite coord
  | poll categorised =>
      simp only [step, turn]
      rw [applyPoll_frame]
  | push category alert => exact absurd rfl (h category alert)
  | clearCategory category =>
      simp only [step, turn, clearCategory]
      split <;> rfl
  | clearAll => rfl
  | autoClear c =>
      simp only [step, turn, autoClear]
      split <;> rfl

theorem step_alertCount_of_not_push {config : UniFiClientConfig} {coord : Coordinator}
    {t : TimedOp} (h : ∀ category alert, t.op ≠ .push category alert) (c : Category) :
    ((step config coord t).states c).alertCount = (coord.states c).alertCount := by
  obtain ⟨now, op⟩ := t
  cases op with
  | fetch net => simp only [step, turn, fetch_states]
  | poll categorised =>
      exact @applyPoll_rel config (categorised.flatMap Prod.snd)
        (fun st st' => st'.alertCount = st.alertCount) (fun _ => rfl)
        (fun hab hbc => hbc.trans hab)
        (fun cat st alerts _ => (pollState_frame config cat st alerts).2.2.1) (fun _ => rfl)
        categorised (List.Subset.refl _) coord c
  | push category alert => exact absurd rfl (h category alert)
  | clearCategory category =>
      simp only [step, turn, clearCategory]
      split
      · rfl
      · simp only [setState_states]
        split
        · rename_i hcd
          rw [hcd]
          rfl
        · rfl
  | clearAll =>
      simp only [step, turn, clearAll]
      split <;> rfl
  | autoClear d =>
      simp only [step, turn, autoClear]
      split
      · simp only [setState_states]
        split
        · rename_i hcd
          rw [hcd]
          rfl
        · rfl
      · rfl

end Coordinator

/-! ## The reference -/

/-- A push the reference accepted: its category and key, and when. -/
abbrev Accepted := (String × String) × ℚ

def refAccepts (config : UniFiClientConfig) (accepted : List Accepted) (mono : ℚ)
    (category : String) (alert : UniFiAlert) : Bool :=
  match Category.ofName? category with
  | none => false
  | some c =>
    config.enabled c && severityGate config category alert.severity &&
      (alert.key == "" || !accepted.any fun p =>
        p.1 == (category, alert.key) && decide (mono - p.2 < webhookDedupWindowSeconds))

def refStep (config : UniFiClientConfig) (accepted : List Accepted) (t : TimedOp) :
    List Accepted :=
  match t.op with
  | .push category alert =>
    if refAccepts config accepted t.now.mono category alert then
      accepted ++ [((category, alert.key), t.now.mono)]
    else accepted
  | _ => accepted

/-- The accepted pushes that have a key. -/
def keyed (accepted : List Accepted) : List Accepted := accepted.filter fun p => p.1.2 != ""

def acceptedOf (accepted : List Accepted) (c : Category) : Nat :=
  accepted.countP fun p => p.1.1 == c.name

theorem any_accepted_iff {accepted : List Accepted} {mono : ℚ} {category key : String}
    (hkey : key ≠ "") :
    (accepted.any fun p =>
        p.1 == (category, key) && decide (mono - p.2 < webhookDedupWindowSeconds)) = true ↔
      SuppressedBy webhookDedupWindowSeconds mono (keyed accepted) (category, key) := by
  rw [List.any_eq_true]
  constructor
  · rintro ⟨⟨k, t⟩, hmem, hp⟩
    simp only [Bool.and_eq_true, beq_iff_eq, decide_eq_true_eq] at hp
    obtain ⟨rfl, hlt⟩ := hp
    exact ⟨t, List.mem_filter.mpr ⟨hmem, by simpa using hkey⟩, hlt⟩
  · rintro ⟨t, hmem, hlt⟩
    exact ⟨((category, key), t), (List.mem_filter.mp hmem).1, by simpa using hlt⟩

theorem refAccepts_iff {config : UniFiClientConfig} {accepted : List Accepted} {mono : ℚ}
    {category : String} {alert : UniFiAlert} :
    refAccepts config accepted mono category alert = true ↔
      ∃ c, Category.ofName? category = some c ∧ config.enabled c = true ∧
        severityGate config category alert.severity = true ∧
        (alert.key = "" ∨ ¬SuppressedBy webhookDedupWindowSeconds mono (keyed accepted)
          (category, alert.key)) := by
  unfold refAccepts
  cases Category.ofName? category with
  | none => simp
  | some c =>
      by_cases hkey : alert.key = ""
      · simp [hkey]
      · rw [← any_accepted_iff hkey]
        simp only [Bool.and_eq_true, Bool.or_eq_true, beq_iff_eq, Bool.not_eq_true',
          Bool.not_eq_true, Option.some.injEq, exists_eq_left', and_assoc]

/-! ## Running side by side -/

/-- A coordinator before its first push: the category states may be restored. -/
structure Started (config : UniFiClientConfig) (coord : Coordinator) : Prop where
  enabled : ∀ c, (coord.states c).enabled = config.enabled c
  nothingPushed : coord.lastPushAt = fun _ => none

theorem started_fresh (config : UniFiClientConfig) : Started config (.fresh config) :=
  ⟨fun _ => rfl, rfl⟩

/-- The coordinator and the reference at monotonic time `now`, `initial` being
the alert counts both started from. -/
structure Tracks (config : UniFiClientConfig) (initial : Category → Int) (now : ℚ)
    (coord : Coordinator) (accepted : List Accepted) : Prop where
  enabled : ∀ c, (coord.states c).enabled = config.enabled c
  agrees : Agrees webhookDedupWindowSeconds now coord.lastPushAt (keyed accepted)
  counted : ∀ c, (coord.states c).alertCount = initial c + acceptedOf accepted c

namespace Tracks

variable {config : UniFiClientConfig} {initial : Category → Int} {now now' : ℚ}
  {coord : Coordinator} {accepted : List Accepted}

theorem start (h : Started config coord) (now : ℚ) :
    Tracks config (fun c => (coord.states c).alertCount) now coord [] where
  enabled := h.enabled
  agrees := by rw [h.nothingPushed]; exact Agrees.empty _ _
  counted := fun c => by simp [acceptedOf]

theorem advance (h : Tracks config initial now coord accepted) (hle : now ≤ now') :
    Tracks config initial now' coord accepted :=
  { h with agrees := h.agrees.advance hle }

/-- Both decide a push the same way. -/
theorem accepts_iff (h : Tracks config initial now coord accepted) {category : String}
    {alert : UniFiAlert} :
    refAccepts config accepted now category alert = true ↔
      ∃ c, Coordinator.pushVerdict config coord now category alert = .ok (.accepted c) := by
  rw [refAccepts_iff]
  refine exists_congr fun c => ?_
  rw [Coordinator.pushVerdict_accepted_iff, h.enabled c, ← h.agrees.suppressed_iff,
    Bool.not_eq_true]

theorem refused (h : Tracks config initial now coord accepted) {category : String}
    {alert : UniFiAlert} (hr : refAccepts config accepted now category alert = false)
    (c : Category) :
    Coordinator.pushVerdict config coord now category alert ≠ .ok (.accepted c) := by
  intro hv
  rw [h.accepts_iff.mpr ⟨c, hv⟩] at hr
  cases hr

/-- A refused push that passes every other guard is a duplicate. -/
theorem duplicate (h : Tracks config initial now coord accepted) {category : String}
    {alert : UniFiAlert} {c : Category} (hcat : Category.ofName? category = some c)
    (henabled : config.enabled c = true)
    (hgate : severityGate config category alert.severity = true)
    (hr : refAccepts config accepted now category alert = false) :
    Coordinator.pushVerdict config coord now category alert = .ok (.duplicate c) := by
  have hnot := h.refused hr c
  rw [Coordinator.pushVerdict_eq, hcat] at hnot ⊢
  simp only [h.enabled c, henabled, hgate, Bool.true_eq_false, if_false] at hnot ⊢
  split
  · rfl
  · rename_i hdup
    rw [if_neg hdup] at hnot
    exact absurd rfl hnot

theorem push (h : Tracks config initial now coord accepted) (category : String)
    (alert : UniFiAlert) (wall : Instant) :
    Tracks config initial now
      (Coordinator.step config coord ⟨⟨wall, now⟩, .push category alert⟩)
      (refStep config accepted ⟨⟨wall, now⟩, .push category alert⟩) := by
  have henabled : ∀ c, ((Coordinator.step config coord
      ⟨⟨wall, now⟩, .push category alert⟩).states c).enabled = config.enabled c := fun c => by
    rw [Coordinator.step_enabled, h.enabled c]
  cases haccepts : refAccepts config accepted now category alert with
  | false =>
      have hdrop := Coordinator.pushAlert_of_not_accepted (h.refused haccepts)
      have href : refStep config accepted ⟨⟨wall, now⟩, .push category alert⟩ = accepted := by
        simp [refStep, haccepts]
      refine { enabled := henabled, agrees := ?_, counted := fun c => ?_ }
      · show Agrees _ _ (Coordinator.pushAlert config coord now category alert).coord.lastPushAt _
        rw [href, hdrop.rest]
        exact h.agrees
      · show ((Coordinator.pushAlert config coord now category alert).coord.states c).alertCount = _
        rw [href, hdrop.states c]
        exact h.counted c
  | true =>
      obtain ⟨c, hv⟩ := h.accepts_iff.mp haccepts
      have hcat := (Coordinator.pushVerdict_accepted_iff.mp hv).1
      obtain ⟨openCount, hcoord⟩ := Coordinator.pushAlert_of_accepted hv
      have href : refStep config accepted ⟨⟨wall, now⟩, .push category alert⟩ =
          accepted ++ [((category, alert.key), now)] := by
        simp [refStep, haccepts]
      refine { enabled := henabled, agrees := ?_, counted := fun d => ?_ }
      · show Agrees _ _ (Coordinator.pushAlert config coord now category alert).coord.lastPushAt _
        rw [href, hcoord, keyed, List.filter_append]
        by_cases hkey : alert.key = ""
        · simpa [hkey, keyed] using h.agrees
        · simpa [hkey, keyed] using h.agrees.recordAt (category, alert.key)
      · show ((Coordinator.pushAlert config coord now category alert).coord.states d).alertCount = _
        rw [href, hcoord, Coordinator.setState_states, acceptedOf, List.countP_append]
        rw [Category.ofName?_eq_some] at hcat
        have hprev := h.counted d
        by_cases hdc : d = c
        · subst hdc
          simp only [if_true, Coordinator.acceptPush, CategoryState.applyAlert, hprev, acceptedOf]
          simp [hcat, add_assoc]
        · have hne : ¬category = d.name := fun hname =>
            hdc (Category.name_injective (hname.symm.trans hcat.symm))
          simp only [if_neg hdc, hprev, acceptedOf]
          simp [hne]

/-- One operation of the interleaving, at its own monotonic time. -/
theorem step (t : TimedOp) (h : Tracks config initial t.now.mono coord accepted) :
    Tracks config initial t.now.mono (Coordinator.step config coord t)
      (refStep config accepted t) := by
  by_cases hpush : ∃ category alert, t.op = .push category alert
  · obtain ⟨category, alert, hop⟩ := hpush
    obtain ⟨⟨wall, mono⟩, op⟩ := t
    subst hop
    exact h.push category alert wall
  · have hother : ∀ category alert, t.op ≠ .push category alert := fun category alert hop =>
      hpush ⟨category, alert, hop⟩
    have href : refStep config accepted t = accepted := by
      unfold refStep
      split
      · rename_i category alert hop
        exact absurd hop (hother category alert)
      · rfl
    rw [href]
    refine { enabled := fun c => ?_, agrees := ?_, counted := fun c => ?_ }
    · rw [Coordinator.step_enabled, h.enabled c]
    · rw [Coordinator.step_lastPushAt_of_not_push hother]
      exact h.agrees
    · rw [Coordinator.step_alertCount_of_not_push hother, h.counted c]

/-- Every interleaving with a nondecreasing monotonic clock, up to any time not
before the last operation. -/
theorem run {coord₀ : Coordinator} (hstart : Started config coord₀) {ts : List TimedOp}
    (hclock : ts.Pairwise fun a b => a.now.mono ≤ b.now.mono) (hto : ∀ t ∈ ts, t.now.mono ≤ now) :
    Tracks config (fun c => (coord₀.states c).alertCount) now
      (Lib.run (Coordinator.step config) coord₀ ts) (Lib.run (refStep config) [] ts) := by
  have hpair := @run_preserves_timed _ _ _
    (fun p t => (Coordinator.step config p.1 t, refStep config p.2 t)) _
    (fun t : TimedOp => t.now.mono)
    (fun now p => Tracks config (fun c => (coord₀.states c).alertCount) now p.1 p.2)
    (fun h hle => h.advance hle) (fun _ t h => h.step) ts (coord₀, [])
    (fun now => start hstart now) hclock now hto
  rw [run_pair] at hpair
  exact hpair

end Tracks

/-! ## The refinement -/

/-- Over any interleaving on a coordinator that has seen no push yet, the
pushes applied are those the reference accepts, each category's alert count
grows by the number of them, a duplicate leaves the coordinator as it was, and
no entry of the map outlives the window at an accepted push. -/
theorem push_dedup_refines_history (config : UniFiClientConfig) (coord₀ : Coordinator)
    (hstart : Started config coord₀) (ts : List TimedOp)
    (hclock : ts.Pairwise fun a b => a.now.mono ≤ b.now.mono) :
    (∀ pre wall mono category alert post,
      ts = pre ++ ⟨⟨wall, mono⟩, .push category alert⟩ :: post →
      let coord := run (Coordinator.step config) coord₀ pre
      let accepted := run (refStep config) [] pre
      let turn := Coordinator.pushAlert config coord mono category alert
      (refAccepts config accepted mono category alert = true →
        ∃ c, Category.ofName? category = some c ∧
          Coordinator.Applied coord turn.coord c alert) ∧
      (refAccepts config accepted mono category alert = false →
        Coordinator.Dropped coord turn.coord) ∧
      (∀ c, Category.ofName? category = some c → config.enabled c = true →
        severityGate config category alert.severity = true →
        refAccepts config accepted mono category alert = false → turn = { coord }) ∧
      (refAccepts config accepted mono category alert = true → alert.key ≠ "" →
        ∀ k t, turn.coord.lastPushAt k = some t → mono - t ≤ webhookDedupWindowSeconds)) ∧
    ∀ c, ((run (Coordinator.step config) coord₀ ts).states c).alertCount =
      (coord₀.states c).alertCount + acceptedOf (run (refStep config) [] ts) c := by
  constructor
  · intro pre wall mono category alert post hts coord accepted turn
    -- the two runs up to this push agree at its time
    subst hts
    obtain ⟨hpre, -, hbefore⟩ := List.pairwise_append.mp hclock
    have htracks : Tracks config (fun c => (coord₀.states c).alertCount) mono coord accepted :=
      Tracks.run hstart hpre fun t ht => hbefore t ht _ List.mem_cons_self
    refine ⟨fun hr => ?_, fun hr => ?_, fun c hcat henabled hgate hr => ?_,
      fun hr hkey k t hk => ?_⟩
    · obtain ⟨c, hv⟩ := htracks.accepts_iff.mp hr
      exact ⟨c, (Coordinator.pushVerdict_accepted_iff.mp hv).1,
        Coordinator.pushAlert_applied hv⟩
    · exact Coordinator.pushAlert_of_not_accepted (htracks.refused hr)
    · show Coordinator.pushAlert config coord mono category alert = _
      unfold Coordinator.pushAlert
      rw [htracks.duplicate hcat henabled hgate hr]
    · obtain ⟨c, hv⟩ := htracks.accepts_iff.mp hr
      exact Coordinator.pushAlert_recent hv hkey hk
  · intro c
    obtain ⟨last, hlast⟩ := (ts.map fun t => t.now.mono).toFinset.exists_le
    have hto : ∀ t ∈ ts, t.now.mono ≤ last := fun t ht =>
      hlast _ (List.mem_toFinset.mpr (List.mem_map_of_mem ht))
    exact (Tracks.run hstart hclock hto).counted c

/-- Two pushes of one key six seconds apart count, the one between them does not. -/
theorem push_dedup_refines_history_at :
    let alert : UniFiAlert :=
      { category := "power", message := "PoE lost", receivedAt := .aware 0, key := "EVT_SW_PoE" }
    let push (mono : ℚ) : TimedOp := ⟨⟨0, mono⟩, .push "power" alert⟩
    let ts := [push 0, push 3, ⟨⟨0, 4⟩, .clearAll⟩, push 6]
    ((run (Coordinator.step {}) (.fresh {}) ts).states .power).alertCount = 2 := by
  intro alert push ts
  have hclock : ts.Pairwise fun a b => a.now.mono ≤ b.now.mono := by
    simp only [ts, push]
    norm_num
  have hcount := (push_dedup_refines_history {} (.fresh {}) (started_fresh {}) ts hclock).2 .power
  rw [hcount]
  decide +kernel

end UnifiAlerts
