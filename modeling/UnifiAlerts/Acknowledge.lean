import UnifiAlerts.Polling
import UnifiAlerts.PushDedup

/-!
# Acknowledgement

A category has `Seen` an alarm time once its newest seen alarm is at
least that late, and it has been `Acknowledged` once the watermark is
too. Every observation establishes the first, every clear turns the
first into the second, and no step of a coordinator's lifetime undoes
either. A poll of an acknowledged time, however stale its data, acts as
if the alert were not in it.

The two are kept apart because they have different lives. A category
sees a time when a poll or a push brings it, whether or not the alert
counts; it acknowledges all that it has seen when it is cleared, since a
clear sets the watermark to the newest alarm seen. Both only grow, so
they can be carried over any interleaving (`seen_run`,
`acknowledged_run`), and a poll between the two changes nothing.

That the poll acts as if the alert were not in it is an equation between
two polls, the second of the data without it (`applyPoll_retain`).
-/

namespace UnifiAlerts

open Py Lib

namespace CategoryState

/-- The category has seen an alarm at least as late as `t`. -/
def Seen (state : CategoryState) (t : Instant) : Prop :=
  ∃ m, state.lastAlarmReceivedAt = some m ∧ t ≤ m

/-- It has, and a clear has covered it: the watermark is at least as late too. -/
def Acknowledged (state : CategoryState) (t : Instant) : Prop :=
  state.Seen t ∧ ∃ w, state.lastClearedAt = some (.aware w) ∧ t ≤ w

theorem Acknowledged.aware {state : CategoryState} {t : Instant} (h : state.Acknowledged t) :
    AwareMark state.lastClearedAt := by
  obtain ⟨-, w, hw, -⟩ := h
  rw [hw]
  exact .aware w

/-- The watermark, if there is one, is itself an acknowledged time. -/
def Anchored (state : CategoryState) : Prop :=
  ∀ w, state.lastClearedAt = some w → state.Acknowledged w.instant

theorem Anchored.awareMark {state : CategoryState} (h : state.Anchored) :
    AwareMark state.lastClearedAt := fun w hw => (h w hw).aware w hw

/-! ## Establishing and keeping the two -/

theorem seen_foldl_advance {alerts : List UniFiAlert} {t : Instant} :
    ∀ {last : Option Instant},
      (∃ m, last = some m ∧ t ≤ m) ∨ (∃ a ∈ alerts, t = a.receivedAt.instant) →
      ∃ m, alerts.foldl (fun last a => advance last a.receivedAt.instant) last = some m ∧
        t ≤ m := by
  induction alerts with
  | nil =>
      rintro last (h | ⟨a, ha, -⟩)
      · exact h
      · cases ha
  | cons b bs ih =>
      intro last h
      rw [List.foldl_cons]
      rcases h with ⟨m, rfl, hm⟩ | ⟨a, ha, rfl⟩
      · exact ih (Or.inl ⟨_, Coordinator.advance_some m _, hm.trans (le_max_left _ _)⟩)
      · rcases List.mem_cons.mp ha with rfl | ha
        · refine ih (Or.inl ?_)
          cases last with
          | none => exact ⟨_, rfl, le_rfl⟩
          | some l => exact ⟨_, Coordinator.advance_some l _, le_max_right _ _⟩
        · exact ih (Or.inr ⟨a, ha, rfl⟩)

theorem Seen.track {state : CategoryState} {t : Instant} (h : state.Seen t)
    (alerts : List UniFiAlert) : (Coordinator.trackNewestSeen state alerts).Seen t := by
  rw [Coordinator.trackNewestSeen_eq]
  exact seen_foldl_advance (Or.inl h)

theorem seen_track {state : CategoryState} {alerts : List UniFiAlert} {a : UniFiAlert}
    (ha : a ∈ alerts) : (Coordinator.trackNewestSeen state alerts).Seen a.receivedAt.instant := by
  rw [Coordinator.trackNewestSeen_eq]
  exact seen_foldl_advance (Or.inr ⟨a, ha, rfl⟩)

theorem seen_acceptPush (state : CategoryState) (alert : UniFiAlert) :
    (Coordinator.acceptPush state alert).Seen alert.receivedAt.instant :=
  @seen_track state [alert] alert (List.mem_singleton.mpr rfl)

theorem Seen.acceptPush {state : CategoryState} {t : Instant} (h : state.Seen t)
    (alert : UniFiAlert) : (Coordinator.acceptPush state alert).Seen t :=
  h.track [alert]

theorem Seen.clear {state : CategoryState} {t : Instant} (h : state.Seen t) (now : Instant) :
    (state.clear now).Acknowledged t := by
  obtain ⟨m, hm, hle⟩ := h
  exact ⟨⟨m, hm, hle⟩, m, by simp [CategoryState.clear, hm], hle⟩

end CategoryState

namespace Coordinator

open CategoryState

theorem pollState_lastAlarmReceivedAt (config : UniFiClientConfig) (cat : String)
    (state : CategoryState) (alerts : List UniFiAlert) :
    (pollState config cat state alerts).1.lastAlarmReceivedAt =
      (trackNewestSeen state (gated config cat alerts)).lastAlarmReceivedAt := by
  unfold pollState
  rw [eligible_eq]
  dsimp only
  split
  · rfl
  · split
    · rfl
    · split
      · rfl
      · split <;> rfl

theorem Seen.moves {config : UniFiClientConfig} {as : List UniFiAlert}
    {state state' : CategoryState}
    {t : Instant} (hm : Moves config as state state') (h : state.Seen t) : state'.Seen t := by
  induction hm with
  | refl => exact h
  | filtered _ => exact h
  | accepted _ n => exact h.acceptPush _
  | polled _ _ =>
      unfold CategoryState.Seen
      rw [pollState_lastAlarmReceivedAt]
      exact h.track _
  | zeroed _ => exact h
  | trans _ _ ih₁ ih₂ => exact ih₂ (ih₁ h)

theorem Acknowledged.moves {config : UniFiClientConfig} {as : List UniFiAlert}
    {state state' : CategoryState} {t : Instant} (hm : Moves config as state state')
    (h : state.Acknowledged t) : state'.Acknowledged t := by
  obtain ⟨hseen, w, hw, hle⟩ := h
  exact ⟨Seen.moves hm hseen, w, by rw [hm.lastClearedAt, hw], hle⟩

/-- One step keeps what was seen, and turns it into acknowledged if it clears. -/
theorem seen_step (config : UniFiClientConfig) {coord : Coordinator} {c : Category} {t : Instant}
    (h : (coord.states c).Seen t) (u : TimedOp) :
    ((step config coord u).states c).Seen t ∧
      (clears coord c u.op = true → ((step config coord u).states c).Acknowledged t) := by
  rcases step_state config coord u c with ⟨-, hst⟩ | ⟨hnot, hm⟩
  · rw [hst]
    exact ⟨(h.clear _).1, fun _ => h.clear _⟩
  · exact ⟨Seen.moves hm h, fun hc => by rw [hnot] at hc; cases hc⟩

theorem acknowledged_step (config : UniFiClientConfig) {coord : Coordinator} {c : Category}
    {t : Instant} (h : (coord.states c).Acknowledged t) (u : TimedOp) :
    ((step config coord u).states c).Acknowledged t := by
  rcases step_state config coord u c with ⟨-, hst⟩ | ⟨-, hm⟩
  · rw [hst]
    exact h.1.clear _
  · exact Acknowledged.moves hm h

theorem seen_run (config : UniFiClientConfig) {coord : Coordinator} {c : Category} {t : Instant}
    (h : (coord.states c).Seen t) (ts : List TimedOp) :
    ((run (step config) coord ts).states c).Seen t :=
  @run_preserves _ _ _ (fun s : Coordinator => (s.states c).Seen t)
    (fun _ u hs => (seen_step config hs u).1) coord h ts

theorem acknowledged_run (config : UniFiClientConfig) {coord : Coordinator} {c : Category}
    {t : Instant} (h : (coord.states c).Acknowledged t) (ts : List TimedOp) :
    ((run (step config) coord ts).states c).Acknowledged t :=
  @run_preserves _ _ _ (fun s : Coordinator => (s.states c).Acknowledged t)
    (fun _ u hs => acknowledged_step config hs u) coord h ts

/-! ## Observing an alert -/

/-- The operation shows `alert` to category `c`: an accepted push of it, or the
application of a poll that has it. -/
def Observes (config : UniFiClientConfig) (coord : Coordinator) (t : TimedOp) (c : Category)
    (alert : UniFiAlert) : Prop :=
  match t.op with
  | .push category a => a = alert ∧
      pushVerdict config coord t.now.mono category a = .ok (.accepted c)
  | .poll categorised => (coord.states c).enabled = true ∧
      severityGate config c.name alert.severity = true ∧
      ∃ alerts, (c.name, alerts) ∈ categorised ∧ alert ∈ alerts
  | _ => False

theorem pollLoop_seen {config : UniFiClientConfig} {c : Category} {alerts : List UniFiAlert}
    {alert : UniFiAlert} (hmem : alert ∈ alerts)
    (hgate : severityGate config c.name alert.severity = true) :
    ∀ {categorised : Categorised} {turn : Turn}, AwareMarks turn.coord →
      AllAware (categorised.flatMap Prod.snd) →
      (turn.coord.states c).enabled = true → (c.name, alerts) ∈ categorised →
      ((pollLoop config categorised turn).coord.states c).Seen alert.receivedAt.instant
  | (cat, as) :: rest, turn, hw, ha, henabled, hin => by
      have hhead : AllAware as := fun a h => ha a (List.mem_append_left _ h)
      have hrest : AllAware (rest.flatMap Prod.snd) := fun a h => ha a (List.mem_append_right _ h)
      rcases pollLoop_cases config cat as rest turn with
        ⟨hskip, hloop⟩ | ⟨d, hname, -, ⟨e, hraised, -⟩ | ⟨-, hloop⟩⟩
      · rw [hloop]
        refine pollLoop_seen hmem hgate hw hrest henabled ?_
        rcases List.mem_cons.mp hin with heq | hin
        · rw [hskip c (Prod.mk.inj heq).1] at henabled
          cases henabled
        · exact hin
      · rw [pollState_raised (hw d) hhead] at hraised
        cases hraised
      · rw [hloop]
        rcases List.mem_cons.mp hin with heq | hin
        · -- the entry of `c`: seen here, and kept by the rest of the loop
          obtain ⟨rfl, rfl⟩ := Prod.mk.injEq .. |>.mp heq
          obtain rfl := Category.name_injective hname
          refine Seen.moves (pollLoop_moves config d rest _) ?_
          rw [polledTurn_states, if_pos rfl]
          unfold CategoryState.Seen
          rw [pollState_lastAlarmReceivedAt]
          exact seen_track (List.mem_filter.mpr ⟨hmem, hgate⟩)
        · refine pollLoop_seen hmem hgate (hw.setState ?_) hrest ?_ hin
          · rw [(pollState_frame config _ _ as).2.2.2.1]
            exact hw d
          · rw [polledTurn_states]
            split
            · rename_i hcd
              rw [(pollState_frame config _ _ as).2.1, ← hcd]
              exact henabled
            · exact henabled

/-- An observation is seen by its category. -/
theorem seen_of_observes {config : UniFiClientConfig} {coord : Coordinator} {t : TimedOp}
    {c : Category} {alert : UniFiAlert} (hw : AwareMarks coord) (haware : t.op.Aware)
    (h : Observes config coord t c alert) :
    ((step config coord t).states c).Seen alert.receivedAt.instant := by
  obtain ⟨now, op⟩ := t
  cases op with
  | push category a =>
      obtain ⟨rfl, hv⟩ := h
      obtain ⟨openCount, hcoord⟩ := pushAlert_of_accepted hv
      simp only [step, turn]
      rw [hcoord, setState_states, if_pos rfl]
      exact seen_acceptPush (coord.states c) a
  | poll categorised =>
      obtain ⟨henabled, hgate, alerts, hin, hmem⟩ := h
      have hseen := @pollLoop_seen config c alerts alert hmem hgate categorised { coord } hw haware
        henabled hin
      have hraised := @pollLoop_raised config categorised { coord } hw haware rfl
      simp only [step, turn, applyPoll, hraised, zeroise]
      split <;> exact hseen
  | _ => exact h.elim

/-! ## Polls of acknowledged alerts -/

/-- The poll's data with the alerts of `c` that `keep` rejects left out. -/
def retain (categorised : Categorised) (c : Category) (keep : UniFiAlert → Bool) : Categorised :=
  categorised.map fun entry =>
    if entry.1 = c.name then (entry.1, entry.2.filter keep) else entry

theorem retain_keys (categorised : Categorised) (c : Category) (keep : UniFiAlert → Bool) :
    (retain categorised c keep).map Prod.fst = categorised.map Prod.fst := by
  rw [retain, List.map_map]
  refine List.map_congr_left fun entry _ => ?_
  simp only [Function.comp]
  split <;> rfl

theorem foldl_advance_filter {keep : UniFiAlert → Bool} {m : Instant} :
    ∀ {alerts : List UniFiAlert}, (∀ a ∈ alerts, keep a = false → a.receivedAt.instant ≤ m) →
      (alerts.filter keep).foldl (fun last a => advance last a.receivedAt.instant) (some m) =
        alerts.foldl (fun last a => advance last a.receivedAt.instant) (some m)
  | [], _ => rfl
  | a :: as, h => by
      rw [List.filter_cons]
      split
      · rw [List.foldl_cons, List.foldl_cons, advance_some]
        exact foldl_advance_filter fun b hb hk =>
          (h b (List.mem_cons_of_mem _ hb) hk).trans (le_max_left _ _)
      · rename_i hk
        rw [List.foldl_cons, advance_some, max_eq_left (h a (by simp) (by simpa using hk))]
        exact foldl_advance_filter fun b hb => h b (List.mem_cons_of_mem _ hb)

/-- Leaving out alerts not newer than the watermark leaves what is counted. -/
theorem counted_filter {config : UniFiClientConfig} {cat : String} {keep : UniFiAlert → Bool}
    {watermark : Option DateTime} {alerts : List UniFiAlert}
    (hdrop : ∀ a ∈ alerts, keep a = false → newer watermark a = false) :
    (gated config cat (alerts.filter keep)).filter (newer watermark) =
      (gated config cat alerts).filter (newer watermark) := by
  rw [gated, gated, List.filter_filter, List.filter_filter, List.filter_filter]
  refine List.filter_congr fun a ha => ?_
  cases hk : keep a with
  | true => simp
  | false => simp [hdrop a ha hk]

theorem pollState_filter {config : UniFiClientConfig} {cat : String} {state : CategoryState}
    {t : Instant} {keep : UniFiAlert → Bool} {alerts : List UniFiAlert}
    (hack : state.Acknowledged t)
    (ha : AllAware alerts) (hdrop : ∀ a ∈ alerts, keep a = false → a.receivedAt.instant ≤ t) :
    pollState config cat state (alerts.filter keep) = pollState config cat state alerts := by
  obtain ⟨⟨m, hm, hle⟩, w, hw, hwle⟩ := id hack
  have htrack : trackNewestSeen state (gated config cat (alerts.filter keep)) =
      trackNewestSeen state (gated config cat alerts) := by
    rw [trackNewestSeen_eq, trackNewestSeen_eq, hm, gated, gated, List.filter_comm,
      foldl_advance_filter]
    intro a hmem hk
    exact (hdrop a (List.mem_filter.mp hmem).1 hk).trans hle
  have hcounted := @counted_filter config cat keep state.lastClearedAt alerts
    fun a hmem hk => by
      rw [hw, Bool.eq_false_iff, ne_eq, newer_some]
      exact not_lt.mpr ((hdrop a hmem hk).trans hwle)
  rw [pollState_eq hack.aware (ha.filter _), pollState_eq hack.aware ha, htrack, hcounted]

theorem pollLoop_retain {config : UniFiClientConfig} {c : Category} {t : Instant}
    {keep : UniFiAlert → Bool} :
    ∀ {categorised : Categorised} {turn : Turn}, AllAware (categorised.flatMap Prod.snd) →
      (∀ a ∈ categorised.flatMap Prod.snd, keep a = false → a.receivedAt.instant ≤ t) →
      (turn.coord.states c).Acknowledged t →
      pollLoop config (retain categorised c keep) turn = pollLoop config categorised turn
  | [], _, _, _, _ => rfl
  | (cat, as) :: rest, turn, ha, hdrop, hack => by
      have hhead : AllAware as := fun a h => ha a (List.mem_append_left _ h)
      have hrest : AllAware (rest.flatMap Prod.snd) := fun a h => ha a (List.mem_append_right _ h)
      have hdropRest := fun a h => hdrop a (List.mem_append_right _ h)
      have ih := @pollLoop_retain config c t keep rest
      -- the entry, with or without the dropped alerts, polls its category alike
      have hentry : ∀ d, Category.ofName? cat = some d →
          pollState config cat (turn.coord.states d)
              (if cat = c.name then (cat, as.filter keep) else (cat, as)).2 =
            pollState config cat (turn.coord.states d) as := by
        intro d hd
        rw [Category.ofName?_eq_some] at hd
        split
        · rename_i hc
          obtain rfl := Category.name_injective (hd.trans hc)
          exact pollState_filter hack hhead fun a h => hdrop a (List.mem_append_left _ h)
        · rfl
      have hcat : (if cat = c.name then (cat, as.filter keep) else (cat, as)).1 = cat := by
        split <;> rfl
      rw [retain, List.map_cons, ← retain]
      generalize (if cat = c.name then (cat, as.filter keep) else (cat, as)) = entry at *
      obtain ⟨cat', as'⟩ := entry
      obtain rfl : cat' = cat := hcat
      unfold pollLoop
      split
      · exact ih hrest hdropRest hack
      · rename_i d hd
        dsimp only
        rw [hentry d hd]
        split
        · exact ih hrest hdropRest hack
        · split
          · rfl
          · refine ih hrest hdropRest ?_
            rw [setState_states]
            split
            · rename_i hcd
              rw [← hcd]
              exact Acknowledged.moves (.polled cat' (List.Subset.refl _)) hack
            · exact hack

/-- A poll applied to an acknowledged category acts as if the acknowledged
alerts were not in it. -/
theorem applyPoll_retain {config : UniFiClientConfig} {coord : Coordinator} {c : Category}
    {t : Instant} {keep : UniFiAlert → Bool} {categorised : Categorised}
    (ha : AllAware (categorised.flatMap Prod.snd))
    (hdrop : ∀ a ∈ categorised.flatMap Prod.snd, keep a = false → a.receivedAt.instant ≤ t)
    (hack : (coord.states c).Acknowledged t) :
    applyPoll config (retain categorised c keep) coord = applyPoll config categorised coord := by
  have hloop := @pollLoop_retain config c t keep categorised { coord } ha hdrop hack
  unfold applyPoll
  dsimp only
  rw [hloop]
  simp only [zeroise, retain_keys]

/-- The alert such a poll makes the active one is later than every
acknowledged time. -/
theorem applyPoll_lastAlert {config : UniFiClientConfig} {coord : Coordinator} {c : Category}
    {t : Instant} {categorised : Categorised} (ha : AllAware (categorised.flatMap Prod.snd))
    (hack : (coord.states c).Acknowledged t) :
    let state' := (applyPoll config categorised coord).coord.states c
    state'.lastAlert = (coord.states c).lastAlert ∨
      ∃ a, state'.lastAlert = some a ∧ t < a.receivedAt.instant := by
  have hrel := @applyPoll_rel config (categorised.flatMap Prod.snd)
    (fun st st' => st.Acknowledged t → st'.Acknowledged t ∧
      (st'.lastAlert = st.lastAlert ∨ ∃ a, st'.lastAlert = some a ∧ t < a.receivedAt.instant))
    (fun _ hst => ⟨hst, Or.inl rfl⟩)
    (fun hab hbc hst => by
      obtain ⟨hst₁, h₁⟩ := hab hst
      obtain ⟨hst₂, h₂⟩ := hbc hst₁
      refine ⟨hst₂, ?_⟩
      rcases h₂ with h₂ | h₂
      · rw [h₂]
        exact h₁
      · exact Or.inr h₂)
    ?_ (fun _ hst => ⟨hst, Or.inl rfl⟩) categorised (List.Subset.refl _) coord c
  · exact (hrel hack).2
  · intro cat st alerts hsub hst
    refine ⟨Acknowledged.moves (.polled cat hsub) hst, ?_⟩
    have hal : AllAware alerts := fun a h => ha a (hsub h)
    obtain ⟨-, w, hw, hle⟩ := id hst
    rw [pollState_eq hst.aware hal]
    rcases raiseFrom_aware (trackNewestSeen st (gated config cat alerts))
      ((hal.filter _).filter (newer st.lastClearedAt)) with ⟨-, h⟩ | ⟨-, m, hm, h⟩
    · rw [gated] at h ⊢
      rw [h, trackNewestSeen_eq]
      exact Or.inl rfl
    · rw [gated] at h ⊢
      rw [h]
      refine Or.inr ⟨m, rfl, ?_⟩
      have hnew := (List.mem_filter.mp hm).2
      rw [hw, newer_some] at hnew
      exact hle.trans_lt hnew

end Coordinator

/-! ## Every interleaving -/

/-- However polls, pushes and clears interleave, and however old the data of a
later poll is: an alert that its category observed before a clear of that
category is not counted by a poll applied after the clear, which acts as if the
alert were not in its data, and does not become the active alert. -/
theorem clear_acknowledges_everything_seen (config : UniFiClientConfig) (coord₀ : Coordinator)
    (hmarks : coord₀.AwareMarks) (pre mid post : List TimedOp) (observation clear : TimedOp)
    (categorised : Categorised)
    (haware : ∀ t ∈ pre ++ observation :: mid ++ clear :: post, t.op.Aware)
    (hpoll : (Op.poll categorised).Aware) (c : Category) (alert : UniFiAlert)
    (hobserved : Coordinator.Observes config (run (Coordinator.step config) coord₀ pre)
      observation c alert)
    (hclear : Coordinator.clears
      (run (Coordinator.step config) coord₀ (pre ++ observation :: mid)) c clear.op = true) :
    let coord := run (Coordinator.step config) coord₀ (pre ++ observation :: mid ++ clear :: post)
    let turn := Coordinator.applyPoll config categorised coord
    turn = Coordinator.applyPoll config
      (Coordinator.retain categorised c fun a => a.receivedAt != alert.receivedAt) coord ∧
    turn.raised = none ∧
    ((turn.coord.states c).lastAlert = (coord.states c).lastAlert ∨
      ∃ a, (turn.coord.states c).lastAlert = some a ∧ a.receivedAt ≠ alert.receivedAt) := by
  intro coord turn
  have hobs : observation.op.Aware := haware observation (by simp)
  -- seen from the observation on
  have hseen : ((run (Coordinator.step config) coord₀ (pre ++ observation :: mid)).states c).Seen
      alert.receivedAt.instant := by
    rw [run_append, run_cons]
    refine Coordinator.seen_run config ?_ mid
    exact Coordinator.seen_of_observes (hmarks.run config pre) hobs hobserved
  -- acknowledged from the clear on
  have hack : (coord.states c).Acknowledged alert.receivedAt.instant := by
    show ((run (Coordinator.step config) coord₀ _).states c).Acknowledged _
    rw [run_append, run_cons]
    exact Coordinator.acknowledged_run config
      ((Coordinator.seen_step config hseen clear).2 hclear) post
  refine ⟨(Coordinator.applyPoll_retain hpoll (fun a _ hk => ?_) hack).symm,
    Coordinator.applyPoll_raised (hmarks.run config _) hpoll, ?_⟩
  · have heq : a.receivedAt = alert.receivedAt := by simpa using hk
    rw [heq]
  · refine (Coordinator.applyPoll_lastAlert hpoll hack).imp id ?_
    rintro ⟨a, ha, hlt⟩
    exact ⟨a, ha, fun heq => absurd hlt (by rw [heq]; exact lt_irrefl _)⟩

/-- A poll fetched before the clear still has the pushed alert; applied after
it, the poll leaves the category quiet. -/
theorem clear_acknowledges_everything_seen_stale_poll :
    let alert : UniFiAlert :=
      { category := "power", message := "PoE lost", receivedAt := .aware 100, key := "EVT_SW_PoE" }
    let stale : Categorised := [("power", [alert])]
    let coord := run (Coordinator.step {}) (.fresh {})
      [⟨⟨100, 0⟩, .push "power" alert⟩, ⟨⟨200, 1⟩, .clearCategory "power"⟩]
    Coordinator.applyPoll {} stale coord = Coordinator.applyPoll {} [("power", [])] coord ∧
      (Coordinator.applyPoll {} stale coord).raised = none := by
  intro alert stale coord
  have haware : ∀ op : Op, op.alerts ⊆ [alert] → op.Aware := fun op hsub a ha => by
    obtain rfl := List.mem_singleton.mp (hsub ha)
    rfl
  have h := clear_acknowledges_everything_seen {} (.fresh {}) (Coordinator.awareMarks_fresh {})
    [] [] [] ⟨⟨100, 0⟩, .push "power" alert⟩ ⟨⟨200, 1⟩, .clearCategory "power"⟩ stale
    (fun t ht => by
      rcases List.mem_cons.mp ht with rfl | ht
      · exact haware _ (by simp [Op.alerts])
      · obtain rfl := List.mem_singleton.mp ht
        exact haware _ (by simp [Op.alerts]))
    (haware _ (by simp [Op.alerts, stale])) .power alert ⟨rfl, by decide +kernel⟩ (by decide)
  have hretain : Coordinator.retain stale .power (fun a => a.receivedAt != alert.receivedAt) =
      [("power", [])] := by
    simp [Coordinator.retain, stale, Category.name]
  exact ⟨by rw [← hretain]; exact h.1, h.2.1⟩

end UnifiAlerts
