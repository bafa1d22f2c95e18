import UnifiAlerts.Lib.Paired
import UnifiAlerts.Polling

/-!
# Shifted timelines

Two runs of one coordinator, the second with every controller timestamp
`delta` later. `StateAlike` relates the two states of one category: what
is shown agrees, and the watermark and the newest alarm seen are `delta`
apart. Every comparison a poll makes is between two times of the
controller, so a poll of alerts that are themselves `delta` apart keeps
the relation (`applyPoll_alike`), and so does a clear of a category that
has seen an alarm (`StateAlike.clear`).

The relation is a frame as well: the alert counts, the flags and the
keys agree exactly, so that whatever an entity shows agrees. A clear
without an alarm seen takes the clock of the host, which is the same in
both runs, so there the watermarks are not `delta` apart; this is why
`StateAlike.clear` asks that one has been seen, and where the sound
states of `ClockSkew` come in.
-/

namespace UnifiAlerts

open Py Lib List

/-! ## Two alerts, two states -/

/-- The second alert is the first, `delta` later. -/
def Later (delta : Int) (a a' : UniFiAlert) : Prop := a'.receivedAt = a.receivedAt.add delta

/-- The same severity, and `delta` apart when the severity passes the gate; an alert that
does not pass is compared with nothing. -/
def AlertAlike (config : UniFiClientConfig) (delta : Int) (cat : String) (a a' : UniFiAlert) :
    Prop :=
  a'.severity = a.severity ∧ (severityGate config cat a.severity = true → Later delta a a')

/-- The states of one category in the two runs: what is shown agrees, and the two times
that polls compare with are `delta` apart. -/
structure StateAlike (delta : Int) (st st' : CategoryState) : Prop where
  enabled : st'.enabled = st.enabled
  isAlerting : st'.isAlerting = st.isAlerting
  openCount : st'.openCount = st.openCount
  lastClearedAt : st'.lastClearedAt = st.lastClearedAt.map (·.add delta)
  lastAlarmReceivedAt : st'.lastAlarmReceivedAt = st.lastAlarmReceivedAt.map (· + delta)

variable {config : UniFiClientConfig} {delta : Int}

theorem gated_alike {cat : String} {as as' : List UniFiAlert}
    (h : Forall₂ (AlertAlike config delta cat) as as') :
    Forall₂ (Later delta) (Coordinator.gated config cat as) (Coordinator.gated config cat as') := by
  induction h with
  | nil => exact .nil
  | cons ha _ ih =>
      simp only [Coordinator.gated, List.filter_cons, ha.1] at ih ⊢
      split
      · rename_i hpass
        exact .cons (ha.2 hpass) ih
      · exact ih

/-! ## Comparisons within one timeline -/

theorem advance_alike (last : Option Instant) (t : Instant) :
    CategoryState.advance (last.map (· + delta)) (t + delta) =
      (CategoryState.advance last t).map (· + delta) := by
  cases last with
  | none => rfl
  | some l => simp [max_add_add_right]

theorem foldl_advance_alike {as as' : List UniFiAlert} (h : Forall₂ (Later delta) as as') :
    ∀ last : Option Instant,
      as'.foldl (fun last a => CategoryState.advance last a.receivedAt.instant)
          (last.map (· + delta)) =
        (as.foldl (fun last a => CategoryState.advance last a.receivedAt.instant) last).map
          (· + delta) := by
  induction h with
  | nil => exact fun _ => rfl
  | cons ha _ ih =>
      intro last
      rw [List.foldl_cons, List.foldl_cons, ha, DateTime.instant_add, advance_alike, ih]

/-- Both comparisons of a time with another one of its own timeline end alike. -/
theorem gt_alike {a a' : UniFiAlert} (ha : Later delta a a') (d : DateTime) :
    Paired Eq (a.receivedAt.gt d) (a'.receivedAt.gt (d.add delta)) := by
  rw [ha, DateTime.gt_add]
  exact .rfl_eq _

theorem counted_alike {as as' : List UniFiAlert} (h : Forall₂ (Later delta) as as')
    (watermark : Option DateTime) :
    Paired (Forall₂ (Later delta)) (Coordinator.counted watermark as)
      (Coordinator.counted (watermark.map (·.add delta)) as') := by
  induction h with
  | nil => exact .nil
  | @cons a a' as as' ha _ ih =>
      -- what is done with the outcome of the comparison
      have hkeep : ∀ newer newer' : Bool, newer = newer' → Paired (Forall₂ (Later delta))
          (Coordinator.counted watermark as >>= fun rest =>
            pure (if newer then a :: rest else rest))
          (Coordinator.counted (watermark.map (·.add delta)) as' >>= fun rest =>
            pure (if newer' then a' :: rest else rest)) := by
        rintro newer _ rfl
        refine Paired.bind ih fun rest rest' hrest => ?_
        cases newer with
        | true => exact .cons ha hrest
        | false => exact hrest
      unfold Coordinator.counted
      cases watermark with
      | none => exact Paired.bind (Paired.rfl_eq (pure true)) hkeep
      | some w => exact Paired.bind (gt_alike ha w) hkeep

theorem maxBy_alike {as as' : List UniFiAlert} (h : Forall₂ (Later delta) as as') :
    ∀ {best best' : UniFiAlert}, Later delta best best' →
      Paired (Later delta) (maxBy (fun a : UniFiAlert => a.receivedAt) best as)
        (maxBy (fun a : UniFiAlert => a.receivedAt) best' as') := by
  induction h with
  | nil => exact fun hbest => hbest
  | cons ha _ ih =>
      intro best best' hbest
      unfold maxBy
      rw [hbest]
      refine Paired.bind (gt_alike ha best.receivedAt) fun later later' hlater => ?_
      subst hlater
      cases later with
      | true => exact ih ha
      | false => exact ih hbest

/-! ## One category's poll -/

namespace StateAlike

variable {st st' : CategoryState}

theorem track (h : StateAlike delta st st') {as as' : List UniFiAlert}
    (ha : Forall₂ (Later delta) as as') :
    StateAlike delta (Coordinator.trackNewestSeen st as) (Coordinator.trackNewestSeen st' as') := by
  rw [Coordinator.trackNewestSeen_eq, Coordinator.trackNewestSeen_eq]
  refine ⟨h.enabled, h.isAlerting, h.openCount, h.lastClearedAt, ?_⟩
  dsimp only
  rw [h.lastAlarmReceivedAt, foldl_advance_alike ha]

theorem raise (h : StateAlike delta st st') {as as' : List UniFiAlert}
    (ha : Forall₂ (Later delta) as as') :
    StateAlike delta (Coordinator.raiseFrom st as).1 (Coordinator.raiseFrom st' as').1 ∧
      (Coordinator.raiseFrom st' as').2.2 = (Coordinator.raiseFrom st as).2.2 := by
  unfold Coordinator.raiseFrom
  dsimp only
  cases ha with
  | nil => exact ⟨⟨h.enabled, h.isAlerting, rfl, h.lastClearedAt, h.lastAlarmReceivedAt⟩, rfl⟩
  | @cons a a' as as' hhead htail =>
      have hcount : (a' :: as').length = (a :: as).length := by simp [htail.length_eq]
      dsimp only
      rw [h.isAlerting]
      split
      · exact ⟨⟨h.enabled, rfl, hcount, h.lastClearedAt, h.lastAlarmReceivedAt⟩, rfl⟩
      · rcases (maxBy_alike htail hhead).cases with ⟨e, hm, hm'⟩ | ⟨m, m', hm, hm', -⟩
        · rw [hm, hm']
          exact ⟨⟨h.enabled, rfl, hcount, h.lastClearedAt, h.lastAlarmReceivedAt⟩, rfl⟩
        · rw [hm, hm']
          exact ⟨⟨h.enabled, rfl, hcount, h.lastClearedAt, h.lastAlarmReceivedAt⟩, rfl⟩

theorem poll (h : StateAlike delta st st') {cat : String} {as as' : List UniFiAlert}
    (ha : Forall₂ (AlertAlike config delta cat) as as') :
    StateAlike delta (Coordinator.pollState config cat st as).1
        (Coordinator.pollState config cat st' as').1 ∧
      (Coordinator.pollState config cat st' as').2.2 =
        (Coordinator.pollState config cat st as).2.2 := by
  have hgated := gated_alike ha
  have htrack := h.track hgated
  rw [Coordinator.pollState_run, Coordinator.pollState_run, h.lastClearedAt]
  rcases (counted_alike hgated st.lastClearedAt).cases with ⟨e, hc, hc'⟩ | ⟨cs, cs', hc, hc', hcs⟩
  · rw [hc, hc']
    exact ⟨htrack, rfl⟩
  · rw [hc, hc']
    exact htrack.raise hcs

theorem zero (h : StateAlike delta st st') :
    StateAlike delta { st with openCount := 0 } { st' with openCount := 0 } :=
  ⟨h.enabled, h.isAlerting, rfl, h.lastClearedAt, h.lastAlarmReceivedAt⟩

/-- A clear takes the newest alarm seen, which is on the controller's timeline. -/
theorem clear (h : StateAlike delta st st') (now : Instant)
    (hseen : st.lastAlarmReceivedAt ≠ none) :
    StateAlike delta (st.clear now) (st'.clear now) := by
  obtain ⟨newest, hnewest⟩ := Option.ne_none_iff_exists'.mp hseen
  refine ⟨h.enabled, rfl, h.openCount, ?_, h.lastAlarmReceivedAt⟩
  simp [CategoryState.clear, h.lastAlarmReceivedAt, hnewest, DateTime.add]

end StateAlike

/-! ## The whole poll -/

/-- The two polled entries have the same key and, for an enabled category, alerts alike. -/
def EntryAlike (config : UniFiClientConfig) (delta : Int)
    (entry entry' : String × List UniFiAlert) : Prop :=
  entry'.1 = entry.1 ∧ ∀ c : Category, entry.1 = c.name → config.enabled c = true →
    Forall₂ (AlertAlike config delta c.name) entry.2 entry'.2

namespace Coordinator

/-- The categories of the two coordinators are alike, and enabled as configured. -/
structure Alike (config : UniFiClientConfig) (delta : Int) (coord coord' : Coordinator) : Prop where
  enabled : ∀ c, (coord.states c).enabled = config.enabled c
  state : ∀ c, StateAlike delta (coord.states c) (coord'.states c)

theorem alike_fresh (config : UniFiClientConfig) (delta : Int) :
    Alike config delta (.fresh config) (.fresh config) :=
  ⟨fun _ => rfl, fun _ => ⟨rfl, rfl, rfl, rfl, rfl⟩⟩

theorem Alike.setState {coord coord' : Coordinator} (h : Alike config delta coord coord')
    {d : Category} {st st' : CategoryState} (henabled : st.enabled = config.enabled d)
    (hst : StateAlike delta st st') :
    Alike config delta (coord.setState d st) (coord'.setState d st') := by
  refine ⟨fun c => ?_, fun c => ?_⟩
  · rw [setState_states]
    split
    · rename_i hcd
      rw [hcd]
      exact henabled
    · exact h.enabled c
  · rw [setState_states, setState_states]
    split
    · exact hst
    · exact h.state c

theorem pollLoop_alike {categorised categorised' : Categorised}
    (h : Forall₂ (EntryAlike config delta) categorised categorised') :
    ∀ {turn turn' : Turn}, Alike config delta turn.coord turn'.coord →
      turn'.raised = turn.raised →
      Alike config delta (pollLoop config categorised turn).coord
          (pollLoop config categorised' turn').coord ∧
        (pollLoop config categorised' turn').raised =
          (pollLoop config categorised turn).raised := by
  induction h with
  | nil => exact fun hcoord hraised => ⟨hcoord, hraised⟩
  | @cons entry entry' rest rest' hentry _ ih =>
      intro turn turn' hcoord hraised
      obtain ⟨cat, as⟩ := entry
      obtain ⟨cat', as'⟩ := entry'
      obtain ⟨rfl, halerts⟩ := hentry
      unfold pollLoop
      dsimp only
      cases hd : Category.ofName? cat' with
      | none => exact ih hcoord hraised
      | some d =>
          dsimp only
          have hname := Category.ofName?_eq_some.mp hd
          rw [(hcoord.state d).enabled]
          cases hen : (turn.coord.states d).enabled with
          | false => exact ih hcoord hraised
          | true =>
              have hcat : Forall₂ (AlertAlike config delta cat') as as' := by
                rw [← hname]
                exact halerts d hname.symm (by rw [← hcoord.enabled, hen])
              obtain ⟨hst, heq⟩ := (hcoord.state d).poll hcat
              have hset := hcoord.setState (d := d)
                (by rw [(pollState_frame config _ _ as).2.1, hcoord.enabled]) hst
              simp only [Bool.not_true, Bool.false_eq_true, if_false]
              rw [heq]
              cases (pollState config cat' (turn.coord.states d) as).2.2 with
              | none => exact ih hset hraised
              | some e => exact ⟨hset, rfl⟩

theorem applyPoll_alike {categorised categorised' : Categorised}
    (h : Forall₂ (EntryAlike config delta) categorised categorised') {coord coord' : Coordinator}
    (hcoord : Alike config delta coord coord') :
    Alike config delta (applyPoll config categorised coord).coord
      (applyPoll config categorised' coord').coord := by
  have hkeys : categorised'.map Prod.fst = categorised.map Prod.fst := by
    induction h with
    | nil => rfl
    | cons hentry _ ih => rw [List.map_cons, List.map_cons, hentry.1, ih]
  obtain ⟨hloop, hraised⟩ :=
    @pollLoop_alike config delta _ _ h { coord } { coord := coord' } hcoord rfl
  unfold applyPoll
  dsimp only
  rw [hraised]
  split
  · exact hloop
  · refine ⟨fun c => ?_, fun c => ?_⟩
    · simp only [zeroise]
      split <;> exact hloop.enabled c
    · simp only [zeroise, hkeys]
      have hst := hloop.state c
      by_cases hif : (((pollLoop config categorised { coord }).coord.states c).enabled &&
          !(categorised.map Prod.fst).contains c.name) = true
      · rw [if_pos hif, if_pos (by rw [hst.enabled]; exact hif)]
        exact hst.zero
      · rw [if_neg hif, if_neg (by rw [hst.enabled]; exact hif)]
        exact hst

end Coordinator

end UnifiAlerts
