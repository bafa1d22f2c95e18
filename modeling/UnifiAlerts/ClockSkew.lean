import UnifiAlerts.ShiftedFetch

/-!
# Clock skew

Two coordinators with one configuration take the same polls, clears and
auto-clears at the same readings of the host clock, from two controllers
whose clocks are `delta` apart. What each category shows stays the same
in both as long as every poll is `Steady`: its eligible records carry a
timestamp that can be read, and on the v2 path no unsettled event lies
in one run's request window only. The window is where the host clock
comes in: its end is the host's present and its floor a day before it,
while the events are stamped by the controller.

The two runs are related step by step (`Twins`): the same operations,
and polls whose answers are equal but for the times (`Shifted`).
`SkewInvariant` says what holds of the two coordinators in between, and
`Twins.step` that a steady poll keeps it. What a poll fetches is
compared in `ShiftedFetch` and what it does to the categories in
`Shift`; here the two meet. A clear takes its watermark from an alarm
that was seen wherever the category alerts, so in a sound state it moves
both runs alike.
-/

namespace UnifiAlerts

open Py Lib List

variable {config : UniFiClientConfig} {delta : Int}

/-! ## What holds of one run -/

namespace CategoryState

/-- The watermark is an alarm time seen, and so is what the category alerts for. -/
structure Sound (state : CategoryState) : Prop where
  anchored : state.Anchored
  alarm : state.isAlerting = true → state.lastAlarmReceivedAt ≠ none

theorem Seen.ne_none {state : CategoryState} {t : Instant} (h : state.Seen t) :
    state.lastAlarmReceivedAt ≠ none := by
  obtain ⟨m, hm, -⟩ := h
  rw [hm]
  simp

theorem seen_of_ne_none {state : CategoryState} (h : state.lastAlarmReceivedAt ≠ none) :
    ∃ t, state.Seen t := by
  obtain ⟨m, hm⟩ := Option.ne_none_iff_exists'.mp h
  exact ⟨m, m, hm, le_rfl⟩

theorem Sound.clear {state : CategoryState} (hseen : state.lastAlarmReceivedAt ≠ none)
    (now : Instant) : (state.clear now).Sound := by
  obtain ⟨m, hm⟩ := Option.ne_none_iff_exists'.mp hseen
  refine ⟨fun w hw => ?_, fun h => by cases h⟩
  have hw' : w = .aware m := by simpa [CategoryState.clear, hm, eq_comm] using hw
  rw [hw']
  exact Seen.clear ⟨m, hm, le_rfl⟩ now

end CategoryState

namespace Coordinator

/-- A category that a poll raises has an alarm in that poll. -/
theorem pollState_alarm {cat : String} {state : CategoryState} {alerts : List UniFiAlert}
    (h : (pollState config cat state alerts).1.isAlerting = true) :
    state.isAlerting = true ∨ ∃ a, a ∈ gated config cat alerts := by
  rw [pollState_run] at h
  have htrack : (trackNewestSeen state (gated config cat alerts)).isAlerting =
      state.isAlerting := by
    rw [trackNewestSeen_eq]
  cases hgated : gated config cat alerts with
  | cons a as => exact Or.inr ⟨a, by simp⟩
  | nil =>
      rw [hgated] at h htrack
      exact Or.inl (htrack.symm.trans h)

theorem Sound.moves {as : List UniFiAlert} {state state' : CategoryState}
    (hm : Moves config as state state') (h : state.Sound) : state'.Sound := by
  refine ⟨fun w hw => ?_, ?_⟩
  · rw [hm.lastClearedAt] at hw
    exact Acknowledged.moves hm (h.anchored w hw)
  · have hkept : ∀ {st st' : CategoryState}, Moves config as st st' →
        st.lastAlarmReceivedAt ≠ none → st'.lastAlarmReceivedAt ≠ none := fun hm hst => by
      obtain ⟨t, ht⟩ := CategoryState.seen_of_ne_none hst
      exact (Seen.moves hm ht).ne_none
    have halarm := h.alarm
    clear h
    induction hm with
    | refl _ => exact halarm
    | filtered _ => exact halarm
    | @accepted st alert ha n => exact fun _ => (CategoryState.seen_acceptPush st alert).ne_none
    | @polled st alerts cat ha =>
        intro halerting
        rcases pollState_alarm halerting with hal | ⟨a, ha'⟩
        · exact hkept (.polled cat ha) (halarm hal)
        · rw [pollState_lastAlarmReceivedAt]
          exact (CategoryState.seen_track ha').ne_none
    | zeroed _ => exact halarm
    | trans h₁ h₂ ih₁ ih₂ => exact ih₂ (ih₁ halarm)

end Coordinator

theorem StateAlike.anchored {st st' : CategoryState} (h : StateAlike delta st st')
    (hst : st.Anchored) : st'.Anchored := by
  intro w' hw'
  rw [h.lastClearedAt] at hw'
  obtain ⟨w, hw, rfl⟩ := Option.map_eq_some_iff.mp hw'
  obtain ⟨⟨m, hm, hle⟩, u, hu, hwu⟩ := hst w hw
  refine ⟨⟨m + delta, by rw [h.lastAlarmReceivedAt, hm]; rfl, ?_⟩, u + delta,
    by rw [h.lastClearedAt, hu]; rfl, ?_⟩
  · simpa using hle
  · simpa using hwu

/-! ## One poll in both runs -/

namespace Coordinator

/-- `_async_update_data`; an error of the fetch leaves the categories alone. -/
def asyncUpdateData (config : UniFiClientConfig) (net : Net) (coord : Coordinator) : Coordinator :=
  match fetchCategorised net config.effectiveSite coord with
  | (.ok categorised, coord) => (applyPoll config categorised coord).coord
  | (.error _, coord) => coord

theorem asyncUpdateData_ok {net : Net} {coord : Coordinator} {categorised : Categorised}
    (h : (fetchCategorised net config.effectiveSite coord).1 = .ok categorised) :
    ∃ coord', coord'.states = coord.states ∧
      asyncUpdateData config net coord = (applyPoll config categorised coord').coord := by
  have hstates := fetch_states net config.effectiveSite coord
  unfold asyncUpdateData
  rcases hfetch : fetchCategorised net config.effectiveSite coord with ⟨r, coord'⟩
  rw [hfetch] at h hstates
  obtain rfl : r = _ := h
  exact ⟨coord', hstates, rfl⟩

theorem asyncUpdateData_error {net : Net} {coord : Coordinator} {e : Error}
    (h : (fetchCategorised net config.effectiveSite coord).1 = .error e) :
    (asyncUpdateData config net coord).states = coord.states := by
  have hstates := fetch_states net config.effectiveSite coord
  unfold asyncUpdateData
  rcases hfetch : fetchCategorised net config.effectiveSite coord with ⟨r, coord'⟩
  rw [hfetch] at h hstates
  obtain rfl : r = _ := h
  exact hstates

theorem asyncUpdateData_sound {coord : Coordinator} (h : ∀ c, (coord.states c).Sound)
    (net : Net) (c : Category) : ((asyncUpdateData config net coord).states c).Sound := by
  cases hfetch : (fetchCategorised net config.effectiveSite coord).1 with
  | error e =>
      rw [asyncUpdateData_error hfetch]
      exact h c
  | ok categorised =>
      obtain ⟨coord', hstates, heq⟩ := asyncUpdateData_ok hfetch
      rw [heq]
      refine Sound.moves (applyPoll_moves config categorised coord' c) ?_
      rw [hstates]
      exact h c

theorem Alike.congr {coord coord' coord₁ coord₁' : Coordinator}
    (h : Alike config delta coord coord') (heq : coord₁.states = coord.states)
    (heq' : coord₁'.states = coord'.states) : Alike config delta coord₁ coord₁' :=
  ⟨fun c => by rw [heq]; exact h.enabled c, fun c => by rw [heq, heq']; exact h.state c⟩

/-- The two polls fetch the same data but for the timestamps: both raise, both have
legacy records, or both read a system log. -/
def PollShifted (config : UniFiClientConfig) (delta : Int) (net net' : Net)
    (log : List (JsonObj × JsonObj)) (coord coord' : Coordinator) : Prop :=
  (∃ e e', (fetchCategorised net config.effectiveSite coord).1 = .error e ∧
    (fetchCategorised net' config.effectiveSite coord').1 = .error e') ∨
  (∃ records records', source net config.effectiveSite coord = .alarms records ∧
    source net' config.effectiveSite coord' = .alarms records' ∧
    Forall₂ (RecordShifted net.text delta) records records') ∨
  (source net config.effectiveSite coord = .systemLog ∧
    source net' config.effectiveSite coord' = .systemLog ∧
    LogShifted delta net net' coord coord' log)

/-- No clock but the controller's decides what the poll counts: eligible records are
dated, and the two request windows differ in settled events only. -/
structure Steady (config : UniFiClientConfig) (net net' : Net) (log : List (JsonObj × JsonObj))
    (coord coord' : Coordinator) : Prop where
  records : ∀ records records', source net config.effectiveSite coord = .alarms records →
    source net' config.effectiveSite coord' = .alarms records' →
    Forall₂ (fun record record' => EligibleRecord config net.text net.now record →
      Dated net.text record ∧ Dated net.text record') records records'
  events : source net config.effectiveSite coord = .systemLog →
    ∀ entry ∈ log, isNew entry.1 = true → WindowsAlike config net net' coord coord' entry.1 entry.2

theorem asyncUpdateData_alike {net : Net} {respond : Nat → Request → HttpResult}
    {log : List (JsonObj × JsonObj)} {coord coord' : Coordinator}
    (hcoord : Alike config delta coord coord') (hanchored : ∀ c, (coord.states c).Anchored)
    (hshift : PollShifted config delta net { net with respond } log coord coord')
    (hsteady : Steady config net { net with respond } log coord coord') :
    Alike config delta (asyncUpdateData config net coord)
      (asyncUpdateData config { net with respond } coord') := by
  have hanchored' : ∀ c, (coord'.states c).Anchored := fun c =>
    (hcoord.state c).anchored (hanchored c)
  -- a pair of failed fetches changes nothing
  have hfail : ∀ {e e'}, (fetchCategorised net config.effectiveSite coord).1 = .error e →
      (fetchCategorised { net with respond } config.effectiveSite coord').1 = .error e' →
      Alike config delta (asyncUpdateData config net coord)
        (asyncUpdateData config { net with respond } coord') := fun h h' =>
    hcoord.congr (asyncUpdateData_error h) (asyncUpdateData_error h')
  rcases hshift with ⟨e, e', h, h'⟩ | ⟨records, records', hsource, hsource', hrecords⟩ |
    ⟨hsource, hsource', hlog⟩
  · exact hfail h h'
  · -- the legacy path
    have hdated := hsteady.records records records' hsource hsource'
    obtain ⟨s, hfetch⟩ := fetchCategorised_alarms hsource
    obtain ⟨s', hfetch'⟩ := fetchCategorised_alarms hsource'
    have hboth := hrecords.mp (fun _ _ h₁ h₂ => And.intro h₁ h₂) hdated
    have hloop := @categoriseLoop_alike config delta net respond records records' hboth
      [] [] s s' .nil
    rw [← hfetch, ← hfetch'] at hloop
    rcases hloop.cases with ⟨e, h, h'⟩ | ⟨categorised, categorised', h, h', hentries⟩
    · exact hfail h h'
    · obtain ⟨coord₁, hstates, heq⟩ := asyncUpdateData_ok h
      obtain ⟨coord₁', hstates', heq'⟩ := asyncUpdateData_ok h'
      rw [heq, heq']
      exact applyPoll_alike hentries (hcoord.congr hstates hstates')
  · -- the v2 path
    have hmarks : AwareMarks coord := fun c => (hanchored c).awareMark
    have hmarks' : AwareMarks coord' := fun c => (hanchored' c).awareMark
    obtain ⟨coord₂, hstates₂, hfetch⟩ := fetchCategorised_systemLog hsource
    obtain ⟨coord₂', hstates₂', hfetch'⟩ := fetchCategorised_systemLog hsource'
    rw [fetchV2_congr hstates₂ hmarks hlog.serves hlog.fits] at hfetch
    rw [fetchV2_congr hstates₂' hmarks' hlog.serves' hlog.fits'] at hfetch'
    rcases @fetchV2_alike config delta net { net with respond } config.effectiveSite
      coord coord' log
        rfl rfl hcoord hmarks hmarks' hlog (hsteady.events hsource) with
      ⟨e, e', h, h'⟩ | ⟨alerts, alerts', h, h', halerts⟩
    · exact hfail (hfetch.trans h) (hfetch'.trans h')
    · obtain ⟨coord₁, hstates, heq⟩ := asyncUpdateData_ok (hfetch.trans h)
      obtain ⟨coord₁', hstates', heq'⟩ := asyncUpdateData_ok (hfetch'.trans h')
      rw [heq, heq']
      exact (halerts.congr hstates hstates').apply (hcoord.congr hstates hstates')
        (fun c => by rw [hstates]; exact hanchored c)
        (fun c => by rw [hstates']; exact hanchored' c)

end Coordinator

/-! ## The two runs -/

/-- One step of both runs: a poll of each of the two controllers, with their system
logs entry by entry, or an operation that carries no alarm. -/
inductive SkewOp
  | poll (net : Net) (respond : Nat → Request → HttpResult) (log : List (JsonObj × JsonObj))
  | op (t : TimedOp)

namespace SkewOp

def step (config : UniFiClientConfig) (p : Coordinator × Coordinator) :
    SkewOp → Coordinator × Coordinator
  | .poll net respond _ =>
    (p.1.asyncUpdateData config net, p.2.asyncUpdateData config { net with respond })
  | .op t => (Coordinator.step config p.1 t, Coordinator.step config p.2 t)

/-- The second run differs in the controller's timestamps only, there is no webhook,
and a clear finds that each category it clears has seen an eligible alarm. -/
def Shifted (config : UniFiClientConfig) (delta : Int) (p : Coordinator × Coordinator) :
    SkewOp → Prop
  | .poll net respond log =>
    Coordinator.PollShifted config delta net { net with respond } log p.1 p.2
  | .op ⟨_, .clearCategory category⟩ => ∀ c, Category.ofName? category = some c →
    (p.1.states c).lastAlarmReceivedAt ≠ none
  | .op ⟨_, .clearAll⟩ => ∀ c, config.enabled c = true → (p.1.states c).lastAlarmReceivedAt ≠ none
  | .op ⟨_, .autoClear _⟩ => True
  | .op _ => False

def Steady (config : UniFiClientConfig) (p : Coordinator × Coordinator) : SkewOp → Prop
  | .poll net respond log => Coordinator.Steady config net { net with respond } log p.1 p.2
  | .op _ => True

end SkewOp

/-- The two runs show the same, and the first is sound. The second is then sound as well,
its times being those of the first moved by `delta`. -/
structure Twins (config : UniFiClientConfig) (delta : Int) (p : Coordinator × Coordinator) :
    Prop where
  alike : Coordinator.Alike config delta p.1 p.2
  sound : ∀ c, (p.1.states c).Sound

namespace Twins

variable {p : Coordinator × Coordinator}

theorem fresh (config : UniFiClientConfig) (delta : Int) :
    Twins config delta (.fresh config, .fresh config) :=
  ⟨Coordinator.alike_fresh config delta, fun _ => ⟨fun _ h => (by cases h), fun h => (by cases h)⟩⟩

/-- An operation that clears the same categories of both, each with an alarm seen. -/
theorem clears (h : Twins config delta p) {t : TimedOp}
    (hstep : ∀ coord c, (Coordinator.step config coord t).states c =
      if Coordinator.clears coord c t.op then (coord.states c).clear t.now.wall
      else coord.states c)
    (hsame : ∀ c, Coordinator.clears p.2 c t.op = Coordinator.clears p.1 c t.op)
    (hseen : ∀ c, Coordinator.clears p.1 c t.op = true →
      (p.1.states c).lastAlarmReceivedAt ≠ none) :
    Twins config delta (SkewOp.step config p (.op t)) := by
  refine ⟨⟨fun c => ?_, fun c => ?_⟩, fun c => ?_⟩
  · show ((Coordinator.step config p.1 t).states c).enabled = _
    rw [Coordinator.step_enabled]
    exact h.alike.enabled c
  · simp only [SkewOp.step, hstep, hsame]
    split
    · rename_i hc
      exact (h.alike.state c).clear _ (hseen c hc)
    · exact h.alike.state c
  · simp only [SkewOp.step, hstep]
    split
    · rename_i hc
      exact CategoryState.Sound.clear (hseen c hc) _
    · exact h.sound c

theorem step (h : Twins config delta p) (l : SkewOp) (hshift : l.Shifted config delta p)
    (hsteady : l.Steady config p) : Twins config delta (l.step config p) := by
  cases l with
  | poll net respond log =>
      exact ⟨Coordinator.asyncUpdateData_alike h.alike (fun c => (h.sound c).anchored)
        hshift hsteady,
        Coordinator.asyncUpdateData_sound h.sound net⟩
  | op t =>
      obtain ⟨now, op⟩ := t
      cases op with
      | clearCategory category =>
          refine h.clears (fun coord c => ?_) (fun c => rfl) fun c hc => ?_
          · simp only [Coordinator.step, Coordinator.turn, Coordinator.clearCategory,
              Coordinator.clears, beq_iff_eq]
            cases Category.ofName? category with
            | none => simp
            | some d =>
                simp only [Coordinator.setState_states, Option.some.injEq, eq_comm (a := c)]
                split
                · rename_i hdc
                  rw [hdc]
                · rfl
          · exact hshift c (by simpa [Coordinator.clears] using hc)
      | clearAll =>
          refine h.clears (fun coord c => rfl) (fun c => (h.alike.state c).enabled) fun c hc => ?_
          exact hshift c ((h.alike.enabled c).symm.trans hc)
      | autoClear d =>
          refine h.clears (fun coord c => ?_) (fun c => ?_) fun c hc => ?_
          · simp only [Coordinator.step, Coordinator.turn, Coordinator.autoClear,
              Coordinator.clears, Bool.and_eq_true, beq_iff_eq]
            by_cases hdc : d = c
            · subst hdc
              split <;> simp_all
            · split <;> simp [hdc, Ne.symm hdc]
          · simp only [Coordinator.clears, (h.alike.state c).isAlerting]
          · simp only [Coordinator.clears, Bool.and_eq_true] at hc
            exact (h.sound c).alarm hc.2
      | _ => exact hshift.elim

end Twins

/-! ## Every run -/

/-- After every step of the run, every category has one open count in both runs, and
alerts in both or in neither. -/
def SkewInvariant (config : UniFiClientConfig) (ls : List SkewOp) : Prop :=
  ∀ pre, pre <+: ls → ∀ c,
    let p := run (SkewOp.step config) (.fresh config, .fresh config) pre
    (p.2.states c).openCount = (p.1.states c).openCount ∧
      (p.2.states c).isAlerting = (p.1.states c).isAlerting

/-- Whatever the skew and however long the runs, steady polls keep both the same: no
category counts, raises or acknowledges in one run what it does not in the other. -/
theorem clock_skew_invariant (config : UniFiClientConfig) (delta : Int) (ls : List SkewOp)
    (hshift : Along (SkewOp.step config) (fun p l => l.Shifted config delta p)
      (.fresh config, .fresh config) ls)
    (hsteady : Along (SkewOp.step config) (fun p l => l.Steady config p)
      (.fresh config, .fresh config) ls) :
    SkewInvariant config ls := by
  intro pre hpre c
  obtain ⟨post, rfl⟩ := hpre
  rw [Along.append] at hshift hsteady
  have htwins : Twins config delta
      (run (SkewOp.step config) (.fresh config, .fresh config) pre) :=
    run_preserves_along (C := fun p l => l.Shifted config delta p ∧ l.Steady config p)
      (fun p l hp hl => hp.step l hl.1 hl.2) (.fresh config delta)
      (hshift.1.and hsteady.1)
  exact ⟨(htwins.alike.state c).openCount, (htwins.alike.state c).isAlerting⟩

/-! ## A controller a quarter of an hour ahead -/

theorem stampShifted_ms (ms shift : Int) :
    StampShifted (shift * 1000) (fromTimestampMs ms) (fromTimestampMs (ms + shift)) := by
  intro t t' ht ht'
  unfold fromTimestampMs at ht ht'
  split at ht
  · split at ht'
    · obtain rfl := Option.some.inj ht
      obtain rfl := Option.some.inj ht'
      exact congrArg DateTime.aware (Int.add_mul ms shift 1000)
    · cases ht'
  · cases ht

/-- A power loss logged at `ms` of the controller's clock. -/
def powerLoss (ms : Int) : JsonObj :=
  [("key", .str "POWER_LOSS"), ("timestamp", .int ms), ("status", .str "NEW")]

theorem powerLoss_shifted (ms shift : Int) :
    EventShifted (shift * 1000) (powerLoss ms) (powerLoss (ms + shift)) := by
  refine ⟨fun k hk => ?_, stampShifted_ms ms shift⟩
  have hne : (k == "timestamp") = false := by simpa using hk
  simp only [powerLoss, List.lookup_cons, hne]

/-- A controller that answers from its v2 log. -/
def loggingNet (now : Instant) (log : List JsonObj) : Net where
  text := .counting fun _ => none
  base := ""
  now
  respond _
    | .page _ timestampFrom timestampTo pageNumber pageSize =>
      .response (.mk 200 true (.value
        (pageBody (log.filter (inWindow timestampFrom timestampTo)) pageNumber pageSize)))
    | _ => .response (.mk 200 true .empty)

/-- A poll of a controller that has logged one power loss, and of one whose clock is
a quarter of an hour further. -/
def powerLossPoll (now : Instant) (ms : Int) : SkewOp :=
  .poll (loggingNet now [powerLoss ms]) (loggingNet now [powerLoss (ms + 900000)]).respond
    [(powerLoss ms, powerLoss (ms + 900000))]

theorem powerLossPoll_shifted {p : Coordinator × Coordinator} {now : Instant} {ms : Int}
    (h : Coordinator.source (loggingNet now [powerLoss ms]) "default" p.1 = .systemLog)
    (h' : Coordinator.source (loggingNet now [powerLoss (ms + 900000)]) "default" p.2 =
      .systemLog) :
    (powerLossPoll now ms).Shifted {} (900000 * 1000) p := by
  have hone : 1 ≤ maxSystemLogPages * systemLogPageSize := by decide
  refine Or.inr (Or.inr ⟨h, h', fun entry hentry => ?_, fun _ _ _ _ _ _ => rfl,
    fun _ _ _ _ _ _ => rfl, (List.length_filter_le _ _).trans hone,
    (List.length_filter_le _ _).trans hone⟩)
  obtain rfl := List.mem_singleton.mp hentry
  exact powerLoss_shifted ms 900000

/-- The power loss is stamped with the host's present by the one controller; the
other's stamp is after the end of the window that the host asks for. -/
theorem fast_clock_hides_event :
    Along (SkewOp.step {}) (fun p l => l.Shifted {} (900000 * 1000) p) (.fresh {}, .fresh {})
      [powerLossPoll (hours 100) 360000000] ∧
    ¬SkewInvariant {} [powerLossPoll (hours 100) 360000000] := by
  refine ⟨⟨powerLossPoll_shifted rfl rfl, trivial⟩, fun h => ?_⟩
  have hcount := (h _ List.prefix_rfl .power).1
  revert hcount
  decide +kernel

/-- An hour old in the one run and three quarters of an hour in the other, the power
loss is polled, cleared and polled again. -/
theorem clock_skew_invariant_cleared :
    SkewInvariant {} [powerLossPoll (hours 100) 356400000,
      .op ⟨⟨hours 100, 0⟩, .clearCategory "power"⟩, powerLossPoll (hours 101) 356400000] := by
  have hsteady : ∀ (p : Coordinator × Coordinator) (now : Instant),
      Coordinator.source (loggingNet now [powerLoss 356400000]) "default" p.1 = .systemLog →
      Coordinator.requested (loggingNet now [powerLoss 357300000]) p.2 (powerLoss 357300000) =
        Coordinator.requested (loggingNet now [powerLoss 356400000]) p.1 (powerLoss 356400000) →
      (powerLossPoll now 356400000).Steady {} p := by
    intro p now hsource hwindow
    refine ⟨fun records records' h _ => ?_, fun _ entry hentry _ => ?_⟩
    · cases hsource.symm.trans h
    · obtain rfl := List.mem_singleton.mp hentry
      exact ⟨fun _ _ => ⟨⟨_, rfl⟩, _, rfl⟩, fun _ => hwindow⟩
  refine clock_skew_invariant {} (900000 * 1000) _
    ⟨powerLossPoll_shifted rfl rfl, fun c hc => ?_, powerLossPoll_shifted rfl rfl, trivial⟩
    ⟨hsteady _ _ rfl (by decide +kernel), trivial, hsteady _ _ rfl (by decide +kernel), trivial⟩
  obtain rfl : Category.power = c := Option.some.inj hc
  decide +kernel

end UnifiAlerts
