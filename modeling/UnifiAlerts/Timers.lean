import UnifiAlerts.PushDedup
import UnifiAlerts.Tasks

/-!
# One timer for each alert

An alerting category has one live auto-clear task: it still sleeps, and
it is the registered one. What a method leaves alerting was alerting
before or has been scheduled by it (`turn_arms`), and scheduling replaces
the live task of the category, so an alert is never cleared before its
delay has passed since it was last raised.

The invariant is `AlertsArmed`: the registered task of each category
that alerts is live and sleeps. Every event keeps it (`armed_step`), and
four facts are read off it in any run: there is one live task for each
alert and none besides (`oneTimer_of_armed`), a superseded task never
clears (`supersededInert`), a live one clears when it wakes
(`wake_clears`), and none does so early (`neverEarly`).
-/

namespace UnifiAlerts

open Py Lib

/-! ## What a method leaves alerting -/

namespace Coordinator

/-- A poll raises a category exactly when it reports so. -/
theorem pollState_isAlerting (config : UniFiClientConfig) (cat : String) (st : CategoryState)
    (alerts : List UniFiAlert) :
    (pollState config cat st alerts).1.isAlerting =
      (st.isAlerting || (pollState config cat st alerts).2.1) := by
  have htrack : ∀ as, (trackNewestSeen st as).isAlerting = st.isAlerting := by
    intro as
    rw [trackNewestSeen_eq]
  unfold pollState
  split
  · simp
  · dsimp only
    split
    · simp [htrack]
    · split
      · simp [htrack]
      · split
        · simp [htrack]
        · split <;> simp [htrack]

/-- The poll loop adds calls of `_schedule_clear` only. -/
theorem pollLoop_calls (config : UniFiClientConfig) :
    ∀ (categorised : Categorised) (turn : Turn), ∃ cs : List Category,
      (pollLoop config categorised turn).calls = turn.calls ++ cs.map .scheduleClear
  | [], _ => ⟨[], by simp [pollLoop]⟩
  | (cat, alerts) :: rest, turn => by
      have hentry : ∀ d, ∃ cs : List Category,
          (polledTurn config turn d alerts).calls = turn.calls ++ cs.map .scheduleClear := by
        intro d
        unfold polledTurn
        dsimp only
        split
        · exact ⟨[d], rfl⟩
        · exact ⟨[], by simp⟩
      rcases pollLoop_cases config cat alerts rest turn with
        ⟨-, hloop⟩ | ⟨d, -, -, ⟨e, -, hloop⟩ | ⟨-, hloop⟩⟩
      · rw [hloop]
        exact pollLoop_calls config rest turn
      · rw [hloop]
        exact hentry d
      · obtain ⟨cs, hcs⟩ := hentry d
        obtain ⟨ds, hds⟩ := pollLoop_calls config rest (polledTurn config turn d alerts)
        exact ⟨cs ++ ds, by rw [hloop, hds, hcs, List.map_append, List.append_assoc]⟩

/-- A category that is alerting after the loop was so before, or is scheduled. -/
theorem pollLoop_arms (config : UniFiClientConfig) (c : Category) :
    ∀ (categorised : Categorised) (turn : Turn),
      ((pollLoop config categorised turn).coord.states c).isAlerting = true →
      (turn.coord.states c).isAlerting = true ∨
        .scheduleClear c ∈ (pollLoop config categorised turn).calls
  | [], _, h => Or.inl h
  | (cat, alerts) :: rest, turn, h => by
      -- the entry itself raises `d` and schedules it, or leaves the alerts alone
      have hentry : ∀ d, ((polledTurn config turn d alerts).coord.states c).isAlerting = true →
          (turn.coord.states c).isAlerting = true ∨
            .scheduleClear c ∈ (polledTurn config turn d alerts).calls := by
        intro d
        rw [polledTurn_states]
        split
        · rename_i hcd
          subst hcd
          rw [pollState_isAlerting, Bool.or_eq_true]
          rintro (hbefore | hraised)
          · exact Or.inl hbefore
          · exact Or.inr (by simp [polledTurn, hraised])
        · exact Or.inl
      rcases pollLoop_cases config cat alerts rest turn with
        ⟨-, hloop⟩ | ⟨d, -, -, ⟨e, -, hloop⟩ | ⟨-, hloop⟩⟩
      · rw [hloop] at h ⊢
        exact pollLoop_arms config c rest turn h
      · rw [hloop] at h ⊢
        exact hentry d h
      · rw [hloop] at h ⊢
        obtain ⟨cs, hcs⟩ := pollLoop_calls config rest (polledTurn config turn d alerts)
        rcases pollLoop_arms config c rest _ h with hbefore | hcalled
        · refine (hentry d hbefore).imp_right fun hr => ?_
          rw [hcs]
          exact List.mem_append_left _ hr
        · exact Or.inr hcalled

theorem applyPoll_calls (config : UniFiClientConfig) (categorised : Categorised)
    (coord : Coordinator) :
    ∃ cs : List Category,
      (applyPoll config categorised coord).calls = cs.map .scheduleClear := by
  obtain ⟨cs, hcs⟩ := pollLoop_calls config categorised { coord }
  refine ⟨cs, ?_⟩
  unfold applyPoll
  dsimp only
  split <;> simpa using hcs

theorem applyPoll_arms (config : UniFiClientConfig) (categorised : Categorised)
    (coord : Coordinator) (c : Category)
    (h : ((applyPoll config categorised coord).coord.states c).isAlerting = true) :
    (coord.states c).isAlerting = true ∨
      .scheduleClear c ∈ (applyPoll config categorised coord).calls := by
  have hloop := pollLoop_arms config c categorised { coord }
  unfold applyPoll at h ⊢
  dsimp only at h ⊢
  split at h
  · exact hloop h
  · refine hloop ?_
    simp only [zeroise] at h
    split at h <;> exact h

/-- With an aware watermark and an aware alert an accepted push runs to its end. -/
theorem pushAlert_calls_of_accepted {config : UniFiClientConfig} {coord : Coordinator} {mono : ℚ}
    {category : String} {alert : UniFiAlert} {c : Category} (hmarks : coord.AwareMarks)
    (haware : alert.receivedAt.isAware = true)
    (h : pushVerdict config coord mono category alert = .ok (.accepted c)) :
    (pushAlert config coord mono category alert).calls =
      [.schedulePersist, .scheduleClear c, .notify] := by
  unfold pushAlert
  rw [h]
  dsimp only
  split
  · rename_i e hraised
    split at hraised
    · cases hraised
    · rename_i w hw
      rw [DateTime.gt_eq (by rw [haware, hmarks c w hw])] at hraised
      cases hraised
  · rfl

theorem pushAlert_calls (config : UniFiClientConfig) (coord : Coordinator) (mono : ℚ)
    (category : String) (alert : UniFiAlert) (c : Category) :
    .cancelClear c ∉ (pushAlert config coord mono category alert).calls := by
  unfold pushAlert
  split
  · simp
  · simp
  · dsimp only
    split <;> simp
  · simp

end Coordinator

namespace Method

def PushAware : Method → Prop
  | .push _ alert => alert.receivedAt.isAware = true
  | _ => True

end Method

namespace Coordinator

/-- A category that a method leaves alerting has not been cancelled by it, and
was alerting before or has been scheduled. -/
theorem turn_arms {config : UniFiClientConfig} {coord : Coordinator} {now : Reading}
    {method : Method} (hmarks : coord.AwareMarks) (haware : method.PushAware) {c : Category}
    (h : ((turn config coord ⟨now, method.op⟩).coord.states c).isAlerting = true) :
    .cancelClear c ∉ (turn config coord ⟨now, method.op⟩).calls ∧
      ((coord.states c).isAlerting = true ∨
        .scheduleClear c ∈ (turn config coord ⟨now, method.op⟩).calls) := by
  cases method with
  | fetch net =>
      simp only [turn, Method.op, fetch_states] at h
      exact ⟨List.not_mem_nil, Or.inl h⟩
  | poll categorised =>
      obtain ⟨cs, hcs⟩ := applyPoll_calls config categorised coord
      refine ⟨?_, applyPoll_arms config categorised coord c h⟩
      show .cancelClear c ∉ (applyPoll config categorised coord).calls
      rw [hcs]
      simp
  | push category alert =>
      refine ⟨pushAlert_calls config coord now.mono category alert c, ?_⟩
      by_cases haccepted : ∃ d, pushVerdict config coord now.mono category alert = .ok (.accepted d)
      · obtain ⟨d, hd⟩ := haccepted
        by_cases hcd : c = d
        · subst hcd
          refine Or.inr ?_
          show .scheduleClear c ∈ (pushAlert config coord now.mono category alert).calls
          rw [pushAlert_calls_of_accepted hmarks haware hd]
          simp
        · refine Or.inl ?_
          rw [← (pushAlert_applied hd).others c hcd]
          exact h
      · refine Or.inl ?_
        have hdropped := pushAlert_of_not_accepted fun d hd => haccepted ⟨d, hd⟩
        have hstate := congrArg CategoryState.isAlerting (hdropped.states c)
        exact hstate.symm.trans h
  | clearCategory category =>
      simp only [turn, Method.op, clearCategory] at h ⊢
      split at h
      · exact ⟨List.not_mem_nil, Or.inl h⟩
      · rename_i d _
        rw [setState_states] at h
        split at h
        · cases h
        · rename_i hcd
          exact ⟨by simpa using hcd, Or.inl h⟩
  | clearAll =>
      simp only [turn, Method.op, clearAll] at h ⊢
      split at h
      · cases h
      · rename_i henabled
        refine ⟨fun hmem => ?_, Or.inl h⟩
        simp [henabled] at hmem

end Coordinator

/-! ## The armed timer -/

namespace EventLoop

variable {config : UniFiClientConfig} {text : Text}

/-- The registered task of the category is alive and sleeps. -/
def Armed (m : EventLoop) (c : Category) : Prop :=
  ∃ id task, m.clearTasks c = some id ∧ m.tasks id = some task ∧ task.Live ∧
    task.phase = .sleeping

theorem cancelRegistered_tasks {m : EventLoop} (h : TasksInv m) {c d : Category} {id : Nat}
    (hreg : m.clearTasks d = some id) (hne : c ≠ d) :
    (m.cancelRegistered c).tasks id = m.tasks id := by
  unfold cancelRegistered
  split
  · rfl
  · rename_i id' hid'
    refine cancel_tasks_of_ne m fun heq => hne ?_
    -- one task has one category
    obtain ⟨task, htask, hcat⟩ := h.owned d id hreg
    obtain ⟨task', htask', hcat'⟩ := h.owned c id' hid'
    rw [← heq, htask] at htask'
    obtain rfl := Option.some.inj htask'
    exact hcat'.symm.trans hcat

theorem armed_scheduleClear {m : EventLoop} (h : TasksInv m) {c d : Category}
    (harmed : Armed m d ∨ c = d) : Armed (m.scheduleClear config c) d := by
  by_cases hcd : c = d
  · subst hcd
    refine ⟨(m.cancelRegistered c).nextTask,
      { category := c, due := (m.cancelRegistered c).clock + config.clearDelaySeconds },
      Function.update_self _ _ _, ?_, ⟨nofun, rfl⟩, rfl⟩
    simp only [scheduleClear]
    rw [setTask_tasks, if_pos rfl]
  · obtain ⟨id, task, hreg, htask, hlive, hphase⟩ := harmed.resolve_right hcd
    have hsame := cancelRegistered_tasks h hreg hcd
    have hold : (m.cancelRegistered c).tasks id = some task := hsame.trans htask
    have hne := ((h.cancelRegistered c).bounded id task hold).ne
    refine ⟨id, task, ?_, ?_, hlive, hphase⟩
    · simp only [scheduleClear]
      rw [Function.update_of_ne (Ne.symm hcd)]
      simpa [setTask] using hreg
    · simp only [scheduleClear]
      rw [setTask_tasks, if_neg hne]
      exact hold

theorem armed_cancelClear {m : EventLoop} (h : TasksInv m) {c d : Category}
    (harmed : Armed m d) (hne : c ≠ d) : Armed (m.cancelClear c) d := by
  obtain ⟨id, task, hreg, htask, hlive, hphase⟩ := harmed
  refine ⟨id, task, ?_, (cancelRegistered_tasks h hreg hne).trans htask, hlive, hphase⟩
  simp only [cancelClear]
  rw [Function.update_of_ne (Ne.symm hne)]
  simpa using hreg

theorem armed_perform {m : EventLoop} (h : TasksInv m) (owner : Owner) {call : Call} {c : Category}
    (hnot : call ≠ .cancelClear c) (harmed : Armed m c ∨ call = .scheduleClear c) :
    Armed (perform config text owner m call) c := by
  cases call with
  | scheduleClear d => exact armed_scheduleClear h (harmed.imp_right Call.scheduleClear.inj)
  | cancelClear d =>
      exact armed_cancelClear h (harmed.resolve_right nofun) fun hdc => hnot (hdc ▸ rfl)
  | schedulePersist => exact harmed.resolve_right nofun
  | persist => exact harmed.resolve_right nofun
  | notify => exact harmed.resolve_right nofun

theorem armed_performAll {owner : Owner} (howner : ∀ id, owner ≠ .timer id) {c : Category}
    (calls : List Call) {m : EventLoop} (h : TasksInv m) (hnot : .cancelClear c ∉ calls)
    (harmed : Armed m c ∨ .scheduleClear c ∈ calls) :
    Armed (performAll config text owner m calls) c := by
  induction calls generalizing m with
  | nil => exact harmed.resolve_right List.not_mem_nil
  | cons call calls ih =>
      rw [List.mem_cons, not_or] at hnot
      refine ih (h.perform howner call) hnot.2 ?_
      by_cases hnow : Armed m c ∨ call = .scheduleClear c
      · exact Or.inl (armed_perform h owner (Ne.symm hnot.1) hnow)
      · rw [not_or] at hnow
        rcases harmed with harmed | hmem
        · exact absurd harmed hnow.1
        · exact Or.inr ((List.mem_cons.mp hmem).resolve_left fun heq => hnow.2 heq.symm)

/-! ## Every alert has its timer -/

/-- Every category that alerts has a timer. -/
def AlertsArmed (m : EventLoop) : Prop :=
  ∀ c, (m.coord.states c).isAlerting = true → Armed m c

theorem armed_setTask {m : EventLoop} {c : Category} (harmed : Armed m c) {id : Nat}
    {task : ClearTask} (hother : m.clearTasks c ≠ some id) : Armed (m.setTask id task) c := by
  obtain ⟨id', task', hreg, htask, hlive, hphase⟩ := harmed
  refine ⟨id', task', hreg, ?_, hlive, hphase⟩
  rw [setTask_tasks, if_neg fun heq => hother (by rw [hreg, heq])]
  exact htask

theorem armed_take {m : EventLoop} (h : TasksInv m) (hmarks : m.coord.AwareMarks)
    (halerts : AlertsArmed m) {wall : Instant} {method : Method} (haware : method.PushAware) :
    AlertsArmed (m.take config text wall method) := by
  intro c hc
  unfold take at hc ⊢
  dsimp only at hc ⊢
  rw [performAll_coord] at hc
  obtain ⟨hnot, hor⟩ := Coordinator.turn_arms hmarks haware hc
  exact armed_performAll (caller_ne_timer _) _ ⟨h.bounded, h.registered, h.owned, h.suspended⟩ hnot
    (hor.imp_left fun hbefore => halerts c hbefore)

theorem armed_wake {m : EventLoop} (h : TasksInv m) (halerts : AlertsArmed m) (wall : Instant)
    (id : Nat) : AlertsArmed (m.wake config text wall id) := by
  -- a category with another timer keeps it
  have hother : ∀ task, m.tasks id = some task →
      ∀ c, c ≠ task.category → m.clearTasks c ≠ some id := by
    intro task htask c hne hreg
    obtain ⟨t, ht, htc⟩ := h.owned c id hreg
    obtain rfl := Option.some.inj (htask.symm.trans ht)
    exact hne htc.symm
  rcases @wake_cases config text m wall id with
    heq | ⟨task, htask, hended, heq⟩ | ⟨task, hexp, -, heq⟩
  · rw [heq]
    exact halerts
  · rw [heq]
    intro c hc
    have harmed := halerts c hc
    refine armed_setTask harmed ?_
    rcases hended with hcancelled | ⟨-, hquiet⟩
    · intro hreg
      obtain ⟨id', task', hreg', htask', hlive, -⟩ := harmed
      obtain rfl := Option.some.inj (hreg.symm.trans hreg')
      obtain rfl := Option.some.inj (htask.symm.trans htask')
      exact not_live_of_cancelled hcancelled hlive
    · refine hother task htask c fun hcat => ?_
      rw [← hcat] at hquiet
      exact absurd (hquiet.symm.trans hc) nofun
  · rw [heq]
    intro c hc
    change ((m.coord.setState task.category _).states c).isAlerting = true at hc
    rw [Coordinator.setState_states] at hc
    split at hc
    · cases hc
    · rename_i hne
      exact armed_setTask (m := m.clearState task.category wall) (halerts c hc)
        (hother task hexp.1 c hne)

theorem armed_writeEnd {m : EventLoop} (h : TasksInv m) (halerts : AlertsArmed m) (ok : Bool) :
    AlertsArmed (m.writeEnd ok) := by
  rcases writeEnd_spec m ok with ⟨-, heq⟩ | ⟨w, rest, hqueue, failed, ⟨-, heq⟩ | ⟨id, howner, heq⟩⟩
  · rw [heq]
    exact halerts
  · rw [heq]
    exact halerts
  · rw [heq]
    intro c hc
    change ((({ m with store := m.store.finish ok }.finishTask id).coord.states c).isAlerting =
      true) at hc
    rw [finishTask_coord] at hc
    have harmed : Armed { m with store := m.store.finish ok } c := halerts c hc
    rcases finishTask_spec { m with store := m.store.finish ok } id with hsame | ⟨task, htask, hset⟩
    · rw [hsame]
      exact harmed
    · rw [hset]
      have hstill : Armed ({ m with store := m.store.finish ok }.setTask id
          { task with phase := .done }) c := by
        refine armed_setTask harmed fun hreg => ?_
        -- the sleeping timer is not the task that was suspended in the write
        obtain ⟨id', task', hreg', htask', -, hphase⟩ := harmed
        obtain rfl := Option.some.inj (hreg.symm.trans hreg')
        obtain ⟨t, ht, hawake, -⟩ := h.suspended w (by simp [hqueue]) id howner
        obtain rfl := Option.some.inj (ht.symm.trans htask')
        exact hawake hphase
      exact hstill

end EventLoop

/-- A pushed alert carries the time of its receipt, which is aware. -/
def Event.PushAware : Event → Prop
  | .call _ method => method.PushAware
  | _ => True

namespace EventLoop

variable {config : UniFiClientConfig} {text : Text}

theorem armed_step {m : EventLoop} (h : TasksInv m) (hmarks : m.coord.AwareMarks)
    (halerts : AlertsArmed m) {e : Event} (haware : e.PushAware) :
    AlertsArmed (m.step config text e) := by
  cases e with
  | call wall method => exact armed_take h hmarks halerts haware
  | wake wall id => exact armed_wake h halerts wall id
  | writeEnd ok => exact armed_writeEnd h halerts ok
  | tick now => exact halerts
  | flush => exact halerts
  | cancelCaller n => exact halerts

theorem awareMarks_step {m : EventLoop} (hmarks : m.coord.AwareMarks) (e : Event) :
    (m.step config text e).coord.AwareMarks := by
  obtain ⟨ts, -, hts⟩ := @step_coord config text m e
  rw [hts]
  exact hmarks.run config ts

/-! ## A timer is never early -/

/-- An accepted push for the category, or a poll that raises it. -/
def Raises (config : UniFiClientConfig) (m : EventLoop) (c : Category) : Event → Prop
  | .call _ (.push category alert) =>
    Coordinator.pushVerdict config m.coord m.clock category alert = .ok (.accepted c)
  | .call _ (.poll categorised) => (m.coord.states c).isAlerting = false ∧
    ((Coordinator.applyPoll config categorised m.coord).coord.states c).isAlerting = true
  | _ => False

/-- No live task of the category is due before `t`, so none can end its alert before then.
-/
def DueFrom (t : ℚ) (c : Category) (m : EventLoop) : Prop :=
  ∀ id task, m.tasks id = some task → task.category = c → task.Live → t ≤ task.due

theorem DueFrom.evolves {t : ℚ} {c : Category} {m m' : EventLoop} (h : DueFrom t c m)
    (hev : Evolves config m m') (ht : t ≤ m.clock + config.clearDelaySeconds) :
    DueFrom t c m' := by
  intro id task' htask' hcat hlive
  cases htask : m.tasks id with
  | none => exact ht.trans (hev.new id task' htask' htask)
  | some task =>
      obtain ⟨task₂, htask₂, hcat₂, hdue, hold⟩ := hev.old id task htask
      obtain rfl := Option.some.inj (htask'.symm.trans htask₂)
      rw [hdue]
      exact h id task htask (hcat₂.symm.trans hcat) (hold hlive)

theorem dueFrom_scheduleClear {m : EventLoop} (h : TasksInv m) (c : Category) :
    DueFrom (m.clock + config.clearDelaySeconds) c (m.scheduleClear config c) := by
  intro id task htask hcat hlive
  simp only [scheduleClear] at htask
  rw [setTask_tasks] at htask
  split at htask
  · obtain rfl := Option.some.inj htask
    simp
  · exact absurd hlive (cancelRegistered_not_live h htask hcat)

theorem dueFrom_performAll {owner : Owner} (howner : ∀ id, owner ≠ .timer id) {c : Category}
    (calls : List Call) {m : EventLoop} (h : TasksInv m) (hmem : .scheduleClear c ∈ calls) :
    DueFrom (m.clock + config.clearDelaySeconds) c (performAll config text owner m calls) := by
  induction calls generalizing m with
  | nil => cases hmem
  | cons call calls ih =>
      have hcall : TasksInv (perform config text owner m call) := h.perform howner call
      have hclock : m.clock ≤ (perform config text owner m call).clock :=
        (@evolves_perform config text m h owner call).clock
      have hlater : (m.clock : ℚ) + config.clearDelaySeconds ≤
          (perform config text owner m call).clock + config.clearDelaySeconds := by linarith
      rcases List.mem_cons.mp hmem with heq | hmem
      · subst heq
        exact (dueFrom_scheduleClear h c).evolves (evolves_performAll howner calls hcall) hlater
      · intro id task htask hcat hlive
        exact hlater.trans (ih hcall hmem id task htask hcat hlive)

/-- Once raised, a category has no live task that is due before its delay. -/
theorem dueFrom_raise {m : EventLoop} (h : TasksInv m) (hmarks : m.coord.AwareMarks) {e : Event}
    (haware : e.PushAware) {c : Category} (hraises : m.Raises config c e) :
    DueFrom (m.clock + config.clearDelaySeconds) c (m.step config text e) := by
  cases e with
  | call wall method =>
      have hmem : .scheduleClear c ∈
          (Coordinator.turn config m.coord ⟨⟨wall, m.clock⟩, method.op⟩).calls := by
        cases method with
        | push category alert =>
            show .scheduleClear c ∈
              (Coordinator.pushAlert config m.coord m.clock category alert).calls
            rw [Coordinator.pushAlert_calls_of_accepted hmarks haware hraises]
            simp
        | poll categorised =>
            refine (Coordinator.applyPoll_arms config categorised m.coord c
              hraises.2).resolve_left ?_
            rw [hraises.1]
            nofun
        | fetch net => cases hraises
        | clearCategory category => cases hraises
        | clearAll => cases hraises
      exact dueFrom_performAll (caller_ne_timer _) _
        ⟨h.bounded, h.registered, h.owned, h.suspended⟩ hmem
  | tick now => cases hraises
  | wake wall id => cases hraises
  | flush => cases hraises
  | writeEnd ok => cases hraises
  | cancelCaller n => cases hraises

/-! ## The invariant -/

/-- Each alerting category has exactly one live auto-clear task, which still
sleeps and is the registered one; and when it wakes up the alert ends. -/
def OneTimer (config : UniFiClientConfig) (text : Text) (m : EventLoop) : Prop :=
  ∀ c, (m.coord.states c).enabled = true → (m.coord.states c).isAlerting = true →
    ∃ id task, m.clearTasks c = some id ∧ m.tasks id = some task ∧ task.category = c ∧
      task.Live ∧ task.phase = .sleeping ∧
      (∀ id' task', m.tasks id' = some task' → task'.category = c → task'.Live → id' = id) ∧
      ∀ wall now, task.due ≤ now →
        ((run (step config text) m [.tick now, .wake wall id]).coord.states c).isAlerting = false

/-- Replaced as the registered task of its category, or cancelled: such a task may still
wake up once. -/
def Superseded (m : EventLoop) (id : Nat) : Prop :=
  ∃ task, m.tasks id = some task ∧ (task.cancelled = true ∨ m.clearTasks task.category ≠ some id)

/-- A superseded task that wakes up, then or later, changes no state. -/
def SupersededInert (config : UniFiClientConfig) (text : Text) (m : EventLoop)
    (es : List Event) : Prop :=
  ∀ pre later wall id post, es = pre ++ later ++ .wake wall id :: post →
    Superseded (run (step config text) m pre) id →
    let m' := run (step config text) m (pre ++ later)
    (m'.step config text (.wake wall id)).coord = m'.coord ∧
      (m'.step config text (.wake wall id)).store = m'.store

/-- A task that ends the alert of a category does so a full delay after every
push or poll that raised it. -/
def NeverEarly (config : UniFiClientConfig) (text : Text) (m : EventLoop)
    (es : List Event) : Prop :=
  ∀ pre e later wall id post c, es = pre ++ e :: later ++ .wake wall id :: post →
    let raised := run (step config text) m pre
    let m' := run (step config text) m (pre ++ e :: later)
    Raises config raised c e → (m'.coord.states c).isAlerting = true →
    ((m'.step config text (.wake wall id)).coord.states c).isAlerting = false →
    raised.clock + config.clearDelaySeconds ≤ m'.clock

theorem oneTimer_of_armed {m : EventLoop} (h : TasksInv m) (halerts : AlertsArmed m) :
    OneTimer config text m := by
  intro c _ hc
  obtain ⟨id, task, hreg, htask, hlive, hphase⟩ := halerts c hc
  obtain ⟨t, ht, hcat⟩ := h.owned c id hreg
  obtain rfl := Option.some.inj (htask.symm.trans ht)
  refine ⟨id, task, hreg, htask, hcat, hlive, hphase, fun id' task' htask' hcat' hlive' => ?_,
    fun wall now hdue => ?_⟩
  · have hreg' := h.registered id' task' htask' hlive'
    rw [hcat', hreg] at hreg'
    exact (Option.some.inj hreg').symm
  · have hexp : Expires (m.step config text (.tick now)) id task :=
      ⟨htask, hlive.2, hphase, hdue.trans (le_max_right _ _)⟩
    show (((m.step config text (.tick now)).wake config text wall id).coord.states c).isAlerting =
      false
    rw [wake_of_expires hexp]
    rcases @expire_spec config text (m.step config text (.tick now)) wall id task with
      ⟨-, heq⟩ | ⟨hquiet, -⟩
    · rw [heq]
      show ((m.coord.setState task.category _).states c).isAlerting = false
      rw [hcat, Coordinator.setState_states, if_pos rfl]
      rfl
    · rw [hcat] at hquiet
      exact absurd (hquiet.symm.trans hc) nofun

/-- A task that is not alive does nothing when it wakes up. -/
theorem wake_of_not_live {m : EventLoop} {id : Nat} {task : ClearTask}
    (htask : m.tasks id = some task) (hdead : ¬task.Live) (wall : Instant) :
    (m.wake config text wall id).coord = m.coord ∧
    (m.wake config text wall id).store = m.store := by
  have hnot : ∀ t, ¬m.Expires id t := by
    rintro t ⟨ht, hcancelled, hphase, -⟩
    obtain rfl := Option.some.inj (htask.symm.trans ht)
    exact hdead ⟨by rw [hphase]; nofun, hcancelled⟩
  rcases @wake_of_not_expires config text m id hnot wall with heq | ⟨t, -, -, heq⟩
  · rw [heq]
    exact ⟨rfl, rfl⟩
  · rw [heq]
    exact ⟨rfl, rfl⟩

theorem supersededInert {m : EventLoop} (h : TasksInv m) (es : List Event) :
    SupersededInert config text m es := by
  rintro pre later wall id post - ⟨task, htask, hsuperseded⟩
  have hpre : TasksInv (run (step config text) m pre) := h.run pre
  have hdead : ¬task.Live := by
    rcases hsuperseded with hcancelled | hother
    · exact not_live_of_cancelled hcancelled
    · exact fun hlive => hother (hpre.registered id task htask hlive)
  obtain ⟨task', htask', -, -, hlive⟩ :=
    (@evolves_run config text _ hpre later).old id task htask
  dsimp only
  rw [run_append]
  exact wake_of_not_live htask' (fun hl => hdead (hlive hl)) wall

/-- Only its own live task, which is due, ends the alert of a category by waking up. -/
theorem wake_clears {m : EventLoop} {wall : Instant} {id : Nat} {c : Category}
    (hbefore : (m.coord.states c).isAlerting = true)
    (hafter : ((m.wake config text wall id).coord.states c).isAlerting = false) :
    ∃ task, m.Expires id task ∧ task.category = c := by
  rcases @wake_cases config text m wall id with heq | ⟨task, -, -, heq⟩ | ⟨task, hexp, -, heq⟩
  · rw [heq, hbefore] at hafter
    cases hafter
  · have hsame : (m.wake config text wall id).coord = m.coord := by
      rw [heq]
      rfl
    rw [hsame, hbefore] at hafter
    cases hafter
  · refine ⟨task, hexp, ?_⟩
    by_contra hne
    have hsame : (m.wake config text wall id).coord.states c = m.coord.states c := by
      rw [heq]
      show (m.coord.setState task.category _).states c = m.coord.states c
      rw [Coordinator.setState_states, if_neg (Ne.symm hne)]
    rw [hsame, hbefore] at hafter
    cases hafter

theorem neverEarly {m : EventLoop} (h : TasksInv m) (hmarks : m.coord.AwareMarks)
    {es : List Event} (haware : ∀ e ∈ es, e.PushAware) : NeverEarly config text m es := by
  intro pre e later wall id post c hes raised m' hraises hbefore hafter
  have hpre : TasksInv raised := h.run pre
  have hmarks' : raised.coord.AwareMarks := by
    obtain ⟨ts, hts⟩ := @run_coord config text pre m
    show (run (step config text) m pre).coord.AwareMarks
    rw [hts]
    exact hmarks.run config ts
  have hnext : TasksInv (raised.step config text e) := hpre.step e
  have hev : Evolves config raised (raised.step config text e) := evolves_step hpre e
  have hm' : m' = run (step config text) (raised.step config text e) later := by
    show run (step config text) m (pre ++ e :: later) = _
    rw [run_append, run_cons]
  -- from the raise on, every live task of the category is due a delay later
  have hdue : DueFrom (raised.clock + config.clearDelaySeconds) c m' := by
    rw [hm']
    refine (dueFrom_raise hpre hmarks' (haware e (by simp [hes])) hraises).evolves
      (evolves_run hnext later) ?_
    have hclock := hev.clock
    linarith
  obtain ⟨task, ⟨htask, hcancelled, hphase, hnow⟩, hcat⟩ := wake_clears hbefore hafter
  exact (hdue id task htask hcat ⟨by rw [hphase]; nofun, hcancelled⟩).trans hnow

end EventLoop

/-- Over every interleaving of pushes, polls, clears, wake-ups and writes on a
coordinator that starts with nothing alerting: in every state each alert has
its one timer, a superseded timer changes nothing, and no timer is early. -/
theorem auto_clear_timers (config : UniFiClientConfig) (text : Text) (coord : Coordinator)
    (file : JsonObj) (hidle : ∀ c, (coord.states c).isAlerting = false)
    (hmarks : coord.AwareMarks) (es : List Event) (haware : ∀ e ∈ es, e.PushAware) :
    (∀ pre post, es = pre ++ post →
      EventLoop.OneTimer config text
        (run (EventLoop.step config text) (.start coord file) pre)) ∧
    EventLoop.SupersededInert config text (.start coord file) es ∧
    EventLoop.NeverEarly config text (.start coord file) es := by
  have hstart := EventLoop.tasksInv_start coord file
  refine ⟨fun pre post hes => ?_, EventLoop.supersededInert hstart es,
    EventLoop.neverEarly hstart hmarks haware⟩
  have hinv : ∀ m : EventLoop, ∀ e,
      (m.TasksInv ∧ m.coord.AwareMarks ∧ m.AlertsArmed) → e.PushAware →
      ((m.step config text e).TasksInv ∧ (m.step config text e).coord.AwareMarks ∧
        (m.step config text e).AlertsArmed) := fun m e ⟨htasks, hm, halerts⟩ he =>
    ⟨htasks.step e, EventLoop.awareMarks_step hm e, EventLoop.armed_step htasks hm halerts he⟩
  obtain ⟨htasks, -, halerts⟩ := @run_preserves_labels _ _ (EventLoop.step config text)
    Event.PushAware (fun m => m.TasksInv ∧ m.coord.AwareMarks ∧ m.AlertsArmed) hinv
    (.start coord file)
    ⟨hstart, hmarks, fun c hc => absurd ((hidle c).symm.trans hc) nofun⟩ pre
    fun e he => haware e (by simp [hes, he])
  exact EventLoop.oneTimer_of_armed htasks halerts

/-- A push while the auto-clear of an earlier one is suspended in its write. -/
theorem auto_clear_timers_second_push :
    let alert : UniFiAlert := { category := "power", message := "PoE lost", receivedAt := .aware 0 }
    let es : List Event := [.call 0 (.push "power" alert), .tick 3600, .wake 3600 0,
      .call 3601 (.push "power" { alert with receivedAt := .aware 3601 })]
    EventLoop.OneTimer {} (.counting fun _ => none)
      (run (EventLoop.step {} (.counting fun _ => none)) (.start (.fresh {}) []) es) :=
  (auto_clear_timers {} (.counting fun _ => none) (.fresh {}) [] (fun _ => rfl)
    (Coordinator.awareMarks_fresh {}) _ (by
      intro e he
      simp only [List.mem_cons, List.not_mem_nil, or_false] at he
      rcases he with rfl | rfl | rfl | rfl
      · rfl
      · trivial
      · trivial
      · rfl)).1 _ [] (List.append_nil _).symm

end UnifiAlerts
