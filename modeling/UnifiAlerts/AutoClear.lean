import UnifiAlerts.Cells
import UnifiAlerts.PollContract

/-!
# How long an alert lasts

An auto-clear task wakes up at some time from its due time on. At a
moment `now`, when every task has been woken that can be
(`wakes`, in any order and any number of times), an alert is over
exactly when nothing has raised its category for the timeout
(`alert_lasts_iff`).

For this each task is traced to the event that scheduled it: an accepted
push or a poll that raised the category, `clearDelaySeconds` before the
task's due time (`Traced`). Waking the tasks leaves none that is due
(`run_wakes_expires`), and does not end an alert whose timer is not due
(`run_wakes_alerting`).
-/

namespace UnifiAlerts

open Py Lib

def Event.Sound : Event → Prop
  | .call _ method => method.op.Sound
  | _ => True

theorem Event.Sound.pushAware {e : Event} (h : e.Sound) : e.PushAware := by
  cases e with
  | call wall method =>
      cases method with
      | push category alert => exact h.aware alert (List.mem_singleton.mpr rfl)
      | _ => trivial
  | _ => trivial

namespace EventLoop

variable {config : UniFiClientConfig} {text : Text}

/-! ## Where a task comes from -/

theorem perform_clock (owner : Owner) (m : EventLoop) (call : Call) :
    (perform config text owner m call).clock = m.clock := by
  cases call with
  | scheduleClear c => exact cancelRegistered_clock m c
  | cancelClear c => exact cancelRegistered_clock m c
  | _ => rfl

/-- Replacing a task that exists makes no new one. -/
theorem setTask_new {m : EventLoop} {id id' : Nat} {old task task' : ClearTask}
    (hold : m.tasks id = some old) (hnone : m.tasks id' = none)
    (htask : (m.setTask id task).tasks id' = some task') : False := by
  rw [setTask_tasks] at htask
  split at htask
  · rename_i hid
    rw [hid, hold] at hnone
    cases hnone
  · rw [hnone] at htask
    cases htask

theorem cancelRegistered_new {m : EventLoop} {c : Category} {id : Nat} {task : ClearTask}
    (hnone : m.tasks id = none) (htask : (m.cancelRegistered c).tasks id = some task) : False := by
  unfold cancelRegistered at htask
  split at htask
  · rw [hnone] at htask
    cases htask
  · rename_i id' _
    rcases cancel_spec m id' with ⟨heq, -⟩ | ⟨old, hold, heq⟩
    · rw [heq, hnone] at htask
      cases htask
    · rw [heq] at htask
      exact setTask_new (m := { m with store := m.store.drop (· == Owner.timer id') }) hold hnone
        htask

theorem new_of_perform {owner : Owner} {m : EventLoop} {call : Call} {id : Nat}
    {task : ClearTask} (hnone : m.tasks id = none)
    (htask : (perform config text owner m call).tasks id = some task) :
    call = .scheduleClear task.category ∧ task.due = m.clock + config.clearDelaySeconds := by
  have hsame : ∀ {m' : EventLoop}, m'.tasks id = some task → m'.tasks = m.tasks → False := by
    intro m' hnew heq
    rw [heq, hnone] at hnew
    cases hnew
  cases call with
  | scheduleClear c =>
      simp only [perform, scheduleClear, setTask_tasks] at htask
      split at htask
      · obtain rfl := Option.some.inj htask
        exact ⟨rfl, by simp⟩
      · exact (cancelRegistered_new hnone htask).elim
  | cancelClear c => exact (cancelRegistered_new hnone htask).elim
  | schedulePersist => exact (hsame htask rfl).elim
  | persist => exact (hsame htask rfl).elim
  | notify => exact (hsame htask rfl).elim

/-- A new task is one that the calls schedule, due a full delay later. -/
theorem new_of_performAll {owner : Owner} (howner : ∀ id, owner ≠ .timer id) {id : Nat}
    {task : ClearTask} : ∀ {calls : List Call} {m : EventLoop}, TasksInv m → m.tasks id = none →
      (performAll config text owner m calls).tasks id = some task →
      .scheduleClear task.category ∈ calls ∧ task.due = m.clock + config.clearDelaySeconds
  | [], m, _, hnone, htask => by
      rw [performAll, List.foldl_nil, hnone] at htask
      cases htask
  | call :: calls, m, h, hnone, htask => by
      have hfirst : TasksInv (perform config text owner m call) := h.perform howner call
      cases hnew : (perform config text owner m call).tasks id with
      | none =>
          obtain ⟨hmem, hdue⟩ := new_of_performAll howner hfirst hnew htask
          rw [perform_clock] at hdue
          exact ⟨List.mem_cons_of_mem _ hmem, hdue⟩
      | some new =>
          obtain ⟨rfl, hdue⟩ := new_of_perform hnone hnew
          obtain ⟨last, hlast, hcat, hdue', -⟩ :=
            (@evolves_performAll config text owner howner calls _ hfirst).old id new hnew
          obtain rfl := Option.some.inj (hlast.symm.trans htask)
          rw [hcat, hdue']
          exact ⟨List.mem_cons_self, hdue⟩

/-- What a method schedules it has raised, or pushed. -/
theorem raises_of_scheduled {m : EventLoop} (hmarks : m.coord.AwareMarks) {wall : Instant}
    {method : Method} (hsound : method.op.Sound) {c : Category}
    (h : .scheduleClear c ∈
      (Coordinator.turn config m.coord ⟨⟨wall, m.clock⟩, method.op⟩).calls) :
    m.Raises config c (.call wall method) := by
  cases method with
  | fetch net => cases h
  | poll categorised =>
      exact (Coordinator.applyPoll_scheduled hsound.keyed hmarks hsound.aware c).mp h
  | push category alert =>
      simp only [Coordinator.turn, Method.op, Coordinator.pushAlert] at h
      show Coordinator.pushVerdict config m.coord m.clock category alert = .ok (.accepted c)
      split at h
      · cases h
      · simp at h
      · rename_i d hverdict
        rw [hverdict]
        split at h
        · cases h
        · simp only [List.mem_cons, Call.scheduleClear.injEq, List.not_mem_nil, or_false,
            reduceCtorEq, false_or] at h
          rw [h]
      · cases h
  | clearCategory category =>
      simp only [Coordinator.turn, Method.op, Coordinator.clearCategory] at h
      split at h
      · cases h
      · simp at h
  | clearAll => simp [Coordinator.turn, Method.op, Coordinator.clearAll] at h

theorem new_of_step {m : EventLoop} (h : TasksInv m) (hmarks : m.coord.AwareMarks) {e : Event}
    (hsound : e.Sound) {id : Nat} {task : ClearTask} (hnone : m.tasks id = none)
    (htask : (m.step config text e).tasks id = some task) :
    m.Raises config task.category e ∧ task.due = m.clock + config.clearDelaySeconds := by
  have hsame : ∀ {m' : EventLoop}, m'.tasks id = some task → m'.tasks = m.tasks → False := by
    intro m' hnew heq
    rw [heq, hnone] at hnew
    cases hnew
  cases e with
  | tick now => exact (hsame htask rfl).elim
  | call wall method =>
      let turn := Coordinator.turn config m.coord ⟨⟨wall, m.clock⟩, method.op⟩
      obtain ⟨hmem, hdue⟩ := @new_of_performAll config text _ (caller_ne_timer m.nextCaller) id task
        turn.calls { m with coord := turn.coord, nextCaller := m.nextCaller + 1 }
        ⟨h.bounded, h.registered, h.owned, h.suspended⟩ hnone htask
      exact ⟨raises_of_scheduled hmarks hsound hmem, hdue⟩
  | wake wall id' =>
      rcases @wake_cases config text m wall id' with
        heq | ⟨old, hold, -, heq⟩ | ⟨old, hexp, -, heq⟩
      · exact (hsame htask (by rw [step, heq])).elim
      · rw [step, heq] at htask
        exact (setTask_new hold hnone htask).elim
      · rw [step, heq] at htask
        exact (setTask_new (m := m.clearState old.category wall) hexp.1 hnone htask).elim
  | flush => exact (hsame htask rfl).elim
  | writeEnd ok =>
      rcases writeEnd_spec m ok with
        ⟨-, heq⟩ | ⟨w, rest, -, failed, ⟨-, heq⟩ | ⟨id', -, heq⟩⟩
      · exact (hsame htask (by rw [step, heq])).elim
      · exact (hsame htask (by rw [step, heq])).elim
      · rw [step, heq] at htask
        rcases finishTask_spec { m with store := m.store.finish ok } id' with
          hkept | ⟨old, hold, hset⟩
        · rw [hkept] at htask
          exact (hsame htask rfl).elim
        · rw [hset] at htask
          exact (setTask_new (m := { m with store := m.store.finish ok }) hold hnone htask).elim
  | cancelCaller n => exact (hsame htask rfl).elim

/-- The task was scheduled by an event of the run that raised its category, a delay
before it is due. -/
def Traced (config : UniFiClientConfig) (text : Text) (m : EventLoop) (es : List Event)
    (task : ClearTask) : Prop :=
  ∃ pre e post, es = pre ++ e :: post ∧
    Raises config (run (step config text) m pre) task.category e ∧
    task.due = (run (step config text) m pre).clock + config.clearDelaySeconds

theorem traced_of_run {m : EventLoop} (h : TasksInv m) (hmarks : m.coord.AwareMarks)
    (hempty : ∀ id, m.tasks id = none) {es : List Event} (hsound : ∀ e ∈ es, e.Sound) {id : Nat}
    {task : ClearTask} (htask : (run (step config text) m es).tasks id = some task) :
    Traced config text m es task := by
  induction es using List.reverseRecOn generalizing task with
  | nil =>
      rw [run_nil, hempty] at htask
      cases htask
  | append_singleton es e ih =>
      have hes : ∀ e ∈ es, e.Sound := fun e' he' => hsound e' (List.mem_append_left _ he')
      have hinv : TasksInv (run (step config text) m es) := h.run es
      rw [run_snoc] at htask
      cases hold : (run (step config text) m es).tasks id with
      | some old =>
          obtain ⟨last, hlast, hcat, hdue, -⟩ :=
            (@evolves_step config text _ hinv e).old id old hold
          obtain rfl := Option.some.inj (hlast.symm.trans htask)
          obtain ⟨pre, e', post, rfl, hraises, hdue'⟩ := ih hes hold
          exact ⟨pre, e', post ++ [e], by simp, hcat ▸ hraises, hdue.trans hdue'⟩
      | none =>
          have hmarks' : (run (step config text) m es).coord.AwareMarks :=
            run_preserves (I := fun m : EventLoop => m.coord.AwareMarks)
              (fun _ e h => awareMarks_step h e) hmarks es
          obtain ⟨hraises, hdue⟩ := new_of_step hinv hmarks' (hsound e (by simp)) hold htask
          exact ⟨es, e, [], rfl, hraises, hdue⟩

/-! ## Waking the tasks -/

/-- Wake-ups of tasks, each at a wall-clock time. -/
def wakes (ids : List (Instant × Nat)) : List Event := ids.map fun w => .wake w.1 w.2

@[simp] theorem wakes_cons (w : Instant × Nat) (ids : List (Instant × Nat)) :
    wakes (w :: ids) = .wake w.1 w.2 :: wakes ids := rfl

theorem wake_clock (m : EventLoop) (wall : Instant) (id : Nat) :
    (m.wake config text wall id).clock = m.clock := by
  rcases @wake_cases config text m wall id with heq | ⟨task, -, -, heq⟩ | ⟨task, -, -, heq⟩
  · rw [heq]
  · rw [heq]
    rfl
  · rw [heq]
    rfl

/-- Waking a task leaves the others as they are. -/
theorem wake_tasks_of_ne (m : EventLoop) (wall : Instant) {id id' : Nat} (h : id' ≠ id) :
    (m.wake config text wall id).tasks id' = m.tasks id' := by
  rcases @wake_cases config text m wall id with heq | ⟨task, -, -, heq⟩ | ⟨task, -, -, heq⟩
  · rw [heq]
  · rw [heq, setTask_tasks, if_neg h]
  · rw [heq]
    show ((m.clearState task.category wall).setTask id
      { task with phase := .writing }).tasks id' = _
    rw [setTask_tasks, if_neg h]
    rfl

/-- A task that has been woken does not run a second time. -/
theorem wake_not_expires (m : EventLoop) (wall : Instant) (id : Nat) (task : ClearTask) :
    ¬(m.wake config text wall id).Expires id task := by
  rintro ⟨htask, hcancelled, hphase, hdue⟩
  have hset : ∀ {m' : EventLoop} {woken : ClearTask}, woken.phase ≠ .sleeping →
      (m'.setTask id woken).tasks id = some task → False := by
    intro m' woken hawake hsome
    rw [setTask_tasks, if_pos rfl] at hsome
    obtain rfl := Option.some.inj hsome
    exact hawake hphase
  by_cases hexpires : ∃ old, m.Expires id old
  · obtain ⟨old, hold⟩ := hexpires
    rw [wake_of_expires hold] at htask
    rcases @expire_spec config text m wall id old with ⟨-, heq⟩ | ⟨-, heq⟩
    · rw [heq] at htask
      exact @hset (m.clearState old.category wall) { old with phase := .writing } nofun htask
    · rw [heq] at htask
      exact @hset m { old with phase := .done } nofun htask
  · rcases @wake_of_not_expires config text m id (fun old hold => hexpires ⟨old, hold⟩) wall with
      heq | ⟨old, -, -, heq⟩
    · rw [wake_clock] at hdue
      rw [heq] at htask
      exact hexpires ⟨task, htask, hcancelled, hphase, hdue⟩
    · rw [heq] at htask
      exact @hset m { old with phase := .done } nofun htask

theorem expires_of_wake {m : EventLoop} {wall : Instant} {id id' : Nat} {task : ClearTask}
    (h : (m.wake config text wall id).Expires id' task) : m.Expires id' task ∧ id' ≠ id := by
  have hne : id' ≠ id := by
    rintro rfl
    exact wake_not_expires m wall id' task h
  obtain ⟨htask, hcancelled, hphase, hdue⟩ := h
  rw [wake_tasks_of_ne m wall hne] at htask
  rw [wake_clock] at hdue
  exact ⟨⟨htask, hcancelled, hphase, hdue⟩, hne⟩

theorem run_wakes_expires {id : Nat} {task : ClearTask} :
    ∀ {ids : List (Instant × Nat)} {m : EventLoop},
      (run (step config text) m (wakes ids)).Expires id task →
      m.Expires id task ∧ ∀ wall, (wall, id) ∉ ids
  | [], m, h => ⟨h, fun _ => List.not_mem_nil⟩
  | (wall, id') :: ids, m, h => by
      obtain ⟨hexp, hnot⟩ := @run_wakes_expires id task ids (m.wake config text wall id') h
      obtain ⟨hbefore, hne⟩ := expires_of_wake hexp
      refine ⟨hbefore, fun wall' hmem => ?_⟩
      rcases List.mem_cons.mp hmem with heq | hmem
      · exact hne (Prod.mk.inj heq).2
      · exact hnot wall' hmem

@[simp] theorem run_wakes_clock (ids : List (Instant × Nat)) (m : EventLoop) :
    (run (step config text) m (wakes ids)).clock = m.clock := by
  induction ids generalizing m with
  | nil => rfl
  | cons w ids ih => exact (ih _).trans (wake_clock m w.1 w.2)

/-- No wake-up raises a category. -/
theorem wake_alerting {m : EventLoop} {wall : Instant} {id : Nat} {c : Category}
    (h : ((m.wake config text wall id).coord.states c).isAlerting = true) :
    (m.coord.states c).isAlerting = true := by
  rcases @wake_cases config text m wall id with heq | ⟨task, -, -, heq⟩ | ⟨task, -, -, heq⟩
  · rw [heq] at h
    exact h
  · rw [heq] at h
    exact h
  · rw [heq] at h
    change ((m.coord.setState task.category _).states c).isAlerting = true at h
    rw [Coordinator.setState_states] at h
    split at h
    · cases h
    · exact h

theorem run_wakes_alerting {c : Category} :
    ∀ {ids : List (Instant × Nat)} {m : EventLoop},
      ((run (step config text) m (wakes ids)).coord.states c).isAlerting = true →
      (m.coord.states c).isAlerting = true
  | [], _, h => h
  | w :: ids, m, h => wake_alerting (@run_wakes_alerting c ids (m.wake config text w.1 w.2) h)

/-- An alert stays while no live task of its category is due. -/
theorem run_wakes_keep {c : Category} {t : ℚ} :
    ∀ {ids : List (Instant × Nat)} {m : EventLoop}, TasksInv m → DueFrom t c m → m.clock < t →
      t ≤ m.clock + config.clearDelaySeconds → (m.coord.states c).isAlerting = true →
      ((run (step config text) m (wakes ids)).coord.states c).isAlerting = true
  | [], _, _, _, _, _, h => h
  | (wall, id) :: ids, m, hinv, hdue, hclock, hdelay, h => by
      have hkept : ((m.wake config text wall id).coord.states c).isAlerting = true := by
        by_contra hoff
        obtain ⟨task, ⟨htask, hcancelled, hphase, hnow⟩, hcat⟩ :=
          wake_clears h (by simpa using hoff)
        have hlate := hdue id task htask hcat ⟨by rw [hphase]; nofun, hcancelled⟩
        linarith
      have hclock' := @wake_clock config text m wall id
      exact @run_wakes_keep c t ids (m.wake config text wall id) (hinv.wake wall id)
        (hdue.evolves (evolves_wake m wall id) hdelay) (hclock' ▸ hclock) (hclock' ▸ hdelay) hkept

/-- The clock and the wake-ups raise nothing, so what raised a category came before. -/
theorem raises_before {m : EventLoop} {c : Category} {now : ℚ} {ids : List (Instant × Nat)}
    {es pre post : List Event} {e : Event} (heq : es ++ .tick now :: wakes ids = pre ++ e :: post)
    (hraises : m.Raises config c e) : ∃ post', es = pre ++ e :: post' := by
  have hquiet : e ∉ Event.tick now :: wakes ids := by
    intro hmem
    rcases List.mem_cons.mp hmem with rfl | hmem
    · exact hraises
    · obtain ⟨w, -, rfl⟩ := List.mem_map.mp hmem
      exact hraises
  rcases List.append_eq_append_iff.mp heq with ⟨later, -, hlater⟩ | ⟨later, hes, hlater⟩
  · exact absurd (by rw [hlater]; simp) hquiet
  · cases later with
    | nil =>
        rw [List.nil_append] at hlater
        exact absurd (by rw [← hlater]; simp) hquiet
    | cons e' post' =>
        obtain ⟨rfl, -⟩ := List.cons.inj hlater
        exact ⟨post', hes⟩

theorem alertsArmed_run {m : EventLoop} (h : TasksInv m) (hmarks : m.coord.AwareMarks)
    (halerts : AlertsArmed m) {es : List Event} (hsound : ∀ e ∈ es, e.Sound) :
    AlertsArmed (run (step config text) m es) := by
  have hinv : ∀ m : EventLoop, ∀ e, (m.TasksInv ∧ m.coord.AwareMarks ∧ m.AlertsArmed) → e.Sound →
      ((m.step config text e).TasksInv ∧ (m.step config text e).coord.AwareMarks ∧
        (m.step config text e).AlertsArmed) := fun m e ⟨htasks, hm, harmed⟩ he =>
    ⟨htasks.step e, awareMarks_step hm e, armed_step htasks hm harmed he.pushAware⟩
  exact (run_preserves_labels (P := Event.Sound) hinv ⟨h, hmarks, halerts⟩ hsound).2.2

/-! ## How long an alert lasts -/

/-- When no task is left to run, an alert that is on was raised less than the delay ago. -/
theorem raised_of_alerting {coord : Coordinator} {file : JsonObj}
    (hidle : ∀ c, (coord.states c).isAlerting = false) (hmarks : coord.AwareMarks)
    {es : List Event} (hsound : ∀ e ∈ es, e.Sound)
    (hnone : ∀ id task, ¬(run (step config text) (.start coord file) es).Expires id task)
    {c : Category}
    (hon : ((run (step config text) (.start coord file) es).coord.states c).isAlerting = true) :
    ∃ pre e post, es = pre ++ e :: post ∧
      Raises config (run (step config text) (.start coord file) pre) c e ∧
      (run (step config text) (.start coord file) es).clock <
        (run (step config text) (.start coord file) pre).clock + config.clearDelaySeconds := by
  have hstart := tasksInv_start coord file
  have halerts : AlertsArmed (run (step config text) (.start coord file) es) :=
    alertsArmed_run hstart hmarks (fun c hc => absurd ((hidle c).symm.trans hc) nofun) hsound
  obtain ⟨id, task, hreg, htask, hlive, hphase⟩ := halerts c hon
  have hcat : task.category = c := by
    obtain ⟨task', htask', hcat⟩ := (hstart.run es).owned c id hreg
    obtain rfl := Option.some.inj (htask'.symm.trans htask)
    exact hcat
  obtain ⟨pre, e, post, heq, hraises, hdue⟩ :=
    traced_of_run hstart hmarks (fun _ => rfl) hsound htask
  refine ⟨pre, e, post, heq, hcat ▸ hraises, ?_⟩
  rw [← hdue]
  by_contra hlate
  exact hnone id task ⟨htask, hlive.2, hphase, not_lt.mp hlate⟩

/-- Since a raise, every live task of the category is due a delay after it. -/
theorem dueFrom_of_raised {coord : Coordinator} {file : JsonObj} (hmarks : coord.AwareMarks)
    {pre post : List Event} {e : Event} (he : e.Sound) {c : Category}
    (hraises : Raises config (run (step config text) (.start coord file) pre) c e) :
    DueFrom ((run (step config text) (.start coord file) pre).clock + config.clearDelaySeconds) c
        (run (step config text) (.start coord file) (pre ++ e :: post)) ∧
      (run (step config text) (.start coord file) pre).clock ≤
        (run (step config text) (.start coord file) (pre ++ e :: post)).clock := by
  have hpre : TasksInv (run (step config text) (.start coord file) pre) :=
    (tasksInv_start coord file).run pre
  have hmarks' : (run (step config text) (.start coord file) pre).coord.AwareMarks :=
    run_preserves (I := fun m : EventLoop => m.coord.AwareMarks)
      (fun _ e h => awareMarks_step h e) hmarks pre
  have hnext : TasksInv ((run (step config text) (.start coord file) pre).step config text e) :=
    hpre.step e
  have hev := @evolves_run config text _ hnext post
  have hfrom := (@evolves_step config text _ hpre e).clock
  rw [run_append]
  exact ⟨(dueFrom_raise hpre hmarks' he.pushAware hraises).evolves hev (by linarith),
    hfrom.trans hev.clock⟩

end EventLoop

open EventLoop

/-- After any run, once the clock reads `now` and every task that is due has been woken: an
alert is over exactly when no push was accepted for its category, and no poll raised it, in
the timeout before `now`. -/
theorem alert_lasts_iff (config : UniFiClientConfig) (text : Text) (coord : Coordinator)
    (file : JsonObj) (hidle : ∀ c, (coord.states c).isAlerting = false)
    (hmarks : coord.AwareMarks) {es : List Event} (hsound : ∀ e ∈ es, e.Sound) {now : ℚ}
    (hnow : (run (EventLoop.step config text) (.start coord file) es).clock ≤ now)
    {ids : List (Instant × Nat)}
    (hwoken : ∀ id task, (run (EventLoop.step config text) (.start coord file)
      (es ++ [.tick now])).Expires id task → ∃ wall, (wall, id) ∈ ids) (c : Category) :
    let reached := run (EventLoop.step config text) (.start coord file)
    ((reached (es ++ .tick now :: wakes ids)).coord.states c).isAlerting = true ↔
      ((reached es).coord.states c).isAlerting = true ∧
        ∃ pre e post, es = pre ++ e :: post ∧ Raises config (reached pre) c e ∧
          now < (reached pre).clock + config.clearDelaySeconds := by
  intro reached
  -- the moment at which the tasks are woken
  let m := (reached es).step config text (.tick now)
  have hclock : m.clock = now := max_eq_right hnow
  have hsplit : reached (es ++ .tick now :: wakes ids) =
      run (EventLoop.step config text) m (wakes ids) := run_append _ _ _
  have hclock' : (reached (es ++ .tick now :: wakes ids)).clock = now := by
    rw [hsplit, run_wakes_clock, hclock]
  constructor
  · intro hon
    have hall : ∀ e ∈ es ++ .tick now :: wakes ids, e.Sound := by
      intro e he
      rcases List.mem_append.mp he with he | he
      · exact hsound e he
      · rcases List.mem_cons.mp he with rfl | he
        · trivial
        · obtain ⟨w, -, rfl⟩ := List.mem_map.mp he
          trivial
    -- every task that was due has been woken
    have hnone : ∀ id task, ¬(reached (es ++ .tick now :: wakes ids)).Expires id task := by
      intro id task hexp
      rw [hsplit] at hexp
      obtain ⟨hbefore, hnot⟩ := run_wakes_expires hexp
      obtain ⟨wall, hmem⟩ := hwoken id task (by rw [run_snoc]; exact hbefore)
      exact hnot wall hmem
    obtain ⟨pre, e, post, heq, hraises, hlate⟩ := raised_of_alerting hidle hmarks hall hnone hon
    obtain ⟨post', hes⟩ := raises_before heq hraises
    rw [hsplit] at hon
    exact ⟨@run_wakes_alerting config text c ids m hon, pre, e, post', hes, hraises,
      hclock' ▸ hlate⟩
  · rintro ⟨hon, pre, e, post, rfl, hraises, hlate⟩
    obtain ⟨hdue, hafter⟩ := @dueFrom_of_raised config text coord file hmarks pre post e
      (hsound e (by simp)) c hraises
    have hinv : TasksInv (reached (pre ++ e :: post)) := (tasksInv_start coord file).run _
    rw [hsplit]
    refine run_wakes_keep (hinv.step (.tick now)) hdue (t := _) (by rw [hclock]; exact hlate) ?_ hon
    rw [hclock]
    linarith

/-- A second push ten minutes after the first keeps the alert on when the first would
have ended. -/
theorem alert_lasts_second_push :
    let alert : UniFiAlert := { category := "power", message := "PoE lost", receivedAt := .aware 0 }
    let es : List Event :=
      [.call 0 (.push "power" alert), .tick 600, .call 600 (.push "power" alert)]
    let now : ℚ := 1900
    let ids : List (Instant × Nat) := [(0, 0), (0, 1)]
    ((run (EventLoop.step {} (.counting fun _ => none)) (.start (.fresh {}) [])
      (es ++ .tick now :: wakes ids)).coord.states .power).isAlerting = true := by
  intro alert es now ids
  let reached := run (EventLoop.step {} (.counting fun _ => none)) (.start (.fresh {}) [])
  have hpush : (Op.push "power" alert).Sound := .push rfl
  have hsound : ∀ e ∈ es, e.Sound := by
    intro e he
    simp only [es, List.mem_cons, List.not_mem_nil, or_false] at he
    rcases he with rfl | rfl | rfl
    · exact hpush
    · trivial
    · exact hpush
  have hinv : (reached (es ++ [.tick now])).TasksInv := (tasksInv_start _ _).run _
  have hwoken : ∀ id task, (reached (es ++ [.tick now])).Expires id task →
      ∃ wall, (wall, id) ∈ ids := by
    intro id task hexp
    have hid : id < 2 := hinv.bounded id task hexp.1
    have hcases : id = 0 ∨ id = 1 := by omega
    exact ⟨0, by rcases hcases with rfl | rfl <;> simp [ids]⟩
  have hnow : (reached es).clock ≤ now := by decide +kernel
  have hraised : Raises {} (reached [.call 0 (.push "power" alert), .tick 600]) .power
      (.call 600 (.push "power" alert)) :=
    Coordinator.pushVerdict_accepted_iff.mpr
      ⟨by decide +kernel, by decide +kernel, by decide +kernel, Or.inl rfl⟩
  have hlate : now < (reached [.call 0 (.push "power" alert), .tick 600]).clock +
      UniFiClientConfig.clearDelaySeconds {} := by decide +kernel
  have hon : ((reached es).coord.states .power).isAlerting = true := by decide +kernel
  have hidle : ∀ c, ((Coordinator.fresh {}).states c).isAlerting = false := fun _ => rfl
  have hlasts := alert_lasts_iff {} (.counting fun _ => none) (.fresh {}) [] hidle
    (Coordinator.awareMarks_fresh {}) hsound hnow hwoken .power
  exact hlasts.mpr ⟨hon, [.call 0 (.push "power" alert), .tick 600], _, [], rfl, hraised, hlate⟩

end UnifiAlerts
