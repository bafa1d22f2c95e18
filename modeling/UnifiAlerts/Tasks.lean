import UnifiAlerts.EventLoop

/-!
# The auto-clear tasks

What an event does to the tasks is said by two facts. `TasksInv` is the
invariant: a live task is the registered one of its category, so there
is at most one. `Evolves` is a preorder from a state to any later one:
the clock moves on, no task is revived, and a task created in between is
due a full delay after the earlier state. Both are proved call by call,
then event by event, then over a run.

A task has a phase: it sleeps, it is suspended in its write, or it has
finished; and it may have been asked to cancel. It is `Live` as long as
it can still clear its category. Ids are handed out in order and never
used again, so a task is followed through a run by its id, and the
registered task of a category is found by it.

The invariant does not mention alerts. That each alert has a timer is
proved in `Timers`, on top of it.
-/

namespace UnifiAlerts

open Py Lib

namespace EventLoop

/-- Every live task is the registered one of its category, and a task that is
suspended in a write sleeps no more and has not been cancelled. -/
structure TasksInv (m : EventLoop) : Prop where
  bounded : ∀ id task, m.tasks id = some task → id < m.nextTask
  registered : ∀ id task, m.tasks id = some task → task.Live →
    m.clearTasks task.category = some id
  owned : ∀ c id, m.clearTasks c = some id → ∃ task, m.tasks id = some task ∧ task.category = c
  suspended : ∀ w ∈ m.store.queue, ∀ id, w.owner = .timer id →
    ∃ task, m.tasks id = some task ∧ task.phase ≠ .sleeping ∧ task.cancelled = false

theorem tasksInv_start (coord : Coordinator) (file : JsonObj) : TasksInv (start coord file) where
  bounded _ _ h := nomatch h
  registered _ _ h := nomatch h
  owned _ _ h := nomatch h
  suspended _ h := nomatch h

/-- Time moves on, no task is revived, and a new one is due a full delay later. -/
structure Evolves (config : UniFiClientConfig) (m m' : EventLoop) : Prop where
  clock : m.clock ≤ m'.clock
  old : ∀ id task, m.tasks id = some task → ∃ task', m'.tasks id = some task' ∧
    task'.category = task.category ∧ task'.due = task.due ∧ (task'.Live → task.Live)
  new : ∀ id task', m'.tasks id = some task' → m.tasks id = none →
    m.clock + config.clearDelaySeconds ≤ task'.due

section

variable {config : UniFiClientConfig} {text : Text}

theorem Evolves.of_tasks {m m' : EventLoop} (hclock : m.clock ≤ m'.clock)
    (htasks : m'.tasks = m.tasks) : Evolves config m m' where
  clock := hclock
  old id task h := ⟨task, by rw [htasks]; exact h, rfl, rfl, fun h => h⟩
  new id task' h hnone := by
    rw [htasks, hnone] at h
    cases h

theorem Evolves.refl (m : EventLoop) : Evolves config m m := .of_tasks le_rfl rfl

theorem Evolves.trans {m m' m'' : EventLoop} (h : Evolves config m m')
    (h' : Evolves config m' m'') : Evolves config m m'' where
  clock := h.clock.trans h'.clock
  old id task htask := by
    obtain ⟨task', htask', hcat, hdue, hlive⟩ := h.old id task htask
    obtain ⟨task'', htask'', hcat', hdue', hlive'⟩ := h'.old id task' htask'
    exact ⟨task'', htask'', hcat'.trans hcat, hdue'.trans hdue, fun hl => hlive (hlive' hl)⟩
  new id task'' htask'' hnone := by
    cases htask' : m'.tasks id with
    | none =>
        have hclock := h.clock
        have hdue := h'.new id task'' htask'' htask'
        linarith
    | some task' =>
        obtain ⟨task₂, htask₂, -, hdue, -⟩ := h'.old id task' htask'
        obtain rfl := Option.some.inj (htask''.symm.trans htask₂)
        rw [hdue]
        exact h.new id task' htask' hnone

/-! ### One task -/

@[simp] theorem setTask_tasks (m : EventLoop) (id id' : Nat) (task : ClearTask) :
    (m.setTask id task).tasks id' = if id' = id then some task else m.tasks id' := by
  simp [setTask, Function.update_apply]

/-- A task that is replaced by itself, further on. -/
theorem evolves_setTask {m : EventLoop} {id : Nat} {task task' : ClearTask}
    (htask : m.tasks id = some task) (hcat : task'.category = task.category)
    (hdue : task'.due = task.due) (hlive : task'.Live → task.Live) :
    Evolves config m (m.setTask id task') where
  clock := le_rfl
  old id' old hold := by
    rw [setTask_tasks]
    split
    · rename_i hid
      subst hid
      obtain rfl := Option.some.inj (htask.symm.trans hold)
      exact ⟨task', rfl, hcat, hdue, hlive⟩
    · exact ⟨old, hold, rfl, rfl, fun h => h⟩
  new id' task'' htask'' hnone := by
    rw [setTask_tasks] at htask''
    split at htask''
    · rename_i hid
      rw [hid, htask] at hnone
      cases hnone
    · rw [hnone] at htask''
      cases htask''

theorem TasksInv.setTask {m : EventLoop} (h : TasksInv m) {id : Nat} {task task' : ClearTask}
    (htask : m.tasks id = some task) (hcat : task'.category = task.category)
    (hlive : task'.Live → task.Live)
    (hwrite : (∃ w ∈ m.store.queue, w.owner = .timer id) →
      task'.phase ≠ .sleeping ∧ task'.cancelled = false) : TasksInv (m.setTask id task') where
  bounded id' t ht := by
    rw [setTask_tasks] at ht
    split at ht
    · rename_i hid
      rw [hid]
      exact h.bounded id task htask
    · exact h.bounded id' t ht
  registered id' t ht hl := by
    rw [setTask_tasks] at ht
    split at ht
    · rename_i hid
      obtain rfl := Option.some.inj ht
      rw [hid, hcat]
      exact h.registered id task htask (hlive hl)
    · exact h.registered id' t ht hl
  owned c id' hreg := by
    obtain ⟨t, ht, htc⟩ := h.owned c id' hreg
    rw [setTask_tasks]
    split
    · rename_i hid
      subst hid
      obtain rfl := Option.some.inj (htask.symm.trans ht)
      exact ⟨task', rfl, hcat.trans htc⟩
    · exact ⟨t, ht, htc⟩
  suspended w hw id' howner := by
    obtain ⟨t, ht, hphase⟩ := h.suspended w hw id' howner
    rw [setTask_tasks]
    split
    · rename_i hid
      subst hid
      exact ⟨task', rfl, hwrite ⟨w, hw, howner⟩⟩
    · exact ⟨t, ht, hphase⟩

/-- Fewer suspended writes keep the invariant. -/
theorem TasksInv.of_queue {m : EventLoop} (h : TasksInv m) {store : Store Owner JsonObj}
    (hqueue : ∀ w ∈ store.queue, (∃ id, w.owner = .timer id) → w ∈ m.store.queue) :
    TasksInv { m with store } :=
  ⟨h.bounded, h.registered, h.owned, fun w hw id howner =>
    h.suspended w (hqueue w hw ⟨id, howner⟩) id howner⟩

/-! ### Cancelling -/

theorem cancel_spec (m : EventLoop) (id : Nat) :
    (m.cancel id = m ∧ ∀ task, m.tasks id = some task → task.phase = .done) ∨
    ∃ task, m.tasks id = some task ∧
      m.cancel id = { m with store := m.store.drop (· == Owner.timer id) }.setTask id
        { task with cancelled := true } := by
  unfold cancel
  cases htask : m.tasks id with
  | none => exact Or.inl ⟨rfl, fun _ h => nomatch h⟩
  | some task =>
      dsimp only
      split
      · rename_i hdone
        refine Or.inl ⟨rfl, fun t ht => ?_⟩
        obtain rfl := Option.some.inj ht
        exact hdone
      · exact Or.inr ⟨task, rfl, rfl⟩

@[simp] theorem cancel_clearTasks (m : EventLoop) (id : Nat) :
    (m.cancel id).clearTasks = m.clearTasks := by
  rcases cancel_spec m id with ⟨h, -⟩ | ⟨task, -, h⟩
  · rw [h]
  · rw [h]
    rfl

@[simp] theorem cancel_nextTask (m : EventLoop) (id : Nat) :
    (m.cancel id).nextTask = m.nextTask := by
  rcases cancel_spec m id with ⟨h, -⟩ | ⟨task, -, h⟩
  · rw [h]
  · rw [h]
    rfl

@[simp] theorem cancel_clock (m : EventLoop) (id : Nat) : (m.cancel id).clock = m.clock := by
  rcases cancel_spec m id with ⟨h, -⟩ | ⟨task, -, h⟩
  · rw [h]
  · rw [h]
    rfl

theorem cancel_tasks_of_ne (m : EventLoop) {id id' : Nat} (h : id' ≠ id) :
    (m.cancel id).tasks id' = m.tasks id' := by
  rcases cancel_spec m id with ⟨heq, -⟩ | ⟨task, -, heq⟩
  · rw [heq]
  · rw [heq, setTask_tasks, if_neg h]

theorem cancel_not_live (m : EventLoop) {id : Nat} {task : ClearTask}
    (h : (m.cancel id).tasks id = some task) : ¬task.Live := by
  rcases cancel_spec m id with ⟨heq, hdone⟩ | ⟨t, -, heq⟩
  · rw [heq] at h
    exact fun hlive => hlive.1 (hdone task h)
  · rw [heq, setTask_tasks, if_pos rfl] at h
    obtain rfl := Option.some.inj h
    exact fun hlive => nomatch hlive.2

theorem not_live_of_cancelled {task : ClearTask} (h : task.cancelled = true) : ¬task.Live :=
  fun hlive => by rw [hlive.2] at h; cases h

theorem evolves_cancel (m : EventLoop) (id : Nat) : Evolves config m (m.cancel id) := by
  rcases cancel_spec m id with ⟨h, -⟩ | ⟨task, htask, h⟩
  · rw [h]
    exact .refl m
  · rw [h]
    have hdropped : Evolves config m { m with store := m.store.drop (· == Owner.timer id) } :=
      .of_tasks le_rfl rfl
    refine hdropped.trans (evolves_setTask htask rfl rfl fun hlive => ?_)
    exact absurd hlive (not_live_of_cancelled rfl)

theorem TasksInv.cancel {m : EventLoop} (h : TasksInv m) (id : Nat) : TasksInv (m.cancel id) := by
  rcases cancel_spec m id with ⟨heq, -⟩ | ⟨task, htask, heq⟩
  · rw [heq]
    exact h
  · rw [heq]
    have hdropped : TasksInv { m with store := m.store.drop (· == Owner.timer id) } :=
      h.of_queue fun w hw _ => (List.mem_filter.mp hw).1
    refine hdropped.setTask htask rfl (fun hlive => ?_) ?_
    · exact absurd hlive (not_live_of_cancelled rfl)
    · rintro ⟨w, hw, howner⟩
      have hkept := (List.mem_filter.mp hw).2
      simp [howner] at hkept

theorem TasksInv.cancelRegistered {m : EventLoop} (h : TasksInv m) (c : Category) :
    TasksInv (m.cancelRegistered c) := by
  unfold EventLoop.cancelRegistered
  split
  · exact h
  · exact h.cancel _

theorem evolves_cancelRegistered (m : EventLoop) (c : Category) :
    Evolves config m (m.cancelRegistered c) := by
  unfold cancelRegistered
  split
  · exact .refl m
  · exact evolves_cancel m _

@[simp] theorem cancelRegistered_clearTasks (m : EventLoop) (c : Category) :
    (m.cancelRegistered c).clearTasks = m.clearTasks := by
  unfold cancelRegistered
  split <;> simp

@[simp] theorem cancelRegistered_clock (m : EventLoop) (c : Category) :
    (m.cancelRegistered c).clock = m.clock := by
  unfold cancelRegistered
  split <;> simp

/-- No task of the category is left alive. -/
theorem cancelRegistered_not_live {m : EventLoop} (h : TasksInv m) {c : Category} {id : Nat}
    {task : ClearTask} (htask : (m.cancelRegistered c).tasks id = some task)
    (hcat : task.category = c) : ¬task.Live := by
  intro hlive
  have hreg := (h.cancelRegistered c).registered id task htask hlive
  rw [cancelRegistered_clearTasks, hcat] at hreg
  unfold cancelRegistered at htask
  rw [hreg] at htask
  exact cancel_not_live m htask hlive

/-! ### Calls -/

theorem TasksInv.scheduleClear {m : EventLoop} (h : TasksInv m) (c : Category) :
    TasksInv (m.scheduleClear config c) := by
  have hc := h.cancelRegistered c
  -- the new task is unregistered anywhere else, and no other of its category lives
  have hnew : ∀ id task, (m.cancelRegistered c).tasks id = some task →
      id ≠ (m.cancelRegistered c).nextTask := fun id task htask => (hc.bounded id task htask).ne
  refine ⟨fun id task htask => ?_, fun id task htask hlive => ?_, fun d id hreg => ?_,
    fun w hw id howner => ?_⟩
  · simp only [EventLoop.scheduleClear] at htask ⊢
    rw [setTask_tasks] at htask
    split at htask
    · omega
    · exact (hc.bounded id task htask).trans (Nat.lt_succ_self _)
  · simp only [EventLoop.scheduleClear] at htask ⊢
    rw [setTask_tasks] at htask
    split at htask
    · rename_i hid
      obtain rfl := Option.some.inj htask
      rw [hid, Function.update_self]
    · have hcat : task.category ≠ c := fun hcat => cancelRegistered_not_live h htask hcat hlive
      rw [Function.update_of_ne hcat]
      exact hc.registered id task htask hlive
  · simp only [EventLoop.scheduleClear] at hreg ⊢
    rw [setTask_tasks]
    by_cases hd : d = c
    · subst hd
      rw [Function.update_self] at hreg
      obtain rfl := Option.some.inj hreg
      exact ⟨_, if_pos rfl, rfl⟩
    · rw [Function.update_of_ne hd] at hreg
      obtain ⟨task, htask, hcat⟩ := hc.owned d id hreg
      exact ⟨task, by rw [if_neg (hnew id task htask)]; exact htask, hcat⟩
  · obtain ⟨task, htask, hphase⟩ := hc.suspended w hw id howner
    refine ⟨task, ?_, hphase⟩
    simp only [EventLoop.scheduleClear]
    rw [setTask_tasks, if_neg (hnew id task htask)]
    exact htask

theorem evolves_scheduleClear {m : EventLoop} (h : TasksInv m) (c : Category) :
    Evolves config m (m.scheduleClear config c) := by
  have hc := h.cancelRegistered c
  refine (evolves_cancelRegistered m c).trans ⟨le_rfl, fun id task htask => ?_,
    fun id task' htask' hnone => ?_⟩
  · refine ⟨task, ?_, rfl, rfl, fun hlive => hlive⟩
    simp only [scheduleClear]
    rw [setTask_tasks, if_neg (hc.bounded id task htask).ne]
    exact htask
  · simp only [scheduleClear] at htask'
    rw [setTask_tasks] at htask'
    split at htask'
    · obtain rfl := Option.some.inj htask'
      exact le_rfl
    · rw [hnone] at htask'
      cases htask'

theorem TasksInv.cancelClear {m : EventLoop} (h : TasksInv m) (c : Category) :
    TasksInv (m.cancelClear c) := by
  have hc := h.cancelRegistered c
  refine ⟨hc.bounded, fun id task htask hlive => ?_, fun d id hreg => ?_, hc.suspended⟩
  · have hcat : task.category ≠ c := fun hcat => cancelRegistered_not_live h htask hcat hlive
    simp only [EventLoop.cancelClear]
    rw [Function.update_of_ne hcat]
    exact hc.registered id task htask hlive
  · simp only [EventLoop.cancelClear] at hreg
    by_cases hd : d = c
    · subst hd
      rw [Function.update_self] at hreg
      cases hreg
    · rw [Function.update_of_ne hd] at hreg
      exact hc.owned d id hreg

theorem TasksInv.persist {m : EventLoop} (h : TasksInv m) {owner : Owner}
    (howner : ∀ id, owner = .timer id →
      ∃ task, m.tasks id = some task ∧ task.phase ≠ .sleeping ∧ task.cancelled = false) :
    TasksInv (m.persist text owner) := by
  refine ⟨h.bounded, h.registered, h.owned, fun w hw id hid => ?_⟩
  rcases List.mem_append.mp hw with hw | hw
  · exact h.suspended w hw id hid
  · obtain rfl := List.mem_singleton.mp hw
    exact howner id hid

theorem TasksInv.perform {m : EventLoop} (h : TasksInv m) {owner : Owner}
    (howner : ∀ id, owner ≠ .timer id) (call : Call) :
    TasksInv (perform config text owner m call) := by
  cases call with
  | scheduleClear c => exact h.scheduleClear c
  | cancelClear c => exact h.cancelClear c
  | schedulePersist => exact h.of_queue fun w hw _ => hw
  | persist => exact h.persist fun id hid => absurd hid (howner id)
  | notify => exact h

theorem evolves_perform {m : EventLoop} (h : TasksInv m) (owner : Owner) (call : Call) :
    Evolves config m (perform config text owner m call) := by
  cases call with
  | scheduleClear c => exact evolves_scheduleClear h c
  | cancelClear c => exact (evolves_cancelRegistered m c).trans (.of_tasks le_rfl rfl)
  | _ => exact .of_tasks le_rfl rfl

theorem TasksInv.performAll {owner : Owner} (howner : ∀ id, owner ≠ .timer id)
    (calls : List Call) {m : EventLoop} (h : TasksInv m) :
    TasksInv (performAll config text owner m calls) := by
  induction calls generalizing m with
  | nil => exact h
  | cons call calls ih => exact ih (h.perform howner call)

theorem evolves_performAll {owner : Owner} (howner : ∀ id, owner ≠ .timer id)
    (calls : List Call) {m : EventLoop} (h : TasksInv m) :
    Evolves config m (performAll config text owner m calls) := by
  induction calls generalizing m with
  | nil => exact .refl m
  | cons call calls ih => exact (evolves_perform h owner call).trans (ih (h.perform howner call))

/-! ### Events -/

theorem caller_ne_timer (n id : Nat) : Owner.caller n ≠ .timer id := nofun

theorem debounced_ne_timer (id : Nat) : Owner.debounced ≠ .timer id := nofun

theorem TasksInv.take {m : EventLoop} (h : TasksInv m) (wall : Instant) (method : Method) :
    TasksInv (m.take config text wall method) :=
  .performAll (caller_ne_timer _) _ ⟨h.bounded, h.registered, h.owned, h.suspended⟩

theorem evolves_take {m : EventLoop} (h : TasksInv m) (wall : Instant) (method : Method) :
    Evolves config m (m.take config text wall method) := by
  let turn := Coordinator.turn config m.coord ⟨⟨wall, m.clock⟩, method.op⟩
  have hstart : Evolves config m
      { m with coord := turn.coord, nextCaller := m.nextCaller + 1 } := .of_tasks le_rfl rfl
  exact hstart.trans (evolves_performAll (caller_ne_timer _) _
    ⟨h.bounded, h.registered, h.owned, h.suspended⟩)

/-- The category's `clear()`, the tasks being as they are. -/
def clearState (m : EventLoop) (c : Category) (wall : Instant) : EventLoop :=
  { m with coord := m.coord.setState c ((m.coord.states c).clear wall) }

/-- `_auto_clear` clears and writes, or returns at once. -/
theorem expire_spec (m : EventLoop) (wall : Instant) (id : Nat) (task : ClearTask) :
    ((m.coord.states task.category).isAlerting = true ∧
      m.expire config text wall id task =
        ((m.clearState task.category wall).setTask id
          { task with phase := .writing }).persist text (.timer id)) ∨
    ((m.coord.states task.category).isAlerting = false ∧
      m.expire config text wall id task = m.setTask id { task with phase := .done }) := by
  unfold expire
  cases hal : (m.coord.states task.category).isAlerting with
  | true =>
      refine Or.inl ⟨rfl, ?_⟩
      simp [Coordinator.turn, Coordinator.autoClear, hal, performAll, perform, clearState]
  | false =>
      refine Or.inr ⟨rfl, ?_⟩
      simp [Coordinator.turn, Coordinator.autoClear, hal, performAll]

/-- All that a task can do when it wakes up: wait on, end, or clear and write. -/
theorem wake_cases (m : EventLoop) (wall : Instant) (id : Nat) :
    m.wake config text wall id = m ∨
    (∃ task, m.tasks id = some task ∧
      (task.cancelled = true ∨
        m.Expires id task ∧ (m.coord.states task.category).isAlerting = false) ∧
      m.wake config text wall id = m.setTask id { task with phase := .done }) ∨
    (∃ task, m.Expires id task ∧ (m.coord.states task.category).isAlerting = true ∧
      m.wake config text wall id =
        ((m.clearState task.category wall).setTask id
          { task with phase := .writing }).persist text (.timer id)) := by
  by_cases hexpires : ∃ task, m.Expires id task
  · obtain ⟨task, hexp⟩ := hexpires
    rw [wake_of_expires hexp]
    rcases @expire_spec config text m wall id task with ⟨hal, heq⟩ | ⟨hquiet, heq⟩
    · exact Or.inr (Or.inr ⟨task, hexp, hal, heq⟩)
    · exact Or.inr (Or.inl ⟨task, hexp.1, Or.inr ⟨hexp, hquiet⟩, heq⟩)
  · rcases @wake_of_not_expires config text m id (fun task ht => hexpires ⟨task, ht⟩) wall with
      heq | ⟨task, htask, hcancelled, heq⟩
    · exact Or.inl heq
    · exact Or.inr (Or.inl ⟨task, htask, Or.inl hcancelled, heq⟩)

theorem TasksInv.clearState {m : EventLoop} (h : TasksInv m) (c : Category) (wall : Instant) :
    TasksInv (m.clearState c wall) := ⟨h.bounded, h.registered, h.owned, h.suspended⟩

/-- A task that runs is not suspended in a write. -/
theorem TasksInv.not_suspended {m : EventLoop} (h : TasksInv m) {id : Nat} {task : ClearTask}
    (htask : m.tasks id = some task) (hphase : task.phase = .sleeping ∨ task.cancelled = true) :
    ∀ w ∈ m.store.queue, w.owner ≠ .timer id := by
  intro w hw howner
  obtain ⟨t, ht, hawake, hnot⟩ := h.suspended w hw id howner
  obtain rfl := Option.some.inj (htask.symm.trans ht)
  rcases hphase with hphase | hphase
  · exact hawake hphase
  · rw [hphase] at hnot
    cases hnot

theorem TasksInv.wake {m : EventLoop} (h : TasksInv m) (wall : Instant) (id : Nat) :
    TasksInv (m.wake config text wall id) := by
  rcases @wake_cases config text m wall id with
    heq | ⟨task, htask, hended, heq⟩ | ⟨task, ⟨htask, hcancelled, hphase, -⟩, -, heq⟩
  · rw [heq]
    exact h
  · rw [heq]
    refine h.setTask htask rfl (fun hlive => absurd rfl hlive.1) ?_
    rintro ⟨w, hw, howner⟩
    exact absurd howner
      (h.not_suspended htask (hended.symm.imp_left fun hexp => hexp.1.2.2.1) w hw)
  · rw [heq]
    have hwriting : TasksInv
        ((m.clearState task.category wall).setTask id { task with phase := .writing }) :=
      (h.clearState _ wall).setTask htask rfl
        (fun _ => ⟨by rw [hphase]; exact nofun, hcancelled⟩) fun _ => ⟨nofun, hcancelled⟩
    refine hwriting.persist fun id' hid => ?_
    obtain rfl := Owner.timer.inj hid
    exact ⟨{ task with phase := .writing }, by simp, nofun, hcancelled⟩

theorem evolves_wake (m : EventLoop) (wall : Instant) (id : Nat) :
    Evolves config m (m.wake config text wall id) := by
  rcases @wake_cases config text m wall id with
    heq | ⟨task, htask, -, heq⟩ | ⟨task, ⟨htask, hcancelled, hphase, -⟩, -, heq⟩
  · rw [heq]
    exact .refl m
  · rw [heq]
    exact evolves_setTask htask rfl rfl fun hlive => absurd rfl hlive.1
  · rw [heq]
    have hcleared : Evolves config m (m.clearState task.category wall) := .of_tasks le_rfl rfl
    have hwriting : Evolves config m
        ((m.clearState task.category wall).setTask id { task with phase := .writing }) :=
      hcleared.trans (evolves_setTask htask rfl rfl fun _ =>
        ⟨by rw [hphase]; exact nofun, hcancelled⟩)
    exact hwriting.trans (.of_tasks le_rfl rfl)

theorem finishTask_spec (m : EventLoop) (id : Nat) :
    m.finishTask id = m ∨ ∃ task, m.tasks id = some task ∧
      m.finishTask id = m.setTask id { task with phase := .done } := by
  unfold finishTask
  cases m.tasks id with
  | none => exact Or.inl rfl
  | some task => exact Or.inr ⟨task, rfl, rfl⟩

/-- A suspended write ends: it leaves the queue, and the task that waits for
it is done. -/
theorem writeEnd_spec (m : EventLoop) (ok : Bool) :
    (m.store.queue = [] ∧ m.writeEnd ok = m) ∨
    ∃ w rest, m.store.queue = w :: rest ∧ ∃ failed,
      ((∀ id, w.owner ≠ .timer id) ∧
        m.writeEnd ok = { m with store := m.store.finish ok, persistFailed := failed }) ∨
      ∃ id, w.owner = .timer id ∧
        m.writeEnd ok = { { m with store := m.store.finish ok }.finishTask id with
          persistFailed := failed } := by
  unfold writeEnd
  cases hqueue : m.store.queue with
  | nil => exact Or.inl ⟨rfl, rfl⟩
  | cons w rest =>
      refine Or.inr ⟨w, rest, rfl, ?_⟩
      dsimp only
      cases howner : w.owner with
      | debounced => exact ⟨m.persistFailed, Or.inl ⟨nofun, rfl⟩⟩
      | caller n => exact ⟨!ok, Or.inl ⟨nofun, rfl⟩⟩
      | timer id => exact ⟨!ok, Or.inr ⟨id, rfl, rfl⟩⟩

theorem TasksInv.writeEnd {m : EventLoop} (h : TasksInv m) (ok : Bool) :
    TasksInv (m.writeEnd ok) := by
  have hfinish : TasksInv { m with store := m.store.finish ok } :=
    h.of_queue fun w hw _ => by
      rw [Store.queue_finish] at hw
      exact List.mem_of_mem_tail hw
  rcases writeEnd_spec m ok with ⟨-, heq⟩ | ⟨w, rest, hqueue, failed, ⟨-, heq⟩ | ⟨id, howner, heq⟩⟩
  · rw [heq]
    exact h
  · rw [heq]
    exact ⟨hfinish.bounded, hfinish.registered, hfinish.owned, hfinish.suspended⟩
  · rw [heq]
    obtain ⟨t, ht, hawake, hnot⟩ := h.suspended w (by simp [hqueue]) id howner
    have hdone : TasksInv ({ m with store := m.store.finish ok }.finishTask id) := by
      rcases finishTask_spec { m with store := m.store.finish ok } id with hsame |
          ⟨task, htask, hset⟩
      · rw [hsame]
        exact hfinish
      · rw [hset]
        obtain rfl := Option.some.inj (ht.symm.trans htask)
        exact hfinish.setTask htask rfl (fun hlive => absurd rfl hlive.1) fun _ => ⟨nofun, hnot⟩
    exact ⟨hdone.bounded, hdone.registered, hdone.owned, hdone.suspended⟩

theorem evolves_writeEnd (m : EventLoop) (ok : Bool) : Evolves config m (m.writeEnd ok) := by
  rcases writeEnd_spec m ok with ⟨-, heq⟩ | ⟨w, rest, hqueue, failed, ⟨-, heq⟩ | ⟨id, howner, heq⟩⟩
  · rw [heq]
    exact .refl m
  · rw [heq]
    exact .of_tasks le_rfl rfl
  · rw [heq]
    have hfinish : Evolves config m { m with store := m.store.finish ok } := .of_tasks le_rfl rfl
    have hdone : Evolves config m ({ m with store := m.store.finish ok }.finishTask id) := by
      rcases finishTask_spec { m with store := m.store.finish ok } id with hsame |
          ⟨task, htask, hset⟩
      · rw [hsame]
        exact hfinish
      · rw [hset]
        exact hfinish.trans (evolves_setTask htask rfl rfl fun hlive => absurd rfl hlive.1)
    exact hdone.trans (.of_tasks le_rfl rfl)

theorem TasksInv.step {m : EventLoop} (h : TasksInv m) (e : Event) :
    TasksInv (m.step config text e) := by
  cases e with
  | tick now => exact ⟨h.bounded, h.registered, h.owned, h.suspended⟩
  | call wall method => exact h.take wall method
  | wake wall id => exact h.wake wall id
  | flush =>
      simp only [EventLoop.step, Store.flush]
      split
      · exact h.persist fun id hid => absurd hid (debounced_ne_timer id)
      · exact h
  | writeEnd ok => exact h.writeEnd ok
  | cancelCaller n => exact h.of_queue fun w hw _ => (List.mem_filter.mp hw).1

theorem evolves_step {m : EventLoop} (h : TasksInv m) (e : Event) :
    Evolves config m (m.step config text e) := by
  cases e with
  | tick now => exact .of_tasks (le_max_left _ _) rfl
  | call wall method => exact evolves_take h wall method
  | wake wall id => exact evolves_wake m wall id
  | writeEnd ok => exact evolves_writeEnd m ok
  | flush => exact .of_tasks le_rfl rfl
  | cancelCaller n => exact .of_tasks le_rfl rfl

theorem TasksInv.run {m : EventLoop} (h : TasksInv m) (es : List Event) :
    TasksInv (run (EventLoop.step config text) m es) :=
  @run_preserves _ _ _ TasksInv (fun _ e h => h.step e) m h es

theorem evolves_run {m : EventLoop} (h : TasksInv m) (es : List Event) :
    Evolves config m (run (step config text) m es) := by
  have hboth := @run_preserves _ _ (step config text)
    (fun m' : EventLoop => TasksInv m' ∧ Evolves config m m')
    (fun m' e hm' => ⟨hm'.1.step e, hm'.2.trans (evolves_step hm'.1 e)⟩) m ⟨h, .refl m⟩ es
  exact hboth.2

end

end EventLoop

end UnifiAlerts
