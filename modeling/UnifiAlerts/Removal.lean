import UnifiAlerts.Lib.History
import UnifiAlerts.Reload

/-!
# Removing the config entry

`async_remove_entry` runs after the unload, and removes the file of the
watermarks through a `Store` of its own. The debounced write belongs to the
`Store` of the unloaded coordinator, which nothing has told about it,
and when it comes due it writes the file again.

The file stays away exactly when the last webhook that was recorded is
followed by a write before the removal (`removal_final_iff`).

The loop of the old coordinator goes on after the unload (`stepNow`):
its tasks are dead, so what is left of it that matters is the one
debounced write (`Stopped`). Before the unload any run of the entry may
have gone on, and what of it counts is read off its events: a webhook
that was recorded schedules the write (`Records`), and an awaited write
takes its place (`Writes`). The condition is about the order of the two,
not about the time between them.
-/

namespace UnifiAlerts

open Py Lib

namespace EventLoop

variable {config : UniFiClientConfig} {text : Text}

/-! ## What is scheduled -/

/-- A webhook that is accepted or counted as filtered. -/
def Records (config : UniFiClientConfig) (m : EventLoop) : Event → Prop
  | .call _ (.push category alert) => ∃ c,
    Coordinator.pushVerdict config m.coord m.clock category alert = .ok (.accepted c) ∨
      Coordinator.pushVerdict config m.coord m.clock category alert = .ok (.filtered c)
  | _ => False

/-- A write is issued: that of a clear, of an auto-clear that has something to clear, or
the debounced one. -/
def Writes (m : EventLoop) : Event → Prop
  | .call _ (.clearCategory category) => (Category.ofName? category).isSome
  | .call _ .clearAll => True
  | .wake _ id => ∃ task, m.Expires id task ∧ (m.coord.states task.category).isAlerting = true
  | .flush => True
  | _ => False

theorem idle_scheduleClears (owner : Owner) :
    ∀ (cs : List Category) {m : EventLoop}, m.store.queue = [] →
      (performAll config text owner m (cs.map .scheduleClear)).store = m.store
  | [], _, _ => rfl
  | c :: cs, m, h => by
      have hc : (m.scheduleClear config c).store = m.store := idle_cancelRegistered h c
      show (performAll config text owner (m.scheduleClear config c) (cs.map .scheduleClear)).store =
        m.store
      rw [idle_scheduleClears owner cs (by rw [hc]; exact h), hc]

/-- An event on an idle store leaves at most one write, and a debounced write scheduled when
it records a webhook, or issues no write and one was scheduled. -/
structure Leaves (config : UniFiClientConfig) (m : EventLoop) (e : Event)
    (store : Store Owner JsonObj) : Prop where
  queue : store.queue.tail = []
  scheduled : store.scheduled = true ↔ Records config m e ∨ m.store.scheduled = true ∧ ¬Writes m e

theorem Leaves.of_same {m : EventLoop} {e : Event} {store : Store Owner JsonObj}
    (hidle : m.store.queue = []) (hstore : store = m.store) (hrecords : ¬Records config m e)
    (hwrites : ¬Writes m e) : Leaves config m e store :=
  ⟨by rw [hstore, hidle]; rfl, by
    rw [hstore, or_iff_right hrecords, and_iff_left hwrites]⟩

theorem Leaves.of_save {m : EventLoop} {e : Event} {store : Store Owner JsonObj}
    (hidle : store.queue = []) (owner : Owner) (data : JsonObj) (hrecords : ¬Records config m e)
    (hwrites : Writes m e) : Leaves config m e (store.save owner data) :=
  ⟨by simp [Store.save, hidle], by
    rw [or_iff_right hrecords]
    exact iff_of_false (by simp [Store.save]) fun h => h.2 hwrites⟩

theorem leaves_push {m : EventLoop} (hidle : m.store.queue = []) (hmarks : m.coord.AwareMarks)
    {alert : UniFiAlert} (haware : alert.receivedAt.isAware = true) (wall : Instant)
    (category : String) :
    Leaves config m (.call wall (.push category alert))
      (m.take config text wall (.push category alert)).store := by
  have hwrites : ¬Writes m (.call wall (.push category alert)) := id
  simp only [take, Coordinator.turn, Method.op]
  cases hverdict : Coordinator.pushVerdict config m.coord m.clock category alert with
  | error e =>
      refine .of_same hidle ?_ ?_ hwrites
      · simp only [Coordinator.pushAlert, hverdict]
        rfl
      · rintro ⟨c, hc⟩
        rw [hverdict] at hc
        rcases hc with hc | hc <;> cases hc
  | ok verdict =>
      have hquiet : (∀ c, verdict ≠ .accepted c) → (∀ c, verdict ≠ .filtered c) →
          ¬Records config m (.call wall (.push category alert)) := by
        rintro haccepted hfiltered ⟨c, hc | hc⟩
        · exact haccepted c (Except.ok.inj (hverdict.symm.trans hc))
        · exact hfiltered c (Except.ok.inj (hverdict.symm.trans hc))
      cases verdict with
      | accepted c =>
          rw [Coordinator.pushAlert_calls_of_accepted hmarks haware hverdict]
          refine ⟨?_, iff_of_true (scheduled_cancelRegistered _ c) (Or.inl ⟨c, Or.inl hverdict⟩)⟩
          refine @congrArg _ _ _ [] List.tail ?_
          exact (congrArg Store.queue (idle_cancelRegistered (by exact hidle) c)).trans hidle
      | filtered c =>
          simp only [Coordinator.pushAlert, hverdict]
          exact ⟨congrArg List.tail hidle, iff_of_true rfl (Or.inl ⟨c, Or.inr hverdict⟩)⟩
      | unknown =>
          refine .of_same hidle ?_ (hquiet (by simp) (by simp)) hwrites
          simp only [Coordinator.pushAlert, hverdict]
          rfl
      | disabled =>
          refine .of_same hidle ?_ (hquiet (by simp) (by simp)) hwrites
          simp only [Coordinator.pushAlert, hverdict]
          rfl
      | duplicate c =>
          refine .of_same hidle ?_ (hquiet (by simp) (by simp)) hwrites
          simp only [Coordinator.pushAlert, hverdict]
          rfl

theorem leaves_persist {m m' : EventLoop} {e : Event} (hidle : m'.store.queue = []) (owner : Owner)
    (cs : List Category) (hrecords : ¬Records config m e) (hwrites : Writes m e) :
    Leaves config m e
      (performAll config text owner m' (cs.map .cancelClear ++ [.persist])).store := by
  rw [performAll_persist]
  refine .of_save ?_ owner _ hrecords hwrites
  rw [idle_cancelClears owner cs hidle]
  exact hidle

theorem leaves_clearCategory {m : EventLoop} (hidle : m.store.queue = []) (wall : Instant)
    (category : String) :
    Leaves config m (.call wall (.clearCategory category))
      (m.step config text (.call wall (.clearCategory category))).store := by
  cases hc : Category.ofName? category with
  | none =>
      refine .of_same hidle ?_ id fun hw => ?_
      · simp only [step, take, Coordinator.turn, Method.op, Coordinator.clearCategory, hc]
        rfl
      · have hsome : (Category.ofName? category).isSome = true := hw
        rw [hc] at hsome
        cases hsome
  | some c =>
      have hw : Writes m (.call wall (.clearCategory category)) := by
        show (Category.ofName? category).isSome = true
        rw [hc]
        rfl
      simp only [step, take, Coordinator.turn, Method.op, Coordinator.clearCategory, hc]
      exact leaves_persist (by exact hidle) _ [c] id hw

/-- A task that wakes writes when it ends an alert, and otherwise does not touch the store. -/
theorem leaves_wake {m : EventLoop} (hidle : m.store.queue = []) (wall : Instant) (id' : Nat) :
    Leaves config m (.wake wall id') (m.step config text (.wake wall id')).store := by
  by_cases hwrites : Writes m (.wake wall id')
  · obtain ⟨task, hexpires, hal⟩ := id hwrites
    rw [step, wake_of_expires hexpires]
    rcases @expire_spec config text m wall id' task with ⟨-, heq⟩ | ⟨hquiet, -⟩
    · rw [heq]
      exact .of_save (by exact hidle) (.timer id') _ id hwrites
    · rw [hal] at hquiet
      cases hquiet
  · rw [step]
    rcases @wake_cases config text m wall id' with heq | ⟨task, -, -, heq⟩ |
      ⟨task, hexpires, hal, -⟩
    · rw [heq]
      exact .of_same hidle rfl id hwrites
    · rw [heq]
      exact .of_same hidle rfl id hwrites
    · exact absurd ⟨task, hexpires, hal⟩ hwrites

theorem leaves_step {m : EventLoop} (hidle : m.store.queue = []) (hmarks : m.coord.AwareMarks)
    {e : Event} (he : e.PushAware) : Leaves config m e (m.step config text e).store := by
  cases e with
  | tick now => exact .of_same hidle rfl id id
  | call wall method =>
      cases method with
      | fetch net => exact .of_same hidle rfl id id
      | poll categorised =>
          obtain ⟨cs, hcs⟩ := Coordinator.applyPoll_calls config categorised m.coord
          refine .of_same hidle ?_ id id
          simp only [step, take, Coordinator.turn, Method.op]
          rw [hcs]
          exact idle_scheduleClears _ cs (by exact hidle)
      | push category alert => exact leaves_push hidle hmarks he wall category
      | clearCategory category => exact leaves_clearCategory hidle wall category
      | clearAll => exact leaves_persist (by exact hidle) _ _ (by exact id) (by exact trivial)
  | wake wall id' => exact leaves_wake hidle wall id'
  | flush =>
      simp only [step, Store.flush]
      split
      · exact .of_save hidle .debounced _ id trivial
      · rename_i hscheduled
        refine ⟨by rw [hidle]; rfl, iff_of_false hscheduled ?_⟩
        rintro (hrecords | ⟨-, hwrites⟩)
        · exact hrecords
        · exact hwrites trivial
  | writeEnd ok =>
      refine .of_same hidle ?_ id id
      rw [step, writeEnd_idle hidle]
  | cancelCaller n =>
      refine .of_same hidle ?_ id id
      simp only [step]
      exact Store.drop_of_none fun w hw => by
        rw [hidle] at hw
        cases hw

/-! ## Over a run -/

/-- No write is suspended, and the watermarks are times. -/
structure Idle (m : EventLoop) : Prop where
  queue : m.store.queue = []
  marks : m.coord.AwareMarks

theorem Idle.stepNow {m : EventLoop} (h : Idle m) {e : Event} (he : e.PushAware) :
    Idle (m.stepNow config text e) := by
  refine ⟨?_, ?_⟩
  · rw [stepNow_store, Store.queue_finish]
    exact (@leaves_step config text m h.queue h.marks e he).queue
  · exact awareMarks_step (awareMarks_step h.marks e) _

theorem scheduled_stepNow {m : EventLoop} (h : Idle m) {e : Event} (he : e.PushAware) :
    (m.stepNow config text e).store.scheduled = true ↔
      Records config m e ∨ m.store.scheduled = true ∧ ¬Writes m e := by
  rw [stepNow_store, Store.scheduled_finish]
  exact (@leaves_step config text m h.queue h.marks e he).scheduled

/-! ## After the shutdown -/

/-- Nothing can run but the debounced write. -/
structure Stopped (m : EventLoop) : Prop extends Idle m where
  dead : ∀ id task, m.tasks id = some task → ¬task.Live

theorem stopped_shutdown {m : EventLoop} (h : Idle m) (htasks : TasksInv m) :
    Stopped m.shutdown := by
  have hshutdown := shutdown_eq {} (.counting fun _ => none) m
  refine ⟨⟨?_, ?_⟩, fun id task => shutdown_not_live htasks⟩
  · rw [hshutdown, idle_cancelClears _ _ h.queue]
    exact h.queue
  · rw [hshutdown, performAll_coord]
    exact h.marks

theorem setTask_dead {m : EventLoop} {id : Nat} {task : ClearTask}
    (hdead : ∀ id task, m.tasks id = some task → ¬task.Live) (hdone : task.phase = .done) :
    ∀ id' task', (m.setTask id task).tasks id' = some task' → ¬task'.Live := by
  intro id' task' htask' hlive
  rw [setTask_tasks] at htask'
  split at htask'
  · obtain rfl := Option.some.inj htask'
    exact hlive.1 hdone
  · exact hdead id' task' htask' hlive

theorem writeEnd_dead {m : EventLoop} (hdead : ∀ id task, m.tasks id = some task → ¬task.Live)
    (ok : Bool) : ∀ id task, (m.writeEnd ok).tasks id = some task → ¬task.Live := by
  unfold writeEnd
  split
  · exact hdead
  · dsimp only
    split
    · exact hdead
    · exact hdead
    · rename_i id _
      unfold finishTask
      split
      · exact hdead
      · exact setTask_dead (m := { m with store := m.store.finish ok }) hdead rfl

theorem Stopped.not_expires {m : EventLoop} (h : Stopped m) {id : Nat} {task : ClearTask} :
    ¬m.Expires id task := fun ⟨htask, hcancelled, hphase, _⟩ =>
  h.dead id task htask ⟨by rw [hphase]; nofun, hcancelled⟩

theorem Stopped.stepNow {m : EventLoop} (h : Stopped m) {e : Event} (he : e.Pending) :
    Stopped (m.stepNow config text e) ∧
      ((m.stepNow config text e).store.scheduled = true ↔
        m.store.scheduled = true ∧ e ≠ .flush) := by
  have haware : e.PushAware := by cases e <;> trivial
  have hidle := @Idle.stepNow config text m h.toIdle e haware
  have hscheduled := @scheduled_stepNow config text m h.toIdle e haware
  cases e with
  | tick now =>
      refine ⟨⟨hidle, writeEnd_dead (by exact h.dead) true⟩, hscheduled.trans ?_⟩
      simp [Records, Writes]
  | flush =>
      refine ⟨⟨hidle, writeEnd_dead (by exact h.dead) true⟩, hscheduled.trans ?_⟩
      simp [Records, Writes]
  | wake wall id =>
      have hquiet : ¬Writes m (.wake wall id) := fun ⟨_, hexpires, _⟩ => h.not_expires hexpires
      refine ⟨⟨hidle, writeEnd_dead ?_ true⟩, hscheduled.trans ?_⟩
      · show ∀ id' task, (m.wake config text wall id).tasks id' = some task → ¬task.Live
        rcases @wake_of_not_expires config text m id (fun _ => h.not_expires) wall with
          heq | ⟨task, -, -, heq⟩
        · rw [heq]
          exact h.dead
        · rw [heq]
          exact setTask_dead h.dead rfl
      · simp [Records, hquiet]
  | call wall method => exact he.elim
  | writeEnd ok => exact he.elim
  | cancelCaller n => exact he.elim

theorem Stopped.run {es : List Event} (hes : ∀ e ∈ es, e.Pending) {m : EventLoop}
    (h : Stopped m) : Stopped (Lib.run (EventLoop.stepNow config text) m es) ∧
      ((Lib.run (EventLoop.stepNow config text) m es).store.scheduled = true ↔
        m.store.scheduled = true ∧ .flush ∉ es) := by
  induction es generalizing m with
  | nil => simpa using h
  | cons e es ih =>
      obtain ⟨he, hes⟩ := List.forall_mem_cons.mp hes
      obtain ⟨hstep, hscheduled⟩ := @Stopped.stepNow config text m h e he
      obtain ⟨hrun, hlast⟩ := ih hes hstep
      refine ⟨hrun, ?_⟩
      rw [run_cons, hlast, hscheduled, List.mem_cons, not_or, and_assoc, ne_comm]

theorem Stopped.settled {m : EventLoop} (h : Stopped m) :
    Settled m ↔ m.store.scheduled = false :=
  ⟨And.left, fun hscheduled => ⟨hscheduled, fun id task htask hcancelled hphase =>
    absurd ⟨by rw [hphase]; nofun, hcancelled⟩ (h.dead id task htask)⟩⟩

end EventLoop

/-! ## The file -/

/-- An unloaded coordinator, and the file of its entry when there is one. -/
structure Removed where
  loop : EventLoop
  file : Option JsonObj := none

namespace Removed

open EventLoop

variable {config : UniFiClientConfig} {text : Text}

/-- A write that succeeds makes the file. -/
def step (config : UniFiClientConfig) (text : Text) (r : Removed) (e : Event) : Removed :=
  let loop := r.loop.stepNow config text e
  { loop, file := if loop.store.completed = r.loop.store.completed then r.file
      else some loop.store.file }

/-- Whatever the coordinator still does by itself, the file is not written again. -/
def Final (config : UniFiClientConfig) (text : Text) (r : Removed) : Prop :=
  ∀ es, (∀ e ∈ es, e.Pending) → (run (step config text) r es).file = none

theorem run_loop (es : List Event) (r : Removed) :
    (run (step config text) r es).loop = run (stepNow config text) r.loop es := by
  induction es generalizing r with
  | nil => rfl
  | cons e es ih => exact ih _

theorem completed_stepNow (m : EventLoop) {e : Event} (he : e.Pending) :
    m.store.completed ≤ (m.stepNow config text e).store.completed := by
  have hstep : (m.step config text e).store.completed = m.store.completed := by
    cases e with
    | tick now => rfl
    | flush =>
        simp only [EventLoop.step, Store.flush]
        split <;> rfl
    | wake wall id =>
        rw [EventLoop.step]
        rcases @wake_cases config text m wall id with heq | ⟨task, -, -, heq⟩ |
            ⟨task, -, -, heq⟩ <;>
          rw [heq] <;> rfl
    | call wall method => exact he.elim
    | writeEnd ok => exact he.elim
    | cancelCaller n => exact he.elim
  rw [stepNow_store, ← hstep]
  unfold Store.finish
  split
  · exact le_rfl
  · simp

/-- The file is away as long as no write has succeeded. -/
theorem run_file {r : Removed} (hfile : r.file = none) {es : List Event}
    (hes : ∀ e ∈ es, e.Pending) : (run (step config text) r es).file = none ↔
      (run (stepNow config text) r.loop es).store.completed = r.loop.store.completed := by
  have hinv := @run_preserves_labels _ _ (step config text) Event.Pending
    (fun r' => r.loop.store.completed ≤ r'.loop.store.completed ∧
      (r'.file = none ↔ r'.loop.store.completed = r.loop.store.completed))
    (fun r' e h he => by
      have hle := @completed_stepNow config text r'.loop e he
      refine ⟨h.1.trans hle, ?_⟩
      simp only [step]
      split
      · rename_i hsame
        rw [hsame]
        exact h.2
      · rename_i hne
        refine iff_of_false (by simp) fun heq => hne ?_
        have := h.1
        omega) r ⟨le_rfl, by simp [hfile]⟩ es hes
  rw [← run_loop]
  exact hinv.2

theorem final_iff {r : Removed} (hfile : r.file = none) :
    r.Final config text ↔ NoLateWrite config text r.loop :=
  forall₂_congr fun _ hes => run_file hfile hes

end Removed

open EventLoop in
/-- Over every interleaving of polls, webhooks, clears, timers and writes, then the unload,
with `between` the pending events before the removal: the file that the removal deletes is
not written again exactly when the debounced write comes due in between, or every recorded
webhook is followed by a write before the unload. -/
theorem removal_final_iff (text : Text) (config : UniFiClientConfig) (coord : Coordinator)
    (file : JsonObj) (hmarks : coord.AwareMarks) (before between : List Event)
    (hbefore : ∀ e ∈ before, e.PushAware) (hbetween : ∀ e ∈ between, e.Pending) :
    Removed.Final config text
        { loop := EventLoop.unload config text (.start coord file) before between } ↔
      .flush ∈ between ∨ ¬Since (stepNow config text) (Records config) (fun m e => ¬Writes m e)
        (.start coord file) before := by
  have hidle := @run_preserves_labels _ _ (stepNow config text) Event.PushAware Idle
    (fun _ _ h he => h.stepNow he) (.start coord file) ⟨rfl, hmarks⟩ before hbefore
  have hscheduled := (@run_iff_since_labels _ _ (stepNow config text) Idle
    (fun m => m.store.scheduled = true) Event.PushAware (Records config) (fun m e => ¬Writes m e)
    (fun _ _ h he => h.stepNow he) (fun _ _ h he => scheduled_stepNow h he) before
    (.start coord file) ⟨rfl, hmarks⟩ hbefore).trans (or_iff_right fun h => nomatch h.1)
  have hstopped := stopped_shutdown hidle ((tasksInv_start coord file).runNow before)
  obtain ⟨hlast, hflushed⟩ := @Stopped.run config text between hbetween _ hstopped
  have hshutdown : (run (stepNow config text) (.start coord file) before).shutdown.store =
      (run (stepNow config text) (.start coord file) before).store := by
    rw [shutdown_eq {} text]
    exact idle_cancelClears _ _ hidle.queue
  rw [Removed.final_iff rfl]
  refine (noLateWrite_iff (by exact hlast.queue)).trans (hlast.settled.trans ?_)
  rw [← Bool.not_eq_true, hflushed, hshutdown, hscheduled, not_and_or, or_comm, not_not]

/-- The entry is removed within the second of a ping: the file comes back. -/
theorem removal_final_ping :
    ¬Removed.Final {} (.counting fun _ => none)
      { loop := EventLoop.unload {} (.counting fun _ => none) (.start (.fresh {}) [])
          [.call 0 (.push "power" pinged)] [] } := by
  refine (removal_final_iff (.counting fun _ => none) {} (.fresh {}) []
    (Coordinator.awareMarks_fresh {}) [.call 0 (.push "power" pinged)] []
    (fun e he => ?_) (fun _ he => nomatch he)).not.mpr ?_
  · rw [List.mem_singleton.mp he]
    exact rfl
  · rintro (hflush | hlost)
    · cases hflush
    · exact hlost (Or.inl ⟨⟨.power, Or.inl (by decide +kernel)⟩, trivial⟩)

end UnifiAlerts
