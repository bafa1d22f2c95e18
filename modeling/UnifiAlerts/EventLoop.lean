import UnifiAlerts.Lib.Store
import UnifiAlerts.Polling

/-!
# The coordinator on the event loop

`EventLoop` is one coordinator with what its calls leave behind on the
loop: the auto-clear tasks it ever created and the ones registered in
`_clear_tasks`, the store with its suspended writes, and the repair
issue. An `Event` is one resumption: a method called from outside, a
task waking up, a write ending, the debounced write coming due, or the
loop's clock moving on. Every list of events is an interleaving.

Cancelling a task asks for it: the task raises CancelledError at its next
resumption, and a write it is suspended in does not happen. A task that
sleeps until `due` wakes at some time from then on.

The coordinator inside takes the steps of `Coordinator.step`, and every
run of the loop is a run of it (`run_coord`).
-/

namespace UnifiAlerts

open Py Lib

/-! ## State -/

inductive Phase
  | sleeping
  | writing
  | done
deriving Repr, DecidableEq

/-- An `_auto_clear` task. -/
structure ClearTask where
  category : Category
  due : ℚ
  phase : Phase := .sleeping
  cancelled : Bool := false

namespace ClearTask

/-- Not done, and no cancellation requested. -/
def Live (task : ClearTask) : Prop := task.phase ≠ .done ∧ task.cancelled = false

end ClearTask

/-- Who awaits a write: an auto-clear task, the caller of a clear, or nobody. -/
inductive Owner
  | timer (id : Nat)
  | caller (n : Nat)
  | debounced
deriving Repr, DecidableEq

structure EventLoop where
  coord : Coordinator
  clock : ℚ := 0
  tasks : Nat → Option ClearTask := fun _ => none
  nextTask : Nat := 0
  clearTasks : Category → Option Nat := fun _ => none
  nextCaller : Nat := 0
  store : Store Owner JsonObj
  persistFailed : Bool := false

/-- The methods that the rest of the integration calls. -/
inductive Method
  | fetch (net : Net)
  | poll (categorised : Categorised)
  | push (category : String) (alert : UniFiAlert)
  | clearCategory (category : String)
  | clearAll

def Method.op : Method → Op
  | .fetch net => .fetch net
  | .poll categorised => .poll categorised
  | .push category alert => .push category alert
  | .clearCategory category => .clearCategory category
  | .clearAll => .clearAll

inductive Event
  | tick (now : ℚ)
  | call (wall : Instant) (method : Method)
  | wake (wall : Instant) (id : Nat)
  | flush
  | writeEnd (ok : Bool)
  | cancelCaller (n : Nat)

/-- The alerts an event carries into the coordinator. -/
def Event.alerts : Event → List UniFiAlert
  | .call _ method => method.op.alerts
  | _ => []

namespace EventLoop

/-- A coordinator with no task yet, over a store file. -/
def start (coord : Coordinator) (file : JsonObj) : EventLoop := { coord, store := { file } }

/-! ## The calls -/

def setTask (m : EventLoop) (id : Nat) (task : ClearTask) : EventLoop :=
  { m with tasks := Function.update m.tasks id (some task) }

/-- `if existing and not existing.done(): existing.cancel()`. -/
def cancel (m : EventLoop) (id : Nat) : EventLoop :=
  match m.tasks id with
  | none => m
  | some task =>
    if task.phase = .done then m
    else { m.setTask id { task with cancelled := true } with
      store := m.store.drop (· == Owner.timer id) }

def cancelRegistered (m : EventLoop) (c : Category) : EventLoop :=
  match m.clearTasks c with
  | none => m
  | some id => m.cancel id

def scheduleClear (config : UniFiClientConfig) (m : EventLoop) (c : Category) : EventLoop :=
  let m := m.cancelRegistered c
  { m.setTask m.nextTask { category := c, due := m.clock + config.clearDelaySeconds } with
    nextTask := m.nextTask + 1
    clearTasks := Function.update m.clearTasks c (some m.nextTask) }

def cancelClear (m : EventLoop) (c : Category) : EventLoop :=
  let m := m.cancelRegistered c
  { m with clearTasks := Function.update m.clearTasks c none }

def persist (text : Text) (owner : Owner) (m : EventLoop) : EventLoop :=
  { m with store := m.store.save owner (Coordinator.buildPersistData text m.coord) }

def perform (config : UniFiClientConfig) (text : Text) (owner : Owner) (m : EventLoop) :
    Call → EventLoop
  | .scheduleClear c => m.scheduleClear config c
  | .cancelClear c => m.cancelClear c
  | .schedulePersist => { m with store := m.store.delaySave }
  | .persist => m.persist text owner
  | .notify => m

def performAll (config : UniFiClientConfig) (text : Text) (owner : Owner) (m : EventLoop)
    (calls : List Call) : EventLoop := calls.foldl (perform config text owner) m

/-! ## Events -/

/-- A method runs up to its awaited write, if it has one. -/
def take (config : UniFiClientConfig) (text : Text) (m : EventLoop) (wall : Instant)
    (method : Method) : EventLoop :=
  let turn := Coordinator.turn config m.coord ⟨⟨wall, m.clock⟩, method.op⟩
  performAll config text (.caller m.nextCaller)
    { m with coord := turn.coord, nextCaller := m.nextCaller + 1 } turn.calls

/-- A sleep that is over: the task runs to its write, or returns. -/
def expire (config : UniFiClientConfig) (text : Text) (m : EventLoop) (wall : Instant) (id : Nat)
    (task : ClearTask) : EventLoop :=
  let turn := Coordinator.turn config m.coord ⟨⟨wall, m.clock⟩, .autoClear task.category⟩
  let phase : Phase := if turn.calls = [] then .done else .writing
  performAll config text (.timer id) ({ m with coord := turn.coord }.setTask id { task with phase })
    turn.calls

def wake (config : UniFiClientConfig) (text : Text) (m : EventLoop) (wall : Instant) (id : Nat) :
    EventLoop :=
  match m.tasks id with
  | none => m
  | some task =>
    -- CancelledError is raised in the sleep or in the write
    if task.cancelled then m.setTask id { task with phase := .done }
    else match task.phase with
      | .sleeping => if task.due ≤ m.clock then m.expire config text wall id task else m
      | _ => m

def finishTask (m : EventLoop) (id : Nat) : EventLoop :=
  match m.tasks id with
  | none => m
  | some task => m.setTask id { task with phase := .done }

/-- The first suspended write ends, and its owner resumes. -/
def writeEnd (m : EventLoop) (ok : Bool) : EventLoop :=
  match m.store.queue with
  | [] => m
  | w :: _ =>
    let m := { m with store := m.store.finish ok }
    match w.owner with
    | .debounced => m
    | .caller _ => { m with persistFailed := !ok }
    | .timer id => { m.finishTask id with persistFailed := !ok }

def step (config : UniFiClientConfig) (text : Text) (m : EventLoop) : Event → EventLoop
  | .tick now => { m with clock := max m.clock now }
  | .call wall method => m.take config text wall method
  | .wake wall id => m.wake config text wall id
  | .flush =>
    { m with store := m.store.flush .debounced (Coordinator.buildPersistData text m.coord) }
  | .writeEnd ok => m.writeEnd ok
  | .cancelCaller n => { m with store := m.store.drop (· == Owner.caller n) }

/-! ## The coordinator inside -/

@[simp] theorem cancel_coord (m : EventLoop) (id : Nat) : (m.cancel id).coord = m.coord := by
  unfold cancel
  split
  · rfl
  · split <;> rfl

@[simp] theorem cancelRegistered_coord (m : EventLoop) (c : Category) :
    (m.cancelRegistered c).coord = m.coord := by
  unfold cancelRegistered
  split
  · rfl
  · exact cancel_coord _ _

section

variable {config : UniFiClientConfig} {text : Text}

@[simp] theorem perform_coord (owner : Owner) (m : EventLoop) (call : Call) :
    (perform config text owner m call).coord = m.coord := by
  cases call with
  | scheduleClear c => exact cancelRegistered_coord m c
  | cancelClear c => exact cancelRegistered_coord m c
  | _ => rfl

@[simp] theorem performAll_coord (owner : Owner) (calls : List Call) (m : EventLoop) :
    (performAll config text owner m calls).coord = m.coord := by
  induction calls generalizing m with
  | nil => rfl
  | cons call calls ih => exact (ih _).trans (perform_coord owner m call)

theorem performAll_persist (owner : Owner) (calls : List Call) (m : EventLoop) :
    performAll config text owner m (calls ++ [.persist]) =
      (performAll config text owner m calls).persist text owner := by
  unfold performAll
  rw [List.foldl_append]
  rfl

/-- The task wakes up to run the rest of `_auto_clear`. -/
def Expires (m : EventLoop) (id : Nat) (task : ClearTask) : Prop :=
  m.tasks id = some task ∧ task.cancelled = false ∧ task.phase = .sleeping ∧ task.due ≤ m.clock

theorem wake_of_expires {m : EventLoop} {id : Nat} {task : ClearTask} (h : m.Expires id task)
    (wall : Instant) : m.wake config text wall id = m.expire config text wall id task := by
  obtain ⟨htask, hcancelled, hphase, hdue⟩ := h
  simp [wake, htask, hcancelled, hphase, hdue]

/-- Otherwise a task that wakes up ends with its cancellation, or goes on waiting. -/
theorem wake_of_not_expires {m : EventLoop} {id : Nat} (h : ∀ task, ¬m.Expires id task)
    (wall : Instant) : m.wake config text wall id = m ∨
      ∃ task, m.tasks id = some task ∧ task.cancelled = true ∧
        m.wake config text wall id = m.setTask id { task with phase := .done } := by
  unfold wake
  cases htask : m.tasks id with
  | none => exact Or.inl rfl
  | some task =>
      dsimp only
      by_cases hcancelled : task.cancelled = true
      · rw [if_pos hcancelled]
        exact Or.inr ⟨task, rfl, hcancelled, rfl⟩
      · rw [if_neg hcancelled]
        refine Or.inl ?_
        split
        · rename_i hphase
          have hdue : ¬task.due ≤ m.clock := fun hdue =>
            h task ⟨htask, by simpa using hcancelled, hphase, hdue⟩
          rw [if_neg hdue]
        · rfl

theorem finishTask_coord (m : EventLoop) (id : Nat) : (m.finishTask id).coord = m.coord := by
  unfold finishTask
  split <;> rfl

theorem finishTask_store (m : EventLoop) (id : Nat) : (m.finishTask id).store = m.store := by
  unfold finishTask
  split <;> rfl

theorem writeEnd_store (m : EventLoop) (ok : Bool) :
    (m.writeEnd ok).store = m.store.finish ok := by
  unfold writeEnd Store.finish
  cases m.store.queue with
  | nil => rfl
  | cons w rest =>
      dsimp only
      split
      · rfl
      · rfl
      · exact finishTask_store _ _

theorem writeEnd_idle {m : EventLoop} (h : m.store.queue = []) (ok : Bool) :
    m.writeEnd ok = m := by
  unfold writeEnd
  rw [h]

/-- The repair issue follows the writes that somebody awaits. -/
theorem writeEnd_persistFailed {m : EventLoop} {ok : Bool} {w : Write Owner JsonObj}
    {rest : List (Write Owner JsonObj)} (hqueue : m.store.queue = w :: rest) :
    (m.writeEnd ok).persistFailed = if w.owner = .debounced then m.persistFailed else !ok := by
  unfold writeEnd
  rw [hqueue]
  dsimp only
  cases w.owner <;> rfl

theorem writeEnd_coord (m : EventLoop) (ok : Bool) : (m.writeEnd ok).coord = m.coord := by
  unfold writeEnd
  split
  · rfl
  · dsimp only
    split
    · rfl
    · rfl
    · exact finishTask_coord _ _

/-- An event takes the coordinator along at most one of its steps, with the
alerts that the event carries. -/
theorem step_coord (m : EventLoop) (e : Event) :
    ∃ ts : List TimedOp, (∀ t ∈ ts, t.op.alerts = e.alerts) ∧
      (m.step config text e).coord = run (Coordinator.step config) m.coord ts := by
  cases e with
  | call wall method =>
      exact ⟨[⟨⟨wall, m.clock⟩, method.op⟩], by simp [Event.alerts], performAll_coord _ _ _⟩
  | wake wall id =>
      by_cases hexpires : ∃ task, m.Expires id task
      · obtain ⟨task, htask⟩ := hexpires
        refine ⟨[⟨⟨wall, m.clock⟩, .autoClear task.category⟩],
          by simp [Event.alerts, Op.alerts], ?_⟩
        rw [step, wake_of_expires htask]
        exact performAll_coord _ _ _
      · refine ⟨[], by simp, ?_⟩
        rcases @wake_of_not_expires config text m id (fun task h => hexpires ⟨task, h⟩) wall with
          h | ⟨task, -, -, h⟩
        · rw [step, h]
          rfl
        · rw [step, h]
          rfl
  | writeEnd ok => exact ⟨[], by simp, writeEnd_coord m ok⟩
  | tick now => exact ⟨[], by simp, rfl⟩
  | flush => exact ⟨[], by simp, rfl⟩
  | cancelCaller n => exact ⟨[], by simp, rfl⟩

/-- Every interleaving on the loop is an interleaving of the coordinator. -/
theorem run_coord (es : List Event) (m : EventLoop) :
    ∃ ts, (run (step config text) m es).coord = run (Coordinator.step config) m.coord ts :=
  @run_simulates _ _ _ _ _ _ EventLoop.coord
    (fun m e => (step_coord m e).imp fun _ h => h.2) es m

end

end EventLoop

end UnifiAlerts
