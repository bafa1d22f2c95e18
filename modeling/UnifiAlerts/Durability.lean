import UnifiAlerts.Timers

/-!
# Durable watermarks

Whatever is about to reach the file holds the current watermarks: that
is the invariant `Secured`, kept by every event that loses no write. The
events that can lose one are a poll that raises a category whose
auto-clear task is suspended in its write, a cancelled caller, and a
debounced write that fails; `Spares` says that such an event leaves
something else to hold the watermarks.

`Durable` asks of a file that it holds what memory does. In between, a
write may be waiting for the lock or for its delay, so the invariant is
about the contents that the file will hold when the queue has drained
(`Lib.Store.newest`), and about the debounced flag beside it. An event
that takes a write out of the queue without doing it keeps the invariant
exactly when what is left still gives the current watermarks, and that
is the condition on runs.
-/

namespace UnifiAlerts

open Py Lib

/-! ## Watermarks in a file -/

theorem lookup_map_key {α : Type} {key : α → String} (hkey : Function.Injective key)
    (f : α → Json) {a : α} :
    ∀ {as : List α}, a ∈ as → (as.map fun b => (key b, f b)).lookup (key a) = some (f a)
  | b :: bs, hmem => by
      rw [List.map_cons, List.lookup_cons]
      by_cases hab : key a = key b
      · rw [hkey hab]
        simp
      · have hne : (key a == key b) = false := beq_eq_false_iff_ne.mpr hab
        rw [hne]
        refine lookup_map_key hkey f ((List.mem_cons.mp hmem).resolve_left fun heq => hab ?_)
        rw [heq]

/-- The watermark that the file has for the category, as it is stored. -/
def storedWatermark (file : JsonObj) (c : Category) : Json :=
  match JsonObj.get file c.name with
  | .obj entry => JsonObj.get entry "last_cleared_at"
  | .str stamp => .str stamp
  | _ => .null

def watermarkStamp (text : Text) (watermark : Option DateTime) : Json :=
  match watermark with
  | some w => .str (text.isoformat w)
  | none => .null

/-- The file has the current watermark of every category, in the form in which a load
reads it back. -/
def Holds (text : Text) (file : JsonObj) (coord : Coordinator) : Prop :=
  ∀ c, storedWatermark file c = watermarkStamp text (coord.states c).lastClearedAt

namespace Holds

variable {text : Text}

theorem build (text : Text) (coord : Coordinator) :
    Holds text (Coordinator.buildPersistData text coord) coord := by
  intro c
  have hentry : JsonObj.get (Coordinator.buildPersistData text coord) c.name =
      Coordinator.persistEntry text (coord.states c) := by
    rw [JsonObj.get, JsonObj.getD, Coordinator.buildPersistData,
      lookup_map_key Category.name_injective _ (Category.mem_all c)]
    rfl
  rw [storedWatermark, hentry, Coordinator.persistEntry]
  cases hw : (coord.states c).lastClearedAt <;> cases hh : (coord.states c).lastWebhookAt <;>
    simp [JsonObj.get, JsonObj.getD, List.lookup_cons, watermarkStamp]

theorem congr {file : JsonObj} {coord coord' : Coordinator}
    (h : ∀ c, (coord'.states c).lastClearedAt = (coord.states c).lastClearedAt) :
    Holds text file coord' ↔ Holds text file coord := by
  simp only [Holds, h]

theorem fresh (text : Text) (config : UniFiClientConfig) : Holds text [] (.fresh config) :=
  fun _ => rfl

end Holds

namespace EventLoop

/-! ## The invariant -/

/-- A debounced write is scheduled, or the file will hold the watermarks once
the queue has drained, or the repair issue will still be there then. -/
def Secured (text : Text) (coord : Coordinator) (persistFailed : Bool)
    (store : Store Owner JsonObj) : Prop :=
  store.scheduled = true ∨ Holds text store.newest coord ∨
    persistFailed = true ∧ ∀ w ∈ store.queue, w.owner = .debounced

/-- Once nothing is waiting to be written, the file has the current watermarks, or the
issue says that a write has failed. -/
def Durable (text : Text) (m : EventLoop) : Prop :=
  m.store.scheduled = false → m.store.queue = [] →
    Holds text m.store.file m.coord ∨ m.persistFailed = true

/-- `Secured`, of the store and the issue of a coordinator on its loop. -/
def SecuredLoop (text : Text) (m : EventLoop) : Prop :=
  Secured text m.coord m.persistFailed m.store

theorem SecuredLoop.durable {text : Text} {m : EventLoop} (h : SecuredLoop text m) :
    Durable text m := by
  intro hscheduled hqueue
  rcases h with h | h | h
  · rw [hscheduled] at h
    cases h
  · rw [Store.newest_of_idle hqueue] at h
    exact Or.inl h
  · exact Or.inr h.1

/-! ## The events that can lose a write -/

/-- The owner is the auto-clear task that `_schedule_clear` would cancel. -/
def cancels (m : EventLoop) (c : Category) (owner : Owner) : Bool :=
  match m.clearTasks c with
  | some id => owner == .timer id && (m.tasks id).any fun task => task.phase != .done
  | none => false

/-- The store without the writes that the event drops, or that fail with
nobody to see it. -/
def afterLoss (config : UniFiClientConfig) (m : EventLoop) : Event → Store Owner JsonObj
  | .call _ (.poll categorised) => m.store.drop fun owner => allCategories.any fun c =>
    (Coordinator.applyPoll config categorised m.coord).calls.contains (.scheduleClear c) &&
      m.cancels c owner
  | .cancelCaller n => m.store.drop (· == Owner.caller n)
  | .writeEnd false => match m.store.queue with
    | w :: _ => if w.owner = .debounced then m.store.finish false else m.store
    | [] => m.store
  | _ => m.store

/-- If the event loses a write, something else holds the watermarks: the file, a write
that is still to come, or the issue for the user. -/
def Spares (config : UniFiClientConfig) (text : Text) (m : EventLoop) (e : Event) : Prop :=
  (m.afterLoss config e).queue ≠ m.store.queue →
    Secured text m.coord m.persistFailed (m.afterLoss config e)

variable {config : UniFiClientConfig} {text : Text}

/-- An event that loses nothing leaves the store of its loss as it is. -/
theorem afterLoss_of_queue {m : EventLoop} {e : Event}
    (h : (m.afterLoss config e).queue = m.store.queue) : m.afterLoss config e = m.store := by
  unfold afterLoss at h ⊢
  split
  · exact Store.drop_eq_self h
  · exact Store.drop_eq_self h
  · cases hqueue : m.store.queue with
    | nil => rfl
    | cons w rest =>
        simp only [hqueue] at h ⊢
        split
        · rename_i hdebounced
          rw [if_pos hdebounced, Store.queue_finish, hqueue] at h
          exact absurd (congrArg List.length h) (by simp)
        · rfl
  · rfl

/-- So a spared loss leaves the watermarks secured in either case. -/
theorem Spares.secured {m : EventLoop} {e : Event} (h : Spares config text m e)
    (hm : SecuredLoop text m) : Secured text m.coord m.persistFailed (m.afterLoss config e) := by
  by_cases hqueue : (m.afterLoss config e).queue = m.store.queue
  · rw [afterLoss_of_queue hqueue]
    exact hm
  · exact h hqueue

/-! ## The store after a poll -/

theorem cancelRegistered_store (m : EventLoop) (c : Category) :
    (m.cancelRegistered c).store = m.store.drop (m.cancels c) := by
  unfold cancelRegistered cancels
  cases m.clearTasks c with
  | none => exact (Store.drop_of_none fun _ _ => rfl).symm
  | some id =>
      dsimp only
      unfold cancel
      cases htask : m.tasks id with
      | none => exact (Store.drop_of_none fun _ _ => by simp).symm
      | some task =>
          dsimp only
          split
          · rename_i hdone
            exact (Store.drop_of_none fun _ _ => by simp [hdone]).symm
          · rename_i hdone
            dsimp only
            exact Store.drop_congr fun w _ => by simp [hdone]

/-- A schedule replaces the task of its own category only. -/
theorem cancels_scheduleClear {m : EventLoop} (h : TasksInv m) (c d : Category)
    {w : Write Owner JsonObj} (hw : w ∈ m.store.queue) (hc : m.cancels c w.owner = false) :
    (m.scheduleClear config c).cancels d w.owner = m.cancels d w.owner := by
  have hnew : w.owner ≠ .timer (m.cancelRegistered c).nextTask := by
    intro howner
    obtain ⟨task, htask, -⟩ := h.suspended w hw _ howner
    have hlt := h.bounded _ task htask
    have hsame : (m.cancelRegistered c).nextTask = m.nextTask := by
      unfold cancelRegistered
      split <;> simp
    omega
  by_cases hdc : d = c
  · subst hdc
    rw [hc]
    have hreg : (m.scheduleClear config d).clearTasks d = some (m.cancelRegistered d).nextTask :=
      Function.update_self _ _ _
    unfold cancels
    rw [hreg]
    simp [hnew]
  · have hreg : (m.scheduleClear config c).clearTasks d = m.clearTasks d := by
      simp only [scheduleClear]
      rw [Function.update_of_ne hdc]
      exact congrFun (cancelRegistered_clearTasks m c) d
    unfold cancels
    rw [hreg]
    cases hid : m.clearTasks d with
    | none => rfl
    | some id =>
        have htasks : (m.scheduleClear config c).tasks id = m.tasks id := by
          obtain ⟨task, htask, -⟩ := h.owned d id hid
          have hsame := cancelRegistered_tasks h hid (Ne.symm hdc)
          have hne := ((h.cancelRegistered c).bounded id task (hsame.trans htask)).ne
          simp only [scheduleClear]
          rw [setTask_tasks, if_neg hne]
          exact hsame
        dsimp only
        rw [htasks]

theorem store_scheduleClears (owner : Owner) :
    ∀ (cs : List Category) {m : EventLoop}, TasksInv m →
      (performAll config text owner m (cs.map .scheduleClear)).store =
        m.store.drop fun o => cs.any fun c => m.cancels c o
  | [], m, _ => (Store.drop_of_none fun _ _ => rfl).symm
  | c :: cs, m, h => by
      have hc : TasksInv (m.scheduleClear config c) := h.scheduleClear c
      have hstore : (m.scheduleClear config c).store = m.store.drop (m.cancels c) :=
        cancelRegistered_store m c
      show (performAll config text owner (m.scheduleClear config c)
        (cs.map .scheduleClear)).store = _
      rw [store_scheduleClears owner cs hc, hstore, Store.drop_drop]
      refine Store.drop_congr fun w hw => ?_
      rw [List.any_cons]
      cases hlost : m.cancels c w.owner with
      | true => rfl
      | false =>
          have hsame : ∀ d, (m.scheduleClear config c).cancels d w.owner = m.cancels d w.owner :=
            fun d => cancels_scheduleClear h c d hw hlost
          simp only [hsame]

theorem poll_store {m : EventLoop} (h : TasksInv m) (wall : Instant) (categorised : Categorised) :
    (m.step config text (.call wall (.poll categorised))).store =
      m.afterLoss config (.call wall (.poll categorised)) := by
  obtain ⟨cs, hcs⟩ := Coordinator.applyPoll_calls config categorised m.coord
  have hstart : TasksInv { m with
      coord := (Coordinator.applyPoll config categorised m.coord).coord
      nextCaller := m.nextCaller + 1 } := ⟨h.bounded, h.registered, h.owned, h.suspended⟩
  simp only [step, take, Coordinator.turn, Method.op, afterLoss]
  rw [hcs, store_scheduleClears _ cs hstart]
  refine Store.drop_congr fun w _ => ?_
  rw [Bool.eq_iff_iff]
  simp only [List.any_eq_true, Bool.and_eq_true, List.contains_iff_mem, List.mem_map]
  constructor
  · rintro ⟨c, hc, hlost⟩
    exact ⟨c, Category.mem_all c, ⟨c, hc, rfl⟩, hlost⟩
  · rintro ⟨c, -, ⟨d, hd, heq⟩, hlost⟩
    obtain rfl := Call.scheduleClear.inj heq
    exact ⟨d, hd, hlost⟩

/-! ## One event -/

theorem scheduled_cancelRegistered (m : EventLoop) (c : Category) :
    (m.cancelRegistered c).store.scheduled = m.store.scheduled := by
  rw [cancelRegistered_store]
  rfl

/-- A push that schedules the debounced write leaves it scheduled. -/
theorem push_scheduled {m : EventLoop} {category : String} {alert : UniFiAlert} (owner : Owner) :
    (Coordinator.pushAlert config m.coord m.clock category alert).calls = [] ∨
    ∀ m' : EventLoop, (performAll config text owner m'
      (Coordinator.pushAlert config m.coord m.clock category alert).calls).store.scheduled =
        true := by
  unfold Coordinator.pushAlert
  split
  · exact Or.inl rfl
  · exact Or.inr fun m' => rfl
  · rename_i c _
    dsimp only
    split
    · exact Or.inl rfl
    · exact Or.inr fun m' => scheduled_cancelRegistered _ c
  · exact Or.inl rfl

theorem persistFailed_perform (owner : Owner) (m : EventLoop) (call : Call) :
    (perform config text owner m call).persistFailed = m.persistFailed := by
  have hcancel : ∀ c, (m.cancelRegistered c).persistFailed = m.persistFailed := by
    intro c
    unfold cancelRegistered
    split
    · rfl
    · rename_i id _
      rcases cancel_spec m id with ⟨h, -⟩ | ⟨task, -, h⟩
      · rw [h]
      · rw [h]
        rfl
  cases call with
  | scheduleClear c => exact hcancel c
  | cancelClear c => exact hcancel c
  | _ => rfl

theorem persistFailed_performAll (owner : Owner) (calls : List Call) (m : EventLoop) :
    (performAll config text owner m calls).persistFailed = m.persistFailed := by
  induction calls generalizing m with
  | nil => rfl
  | cons call calls ih => exact (ih _).trans (persistFailed_perform owner m call)

/-- A method other than a poll secures the watermarks, or leaves them and the
store alone. -/
theorem secured_take {m : EventLoop} (hm : SecuredLoop text m) {method : Method}
    (hmethod : ∀ categorised, method ≠ .poll categorised) (wall : Instant) :
    SecuredLoop text (m.take config text wall method) := by
  have hsame : ∀ coord : Coordinator,
      (∀ c, (coord.states c).lastClearedAt = (m.coord.states c).lastClearedAt) →
      SecuredLoop text { m with coord, nextCaller := m.nextCaller + 1 } := by
    intro coord hwatermarks
    exact hm.imp_right fun h => h.imp_left (Holds.congr hwatermarks).mpr
  have hbuild : ∀ (calls : List Call) (m' : EventLoop), SecuredLoop text
      (performAll config text (.caller m.nextCaller) m' (calls ++ [.persist])) := by
    intro calls m'
    refine Or.inr (Or.inl ?_)
    rw [performAll_persist, persist, Store.newest_save]
    exact .build text _
  cases method with
  | poll categorised => exact absurd rfl (hmethod categorised)
  | fetch net =>
      refine hsame _ fun c => ?_
      simp only [Coordinator.turn, Method.op, Coordinator.fetch_states]
  | push category alert =>
      rcases @push_scheduled config text m category alert (.caller m.nextCaller) with hnone | hall
      · simp only [take, Coordinator.turn, Method.op, hnone]
        exact hsame _ fun c =>
          (Coordinator.pushAlert_moves config m.coord m.clock category alert c).lastClearedAt
      · exact Or.inl (hall _)
  | clearCategory category =>
      simp only [take, Coordinator.turn, Method.op, Coordinator.clearCategory]
      split
      · exact hsame _ fun c => rfl
      · rename_i c _
        exact hbuild [.cancelClear c] _
  | clearAll => exact hbuild _ _

theorem secured_wake {m : EventLoop} (hm : SecuredLoop text m) (wall : Instant) (id : Nat) :
    SecuredLoop text (m.wake config text wall id) := by
  rcases @wake_cases config text m wall id with heq | ⟨task, -, -, heq⟩ | ⟨task, -, -, heq⟩
  · rw [heq]
    exact hm
  · rw [heq]
    exact hm
  · rw [heq]
    refine Or.inr (Or.inl ?_)
    rw [persist, Store.newest_save]
    exact .build text _

/-- A write that ends well keeps the watermarks exactly as secured as they were. -/
theorem secured_writeEnd_true {m : EventLoop} :
    SecuredLoop text (m.writeEnd true) ↔ SecuredLoop text m := by
  unfold SecuredLoop Secured
  rw [writeEnd_store, writeEnd_coord, Store.newest_finish_true, Store.scheduled_finish]
  refine or_congr Iff.rfl (or_congr Iff.rfl ?_)
  cases hqueue : m.store.queue with
  | nil =>
      rw [writeEnd_idle hqueue, Store.queue_finish, hqueue]
      rfl
  | cons w rest =>
      rw [writeEnd_persistFailed hqueue, Store.queue_finish, hqueue]
      by_cases hdebounced : w.owner = .debounced
      · simp [hdebounced]
      · simp [hdebounced]

theorem secured_writeEnd_false {m : EventLoop} (hm : SecuredLoop text m)
    (hspares : Spares config text m (.writeEnd false)) : SecuredLoop text (m.writeEnd false) := by
  have hloss := hspares.secured hm
  unfold SecuredLoop
  rw [writeEnd_coord, writeEnd_store]
  cases hqueue : m.store.queue with
  | nil =>
      rw [writeEnd_idle hqueue, Store.finish_idle hqueue]
      exact hm
  | cons w rest =>
      rw [writeEnd_persistFailed hqueue]
      by_cases hdebounced : w.owner = .debounced
      · rw [if_pos hdebounced]
        simpa [afterLoss, hqueue, hdebounced] using hloss
      · -- somebody awaited the write, so the issue is raised
        rw [if_neg hdebounced]
        rcases hm with hscheduled | hholds | ⟨-, hall⟩
        · exact Or.inl (by rw [Store.scheduled_finish]; exact hscheduled)
        · cases rest with
          | nil => exact Or.inr (Or.inr ⟨rfl, by simp [hqueue]⟩)
          | cons v rest =>
              exact Or.inr (Or.inl (by rw [Store.newest_finish_false hqueue]; exact hholds))
        · exact absurd (hall w (by simp [hqueue])) hdebounced

theorem secured_step {m : EventLoop} (h : TasksInv m) (hm : SecuredLoop text m) {e : Event}
    (hspares : Spares config text m e) : SecuredLoop text (m.step config text e) := by
  cases e with
  | tick now => exact hm
  | wake wall id => exact secured_wake hm wall id
  | flush =>
      simp only [step, Store.flush]
      split
      · exact Or.inr (Or.inl (by rw [Store.newest_save]; exact .build text m.coord))
      · exact hm
  | cancelCaller n => exact hspares.secured hm
  | writeEnd ok =>
      cases ok with
      | true => exact secured_writeEnd_true.mpr hm
      | false => exact secured_writeEnd_false hm hspares
  | call wall method =>
      by_cases hpoll : ∃ categorised, method = .poll categorised
      · obtain ⟨categorised, rfl⟩ := hpoll
        have hloss := hspares.secured hm
        unfold SecuredLoop
        rw [poll_store h]
        have hfailed : (m.step config text (.call wall (.poll categorised))).persistFailed =
            m.persistFailed := persistFailed_performAll _ _ _
        have hcoord : (m.step config text (.call wall (.poll categorised))).coord =
            (Coordinator.applyPoll config categorised m.coord).coord := performAll_coord _ _ _
        rw [hfailed, hcoord]
        exact hloss.imp_right fun hl => hl.imp_left (Holds.congr fun c =>
          (Coordinator.applyPoll_moves config categorised m.coord c).lastClearedAt).mpr
      · exact secured_take hm (fun categorised heq => hpoll ⟨categorised, heq⟩) wall

/-! ## Every run -/

/-- In every state of the run the watermarks are durable, and they are once any
number of the writes that are still waiting there have succeeded. -/
def DurableRun (config : UniFiClientConfig) (text : Text) (m : EventLoop) (es : List Event) :
    Prop :=
  ∀ pre post, es = pre ++ post → ∀ n,
    Durable text (run (step config text) m (pre ++ List.replicate n (.writeEnd true)))

/-- What is not secured is lost for good when the writes drain. -/
theorem not_durable_drained :
    ∀ {n : Nat} {m : EventLoop}, m.store.queue.length = n → ¬SecuredLoop text m →
      ¬Durable text (run (step config text) m (List.replicate n (.writeEnd true)))
  | 0, m, hlen, hm => fun hdurable => by
      have hqueue : m.store.queue = [] := List.eq_nil_of_length_eq_zero hlen
      cases hscheduled : m.store.scheduled with
      | true => exact hm (Or.inl hscheduled)
      | false =>
          rcases hdurable hscheduled hqueue with hholds | hfailed
          · exact hm (Or.inr (Or.inl (by rw [Store.newest_of_idle hqueue]; exact hholds)))
          · exact hm (Or.inr (Or.inr ⟨hfailed, by simp [hqueue]⟩))
  | n + 1, m, hlen, hm => by
      rw [List.replicate_succ, run_cons]
      refine not_durable_drained ?_ fun hnext => hm (secured_writeEnd_true.mp hnext)
      show (m.writeEnd true).store.queue.length = n
      rw [writeEnd_store, Store.queue_finish, List.length_tail, hlen]
      rfl

/-- After an event the watermarks are secured exactly as its loss leaves them. -/
theorem secured_step_of_loss {m : EventLoop} (h : TasksInv m) {e : Event}
    (hloss : (m.afterLoss config e).queue ≠ m.store.queue)
    (hm : SecuredLoop text (m.step config text e)) :
    Secured text m.coord m.persistFailed (m.afterLoss config e) := by
  cases e with
  | call wall method =>
      cases method with
      | poll categorised =>
          unfold SecuredLoop at hm
          rw [poll_store h] at hm
          have hfailed : (m.step config text (.call wall (.poll categorised))).persistFailed =
              m.persistFailed := persistFailed_performAll _ _ _
          have hcoord : (m.step config text (.call wall (.poll categorised))).coord =
              (Coordinator.applyPoll config categorised m.coord).coord := performAll_coord _ _ _
          rw [hfailed, hcoord] at hm
          exact hm.imp_right fun hl => hl.imp_left (Holds.congr fun c =>
            (Coordinator.applyPoll_moves config categorised m.coord c).lastClearedAt).mp
      | fetch net => exact absurd rfl hloss
      | push category alert => exact absurd rfl hloss
      | clearCategory category => exact absurd rfl hloss
      | clearAll => exact absurd rfl hloss
  | cancelCaller n => exact hm
  | writeEnd ok =>
      cases ok with
      | true => exact absurd rfl hloss
      | false =>
          cases hqueue : m.store.queue with
          | nil => simp [afterLoss, hqueue] at hloss
          | cons w rest =>
              by_cases hdebounced : w.owner = .debounced
              · change Secured text (m.writeEnd false).coord (m.writeEnd false).persistFailed
                  (m.writeEnd false).store at hm
                rw [writeEnd_coord, writeEnd_store, writeEnd_persistFailed hqueue,
                  if_pos hdebounced] at hm
                simpa [afterLoss, hqueue, hdebounced] using hm
              · simp [afterLoss, hqueue, hdebounced] at hloss
  | tick now => exact absurd rfl hloss
  | wake wall id => exact absurd rfl hloss
  | flush => exact absurd rfl hloss

theorem spares_writeEnd_true (m : EventLoop) : Spares config text m (.writeEnd true) :=
  fun h => absurd rfl h

theorem along_replicate (n : Nat) :
    ∀ m : EventLoop, Along (step config text) (Spares config text) m
      (List.replicate n (.writeEnd true)) := by
  induction n with
  | zero => exact fun _ => trivial
  | succ n ih => exact fun m => ⟨spares_writeEnd_true m, ih _⟩

end EventLoop

/-- Over every interleaving from a coordinator whose watermarks the file holds:
in every state of the run, now or once the waiting writes are through, no
watermark is silently unpersisted, exactly when every event that loses a write
spares the watermarks. -/
theorem watermarks_durable_iff (config : UniFiClientConfig) (text : Text) (coord : Coordinator)
    (file : JsonObj) (hfile : Holds text file coord) (es : List Event) :
    EventLoop.DurableRun config text (.start coord file) es ↔
      Along (EventLoop.step config text) (EventLoop.Spares config text) (.start coord file) es := by
  have hstart := EventLoop.tasksInv_start coord file
  constructor
  · intro hdurable
    rw [along_iff_split]
    intro pre e post hes hloss
    have htasks : EventLoop.TasksInv (run (EventLoop.step config text) (.start coord file) pre) :=
      hstart.run pre
    by_contra hlost
    have hnot : ¬EventLoop.SecuredLoop text
        (run (EventLoop.step config text) (.start coord file) (pre ++ [e])) := by
      rw [run_snoc]
      exact mt (EventLoop.secured_step_of_loss htasks hloss) hlost
    have hdrained := hdurable (pre ++ [e]) post (by simp [hes])
      (run (EventLoop.step config text) (.start coord file) (pre ++ [e])).store.queue.length
    rw [run_append] at hdrained
    exact EventLoop.not_durable_drained rfl hnot hdrained
  · intro halong pre post hes n
    rw [hes, Along.append] at halong
    have hall : Along (EventLoop.step config text) (EventLoop.Spares config text)
        (.start coord file) (pre ++ List.replicate n (.writeEnd true)) :=
      Along.append.mpr ⟨halong.1, EventLoop.along_replicate n _⟩
    have hinv := @run_preserves_along _ _ (EventLoop.step config text)
      (EventLoop.Spares config text)
      (fun m : EventLoop => m.TasksInv ∧ EventLoop.SecuredLoop text m)
      (fun m e hm hspares => ⟨hm.1.step e, EventLoop.secured_step hm.1 hm.2 hspares⟩) _ _
      ⟨hstart, Or.inr (Or.inl hfile)⟩ hall
    exact hinv.2.durable

/-- An auto-clear that writes undisturbed. -/
theorem watermarks_durable_auto_clear :
    let alert : UniFiAlert := { category := "power", message := "PoE lost", receivedAt := .aware 0 }
    EventLoop.DurableRun {} (.counting fun _ => none) (.start (.fresh {}) [])
      [.call 0 (.push "power" alert), .tick 3600, .wake 3600 0, .writeEnd true] :=
  (watermarks_durable_iff {} (.counting fun _ => none) (.fresh {}) [] (.fresh _ {}) _).mpr
    ⟨fun h => absurd rfl h, fun h => absurd rfl h, fun h => absurd rfl h, fun h => absurd rfl h,
      trivial⟩

/-- The auto-clear of the power category is suspended in its write when a poll
raises the category again: the write never happens, and nobody is told. -/
theorem watermark_lost_by_poll :
    let alert : UniFiAlert := { category := "power", message := "PoE lost", receivedAt := .aware 0 }
    ¬EventLoop.DurableRun {} (.counting fun _ => none) (.start (.fresh {}) [])
      [.call 0 (.push "power" alert), .flush, .writeEnd true, .tick 3600, .wake 3600 0,
        .call 3601 (.poll [("power", [{ alert with receivedAt := .aware 3601 }])])] := by
  intro alert h
  have hquiet := h _ [] (List.append_nil _).symm 0 (by decide +kernel) (by decide +kernel)
  rcases hquiet with hholds | hfailed
  · exact absurd (congrArg Json.truthy (hholds .power)) (by decide +kernel)
  · exact absurd hfailed (by decide +kernel)

end UnifiAlerts
