import UnifiAlerts.Persist
import UnifiAlerts.Durability

/-!
# Reloading the config entry

The old coordinator runs on its event loop over a store whose awaited
writes are immediate (`stepNow`). `async_unload_entry` cancels its
auto-clear tasks (`shutdown`), possibly with more pushes before and
after; then a new coordinator loads the file. The file is up to date
unless a debounced write is scheduled (`Current`), so a reload loses
nothing exactly when none is scheduled and no timer of an alert is left
at that moment.

What a reload must keep is what a store can hold (`SameStored`): the
watermark, the alert count, the webhook time and the last alert of each
category. Pushes that arrive while the entry is unloaded are events of
the old coordinator like any other.

The invariant of the loop, `Current`, says which of file and memory is
ahead. With immediate writes the two can differ only while a debounced
write is scheduled, and unloading cancels tasks without writing.
-/

namespace UnifiAlerts

open Py Lib

/-! ## What a file restores -/

namespace UniFiAlert

/-- An alert that comes back from the store as it was. -/
def Plain (alert : UniFiAlert) : Prop := alert.Regular ∧ alert.withoutRaw = alert

theorem plain_fromWebhookPayload {text : Text} {now : Instant} {category : String}
    {payload : Json} {alert : UniFiAlert}
    (h : fromWebhookPayload text now category payload = .ok alert) : alert.Plain := by
  refine ⟨regular_fromWebhookPayload h, ?_⟩
  obtain ⟨p, -, h⟩ := bind_eq_ok.mp h
  rw [← Except.ok.inj h]
  rfl

theorem aware_fromWebhookPayload {text : Text} {now : Instant} {category : String}
    {payload : Json} {alert : UniFiAlert}
    (h : fromWebhookPayload text now category payload = .ok alert) :
    alert.receivedAt.isAware = true := by
  obtain ⟨p, -, h⟩ := bind_eq_ok.mp h
  rw [← Except.ok.inj h]
  rfl

end UniFiAlert

/-- The four fields that the store keeps; the open count, the alert flag and what was
filtered start anew. -/
structure CategoryState.SameStored (st st' : CategoryState) : Prop where
  alertCount : st.alertCount = st'.alertCount
  lastAlert : st.lastAlert = st'.lastAlert
  lastClearedAt : st.lastClearedAt = st'.lastClearedAt
  lastWebhookAt : st.lastWebhookAt = st'.lastWebhookAt

/-- A new coordinator, with whatever options and at whatever time it loads the
file, takes over the stored fields of every category. -/
def Restores (text : Text) (file : JsonObj) (coord : Coordinator) : Prop :=
  ∀ config now, ∃ new, Coordinator.restoreWatermarks text now file (.fresh config) = .ok new ∧
    ∀ c, (new.states c).SameStored (coord.states c)

/-- Every last alert would come back from the store as it is. -/
def Coordinator.PlainAlerts (coord : Coordinator) : Prop :=
  ∀ c a, (coord.states c).lastAlert = some a → a.Plain

namespace Coordinator

theorem plainAlerts_fresh (config : UniFiClientConfig) : PlainAlerts (.fresh config) :=
  fun _ _ h => nomatch h

/-- Plain alerts that come in keep every active alert plain. -/
theorem PlainAlerts.step {config : UniFiClientConfig} {coord : Coordinator} (h : PlainAlerts coord)
    {t : TimedOp} (hplain : ∀ a ∈ t.op.alerts, a.Plain) :
    PlainAlerts (Coordinator.step config coord t) := by
  intro c a ha
  rcases step_state config coord t c with ⟨-, hst⟩ | ⟨-, hm⟩
  · rw [hst] at ha
    exact h c a ha
  · rcases hm.lastAlert with hsame | ⟨b, hb, hnew⟩
    · rw [hsame] at ha
      exact h c a ha
    · obtain rfl := Option.some.inj (hnew.symm.trans ha)
      exact hplain b hb

end Coordinator

namespace Restores

variable {text : Text}

theorem build (text : Text) {coord : Coordinator} (h : coord.PlainAlerts) :
    Restores text (Coordinator.buildPersistData text coord) coord := by
  intro config now
  refine ⟨_, Coordinator.restore_build text now config coord, fun c => ⟨rfl, ?_, rfl, rfl⟩⟩
  show (coord.states c).lastAlert.bind _ = (coord.states c).lastAlert
  cases hlast : (coord.states c).lastAlert with
  | none => rfl
  | some a =>
      obtain ⟨hregular, hraw⟩ := h c a hlast
      show (UniFiAlert.fromDict text now (a.toDict text)).toOption = some a
      rw [UniFiAlert.fromDict_toDict hregular, hraw]
      rfl

theorem fresh (text : Text) (config : UniFiClientConfig) : Restores text [] (.fresh config) :=
  fun config' _ => ⟨.fresh config', rfl, fun _ => ⟨rfl, rfl, rfl, rfl⟩⟩

theorem congr {file : JsonObj} {coord coord' : Coordinator} (h : Restores text file coord)
    (hsame : ∀ c, (coord.states c).SameStored (coord'.states c)) : Restores text file coord' := by
  intro config now
  obtain ⟨new, hnew, hstored⟩ := h config now
  refine ⟨new, hnew, fun c => ?_⟩
  obtain ⟨h₁, h₂, h₃, h₄⟩ := hstored c
  obtain ⟨h₁', h₂', h₃', h₄'⟩ := hsame c
  exact ⟨h₁.trans h₁', h₂.trans h₂', h₃.trans h₃', h₄.trans h₄'⟩

end Restores

/-! ## The old coordinator -/

/-- A push as the webhook handler delivers it; polls stay out of the reload. -/
def Method.Delivered (text : Text) : Method → Prop
  | .push category alert => ∃ now payload,
    UniFiAlert.fromWebhookPayload text now category payload = .ok alert
  | .poll _ => False
  | _ => True

def Event.Delivered (text : Text) : Event → Prop
  | .call _ method => method.Delivered text
  | _ => True

/-- What goes on at an unloaded coordinator by itself. -/
def Event.Pending : Event → Prop
  | .tick _ => True
  | .wake _ _ => True
  | .flush => True
  | _ => False

namespace EventLoop

/-- An event with a store that writes immediately. -/
def stepNow (config : UniFiClientConfig) (text : Text) (m : EventLoop) (e : Event) : EventLoop :=
  (m.step config text e).step config text (.writeEnd true)

/-- `async_shutdown`. -/
def shutdown (m : EventLoop) : EventLoop := allCategories.foldl cancelClear m

/-- The old coordinator when the new one loads: events before the unload and
while its platforms unload, the shutdown, and events from then on. -/
def unload (config : UniFiClientConfig) (text : Text) (m : EventLoop)
    (before during : List Event) : EventLoop :=
  run (stepNow config text) (run (stepNow config text) m before).shutdown during

/-- No write of the unloaded coordinator is still to come. -/
def NoLateWrite (config : UniFiClientConfig) (text : Text) (m : EventLoop) : Prop :=
  ∀ es, (∀ e ∈ es, e.Pending) → (run (stepNow config text) m es).store.completed = m.store.completed

/-- No debounced write is scheduled, and no auto-clear task of an alerting
category sleeps on. -/
def Settled (m : EventLoop) : Prop :=
  m.store.scheduled = false ∧ ∀ id task, m.tasks id = some task → task.cancelled = false →
    task.phase = .sleeping → (m.coord.states task.category).isAlerting = false

variable {config : UniFiClientConfig} {text : Text}

/-! ### The file is up to date -/

/-- No write is suspended, and the file restores the coordinator unless a
debounced write is scheduled. -/
structure Current (text : Text) (m : EventLoop) : Prop where
  marks : m.coord.AwareMarks
  plain : m.coord.PlainAlerts
  idle : m.store.queue = []
  saved : m.store.scheduled = true ∨ Restores text m.store.file m.coord

theorem current_start (text : Text) {coord : Coordinator} {file : JsonObj}
    (hmarks : coord.AwareMarks) (hplain : coord.PlainAlerts) (hfile : Restores text file coord) :
    Current text (start coord file) := ⟨hmarks, hplain, rfl, Or.inr hfile⟩

/-- After an event a snapshot of this moment is being written, or nothing is
and the file is up to date unless a debounced write is scheduled. -/
def Issued (text : Text) (m : EventLoop) : Prop :=
  m.store.queue = [] ∧ (m.store.scheduled = true ∨ Restores text m.store.file m.coord) ∨
    ∃ owner, m.store.queue = [⟨owner, Coordinator.buildPersistData text m.coord⟩]

theorem current_writeEnd {m : EventLoop} (hmarks : m.coord.AwareMarks)
    (hplain : m.coord.PlainAlerts) (h : Issued text m) : Current text (m.writeEnd true) := by
  refine ⟨by rw [writeEnd_coord]; exact hmarks, by rw [writeEnd_coord]; exact hplain, ?_, ?_⟩
  · rw [writeEnd_store, Store.queue_finish]
    rcases h with ⟨h, -⟩ | ⟨owner, h⟩ <;> rw [h] <;> rfl
  · rw [writeEnd_coord, writeEnd_store, Store.scheduled_finish]
    rcases h with ⟨h, hsaved⟩ | ⟨owner, h⟩
    · rw [Store.finish_idle h]
      exact hsaved
    · refine Or.inr ?_
      have hfile : (m.store.finish true).file = Coordinator.buildPersistData text m.coord := by
        unfold Store.finish
        rw [h]
        rfl
      rw [hfile]
      exact .build text hplain

theorem idle_cancelRegistered {m : EventLoop} (h : m.store.queue = []) (c : Category) :
    (m.cancelRegistered c).store = m.store := by
  rw [cancelRegistered_store]
  exact Store.drop_of_none fun w hw => by
    rw [h] at hw
    cases hw

theorem idle_cancelClears (owner : Owner) :
    ∀ (cs : List Category) {m : EventLoop}, m.store.queue = [] →
      (performAll config text owner m (cs.map .cancelClear)).store = m.store
  | [], _, _ => rfl
  | c :: cs, m, h => by
      have hc : (m.cancelClear c).store = m.store := idle_cancelRegistered h c
      show (performAll config text owner (m.cancelClear c) (cs.map .cancelClear)).store = m.store
      rw [idle_cancelClears owner cs (by rw [hc]; exact h), hc]

theorem issued_persist {m : EventLoop} (h : m.store.queue = []) (owner : Owner)
    (cs : List Category) :
    Issued text (performAll config text owner m (cs.map .cancelClear ++ [.persist])) := by
  refine Or.inr ⟨owner, ?_⟩
  rw [performAll_persist]
  simp only [persist, Store.save, idle_cancelClears owner cs h, h, List.nil_append,
    performAll_coord]

/-! ### One event -/

theorem delivered_alerts {e : Event} (he : e.Delivered text) {a : UniFiAlert}
    (ha : a ∈ e.alerts) : a.Plain ∧ a.receivedAt.isAware = true := by
  cases e with
  | call wall method =>
      cases method with
      | push category alert =>
          obtain ⟨now, payload, halert⟩ := he
          obtain rfl := List.mem_singleton.mp ha
          exact ⟨UniFiAlert.plain_fromWebhookPayload halert,
            UniFiAlert.aware_fromWebhookPayload halert⟩
      | poll categorised => exact he.elim
      | fetch net => cases ha
      | clearCategory category => cases ha
      | clearAll => cases ha
  | tick now => cases ha
  | wake wall id => cases ha
  | flush => cases ha
  | writeEnd ok => cases ha
  | cancelCaller n => cases ha

theorem plainAlerts_step {m : EventLoop} (hplain : m.coord.PlainAlerts) {e : Event}
    (he : e.Delivered text) : (m.step config text e).coord.PlainAlerts := by
  obtain ⟨ts, halerts, hts⟩ := @step_coord config text m e
  rw [hts]
  have hrun := @run_preserves_labels _ _ (Coordinator.step config)
    (fun t : TimedOp => t.op.alerts = e.alerts)
    Coordinator.PlainAlerts
    (fun coord t h ht => h.step fun a ha => (delivered_alerts he (ht ▸ ha)).1)
    m.coord hplain ts halerts
  exact hrun

/-- A push schedules a debounced write, or has changed nothing. -/
theorem push_stored {coord : Coordinator} (hmarks : coord.AwareMarks) {mono : ℚ}
    {category : String} {alert : UniFiAlert} (haware : alert.receivedAt.isAware = true) :
    let turn := Coordinator.pushAlert config coord mono category alert
    (turn.calls = [] ∧ turn.coord = coord) ∨ turn.calls = [.schedulePersist] ∨
      ∃ c, turn.calls = [.schedulePersist, .scheduleClear c, .notify] := by
  intro turn
  cases hverdict : Coordinator.pushVerdict config coord mono category alert with
  | error e => exact Or.inl (by simp only [turn, Coordinator.pushAlert, hverdict, and_self])
  | ok verdict =>
      cases verdict with
      | accepted c =>
          exact Or.inr (Or.inr ⟨c, Coordinator.pushAlert_calls_of_accepted hmarks haware hverdict⟩)
      | filtered c =>
          exact Or.inr (Or.inl (by simp only [turn, Coordinator.pushAlert, hverdict]))
      | unknown => exact Or.inl (by simp only [turn, Coordinator.pushAlert, hverdict, and_self])
      | disabled => exact Or.inl (by simp only [turn, Coordinator.pushAlert, hverdict, and_self])
      | duplicate c => exact Or.inl (by simp only [turn, Coordinator.pushAlert, hverdict, and_self])

theorem issued_take {m : EventLoop} (h : Current text m) {method : Method}
    (hmethod : method.Delivered text) (wall : Instant) :
    Issued text (m.take config text wall method) := by
  have hsame : ∀ (coord : Coordinator) (n : Nat),
      (∀ c, (m.coord.states c).SameStored (coord.states c)) →
      Issued text { m with coord, nextCaller := n } := fun coord n hstates =>
    Or.inl ⟨h.idle, h.saved.imp_right fun hfile => hfile.congr hstates⟩
  cases method with
  | poll categorised => exact hmethod.elim
  | fetch net =>
      refine hsame _ _ fun c => ?_
      simp only [Coordinator.turn, Method.op, Coordinator.fetch_states]
      exact ⟨rfl, rfl, rfl, rfl⟩
  | push category alert =>
      obtain ⟨now, payload, halert⟩ := hmethod
      have haware := UniFiAlert.aware_fromWebhookPayload halert
      simp only [take, Coordinator.turn, Method.op]
      rcases @push_stored config m.coord h.marks m.clock category alert haware with
        ⟨hcalls, hcoord⟩ | hcalls | ⟨c, hcalls⟩
      · rw [hcalls, hcoord]
        exact hsame _ _ fun c => ⟨rfl, rfl, rfl, rfl⟩
      · rw [hcalls]
        exact Or.inl ⟨h.idle, Or.inl rfl⟩
      · rw [hcalls]
        refine Or.inl ⟨?_, Or.inl (scheduled_cancelRegistered _ c)⟩
        exact (congrArg Store.queue (idle_cancelRegistered (by exact h.idle) c)).trans h.idle
  | clearCategory category =>
      simp only [take, Coordinator.turn, Method.op, Coordinator.clearCategory]
      split
      · exact hsame _ _ fun c => ⟨rfl, rfl, rfl, rfl⟩
      · rename_i c _
        exact issued_persist (by exact h.idle) _ [c]
  | clearAll => exact issued_persist (by exact h.idle) _ _

theorem issued_wake {m : EventLoop} (h : Current text m) (wall : Instant) (id : Nat) :
    Issued text (m.wake config text wall id) := by
  rcases @wake_cases config text m wall id with heq | ⟨task, -, -, heq⟩ | ⟨task, -, -, heq⟩
  · rw [heq]
    exact Or.inl ⟨h.idle, h.saved⟩
  · rw [heq]
    exact Or.inl ⟨h.idle, h.saved⟩
  · rw [heq]
    have hidle : ((m.clearState task.category wall).setTask id
        { task with phase := .writing }).store.queue = [] := h.idle
    exact Or.inr ⟨.timer id, by simp only [persist, Store.save, hidle, List.nil_append]⟩

theorem issued_step {m : EventLoop} (h : Current text m) {e : Event} (he : e.Delivered text) :
    Issued text (m.step config text e) := by
  cases e with
  | tick now => exact Or.inl ⟨h.idle, h.saved⟩
  | call wall method => exact issued_take h he wall
  | wake wall id => exact issued_wake h wall id
  | flush =>
      simp only [step, Store.flush]
      split
      · exact Or.inr ⟨.debounced, by simp only [Store.save, h.idle, List.nil_append]⟩
      · exact Or.inl ⟨h.idle, h.saved⟩
  | writeEnd ok =>
      rw [step, writeEnd_idle h.idle]
      exact Or.inl ⟨h.idle, h.saved⟩
  | cancelCaller n =>
      have hnone : m.store.drop (· == Owner.caller n) = m.store :=
        Store.drop_of_none fun w hw => by
          rw [h.idle] at hw
          cases hw
      simp only [step, hnone]
      exact Or.inl ⟨h.idle, h.saved⟩

theorem current_stepNow {m : EventLoop} (h : Current text m) {e : Event}
    (he : e.Delivered text) : Current text (m.stepNow config text e) :=
  current_writeEnd (awareMarks_step h.marks e) (plainAlerts_step h.plain he)
    (issued_step h he)

/-! ### The shutdown -/

theorem shutdown_eq (config : UniFiClientConfig) (text : Text) (m : EventLoop) :
    m.shutdown = performAll config text .debounced m (allCategories.map .cancelClear) := by
  unfold shutdown performAll
  rw [List.foldl_map]
  rfl

theorem current_shutdown {m : EventLoop} (h : Current text m) : Current text m.shutdown := by
  have hcoord : m.shutdown.coord = m.coord := by
    rw [shutdown_eq {} text]
    exact performAll_coord _ _ _
  have hstore : m.shutdown.store = m.store := by
    rw [shutdown_eq {} text]
    exact idle_cancelClears _ _ h.idle
  exact ⟨hcoord ▸ h.marks, hcoord ▸ h.plain, hstore ▸ h.idle,
    by rw [hcoord, hstore]; exact h.saved⟩

theorem cancelClears_clearTasks (c : Category) :
    ∀ (cs : List Category) (m : EventLoop), c ∈ cs ∨ m.clearTasks c = none →
      (cs.foldl cancelClear m).clearTasks c = none
  | [], _, h => h.resolve_left List.not_mem_nil
  | d :: ds, m, h => by
      refine cancelClears_clearTasks c ds _ ?_
      by_cases hcd : c = d
      · subst hcd
        exact Or.inr (Function.update_self _ _ _)
      · refine h.imp (fun hmem => (List.mem_cons.mp hmem).resolve_left hcd) fun hnone => ?_
        simp only [cancelClear]
        rw [Function.update_of_ne hcd]
        simpa using hnone

/-- The shutdown leaves no auto-clear task alive. -/
theorem shutdown_not_live {m : EventLoop} (h : TasksInv m) {id : Nat} {task : ClearTask}
    (htask : m.shutdown.tasks id = some task) : ¬task.Live := by
  intro hlive
  have hinv : TasksInv m.shutdown := by
    rw [shutdown_eq {} (.counting fun _ => none)]
    exact h.performAll debounced_ne_timer _
  have hreg := hinv.registered id task htask hlive
  rw [shutdown, cancelClears_clearTasks _ _ _ (Or.inl (Category.mem_all _))] at hreg
  cases hreg

/-- Right after the shutdown only the debounced write can be left. -/
theorem settled_shutdown {m : EventLoop} (h : TasksInv m) (hidle : m.store.queue = []) :
    Settled m.shutdown ↔ m.store.scheduled = false := by
  have hstore : m.shutdown.store = m.store := by
    rw [shutdown_eq {} (.counting fun _ => none)]
    exact idle_cancelClears _ _ hidle
  refine ⟨fun hm => by rw [← hstore]; exact hm.1,
    fun hscheduled => ⟨by rw [hstore]; exact hscheduled,
    fun id task htask hcancelled hphase => ?_⟩⟩
  exact absurd ⟨by rw [hphase]; nofun, hcancelled⟩ (shutdown_not_live h htask)

theorem TasksInv.runNow {m : EventLoop} (h : TasksInv m) (es : List Event) :
    TasksInv (Lib.run (stepNow config text) m es) :=
  @run_preserves _ _ _ TasksInv (fun _ e h => (h.step e).step _) m h es

theorem unload_nil (m : EventLoop) (before : List Event) :
    m.unload config text before [] = (run (stepNow config text) m before).shutdown := rfl

/-! ### What is still to come -/

theorem stepNow_store (m : EventLoop) (e : Event) :
    (m.stepNow config text e).store = (m.step config text e).store.finish true :=
  writeEnd_store _ true

/-- A settled coordinator does nothing more by itself. -/
theorem settled_stepNow {m : EventLoop} (hidle : m.store.queue = []) (h : Settled m) {e : Event}
    (he : e.Pending) :
    (m.stepNow config text e).store = m.store ∧ Settled (m.stepNow config text e) := by
  have hdone : ∀ m' : EventLoop, m'.store = m.store → Settled m' →
      (m'.step config text (.writeEnd true)).store = m.store ∧
        Settled (m'.step config text (.writeEnd true)) := by
    intro m' hstore hsettled
    rw [step, writeEnd_idle (by rw [hstore]; exact hidle)]
    exact ⟨hstore, hsettled⟩
  -- a task that ends sleeps no more
  have hset : ∀ (id : Nat) (task : ClearTask),
      Settled (m.setTask id { task with phase := .done }) := by
    refine fun id task => ⟨h.1, fun id' task' htask' hcancelled hphase => ?_⟩
    rw [setTask_tasks] at htask'
    split at htask'
    · obtain rfl := Option.some.inj htask'
      cases hphase
    · exact h.2 id' task' htask' hcancelled hphase
  cases e with
  | tick now => exact hdone _ rfl h
  | flush =>
      refine hdone _ ?_ ?_
      · simp only [step, Store.flush, h.1]
        rfl
      · simp only [step, Store.flush, h.1]
        exact h
  | wake wall id =>
      rcases @wake_cases config text m wall id with
        heq | ⟨task, -, -, heq⟩ | ⟨task, ⟨htask, hcancelled, hphase, -⟩, hal, -⟩
      · exact hdone _ (by rw [step, heq]) (by rw [step, heq]; exact h)
      · exact hdone _ (by rw [step, heq]; rfl) (by rw [step, heq]; exact hset id task)
      · rw [h.2 id task htask hcancelled hphase] at hal
        cases hal
  | call wall method => exact he.elim
  | writeEnd ok => exact he.elim
  | cancelCaller n => exact he.elim

/-- Exactly a settled coordinator has no write to come. -/
theorem noLateWrite_iff {m : EventLoop} (hidle : m.store.queue = []) :
    NoLateWrite config text m ↔ Settled m := by
  constructor
  · intro h
    refine ⟨?_, fun id task htask hcancelled hphase => ?_⟩
    · by_contra hscheduled
      have hwrite := h [.flush] (by simp [Event.Pending])
      rw [run_cons, run_nil, stepNow_store] at hwrite
      simp only [step, Store.flush, Bool.eq_true_of_not_eq_false hscheduled, if_true,
        Store.finish_save hidle] at hwrite
      omega
    · by_contra hal
      have hexp : Expires { m with clock := max m.clock task.due } id task :=
        ⟨htask, hcancelled, hphase, le_max_right _ _⟩
      have hwrite := h [.tick task.due, .wake 0 id] (by simp [Event.Pending])
      have htick : m.stepNow config text (.tick task.due) =
          { m with clock := max m.clock task.due } := writeEnd_idle (by exact hidle) true
      rw [run_cons, run_cons, run_nil, htick, stepNow_store, step, wake_of_expires hexp] at hwrite
      rcases @expire_spec config text { m with clock := max m.clock task.due } 0 id task with
        ⟨-, heq⟩ | ⟨hquiet, -⟩
      · rw [heq] at hwrite
        have hsave := @Store.finish_save _ _ m.store hidle (.timer id)
          (Coordinator.buildPersistData text (m.coord.setState task.category
            ((m.coord.states task.category).clear 0)))
        have hcompleted := congrArg Store.completed hsave
        change (Store.finish true (Store.save (.timer id) _ m.store)).completed = _ at hwrite
        exact absurd (hwrite.symm.trans hcompleted) (by simp)
      · exact hal hquiet
  · intro h es hes
    have hinv := @run_preserves_labels _ _ (stepNow config text) Event.Pending
      (fun m' : EventLoop => m'.store = m.store ∧ Settled m')
      (fun m' e hm' he => by
        obtain ⟨hstore, hsettled⟩ := @settled_stepNow config text m'
          (by rw [hm'.1]; exact hidle) hm'.2 e he
        exact ⟨hstore.trans hm'.1, hsettled⟩) m ⟨rfl, h⟩ es hes
    rw [hinv.1]

end EventLoop

/-- Over every interleaving of pushes, clears, timers and writes, then an
unload with more of them, then a load at any later time: the new coordinator
takes over the old one's stored state and no write of the old one is to come,
exactly when the old one is settled at that moment. -/
theorem reload_loses_nothing_iff (text : Text) (config : UniFiClientConfig) (coord : Coordinator)
    (file : JsonObj) (hmarks : coord.AwareMarks) (hplain : coord.PlainAlerts)
    (hfile : Restores text file coord) (before during : List Event)
    (hevents : ∀ e ∈ before ++ during, e.Delivered text) :
    let m := EventLoop.unload config text (.start coord file) before during
    (Restores text m.store.file m.coord ∧ EventLoop.NoLateWrite config text m) ↔
      EventLoop.Settled m := by
  intro m
  have hrun : ∀ (es : List Event) (m : EventLoop), EventLoop.Current text m →
      (∀ e ∈ es, e.Delivered text) →
      EventLoop.Current text (run (EventLoop.stepNow config text) m es) := fun es m hm hes =>
    @run_preserves_labels _ _ (EventLoop.stepNow config text) (Event.Delivered text)
      (EventLoop.Current text) (fun _ _ h he => EventLoop.current_stepNow h he) m hm es hes
  have hbefore := hrun before _ (EventLoop.current_start text hmarks hplain hfile)
    fun e he => hevents e (List.mem_append_left _ he)
  have hm : EventLoop.Current text m :=
    hrun during _ (EventLoop.current_shutdown hbefore) fun e he =>
      hevents e (List.mem_append_right _ he)
  rw [EventLoop.noLateWrite_iff hm.idle]
  refine ⟨fun h => h.2, fun h => ⟨hm.saved.resolve_left ?_, h⟩⟩
  rw [h.1]
  nofun

/-- What an empty ping of the power category delivers. -/
def pinged : UniFiAlert :=
  { category := "power", message := "Unknown alert", receivedAt := .aware 0 }

theorem pinged_delivered (text : Text) (wall : Instant) :
    (Event.call wall (.push "power" pinged)).Delivered text := by
  have hmessage : slice "Unknown alert" 255 = "Unknown alert" := by decide +kernel
  have hempty : ∀ n, slice "" n = "" := fun n => by simp [slice]
  refine ⟨0, .obj [], ?_⟩
  simp [UniFiAlert.fromWebhookPayload, Json.asDict, JsonObj.get, JsonObj.getD, Json.or, Json.truthy,
    bind, Except.bind, pure, Except.pure, hmessage, hempty, pinged]

/-- The debounced write of the ping is through before the unload. -/
theorem reload_loses_nothing_flushed :
    let text : Text := .counting fun _ => none
    let m := EventLoop.unload {} text (.start (.fresh {}) [])
      [.call 0 (.push "power" pinged), .tick 1, .flush] []
    Restores text m.store.file m.coord ∧ EventLoop.NoLateWrite {} text m := by
  refine (reload_loses_nothing_iff (.counting fun _ => none) {} (.fresh {}) []
    (Coordinator.awareMarks_fresh {}) (Coordinator.plainAlerts_fresh {}) (.fresh _ {}) _ []
    fun e he => ?_).mpr ?_
  · simp only [List.append_nil, List.mem_cons, List.not_mem_nil, or_false] at he
    rcases he with rfl | rfl | rfl
    · exact pinged_delivered _ 0
    · trivial
    · trivial
  · rw [EventLoop.unload_nil, EventLoop.settled_shutdown
      ((EventLoop.tasksInv_start _ _).runNow _) (List.isEmpty_iff.mp (by decide +kernel))]
    decide +kernel

/-- The entry is reloaded within the second: the count of the ping is lost, and
the old coordinator writes the file after the load. -/
theorem reload_loses_ping :
    let text : Text := .counting fun _ => none
    let m := EventLoop.unload {} text (.start (.fresh {}) []) [.call 0 (.push "power" pinged)] []
    ¬Restores text m.store.file m.coord ∧ ¬EventLoop.NoLateWrite {} text m := by
  intro text m
  constructor
  · intro h
    obtain ⟨new, hnew, hsame⟩ := h {} 0
    obtain rfl := Except.ok.inj hnew
    exact absurd (hsame .power).alertCount (by decide +kernel)
  · intro h
    exact absurd (h [.flush] (by simp [Event.Pending])) (by decide +kernel)

end UnifiAlerts
