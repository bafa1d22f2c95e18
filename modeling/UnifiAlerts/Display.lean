import UnifiAlerts.AutoClear
import UnifiAlerts.Views

/-!
# What is shown between two notifications

An entity writes its state when the coordinator notifies its listeners:
after an accepted push, after a poll, and after the write of a clear.
Home Assistant shows that state until the next notification, so what is
shown is a copy of what the coordinator holds, and the copy is behind
whatever changes the coordinator without a notification (`Displayed`).

An update that a listener ends does not reach the ones after it. None
does when the restored times are aware like the new ones (`told`), so
that every entity shows what is said here of one that all updates reach.

Two kinds of events leave the copy behind. A filtered push records that
a webhook came and tells nobody. A clear takes effect before its write,
and its listeners hear of it only when the write has succeeded: until
then, and for good when the write fails or the clear is cancelled, the
sensor goes on showing a problem that is over. The counts and the
messages are never behind, and no alert is raised without being shown.
-/

namespace UnifiAlerts

open Py Lib

namespace EventLoop

variable {config : UniFiClientConfig} {text : Text} {m : EventLoop} {e : Event} {c : Category}

/-! ## Who is told -/

/-- The event ends in `async_set_updated_data`, or in the notification of a poll that
succeeded. -/
def notifies (config : UniFiClientConfig) (m : EventLoop) : Event → Bool
  | .call _ (.push category alert) =>
    (Coordinator.pushAlert config m.coord m.clock category alert).calls.contains .notify
  | .call _ (.poll categorised) =>
    (Coordinator.applyPoll config categorised m.coord).raised.isNone
  -- the clear that awaited the write goes on
  | .writeEnd ok => ok && m.store.queue.head?.any fun w => w.owner != .debounced
  | _ => false

/-- `clear()` of the category, by a button, a service or its timer. -/
def Clears (m : EventLoop) (c : Category) : Event → Prop
  | .call _ (.clearCategory category) => category = c.name
  | .call _ .clearAll => (m.coord.states c).enabled = true
  | .wake _ id => ∃ task, m.Expires id task ∧ task.category = c ∧
    (m.coord.states c).isAlerting = true
  | _ => False

/-- A clear that ends an alert. -/
def Ends (m : EventLoop) (c : Category) (e : Event) : Prop :=
  m.Clears c e ∧ (m.coord.states c).isAlerting = true

/-- A push that the minimum severity of the category holds back. -/
def Filters (config : UniFiClientConfig) (m : EventLoop) (c : Category) : Event → Prop
  | .call _ (.push category alert) =>
    Coordinator.pushVerdict config m.coord m.clock category alert = .ok (.filtered c)
  | _ => False

theorem Clears.quiet (h : m.Clears c e) : m.notifies config e = false := by
  unfold Clears at h
  split at h
  · rfl
  · rfl
  · rfl
  · exact h.elim

theorem clears_states (h : m.Clears c e) :
    ∃ now, (m.step config text e).coord.states c = (m.coord.states c).clear now := by
  unfold Clears at h
  split at h
  · rename_i wall category
    refine ⟨wall, ?_⟩
    simp only [step, take, performAll_coord, Coordinator.turn, Method.op, h,
      Coordinator.clearCategory, Category.ofName?_name, Coordinator.setState_states, if_pos]
  · rename_i wall
    refine ⟨wall, ?_⟩
    simp only [step, take, performAll_coord, Coordinator.turn, Method.op, Coordinator.clearAll, h,
      if_pos]
  · rename_i wall id
    obtain ⟨task, htask, rfl, hal⟩ := h
    refine ⟨wall, ?_⟩
    have hperform := @performAll_coord config text (.timer id)
    simp only [step, wake_of_expires htask, expire, hperform, setTask, Coordinator.turn,
      Coordinator.autoClear, hal, Coordinator.setState_states, if_pos]
  · exact h.elim

/-- Without a notification a category is cleared, or a filtered push is recorded on it, or
nothing happens to it. -/
theorem quiet_states (hmarks : m.coord.AwareMarks) (hsound : e.Sound)
    (hquiet : m.notifies config e = false) (hclears : ¬m.Clears c e) :
    (m.step config text e).coord.states c = m.coord.states c ∨
      m.Filters config c e ∧ ∃ alert : UniFiAlert, (m.step config text e).coord.states c =
        { (m.coord.states c).recordFiltered alert with
          lastWebhookAt := some alert.receivedAt } := by
  cases e with
  | tick now => exact Or.inl rfl
  | flush => exact Or.inl rfl
  | cancelCaller n => exact Or.inl rfl
  | writeEnd ok => exact Or.inl (by rw [step, writeEnd_coord])
  | wake wall id =>
      rw [step]
      rcases @wake_cases config text m wall id with heq | ⟨task, -, -, heq⟩ | ⟨task, hexp, hal, heq⟩
      · exact Or.inl (by rw [heq])
      · exact Or.inl (by rw [heq]; rfl)
      · have hne : ¬c = task.category := by
          rintro rfl
          exact hclears ⟨task, hexp, rfl, hal⟩
        rw [heq]
        refine Or.inl ?_
        show (m.coord.setState task.category _).states c = _
        rw [Coordinator.setState_states, if_neg hne]
  | call wall method =>
      rw [step, take, performAll_coord]
      cases method with
      | fetch net => exact Or.inl (congrFun (Coordinator.fetch_states _ _ _) c)
      | poll categorised =>
          rw [notifies, Coordinator.applyPoll_raised hmarks hsound.aware] at hquiet
          cases hquiet
      | clearCategory category =>
          refine Or.inl ?_
          simp only [Coordinator.turn, Method.op, Coordinator.clearCategory]
          cases hd : Category.ofName? category with
          | none => rfl
          | some d =>
              have hname := Category.ofName?_eq_some.mp hd
              have hne : ¬c = d := by
                rintro rfl
                exact hclears hname.symm
              rw [Coordinator.setState_states, if_neg hne]
      | clearAll => exact Or.inl (if_neg hclears)
      | push category alert =>
          have hverdict : ∀ d, Coordinator.pushVerdict config m.coord m.clock category alert ≠
              .ok (.accepted d) := by
            intro d hd
            rw [notifies, Coordinator.pushAlert_calls_of_accepted hmarks
              (hsound.aware alert (List.mem_singleton.mpr rfl)) hd] at hquiet
            cases hquiet
          simp only [Coordinator.turn, Method.op, Coordinator.pushAlert]
          split
          · exact Or.inl rfl
          · rename_i d hd
            rw [Coordinator.setState_states]
            split
            · rename_i hcd
              subst hcd
              exact Or.inr ⟨hd, alert, rfl⟩
            · exact Or.inl rfl
          · rename_i d hd
            exact absurd hd (hverdict d)
          · exact Or.inl rfl

section

variable (hmarks : m.coord.AwareMarks) (hsound : e.Sound) (hquiet : m.notifies config e = false)

include hmarks hsound hquiet

/-- What is counted and what came last never changes unannounced. -/
theorem quiet_alerts (c : Category) :
    ((m.step config text e).coord.states c).enabled = (m.coord.states c).enabled ∧
      ((m.step config text e).coord.states c).lastAlert = (m.coord.states c).lastAlert ∧
      ((m.step config text e).coord.states c).openCount = (m.coord.states c).openCount := by
  by_cases hclears : m.Clears c e
  · obtain ⟨now, h⟩ := @clears_states config text m e c hclears
    rw [h]
    exact ⟨rfl, rfl, rfl⟩
  · rcases @quiet_states config text m e c hmarks hsound hquiet hclears with h | ⟨-, alert, h⟩
    · rw [h]
      exact ⟨rfl, rfl, rfl⟩
    · rw [h]
      exact ⟨rfl, rfl, rfl⟩

theorem quiet_isAlerting : ((m.step config text e).coord.states c).isAlerting = true ↔
    (m.coord.states c).isAlerting = true ∧ ¬m.Ends c e := by
  by_cases hclears : m.Clears c e
  · obtain ⟨now, h⟩ := @clears_states config text m e c hclears
    rw [h]
    exact iff_of_false (by simp [CategoryState.clear]) fun h => h.2 ⟨hclears, h.1⟩
  · have hsame : ((m.step config text e).coord.states c).isAlerting =
        (m.coord.states c).isAlerting := by
      rcases @quiet_states config text m e c hmarks hsound hquiet hclears with h | ⟨-, alert, h⟩
      · rw [h]
      · rw [h]
        rfl
    rw [hsame]
    exact (and_iff_left fun hends => hclears hends.1).symm

theorem quiet_webhook (hfilters : ¬m.Filters config c e) :
    ((m.step config text e).coord.states c).lastWebhookAt = (m.coord.states c).lastWebhookAt := by
  by_cases hclears : m.Clears c e
  · obtain ⟨now, h⟩ := @clears_states config text m e c hclears
    rw [h]
    rfl
  · rcases @quiet_states config text m e c hmarks hsound hquiet hclears with h | ⟨h, -⟩
    · rw [h]
    · exact absurd h hfilters

end

/-! ## Who awaits a write -/

/-- Someone goes on once this write has ended: the task or the caller that owns it, which
a debounced write has not. -/
def Awaits (m : EventLoop) (owner : Owner) : Prop :=
  owner ≠ .debounced ∧ ∃ w ∈ m.store.queue, w.owner = owner

/-- An awaited write leaves the queue, and no write succeeds: it fails, its caller is
cancelled, or its timer is. -/
def Loses (config : UniFiClientConfig) (text : Text) (m : EventLoop) (e : Event) : Prop :=
  e ≠ .writeEnd true ∧ ∃ owner, m.Awaits owner ∧ ¬(m.step config text e).Awaits owner

theorem awaits_persist (owner : Owner) (howner : owner ≠ .debounced) :
    (m.persist text owner).Awaits owner :=
  ⟨howner, _, List.mem_append_right _ (List.mem_singleton.mpr rfl), rfl⟩

/-- A clear awaits a write. -/
theorem Clears.awaits (h : m.Clears c e) : ∃ owner, (m.step config text e).Awaits owner := by
  unfold Clears at h
  split at h
  · rename_i wall category
    refine ⟨.caller m.nextCaller, ?_⟩
    simp only [step, take, Coordinator.turn, Method.op, h, Coordinator.clearCategory,
      Category.ofName?_name]
    exact awaits_persist _ (by simp)
  · rename_i wall
    refine ⟨.caller m.nextCaller, ?_⟩
    simp only [step, take, Coordinator.turn, Method.op, Coordinator.clearAll, performAll_persist]
    exact awaits_persist _ (by simp)
  · rename_i wall id
    obtain ⟨task, htask, rfl, hal⟩ := h
    refine ⟨.timer id, ?_⟩
    rw [step, wake_of_expires htask]
    rcases @expire_spec config text m wall id task with ⟨-, heq⟩ | ⟨hoff, -⟩
    · rw [heq]
      exact awaits_persist _ (by simp)
    · rw [hal] at hoff
      cases hoff
  · exact h.elim

/-- A write that ends well without a notification was awaited by nobody. -/
theorem awaits_writeEnd {owner : Owner} (h : m.Awaits owner)
    (hquiet : m.notifies config (.writeEnd true) = false) :
    (m.step config text (.writeEnd true)).Awaits owner := by
  obtain ⟨howner, w, hw, rfl⟩ := h
  refine ⟨howner, w, ?_, rfl⟩
  rw [step, writeEnd_store, Store.finish]
  cases hqueue : m.store.queue with
  | nil =>
      rw [hqueue] at hw
      cases hw
  | cons v rest =>
      rw [notifies, hqueue] at hquiet
      rw [hqueue] at hw
      rcases List.mem_cons.mp hw with rfl | hrest
      · exact absurd hquiet (by simpa using howner)
      · simpa using hrest

/-- Times that are aware stay so, and then no update ends before its last listener. -/
theorem timesAware_step (h : ∀ c, Coordinator.TimesAware (m.coord.states c)) (hsound : e.Sound) :
    ∀ c, Coordinator.TimesAware ((m.step config text e).coord.states c) := by
  obtain ⟨ts, halerts, hts⟩ := @step_coord config text m e
  have haware : ∀ t ∈ ts, t.op.Aware := by
    intro t ht a ha
    rw [halerts t ht] at ha
    cases e with
    | call wall method => exact hsound.aware a ha
    | _ => cases ha
  rw [hts]
  exact run_preserves_labels (P := fun t : TimedOp => t.op.Aware)
    (I := fun coord : Coordinator => ∀ c, Coordinator.TimesAware (coord.states c))
    (fun _ _ h ht c => Coordinator.timesAware_step h config ht c) h haware

end EventLoop

/-! ## What is shown -/

/-- The coordinator, and what of it an entity last read that every update reaches. -/
structure Display where
  loop : EventLoop
  shown : Coordinator

/-- An event of the loop, or a notification for another reason, such as a poll that
failed. -/
inductive DisplayEvent
  | loop (e : Event)
  | render

namespace DisplayEvent

def Sound : DisplayEvent → Prop
  | .loop e => e.Sound
  | .render => True

/-- An event of the loop that does `P` to it. -/
def Does (P : EventLoop → Event → Prop) (d : Display) : DisplayEvent → Prop
  | .loop e => P d.loop e
  | .render => False

/-- The listeners are notified. -/
def Notifies (config : UniFiClientConfig) (d : Display) : DisplayEvent → Prop
  | .loop e => d.loop.notifies config e = true
  | .render => True

end DisplayEvent

namespace Display

/-- The entities are added and read what was restored. -/
def start (coord : Coordinator) (file : JsonObj) : Display where
  loop := .start coord file
  shown := coord

def step (config : UniFiClientConfig) (text : Text) (d : Display) : DisplayEvent → Display
  | .loop e =>
    let loop := d.loop.step config text e
    { loop, shown := if d.loop.notifies config e then loop.coord else d.shown }
  | .render => { d with shown := d.loop.coord }

variable {config : UniFiClientConfig} {text : Text} {d : Display} {l : DisplayEvent}

open DisplayEvent

theorem step_current (h : l.Notifies config d) :
    (d.step config text l).shown = (d.step config text l).loop.coord := by
  cases l with
  | loop e => exact if_pos h
  | render => rfl

theorem step_shown (h : ¬l.Notifies config d) : (d.step config text l).shown = d.shown := by
  cases l with
  | loop e => exact if_neg h
  | render => exact absurd trivial h

/-- The watermarks are aware, and no alert is on without being shown: what the sensors
show can be an alert too many, and never one too few. -/
structure Inv (d : Display) : Prop where
  marks : d.loop.coord.AwareMarks
  shown : ∀ c, (d.loop.coord.states c).isAlerting = true → (d.shown.states c).isAlerting = true

theorem Inv.start {coord : Coordinator} (hmarks : coord.AwareMarks) (file : JsonObj) :
    Inv (.start coord file) where
  marks := hmarks
  shown _ h := h

theorem Inv.step (config : UniFiClientConfig) (text : Text) (h : d.Inv) (hl : l.Sound) :
    Inv (d.step config text l) := by
  cases l with
  | render => exact ⟨h.marks, fun _ hal => hal⟩
  | loop e =>
      refine ⟨EventLoop.awareMarks_step h.marks e, fun c hal => ?_⟩
      by_cases hnew : Notifies config d (.loop e)
      · rw [step_current hnew]
        exact hal
      · rw [step_shown hnew]
        have hquiet : d.loop.notifies config e = false := by simpa [Notifies] using hnew
        exact h.shown c ((EventLoop.quiet_isAlerting h.marks hl hquiet).mp hal).1

/-- The sensor shows an alert that is over. -/
def Stale (d : Display) (c : Category) : Prop :=
  (d.shown.states c).isAlerting = true ∧ ¬(d.loop.coord.states c).isAlerting = true

theorem stale_step (h : d.Inv) (hl : l.Sound) (c : Category) :
    Stale (d.step config text l) c ↔
      l.Does (·.Ends c) d ∨ d.Stale c ∧ ¬l.Notifies config d := by
  by_cases hnew : l.Notifies config d
  · have hcurrent : ¬Stale (d.step config text l) c := by
      rw [Stale, step_current hnew]
      exact fun h => h.2 h.1
    refine iff_of_false hcurrent ?_
    rintro (hends | ⟨-, hquiet⟩)
    · cases l with
      | loop e => exact absurd hnew (by simp [Notifies, hends.1.quiet])
      | render => exact hends
    · exact hquiet hnew
  · cases l with
    | render => exact absurd trivial hnew
    | loop e =>
        have hquiet : d.loop.notifies config e = false := by simpa [Notifies] using hnew
        have hal := @EventLoop.quiet_isAlerting config text d.loop e c h.marks hl hquiet
        have hshown := h.shown c
        have hends : d.loop.Ends c e → (d.loop.coord.states c).isAlerting = true := fun h => h.2
        rw [Stale, step_shown hnew]
        show _ ∧ ¬((d.loop.step config text e).coord.states c).isAlerting = true ↔
          d.loop.Ends c e ∨ d.Stale c ∧ _
        rw [hal, Stale]
        tauto

/-- Either no sensor is stale, or a write is awaited that will tell. -/
theorem settled_step (h : d.Inv) (hl : l.Sound) (hloses : ¬l.Does (·.Loses config text) d)
    (hd : (∀ c, ¬d.Stale c) ∨ ∃ owner, d.loop.Awaits owner) :
    (∀ c, ¬Stale (d.step config text l) c) ∨ ∃ owner, (d.step config text l).loop.Awaits owner := by
  by_cases hends : ∃ c, l.Does (·.Ends c) d
  · obtain ⟨c, hends⟩ := hends
    cases l with
    | loop e => exact Or.inr hends.1.awaits
    | render => exact hends.elim
  have hstale : (∀ c, ¬d.Stale c) ∨ l.Notifies config d → ∀ c, ¬Stale (d.step config text l) c := by
    intro hd c hc
    rcases (stale_step h hl c).mp hc with hc | ⟨hold, hquiet⟩
    · exact hends ⟨c, hc⟩
    · exact hd.elim (fun hd => hd c hold) hquiet
  rcases hd with hd | ⟨owner, howner⟩
  · exact Or.inl (hstale (Or.inl hd))
  by_cases hnew : l.Notifies config d
  · exact Or.inl (hstale (Or.inr hnew))
  refine Or.inr ⟨owner, ?_⟩
  cases l with
  | render => exact absurd trivial hnew
  | loop e =>
      by_cases hwritten : e = .writeEnd true
      · subst hwritten
        have hquiet : d.loop.notifies config (.writeEnd true) = false := by
          simpa [Notifies] using hnew
        exact @EventLoop.awaits_writeEnd config text d.loop owner howner hquiet
      · by_contra hgone
        exact hloses ⟨hwritten, owner, howner, hgone⟩

/-! ## Runs -/

section

variable {coord : Coordinator} (hmarks : coord.AwareMarks) (file : JsonObj)
  {ls : List DisplayEvent} (hsound : ∀ l ∈ ls, l.Sound)

include hmarks hsound

theorem inv_run : Inv (run (step config text) (.start coord file) ls) :=
  @run_preserves_labels _ _ (step config text) DisplayEvent.Sound Inv
    (fun _ _ h hl => h.step config text hl) _ (Inv.start hmarks file) ls hsound

/-- What of the coordinator only some quiet events change is shown as it is, or one of
them came since the last notification. -/
theorem shown_or_since {α : Type} (f : Coordinator → α) {Changes : EventLoop → Event → Prop}
    (hf : ∀ {m : EventLoop} {e : Event}, m.coord.AwareMarks → e.Sound →
      m.notifies config e = false → ¬Changes m e → f (m.step config text e).coord = f m.coord) :
    f (run (step config text) (.start coord file) ls).shown =
        f (run (step config text) (.start coord file) ls).loop.coord ∨
      Since (step config text) (fun d l => l.Does Changes d) (fun d l => ¬l.Notifies config d)
        (.start coord file) ls := by
  refine copy_or_since (fun d : Display => f d.shown) (fun d => f d.loop.coord)
    (fun d (l : DisplayEvent) (h : Inv d) (hl : l.Sound) => h.step config text hl)
    (fun d l hnew => congrArg f (step_current hnew)) ?_ (Inv.start hmarks file) rfl hsound
  intro d l h hl hnew hchange
  refine ⟨congrArg f (step_shown hnew), ?_⟩
  cases l with
  | render => exact absurd trivial hnew
  | loop e => exact hf h.marks hl (by simpa [Notifies] using hnew) hchange

omit hmarks in
theorem timesAware_run (htimes : ∀ c, Coordinator.TimesAware (coord.states c)) :
    ∀ c, Coordinator.TimesAware
      ((run (step config text) (.start coord file) ls).loop.coord.states c) :=
  run_preserves_labels (P := DisplayEvent.Sound)
    (I := fun d : Display => ∀ c, Coordinator.TimesAware (d.loop.coord.states c))
    (fun d l h hl => by
      cases l with
      | loop e => exact EventLoop.timesAware_step h hl
      | render => exact h)
    htimes hsound

theorem shown_alerts (c : Category) :
    let d := run (step config text) (.start coord file) ls
    (d.shown.states c).enabled = (d.loop.coord.states c).enabled ∧
      (d.shown.states c).lastAlert = (d.loop.coord.states c).lastAlert ∧
      (d.shown.states c).openCount = (d.loop.coord.states c).openCount := by
  have hcurrent := @shown_or_since config text coord hmarks file ls hsound _
    (fun coord => ((coord.states c).enabled, (coord.states c).lastAlert,
      (coord.states c).openCount))
    (fun _ _ => False)
    (fun hmarks hsound hquiet _ => by
      obtain ⟨hen, hlast, hopen⟩ := EventLoop.quiet_alerts hmarks hsound hquiet c
      rw [hen, hlast, hopen])
  rcases hcurrent with hcurrent | hsince
  · simpa using hcurrent
  · -- no quiet event changes them
    obtain ⟨pre, l, post, -, hl, -⟩ := since_iff_split.mp hsince
    cases l with
    | loop e => exact hl.elim
    | render => exact hl.elim

theorem stale_iff (c : Category) : Stale (run (step config text) (.start coord file) ls) c ↔
    Since (step config text) (fun d l => l.Does (·.Ends c) d) (fun d l => ¬l.Notifies config d)
      (.start coord file) ls := by
  have hfresh : ¬Stale (.start coord file) c := fun h => h.2 h.1
  have hstale := @run_iff_since_labels _ _ (step config text) Inv (fun d => d.Stale c)
    DisplayEvent.Sound (fun d l => l.Does (·.Ends c) d) (fun d l => ¬l.Notifies config d)
    (fun _ _ h hl => h.step config text hl) (fun _ _ h hl => stale_step h hl c) ls _
    (Inv.start hmarks file) hsound
  exact hstale.trans (or_iff_right fun h => hfresh h.1)

theorem settled_run
    (hkept : Along (step config text) (fun d l => ¬l.Does (·.Loses config text) d)
      (.start coord file) ls)
    (hidle : ∀ owner, ¬(run (step config text) (.start coord file) ls).loop.Awaits owner)
    (c : Category) : ¬Stale (run (step config text) (.start coord file) ls) c := by
  have hsettled := run_preserves_along (I := fun d : Display => d.Inv ∧
      ((∀ c, ¬d.Stale c) ∨ ∃ owner, d.loop.Awaits owner))
    (fun d l h hl => ⟨h.1.step config text hl.1, settled_step h.1 hl.1 hl.2 h.2⟩)
    ⟨Inv.start hmarks file, Or.inl fun c h => h.2 h.1⟩
    (Along.and (along_labels.mpr hsound) hkept)
  exact hsettled.2.resolve_right (not_exists.mpr hidle) c

end

end Display

open Entity DisplayEvent in
/-- What the entities show after the events `ls` of a display that began as `first`. -/
structure Displayed (config : UniFiClientConfig) (text : Text) (first : Display)
    (ls : List DisplayEvent) (d : Display) : Prop where
  told : (∀ c, Coordinator.TimesAware (first.loop.coord.states c)) →
    ∀ now xs, updateListeners text now d.loop.coord xs = (xs, .ok ())
  counts : ∀ now x, (x = rollupCountSensor ∨
      ∃ c, x = categoryCountSensor c ∨ x = categoryMessageSensor c) →
    state now d.shown x = state now d.loop.coord x
  raised : ∀ now c, IsOn now d.loop.coord (categoryBinarySensor c) →
    IsOn now d.shown (categoryBinarySensor c)
  stale : ∀ now c, IsOn now d.shown (categoryBinarySensor c) ∧
      ¬IsOn now d.loop.coord (categoryBinarySensor c) ↔
    Since (Display.step config text) (fun d l => l.Does (·.Ends c) d)
      (fun d l => ¬l.Notifies config d) first ls
  webhook : ∀ c, (d.shown.states c).lastWebhookAt = (d.loop.coord.states c).lastWebhookAt ∨
    Since (Display.step config text) (fun d l => l.Does (·.Filters config c) d)
      (fun d l => ¬l.Notifies config d) first ls
  settled : Along (Display.step config text) (fun d l => ¬l.Does (·.Loses config text) d) first ls →
    (∀ owner, ¬d.loop.Awaits owner) → ∀ now x, (∀ c, x ≠ webhookHealthSensor c) →
      state now d.shown x = state now d.loop.coord x

open Display in
theorem display_follows (config : UniFiClientConfig) (text : Text) {coord : Coordinator}
    (hmarks : coord.AwareMarks) (file : JsonObj) {ls : List DisplayEvent}
    (hsound : ∀ l ∈ ls, l.Sound) :
    Displayed config text (.start coord file) ls
      (run (Display.step config text) (.start coord file) ls) := by
  have halerts := @shown_alerts config text coord hmarks file ls hsound
  have hreached := @inv_run config text coord hmarks file ls hsound
  have hcounts : ∀ now x, (x = .rollupCountSensor ∨
      ∃ c, x = .categoryCountSensor c ∨ x = .categoryMessageSensor c) →
      Entity.state now (run (Display.step config text) (.start coord file) ls).shown x =
        Entity.state now (run (Display.step config text) (.start coord file) ls).loop.coord x := by
    rintro now x (rfl | ⟨c, rfl | rfl⟩)
    · simp [Entity.state, Coordinator.rollupOpenCount, Coordinator.enabledCategories, halerts]
    · rw [Entity.state, Entity.state, (halerts c).2.2]
    · rw [Entity.state, Entity.state, (halerts c).2.1]
  constructor
  case told =>
    exact fun htimes now xs => Coordinator.updateListeners_of_timesAware
      (timesAware_run file hsound htimes) text now xs
  case counts => exact hcounts
  case raised =>
    intro now c hon
    exact (Coherent.isOn_category c).mpr (hreached.shown c ((Coherent.isOn_category c).mp hon))
  case stale =>
    intro now c
    rw [Coherent.isOn_category, Coherent.isOn_category]
    exact stale_iff hmarks file hsound c
  case webhook =>
    intro c
    exact shown_or_since hmarks file hsound (fun coord => (coord.states c).lastWebhookAt)
      EventLoop.quiet_webhook
  case settled =>
    intro hkept hidle
    have hal : ∀ c, let d := run (Display.step config text) (.start coord file) ls
        (d.shown.states c).isAlerting = (d.loop.coord.states c).isAlerting := by
      intro c
      rw [Bool.eq_iff_iff]
      have hfresh := settled_run hmarks file hsound hkept hidle c
      exact ⟨fun hon => by_contra fun hoff => hfresh ⟨hon, hoff⟩, hreached.shown c⟩
    intro now x hx
    cases x with
    | categoryBinarySensor c => rw [Entity.state, Entity.state, hal c]
    | rollupBinarySensor => simp [Entity.state, Coordinator.anyAlerting, halerts, hal]
    | webhookHealthSensor c => exact absurd rfl (hx c)
    | categoryMessageSensor c => exact hcounts now _ (Or.inr ⟨c, Or.inr rfl⟩)
    | categoryCountSensor c => exact hcounts now _ (Or.inr ⟨c, Or.inl rfl⟩)
    | rollupCountSensor => exact hcounts now _ (Or.inl rfl)
    | _ => rfl

open Display in
/-- The write of a clear fails: nobody awaits one any more, and the sensor goes on showing
the alert. -/
theorem display_follows_failed_clear :
    let text := Text.counting fun _ => none
    let alert : UniFiAlert := { category := "power", message := "PoE lost", receivedAt := .aware 0 }
    let ls : List DisplayEvent := [.loop (.call 0 (.push "power" alert)),
      .loop (.call 60 (.clearCategory "power")), .loop (.writeEnd false)]
    let d := run (Display.step {} text) (.start (.fresh {}) []) ls
    Displayed {} text (.start (.fresh {}) []) ls d ∧ d.Stale .power ∧
      ∀ owner, ¬d.loop.Awaits owner := by
  intro text alert ls d
  have hpush : (Op.push "power" alert).Sound := .push rfl
  have hsound : ∀ l ∈ ls, l.Sound := by
    intro l hl
    simp only [ls, List.mem_cons, List.not_mem_nil, or_false] at hl
    rcases hl with rfl | rfl | rfl
    · exact hpush
    · exact ⟨fun a ha => absurd ha List.not_mem_nil, trivial⟩
    · trivial
  have hqueue : d.loop.store.queue = [] := List.isEmpty_iff.mp (by decide +kernel)
  refine ⟨display_follows {} text (Coordinator.awareMarks_fresh {}) [] hsound,
    ⟨by decide +kernel, by decide +kernel⟩, ?_⟩
  rintro owner ⟨-, w, hw, -⟩
  rw [hqueue] at hw
  cases hw

end UnifiAlerts
