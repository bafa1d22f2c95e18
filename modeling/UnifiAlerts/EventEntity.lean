import UnifiAlerts.Listeners
import UnifiAlerts.Timers

/-!
# Event entities

An event entity of a category fires `alert_received` when it is notified
and finds an `alert_count` above the one it has seen. It is notified by
every accepted push, in the same turn, and by whatever else updates the
coordinator's listeners.

`Runtime` is a config entry over its setups and unloads. The webhooks are
registered before the platforms add the entities, and unregistered after
they have removed them; an event entity starts from the count it finds
when it is added. All entities are listeners of the coordinator, and are
called in the order in which they were added, up to the first that raises.

So a push fires its event exactly when its entity is there, `push_alert`
gets as far as the listeners, and no listener before the entity raises
(`Heard`). While all that is so the entities have seen every alert
(`InSync`), which is why nothing else fires one.
-/

namespace UnifiAlerts

open Py Lib

/-! ## The entity -/

/-- The attributes of an `alert_received` event. -/
structure AlertReceived where
  message : String
  category : String
  deviceName : String
  alertKey : String
  severity : String
  severityLevel : String
  site : String
  receivedAt : String
deriving DecidableEq

def alertReceived (text : Text) (c : Category) (alert : UniFiAlert) : AlertReceived where
  message := alert.message
  category := c.name
  deviceName := alert.deviceName
  alertKey := alert.key
  severity := alert.severity
  severityLevel := alert.severityLevel.text
  site := alert.site
  receivedAt := text.isoformat alert.receivedAt

/-- `_handle_coordinator_update`: the new `_last_seen_count`, and what it fires. -/
def handleCoordinatorUpdate (text : Text) (c : Category) (lastSeenCount : Int)
    (state : CategoryState) : Int × Option AlertReceived :=
  match state.lastAlert with
  | none => (lastSeenCount, none)
  | some alert =>
    if lastSeenCount < state.alertCount then
      (state.alertCount, some (alertReceived text c alert))
    else (lastSeenCount, none)

/-! ## The config entry -/

inductive LoadPhase
  | unloaded
  | restored
  | registered
  | unloading
deriving DecidableEq

/-- `listeners` are the entities that are added, in the order in which they were,
`lastSeenCount` the `_last_seen_count` of those that are event entities, and `fired` every
event that has been fired. -/
structure Runtime where
  config : UniFiClientConfig
  coord : Coordinator
  phase : LoadPhase := .unloaded
  listeners : List Entity := []
  lastSeenCount : Category → Int := fun _ => 0
  fired : List AlertReceived := []

/-- What happens to an entry. The entities come and go in any order, and the user may have
disabled some. `notified` is an update of the listeners that is no push's: at the end of a
poll, or of the write of a clear. -/
inductive EntryEvent
  | setup (config : UniFiClientConfig) (now : Instant) (file : JsonObj)
  | register
  | added (x : Entity)
  | call (t : TimedOp)
  | notified (now : Instant)
  | setupFailed
  | unload
  | removed (x : Entity)
  | unregister

namespace Runtime

def start (config : UniFiClientConfig) : Runtime where
  config
  coord := .fresh config

/-- Webhooks are registered. -/
def live (r : Runtime) : Bool := r.phase == .registered || r.phase == .unloading

/-- `async_added_to_hass`: an event entity has seen what is there. -/
def asyncAddedToHass (r : Runtime) (x : Entity) : Runtime :=
  { r with
    listeners := r.listeners ++ [x]
    lastSeenCount := match x with
      | .alertEventEntity c =>
        Function.update r.lastSeenCount c (r.coord.states c).alertCount
      | _ => r.lastSeenCount }

/-- What the update does to a listener that it calls, beside its state being written. -/
def handleUpdate (text : Text) (r : Runtime) : Entity → Runtime
  | .alertEventEntity c =>
    let (seen, event) := handleCoordinatorUpdate text c (r.lastSeenCount c) (r.coord.states c)
    { r with
      lastSeenCount := Function.update r.lastSeenCount c seen
      fired := r.fired ++ event.toList }
  | _ => r

/-- `async_update_listeners`; the listeners read the coordinator and not one another. -/
def updateListeners (text : Text) (now : Instant) (r : Runtime) : Runtime :=
  (UnifiAlerts.updateListeners text now r.coord r.listeners).1.foldl (handleUpdate text) r

/-- A method of the coordinator, with the notification it makes itself. -/
def take (text : Text) (r : Runtime) (t : TimedOp) : Runtime :=
  let turn := Coordinator.turn r.config r.coord t
  let r := { r with coord := turn.coord }
  if turn.calls.contains .notify then r.updateListeners text t.now.wall else r

/-- The methods that can be called now: a push comes through a webhook. -/
def accepts (r : Runtime) : Op → Bool
  | .push _ _ => r.live
  | _ => r.phase != .unloaded

def step (text : Text) (r : Runtime) : EntryEvent → Runtime
  | .setup config now file =>
    if r.phase = .unloaded then
      match Coordinator.restoreWatermarks text now file (.fresh config) with
      | .ok coord => { config, coord, phase := .restored, fired := r.fired }
      | .error _ => r
    else r
  | .register => if r.phase = .restored then { r with phase := .registered } else r
  | .added x =>
    if r.phase = .registered ∧ x.shown r.coord = true ∧ x ∉ r.listeners then r.asyncAddedToHass x
    else r
  | .call t => if r.accepts t.op then r.take text t else r
  | .notified now => r.updateListeners text now
  | .setupFailed => if r.phase = .registered then { r with phase := .unloaded } else r
  | .unload => if r.phase = .registered then { r with phase := .unloading } else r
  | .removed x =>
    if r.phase = .unloading then { r with listeners := r.listeners.filter (· != x) } else r
  | .unregister =>
    if r.phase = .unloading ∧ r.listeners = [] then { r with phase := .unloaded } else r

/-! ## The contract -/

/-- The category that accepts the alert, when the event is a push that a webhook delivers
and `push_alert` accepts. -/
def accepted (r : Runtime) : EntryEvent → Option (Category × UniFiAlert)
  | .call ⟨now, .push category alert⟩ =>
    if r.live then match Coordinator.pushVerdict r.config r.coord now.mono category alert with
      | .ok (.accepted c) => some (c, alert)
      | _ => none
    else none
  | _ => none

/-- An accepted push fires its event, once, as the last of the events so far; a step that
accepts no push fires none. -/
def FiresOnce (text : Text) (r : Runtime) (e : EntryEvent) : Prop :=
  (r.step text e).fired =
    r.fired ++ ((r.accepted e).map fun p => alertReceived text p.1 p.2).toList

/-- The category's watermark can be compared with the alert, and the entity of the category
is there, behind no listener that raises on the alert. -/
def Heard (r : Runtime) (e : EntryEvent) : Prop :=
  ∀ c alert, r.accepted e = some (c, alert) →
    r.coord.MarkComparable c alert ∧
      Reached (Coordinator.withLast r.coord.states c alert) (.alertEventEntity c) r.listeners

end Runtime

/-! ## Notifications -/

/-- Only a push notifies the listeners in its own turn. -/
theorem not_notify_of_not_push {config : UniFiClientConfig} {coord : Coordinator} {t : TimedOp}
    (h : ∀ category alert, t.op ≠ .push category alert) :
    (Coordinator.turn config coord t).calls.contains .notify = false := by
  obtain ⟨now, op⟩ := t
  cases op with
  | fetch net => rfl
  | poll categorised =>
      obtain ⟨cs, hcs⟩ := Coordinator.applyPoll_calls config categorised coord
      show (Coordinator.applyPoll config categorised coord).calls.contains .notify = false
      rw [hcs]
      simp
  | push category alert => exact absurd rfl (h category alert)
  | clearCategory category =>
      show (Coordinator.clearCategory coord now.wall category).calls.contains .notify = false
      unfold Coordinator.clearCategory
      split <;> rfl
  | clearAll =>
      show (Coordinator.clearAll coord now.wall).calls.contains .notify = false
      simp [Coordinator.clearAll]
  | autoClear c =>
      show (Coordinator.autoClear coord now.wall c).calls.contains .notify = false
      unfold Coordinator.autoClear
      split <;> rfl

namespace Runtime

variable {text : Text} {r : Runtime}

/-! ## The counters -/

/-- The event entities that are there have seen every alert: each has the alert count of
its category as the last one seen. -/
def InSync (r : Runtime) : Prop :=
  ∀ c, .alertEventEntity c ∈ r.listeners → r.lastSeenCount c = (r.coord.states c).alertCount

theorem handle_of_seen {c : Category} (state : CategoryState) :
    handleCoordinatorUpdate text c state.alertCount state = (state.alertCount, none) := by
  unfold handleCoordinatorUpdate
  split
  · rfl
  · rw [if_neg (by omega)]

/-- An entity that has seen every alert fires nothing. -/
theorem handleUpdate_of_seen {x : Entity}
    (hseen : ∀ c, x = .alertEventEntity c → r.lastSeenCount c = (r.coord.states c).alertCount) :
    r.handleUpdate text x = r := by
  cases x with
  | alertEventEntity c =>
      simp only [handleUpdate, hseen c rfl, handle_of_seen, Option.toList_none, List.append_nil]
      rw [← hseen c rfl, Function.update_eq_self]
  | _ => rfl

theorem foldl_of_seen : ∀ {told : List Entity},
    (∀ c, .alertEventEntity c ∈ told → r.lastSeenCount c = (r.coord.states c).alertCount) →
      told.foldl (handleUpdate text) r = r
  | [], _ => rfl
  | x :: told, hseen => by
      have hx : r.handleUpdate text x = r :=
        handleUpdate_of_seen fun c hc => hseen c (hc ▸ List.mem_cons_self)
      rw [List.foldl_cons, hx]
      exact foldl_of_seen fun c hc => hseen c (List.mem_cons_of_mem x hc)

/-- An entity that is one alert behind fires it, the first time it is called. -/
theorem foldl_of_behind {c : Category} {alert : UniFiAlert}
    (hbehind : r.lastSeenCount c < (r.coord.states c).alertCount)
    (hlast : (r.coord.states c).lastAlert = some alert) : ∀ {told : List Entity},
    (∀ d ≠ c, .alertEventEntity d ∈ told → r.lastSeenCount d = (r.coord.states d).alertCount) →
      .alertEventEntity c ∈ told →
      told.foldl (handleUpdate text) r =
        { r with
          lastSeenCount := Function.update r.lastSeenCount c (r.coord.states c).alertCount
          fired := r.fired ++ [alertReceived text c alert] }
  | [], _, hmem => absurd hmem List.not_mem_nil
  | x :: told, hothers, hmem => by
      rw [List.foldl_cons]
      by_cases hx : x = .alertEventEntity c
      · subst hx
        have hhandle : r.handleUpdate text (.alertEventEntity c) =
            { r with
              lastSeenCount := Function.update r.lastSeenCount c (r.coord.states c).alertCount
              fired := r.fired ++ [alertReceived text c alert] } := by
          simp only [handleUpdate, handleCoordinatorUpdate, hlast, if_pos hbehind,
            Option.toList_some]
        rw [hhandle]
        refine foldl_of_seen fun d hd => ?_
        dsimp only
        by_cases hdc : d = c
        · rw [hdc, Function.update_self]
        · rw [Function.update_of_ne hdc]
          exact hothers d hdc (List.mem_cons_of_mem _ hd)
      · have hkeep : r.handleUpdate text x = r := by
          refine handleUpdate_of_seen fun d hd => hothers d ?_ (hd ▸ List.mem_cons_self)
          rintro rfl
          exact hx hd
        rw [hkeep]
        exact foldl_of_behind hbehind hlast
          (fun d hdc hd => hothers d hdc (List.mem_cons_of_mem x hd))
          ((List.mem_cons.mp hmem).resolve_left fun heq => hx heq.symm)

/-- Entities that have seen every alert fire nothing, wherever the update ends. -/
theorem updateListeners_inSync (hsync : InSync r) (now : Instant) :
    r.updateListeners text now = r :=
  foldl_of_seen fun c hc => hsync c (told_subset hc)

section

variable {coord : Coordinator} {c : Category} {alert : UniFiAlert}

/-- After an alert was applied, the entities of the other categories have seen every one. -/
theorem seen_of_applied (hsync : InSync r) (happlied : Coordinator.Applied r.coord coord c alert)
    {d : Category} (hd : d ≠ c) (hmem : .alertEventEntity d ∈ r.listeners) :
    r.lastSeenCount d = (coord.states d).alertCount := by
  rw [happlied.others d hd]
  exact hsync d hmem

/-- The entity of the category fires the alert when the update reaches it. -/
theorem updateListeners_reached (hsync : InSync r)
    (happlied : Coordinator.Applied r.coord coord c alert) (now : Instant)
    (hreached : Reached coord.states (.alertEventEntity c) r.listeners) :
    (updateListeners text now { r with coord }).fired = r.fired ++ [alertReceived text c alert] ∧
      InSync (updateListeners text now { r with coord }) := by
  have htold : .alertEventEntity c ∈
      (UnifiAlerts.updateListeners text now coord r.listeners).1 :=
    (mem_told_iff (x := .alertEventEntity c) trivial).mpr hreached
  have hmem : .alertEventEntity c ∈ r.listeners := told_subset htold
  have hbehind : r.lastSeenCount c < (coord.states c).alertCount := by
    rw [hsync c hmem, happlied.state]
    exact Int.lt_succ _
  have hlast : (coord.states c).lastAlert = some alert := by
    rw [happlied.state]
    rfl
  have hfold := @foldl_of_behind text { r with coord } c alert hbehind hlast _
    (fun d hd hdtold => seen_of_applied hsync happlied hd (told_subset hdtold)) htold
  have hupdate : updateListeners text now { r with coord } = _ := hfold
  rw [hupdate]
  refine ⟨rfl, fun d hd => ?_⟩
  dsimp only
  by_cases hdc : d = c
  · rw [hdc, Function.update_self]
  · rw [Function.update_of_ne hdc]
    exact seen_of_applied hsync happlied hdc hd

/-- And nothing is fired when it does not. -/
theorem updateListeners_unreached (hsync : InSync r)
    (happlied : Coordinator.Applied r.coord coord c alert) (now : Instant)
    (hreached : ¬Reached coord.states (.alertEventEntity c) r.listeners) :
    updateListeners text now { r with coord } = { r with coord } := by
  refine foldl_of_seen fun d hd => ?_
  refine seen_of_applied hsync happlied ?_ (told_subset hd)
  rintro rfl
  exact hreached ((mem_told_iff (x := .alertEventEntity d) trivial).mp hd)

end

/-! ## Steps that accept no push -/

/-- Nothing is fired, and every entity has seen every alert, so that nothing will be fired
for what the step did either. -/
structure Quiet (r r' : Runtime) : Prop where
  fired : r'.fired = r.fired
  sync : InSync r'

theorem quiet_setup (hsync : InSync r) (config : UniFiClientConfig) (now : Instant)
    (file : JsonObj) : Quiet r (r.step text (.setup config now file)) := by
  unfold step
  dsimp only
  split
  · split
    · exact ⟨rfl, fun _ hmem => absurd hmem List.not_mem_nil⟩
    · exact ⟨rfl, hsync⟩
  · exact ⟨rfl, hsync⟩

/-- An entity that is added starts from the count that is there. -/
theorem quiet_added (hsync : InSync r) (x : Entity) : Quiet r (r.step text (.added x)) := by
  unfold step
  dsimp only
  split
  · refine ⟨rfl, fun c hc => ?_⟩
    have hmem : .alertEventEntity c ∈ r.listeners ∨ .alertEventEntity c = x := by
      simpa [asyncAddedToHass] using hc
    by_cases hx : x = .alertEventEntity c
    · subst hx
      exact Function.update_self c _ _
    · have hold := hsync c (hmem.resolve_right (Ne.symm hx))
      cases x with
      | alertEventEntity d =>
          have hcd : c ≠ d := fun heq => hx (by rw [heq])
          exact (Function.update_of_ne hcd _ _).trans hold
      | _ => exact hold
  · exact ⟨rfl, hsync⟩

theorem quiet_removed (hsync : InSync r) (x : Entity) : Quiet r (r.step text (.removed x)) := by
  unfold step
  dsimp only
  split
  · exact ⟨rfl, fun c hc => hsync c (List.mem_of_mem_filter hc)⟩
  · exact ⟨rfl, hsync⟩

/-- A turn that applies no alert notifies no entity of one. -/
theorem quiet_take {t : TimedOp} (hsync : InSync r)
    (hcounts : ∀ c, ((Coordinator.turn r.config r.coord t).coord.states c).alertCount =
      (r.coord.states c).alertCount)
    (hquiet : (Coordinator.turn r.config r.coord t).calls.contains .notify = false) :
    Quiet r (r.take text t) := by
  unfold take
  dsimp only
  rw [hquiet]
  exact ⟨rfl, fun c hc => (hsync c hc).trans (hcounts c).symm⟩

theorem quiet_call {t : TimedOp} (hsync : InSync r)
    (hnot : ∀ category alert, t.op ≠ .push category alert) :
    Quiet r (r.step text (.call t)) := by
  unfold step
  dsimp only
  split
  · exact quiet_take hsync (fun c => Coordinator.step_alertCount_of_not_push hnot c)
      (not_notify_of_not_push hnot)
  · exact ⟨rfl, hsync⟩

/-- A push that is not delivered, or not accepted. -/
theorem quiet_push {now : Reading} {category : String} {alert : UniFiAlert} (hsync : InSync r)
    (hnot : r.live = true → ∀ c,
      Coordinator.pushVerdict r.config r.coord now.mono category alert ≠ .ok (.accepted c)) :
    Quiet r (r.step text (.call ⟨now, .push category alert⟩)) := by
  unfold step
  dsimp only
  split
  · rename_i hlive
    have hrefused := hnot hlive
    refine quiet_take hsync (fun c => ?_) (Coordinator.pushAlert_not_accepted hrefused).1
    have hstate := (Coordinator.pushAlert_of_not_accepted hrefused).states c
    exact (congrArg CategoryState.alertCount hstate).trans rfl
  · exact ⟨rfl, hsync⟩

/-! ## Accepted pushes -/

theorem accepted_eq_some_iff {e : EntryEvent} {c : Category} {alert : UniFiAlert} :
    r.accepted e = some (c, alert) ↔ ∃ now category, e = .call ⟨now, .push category alert⟩ ∧
      r.live = true ∧ Coordinator.pushVerdict r.config r.coord now.mono category alert =
        .ok (.accepted c) := by
  constructor
  · intro h
    unfold accepted at h
    split at h
    · rename_i now category alert'
      split at h
      · rename_i hlive
        split at h
        · rename_i c' hverdict
          obtain ⟨rfl, rfl⟩ := Prod.mk.inj (Option.some.inj h)
          exact ⟨now, category, rfl, hlive, hverdict⟩
        · cases h
      · cases h
    · cases h
  · rintro ⟨now, category, rfl, hlive, hverdict⟩
    unfold accepted
    dsimp only
    rw [hlive, hverdict]
    rfl

/-- What an event does that accepts nothing. -/
theorem quiet_of_not_accepted {e : EntryEvent} (hsync : InSync r) (hnone : r.accepted e = none) :
    Quiet r (r.step text e) := by
  cases e with
  | setup config now file => exact quiet_setup hsync config now file
  | added x => exact quiet_added hsync x
  | removed x => exact quiet_removed hsync x
  | notified now =>
      have hupdate : r.step text (.notified now) = r := updateListeners_inSync hsync now
      rw [hupdate]
      exact ⟨rfl, hsync⟩
  | call t =>
      obtain ⟨now, op⟩ := t
      cases op with
      | push category alert =>
          refine quiet_push hsync fun hlive c hverdict => ?_
          have hsome := accepted_eq_some_iff.mpr ⟨now, category, rfl, hlive, hverdict⟩
          rw [hnone] at hsome
          cases hsome
      | _ => exact quiet_call hsync (by simp)
  | _ =>
      unfold step
      dsimp only
      split <;> exact ⟨rfl, hsync⟩

/-- An accepted push fires its event exactly when it is heard. -/
theorem fired_of_accepted {e : EntryEvent} {c : Category} {alert : UniFiAlert} (hsync : InSync r)
    (hsome : r.accepted e = some (c, alert)) :
    (r.Heard e ∧ (r.step text e).fired = r.fired ++ [alertReceived text c alert] ∧
        InSync (r.step text e)) ∨
      ¬r.Heard e ∧ (r.step text e).fired = r.fired := by
  have hheard : r.Heard e ↔ r.coord.MarkComparable c alert ∧
      Reached (Coordinator.withLast r.coord.states c alert) (.alertEventEntity c) r.listeners := by
    constructor
    · exact fun h => h c alert hsome
    · intro h d a hda
      obtain ⟨rfl, rfl⟩ := Prod.mk.inj (Option.some.inj (hsome.symm.trans hda))
      exact h
  obtain ⟨now, category, rfl, hlive, hverdict⟩ := accepted_eq_some_iff.mp hsome
  have hstep : r.step text (.call ⟨now, .push category alert⟩) =
      r.take text ⟨now, .push category alert⟩ := if_pos hlive
  have happlied := Coordinator.pushAlert_applied hverdict
  have hreached : Reached
    (Coordinator.pushAlert r.config r.coord now.mono category alert).coord.states
      (.alertEventEntity c) r.listeners ↔
      Reached (Coordinator.withLast r.coord.states c alert) (.alertEventEntity c) r.listeners :=
    reached_congr (Coordinator.readable_pushAlert hverdict)
  rw [hheard, hstep, ← hreached]
  unfold take
  dsimp only [Coordinator.turn]
  rcases Coordinator.pushAlert_accepted hverdict with ⟨hcomparable, hnotify, -⟩ |
    ⟨hincomparable, hnotify, -⟩
  · rw [if_pos hnotify, and_iff_right hcomparable]
    by_cases hr : Reached (Coordinator.pushAlert r.config r.coord now.mono category
        alert).coord.states (.alertEventEntity c) r.listeners
    · exact Or.inl ⟨hr, updateListeners_reached hsync happlied now.wall hr⟩
    · exact Or.inr ⟨hr, by rw [updateListeners_unreached hsync happlied now.wall hr]⟩
  · rw [if_neg (by rw [hnotify]; exact Bool.false_ne_true)]
    exact Or.inr ⟨fun h => hincomparable h.1, rfl⟩

theorem firesOnce_iff (r : Runtime) (e : EntryEvent) (hsync : InSync r) :
    r.FiresOnce text e ↔ r.Heard e := by
  unfold FiresOnce
  cases haccepted : r.accepted e with
  | none =>
      refine iff_of_true ?_ fun c alert hsome => ?_
      · rw [(quiet_of_not_accepted hsync haccepted).fired]
        exact (List.append_nil _).symm
      · rw [haccepted] at hsome
        cases hsome
  | some p =>
      rcases @fired_of_accepted text r e p.1 p.2 hsync haccepted with ⟨hheard, hfired, -⟩ |
        ⟨hunheard, hfired⟩
      · exact iff_of_true hfired hheard
      · rw [hfired]
        exact iff_of_false (by simp) hunheard

theorem inSync_step (r : Runtime) (e : EntryEvent) (hsync : InSync r)
    (hfires : r.FiresOnce text e) : InSync (r.step text e) := by
  have hheard := (firesOnce_iff r e hsync).mp hfires
  cases haccepted : r.accepted e with
  | none => exact (quiet_of_not_accepted hsync haccepted).sync
  | some p =>
      rcases @fired_of_accepted text r e p.1 p.2 hsync haccepted with ⟨-, -, hsync'⟩ |
        ⟨hunheard, -⟩
      · exact hsync'
      · exact absurd hheard hunheard

/-- Over every interleaving of an entry's setups and unloads with pushes, polls and clears:
each accepted push fires its event, and nothing else fires any, exactly when each
accepted push is heard. -/
theorem fires_once_iff (text : Text) (config : UniFiClientConfig) (events : List EntryEvent) :
    Lib.Along (step text) (FiresOnce text) (start config) events ↔
      Lib.Along (step text) Heard (start config) events :=
  Lib.along_iff_of_kept inSync_step firesOnce_iff fun _ hmem => absurd hmem List.not_mem_nil

def onBattery : UniFiAlert where
  category := "power"
  message := "UPS on battery"
  receivedAt := .aware 0

/-- A push comes in while the platforms are still adding the entities. -/
def earlyPush : List EntryEvent :=
  [.setup {} 0 [],
   .register,
   .call ⟨⟨0, 0⟩, .push "power" onBattery⟩,
   .added (.alertEventEntity .power),
   .notified 0]

/-- A push comes in while another category's last alert, restored from the store, has a
time without an offset. -/
def mixedTimes : List EntryEvent :=
  [.setup {} 0 [("network_wan", .obj [("last_alert", .obj [("received_at", .str "n+7")])])],
   .register,
   .added .rollupBinarySensor,
   .added (.alertEventEntity .power),
   .call ⟨⟨0, 0⟩, .push "power" onBattery⟩]

/-- A push that is accepted without its event being fired breaks the contract. -/
theorem not_along_of_missed {config : UniFiClientConfig} {pre post : List EntryEvent}
    {e : EntryEvent} (haccepted : ((Lib.run (step text) (start config) pre).accepted e).isSome)
    (hfired : ((Lib.run (step text) (start config) pre).step text e).fired =
      (Lib.run (step text) (start config) pre).fired) :
    ¬Lib.Along (step text) (FiresOnce text) (start config) (pre ++ e :: post) := by
  intro halong
  have hfires := Lib.along_iff_split.mp halong pre e post rfl
  obtain ⟨p, hp⟩ := Option.isSome_iff_exists.mp haccepted
  unfold FiresOnce at hfires
  rw [hp, hfired] at hfires
  simp at hfires

/-- The first entity starts from the count that the push has left, and the second is not
called, since the rollup before it raises. -/
theorem pushes_unheard :
    let text := Text.counting fun _ => none
    let after := Lib.run (step text) (start {})
    (((after earlyPush).coord.states .power).alertCount = 1 ∧ (after earlyPush).fired = [] ∧
        ¬Lib.Along (step text) (FiresOnce text) (start {}) earlyPush) ∧
      ((after mixedTimes).coord.states .power).alertCount = 1 ∧ (after mixedTimes).fired = [] ∧
        ¬Lib.Along (step text) (FiresOnce text) (start {}) mixedTimes := by
  intro text after
  refine ⟨⟨by decide +kernel, by decide +kernel, ?_⟩, by decide +kernel, by decide +kernel, ?_⟩
  · exact @not_along_of_missed text {} (earlyPush.take 2) (earlyPush.drop 3) _
      (by decide +kernel) (by decide +kernel)
  · exact @not_along_of_missed text {} (mixedTimes.take 4) [] _
      (by decide +kernel) (by decide +kernel)

end Runtime

end UnifiAlerts
