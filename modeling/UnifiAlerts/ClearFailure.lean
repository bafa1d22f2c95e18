import Mathlib.Data.List.Nodup
import UnifiAlerts.Lib.Comp
import UnifiAlerts.Listeners
import UnifiAlerts.Ops

/-!
# Clears whose write fails

The clear operations as they run: what they change in memory, the
awaited write, and the update of the listeners after it. A button and an
auto-clear timer act on one coordinator, a service on those of all the
loaded entries or of one.

The exception of a failed write leaves the operation before the update,
and the loop of a service before the entries to come. So does the
exception of a listener that cannot write its state, which ends the
update before the listeners that are left. A clear does not touch the
times that the listeners need, so what they will do can be read off the
state before it.

A clear is therefore complete exactly when every write it issues
succeeds and every listener it notifies is readable
(`clear_complete_iff`). What it does to the coordinator is its turn
(`Clear.run_of_acts`, `Clear.turn_clears`).
-/

namespace UnifiAlerts

open Py Lib

/-! ## One coordinator -/

/-- One update of the listeners: the states, and the listeners that have shown them. -/
structure Update where
  states : Category → CategoryState
  told : List Entity

/-- A coordinator, its listeners, whether an auto-clear task of a category is pending, the
repair issue, and the updates so far. -/
structure Served where
  coord : Coordinator
  listeners : List Entity := []
  pending : Category → Bool := fun _ => false
  persistFailed : Bool := false
  updates : List Update := []

/-- The wall clock of a call, how times are printed, and whether the write of the store
succeeds. -/
structure Surroundings where
  now : Instant
  text : Text
  saves : Bool

inductive ClearExc
  | saveFailed
  | listener (e : Exc)
  | unknownEntryId
  | entryNotLoaded
deriving DecidableEq

namespace Served

abbrev ServedM := Comp ClearExc Served

def cancelClear (c : Category) : ServedM Unit :=
  Comp.update fun s => { s with pending := Function.update s.pending c false }

/-- `state.clear()`. -/
def clearState (now : Instant) (c : Category) : ServedM Unit :=
  Comp.update fun s => { s with coord := s.coord.setState c ((s.coord.states c).clear now) }

def asyncPersistWatermarks (saves : Bool) : ServedM Unit := do
  if saves then Comp.update fun s => { s with persistFailed := false }
  else
    Comp.update fun s => { s with persistFailed := true }
    Comp.raise .saveFailed

def asyncSetUpdatedData (env : Surroundings) : ServedM Unit := fun s =>
  let (told, ended) := updateListeners env.text env.now s.coord s.listeners
  (ended.mapError .listener, { s with updates := s.updates ++ [⟨s.coord.states, told⟩] })

def asyncClearCategory (env : Surroundings) (category : String) : ServedM Unit :=
  match Category.ofName? category with
  | none => pure ()
  | some c => do
    cancelClear c
    clearState env.now c
    asyncPersistWatermarks env.saves
    asyncSetUpdatedData env

/-- The loop of `async_clear_all`. -/
def clearEnabled (now : Instant) : List Category → ServedM Unit
  | [] => pure ()
  | c :: cs => do
    if ← Comp.gets fun s => (s.coord.states c).enabled then
      cancelClear c
      clearState now c
    clearEnabled now cs

def asyncClearAll (env : Surroundings) : ServedM Unit := do
  clearEnabled env.now allCategories
  asyncPersistWatermarks env.saves
  asyncSetUpdatedData env

/-- `_auto_clear` after its sleep. -/
def autoClear (env : Surroundings) (c : Category) : ServedM Unit := do
  if ← Comp.gets fun s => (s.coord.states c).isAlerting then
    clearState env.now c
    asyncPersistWatermarks env.saves
    asyncSetUpdatedData env
  else pure ()

end Served

inductive Clear
  | category (name : String)
  | all
  | timer (c : Category)

namespace Clear

open Served

def run (env : Surroundings) : Clear → ServedM Unit
  | .category name => asyncClearCategory env name
  | .all => asyncClearAll env
  | .timer c => autoClear env c

def op : Clear → Op
  | .category name => .clearCategory name
  | .all => .clearAll
  | .timer c => .autoClear c

def turn (coord : Coordinator) (now : Instant) : Clear → Turn
  | .category name => coord.clearCategory now name
  | .all => coord.clearAll now
  | .timer c => coord.autoClear now c

/-- There is something to clear: a category of that name, or one that is alerting. -/
def acts (coord : Coordinator) : Clear → Bool
  | .category name => (Category.ofName? name).isSome
  | .all => true
  | .timer c => (coord.states c).isAlerting

/-- The contract, on a coordinator that the operation is called on: what it clears is
cleared, all listeners have been told the state after it, and the issue says whether the
write has failed. -/
structure Complete (env : Surroundings) (s s' : Served) (clear : Clear) : Prop where
  cleared : ∀ c, Coordinator.clears s.coord c clear.op = true →
    s'.coord.states c = (s.coord.states c).clear env.now
  notified : clear.acts s.coord = true →
    s'.updates = s.updates ++ [⟨s'.coord.states, s.listeners⟩]
  issue : s'.persistFailed = if clear.acts s.coord then !env.saves else s.persistFailed

/-! ### What a clear does -/

/-- The state after the write: the listeners get an update when it has succeeded. -/
theorem saved_run (env : Surroundings) (s : Served) :
    (do asyncPersistWatermarks env.saves; asyncSetUpdatedData env : ServedM Unit) s =
      if env.saves then asyncSetUpdatedData env { s with persistFailed := false }
      else (.error .saveFailed, { s with persistFailed := true }) := by
  cases env.saves <;> rfl

/-- What the loop has done to the categories `cs`. -/
theorem clearEnabled_run (now : Instant) :
    ∀ (cs : List Category) (s : Served), cs.Nodup → ∃ states pending,
      clearEnabled now cs s = (.ok (), { s with coord := { s.coord with states }, pending }) ∧
        ∀ c, (states c = if c ∈ cs ∧ (s.coord.states c).enabled = true then
            (s.coord.states c).clear now else s.coord.states c) ∧
          (pending c = if c ∈ cs ∧ (s.coord.states c).enabled = true then false else s.pending c)
  | [], s, _ => ⟨s.coord.states, s.pending, rfl, fun c => by simp⟩
  | d :: ds, s, hnodup => by
      obtain ⟨hd, hds⟩ := List.nodup_cons.mp hnodup
      unfold clearEnabled
      rw [Comp.gets_bind]
      cases hen : (s.coord.states d).enabled with
      | false =>
          obtain ⟨states, pending, hrun, hpoint⟩ := clearEnabled_run now ds s hds
          refine ⟨states, pending, hrun, fun c => ?_⟩
          rw [(hpoint c).1, (hpoint c).2]
          have hiff : (c ∈ ds ∧ (s.coord.states c).enabled = true) ↔
              c ∈ d :: ds ∧ (s.coord.states c).enabled = true := by
            by_cases hcd : c = d
            · subst hcd
              simp [hen]
            · simp [hcd]
          simp only [hiff, and_self]
      | true =>
          obtain ⟨states, pending, hrun, hpoint⟩ := clearEnabled_run now ds { s with
            pending := Function.update s.pending d false
            coord := s.coord.setState d ((s.coord.states d).clear now) } hds
          refine ⟨states, pending, hrun, fun c => ?_⟩
          rw [(hpoint c).1, (hpoint c).2]
          by_cases hcd : c = d
          · subst hcd
            simp [hd, hen]
          · simp [hcd]

section

variable {env : Surroundings} {clear : Clear} {s : Served}

/-- With nothing to clear the operation returns at once, as its turn does. -/
theorem run_of_idle (h : clear.acts s.coord = false) :
    clear.run env s = (.ok (), s) ∧ clear.turn s.coord env.now = { coord := s.coord } := by
  cases clear with
  | category name =>
      have hname : Category.ofName? name = none := by simpa [acts] using h
      simp only [run, asyncClearCategory, turn, Coordinator.clearCategory, hname, and_true]
      rfl
  | all => cases h
  | timer d =>
      have hal : (s.coord.states d).isAlerting = false := h
      simp only [run, autoClear, turn, Coordinator.autoClear, Comp.gets_bind, hal]
      exact ⟨rfl, rfl⟩

/-- Otherwise it performs the calls of its turn, and updates the listeners once the write
has succeeded. -/
theorem run_of_acts (env : Surroundings) (h : clear.acts s.coord = true) :
    .persist ∈ (clear.turn s.coord env.now).calls ∧ ∃ pending,
      (∀ c, (.cancelClear c ∈ (clear.turn s.coord env.now).calls → pending c = false) ∧
        (.cancelClear c ∉ (clear.turn s.coord env.now).calls → pending c = s.pending c)) ∧
      clear.run env s =
        if env.saves then asyncSetUpdatedData env { s with
          coord := (clear.turn s.coord env.now).coord
          pending
          persistFailed := false }
        else (.error .saveFailed, { s with
          coord := (clear.turn s.coord env.now).coord
          pending
          persistFailed := true }) := by
  cases clear with
  | category name =>
      obtain ⟨d, hname⟩ := Option.isSome_iff_exists.mp h
      simp only [run, asyncClearCategory, turn, Coordinator.clearCategory, hname]
      refine ⟨by simp, Function.update s.pending d false, fun c => ?_, saved_run env _⟩
      by_cases hcd : c = d
      · subst hcd
        simp
      · simp [hcd]
  | all =>
      obtain ⟨states, pending, hrun, hpoint⟩ :=
        clearEnabled_run env.now allCategories s Category.all_nodup
      have hstates : states = (s.coord.clearAll env.now).coord.states := by
        funext c
        rw [(hpoint c).1]
        simp [Coordinator.clearAll, Category.mem_all]
      refine ⟨by simp [turn, Coordinator.clearAll], pending, fun c => ?_, ?_⟩
      · rw [(hpoint c).2]
        have hcancel : .cancelClear c ∈ (s.coord.clearAll env.now).calls ↔
            (s.coord.states c).enabled = true := by
          simp [Coordinator.clearAll, Category.mem_all]
        simp only [turn, hcancel, Category.mem_all, true_and]
        exact ⟨fun hen => if_pos hen, fun hen => if_neg hen⟩
      · simp only [run, asyncClearAll]
        rw [Comp.bind_run hrun, saved_run, hstates]
        rfl
  | timer d =>
      have hal : (s.coord.states d).isAlerting = true := h
      simp only [run, autoClear, turn, Coordinator.autoClear, Comp.gets_bind, hal, if_true]
      exact ⟨by simp, s.pending, by simp, saved_run env _⟩

/-- The turn clears what the operation targets. -/
theorem turn_clears {coord : Coordinator} {now : Instant} {c : Category}
    (hclears : Coordinator.clears coord c clear.op = true) :
    (clear.turn coord now).coord.states c = (coord.states c).clear now := by
  have hturn : (clear.turn coord now).coord = Coordinator.step {} coord ⟨⟨now, 0⟩, clear.op⟩ := by
    cases clear <;> rfl
  rcases Coordinator.step_state {} coord ⟨⟨now, 0⟩, clear.op⟩ c with ⟨-, hst⟩ | ⟨hnot, -⟩
  · rw [hturn, hst]
  · rw [hclears] at hnot
    cases hnot

theorem acts_of_clears {coord : Coordinator} {c : Category}
    (hclears : Coordinator.clears coord c clear.op = true) : clear.acts coord = true := by
  cases clear with
  | category name =>
      have hname : Category.ofName? name = some c := by
        simpa [op, Coordinator.clears] using hclears
      simp [acts, hname]
  | all => rfl
  | timer d =>
      obtain ⟨rfl, hal⟩ : d = c ∧ (coord.states c).isAlerting = true := by
        simpa [op, Coordinator.clears] using hclears
      exact hal

/-- A clear leaves a category as it was, or cleared. -/
theorem turn_state (clear : Clear) (coord : Coordinator) (now : Instant) (c : Category) :
    (clear.turn coord now).coord.states c = coord.states c ∨
      (clear.turn coord now).coord.states c = (coord.states c).clear now := by
  cases clear with
  | category name =>
      simp only [turn, Coordinator.clearCategory]
      split
      · exact Or.inl rfl
      · rename_i d _
        by_cases hcd : c = d
        · subst hcd
          exact Or.inr (Function.update_self c _ _)
        · exact Or.inl (Function.update_of_ne hcd _ _)
  | all =>
      simp only [turn, Coordinator.clearAll]
      split
      · exact Or.inr rfl
      · exact Or.inl rfl
  | timer d =>
      simp only [turn, Coordinator.autoClear]
      split
      · by_cases hcd : c = d
        · subst hcd
          exact Or.inr (Function.update_self c _ _)
        · exact Or.inl (Function.update_of_ne hcd _ _)
      · exact Or.inl rfl

/-- The listeners can show the cleared states when they can show the states before. -/
theorem readable_turn (clear : Clear) (coord : Coordinator) (now : Instant) (x : Entity) :
    x.Readable (clear.turn coord now).coord.states ↔ x.Readable coord.states := by
  apply Entity.readable_congr <;> intro c <;>
    rcases turn_state clear coord now c with h | h <;> rw [h] <;> rfl

/-- The write succeeds, and every listener can show what it is given, which a clear leaves
as it was. -/
def Undisturbed (env : Surroundings) (s : Served) : Prop :=
  env.saves = true ∧ ∀ x ∈ s.listeners, x.Readable s.coord.states

/-- Then the clear ends well, and every listener has been told. -/
theorem run_of_undisturbed (hacts : clear.acts s.coord = true) (h : Undisturbed env s) :
    (clear.run env s).1 = .ok () ∧
      (clear.run env s).2.coord = (clear.turn s.coord env.now).coord ∧
      (clear.run env s).2.persistFailed = false ∧ (clear.run env s).2.updates =
        s.updates ++ [⟨(clear.turn s.coord env.now).coord.states, s.listeners⟩] := by
  obtain ⟨-, pending, -, hrun⟩ := run_of_acts env hacts
  have htold := @updateListeners_of_readable env.text env.now (clear.turn s.coord env.now).coord
    s.listeners fun x hx => (readable_turn clear s.coord env.now x).mpr (h.2 x hx)
  rw [hrun, if_pos h.1, asyncSetUpdatedData]
  dsimp only
  rw [htold]
  exact ⟨rfl, rfl, rfl, rfl⟩

/-- Otherwise it raises, and not every listener has been told. -/
theorem run_of_disturbed (hacts : clear.acts s.coord = true) (h : ¬Undisturbed env s) :
    (∃ x, (clear.run env s).1 = .error x) ∧ (clear.run env s).2.updates ≠
      s.updates ++ [⟨(clear.run env s).2.coord.states, s.listeners⟩] := by
  obtain ⟨-, pending, -, hrun⟩ := run_of_acts env hacts
  rw [hrun]
  by_cases hsaves : env.saves = true
  · have hunreadable : ¬∀ x ∈ s.listeners,
        x.Readable (clear.turn s.coord env.now).coord.states := fun hall =>
      h ⟨hsaves, fun x hx => (readable_turn clear s.coord env.now x).mp (hall x hx)⟩
    obtain ⟨told, e, htold, hlt⟩ :=
      @updateListeners_of_unreadable env.text env.now _ _ hunreadable
    rw [if_pos hsaves, asyncSetUpdatedData]
    dsimp only
    rw [htold]
    refine ⟨⟨_, rfl⟩, fun heq => ?_⟩
    have hsame := Update.mk.inj (List.cons.inj (List.append_cancel_left heq)).1
    exact absurd (congrArg List.length hsame.2) (Nat.ne_of_lt hlt)
  · rw [if_neg hsaves]
    refine ⟨⟨_, rfl⟩, fun heq => ?_⟩
    have hlength := congrArg List.length heq
    simp at hlength

/-- A clear is complete exactly when it is not disturbed, if there is something to clear. -/
theorem complete_iff :
    Complete env s (clear.run env s).2 clear ↔ (clear.acts s.coord = true → Undisturbed env s) := by
  cases hacts : clear.acts s.coord with
  | false =>
      refine iff_of_true ⟨fun c hclears => ?_, fun h => ?_, ?_⟩ (by simp)
      · rw [acts_of_clears hclears] at hacts
        cases hacts
      · rw [hacts] at h
        cases h
      · rw [(run_of_idle hacts).1, hacts]
        rfl
  | true =>
      rw [forall_prop_of_true rfl]
      constructor
      · intro hcomplete
        by_contra hdisturbed
        exact (run_of_disturbed hacts hdisturbed).2 (hcomplete.notified hacts)
      · intro h
        obtain ⟨-, hcoord, hissue, hupdates⟩ := run_of_undisturbed hacts h
        refine ⟨fun c hclears => ?_, fun _ => ?_, ?_⟩
        · rw [hcoord]
          exact turn_clears hclears
        · rw [hcoord, hupdates]
        · rw [hissue, if_pos hacts, h.1]
          rfl

end

end Clear

/-! ## Buttons, timers and services -/

/-- A config entry of the integration. Those of other domains are to the services what
no entry is. -/
structure TableEntry where
  entryId : String
  loaded : Bool
  served : Served

/-- What Home Assistant keeps under their ids. -/
structure EntryTable where
  entries : List TableEntry
  nodup : (entries.map TableEntry.entryId).Nodup

inductive Operation
  | direct (entryId : String) (clear : Clear)
  | serviceClearCategory (entryId : Option String) (category : String)
  | serviceClearAll (entryId : Option String)

/-- The loop over `_get_coordinators`, on the entries that it yields. -/
def clearEach (env : String → Surroundings) (clear : Clear) (yields : TableEntry → Bool) :
    List TableEntry → Except ClearExc Unit × List TableEntry
  | [] => (.ok (), [])
  | e :: es =>
    if yields e then
      match clear.run (env e.entryId) e.served with
      | (.ok (), served) =>
        let (r, es') := clearEach env clear yields es
        (r, { e with served } :: es')
      | (.error x, served) => (.error x, { e with served } :: es)
    else
      let (r, es') := clearEach env clear yields es
      (r, e :: es')

namespace Operation

def clear : Operation → Clear
  | .direct _ clear => clear
  | .serviceClearCategory _ category => .category category
  | .serviceClearAll _ => .all

/-- The coordinators that the operation is called on. -/
def targets (e : TableEntry) : Operation → Bool
  | .direct entryId _ => e.entryId == entryId
  | .serviceClearCategory entryId _ => e.loaded && entryId.all (· == e.entryId)
  | .serviceClearAll entryId => e.loaded && entryId.all (· == e.entryId)

/-- The checks of an `entry_id` that a service call names. -/
def validate (table : EntryTable) : Operation → Except ClearExc Unit
  | .serviceClearCategory (some entryId) _ => validateId entryId
  | .serviceClearAll (some entryId) => validateId entryId
  | _ => .ok ()
where
  validateId (entryId : String) : Except ClearExc Unit :=
    match table.entries.find? (·.entryId == entryId) with
    | none => .error .unknownEntryId
    | some e => if e.loaded then .ok () else .error .entryNotLoaded

def run (env : String → Surroundings) (table : EntryTable) (op : Operation) :
    Except ClearExc Unit × List TableEntry :=
  match op.validate table with
  | .error x => (.error x, table.entries)
  | .ok () => clearEach env op.clear (fun e => op.targets e) table.entries

/-- The contract, for every coordinator that the operation is called on; the entries that
it does not target are left out. -/
def Complete (env : String → Surroundings) (table : EntryTable) (op : Operation) : Prop :=
  List.Forall₂ (fun e e' => op.targets e = true →
    op.clear.Complete (env e.entryId) e.served e'.served) table.entries (op.run env table).2

theorem clearEach_complete_iff (env : String → Surroundings) (clear : Clear)
    (yields : TableEntry → Bool) : ∀ table : List TableEntry,
    List.Forall₂ (fun e e' => yields e = true →
      clear.Complete (env e.entryId) e.served e'.served) table
      (clearEach env clear yields table).2 ↔
    ∀ e ∈ table, yields e = true → clear.acts e.served.coord = true →
      Clear.Undisturbed (env e.entryId) e.served
  | [] => by simp [clearEach]
  | e :: es => by
      have ih := clearEach_complete_iff env clear yields es
      unfold clearEach
      rw [List.forall_mem_cons]
      cases hyields : yields e with
      | false =>
          rw [if_neg (by simp)]
          dsimp only
          rw [List.forall₂_cons, ih]
          simp [hyields]
      | true =>
          rw [if_pos rfl]
          have hhead := @Clear.complete_iff (env e.entryId) clear e.served
          rcases hrun : clear.run (env e.entryId) e.served with ⟨r, served⟩
          rw [hrun] at hhead
          cases r with
          | ok u =>
              dsimp only
              rw [List.forall₂_cons, ih]
              exact and_congr_left fun _ =>
                ⟨fun h _ => hhead.mp (h hyields), fun h _ => hhead.mpr (h rfl)⟩
          | error x =>
              -- the exception is that of the write or of a listener
              have hfails : ¬(clear.acts e.served.coord = true →
                  Clear.Undisturbed (env e.entryId) e.served) := by
                intro hundisturbed
                cases hacts : clear.acts e.served.coord with
                | false =>
                    rw [(Clear.run_of_idle hacts).1] at hrun
                    cases hrun
                | true =>
                    have hok := (Clear.run_of_undisturbed hacts (hundisturbed hacts)).1
                    rw [hrun] at hok
                    cases hok
              dsimp only
              refine iff_of_false (fun hall => ?_) (fun hall => hfails (hall.1 rfl))
              exact hfails (hhead.mp ((List.forall₂_cons.mp hall).1 hyields))

/-- A refused call is called on no coordinator. -/
theorem targets_of_refused {table : EntryTable} {op : Operation} {x : ClearExc}
    (hrefused : op.validate table = .error x) : ∀ e ∈ table.entries, op.targets e = false := by
  have hid : ∀ entryId, validate.validateId table entryId = .error x → ∀ e ∈ table.entries,
      (e.loaded && (some entryId).all (· == e.entryId)) = false := by
    intro entryId hrefused e he
    by_cases heq : entryId = e.entryId
    · unfold validate.validateId at hrefused
      split at hrefused
      · rename_i hnone
        have hother := List.find?_eq_none.mp hnone e he
        exact absurd heq.symm (by simpa using hother)
      · rename_i found hfound
        have hfoundId : found.entryId = entryId := by simpa using List.find?_some hfound
        have hsame : e = found := List.inj_on_of_nodup_map table.nodup he
          (List.mem_of_find?_eq_some hfound) (heq.symm.trans hfoundId.symm)
        split at hrefused
        · cases hrefused
        · rename_i hunloaded
          rw [hsame]
          simp [hunloaded]
    · simp [heq]
  cases op with
  | direct entryId clear => cases hrefused
  | serviceClearCategory entryId category =>
      cases entryId with
      | none => cases hrefused
      | some entryId => exact hid entryId hrefused
  | serviceClearAll entryId =>
      cases entryId with
      | none => cases hrefused
      | some entryId => exact hid entryId hrefused

end Operation

/-- A clear operation of any kind leaves every coordinator that it is called on cleared,
notified and with the issue of its last write exactly when, wherever there is something to
clear, the write succeeds and every listener can show the states. -/
theorem clear_complete_iff (env : String → Surroundings) (table : EntryTable) (op : Operation) :
    op.Complete env table ↔ ∀ e ∈ table.entries, op.targets e = true →
      op.clear.acts e.served.coord = true → Clear.Undisturbed (env e.entryId) e.served := by
  unfold Operation.Complete Operation.run
  cases hvalid : op.validate table with
  | ok u => exact Operation.clearEach_complete_iff env op.clear _ table.entries
  | error x =>
      have hnone := Operation.targets_of_refused hvalid
      refine iff_of_true ?_ fun e he htarget => ?_
      · rw [List.forall₂_same]
        intro e he htarget
        rw [hnone e he] at htarget
        cases htarget
      · rw [hnone e he] at htarget
        cases htarget

/-- One category is alerting, another one has a last alert of that time, and two of the
entities are there. -/
def alertingBeside (receivedAt : DateTime) : Served where
  coord := { states := fun c => {
    category := c
    isAlerting := c == .networkWan
    lastAlert := match c with
      | .networkWan => some { category := "network_wan", message := "", receivedAt := .aware 0 }
      | .power => some { category := "power", message := "", receivedAt }
      | _ => none } }
  listeners := [.rollupBinarySensor, .clearAllButton]

/-- Two loaded entries, alike but for the time of the last alert of the first. -/
def twoEntries (receivedAt : DateTime) : EntryTable where
  entries := [
    { entryId := "home", loaded := true, served := alertingBeside receivedAt },
    { entryId := "office", loaded := true, served := alertingBeside (.aware 0) }]
  nodup := by simp

/-- The write of the first of the two entries ends so, and that of the second succeeds. -/
def homeSaves (saves : Bool) (entryId : String) : Surroundings where
  now := 0
  text := .counting fun _ => none
  saves := saves || entryId != "home"

/-- What is alerting in the second entry after the clear was not cleared. -/
theorem not_complete_of_alerting {env : String → Surroundings} {receivedAt : DateTime}
    {first second : TableEntry}
    (hrun : ((Operation.serviceClearAll none).run env (twoEntries receivedAt)).2 = [first, second])
    (halerting : (second.served.coord.states .networkWan).isAlerting = true) :
    ¬(Operation.serviceClearAll none).Complete env (twoEntries receivedAt) := by
  intro hcomplete
  unfold Operation.Complete at hcomplete
  rw [hrun] at hcomplete
  have hsecond := (List.forall₂_cons.mp (List.forall₂_cons.mp hcomplete).2).1 rfl
  rw [hsecond.cleared .networkWan rfl] at halerting
  cases halerting

/-- The write of the first entry fails, or all writes succeed and its rollup sensor meets a
time without an offset. Either leaves its listeners with the old state and the second entry
alerting. -/
theorem clear_all_stops :
    let after (saves : Bool) (receivedAt : DateTime) :=
      ((Operation.serviceClearAll none).run (homeSaves saves) (twoEntries receivedAt)).2
    let alerting (table : List TableEntry) :=
      table.map fun e => (e.served.coord.states .networkWan).isAlerting
    let told (table : List TableEntry) :=
      table.map fun e => e.served.updates.map fun u => u.told.length
    (alerting (after false (.aware 0)) = [false, true] ∧
        told (after false (.aware 0)) = [[], []] ∧
        ¬(Operation.serviceClearAll none).Complete (homeSaves false) (twoEntries (.aware 0))) ∧
      alerting (after true (.naive 0)) = [false, true] ∧
        told (after true (.naive 0)) = [[0], []] ∧
        ¬(Operation.serviceClearAll none).Complete (homeSaves true) (twoEntries (.naive 0)) :=
  ⟨⟨by decide, by decide, not_complete_of_alerting rfl (by decide)⟩,
    by decide, by decide, not_complete_of_alerting rfl (by decide)⟩

end UnifiAlerts
