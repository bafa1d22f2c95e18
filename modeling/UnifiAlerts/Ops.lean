import UnifiAlerts.Lib.Run
import UnifiAlerts.Coordinator

/-!
# Interleavings on one coordinator

`Op` is one thing that happens to a coordinator between two suspension
points: a poll's fetch, the application of a poll's data (fetched at any
earlier time, so the data is arbitrary), a push, an explicit clear, or
the firing of an auto-clear timer. `step` performs it at a clock
reading, and every list of timed operations is an interleaving.

What a step can do to one category is said once: `clears` decides
whether it clears the category, and otherwise the category takes a
number of `Moves` (`step_state`). The invariants of this development
are proved move by move.

Because the data of a poll is arbitrary and comes with the operation, an
interleaving needs no notion of a suspended poll: a stale one is an
operation like any other. What raises ends its operation with the state
reached so far. The frame of an operation is proved beside its effect
(`applyPoll_frame`, `step_enabled`), and that a fetch leaves the states
alone is an instance of `Keeps`, for any field that its parts do not
write.
-/

namespace UnifiAlerts

open Py Lib

/-- The wall clock and the monotonic clock. -/
structure Reading where
  wall : Instant
  mono : ℚ

inductive Op
  | fetch (net : Net)
  | poll (categorised : Categorised)
  | push (category : String) (alert : UniFiAlert)
  | clearCategory (category : String)
  | clearAll
  | autoClear (c : Category)

structure TimedOp where
  now : Reading
  op : Op

namespace Op

/-- The alerts an operation carries into the coordinator. -/
def alerts : Op → List UniFiAlert
  | .poll categorised => categorised.flatMap Prod.snd
  | .push _ alert => [alert]
  | _ => []

/-- Every timestamp the operation carries is timezone-aware. -/
def Aware (op : Op) : Prop := ∀ a ∈ op.alerts, a.receivedAt.isAware = true

end Op

namespace Coordinator

def turn (config : UniFiClientConfig) (coord : Coordinator) (t : TimedOp) : Turn :=
  match t.op with
  | .fetch net => { coord := (fetchCategorised net config.effectiveSite coord).2 }
  | .poll categorised => applyPoll config categorised coord
  | .push category alert => pushAlert config coord t.now.mono category alert
  | .clearCategory category => clearCategory coord t.now.wall category
  | .clearAll => clearAll coord t.now.wall
  | .autoClear c => autoClear coord t.now.wall c

def step (config : UniFiClientConfig) (coord : Coordinator) (t : TimedOp) : Coordinator :=
  (turn config coord t).coord

@[simp] theorem setState_states (coord : Coordinator) (c d : Category) (state : CategoryState) :
    (coord.setState c state).states d = if d = c then state else coord.states d := by
  simp [setState, Function.update_apply]

@[simp] theorem setState_lastPushAt (coord : Coordinator) (c : Category) (state : CategoryState) :
    (coord.setState c state).lastPushAt = coord.lastPushAt := rfl

/-! ## A fetch leaves the categories alone -/

/-- The part of the coordinator that a fetch reads at most. -/
def pushState (coord : Coordinator) : (Category → CategoryState) × (String × String → Option ℚ) :=
  (coord.states, coord.lastPushAt)

theorem onClient_keeps {α φ : Type} {f : Coordinator → φ}
    (hclient : ∀ s client, f { s with client } = f s) (x : ClientM α) : Comp.Keeps f (onClient x) :=
  .zoom fun client s => hclient s client

section

variable {φ : Type} {f : Coordinator → φ} (hclient : ∀ s client, f { s with client } = f s)
  (hcache : ∀ s hasSystemLog probeFailCount probeBackoffUntil,
    f { s with hasSystemLog, probeFailCount, probeBackoffUntil } = f s)

include hclient hcache

/-- A probe writes to the client and to the probe's own cache. -/
theorem probeOnce_keeps (net : Net) (site : String) : Comp.Keeps f (probeOnce net site) := by
  refine .bind (onClient_keeps hclient _) fun r => ?_
  cases r with
  | none =>
      refine .bind (.update fun s => hcache s _ _ _) fun _ => .bind (.gets _) fun n => ?_
      split
      · exact .bind (.update fun s => hcache s _ _ _) fun _ => .pure _
      · exact .pure _
  | some b => cases b <;> exact .bind (.update fun s => hcache s _ _ _) fun _ => .pure _

theorem probeHasSystemLog_keeps (net : Net) (site : String) :
    Comp.Keeps f (probeHasSystemLog net site) := by
  refine .bind (.gets _) fun cached => .bind (.gets _) fun backoffUntil => ?_
  split
  · exact probeOnce_keeps hclient hcache net site
  · split
    · exact .bind (.update fun s => hcache s _ _ _) fun _ => probeOnce_keeps hclient hcache net site
    · exact .pure _
  · exact .pure _

end

section

variable {R : Coordinator → Coordinator → Prop} (hrefl : ∀ s, R s s)
  (htrans : ∀ s s' s'', R s s' → R s' s'' → R s s'')

include hrefl htrans

theorem groupEvents_within (hseen : ∀ s seenUnknownKeys, R s { s with seenUnknownKeys })
    (hkeys : ∀ s unrecognisedKeys, R s { s with unrecognisedKeys }) (net : Net) :
    ∀ (events : List JsonObj) (categorised : Categorised),
      Comp.Within R (groupEvents net events categorised)
  | [], _ => .pure hrefl _
  | event :: events, categorised => by
      have ih := groupEvents_within hseen hkeys net events
      refine .bind htrans (.gets hrefl _) fun seen => .bind htrans (.lift hrefl _) fun r =>
        .bind htrans (.update fun s => hseen s _) fun _ => ?_
      split
      · split
        · split
          · exact .bind htrans (.update fun s => hkeys s _) fun _ => ih _
          · exact ih _
        · exact ih _
      · exact ih _

/-- A controller that cannot be reached counts as one without the system log. -/
theorem probeOrFalse_within {net : Net} {site : String}
    (hprobe : Comp.Within R (probeHasSystemLog net site)) :
    Comp.Within R (Comp.handle (probeHasSystemLog net site) fun e =>
      match e with
      | .cannotConnect _ _ => some (pure false)
      | .invalidAuth _ => some (pure false)
      | _ => none) := by
  refine .handle htrans hprobe fun e y hy => ?_
  split at hy
  · obtain rfl := Option.some.inj hy
    exact .pure hrefl _
  · obtain rfl := Option.some.inj hy
    exact .pure hrefl _
  · cases hy

theorem fetchLegacy_within {net : Net} {site : String}
    (halarms : Comp.Within R (onClient (categoriseAlarms net site))) :
    Comp.Within R (fetchLegacy net site) := by
  refine .handle htrans (.bind htrans halarms fun _ => .pure hrefl _) fun e y hy => ?_
  split at hy
  · obtain rfl := Option.some.inj hy
    exact .pure hrefl _
  · cases hy

/-- What the requests of a fetch and its counters keep, the fetch keeps. -/
theorem fetchCategorised_within {net : Net} {site : String}
    (hprobe : Comp.Within R (probeHasSystemLog net site))
    (halarms : Comp.Within R (onClient (categoriseAlarms net site)))
    (hv2 : Comp.Within R (fetchV2 net site))
    (hkeys : ∀ s unrecognisedKeys, R s { s with unrecognisedKeys }) :
    Comp.Within R (fetchCategorised net site) := by
  refine .bind htrans (probeOrFalse_within hrefl htrans hprobe) fun hasV2 =>
    .bind htrans (.gets hrefl _) fun confirmed => ?_
  split
  · refine .bind htrans (fetchLegacy_within hrefl htrans halarms) fun r => ?_
    cases r with
    | none => exact hv2
    | some result => exact .bind htrans (.update fun s => hkeys s _) fun _ => .pure hrefl _
  · exact hv2

theorem fetchV2_within {net : Net} {site : String}
    (hpages : ∀ since, Comp.Within R (onClient (fetchSystemLogAlarms net site since)))
    (hseen : ∀ s seenUnknownKeys, R s { s with seenUnknownKeys })
    (hkeys : ∀ s unrecognisedKeys, R s { s with unrecognisedKeys }) :
    Comp.Within R (fetchV2 net site) :=
  .bind htrans (.gets hrefl _) fun _ => .bind htrans (.lift hrefl _) fun since =>
    .bind htrans (hpages since) fun events =>
      groupEvents_within hrefl htrans hseen hkeys net events []

end

theorem groupEvents_keeps {φ : Type} {f : Coordinator → φ}
    (hseen : ∀ s seenUnknownKeys, f { s with seenUnknownKeys } = f s)
    (hkeys : ∀ s unrecognisedKeys, f { s with unrecognisedKeys } = f s) (net : Net)
    (events : List JsonObj) (categorised : Categorised) :
    Comp.Keeps f (groupEvents net events categorised) :=
  groupEvents_within (R := fun s s' => f s' = f s) (fun _ => rfl) (fun _ _ _ h h' => h'.trans h)
    hseen hkeys net events categorised

/-- Nor does a fetch touch what neither a request nor the counters write. -/
theorem fetchCategorised_keeps (net : Net) (site : String) :
    Comp.Keeps pushState (fetchCategorised net site) := by
  have htrans : ∀ s s' s'' : Coordinator, pushState s' = pushState s →
      pushState s'' = pushState s' → pushState s'' = pushState s := fun _ _ _ h h' => h'.trans h
  have hclient : ∀ {α : Type} (x : ClientM α), Comp.Keeps pushState (onClient x) := fun x =>
    onClient_keeps (fun _ _ => rfl) x
  have hv2 : Comp.Keeps pushState (fetchV2 net site) :=
    fetchV2_within (R := fun s s' => pushState s' = pushState s) (fun _ => rfl) htrans
      (fun _ => hclient _) (fun _ _ => rfl) fun _ _ => rfl
  exact fetchCategorised_within (R := fun s s' => pushState s' = pushState s) (fun _ => rfl) htrans
    (probeHasSystemLog_keeps (fun _ _ => rfl) (fun _ _ _ _ => rfl) net site) (hclient _) hv2
    fun _ _ => rfl

theorem fetch_states (net : Net) (site : String) (coord : Coordinator) :
    (fetchCategorised net site coord).2.states = coord.states :=
  congrArg Prod.fst (fetchCategorised_keeps net site coord)

theorem fetch_lastPushAt (net : Net) (site : String) (coord : Coordinator) :
    (fetchCategorised net site coord).2.lastPushAt = coord.lastPushAt :=
  congrArg Prod.snd (fetchCategorised_keeps net site coord)

/-! ## What a step does to one category -/

/-- Whether the operation calls `clear()` on category `c`. -/
def clears (coord : Coordinator) (c : Category) : Op → Bool
  | .clearCategory category => Category.ofName? category == some c
  | .clearAll => (coord.states c).enabled
  | .autoClear d => d == c && (coord.states c).isAlerting
  | _ => false

/-- The changes to one category other than `clear()`, by alerts among `as`. -/
inductive Moves (config : UniFiClientConfig) (as : List UniFiAlert) :
    CategoryState → CategoryState → Prop
  | refl (st : CategoryState) : Moves config as st st
  | filtered {st : CategoryState} {alert : UniFiAlert} (ha : alert ∈ as) :
      Moves config as st
        { st.recordFiltered alert with lastWebhookAt := some alert.receivedAt }
  | accepted {st : CategoryState} {alert : UniFiAlert} (ha : alert ∈ as) (n : Nat) :
      Moves config as st { acceptPush st alert with openCount := n }
  | polled {st : CategoryState} {alerts : List UniFiAlert} (cat : String) (ha : alerts ⊆ as) :
      Moves config as st (pollState config cat st alerts).1
  | zeroed (st : CategoryState) : Moves config as st { st with openCount := 0 }
  | trans {st st' st'' : CategoryState} :
      Moves config as st st' → Moves config as st' st'' → Moves config as st st''

/-- The turn of the poll loop once it has polled category `d`. -/
def polledTurn (config : UniFiClientConfig) (turn : Turn) (d : Category)
    (alerts : List UniFiAlert) : Turn :=
  let polled := pollState config d.name (turn.coord.states d) alerts
  { turn with
    coord := turn.coord.setState d polled.1
    calls := if polled.2.1 then turn.calls ++ [.scheduleClear d] else turn.calls }

@[simp] theorem polledTurn_states (config : UniFiClientConfig) (turn : Turn) (c d : Category)
    (alerts : List UniFiAlert) :
    (polledTurn config turn d alerts).coord.states c =
      if c = d then (pollState config d.name (turn.coord.states d) alerts).1
      else turn.coord.states c := setState_states ..

@[simp] theorem polledTurn_raised (config : UniFiClientConfig) (turn : Turn) (d : Category)
    (alerts : List UniFiAlert) : (polledTurn config turn d alerts).raised = turn.raised := rfl

/-- The loop passes over an entry that names no enabled category; it polls the
category of any other, and goes on unless that raised. -/
theorem pollLoop_cases (config : UniFiClientConfig) (cat : String) (alerts : List UniFiAlert)
    (rest : Categorised) (turn : Turn) :
    ((∀ d : Category, d.name = cat → (turn.coord.states d).enabled = false) ∧
      pollLoop config ((cat, alerts) :: rest) turn = pollLoop config rest turn) ∨
    ∃ d : Category, d.name = cat ∧ (turn.coord.states d).enabled = true ∧
      ((∃ e, (pollState config d.name (turn.coord.states d) alerts).2.2 = some e ∧
          pollLoop config ((cat, alerts) :: rest) turn =
            { polledTurn config turn d alerts with raised := some e }) ∨
        ((pollState config d.name (turn.coord.states d) alerts).2.2 = none ∧
          pollLoop config ((cat, alerts) :: rest) turn =
            pollLoop config rest (polledTurn config turn d alerts))) := by
  cases hd : Category.ofName? cat with
  | none =>
      refine Or.inl ⟨fun d hname => ?_, by rw [pollLoop, hd]⟩
      rw [← hname, Category.ofName?_name] at hd
      cases hd
  | some d =>
      have hname := Category.ofName?_eq_some.mp hd
      cases hen : (turn.coord.states d).enabled with
      | false =>
          refine Or.inl ⟨fun d' hname' => ?_, by rw [pollLoop, hd]; simp [hen]⟩
          rw [Category.name_injective (hname'.trans hname.symm)]
          exact hen
      | true =>
          subst hname
          refine Or.inr ⟨d, rfl, hen, ?_⟩
          cases hraised : (pollState config d.name (turn.coord.states d) alerts).2.2 with
          | some e =>
              refine Or.inl ⟨e, rfl, ?_⟩
              rw [pollLoop, hd]
              simp [hen, hraised, polledTurn]
          | none =>
              refine Or.inr ⟨rfl, ?_⟩
              rw [pollLoop, hd]
              simp [hen, hraised, polledTurn]

section

variable {config : UniFiClientConfig} {as : List UniFiAlert}
  {R : CategoryState → CategoryState → Prop} (hrefl : ∀ st, R st st)
  (htrans : ∀ {a b c}, R a b → R b c → R a c)
  (hpoll : ∀ cat st alerts, alerts ⊆ as → R st (pollState config cat st alerts).1)

include hrefl htrans hpoll

/-- What one category's poll keeps, the poll loop keeps. -/
theorem pollLoop_rel (c : Category) :
    ∀ (categorised : Categorised) (turn : Turn), categorised.flatMap Prod.snd ⊆ as →
      R (turn.coord.states c) ((pollLoop config categorised turn).coord.states c)
  | [], turn, _ => hrefl _
  | (cat, alerts) :: rest, turn, hsub => by
      rw [List.flatMap_cons, List.append_subset] at hsub
      -- what an entry does to `c`, before the rest of the loop
      have hentry : ∀ d, R (turn.coord.states c)
          ((polledTurn config turn d alerts).coord.states c) := by
        intro d
        rw [polledTurn_states]
        split
        · rename_i hcd
          rw [hcd]
          exact hpoll _ _ _ hsub.1
        · exact hrefl _
      rcases pollLoop_cases config cat alerts rest turn with
        ⟨-, hloop⟩ | ⟨d, -, -, ⟨e, -, hloop⟩ | ⟨-, hloop⟩⟩
      · rw [hloop]
        exact pollLoop_rel c rest turn hsub.2
      · rw [hloop]
        exact hentry d
      · rw [hloop]
        exact htrans (hentry d) (pollLoop_rel c rest _ hsub.2)

theorem applyPoll_rel (hzero : ∀ st : CategoryState, R st { st with openCount := 0 })
    (categorised : Categorised) (hsub : categorised.flatMap Prod.snd ⊆ as) (coord : Coordinator)
    (c : Category) : R (coord.states c) ((applyPoll config categorised coord).coord.states c) := by
  have hloop := pollLoop_rel hrefl htrans hpoll c categorised { coord } hsub
  unfold applyPoll
  dsimp only
  split
  · exact hloop
  · simp only [zeroise]
    split
    · exact htrans hloop (hzero _)
    · exact hloop

end

theorem pollLoop_moves (config : UniFiClientConfig) (c : Category) (categorised : Categorised)
    (turn : Turn) :
    Moves config (categorised.flatMap Prod.snd) (turn.coord.states c)
      ((pollLoop config categorised turn).coord.states c) :=
  pollLoop_rel .refl .trans (fun cat _ _ ha => .polled cat ha) c categorised turn
    (List.Subset.refl _)

theorem applyPoll_moves (config : UniFiClientConfig) (categorised : Categorised)
    (coord : Coordinator) (c : Category) :
    Moves config (categorised.flatMap Prod.snd) (coord.states c)
      ((applyPoll config categorised coord).coord.states c) :=
  applyPoll_rel .refl .trans (fun cat _ _ ha => .polled cat ha) .zeroed categorised
    (List.Subset.refl _) coord c

/-- A poll touches the category states only. -/
theorem pollLoop_frame (config : UniFiClientConfig) :
    ∀ (categorised : Categorised) (turn : Turn),
      (pollLoop config categorised turn).coord =
        { turn.coord with states := (pollLoop config categorised turn).coord.states }
  | [], _ => rfl
  | (cat, alerts) :: rest, turn => by
      rcases pollLoop_cases config cat alerts rest turn with
        ⟨-, hloop⟩ | ⟨d, -, -, ⟨e, -, hloop⟩ | ⟨-, hloop⟩⟩
      · rw [hloop]
        exact pollLoop_frame config rest turn
      · rw [hloop]
        rfl
      · rw [hloop, pollLoop_frame config rest]
        rfl

theorem applyPoll_frame (config : UniFiClientConfig) (categorised : Categorised)
    (coord : Coordinator) :
    (applyPoll config categorised coord).coord =
      { coord with states := (applyPoll config categorised coord).coord.states } := by
  have hloop := pollLoop_frame config categorised { coord }
  unfold applyPoll
  dsimp only
  split
  · exact hloop
  · simp only [zeroise]
    rw [hloop]

theorem pushAlert_moves (config : UniFiClientConfig) (coord : Coordinator) (mono : ℚ)
    (category : String) (alert : UniFiAlert) (c : Category) :
    Moves config [alert] (coord.states c)
      ((pushAlert config coord mono category alert).coord.states c) := by
  have hmem : alert ∈ [alert] := List.mem_singleton.mpr rfl
  have hset : ∀ (coord' : Coordinator) (d : Category) (st : CategoryState),
      coord'.states = coord.states → Moves config [alert] (coord.states d) st →
      Moves config [alert] (coord.states c) ((coord'.setState d st).states c) := by
    intro coord' d st hstates hmove
    rw [setState_states, hstates]
    split
    · rename_i hcd
      rw [hcd]
      exact hmove
    · exact .refl _
  unfold pushAlert
  split
  · exact .refl _
  · exact hset _ _ _ rfl (.filtered hmem)
  · rename_i d _
    dsimp only
    split
    · -- the comparison with a naive watermark raises after `apply_alert`
      exact hset { coord with lastPushAt := _ } d _ rfl
        (.accepted hmem (coord.states d).openCount)
    · exact hset { coord with lastPushAt := _ } d _ rfl (.accepted hmem _)
  · exact .refl _

/-- A step clears a category or takes moves on it, by the alerts it carries. -/
theorem step_state (config : UniFiClientConfig) (coord : Coordinator) (t : TimedOp)
    (c : Category) :
    (clears coord c t.op = true ∧
      (step config coord t).states c = (coord.states c).clear t.now.wall) ∨
    (clears coord c t.op = false ∧
      Moves config t.op.alerts (coord.states c) ((step config coord t).states c)) := by
  obtain ⟨now, op⟩ := t
  cases op with
  | fetch net =>
      refine Or.inr ⟨rfl, ?_⟩
      simp only [step, turn, fetch_states]
      exact .refl _
  | poll categorised => exact Or.inr ⟨rfl, applyPoll_moves config categorised coord c⟩
  | push category alert =>
      exact Or.inr ⟨rfl, pushAlert_moves config coord now.mono category alert c⟩
  | clearCategory category =>
      simp only [clears, step, turn, clearCategory]
      cases h : Category.ofName? category with
      | none => exact Or.inr ⟨by simp, .refl _⟩
      | some d =>
          by_cases hcd : c = d
          · subst hcd
            exact Or.inl ⟨by simp, by simp⟩
          · refine Or.inr ⟨by simpa using fun h => hcd h.symm, ?_⟩
            simp only [setState_states, if_neg hcd]
            exact .refl _
  | clearAll =>
      simp only [clears, step, turn, clearAll]
      cases h : (coord.states c).enabled with
      | true => exact Or.inl ⟨rfl, by simp⟩
      | false => exact Or.inr ⟨rfl, by simpa using .refl _⟩
  | autoClear d =>
      simp only [clears, step, turn, autoClear]
      by_cases hcd : c = d
      · subst hcd
        cases h : (coord.states c).isAlerting with
        | true => exact Or.inl ⟨by simp, by simp⟩
        | false => exact Or.inr ⟨by simp, by simpa using .refl _⟩
      · refine Or.inr ⟨by simp [beq_eq_false_iff_ne.mpr (Ne.symm hcd)], ?_⟩
        split
        · simp only [setState_states, if_neg hcd]
          exact .refl _
        · exact .refl _

/-! ## What the moves keep -/

theorem pollState_frame (config : UniFiClientConfig) (cat : String) (st : CategoryState)
    (alerts : List UniFiAlert) :
    let st' := (pollState config cat st alerts).1
    st'.category = st.category ∧ st'.enabled = st.enabled ∧ st'.alertCount = st.alertCount ∧
      st'.lastClearedAt = st.lastClearedAt ∧ st'.lastWebhookAt = st.lastWebhookAt := by
  have htrack : ∀ as, (trackNewestSeen st as).category = st.category ∧
      (trackNewestSeen st as).enabled = st.enabled ∧
      (trackNewestSeen st as).alertCount = st.alertCount ∧
      (trackNewestSeen st as).lastClearedAt = st.lastClearedAt ∧
      (trackNewestSeen st as).lastWebhookAt = st.lastWebhookAt := by
    intro as
    unfold trackNewestSeen
    split <;> exact ⟨rfl, rfl, rfl, rfl, rfl⟩
  unfold pollState
  dsimp only
  split
  · exact ⟨rfl, rfl, rfl, rfl, rfl⟩
  · rename_i es _
    split
    · exact htrack es
    · split
      · exact htrack es
      · split
        · exact htrack es
        · split <;> exact htrack es

theorem Moves.enabled {config : UniFiClientConfig} {as : List UniFiAlert}
    {st st' : CategoryState} (h : Moves config as st st') : st'.enabled = st.enabled := by
  induction h with
  | polled _ _ => exact (pollState_frame _ _ _ _).2.1
  | trans _ _ ih₁ ih₂ => exact ih₂.trans ih₁
  | _ => rfl

theorem Moves.lastClearedAt {config : UniFiClientConfig} {as : List UniFiAlert}
    {st st' : CategoryState} (h : Moves config as st st') :
    st'.lastClearedAt = st.lastClearedAt := by
  induction h with
  | polled _ _ => exact (pollState_frame _ _ _ _).2.2.2.1
  | trans _ _ ih₁ ih₂ => exact ih₂.trans ih₁
  | _ => rfl

theorem Moves.lastWebhookAt {config : UniFiClientConfig} {as : List UniFiAlert}
    {st st' : CategoryState} (h : Moves config as st st') :
    st'.lastWebhookAt = st.lastWebhookAt ∨ ∃ a ∈ as, st'.lastWebhookAt = some a.receivedAt := by
  induction h with
  | filtered hmem => exact Or.inr ⟨_, hmem, rfl⟩
  | accepted hmem _ => exact Or.inr ⟨_, hmem, rfl⟩
  | polled _ _ => exact Or.inl (pollState_frame _ _ _ _).2.2.2.2
  | trans _ _ ih₁ ih₂ =>
      rcases ih₂ with h₂ | h₂
      · rw [h₂]
        exact ih₁
      · exact Or.inr h₂
  | _ => exact Or.inl rfl

theorem step_enabled (config : UniFiClientConfig) (coord : Coordinator) (t : TimedOp)
    (c : Category) : ((step config coord t).states c).enabled = (coord.states c).enabled := by
  rcases step_state config coord t c with ⟨-, h⟩ | ⟨-, h⟩
  · rw [h]; rfl
  · exact h.enabled

end Coordinator

end UnifiAlerts
