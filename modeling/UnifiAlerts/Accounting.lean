import UnifiAlerts.Lib.History
import UnifiAlerts.Cells
import UnifiAlerts.Diagnostics

/-!
# What becomes of each push

Every push is one of four things to its category: ignored, because the
category is disabled; filtered, because it is below the minimum severity;
a repetition of one that was accepted within the window; or accepted. The
counters and the webhook time of a category are the books on that: no
poll, clear or timer writes to them, nor any push of another category,
and each push is entered once (`webhooks_accounted`).

The verdict on a push depends on the categories, the severities and the
pushes accepted before (`verdictOn`), and the books are a function of
the verdicts alone. A step of any other kind leaves them as they are,
which is one lemma for all the others (`step_books_of_not_push`). The
counts are then the numbers of the verdicts of each kind in the run, by
the lemmas of `Lib.History` about fields that only some steps write.

No hypothesis is made on times: a push whose comparison raises has been
entered before it raises.
-/

namespace UnifiAlerts

open Py Lib

namespace Coordinator

/-! ## The verdict on a step -/

/-- The verdict on a step that pushes to category `c`. -/
def verdictOn (config : UniFiClientConfig) (c : Category) (coord : Coordinator) (t : TimedOp) :
    Option Verdict :=
  match t.op with
  | .push category alert =>
    if category = c.name then (pushVerdict config coord t.now.mono category alert).toOption
    else none
  | _ => none

/-- The steps that the books of `c` enter as `v`. -/
def entered (config : UniFiClientConfig) (c : Category) (v : Verdict) (coord : Coordinator)
    (t : TimedOp) : Bool := decide (verdictOn config c coord t = some v)

end Coordinator

def TimedOp.pushes (c : Category) (t : TimedOp) : Bool :=
  match t.op with
  | .push category _ => category == c.name
  | _ => false

/-- `received_at` of the pushed alert. -/
def TimedOp.receivedAt (t : TimedOp) : Option DateTime :=
  match t.op with
  | .push _ alert => some alert.receivedAt
  | _ => none

/-- What only the webhooks of a category write. -/
structure WebhookBooks where
  alertCount : Int
  filteredCount : Nat
  lastWebhookAt : Option DateTime

def CategoryState.books (state : CategoryState) : WebhookBooks :=
  ⟨state.alertCount, state.filteredCount, state.lastWebhookAt⟩

namespace Coordinator

/-! ## What writes to the books -/

section

variable {config : UniFiClientConfig} {coord : Coordinator} {c : Category}

theorem pollState_books (config : UniFiClientConfig) (cat : String) (state : CategoryState)
    (alerts : List UniFiAlert) :
    (pollState config cat state alerts).1.books = state.books := by
  rw [pollState_run]
  split
  · rw [trackNewestSeen_eq]
    rfl
  · rename_i counted _
    rw [trackNewestSeen_eq]
    unfold raiseFrom
    dsimp only
    split
    · rfl
    · split
      · rfl
      · split <;> rfl

/-- What the books of `c` are after a verdict on a push of `c`. -/
def enter (v : Option Verdict) (t : TimedOp) (books : WebhookBooks) : WebhookBooks :=
  match v with
  | some (.accepted _) =>
    { books with alertCount := books.alertCount + 1, lastWebhookAt := t.receivedAt }
  | some (.filtered _) =>
    { books with filteredCount := books.filteredCount + 1, lastWebhookAt := t.receivedAt }
  | _ => books

theorem Moves.books {st st' : CategoryState} (h : Moves config [] st st') :
    st'.books = st.books := by
  induction h with
  | filtered ha => exact absurd ha List.not_mem_nil
  | accepted ha _ => exact absurd ha List.not_mem_nil
  | polled cat _ => exact pollState_books config cat _ _
  | trans _ _ ih₁ ih₂ => exact ih₂.trans ih₁
  | _ => rfl

/-- What is no push of `c` does not touch its books. -/
theorem step_books_of_not_push {t : TimedOp}
    (h : ∀ category alert, t.op = .push category alert → category ≠ c.name) :
    ((step config coord t).states c).books = (coord.states c).books := by
  rcases step_state config coord t c with ⟨-, hclear⟩ | ⟨-, hmove⟩
  · rw [hclear]
    rfl
  obtain ⟨now, op⟩ := t
  cases op with
  | poll categorised =>
      exact @applyPoll_rel config (categorised.flatMap Prod.snd)
        (fun st st' => st'.books = st.books) (fun _ => rfl) (fun hab hbc => hbc.trans hab)
        (fun cat st alerts _ => pollState_books config cat st alerts) (fun _ => rfl) categorised
        (List.Subset.refl _) coord c
  | push category alert =>
      rw [step, turn, (pushAlert_other now.mono alert (h category alert rfl)).1]
  | _ => exact hmove.books

theorem pushAlert_books (now : Reading) (alert : UniFiAlert) :
    ((pushAlert config coord now.mono c.name alert).coord.states c).books =
      enter (pushVerdict config coord now.mono c.name alert).toOption
        ⟨now, .push c.name alert⟩ (coord.states c).books := by
  cases hverdict : pushVerdict config coord now.mono c.name alert with
  | error e =>
      unfold pushAlert
      rw [hverdict]
      rfl
  | ok v =>
      cases v with
      | filtered d =>
          obtain rfl := Category.name_injective (pushVerdict_filtered hverdict)
          unfold pushAlert
          rw [hverdict]
          simp only [setState_states, if_true]
          rfl
      | accepted d =>
          have hd := Category.ofName?_eq_some.mp (pushVerdict_accepted_iff.mp hverdict).1
          obtain rfl := Category.name_injective hd
          obtain ⟨openCount, hcoord⟩ := pushAlert_of_accepted hverdict
          rw [hcoord]
          simp only [setState_states, if_true]
          rfl
      | _ =>
          unfold pushAlert
          rw [hverdict]
          rfl

theorem verdictOn_of_not_pushes {t : TimedOp} (h : t.pushes c = false) :
    verdictOn config c coord t = none := by
  obtain ⟨now, op⟩ := t
  cases op with
  | push category alert => exact if_neg (by simpa [TimedOp.pushes] using h)
  | _ => rfl

/-- The four things that a push of `c` can be. -/
theorem verdictOn_of_pushes {t : TimedOp} (h : t.pushes c = true) :
    ((coord.states c).enabled = false ∧ verdictOn config c coord t = some .disabled) ∨
    ((coord.states c).enabled = true ∧
      (verdictOn config c coord t = some (.filtered c) ∨
        verdictOn config c coord t = some (.accepted c) ∨
        (verdictOn config c coord t = some (.duplicate c) ∧
          ∃ key, coord.lastPushAt (c.name, key) ≠ none))) := by
  obtain ⟨now, op⟩ := t
  cases op with
  | push category alert =>
      obtain rfl : category = c.name := by simpa [TimedOp.pushes] using h
      rw [verdictOn]
      simp only [if_true, pushVerdict_eq, Category.ofName?_name, Except.toOption]
      cases hen : (coord.states c).enabled with
      | false => exact Or.inl ⟨rfl, rfl⟩
      | true =>
          refine Or.inr ⟨rfl, ?_⟩
          simp only [Bool.true_eq_false, if_false]
          split
          · exact Or.inl rfl
          split
          · rename_i hdup
            refine Or.inr (Or.inr ⟨rfl, alert.key, fun hnone => ?_⟩)
            rw [suppressed, hnone] at hdup
            exact Bool.false_ne_true hdup.2
          · exact Or.inr (Or.inl rfl)
  | _ => cases h

theorem step_books (config : UniFiClientConfig) (coord : Coordinator) (t : TimedOp) (c : Category) :
    ((step config coord t).states c).books =
      enter (verdictOn config c coord t) t (coord.states c).books := by
  cases hpush : t.pushes c with
  | true =>
      obtain ⟨now, op⟩ := t
      cases op with
      | push category alert =>
          obtain rfl : category = c.name := by simpa [TimedOp.pushes] using hpush
          rw [verdictOn]
          simp only [if_true]
          exact pushAlert_books now alert
      | _ => cases hpush
  | false =>
      rw [verdictOn_of_not_pushes hpush]
      refine step_books_of_not_push fun category alert hop hname => ?_
      simp [TimedOp.pushes, hop, hname] at hpush

/-- The verdicts on a push of `c`, each of which the books enter once. -/
def verdicts (c : Category) : List Verdict :=
  [.disabled, .filtered c, .duplicate c, .accepted c]

theorem entered_once (config : UniFiClientConfig) (c : Category) (coord : Coordinator)
    (t : TimedOp) :
    ((verdicts c).map fun v => (entered config c v coord t).toNat).sum = (t.pushes c).toNat := by
  unfold verdicts entered
  cases hpush : t.pushes c with
  | false =>
      rw [verdictOn_of_not_pushes hpush]
      rfl
  | true =>
      rcases @verdictOn_of_pushes config coord c t hpush with
        ⟨-, h⟩ | ⟨-, h | h | ⟨h, -⟩⟩ <;> rw [h] <;> simp

/-- The push writes to the webhook time. -/
def delivered (config : UniFiClientConfig) (c : Category) (coord : Coordinator) (t : TimedOp) :
    Bool := entered config c (.accepted c) coord t || entered config c (.filtered c) coord t

/-- The fields of the books after a step, by its entry. -/
theorem step_entries (config : UniFiClientConfig) (coord : Coordinator) (t : TimedOp)
    (c : Category) :
    let state := coord.states c
    let state' := (step config coord t).states c
    state'.alertCount = state.alertCount +
        (if entered config c (.accepted c) coord t then 1 else 0) ∧
      state'.filteredCount = state.filteredCount +
        (if entered config c (.filtered c) coord t then 1 else 0) ∧
      state'.lastWebhookAt =
        if delivered config c coord t then t.receivedAt else state.lastWebhookAt := by
  have hbooks := step_books config coord t c
  unfold delivered entered
  cases hpush : t.pushes c with
  | false =>
      rw [verdictOn_of_not_pushes hpush] at hbooks ⊢
      simp only [enter, CategoryState.books, WebhookBooks.mk.injEq] at hbooks
      simp [hbooks]
  | true =>
      rcases @verdictOn_of_pushes config coord c t hpush with
        ⟨-, h⟩ | ⟨-, h | h | ⟨h, -⟩⟩ <;> rw [h] at hbooks ⊢ <;>
        simp only [enter, CategoryState.books, WebhookBooks.mk.injEq] at hbooks <;>
        simp [hbooks]

end

/-! ## Runs -/

/-- The steps of the run that the books of `c` enter as `v`. -/
def entries (config : UniFiClientConfig) (coord : Coordinator) (ts : List TimedOp) (c : Category)
    (v : Verdict) : List TimedOp := stepsWhere (step config) (entered config c v) coord ts

/-- The books of `c` after the steps `ts`: each counter has grown by the number of the
pushes with its verdict, all pushes that named the category have one of the four verdicts,
and the webhook time is that of the last delivered one. -/
structure Accounted (config : UniFiClientConfig) (coord : Coordinator) (ts : List TimedOp)
    (c : Category) : Prop where
  alertCount : ((run (step config) coord ts).states c).alertCount =
    (coord.states c).alertCount + (entries config coord ts c (.accepted c)).length
  filteredCount : ((run (step config) coord ts).states c).filteredCount =
    (coord.states c).filteredCount + (entries config coord ts c (.filtered c)).length
  everyPush : (ts.filter (·.pushes c)).length = (entries config coord ts c .disabled).length +
    (entries config coord ts c (.filtered c)).length +
    (entries config coord ts c (.duplicate c)).length +
    (entries config coord ts c (.accepted c)).length
  lastWebhookAt : ((run (step config) coord ts).states c).lastWebhookAt =
    ((stepsWhere (step config) (delivered config c) coord ts).getLast?.map (·.receivedAt)).getD
      (coord.states c).lastWebhookAt
  neverReceived : (coord.states c).enabled = true → (∀ key, coord.lastPushAt (c.name, key) = none) →
    (coord.states c).lastWebhookAt = none → ∀ now,
      (((run (step config) coord ts).states c).webhookHealth now = .ok .never ↔
        ∀ t ∈ ts, t.pushes c = false)

section

variable {config : UniFiClientConfig} {coord : Coordinator} {c : Category}

/-- A category that remembers a push has received one. -/
structure Receives (c : Category) (coord : Coordinator) : Prop where
  enabled : (coord.states c).enabled = true
  remembers : ∀ key, coord.lastPushAt (c.name, key) ≠ none → (coord.states c).lastWebhookAt ≠ none

theorem receivedAt_of_delivered {t : TimedOp} (h : delivered config c coord t = true) :
    t.receivedAt ≠ none := by
  obtain ⟨now, op⟩ := t
  cases op with
  | push category alert => exact Option.some_ne_none _
  | _ => simp [delivered, entered, verdictOn] at h

/-- What is not delivered to `c` records no key of it. -/
theorem lastPushAt_of_not_delivered {t : TimedOp} (h : delivered config c coord t = false)
    {key : String} (hkey : (step config coord t).lastPushAt (c.name, key) ≠ none) :
    coord.lastPushAt (c.name, key) ≠ none := by
  by_cases hpush : ∃ category alert, t.op = .push category alert
  · obtain ⟨now, op⟩ := t
    obtain ⟨category, alert, rfl⟩ := hpush
    by_cases hname : category = c.name
    · subst hname
      have hkept : (pushAlert config coord now.mono c.name alert).coord = coord := by
        simp only [delivered, entered, verdictOn, if_true, Bool.or_eq_false_iff,
          decide_eq_false_iff_not] at h
        unfold pushAlert
        cases hverdict : pushVerdict config coord now.mono c.name alert with
        | error e => rfl
        | ok v =>
            rw [hverdict] at h
            cases v with
            | filtered d =>
                obtain rfl := Category.name_injective (pushVerdict_filtered hverdict)
                exact absurd rfl h.2
            | accepted d =>
                have hd := Category.ofName?_eq_some.mp (pushVerdict_accepted_iff.mp hverdict).1
                obtain rfl := Category.name_injective hd
                exact absurd rfl h.1
            | _ => rfl
      rw [step, turn, hkept] at hkey
      exact hkey
    · rcases (@pushAlert_other config coord c now.mono category alert hname).2 with hmap | hmap
      · rw [step, turn, hmap] at hkey
        exact hkey
      · rw [step, turn, hmap, recordAt, if_neg fun heq => hname (Prod.mk.inj heq).1.symm] at hkey
        intro hnone
        rw [hnone] at hkey
        exact hkey rfl
  · rw [step_lastPushAt_of_not_push fun category alert heq => hpush ⟨category, alert, heq⟩] at hkey
    exact hkey

theorem Receives.step (h : Receives c coord) (t : TimedOp) :
    Receives c (Coordinator.step config coord t) := by
  refine ⟨(step_enabled config coord t c).trans h.enabled, fun key hkey => ?_⟩
  rw [(step_entries config coord t c).2.2]
  cases hdelivered : delivered config c coord t with
  | true => exact receivedAt_of_delivered hdelivered
  | false => exact h.remembers key (lastPushAt_of_not_delivered hdelivered hkey)

/-- The first push of the category is delivered, whatever it is. -/
theorem Receives.first (h : Receives c coord) (hnever : (coord.states c).lastWebhookAt = none)
    (t : TimedOp) :
    ((Coordinator.step config coord t).states c).lastWebhookAt = none ↔ t.pushes c = false := by
  rw [(step_entries config coord t c).2.2]
  cases hpush : t.pushes c with
  | false =>
      have hnot : delivered config c coord t = false := by
        simp [delivered, entered, verdictOn_of_not_pushes hpush]
      rw [hnot]
      exact iff_of_true hnever rfl
  | true =>
      have hdelivered : delivered config c coord t = true := by
        rcases @verdictOn_of_pushes config coord c t hpush with
          ⟨hen, -⟩ | ⟨-, hv | hv | ⟨-, key, hkey⟩⟩
        · rw [h.enabled] at hen
          cases hen
        · simp [delivered, entered, hv]
        · simp [delivered, entered, hv]
        · exact absurd hnever (h.remembers key hkey)
      rw [hdelivered]
      exact iff_of_false (receivedAt_of_delivered hdelivered) Bool.true_eq_false.mp

theorem webhookHealth_never {state : CategoryState} (now : Instant) :
    state.webhookHealth now = .ok .never ↔ state.lastWebhookAt = none := by
  unfold CategoryState.webhookHealth
  split
  · simp [*]
  · split <;> simp [*]
  · simp [*]

theorem Receives.neverReceived (h : Receives c coord)
    (hnever : (coord.states c).lastWebhookAt = none)
    (ts : List TimedOp) (now : Instant) :
    ((run (Coordinator.step config) coord ts).states c).webhookHealth now = .ok .never ↔
      ∀ t ∈ ts, t.pushes c = false := by
  have hlost : ∀ (coord : Coordinator) (t : TimedOp), (coord.states c).lastWebhookAt ≠ none →
      ((Coordinator.step config coord t).states c).lastWebhookAt ≠ none := by
    intro coord t hat
    rw [(step_entries config coord t c).2.2]
    split
    · rename_i hdelivered
      exact receivedAt_of_delivered hdelivered
    · exact hat
  rw [webhookHealth_never, @run_iff_along _ _ (Coordinator.step config) (Receives c)
    (fun coord => (coord.states c).lastWebhookAt = none) (fun _ t => t.pushes c = false)
    (fun _ t h => h.step t) (fun _ t h hnever => h.first hnever t) (fun coord t _ => hlost coord t)
    ts coord h hnever]
  exact along_labels

end

end Coordinator

open Coordinator

/-- After any run, with the operations of all categories in any order: the alert count and
the filtered count of a category grew by its accepted and its filtered pushes, its webhook
time is that of the last of these, and with the repetitions and, while the category is
disabled, the ignored ones they are all the pushes that named it. A category that has
received no webhook has been sent none. -/
theorem webhooks_accounted (config : UniFiClientConfig) (coord : Coordinator) (ts : List TimedOp)
    (c : Category) : Accounted config coord ts c where
  alertCount := @run_count _ _ (step config) (entered config c (.accepted c)) ts coord Int _
    (fun coord => (coord.states c).alertCount) fun coord t => (step_entries config coord t c).1
  filteredCount := by
    have hcount := @run_count _ _ (step config) (entered config c (.filtered c)) ts coord Nat _
      (fun coord => (coord.states c).filteredCount) fun coord t =>
        (step_entries config coord t c).2.1
    rw [Nat.cast_id] at hcount
    exact hcount
  everyPush := by
    have hsum := @sum_length_stepsWhere _ _ (step config) (fun _ t => t.pushes c) ts coord _
      (verdicts c) (entered config c) (entered_once config c)
    rw [stepsWhere_label] at hsum
    rw [← hsum]
    simp [verdicts, entries, add_assoc]
  lastWebhookAt := @run_latest _ _ (step config) (delivered config c) ts coord _
    (fun coord => (coord.states c).lastWebhookAt) (·.receivedAt)
    fun coord t => (step_entries config coord t c).2.2
  neverReceived := fun hen hmap hnever now =>
    Receives.neverReceived ⟨hen, fun key hkey => absurd (hmap key) hkey⟩ hnever ts now

end UnifiAlerts
