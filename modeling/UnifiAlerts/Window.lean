import UnifiAlerts.Pagination
import UnifiAlerts.Polling

/-!
# The v2 fetch window

One lower bound serves every enabled category: the oldest watermark,
clamped to a day back, or a day back when no category was ever cleared.
It is low enough for every category exactly when the state is
`WindowSafe`; what breaks it is a mixture of categories cleared within
the day and categories never cleared, for the minimum ignores the
latter. In a safe state every unacknowledged event of the last day that
the server has (within the page cap) is in the next fetch.

The server side is a log that is asked for a window (`windowHits`), and
the client asks for the window that `fetchSince` computes from the
watermarks of the enabled categories. `LowEnough` says that the lower
bound of the window is no later than the watermark of each of them, and
no later than a day back for one without. Both sides are equivalences of
arithmetic, so the failing states are found by negating one of them.
-/

namespace UnifiAlerts

open Py Lib

namespace Coordinator

/-! ## The lower bound -/

def lookbackFloor (now : Instant) : Instant := now - hours defaultSystemLogLookbackHours

theorem minOf_aware : ∀ {ws : List DateTime} {best : DateTime},
    (∀ w ∈ best :: ws, w.isAware = true) →
      ∃ m, minOf best ws = .ok m ∧ m ∈ best :: ws ∧ ∀ w ∈ best :: ws, m.instant ≤ w.instant
  | [], best, _ => ⟨best, rfl, by simp, by simp⟩
  | w :: ws, best, h => by
      have hgt : best.gt w = .ok (decide (w.instant < best.instant)) :=
        DateTime.gt_eq (by rw [h best (by simp), h w (by simp)])
      by_cases hlt : w.instant < best.instant
      · obtain ⟨m, hm, hmem, hmin⟩ := @minOf_aware ws w
          fun x hx => h x (List.mem_cons_of_mem _ hx)
        refine ⟨m, ?_, List.mem_cons_of_mem _ hmem, fun x hx => ?_⟩
        · simp [minOf, hgt, hlt, hm, bind, Except.bind]
        · rcases List.mem_cons.mp hx with rfl | hx
          · exact (hmin w (by simp)).trans hlt.le
          · exact hmin x hx
      · obtain ⟨m, hm, hmem, hmin⟩ := @minOf_aware ws best fun x hx => h x (by
          rcases List.mem_cons.mp hx with rfl | hx
          · simp
          · simp [hx])
        refine ⟨m, ?_, ?_, fun x hx => ?_⟩
        · simp [minOf, hgt, hlt, hm, bind, Except.bind]
        · rcases List.mem_cons.mp hmem with rfl | hmem
          · simp
          · simp [hmem]
        · rcases List.mem_cons.mp hx with rfl | hx
          · exact hmin x (by simp)
          · rcases List.mem_cons.mp hx with rfl | hx
            · exact (hmin best (by simp)).trans (not_lt.mp hlt)
            · exact hmin x (by simp [hx])

theorem mem_watermarks {states : Category → CategoryState} {w : DateTime} :
    w ∈ watermarks states ↔ ∃ c, (states c).enabled = true ∧ (states c).lastClearedAt = some w := by
  simp [watermarks, Category.mem_all]

/-- Without a watermark the bound is left open; otherwise it is the oldest one,
clamped. -/
theorem fetchSince_cases {coord : Coordinator} (hmarks : AwareMarks coord) (now : Instant) :
    (watermarks coord.states = [] ∧ fetchSince coord.states now = .ok none) ∨
    ∃ m ∈ watermarks coord.states, (∀ w ∈ watermarks coord.states, m.instant ≤ w.instant) ∧
      fetchSince coord.states now = .ok (some (max m.instant (lookbackFloor now))) := by
  unfold fetchSince
  cases hws : watermarks coord.states with
  | nil => exact Or.inl ⟨rfl, rfl⟩
  | cons w ws =>
      have haware : ∀ x ∈ w :: ws, x.isAware = true := fun x hx => by
        rw [← hws, mem_watermarks] at hx
        obtain ⟨c, -, hx⟩ := hx
        exact hmarks c x hx
      obtain ⟨m, hm, hmem, hmin⟩ := minOf_aware haware
      refine Or.inr ⟨m, hmem, hmin, ?_⟩
      rw [DateTime.isAware_iff.mp (haware m hmem)] at hm ⊢
      simp [hm, bind, Except.bind, pure, Except.pure, lookbackFloor]

/-- No enabled category was ever cleared, or all of them were, or one was last
cleared a day ago or earlier. -/
def WindowSafe (states : Category → CategoryState) (now : Instant) : Prop :=
  (∀ c, (states c).enabled = true → (states c).lastClearedAt = none) ∨
  (∀ c, (states c).enabled = true → (states c).lastClearedAt ≠ none) ∨
  ∃ c w, (states c).enabled = true ∧ (states c).lastClearedAt = some w ∧
    w.instant ≤ lookbackFloor now

/-- The lower bound `start` is no later than what each enabled category needs: its
watermark, or a day back if that is later or if it was never cleared. -/
def LowEnough (states : Category → CategoryState) (now start : Instant) : Prop :=
  (∀ c w, (states c).enabled = true → (states c).lastClearedAt = some w →
    start ≤ max w.instant (lookbackFloor now)) ∧
  ∀ c, (states c).enabled = true → (states c).lastClearedAt = none → start ≤ lookbackFloor now

theorem lowEnough_iff {coord : Coordinator} (hmarks : AwareMarks coord) (now : Instant) :
    (∃ since, fetchSince coord.states now = .ok since ∧
      LowEnough coord.states now (windowStart now since)) ↔ WindowSafe coord.states now := by
  rcases fetchSince_cases hmarks now with ⟨hnil, hsince⟩ | ⟨m, hmem, hmin, hsince⟩
  · -- nothing was cleared: the default window
    have hnone : ∀ c, (coord.states c).enabled = true → (coord.states c).lastClearedAt = none :=
      fun c hc => by
        cases hw : (coord.states c).lastClearedAt with
        | none => rfl
        | some w =>
            have hin := mem_watermarks.mpr ⟨c, hc, hw⟩
            rw [hnil] at hin
            cases hin
    refine ⟨fun _ => Or.inl hnone,
      fun _ => ⟨none, hsince, fun c w hc hw => ?_, fun _ _ _ => le_rfl⟩⟩
    rw [hnone c hc] at hw
    cases hw
  · obtain ⟨cm, hcm, hwm⟩ := mem_watermarks.mp hmem
    have hstart : windowStart now (some (max m.instant (lookbackFloor now))) =
        max m.instant (lookbackFloor now) := rfl
    constructor
    · rintro ⟨since, hs, -, hnever⟩
      rw [hsince] at hs
      obtain rfl := Except.ok.inj hs
      rw [hstart] at hnever
      by_cases hall : ∀ c, (coord.states c).enabled = true → (coord.states c).lastClearedAt ≠ none
      · exact Or.inr (Or.inl hall)
      · -- a category that was never cleared bounds the minimum
        simp only [not_forall, not_not] at hall
        obtain ⟨c, hc, hnone⟩ := hall
        exact Or.inr (Or.inr ⟨cm, m, hcm, hwm, (le_max_left _ _).trans (hnever c hc hnone)⟩)
    · intro hsafe
      refine ⟨_, hsince, fun c w hc hw => ?_, fun c hc hnone => ?_⟩
      · rw [hstart]
        exact max_le_max (hmin w (mem_watermarks.mpr ⟨c, hc, hw⟩)) le_rfl
      · rw [hstart, max_eq_right]
        rcases hsafe with h | h | ⟨d, w, hd, hw, hle⟩
        · rw [h cm hcm] at hwm
          cases hwm
        · exact absurd hnone (h c hc)
        · exact (hmin w (mem_watermarks.mpr ⟨d, hd, hw⟩)).trans hle

/-! ## What the fetch returns -/

theorem epochMs_mul (ms : Int) : epochMs (ms * 1000) = ms := Int.mul_tdiv_cancel ms (by decide)

/-- An alarm of the last day that its category has not acknowledged: a NEW event, later
than the watermark if there is one, and not later than the clock of the host. -/
def Unacknowledged (coord : Coordinator) (now : Instant) (c : Category) (event : JsonObj) : Prop :=
  (coord.states c).enabled = true ∧ isNew event = true ∧ ∃ ms, eventMs event = some ms ∧
    lookbackFloor now ≤ ms * 1000 ∧ ms * 1000 ≤ now ∧
    ∀ w, (coord.states c).lastClearedAt = some w → w.instant < ms * 1000

/-- The events of the log inside the window that the next fetch asks for. -/
def windowHits (log : List JsonObj) (now : Instant) (since : Option Instant) : List JsonObj :=
  log.filter (inWindow (epochMs (windowStart now since)) (epochMs now))

/-- Against any log that fits the page cap, a v2 fetch that succeeds has the
alert of every unacknowledged event. -/
def FetchesUnacknowledged (coord : Coordinator) (now : Instant) : Prop :=
  ∀ (net : Net) (site : String) (log : List JsonObj), net.now = now → Serves net log →
    (∀ since, fetchSince coord.states now = .ok since →
      (windowHits log now since).length ≤ maxSystemLogPages * systemLogPageSize) →
    ∀ event ∈ log, ∀ c, Unacknowledged coord now c event →
    ∀ alert, eventAlert net.text now event = .ok alert → alert.category = c.name →
    ∀ result, (fetchV2 net site coord).1 = .ok result → Has result c.name alert

/-- A low enough bound lets no unacknowledged event through. -/
theorem mem_windowHits {coord : Coordinator} {now : Instant} {since : Option Instant}
    {log : List JsonObj} {event : JsonObj} {c : Category} (hmem : event ∈ log)
    (hlow : LowEnough coord.states now (windowStart now since))
    (h : Unacknowledged coord now c event) : event ∈ windowHits log now since := by
  obtain ⟨henabled, -, ms, hms, hfloor, hnow, hack⟩ := h
  have hstart : windowStart now since ≤ ms * 1000 := by
    cases hw : (coord.states c).lastClearedAt with
    | none => exact (hlow.2 c henabled hw).trans hfloor
    | some w => exact (hlow.1 c w henabled hw).trans (max_le (hack w hw).le hfloor)
  refine List.mem_filter.mpr ⟨hmem, ?_⟩
  rw [inWindow, hms, decide_eq_true_eq]
  have hfrom := epochMs_mono hstart
  have hto := epochMs_mono hnow
  rw [epochMs_mul] at hfrom hto
  exact ⟨hfrom, hto⟩

theorem fetchV2_run {net : Net} {site : String} {coord : Coordinator} {since : Option Instant}
    (hsince : fetchSince coord.states net.now = .ok since) :
    fetchV2 net site coord =
      (onClient (fetchSystemLogAlarms net site since) >>= fun events =>
        groupEvents net events []) coord := by
  unfold fetchV2
  rw [Comp.gets_bind, hsince]
  rfl

/-- Against a controller that serves a log which fits the page cap, the events
that are grouped are the NEW ones of the window. -/
theorem fetchV2_serves {net : Net} {site : String} {coord : Coordinator} {log : List JsonObj}
    {since : Option Instant} (hserves : Serves net log)
    (hsince : fetchSince coord.states net.now = .ok since)
    (hcap : (windowHits log net.now since).length ≤ maxSystemLogPages * systemLogPageSize) :
    ∃ client, fetchV2 net site coord =
      groupEvents net ((windowHits log net.now since).filter isNew) [] { coord with client } := by
  have hfetch := fetchSystemLogAlarms_serves hserves site since coord.client hcap
  have hclient : onClient (fetchSystemLogAlarms net site since) coord =
      (.ok ((windowHits log net.now since).filter isNew),
        { coord with client := (fetchSystemLogAlarms net site since coord.client).2 }) := by
    simp only [onClient, Comp.zoom]
    rw [hfetch]
    rfl
  exact ⟨_, by rw [fetchV2_run hsince, Comp.bind_run hclient]⟩

theorem fetchesUnacknowledged_of_safe {coord : Coordinator} (hmarks : AwareMarks coord)
    {now : Instant} (hsafe : WindowSafe coord.states now) : FetchesUnacknowledged coord now := by
  intro net site log hnow hserves hcap event hmem c hun alert halert hcat result hresult
  subst hnow
  obtain ⟨since, hsince, hlow⟩ := (lowEnough_iff hmarks net.now).mpr hsafe
  obtain ⟨client, hfetch⟩ := @fetchV2_serves net site coord log since hserves hsince
    (hcap since hsince)
  rw [hfetch] at hresult
  have hgroup := Comp.wp_iff_run.mp (groupEvents_mem net
    ((windowHits log net.now since).filter isNew) [] { coord with client })
  have hevent : event ∈ (windowHits log net.now since).filter isNew :=
    List.mem_filter.mpr ⟨mem_windowHits hmem hlow hun, hun.2.1⟩
  have hne : alert.category ≠ "" := by
    rw [hcat]
    cases c <;> decide
  rw [← hcat]
  exact (hgroup.1 result hresult).2 event hevent alert halert hne

/-- The fetch requests pages from the computed lower bound, and nothing else. -/
theorem fetchV2_sends {net : Net} {site : String} {coord : Coordinator} {since : Option Instant}
    (hsince : fetchSince coord.states net.now = .ok since) :
    Sends (fun r => ∃ url timestampTo n,
        r = .page url (epochMs (windowStart net.now since)) timestampTo n systemLogPageSize)
      coord.client (fetchV2 net site coord).2.client := by
  rw [fetchV2_run hsince]
  refine Comp.Within.bind (R := fun s s' : Coordinator => Sends _ s.client s'.client)
    (fun _ _ _ => Sends.trans) ?_ (fun events => ?_) coord
  · intro s
    obtain ⟨sent, hsent, hP⟩ := fetchPages_sends net
      (net.base ++ unifiOsNetworkPrefix ++ "/v2/api/site/" ++ site ++ "/system-log/all")
      (epochMs (windowStart net.now since)) (epochMs net.now) maxSystemLogPages 0 [] s.client
    exact ⟨sent, hsent, fun r hr => ⟨_, _, hP r hr⟩⟩
  · intro s
    have hclient : (groupEvents net events [] s).2.client = s.client :=
      groupEvents_keeps (f := Coordinator.client) (fun _ _ => rfl) (fun _ _ => rfl) net events [] s
    rw [hclient]
    exact .refl _

end Coordinator

/-! ## The contract of the window -/

/-- Every enabled category is covered by the lower bound that a v2 fetch at
`now` computes, and every page it requests carries that bound. -/
def WindowCovers (coord : Coordinator) (now : Instant) : Prop :=
  ∃ since, Coordinator.fetchSince coord.states now = .ok since ∧
    Coordinator.LowEnough coord.states now (windowStart now since) ∧
    ∀ (net : Net) (site : String), net.now = now →
      Sends (fun r => ∃ url timestampTo n,
          r = .page url (epochMs (windowStart now since)) timestampTo n systemLogPageSize)
        coord.client (Coordinator.fetchV2 net site coord).2.client

/-- In any state with aware watermarks, right after a clear or not, the window
covers every enabled category and no unacknowledged alarm of the last day is
lost, exactly when the state is safe. -/
theorem v2_window_covers_iff (coord : Coordinator) (hmarks : coord.AwareMarks) (now : Instant) :
    (WindowCovers coord now ∧ Coordinator.FetchesUnacknowledged coord now) ↔
      Coordinator.WindowSafe coord.states now := by
  constructor
  · rintro ⟨⟨since, hsince, hlow, -⟩, -⟩
    exact (Coordinator.lowEnough_iff hmarks now).mp ⟨since, hsince, hlow⟩
  · intro hsafe
    obtain ⟨since, hsince, hlow⟩ := (Coordinator.lowEnough_iff hmarks now).mpr hsafe
    refine ⟨⟨since, hsince, hlow, fun net site hnow => ?_⟩,
      Coordinator.fetchesUnacknowledged_of_safe hmarks hsafe⟩
    subst hnow
    exact Coordinator.fetchV2_sends hsince

/-- The power category was cleared an hour ago and no other category ever. -/
def oneRecentClear : Coordinator :=
  (Coordinator.clearCategory (.fresh {}) (hours 99) "power").coord

/-- Four days later the clear is older than the window is long. -/
theorem v2_window_covers_safe :
    WindowCovers oneRecentClear (hours 200) ∧
      Coordinator.FetchesUnacknowledged oneRecentClear (hours 200) := by
  have hmarks : oneRecentClear.AwareMarks :=
    (Coordinator.awareMarks_fresh {}).step {} ⟨⟨hours 99, 0⟩, .clearCategory "power"⟩
  exact (v2_window_covers_iff oneRecentClear hmarks (hours 200)).mpr
    (Or.inr (Or.inr ⟨.power, .aware (hours 99), rfl, rfl, by decide⟩))

/-- An hour after the clear the window starts at it, although the other
categories need the last day. -/
theorem v2_window_misses_uncleared : ¬WindowCovers oneRecentClear (hours 100) := by
  rintro ⟨since, hsince, ⟨-, hnever⟩, -⟩
  have hbound : Coordinator.fetchSince oneRecentClear.states (hours 100) =
      .ok (some (hours 99)) := by
    rfl
  rw [hbound] at hsince
  obtain rfl := Except.ok.inj hsince
  exact absurd (hnever .networkWan rfl rfl) (by decide)

end UnifiAlerts
