import UnifiAlerts.Acknowledge
import UnifiAlerts.Persist

/-!
# The watermark over restarts

A `Lifetime` is an installation over time: operations on the current
coordinator, and restarts that persist its snapshot, build a fresh
coordinator (possibly with new options) and restore. `clear()` sets the
watermark to the newest alarm this coordinator has seen, or to the HA
clock when it has seen none. The two clocks disagree, and what was seen
is not persisted, so a clear can move the watermark back. It does not
exactly when each clear is `Forward`.

`Forward` is a condition on one clear, and it reads only the state
before it. That it is exact for one step is `advances_step_iff`: an
operation which is no clear leaves the watermark, a restart brings it
back from the file, and a clear moves it to a value that is known
beforehand. Over a run the two sides are then the same conjunction. The
second half of the contract, that no acknowledged alarm is counted
again, follows from the first.
-/

namespace UnifiAlerts

open Py Lib

structure Lifetime where
  config : UniFiClientConfig
  coord : Coordinator

inductive LifeOp
  | op (t : TimedOp)
  | restart (now : Instant) (config : UniFiClientConfig)

namespace Lifetime

def fresh (config : UniFiClientConfig) : Lifetime := ⟨config, .fresh config⟩

def step (text : Text) (s : Lifetime) : LifeOp → Lifetime
  | .op t => { s with coord := Coordinator.step s.config s.coord t }
  | .restart now config =>
    match Coordinator.restoreWatermarks text now (Coordinator.buildPersistData text s.coord)
        (.fresh config) with
    | .ok coord => { config, coord }
    | .error _ => s

/-- The watermark of one category. -/
def mark (s : Lifetime) (c : Category) : Option DateTime := (s.coord.states c).lastClearedAt

/-- Every category the step clears has, in this lifetime, seen an alarm not
older than its watermark, or has seen none and the HA clock is not behind it. -/
def Forward (s : Lifetime) : LifeOp → Prop
  | .op t => ∀ c w, Coordinator.clears s.coord c t.op = true → s.mark c = some w →
      match (s.coord.states c).lastAlarmReceivedAt with
      | some newest => w.instant ≤ newest
      | none => w.instant ≤ t.now.wall
  | .restart _ _ => True

/-- The watermark of no category is lowered or lost: where there was one, there is one
that is no earlier. -/
def Advances (s s' : Lifetime) : Prop :=
  ∀ c w, s.mark c = some w → ∃ w', s'.mark c = some w' ∧ w.instant ≤ w'.instant

theorem Advances.refl (s : Lifetime) : Advances s s := fun _ w hw => ⟨w, hw, le_rfl⟩

theorem Advances.trans {s s' s'' : Lifetime} (h : Advances s s') (h' : Advances s' s'') :
    Advances s s'' := fun c w hw => by
  obtain ⟨w', hw', hle⟩ := h c w hw
  obtain ⟨w'', hw'', hle'⟩ := h' c w' hw'
  exact ⟨w'', hw'', hle.trans hle'⟩

/-! ## One step -/

theorem mark_restart (text : Text) (s : Lifetime) (now : Instant) (config : UniFiClientConfig)
    (c : Category) : (s.step text (.restart now config)).mark c = s.mark c := by
  simp only [step, Coordinator.restore_build]
  rfl

/-- A step keeps every watermark exactly when it clears forward. -/
theorem advances_step_iff (text : Text) (s : Lifetime) (l : LifeOp) :
    Advances s (s.step text l) ↔ Forward s l := by
  cases l with
  | restart now config =>
      refine ⟨fun _ => trivial, fun _ c w hw => ⟨w, ?_, le_rfl⟩⟩
      rw [mark_restart, hw]
  | op t =>
      have hmark : ∀ c, (s.step text (.op t)).mark c =
          ((Coordinator.step s.config s.coord t).states c).lastClearedAt := fun _ => rfl
      constructor
      · intro h c w hclear hw
        obtain ⟨w', hw', hle⟩ := h c w hw
        rcases Coordinator.step_state s.config s.coord t c with ⟨-, hst⟩ | ⟨hnot, -⟩
        · rw [hmark, hst] at hw'
          obtain rfl := Option.some.inj hw'
          cases hseen : (s.coord.states c).lastAlarmReceivedAt with
          | none => simpa [hseen] using hle
          | some newest => simpa [hseen] using hle
        · rw [hnot] at hclear
          cases hclear
      · intro h c w hw
        rcases Coordinator.step_state s.config s.coord t c with ⟨hclear, hst⟩ | ⟨-, hm⟩
        · refine ⟨_, by rw [hmark, hst]; rfl, ?_⟩
          have hfwd := h c w hclear hw
          cases hseen : (s.coord.states c).lastAlarmReceivedAt with
          | none => simpa [hseen] using hfwd
          | some newest => simpa [hseen] using hfwd
        · exact ⟨w, by rw [hmark, hm.lastClearedAt]; exact hw, le_rfl⟩

theorem awareMarks_step (text : Text) {s : Lifetime} (h : s.coord.AwareMarks) (l : LifeOp) :
    (s.step text l).coord.AwareMarks := by
  cases l with
  | op t => exact h.step s.config t
  | restart now config =>
      intro c
      have hmark := mark_restart text s now config c
      simp only [mark] at hmark
      rw [hmark]
      exact h c

/-! ## Every run -/

/-- Between any two points of the run the watermarks advance, restarts in between
included. -/
def NeverBack (text : Text) (s : Lifetime) (ls : List LifeOp) : Prop :=
  ∀ pre mid post, ls = pre ++ mid ++ post →
    Advances (run (step text) s pre) (run (step text) s (pre ++ mid))

/-- Whatever alarms are polled at any later point, the ones counted are newer
than every earlier watermark. -/
def NeverReexposes (text : Text) (s : Lifetime) (ls : List LifeOp) : Prop :=
  ∀ pre mid post, ls = pre ++ mid ++ post → ∀ c w,
    (run (step text) s pre).mark c = some w →
    ∀ alerts, Coordinator.AllAware alerts →
      ∃ counted,
        Coordinator.counted ((run (step text) s (pre ++ mid)).mark c) alerts = .ok counted ∧
        ∀ a ∈ counted, w.instant < a.receivedAt.instant

theorem neverBack_iff {text : Text} {s : Lifetime} {ls : List LifeOp} :
    NeverBack text s ls ↔ Along (step text) Forward s ls := by
  constructor
  · intro h
    rw [along_iff_split]
    intro pre l post hls
    have hadv := h pre [l] post (by simp [hls])
    rw [run_snoc, advances_step_iff] at hadv
    exact hadv
  · intro h pre mid post hls
    subst hls
    rw [Along.append, Along.append] at h
    rw [run_append]
    exact run_preserves_along (I := Advances (run (step text) s pre))
      (fun s' l hs' hl => hs'.trans ((advances_step_iff text s' l).mpr hl)) (.refl _) h.1.2

theorem reexposes_of_neverBack {text : Text} {s : Lifetime} {ls : List LifeOp}
    (haware : s.coord.AwareMarks) (h : NeverBack text s ls) : NeverReexposes text s ls := by
  intro pre mid post hls c w hw alerts ha
  obtain ⟨w', hw', hle⟩ := h pre mid post hls c w hw
  have haware' : (run (step text) s (pre ++ mid)).coord.AwareMarks :=
    @run_preserves _ _ _ (fun s : Lifetime => s.coord.AwareMarks)
      (fun s l hs => awareMarks_step text hs l) s haware (pre ++ mid)
  refine ⟨_, Coordinator.counted_eq (haware' c) ha, fun a hmem => ?_⟩
  have hnew := (List.mem_filter.mp hmem).2
  simp only [mark] at hw'
  rw [hw', Coordinator.newer_some] at hnew
  exact hle.trans_lt hnew

end Lifetime

/-- The acknowledgement watermark of a run from a new installation moves
backward nowhere, and re-exposes nothing, exactly when every clear of the run
is `Forward`. -/
theorem watermark_never_back_iff (text : Text) (config : UniFiClientConfig) (ls : List LifeOp) :
    (Lifetime.NeverBack text (.fresh config) ls ∧ Lifetime.NeverReexposes text (.fresh config) ls) ↔
      Along (Lifetime.step text) Lifetime.Forward (.fresh config) ls := by
  rw [← Lifetime.neverBack_iff]
  exact ⟨fun h => h.1, fun h =>
    ⟨h, Lifetime.reexposes_of_neverBack (Coordinator.awareMarks_fresh config) h⟩⟩

/-- A clear with nothing seen takes the HA clock; the next poll brings an older
alarm, and the next clear falls back to it. -/
theorem watermark_moves_back :
    let alarm : UniFiAlert :=
      { category := "power", message := "PoE lost", receivedAt := .aware 50, key := "EVT_SW_PoE" }
    ¬Lifetime.NeverBack (.counting fun _ => none) (.fresh {})
      [.op ⟨⟨100, 0⟩, .clearCategory "power"⟩, .op ⟨⟨101, 1⟩, .poll [("power", [alarm])]⟩,
        .op ⟨⟨102, 2⟩, .clearCategory "power"⟩] := by
  intro alarm h
  obtain ⟨w', hw', hle⟩ := h [.op ⟨⟨100, 0⟩, .clearCategory "power"⟩]
    [.op ⟨⟨101, 1⟩, .poll [("power", [alarm])]⟩, .op ⟨⟨102, 2⟩, .clearCategory "power"⟩] []
    rfl .power (.aware 100) (by decide +kernel)
  have hback : (run (Lifetime.step (.counting fun _ => none)) (.fresh {})
      [.op ⟨⟨100, 0⟩, .clearCategory "power"⟩, .op ⟨⟨101, 1⟩, .poll [("power", [alarm])]⟩,
        .op ⟨⟨102, 2⟩, .clearCategory "power"⟩]).mark .power = some (.aware 50) := by
    decide +kernel
  rw [List.cons_append, List.nil_append, hback] at hw'
  obtain rfl := Option.some.inj hw'
  exact absurd hle (by decide)

end UnifiAlerts
