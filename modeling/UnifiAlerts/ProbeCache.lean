import UnifiAlerts.Coordinator
import UnifiAlerts.Lib.Run

/-!
# The probe cache and its backoff

`_probe_has_system_log` keeps three fields between its calls. A call is
described by what the client would end in if it were probed and by the
two readings of the clock: when the call starts and when the probe has
been answered. `probeHasSystemLog_turn` connects this to the
coordinator's method, which reads the clock of the poll for both.

`ofHistory` computes the fields from the list of the probes that were
sent, and a call keeps them so (`probeHasSystemLog_ofHistory`). What the
method answers then is a statement about that list: the definitive
outcome in it (`seen`), its last consecutive failures (`failures`), and
the window they have opened (`windowEnd`).
-/

namespace UnifiAlerts

open Py Lib Coordinator

structure ProbeCache where
  hasSystemLog : Option Bool := none
  failCount : Nat := 0
  backoffUntil : Option Instant := none

structure ProbeCall where
  started : Instant
  outcome : Option Bool
  answered : Instant

structure ProbeTurn where
  cache : ProbeCache
  probed : Bool
  answer : Bool

namespace ProbeCache

/-- What the outcome of a probe leaves in the fields. -/
def record (cache : ProbeCache) (outcome : Option Bool) (answered : Instant) : ProbeCache :=
  match outcome with
  | some true => { hasSystemLog := some true }
  | some false => { cache with hasSystemLog := some false, failCount := 0 }
  | none =>
    let failCount := cache.failCount + 1
    if probeFailLimit ≤ failCount then
      { hasSystemLog := some false, failCount, backoffUntil := some (answered + probeRetryAfter) }
    else { cache with failCount }

def probe (cache : ProbeCache) (call : ProbeCall) : ProbeTurn where
  cache := cache.record call.outcome call.answered
  probed := true
  answer := call.outcome == some true

def probeHasSystemLog (cache : ProbeCache) (call : ProbeCall) : ProbeTurn :=
  match cache.hasSystemLog, cache.backoffUntil with
  | none, _ => cache.probe call
  | some false, some backoffUntil =>
    if backoffUntil ≤ call.started then probe {} call
    else { cache, probed := false, answer := false }
  | some cached, _ => { cache, probed := false, answer := cached }

end ProbeCache

/-! ## The coordinator's method -/

namespace Coordinator

def probeCache (coord : Coordinator) : ProbeCache where
  hasSystemLog := coord.hasSystemLog
  failCount := coord.probeFailCount
  backoffUntil := coord.probeBackoffUntil

def withProbeCache (coord : Coordinator) (cache : ProbeCache) : Coordinator :=
  { coord with
    hasSystemLog := cache.hasSystemLog
    probeFailCount := cache.failCount
    probeBackoffUntil := cache.backoffUntil }

theorem probeOnce_turn {net : Net} {site : String} {coord : Coordinator} {outcome : Option Bool}
    {client : ClientState}
    (h : probeSystemLogEndpoint net site coord.client = (.ok outcome, client)) :
    probeOnce net site coord =
      (.ok (outcome == some true),
        { coord.withProbeCache (coord.probeCache.record outcome net.now) with client }) := by
  have hclient : onClient (probeSystemLogEndpoint net site) coord =
      (.ok outcome, { coord with client }) := by
    unfold onClient Comp.zoom
    rw [h]
  unfold probeOnce
  rw [Comp.bind_run hclient]
  cases outcome with
  | some b => cases b <;> rfl
  | none =>
      have hrecord : coord.probeCache.record none net.now =
          if probeFailLimit ≤ coord.probeFailCount + 1 then
            ⟨some false, coord.probeFailCount + 1, some (net.now + probeRetryAfter)⟩
          else ⟨coord.hasSystemLog, coord.probeFailCount + 1, coord.probeBackoffUntil⟩ := rfl
      simp only [Comp.update_bind, Comp.gets_bind]
      rw [hrecord]
      by_cases hlimit : probeFailLimit ≤ coord.probeFailCount + 1
      · rw [if_pos hlimit, if_pos hlimit]
        rfl
      · rw [if_neg hlimit, if_neg hlimit]
        rfl

/-- A poll calls the method with its own clock reading, before the probe and after it. -/
theorem probeHasSystemLog_turn {net : Net} {site : String} {coord : Coordinator}
    {outcome : Option Bool} {client : ClientState}
    (h : probeSystemLogEndpoint net site coord.client = (.ok outcome, client)) :
    let turn := coord.probeCache.probeHasSystemLog ⟨net.now, outcome, net.now⟩
    Coordinator.probeHasSystemLog net site coord =
      (.ok turn.answer,
        { coord.withProbeCache turn.cache with
          client := if turn.probed then client else coord.client }) := by
  obtain ⟨states, lastPushAt, seenUnknownKeys, unrecognisedKeys, cached, failCount, backoffUntil,
    client'⟩ := coord
  cases cached with
  | none => exact probeOnce_turn h
  | some cached =>
      cases backoffUntil with
      | none => cases cached <;> rfl
      | some backoffUntil =>
          cases cached with
          | true => rfl
          | false =>
              unfold Coordinator.probeHasSystemLog
              simp only [Comp.gets_bind, ProbeCache.probeHasSystemLog, probeCache]
              split
              · exact @probeOnce_turn net site
                  ⟨states, lastPushAt, seenUnknownKeys, unrecognisedKeys, none, 0, none, client'⟩
                  _ _ h
              · rfl

end Coordinator

/-! ## What the probes amount to -/

namespace ProbeCache

/-- The definitive outcome among the probes. -/
def seen (probes : List ProbeCall) : Option Bool := probes.findSome? (·.outcome)

/-- The consecutive failures up to the last probe, the latest first. A definitive outcome
resets them; after the fifth comes a window, and the probe after it counts anew. -/
def failures : List ProbeCall → Nat
  | [] => 0
  | p :: older =>
    match p.outcome with
    | some _ => 0
    | none => if failures older = probeFailLimit then 1 else failures older + 1

/-- The end of the window that the last probe opened. -/
def windowEnd : List ProbeCall → Option Instant
  | [] => none
  | p :: older =>
    if failures (p :: older) = probeFailLimit then some (p.answered + probeRetryAfter) else none

/-- The last probe has opened a window that has not ended at `now`. -/
def BackedOff (probes : List ProbeCall) (now : Instant) : Prop :=
  ∃ deadline, windowEnd probes = some deadline ∧ now < deadline

def ofHistory (probes : List ProbeCall) : ProbeCache :=
  match seen probes with
  | some b => { hasSystemLog := some b }
  | none => {
      hasSystemLog := if failures probes = probeFailLimit then some false else none
      failCount := failures probes
      backoffUntil := windowEnd probes }

theorem failures_le : ∀ probes, failures probes ≤ probeFailLimit
  | [] => Nat.zero_le _
  | p :: older => by
      have ih := failures_le older
      unfold failures
      split
      · exact Nat.zero_le _
      · split
        · decide
        · omega

theorem windowEnd_of_full {probes : List ProbeCall} (h : failures probes = probeFailLimit) :
    ∃ deadline, windowEnd probes = some deadline := by
  cases probes with
  | nil => cases h
  | cons p older => exact ⟨p.answered + probeRetryAfter, if_pos h⟩

theorem windowEnd_of_not_full {probes : List ProbeCall} (h : failures probes ≠ probeFailLimit) :
    windowEnd probes = none := by
  cases probes with
  | nil => rfl
  | cons p older => exact if_neg h

theorem seen_cons {call : ProbeCall} {probes : List ProbeCall} (h : seen probes = none) :
    seen (call :: probes) = call.outcome := by
  unfold seen
  rw [List.findSome?_cons]
  cases call.outcome with
  | some b => rfl
  | none => exact h

/-- A probe leaves in the fields what the longer history amounts to. -/
theorem record_ofHistory (cache : ProbeCache) {call : ProbeCall} {probes : List ProbeCall}
    (hseen : seen probes = none) (hcached : cache.hasSystemLog = none)
    (hcount : cache.failCount = if failures probes = probeFailLimit then 0 else failures probes)
    (hbackoff : cache.backoffUntil = none) :
    cache.record call.outcome call.answered = ofHistory (call :: probes) := by
  have hle := failures_le probes
  obtain ⟨hasSystemLog, failCount, backoffUntil⟩ := cache
  subst hcached hcount hbackoff
  obtain ⟨started, outcome, answered⟩ := call
  unfold ofHistory
  rw [seen_cons hseen]
  cases outcome with
  | some b => cases b <;> rfl
  | none =>
      have hnext : failures (⟨started, none, answered⟩ :: probes) =
          (if failures probes = probeFailLimit then 0 else failures probes) + 1 := by
        show (if _ then 1 else _) = _
        split <;> rfl
      simp only [ProbeCache.record, windowEnd, ← hnext]
      have hle' := failures_le (⟨started, none, answered⟩ :: probes)
      by_cases hfull : failures (⟨started, none, answered⟩ :: probes) = probeFailLimit
      · simp only [hfull, le_refl, if_true]
      · rw [if_neg hfull, if_neg hfull, if_neg (by omega)]

/-- What a call does is decided by the probes that were sent before it. -/
theorem probeHasSystemLog_ofHistory (probes : List ProbeCall) (call : ProbeCall) :
    (seen probes = none ∧ ¬BackedOff probes call.started ∧
      (ofHistory probes).probeHasSystemLog call =
        ⟨ofHistory (call :: probes), true, call.outcome == some true⟩) ∨
    ((seen probes ≠ none ∨ BackedOff probes call.started) ∧
      (ofHistory probes).probeHasSystemLog call =
        ⟨ofHistory probes, false, (seen probes).getD false⟩) := by
  cases hseen : seen probes with
  | some b =>
      refine Or.inr ⟨Or.inl (by simp), ?_⟩
      unfold ofHistory
      rw [hseen]
      cases b <;> rfl
  | none =>
      have hcache : ofHistory probes = ⟨if failures probes = probeFailLimit then some false
          else none, failures probes, windowEnd probes⟩ := by
        unfold ofHistory
        rw [hseen]
      by_cases hfull : failures probes = probeFailLimit
      · obtain ⟨deadline, huntil⟩ := windowEnd_of_full hfull
        have hmethod : (ofHistory probes).probeHasSystemLog call =
            if deadline ≤ call.started then probe {} call
            else ⟨ofHistory probes, false, false⟩ := by
          rw [hcache, if_pos hfull, huntil]
          rfl
        rw [hmethod]
        by_cases hpast : deadline ≤ call.started
        · refine Or.inl ⟨rfl, ?_, ?_⟩
          · rintro ⟨t, ht, hlt⟩
            obtain rfl := Option.some.inj (huntil.symm.trans ht)
            exact absurd hpast (not_le.mpr hlt)
          · rw [if_pos hpast, ← record_ofHistory {} hseen rfl (if_pos hfull).symm rfl]
            rfl
        · refine Or.inr ⟨Or.inr ⟨deadline, huntil, not_le.mp hpast⟩, ?_⟩
          rw [if_neg hpast]
          rfl
      · have hnone := windowEnd_of_not_full hfull
        refine Or.inl ⟨rfl, ?_, ?_⟩
        · rintro ⟨t, ht, -⟩
          rw [hnone] at ht
          cases ht
        · rw [hcache, if_neg hfull, hnone,
            ← record_ofHistory ⟨none, failures probes, none⟩ hseen rfl
              (if_neg hfull).symm rfl]
          rfl

end ProbeCache

/-! ## Runs -/

/-- The fields, and the probes that were sent, the latest first. -/
structure Probing where
  cache : ProbeCache := {}
  probes : List ProbeCall := []

namespace Probing

open ProbeCache

def turn (s : Probing) (call : ProbeCall) : ProbeTurn := s.cache.probeHasSystemLog call

def step (s : Probing) (call : ProbeCall) : Probing where
  cache := (s.turn call).cache
  probes := if (s.turn call).probed then call :: s.probes else s.probes

/-- A new coordinator after these calls. -/
def after (calls : List ProbeCall) : Probing := run step {} calls

/-- What the calls after `calls` get, and what is in the fields: when a call probes, what
it answers, how long a definitive outcome stands, when a window opens and what happens in
it and after it. -/
structure FollowsHistory (calls : List ProbeCall) : Prop where
  probed_iff : ∀ call, ((after calls).turn call).probed = true ↔
    seen (after calls).probes = none ∧ ¬BackedOff (after calls).probes call.started
  answer_probed : ∀ call, ((after calls).turn call).probed = true →
    ((after calls).turn call).answer = (call.outcome == some true)
  settled : ∀ call b, ((after calls).turn call).probed = true → call.outcome = some b →
    ∀ later next,
      ((after (calls ++ call :: later)).turn next).probed = false ∧
      ((after (calls ++ call :: later)).turn next).answer = b
  opens : ∀ call, ((after calls).turn call).probed = true →
    ((after calls).turn call).cache.backoffUntil =
      if failures (call :: (after calls).probes) = probeFailLimit then
        some (call.answered + probeRetryAfter)
      else none
  window : ∀ call, ((after calls).turn call).probed = true →
    failures (call :: (after calls).probes) = probeFailLimit →
    ∀ during, (∀ c ∈ during, c.started < call.answered + probeRetryAfter) → ∀ next,
      (next.started < call.answered + probeRetryAfter →
        ((after (calls ++ call :: during)).turn next).probed = false ∧
        ((after (calls ++ call :: during)).turn next).answer = false) ∧
      (call.answered + probeRetryAfter ≤ next.started →
        ((after (calls ++ call :: during)).turn next).probed = true ∧
        ((after (calls ++ call :: during)).turn next).cache.failCount =
          if next.outcome = none then 1 else 0)
  deadline : (after calls).cache.backoffUntil ≠ none → (after calls).cache.hasSystemLog = some false
  limit : (after calls).cache.hasSystemLog = none → (after calls).cache.failCount < probeFailLimit

/-- The three fields hold what the probes sent so far amount to, and nothing else about
the past. -/
def Kept (s : Probing) : Prop := s.cache = ofHistory s.probes

theorem Kept.turn_cases {s : Probing} (h : s.Kept) (call : ProbeCall) :
    (seen s.probes = none ∧ ¬BackedOff s.probes call.started ∧
      s.turn call = ⟨ofHistory (call :: s.probes), true, call.outcome == some true⟩) ∨
    ((seen s.probes ≠ none ∨ BackedOff s.probes call.started) ∧
      s.turn call = ⟨ofHistory s.probes, false, (seen s.probes).getD false⟩) := by
  unfold turn
  rw [h]
  exact probeHasSystemLog_ofHistory s.probes call

theorem Kept.step {s : Probing} (h : s.Kept) (call : ProbeCall) : (s.step call).Kept := by
  unfold Kept Probing.step
  rcases h.turn_cases call with ⟨-, -, hturn⟩ | ⟨-, hturn⟩
  · rw [hturn]
    rfl
  · rw [hturn]
    rfl

theorem kept_after (calls : List ProbeCall) : (after calls).Kept :=
  @run_preserves _ _ step Kept (fun _ call h => h.step call) {} rfl calls

/-- A call that is not probed changes nothing. -/
theorem Kept.step_of_not_probed {s : Probing} (h : s.Kept) {call : ProbeCall}
    (hcall : seen s.probes ≠ none ∨ BackedOff s.probes call.started) : s.step call = s := by
  rcases h.turn_cases call with ⟨hseen, hopen, -⟩ | ⟨-, hturn⟩
  · exact absurd hcall (by simp [hseen, hopen])
  · unfold Probing.step
    rw [hturn, ← h]
    rfl

theorem Kept.probed_iff {s : Probing} (h : s.Kept) (call : ProbeCall) :
    (s.turn call).probed = true ↔ seen s.probes = none ∧ ¬BackedOff s.probes call.started := by
  rcases h.turn_cases call with ⟨hseen, hopen, hturn⟩ | ⟨hcall, hturn⟩
  · rw [hturn]
    exact iff_of_true rfl ⟨hseen, hopen⟩
  · rw [hturn]
    refine iff_of_false (by simp) fun ⟨hseen, hopen⟩ => ?_
    exact absurd hcall (by simp [hseen, hopen])

/-- A call that is probed. -/
theorem Kept.turn_of_probed {s : Probing} (h : s.Kept) {call : ProbeCall}
    (hprobed : (s.turn call).probed = true) :
    s.turn call = ⟨ofHistory (call :: s.probes), true, call.outcome == some true⟩ := by
  rcases h.turn_cases call with ⟨-, -, hturn⟩ | ⟨-, hturn⟩
  · exact hturn
  · rw [hturn] at hprobed
    cases hprobed

theorem after_append (calls : List ProbeCall) (call : ProbeCall) (later : List ProbeCall) :
    after (calls ++ call :: later) = run step ((after calls).step call) later := by
  unfold after
  rw [run_append, run_cons]

theorem probes_step_of_probed {s : Probing} {call : ProbeCall}
    (hprobed : (s.turn call).probed = true) : (s.step call).probes = call :: s.probes :=
  if_pos hprobed

/-- Calls that are not probed leave everything as it was. -/
theorem Kept.run_of_not_probed {s : Probing} (h : s.Kept) {calls : List ProbeCall}
    (hcalls : ∀ call ∈ calls, seen s.probes ≠ none ∨ BackedOff s.probes call.started) :
    run Probing.step s calls = s :=
  @run_preserves_labels _ _ Probing.step
    (fun call => seen s.probes ≠ none ∨ BackedOff s.probes call.started) (· = s)
    (fun s' call hs hcall => by rw [hs, h.step_of_not_probed hcall]) s rfl calls hcalls

theorem follows_settled (calls : List ProbeCall) {call : ProbeCall} {b : Bool}
    (hprobed : ((after calls).turn call).probed = true) (houtcome : call.outcome = some b)
    (later : List ProbeCall) (next : ProbeCall) :
    ((after (calls ++ call :: later)).turn next).probed = false ∧
      ((after (calls ++ call :: later)).turn next).answer = b := by
  have hkept := (kept_after calls).step call
  have hseen : seen ((after calls).step call).probes = some b := by
    rw [probes_step_of_probed hprobed,
      seen_cons (((kept_after calls).probed_iff call).mp hprobed).1, houtcome]
  have hdone : seen ((after calls).step call).probes ≠ none := by simp [hseen]
  rw [after_append, hkept.run_of_not_probed fun _ _ => Or.inl hdone]
  rcases hkept.turn_cases next with ⟨hnone, -⟩ | ⟨-, hturn⟩
  · exact absurd hnone hdone
  · rw [hturn, hseen]
    exact ⟨rfl, rfl⟩

theorem follows_window (calls : List ProbeCall) {call : ProbeCall}
    (hprobed : ((after calls).turn call).probed = true)
    (hfull : failures (call :: (after calls).probes) = probeFailLimit) {during : List ProbeCall}
    (hduring : ∀ c ∈ during, c.started < call.answered + probeRetryAfter) (next : ProbeCall) :
    (next.started < call.answered + probeRetryAfter →
      ((after (calls ++ call :: during)).turn next).probed = false ∧
      ((after (calls ++ call :: during)).turn next).answer = false) ∧
    (call.answered + probeRetryAfter ≤ next.started →
      ((after (calls ++ call :: during)).turn next).probed = true ∧
      ((after (calls ++ call :: during)).turn next).cache.failCount =
        if next.outcome = none then 1 else 0) := by
  have hkept := (kept_after calls).step call
  have hprobes := probes_step_of_probed hprobed
  have hunseen := (((kept_after calls).probed_iff call).mp hprobed).1
  have houtcome : call.outcome = none := by
    cases hc : call.outcome with
    | none => rfl
    | some b =>
        unfold failures at hfull
        rw [hc] at hfull
        cases hfull
  have hseen : seen ((after calls).step call).probes = none := by
    rw [hprobes, seen_cons hunseen, houtcome]
  have hopen : ∀ now, BackedOff ((after calls).step call).probes now ↔
      now < call.answered + probeRetryAfter := by
    intro now
    unfold BackedOff
    rw [hprobes, show windowEnd (call :: (after calls).probes) = _ from if_pos hfull]
    simp
  rw [after_append,
    hkept.run_of_not_probed fun c hc => Or.inr ((hopen c.started).mpr (hduring c hc))]
  constructor
  · intro hbefore
    rcases hkept.turn_cases next with ⟨-, hclosed, -⟩ | ⟨-, hturn⟩
    · exact absurd ((hopen next.started).mpr hbefore) hclosed
    · rw [hturn, hseen]
      exact ⟨rfl, rfl⟩
  · intro hpast
    have hprobed' : (((after calls).step call).turn next).probed = true :=
      (hkept.probed_iff next).mpr ⟨hseen, fun h => absurd ((hopen _).mp h) (not_lt.mpr hpast)⟩
    refine ⟨hprobed', ?_⟩
    rw [hkept.turn_of_probed hprobed']
    show (ofHistory _).failCount = _
    unfold ofHistory
    rw [seen_cons hseen, hprobes]
    cases hnext : next.outcome with
    | some b => rfl
    | none =>
        show failures (next :: call :: (after calls).probes) = _
        rw [failures, hnext]
        simp [hfull]

/-- The fields and the probes of `_probe_has_system_log` are those that the history of its
probes prescribes, whatever the client ends in and whenever it is called. -/
theorem probe_cache_follows_history (calls : List ProbeCall) : FollowsHistory calls where
  probed_iff := (kept_after calls).probed_iff
  answer_probed call hprobed := by rw [(kept_after calls).turn_of_probed hprobed]
  settled _ _ hprobed houtcome := follows_settled calls hprobed houtcome
  opens call hprobed := by
    rw [(kept_after calls).turn_of_probed hprobed]
    have hunseen := (((kept_after calls).probed_iff call).mp hprobed).1
    show (ofHistory _).backoffUntil = windowEnd (call :: (after calls).probes)
    unfold ofHistory
    rw [seen_cons hunseen]
    cases hc : call.outcome with
    | none => rfl
    | some b =>
        refine (windowEnd_of_not_full ?_).symm
        unfold failures
        rw [hc]
        show (0 : Nat) ≠ probeFailLimit
        decide
  window _ hprobed hfull _ hduring := follows_window calls hprobed hfull hduring
  deadline hbackoff := by
    rw [kept_after calls] at hbackoff ⊢
    unfold ofHistory at hbackoff ⊢
    split
    · rename_i hseen
      rw [hseen] at hbackoff
      exact absurd rfl hbackoff
    · rename_i hseen
      rw [hseen] at hbackoff
      by_cases hfull : failures (after calls).probes = probeFailLimit
      · exact if_pos hfull
      · exact absurd (windowEnd_of_not_full hfull) hbackoff
  limit hcached := by
    have hle := failures_le (after calls).probes
    rw [kept_after calls] at hcached ⊢
    unfold ofHistory at hcached ⊢
    split
    · show 0 < probeFailLimit
      decide
    · rename_i hseen
      rw [hseen] at hcached
      show failures _ < _
      by_cases hfull : failures (after calls).probes = probeFailLimit
      · exact absurd hcached (by simp [hfull])
      · omega

end Probing

end UnifiAlerts
