import UnifiAlerts.AbortedPoll
import UnifiAlerts.Lib.Dict

/-!
# Raising a minimum severity

Whatever is stored under the minimum severities, the gate decides, and a
higher minimum lets through a part of what a lower one does
(`Stricter`). What follows for the pushes is not immediate: one that the
higher minimum filters no longer occupies the deduplication window, so a
later push of its key may count under the higher minimum only. By then
the lower one has counted an earlier push of that key, and the histories
of accepted pushes stay `Ahead` of each other.

A poll counts a part of what it did, unless it did not count at all: an
alert that cannot be compared with the watermark stops the poll and
leaves the open count as it was, and the higher minimum may filter just
that alert. `StaysMixed` rules this out.
-/

namespace UnifiAlerts

open Py Lib

/-! ## The stored minimum -/

/-- The minimum-severity map; what is no mapping is read as an empty one. -/
def minSeverityMap (config : UniFiClientConfig) : JsonObj :=
  match config.minSeverity with
  | some (.obj kvs) => kvs
  | _ => []

def storedMinimum (config : UniFiClientConfig) (category : String) : Option Json :=
  (minSeverityMap config).lookup category

/-- The options with `minimum` stored for `category`. -/
def withMinimum (config : UniFiClientConfig) (category : String) (minimum : MinimumSeverity) :
    UniFiClientConfig :=
  { config with
    minSeverity := some (.obj (Dict.set (minSeverityMap config) category (.str minimum.text))) }

/-- The level a stored value names; anything else is no filter. -/
def minimumOf : Option Json → MinimumSeverity
  | some (.str s) => (minSeverityOrder.find? fun level => level.text == s).getD .noFilter
  | _ => .noFilter

theorem getEffectiveMinSeverity_eq (config : UniFiClientConfig) (category : String) :
    getEffectiveMinSeverity config category = minimumOf (storedMinimum config category) := by
  have hnone : minimumOf none = minimumOf (some (.str MinimumSeverity.noFilter.text)) := by decide
  have hread : minimumOf (some ((minSeverityMap config).getD category
      (.str MinimumSeverity.noFilter.text))) = minimumOf (storedMinimum config category) := by
    unfold storedMinimum JsonObj.getD
    cases (minSeverityMap config).lookup category with
    | none => exact hnone.symm
    | some v => rfl
  rw [← hread]
  unfold getEffectiveMinSeverity minSeverityMap
  dsimp only
  cases config.minSeverity with
  | none => exact hnone
  | some v =>
      cases v with
      | obj kvs =>
          dsimp only [Option.getD_some]
          cases JsonObj.getD kvs category (.str MinimumSeverity.noFilter.text) <;> rfl
      | _ => exact hnone

theorem minimumOf_text {minimum : MinimumSeverity} (h : minimum ∈ minSeverityOrder) :
    minimumOf (some (.str minimum.text)) = minimum := by
  revert h
  cases minimum <;> decide

theorem storedMinimum_withMinimum (config : UniFiClientConfig) (category category' : String)
    (minimum : MinimumSeverity) :
    storedMinimum (withMinimum config category minimum) category' =
      if category' = category then some (.str minimum.text)
      else storedMinimum config category' := by
  show (Dict.set (minSeverityMap config) category _).lookup category' = _
  rw [Dict.lookup_set]
  simp only [beq_iff_eq]
  rfl

theorem getEffectiveMinSeverity_withMinimum {minimum : MinimumSeverity}
    (h : minimum ∈ minSeverityOrder) (config : UniFiClientConfig) (category category' : String) :
    getEffectiveMinSeverity (withMinimum config category minimum) category' =
      if category' = category then minimum else getEffectiveMinSeverity config category' := by
  rw [getEffectiveMinSeverity_eq, getEffectiveMinSeverity_eq, storedMinimum_withMinimum]
  split
  · exact minimumOf_text h
  · rfl

/-- A stored value that is the text of no minimum. -/
theorem minimumOf_unrecognised {stored : Option Json}
    (h : ∀ minimum ∈ minSeverityOrder, stored ≠ some (.str minimum.text)) :
    minimumOf stored = .noFilter := by
  unfold minimumOf
  split
  · rename_i s
    have hnone : (minSeverityOrder.find? fun level => level.text == s) = none := by
      rw [List.find?_eq_none]
      intro level hlevel htext
      rw [beq_iff_eq] at htext
      exact h level hlevel (by rw [htext])
    rw [hnone, Option.getD_none]
  · rfl

/-- The rank of a minimum is its position in the order. -/
theorem rank_eq_idxOf {minimum : MinimumSeverity} (h : minimum ∈ minSeverityOrder) :
    minimum.rank = minSeverityOrder.idxOf minimum := by
  revert h
  cases minimum <;> decide

/-! ## A stricter gate -/

/-- The same categories, and a gate that lets no more through, for any category and any
severity. -/
structure Stricter (config config' : UniFiClientConfig) : Prop where
  enabled : config'.enabled = config.enabled
  gate : ∀ category severity, severityGate config' category severity = true →
    severityGate config category severity = true

theorem stricter_withMinimum {config : UniFiClientConfig} {category : String}
    {minimum : MinimumSeverity} (hmem : minimum ∈ minSeverityOrder)
    (hhigher : minSeverityOrder.idxOf (getEffectiveMinSeverity config category) ≤
      minSeverityOrder.idxOf minimum) :
    Stricter config (withMinimum config category minimum) where
  enabled := rfl
  gate category' severity hpass := by
    rw [← rank_eq_idxOf hmem, ← rank_eq_idxOf (getEffectiveMinSeverity_mem _ _)] at hhigher
    have hrank : (getEffectiveMinSeverity config category').rank ≤
        (getEffectiveMinSeverity (withMinimum config category minimum) category').rank := by
      rw [getEffectiveMinSeverity_withMinimum hmem]
      split
      · rename_i hcat
        rw [hcat]
        exact hhigher
      · exact le_rfl
    unfold severityGate at hpass ⊢
    dsimp only at hpass ⊢
    rw [decide_eq_true_eq] at hpass ⊢
    exact hpass.imp id hrank.trans

/-! ## Pushes under two gates -/

section

variable {config config' : UniFiClientConfig}

theorem keyed_suppressedBy {accepted : List Accepted} {now : ℚ} {category key : String}
    (hkey : key ≠ "") :
    SuppressedBy webhookDedupWindowSeconds now (keyed accepted) (category, key) ↔
      SuppressedBy webhookDedupWindowSeconds now accepted (category, key) := by
  unfold SuppressedBy keyed
  simp [List.mem_filter, hkey]

/-- What one gate has accepted by `now` and what a stricter one has. -/
structure Outpaces (now : ℚ) (accepted accepted' : List Accepted) : Prop where
  ahead : Ahead accepted accepted'
  past : ∀ p ∈ accepted, p.2 ≤ now

theorem Outpaces.nil (now : ℚ) : Outpaces now [] [] := ⟨.nil, by simp⟩

theorem Outpaces.advance {now now' : ℚ} {accepted accepted' : List Accepted}
    (h : Outpaces now accepted accepted') (hle : now ≤ now') : Outpaces now' accepted accepted' :=
  ⟨h.ahead, fun p hp => (h.past p hp).trans hle⟩

/-- A push that only the stricter gate's history accepts is a duplicate for the other. -/
theorem Stricter.unsuppressed (h : Stricter config config') {accepted accepted' : List Accepted}
    {now : ℚ} {category : String} {alert : UniFiAlert}
    (hlow : refAccepts config accepted now category alert = false)
    (hhigh : refAccepts config' accepted' now category alert = true) :
    SuppressedBy webhookDedupWindowSeconds now accepted (category, alert.key) ∧
      ¬SuppressedBy webhookDedupWindowSeconds now accepted' (category, alert.key) := by
  obtain ⟨c, hcat, henabled, hgate, hfree⟩ := refAccepts_iff.mp hhigh
  rw [h.enabled] at henabled
  have hrefused : ¬(alert.key = "" ∨ ¬SuppressedBy webhookDedupWindowSeconds now (keyed accepted)
      (category, alert.key)) := fun hfree =>
    Bool.false_ne_true (hlow.symm.trans
      (refAccepts_iff.mpr ⟨c, hcat, henabled, h.gate category alert.severity hgate, hfree⟩))
  rw [not_or, not_not] at hrefused
  obtain ⟨hkey, hsuppressed⟩ := hrefused
  rw [keyed_suppressedBy hkey] at hsuppressed hfree
  exact ⟨hsuppressed, hfree.resolve_left hkey⟩

/-- One operation, at its own time. -/
theorem Stricter.refStep (h : Stricter config config') {accepted accepted' : List Accepted}
    (t : TimedOp) (ho : Outpaces t.now.mono accepted accepted') :
    Outpaces t.now.mono (UnifiAlerts.refStep config accepted t)
      (UnifiAlerts.refStep config' accepted' t) := by
  unfold UnifiAlerts.refStep
  split
  · rename_i category alert _
    have hpast : ∀ p ∈ accepted ++ [((category, alert.key), t.now.mono)], p.2 ≤ t.now.mono := by
      intro p hp
      rcases List.mem_append.mp hp with hold | hnew
      · exact ho.past p hold
      · obtain rfl := List.mem_singleton.mp hnew
        exact le_rfl
    cases hlow : refAccepts config accepted t.now.mono category alert with
    | true =>
        rw [if_pos rfl]
        split
        · exact ⟨ho.ahead.both _ _, hpast⟩
        · exact ⟨ho.ahead.first _ _, hpast⟩
    | false =>
        rw [if_neg Bool.false_ne_true]
        split
        · rename_i hhigh
          obtain ⟨hsuppressed, hfree⟩ := h.unsuppressed hlow hhigh
          refine ⟨ho.ahead.second (fun u hu => ?_) hsuppressed hfree, ho.past⟩
          exact ho.past _ hu
        · exact ho
  · exact ho

theorem Stricter.outpaces (h : Stricter config config') {ts : List TimedOp} {now : ℚ}
    (hclock : ts.Pairwise fun a b => a.now.mono ≤ b.now.mono) (hto : ∀ t ∈ ts, t.now.mono ≤ now) :
    Outpaces now (run (UnifiAlerts.refStep config) [] ts)
      (run (UnifiAlerts.refStep config') [] ts) := by
  have hpair := @run_preserves_timed _ _ _
    (fun p t => (UnifiAlerts.refStep config p.1 t, UnifiAlerts.refStep config' p.2 t)) _
    (fun t : TimedOp => t.now.mono) (fun now p => Outpaces now p.1 p.2)
    (fun h hle => h.advance hle) (fun _ t hp => h.refStep t hp) ts ([], []) Outpaces.nil hclock now
    hto
  rw [run_pair] at hpair
  exact hpair

/-- Of one sequence of operations, a stricter gate never counts more pushes. -/
theorem Stricter.alertCount_le (h : Stricter config config') {coord : Coordinator}
    (hstart : Started config coord) {ts : List TimedOp}
    (hclock : ts.Pairwise fun a b => a.now.mono ≤ b.now.mono) (c : Category) :
    ((run (Coordinator.step config') coord ts).states c).alertCount ≤
      ((run (Coordinator.step config) coord ts).states c).alertCount := by
  obtain ⟨last, hlast⟩ := (ts.map fun t => t.now.mono).toFinset.exists_le
  have hto : ∀ t ∈ ts, t.now.mono ≤ last := fun t ht =>
    hlast _ (List.mem_toFinset.mpr (List.mem_map_of_mem ht))
  have hstart' : Started config' coord :=
    ⟨fun d => by rw [h.enabled, hstart.enabled d], hstart.nothingPushed⟩
  have hcount := (h.outpaces hclock hto).ahead.countP_le fun k => k.1 == c.name
  rw [(Tracks.run hstart hclock hto).counted c, (Tracks.run hstart' hclock hto).counted c]
  exact Int.add_le_add_left (Int.ofNat_le.mpr hcount) _

end

/-! ## Polls under two gates -/

namespace Coordinator

section

variable {config config' : UniFiClientConfig}

theorem gated_sublist (h : Stricter config config') (cat : String) (alerts : List UniFiAlert) :
    (gated config' cat alerts).Sublist (gated config cat alerts) :=
  List.monotone_filter_right alerts fun a => h.gate cat a.severity

/-- All of the times are aware or all are naive. -/
def OneKind (alerts : List UniFiAlert) : Prop :=
  ∀ a ∈ alerts, ∀ b ∈ alerts, a.receivedAt.isAware = b.receivedAt.isAware

/-- Where the alerts past the first gate mix aware and naive times, those past the
second mix them as well, or there are none. -/
def StaysMixed (config config' : UniFiClientConfig) (cat : String) (alerts : List UniFiAlert) :
    Prop :=
  gated config' cat alerts ≠ [] → OneKind (gated config' cat alerts) →
    OneKind (gated config cat alerts)

theorem AllAware.oneKind {alerts : List UniFiAlert} (h : AllAware alerts) : OneKind alerts :=
  fun a ha b hb => by rw [h a ha, h b hb]

theorem AllAware.staysMixed {alerts : List UniFiAlert} (h : AllAware alerts) (cat : String) :
    StaysMixed config config' cat alerts := fun _ _ => AllAware.oneKind (h.filter _)

theorem sameKind_of_counted {watermark : Option DateTime} {alerts as : List UniFiAlert}
    (h : counted watermark alerts = .ok as) : SameKind watermark alerts := by
  rintro w rfl
  exact counted_ok_iff.mp ⟨as, h⟩

theorem SameKind.subset {watermark : Option DateTime} {alerts as : List UniFiAlert}
    (h : SameKind watermark alerts) (hsub : as ⊆ alerts) : SameKind watermark as :=
  fun w hw a ha => h w hw a (hsub ha)

/-- A category's poll under a stricter gate opens no more, unless the gate filters
just what stops the other poll. -/
theorem pollState_openCount_le (h : Stricter config config') {cat : String}
    {alerts : List UniFiAlert} (hmixed : StaysMixed config config' cat alerts)
    (st : CategoryState) :
    (pollState config' cat st alerts).1.openCount ≤
      (pollState config cat st alerts).1.openCount := by
  have hsub := gated_sublist h cat alerts
  rw [pollState_openCount, pollState_openCount]
  cases hlow : counted st.lastClearedAt (gated config cat alerts) with
  | ok as =>
      have hkind := sameKind_of_counted hlow
      rw [counted_of_sameKind hkind] at hlow
      obtain rfl := Except.ok.inj hlow
      rw [counted_of_sameKind (hkind.subset hsub.subset)]
      exact (hsub.filter _).length_le
  | error e =>
      cases hhigh : counted st.lastClearedAt (gated config' cat alerts) with
      | error e' => exact le_rfl
      | ok as' =>
          -- the stricter gate has filtered what stopped the poll, so it has filtered everything
          have hnone : gated config' cat alerts = [] := by
            by_contra hne
            obtain ⟨b, hb⟩ := List.exists_mem_of_ne_nil _ hne
            have hkind' := sameKind_of_counted hhigh
            have hkind : SameKind st.lastClearedAt (gated config cat alerts) := by
              intro w hw a ha
              have hone := hmixed hne fun x hx y hy => by rw [hkind' w hw x hx, hkind' w hw y hy]
              rw [hone a ha b (hsub.subset hb), hkind' w hw b hb]
            rw [counted_of_sameKind hkind] at hlow
            cases hlow
          rw [hnone] at hhigh
          obtain rfl := Except.ok.inj hhigh
          exact Nat.zero_le _

/-- The loop leaves a category that it does not visit. -/
theorem pollLoop_of_notMem {c : Category} :
    ∀ {categorised : Categorised} {turn : Turn}, c.name ∉ categorised.keys →
      (pollLoop config categorised turn).coord.states c = turn.coord.states c
  | [], _, _ => rfl
  | (cat, as) :: rest, turn, hnot => by
      have hrest : c.name ∉ Categorised.keys rest := fun hin => hnot (List.mem_cons_of_mem _ hin)
      rcases pollLoop_cases config cat as rest turn with ⟨-, hloop⟩ | ⟨d, rfl, -, hpolled⟩
      · rw [hloop]
        exact pollLoop_of_notMem hrest
      · have hcd : c ≠ d := by
          rintro rfl
          exact hnot Categorised.mem_keys_cons_self
        have hkept : (polledTurn config turn d as).coord.states c = turn.coord.states c := by
          rw [polledTurn_states, if_neg hcd]
        rcases hpolled with ⟨e, -, hloop⟩ | ⟨-, hloop⟩
        · rw [hloop]
          exact hkept
        · rw [hloop, pollLoop_of_notMem hrest]
          exact hkept

/-- The entry of an enabled category polls it, and no later entry touches it. -/
theorem pollLoop_head {c : Category} {as : List UniFiAlert} {rest : Categorised} {turn : Turn}
    (hen : (turn.coord.states c).enabled = true) (hnew : c.name ∉ Categorised.keys rest) :
    (pollLoop config ((c.name, as) :: rest) turn).coord.states c =
      (pollState config c.name (turn.coord.states c) as).1 := by
  rcases pollLoop_cases config c.name as rest turn with ⟨hskip, -⟩ | ⟨d, hname, -, hpolled⟩
  · rw [hskip c rfl] at hen
    cases hen
  · obtain rfl := Category.name_injective hname
    have hstate : (polledTurn config turn d as).coord.states d =
        (pollState config d.name (turn.coord.states d) as).1 := by
      rw [polledTurn_states, if_pos rfl]
    rcases hpolled with ⟨e, -, hloop⟩ | ⟨-, hloop⟩
    · rw [hloop]
      exact hstate
    · rw [hloop, pollLoop_of_notMem hnew]
      exact hstate

/-- Two polls that differ in the gate of one category do the same up to it. -/
theorem pollLoop_only {c : Category}
    (hother : ∀ d, d ≠ c → ∀ st as,
      pollState config' d.name st as = pollState config d.name st as) :
    ∀ {categorised : Categorised} {turn : Turn}, categorised.keys.Nodup →
      pollLoop config' categorised turn = pollLoop config categorised turn ∨
        c.name ∈ categorised.keys ∧ ∃ st,
          (pollLoop config' categorised turn).coord.states c =
            (pollState config' c.name st (categorised.alertsFor c)).1 ∧
          (pollLoop config categorised turn).coord.states c =
            (pollState config c.name st (categorised.alertsFor c)).1
  | [], _, _ => Or.inl rfl
  | (cat, as) :: rest, turn, hnodup => by
      obtain ⟨hnew, hnodup⟩ := List.nodup_cons.mp hnodup
      have ih := fun {turn : Turn} => @pollLoop_only c hother rest turn hnodup
      by_cases hc : c.name = cat ∧ (turn.coord.states c).enabled = true
      · obtain ⟨rfl, hen⟩ := hc
        refine Or.inr ⟨Categorised.mem_keys_cons_self, turn.coord.states c, ?_, ?_⟩
        · rw [Categorised.alertsFor_cons_self, pollLoop_head hen hnew]
        · rw [Categorised.alertsFor_cons_self, pollLoop_head hen hnew]
      · -- the entry does the same in both, and `c` can only be in the rest
        have hrest : c.name ∈ Categorised.keys rest →
            Categorised.alertsFor ((cat, as) :: rest) c = Categorised.alertsFor rest c := by
          intro hin
          refine Categorised.alertsFor_cons_of_ne ?_
          rintro rfl
          exact hnew hin
        have hsame : ∀ {turn' : Turn},
            pollLoop config' rest turn' = pollLoop config rest turn' ∨
            c.name ∈ Categorised.keys ((cat, as) :: rest) ∧ ∃ st,
              (pollLoop config' rest turn').coord.states c =
                (pollState config' c.name st (Categorised.alertsFor ((cat, as) :: rest) c)).1 ∧
              (pollLoop config rest turn').coord.states c =
                (pollState config c.name st (Categorised.alertsFor ((cat, as) :: rest) c)).1 := by
          intro turn'
          refine (@ih turn').imp id fun ⟨hin, hstates⟩ => ⟨List.mem_cons_of_mem _ hin, ?_⟩
          rw [hrest hin]
          exact hstates
        unfold pollLoop
        cases hd : Category.ofName? cat with
        | none => exact hsame
        | some d =>
            obtain rfl := Category.ofName?_eq_some.mp hd
            dsimp only
            cases hen : (turn.coord.states d).enabled with
            | false => exact hsame
            | true =>
                have hdc : d ≠ c := by
                  rintro rfl
                  exact hc ⟨rfl, hen⟩
                rw [hother d hdc]
                simp only [Bool.not_true, Bool.false_eq_true, if_false]
                split
                · exact Or.inl rfl
                · exact hsame

theorem applyPoll_of_mem {c : Category} {categorised : Categorised} {coord : Coordinator}
    (hin : c.name ∈ categorised.keys) :
    (applyPoll config categorised coord).coord.states c =
      (pollLoop config categorised { coord }).coord.states c := by
  have hcontains : (categorised.map Prod.fst).contains c.name = true := by
    rw [List.contains_iff_mem]
    exact hin
  unfold applyPoll
  dsimp only
  split
  · rfl
  · simp only [zeroise, hcontains, Bool.not_true, Bool.and_false, Bool.false_eq_true, if_false]

theorem applyPoll_openCount_le (h : Stricter config config') {c : Category}
    (hother : ∀ d, d ≠ c → ∀ st as, pollState config' d.name st as = pollState config d.name st as)
    {categorised : Categorised} (hnodup : categorised.keys.Nodup)
    (hmixed : StaysMixed config config' c.name (categorised.alertsFor c)) (coord : Coordinator) :
    ((applyPoll config' categorised coord).coord.states c).openCount ≤
      ((applyPoll config categorised coord).coord.states c).openCount := by
  rcases @pollLoop_only config config' c hother categorised { coord } hnodup with
    hsame | ⟨hin, st, hhigh, hlow⟩
  · unfold applyPoll
    rw [hsame]
  · rw [applyPoll_of_mem hin, applyPoll_of_mem hin, hhigh, hlow]
    exact pollState_openCount_le h hmixed st

theorem Comparable.subset {st : CategoryState} {alerts as : List UniFiAlert}
    (h : Comparable st alerts) (hsub : as ⊆ alerts) : Comparable st as :=
  ⟨fun w hw a ha => h.watermark w hw a (hsub ha),
    fun hnone hquiet a ha b hb => h.newest hnone hquiet a (hsub ha) b (hsub hb)⟩

/-- Where the poll returns, it returns under a stricter gate, and opens no more of
any category. -/
theorem applyPoll_returns (h : Stricter config config') {categorised : Categorised}
    (hnodup : categorised.keys.Nodup) {coord : Coordinator}
    (hreturns : (applyPoll config categorised coord).raised = none) :
    (applyPoll config' categorised coord).raised = none ∧
      ∀ c, ((applyPoll config' categorised coord).coord.states c).openCount ≤
        ((applyPoll config categorised coord).coord.states c).openCount := by
  rw [applyPoll_raised_iff hnodup] at hreturns
  have hclean : PollsCleanly config' categorised coord := by
    intro c hen
    have hlow := hreturns c hen
    rw [pollState_clean_iff] at hlow ⊢
    exact hlow.subset (gated_sublist h _ _).subset
  refine ⟨(applyPoll_raised_iff hnodup).mpr hclean, fun c => ?_⟩
  rw [applyPoll_clean hnodup hclean, applyPoll_clean hnodup hreturns]
  by_cases hen : (coord.states c).enabled = true
  · rw [if_pos hen, if_pos hen, pollState_openCount, pollState_openCount]
    have hlow := pollState_clean_iff.mp (hreturns c hen)
    have hkind : SameKind (coord.states c).lastClearedAt
        (gated config c.name (categorised.alertsFor c)) := hlow.watermark
    have hsub := gated_sublist h c.name (categorised.alertsFor c)
    rw [counted_of_sameKind hkind, counted_of_sameKind (hkind.subset hsub.subset)]
    exact (hsub.filter _).length_le
  · rw [if_neg hen, if_neg hen]

/-- Only `c` is enabled, cleared at `w`, and has nothing open. -/
def clearedAt (c : Category) (w : DateTime) : Coordinator where
  states d := { category := d, enabled := d == c, lastClearedAt := some w }

/-- A poll stopped under the first gate only: the alerts past the second are of one
kind, and one past the first is not. -/
theorem applyPoll_openCount_lt {c : Category} {categorised : Categorised}
    (hnodup : categorised.keys.Nodup)
    (hmixed : ¬StaysMixed config config' c.name (categorised.alertsFor c)) :
    ∃ coord, ((applyPoll config categorised coord).coord.states c).openCount <
      ((applyPoll config' categorised coord).coord.states c).openCount := by
  simp only [StaysMixed, Classical.not_imp] at hmixed
  obtain ⟨hne, hone, hmixed⟩ := hmixed
  obtain ⟨b, hb⟩ := List.exists_mem_of_ne_nil _ hne
  -- the watermark is of the kind of `b`, and older than it
  let w := b.receivedAt.add (-1)
  have hen : ∀ d, ((clearedAt c w).states d).enabled = true ↔ d = c := fun d => by simp [clearedAt]
  have hkind : SameKind (some w) (gated config' c.name (categorised.alertsFor c)) := by
    intro w' hw' a ha
    obtain rfl := Option.some.inj hw'
    rw [DateTime.isAware_add, hone a ha b hb]
  have hclean : PollsCleanly config' categorised (clearedAt c w) := by
    intro d hd
    obtain rfl := (hen d).mp hd
    exact pollState_clean_iff.mpr ⟨hkind, fun hnone => nomatch hnone⟩
  have hraised : (pollState config c.name ((clearedAt c w).states c)
      (categorised.alertsFor c)).2.2 ≠ none := by
    rw [ne_eq, pollState_clean_iff]
    intro h
    refine hmixed fun a ha a' ha' => ?_
    rw [h.watermark w rfl a ha, h.watermark w rfl a' ha']
  have hopen : b ∈ (gated config' c.name (categorised.alertsFor c)).filter (newer (some w)) := by
    refine List.mem_filter.mpr ⟨hb, (newer_some w b).mpr ?_⟩
    rw [DateTime.instant_add]
    exact add_lt_of_neg_right _ (by decide)
  refine ⟨clearedAt c w, ?_⟩
  have hcounted : counted ((clearedAt c w).states c).lastClearedAt
      (gated config' c.name (categorised.alertsFor c)) = .ok _ := counted_of_sameKind hkind
  rw [applyPoll_openCount_of_raised hnodup ((hen c).mpr rfl) rfl hraised,
    applyPoll_clean hnodup hclean, if_pos ((hen c).mpr rfl), pollState_openCount, hcounted]
  exact List.length_pos_of_mem hopen

/-- The push got past the severity gate: it is applied, or a duplicate. -/
def passesPushGate (config : UniFiClientConfig) (coord : Coordinator) (mono : ℚ) (c : Category)
    (alert : UniFiAlert) : Bool :=
  match pushVerdict config coord mono c.name alert with
  | .ok (.duplicate _) => true
  | .ok (.accepted _) => true
  | _ => false

theorem passesPushGate_eq {coord : Coordinator} {c : Category}
    (hen : (coord.states c).enabled = true) (mono : ℚ) (alert : UniFiAlert) :
    passesPushGate config coord mono c alert = severityGate config c.name alert.severity := by
  unfold passesPushGate
  rw [pushVerdict_eq, Category.ofName?_name]
  simp only [hen, Bool.true_eq_false, if_false]
  cases hgate : severityGate config c.name alert.severity with
  | false => rfl
  | true =>
      rw [if_neg (by decide)]
      by_cases hdup : alert.key ≠ "" ∧
          suppressed webhookDedupWindowSeconds mono coord.lastPushAt (c.name, alert.key) = true
      · rw [if_pos hdup]
      · rw [if_neg hdup]

end

end Coordinator

/-! ## The contract -/

/-- What the gate promises of a stored configuration, of `minimum` stored for `c` in
its place, and of one poll result. -/
structure SeverityContract (config : UniFiClientConfig) (c : Category) (minimum : MinimumSeverity)
    (categorised : Categorised) : Prop where
  total : ∀ raw category, ∃ passes,
    meetsMinimum (normalizeSeverity raw) (getEffectiveMinSeverity config category) = .ok passes
  unknown : ∀ (alert : UniFiAlert) category, alert.severityLevel = .unknown →
    meetsMinimum alert.severityLevel (getEffectiveMinSeverity config category) = .ok true
  unrecognised : ∀ category,
    (∀ level ∈ minSeverityOrder, storedMinimum config category ≠ some (.str level.text)) →
    ∀ raw, meetsMinimum (normalizeSeverity raw) (getEffectiveMinSeverity config category) = .ok true
  monotone : ∀ (alert : UniFiAlert) category,
    meetsMinimum alert.severityLevel
      (getEffectiveMinSeverity (withMinimum config c.name minimum) category) = .ok true →
    meetsMinimum alert.severityLevel (getEffectiveMinSeverity config category) = .ok true
  openCount : ∀ coord,
    ((Coordinator.applyPoll (withMinimum config c.name minimum) categorised coord).coord.states
      c).openCount ≤ ((Coordinator.applyPoll config categorised coord).coord.states c).openCount
  returned : ∀ coord, (Coordinator.applyPoll config categorised coord).raised = none →
    (Coordinator.applyPoll (withMinimum config c.name minimum) categorised coord).raised = none ∧
    ∀ d, ((Coordinator.applyPoll (withMinimum config c.name minimum) categorised coord).coord.states
      d).openCount ≤ ((Coordinator.applyPoll config categorised coord).coord.states d).openCount
  alertCount : ∀ coord, Started config coord → ∀ ts : List TimedOp,
    (ts.Pairwise fun a b => a.now.mono ≤ b.now.mono) → ∀ d,
    ((run (Coordinator.step (withMinimum config c.name minimum)) coord ts).states d).alertCount ≤
      ((run (Coordinator.step config) coord ts).states d).alertCount
  shared : ∀ (coord : Coordinator) mono d, (coord.states d).enabled = true → ∀ alerts,
    Coordinator.eligible config d.name alerts =
      .ok (alerts.filter (Coordinator.passesPushGate config coord mono d))

theorem meetsMinimum_iff {config : UniFiClientConfig} {category : String} {alert : UniFiAlert} :
    meetsMinimum alert.severityLevel (getEffectiveMinSeverity config category) = .ok true ↔
      severityGate config category alert.severity = true := by
  rw [UniFiAlert.severityLevel, meetsMinimum_eq_gate, Except.ok.injEq]

theorem pollState_withMinimum {minimum : MinimumSeverity} (hmem : minimum ∈ minSeverityOrder)
    {config : UniFiClientConfig} {c d : Category} (hdc : d ≠ c) (st : CategoryState)
    (alerts : List UniFiAlert) :
    Coordinator.pollState (withMinimum config c.name minimum) d.name st alerts =
      Coordinator.pollState config d.name st alerts := by
  have hne : d.name ≠ c.name := fun h => hdc (Category.name_injective h)
  have hgated : Coordinator.gated (withMinimum config c.name minimum) d.name alerts =
      Coordinator.gated config d.name alerts := by
    unfold Coordinator.gated severityGate
    rw [getEffectiveMinSeverity_withMinimum hmem, if_neg hne]
  rw [Coordinator.pollState_run, Coordinator.pollState_run, hgated]

/-- For every stored configuration, category, higher minimum and poll result: the contract
holds exactly when alerts that mix naive and aware times past the old gate mix them past
the new one too, or none is left. It is the clause on open counts that needs this; the
others hold in any case. -/
theorem severity_contract_iff (config : UniFiClientConfig) (c : Category)
    (minimum : MinimumSeverity) (hmem : minimum ∈ minSeverityOrder)
    (hhigher : minSeverityOrder.idxOf (getEffectiveMinSeverity config c.name) ≤
      minSeverityOrder.idxOf minimum)
    (categorised : Categorised) (hnodup : categorised.keys.Nodup) :
    SeverityContract config c minimum categorised ↔
      Coordinator.StaysMixed config (withMinimum config c.name minimum) c.name
        (categorised.alertsFor c) := by
  have hstricter := stricter_withMinimum hmem hhigher
  constructor
  · intro h
    by_contra hmixed
    obtain ⟨coord, hlt⟩ := Coordinator.applyPoll_openCount_lt hnodup hmixed
    exact absurd (h.openCount coord) (not_le.mpr hlt)
  · intro hmixed
    exact {
      total := fun raw category => ⟨_, meetsMinimum_eq_gate config category raw⟩
      unknown := fun alert category hunknown => by
        rw [hunknown]
        exact if_pos (Or.inr rfl)
      unrecognised := fun category hstored raw => by
        rw [getEffectiveMinSeverity_eq, minimumOf_unrecognised hstored]
        exact if_pos (Or.inl rfl)
      monotone := fun alert category hpass => by
        rw [meetsMinimum_iff] at hpass ⊢
        exact hstricter.gate category alert.severity hpass
      openCount := Coordinator.applyPoll_openCount_le hstricter
        (fun d hdc => pollState_withMinimum hmem hdc) hnodup hmixed
      returned := fun coord => Coordinator.applyPoll_returns hstricter hnodup
      alertCount := fun coord hstart ts hclock => hstricter.alertCount_le hstart hclock
      shared := fun coord mono d hen alerts => by
        rw [Coordinator.eligible_eq]
        rw [funext (Coordinator.passesPushGate_eq hen mono)] }

/-- A category whose stored minimum is a list gets HIGH instead; both alerts are aware. -/
theorem severity_contract_aware :
    let alert (severity : String) (t : Instant) : UniFiAlert :=
      { category := "power", message := "", receivedAt := .aware t, severity }
    SeverityContract { minSeverity := some (.obj [("power", .arr [])]) } .power .high
      [("power", [alert " Low" 3, alert "high" 8])] := by
  intro alert
  refine (severity_contract_iff _ .power .high (by decide) (by decide) _ (by decide)).mpr ?_
  exact Coordinator.AllAware.staysMixed (by unfold Coordinator.AllAware; decide) "power"

/-- The records of one legacy poll after a clear: the time of the first has no offset.
Without a minimum the comparison with the watermark raises and leaves nothing open;
with HIGH stored the first record is filtered and the second one counts. -/
theorem severity_contract_naive_record :
    let text := Text.counting fun s =>
      if s = "2024-01-15T10:30:00" then some (.naive 1705314600000000) else none
    let record (severity : String) (datetime : Json) : JsonObj :=
      [("key", .str "EVT_GW_WANTransition"), ("severity", .str severity), ("datetime", datetime)]
    let records := [record "low" (.str "2024-01-15T10:30:00"), record "high" (.int 1705314650000)]
    let coord := run (Coordinator.inputStep text {}) (.fresh {})
      [⟨⟨1705310000000000, 0⟩, .clearCategory "network_wan"⟩]
    ∃ categorised,
      (Input.convert text 1705314700000000 coord (.legacy records)).2 = some (.poll categorised) ∧
        ¬SeverityContract {} .networkWan .high categorised := by
  intro text record records coord
  refine ⟨_, rfl, fun h => ?_⟩
  exact absurd (h.openCount coord) (by decide +kernel)

end UnifiAlerts
