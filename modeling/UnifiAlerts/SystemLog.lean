import UnifiAlerts.Coordinator

/-!
# Fetching from a paginated system log

A controller that `Serves` a log answers each page request with its
slice of the events inside the requested window. The page loop asks
for pages of that window and for nothing else (`fetchPages_sends`), and
the grouping loop puts the alert of each event into its category
(`groupEvents_mem`).

`Serves` is about the answers to page requests and leaves every other
request open, so it goes together with a condition on the legacy paths
or on the probe. `Sends` is the frame beside it: whatever a page loop
does to the client is a number of page requests at the end of the log,
and it is closed under sequences of steps (`Sends.trans`).
-/

namespace UnifiAlerts

open Py Lib

/-! ## The controller's side -/

/-- The time of an event in epoch milliseconds, when it has one. -/
def eventMs (event : JsonObj) : Option Int :=
  match event.get "timestamp" with
  | .int ms => some ms
  | _ => none

def isNew (event : JsonObj) : Bool :=
  match event.get "status" with
  | .str "NEW" => true
  | _ => false

def inWindow (timestampFrom timestampTo : Int) (event : JsonObj) : Bool :=
  match eventMs event with
  | some ms => decide (timestampFrom ≤ ms ∧ ms ≤ timestampTo)
  | none => false

def pageOf (hits : List JsonObj) (pageNumber pageSize : Nat) : List JsonObj :=
  (hits.drop (pageNumber * pageSize)).take pageSize

def pageBody (hits : List JsonObj) (pageNumber pageSize : Nat) : Json :=
  .obj [("data", .arr ((pageOf hits pageNumber pageSize).map .obj)),
    ("total_page_count", .int ((hits.length + (pageSize - 1)) / pageSize : Nat))]

/-- The controller answers page requests from `log`. -/
def Serves (net : Net) (log : List JsonObj) : Prop :=
  ∀ n url timestampFrom timestampTo pageNumber pageSize,
    net.respond n (.page url timestampFrom timestampTo pageNumber pageSize) =
      .response (.mk 200 true (.value
        (pageBody (log.filter (inWindow timestampFrom timestampTo)) pageNumber pageSize)))

/-! ## The page loop -/

theorem isNew_iff {event : JsonObj} : isNew event = true ↔ event.get "status" = .str "NEW" := by
  unfold isNew
  split
  · rename_i h
    simp [h]
  · rename_i h
    simpa using h

theorem newEvents_objs (events : List JsonObj) :
    newEvents (events.map .obj) = .ok (events.filter isNew) := by
  induction events with
  | nil => rfl
  | cons e es ih =>
      simp only [List.map_cons, newEvents, Json.asDict, ih, bind, Except.bind, pure, Except.pure,
        List.filter_cons]
      split
      · rename_i h
        rw [if_pos (isNew_iff.mpr h)]
      · rename_i h
        rw [if_neg fun hn => h (isNew_iff.mp hn)]

theorem pageData_ok (hits : List JsonObj) (pageNumber pageSize : Nat) :
    (JsonObj.get [("data", Json.arr ((pageOf hits pageNumber pageSize).map .obj)),
        ("total_page_count", .int ((hits.length + (pageSize - 1)) / pageSize : Nat))] "data").or
      (.arr []) = .arr ((pageOf hits pageNumber pageSize).map .obj) := by
  simp only [JsonObj.get, JsonObj.getD, List.lookup_cons, Json.or, Json.truthy, Option.getD]
  cases pageOf hits pageNumber pageSize <;> rfl

theorem pageCount_ok (hits : List JsonObj) (pageNumber pageSize : Nat) :
    JsonObj.getD [("data", Json.arr ((pageOf hits pageNumber pageSize).map .obj)),
        ("total_page_count", .int ((hits.length + (pageSize - 1)) / pageSize : Nat))]
      "total_page_count" (.int 1) = .int ((hits.length + (pageSize - 1)) / pageSize : Nat) := rfl

/-! ## What is sent -/

/-- Every request sent on the way from `s` to `s'` satisfies `P`. -/
def Sends (P : Request → Prop) (s s' : ClientState) : Prop :=
  ∃ sent, s'.requests = s.requests ++ sent ∧ ∀ r ∈ sent, P r

namespace Sends

variable {P : Request → Prop}

theorem refl (s : ClientState) : Sends P s s := ⟨[], by simp, by simp⟩

theorem trans {s s' s'' : ClientState} (h : Sends P s s') (h' : Sends P s' s'') :
    Sends P s s'' := by
  obtain ⟨sent, heq, hP⟩ := h
  obtain ⟨sent', heq', hP'⟩ := h'
  refine ⟨sent ++ sent', by rw [heq', heq, List.append_assoc], fun r hr => ?_⟩
  rcases List.mem_append.mp hr with hr | hr
  · exact hP r hr
  · exact hP' r hr

theorem send (net : Net) {r : Request} (h : P r) : Comp.Within (Sends P) (send net r) :=
  fun _ => ⟨[r], rfl, by simpa using h⟩

end Sends

/-- What each page request and the cap warning keep, the page loop keeps. -/
theorem fetchPages_within {R : ClientState → ClientState → Prop} (hrefl : ∀ s, R s s)
    (htrans : ∀ s s' s'', R s s' → R s' s'' → R s s'') {net : Net} {url : String}
    {timestampFrom timestampTo : Int}
    (hsend : ∀ n, Comp.Within R
      (send net (.page url timestampFrom timestampTo n systemLogPageSize)))
    (hwarn : ∀ s, R s { s with pageCapWarnings := s.pageCapWarnings + 1 }) :
    ∀ (fuel pageNumber : Nat) (results : List JsonObj),
      Comp.Within R (fetchPages net url timestampFrom timestampTo fuel pageNumber results)
  | 0, _, _ => .bind htrans (.update hwarn) fun _ => .pure hrefl _
  | fuel + 1, pageNumber, results => by
      refine .bind htrans (hsend pageNumber) fun result => ?_
      refine .bind htrans (.lift hrefl _) fun body => .bind htrans (.lift hrefl _) fun data => ?_
      refine .bind htrans (.lift hrefl _) fun items => .bind htrans (.lift hrefl _) fun events => ?_
      refine .bind htrans (.lift hrefl _) fun last => ?_
      split
      · exact .pure hrefl _
      · split
        · exact .pure hrefl _
        · exact fetchPages_within hrefl htrans hsend hwarn fuel (pageNumber + 1) _

/-- The page loop requests pages of the one window only. -/
theorem fetchPages_sends (net : Net) (url : String) (timestampFrom timestampTo : Int)
    (fuel pageNumber : Nat) (results : List JsonObj) :
    Comp.Within (Sends fun r => ∃ n, r = .page url timestampFrom timestampTo n systemLogPageSize)
      (fetchPages net url timestampFrom timestampTo fuel pageNumber results) :=
  fetchPages_within Sends.refl (fun _ _ _ => Sends.trans) (fun n => Sends.send net ⟨n, rfl⟩)
    (fun s => ⟨[], by simp, by simp⟩) fuel pageNumber results

/-! ## Grouping -/

/-- The category of name `k` has the alert in the grouped data. -/
def Has (categorised : Categorised) (k : String) (a : UniFiAlert) : Prop :=
  ∃ alerts, (k, alerts) ∈ categorised ∧ a ∈ alerts

theorem has_append_self (k : String) (a : UniFiAlert) :
    ∀ categorised : Categorised, Has (categorised.append k a) k a
  | [] => ⟨[a], by simp [Categorised.append], by simp⟩
  | (k', alerts) :: rest => by
      unfold Categorised.append
      split
      · rename_i hk
        exact ⟨alerts ++ [a], by simp [hk], by simp⟩
      · obtain ⟨as, hin, ha⟩ := has_append_self k a rest
        exact ⟨as, List.mem_cons_of_mem _ hin, ha⟩

theorem Has.append {k : String} {a : UniFiAlert} (k₁ : String) (a₁ : UniFiAlert) :
    ∀ {categorised : Categorised}, Has categorised k a → Has (categorised.append k₁ a₁) k a
  | (k', alerts) :: rest, ⟨as, hin, ha⟩ => by
      unfold Categorised.append
      split
      · rcases List.mem_cons.mp hin with heq | hin
        · obtain ⟨rfl, rfl⟩ := Prod.mk.injEq .. |>.mp heq
          exact ⟨as ++ [a₁], by simp, by simp [ha]⟩
        · exact ⟨as, List.mem_cons_of_mem _ hin, ha⟩
      · rcases List.mem_cons.mp hin with heq | hin
        · exact ⟨as, by rw [heq]; simp, ha⟩
        · obtain ⟨as', hin', ha'⟩ := Has.append k₁ a₁ ⟨as, hin, ha⟩
          exact ⟨as', List.mem_cons_of_mem _ hin', ha'⟩

/-- The alert of a v2 event, whatever keys were warned about before. -/
def eventAlert (text : Text) (now : Instant) (event : JsonObj) : Except Exc UniFiAlert :=
  (UniFiAlert.fromSystemLogEvent text now event []).map Prod.fst

theorem eventAlert_eq (text : Text) (now : Instant) (event : JsonObj) (seen : List String) :
    (UniFiAlert.fromSystemLogEvent text now event seen).map Prod.fst =
      eventAlert text now event := by
  show Prod.fst <$> UniFiAlert.fromSystemLogEvent text now event seen =
    Prod.fst <$> UniFiAlert.fromSystemLogEvent text now event []
  unfold UniFiAlert.fromSystemLogEvent
  simp only [map_bind, map_pure]
  refine bind_congr fun message => bind_congr fun keyCategory => bind_congr fun enumCategory => ?_
  cases keyCategory <;> cases enumCategory <;> rfl

/-- When the grouping succeeds, every event's alert is in its category. -/
theorem groupEvents_mem (net : Net) : ∀ (events : List JsonObj) (categorised : Categorised)
    (coord : Coordinator),
    Comp.wp (Coordinator.groupEvents net events categorised)
      (fun result _ => (∀ k a, Has categorised k a → Has result k a) ∧
        ∀ event ∈ events, ∀ a, eventAlert net.text net.now event = .ok a → a.category ≠ "" →
          Has result a.category a)
      (fun _ _ => True) coord
  | [], _, _ => ⟨fun _ _ h => h, by simp⟩
  | event :: events, categorised, coord => by
      unfold Coordinator.groupEvents
      rw [Comp.wp_bind, Comp.wp_gets, Comp.wp_bind, Comp.wp_lift]
      refine ⟨fun r hr => ?_, fun _ _ => trivial⟩
      obtain ⟨alert, seen'⟩ := r
      have halert : eventAlert net.text net.now event = .ok alert := by
        rw [← eventAlert_eq net.text net.now event coord.seenUnknownKeys]
        cases hx : UniFiAlert.fromSystemLogEvent net.text net.now event coord.seenUnknownKeys with
        | error e => rw [hx] at hr; cases hr
        | ok x =>
            rw [hx] at hr
            obtain rfl := Except.ok.inj hr
            rfl
      have ih := groupEvents_mem net events
      -- the rest of the loop keeps what is there and adds the later events
      have hskip : alert.category = "" → ∀ categorised coord,
          Comp.wp (Coordinator.groupEvents net events categorised)
            (fun result _ => (∀ k a, Has categorised k a → Has result k a) ∧
              ∀ e ∈ event :: events, ∀ a, eventAlert net.text net.now e = .ok a →
                a.category ≠ "" → Has result a.category a) (fun _ _ => True) coord := by
        intro hcat categorised coord
        refine Comp.wp_mono (ih categorised coord)
          (fun result _ h => ⟨h.1, ?_⟩) fun _ _ _ => trivial
        intro e he a ha hne
        rcases List.mem_cons.mp he with rfl | he
        · rw [halert] at ha
          obtain rfl := Except.ok.inj ha
          exact absurd hcat hne
        · exact h.2 e he a ha hne
      rw [Comp.wp_bind, Comp.wp_update]
      dsimp only
      split
      · rename_i hcat
        have hcat' : alert.category = "" := by simpa using hcat
        split
        · split
          · rw [Comp.wp_bind, Comp.wp_update]
            exact hskip hcat' _ _
          · exact hskip hcat' _ _
        · exact hskip hcat' _ _
      · refine Comp.wp_mono (ih _ _) (fun result _ h => ?_) fun _ _ _ => trivial
        refine ⟨fun k a hk => h.1 k a (hk.append _ _), fun e he a ha hne => ?_⟩
        rcases List.mem_cons.mp he with rfl | he
        · rw [halert] at ha
          obtain rfl := Except.ok.inj ha
          exact h.1 _ _ (has_append_self _ _ _)
        · exact h.2 e he a ha hne

end UnifiAlerts
