import UnifiAlerts.Reachability
import UnifiAlerts.Shift
import UnifiAlerts.Sightings

/-!
# Fetching from two controllers on shifted clocks

`RecordShifted` and `EventShifted` relate what the two controllers send:
equal but for the timestamps, and those `delta` apart wherever both can
be read. A record whose timestamp cannot be read is dated by the clock
of the host instead, in both runs, so the alerts built from it need not
be `delta` apart; the lemmas ask for `Dated` records where it matters.

`source` says where a poll takes its data from. On the legacy path the
two fetches group the records entry by entry (`categoriseLoop_alike`),
on the v2 path a fetch groups the events that its window asked for
(`fetchV2_result`).

The two logs are related event by event (`LogShifted`), but what is
fetched of them need not be: the windows of both requests are cut by the
clock of the host. `WindowsAlike` is the condition that no event which
could still count is in one window only. It is asked of unsettled events
only, those that could still count in their category: any other
contributes nothing to what a poll finds open (`unsettled_fetched`).
-/

namespace UnifiAlerts

open Py Lib List

variable {config : UniFiClientConfig} {delta : Int}

/-! ## Timestamps -/

/-- Where both times could be read, the second is `delta` after the first. -/
def StampShifted (delta : Int) (d d' : Option DateTime) : Prop :=
  ∀ t t', d = some t → d' = some t' → t' = t.add delta

/-- The two objects agree on every field but `ks`. -/
def SameBut (ks : List String) (o o' : JsonObj) : Prop := ∀ k, k ∉ ks → o'.lookup k = o.lookup k

theorem SameBut.getD {ks : List String} {o o' : JsonObj} (h : SameBut ks o o') {k : String}
    (hk : k ∉ ks) (default : Json) : o'.getD k default = o.getD k default := by
  unfold JsonObj.getD
  rw [h k hk]

/-- One legacy record as the two controllers send it. -/
structure RecordShifted (text : Text) (delta : Int) (record record' : JsonObj) : Prop where
  fields : SameBut ["datetime", "timestamp"] record record'
  stamps : Paired (StampShifted delta) (readStamp text (recordStamp record))
    (readStamp text (recordStamp record'))

/-- One v2 event as the two controllers send it. -/
structure EventShifted (delta : Int) (event event' : JsonObj) : Prop where
  fields : SameBut ["timestamp"] event event'
  stamps : StampShifted delta (readEventStamp (event.get "timestamp"))
    (readEventStamp (event'.get "timestamp"))

/-! ## The alert of one record -/

/-- Equal severities, and `delta` apart if both records are dated. -/
def BuiltAlike (delta : Int) (dated : Prop) (a a' : UniFiAlert) : Prop :=
  a'.category = a.category ∧ a'.severity = a.severity ∧ (dated → Later delta a a')

theorem fromApiAlarm_shifted {text : Text} {record record' : JsonObj}
    (h : RecordShifted text delta record record') (now : Instant) (cat : String) :
    Paired (BuiltAlike delta (Dated text record ∧ Dated text record'))
      (UniFiAlert.fromApiAlarm text now cat record)
      (UniFiAlert.fromApiAlarm text now cat record') := by
  have hreceived : Paired (fun d d' => Dated text record ∧ Dated text record' → d' = d.add delta)
      (UniFiAlert.apiReceivedAt text now (recordStamp record))
      (UniFiAlert.apiReceivedAt text now (recordStamp record')) := by
    rw [apiReceivedAt_eq, apiReceivedAt_eq]
    rcases h.stamps.cases with ⟨e, hd, hd'⟩ | ⟨d, d', hd, hd', hshift⟩
    · rw [hd, hd']
      exact rfl
    · rw [hd, hd']
      rintro ⟨⟨t, ht⟩, t', ht'⟩
      rw [hd] at ht
      rw [hd'] at ht'
      obtain rfl := Except.ok.inj ht
      obtain rfl := Except.ok.inj ht'
      exact hshift t t' rfl rfl
  simp only [recordStamp, JsonObj.get] at hreceived
  unfold UniFiAlert.fromApiAlarm
  simp (disch := decide) only [JsonObj.get, h.fields.getD]
  refine Paired.bind hreceived fun d d' hd => ?_
  exact ⟨rfl, rfl, hd⟩

theorem systemLogMessage_shifted {text : Text} {event event' : JsonObj}
    (h : EventShifted delta event event') :
    UniFiAlert.systemLogMessage text event' = UniFiAlert.systemLogMessage text event := by
  unfold UniFiAlert.systemLogMessage
  simp (disch := decide) only [JsonObj.get, h.fields.getD]

theorem eventAlert_shifted {text : Text} {event event' : JsonObj}
    (h : EventShifted delta event event') (now : Instant) :
    Paired (BuiltAlike delta (EventDated event ∧ EventDated event')) (eventAlert text now event)
      (eventAlert text now event') := by
  have hreceived : EventDated event ∧ EventDated event' →
      UniFiAlert.systemLogReceivedAt now (event'.get "timestamp") =
        (UniFiAlert.systemLogReceivedAt now (event.get "timestamp")).add delta := by
    rintro ⟨⟨t, ht⟩, t', ht'⟩
    rw [systemLogReceivedAt_eq, systemLogReceivedAt_eq, ht, ht']
    exact h.stamps t t' ht ht'
  unfold eventAlert
  refine Paired.map (Q := fun x x' => BuiltAlike delta (EventDated event ∧ EventDated event')
    x.1 x'.1) ?_ fun x x' hx => hx
  unfold UniFiAlert.fromSystemLogEvent
  rw [systemLogMessage_shifted h]
  simp only [JsonObj.get] at hreceived ⊢
  simp (disch := decide) only [h.fields.getD]
  refine Paired.bind (Paired.rfl_eq _) fun message _ hm => ?_
  subst hm
  refine Paired.bind (Paired.rfl_eq _) fun keyCategory _ hk => ?_
  subst hk
  refine Paired.bind (Paired.rfl_eq _) fun enumCategory _ he => ?_
  subst he
  cases keyCategory <;> cases enumCategory <;> exact ⟨rfl, rfl, hreceived⟩

theorem isNew_shifted {event event' : JsonObj} (h : EventShifted delta event event') :
    isNew event' = isNew event := by
  have hstatus : event'.get "status" = event.get "status" := h.fields.getD (by decide) _
  rw [Bool.eq_iff_iff, isNew_iff, isNew_iff, hstatus]

/-! ## The legacy grouping -/

/-- A record that its poll counts or tracks: of an enabled category, past the gate. -/
def EligibleRecord (config : UniFiClientConfig) (text : Text) (now : Instant)
    (record : JsonObj) : Prop :=
  ∃ c alert, classifyEventKey (record.getD "key" (.str "")) (.str "") = .ok (some c) ∧
    config.enabled c = true ∧ UniFiAlert.fromApiAlarm text now c.name record = .ok alert ∧
    severityGate config c.name alert.severity = true

theorem append_alike {k : String} {a a' : UniFiAlert}
    (ha : ∀ c : Category, k = c.name → config.enabled c = true →
      AlertAlike config delta c.name a a') {categorised categorised' : Categorised}
    (h : Forall₂ (EntryAlike config delta) categorised categorised') :
    Forall₂ (EntryAlike config delta) (categorised.append k a) (categorised'.append k a') := by
  induction h with
  | nil => exact .cons ⟨rfl, fun c hc hen => .cons (ha c hc hen) .nil⟩ .nil
  | @cons entry entry' rest rest' hentry hrest ih =>
      obtain ⟨k₀, as⟩ := entry
      obtain ⟨k₀', as'⟩ := entry'
      obtain ⟨rfl, halerts⟩ := hentry
      unfold Categorised.append
      dsimp only at halerts ⊢
      split
      · rename_i hk
        subst hk
        exact .cons ⟨rfl, fun c hc hen =>
          rel_append (halerts c hc hen) (.cons (ha c hc hen) .nil)⟩ hrest
      · exact .cons ⟨rfl, halerts⟩ ih

theorem categoriseLoop_alike {net : Net} {respond : Nat → Request → HttpResult} :
    ∀ {records records' : List JsonObj},
      Forall₂ (fun record record' => RecordShifted net.text delta record record' ∧
        (EligibleRecord config net.text net.now record →
          Dated net.text record ∧ Dated net.text record')) records records' →
      ∀ {categorised categorised' : Categorised} (s s' : ClientState),
        Forall₂ (EntryAlike config delta) categorised categorised' →
        Paired (Forall₂ (EntryAlike config delta)) (categoriseLoop net records categorised s).1
          (categoriseLoop { net with respond } records' categorised' s').1
  | [], [], _, _, _, _, _, h => h
  | record :: records, record' :: records', hrecords, categorised, categorised', s, s', h => by
      obtain ⟨⟨hrecord, hdated⟩, hrest⟩ := forall₂_cons.mp hrecords
      have ih := fun {d d'} s s' => @categoriseLoop_alike net respond records records'
        hrest d d' s s'
      unfold categoriseLoop
      dsimp only
      rw [hrecord.fields.getD (k := "key") (by decide)]
      cases hclass : classifyEventKey (record.getD "key" (.str "")) (.str "") with
      | error e => exact rfl
      | ok category =>
          simp only [ofPy, Except.mapError, Comp.lift_ok_bind]
          cases category with
          | none =>
              dsimp only
              cases record.getD "key" (.str "") with
              | str k =>
                  dsimp only
                  split
                  · rw [Comp.update_bind, Comp.update_bind]
                    exact ih _ _ h
                  · exact ih _ _ h
              | _ => exact ih _ _ h
          | some c =>
              dsimp only
              have hbuilt := fromApiAlarm_shifted hrecord net.now c.name
              rcases hbuilt.cases with ⟨e, ha, ha'⟩ | ⟨a, a', ha, ha', -, hsev, hlater⟩
              · rw [ha, ha']
                exact rfl
              · rw [ha, ha']
                simp only [Comp.lift_ok_bind]
                refine ih _ _ (append_alike (fun d hd hen => ⟨hsev, fun hgate => ?_⟩) h)
                obtain rfl := Category.name_injective hd
                exact hlater (hdated ⟨c, a, hclass, hen, ha, hgate⟩)

/-! ## Where a poll takes its data from -/

inductive Source
  | failed
  | alarms (records : List JsonObj)
  | systemLog

namespace Coordinator

/-- The probe of a poll; an error of the two domain kinds counts as no v2. -/
def probed (net : Net) (site : String) : CoordM Bool :=
  Comp.handle (probeHasSystemLog net site) fun e =>
    match e with
    | .cannotConnect _ _ => some (pure false)
    | .invalidAuth _ => some (pure false)
    | _ => none

/-- The data `_fetch_categorised` goes on with: the legacy records, or the v2
system log when the probe or the missing legacy paths send it there. -/
def source (net : Net) (site : String) (coord : Coordinator) : Source :=
  match probed net site coord with
  | (.error _, _) => .failed
  | (.ok hasV2, coord) =>
    if !hasV2 && !coord.client.legacyConfirmedUnavailable site then
      match (fetchAlarms net site coord.client).1 with
      | .ok records => .alarms records
      | .error (.cannotConnect .alarmEndpointUnavailable _) => .systemLog
      | .error _ => .failed
    else .systemLog

theorem probed_states (net : Net) (site : String) (coord : Coordinator) :
    (probed net site coord).2.states = coord.states := by
  have hkeeps : Comp.Keeps pushState (probed net site) :=
    probeOrFalse_within (R := fun s s' => pushState s' = pushState s) (fun _ => rfl)
      (fun _ _ _ h h' => h'.trans h)
      (probeHasSystemLog_keeps (fun _ _ => rfl) (fun _ _ _ _ => rfl) net site)
  exact congrArg Prod.fst (hkeeps coord)

theorem fetchCategorised_probed {net : Net} {site : String} {coord coord' : Coordinator}
    {hasV2 : Bool} (h : probed net site coord = (.ok hasV2, coord')) :
    fetchCategorised net site coord =
      (if !hasV2 && !coord'.client.legacyConfirmedUnavailable site then do
        match ← fetchLegacy net site with
        | some result =>
          Comp.update fun s => { s with
            unrecognisedKeys := fun k => s.unrecognisedKeys k + s.client.unrecognisedKeys k }
          pure result
        | none => fetchV2 net site
      else fetchV2 net site) coord' :=
  Comp.bind_run h

/-- The legacy records are grouped. -/
theorem fetchCategorised_alarms {net : Net} {site : String} {coord : Coordinator}
    {records : List JsonObj} (h : source net site coord = .alarms records) :
    ∃ s, (fetchCategorised net site coord).1 = (categoriseLoop net records [] s).1 := by
  unfold source at h
  rcases hprobe : probed net site coord with ⟨r, coord'⟩
  rw [hprobe] at h
  cases r with
  | error e => cases h
  | ok hasV2 =>
      dsimp only at h
      rw [fetchCategorised_probed hprobe]
      split at h
      · rename_i hlegacy
        rw [if_pos hlegacy]
        rcases hfetch : fetchAlarms net site coord'.client with ⟨result, s⟩
        rw [hfetch] at h
        cases result with
        | ok raw =>
            obtain rfl := Source.alarms.inj h
            refine ⟨{ s with unrecognisedKeys := fun _ => 0 }, ?_⟩
            have hrun := fetchLegacy_run hfetch
            dsimp only at hrun
            cases hloop : (categoriseLoop net raw []
              { s with unrecognisedKeys := fun _ => 0 }).1 with
            | ok d =>
                rw [hloop] at hrun
                rw [Comp.bind_run hrun]
                rfl
            | error e =>
                rw [hloop] at hrun
                rw [Comp.bind_error hrun]
        | error e =>
            dsimp only at h
            split at h
            · rename_i heq
              cases heq
            · cases h
            · cases h
      · cases h

/-- The v2 fetch starts from the same category states. -/
theorem fetchCategorised_systemLog {net : Net} {site : String} {coord : Coordinator}
    (h : source net site coord = .systemLog) :
    ∃ coord', coord'.states = coord.states ∧
      (fetchCategorised net site coord).1 = (fetchV2 net site coord').1 := by
  unfold source at h
  have hstates := probed_states net site coord
  rcases hprobe : probed net site coord with ⟨r, coord'⟩
  rw [hprobe] at h hstates
  cases r with
  | error e => cases h
  | ok hasV2 =>
      dsimp only at h hstates
      rw [fetchCategorised_probed hprobe]
      split at h
      · rename_i hlegacy
        rw [if_pos hlegacy]
        rcases hfetch : fetchAlarms net site coord'.client with ⟨result, s⟩
        rw [hfetch] at h
        cases result with
        | ok raw => cases h
        | error e =>
            dsimp only at h
            split at h
            · cases h
            · rename_i msg heq
              obtain rfl := Except.error.inj heq
              refine ⟨{ coord' with client := s }, hstates, ?_⟩
              rw [Comp.bind_run (fetchLegacy_unavailable hfetch)]
            · cases h
      · rename_i hv2
        rw [if_neg hv2]
        exact ⟨coord', hstates, rfl⟩

/-! ## The v2 events of a poll -/

/-- The event lies in the window that a v2 fetch of this poll asks for. -/
def requested (net : Net) (coord : Coordinator) (event : JsonObj) : Bool :=
  match fetchSince coord.states net.now with
  | .ok since => inWindow (epochMs (windowStart net.now since)) (epochMs net.now) event
  | .error _ => false

/-- The fetch asks for the event, and keeps it for being NEW. -/
def fetched (net : Net) (coord : Coordinator) (event : JsonObj) : Bool :=
  requested net coord event && isNew event

theorem requested_congr {coord coord' : Coordinator} (h : coord'.states = coord.states)
    (net : Net) : requested net coord' = requested net coord := by
  unfold requested
  rw [h]

/-- A v2 fetch groups the alerts of the events it fetched. -/
theorem fetchV2_result {net : Net} {site : String} {coord : Coordinator} {log : List JsonObj}
    (hmarks : AwareMarks coord) (hserves : Serves net log)
    (hfits : (log.filter (requested net coord)).length ≤ maxSystemLogPages * systemLogPageSize) :
    (fetchV2 net site coord).1 =
      ofPy ((eventAlerts net.text net.now (log.filter (fetched net coord))).map
        (Categorised.grouped · [])) := by
  obtain ⟨since, hsince⟩ : ∃ since, fetchSince coord.states net.now = .ok since := by
    rcases fetchSince_cases hmarks net.now with ⟨-, h⟩ | ⟨m, -, -, h⟩ <;> exact ⟨_, h⟩
  have hrequested : log.filter (requested net coord) = windowHits log net.now since := by
    unfold requested windowHits
    rw [hsince]
  obtain ⟨client, hrun⟩ := @fetchV2_serves net site coord log since hserves hsince
    (by rw [← hrequested]; exact hfits)
  have hfetched : log.filter (fetched net coord) =
      (windowHits log net.now since).filter isNew := by
    rw [← hrequested, List.filter_filter]
    exact List.filter_congr fun event _ => Bool.and_comm _ _
  rw [hrun, groupEvents_result, hfetched]

theorem fetchV2_congr {net : Net} {site : String} {coord coord' : Coordinator}
    {log : List JsonObj} (h : coord'.states = coord.states) (hmarks : AwareMarks coord)
    (hserves : Serves net log)
    (hfits : (log.filter (requested net coord)).length ≤ maxSystemLogPages * systemLogPageSize) :
    (fetchV2 net site coord').1 = (fetchV2 net site coord).1 := by
  have hmarks' : AwareMarks coord' := fun c => by
    rw [h]
    exact hmarks c
  have hfetched : fetched net coord' = fetched net coord := by
    unfold fetched
    rw [requested_congr h]
  rw [fetchV2_result hmarks hserves hfits,
    fetchV2_result hmarks' hserves (by rw [requested_congr h]; exact hfits), hfetched]

theorem eventAlert_aware {text : Text} {now : Instant} {event : JsonObj} {a : UniFiAlert}
    (h : eventAlert text now event = .ok a) : a.receivedAt.isAware = true := by
  unfold eventAlert at h
  cases hbuilt : UniFiAlert.fromSystemLogEvent text now event [] with
  | error e =>
      rw [hbuilt] at h
      cases h
  | ok built =>
      rw [hbuilt] at h
      obtain rfl := Except.ok.inj h
      exact fromSystemLogEvent_aware hbuilt

/-- The alerts of the fetched events, as far as they can be built. -/
def fetchedAlerts (net : Net) (coord : Coordinator) (log : List JsonObj) : List UniFiAlert :=
  (log.filter (fetched net coord)).filterMap fun event =>
    (eventAlert net.text net.now event).toOption

theorem fetchedAlerts_aware (net : Net) (coord : Coordinator) (log : List JsonObj) :
    AllAware (fetchedAlerts net coord log) := by
  intro a ha
  obtain ⟨event, -, hevent⟩ := List.mem_filterMap.mp ha
  cases hbuilt : eventAlert net.text net.now event with
  | error e =>
      rw [hbuilt] at hevent
      cases hevent
  | ok b =>
      rw [hbuilt] at hevent
      obtain rfl := Option.some.inj hevent
      exact eventAlert_aware hbuilt

/-- The fetch raises when one of its events has no alert, and groups them all otherwise. -/
theorem fetchV2_cases {net : Net} {site : String} {coord : Coordinator} {log : List JsonObj}
    (hmarks : AwareMarks coord) (hserves : Serves net log)
    (hfits : (log.filter (requested net coord)).length ≤ maxSystemLogPages * systemLogPageSize) :
    ((∃ event ∈ log, fetched net coord event = true ∧
        ∃ e, eventAlert net.text net.now event = .error e) ∧
      ∃ e, (fetchV2 net site coord).1 = .error e) ∨
    (∀ event ∈ log, fetched net coord event = true →
        ∃ a, eventAlert net.text net.now event = .ok a) ∧
      (fetchV2 net site coord).1 = .ok (Categorised.grouped (fetchedAlerts net coord log) []) := by
  rw [fetchV2_result hmarks hserves hfits]
  by_cases hall : ∀ event ∈ log, fetched net coord event = true →
      ∃ a, eventAlert net.text net.now event = .ok a
  · refine Or.inr ⟨hall, ?_⟩
    rw [eventAlerts_ok fun event hevent =>
      hall event (List.mem_filter.mp hevent).1 (List.mem_filter.mp hevent).2]
    rfl
  · simp only [not_forall] at hall
    obtain ⟨event, hmem, hfetched, hno⟩ := hall
    cases hbuilt : eventAlert net.text net.now event with
    | ok a => exact absurd ⟨a, hbuilt⟩ hno
    | error e =>
        obtain ⟨e', he'⟩ := eventAlerts_error
          ⟨event, List.mem_filter.mpr ⟨hmem, hfetched⟩, e, hbuilt⟩
        rw [he']
        exact Or.inl ⟨⟨event, hmem, hfetched, e, hbuilt⟩, _, rfl⟩

/-- A v2 event of an enabled category, past the gate. -/
def EligibleEvent (config : UniFiClientConfig) (net : Net) (event : JsonObj) : Prop :=
  ∃ (c : Category) (alert : UniFiAlert), eventAlert net.text net.now event = .ok alert ∧
    alert.category = c.name ∧ config.enabled c = true ∧
    severityGate config c.name alert.severity = true

/-- The poll's outcome depends on the event: its alert cannot be built, or is of
an enabled category, past the gate and newer than the watermark. -/
def Unsettled (config : UniFiClientConfig) (net : Net) (coord : Coordinator) (event : JsonObj) :
    Prop :=
  ∀ alert, eventAlert net.text net.now event = .ok alert → ∃ c : Category,
    alert.category = c.name ∧ config.enabled c = true ∧
    severityGate config c.name alert.severity = true ∧
    newer (coord.states c).lastClearedAt alert = true

/-- What the two runs' windows do with one event of the log: an eligible one that
either asks for is dated, and an unsettled one is asked for by both or by neither. -/
structure WindowsAlike (config : UniFiClientConfig) (net net' : Net) (coord coord' : Coordinator)
    (event event' : JsonObj) : Prop where
  dated : requested net coord event = true ∨ requested net' coord' event' = true →
    EligibleEvent config net event → EventDated event ∧ EventDated event'
  window : Unsettled config net coord event →
    requested net' coord' event' = requested net coord event

/-- The alert that the event adds to the unsettled ones of `c`. -/
def contribution (config : UniFiClientConfig) (net : Net) (coord : Coordinator) (c : Category)
    (event : JsonObj) : Option UniFiAlert :=
  if fetched net coord event then
    (eventAlert net.text net.now event).toOption.filter fun a => a.category == c.name &&
      (severityGate config c.name a.severity && newer (coord.states c).lastClearedAt a)
  else none

theorem unsettled_fetched (config : UniFiClientConfig) (net : Net) (coord : Coordinator)
    (c : Category) (log : List JsonObj) :
    unsettled config (coord.states c).lastClearedAt c (fetchedAlerts net coord log) =
      log.filterMap (contribution config net coord c) := by
  rw [unsettled, fetchedAlerts, List.filter_filterMap, List.filterMap_filter]
  rfl

theorem newer_alike {a a' : UniFiAlert} (h : Later delta a a') (watermark : Option DateTime) :
    newer (watermark.map (·.add delta)) a' = newer watermark a := by
  cases watermark with
  | none => rfl
  | some w =>
      rw [Bool.eq_iff_iff, Option.map_some, newer_some, newer_some, h]
      simp

theorem contribution_alike {net net' : Net} {coord coord' : Coordinator} {event event' : JsonObj}
    (htext : net'.text = net.text) (hnow : net'.now = net.now)
    (hcoord : Alike config delta coord coord') (hevent : EventShifted delta event event')
    (hwindows : isNew event = true → WindowsAlike config net net' coord coord' event event')
    {c : Category} (hen : config.enabled c = true) :
    Option.Rel (AlertAlike config delta c.name) (contribution config net coord c event)
      (contribution config net' coord' c event') := by
  have hbuilt := @eventAlert_shifted delta net.text _ _ hevent net.now
  unfold contribution fetched
  rw [isNew_shifted hevent, htext, hnow, (hcoord.state c).lastClearedAt]
  cases hnew : isNew event with
  | false => simp
  | true =>
      have hw := hwindows hnew
      simp only [Bool.and_true]
      rcases hbuilt.cases with ⟨e, ha, ha'⟩ | ⟨a, a', ha, ha', hcat, hsev, hlater⟩
      · rw [ha, ha']
        simp [Except.toOption]
      · rw [ha, ha']
        simp only [Except.toOption, Option.filter_some, hcat, hsev]
        by_cases heligible : a.category = c.name ∧ severityGate config c.name a.severity = true
        · obtain ⟨hname, hgate⟩ := heligible
          simp only [hname, hgate, beq_self_eq_true, Bool.true_and]
          by_cases hask : requested net coord event = true ∨ requested net' coord' event' = true
          · -- dated, so the watermark comparison ends alike
            have hl := hlater (hw.dated hask ⟨c, a, ha, hname, hen, hgate⟩)
            rw [newer_alike hl]
            cases hnewer : newer (coord.states c).lastClearedAt a with
            | false => simp
            | true =>
                have hwindow := hw.window fun alert halert => by
                  obtain rfl := Except.ok.inj (halert.symm.trans ha)
                  exact ⟨c, hname, hen, hgate, hnewer⟩
                rw [hwindow]
                split
                · exact .some ⟨hsev, fun _ => hl⟩
                · exact .none
          · obtain ⟨hno, hno'⟩ := not_or.mp hask
            rw [if_neg hno, if_neg hno']
            exact .none
        · -- not eligible, in either run
          have hout : ∀ newer : Bool, (a.category == c.name &&
              (severityGate config c.name a.severity && newer)) = false := by
            intro newer
            rw [Bool.eq_false_iff]
            intro h
            simp only [Bool.and_eq_true, beq_iff_eq] at h
            exact heligible ⟨h.1, h.2.1⟩
          simp [hout]

/-! ## The v2 data of a poll -/

/-- The system logs of the two controllers, entry by entry; each server answers from
its own one, and what is asked for fits the page cap. -/
structure LogShifted (delta : Int) (net net' : Net) (coord coord' : Coordinator)
    (log : List (JsonObj × JsonObj)) : Prop where
  events : ∀ entry ∈ log, EventShifted delta entry.1 entry.2
  serves : Serves net (log.map Prod.fst)
  serves' : Serves net' (log.map Prod.snd)
  fits : ((log.map Prod.fst).filter (requested net coord)).length ≤
    maxSystemLogPages * systemLogPageSize
  fits' : ((log.map Prod.snd).filter (requested net' coord')).length ≤
    maxSystemLogPages * systemLogPageSize

/-- The two polls go on with these alerts: aware, and alike in what is unsettled. -/
structure AlertsAlike (config : UniFiClientConfig) (delta : Int) (coord coord' : Coordinator)
    (alerts alerts' : List UniFiAlert) : Prop where
  aware : AllAware alerts
  aware' : AllAware alerts'
  unsettled : ∀ c, config.enabled c = true →
    Forall₂ (AlertAlike config delta c.name)
      (unsettled config (coord.states c).lastClearedAt c alerts)
      (unsettled config (coord'.states c).lastClearedAt c alerts')

theorem AlertsAlike.congr {coord coord' coord₁ coord₁' : Coordinator}
    {alerts alerts' : List UniFiAlert} (h : AlertsAlike config delta coord coord' alerts alerts')
    (heq : coord₁.states = coord.states) (heq' : coord₁'.states = coord'.states) :
    AlertsAlike config delta coord₁ coord₁' alerts alerts' :=
  ⟨h.aware, h.aware', fun c hen => by rw [heq, heq']; exact h.unsettled c hen⟩

/-- A poll of such alerts keeps the coordinators alike. -/
theorem AlertsAlike.apply {coord coord' : Coordinator} {alerts alerts' : List UniFiAlert}
    (h : AlertsAlike config delta coord coord' alerts alerts')
    (hcoord : Alike config delta coord coord') (hanchored : ∀ c, (coord.states c).Anchored)
    (hanchored' : ∀ c, (coord'.states c).Anchored) :
    Alike config delta (applyPoll config (Categorised.grouped alerts []) coord).coord
      (applyPoll config (Categorised.grouped alerts' []) coord').coord := by
  refine ⟨fun c => ?_, fun c => ?_⟩
  · rw [applyPoll_grouped hanchored h.aware]
    split
    · rw [(pollState_frame config _ _ _).2.1]
      exact hcoord.enabled c
    · exact hcoord.enabled c
  · rw [applyPoll_grouped hanchored h.aware, applyPoll_grouped hanchored' h.aware',
      (hcoord.state c).enabled]
    split
    · rename_i hen
      rw [hcoord.enabled] at hen
      exact ((hcoord.state c).poll (h.unsettled c hen)).1
    · exact hcoord.state c

/-- The v2 fetches of the two runs raise both, or both group alerts alike. -/
theorem fetchV2_alike {net net' : Net} {site : String} {coord coord' : Coordinator}
    {log : List (JsonObj × JsonObj)} (htext : net'.text = net.text) (hnow : net'.now = net.now)
    (hcoord : Alike config delta coord coord') (hmarks : AwareMarks coord)
    (hmarks' : AwareMarks coord') (hlog : LogShifted delta net net' coord coord' log)
    (hwindows : ∀ entry ∈ log, isNew entry.1 = true →
      WindowsAlike config net net' coord coord' entry.1 entry.2) :
    (∃ e e', (fetchV2 net site coord).1 = .error e ∧ (fetchV2 net' site coord').1 = .error e') ∨
    ∃ alerts alerts', (fetchV2 net site coord).1 = .ok (Categorised.grouped alerts []) ∧
      (fetchV2 net' site coord').1 = .ok (Categorised.grouped alerts' []) ∧
      AlertsAlike config delta coord coord' alerts alerts' := by
  have hbuilt : ∀ entry ∈ log, Paired
      (BuiltAlike delta (EventDated entry.1 ∧ EventDated entry.2))
      (eventAlert net.text net.now entry.1) (eventAlert net'.text net'.now entry.2) := by
    intro entry hentry
    rw [htext, hnow]
    exact eventAlert_shifted (hlog.events entry hentry) net.now
  -- an event without an alert is asked for by both or by neither
  have hbad : ∀ entry ∈ log, (∃ e, eventAlert net.text net.now entry.1 = .error e) →
      fetched net' coord' entry.2 = fetched net coord entry.1 := by
    rintro entry hentry ⟨e, he⟩
    unfold fetched
    rw [isNew_shifted (hlog.events entry hentry)]
    cases hnew : isNew entry.1 with
    | false => simp
    | true =>
        rw [(hwindows entry hentry hnew).window
          fun alert halert => by rw [he] at halert; cases halert]
  rcases @fetchV2_cases net site coord _ hmarks hlog.serves hlog.fits with
    ⟨⟨event, hmem, hfetched, e, he⟩, herror⟩ | ⟨hall, hok⟩
  · obtain ⟨entry, hentry, rfl⟩ := List.mem_map.mp hmem
    rcases @fetchV2_cases net' site coord' _ hmarks' hlog.serves' hlog.fits' with
      ⟨-, herror'⟩ | ⟨hall', -⟩
    · obtain ⟨e₁, he₁⟩ := herror
      obtain ⟨e₂, he₂⟩ := herror'
      exact Or.inl ⟨e₁, e₂, he₁, he₂⟩
    · obtain ⟨a, ha⟩ := hall' entry.2 (List.mem_map.mpr ⟨entry, hentry, rfl⟩)
        ((hbad entry hentry ⟨e, he⟩).trans hfetched)
      rcases (hbuilt entry hentry).cases with ⟨e', -, he'⟩ | ⟨b, b', hb, -, -⟩
      · rw [he'] at ha
        cases ha
      · rw [he] at hb
        cases hb
  · rcases @fetchV2_cases net' site coord' _ hmarks' hlog.serves' hlog.fits' with
      ⟨⟨event, hmem, hfetched, e, he⟩, -⟩ | ⟨-, hok'⟩
    · obtain ⟨entry, hentry, rfl⟩ := List.mem_map.mp hmem
      rcases (hbuilt entry hentry).cases with ⟨e', he₁, -⟩ | ⟨b, b', -, hb', -⟩
      · obtain ⟨a, ha⟩ := hall entry.1 (List.mem_map.mpr ⟨entry, hentry, rfl⟩)
          ((hbad entry hentry ⟨e', he₁⟩).symm.trans hfetched)
        rw [he₁] at ha
        cases ha
      · rw [he] at hb'
        cases hb'
    · refine Or.inr ⟨_, _, hok, hok', fetchedAlerts_aware _ _ _, fetchedAlerts_aware _ _ _,
        fun c hen => ?_⟩
      rw [unsettled_fetched, unsettled_fetched, List.filterMap_map, List.filterMap_map]
      refine rel_filterMap (R := fun entry entry' => entry = entry' ∧ entry ∈ log) ?_
        (forall₂_same.mpr fun entry hentry => ⟨rfl, hentry⟩)
      rintro entry _ ⟨rfl, hentry⟩
      exact contribution_alike htext hnow hcoord (hlog.events entry hentry)
        (hwindows entry hentry) hen

end Coordinator

end UnifiAlerts
