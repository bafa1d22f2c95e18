import UnifiAlerts.SystemLog
import UnifiAlerts.Ops

/-!
# The requests of a poll

`requests` only grows, whatever a client function does and however it
ends (`Grows`). Two things follow the same walk through the functions:

- a legacy fetch asks some alarm path before anything else
  (`fetchAlarms_asks`);
- an answer that ends the function that receives it ends the whole poll
  (`Halts`), because nothing that a poll catches comes from such an
  answer.

A request that fetches alarms is one that is no probe.

The log of the requests is a field of the client that only `send`
writes, so facts about what was sent are facts about the state and need
no trace beside it. They are used in two ways: a prefix of the log never
changes, so the answer that a function met is still the one at its
place; and what was sent after a moment is the rest of the log.
-/

namespace UnifiAlerts

open Py Lib

/-! ## Requests are appended -/

def Grows (s s' : ClientState) : Prop := s.requests <+: s'.requests

namespace Grows

theorem refl (s : ClientState) : Grows s s := List.prefix_rfl

theorem trans (s s' s'' : ClientState) (h : Grows s s') (h' : Grows s' s'') : Grows s s'' :=
  List.IsPrefix.trans h h'

theorem send (net : Net) (request : Request) : Comp.Within Grows (send net request) :=
  fun s => List.prefix_append s.requests [request]

end Grows

theorem tryFetchAlarms_grows (net : Net) (url site : String) :
    Comp.Within Grows (tryFetchAlarms net url site) :=
  .bind Grows.trans (Grows.send net _) fun _ => .lift Grows.refl _

theorem discoverFrom_grows (net : Net) (site : String) :
    ∀ paths : List String, Comp.Within Grows (discoverFrom net site paths)
  | [] => .bind Grows.trans (.update fun s => Grows.refl s) fun _ => .raise Grows.refl _
  | path :: paths => by
      refine .bind Grows.trans (tryFetchAlarms_grows net path site) fun alarms => ?_
      cases alarms with
      | none => exact discoverFrom_grows net site paths
      | some alarms =>
          exact .bind Grows.trans (.update fun s => Grows.refl s) fun _ => .pure Grows.refl _

/-- Grouping counts the unrecognised keys and leaves the rest of the client alone. -/
theorem categoriseLoop_keeps {φ : Type} {f : ClientState → φ}
    (hkeys : ∀ s unrecognisedKeys, f { s with unrecognisedKeys } = f s) (net : Net) :
    ∀ (records : List JsonObj) (result : Categorised),
      Comp.Keeps f (categoriseLoop net records result)
  | [], _ => .pure _
  | record :: records, result => by
      have ih := categoriseLoop_keeps hkeys net records
      refine .bind (.lift _) fun category => ?_
      cases category with
      | none =>
          dsimp only
          split
          · split
            · exact .bind (.update fun s => hkeys s _) fun _ => ih _
            · exact ih _
          · exact ih _
      | some category => exact .bind (.lift _) fun alert => ih _

theorem categoriseLoop_quiet (net : Net) (records : List JsonObj) (result : Categorised) :
    Comp.Keeps ClientState.requests (categoriseLoop net records result) :=
  categoriseLoop_keeps (fun _ _ => rfl) net records result

theorem Grows.of_quiet {s s' : ClientState} (h : s'.requests = s.requests) : Grows s s' :=
  ⟨[], by rw [List.append_nil, h]⟩

theorem fetchSystemLogAlarms_grows (net : Net) (site : String) (since : Option Instant) :
    Comp.Within Grows (fetchSystemLogAlarms net site since) :=
  fetchPages_within Grows.refl Grows.trans (fun _ => Grows.send net _) (fun s => Grows.refl s) _ _ _

/-! ## A legacy fetch asks a path first -/

/-- The first request sent on the way from `s` to `s'` is for an alarm path. -/
def Asks (s s' : ClientState) : Prop := ∃ url, s.requests ++ [.get url] <+: s'.requests

theorem tryFetchAlarms_asks (net : Net) (url site : String) (s : ClientState) :
    Asks s (tryFetchAlarms net url site s).2 := ⟨url, List.prefix_rfl⟩

theorem Asks.grows {s s' s'' : ClientState} (h : Asks s s') (h' : Grows s' s'') : Asks s s'' := by
  obtain ⟨url, hprefix⟩ := h
  exact ⟨url, hprefix.trans h'⟩

theorem discoverAlarmUrl_asks (net : Net) (site : String) (s : ClientState) :
    Asks s (discoverAlarmUrl net site s).2 := by
  unfold discoverAlarmUrl alarmPaths discoverFrom
  refine Comp.Within.bind_from (fun _ _ => Asks.grows) (tryFetchAlarms_asks net _ site s)
    fun alarms s' _ => ?_
  cases alarms with
  | none => exact discoverFrom_grows net site _ s'
  | some alarms => exact Grows.refl s'

theorem Asks.toGrows {s s' : ClientState} (h : Asks s s') : Grows s s' := by
  obtain ⟨url, hprefix⟩ := h
  exact (List.prefix_append _ _).trans hprefix

theorem fetchAlarms_asks (net : Net) (site : String) (s : ClientState) :
    Asks s (fetchAlarms net site s).2 := by
  unfold fetchAlarms
  rw [Comp.gets_bind]
  cases s.alarmUrlCache site with
  | none => exact discoverAlarmUrl_asks net site s
  | some url =>
      refine Comp.Within.bind_from (fun _ _ => Asks.grows) (tryFetchAlarms_asks net url site s)
        fun alarms s' _ => ?_
      cases alarms with
      | none =>
          exact (discoverAlarmUrl_asks net site
            { s' with alarmUrlCache := Function.update s'.alarmUrlCache site none }).toGrows
      | some alarms => exact Grows.refl s'

theorem categoriseAlarms_asks (net : Net) (site : String) (s : ClientState) :
    Asks s (categoriseAlarms net site s).2 :=
  Comp.Within.bind_from (fun _ _ => Asks.grows) (fetchAlarms_asks net site s) fun raw s' _ =>
    .of_quiet (categoriseLoop_quiet net raw [] { s' with unrecognisedKeys := fun _ => 0 })

/-! ## The probe -/

namespace Coordinator

/-- A relation between clients, read of the coordinators that hold them. -/
def OfClient (R : ClientState → ClientState → Prop) (s s' : Coordinator) : Prop :=
  R s.client s'.client

section

variable {R : ClientState → ClientState → Prop} (hrefl : ∀ s, R s s)
  (htrans : ∀ s s' s'', R s s' → R s' s'' → R s s'')

include hrefl htrans

/-- Only its one request makes a probe more than bookkeeping of the coordinator. -/
theorem probeOnce_within {net : Net} {site : String}
    (hprobe : Comp.Within R (probeSystemLogEndpoint net site)) :
    Comp.Within (OfClient R) (probeOnce net site) := by
  have hrefl' : ∀ s, OfClient R s s := fun s => hrefl s.client
  have htrans' : ∀ s s' s'', OfClient R s s' → OfClient R s' s'' → OfClient R s s'' :=
    fun s s' s'' => htrans s.client s'.client s''.client
  refine .bind htrans' (.zoom hprobe fun _ _ h => h) fun answer => ?_
  cases answer with
  | some b =>
      cases b <;> exact .bind htrans' (.update fun s => hrefl s.client) fun _ => .pure hrefl' _
  | none =>
      refine .bind htrans' (.update fun s => hrefl s.client) fun _ =>
        .bind htrans' (.gets hrefl' _) fun n => ?_
      split
      · exact .bind htrans' (.update fun s => hrefl s.client) fun _ => .pure hrefl' _
      · exact .pure hrefl' _

theorem probeHasSystemLog_within {net : Net} {site : String}
    (hprobe : Comp.Within R (probeSystemLogEndpoint net site)) :
    Comp.Within (OfClient R) (probeHasSystemLog net site) := by
  have hrefl' : ∀ s, OfClient R s s := fun s => hrefl s.client
  have htrans' : ∀ s s' s'', OfClient R s s' → OfClient R s' s'' → OfClient R s s'' :=
    fun s s' s'' => htrans s.client s'.client s''.client
  have honce := probeOnce_within hrefl htrans hprobe
  refine .bind htrans' (.gets hrefl' _) fun cached =>
    .bind htrans' (.gets hrefl' _) fun backoffUntil => ?_
  split
  · exact honce
  · split
    · exact .bind htrans' (.update fun s => hrefl s.client) fun _ => honce
    · exact .pure hrefl' _
  · exact .pure hrefl' _

end

end Coordinator

end UnifiAlerts
