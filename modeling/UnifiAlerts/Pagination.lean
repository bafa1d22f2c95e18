import UnifiAlerts.Answers

/-!
# The pages of the system log

The page loop is followed for a window of any length: which pages it
asks for, which events it returns, and when it warns (`fetchPages_hits`).
Below the page cap nothing is lost (`fetchSystemLogAlarms_serves`).

The controller serves the same events of the window at each request. It
may log others in between: those are later than the window
(`servesPages_of_log`).

The loop stops at the last page that the controller announces, at an
empty page, or at the cap. All three come out of one induction on the
fuel, with the page number as the only thing that changes
(`fetchPages_hits`): the events of the pages it asked for are a prefix
of the window's, and the warning is logged exactly when pages were left.
-/

namespace UnifiAlerts

open Py Lib

def pageCount (hits : List JsonObj) : Nat :=
  (hits.length + (systemLogPageSize - 1)) / systemLogPageSize

/-- An answer with a page of `hits` and the number of all pages. -/
def CarriesPage (hits : List JsonObj) (pageNumber : Nat) (result : HttpResult) : Prop :=
  ∃ status body, result = .response ⟨status, true, .value (.obj body)⟩ ∧
    200 ≤ status ∧ status < 300 ∧
    (JsonObj.get body "data").or (.arr []) =
      .arr ((pageOf hits pageNumber systemLogPageSize).map .obj) ∧
    JsonObj.getD body "total_page_count" (.int 1) = .int (pageCount hits)

/-- The controller has `hits` in the window and answers for the pages that there are. -/
def ServesPages (net : Net) (url : String) (timestampFrom timestampTo : Int)
    (hits : List JsonObj) : Prop :=
  ∀ n pageNumber, pageNumber = 0 ∨ pageNumber < pageCount hits →
    CarriesPage hits pageNumber
      (net.respond n (.page url timestampFrom timestampTo pageNumber systemLogPageSize))

/-! ## One page -/

/-- A page before the last has events. -/
theorem pageOf_ne_nil {hits : List JsonObj} {pageNumber : Nat} (h : pageNumber < pageCount hits) :
    pageOf hits pageNumber systemLogPageSize ≠ [] := by
  intro hnil
  have hlen := congrArg List.length hnil
  simp only [pageOf, List.length_take, List.length_drop, List.length_nil, systemLogPageSize] at hlen
  simp only [pageCount, systemLogPageSize] at h
  omega

theorem truthy_objs (events : List JsonObj) :
    (Json.arr (events.map .obj)).truthy = !events.isEmpty := by
  cases events <;> rfl

/-- The loop stops at a page that is the last by its number. -/
theorem readPage_hits {hits : List JsonObj} {pageNumber : Nat} {result : HttpResult}
    (h : CarriesPage hits pageNumber result) :
    readPage pageNumber result = .ok ((pageOf hits pageNumber systemLogPageSize).filter isNew,
      decide (pageCount hits ≤ pageNumber + 1)) := by
  obtain ⟨status, body, rfl, hlow, hhigh, hdata, hcount⟩ := h
  have hread : (readSystemLogPage (.response ⟨status, true, .value (.obj body)⟩)).mapError
      Error.ofClientError = .ok (.obj body) := by
    unfold readSystemLogPage Response.raiseForStatus Response.json
    dsimp only
    rw [if_neg (by omega), if_neg (by omega), if_neg (by omega)]
    rfl
  have hge : intGe (pageNumber + 1) (.int (pageCount hits)) =
      .ok (decide (pageCount hits ≤ pageNumber + 1)) := by
    simp only [intGe]
    congr 2
    exact propext (by omega)
  rw [readPage, hread, ok_bind, readPageBody]
  simp only [Json.asDict, ofPy, Except.mapError, ok_bind, hdata, Json.iter, newEvents_objs, hcount,
    hge, truthy_objs, Bool.not_not]
  -- an empty page is page 0 of an empty list
  by_cases hlast : pageCount hits ≤ pageNumber + 1
  · simp [hlast, pure, Except.pure]
  · have hne := pageOf_ne_nil (show pageNumber < pageCount hits by omega)
    simp [hlast, hne, pure, Except.pure]

/-! ## The loop -/

theorem drop_eq_pageOf (hits : List JsonObj) (fuel pageNumber : Nat) :
    (hits.drop (pageNumber * systemLogPageSize)).take ((fuel + 1) * systemLogPageSize) =
      pageOf hits pageNumber systemLogPageSize ++
        (hits.drop ((pageNumber + 1) * systemLogPageSize)).take (fuel * systemLogPageSize) := by
  rw [pageOf, Nat.succ_mul fuel, Nat.add_comm, List.take_add, List.drop_drop, Nat.succ_mul]

theorem drop_last {hits : List JsonObj} {pageNumber : Nat} (h : pageCount hits ≤ pageNumber + 1) :
    hits.drop ((pageNumber + 1) * systemLogPageSize) = [] := by
  refine List.drop_eq_nil_of_le ?_
  simp only [pageCount, systemLogPageSize] at h ⊢
  omega

/-- From a page on, the loop asks for each page up to the cap or the last one, and
returns the NEW events on them. -/
theorem fetchPages_hits {net : Net} {url : String} {timestampFrom timestampTo : Int}
    {hits : List JsonObj} (h : ServesPages net url timestampFrom timestampTo hits) :
    ∀ (fuel pageNumber : Nat) (results : List JsonObj) (s : ClientState),
      pageNumber < pageCount hits ∨ pageNumber = 0 ∧ 0 < fuel →
      fetchPages net url timestampFrom timestampTo fuel pageNumber results s =
        (.ok (results ++
          ((hits.drop (pageNumber * systemLogPageSize)).take
            (fuel * systemLogPageSize)).filter isNew),
        { s with
          requests := s.requests ++
            (List.range' pageNumber (min fuel (max 1 (pageCount hits - pageNumber)))).map fun n =>
              .page url timestampFrom timestampTo n systemLogPageSize
          pageCapWarnings := s.pageCapWarnings +
            if pageNumber + fuel < pageCount hits then 1 else 0 })
  | 0, pageNumber, results, s, hpage => by
      have hlt : pageNumber < pageCount hits := by omega
      simp [fetchPages, Comp.update, bind, Comp.bind, pure, Comp.pure, hlt]
  | fuel + 1, pageNumber, results, s, hpage => by
      rw [fetchPages_succ, readPage_hits (h _ _ (by omega)), drop_eq_pageOf]
      dsimp only
      by_cases hlast : pageCount hits ≤ pageNumber + 1
      · have hone : min (fuel + 1) (max 1 (pageCount hits - pageNumber)) = 1 := by omega
        have hcap : ¬pageNumber + (fuel + 1) < pageCount hits := by omega
        rw [if_pos (by simpa using hlast), drop_last hlast, hone, if_neg hcap]
        simp
      · rw [if_neg (by simpa using hlast),
          fetchPages_hits h fuel (pageNumber + 1) _ _ (Or.inl (by omega))]
        have hmore : min (fuel + 1) (max 1 (pageCount hits - pageNumber)) =
            min fuel (max 1 (pageCount hits - (pageNumber + 1))) + 1 := by omega
        rw [hmore, List.range'_succ, List.map_cons, List.filter_append]
        simp only [List.append_assoc, List.singleton_append, Nat.add_assoc, Nat.add_comm 1]

/-! ## A log below the page cap -/

theorem carriesPage_pageBody (hits : List JsonObj) (pageNumber : Nat) :
    CarriesPage hits pageNumber
      (.response (.mk 200 true (.value (pageBody hits pageNumber systemLogPageSize)))) :=
  ⟨200, _, rfl, le_rfl, by decide, pageData_ok hits pageNumber systemLogPageSize,
    pageCount_ok hits pageNumber systemLogPageSize⟩

theorem Serves.servesPages {net : Net} {log : List JsonObj} (h : Serves net log) (url : String)
    (timestampFrom timestampTo : Int) :
    ServesPages net url timestampFrom timestampTo
      (log.filter (inWindow timestampFrom timestampTo)) := by
  intro n pageNumber _
  rw [h]
  exact carriesPage_pageBody _ pageNumber

/-- Every NEW event of the window is fetched. -/
theorem fetchSystemLogAlarms_serves {net : Net} {log : List JsonObj} (h : Serves net log)
    (site : String) (since : Option Instant) (s : ClientState)
    (hcap : (log.filter (inWindow (epochMs (windowStart net.now since)) (epochMs net.now))).length ≤
      maxSystemLogPages * systemLogPageSize) :
    (fetchSystemLogAlarms net site since s).1 =
      .ok ((log.filter (inWindow (epochMs (windowStart net.now since)) (epochMs net.now))).filter
        isNew) := by
  have hpages := fetchPages_hits (h.servesPages
    (net.base ++ unifiOsNetworkPrefix ++ "/v2/api/site/" ++ site ++ "/system-log/all")
    (epochMs (windowStart net.now since)) (epochMs net.now)) maxSystemLogPages 0 [] s
    (Or.inr ⟨rfl, by decide⟩)
  unfold fetchSystemLogAlarms
  rw [hpages, Nat.zero_mul, List.drop_zero, List.take_of_length_le hcap, List.nil_append]

/-! ## The contract of the pages -/

def systemLogUrl (base site : String) : String :=
  base ++ unifiOsNetworkPrefix ++ "/v2/api/site/" ++ site ++ "/system-log/all"

/-- Against a controller with `hits` in the window that is asked for, the fetch
returns the NEW events among those that fit the page cap, in their order. It asks
for at most ten pages, none past the last, and warns when some did not fit. -/
theorem fetchSystemLogAlarms_hits (net : Net) (site : String) (since : Option Instant)
    (hits : List JsonObj) (s : ClientState)
    (h : ServesPages net (systemLogUrl net.base site) (epochMs (windowStart net.now since))
      (epochMs net.now) hits) :
    (fetchSystemLogAlarms net site since s).1 = .ok ((hits.take 1000).filter isNew) ∧
    (∃ pages : List Nat,
      (fetchSystemLogAlarms net site since s).2.requests = s.requests ++ pages.map (fun n =>
        .page (systemLogUrl net.base site) (epochMs (windowStart net.now since)) (epochMs net.now)
          n systemLogPageSize) ∧
      pages.length ≤ 10 ∧ pages.Nodup ∧ ∀ n ∈ pages, n = 0 ∨ n < pageCount hits) ∧
    (fetchSystemLogAlarms net site since s).2.pageCapWarnings =
      s.pageCapWarnings + if 1000 < hits.length then 1 else 0 := by
  have hrun := fetchPages_hits h maxSystemLogPages 0 [] s (Or.inr ⟨rfl, by decide⟩)
  have hfetch : fetchSystemLogAlarms net site since s =
      fetchPages net (systemLogUrl net.base site) (epochMs (windowStart net.now since))
        (epochMs net.now) maxSystemLogPages 0 [] s := rfl
  rw [hfetch, hrun]
  refine ⟨?_, ⟨_, rfl, ?_, List.nodup_range', fun n hn => ?_⟩, ?_⟩
  · rw [Nat.zero_mul, List.drop_zero, List.nil_append]
    rfl
  · rw [List.length_range']
    exact Nat.min_le_left _ _
  · rw [List.mem_range'_1] at hn
    omega
  · have hcap : 0 + maxSystemLogPages < pageCount hits ↔ 1000 < hits.length := by
      simp only [maxSystemLogPages, pageCount, systemLogPageSize]
      omega
    simp only [hcap]

/-- The controller pages the events of the window out of `log n` when request `n`
comes in. -/
def PagesLog (net : Net) (log : Nat → List JsonObj) : Prop :=
  ∀ n url timestampFrom timestampTo pageNumber,
    CarriesPage ((log n).filter (inWindow timestampFrom timestampTo)) pageNumber
      (net.respond n (.page url timestampFrom timestampTo pageNumber systemLogPageSize))

/-- A log that only grows by events outside the window has the same hits throughout. -/
theorem servesPages_of_log {net : Net} {log : Nat → List JsonObj} (h : PagesLog net log)
    (url : String) {timestampFrom timestampTo : Int}
    (hgrows : ∀ n, ∃ later, log (n + 1) = log n ++ later ∧
      ∀ event ∈ later, inWindow timestampFrom timestampTo event = false) :
    ServesPages net url timestampFrom timestampTo
      ((log 0).filter (inWindow timestampFrom timestampTo)) := by
  have hsame : ∀ n, (log n).filter (inWindow timestampFrom timestampTo) =
      (log 0).filter (inWindow timestampFrom timestampTo) := by
    intro n
    induction n with
    | zero => rfl
    | succ n ih =>
        obtain ⟨later, hlog, hlater⟩ := hgrows n
        have hnil : later.filter (inWindow timestampFrom timestampTo) = [] :=
          List.filter_eq_nil_iff.mpr fun event he => by simp [hlater event he]
        rw [hlog, List.filter_append, ih, hnil, List.append_nil]
  intro n pageNumber _
  rw [← hsame n]
  exact h n _ _ _ _

/-- An event at `ms`, in milliseconds. -/
def newEventAt (ms : Nat) : JsonObj := [("status", .str "NEW"), ("timestamp", .int ms)]

/-- The log of a controller with 1001 events in the first seconds that logs another
one with every request. -/
def growingLog (n : Nat) : List JsonObj :=
  (List.range 1001).map newEventAt ++ (List.range n).map fun i => newEventAt (5000 + i)

def growingNet : Net where
  text := .counting fun _ => none
  base := ""
  now := 2000000
  respond n
    | .page _ timestampFrom timestampTo pageNumber _ =>
      .response (.mk 200 true (.value (pageBody
        ((growingLog n).filter (inWindow timestampFrom timestampTo)) pageNumber systemLogPageSize)))
    | _ => .response (.mk 200 true .empty)

theorem growingNet_pages : PagesLog growingNet growingLog := fun _ _ _ _ pageNumber =>
  carriesPage_pageBody _ pageNumber

theorem inWindow_newEventAt {timestampFrom timestampTo : Int} {ms : Nat} :
    inWindow timestampFrom timestampTo (newEventAt ms) =
      decide (timestampFrom ≤ ms ∧ ms ≤ timestampTo) := rfl

theorem growingLog_hits {timestampFrom : Int} (h : timestampFrom ≤ 0) :
    (growingLog 0).filter (inWindow timestampFrom 2000) = (List.range 1001).map newEventAt := by
  rw [growingLog, List.range_zero, List.map_nil, List.append_nil, List.filter_eq_self]
  intro event he
  obtain ⟨ms, hms, rfl⟩ := List.mem_map.mp he
  rw [List.mem_range] at hms
  rw [inWindow_newEventAt, decide_eq_true_eq]
  omega

/-- The fetch is cut at the cap, and says so. -/
theorem fetchSystemLogAlarms_hits_growing :
    (fetchSystemLogAlarms growingNet "default" none {}).1 =
      .ok (((List.range 1001).map newEventAt).take 1000 |>.filter isNew) ∧
    (fetchSystemLogAlarms growingNet "default" none {}).2.pageCapWarnings = 1 := by
  have hgrows : ∀ n, ∃ later, growingLog (n + 1) = growingLog n ++ later ∧
      ∀ event ∈ later, inWindow (epochMs (windowStart growingNet.now none))
        (epochMs growingNet.now) event = false := by
    intro n
    refine ⟨[newEventAt (5000 + n)], ?_, ?_⟩
    · rw [growingLog, growingLog, @List.range_succ n, List.map_append, List.append_assoc]
      rfl
    · intro event he
      obtain rfl := List.mem_singleton.mp he
      have hnow : epochMs growingNet.now = 2000 := by decide
      rw [inWindow_newEventAt, hnow, decide_eq_false_iff_not]
      omega
  have hserves := servesPages_of_log growingNet_pages
    (systemLogUrl growingNet.base "default") hgrows
  have hnow : epochMs growingNet.now = 2000 := by decide
  have hhits : (growingLog 0).filter (inWindow (epochMs (windowStart growingNet.now none))
      (epochMs growingNet.now)) = (List.range 1001).map newEventAt := by
    rw [hnow]
    exact growingLog_hits (by decide)
  rw [hhits] at hserves
  obtain ⟨hresult, -, hwarn⟩ := fetchSystemLogAlarms_hits growingNet "default" none _ {} hserves
  refine ⟨hresult, ?_⟩
  rw [hwarn, List.length_map, List.length_range]
  rfl

end UnifiAlerts
