import UnifiAlerts.Lib.Run
import UnifiAlerts.Reachability

/-!
# The alarm-URL cache over a run of fetches

A fetch asks one path after the other: the cached one, if the site has
one, then the three of the discovery (`candidates`). The first path that
is not missing decides how it ends, so a fetch is determined by where
that path stands in the list (`fetchAlarms_answered`,
`fetchAlarms_failed`, `fetchAlarms_missing`).

`World` keeps, next to the client, a record of all visits: the requests
of each with what they ended in, read off the request log. The
invariants of the cache and of the confirmed-unavailable flag are about
this record, whatever the controller answers and whichever sites are
fetched.
-/

namespace UnifiAlerts

open Py Lib

/-! ## One request -/

abbrev Answer := Except Error (Option (List JsonObj))

/-- What the request for `url` ends in when it is the `n`-th of the client. -/
def alarmAnswer (net : Net) (site : String) (n : Nat) (url : String) : Answer :=
  (readAlarms net.text site (net.respond n (.get url))).mapError Error.ofClientError

/-- One path after the other is missing. -/
def AllMissing (net : Net) (site : String) : Nat → List String → Prop
  | _, [] => True
  | n, url :: urls => alarmAnswer net site n url = .ok none ∧ AllMissing net site (n + 1) urls

namespace ClientState

def asked (s : ClientState) (urls : List String) : ClientState :=
  { s with requests := s.requests ++ urls.map .get }

def caching (s : ClientState) (site : String) (url : Option String) : ClientState :=
  { s with alarmUrlCache := Function.update s.alarmUrlCache site url }

def confirmed (s : ClientState) (site : String) : ClientState :=
  { s with
    legacyConfirmedUnavailable := Function.update s.legacyConfirmedUnavailable site true }

@[simp] theorem asked_requests (s : ClientState) (urls : List String) :
    (s.asked urls).requests = s.requests ++ urls.map .get := rfl

@[simp] theorem asked_alarmUrlCache (s : ClientState) (urls : List String) :
    (s.asked urls).alarmUrlCache = s.alarmUrlCache := rfl

@[simp] theorem asked_unavailable (s : ClientState) (urls : List String) :
    (s.asked urls).legacyConfirmedUnavailable = s.legacyConfirmedUnavailable := rfl

@[simp] theorem caching_requests (s : ClientState) (site : String) (url : Option String) :
    (s.caching site url).requests = s.requests := rfl

@[simp] theorem caching_unavailable (s : ClientState) (site : String) (url : Option String) :
    (s.caching site url).legacyConfirmedUnavailable = s.legacyConfirmedUnavailable := rfl

@[simp] theorem caching_self (s : ClientState) (site : String) (url : Option String) :
    (s.caching site url).alarmUrlCache site = url := Function.update_self ..

theorem caching_ne (s : ClientState) {site other : String} (url : Option String)
    (h : other ≠ site) : (s.caching site url).alarmUrlCache other = s.alarmUrlCache other :=
  Function.update_of_ne h ..

@[simp] theorem confirmed_requests (s : ClientState) (site : String) :
    (s.confirmed site).requests = s.requests := rfl

@[simp] theorem confirmed_alarmUrlCache (s : ClientState) (site : String) :
    (s.confirmed site).alarmUrlCache = s.alarmUrlCache := rfl

@[simp] theorem confirmed_self (s : ClientState) (site : String) :
    (s.confirmed site).legacyConfirmedUnavailable site = true := Function.update_self ..

theorem confirmed_ne (s : ClientState) {site other : String} (h : other ≠ site) :
    (s.confirmed site).legacyConfirmedUnavailable other = s.legacyConfirmedUnavailable other :=
  Function.update_of_ne h ..

theorem asked_asked (s : ClientState) (urls urls' : List String) :
    (s.asked urls).asked urls' = s.asked (urls ++ urls') := by
  simp [asked]

theorem asked_nil (s : ClientState) : s.asked [] = s := by
  simp [asked]

theorem caching_caching (s : ClientState) (site : String) (url url' : Option String) :
    (s.caching site url).caching site url' = s.caching site url' := by
  simp [caching]

theorem caching_same {s : ClientState} {site : String} {url : Option String}
    (h : s.alarmUrlCache site = url) : s.caching site url = s := by
  subst h
  simp [caching]

theorem asked_caching (s : ClientState) (site : String) (url : Option String)
    (urls : List String) : (s.caching site url).asked urls = (s.asked urls).caching site url := rfl

end ClientState

section

variable {net : Net} {site : String} {s : ClientState}

theorem tryFetchAlarms_run (net : Net) (url site : String) (s : ClientState) :
    tryFetchAlarms net url site s =
      (alarmAnswer net site s.requests.length url, s.asked [url]) := rfl

/-! ## The discovery -/

/-- Missing paths are passed over. -/
theorem discoverFrom_pass : ∀ {before : List String} (rest : List String) {s : ClientState},
    AllMissing net site s.requests.length before →
      discoverFrom net site (before ++ rest) s = discoverFrom net site rest (s.asked before)
  | [], _, s, _ => by rw [List.nil_append, ClientState.asked_nil]
  | url :: before, rest, s, ⟨hurl, hbefore⟩ => by
      have hrun := tryFetchAlarms_run net url site s
      rw [hurl] at hrun
      rw [List.cons_append, discoverFrom, Comp.bind_run hrun]
      dsimp only
      rw [discoverFrom_pass rest (by simpa using hbefore), ClientState.asked_asked]
      rfl

theorem discoverFrom_answered {before after : List String} {path : String} {alarms : List JsonObj}
    (hbefore : AllMissing net site s.requests.length before)
    (hpath : alarmAnswer net site (s.requests.length + before.length) path = .ok (some alarms)) :
    discoverFrom net site (before ++ path :: after) s =
      (.ok alarms, (s.asked (before ++ [path])).caching site (some path)) := by
  have hrun := tryFetchAlarms_run net path site (s.asked before)
  rw [ClientState.asked_requests, List.length_append, List.length_map, hpath] at hrun
  rw [discoverFrom_pass _ hbefore, discoverFrom, Comp.bind_run hrun, ClientState.asked_asked]
  rfl

theorem discoverFrom_failed {before after : List String} {path : String} {e : Error}
    (hbefore : AllMissing net site s.requests.length before)
    (hpath : alarmAnswer net site (s.requests.length + before.length) path = .error e) :
    discoverFrom net site (before ++ path :: after) s =
      (.error e, s.asked (before ++ [path])) := by
  have hrun := tryFetchAlarms_run net path site (s.asked before)
  rw [ClientState.asked_requests, List.length_append, List.length_map, hpath] at hrun
  rw [discoverFrom_pass _ hbefore, discoverFrom, Comp.bind_error hrun, ClientState.asked_asked]

theorem discoverFrom_missing {paths : List String}
    (h : AllMissing net site s.requests.length paths) :
    discoverFrom net site paths s =
      (.error (.cannotConnect .alarmEndpointUnavailable (unavailableMsg net.base site)),
        (s.asked paths).confirmed site) := by
  have hpass := @discoverFrom_pass net site paths [] s h
  rw [List.append_nil] at hpass
  rw [hpass]
  rfl

/-! ## A fetch -/

/-- The paths of a fetch in the order in which they are tried. -/
def candidates (base site : String) (s : ClientState) : List String :=
  (s.alarmUrlCache site).toList ++ alarmPaths base site

/-- The discovery that follows a cached path that is gone. -/
theorem fetchAlarms_gone {url : String} (hcache : s.alarmUrlCache site = some url)
    (hurl : alarmAnswer net site s.requests.length url = .ok none) :
    fetchAlarms net site s =
      discoverFrom net site (alarmPaths net.base site) ((s.asked [url]).caching site none) := by
  have hrun := tryFetchAlarms_run net url site s
  rw [hurl] at hrun
  unfold fetchAlarms
  rw [Comp.gets_bind, hcache]
  dsimp only
  rw [Comp.bind_run hrun]
  rfl

theorem fetchAlarms_hit {url : String} {alarms : List JsonObj}
    (hcache : s.alarmUrlCache site = some url)
    (hurl : alarmAnswer net site s.requests.length url = .ok (some alarms)) :
    fetchAlarms net site s = (.ok alarms, s.asked [url]) := by
  have hrun := tryFetchAlarms_run net url site s
  rw [hurl] at hrun
  unfold fetchAlarms
  rw [Comp.gets_bind, hcache]
  dsimp only
  rw [Comp.bind_run hrun]
  rfl

theorem fetchAlarms_broken {url : String} {e : Error} (hcache : s.alarmUrlCache site = some url)
    (hurl : alarmAnswer net site s.requests.length url = .error e) :
    fetchAlarms net site s = (.error e, s.asked [url]) := by
  have hrun := tryFetchAlarms_run net url site s
  rw [hurl] at hrun
  unfold fetchAlarms
  rw [Comp.gets_bind, hcache]
  dsimp only
  rw [Comp.bind_error hrun]

/-- The first path that answers is the one that is cached afterwards. -/
theorem fetchAlarms_answered {before after : List String} {path : String} {alarms : List JsonObj}
    (hpaths : candidates net.base site s = before ++ path :: after)
    (hbefore : AllMissing net site s.requests.length before)
    (hpath : alarmAnswer net site (s.requests.length + before.length) path = .ok (some alarms)) :
    fetchAlarms net site s =
      (.ok alarms, (s.asked (before ++ [path])).caching site (some path)) := by
  unfold candidates at hpaths
  cases hcache : s.alarmUrlCache site with
  | none =>
      rw [hcache, Option.toList_none, List.nil_append] at hpaths
      rw [fetchAlarms_fresh hcache, hpaths, discoverFrom_answered hbefore hpath]
  | some url =>
      rw [hcache, Option.toList_some, List.singleton_append] at hpaths
      cases before with
      | nil =>
          obtain ⟨rfl, -⟩ := List.cons.inj hpaths
          rw [fetchAlarms_hit hcache hpath, ClientState.caching_same (by exact hcache)]
          rfl
      | cons gone before =>
          rw [List.cons_append] at hpaths
          obtain ⟨rfl, hrest⟩ := List.cons.inj hpaths
          obtain ⟨hurl, hbefore⟩ := hbefore
          have hpath' : alarmAnswer net site (s.requests.length + 1 + before.length) path =
              .ok (some alarms) := by
            rw [Nat.add_assoc, Nat.add_comm 1]
            exact hpath
          rw [fetchAlarms_gone hcache hurl, hrest, discoverFrom_answered (by simpa using hbefore)
            (by simpa using hpath'), ClientState.asked_caching, ClientState.caching_caching,
            ClientState.asked_asked]
          rfl

/-- A path that fails ends the fetch; a cached path that was gone before is forgotten. -/
theorem fetchAlarms_failed {before after : List String} {path : String} {e : Error}
    (hpaths : candidates net.base site s = before ++ path :: after)
    (hbefore : AllMissing net site s.requests.length before)
    (hpath : alarmAnswer net site (s.requests.length + before.length) path = .error e) :
    ∃ url, (url = s.alarmUrlCache site ∨ url = none) ∧
      fetchAlarms net site s = (.error e, (s.asked (before ++ [path])).caching site url) := by
  unfold candidates at hpaths
  cases hcache : s.alarmUrlCache site with
  | none =>
      rw [hcache, Option.toList_none, List.nil_append] at hpaths
      refine ⟨none, Or.inl rfl, ?_⟩
      rw [fetchAlarms_fresh hcache, hpaths, discoverFrom_failed hbefore hpath,
        ClientState.caching_same (by exact hcache)]
  | some url =>
      rw [hcache, Option.toList_some, List.singleton_append] at hpaths
      cases before with
      | nil =>
          obtain ⟨rfl, -⟩ := List.cons.inj hpaths
          refine ⟨some url, Or.inl rfl, ?_⟩
          rw [fetchAlarms_broken hcache hpath, ClientState.caching_same (by exact hcache)]
          rfl
      | cons gone before =>
          rw [List.cons_append] at hpaths
          obtain ⟨rfl, hrest⟩ := List.cons.inj hpaths
          obtain ⟨hurl, hbefore⟩ := hbefore
          have hpath' : alarmAnswer net site (s.requests.length + 1 + before.length) path =
              .error e := by
            rw [Nat.add_assoc, Nat.add_comm 1]
            exact hpath
          refine ⟨none, Or.inr rfl, ?_⟩
          rw [fetchAlarms_gone hcache hurl, hrest, discoverFrom_failed (by simpa using hbefore)
            (by simpa using hpath'), ClientState.asked_caching, ClientState.asked_asked]
          rfl

/-- When no path is left, the flag is set and nothing is cached. -/
theorem fetchAlarms_missing
    (h : AllMissing net site s.requests.length (candidates net.base site s)) :
    fetchAlarms net site s =
      (.error (.cannotConnect .alarmEndpointUnavailable (unavailableMsg net.base site)),
        ((s.asked (candidates net.base site s)).caching site none).confirmed site) := by
  unfold candidates at h ⊢
  cases hcache : s.alarmUrlCache site with
  | none =>
      rw [hcache, Option.toList_none, List.nil_append] at h
      rw [fetchAlarms_fresh hcache, discoverFrom_missing h, Option.toList_none, List.nil_append,
        ClientState.caching_same (by exact hcache)]
  | some url =>
      rw [hcache] at h
      obtain ⟨hurl, hpaths⟩ := h
      rw [fetchAlarms_gone hcache hurl, discoverFrom_missing (by simpa using hpaths),
        ClientState.asked_caching, ClientState.asked_asked]
      rfl

/-- The first path that is not missing, if there is one. -/
inductive Walk (net : Net) (site : String) (n : Nat) (urls : List String) : Prop
  | answered (before path after alarms) : urls = before ++ path :: after →
      AllMissing net site n before →
      alarmAnswer net site (n + before.length) path = .ok (some alarms) → Walk net site n urls
  | failed (before path after e) : urls = before ++ path :: after →
      AllMissing net site n before →
      alarmAnswer net site (n + before.length) path = .error e → Walk net site n urls
  | missing : AllMissing net site n urls → Walk net site n urls

theorem Walk.cons {n : Nat} {url : String} {urls : List String}
    (hurl : alarmAnswer net site n url = .ok none) (h : Walk net site (n + 1) urls) :
    Walk net site n (url :: urls) := by
  have hnext : ∀ k, n + (k + 1) = n + 1 + k := fun k => by omega
  cases h with
  | answered before path after alarms hurls hbefore hpath =>
      refine .answered (url :: before) path after alarms (by rw [hurls]; rfl) ⟨hurl, hbefore⟩ ?_
      rw [List.length_cons, hnext]
      exact hpath
  | failed before path after e hurls hbefore hpath =>
      refine .failed (url :: before) path after e (by rw [hurls]; rfl) ⟨hurl, hbefore⟩ ?_
      rw [List.length_cons, hnext]
      exact hpath
  | missing h => exact .missing ⟨hurl, h⟩

theorem walk_total (net : Net) (site : String) : ∀ (n : Nat) (urls : List String),
    Walk net site n urls
  | _, [] => .missing trivial
  | n, url :: urls => by
      cases hurl : alarmAnswer net site n url with
      | error e => exact .failed [] url urls e rfl trivial hurl
      | ok found =>
          cases found with
          | some alarms => exact .answered [] url urls alarms rfl trivial hurl
          | none => exact .cons hurl (walk_total net site (n + 1) urls)

end

/-! ## The record of the visits -/

/-- The requests from the `n`-th on with what each ended in. -/
def exchanges (net : Net) (site : String) : Nat → List Request → List (Request × Answer)
  | _, [] => []
  | n, request :: requests =>
    (request, (readAlarms net.text site (net.respond n request)).mapError Error.ofClientError) ::
      exchanges net site (n + 1) requests

/-- One fetch: the site, the path that was cached for it, and what was asked. -/
structure Visit where
  site : String
  cached : Option String
  exchanges : List (Request × Answer)

/-- The exchanges behind the one with the cached path. -/
def Visit.discovery (v : Visit) : List (Request × Answer) :=
  v.exchanges.drop v.cached.toList.length

/-- The discovery of a site that found every path missing. -/
def allGone (base site : String) : List (Request × Answer) :=
  (alarmPaths base site).map fun path => (.get path, .ok none)

/-- The last request so far that was answered with records. -/
def later (last : Option Request) : Request × Answer → Option Request
  | (request, .ok (some _)) => some request
  | _ => last

def lastAnswered (history : List Visit) (site : String) : Option Request :=
  (history.flatMap fun v => if v.site = site then v.exchanges else []).foldl later none

/-- A call of `fetch_alarms`, with the controller at that time. -/
structure AlarmFetch where
  net : Net
  site : String

structure World where
  client : ClientState := {}
  history : List Visit := []

/-- The controller as the client with this base URL sees it. -/
def AlarmFetch.on (c : AlarmFetch) (base : String) : Net := { c.net with base }

def AlarmFetch.result (c : AlarmFetch) (base : String) (w : World) : Except Error (List JsonObj) :=
  (fetchAlarms (c.on base) c.site w.client).1

def AlarmFetch.after (c : AlarmFetch) (base : String) (w : World) : ClientState :=
  (fetchAlarms (c.on base) c.site w.client).2

def AlarmFetch.sent (c : AlarmFetch) (base : String) (w : World) : List Request :=
  (c.after base w).requests.drop w.client.requests.length

def AlarmFetch.visit (c : AlarmFetch) (base : String) (w : World) : Visit where
  site := c.site
  cached := w.client.alarmUrlCache c.site
  exchanges := exchanges (c.on base) c.site w.client.requests.length (c.sent base w)

def World.step (base : String) (w : World) (c : AlarmFetch) : World where
  client := c.after base w
  history := w.history ++ [c.visit base w]

/-! ### What a visit leaves in the record -/

section

variable {net : Net} {site : String}

theorem exchanges_append (n : Nat) (requests requests' : List Request) :
    exchanges net site n (requests ++ requests') =
      exchanges net site n requests ++ exchanges net site (n + requests.length) requests' := by
  induction requests generalizing n with
  | nil => rfl
  | cons request requests ih =>
      have hnext : n + (requests.length + 1) = n + 1 + requests.length := by omega
      rw [List.cons_append, exchanges, ih, List.length_cons, hnext]
      rfl

theorem exchanges_missing {n : Nat} {urls : List String} (h : AllMissing net site n urls) :
    exchanges net site n (urls.map .get) = urls.map fun url => (.get url, .ok none) := by
  induction urls generalizing n with
  | nil => rfl
  | cons url urls ih =>
      obtain ⟨hurl, hurls⟩ := h
      rw [List.map_cons, exchanges, ih hurls, List.map_cons, ← hurl]
      rfl

/-- Missing paths up to the one that decides. -/
theorem exchanges_decided {n : Nat} {before : List String} (path : String)
    (h : AllMissing net site n before) :
    exchanges net site n ((before ++ [path]).map .get) =
      (before.map fun url => (.get url, .ok none)) ++
        [(.get path, alarmAnswer net site (n + before.length) path)] := by
  rw [List.map_append, exchanges_append, exchanges_missing h, List.length_map]
  rfl

theorem later_missing (last : Option Request) (urls : List String) :
    (urls.map fun url => (Request.get url, (.ok none : Answer))).foldl later last = last := by
  induction urls with
  | nil => rfl
  | cons url urls ih => exact ih

theorem lastAnswered_snoc (history : List Visit) (v : Visit) (site : String) :
    lastAnswered (history ++ [v]) site =
      if v.site = site then v.exchanges.foldl later (lastAnswered history site)
      else lastAnswered history site := by
  unfold lastAnswered
  rw [List.flatMap_append, List.foldl_append, List.flatMap_singleton]
  split <;> rfl

/-- A visit that ends before all paths were missing is no such discovery. -/
theorem discovery_ne_allGone {v : Visit} {before : List (Request × Answer)}
    {last : Request × Answer} (hexchanges : v.exchanges = before ++ [last])
    (hlast : last.2 ≠ .ok none) (base site : String) : v.discovery ≠ allGone base site := by
  intro hgone
  have hlen : v.discovery.length = 3 := by rw [hgone]; rfl
  have hdiscovery : v.discovery = before.drop v.cached.toList.length ++ [last] := by
    unfold Visit.discovery at hlen ⊢
    rw [hexchanges, List.length_drop, List.length_append, List.length_singleton] at hlen
    rw [hexchanges, List.drop_append_of_le_length (by omega)]
  have hmem : last ∈ allGone base site := by
    rw [← hgone, hdiscovery]
    simp
  obtain ⟨path, -, rfl⟩ := List.mem_map.mp hmem
  exact hlast rfl

end

/-! ### How a visit ends -/

/-- The three ends of a fetch, with what each leaves behind. -/
inductive AlarmFetch.Ends (base : String) (w : World) (c : AlarmFetch) : Prop
  | answered (before path after alarms) :
      candidates base c.site w.client = before ++ path :: after →
      c.result base w = .ok alarms →
      c.after base w = (w.client.asked (before ++ [path])).caching c.site (some path) →
      (c.visit base w).exchanges =
        (before.map fun url => (.get url, .ok none)) ++ [(.get path, .ok (some alarms))] →
      c.Ends base w
  | failed (before path after e url) :
      candidates base c.site w.client = before ++ path :: after →
      c.result base w = .error e →
      (url = w.client.alarmUrlCache c.site ∨ url = none) →
      c.after base w = (w.client.asked (before ++ [path])).caching c.site url →
      (c.visit base w).exchanges =
        (before.map fun url => (.get url, .ok none)) ++ [(.get path, .error e)] →
      c.Ends base w
  | missing (msg) :
      c.result base w = .error (.cannotConnect .alarmEndpointUnavailable msg) →
      c.after base w = ((w.client.asked (candidates base c.site w.client)).caching c.site
        none).confirmed c.site →
      (c.visit base w).exchanges =
        (candidates base c.site w.client).map (fun url => (.get url, .ok none)) →
      c.Ends base w

theorem AlarmFetch.ends (base : String) (w : World) (c : AlarmFetch) : c.Ends base w := by
  have hvisit : ∀ urls : List String,
      (c.after base w).requests = w.client.requests ++ urls.map .get →
      (c.visit base w).exchanges =
        exchanges (c.on base) c.site w.client.requests.length (urls.map .get) := by
    intro urls hurls
    show exchanges _ _ _ ((c.after base w).requests.drop _) = _
    rw [hurls, List.drop_left]
  cases walk_total (c.on base) c.site w.client.requests.length
    (candidates base c.site w.client) with
  | answered before path after alarms hurls hbefore hpath =>
      have hrun := @fetchAlarms_answered (c.on base) c.site w.client before after path alarms hurls
        hbefore hpath
      have hafter : c.after base w = _ := congrArg Prod.snd hrun
      refine .answered before path after alarms hurls (congrArg Prod.fst hrun) hafter ?_
      rw [hvisit (before ++ [path]) (by rw [hafter]; rfl), exchanges_decided path hbefore, hpath]
  | failed before path after e hurls hbefore hpath =>
      obtain ⟨url, hurl, hrun⟩ := @fetchAlarms_failed (c.on base) c.site w.client
        before after path e
        hurls hbefore hpath
      have hafter : c.after base w = _ := congrArg Prod.snd hrun
      refine .failed before path after e url hurls (congrArg Prod.fst hrun) hurl hafter ?_
      rw [hvisit (before ++ [path]) (by rw [hafter]; rfl), exchanges_decided path hbefore, hpath]
  | missing h =>
      have hrun := @fetchAlarms_missing (c.on base) c.site w.client h
      have hafter : c.after base w = _ := congrArg Prod.snd hrun
      refine .missing _ (congrArg Prod.fst hrun) hafter ?_
      rw [hvisit (candidates base c.site w.client) (by rw [hafter]; rfl), exchanges_missing h]

/-! ## The invariants -/

/-- The cache and the flag as the record has them: a cached path is the one that answered
last, and a site is flagged when one of its visits found every path gone. -/
structure World.Follows (base : String) (w : World) : Prop where
  /-- A cached path answered the last of the site's requests that was answered. -/
  cached : ∀ site url, w.client.alarmUrlCache site = some url →
    lastAnswered w.history site = some (.get url)
  flagged : ∀ site, w.client.legacyConfirmedUnavailable site = true ↔
    ∃ v ∈ w.history, v.site = site ∧ v.discovery = allGone base site

/-- Other sites have nothing to do with a fetch. -/
theorem AlarmFetch.others (base : String) (w : World) (c : AlarmFetch) {other : String}
    (hne : other ≠ c.site) :
    (c.after base w).alarmUrlCache other = w.client.alarmUrlCache other ∧
      (c.after base w).legacyConfirmedUnavailable other =
        w.client.legacyConfirmedUnavailable other := by
  cases c.ends base w with
  | answered before path after alarms _ _ hend _ =>
      rw [hend]
      exact ⟨ClientState.caching_ne _ _ hne, rfl⟩
  | failed before path after e cached _ _ _ hend _ =>
      rw [hend]
      exact ⟨ClientState.caching_ne _ _ hne, rfl⟩
  | missing msg _ hend _ =>
      rw [hend]
      exact ⟨ClientState.caching_ne _ _ hne, ClientState.confirmed_ne _ hne⟩

/-- A fetch that raises leaves the cached path of its site, or none. -/
theorem AlarmFetch.raised {base : String} {w : World} {c : AlarmFetch} {e : Error}
    (h : c.result base w = .error e) {url : String}
    (hurl : (c.after base w).alarmUrlCache c.site = some url) :
    w.client.alarmUrlCache c.site = some url := by
  cases c.ends base w with
  | answered before path after alarms _ hresult _ _ =>
      rw [hresult] at h
      cases h
  | failed before path after e cached _ _ hcached hend _ =>
      rw [hend, ClientState.caching_self] at hurl
      rcases hcached with rfl | rfl
      · exact hurl
      · cases hurl
  | missing msg _ hend _ =>
      rw [hend, ClientState.confirmed_alarmUrlCache, ClientState.caching_self] at hurl
      cases hurl

/-- A request that failed is the one that ended the fetch. -/
theorem AlarmFetch.request_failed {base : String} {w : World} {c : AlarmFetch}
    {x : Request × Answer} {e : Error} (hx : x ∈ (c.visit base w).exchanges)
    (herror : x.2 = .error e) :
    c.result base w = .error e ∧
      (c.after base w).legacyConfirmedUnavailable = w.client.legacyConfirmedUnavailable := by
  have hgone : ∀ urls : List String,
      x ∉ urls.map fun url => (Request.get url, (.ok none : Answer)) := by
    rintro urls hin
    obtain ⟨url, -, rfl⟩ := List.mem_map.mp hin
    cases herror
  cases c.ends base w with
  | answered before path after alarms _ _ _ hexchanges =>
      rw [hexchanges] at hx
      rcases List.mem_append.mp hx with hx | hx
      · exact absurd hx (hgone before)
      · obtain rfl := List.mem_singleton.mp hx
        cases herror
  | failed before path after e' cached _ hresult _ hend hexchanges =>
      rw [hexchanges] at hx
      rcases List.mem_append.mp hx with hx | hx
      · exact absurd hx (hgone before)
      · obtain rfl := List.mem_singleton.mp hx
        obtain rfl := Except.error.inj herror
        exact ⟨hresult, by rw [hend]; rfl⟩
  | missing msg _ _ hexchanges =>
      rw [hexchanges] at hx
      exact absurd hx (hgone _)

section

variable {base : String} {w : World} (c : AlarmFetch) (h : w.Follows base)

include h

theorem step_cached (site url : String) (hurl : (c.after base w).alarmUrlCache site = some url) :
    lastAnswered (w.history ++ [c.visit base w]) site = some (.get url) := by
  rw [lastAnswered_snoc]
  by_cases hsite : c.site = site
  · subst hsite
    rw [if_pos (show (c.visit base w).site = c.site from rfl)]
    cases c.ends base w with
    | answered before path after alarms _ _ hend hexchanges =>
        rw [hend, ClientState.caching_self] at hurl
        obtain rfl := Option.some.inj hurl
        rw [hexchanges, List.foldl_append, later_missing]
        rfl
    | failed before path after e cached _ hresult _ _ hexchanges =>
        rw [hexchanges, List.foldl_append, later_missing]
        exact h.cached _ _ (AlarmFetch.raised hresult hurl)
    | missing msg hresult _ hexchanges =>
        rw [hexchanges, later_missing]
        exact h.cached _ _ (AlarmFetch.raised hresult hurl)
  · rw [if_neg (show (c.visit base w).site ≠ site from hsite)]
    rw [(c.others base w fun heq => hsite heq.symm).1] at hurl
    exact h.cached _ _ hurl

theorem step_flagged (site : String) :
    (c.after base w).legacyConfirmedUnavailable site = true ↔
      ∃ v ∈ w.history ++ [c.visit base w], v.site = site ∧ v.discovery = allGone base site := by
  have hsplit : (∃ v ∈ w.history ++ [c.visit base w],
      v.site = site ∧ v.discovery = allGone base site) ↔
      w.client.legacyConfirmedUnavailable site = true ∨
        (c.site = site ∧ (c.visit base w).discovery = allGone base site) := by
    rw [h.flagged site]
    simp only [List.mem_append, List.mem_singleton, or_and_right, exists_or, exists_eq_left]
    exact Iff.rfl
  rw [hsplit]
  by_cases hsite : c.site = site
  · subst hsite
    -- a visit that was decided by a path leaves the flag as it was
    have hdecided : ∀ {before : List (Request × Answer)} {last : Request × Answer},
        (c.visit base w).exchanges = before ++ [last] → last.2 ≠ .ok none →
        (c.after base w).legacyConfirmedUnavailable = w.client.legacyConfirmedUnavailable →
        ((c.after base w).legacyConfirmedUnavailable c.site = true ↔
          w.client.legacyConfirmedUnavailable c.site = true ∨
            (c.site = c.site ∧ (c.visit base w).discovery = allGone base c.site)) := by
      intro before last hexchanges hlast hkeep
      have hne := discovery_ne_allGone hexchanges hlast base c.site
      rw [hkeep, or_iff_left fun hnew => hne hnew.2]
    cases c.ends base w with
    | answered before path after alarms _ _ hend hexchanges =>
        exact hdecided hexchanges (by simp) (by rw [hend]; rfl)
    | failed before path after e cached _ _ _ hend hexchanges =>
        exact hdecided hexchanges (by simp) (by rw [hend]; rfl)
    | missing msg _ hend hexchanges =>
        refine iff_of_true (by rw [hend]; exact ClientState.confirmed_self ..) (Or.inr ⟨rfl, ?_⟩)
        unfold Visit.discovery candidates at *
        rw [hexchanges, List.map_append, List.drop_left' (by rw [List.length_map]; rfl)]
        rfl
  · rw [(c.others base w fun heq => hsite heq.symm).2, or_iff_left fun hnew => hsite hnew.1]

theorem follows_step : (w.step base c).Follows base where
  cached := step_cached c h
  flagged := step_flagged c h

end

/-! ## The contract of the cache -/

/-- What the next fetch does, whatever has been answered so far: which requests it sends,
how it ends, and what it leaves in the cache and in the flag. -/
structure AlarmFetch.Contract (base : String) (w : World) (c : AlarmFetch) : Prop where
  /-- A cached path that answers is the only request. -/
  hit : ∀ url alarms, w.client.alarmUrlCache c.site = some url →
    alarmAnswer (c.on base) c.site w.client.requests.length url = .ok (some alarms) →
    c.result base w = .ok alarms ∧ c.sent base w = [.get url]
  /-- Without a cached path the discovery caches the first one that answers. -/
  discovery : ∀ before path after alarms, w.client.alarmUrlCache c.site = none →
    alarmPaths base c.site = before ++ path :: after →
    AllMissing (c.on base) c.site w.client.requests.length before →
    alarmAnswer (c.on base) c.site (w.client.requests.length + before.length) path =
      .ok (some alarms) →
    c.result base w = .ok alarms ∧ (c.after base w).alarmUrlCache c.site = some path ∧
      c.sent base w = (before ++ [path]).map .get
  /-- One that is gone is replaced by the first path of the discovery that answers. -/
  rediscovery : ∀ url before path after alarms, w.client.alarmUrlCache c.site = some url →
    alarmAnswer (c.on base) c.site w.client.requests.length url = .ok none →
    alarmPaths base c.site = before ++ path :: after →
    AllMissing (c.on base) c.site (w.client.requests.length + 1) before →
    alarmAnswer (c.on base) c.site (w.client.requests.length + 1 + before.length) path =
      .ok (some alarms) →
    c.result base w = .ok alarms ∧ (c.after base w).alarmUrlCache c.site = some path ∧
      c.sent base w = (url :: before ++ [path]).map .get
  /-- A request that fails ends the fetch and sets no flag. -/
  failed : ∀ x e, x ∈ (c.visit base w).exchanges → x.2 = .error e →
    c.result base w = .error e ∧
      (c.after base w).legacyConfirmedUnavailable = w.client.legacyConfirmedUnavailable
  /-- A fetch that raises caches no path. -/
  raised : ∀ e, c.result base w = .error e → ∀ url,
    (c.after base w).alarmUrlCache c.site = some url → w.client.alarmUrlCache c.site = some url
  others : ∀ other, other ≠ c.site →
    (c.after base w).alarmUrlCache other = w.client.alarmUrlCache other ∧
      (c.after base w).legacyConfirmedUnavailable other =
        w.client.legacyConfirmedUnavailable other

theorem sent_of_after {base : String} {w : World} {c : AlarmFetch} {urls : List String}
    (h : (c.after base w).requests = w.client.requests ++ urls.map .get) :
    c.sent base w = urls.map .get := by
  unfold AlarmFetch.sent
  rw [h, List.drop_left]

theorem AlarmFetch.contract (base : String) (w : World) (c : AlarmFetch) : c.Contract base w where
  hit url alarms hcache hurl := by
    have hrun : fetchAlarms (c.on base) c.site w.client = _ := fetchAlarms_hit hcache hurl
    exact ⟨congrArg Prod.fst hrun, @sent_of_after base w c [url] (congrArg (·.2.requests) hrun)⟩
  discovery before path after alarms hcache hpaths hbefore hpath := by
    have hcandidates : candidates base c.site w.client = before ++ path :: after := by
      unfold candidates
      rw [hcache, hpaths]
      rfl
    have hrun := @fetchAlarms_answered (c.on base) c.site w.client before after path alarms
      hcandidates hbefore hpath
    have hafter : c.after base w = _ := congrArg Prod.snd hrun
    refine ⟨congrArg Prod.fst hrun, ?_, sent_of_after (by rw [hafter]; rfl)⟩
    rw [hafter]
    exact ClientState.caching_self ..
  rediscovery url before path after alarms hcache hurl hpaths hbefore hpath := by
    have hcandidates : candidates base c.site w.client = (url :: before) ++ path :: after := by
      unfold candidates
      rw [hcache, hpaths]
      rfl
    have hpath' : alarmAnswer (c.on base) c.site
        (w.client.requests.length + (url :: before).length) path = .ok (some alarms) := by
      rw [List.length_cons, Nat.add_comm before.length, ← Nat.add_assoc]
      exact hpath
    have hrun := @fetchAlarms_answered (c.on base) c.site w.client (url :: before) after path alarms
      hcandidates ⟨hurl, hbefore⟩ hpath'
    have hafter : c.after base w = _ := congrArg Prod.snd hrun
    refine ⟨congrArg Prod.fst hrun, ?_, sent_of_after (by rw [hafter]; rfl)⟩
    rw [hafter]
    exact ClientState.caching_self ..
  failed _ _ hx herror := AlarmFetch.request_failed hx herror
  raised _ hresult _ hurl := AlarmFetch.raised hresult hurl
  others _ hne := c.others base w hne

/-- After any sequence of fetches of any sites, whatever the requests ended in, the
cache and the flags are what the record says, and the next fetch keeps the contract. -/
theorem alarm_urls_follow_answers (base : String) (fetches : List AlarmFetch) :
    (Lib.run (World.step base) {} fetches).Follows base ∧
      ∀ c : AlarmFetch, c.Contract base (Lib.run (World.step base) {} fetches) := by
  have hstart : World.Follows base {} := by
    refine ⟨fun site url h => ?_, fun site => ?_⟩
    · cases h
    · exact iff_of_false Bool.noConfusion fun ⟨_, hv, _⟩ => nomatch hv
  exact ⟨Lib.run_preserves (fun w c hw => follows_step c hw) hstart fetches,
    fun c => c.contract base _⟩

/-- A controller with the second of the three paths. -/
def secondPathNet : Net where
  text := .counting fun _ => none
  base := ""
  now := 0
  respond _ request :=
    if request = .get "/proxy/network/api/s/default/alarm" then
      .response { status := 200, content := .value (.obj [("meta", .obj [("rc", .str "ok")])]) }
    else .response { status := 404, content := .empty }

/-- The first fetch discovers that path, and the second asks for it alone. -/
theorem alarm_urls_follow_answers_second :
    let c : AlarmFetch := ⟨secondPathNet, "default"⟩
    let w := Lib.run (World.step "") {} [c]
    c.sent "" {} = [.get "/proxy/network/api/s/default/list/alarm",
        .get "/proxy/network/api/s/default/alarm"] ∧
      c.sent "" w = [.get "/proxy/network/api/s/default/alarm"] := by
  intro c w
  have hfirst := ((alarm_urls_follow_answers "" []).2 c).discovery
    ["/proxy/network/api/s/default/list/alarm"] "/proxy/network/api/s/default/alarm"
    ["/proxy/network/api/s/default/stat/alarm"] [] rfl (by decide) ⟨rfl, trivial⟩ rfl
  have hsecond := ((alarm_urls_follow_answers "" [c]).2 c).hit
    "/proxy/network/api/s/default/alarm" [] hfirst.2.1 rfl
  exact ⟨hfirst.2.2, hsecond.2⟩

end UnifiAlerts
