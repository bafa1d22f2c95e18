import UnifiAlerts.Lib.Dict
import UnifiAlerts.Models

/-!
# Migration of stored entries

`async_migrate_entry` walks an entry from its version to version 4, one
step after another on the entry it has just updated. Entry data of any
past release is a dictionary of JSON values. What each step does to one
key is said by its lookup lemma; `migratedValue` puts the three together.

A step acts on entries of its own version only and leaves the others as
they are (`migrateV2ToV3_of_ne` and its siblings), so an entry of any
version takes part from there on. A secret or a suffix that is stored
but empty counts as missing (`Blank`), as `not data.get(key)` tests it.

The random texts of `secrets` are an argument (`Tokens`). That makes the
migration a function, and lets migrating twice be compared with
migrating once.
-/

namespace UnifiAlerts

open Py Lib

def issueIdWebhookUrlsChanged : String := "webhook_urls_changed"

/-- What `secrets` returns during one migration. -/
structure Tokens where
  urlsafe : String
  hex : String

namespace Migration

structure Entry where
  entryId : String
  version : Nat
  data : JsonObj

/-- An entry, and the issues created on the way. -/
structure State where
  entry : Entry
  created : List String := []

/-- `async_update_entry`, in place; `none` keeps the data. -/
def updateEntry (s : State) (data : Option JsonObj) (version : Nat) : State :=
  { s with entry := { s.entry with data := data.getD s.entry.data, version } }

def migrateV1ToV2 (s : State) : State :=
  if s.entry.version = 1 then updateEntry s (some (Dict.pop s.entry.data "is_unifi_os")) 2 else s

/-- `if not data.get(key): data[key] = token`. -/
def backfill (data : JsonObj) (key token : String) : JsonObj :=
  if (data.get key).truthy then data else Dict.set data key (.str token)

def urlsChangedIssue (entryId : String) : String := issueIdWebhookUrlsChanged ++ "_" ++ entryId

def migrateV2ToV3 (tokens : Tokens) (s : State) : State :=
  if s.entry.version = 2 then
    let data := s.entry.data
    let secretMissing := !(data.get "webhook_secret").truthy
    let withSecret := backfill data "webhook_secret" tokens.urlsafe
    let suffixBackfilled := !(withSecret.get "webhook_id_suffix").truthy
    let newData := backfill withSecret "webhook_id_suffix" tokens.hex
    if secretMissing || suffixBackfilled then
      let s := updateEntry s (some newData) 3
      if suffixBackfilled then
        { s with created := s.created ++ [urlsChangedIssue s.entry.entryId] }
      else s
    else updateEntry s none 3
  else s

def legacyKeys : List String := ["username", "password", "auth_method"]

def migrateV3ToV4 (s : State) : State :=
  if s.entry.version = 3 then updateEntry s (some (legacyKeys.foldl Dict.pop s.entry.data)) 4 else s

def asyncMigrateEntry (tokens : Tokens) (s : State) : Bool × State :=
  (true, migrateV3ToV4 (migrateV2ToV3 tokens (migrateV1ToV2 s)))

/-! ## One key -/

/-- Missing, or empty as Python tests it. -/
def Blank (data : JsonObj) (key : String) : Prop := (data.get key).truthy = false

instance (data : JsonObj) (key : String) : Decidable (Blank data key) :=
  inferInstanceAs (Decidable (_ = _))

theorem lookup_backfill (data : JsonObj) (key token k : String) :
    (backfill data key token).lookup k =
      if k = key ∧ Blank data key then some (.str token) else data.lookup k := by
  unfold backfill Blank
  by_cases htruthy : (data.get key).truthy = true
  · simp [htruthy]
  · simp [htruthy, Dict.lookup_set]

theorem blank_congr {data data' : JsonObj} {key : String}
    (h : data.lookup key = data'.lookup key) : Blank data key ↔ Blank data' key := by
  unfold Blank JsonObj.get JsonObj.getD
  rw [h]

/-- What the migration of `entry` leaves under key `k`. -/
def migratedValue (tokens : Tokens) (entry : Entry) (k : String) : Option Json :=
  if k ∈ legacyKeys then none
  else if k = "is_unifi_os" ∧ entry.version = 1 then none
  else if k = "webhook_secret" ∧ entry.version ≤ 2 ∧ Blank entry.data k then
    some (.str tokens.urlsafe)
  else if k = "webhook_id_suffix" ∧ entry.version ≤ 2 ∧ Blank entry.data k then
    some (.str tokens.hex)
  else entry.data.lookup k

/-! ## The three steps -/

section

variable (tokens : Tokens) {s : State}

theorem migrateV1ToV2_of_ne (h : s.entry.version ≠ 1) : migrateV1ToV2 s = s := if_neg h

theorem migrateV2ToV3_of_ne (h : s.entry.version ≠ 2) : migrateV2ToV3 tokens s = s := if_neg h

theorem migrateV3ToV4_of_ne (h : s.entry.version ≠ 3) : migrateV3ToV4 s = s := if_neg h

theorem migrateV1ToV2_spec (h : s.entry.version = 1) :
    migrateV1ToV2 s = updateEntry s (some (Dict.pop s.entry.data "is_unifi_os")) 2 := if_pos h

theorem migrateV3ToV4_spec (h : s.entry.version = 3) :
    migrateV3ToV4 s = updateEntry s (some (legacyKeys.foldl Dict.pop s.entry.data)) 4 := if_pos h

/-- The secret does not matter to the suffix. -/
theorem blank_suffix (data : JsonObj) (token : String) :
    Blank (backfill data "webhook_secret" token) "webhook_id_suffix" ↔
      Blank data "webhook_id_suffix" :=
  blank_congr (by rw [lookup_backfill, if_neg (by simp)])

theorem migrateV2ToV3_spec (h : s.entry.version = 2) :
    let newData := backfill (backfill s.entry.data "webhook_secret" tokens.urlsafe)
      "webhook_id_suffix" tokens.hex
    migrateV2ToV3 tokens s = {
      entry := { s.entry with data := newData, version := 3 }
      created := s.created ++ if Blank s.entry.data "webhook_id_suffix" then
        [urlsChangedIssue s.entry.entryId] else [] } := by
  have hsuffix := blank_suffix s.entry.data tokens.urlsafe
  unfold migrateV2ToV3
  rw [if_pos h]
  dsimp only
  by_cases hblank : Blank s.entry.data "webhook_id_suffix"
  · have hmissing := hsuffix.mpr hblank
    unfold Blank at hmissing
    simp [hmissing, hblank, updateEntry]
  · have hkept : ((backfill s.entry.data "webhook_secret" tokens.urlsafe).get
        "webhook_id_suffix").truthy = true := by
      simpa [Blank] using mt hsuffix.mp hblank
    by_cases hsecret : (s.entry.data.get "webhook_secret").truthy = true
    · -- nothing was missing, and the data is not written
      have hsame : backfill s.entry.data "webhook_secret" tokens.urlsafe = s.entry.data :=
        if_pos hsecret
      rw [hsame] at hkept
      simp [hkept, hsecret, hblank, updateEntry, backfill]
    · simp [hkept, hsecret, hblank, updateEntry]

end

/-! ## The whole walk -/

/-- From version 2 the entry gets what is missing, and then loses the legacy keys. -/
theorem asyncMigrateEntry_of_two (tokens : Tokens) {s : State} (h : s.entry.version = 2) :
    asyncMigrateEntry tokens s = (true, {
      entry := { s.entry with
        data := legacyKeys.foldl Dict.pop (backfill (backfill s.entry.data "webhook_secret"
          tokens.urlsafe) "webhook_id_suffix" tokens.hex)
        version := 4 }
      created := s.created ++ if Blank s.entry.data "webhook_id_suffix" then
        [urlsChangedIssue s.entry.entryId] else [] }) := by
  unfold asyncMigrateEntry
  rw [migrateV1ToV2_of_ne (by omega), migrateV2ToV3_spec tokens h, migrateV3ToV4_spec rfl]
  rfl

theorem asyncMigrateEntry_of_one (tokens : Tokens) {s : State} (h : s.entry.version = 1) :
    asyncMigrateEntry tokens s =
      asyncMigrateEntry tokens (updateEntry s (some (Dict.pop s.entry.data "is_unifi_os")) 2) := by
  unfold asyncMigrateEntry
  rw [migrateV1ToV2_spec h, migrateV1ToV2_of_ne (by simp [updateEntry])]

theorem asyncMigrateEntry_of_three (tokens : Tokens) {s : State} (h : s.entry.version = 3) :
    asyncMigrateEntry tokens s =
      (true, updateEntry s (some (legacyKeys.foldl Dict.pop s.entry.data)) 4) := by
  unfold asyncMigrateEntry
  rw [migrateV1ToV2_of_ne (by omega), migrateV2ToV3_of_ne tokens (by omega), migrateV3ToV4_spec h]

theorem asyncMigrateEntry_of_four (tokens : Tokens) {s : State} (h : s.entry.version = 4) :
    asyncMigrateEntry tokens s = (true, s) := by
  unfold asyncMigrateEntry
  rw [migrateV1ToV2_of_ne (by omega), migrateV2ToV3_of_ne tokens (by omega),
    migrateV3ToV4_of_ne (by omega)]

theorem lookup_backfills (tokens : Tokens) (data : JsonObj) (k : String) :
    (backfill (backfill data "webhook_secret" tokens.urlsafe) "webhook_id_suffix"
        tokens.hex).lookup k =
      if k = "webhook_secret" ∧ Blank data k then some (.str tokens.urlsafe)
      else if k = "webhook_id_suffix" ∧ Blank data k then some (.str tokens.hex)
      else data.lookup k := by
  simp only [lookup_backfill, blank_suffix]
  by_cases hsuffix : k = "webhook_id_suffix"
  · subst hsuffix
    simp
  · by_cases hsecret : k = "webhook_secret"
    · subst hsecret
      simp
    · simp [hsuffix, hsecret]

/-- Every entry of version 1, 2 or 3 ends at version 4 with each key as
`migratedValue` says, the issue is created exactly for a new suffix, and a second
migration changes nothing. -/
theorem migration_preserves (tokens : Tokens) (entry : Entry) (created : List String)
    (hversion : entry.version = 1 ∨ entry.version = 2 ∨ entry.version = 3) :
    let s' := (asyncMigrateEntry tokens { entry, created }).2
    s'.entry.version = 4 ∧ s'.entry.entryId = entry.entryId ∧
    (∀ k, s'.entry.data.lookup k = migratedValue tokens entry k) ∧
    (s'.created = created ++
      if entry.version ≤ 2 ∧ Blank entry.data "webhook_id_suffix" then
        [urlsChangedIssue entry.entryId] else []) ∧
    ∀ tokens', asyncMigrateEntry tokens' s' = (true, s') := by
  intro s'
  suffices h : s'.entry.version = 4 ∧ s'.entry.entryId = entry.entryId ∧
      (∀ k, s'.entry.data.lookup k = migratedValue tokens entry k) ∧
      s'.created = created ++
        if entry.version ≤ 2 ∧ Blank entry.data "webhook_id_suffix" then
          [urlsChangedIssue entry.entryId] else [] from
    ⟨h.1, h.2.1, h.2.2.1, h.2.2.2, fun tokens' => asyncMigrateEntry_of_four tokens' h.1⟩
  rcases hversion with h | h | h
  · have hother : ∀ k, k ≠ "is_unifi_os" →
        (Dict.pop entry.data "is_unifi_os").lookup k = entry.data.lookup k := fun k hk => by
      rw [Dict.lookup_pop, if_neg (by simpa using hk)]
    have hrun : s' = _ := congrArg Prod.snd ((asyncMigrateEntry_of_one tokens h).trans
      (asyncMigrateEntry_of_two tokens rfl))
    rw [hrun]
    refine ⟨rfl, rfl, fun k => ?_, ?_⟩
    · simp only [updateEntry, Option.getD_some, Dict.lookup_pops, lookup_backfills]
      unfold migratedValue
      by_cases hk : k = "is_unifi_os"
      · subst hk
        simp [h, legacyKeys, Dict.lookup_pop]
      · simp [h, hk, hother k hk, blank_congr (hother k hk)]
    · simp [updateEntry, h, blank_congr (hother "webhook_id_suffix" (by decide))]
  · have hrun : s' = _ := congrArg Prod.snd (asyncMigrateEntry_of_two tokens h)
    rw [hrun]
    refine ⟨rfl, rfl, fun k => ?_, by simp [h]⟩
    simp only [Dict.lookup_pops, lookup_backfills]
    simp [migratedValue, h]
  · have hrun : s' = _ := congrArg Prod.snd (asyncMigrateEntry_of_three tokens h)
    rw [hrun]
    refine ⟨rfl, rfl, fun k => ?_, by simp [h, updateEntry]⟩
    simp [updateEntry, Dict.lookup_pops, migratedValue, h]

def oldestEntry : Entry where
  entryId := "e1"
  version := 1
  data := [("is_unifi_os", .bool true), ("username", .str "admin"), ("api_key", .str "k"),
    ("webhook_secret", .str "")]

def someTokens : Tokens where
  urlsafe := "fresh"
  hex := "c0ffee"

theorem migration_preserves_oldest :
    let s' := (asyncMigrateEntry someTokens { entry := oldestEntry }).2
    s'.entry.version = 4 ∧ s'.entry.data.lookup "is_unifi_os" = none ∧
      s'.entry.data.lookup "username" = none ∧ s'.entry.data.lookup "api_key" = some (.str "k") ∧
      s'.entry.data.lookup "webhook_secret" = some (.str "fresh") ∧
      s'.created = ["webhook_urls_changed_e1"] := by
  obtain ⟨hversion, -, hdata, hcreated, -⟩ :=
    migration_preserves someTokens oldestEntry [] (Or.inl rfl)
  refine ⟨hversion, ?_, ?_, ?_, ?_, ?_⟩
  · rw [hdata]
    rfl
  · rw [hdata]
    rfl
  · rw [hdata]
    rfl
  · rw [hdata]
    rfl
  · rw [hcreated]
    decide

end Migration

end UnifiAlerts
