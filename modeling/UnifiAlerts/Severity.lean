import UnifiAlerts.Const

/-!
# Severity normalisation and the minimum-severity gate

An alert's own severity is normalised to one of four ordered levels or
to `unknown`; a category's configured minimum is one of the four levels
or `noFilter`. `meetsMinimum` looks both up in the four-level order, and
the lookup of either sentinel would raise. `severityGate` is what the
lookups compute on the values the two normalisers produce
(`meetsMinimum_eq_gate`), so neither sentinel ever reaches them.

The minimum is a type with five values and the level of an alert a text,
as in the source, where one comes from a form and the other from the
controller. A stored minimum may be anything, and what it stands for is
decided by the two normalisers; so every stored map gives some gate, and
a category without an entry gets the one without a filter
(`getEffectiveMinSeverity_mem`).
-/

namespace UnifiAlerts

open Py

inductive MinimumSeverity
  | unknown
  | noFilter
  | low
  | medium
  | high
  | veryHigh
deriving Repr, DecidableEq

namespace MinimumSeverity

def text : MinimumSeverity → String
  | .unknown => "UNKNOWN"
  | .noFilter => "no_filter"
  | .low => "LOW"
  | .medium => "MEDIUM"
  | .high => "HIGH"
  | .veryHigh => "VERY_HIGH"

end MinimumSeverity

def severityOrder : List MinimumSeverity := [.low, .medium, .high, .veryHigh]

def minSeverityOrder : List MinimumSeverity := .noFilter :: severityOrder

def normalizeSeverity (raw : String) : MinimumSeverity :=
  let key := lower (strip raw)
  (severityOrder.find? fun level => lower level.text == key).getD .unknown

/-- `SEVERITY_ORDER.index(level)`. -/
def severityIndex (level : MinimumSeverity) : Except Exc Nat :=
  match severityOrder.findIdx? (· == level) with
  | some i => .ok i
  | none => .error .valueError

def meetsMinimum (severityLevel minimum : MinimumSeverity) : Except Exc Bool :=
  if minimum = .noFilter ∨ severityLevel = .unknown then .ok true
  else do
    let si ← severityIndex severityLevel
    let mi ← severityIndex minimum
    return decide (mi ≤ si)

/-- The configuration dictionary, `total=False`: an absent field is `none`. The
minimum-severity map is kept as stored. -/
structure UniFiClientConfig where
  controllerUrl : Option String := none
  apiKey : Option String := none
  verifySsl : Option Bool := none
  webhookSecret : Option String := none
  webhookIdSuffix : Option String := none
  enabledCategories : Option (List String) := none
  minSeverity : Option Json := none
  pollInterval : Option Int := none
  clearTimeout : Option Int := none
  site : Option String := none

def getEffectiveMinSeverity (config : UniFiClientConfig) (category : String) : MinimumSeverity :=
  let minSeverityMap : JsonObj := match config.minSeverity.getD (.obj []) with
    | .obj kvs => kvs
    | _ => []
  match minSeverityMap.getD category (.str MinimumSeverity.noFilter.text) with
  | .str resolved => (minSeverityOrder.find? fun level => level.text == resolved).getD .noFilter
  | _ => .noFilter

/-! ## The gate -/

/-- Position in the four-level order; the sentinels are below it. -/
def MinimumSeverity.rank : MinimumSeverity → Nat
  | .unknown => 0
  | .noFilter => 0
  | .low => 1
  | .medium => 2
  | .high => 3
  | .veryHigh => 4

def severityGate (config : UniFiClientConfig) (category : String) (severity : String) : Bool :=
  let level := normalizeSeverity severity
  decide (level = .unknown ∨ (getEffectiveMinSeverity config category).rank ≤ level.rank)

theorem normalizeSeverity_mem (raw : String) :
    normalizeSeverity raw = .unknown ∨ normalizeSeverity raw ∈ severityOrder := by
  unfold normalizeSeverity
  dsimp only
  cases h : severityOrder.find? fun level => lower level.text == lower (strip raw) with
  | none => exact Or.inl rfl
  | some level => exact Or.inr (List.mem_of_find?_eq_some h)

theorem getEffectiveMinSeverity_mem (config : UniFiClientConfig) (category : String) :
    getEffectiveMinSeverity config category ∈ minSeverityOrder := by
  unfold getEffectiveMinSeverity
  dsimp only
  split
  · rename_i resolved _
    cases h : minSeverityOrder.find? fun level => level.text == resolved with
    | none => simp [minSeverityOrder]
    | some level => exact List.mem_of_find?_eq_some h
  · simp [minSeverityOrder]

/-- On what the two normalisers produce, the comparison raises nothing and is
the gate. -/
theorem meetsMinimum_eq_gate (config : UniFiClientConfig) (category severity : String) :
    meetsMinimum (normalizeSeverity severity) (getEffectiveMinSeverity config category)
      = .ok (severityGate config category severity) := by
  have hlevel := normalizeSeverity_mem severity
  have hmin := getEffectiveMinSeverity_mem config category
  unfold severityGate
  revert hlevel hmin
  generalize normalizeSeverity severity = level
  generalize getEffectiveMinSeverity config category = minimum
  cases level <;> cases minimum <;> decide

end UnifiAlerts
