import UnifiAlerts.Lib.Py

/-!
# Constants and event-key classification

The categories, the two key tables, the enum fallback and the webhook
id, as the integration's `const` module has them. Table order is the
source's, since the prefix table is scanned in that order.

The lookup of a key goes through three stages, as `classify_event_key`
does: the exact table, the same table without a numeric suffix, and the
first prefix in table order (`classifyKey`); the broad enum comes last
(`classifyEventKey`). That the order of the prefix table decides nothing
is a fact about its entries and is proved in `EventKeys`.

A category is an enumeration here. `name` is the text that stands for it
in config entries, stored files and webhook ids, and `ofName?` reads it
back, so that a text which names no category is visible as such.
-/

namespace UnifiAlerts

open Py

/-! ## Settings -/

def defaultPollInterval : Int := 60
def defaultClearTimeout : Int := 30
def defaultSite : String := "default"
def webhookMaxBodyBytes : Nat := 8192

def issueIdAuthFailed : String := "auth_failed"
def issueIdApikeyMigration : String := "apikey_migration_required"
def issueIdWebhookSecretRotated : String := "webhook_secret_rotated"
def issueIdWebhookLegacyQueryAuth : String := "webhook_legacy_query_auth"

def webhookDedupWindowSeconds : ℚ := 5

def unifiOsNetworkPrefix : String := "/proxy/network"

def systemLogPageSize : Nat := 100
def maxSystemLogPages : Nat := 10
def defaultSystemLogLookbackHours : Int := 24

/-! ## Categories -/

inductive Category
  | networkDevice
  | networkWan
  | networkClient
  | securityThreat
  | securityHoneypot
  | securityFirewall
  | power
deriving Repr, DecidableEq

namespace Category

def name : Category → String
  | .networkDevice => "network_device"
  | .networkWan => "network_wan"
  | .networkClient => "network_client"
  | .securityThreat => "security_threat"
  | .securityHoneypot => "security_honeypot"
  | .securityFirewall => "security_firewall"
  | .power => "power"

end Category

def allCategories : List Category :=
  [.networkDevice, .networkWan, .networkClient, .securityThreat, .securityHoneypot,
   .securityFirewall, .power]

namespace Category

def ofName? (s : String) : Option Category := allCategories.find? fun c => c.name == s

theorem mem_all (c : Category) : c ∈ allCategories := by cases c <;> decide

theorem all_nodup : allCategories.Nodup := by decide

theorem name_injective : Function.Injective name := by
  intro c d h
  cases c <;> cases d <;> first | rfl | exact absurd h (by decide)

theorem name_ne_empty (c : Category) : c.name ≠ "" := by
  cases c <;> decide

@[simp] theorem ofName?_name (c : Category) : ofName? c.name = some c := by
  cases c <;> decide

theorem ofName?_eq_some {s : String} {c : Category} : ofName? s = some c ↔ c.name = s := by
  constructor
  · intro h
    simpa using List.find?_some h
  · rintro rfl
    exact ofName?_name c

end Category

/-! ## Event keys -/

def unifiKeyToCategory : List (String × Category) :=
  [("EVT_AP_Disconnected", .networkDevice), ("EVT_AP_Connected", .networkDevice),
   ("EVT_AP_Lost_Contact", .networkDevice), ("EVT_AP_Adopted", .networkDevice),
   ("EVT_AP_AutoReadopted", .networkDevice), ("EVT_AP_Restarted", .networkDevice),
   ("EVT_AP_Upgraded", .networkDevice), ("EVT_AP_UpgradeFailed", .networkDevice),
   ("EVT_AP_UpgradeScheduled", .networkDevice), ("EVT_AP_Isolated", .networkDevice),
   ("EVT_AP_Deleted", .networkDevice), ("EVT_SW_Disconnected", .networkDevice),
   ("EVT_SW_Connected", .networkDevice), ("EVT_SW_Lost_Contact", .networkDevice),
   ("EVT_SW_Adopted", .networkDevice), ("EVT_SW_AutoReadopted", .networkDevice),
   ("EVT_SW_Restarted", .networkDevice), ("EVT_SW_Upgraded", .networkDevice),
   ("EVT_SW_Deleted", .networkDevice), ("EVT_SW_StpPortBlocking", .networkDevice),
   ("EVT_GW_Disconnected", .networkDevice), ("EVT_GW_Connected", .networkDevice),
   ("EVT_GW_Lost_Contact", .networkDevice), ("EVT_GW_Adopted", .networkDevice),
   ("EVT_GW_AutoReadopted", .networkDevice), ("EVT_GW_Restarted", .networkDevice),
   ("EVT_GW_Upgraded", .networkDevice), ("EVT_GW_Deleted", .networkDevice),
   ("EVT_DM_Connected", .networkDevice), ("EVT_DM_Lost_Contact", .networkDevice),
   ("EVT_DM_Upgraded", .networkDevice), ("EVT_XG_AutoReadopted", .networkDevice),
   ("EVT_XG_Connected", .networkDevice), ("EVT_XG_Lost_Contact", .networkDevice),
   ("EVT_IPS_IDS_Disconnected", .networkDevice), ("EVT_GW_WANTransition", .networkWan),
   ("EVT_GW_Failover", .networkWan), ("EVT_GW_WAN_Transition", .networkWan),
   ("EVT_GW_Internet_Access", .networkWan), ("EVT_WU_Connected", .networkClient),
   ("EVT_WU_Disconnected", .networkClient), ("EVT_WU_Roam", .networkClient),
   ("EVT_WG_Connected", .networkClient), ("EVT_WG_Disconnected", .networkClient),
   ("EVT_WG_Roam", .networkClient), ("EVT_WG_AuthorizationEnded", .networkClient),
   ("EVT_LU_Connected", .networkClient), ("EVT_LU_Disconnected", .networkClient),
   ("EVT_LG_Connected", .networkClient), ("EVT_LG_Disconnected", .networkClient),
   ("EVT_IPS_ThreatDetected", .securityThreat), ("EVT_IPS_IpsAlert", .securityThreat),
   ("EVT_IDS_Alert", .securityThreat), ("EVT_GW_ThreatDetected", .securityThreat),
   ("EVT_AP_DetectRogueAP", .securityThreat), ("EVT_AP_RadarDetected", .securityThreat),
   ("EVT_SW_DetectRogueDHCP", .securityThreat), ("EVT_GW_Honeypot", .securityHoneypot),
   ("EVT_GW_HoneypotDetected", .securityHoneypot),
   ("EVT_GW_GeoIPFilteredTraffic", .securityFirewall),
   ("EVT_GW_TrafficRoute", .securityFirewall), ("EVT_GW_BlockedTraffic", .securityFirewall),
   ("EVT_LC_Blocked", .securityFirewall), ("EVT_WC_Blocked", .securityFirewall),
   ("EVT_SW_PoEDisconnect", .power), ("EVT_SW_PoeDisconnect", .power),
   ("EVT_SW_PoeOverload", .power), ("EVT_SW_Overheat", .power), ("EVT_AP_PowerCycled", .power),
   ("EVT_GW_PowerLoss", .power), ("EVT_XG_OutletPowerCycle", .power),
   ("EVT_USP_RpsPowerDeniedByPsuOverload", .power), ("EVT_UPS_", .power)]

def systemLogKeyToCategory : List (String × Category) :=
  [("THREAT_BLOCKED_KNOWN_DESTINATION_CLIENT", .securityThreat),
   ("THREAT_BLOCKED_KNOWN_SOURCE_IP", .securityThreat),
   ("THREAT_BLOCKED_KNOWN_DESTINATION_IP", .securityThreat), ("THREAT_BLOCKED", .securityThreat),
   ("THREAT_DETECTED", .securityThreat), ("IDS_ALERT", .securityThreat),
   ("IPS_ALERT", .securityThreat), ("GEO_IP_FILTERED", .securityFirewall),
   ("FIREWALL_BLOCK", .securityFirewall), ("CLIENT_BLOCKED", .securityFirewall),
   ("HONEYPOT_DETECTED", .securityHoneypot), ("HONEYPOT", .securityHoneypot),
   ("WAN_TRANSITION", .networkWan), ("WAN_FAILOVER", .networkWan),
   ("WAN_DISCONNECTED", .networkWan), ("WAN_CONNECTED", .networkWan),
   ("INTERNET_UNREACHABLE", .networkWan), ("INTERNET_RESTORED", .networkWan),
   ("DEVICE_DISCONNECTED", .networkDevice), ("DEVICE_CONNECTED", .networkDevice),
   ("DEVICE_LOST_CONTACT", .networkDevice), ("DEVICE_ADOPTED", .networkDevice),
   ("DEVICE_RESTARTED", .networkDevice), ("DEVICE_UPGRADED", .networkDevice),
   ("AP_DISCONNECTED", .networkDevice), ("AP_CONNECTED", .networkDevice),
   ("SWITCH_DISCONNECTED", .networkDevice), ("SWITCH_CONNECTED", .networkDevice),
   ("GATEWAY_DISCONNECTED", .networkDevice), ("GATEWAY_CONNECTED", .networkDevice),
   ("CLIENT_CONNECTED", .networkClient), ("CLIENT_DISCONNECTED", .networkClient),
   ("CLIENT_ROAMED", .networkClient), ("POE_OVERLOAD", .power), ("POE_DISCONNECT", .power),
   ("POWER_LOSS", .power), ("UPS_LOW_BATTERY", .power), ("DEVICE_OVERHEAT", .power)]

def systemLogCategoryFallback : List (String × Category) :=
  [("SECURITY", .securityThreat), ("INTERNET_AND_WAN", .networkWan),
   ("UNIFI_DEVICES", .networkDevice), ("CLIENT_DEVICES", .networkClient), ("POWER", .power),
   ("VPN", .networkWan), ("SOFTWARE_UPDATES", .networkDevice)]

/-- `re.sub(r"_\d+$", "", key)`. The `$` also matches before a final newline,
which the substitution keeps. -/
def stripNumericSuffix (key : String) : String :=
  let (body, newline) := match key.toList.reverse with
    | '\n' :: cs => (cs, ['\n'])
    | cs => (cs, [])
  match body.span fun c => (digitValue c).isSome with
  | (_ :: _, '_' :: rest) => String.ofList (rest.reverse ++ newline)
  | _ => key

/-- `classify_event_key(key)` for a string key, before the enum fallback. -/
def classifyKey (key : String) : Option Category :=
  match systemLogKeyToCategory.lookup key with
  | some c => some c
  | none =>
    let stripped := stripNumericSuffix key
    match if stripped != key then systemLogKeyToCategory.lookup stripped else none with
    | some c => some c
    | none => (unifiKeyToCategory.find? fun p => startsWith key p.1).map Prod.snd

/-- `SYSTEM_LOG_CATEGORY_FALLBACK.get(enum, "")`: an unhashable enum raises. -/
def classifyEnum : Json → Except Exc (Option Category)
  | .str s => .ok (systemLogCategoryFallback.lookup s)
  | v => if v.hashable then .ok none else .error .typeError

/-- `classify_event_key(key, v2_category_enum)`; `none` is the empty string. An
unhashable key fails the exact lookup and any other non-string key fails the
regular expression, both with TypeError. -/
def classifyEventKey (key : Json) (v2CategoryEnum : Json) :
    Except Exc (Option Category) :=
  match key with
  | .str k => match classifyKey k with
    | some c => .ok (some c)
    | none => classifyEnum v2CategoryEnum
  | _ => .error .typeError

end UnifiAlerts
