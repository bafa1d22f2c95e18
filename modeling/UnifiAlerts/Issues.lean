import UnifiAlerts.FlowWrites
import UnifiAlerts.Lib.History
import UnifiAlerts.Lib.Words
import UnifiAlerts.Migration
import UnifiAlerts.Webhook

/-!
# The repair issues and their history

The issue registry is one for all the entries of the integration. An issue id is a base
and an entry id with an underscore between them, and both may contain
underscores; no base is the start of another (`issueId_inj`), so what is
raised or cleared for one entry is never that of another.

Five places of the code raise or clear issues: the flows, the migration,
the webhook handlers, the awaited write of the store and the removal of
an entry. They interleave in any way. An issue stands exactly when it
has been raised and not cleared since (`issues_follow_history`), with
`RaisesIssue` and `ClearsIssue` the events that do so for each base.

What an event does to the registry is computed from it and the state
before it (`calls`), in the order of the source, and no event both
raises and clears one issue (`calls_once`). So each id is a switch, and
the history of a switch is a lemma of `Lib.History`. `RaisesIssue` and
`ClearsIssue` are given by causes, not by calls: a reauthentication
begins or succeeds, the options flow stores another secret, an entry
without a suffix is migrated, a webhook is delivered with the old or the
new kind of token, an awaited write fails or succeeds, an entry is
removed.
-/

namespace UnifiAlerts

open Py Lib ConfigFlow

def issueIdPersistFailed : String := "watermark_persist_failed"

/-- `f"{issue_id_base}_{entry_id}"`. -/
def issueId (base entryId : String) : String := base ++ "_" ++ entryId

/-- Those that the removal of an entry deletes. -/
def issueBases : List String :=
  [issueIdAuthFailed, issueIdWebhookSecretRotated, issueIdWebhookUrlsChanged,
    issueIdPersistFailed, issueIdApikeyMigration, issueIdWebhookLegacyQueryAuth]

theorem issueBases_prefixFree : PrefixFree '_' (issueBases.map String.toList) := by
  decide +kernel

theorem issueId_inj {base base' i i' : String} (hbase : base ∈ issueBases)
    (hbase' : base' ∈ issueBases) (heq : issueId base i = issueId base' i') :
    base = base' ∧ i = i' := by
  have hlist : base.toList ++ '_' :: i.toList = base'.toList ++ '_' :: i'.toList := by
    have := congrArg String.toList heq
    simpa [issueId, String.toList_append] using this
  have h := issueBases_prefixFree.eq_of_append (List.mem_map_of_mem hbase)
    (List.mem_map_of_mem hbase') hlist
  exact ⟨String.toList_inj.mp h.1, String.toList_inj.mp h.2⟩

/-! ## Events -/

/-- What calls the issue registry. -/
inductive RepairEvent
  | flow (event : FlowEvent)
  | migrate (entry : Migration.Entry) (tokens : Tokens)
  | webhook (handler : Handler) (now : Instant) (request : WebhookRequest) (raw : List UInt8)
  | persist (entryId : String) (saves : Bool)
  | remove (entryId : Nat)

/-- The call as the handlers make it. -/
def IssueCall.registry : IssueCall → ConfigFlow.IssueCall
  | .create id => .create id
  | .delete id => .delete id

deriving instance DecidableEq for ConfigFlow.IssueCall

namespace RepairEvent

/-- `_async_persist_watermarks` deletes the issue in its `else` branch. -/
def persistCall (entryId : String) (saves : Bool) : ConfigFlow.IssueCall :=
  if saves then .delete (issueId issueIdPersistFailed entryId)
  else .create (issueId issueIdPersistFailed entryId)

def calls (urls : Urls) (h : Hass) : RepairEvent → List ConfigFlow.IssueCall
  | .flow event => ((h.react urls event).map (·.issues)).getD []
  | .migrate entry tokens =>
    (Migration.asyncMigrateEntry tokens { entry }).2.created.map .create
  | .webhook handler now request raw =>
    (handler.handleWebhook now request raw).issues.map IssueCall.registry
  | .persist entryId saves => [persistCall entryId saves]
  | .remove entryId => issueBases.map fun base => .delete (issueId base (toString entryId))

def step (urls : Urls) (h : Hass) (e : RepairEvent) : Hass :=
  match e with
  | .flow event => h.step urls event
  | .remove entryId => { h with
      entries := h.entries.filter (·.entryId != entryId)
      issues := (e.calls urls h).foldl Hass.callIssue h.issues }
  | _ => { h with issues := (e.calls urls h).foldl Hass.callIssue h.issues }

theorem step_issues (urls : Urls) (h : Hass) (e : RepairEvent) :
    (step urls h e).issues = (e.calls urls h).foldl Hass.callIssue h.issues := by
  cases e with
  | flow event =>
      simp only [step, calls, Hass.step]
      cases h.react urls event <;> rfl
  | _ => rfl

end RepairEvent

/-! ## What the calls leave -/

theorem mem_callIssue {id : String} {issues : List String} {call : ConfigFlow.IssueCall} :
    id ∈ Hass.callIssue issues call ↔ call = .create id ∨ id ∈ issues ∧ call ≠ .delete id := by
  cases call with
  | create id' =>
      simp only [Hass.callIssue]
      split
      · rename_i hmem
        constructor
        · exact fun h => Or.inr ⟨h, fun heq => nomatch heq⟩
        · rintro (heq | ⟨h, -⟩)
          · exact ConfigFlow.IssueCall.create.inj heq ▸ by simpa using hmem
          · exact h
      · rw [List.mem_append, List.mem_singleton]
        constructor
        · rintro (h | rfl)
          · exact Or.inr ⟨h, fun heq => nomatch heq⟩
          · exact Or.inl rfl
        · rintro (heq | ⟨h, -⟩)
          · exact Or.inr (ConfigFlow.IssueCall.create.inj heq).symm
          · exact Or.inl h
  | delete id' =>
      rw [Hass.callIssue, List.mem_filter, bne_iff_ne, or_iff_right fun heq => nomatch heq]
      exact and_congr_right fun _ =>
        ⟨fun hne heq => hne (ConfigFlow.IssueCall.delete.inj heq).symm,
          fun hne heq => hne (heq ▸ rfl)⟩

/-- Calls that do not both create and delete an issue. -/
theorem mem_foldl_callIssue {id : String} :
    ∀ {calls : List ConfigFlow.IssueCall} {issues : List String},
      ¬(.create id ∈ calls ∧ .delete id ∈ calls) →
        (id ∈ calls.foldl Hass.callIssue issues ↔
          .create id ∈ calls ∨ id ∈ issues ∧ .delete id ∉ calls)
  | [], _, _ => by simp
  | call :: calls, issues, honce => by
      have htail : ¬(.create id ∈ calls ∧ .delete id ∈ calls) := fun h =>
        honce ⟨List.mem_cons_of_mem call h.1, List.mem_cons_of_mem call h.2⟩
      rw [List.foldl_cons, mem_foldl_callIssue htail, mem_callIssue, List.mem_cons,
        List.mem_cons, not_or, eq_comm (a := ConfigFlow.IssueCall.create id),
        eq_comm (a := ConfigFlow.IssueCall.delete id)]
      have hnow : call = .create id → .delete id ∉ calls := fun hcall hdelete =>
        honce ⟨List.mem_cons.mpr (Or.inl hcall.symm), List.mem_cons_of_mem call hdelete⟩
      tauto

/-! ## Who raises and who clears -/

/-- A reauth flow of the entry begins. -/
def ReauthBegins (h : Hass) (event : FlowEvent) (entry : ConfigEntry) : Prop :=
  ∃ id entryId, event = .start id (.reauth entryId) ∧ h.flows id = none ∧
    h.findEntry entryId = some entry

/-- The key that a reauth flow of the entry got is accepted. -/
def ReauthSucceeds (h : Hass) (event : FlowEvent) (entry : ConfigEntry) : Prop :=
  ∃ id flow url apiKey net secret suffix, event = .take id (.answer net secret suffix) ∧
    h.flows id = some (.reauth flow) ∧ flow.step = .checking url apiKey ∧
    h.findEntry flow.entryId = some entry ∧
    (authenticate { net with base := rstripSlash url } apiKey {}).1 = .ok ()

/-- An options flow of the entry ends with another secret staged. -/
def SecretRotates (h : Hass) (event : FlowEvent) (entry : ConfigEntry) : Prop :=
  ∃ id flow pending, event = .take id .finish ∧ h.flows id = some (.options flow) ∧
    flow.step = .finish ∧ flow.pendingData = some pending ∧
    h.findEntry flow.entryId = some entry ∧
    pending.webhookSecret ≠ "" ∧ pending.webhookSecret ≠ entry.data.webhookSecret

/-- The request is let in, its body is a JSON object, and the push callback raises nothing
on its alert. -/
def Handler.Delivers (handler : Handler) (now : Instant) (request : WebhookRequest)
    (raw : List UInt8) (headerAuthorized : Bool) : Prop :=
  handler.Authorised request headerAuthorized ∧
    ∃ kvs, decodeBody handler.loads raw = .payload (.obj kvs) ∧ handler.Accepts now kvs

/-- The event raises the issue of the base for the entry. -/
inductive RaisesIssue (h : Hass) : RepairEvent → String → String → Prop
  | authFailed {event entry} : ReauthBegins h event entry → entry.data.apiKey ≠ "" →
      RaisesIssue h (.flow event) issueIdAuthFailed (toString entry.entryId)
  | apikeyMigration {event entry} : ReauthBegins h event entry → entry.data.apiKey = "" →
      RaisesIssue h (.flow event) issueIdApikeyMigration (toString entry.entryId)
  | secretRotated {event entry} : SecretRotates h event entry →
      RaisesIssue h (.flow event) issueIdWebhookSecretRotated (toString entry.entryId)
  | urlsChanged {entry tokens} : entry.version = 1 ∨ entry.version = 2 →
      Migration.Blank entry.data "webhook_id_suffix" →
      RaisesIssue h (.migrate entry tokens) issueIdWebhookUrlsChanged entry.entryId
  | legacyQueryAuth {handler now request raw} : handler.Delivers now request raw false →
      RaisesIssue h (.webhook handler now request raw) issueIdWebhookLegacyQueryAuth handler.entryId
  | persistFailed {entryId} : RaisesIssue h (.persist entryId false) issueIdPersistFailed entryId

/-- The event clears the issue of the base for the entry. -/
inductive ClearsIssue (h : Hass) : RepairEvent → String → String → Prop
  | authFailed {event entry} : ReauthSucceeds h event entry →
      ClearsIssue h (.flow event) issueIdAuthFailed (toString entry.entryId)
  | apikeyMigration {event entry} : ReauthSucceeds h event entry →
      ClearsIssue h (.flow event) issueIdApikeyMigration (toString entry.entryId)
  | secretRotated {handler now request raw headerAuthorized} :
      handler.Delivers now request raw headerAuthorized →
      ClearsIssue h (.webhook handler now request raw) issueIdWebhookSecretRotated handler.entryId
  | legacyQueryAuth {handler now request raw} : handler.Delivers now request raw true →
      ClearsIssue h (.webhook handler now request raw) issueIdWebhookLegacyQueryAuth handler.entryId
  | persistFailed {entryId} : ClearsIssue h (.persist entryId true) issueIdPersistFailed entryId
  | removed {entryId base} : base ∈ issueBases →
      ClearsIssue h (.remove entryId) base (toString entryId)

/-! ## The calls of each event -/

section

variable {urls : Urls} {h : Hass} {event : FlowEvent} {call : ConfigFlow.IssueCall}

theorem react_reauthBegins {entry : ConfigEntry} (hbegins : ReauthBegins h event entry) :
    h.react urls event = some (ReauthFlow.start entry) := by
  obtain ⟨id, entryId, rfl, hfree, hentry⟩ := hbegins
  simp [Hass.react, hfree, Hass.start, hentry]

theorem react_reauthSucceeds {entry : ConfigEntry} (hsucceeds : ReauthSucceeds h event entry) :
    ∃ outcome, h.react urls event = some outcome ∧ outcome.issues =
      [.delete (ReauthFlow.authFailedIssue entry.entryId),
        .delete (ReauthFlow.apikeyMigrationIssue entry.entryId)] := by
  obtain ⟨id, flow, url, apiKey, net, secret, suffix, rfl, hflow, hstep, hentry, hok⟩ := hsucceeds
  refine ⟨flow.checked entry url apiKey net, ?_, ?_⟩
  · simp [Hass.react, hflow, Hass.take, hentry, ReauthFlow.take, hstep]
  · simp [ReauthFlow.checked, hok]

theorem react_secretRotates {entry : ConfigEntry} (hrotates : SecretRotates h event entry) :
    ∃ outcome, h.react urls event = some outcome ∧
      outcome.issues = [.create (OptionsFlow.rotatedIssue entry.entryId)] := by
  obtain ⟨id, flow, pending, rfl, hflow, hstep, hpending, hentry, hsome, hother⟩ := hrotates
  refine ⟨flow.submitFinish entry, options_finish_react hflow hstep hentry, ?_⟩
  simp [OptionsFlow.submitFinish, hpending, hsome, hother]

theorem options_issues {flow : OptionsFlow} {entry : ConfigEntry} {id : Nat}
    {input : ConfigFlow.Input}
    {outcome : ConfigFlow.Outcome} (hflow : h.flows id = some (.options flow))
    (hentry : h.findEntry flow.entryId = some entry)
    (htake : flow.take urls h entry input = some outcome) (hcall : call ∈ outcome.issues) :
    SecretRotates h (.take id input) entry ∧
      call = .create (OptionsFlow.rotatedIssue entry.entryId) := by
  unfold OptionsFlow.take at htake
  split at htake
  · obtain rfl := Option.some.inj htake
    cases hcall
  · obtain rfl := Option.some.inj htake
    cases hcall
  · obtain rfl := Option.some.inj htake
    cases hcall
  · obtain rfl := Option.some.inj htake
    cases hcall
  · rename_i hstep
    obtain rfl := Option.some.inj htake
    unfold OptionsFlow.submitFinish at hcall
    split at hcall
    · cases hcall
    · rename_i pending hpending
      dsimp only at hcall
      split at hcall
      · rename_i hrotated
        exact ⟨⟨id, flow, pending, rfl, hflow, hstep, hpending, hentry, hrotated⟩,
          List.mem_singleton.mp hcall⟩
      · cases hcall
  · cases htake

theorem reauth_issues {flow : ReauthFlow} {entry : ConfigEntry} {id : Nat}
    {input : ConfigFlow.Input}
    {outcome : ConfigFlow.Outcome} (hflow : h.flows id = some (.reauth flow))
    (hentry : h.findEntry flow.entryId = some entry) (htake : flow.take entry input = some outcome)
    (hcall : call ∈ outcome.issues) :
    ReauthSucceeds h (.take id input) entry ∧
      (call = .delete (ReauthFlow.authFailedIssue entry.entryId) ∨
        call = .delete (ReauthFlow.apikeyMigrationIssue entry.entryId)) := by
  unfold ReauthFlow.take at htake
  split at htake
  · obtain rfl := Option.some.inj htake
    cases hcall
  · rename_i url apiKey net secret suffix hstep
    obtain rfl := Option.some.inj htake
    unfold ReauthFlow.checked at hcall
    split at hcall
    · cases hcall
    · rename_i hok
      exact ⟨⟨id, flow, url, apiKey, net, secret, suffix, rfl, hflow, hstep, hentry, hok⟩,
        by simpa using hcall⟩
  · cases htake

theorem setup_issues {flow : SetupFlow} {input : ConfigFlow.Input} {outcome : ConfigFlow.Outcome}
    (htake : flow.take urls h input = some outcome) : outcome.issues = [] := by
  unfold SetupFlow.take at htake
  split at htake
  · obtain rfl := Option.some.inj htake
    unfold SetupFlow.submitUser
    dsimp only
    split <;> first | rfl | (split <;> rfl)
  · exact Option.some.inj htake ▸ rfl
  · exact Option.some.inj htake ▸ rfl
  · exact Option.some.inj htake ▸ rfl
  · exact Option.some.inj htake ▸ rfl
  · cases htake

theorem reconfigure_issues {flow : ReconfigureFlow} {entry : ConfigEntry} {input : ConfigFlow.Input}
    {outcome : ConfigFlow.Outcome} (htake : flow.take urls h entry input = some outcome) :
    outcome.issues = [] := by
  unfold ReconfigureFlow.take at htake
  split at htake
  · obtain rfl := Option.some.inj htake
    unfold ReconfigureFlow.submit
    dsimp only
    split
    · rfl
    · split
      · rfl
      · split <;> rfl
  · obtain rfl := Option.some.inj htake
    unfold ReconfigureFlow.checked
    dsimp only
    split
    · rfl
    · split <;> rfl
  · cases htake

theorem ssdp_issues (h : Hass) (host : Option ConfigFlow.Host) (serial : Option String) :
    (ssdp h host serial).issues = [] := by
  unfold ssdp
  split
  · rfl
  · dsimp only
    split
    · rfl
    · split
      · rfl
      · split <;> rfl

theorem start_issues {id : Nat} {kind : Start} {outcome : ConfigFlow.Outcome}
    (hfree : h.flows id = none) (hstart : h.start kind = some outcome)
    (hcall : call ∈ outcome.issues) :
    ∃ entry, ReauthBegins h (.start id kind) entry ∧ call ∈ (ReauthFlow.start entry).issues := by
  cases kind with
  | user =>
      obtain rfl := Option.some.inj hstart
      cases hcall
  | ssdp host serial =>
      obtain rfl := Option.some.inj hstart
      rw [ssdp_issues] at hcall
      cases hcall
  | options entryId =>
      obtain ⟨entry, -, rfl⟩ := Option.map_eq_some_iff.mp hstart
      cases hcall
  | reconfigure entryId =>
      obtain ⟨entry, -, rfl⟩ := Option.map_eq_some_iff.mp hstart
      cases hcall
  | reauth entryId =>
      obtain ⟨entry, hentry, rfl⟩ := Option.map_eq_some_iff.mp hstart
      exact ⟨entry, ⟨id, entryId, rfl, hfree, hentry⟩, hcall⟩

theorem calls_of_react {outcome : ConfigFlow.Outcome} (hreact : h.react urls event = some outcome) :
    RepairEvent.calls urls h (.flow event) = outcome.issues := by
  show ((h.react urls event).map (·.issues)).getD [] = _
  rw [hreact]
  rfl

/-- The flows call the registry when a reauth flow begins or succeeds, and when an options
flow rotates the secret. -/
theorem mem_flow_calls : call ∈ RepairEvent.calls urls h (.flow event) ↔
    (∃ entry, ReauthBegins h event entry ∧ call ∈ (ReauthFlow.start entry).issues) ∨
    (∃ entry, SecretRotates h event entry ∧
      call = .create (OptionsFlow.rotatedIssue entry.entryId)) ∨
    ∃ entry, ReauthSucceeds h event entry ∧
      (call = .delete (ReauthFlow.authFailedIssue entry.entryId) ∨
        call = .delete (ReauthFlow.apikeyMigrationIssue entry.entryId)) := by
  constructor
  · intro hcall
    cases hreact : h.react urls event with
    | none =>
        have hnone : RepairEvent.calls urls h (.flow event) = [] := by
          show ((h.react urls event).map (·.issues)).getD [] = _
          rw [hreact]
          rfl
        rw [hnone] at hcall
        cases hcall
    | some outcome =>
        rw [calls_of_react hreact] at hcall
        cases reacts_of_react hreact with
        | started hstart =>
            rename_i id kind
            have hfree : h.flows id = none := by
              unfold Hass.react at hreact
              dsimp only at hreact
              split at hreact
              · cases hreact
              · rename_i hfree
                simpa using hfree
            exact Or.inl (start_issues hfree hstart hcall)
        | setup hflow htake =>
            rw [setup_issues htake] at hcall
            cases hcall
        | options hflow hentry htake =>
            exact Or.inr (Or.inl ⟨_, options_issues hflow hentry htake hcall⟩)
        | reconfigure hflow hentry htake =>
            rw [reconfigure_issues htake] at hcall
            cases hcall
        | reauth hflow hentry htake =>
            exact Or.inr (Or.inr ⟨_, reauth_issues hflow hentry htake hcall⟩)
        | abandoned => cases hcall
  · rintro (⟨entry, hbegins, hcall⟩ | ⟨entry, hrotates, rfl⟩ | ⟨entry, hsucceeds, hcall⟩)
    · rw [calls_of_react (react_reauthBegins hbegins)]
      exact hcall
    · obtain ⟨outcome, hreact, hissues⟩ := @react_secretRotates urls _ _ _ hrotates
      rw [calls_of_react hreact, hissues]
      exact List.mem_singleton.mpr rfl
    · obtain ⟨outcome, hreact, hissues⟩ := @react_reauthSucceeds urls _ _ _ hsucceeds
      rw [calls_of_react hreact, hissues]
      simpa using hcall

theorem mem_migrate_calls {entry : Migration.Entry} {tokens : Tokens} :
    call ∈ RepairEvent.calls urls h (.migrate entry tokens) ↔
      (entry.version = 1 ∨ entry.version = 2) ∧ Migration.Blank entry.data "webhook_id_suffix" ∧
        call = .create (Migration.urlsChangedIssue entry.entryId) := by
  have hcreated : (Migration.asyncMigrateEntry tokens { entry }).2.created =
      if (entry.version = 1 ∨ entry.version = 2) ∧
          Migration.Blank entry.data "webhook_id_suffix" then
        [Migration.urlsChangedIssue entry.entryId]
      else [] := by
    by_cases hone : entry.version = 1
    · have hpop : Migration.Blank (Dict.pop entry.data "is_unifi_os") "webhook_id_suffix" ↔
          Migration.Blank entry.data "webhook_id_suffix" :=
        Migration.blank_congr (by simp [Dict.lookup_pop])
      rw [Migration.asyncMigrateEntry_of_one tokens hone, Migration.asyncMigrateEntry_of_two _ rfl]
      simp [Migration.updateEntry, hone, hpop]
    · by_cases htwo : entry.version = 2
      · rw [Migration.asyncMigrateEntry_of_two _ htwo]
        simp [htwo]
      · rw [if_neg fun hold => hold.1.elim hone htwo]
        by_cases hthree : entry.version = 3
        · rw [Migration.asyncMigrateEntry_of_three _ hthree]
          rfl
        · unfold Migration.asyncMigrateEntry
          rw [Migration.migrateV1ToV2_of_ne hone, Migration.migrateV2ToV3_of_ne tokens htwo,
            Migration.migrateV3ToV4_of_ne hthree]
  show call ∈ List.map _ _ ↔ _
  rw [hcreated]
  split
  · rename_i hold
    simp [hold]
  · rename_i hold
    simp only [List.map_nil, List.not_mem_nil, false_iff]
    exact fun hnew => hold ⟨hnew.1, hnew.2.1⟩

theorem mem_webhook_calls {handler : Handler} {now : Instant} {request : WebhookRequest}
    {raw : List UInt8} : call ∈ RepairEvent.calls urls h (.webhook handler now request raw) ↔
      ∃ headerAuthorized, handler.Delivers now request raw headerAuthorized ∧
        call ∈ (handler.issueCalls headerAuthorized).map IssueCall.registry := by
  show call ∈ (handler.handleWebhook now request raw).issues.map IssueCall.registry ↔ _
  constructor
  · intro hcall
    unfold Handler.handleWebhook at hcall
    split at hcall
    · cases hcall
    · rename_i hsecret
      split at hcall
      · cases hcall
      · rename_i headerAuthorized queryAuthorized hok
        split at hcall
        · cases hcall
        · rename_i hor
          have hauth : handler.Authorised request headerAuthorized :=
            ⟨hsecret, queryAuthorized, hok, by
              cases headerAuthorized <;> cases queryAuthorized <;> simp_all⟩
          unfold Handler.deliver at hcall
          split at hcall
          · cases hcall
          · cases hcall
          · cases hcall
          · rename_i v hbody
            split at hcall
            · cases hcall
            · rename_i alert halert
              obtain ⟨kvs, rfl⟩ := Handler.alertOf_ok_iff.mp ⟨alert, halert⟩
              split at hcall
              · cases hcall
              · rename_i hpush
                refine ⟨headerAuthorized, ⟨hauth, kvs, hbody, fun alert' halert' => ?_⟩, hcall⟩
                obtain rfl := Except.ok.inj (halert.symm.trans halert')
                exact hpush
  · rintro ⟨headerAuthorized, ⟨hauth, kvs, hbody, haccepts⟩, hcall⟩
    rw [Handler.handleWebhook_authorised hauth, hbody,
      (Handler.deliver_obj haccepts headerAuthorized).2.2]
    exact hcall

end

/-! ## What one event does to one issue -/

section

variable {urls : Urls} {h : Hass} {e : RepairEvent} {base base' i i' : String}

theorem RaisesIssue.mem_bases (hraises : RaisesIssue h e base i) : base ∈ issueBases := by
  cases hraises <;> decide

theorem ClearsIssue.mem_bases (hclears : ClearsIssue h e base i) : base ∈ issueBases := by
  cases hclears with
  | removed hbase => exact hbase
  | _ => decide

theorem RaisesIssue.of_id (hraises : RaisesIssue h e base' i') (hbase : base ∈ issueBases)
    (heq : issueId base i = issueId base' i') : RaisesIssue h e base i := by
  obtain ⟨rfl, rfl⟩ := issueId_inj hbase hraises.mem_bases heq
  exact hraises

theorem ClearsIssue.of_id (hclears : ClearsIssue h e base' i') (hbase : base ∈ issueBases)
    (heq : issueId base i = issueId base' i') : ClearsIssue h e base i := by
  obtain ⟨rfl, rfl⟩ := issueId_inj hbase hclears.mem_bases heq
  exact hclears

theorem authFailedIssue_eq (n : Nat) :
    ReauthFlow.authFailedIssue n = issueId issueIdAuthFailed (toString n) := rfl

theorem apikeyMigrationIssue_eq (n : Nat) :
    ReauthFlow.apikeyMigrationIssue n = issueId issueIdApikeyMigration (toString n) := rfl

theorem mem_issueCalls_create {handler : Handler} {headerAuthorized : Bool} {id : String} :
    .create id ∈ (handler.issueCalls headerAuthorized).map IssueCall.registry ↔
      headerAuthorized = false ∧ id = issueId issueIdWebhookLegacyQueryAuth handler.entryId := by
  cases headerAuthorized <;>
    simp [Handler.issueCalls, IssueCall.registry, Handler.legacyIssue, issueId]

theorem mem_issueCalls_delete {handler : Handler} {headerAuthorized : Bool} {id : String} :
    .delete id ∈ (handler.issueCalls headerAuthorized).map IssueCall.registry ↔
      id = issueId issueIdWebhookSecretRotated handler.entryId ∨
        headerAuthorized = true ∧ id = issueId issueIdWebhookLegacyQueryAuth handler.entryId := by
  cases headerAuthorized <;>
    simp [Handler.issueCalls, IssueCall.registry, Handler.legacyIssue,
      Handler.rotatedIssue, issueId]

theorem create_mem_calls (hbase : base ∈ issueBases) :
    .create (issueId base i) ∈ e.calls urls h ↔ RaisesIssue h e base i := by
  constructor
  · intro hcall
    cases e with
    | flow event =>
        rcases mem_flow_calls.mp hcall with ⟨entry, hbegins, hcall⟩ | ⟨entry, hrotates, heq⟩ |
          ⟨entry, -, heq | heq⟩
        · unfold ReauthFlow.start at hcall
          dsimp only at hcall
          split at hcall
          · rename_i hkey
            exact (RaisesIssue.apikeyMigration hbegins hkey).of_id hbase
              (ConfigFlow.IssueCall.create.inj (List.mem_singleton.mp hcall))
          · rename_i hkey
            exact (RaisesIssue.authFailed hbegins hkey).of_id hbase
              (ConfigFlow.IssueCall.create.inj (List.mem_singleton.mp hcall))
        · exact (RaisesIssue.secretRotated hrotates).of_id hbase
            (ConfigFlow.IssueCall.create.inj heq)
        · cases heq
        · cases heq
    | migrate entry tokens =>
        obtain ⟨hversion, hblank, heq⟩ := mem_migrate_calls.mp hcall
        exact (RaisesIssue.urlsChanged hversion hblank).of_id hbase
          (ConfigFlow.IssueCall.create.inj heq)
    | webhook handler now request raw =>
        obtain ⟨headerAuthorized, hdelivers, hcall⟩ := mem_webhook_calls.mp hcall
        obtain ⟨rfl, heq⟩ := mem_issueCalls_create.mp hcall
        exact (RaisesIssue.legacyQueryAuth hdelivers).of_id hbase heq
    | persist entryId saves =>
        cases saves with
        | true => simp [RepairEvent.calls, RepairEvent.persistCall] at hcall
        | false =>
            have heq := ConfigFlow.IssueCall.create.inj (List.mem_singleton.mp hcall)
            exact RaisesIssue.persistFailed.of_id hbase heq
    | remove entryId => simp [RepairEvent.calls] at hcall
  · intro hraises
    cases hraises with
    | authFailed hbegins hkey =>
        exact mem_flow_calls.mpr (Or.inl ⟨_, hbegins, by
          simp [ReauthFlow.start, hkey, authFailedIssue_eq]⟩)
    | apikeyMigration hbegins hkey =>
        exact mem_flow_calls.mpr (Or.inl ⟨_, hbegins, by
          simp [ReauthFlow.start, hkey, apikeyMigrationIssue_eq]⟩)
    | secretRotated hrotates => exact mem_flow_calls.mpr (Or.inr (Or.inl ⟨_, hrotates, rfl⟩))
    | urlsChanged hversion hblank => exact mem_migrate_calls.mpr ⟨hversion, hblank, rfl⟩
    | legacyQueryAuth hdelivers =>
        exact mem_webhook_calls.mpr ⟨false, hdelivers, mem_issueCalls_create.mpr ⟨rfl, rfl⟩⟩
    | persistFailed => exact List.mem_singleton.mpr rfl

theorem delete_mem_calls (hbase : base ∈ issueBases) :
    .delete (issueId base i) ∈ e.calls urls h ↔ ClearsIssue h e base i := by
  constructor
  · intro hcall
    cases e with
    | flow event =>
        rcases mem_flow_calls.mp hcall with ⟨entry, -, hcall⟩ | ⟨entry, -, heq⟩ |
          ⟨entry, hsucceeds, heq | heq⟩
        · unfold ReauthFlow.start at hcall
          dsimp only at hcall
          split at hcall <;> cases List.mem_singleton.mp hcall
        · cases heq
        · exact (ClearsIssue.authFailed hsucceeds).of_id hbase (ConfigFlow.IssueCall.delete.inj heq)
        · exact (ClearsIssue.apikeyMigration hsucceeds).of_id hbase
            (ConfigFlow.IssueCall.delete.inj heq)
    | migrate entry tokens => cases (mem_migrate_calls.mp hcall).2.2
    | webhook handler now request raw =>
        obtain ⟨headerAuthorized, hdelivers, hcall⟩ := mem_webhook_calls.mp hcall
        rcases mem_issueCalls_delete.mp hcall with heq | ⟨rfl, heq⟩
        · exact (ClearsIssue.secretRotated hdelivers).of_id hbase heq
        · exact (ClearsIssue.legacyQueryAuth hdelivers).of_id hbase heq
    | persist entryId saves =>
        cases saves with
        | false => simp [RepairEvent.calls, RepairEvent.persistCall] at hcall
        | true =>
            have heq := ConfigFlow.IssueCall.delete.inj (List.mem_singleton.mp hcall)
            exact ClearsIssue.persistFailed.of_id hbase heq
    | remove entryId =>
        obtain ⟨base', hbase', heq⟩ := List.mem_map.mp hcall
        exact (ClearsIssue.removed hbase').of_id hbase (ConfigFlow.IssueCall.delete.inj heq).symm
  · intro hclears
    cases hclears with
    | authFailed hsucceeds =>
        exact mem_flow_calls.mpr (Or.inr (Or.inr ⟨_, hsucceeds, Or.inl rfl⟩))
    | apikeyMigration hsucceeds =>
        exact mem_flow_calls.mpr (Or.inr (Or.inr ⟨_, hsucceeds, Or.inr rfl⟩))
    | secretRotated hdelivers =>
        exact mem_webhook_calls.mpr ⟨_, hdelivers, mem_issueCalls_delete.mpr (Or.inl rfl)⟩
    | legacyQueryAuth hdelivers =>
        exact mem_webhook_calls.mpr
          ⟨true, hdelivers, mem_issueCalls_delete.mpr (Or.inr ⟨rfl, rfl⟩)⟩
    | persistFailed => exact List.mem_singleton.mpr rfl
    | removed hbase => exact List.mem_map.mpr ⟨_, hbase, rfl⟩

/-- No event both creates and deletes an issue. -/
theorem calls_once (id : String) :
    ¬(.create id ∈ e.calls urls h ∧ .delete id ∈ e.calls urls h) := by
  rintro ⟨hcreate, hdelete⟩
  cases e with
  | flow event =>
      obtain ⟨-, ⟨_, _, _, _, _, _, _, rfl, -⟩, -⟩ :=
        (mem_flow_calls.mp hdelete).resolve_left (by
          rintro ⟨entry, -, hcall⟩
          unfold ReauthFlow.start at hcall
          dsimp only at hcall
          split at hcall <;> cases List.mem_singleton.mp hcall)
        |>.resolve_left fun ⟨_, _, heq⟩ => nomatch heq
      rcases mem_flow_calls.mp hcreate with ⟨_, ⟨_, _, heq, -⟩, -⟩ | ⟨_, ⟨_, _, _, heq, -⟩, -⟩ |
        ⟨_, -, heq | heq⟩ <;> cases heq
  | migrate entry tokens => cases (mem_migrate_calls.mp hdelete).2.2
  | webhook handler now request raw =>
      obtain ⟨_, ⟨⟨-, _, hok, -⟩, -⟩, hcreate⟩ := mem_webhook_calls.mp hcreate
      obtain ⟨_, ⟨⟨-, _, hok', -⟩, -⟩, hdelete⟩ := mem_webhook_calls.mp hdelete
      obtain ⟨rfl, hid⟩ := mem_issueCalls_create.mp hcreate
      rcases mem_issueCalls_delete.mp hdelete with hid' | ⟨rfl, -⟩
      · exact absurd (issueId_inj (by decide) (by decide) (hid.symm.trans hid')).1 (by decide)
      · cases hok.symm.trans hok'
  | persist entryId saves =>
      cases saves with
      | true => cases List.mem_singleton.mp hcreate
      | false => cases List.mem_singleton.mp hdelete
  | remove entryId => simp [RepairEvent.calls] at hcreate

theorem step_issue (hbase : base ∈ issueBases) :
    issueId base i ∈ (RepairEvent.step urls h e).issues ↔
      RaisesIssue h e base i ∨ issueId base i ∈ h.issues ∧ ¬ClearsIssue h e base i := by
  rw [RepairEvent.step_issues, mem_foldl_callIssue (calls_once _), create_mem_calls hbase,
    delete_mem_calls hbase]

end

/-- An entry whose key the controller no longer takes. -/
def expiredKey : ConfigEntry where
  entryId := 7
  uniqueId := "https://unifi"
  data := { controllerUrl := "https://unifi", apiKey := "old key" }

/-- The reauth prompt is left open, and the key is replaced by a reconfiguration. -/
def keyReplaced : List RepairEvent :=
  [.flow (.start 0 (.reauth 7)), .flow (.start 1 (.reconfigure 7)),
    .flow (.take 1 (.credentials { apiKey := some "new key" } "")),
    .flow (.take 1 (.answer acceptingNet "" ""))]

end UnifiAlerts
