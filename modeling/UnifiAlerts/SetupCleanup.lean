import UnifiAlerts.Reload
import UnifiAlerts.WebhookRegistry

/-!
# Setups that fail and entries that are unloaded

`async_setup_entry` from the registration of the webhooks on, and
`async_unload_entry`, with the coordinator on its event loop. Between
the registration and the end of the platforms' setup the loop runs, as
it does while the entry is loaded and before the registration.
Assigning the runtime data and pruning entities raise nothing.

The handler around the platforms and the services cleans up. The
registration is outside of it, so an exception of `async_generate_url`
leaves what was registered by then (`failed_setup_leaves_nothing_iff`).

The states are phases (`SetupPhase`), and between any two steps of the
source the loop may take a turn. The invariant `Inv` ties the phase to
what is there: while the setup is past the registration or done, the ids
registered are those of the manager; once it has ended, the registry is
the one from before and no task is live. The condition `UrlsReturn` is
about the one call outside of the handler.
-/

namespace UnifiAlerts

open Py Lib

inductive SetupPhase
  | starting
  | forwarding
  | loaded
  | failed
  | unloaded
deriving DecidableEq

/-- A setup of an entry. `before` is the registry when it registers its webhooks, and
`accepted` the enabled categories whose `async_register` succeeds. -/
structure EntrySetup where
  manager : WebhookManager
  registry : Registry
  loop : EventLoop
  registered : List String := []
  urls : List (Category × String) := []
  phase : SetupPhase := .starting
  before : Registry := registry
  accepted : List Category := []

inductive SetupEvent
  | loop (e : Event)
  | register (answers : RegisterAnswers)
  | forwarded (platforms services : Bool)
  | unload (platforms : Bool)

namespace EntrySetup

def start (manager : WebhookManager) (registry : Registry) (coord : Coordinator)
    (file : JsonObj) : EntrySetup where
  manager
  registry
  loop := .start coord file

/-- `async_shutdown` and `unregister_all`. -/
def cleanUp (s : EntrySetup) (phase : SetupPhase) : EntrySetup :=
  { s with
    loop := s.loop.shutdown
    registry := s.registry.unregisterAll s.registered
    registered := []
    phase }

/-- The setup is over, or the entry unloaded. -/
def ended (s : EntrySetup) : Prop := s.phase = .failed ∨ s.phase = .unloaded

instance (s : EntrySetup) : Decidable s.ended := inferInstanceAs (Decidable (_ ∨ _))

def step (text : Text) (s : EntrySetup) : SetupEvent → EntrySetup
  | .loop e => if s.ended then s else { s with loop := s.loop.step s.manager.config text e }
  | .register answers =>
    if s.phase = .starting then
      let r := s.manager.registerAll answers s.registry
      { s with
        registry := r.registry
        registered := r.registered
        urls := r.urls
        phase := if r.raised then .failed else .forwarding
        before := s.registry
        accepted := s.manager.accepted answers s.registry allCategories }
    else s
  | .forwarded platforms services =>
    if s.phase = .forwarding then
      if platforms && services then { s with phase := .loaded } else s.cleanUp .failed
    else s
  | .unload platforms => if s.phase = .loaded ∧ platforms then s.cleanUp .unloaded else s

/-! ## The contract -/

/-- The contract: a loaded entry has all its webhooks registered and noted. Once a setup
has failed or the entry has been unloaded, none of its webhooks is registered, no
auto-clear task is live, and another setup registers all it asks for. -/
structure LeavesNothing (s : EntrySetup) : Prop where
  loaded : s.phase = .loaded →
    s.urls.map Prod.fst = s.accepted ∧ s.registered = s.accepted.map s.manager.webhookId
  webhooks : s.ended → ∀ c ∈ s.accepted, s.registry (s.manager.webhookId c) = none
  tasks : s.ended → ∀ id task, s.loop.tasks id = some task → ¬task.Live
  retry : s.ended → ∀ answers : RegisterAnswers, (∀ c, answers.refuses c = false) →
    (∀ c, answers.url c ≠ none) →
    (∀ c, s.manager.config.enabled c → s.before (s.manager.webhookId c) = none) →
      (s.manager.registerAll answers s.registry).raised = false ∧
      (s.manager.registerAll answers s.registry).urls.map Prod.fst =
        allCategories.filter s.manager.config.enabled

/-- `async_generate_url` returns for every webhook that is registered. -/
def UrlsReturn (s : EntrySetup) : SetupEvent → Prop
  | .register answers => s.phase = .starting →
      ∀ c ∈ s.manager.accepted answers s.registry allCategories, answers.url c ≠ none
  | _ => True

/-! ## What every step keeps -/

/-- The webhooks of the accepted categories are registered from the registration to the end,
and nothing is left then. -/
structure Inv (s : EntrySetup) : Prop where
  tasksInv : s.loop.TasksInv
  registered : s.phase = .forwarding ∨ s.phase = .loaded →
    s.registry = s.manager.claim s.before s.accepted ∧
    s.registered = s.accepted.map s.manager.webhookId ∧
    s.urls.map Prod.fst = s.accepted ∧
    ∀ c ∈ s.accepted, s.before (s.manager.webhookId c) = none
  free : s.ended → ∀ c ∈ s.accepted, s.before (s.manager.webhookId c) = none
  restored : s.ended → s.registry = s.before
  dead : s.ended → ∀ id task, s.loop.tasks id = some task → ¬task.Live

theorem inv_start (manager : WebhookManager) (registry : Registry) (coord : Coordinator)
    (file : JsonObj) : Inv (start manager registry coord file) where
  tasksInv := EventLoop.tasksInv_start coord file
  registered h := by rcases h with h | h <;> cases h
  free h := by rcases h with h | h <;> cases h
  restored h := by rcases h with h | h <;> cases h
  dead h := by rcases h with h | h <;> cases h

variable {s : EntrySetup}

theorem shutdown_tasksInv {m : EventLoop} (h : m.TasksInv) : m.shutdown.TasksInv := by
  rw [EventLoop.shutdown_eq {} (.counting fun _ => none)]
  exact h.performAll EventLoop.debounced_ne_timer _

/-- Unregistering what was registered gives the registry back. -/
theorem unregister_claim (m : WebhookManager) {before : Registry} {acc : List Category}
    (hfree : ∀ c ∈ acc, before (m.webhookId c) = none) :
    (m.claim before acc).unregisterAll (acc.map m.webhookId) = before := by
  funext id
  rw [unregisterAll_apply]
  split
  · rename_i hmem
    obtain ⟨c, hc, rfl⟩ := List.mem_map.mp hmem
    exact (hfree c hc).symm
  · rename_i hnot
    exact WebhookManager.claim_of_not_mem fun c hc heq =>
      hnot (List.mem_map.mpr ⟨c, hc, heq⟩)

/-- A clean-up leaves the registry and the tasks as the contract has them. -/
theorem Inv.cleanUp (h : Inv s) (hphase : s.phase = .forwarding ∨ s.phase = .loaded)
    (phase : SetupPhase) (hends : phase = .failed ∨ phase = .unloaded) : Inv (s.cleanUp phase) := by
  obtain ⟨hregistry, hregistered, -, hfree⟩ := h.registered hphase
  refine ⟨shutdown_tasksInv h.tasksInv, fun hp => ?_, fun _ => hfree, fun _ => ?_,
    fun _ id task htask => EventLoop.shutdown_not_live h.tasksInv htask⟩
  · have hphase' : (s.cleanUp phase).phase = phase := rfl
    rw [hphase'] at hp
    rcases hends with rfl | rfl <;> rcases hp with hp | hp <;> cases hp
  · show s.registry.unregisterAll s.registered = s.before
    rw [hregistry, hregistered]
    exact unregister_claim s.manager hfree

theorem mem_accepted_free {m : WebhookManager} {answers : RegisterAnswers} {registry : Registry}
    {c : Category} (h : c ∈ m.accepted answers registry allCategories) :
    registry (m.webhookId c) = none := by
  have hc := (List.mem_filter.mp h).2
  simp only [Bool.and_eq_true, Option.isNone_iff_eq_none] at hc
  exact hc.1.2

theorem registerAll_spec (m : WebhookManager) (answers : RegisterAnswers) (registry : Registry) :
    let acc := m.accepted answers registry allCategories
    let r := m.registerAll answers registry
    ((∀ c ∈ acc, answers.url c ≠ none) ∧ r.raised = false ∧ r.registry = m.claim registry acc ∧
      r.registered = acc.map m.webhookId ∧ r.urls.map Prod.fst = acc) ∨
    (∃ c ∈ acc, answers.url c = none ∧ r.raised = true ∧
      r.registry (m.webhookId c) = some ⟨m.entryId, c⟩) :=
  m.registerFrom_spec allCategories { registry } Category.all_nodup rfl

theorem Inv.register (h : Inv s) (text : Text) {answers : RegisterAnswers}
    (hstarting : s.phase = .starting)
    (hurls : ∀ c ∈ s.manager.accepted answers s.registry allCategories, answers.url c ≠ none) :
    Inv (s.step text (.register answers)) := by
  rcases registerAll_spec s.manager answers s.registry with
    ⟨-, hraised, hregistry, hregistered, hkeys⟩ | ⟨c, hc, hnone, -⟩
  · have hnot : ¬(s.step text (.register answers)).ended := by
      simp only [step, if_pos hstarting, hraised]
      rintro (h | h) <;> cases h
    refine ⟨?_, fun _ => ?_, fun he => absurd he hnot, fun he => absurd he hnot,
      fun he => absurd he hnot⟩
    · simp only [step, if_pos hstarting]
      exact h.tasksInv
    · simp only [step, if_pos hstarting]
      exact ⟨hregistry, hregistered, hkeys, fun c hc => mem_accepted_free hc⟩
  · exact absurd hnone (hurls c hc)

theorem Inv.step (h : Inv s) (text : Text) (e : SetupEvent) (he : UrlsReturn s e) :
    Inv (s.step text e) := by
  cases e with
  | loop e =>
      by_cases hended : s.ended
      · simp only [EntrySetup.step, if_pos hended]
        exact h
      · simp only [EntrySetup.step, if_neg hended]
        exact ⟨h.tasksInv.step e, h.registered, fun he => absurd he hended,
          fun he => absurd he hended, fun he => absurd he hended⟩
  | register answers =>
      by_cases hstarting : s.phase = .starting
      · exact h.register text hstarting (he hstarting)
      · simp only [EntrySetup.step, if_neg hstarting]
        exact h
  | forwarded platforms services =>
      by_cases hphase : s.phase = .forwarding
      · by_cases hok : (platforms && services) = true
        · simp only [EntrySetup.step, if_pos hphase, if_pos hok]
          have hnot : ¬({ s with phase := .loaded } : EntrySetup).ended := by
            rintro (h | h) <;> cases h
          exact ⟨h.tasksInv, fun _ => h.registered (Or.inl hphase), fun he => absurd he hnot,
            fun he => absurd he hnot, fun he => absurd he hnot⟩
        · simp only [EntrySetup.step, if_pos hphase, if_neg hok]
          exact h.cleanUp (Or.inl hphase) .failed (Or.inl rfl)
      · simp only [EntrySetup.step, if_neg hphase]
        exact h
  | unload platforms =>
      by_cases hloaded : s.phase = .loaded ∧ platforms = true
      · simp only [EntrySetup.step, if_pos hloaded]
        exact h.cleanUp (Or.inr hloaded.1) .unloaded (Or.inr rfl)
      · simp only [EntrySetup.step, if_neg hloaded]
        exact h

/-- With nothing left behind, a setup whose steps all succeed registers every category. -/
theorem Inv.leavesNothing (h : Inv s) : LeavesNothing s where
  loaded hloaded :=
    have hreg := h.registered (Or.inr hloaded)
    ⟨hreg.2.2.1, hreg.2.1⟩
  webhooks hended c hc := by rw [h.restored hended, h.free hended c hc]
  tasks := h.dead
  retry hended answers hrefuses hurl hfree := by
    have hacc : s.manager.accepted answers s.registry allCategories =
        allCategories.filter s.manager.config.enabled := by
      rw [h.restored hended]
      refine List.filter_congr fun c _ => ?_
      rw [hrefuses c]
      cases henabled : s.manager.config.enabled c with
      | false => rfl
      | true => rw [hfree c henabled]; rfl
    rcases registerAll_spec s.manager answers s.registry with
      ⟨-, hraised, -, -, hkeys⟩ | ⟨c, -, hnone, -⟩
    · exact ⟨hraised, hkeys.trans hacc⟩
    · exact absurd hnone (hurl c)

/-- A URL that cannot be generated leaves a webhook behind. -/
theorem urlsReturn_of_leavesNothing (text : Text) (e : SetupEvent)
    (h : LeavesNothing (s.step text e)) : UrlsReturn s e := by
  cases e with
  | register answers =>
      intro hstarting
      rcases registerAll_spec s.manager answers s.registry with
        ⟨hurls, -⟩ | ⟨c, hc, -, hraised, hleft⟩
      · exact hurls
      · have hstep : s.step text (.register answers) =
            { s with
              registry := (s.manager.registerAll answers s.registry).registry
              registered := (s.manager.registerAll answers s.registry).registered
              urls := (s.manager.registerAll answers s.registry).urls
              phase := .failed
              before := s.registry
              accepted := s.manager.accepted answers s.registry allCategories } := by
          simp only [step, if_pos hstarting, hraised, if_true]
        rw [hstep] at h
        cases hleft.symm.trans (h.webhooks (Or.inl rfl) c hc)
  | loop e => trivial
  | forwarded platforms services => trivial
  | unload platforms => trivial

/-- Over any steps of a setup, with whatever the loop does in between: setups and unloads
leave nothing behind exactly when the URL of every webhook that was registered can be
generated. -/
theorem failed_setup_leaves_nothing_iff (text : Text) (manager : WebhookManager)
    (registry : Registry) (coord : Coordinator) (file : JsonObj) (events : List SetupEvent) :
    Along (step text) UrlsReturn (start manager registry coord file) events ↔
      ∀ pre, pre <+: events →
        LeavesNothing (run (step text) (start manager registry coord file) pre) :=
  along_iff_reached (fun _ h => h.leavesNothing) (fun _ e h he => h.step text e he)
    (fun _ e _ h => urlsReturn_of_leavesNothing text e h)
    (inv_start manager registry coord file)

/-- Without a usable URL, the setup fails with a webhook registered that the retry finds
taken. -/
theorem failed_setup_leaves_webhook :
    let s := run (step (.counting fun _ => none)) (start ⟨0, {}⟩ (fun _ => none) (.fresh {}) [])
      [.register { url := fun _ => none }]
    s.phase = .failed ∧
      s.registry "unifi_alerts_network_device" = some ⟨0, .networkDevice⟩ ∧
      (s.manager.registerAll { url := fun c => some c.name } s.registry).urls.map Prod.fst =
        [.networkWan, .networkClient, .securityThreat, .securityHoneypot, .securityFirewall,
         .power] ∧
      ¬LeavesNothing s := by
  refine ⟨by decide, by decide, by decide, fun h => ?_⟩
  have hnone := h.webhooks (Or.inl (by decide)) .networkDevice (by decide)
  exact absurd hnone (by decide)

end EntrySetup

end UnifiAlerts
