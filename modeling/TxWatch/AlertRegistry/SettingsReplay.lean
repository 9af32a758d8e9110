import TxWatch.AlertRegistry.Changes
import TxWatch.AlertRegistry.EventReplay

/-!
# Replaying the administration of the alert registry

An observer who only sees events always knows the admin set, the limit for each
owner and whether the registry is paused: every change of them is announced, and
nothing else touches them.  The one setting of which events say nothing is the
watcher registry.
-/

namespace TxWatch
namespace AlertRegistry

open Soroban

/-- What an observer knows of the administration. -/
structure Settings where
  admins : Option (List Address)
  limit : Nat
  paused : Bool

/-- Take an event into account. -/
def Settings.observe (m : Settings) : Event → Settings
  | ⟨(.admin, .init), [.address admin]⟩ => { m with admins := some [admin] }
  | ⟨(.admin, .transfer), [.address _, .address newAdmin]⟩ =>
      { m with admins := some [newAdmin] }
  | ⟨(.admin, .add), [.address _, .address newAdmin]⟩ =>
      { m with admins := m.admins.map (fun l => l ++ [newAdmin]) }
  | ⟨(.admin, .remove), [.address _, .address targetAdmin]⟩ =>
      { m with admins := m.admins.map (fun l => l.filter (fun a => a ≠ targetAdmin)) }
  | ⟨(.admin, .limit), [.address _, .u32 limit]⟩ => { m with limit := limit }
  | ⟨(.admin, .pause), [.address _]⟩ => { m with paused := true }
  | ⟨(.admin, .unpause), [.address _]⟩ => { m with paused := false }
  | _ => m

namespace Registry

/-- The administration of a registry. -/
def settings (r : Registry) : Settings where
  admins := r.admins
  limit := r.limit
  paused := r.paused

section Unchanged

variable {r r' : Registry}

/-- The administration depends on three instance entries. -/
theorem settings_of_inst
    (h : ∀ i, i ≠ .nextId → r'.inst i = r.inst i) :
    r'.settings = r.settings := by
  unfold settings admins limit paused
  rw [h .admin (by simp), h .limit (by simp), h .paused (by simp)]

/-- Events about alerts are no news of the administration. -/
theorem replay_alertEvents
    (m : Settings) {evs : List Event} (h : ∀ ev ∈ evs, ev.topics.1 = .alert) :
    replay Settings.observe m evs = m := by
  apply replay_of_ignored
  intro ev hev m
  obtain ⟨⟨topic, sub⟩, data⟩ := ev
  obtain rfl : topic = .alert := h _ hev
  rfl

theorem topic_registerEvents (first : Nat) (cfgs : List AlertConfig) :
    ∀ ev ∈ registerEvents first cfgs, ev.topics.1 = .alert := by
  induction cfgs generalizing first with
  | nil => simp [registerEvents]
  | cons cfg rest ih =>
      intro ev hev
      rcases List.mem_cons.mp hev with rfl | hev
      · rfl
      · exact ih (first + 1) ev hev

theorem topic_amendEvents (cfg : AlertConfig) (call : Call) :
    ∀ ev ∈ call.amendEvents cfg, ev.topics.1 = .alert := by
  cases call <;> simp [Call.amendEvents]

/-- A configuration call announces what it sets, but for the watcher registry. -/
theorem replay_setting
    {call : Call} {admin : Address} {admins : List Address}
    {entry : (i : InstanceKey) × i.Value}
    (hcall : call.administers = some admin)
    (hset : call.setting admins = some entry) (hadmins : r.admins = some admins) :
    replay Settings.observe r.settings call.adminEvents =
      (r.configure entry.1 entry.2).settings := by
  cases call with
  | setPaused admin' paused =>
      obtain rfl := Option.some.inj hset
      cases paused <;> rfl
  | transferAdmin _ _ | setPerOwnerAlertLimit _ _ | setWatcherRegistry _ _ =>
      obtain rfl := Option.some.inj hset
      rfl
  | addAdmin _ newAdmin | removeAdmin _ targetAdmin =>
      obtain rfl := Option.some.inj hset
      have hmirror : r.settings = { r.settings with admins := some admins } := by
        rw [← hadmins]
        rfl
      rw [hmirror]
      rfl
  | _ => simp [Call.administers] at hcall

end Unchanged

/-- The events of a step turn the administration before it into the one after. -/
theorem Step.settled
    {env : Env} {r r' : Registry} {call : Call} {resp : Response}
    {evs : List Event}
    (h : Step env r call resp evs r') :
    replay Settings.observe r.settings evs = r'.settings := by
  have halert : ∀ {evs : List Event} {r' : Registry},
      (∀ ev ∈ evs, ev.topics.1 = .alert) →
      (∀ i, i ≠ .nextId → r'.inst i = r.inst i) →
      replay Settings.observe r.settings evs = r'.settings := by
    intro evs r' hevs hinst
    rw [replay_alertEvents _ hevs, settings_of_inst hinst]
  cases h with
  | query _ => rfl
  | initialise _ => rfl
  | administer hcall hset _ hadmins _ _ => exact replay_setting hcall hset hadmins
  | enrol _ _ _ _ _ _ =>
      refine halert (topic_registerEvents _ _) ?_
      intro i hi
      rw [inst_createAll_of_ne _ _ hi, inst_prunedFor]
  | amend _ _ _ _ _ _ _ =>
      refine halert (topic_amendEvents _ call) ?_
      intro i _
      rw [inst_flag, inst_rewrite]
  | activate _ _ _ _ => exact halert (by simp) (fun _ _ => rfl)
  | deactivateAll _ _ => exact halert (by simp) (fun _ _ => rfl)
  | retarget _ _ _ _ => exact halert (by simp) (fun _ _ => rfl)
  | keepOwner _ _ _ _ => exact halert (by simp) (fun _ _ => rfl)
  | reown _ _ _ _ _ _ =>
      refine halert (by simp) ?_
      intro i _
      exact congrFun (inst_prunedFor r _) i
  | remove _ _ _ _ => exact halert (by simp) (fun _ _ => rfl)
  | removeByAdmin _ _ _ _ => exact halert (by simp) (fun _ _ => rfl)
  | bump _ _ => exact halert (by simp [bumpEvent]) (fun _ _ => rfl)
  | bulkRenew _ =>
      refine halert ?_ (fun _ _ => rfl)
      intro ev hev
      obtain ⟨id, -, rfl⟩ := List.mem_map.mp hev
      rfl

end Registry

theorem settled_exec (s : State) (st : Step) (_ : True) :
    replay Settings.observe s.view.settings (exec s st).events =
      (exec s st).view.settings := by
  cases st with
  | expire keys => rfl
  | call env call =>
      rcases invoke_cases env call s with ⟨resp, s', h, heq⟩ | ⟨f, heq⟩
      · rw [exec_call, heq]
        exact (step_of_returns h).settled
      · rw [exec_call, heq]
        rfl

/-- Whatever the storage and whatever persistent entries expire, replaying the events
of a run turns the admin set, the limit and the pause switch before it into those
after it. -/
theorem settings_events_replay (s : State) (steps : List Step) :
    replay Settings.observe s.view.settings (log exec (fun s => s.events) s steps) =
      (run exec s steps).view.settings := by
  exact replay_log (fun s => s.view.settings) settled_exec
    (along_of_forall_mem s steps fun _ _ => trivial)

end AlertRegistry
end TxWatch
