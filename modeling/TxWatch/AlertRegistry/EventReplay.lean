import TxWatch.AlertRegistry.Reachability
import TxWatch.Soroban.Replay

/-!
# Replaying the events of the alert registry

An observer who keeps a map from ids to owners and updates it with the
registrations, transfers and removals that the registry publishes always has
the owners of the live alerts.  Every other entry point keeps the owner of every
alert, so that its events, where it has any, can be ignored.
-/

namespace TxWatch
namespace AlertRegistry

open Soroban Indexed

/-- Who owns which alert, as far as an observer knows. -/
abbrev OwnerMap : Type :=
  Nat → Option Address

/-- Take an event into account. -/
def OwnerMap.observe (m : OwnerMap) : Event → OwnerMap
  | ⟨(.alert, .register), [.u64 id, .address owner, .address _]⟩ =>
      Function.update m id (some owner)
  | ⟨(.alert, .transfer), [.u64 id, .address _, .address newOwner]⟩ =>
      Function.update m id (some newOwner)
  | ⟨(.alert, .remove), [.u64 id, .address _]⟩ =>
      Function.update m id none
  | ⟨(.alert, .remove), [.u64 id, .address _, .address _]⟩ =>
      Function.update m id none
  | _ => m

namespace Registry

/-- The owner of every alert. -/
def owners (r : Registry) : OwnerMap :=
  fun id => (r.table.row id).map AlertConfig.owner

section Owners

variable {r r' : Registry}

theorem owners_update
    {id : Nat} {o : Option AlertConfig}
    (hrow : r'.table.row = Function.update r.table.row id o) :
    r'.owners = Function.update r.owners id (o.map AlertConfig.owner) := by
  funext id'
  unfold owners
  rw [hrow]
  by_cases hid : id' = id
  · simp [hid]
  · simp [hid]

/-- Writing a record over one of the same owner. -/
theorem owners_write
    {id : Nat} {cfg cfg' : AlertConfig}
    (hcfg : r.table.row id = some cfg) (howner : cfg'.owner = cfg.owner)
    (hrow : r'.table.row = Function.update r.table.row id (some cfg')) :
    r'.owners = r.owners := by
  have hsame : r.owners id = some cfg'.owner := by
    rw [owners, hcfg, howner]
    rfl
  rw [owners_update hrow, Option.map_some, ← hsame]
  exact Function.update_eq_self id r.owners

@[simp] theorem owners_prunedFor (owner : Address) :
    (r.prunedFor owner).owners = r.owners := by
  unfold owners
  rw [row_prunedFor]

@[simp] theorem owners_configure (i : InstanceKey) (w : i.Value) :
    (r.configure i w).owners = r.owners := by
  rfl

/-- Registrations are published one by one. -/
theorem replay_registerEvents (r : Registry) (cfgs : List AlertConfig) :
    replay OwnerMap.observe r.owners (registerEvents r.nextId cfgs) =
      (r.createAll cfgs).owners := by
  induction cfgs generalizing r with
  | nil => rfl
  | cons cfg rest ih =>
      have hcreate : (r.create cfg).owners =
          Function.update r.owners r.nextId (some cfg.owner) :=
        owners_update (row_create r cfg)
      have hrest := ih (r.create cfg)
      rw [nextId_create, hcreate] at hrest
      rw [registerEvents, replay_cons]
      exact hrest

/-- A deactivation keeps all owners. -/
theorem owners_deactivate (r : Registry) (now : Nat) (ids : List Nat) :
    (r.deactivate now ids).owners = r.owners := by
  funext id
  have hparty := (rewrites_deactivate r now ids).row id
  have howner := congrArg (Option.map fun p => p IndexKind.owner) hparty
  rw [Option.map_map, Option.map_map] at howner
  exact howner

end Owners

section Ignored

/-- Nothing that an admin publishes is about an alert. -/
theorem replay_adminEvents (m : OwnerMap) (call : Call) :
    replay OwnerMap.observe m call.adminEvents = m := by
  cases call with
  | setPaused admin paused => cases paused <;> rfl
  | _ => rfl

/-- Nor do the owner's changes to a record name an owner. -/
theorem replay_amendEvents (m : OwnerMap) (cfg : AlertConfig) (call : Call) :
    replay OwnerMap.observe m (call.amendEvents cfg) = m := by
  cases call <;> rfl

theorem replay_bumpEvents (m : OwnerMap) (ttl : Nat) (ids : List Nat) :
    replay OwnerMap.observe m (ids.map (bumpEvent ttl)) = m := by
  apply replay_of_ignored
  intro ev hev m
  obtain ⟨id, -, rfl⟩ := List.mem_map.mp hev
  rfl

end Ignored

/-- The events of a step turn the owners before it into the owners after it. -/
theorem Step.mirrored
    {env : Env} {r r' : Registry} {call : Call} {resp : Response}
    {evs : List Event}
    (h : Step env r call resp evs r') :
    replay OwnerMap.observe r.owners evs = r'.owners := by
  cases h with
  | query _ => rfl
  | initialise _ => rfl
  | administer _ _ _ _ _ _ => exact replay_adminEvents _ _
  | @enrol call owner cfgs _ _ _ _ _ _ =>
      have hcreate := replay_registerEvents (r.prunedFor owner) cfgs
      rw [owners_prunedFor, nextId_prunedFor] at hcreate
      exact hcreate
  | amend _ _ _ _ hrow _ hnew =>
      rw [replay_amendEvents]
      have howner := congrFun (amended_party hnew) .owner
      exact (owners_write hrow howner (row_rewrite_flag ..)).symm
  | activate _ _ _ hrow =>
      symm
      apply owners_write hrow ?_ (row_rewrite_flag ..)
      rfl
  | deactivateAll _ _ => exact (owners_deactivate _ _ _).symm
  | retarget _ _ hrow _ =>
      symm
      apply owners_write hrow ?_ (row_move ..)
      rfl
  | keepOwner _ _ _ _ => rfl
  | @reown owner newOwner id cfg _ _ _ _ _ _ =>
      exact (owners_update (row_reown r id owner newOwner
        { cfg with owner := newOwner, updatedAt := env.timestamp })).symm
  | remove _ _ _ _ => exact (owners_update (row_erase ..)).symm
  | removeByAdmin _ _ _ _ => exact (owners_update (row_erase ..)).symm
  | bump _ _ => rfl
  | bulkRenew _ => exact replay_bumpEvents _ _ _

end Registry

theorem mirrored_exec (s : State) (st : Step) (hcall : st.isCall) :
    replay OwnerMap.observe s.view.owners (exec s st).events =
      (exec s st).view.owners := by
  cases st with
  | expire keys => exact False.elim hcall
  | call env call =>
      rcases invoke_cases env call s with ⟨resp, s', h, heq⟩ | ⟨f, heq⟩
      · rw [exec_call, heq]
        exact (step_of_returns h).mirrored
      · rw [exec_call, heq]
        rfl

/-- After any run of calls from empty storage, replaying the registrations,
transfers and removals it published gives the owner of every live alert. -/
theorem ownership_events_replay
    (steps : List Step) (hsteps : ∀ st ∈ steps, st.isCall) :
    replay OwnerMap.observe (fun _ => none)
        (log exec (fun s => s.events) State.empty steps) =
      fun id =>
        ((run exec State.empty steps).persistent.get (.alert id)).map
          AlertConfig.owner := by
  exact replay_log (fun s => s.view.owners) mirrored_exec
    (along_of_forall_mem State.empty steps hsteps)

/-- An alert that is registered, handed on and removed by an admin. -/
def handedOnRun : List Step :=
  [.call (envAt 1 [operator]) (.initialise operator),
    .call (envAt 1 [alice]) (sampleRegister alice pool),
    .call (envAt 2 [alice]) (sampleRegister alice vault),
    .call (envAt 3 [alice]) (.transferAlertOwnership alice 1 bob),
    .call (envAt 4 [operator]) (.removeAlertByAdmin operator 0)]

theorem handedOnRun_replayed :
    replay OwnerMap.observe (fun _ => none)
        (log exec (fun s => s.events) State.empty handedOnRun) =
      fun id =>
        ((run exec State.empty handedOnRun).persistent.get (.alert id)).map
          AlertConfig.owner := by
  apply ownership_events_replay
  simp [handedOnRun, Step.isCall]

end AlertRegistry
end TxWatch
