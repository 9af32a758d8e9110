import TxWatch.AlertRegistry.System
import TxWatch.Soroban.Atomicity
import TxWatch.AlertRegistry.Registry

/-!
# AlertRegistry: functions that only read

The guards, the readers and every query entry point but `get_alert`, which
renews the entry it reads, leave the storage untouched whatever their outcome,
and none of them fails with `DuplicateAlertId`.
-/

namespace TxWatch
namespace AlertRegistry

open Soroban Soroban.Contract

/-- Any error but the one for an id that a list already has. -/
def NotDuplicate (e : ContractError) : Prop :=
  e ≠ .duplicateAlertId

instance (e : ContractError) : Decidable (NotDuplicate e) :=
  inferInstanceAs (Decidable (e ≠ .duplicateAlertId))

section Guards

theorem checks_isPaused : Checks NotDuplicate isPaused := by
  exact (checks_instanceGet _).bind fun _ => checks_pure _

theorem checks_assertNotPaused : Checks NotDuplicate assertNotPaused := by
  exact checks_isPaused.bind fun _ => checks_rejectIf (by decide) _

theorem checks_getPerOwnerAlertLimit : Checks NotDuplicate getPerOwnerAlertLimit := by
  exact (checks_instanceGet _).bind fun _ => checks_pure _

theorem checks_assertWatcherIfConfigured (querier : Address) :
    Checks NotDuplicate (assertWatcherIfConfigured querier) := by
  refine (checks_instanceGet _).bind ?_
  intro maybeRegistry
  cases maybeRegistry with
  | none => exact checks_pure _
  | some registryAddr =>
      exact (checks_askPeer _ _).bind fun _ => checks_rejectIf (by decide) _

theorem checks_assertOwner (cfg : AlertConfig) (caller : Address) :
    Checks NotDuplicate (assertOwner cfg caller) := by
  exact Checks.ite (checks_pure _) (checks_fail (by decide))

theorem checks_loadAdmins : Checks NotDuplicate loadAdmins := by
  exact (checks_instanceGet _).bind fun _ => checks_pure _

theorem checks_assertAdmin (caller : Address) :
    Checks NotDuplicate (assertAdmin caller) := by
  refine checks_loadAdmins.bind fun _ => (checks_okOr (by decide) _).bind ?_
  intro admins
  exact Checks.ite (checks_pure _) (checks_fail (by decide))

end Guards

section Readers

theorem checks_loadIndex (kind : IndexKind) (a : Address) :
    Checks NotDuplicate (loadIndex kind a) := by
  exact (checks_persistentGet _).bind fun _ => checks_pure _

theorem checks_loadAlert (id : Nat) : Checks NotDuplicate (loadAlert id) := by
  exact (checks_persistentGet _).bind fun _ => checks_okOr (by decide) _

/-- Reading an index and then computing from the storage. -/
theorem checks_fromIndex
    {α : Type} (kind : IndexKind) (a : Address)
    (f : State → List Nat → α) :
    Checks NotDuplicate (do
      let ids ← loadIndex kind a
      pure (f (← getState) ids) : Contract α) := by
  refine (checks_loadIndex kind a).bind fun _ => ?_
  exact checks_getState.bind fun _ => checks_pure _

theorem checks_configsPaginatedFrom
    (ids : List Nat) (count i : Nat) (out : List AlertConfig) :
    Checks NotDuplicate (configsPaginatedFrom ids count i out) := by
  induction count generalizing i out with
  | zero => exact checks_pure out
  | succ count ih =>
      refine (checks_unwrap _).bind fun id => ?_
      refine (checks_persistentGet _).bind fun cfg => ?_
      cases cfg with
      | none => exact ih (i + 1) out
      | some cfg => exact ih (i + 1) (out ++ [cfg])

theorem checks_configsPaginated (ids : List Nat) (offset limit : Nat) :
    Checks NotDuplicate (configsPaginated ids offset limit) := by
  exact checks_configsPaginatedFrom ids _ _ []

theorem checks_activePageFrom
    (active : List AlertConfig) (count i : Nat) (out : List AlertConfig) :
    Checks NotDuplicate (activePageFrom active count i out) := by
  induction count generalizing i out with
  | zero => exact checks_pure out
  | succ count ih =>
      exact (checks_unwrap _).bind fun cfg => ih (i + 1) (out ++ [cfg])

end Readers

/-- Every query but `get_alert` only reads. -/
theorem checks_query
    {call : Call} (hquery : call.isQuery = true)
    (hget : ∀ id, call ≠ .getAlert id) :
    Checks NotDuplicate (dispatch call) := by
  cases call with
  | getAdmin =>
      refine checks_respond ?_ _
      exact checks_loadAdmins.bind fun _ => checks_okOr (by decide) _
  | getAdmins => exact checks_respond checks_loadAdmins _
  | isPaused => exact checks_respond checks_isPaused _
  | getPerOwnerAlertLimit =>
      exact checks_respond checks_getPerOwnerAlertLimit _
  | getWatcherRegistry => exact checks_respond (checks_instanceGet _) _
  | getAlertsForContract querier targetContract =>
      refine checks_respond ?_ _
      exact (checks_assertWatcherIfConfigured querier).bind fun _ =>
        checks_fromIndex _ _ _
  | getAlertIdsForContract targetContract =>
      exact checks_respond (checks_fromIndex _ _ _) _
  | getAlertIdsByOwner owner =>
      exact checks_respond (checks_fromIndex _ _ _) _
  | getActiveAlertsForContract targetContract =>
      exact checks_respond (checks_fromIndex _ _ _) _
  | getActiveAlertsPaginated targetContract offset limit =>
      refine checks_respond ?_ _
      refine (checks_loadIndex _ _).bind fun _ => ?_
      exact checks_getState.bind fun _ => checks_activePageFrom _ _ _ _
  | getAlertsByOwner querier owner =>
      refine checks_respond ?_ _
      exact (checks_assertWatcherIfConfigured querier).bind fun _ =>
        checks_fromIndex _ _ _
  | getContractAlertsPaginated querier targetContract offset limit =>
      refine checks_respond ?_ _
      refine (checks_assertWatcherIfConfigured querier).bind fun _ => ?_
      exact (checks_loadIndex _ _).bind fun _ =>
        checks_configsPaginated _ _ _
  | getAlertsByOwnerPaginated querier owner offset limit =>
      refine checks_respond ?_ _
      refine (checks_assertWatcherIfConfigured querier).bind fun _ => ?_
      exact (checks_loadIndex _ _).bind fun _ =>
        checks_configsPaginated _ _ _
  | getAlert id => exact absurd rfl (hget id)
  | getAlertActive id => exact checks_respond (checks_persistentGet _) _
  | getAlertsModifiedSince since =>
      refine checks_respond ?_ _
      refine (checks_instanceGet _).bind fun _ => ?_
      exact checks_getState.bind fun _ => checks_pure _
  | getAlertsUpdatedSince targetContract since offset limit =>
      exact checks_respond (checks_fromIndex _ _ _) _
  | getAlertCount =>
      refine checks_respond ?_ _
      exact (checks_instanceGet _).bind fun _ => checks_pure _
  | getActiveAlertCount owner =>
      exact checks_respond (checks_fromIndex _ _ _) _
  | _ => simp [Call.isQuery] at hquery

end AlertRegistry
end TxWatch
