import TxWatch.AlertRegistry.OwnerLimit
import TxWatch.Soroban.Traps

/-!
# Counters with overflow checks

The release profile of the workspace sets `overflow-checks`, so that a counter
that leaves its type aborts the call.  Here are the entry points that count, with
their loops over positions and their additions as the machine carries them out.
On storage whose vectors a host can hold they are the plain ones.
-/

namespace TxWatch
namespace AlertRegistry

open Soroban Soroban.Contract Indexed

/-- No list is longer than a host vector, whose length is a `u32`. -/
def State.Hosted (s : State) : Prop :=
  ∀ kind a, (s.listed kind a).length ≤ u32Max

/-- It takes more than `u32::MAX` registrations to outgrow one. -/
theorem hosted_run
    {steps : List Step}
    (h : (run exec State.empty steps).counter ≤ u32Max) :
    (run exec State.empty steps).Hosted := by
  intro kind a
  exact (length_listed_le_counter steps kind a).trans h

namespace OverflowChecked

section EntryPoints

/-- One round of the loop of `bulk_renew_ttl`. -/
def bulkRenewRound (renewed id : Nat) : Contract Nat := do
  match ← persistentGet (DataKey.alert id) with
  | none => pure renewed
  | some config =>
      persistentExtendTtl (.alert id) defaultTtl defaultTtl
      persistentExtendTtl (.alertActive id) defaultTtl defaultTtl
      persistentExtendTtl (.ownerIndex config.owner) defaultTtl defaultTtl
      persistentExtendTtl (.contractIndex config.targetContract)
        defaultTtl defaultTtl
      publish ⟨(.alert, .bump), [.u64 id, .u32 defaultTtl]⟩
      addChecked32 renewed 1

/-- `bulk_renew_ttl` with a checked count. -/
def bulkRenewTtl (configIds : List Nat) : Contract Nat := do
  rejectIf (configIds.length > maxBatchSize) .tooManyRules
  forIndices configIds bulkRenewRound configIds.length 0 0

/-- One round of the loop of `deactivate_all_alerts`. -/
def deactivateRound (count id : Nat) : Contract Nat := do
  match ← persistentGet (DataKey.alert id) with
  | none => pure count
  | some cfg =>
      if cfg.active then
        let now ← timestamp
        persistentStore (.alert id)
          { cfg with active := false, updatedAt := now } defaultTtl
        persistentStore (.alertActive id) false defaultTtl
        addChecked32 count 1
      else
        pure count

/-- `deactivate_all_alerts` with a checked count. -/
def deactivateAllAlerts (caller : Address) : Contract Nat := do
  assertNotPaused
  requireAuth caller
  let ids ← ownerIndex caller
  forIndices ids deactivateRound ids.length 0 0

/-- The loop of `get_alerts_updated_since`. -/
def updatedSinceFrom (since offset limit : Nat) :
    List Nat → (skipped : Nat) → (out : List AlertConfig) →
      Contract (List AlertConfig)
  | [], _, out => pure out
  | id :: rest, skipped, out =>
      if out.length ≥ limit then pure out
      else do
        match ← persistentGet (DataKey.alert id) with
        | none => updatedSinceFrom since offset limit rest skipped out
        | some cfg =>
            if cfg.updatedAt ≥ since then
              if skipped < offset then
                let skipped ← addChecked32 skipped 1
                updatedSinceFrom since offset limit rest skipped out
              else
                updatedSinceFrom since offset limit rest skipped (out ++ [cfg])
            else updatedSinceFrom since offset limit rest skipped out

/-- `get_alerts_updated_since` with a checked count of the alerts skipped. -/
def getAlertsUpdatedSince (targetContract : Address)
    (since offset limit : Nat) : Contract (List AlertConfig) := do
  let ids ← contractIndex targetContract
  updatedSinceFrom since offset limit ids 0 []

/-- One round of the loop of `get_active_alert_count`. -/
def activeCountRound (count id : Nat) : Contract Nat := do
  if ← persistentHas (DataKey.alert id) then addChecked32 count 1
  else pure count

/-- `get_active_alert_count` with a checked count. -/
def getActiveAlertCount (owner : Address) : Contract Nat := do
  let ids ← ownerIndex owner
  forIndices ids activeCountRound ids.length 0 0

/-- The entry point of a call. -/
def dispatch : Call → Contract Response
  | .bulkRenewTtl configIds => respond .number (bulkRenewTtl configIds)
  | .deactivateAllAlerts caller => respond .number (deactivateAllAlerts caller)
  | .getAlertsUpdatedSince targetContract since offset limit =>
      respond .alerts (getAlertsUpdatedSince targetContract since offset limit)
  | .getActiveAlertCount owner => respond .number (getActiveAlertCount owner)
  | call => AlertRegistry.dispatch call

/-- Outcome of a call and the storage it leaves behind. -/
def invoke (env : Env) (call : Call) (s : State) :
    Except (Failure ContractError) Response × State :=
  (dispatch call).transact env s

end EntryPoints

section Loops

theorem foldlM_bulkRenewRound
    (ids : List Nat) (renewed : Nat) (h : renewed + ids.length ≤ u32Max) :
    ids.foldlM bulkRenewRound renewed = bulkRenewFrom ids renewed := by
  induction ids generalizing renewed with
  | nil => rfl
  | cons id rest ih =>
      rw [List.length_cons] at h
      rw [List.foldlM_cons, bulkRenewRound, bulkRenewFrom, bind_bind]
      congr 1
      funext o
      cases o with
      | none => exact ih renewed (by omega)
      | some config =>
          simp only [bind_bind, addChecked32_of_le (show renewed + 1 ≤ u32Max by omega)]
          rw [← ih (renewed + 1) (by omega)]
          rfl

theorem foldlM_deactivateRound
    (ids : List Nat) (count : Nat) (h : count + ids.length ≤ u32Max) :
    ids.foldlM deactivateRound count = deactivateFrom ids count := by
  induction ids generalizing count with
  | nil => rfl
  | cons id rest ih =>
      rw [List.length_cons] at h
      rw [List.foldlM_cons, deactivateRound, deactivateFrom, bind_bind]
      congr 1
      funext o
      cases o with
      | none => exact ih count (by omega)
      | some cfg =>
          by_cases hactive : cfg.active = true
          · simp only [hactive, if_true, bind_bind,
              addChecked32_of_le (show count + 1 ≤ u32Max by omega)]
            rw [← ih (count + 1) (by omega)]
            rfl
          · simp only [hactive]
            exact ih count (by omega)

theorem returns_updatedSinceFrom
    (env : Env) (s : State) (since offset limit : Nat) (ids : List Nat)
    (skipped : Nat) (out : List AlertConfig)
    (h : skipped + ids.length ≤ u32Max) :
    (updatedSinceFrom since offset limit ids skipped out).Returns env s
      (AlertRegistry.updatedSinceFrom s since offset limit ids skipped out) s := by
  induction ids generalizing skipped out with
  | nil => simp [updatedSinceFrom, AlertRegistry.updatedSinceFrom]
  | cons id rest ih =>
      rw [List.length_cons] at h
      rw [updatedSinceFrom, AlertRegistry.updatedSinceFrom]
      by_cases hfull : out.length ≥ limit
      · simp [hfull]
      · simp only [hfull, if_false, returns_bind, returns_persistentGet]
        refine ⟨_, _, ⟨rfl, rfl⟩, ?_⟩
        cases hget : s.persistent.get (.alert id) with
        | none => exact ih skipped out (by omega)
        | some cfg =>
            by_cases hsince : cfg.updatedAt ≥ since
            · simp only [hsince, if_true]
              by_cases hskip : skipped < offset
              · have hroom : skipped + 1 ≤ u32Max := by
                  omega
                simp only [hskip, if_true, addChecked32_of_le hroom]
                exact ih (skipped + 1) out (by omega)
              · simp only [hskip, if_false]
                exact ih skipped (out ++ [cfg]) (by omega)
            · simp only [hsince, if_false]
              exact ih skipped out (by omega)

theorem returns_activeCount
    (env : Env) (s : State) (ids : List Nat) (count : Nat)
    (h : count + ids.length ≤ u32Max) :
    (ids.foldlM activeCountRound count).Returns env s
      (ids.foldl
        (fun count id =>
          if s.persistent.has (.alert id) then count + 1 else count) count) s := by
  induction ids generalizing count with
  | nil => simp
  | cons id rest ih =>
      rw [List.length_cons] at h
      rw [List.foldlM_cons, List.foldl_cons, activeCountRound]
      simp only [returns_bind, returns_persistentHas]
      refine ⟨_, _, ⟨_, _, ⟨rfl, rfl⟩, ?_⟩, ih _ (by split_ifs <;> omega)⟩
      by_cases hhas : s.persistent.has (.alert id) = true
      · have hroom : count + 1 ≤ u32Max := by
          omega
        simp [hhas, addChecked32_of_le hroom]
      · simp [hhas]

end Loops

section Agreement

variable {s : State}

/-- The loops of a state whose vectors a host can hold count without overflow. -/
theorem run_dispatch
    (h : s.Hosted) (env : Env) (call : Call) :
    (dispatch call).run env s = (AlertRegistry.dispatch call).run env s := by
  cases call with
  | bulkRenewTtl ids =>
      refine run_bind_congr_left ?_ _
      refine run_bind_congr ?_
      intro u t hsize
      rw [returns_rejectIf] at hsize
      rw [forIndices_all, foldlM_bulkRenewRound]
      simp only [maxBatchSize] at hsize
      simp only [u32Max]
      omega
  | deactivateAllAlerts caller =>
      refine run_bind_congr_left ?_ _
      refine run_bind_congr ?_
      intro u t hpaused
      obtain ⟨-, rfl⟩ := (returns_assertNotPaused u).mp hpaused
      refine run_bind_congr ?_
      intro u' t hauth
      obtain ⟨-, rfl⟩ := (returns_requireAuth caller u').mp hauth
      refine run_bind_congr ?_
      intro ids t hids
      obtain ⟨rfl, rfl⟩ := (returns_loadIndex .owner caller ids).mp hids
      rw [forIndices_all, foldlM_deactivateRound]
      have hlen := h .owner caller
      simpa [State.listed, view_index] using hlen
  | getAlertsUpdatedSince target since offset limit =>
      refine run_bind_congr_left ?_ _
      refine run_bind_congr ?_
      intro ids t hids
      obtain ⟨rfl, rfl⟩ := (returns_loadIndex .contract target ids).mp hids
      have hlen := h .contract target
      exact returns_updatedSinceFrom env t since offset limit _ 0 []
        (by simpa [State.listed, view_index] using hlen)
  | getActiveAlertCount owner =>
      refine run_bind_congr_left ?_ _
      refine run_bind_congr ?_
      intro ids t hids
      obtain ⟨rfl, rfl⟩ := (returns_loadIndex .owner owner ids).mp hids
      have hlen := h .owner owner
      rw [forIndices_all]
      exact returns_activeCount env t _ 0
        (by simpa [State.listed, view_index] using hlen)
  | _ => rfl

theorem invoke_eq
    (h : s.Hosted) (env : Env) (call : Call) :
    invoke env call s = AlertRegistry.invoke env call s := by
  have hagree := run_dispatch (s := s.silenced) h env call
  rcases hrun : (AlertRegistry.dispatch call).run env s.silenced with ⟨f | resp, s'⟩
  · rw [hrun] at hagree
    rw [invoke_of_fails hrun, invoke, transact_of_fails hagree]
  · rw [hrun] at hagree
    rw [invoke_of_returns hrun, invoke, transact_of_returns hagree]

end Agreement

end OverflowChecked

end AlertRegistry
end TxWatch
