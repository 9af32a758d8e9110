import TxWatch.AlertRegistry.IdLifecycle

/-!
# What the query entry points answer

Each loop over a list of ids is a filter of the records found under them, so
that the answers of the queries become statements about lists.
-/

namespace TxWatch
namespace AlertRegistry

open Soroban Soroban.Contract Indexed

section Answers

variable (env : Env) (s : State)

/-- What the entry points that return alert configs answer, once the querier
has passed the gate where there is one. -/
theorem invoke_readsAlerts
    {call : Call} (hcall : call.readsAlerts = true)
    (hgate : ∀ q, call.querier = some q →
      (assertWatcherIfConfigured q).Returns env s.silenced () s.silenced) :
    (invoke env call s).1 = .ok (.alerts (s.view.readout call)) := by
  rw [invoke_of_returns (returns_readsAlerts env s.silenced hcall hgate)]
  rfl

theorem invoke_getAlertsModifiedSince (since : Nat) :
    (invoke env (.getAlertsModifiedSince since) s).1 =
      .ok (.alerts (s.allRecords.filter (fun cfg => cfg.updatedAt ≥ since))) := by
  exact (invoke_query_iff rfl _).mpr rfl

theorem invoke_getAlertsUpdatedSince
    (target : Address) (since : Nat)
    (hlength : (s.listed .contract target).length ≤ u32Max) :
    (invoke env (.getAlertsUpdatedSince target since 0 u32Max) s).1 =
      .ok (.alerts ((s.records (s.listed .contract target)).filter
        (fun cfg => cfg.updatedAt ≥ since))) := by
  have hrecords : ((s.records (s.listed .contract target)).filter
      (fun cfg => cfg.updatedAt ≥ since)).length ≤ u32Max := by
    refine le_trans (List.length_filter_le _ _) ?_
    exact le_trans (List.length_filterMap_le _ _) hlength
  have hread : (invoke env (.getAlertsUpdatedSince target since 0 u32Max) s).1 =
      .ok (.alerts ((((s.records (s.listed .contract target)).filter
        (fun cfg => cfg.updatedAt ≥ since)).drop 0).take u32Max)) :=
    (invoke_query_iff rfl _).mpr rfl
  rw [hread, List.drop_zero, List.take_of_length_le hrecords]

theorem invoke_getActiveAlertsForContract (target : Address) :
    (invoke env (.getActiveAlertsForContract target) s).1 =
      .ok (.alerts ((s.records (s.listed .contract target)).filter
        (fun cfg => cfg.active))) := by
  exact (invoke_query_iff rfl _).mpr rfl

theorem invoke_getAlertIdsByOwner (owner : Address) :
    (invoke env (.getAlertIdsByOwner owner) s).1 =
      .ok (.numbers (s.view.table.live (s.listed .owner owner))) := by
  exact (invoke_query_iff rfl _).mpr rfl

theorem invoke_getActiveAlertCount (owner : Address) :
    (invoke env (.getActiveAlertCount owner) s).1 =
      .ok (.number (s.view.table.live (s.listed .owner owner)).length) := by
  exact (invoke_query_iff rfl _).mpr rfl

section Open

variable (hopen : s.inst .watchreg = none)

include hopen

/-- Without a watcher registry the gate is open. -/
theorem returns_assertWatcherIfConfigured_of_none (querier : Address) :
    (assertWatcherIfConfigured querier).Returns env s.silenced () s.silenced := by
  have hnone : s.silenced.inst .watchreg = none := hopen
  simp [assertWatcherIfConfigured, hnone]

theorem invoke_getAlertsByOwner_of_none (querier owner : Address) :
    (invoke env (.getAlertsByOwner querier owner) s).1 =
      .ok (.alerts (s.records (s.listed .owner owner))) := by
  exact invoke_readsAlerts env s rfl
    fun q _ => returns_assertWatcherIfConfigured_of_none env s hopen q

theorem invoke_getAlertsForContract_of_none (querier target : Address) :
    (invoke env (.getAlertsForContract querier target) s).1 =
      .ok (.alerts (s.records (s.listed .contract target))) := by
  exact invoke_readsAlerts env s rfl
    fun q _ => returns_assertWatcherIfConfigured_of_none env s hopen q

end Open

end Answers

end AlertRegistry
end TxWatch
