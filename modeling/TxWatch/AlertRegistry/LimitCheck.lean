import TxWatch.AlertRegistry.BatchRegistration
import TxWatch.AlertRegistry.FailureAtomicity
import TxWatch.AlertRegistry.Readings
import TxWatch.Soroban.Lockstep

/-!
# The limit check

`assert_per_owner_limit_for` counts the live alerts of an owner and takes the
dead ids off the owner's list on the way.  It does so in any storage, whatever
ids the list holds, and no query about the owner can tell that it has.
-/

namespace TxWatch
namespace AlertRegistry

open Soroban Soroban.Contract Indexed

/-- The ids on the list of an owner that have a live alert, in their order. -/
def State.liveListed (s : State) (owner : Address) : List Nat :=
  (s.listed .owner owner).filter (fun id => s.persistent.has (.alert id))

/-- Of `s`, the storage `s'` lacks the dead ids on the list of one owner, and
the list itself if none of its ids is left.  Nothing else differs, not even a
lifetime. -/
structure Pruned (owner : Address) (s s' : State) : Prop where
  listed : s'.listed .owner owner = s.liveListed owner
  absent : s.liveListed owner = [] → s.listed .owner owner ≠ [] →
    s'.persistent.has (.ownerIndex owner) = false
  untouched : s.liveListed owner = s.listed .owner owner → s' = s
  elsewhere : ∀ k, k ≠ .ownerIndex owner → s'.persistent k = s.persistent k
  inst : s'.inst = s.inst
  instLiveUntil : s'.instLiveUntil = s.instLiveUntil
  events : s'.events = s.events

/-- The queries about an owner have the same results in both storages. -/
structure AnswersAlike (env : Env) (owner : Address) (s s' : State) : Prop where
  alerts : ∀ querier,
    (invoke env (.getAlertsByOwner querier owner) s').1 =
      (invoke env (.getAlertsByOwner querier owner) s).1
  ids : (invoke env (.getAlertIdsByOwner owner) s').1 =
    (invoke env (.getAlertIdsByOwner owner) s).1
  count : (invoke env (.getActiveAlertCount owner) s').1 =
    (invoke env (.getActiveAlertCount owner) s).1

section Pruning

variable (s : State) (owner : Address)

theorem liveListed_eq : s.liveListed owner = s.view.liveOf owner := by
  rw [Registry.liveOf, live_eq_filter]
  rfl

theorem listed_prunedFor
    (hlimit : 0 < s.view.limit) (ledger : Nat) :
    (s.prunedFor ledger owner).listed .owner owner = s.liveListed owner := by
  calc (s.prunedFor ledger owner).listed .owner owner
      = (s.prunedFor ledger owner).view.table.index .owner owner := rfl
    _ = s.view.liveOf owner := by
        rw [view_prunedFor, Registry.prunedFor, if_pos hlimit]
        simp [Table.prune, Table.index_setIndex, Registry.liveOf]
    _ = s.liveListed owner := (liveListed_eq s owner).symm

theorem pruned_prunedFor
    (hlimit : 0 < s.view.limit) (ledger : Nat) :
    Pruned owner s (s.prunedFor ledger owner) := by
  have honly := onlyPruned_prunedFor s ledger owner
  refine ⟨listed_prunedFor s owner hlimit ledger, ?_, ?_, honly.elsewhere,
    honly.inst, honly.instLiveUntil, honly.events⟩
  · intro hnone hlisted
    rw [liveListed_eq] at hnone
    have hlength : (s.view.liveOf owner).length ≠
        (s.view.table.index .owner owner).length := by
      intro heq
      rw [hnone] at heq
      exact hlisted (List.length_eq_zero_iff.mp heq.symm)
    rw [State.prunedFor, if_pos ⟨hlimit, hlength⟩, State.relist, hnone]
    simp [Store.has_eq_isSome_get]
  · intro hsame
    rw [liveListed_eq] at hsame
    rw [State.prunedFor, if_neg]
    rintro ⟨-, hlength⟩
    exact hlength (congrArg List.length hsame)

end Pruning

section Answers

/-- Dead ids contribute no record. -/
theorem records_live (s : State) (ids : List Nat) :
    s.records (s.view.table.live ids) = s.records ids := by
  induction ids with
  | nil => rfl
  | cons id rest ih =>
      cases hget : s.alertAt id with
      | none =>
          have hrow : s.view.table.row id = none := hget
          simpa [State.records, Table.live, hget, hrow] using ih
      | some cfg =>
          have hrow : s.view.table.row id = some cfg := hget
          simpa [State.records, Table.live, hget, hrow] using ih

variable {env : Env} {s t : State}

theorem assertWatcherIfConfigured_endsAlike
    (hinst : t.inst = s.inst) (querier : Address) :
    EndsAlike (assertWatcherIfConfigured querier) env s t := by
  refine endsAlike_bind_instanceGet (congrFun hinst .watchreg) ?_
  cases s.inst .watchreg with
  | none => exact endsAlike_pure ()
  | some registryAddr =>
      refine (checks_askPeer (P := NotDuplicate) _ _).bind_endsAlike
        (endsAlike_askPeer _ _) fun _ _ => ?_
      exact endsAlike_rejectIf _ _

/-- The alerts of an owner, behind the gate. -/
theorem getAlertsByOwner_endsAlike
    (hinst : t.inst = s.inst) (querier owner : Address)
    (hrecords : t.records (t.listed .owner owner) =
      s.records (s.listed .owner owner)) :
    EndsAlike (getAlertsByOwner querier owner) env s t := by
  refine (checks_assertWatcherIfConfigured querier).bind_endsAlike
    (assertWatcherIfConfigured_endsAlike hinst querier) fun _ _ => ?_
  have hreads : ∀ u : State, ((do
      let ids ← ownerIndex owner
      pure (configsForIds (← getState) ids)) : Contract (List AlertConfig)).Returns
        env u (u.records (u.listed .owner owner)) u := by
    intro u
    simp only [ownerIndex, returns_bind, returns_loadIndex, returns_getState,
      returns_pure]
    exact ⟨_, _, ⟨rfl, rfl⟩, _, _, ⟨rfl, rfl⟩, (configsForIds_eq u _).symm, rfl⟩
  have ht := hreads t
  rw [hrecords] at ht
  exact endsAlike_of_returns (hreads s) ht

/-- What is listed live and which records there are decide the answers. -/
theorem answersAlike_of_live
    (hinst : t.inst = s.inst) {owner : Address}
    (hlive : t.view.liveOf owner = s.view.liveOf owner)
    (hrow : t.view.table.row = s.view.table.row) :
    AnswersAlike env owner s t := by
  have halert : t.alertAt = s.alertAt := hrow
  have hrecords : t.records (t.listed .owner owner) =
      s.records (s.listed .owner owner) := by
    calc t.records (t.listed .owner owner)
        = t.records (t.view.liveOf owner) := (records_live t _).symm
      _ = s.records (s.view.liveOf owner) := by
          rw [hlive, State.records, State.records, halert]
      _ = s.records (s.listed .owner owner) := records_live s _
  refine ⟨?_, ?_, ?_⟩
  · intro querier
    rw [invoke_fst, invoke_fst]
    exact (getAlertsByOwner_endsAlike (t := t.silenced) (s := s.silenced) hinst querier
      owner hrecords).map _
  · rw [invoke_getAlertIdsByOwner, invoke_getAlertIdsByOwner]
    exact congrArg (fun ids => Except.ok (Response.numbers ids)) hlive
  · rw [invoke_getActiveAlertCount, invoke_getActiveAlertCount]
    exact congrArg (fun ids => Except.ok (Response.number ids.length)) hlive

end Answers

section Check

variable {s : State} {owner : Address} {additional limit : Nat}

theorem fits_iff
    (hlimit : s.inst .limit = some limit) (hpos : 0 < limit)
    (hsize : (s.listed .owner owner).length + additional < 2 ^ 32) :
    s.view.Fits owner additional ↔
      (s.liveListed owner).length + additional ≤ limit := by
  have hview : s.view.limit = limit := by
    change (s.inst .limit).getD 0 = limit
    rw [hlimit]
    rfl
  have hle : (s.liveListed owner).length ≤ (s.listed .owner owner).length :=
    List.length_filter_le _ _
  unfold Registry.Fits saturatingAdd32 u32Max
  rw [hview, ← liveListed_eq]
  simp only [hpos, true_imp_iff]
  omega

/-- The outcome of the limit check, and what it leaves either way. -/
theorem run_assertPerOwnerLimitFor (env : Env) (s : State) (owner : Address)
    (additional : Nat) :
    (assertPerOwnerLimitFor owner additional).run env s =
      (if s.view.Fits owner additional then .ok ()
        else .error (.error .ownerAlertLimitExceeded),
        s.prunedFor env.sequence owner) := by
  by_cases hfits : s.view.Fits owner additional
  · rw [if_pos hfits]
    exact (returns_assertPerOwnerLimitFor owner additional ()).mpr ⟨hfits, rfl⟩
  · rw [if_neg hfits]
    exact (fails_assertPerOwnerLimitFor owner additional _).mpr
      ⟨hfits, rfl, rfl⟩

/-- In any storage with a limit, the check passes exactly when the live alerts
of the owner and the additional ones are within it, and fails for the limit
otherwise.  Either way it prunes the list of the owner and nothing else, and the
queries about the owner answer as before. -/
theorem limit_check_prunes
    (s : State) (env : Env) (owner : Address) (additional limit : Nat)
    (hlimit : s.inst .limit = some limit) (hpos : 0 < limit)
    (hsize : (s.listed .owner owner).length + additional < 2 ^ 32) :
    (((assertPerOwnerLimitFor owner additional).run env s).1 = .ok () ↔
      (s.liveListed owner).length + additional ≤ limit) ∧
    (((assertPerOwnerLimitFor owner additional).run env s).1 =
        .error (.error .ownerAlertLimitExceeded) ↔
      limit < (s.liveListed owner).length + additional) ∧
    Pruned owner s ((assertPerOwnerLimitFor owner additional).run env s).2 ∧
    ∀ env' : Env, AnswersAlike env' owner s
      ((assertPerOwnerLimitFor owner additional).run env s).2 := by
  have hview : 0 < s.view.limit := by
    change 0 < (s.inst .limit).getD 0
    rw [hlimit]
    exact hpos
  have hpruned := pruned_prunedFor s owner hview env.sequence
  rw [run_assertPerOwnerLimitFor, ← Nat.not_le,
    ← fits_iff hlimit hpos hsize]
  refine ⟨?_, ?_, hpruned, ?_⟩
  · by_cases hfits : s.view.Fits owner additional
    · simp [hfits]
    · simp [hfits]
  · by_cases hfits : s.view.Fits owner additional
    · simp [hfits]
    · simp [hfits]
  · intro env'
    refine answersAlike_of_live hpruned.inst ?_ ?_
    · rw [view_prunedFor, Registry.liveOf_prunedFor]
    · rw [view_prunedFor, Registry.row_prunedFor]

/-- With one live id on a list of two, two more alerts fit under a limit of
three, and the live id stays. -/
theorem limit_check_prunes_fillingRun :
    ((assertPerOwnerLimitFor alice 2).run (envAt 4 [alice])
        (run exec State.empty fillingRun)).1 = .ok () ∧
      ((assertPerOwnerLimitFor alice 2).run (envAt 4 [alice])
        (run exec State.empty fillingRun)).2.listed .owner alice = [1] := by
  have h := limit_check_prunes (run exec State.empty fillingRun)
    (envAt 4 [alice]) alice 2 3 (by rfl) (by decide) (by decide)
  have hlive : (run exec State.empty fillingRun).liveListed alice = [1] := by
    rfl
  refine ⟨h.1.mpr ?_, h.2.2.1.listed.trans hlive⟩
  rw [hlive]
  decide

end Check

end AlertRegistry
end TxWatch
