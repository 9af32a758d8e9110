import TxWatch.AlertRegistry.Queries
import TxWatch.AlertRegistry.Specs
import TxWatch.AlertRegistry.IndexCoherence
import TxWatch.AlertRegistry.RuleGrammar

/-!
# Calls that end in a contract error

What a call has written by the time it returns an error, read off its own
sequence of writes and without the rollback of the host: at most the pruning of
one owner's list by the limit check.

Four entry points write before they append to a list, which fails if the id is
on it already.  In a safe registry it never is: a fresh id is listed nowhere,
and an alert is on no list but its own.
-/

namespace TxWatch
namespace AlertRegistry

open Soroban Soroban.Contract Indexed

/-- At most stale ids are gone, all from the list of one owner. -/
structure OnlyPruned (owner : Address) (s s' : State) : Prop where
  elsewhere : ∀ k, k ≠ .ownerIndex owner → s'.persistent k = s.persistent k
  pruned : s'.persistent (.ownerIndex owner) = s.persistent (.ownerIndex owner) ∨
    s'.listed .owner owner =
      (s.listed .owner owner).filter (fun id => s.persistent.has (.alert id))
  inst : s'.inst = s.inst
  instLiveUntil : s'.instLiveUntil = s.instLiveUntil
  events : s'.events = s.events

/-- The error a call ends in and what it has done by then. -/
def Refusal (s : State) (e : ContractError) (s' : State) : Prop :=
  NotDuplicate e ∧ ∃ owner, OnlyPruned owner s s'

section Pruning

variable (s : State) (ledger : Nat)

theorem relist_apply_of_ne
    {kind : IndexKind} {a : Address} {k : DataKey}
    (h : k ≠ .index kind a) (ids : List Nat) :
    (State.relist s ledger kind a ids).persistent k = s.persistent k := by
  unfold State.relist
  split_ifs
  · exact Store.remove_apply_of_ne s.persistent h
  · exact Store.store_apply_of_ne s.persistent ledger h ids defaultTtl

theorem inst_relist (kind : IndexKind) (a : Address) (ids : List Nat) :
    (State.relist s ledger kind a ids).inst = s.inst := by
  unfold State.relist
  split_ifs <;> rfl

theorem instLiveUntil_relist (kind : IndexKind) (a : Address) (ids : List Nat) :
    (State.relist s ledger kind a ids).instLiveUntil = s.instLiveUntil := by
  unfold State.relist
  split_ifs <;> rfl

theorem listed_relist (kind : IndexKind) (a : Address) (ids : List Nat) :
    (State.relist s ledger kind a ids).listed kind a = ids := by
  calc (State.relist s ledger kind a ids).listed kind a
      = (State.relist s ledger kind a ids).view.table.index kind a := rfl
    _ = ids := by
        rw [view_relist]
        simp [Registry.relist, Table.index_setIndex]

theorem onlyPruned_refl (owner : Address) : OnlyPruned owner s s := by
  exact ⟨fun _ _ => rfl, Or.inl rfl, rfl, rfl, rfl⟩

/-- The limit check removes the ids of its owner that have no live alert. -/
theorem onlyPruned_prunedFor (owner : Address) :
    OnlyPruned owner s (s.prunedFor ledger owner) := by
  unfold State.prunedFor
  split_ifs with h
  · refine ⟨?_, Or.inr ?_, ?_, ?_, ?_⟩
    · intro k hk
      exact relist_apply_of_ne s ledger hk _
    · rw [listed_relist, Registry.liveOf, live_eq_filter]
      rfl
    · exact inst_relist s ledger _ _ _
    · exact instLiveUntil_relist s ledger _ _ _
    · exact events_relist s ledger _ _ _
  · exact onlyPruned_refl s owner

variable {s}

/-- Failing before the first write. -/
theorem refusal_self (e : ContractError) (h : NotDuplicate e) :
    Refusal s e s := by
  exact ⟨h, ⟨0⟩, onlyPruned_refl s ⟨0⟩⟩

end Pruning

section Validation

/-- A sequence of checks fails in the first one or after it. -/
theorem except_bind_error
    {α β : Type} {x : Except ContractError α}
    {f : α → Except ContractError β} {e : ContractError}
    (h : (x >>= f) = .error e) :
    x = .error e ∨ ∃ a, x = .ok a ∧ f a = .error e := by
  cases x with
  | error e' =>
      obtain rfl : e' = e := Except.error.inj h
      exact Or.inl rfl
  | ok a => exact Or.inr ⟨a, rfl, h⟩

theorem notDuplicate_validateLabel
    (label : HostString) (e : ContractError)
    (h : validateLabel label = .error e) :
    NotDuplicate e := by
  unfold validateLabel at h
  split_ifs at h
  obtain rfl := Except.error.inj h
  decide

theorem notDuplicate_validateTagList
    (tags : List HostString) (e : ContractError)
    (h : validateTagList tags = .error e) :
    NotDuplicate e := by
  induction tags with
  | nil => simp [validateTagList] at h
  | cons tag rest ih =>
      rw [validateTagList] at h
      split_ifs at h
      · obtain rfl := Except.error.inj h
        decide
      · exact ih h

theorem notDuplicate_validateTags
    (tags : Option (List HostString)) (e : ContractError)
    (h : validateTags tags = .error e) :
    NotDuplicate e := by
  cases tags with
  | none => simp [validateTags] at h
  | some t =>
      rw [validateTags] at h
      split_ifs at h
      · obtain rfl := Except.error.inj h
        decide
      · exact notDuplicate_validateTagList t e h

theorem notDuplicate_validateRules
    (rules : List HostString) (e : ContractError)
    (h : validateRules rules = .error e) :
    NotDuplicate e := by
  rcases validateRules_error_cases h with ⟨rfl, -⟩ | ⟨rfl, -⟩ | rfl | rfl
  all_goals decide

theorem notDuplicate_validateInputs
    (inputs : List AlertInput) (e : ContractError)
    (h : validateInputs inputs = .error e) :
    NotDuplicate e := by
  induction inputs with
  | nil => simp [validateInputs] at h
  | cons input rest ih =>
      rw [validateInputs] at h
      split_ifs at h
      · obtain rfl := Except.error.inj h
        decide
      · rcases except_bind_error h with hlabel | ⟨-, -, h⟩
        · exact notDuplicate_validateLabel _ _ hlabel
        · rcases except_bind_error h with hrules | ⟨-, -, hrest⟩
          · exact notDuplicate_validateRules _ _ hrules
          · exact ih hrest

end Validation

section Writers

variable {env : Env} {s s' : State}

@[simp] theorem fails_loadIndex
    (kind : IndexKind) (a : Address) (f : Failure ContractError) :
    ¬ (loadIndex kind a).Fails env s f s' := by
  simp [loadIndex]

@[simp] theorem fails_removeFromIndex
    (kind : IndexKind) (a : Address) (id : Nat) (f : Failure ContractError) :
    ¬ (removeFromIndex kind a id).Fails env s f s' := by
  simp [removeFromIndex]

@[simp] theorem fails_pushIndex
    (kind : IndexKind) (a : Address) (id : Nat) (f : Failure ContractError) :
    (pushIndex kind a id).Fails env s f s' ↔
      id ∈ s.view.table.index kind a ∧
        f = .error .duplicateAlertId ∧ s' = s := by
  simp [pushIndex]

/-- The limit check fails after it has pruned the list. -/
@[simp] theorem fails_assertPerOwnerLimitFor
    (owner : Address) (additional : Nat) (f : Failure ContractError) :
    (assertPerOwnerLimitFor owner additional).Fails env s f s' ↔
      ¬ s.view.Fits owner additional ∧
        f = .error .ownerAlertLimitExceeded ∧
        s' = s.prunedFor env.sequence owner := by
  have hlimit : (s.inst .limit).getD 0 = s.view.limit := by
    rfl
  have hlive : s.view.table.live (s.view.table.index .owner owner) =
      s.view.liveOf owner := by
    rfl
  simp only [assertPerOwnerLimitFor, getPerOwnerAlertLimit, ownerIndex,
    fails_bind, fails_instanceGet, fails_pure, fails_whenever, fails_loadIndex,
    fails_getState, fails_ite, fails_rejectIf, fails_persistentRemove,
    fails_persistentStore,
    returns_bind, returns_instanceGet, returns_pure, returns_whenever,
    returns_getState, returns_loadIndex, returns_ite,
    returns_persistentRemove, returns_persistentStore, liveIds_eq_live,
    exists_and_left, exists_eq_left, and_assoc, hlimit, hlive,
    and_false, false_or, or_self, exists_false]
  unfold Registry.Fits State.prunedFor State.relist
  by_cases hpos : 0 < s.view.limit
  · by_cases hlen : (s.view.liveOf owner).length =
        (s.view.table.index .owner owner).length
    · simp [hpos, hlen]
      tauto
    · by_cases hnil : s.view.liveOf owner = []
      · have hne : 0 ≠ (s.view.table.index .owner owner).length := by
          simpa [hnil] using hlen
        simp [hpos, hnil, hne, and_comm, and_assoc]
      · simp [hpos, hlen, hnil, and_comm, and_assoc]
  · simp [hpos]

theorem unfailing_bulkRenewFrom (ids : List Nat) (renewed : Nat) :
    Unfailing (bulkRenewFrom ids renewed) := by
  intro env s e s' h
  induction ids generalizing renewed s with
  | nil => simp [bulkRenewFrom] at h
  | cons id rest ih =>
      simp only [bulkRenewFrom, fails_bind, fails_persistentGet,
        returns_persistentGet, false_or] at h
      obtain ⟨o, t, ⟨rfl, rfl⟩, h⟩ := h
      cases hget : t.persistent.get (.alert id) with
      | none =>
          rw [hget] at h
          exact ih _ _ h
      | some cfg =>
          rw [hget] at h
          simp only [fails_bind, fails_persistentExtendTtl, fails_publish,
            reduceCtorEq, and_false, false_and, false_or] at h
          obtain ⟨_, _, -, _, _, -, _, _, -, _, _, -, _, _, -, hrest⟩ := h
          exact ih _ _ hrest

end Writers

section EntryPoints

variable {env : Env} {s : State}

/-- Checks may stand in front. -/
theorem check_refuses
    {α β : Type} {m : Contract α} {f : α → Contract β}
    (hm : Checks NotDuplicate m)
    (hf : ∀ a, m.Returns env s a s → ErrsWithin (Refusal s) (f a) env s) :
    ErrsWithin (Refusal s) (m >>= f) env s := by
  exact hm.bind_errsWithin refusal_self hf

theorem writes_refuse
    {α : Type} {m : Contract α} (hm : Unfailing m) :
    ErrsWithin (Refusal s) m env s := by
  exact hm.errsWithin _ env s

theorem respond_refuses
    {α : Type} {m : Contract α} (hm : ErrsWithin (Refusal s) m env s)
    (f : α → Response) :
    ErrsWithin (Refusal s) (respond f m) env s := by
  intro e s' h
  rw [respond, fails_bind] at h
  rcases h with h | ⟨a, t, -, h⟩
  · exact hm e s' h
  · exact absurd h (fails_pure _ _)

theorem checks_refuse
    {α : Type} {m : Contract α} (hm : Checks NotDuplicate m) :
    ErrsWithin (Refusal s) m env s := by
  intro e s' h
  obtain rfl := hm.fails h
  exact refusal_self e (hm.error env s' e s' h)

/-- The limit check, before a part that cannot fail. -/
theorem limit_refuses
    {α : Type} {owner : Address} {additional : Nat} {f : Unit → Contract α}
    (hf : ∀ e s',
      ¬ (f ()).Fails env (s.prunedFor env.sequence owner) (.error e) s') :
    ErrsWithin (Refusal s) (assertPerOwnerLimitFor owner additional >>= f)
      env s := by
  intro e s' h
  rw [fails_bind] at h
  rcases h with h | ⟨⟨⟩, t, hlimit, h⟩
  · rw [fails_assertPerOwnerLimitFor] at h
    obtain ⟨-, he, rfl⟩ := h
    obtain rfl := Failure.error.inj he
    exact ⟨by decide, owner, onlyPruned_prunedFor s env.sequence owner⟩
  · rw [returns_assertPerOwnerLimitFor] at hlimit
    obtain ⟨-, rfl⟩ := hlimit
    exact absurd h (hf e s')

section Registrations

/-- In a safe registry a fresh id is on no list, and the alert is created. -/
theorem createAlert_returns
    (hs : s.view.Safe) (hcount : s.view.nextId < u64Max) (cfg : AlertConfig) :
    (createAlert cfg).Returns env s s.view.nextId
      (s.created env.sequence cfg) := by
  have hfresh : ∀ kind a, s.view.nextId ∉ s.view.table.index kind a :=
    fun kind a => hs.within.not_listed (lt_irrefl s.view.nextId) kind a
  rw [returns_createAlert]
  exact ⟨rfl, hcount, hfresh .owner cfg.owner,
    hfresh .contract cfg.targetContract, rfl⟩

theorem registerInputs_returns
    {caller : Address} {now : Nat} {inputs : List AlertInput}
    (hs : s.view.Safe) (hcount : s.view.nextId + inputs.length ≤ u64Max)
    (ids : List Nat) :
    ∃ out t, (registerInputs caller now inputs ids).Returns env s out t := by
  induction inputs generalizing s ids with
  | nil => exact ⟨ids, s, by simp [registerInputs]⟩
  | cons input rest ih =>
      rw [List.length_cons] at hcount
      let cfg := input.toConfig caller now
      have hcreate : (createAlert cfg).Returns env s s.view.nextId
          (s.created env.sequence cfg) :=
        createAlert_returns hs (by omega) cfg
      have hs' : (s.created env.sequence cfg).view.Safe := by
        rw [view_created]
        exact hs.create cfg
      have hcount' : (s.created env.sequence cfg).view.nextId + rest.length ≤
          u64Max := by
        rw [view_created, Registry.nextId_create]
        omega
      obtain ⟨out, t, hrest⟩ := ih hs' hcount' (ids ++ [s.view.nextId])
      refine ⟨out, t, ?_⟩
      rw [registerInputs, returns_bind]
      exact ⟨_, _, hcreate, hrest⟩

theorem registerAlert_refuses
    (hs : s.view.Safe) (hcount : s.view.nextId + maxBatchSize ≤ u64Max)
    (owner targetContract : Address) (label webhookHash : HostString)
    (rules : List HostString) (tags : Option (List HostString)) :
    ErrsWithin (Refusal s)
      (registerAlert owner targetContract label webhookHash rules tags)
      env s := by
  refine check_refuses checks_assertNotPaused fun _ _ => ?_
  refine check_refuses (checks_rejectIf (by decide) _) fun _ _ => ?_
  refine check_refuses (checks_requireAuth owner) fun _ _ => ?_
  refine check_refuses
    (checks_ofExcept (notDuplicate_validateLabel label)) fun _ _ => ?_
  refine check_refuses
    (checks_ofExcept (notDuplicate_validateRules rules)) fun _ _ => ?_
  refine check_refuses
    (checks_ofExcept (notDuplicate_validateTags tags)) fun _ _ => ?_
  refine limit_refuses fun e s' h => ?_
  rw [fails_bind] at h
  rcases h with h | ⟨now, t, hnow, h⟩
  · exact fails_timestamp _ h
  · rw [returns_timestamp] at hnow
    obtain ⟨rfl, rfl⟩ := hnow
    have hsafe : (s.prunedFor env.sequence owner).view.Safe := by
      rw [view_prunedFor]
      exact hs.prunedFor owner
    have hlt : (s.prunedFor env.sequence owner).view.nextId < u64Max := by
      rw [view_prunedFor, Registry.nextId_prunedFor]
      have hpos : 0 < maxBatchSize := by decide
      omega
    exact (createAlert_returns hsafe hlt _).not_fails h

theorem batchRegisterAlerts_refuses
    (hs : s.view.Safe) (hcount : s.view.nextId + maxBatchSize ≤ u64Max)
    (caller : Address) (inputs : List AlertInput) :
    ErrsWithin (Refusal s) (batchRegisterAlerts caller inputs) env s := by
  refine check_refuses checks_assertNotPaused fun _ _ => ?_
  refine check_refuses (checks_rejectIf (by decide) _) fun _ hsize => ?_
  refine check_refuses (checks_requireAuth caller) fun _ _ => ?_
  refine check_refuses
    (checks_ofExcept (notDuplicate_validateInputs inputs)) fun _ _ => ?_
  refine limit_refuses fun e s' h => ?_
  rw [returns_rejectIf] at hsize
  rw [fails_bind] at h
  rcases h with h | ⟨now, t, hnow, h⟩
  · exact fails_timestamp _ h
  · rw [returns_timestamp] at hnow
    obtain ⟨rfl, rfl⟩ := hnow
    have hsafe : (s.prunedFor env.sequence caller).view.Safe := by
      rw [view_prunedFor]
      exact hs.prunedFor caller
    have hbound : (s.prunedFor env.sequence caller).view.nextId +
        inputs.length ≤ u64Max := by
      rw [view_prunedFor, Registry.nextId_prunedFor]
      omega
    obtain ⟨out, t, hreturns⟩ := registerInputs_returns hsafe hbound []
    exact hreturns.not_fails h

end Registrations

section Mutations

/-- The guards that most calls of an owner begin with. -/
theorem ownerGuards_refuse
    {caller : Address} {id : Nat} {f : AlertConfig → Contract Unit}
    (hf : ∀ cfg, s.view.table.row id = some cfg → cfg.owner = caller →
      ErrsWithin (Refusal s) (f cfg) env s) :
    ErrsWithin (Refusal s)
      (do
        requireAuth caller
        let config ← loadAlert id
        assertOwner config caller
        f config) env s := by
  refine check_refuses (checks_requireAuth caller) fun _ _ => ?_
  refine check_refuses (checks_loadAlert id) fun cfg hrow => ?_
  refine check_refuses (checks_assertOwner cfg caller) fun _ howner => ?_
  rw [returns_loadAlert] at hrow
  rw [returns_assertOwner] at howner
  exact hf cfg hrow.1 howner.1

theorem adminGuards_refuse
    {admin : Address} {f : Contract Unit}
    (hf : ErrsWithin (Refusal s) f env s) :
    ErrsWithin (Refusal s)
      (do
        requireAuth admin
        assertAdmin admin
        f) env s := by
  refine check_refuses (checks_requireAuth admin) fun _ _ => ?_
  exact check_refuses (checks_assertAdmin admin) fun _ _ => hf

theorem setAlertActiveByAdmin_refuses
    (admin : Address) (id : Nat) (active : Bool) :
    ErrsWithin (Refusal s) (setAlertActiveByAdmin admin id active) env s := by
  refine adminGuards_refuse (check_refuses (checks_loadAlert id) fun _ _ => ?_)
  exact writes_refuse (by intro env s e s'; simp)

theorem updateAlert_refuses
    (caller : Address) (id : Nat) (rules : List HostString) (active : Bool) :
    ErrsWithin (Refusal s) (updateAlert caller id rules active) env s := by
  refine check_refuses checks_assertNotPaused fun _ _ => ?_
  refine ownerGuards_refuse fun cfg _ _ => ?_
  refine check_refuses
    (checks_ofExcept (notDuplicate_validateRules rules)) fun _ _ => ?_
  exact writes_refuse (by intro env s e s'; simp)

theorem updateWebhook_refuses
    (caller : Address) (id : Nat) (webhookHash : HostString) :
    ErrsWithin (Refusal s) (updateWebhook caller id webhookHash) env s := by
  refine check_refuses checks_assertNotPaused fun _ _ => ?_
  refine ownerGuards_refuse fun cfg _ _ => ?_
  refine check_refuses (checks_rejectIf (by decide) _) fun _ _ => ?_
  exact writes_refuse (by intro env s e s'; simp)

theorem proposeWebhook_refuses
    (caller : Address) (id : Nat) (newWebhookHash : HostString) :
    ErrsWithin (Refusal s) (proposeWebhook caller id newWebhookHash) env s := by
  refine ownerGuards_refuse fun cfg _ _ => ?_
  exact writes_refuse (by intro env s e s'; simp)

theorem confirmWebhook_refuses (caller : Address) (id : Nat) :
    ErrsWithin (Refusal s) (confirmWebhook caller id) env s := by
  refine ownerGuards_refuse fun cfg _ _ => ?_
  refine check_refuses (checks_okOr (by decide) _) fun _ _ => ?_
  exact writes_refuse (by intro env s e s'; simp)

theorem updateLabel_refuses
    (caller : Address) (id : Nat) (label : HostString) :
    ErrsWithin (Refusal s) (updateLabel caller id label) env s := by
  refine check_refuses checks_assertNotPaused fun _ _ => ?_
  refine check_refuses (checks_requireAuth caller) fun _ _ => ?_
  refine check_refuses
    (checks_ofExcept (notDuplicate_validateLabel label)) fun _ _ => ?_
  refine check_refuses (checks_loadAlert id) fun cfg _ => ?_
  refine check_refuses (checks_assertOwner cfg caller) fun _ _ => ?_
  exact writes_refuse (by intro env s e s'; simp)

theorem updateTags_refuses
    (caller : Address) (id : Nat) (tags : Option (List HostString)) :
    ErrsWithin (Refusal s) (updateTags caller id tags) env s := by
  refine check_refuses checks_assertNotPaused fun _ _ => ?_
  refine ownerGuards_refuse fun cfg _ _ => ?_
  refine check_refuses
    (checks_ofExcept (notDuplicate_validateTags tags)) fun _ _ => ?_
  exact writes_refuse (by intro env s e s'; simp)

theorem removeAlert_refuses (caller : Address) (id : Nat) :
    ErrsWithin (Refusal s) (removeAlert caller id) env s := by
  refine check_refuses checks_assertNotPaused fun _ _ => ?_
  refine ownerGuards_refuse fun cfg _ _ => writes_refuse ?_
  intro env s e s'
  simp [removeAlertRecord, removeFromOwnerIndex, removeFromContractIndex]

theorem removeAlertByAdmin_refuses (admin : Address) (id : Nat) :
    ErrsWithin (Refusal s) (removeAlertByAdmin admin id) env s := by
  refine check_refuses checks_assertNotPaused fun _ _ => ?_
  refine adminGuards_refuse (check_refuses (checks_loadAlert id) fun _ _ => ?_)
  refine writes_refuse ?_
  intro env s e s'
  simp [removeAlertRecordByAdmin, removeFromOwnerIndex, removeFromContractIndex]

theorem bumpAlert_refuses (id ttl : Nat) :
    ErrsWithin (Refusal s) (bumpAlert id ttl) env s := by
  refine check_refuses checks_assertNotPaused fun _ _ => ?_
  refine check_refuses (checks_loadAlert id) fun cfg _ => ?_
  exact writes_refuse (by intro env s e s'; simp)

theorem bulkRenewTtl_refuses (ids : List Nat) :
    ErrsWithin (Refusal s) (bulkRenewTtl ids) env s := by
  refine check_refuses (checks_rejectIf (by decide) _) fun _ _ => ?_
  exact writes_refuse (unfailing_bulkRenewFrom ids 0)

theorem deactivateAllAlerts_refuses (caller : Address) :
    ErrsWithin (Refusal s) (deactivateAllAlerts caller) env s := by
  refine check_refuses checks_assertNotPaused fun _ _ => ?_
  refine check_refuses (checks_requireAuth caller) fun _ _ => ?_
  refine check_refuses (checks_loadIndex .owner caller) fun ids _ => ?_
  refine writes_refuse fun env s e s' h => ?_
  exact (returns_deactivateFrom env ids 0 s).not_fails h

theorem getAlert_refuses (id : Nat) :
    ErrsWithin (Refusal s) (getAlert id) env s := by
  refine check_refuses (checks_persistentGet _) fun cfg _ => ?_
  exact writes_refuse (by intro env s e s'; simp)

/-- An alert that left its list is on no other list of the kind. -/
theorem updateTargetContract_refuses
    (hs : s.view.Safe) (caller newTarget : Address) (id : Nat) :
    ErrsWithin (Refusal s) (updateTargetContract caller id newTarget) env s := by
  refine check_refuses checks_assertNotPaused fun _ _ => ?_
  refine ownerGuards_refuse fun cfg hrow _ => ?_
  intro e s' h
  have hmem : id ∈ (s.view.table.unfile .contract cfg.targetContract id).index
      .contract newTarget := by
    simp [removeFromContractIndex, pushContractIndex] at h
    exact h.1
  exact absurd hmem (hs.sound.not_mem_unfile .contract hrow newTarget)

theorem transferAlertOwnership_refuses
    (hs : s.view.Safe) (owner newOwner : Address) (id : Nat) :
    ErrsWithin (Refusal s) (transferAlertOwnership owner id newOwner) env s := by
  refine check_refuses checks_assertNotPaused fun _ _ => ?_
  refine ownerGuards_refuse fun cfg hrow howner => ?_
  by_cases hsame : newOwner = owner
  · rw [if_pos hsame]
    exact checks_refuse (checks_pure ())
  · rw [if_neg hsame]
    refine limit_refuses fun e s' h => ?_
    have hrow' : (s.view.prunedFor newOwner).table.row id = some cfg := by
      rw [Registry.row_prunedFor]
      exact hrow
    have hmem : id ∈ ((s.view.prunedFor newOwner).table.unfile .owner
        cfg.owner id).index .owner newOwner := by
      simp [removeFromOwnerIndex, pushOwnerIndex] at h
      rw [howner]
      exact h.1
    exact absurd hmem
      ((hs.prunedFor newOwner).sound.not_mem_unfile .owner hrow' newOwner)

end Mutations

section Configuration

theorem initialise_refuses (admin : Address) :
    ErrsWithin (Refusal s) (initialise admin) env s := by
  refine check_refuses (checks_instanceGet _) fun _ _ => ?_
  refine check_refuses (checks_rejectIf (by decide) _) fun _ _ => ?_
  exact writes_refuse (by intro env s e s'; simp [setAdmins])

theorem transferAdmin_refuses (admin newAdmin : Address) :
    ErrsWithin (Refusal s) (transferAdmin admin newAdmin) env s := by
  refine adminGuards_refuse (writes_refuse ?_)
  intro env s e s'
  simp [setAdmins]

theorem addAdmin_refuses (caller newAdmin : Address) :
    ErrsWithin (Refusal s) (addAdmin caller newAdmin) env s := by
  refine adminGuards_refuse ?_
  refine check_refuses checks_loadAdmins fun _ _ => ?_
  refine check_refuses (checks_okOr (by decide) _) fun _ _ => ?_
  refine check_refuses (checks_rejectIf (by decide) _) fun _ _ => ?_
  exact writes_refuse (by intro env s e s'; simp [setAdmins])

theorem removeAdmin_refuses (caller targetAdmin : Address) :
    ErrsWithin (Refusal s) (removeAdmin caller targetAdmin) env s := by
  refine adminGuards_refuse ?_
  refine check_refuses checks_loadAdmins fun _ _ => ?_
  refine check_refuses (checks_okOr (by decide) _) fun _ _ => ?_
  refine check_refuses (checks_rejectIf (by decide) _) fun _ _ => ?_
  refine check_refuses (checks_rejectIf (by decide) _) fun _ _ => ?_
  exact writes_refuse (by intro env s e s'; simp [setAdmins])

theorem setPerOwnerAlertLimit_refuses (admin : Address) (limit : Nat) :
    ErrsWithin (Refusal s) (setPerOwnerAlertLimit admin limit) env s := by
  refine adminGuards_refuse ?_
  refine check_refuses (checks_rejectIf (by decide) _) fun _ _ => ?_
  exact writes_refuse (by intro env s e s'; simp)

theorem setPaused_refuses (admin : Address) (paused : Bool) :
    ErrsWithin (Refusal s) (setPaused admin paused) env s := by
  refine adminGuards_refuse (writes_refuse ?_)
  intro env s e s'
  simp

theorem setWatcherRegistry_refuses (admin watcherRegistry : Address) :
    ErrsWithin (Refusal s) (setWatcherRegistry admin watcherRegistry) env s := by
  refine adminGuards_refuse (writes_refuse ?_)
  intro env s e s'
  simp

end Configuration

/-- Every entry point, from a safe registry with room for a batch of ids. -/
theorem dispatch_refuses
    (hs : s.view.Safe) (hcount : s.view.nextId + maxBatchSize ≤ u64Max)
    (call : Call) :
    ErrsWithin (Refusal s) (dispatch call) env s := by
  cases call with
  | initialise admin => exact respond_refuses (initialise_refuses admin) _
  | transferAdmin admin newAdmin =>
      exact respond_refuses (transferAdmin_refuses admin newAdmin) _
  | addAdmin caller newAdmin =>
      exact respond_refuses (addAdmin_refuses caller newAdmin) _
  | removeAdmin caller targetAdmin =>
      exact respond_refuses (removeAdmin_refuses caller targetAdmin) _
  | setPerOwnerAlertLimit admin limit =>
      exact respond_refuses (setPerOwnerAlertLimit_refuses admin limit) _
  | setPaused admin paused =>
      exact respond_refuses (setPaused_refuses admin paused) _
  | setWatcherRegistry admin watcherRegistry =>
      exact respond_refuses (setWatcherRegistry_refuses admin watcherRegistry) _
  | registerAlert owner targetContract label webhookHash rules tags =>
      exact respond_refuses (registerAlert_refuses hs hcount _ _ _ _ _ _) _
  | batchRegisterAlerts caller inputs =>
      exact respond_refuses (batchRegisterAlerts_refuses hs hcount _ _) _
  | pauseAlert admin id =>
      exact respond_refuses (setAlertActiveByAdmin_refuses admin id false) _
  | unpauseAlert admin id =>
      exact respond_refuses (setAlertActiveByAdmin_refuses admin id true) _
  | updateAlert caller id rules active =>
      exact respond_refuses (updateAlert_refuses caller id rules active) _
  | updateWebhook caller id webhookHash =>
      exact respond_refuses (updateWebhook_refuses caller id webhookHash) _
  | proposeWebhook caller id newWebhookHash =>
      exact respond_refuses (proposeWebhook_refuses caller id newWebhookHash) _
  | confirmWebhook caller id =>
      exact respond_refuses (confirmWebhook_refuses caller id) _
  | updateLabel caller id label =>
      exact respond_refuses (updateLabel_refuses caller id label) _
  | removeAlert caller id =>
      exact respond_refuses (removeAlert_refuses caller id) _
  | removeAlertByAdmin admin id =>
      exact respond_refuses (removeAlertByAdmin_refuses admin id) _
  | bumpAlert id ttl => exact respond_refuses (bumpAlert_refuses id ttl) _
  | bulkRenewTtl ids => exact respond_refuses (bulkRenewTtl_refuses ids) _
  | deactivateAllAlerts caller =>
      exact respond_refuses (deactivateAllAlerts_refuses caller) _
  | updateTargetContract caller id newTarget =>
      exact respond_refuses (updateTargetContract_refuses hs _ _ _) _
  | updateTags caller id tags =>
      exact respond_refuses (updateTags_refuses caller id tags) _
  | transferAlertOwnership owner id newOwner =>
      exact respond_refuses (transferAlertOwnership_refuses hs _ _ _) _
  | getAlert id => exact respond_refuses (getAlert_refuses id) _
  | _ => exact checks_refuse (checks_query rfl (by simp))

end EntryPoints

/-- In any state reached by calls and expiry, with room for 50 more ids: a call
that ends in a contract error has by then published no event and changed at most
the list of one owner, from which it took ids without a live alert.  The error
is never `DuplicateAlertId`. -/
theorem refused_call_only_prunes
    (steps : List Step)
    (hcount : (run exec State.empty steps).counter + 50 ≤ u64Max)
    (env : Env) (call : Call) (e : ContractError) (s' : State)
    (h : (dispatch call).Fails env (run exec State.empty steps).silenced
      (.error e) s') :
    e ≠ .duplicateAlertId ∧
      s'.events = [] ∧
      ∃ owner, OnlyPruned owner (run exec State.empty steps).silenced s' := by
  have hs : (State.view (run exec State.empty steps).silenced).Safe := safe_run steps
  obtain ⟨hne, owner, hpruned⟩ := dispatch_refuses hs hcount call e s' h
  exact ⟨hne, hpruned.events, owner, hpruned⟩

/-- Three registrations under a limit of two, the second of which expires. -/
def fullRun : List Step :=
  [.call (envAt 0 []) (.initialise operator),
    .call (envAt 1 [alice]) (sampleRegister alice pool),
    .call (envAt 1 [alice]) (sampleRegister alice pool),
    .call (envAt 1 [alice]) (sampleRegister alice vault),
    .call (envAt 2 [operator]) (.setPerOwnerAlertLimit operator 2),
    .expire (fun k => k = .alert 1)]

/-- Where a fourth registration ends, without a rollback. -/
def refusedState : State :=
  ((dispatch (sampleRegister alice pool)).run (envAt 3 [alice])
    (run exec State.empty fullRun).silenced).2

theorem fullRun_refusal :
    ContractError.ownerAlertLimitExceeded ≠ .duplicateAlertId ∧
      refusedState.events = [] ∧
      ∃ owner, OnlyPruned owner (run exec State.empty fullRun).silenced
        refusedState := by
  have hcount : (run exec State.empty fullRun).counter + 50 ≤ u64Max := by
    decide
  have herror : ((dispatch (sampleRegister alice pool)).run (envAt 3 [alice])
      (run exec State.empty fullRun).silenced).1 =
        .error (.error .ownerAlertLimitExceeded) := by
    rfl
  have hfails : (dispatch (sampleRegister alice pool)).Fails (envAt 3 [alice])
      (run exec State.empty fullRun).silenced
      (.error .ownerAlertLimitExceeded) refusedState :=
    Prod.ext herror rfl
  exact refused_call_only_prunes fullRun hcount (envAt 3 [alice])
    (sampleRegister alice pool) .ownerAlertLimitExceeded refusedState hfails

/-- The limit check has pruned the list by then. -/
example :
    (run exec State.empty fullRun).listed .owner alice = [0, 1, 2] ∧
      refusedState.listed .owner alice = [0, 2] := by
  decide

end AlertRegistry
end TxWatch
