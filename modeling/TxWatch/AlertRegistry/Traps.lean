import TxWatch.AlertRegistry.OverflowChecks
import TxWatch.AlertRegistry.StorageKeys

/-!
# No host trap without expiry

Extending the lifetime of an absent key aborts a call.  `update_alert`,
`update_webhook`, `update_label`, `bump_alert` and `bulk_renew_ttl` extend flags
and lists without looking, which is safe because every live alert accounts for
them.  The other entry points extend only what they have just written or read.
-/

namespace TxWatch
namespace AlertRegistry

open Soroban Soroban.Contract Indexed

/-- The address whose authorisation a call demands. -/
def Call.signer : Call → Option Address
  | .transferAdmin admin _ | .addAdmin admin _ | .removeAdmin admin _
  | .setPerOwnerAlertLimit admin _ | .setPaused admin _
  | .setWatcherRegistry admin _ => some admin
  | .registerAlert owner _ _ _ _ _ => some owner
  | .batchRegisterAlerts caller _ => some caller
  | .pauseAlert admin _ | .unpauseAlert admin _ => some admin
  | .updateAlert caller _ _ _ | .updateWebhook caller _ _
  | .proposeWebhook caller _ _ | .confirmWebhook caller _
  | .updateLabel caller _ _ | .updateTags caller _ _ => some caller
  | .removeAlert caller _ => some caller
  | .removeAlertByAdmin admin _ => some admin
  | .deactivateAllAlerts caller => some caller
  | .updateTargetContract caller _ _ => some caller
  | .transferAlertOwnership owner _ _ => some owner
  | _ => none

/-- The flag and the lists of every live alert are there. -/
def State.Keyed (s : State) : Prop :=
  ∀ id cfg, s.persistent.get (.alert id) = some cfg →
    s.persistent.has (.alertActive id) = true ∧
      s.persistent.has (.ownerIndex cfg.owner) = true ∧
      s.persistent.has (.contractIndex cfg.targetContract) = true

theorem State.Leakless.keyed
    {s : State} (h : s.Leakless) :
    s.Keyed := by
  intro id cfg hget
  refine ⟨?_, ?_, ?_⟩
  · exact (h.has_iff (.alertActive id)).mpr ⟨cfg, hget⟩
  · exact (h.has_iff (.ownerIndex cfg.owner)).mpr ⟨id, cfg, hget, rfl⟩
  · exact (h.has_iff (.contractIndex cfg.targetContract)).mpr ⟨id, cfg, hget, rfl⟩

section Helpers

variable {env : Env} {s : State}

@[simp] theorem untrapped_assertNotPaused :
    assertNotPaused.Untrapped env s := by
  simp [assertNotPaused, isPaused]

@[simp] theorem untrapped_loadAdmins :
    loadAdmins.Untrapped env s := by
  simp [loadAdmins]

@[simp] theorem untrapped_setAdmins (admins : List Address) :
    (setAdmins admins).Untrapped env s := by
  simp [setAdmins]

@[simp] theorem untrapped_assertAdmin (caller : Address) :
    (assertAdmin caller).Untrapped env s := by
  simp [assertAdmin]

@[simp] theorem untrapped_assertOwner (cfg : AlertConfig) (caller : Address) :
    (assertOwner cfg caller).Untrapped env s := by
  simp [assertOwner]

@[simp] theorem untrapped_loadAlert (id : Nat) :
    (loadAlert id).Untrapped env s := by
  simp [loadAlert]

@[simp] theorem untrapped_loadIndex (kind : IndexKind) (a : Address) :
    (loadIndex kind a).Untrapped env s := by
  simp [loadIndex]

@[simp] theorem untrapped_pushIndex (kind : IndexKind) (a : Address) (id : Nat) :
    (pushIndex kind a id).Untrapped env s := by
  simp [pushIndex]

@[simp] theorem untrapped_removeFromIndex
    (kind : IndexKind) (a : Address) (id : Nat) :
    (removeFromIndex kind a id).Untrapped env s := by
  simp [removeFromIndex]

@[simp] theorem untrapped_assertPerOwnerLimitFor
    (owner : Address) (additional : Nat) :
    (assertPerOwnerLimitFor owner additional).Untrapped env s := by
  simp [assertPerOwnerLimitFor, getPerOwnerAlertLimit, ownerIndex]

@[simp] theorem untrapped_createAlert (cfg : AlertConfig) :
    (createAlert cfg).Untrapped env s := by
  simp [createAlert, nextId, pushOwnerIndex, pushContractIndex]

@[simp] theorem untrapped_registerInputs
    (caller : Address) (now : Nat) (inputs : List AlertInput) (ids : List Nat) :
    (registerInputs caller now inputs ids).Untrapped env s := by
  induction inputs generalizing s ids with
  | nil => simp [registerInputs]
  | cons input rest ih => simp [registerInputs, ih]

@[simp] theorem untrapped_configsPaginated (ids : List Nat) (offset limit : Nat) :
    (configsPaginated ids offset limit).Untrapped env s := by
  exact (returns_configsPaginated env s ids offset limit).untrapped

/-- The gate is passed, refused, or not there, as long as the other contract
answers. -/
theorem untrapped_gate
    {querier : Address}
    (hpeer : ∀ registry, s.inst .watchreg = some registry →
      env.peer registry querier ≠ none) :
    (assertWatcherIfConfigured querier).Untrapped env s := by
  simp only [assertWatcherIfConfigured, untrapped_bind, untrapped_instanceGet,
    returns_instanceGet, true_and]
  rintro o t ⟨rfl, rfl⟩
  cases hreg : t.inst .watchreg with
  | none => simp
  | some registry => simpa using hpeer registry hreg

end Helpers

section EntryPoints

variable {env : Env} {s : State} {call : Call}

theorem untrapped_bulkRenewFrom
    (ids : List Nat) (renewed : Nat) (h : s.Keyed) :
    (bulkRenewFrom ids renewed).Untrapped env s := by
  induction ids generalizing s renewed with
  | nil => simp [bulkRenewFrom]
  | cons id rest ih =>
      simp only [bulkRenewFrom, untrapped_bind, untrapped_persistentGet,
        returns_persistentGet, true_and]
      rintro o t ⟨rfl, rfl⟩
      cases hget : t.persistent.get (.alert id) with
      | none => exact ih renewed h
      | some cfg =>
          have hhas : t.persistent.has (.alert id) = true :=
            (Store.has_iff_get _ _).mpr ⟨cfg, hget⟩
          obtain ⟨hflag, howner, htarget⟩ := h id cfg hget
          simp only [untrapped_bind, untrapped_persistentExtendTtl,
            returns_persistentExtendTtl, untrapped_publish, returns_publish,
            State.persistent_extend, Store.has_extendTtl, hhas, hflag, howner,
            htarget, true_and, and_imp, forall_eq, forall_const,
            forall_eq_apply_imp_iff]
          -- the extensions change neither records nor which keys there are
          apply ih
          intro id' cfg' hget'
          have hbefore : t.persistent.get (.alert id') = some cfg' := by
            simpa using hget'
          simpa using h id' cfg' hbefore

theorem untrapped_deactivateAllAlerts
    {caller : Address} (hauth : caller ∈ env.auths) :
    (deactivateAllAlerts caller).Untrapped env s := by
  simp only [deactivateAllAlerts, ownerIndex, untrapped_bind,
    untrapped_assertNotPaused, untrapped_requireAuth, untrapped_loadIndex,
    returns_assertNotPaused, returns_requireAuth, returns_loadIndex, hauth,
    true_and]
  intro _ t _ _ t' _ ids u _
  exact (returns_deactivateFrom env ids 0 u).untrapped

/-- The owners' calls that extend the lists of the alert find them. -/
theorem untrapped_amend
    {caller : Address} {id : Nat} (h : s.Keyed) (hauth : caller ∈ env.auths)
    (hcall : call.amends = some (caller, id)) :
    (dispatch call).Untrapped env s := by
  -- the second extension runs in the storage that the first has left
  have hlists : ∀ id cfg, s.view.table.row id = some cfg →
      s.persistent.has (.ownerIndex cfg.owner) = true ∧
        (s.persistent.has (.ownerIndex cfg.owner) = true →
          s.persistent.has (.contractIndex cfg.targetContract) = true) := by
    intro id cfg hrow
    obtain ⟨-, howner, htarget⟩ := h id cfg hrow
    exact ⟨howner, fun _ => htarget⟩
  cases call with
  | updateAlert caller' id' rules active =>
      obtain ⟨rfl, rfl⟩ : caller' = caller ∧ id' = id := by
        simpa [Call.amends] using hcall
      simp [dispatch, updateAlert, hauth]
      intro _ cfg hrow _ _
      exact hlists id' cfg hrow
  | updateWebhook caller' id' webhookHash =>
      obtain ⟨rfl, rfl⟩ : caller' = caller ∧ id' = id := by
        simpa [Call.amends] using hcall
      simp [dispatch, updateWebhook, hauth]
      intro _ cfg hrow _ _
      exact hlists id' cfg hrow
  | updateLabel caller' id' label =>
      obtain ⟨rfl, rfl⟩ : caller' = caller ∧ id' = id := by
        simpa [Call.amends] using hcall
      simp [dispatch, updateLabel, hauth]
      intro _ _ cfg hrow _
      exact hlists id' cfg hrow
  | proposeWebhook caller' id' newWebhookHash =>
      obtain ⟨rfl, rfl⟩ : caller' = caller ∧ id' = id := by
        simpa [Call.amends] using hcall
      simp [dispatch, proposeWebhook, hauth]
  | confirmWebhook caller' id' =>
      obtain ⟨rfl, rfl⟩ : caller' = caller ∧ id' = id := by
        simpa [Call.amends] using hcall
      simp [dispatch, confirmWebhook, hauth]
  | updateTags caller' id' tags =>
      obtain ⟨rfl, rfl⟩ : caller' = caller ∧ id' = id := by
        simpa [Call.amends] using hcall
      simp [dispatch, updateTags, hauth]
  | _ => simp [Call.amends] at hcall

theorem untrapped_bumpAlert
    (h : s.Keyed) (id ttl : Nat) :
    (bumpAlert id ttl).Untrapped env s := by
  have hkeys : ∀ cfg, s.view.table.row id = some cfg →
      s.persistent.has (.alert id) = true ∧
        s.persistent.has (.alertActive id) = true ∧
        s.persistent.has (.ownerIndex cfg.owner) = true ∧
        s.persistent.has (.contractIndex cfg.targetContract) = true := by
    intro cfg hrow
    exact ⟨(Store.has_iff_get _ _).mpr ⟨cfg, hrow⟩, h id cfg hrow⟩
  simp [bumpAlert]
  intro _ cfg hrow
  obtain ⟨hrecord, hflag, howner, htarget⟩ := hkeys cfg hrow
  simp [hrecord, hflag, howner, htarget]

theorem untrapped_getAlert (id : Nat) :
    (getAlert id).Untrapped env s := by
  obtain ⟨s', hreturns⟩ : ∃ s', (getAlert id).Returns env s
      (s.persistent.get (.alert id)) s' := by
    simp [returns_getAlert]
  exact hreturns.untrapped

/-- The queries extend no lifetime but that of a record they have found. -/
theorem untrapped_query
    (hpeer : ∀ querier registry, call.querier = some querier →
      s.inst .watchreg = some registry → env.peer registry querier ≠ none)
    (hquery : call.isQuery = true) :
    (dispatch call).Untrapped env s := by
  cases call with
  | getAlertsForContract querier target =>
      have hgate := untrapped_gate (hpeer querier · rfl)
      simp [dispatch, getAlertsForContract, contractIndex, hgate]
  | getAlertsByOwner querier owner =>
      have hgate := untrapped_gate (hpeer querier · rfl)
      simp [dispatch, getAlertsByOwner, ownerIndex, hgate]
  | getContractAlertsPaginated querier target offset limit =>
      have hgate := untrapped_gate (hpeer querier · rfl)
      simp [dispatch, getContractAlertsPaginated, contractIndex, hgate]
  | getAlertsByOwnerPaginated querier owner offset limit =>
      have hgate := untrapped_gate (hpeer querier · rfl)
      simp [dispatch, getAlertsByOwnerPaginated, ownerIndex, hgate]
  | getActiveAlertsPaginated target offset limit =>
      have hreturns := returns_getActiveAlertsPaginated env s target offset limit
      simpa [dispatch] using hreturns.untrapped
  | getAlert id => simpa [dispatch] using untrapped_getAlert id
  | getAdmin => simp [dispatch, getAdmin]
  | getAdmins => simp [dispatch, getAdmins]
  | isPaused => simp [dispatch, isPaused]
  | getPerOwnerAlertLimit => simp [dispatch, getPerOwnerAlertLimit]
  | getWatcherRegistry => simp [dispatch, getWatcherRegistry]
  | getAlertIdsForContract target =>
      simp [dispatch, getAlertIdsForContract, contractIndex]
  | getAlertIdsByOwner owner => simp [dispatch, getAlertIdsByOwner, ownerIndex]
  | getActiveAlertsForContract target =>
      simp [dispatch, getActiveAlertsForContract, contractIndex]
  | getAlertActive id => simp [dispatch, getAlertActive]
  | getAlertsModifiedSince since => simp [dispatch, getAlertsModifiedSince]
  | getAlertsUpdatedSince target since offset limit =>
      simp [dispatch, getAlertsUpdatedSince, contractIndex]
  | getAlertCount => simp [dispatch, getAlertCount]
  | getActiveAlertCount owner => simp [dispatch, getActiveAlertCount, ownerIndex]
  | _ => simp [Call.isQuery] at hquery

/-- The calls that extend no lifetime but those of entries they have written. -/
theorem untrapped_signed
    {a : Address} (hsigner : call.signer = some a) (hauth : a ∈ env.auths)
    (hamend : call.amends = none) :
    (dispatch call).Untrapped env s := by
  cases call with
  | transferAdmin admin newAdmin =>
      obtain rfl := Option.some.inj hsigner
      simp [dispatch, transferAdmin, hauth]
  | addAdmin admin newAdmin =>
      obtain rfl := Option.some.inj hsigner
      simp [dispatch, addAdmin, hauth]
  | removeAdmin admin targetAdmin =>
      obtain rfl := Option.some.inj hsigner
      simp [dispatch, removeAdmin, hauth]
  | setPerOwnerAlertLimit admin limit =>
      obtain rfl := Option.some.inj hsigner
      simp [dispatch, setPerOwnerAlertLimit, hauth]
  | setPaused admin paused =>
      obtain rfl := Option.some.inj hsigner
      simp [dispatch, setPaused, hauth]
  | setWatcherRegistry admin watcherRegistry =>
      obtain rfl := Option.some.inj hsigner
      simp [dispatch, setWatcherRegistry, hauth]
  | registerAlert owner targetContract label webhookHash rules tags =>
      obtain rfl := Option.some.inj hsigner
      simp [dispatch, registerAlert, assertPerOwnerLimit, hauth]
  | batchRegisterAlerts caller inputs =>
      obtain rfl := Option.some.inj hsigner
      simp [dispatch, batchRegisterAlerts, hauth]
  | pauseAlert admin id =>
      obtain rfl := Option.some.inj hsigner
      simp [dispatch, pauseAlert, setAlertActiveByAdmin, hauth]
  | unpauseAlert admin id =>
      obtain rfl := Option.some.inj hsigner
      simp [dispatch, unpauseAlert, setAlertActiveByAdmin, hauth]
  | removeAlert caller id =>
      obtain rfl := Option.some.inj hsigner
      simp [dispatch, removeAlert, removeAlertRecord, removeFromOwnerIndex,
        removeFromContractIndex, hauth]
  | removeAlertByAdmin admin id =>
      obtain rfl := Option.some.inj hsigner
      simp [dispatch, removeAlertByAdmin, removeAlertRecordByAdmin,
        removeFromOwnerIndex, removeFromContractIndex, hauth]
  | deactivateAllAlerts caller =>
      obtain rfl := Option.some.inj hsigner
      simpa [dispatch] using untrapped_deactivateAllAlerts hauth
  | updateTargetContract caller id newTarget =>
      obtain rfl := Option.some.inj hsigner
      simp [dispatch, updateTargetContract, removeFromContractIndex,
        pushContractIndex, hauth]
  | transferAlertOwnership owner id newOwner =>
      obtain rfl := Option.some.inj hsigner
      simp [dispatch, transferAlertOwnership, assertPerOwnerLimit,
        removeFromOwnerIndex, pushOwnerIndex, hauth]
  | _ => simp [Call.signer, Call.amends] at hsigner hamend

theorem untrapped_dispatch
    (h : s.Keyed)
    (hpeer : ∀ querier registry, call.querier = some querier →
      s.inst .watchreg = some registry → env.peer registry querier ≠ none)
    (hauth : ∀ a, call.signer = some a → a ∈ env.auths) :
    (dispatch call).Untrapped env s := by
  cases hquery : call.isQuery with
  | true => exact untrapped_query hpeer hquery
  | false =>
  cases hamend : call.amends with
  | some owned =>
      obtain ⟨caller, id⟩ := owned
      refine untrapped_amend h (hauth caller ?_) hamend
      cases call <;> simp [Call.amends] at hamend <;> simp [Call.signer, hamend]
  | none =>
  cases hsigner : call.signer with
  | some a => exact untrapped_signed hsigner (hauth a hsigner) hamend
  | none =>
  cases call with
  | initialise admin => simp [dispatch, initialise]
  | bumpAlert id ttl => simpa [dispatch] using untrapped_bumpAlert h id ttl
  | bulkRenewTtl ids =>
      have hloop : (bulkRenewFrom ids 0).Untrapped env s :=
        untrapped_bulkRenewFrom ids 0 h
      simp [dispatch, bulkRenewTtl, hloop]
  | _ => simp_all [Call.isQuery, Call.amends, Call.signer]

end EntryPoints

/-- In every state reached without expiry, a call that is signed by the address
it names ends with a value or with an error of the contract, whatever its
arguments: overflow checks included, nothing aborts it.  The vectors are those
that a host can hold, and a watcher registry, if one is configured and asked,
answers. -/
theorem never_traps
    (steps : List Step) (hsteps : ∀ st ∈ steps, st.isCall)
    (hhosted : (run exec State.empty steps).Hosted)
    (env : Env) (call : Call)
    (hpeer : ∀ querier registry, call.querier = some querier →
      (run exec State.empty steps).inst .watchreg = some registry →
      env.peer registry querier ≠ none)
    (hauth : ∀ a, call.signer = some a → a ∈ env.auths) :
    (∃ resp, (OverflowChecked.invoke env call (run exec State.empty steps)).1 =
        .ok resp) ∨
      (∃ e, (OverflowChecked.invoke env call (run exec State.empty steps)).1 =
        .error (.error e)) := by
  have hkeyed : State.Keyed (run exec State.empty steps).silenced :=
    (leakless_run hsteps).keyed
  have huntrapped : (dispatch call).Untrapped env
      (run exec State.empty steps).silenced :=
    untrapped_dispatch hkeyed hpeer hauth
  rw [OverflowChecked.invoke_eq hhosted]
  rcases hrun : (dispatch call).run env (run exec State.empty steps).silenced with
    ⟨f | resp, s'⟩
  · right
    obtain ⟨e, rfl⟩ := huntrapped f s' hrun
    rw [invoke_of_fails hrun]
    exact ⟨e, rfl⟩
  · left
    rw [invoke_of_returns hrun]
    exact ⟨resp, rfl⟩

/-- An alert that changes its target and then its owner. -/
def movedRun : List Step :=
  [.call (envAt 1 [alice]) (sampleRegister alice pool),
    .call (envAt 2 [alice]) (.updateTargetContract alice 0 vault),
    .call (envAt 3 [alice]) (.transferAlertOwnership alice 0 bob)]

theorem movedRun_bumps :
    (∃ resp, (OverflowChecked.invoke (envAt 4 []) (.bumpAlert 0 100)
        (run exec State.empty movedRun)).1 = .ok resp) ∨
      (∃ e, (OverflowChecked.invoke (envAt 4 []) (.bumpAlert 0 100)
        (run exec State.empty movedRun)).1 = .error (.error e)) := by
  refine never_traps movedRun ?_ (hosted_run ?_) (envAt 4 []) (.bumpAlert 0 100) ?_ ?_
  · simp [movedRun, Step.isCall]
  · decide
  · intro querier registry hquerier
    cases hquerier
  · intro a hsigner
    cases hsigner

end AlertRegistry
end TxWatch
