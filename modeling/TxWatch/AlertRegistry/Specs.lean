import TxWatch.AlertRegistry.Storage

/-!
# AlertRegistry: what each function does when it returns

One inversion lemma for each function of the source that writes: exactly when
it returns, with which value and in which storage.  The guards are stated on
the registry that the storage holds.
-/

namespace TxWatch
namespace AlertRegistry

open Soroban Soroban.Contract Indexed

theorem liveIds_eq_live (s : State) (ids : List Nat) :
    liveIds s ids = s.view.table.live ids := by
  unfold liveIds
  rw [foldl_push_eq_filter, live_eq_filter]
  simp

section Helpers

variable {env : Env} {s s' : State}

@[simp] theorem returns_assertNotPaused (u : Unit) :
    assertNotPaused.Returns env s u s' ↔
      s.view.paused = false ∧ s' = s := by
  simp [assertNotPaused, isPaused, Registry.paused, State.view, and_comm]

@[simp] theorem returns_loadAdmins (o : Option (List Address)) :
    loadAdmins.Returns env s o s' ↔ o = s.view.admins ∧ s' = s := by
  simp [loadAdmins, Registry.admins, State.view, and_comm]

@[simp] theorem returns_assertAdmin (caller : Address) (u : Unit) :
    (assertAdmin caller).Returns env s u s' ↔
      s.view.IsAdmin caller ∧ s' = s := by
  simp only [assertAdmin, returns_bind, returns_loadAdmins, returns_okOr,
    returns_ite, returns_pure, returns_fail, Registry.IsAdmin]
  constructor
  · rintro ⟨_, _, ⟨rfl, rfl⟩, admins, _, ⟨hadmins, rfl⟩, h⟩
    rcases h with ⟨hmem, -, rfl⟩ | ⟨-, hfalse⟩
    · exact ⟨⟨admins, hadmins, hmem⟩, rfl⟩
    · exact absurd hfalse id
  · rintro ⟨⟨admins, hadmins, hmem⟩, rfl⟩
    exact ⟨_, _, ⟨rfl, rfl⟩, admins, _, ⟨hadmins, rfl⟩, .inl ⟨hmem, trivial, rfl⟩⟩

@[simp] theorem returns_assertOwner
    (cfg : AlertConfig) (caller : Address) (u : Unit) :
    (assertOwner cfg caller).Returns env s u s' ↔
      cfg.owner = caller ∧ s' = s := by
  simp [assertOwner]

@[simp] theorem returns_loadAlert (id : Nat) (cfg : AlertConfig) :
    (loadAlert id).Returns env s cfg s' ↔
      s.view.table.row id = some cfg ∧ s' = s := by
  simp [loadAlert, view_row, eq_comm, and_comm]

@[simp] theorem returns_loadIndex
    (kind : IndexKind) (a : Address) (ids : List Nat) :
    (loadIndex kind a).Returns env s ids s' ↔
      ids = s.view.table.index kind a ∧ s' = s := by
  simp [loadIndex, view_index, and_comm]

@[simp] theorem returns_pushIndex
    (kind : IndexKind) (a : Address) (id : Nat) (u : Unit) :
    (pushIndex kind a id).Returns env s u s' ↔
      id ∉ s.view.table.index kind a ∧
        s' = s.file env.sequence kind a id := by
  simp [pushIndex, State.file]

@[simp] theorem returns_removeFromIndex
    (kind : IndexKind) (a : Address) (id : Nat) (u : Unit) :
    (removeFromIndex kind a id).Returns env s u s' ↔
      s' = s.unfile env.sequence kind a id := by
  have hfilter : ∀ ids : List Nat,
      ids.foldl (fun out v => if v ≠ id then out ++ [v] else out) [] =
        ids.filter (fun v => v ≠ id) := by
    intro ids
    exact foldl_push_eq_filter (fun v => v ≠ id) ids []
  unfold removeFromIndex State.unfile State.relist
  simp only [hfilter, returns_bind, returns_loadIndex, returns_ite,
    returns_persistentRemove, returns_persistentStore]
  constructor
  · rintro ⟨_, _, ⟨rfl, rfl⟩, ⟨h, rfl⟩ | ⟨h, rfl⟩⟩
    · rw [if_pos h]
    · rw [if_neg h]
  · intro hs'
    refine ⟨_, _, ⟨rfl, rfl⟩, ?_⟩
    split_ifs at hs' with h
    · exact Or.inl ⟨h, hs'⟩
    · exact Or.inr ⟨h, hs'⟩

@[simp] theorem returns_assertPerOwnerLimitFor
    (owner : Address) (additional : Nat) (u : Unit) :
    (assertPerOwnerLimitFor owner additional).Returns env s u s' ↔
      s.view.Fits owner additional ∧ s' = s.prunedFor env.sequence owner := by
  have hlimit : (s.inst .limit).getD 0 = s.view.limit := by
    rfl
  have hlive : s.view.table.live (s.view.table.index .owner owner) =
      s.view.liveOf owner := by
    rfl
  simp only [assertPerOwnerLimitFor, getPerOwnerAlertLimit, ownerIndex,
    returns_bind, returns_instanceGet, returns_pure, returns_whenever,
    returns_getState, returns_loadIndex, returns_ite, returns_rejectIf,
    returns_persistentRemove, returns_persistentStore, liveIds_eq_live,
    exists_and_left, exists_eq_left, and_assoc, hlimit, hlive]
  unfold Registry.Fits State.prunedFor State.relist
  by_cases hpos : 0 < s.view.limit
  · by_cases hlen : (s.view.liveOf owner).length =
        (s.view.table.index .owner owner).length
    · simp [hpos, hlen, and_comm]
    · by_cases hnil : s.view.liveOf owner = []
      · have hne : 0 ≠ (s.view.table.index .owner owner).length := by
          simpa [hnil] using hlen
        simp [hpos, hnil, hne, and_comm]
      · simp [hpos, hlen, hnil, and_comm]
  · simp [hpos]

@[simp] theorem returns_nextId (id : Nat) :
    nextId.Returns env s id s' ↔
      id = s.view.nextId ∧ s.view.nextId < u64Max ∧
        s' = (s.setInst .nextId (s.view.nextId + 1)).extendInst env.sequence
          defaultTtl defaultTtl := by
  have hid : (s.inst .nextId).getD 0 = s.view.nextId := by
    rfl
  simp only [nextId, returns_bind, returns_instanceGet, returns_okOr,
    returns_instanceSet, returns_instanceExtendTtl, returns_pure,
    exists_and_left, exists_eq_left, and_assoc, hid, checkedAdd64]
  split_ifs with h
  · have hlt : s.view.nextId < u64Max := h
    simp only [Option.some.injEq, exists_eq_left', hlt, true_and, exists_const]
  · have hlt : ¬ s.view.nextId < u64Max := h
    simp [hlt]

@[simp] theorem returns_createAlert (cfg : AlertConfig) (id : Nat) :
    (createAlert cfg).Returns env s id s' ↔
      id = s.view.nextId ∧ s.view.nextId < u64Max ∧
        s.view.nextId ∉ s.view.table.index .owner cfg.owner ∧
        s.view.nextId ∉ s.view.table.index .contract cfg.targetContract ∧
        s' = s.created env.sequence cfg := by
  simp only [createAlert, pushOwnerIndex, pushContractIndex, returns_bind,
    returns_nextId, returns_persistentStore, returns_pushIndex, returns_publish,
    returns_pure, exists_and_left, exists_eq_left, and_assoc, State.created]
  simp [Table.file, Table.index_setIndex]
  tauto

end Helpers

section Responses

variable {env : Env} {s s' : State}

theorem returns_getAlert (id : Nat) (o : Option AlertConfig) :
    (getAlert id).Returns env s o s' ↔
      o = s.persistent.get (.alert id) ∧
        s' = if o.isSome then
          s.extend env.sequence (.alert id) defaultTtl defaultTtl
        else s := by
  simp only [getAlert, returns_bind, returns_persistentGet, returns_whenever,
    returns_persistentExtendTtl, returns_pure, Store.has_eq_isSome_get]
  cases hget : s.persistent.get (.alert id) with
  | none =>
      constructor
      · rintro ⟨_, _, ⟨rfl, rfl⟩, -, _, hext, rfl, rfl⟩
        simpa [hget] using hext
      · rintro ⟨rfl, rfl⟩
        simp [hget]
  | some cfg =>
      constructor
      · rintro ⟨_, _, ⟨rfl, rfl⟩, -, _, hext, rfl, rfl⟩
        simpa [hget] using hext
      · rintro ⟨rfl, rfl⟩
        simp [hget]

end Responses

section Registrations

variable {env : Env} {s s' : State}

theorem returns_registerAlert
    (owner targetContract : Address) (label webhookHash : HostString)
    (rules : List HostString) (tags : Option (List HostString)) (id : Nat) :
    (registerAlert owner targetContract label webhookHash rules tags).Returns
        env s id s' ↔
      s.view.paused = false ∧
        webhookHash.len = 64 ∧
        owner ∈ env.auths ∧
        validateLabel label = .ok () ∧
        validateRules rules = .ok () ∧
        validateTags tags = .ok () ∧
        s.view.Fits owner 1 ∧
        id = s.view.nextId ∧
        s.view.nextId < u64Max ∧
        s.view.nextId ∉ (s.view.prunedFor owner).table.index .owner owner ∧
        s.view.nextId ∉
          (s.view.prunedFor owner).table.index .contract targetContract ∧
        s' = State.created (s.prunedFor env.sequence owner) env.sequence {
          label, webhookHash, rules, owner, targetContract
          createdAt := env.timestamp
          updatedAt := env.timestamp
          active := true
          pendingWebhookHash := none
          tags } := by
  simp [registerAlert, assertPerOwnerLimit]

/-- What the writing loop of a batch has done when it returns. -/
theorem returns_registerInputs
    {caller : Address} {now : Nat} {inputs : List AlertInput}
    {ids out : List Nat}
    (h : (registerInputs caller now inputs ids).Returns env s out s') :
    out = ids ++ List.range' s.view.nextId inputs.length ∧
      s' = State.createdAll env.sequence
        (inputs.map (fun input => input.toConfig caller now)) s ∧
      (inputs ≠ [] → s.view.nextId + inputs.length ≤ u64Max) := by
  induction inputs generalizing s ids with
  | nil =>
      simp only [registerInputs, returns_pure] at h
      obtain ⟨rfl, rfl⟩ := h
      simp [State.createdAll]
  | cons input rest ih =>
      simp only [registerInputs, returns_bind, returns_createAlert] at h
      obtain ⟨_, _, ⟨rfl, hlt, -, -, rfl⟩, hrest⟩ := h
      obtain ⟨hout, hs', hbound⟩ := ih hrest
      rw [view_created, Registry.nextId_create] at hout hbound
      refine ⟨?_, hs', ?_⟩
      · rw [hout, List.length_cons, List.range'_succ]
        simp
      · intro _
        cases rest with
        | nil =>
            simp
            omega
        | cons input' rest =>
            have h := hbound (by simp)
            simp only [List.length_cons] at h ⊢
            omega

theorem returns_batchRegisterAlerts
    {caller : Address} {inputs : List AlertInput} {ids : List Nat}
    (h : (batchRegisterAlerts caller inputs).Returns env s ids s') :
    s.view.paused = false ∧
      inputs.length ≤ maxBatchSize ∧
      caller ∈ env.auths ∧
      validateInputs inputs = .ok () ∧
      s.view.Fits caller inputs.length ∧
      ids = List.range' s.view.nextId inputs.length ∧
      (inputs ≠ [] → s.view.nextId + inputs.length ≤ u64Max) ∧
      s' = State.createdAll env.sequence
        (inputs.map (fun input => input.toConfig caller env.timestamp))
        (s.prunedFor env.sequence caller) := by
  simp only [batchRegisterAlerts, returns_bind, returns_assertNotPaused,
    returns_rejectIf, returns_requireAuth, returns_ofExcept,
    returns_assertPerOwnerLimitFor, returns_timestamp] at h
  obtain ⟨-, _, ⟨hpaused, rfl⟩, -, _, ⟨hsize, rfl⟩, -, _, ⟨hauth, rfl⟩,
    -, _, ⟨hvalid, rfl⟩, -, _, ⟨hfits, rfl⟩, _, _, ⟨rfl, rfl⟩, hloop⟩ := h
  obtain ⟨hids, hs', hbound⟩ := returns_registerInputs hloop
  rw [view_prunedFor, Registry.nextId_prunedFor] at hids hbound
  exact ⟨hpaused, by omega, hauth, hvalid, hfits, hids, hbound, hs'⟩

end Registrations

section Changes

variable {env : Env} {s s' : State}

@[simp] theorem returns_setAlertActiveByAdmin
    (admin : Address) (id : Nat) (active : Bool) (u : Unit) :
    (setAlertActiveByAdmin admin id active).Returns env s u s' ↔
      ∃ cfg,
        admin ∈ env.auths ∧
        s.view.IsAdmin admin ∧
        s.view.table.row id = some cfg ∧
        s' = State.emit
          (State.flagged
            (s.store env.sequence (.alert id)
              { cfg with active := active, updatedAt := env.timestamp }
              defaultTtl)
            env.sequence id (some active))
          ⟨(.alert, .update), [.u64 id, .address admin, .bool active]⟩ := by
  simp [setAlertActiveByAdmin, State.flagged]

/-- When an administrative switch returns. -/
theorem returns_activate
    {call : Call} {admin : Address} {id : Nat} {active : Bool}
    (hcall : call.activates = some (admin, id, active)) (resp : Response) :
    (dispatch call).Returns env s resp s' ↔
      ∃ cfg,
        admin ∈ env.auths ∧
        s.view.IsAdmin admin ∧
        s.view.table.row id = some cfg ∧
        resp = .unit ∧
        s' = State.emit
          (State.flagged
            (s.store env.sequence (.alert id)
              { cfg with active := active, updatedAt := env.timestamp }
              defaultTtl)
            env.sequence id (some active))
          ⟨(.alert, .update), [.u64 id, .address admin, .bool active]⟩ := by
  have hdispatch : dispatch call = done .unit (setAlertActiveByAdmin admin id active) := by
    cases call with
    | pauseAlert admin' id' =>
        obtain ⟨rfl, rfl, rfl⟩ : admin' = admin ∧ id' = id ∧ false = active := by
          simpa [Call.activates] using hcall
        rfl
    | unpauseAlert admin' id' =>
        obtain ⟨rfl, rfl, rfl⟩ : admin' = admin ∧ id' = id ∧ true = active := by
          simpa [Call.activates] using hcall
        rfl
    | _ => simp [Call.activates] at hcall
  rw [hdispatch, returns_done, returns_setAlertActiveByAdmin]
  constructor
  · rintro ⟨⟨cfg, hauth, hadmin, hrow, rfl⟩, rfl⟩
    exact ⟨cfg, hauth, hadmin, hrow, rfl, rfl⟩
  · rintro ⟨cfg, hauth, hadmin, hrow, rfl, rfl⟩
    exact ⟨⟨cfg, hauth, hadmin, hrow, rfl⟩, rfl⟩

/-- When an owner's call on one record returns. -/
theorem returns_amend {call : Call} {caller : Address} {id : Nat}
    (hcall : call.amends = some (caller, id)) (resp : Response) :
    (dispatch call).Returns env s resp s' ↔
      ∃ cfg cfg',
        s.view.table.row id = some cfg ∧ cfg.owner = caller ∧
        (call.asksPaused = true → s.view.paused = false) ∧
        caller ∈ env.auths ∧ call.Checked ∧
        call.amended env.timestamp cfg = some cfg' ∧
        (call.renewsLists = true →
          s.persistent.has (.ownerIndex cfg.owner) = true ∧
          s.persistent.has (.contractIndex cfg.targetContract) = true) ∧
        resp = .unit ∧
        s' = State.announce (s.amended env.sequence call id cfg cfg')
          (call.amendEvents cfg) := by
  cases call with
  | updateAlert caller' id' _ _ | updateWebhook caller' id' _ =>
      obtain ⟨rfl, rfl⟩ : caller' = caller ∧ id' = id := by
        simpa [Call.amends] using hcall
      simp only [dispatch, done, respond, updateAlert, updateWebhook,
        Call.asksPaused, Call.Checked, Call.amended, Call.renewsLists,
        Call.amendEvents, State.amended, State.flagged, Call.amendedFlag,
        State.renewedLists]
      simp
      constructor
      · rintro ⟨⟨hp, ha, cfg, hrow, ho, hv, h₁, h₂, rfl⟩, rfl⟩
        exact ⟨cfg, hrow, ho, hp, ha, hv, ⟨h₁, h₂⟩, rfl, rfl⟩
      · rintro ⟨cfg, hrow, ho, hp, ha, hv, ⟨h₁, h₂⟩, rfl, rfl⟩
        exact ⟨⟨hp, ha, cfg, hrow, ho, hv, h₁, h₂, rfl⟩, rfl⟩
  | proposeWebhook caller' id' newWebhookHash =>
      obtain ⟨rfl, rfl⟩ : caller' = caller ∧ id' = id := by
        simpa [Call.amends] using hcall
      simp only [dispatch, done, respond, proposeWebhook, Call.asksPaused,
        Call.Checked, Call.amended, Call.renewsLists, Call.amendEvents, State.amended,
        State.flagged, Call.amendedFlag, State.renewedLists]
      simp
      constructor
      · rintro ⟨⟨ha, cfg, hrow, ho, rfl⟩, rfl⟩
        exact ⟨cfg, hrow, ho, ha, rfl, rfl⟩
      · rintro ⟨cfg, hrow, ho, ha, rfl, rfl⟩
        exact ⟨⟨ha, cfg, hrow, ho, rfl⟩, rfl⟩
  | confirmWebhook caller' id' =>
      obtain ⟨rfl, rfl⟩ : caller' = caller ∧ id' = id := by
        simpa [Call.amends] using hcall
      simp only [dispatch, done, respond, confirmWebhook, Call.asksPaused, Call.Checked,
        Call.amended, Call.renewsLists, Call.amendEvents, State.amended,
        State.flagged, Call.amendedFlag, State.renewedLists]
      simp
      constructor
      · rintro ⟨⟨ha, cfg, hrow, ho, pending, hpending, rfl⟩, rfl⟩
        exact ⟨cfg, hrow, ho, ha, pending, hpending, rfl, rfl⟩
      · rintro ⟨cfg, hrow, ho, ha, pending, hpending, rfl, rfl⟩
        exact ⟨⟨ha, cfg, hrow, ho, pending, hpending, rfl⟩, rfl⟩
  | updateLabel caller' id' label =>
      obtain ⟨rfl, rfl⟩ : caller' = caller ∧ id' = id := by
        simpa [Call.amends] using hcall
      simp only [dispatch, done, respond, updateLabel, Call.asksPaused, Call.Checked,
        Call.amended, Call.renewsLists, Call.amendEvents, State.amended,
        State.flagged, Call.amendedFlag, State.renewedLists]
      simp
      constructor
      · rintro ⟨⟨hp, ha, hv, cfg, hrow, ho, h₁, h₂, rfl⟩, rfl⟩
        exact ⟨cfg, hrow, ho, hp, ha, hv, ⟨h₁, h₂⟩, rfl, rfl⟩
      · rintro ⟨cfg, hrow, ho, hp, ha, hv, ⟨h₁, h₂⟩, rfl, rfl⟩
        exact ⟨⟨hp, ha, hv, cfg, hrow, ho, h₁, h₂, rfl⟩, rfl⟩
  | updateTags caller' id' tags =>
      obtain ⟨rfl, rfl⟩ : caller' = caller ∧ id' = id := by
        simpa [Call.amends] using hcall
      simp only [dispatch, done, respond, updateTags, Call.asksPaused, Call.Checked,
        Call.amended, Call.renewsLists, Call.amendEvents, State.amended,
        State.flagged, Call.amendedFlag, State.renewedLists]
      simp
      constructor
      · rintro ⟨⟨hp, ha, cfg, hrow, ho, hv, rfl⟩, rfl⟩
        exact ⟨cfg, hrow, ho, hp, ha, hv, rfl, rfl⟩
      · rintro ⟨cfg, hrow, ho, hp, ha, hv, rfl, rfl⟩
        exact ⟨⟨hp, ha, cfg, hrow, ho, hv, rfl⟩, rfl⟩
  | _ => simp [Call.amends] at hcall

theorem returns_removeAlert (caller : Address) (id : Nat) (u : Unit) :
    (removeAlert caller id).Returns env s u s' ↔
      ∃ cfg,
        s.view.paused = false ∧
        caller ∈ env.auths ∧
        s.view.table.row id = some cfg ∧
        cfg.owner = caller ∧
        s' = State.emit (s.erased env.sequence id cfg)
          ⟨(.alert, .remove), [.u64 id, .address caller]⟩ := by
  simp [removeAlert, removeAlertRecord, removeFromOwnerIndex,
    removeFromContractIndex, State.erased]

theorem returns_removeAlertByAdmin (admin : Address) (id : Nat) (u : Unit) :
    (removeAlertByAdmin admin id).Returns env s u s' ↔
      ∃ cfg,
        s.view.paused = false ∧
        admin ∈ env.auths ∧
        s.view.IsAdmin admin ∧
        s.view.table.row id = some cfg ∧
        s' = State.emit (s.erased env.sequence id cfg)
          ⟨(.alert, .remove),
            [.u64 id, .address admin, .address cfg.owner]⟩ := by
  simp [removeAlertByAdmin, removeAlertRecordByAdmin, removeFromOwnerIndex,
    removeFromContractIndex, State.erased]

theorem returns_updateTargetContract
    (caller newTarget : Address) (id : Nat) (u : Unit) :
    (updateTargetContract caller id newTarget).Returns env s u s' ↔
      ∃ cfg,
        s.view.paused = false ∧
        caller ∈ env.auths ∧
        s.view.table.row id = some cfg ∧
        cfg.owner = caller ∧
        id ∉ (s.view.table.unfile .contract cfg.targetContract id).index
          .contract newTarget ∧
        s' = State.moved
          (s.store env.sequence (.alert id)
            { cfg with
              targetContract := newTarget, updatedAt := env.timestamp }
            defaultTtl)
          env.sequence .contract id cfg.targetContract newTarget := by
  simp [updateTargetContract, removeFromContractIndex, pushContractIndex,
    State.moved, Table.mem_index_unfile]

theorem returns_transferAlertOwnership
    (owner newOwner : Address) (id : Nat) (u : Unit) :
    (transferAlertOwnership owner id newOwner).Returns env s u s' ↔
      ∃ cfg,
        s.view.paused = false ∧
        owner ∈ env.auths ∧
        s.view.table.row id = some cfg ∧
        cfg.owner = owner ∧
        ((newOwner = owner ∧ s' = s) ∨
          (newOwner ≠ owner ∧
            s.view.Fits newOwner 1 ∧
            id ∉ ((s.view.prunedFor newOwner).table.unfile .owner owner id).index
              .owner newOwner ∧
            s' = State.emit
              (State.store
                (State.moved (s.prunedFor env.sequence newOwner) env.sequence
                  .owner id owner newOwner)
                env.sequence (.alert id)
                { cfg with owner := newOwner, updatedAt := env.timestamp }
                defaultTtl)
              ⟨(.alert, .transfer),
                [.u64 id, .address owner, .address newOwner]⟩)) := by
  simp [transferAlertOwnership, removeFromOwnerIndex, pushOwnerIndex,
    assertPerOwnerLimit, State.moved]

/-- The loop of `deactivate_all_alerts` counts the active alerts that it finds; one
that it has deactivated is not counted again. -/
theorem returns_deactivateFrom (env : Env) (ids : List Nat) (count : Nat) (s : State) :
    (deactivateFrom ids count).Returns env s
      (count + (s.view.activeAmong ids).card)
      (State.deactivatedEach env.sequence env.timestamp ids s) := by
  induction ids generalizing count s with
  | nil => simp [deactivateFrom, State.deactivatedEach, Registry.activeAmong]
  | cons id rest ih =>
      simp only [deactivateFrom, returns_bind, returns_persistentGet,
        State.deactivatedEach]
      refine ⟨_, s, ⟨rfl, rfl⟩, ?_⟩
      cases hget : s.persistent.get (.alert id) with
      | none =>
          have hinactive : s.view.isActive id = false := by
            simp [Registry.isActive, view_row, hget]
          rw [Registry.activeAmong_cons_of_inactive rest hinactive]
          simpa [State.deactivatedOne, hget] using ih count s
      | some cfg =>
          by_cases hcfg : cfg.active = true
          · have hactive : s.view.isActive id = true := by
              simp [Registry.isActive, view_row, hget, hcfg]
            have hnext := ih (count + 1)
              (State.deactivatedOne env.sequence env.timestamp id s)
            rw [view_deactivatedOne, Nat.add_assoc, Nat.add_comm 1,
              ← Registry.card_activeAmong_cons env.timestamp rest hactive] at hnext
            simpa [State.deactivatedOne, hget, hcfg] using hnext
          · have hinactive : s.view.isActive id = false := by
              simp [Registry.isActive, view_row, hget, hcfg]
            rw [Registry.activeAmong_cons_of_inactive rest hinactive]
            simpa [State.deactivatedOne, hget, hcfg] using ih count s

theorem returns_deactivateAllAlerts (caller : Address) (n : Nat) :
    (deactivateAllAlerts caller).Returns env s n s' ↔
      s.view.paused = false ∧
        caller ∈ env.auths ∧
        n = (s.view.activeAmong (s.view.table.index .owner caller)).card ∧
        s' = State.deactivatedEach env.sequence env.timestamp
          (s.view.table.index .owner caller) s := by
  have hloop := returns_deactivateFrom env (s.view.table.index .owner caller) 0 s
  rw [Nat.zero_add] at hloop
  simp only [deactivateAllAlerts, ownerIndex, returns_bind,
    returns_assertNotPaused, returns_requireAuth, returns_loadIndex]
  constructor
  · rintro ⟨-, _, ⟨hpaused, rfl⟩, -, _, ⟨hauth, rfl⟩, _, _, ⟨rfl, rfl⟩, h⟩
    obtain ⟨hn, hs'⟩ : n = _ ∧ s' = _ := h.unique hloop
    exact ⟨hpaused, hauth, hn, hs'⟩
  · rintro ⟨hpaused, hauth, rfl, rfl⟩
    exact ⟨(), s, ⟨hpaused, rfl⟩, (), s, ⟨hauth, rfl⟩, _, s, ⟨rfl, rfl⟩, hloop⟩

end Changes

section Renewals

variable {env : Env} {s s' : State}

theorem returns_bumpAlert (id ttl : Nat) (u : Unit) :
    (bumpAlert id ttl).Returns env s u s' ↔
      ∃ cfg,
        s.view.paused = false ∧
        s.view.table.row id = some cfg ∧
        s.persistent.has (.alertActive id) = true ∧
        s.persistent.has (.ownerIndex cfg.owner) = true ∧
        s.persistent.has (.contractIndex cfg.targetContract) = true ∧
        s' = State.emit (s.bumped env.sequence id cfg (min ttl maxTtl))
          (bumpEvent (min ttl maxTtl) id) := by
  have hhas : ∀ cfg, s.view.table.row id = some cfg →
      s.persistent.has (.alert id) = true := by
    intro cfg hrow
    rw [Store.has_iff_get]
    exact ⟨cfg, hrow⟩
  simp only [bumpAlert, State.bumped, State.renewed, State.renewedLists]
  cases hnext : s.persistent.has .nextId <;> simp [hnext, bumpEvent]
  all_goals
    intro hpaused
    constructor
    · rintro ⟨cfg, hrow, -, h⟩
      exact ⟨cfg, hrow, h⟩
    · rintro ⟨cfg, hrow, h⟩
      exact ⟨cfg, hrow, hhas cfg hrow, h⟩

/-- What the loop of `bulk_renew_ttl` has done when it returns. -/
theorem returns_bulkRenewFrom
    {ids : List Nat} {renewed n : Nat}
    (h : (bulkRenewFrom ids renewed).Returns env s n s') :
    n = renewed + (s.view.table.live ids).length ∧
      s' = State.renewedEach env.sequence ids s := by
  induction ids generalizing renewed s with
  | nil =>
      simp only [bulkRenewFrom, returns_pure] at h
      obtain ⟨rfl, rfl⟩ := h
      simp [Table.live, State.renewedEach]
  | cons id rest ih =>
      simp only [bulkRenewFrom, returns_bind, returns_persistentGet] at h
      obtain ⟨o, t, ⟨ho, ht⟩, h⟩ := h
      rw [ho, ht] at h
      cases hget : s.persistent.get (.alert id) with
      | none =>
          rw [hget] at h
          obtain ⟨hn, hs'⟩ := ih h
          refine ⟨?_, ?_⟩
          · rw [hn, live_cons_of_none s hget]
          · simpa [State.renewedEach, hget] using hs'
      | some cfg =>
          rw [hget] at h
          simp only [returns_bind, returns_persistentExtendTtl,
            returns_publish] at h
          obtain ⟨-, _, ⟨-, rfl⟩, -, _, ⟨-, rfl⟩, -, _, ⟨-, rfl⟩,
            -, _, ⟨-, rfl⟩, -, _, rfl, h⟩ := h
          obtain ⟨hn, hs'⟩ := ih h
          refine ⟨?_, ?_⟩
          · rw [hn, live_cons_of_some s hget]
            simp
            omega
          · simpa [State.renewedEach, hget, State.renewed,
              State.renewedLists, bumpEvent] using hs'

end Renewals

section ConfigurationCalls

variable {env : Env} {s s' : State}

theorem returns_initialise (admin : Address) (u : Unit) :
    (initialise admin).Returns env s u s' ↔
      s.inst .admin = none ∧
        s' = State.emit (s.setInst .admin (.vec [admin]))
          ⟨(.admin, .init), [.address admin]⟩ := by
  simp [initialise, setAdmins]

/-- When a configuration call returns. -/
theorem returns_administer
    {call : Call} {admin : Address}
    (hcall : call.administers = some admin) (resp : Response) :
    (dispatch call).Returns env s resp s' ↔
      ∃ admins entry,
        admin ∈ env.auths ∧
        s.view.admins = some admins ∧
        admin ∈ admins ∧
        call.Permitted admins ∧
        call.setting admins = some entry ∧
        resp = .unit ∧
        s' = State.announce (s.setInst entry.1 entry.2) call.adminEvents := by
  cases call with
  | transferAdmin admin' _ | setPerOwnerAlertLimit admin' _ | setPaused admin' _
  | setWatcherRegistry admin' _ =>
      obtain rfl : admin' = admin := by
        simpa [Call.administers] using hcall
      simp only [dispatch, done, respond, transferAdmin, setPerOwnerAlertLimit,
        setPaused, setWatcherRegistry, setAdmins, Call.Permitted, Call.setting,
        Call.adminEvents]
      simp [Registry.IsAdmin]
      constructor
      · rintro ⟨⟨hauth, ⟨admins, hadmins, hmem⟩, rfl⟩, rfl⟩
        exact ⟨hauth, admins, hadmins, hmem, rfl, rfl⟩
      · rintro ⟨hauth, admins, hadmins, hmem, rfl, rfl⟩
        exact ⟨⟨hauth, ⟨admins, hadmins, hmem⟩, rfl⟩, rfl⟩
  | addAdmin admin' newAdmin =>
      obtain rfl : admin' = admin := by
        simpa [Call.administers] using hcall
      simp only [dispatch, done, respond, addAdmin, setAdmins,
        Call.Permitted, Call.setting, Call.adminEvents]
      simp [Registry.IsAdmin]
      constructor
      · rintro ⟨⟨hauth, ⟨admins, hadmins, hmem⟩, admins', hadmins', hnew, rfl⟩, rfl⟩
        obtain rfl := Option.some.inj (hadmins.symm.trans hadmins')
        exact ⟨hauth, admins, hadmins, hmem, hnew, rfl, rfl⟩
      · rintro ⟨hauth, admins, hadmins, hmem, hnew, rfl, rfl⟩
        exact ⟨⟨hauth, ⟨admins, hadmins, hmem⟩, admins, hadmins, hnew, rfl⟩, rfl⟩
  | removeAdmin admin' targetAdmin =>
      obtain rfl : admin' = admin := by
        simpa [Call.administers] using hcall
      have hfilter : ∀ admins : List Address,
          admins.foldl
              (fun out a => if a ≠ targetAdmin then out ++ [a] else out) [] =
            admins.filter (fun a => a ≠ targetAdmin) := by
        intro admins
        exact foldl_push_eq_filter (fun a => a ≠ targetAdmin) admins []
      simp only [dispatch, done, respond, removeAdmin, setAdmins,
        Call.Permitted, Call.setting, Call.adminEvents, hfilter]
      simp [Registry.IsAdmin]
      constructor
      · rintro ⟨⟨hauth, ⟨admins, hadmins, hmem⟩, admins', hadmins', htarget, hlen,
          rfl⟩, rfl⟩
        obtain rfl := Option.some.inj (hadmins.symm.trans hadmins')
        exact ⟨hauth, admins, hadmins, hmem, ⟨htarget, hlen⟩, rfl, rfl⟩
      · rintro ⟨hauth, admins, hadmins, hmem, ⟨htarget, hlen⟩, rfl, rfl⟩
        exact ⟨⟨hauth, ⟨admins, hadmins, hmem⟩, admins, hadmins, htarget, hlen,
          rfl⟩, rfl⟩
  | _ => simp [Call.administers] at hcall

end ConfigurationCalls

end AlertRegistry
end TxWatch
