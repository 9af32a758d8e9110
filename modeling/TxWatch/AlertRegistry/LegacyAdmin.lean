import TxWatch.AlertRegistry.Readings
import TxWatch.AlertRegistry.Admins
import TxWatch.Soroban.Coupling

/-!
# The old format of the admin entry

Earlier versions of the contract stored a single address under `ADMIN`.  No
sequence of calls tells that entry from the vector of the one address:
`load_admins` reads both alike, `initialize` only asks whether there is an entry,
and every write of the entry stores a vector.
-/

namespace TxWatch
namespace AlertRegistry

open Soroban Soroban.Contract

/-- The instance entries are the same, except that `ADMIN` may be an address in
the one and the vector of that address in the other. -/
def Migrated (a : Address) (f g : (i : InstanceKey) → Option i.Value) : Prop :=
  g = f ∨
    (f .admin = some (.address a) ∧
      g = Function.update f .admin (some (.vec [a])))

section Entries

variable {a : Address} {f g : (i : InstanceKey) → Option i.Value}

theorem Migrated.of_ne
    (h : Migrated a f g) {i : InstanceKey} (hi : i ≠ .admin) :
    g i = f i := by
  rcases h with rfl | ⟨-, rfl⟩
  · rfl
  · exact Function.update_of_ne hi _ _

/-- Both formats read as the same list. -/
theorem Migrated.toVec
    (h : Migrated a f g) :
    (g .admin).bind AdminEntry.toVec = (f .admin).bind AdminEntry.toVec := by
  rcases h with rfl | ⟨hf, rfl⟩
  · rfl
  · rw [Function.update_self, hf]
    rfl

theorem Migrated.isSome
    (h : Migrated a f g) :
    (g .admin).isSome = (f .admin).isSome := by
  rcases h with rfl | ⟨hf, rfl⟩
  · rfl
  · rw [Function.update_self, hf]
    rfl

/-- Writing the admin entry leaves no difference. -/
theorem Migrated.update_admin
    (h : Migrated a f g) (w : AdminEntry) :
    Migrated a (Function.update f .admin (some w))
      (Function.update g .admin (some w)) := by
  left
  rcases h with rfl | ⟨-, rfl⟩
  · rfl
  · exact Function.update_idem _ _ _

/-- Writing another entry changes nothing about it. -/
theorem Migrated.update_of_ne
    (h : Migrated a f g) {i : InstanceKey} (hi : i ≠ .admin) (w : i.Value) :
    Migrated a (Function.update f i (some w)) (Function.update g i (some w)) := by
  rcases h with rfl | ⟨hf, rfl⟩
  · exact Or.inl rfl
  · right
    refine ⟨?_, Function.update_comm hi.symm _ _ _⟩
    rw [Function.update_of_ne hi.symm]
    exact hf

end Entries

variable {a : Address}

section Guards

theorem blind_get {i : InstanceKey} (hi : i ≠ .admin) :
    Blind (Migrated a) (instanceGet i : Contract _) := by
  exact blind_instanceGet fun _ _ h => h.of_ne hi

theorem blind_set {i : InstanceKey} (hi : i ≠ .admin) (w : i.Value) :
    Blind (Migrated a) (instanceSet i w : Contract Unit) := by
  exact blind_instanceSet fun _ _ h => h.update_of_ne hi w

theorem blind_loadAdmins : Blind (Migrated a) loadAdmins := by
  refine Blind.bind_read (fun _ _ => rfl) ?_ fun _ => blind_pure _
  intro s t h
  rw [h.inst.toVec]

theorem blind_setAdmins (admins : List Address) :
    Blind (Migrated a) (setAdmins admins) := by
  exact blind_instanceSet fun _ _ h => h.update_admin _

theorem blind_isPaused : Blind (Migrated a) isPaused := by
  exact (blind_get (by simp)).bind fun _ => blind_pure _

theorem blind_assertNotPaused : Blind (Migrated a) assertNotPaused := by
  exact blind_isPaused.bind fun _ => blind_rejectIf _ _

theorem blind_getPerOwnerAlertLimit :
    Blind (Migrated a) getPerOwnerAlertLimit := by
  exact (blind_get (by simp)).bind fun _ => blind_pure _

theorem blind_assertWatcherIfConfigured (querier : Address) :
    Blind (Migrated a) (assertWatcherIfConfigured querier) := by
  refine (blind_get (by simp)).bind ?_
  intro maybeRegistry
  cases maybeRegistry with
  | none => exact blind_pure _
  | some registryAddr =>
      exact (blind_askPeer _ _).bind fun _ => blind_rejectIf _ _

theorem blind_assertOwner (cfg : AlertConfig) (caller : Address) :
    Blind (Migrated a) (assertOwner cfg caller) := by
  exact Blind.ite (blind_pure _) (blind_fail _)

theorem blind_assertAdmin (caller : Address) :
    Blind (Migrated a) (assertAdmin caller) := by
  refine blind_loadAdmins.bind fun _ => (blind_okOr _ _).bind ?_
  intro admins
  exact Blind.ite (blind_pure _) (blind_fail _)

/-- The two checks with which the administrative entry points begin. -/
theorem blind_byAdmin
    {α : Type} (admin : Address) {m : Contract α} (hm : Blind (Migrated a) m) :
    Blind (Migrated a) (do
      requireAuth admin
      assertAdmin admin
      m) := by
  exact (blind_requireAuth admin).bind fun _ =>
    (blind_assertAdmin admin).bind fun _ => hm

end Guards

section Indexes

theorem blind_loadIndex (kind : IndexKind) (b : Address) :
    Blind (Migrated a) (loadIndex kind b) := by
  exact (blind_persistentGet _).bind fun _ => blind_pure _

theorem blind_pushIndex (kind : IndexKind) (b : Address) (id : Nat) :
    Blind (Migrated a) (pushIndex kind b id) := by
  refine (blind_loadIndex kind b).bind fun _ => ?_
  exact (blind_rejectIf _ _).bind fun _ => blind_persistentStore _ _ _

theorem blind_removeFromIndex (kind : IndexKind) (b : Address) (id : Nat) :
    Blind (Migrated a) (removeFromIndex kind b id) := by
  refine (blind_loadIndex kind b).bind fun _ => ?_
  exact Blind.ite (blind_persistentRemove _) (blind_persistentStore _ _ _)

theorem liveIds_congr
    {s t : State} (h : t.persistent = s.persistent) (ids : List Nat) :
    liveIds t ids = liveIds s ids := by
  unfold liveIds
  rw [h]

theorem records_congr
    {s t : State} (h : t.persistent = s.persistent) (ids : List Nat) :
    t.records ids = s.records ids := by
  unfold State.records State.alertAt
  rw [h]

theorem blind_assertPerOwnerLimitFor (owner : Address) (additional : Nat) :
    Blind (Migrated a) (assertPerOwnerLimitFor owner additional) := by
  refine blind_getPerOwnerAlertLimit.bind fun limit => blind_whenever ?_
  refine (blind_loadIndex _ _).bind fun ids => ?_
  refine Blind.bind_read (fun _ _ => rfl) ?_ fun s => ?_
  · intro s t h
    simp only [liveIds_congr h.persistent]
  · refine (blind_whenever ?_).bind fun _ => blind_rejectIf _ _
    exact Blind.ite (blind_persistentRemove _) (blind_persistentStore _ _ _)

/-- Reading an index and then computing from the persistent entries. -/
theorem blind_fromIndex
    {α : Type} (kind : IndexKind) (b : Address) (f : State → List Nat → α)
    (hf : ∀ s t : State, t.persistent = s.persistent →
      ∀ ids, f t ids = f s ids) :
    Blind (Migrated a) (do
      let ids ← loadIndex kind b
      pure (f (← getState) ids) : Contract α) := by
  refine (blind_loadIndex kind b).bind fun ids => ?_
  refine Blind.bind_read (fun _ _ => rfl) ?_ fun _ => blind_pure _
  intro s t h
  rw [hf s t h.persistent]

end Indexes

section Records

theorem blind_nextId : Blind (Migrated a) nextId := by
  refine (blind_get (by simp)).bind fun _ => (blind_okOr _ _).bind fun _ => ?_
  refine (blind_set (by simp) _).bind fun _ => ?_
  exact (blind_instanceExtendTtl _ _).bind fun _ => blind_pure _

theorem blind_loadAlert (id : Nat) : Blind (Migrated a) (loadAlert id) := by
  exact (blind_persistentGet _).bind fun _ => blind_okOr _ _

/-- The checks with which the owner's entry points go on once the caller has
signed. -/
theorem blind_byOwner
    {α : Type} (caller : Address) (id : Nat) {f : AlertConfig → Contract α}
    (hf : ∀ cfg, Blind (Migrated a) (f cfg)) :
    Blind (Migrated a) (do
      requireAuth caller
      let config ← loadAlert id
      assertOwner config caller
      f config) := by
  refine (blind_requireAuth caller).bind fun _ => ?_
  exact (blind_loadAlert id).bind fun cfg =>
    (blind_assertOwner cfg caller).bind fun _ => hf cfg

theorem blind_createAlert (cfg : AlertConfig) :
    Blind (Migrated a) (createAlert cfg) := by
  refine blind_nextId.bind fun id => (blind_persistentStore _ _ _).bind fun _ => ?_
  refine (blind_persistentStore _ _ _).bind fun _ => ?_
  refine (blind_pushIndex _ _ _).bind fun _ => (blind_pushIndex _ _ _).bind fun _ => ?_
  exact (blind_publish _).bind fun _ => blind_pure _

theorem blind_registerInputs
    (caller : Address) (now : Nat) (inputs : List AlertInput) (ids : List Nat) :
    Blind (Migrated a) (registerInputs caller now inputs ids) := by
  induction inputs generalizing ids with
  | nil => exact blind_pure _
  | cons input rest ih =>
      exact (blind_createAlert _).bind fun id => ih (ids ++ [id])

/-- What both removals do to the storage before they publish. -/
theorem blind_removeRecord (cfg : AlertConfig) (id : Nat) (ev : Event) :
    Blind (Migrated a) (do
      persistentRemove (.alert id)
      persistentRemove (.alertActive id)
      removeFromOwnerIndex cfg.owner id
      removeFromContractIndex cfg.targetContract id
      publish ev : Contract Unit) := by
  refine (blind_persistentRemove _).bind fun _ => ?_
  refine (blind_persistentRemove _).bind fun _ => ?_
  refine (blind_removeFromIndex _ _ _).bind fun _ => ?_
  exact (blind_removeFromIndex _ _ _).bind fun _ => blind_publish _

theorem blind_configsPaginatedFrom
    (ids : List Nat) (count i : Nat) (out : List AlertConfig) :
    Blind (Migrated a) (configsPaginatedFrom ids count i out) := by
  induction count generalizing i out with
  | zero => exact blind_pure out
  | succ count ih =>
      refine (blind_unwrap _).bind fun id => ?_
      refine (blind_persistentGet _).bind fun cfg => ?_
      cases cfg with
      | none => exact ih (i + 1) out
      | some cfg => exact ih (i + 1) (out ++ [cfg])

theorem blind_activePageFrom
    (active : List AlertConfig) (count i : Nat) (out : List AlertConfig) :
    Blind (Migrated a) (activePageFrom active count i out) := by
  induction count generalizing i out with
  | zero => exact blind_pure out
  | succ count ih =>
      exact (blind_unwrap _).bind fun cfg => ih (i + 1) (out ++ [cfg])

theorem blind_bulkRenewFrom (ids : List Nat) (renewed : Nat) :
    Blind (Migrated a) (bulkRenewFrom ids renewed) := by
  induction ids generalizing renewed with
  | nil => exact blind_pure _
  | cons id rest ih =>
      refine (blind_persistentGet _).bind fun cfg => ?_
      cases cfg with
      | none => exact ih renewed
      | some cfg =>
          refine (blind_persistentExtendTtl _ _ _).bind fun _ => ?_
          refine (blind_persistentExtendTtl _ _ _).bind fun _ => ?_
          refine (blind_persistentExtendTtl _ _ _).bind fun _ => ?_
          refine (blind_persistentExtendTtl _ _ _).bind fun _ => ?_
          exact (blind_publish _).bind fun _ => ih (renewed + 1)

theorem blind_deactivateFrom (ids : List Nat) (count : Nat) :
    Blind (Migrated a) (deactivateFrom ids count) := by
  induction ids generalizing count with
  | nil => exact blind_pure _
  | cons id rest ih =>
      refine (blind_persistentGet _).bind fun cfg => ?_
      cases cfg with
      | none => exact ih count
      | some cfg =>
          refine Blind.ite ?_ (ih count)
          refine blind_timestamp.bind fun _ => ?_
          refine (blind_persistentStore _ _ _).bind fun _ => ?_
          exact (blind_persistentStore _ _ _).bind fun _ => ih (count + 1)

/-- Extending the lists that an alert is on, and then publishing. -/
theorem blind_renewLists (cfg : AlertConfig) (ev : Event) :
    Blind (Migrated a) (do
      persistentExtendTtl (.ownerIndex cfg.owner) defaultTtl defaultTtl
      persistentExtendTtl (.contractIndex cfg.targetContract)
        defaultTtl defaultTtl
      publish ev : Contract Unit) := by
  refine (blind_persistentExtendTtl _ _ _).bind fun _ => ?_
  exact (blind_persistentExtendTtl _ _ _).bind fun _ => blind_publish _

end Records

section EntryPoints

variable {call : Call}

theorem blind_initialise (admin : Address) :
    Blind (Migrated a) (initialise admin) := by
  refine Blind.bind_read (fun _ _ => rfl) ?_ fun _ => ?_
  · intro s t h
    rw [h.inst.isSome]
  · refine (blind_rejectIf _ _).bind fun _ => ?_
    exact (blind_setAdmins _).bind fun _ => blind_publish _

theorem blind_administer
    {admin : Address} (hcall : call.administers = some admin) :
    Blind (Migrated a) (dispatch call) := by
  cases call with
  | transferAdmin admin newAdmin =>
      refine blind_respond (blind_byAdmin admin ?_) _
      exact (blind_setAdmins _).bind fun _ => blind_publish _
  | addAdmin caller newAdmin =>
      refine blind_respond (blind_byAdmin caller ?_) _
      refine blind_loadAdmins.bind fun _ => (blind_okOr _ _).bind fun _ => ?_
      refine (blind_rejectIf _ _).bind fun _ => ?_
      exact (blind_setAdmins _).bind fun _ => blind_publish _
  | removeAdmin caller targetAdmin =>
      refine blind_respond (blind_byAdmin caller ?_) _
      refine blind_loadAdmins.bind fun _ => (blind_okOr _ _).bind fun _ => ?_
      refine (blind_rejectIf _ _).bind fun _ => (blind_rejectIf _ _).bind fun _ => ?_
      exact (blind_setAdmins _).bind fun _ => blind_publish _
  | setPerOwnerAlertLimit admin limit =>
      refine blind_respond (blind_byAdmin admin ?_) _
      refine (blind_rejectIf _ _).bind fun _ => ?_
      exact (blind_set (by simp) _).bind fun _ => blind_publish _
  | setPaused admin paused =>
      refine blind_respond (blind_byAdmin admin ?_) _
      exact (blind_set (by simp) _).bind fun _ => blind_publish _
  | setWatcherRegistry admin watcherRegistry =>
      exact blind_respond (blind_byAdmin admin (blind_set (by simp) _)) _
  | _ => simp [Call.administers] at hcall

theorem blind_enrol
    {now : Nat} {owner : Address} {cfgs : List AlertConfig}
    (hcall : call.enrols now = some (owner, cfgs)) :
    Blind (Migrated a) (dispatch call) := by
  cases call with
  | registerAlert owner' targetContract label webhookHash rules tags =>
      refine blind_respond ?_ _
      refine blind_assertNotPaused.bind fun _ => (blind_rejectIf _ _).bind fun _ => ?_
      refine (blind_requireAuth _).bind fun _ => (blind_ofExcept _).bind fun _ => ?_
      refine (blind_ofExcept _).bind fun _ => (blind_ofExcept _).bind fun _ => ?_
      refine (blind_assertPerOwnerLimitFor _ _).bind fun _ => ?_
      exact blind_timestamp.bind fun _ => blind_createAlert _
  | batchRegisterAlerts caller inputs =>
      refine blind_respond ?_ _
      refine blind_assertNotPaused.bind fun _ => (blind_rejectIf _ _).bind fun _ => ?_
      refine (blind_requireAuth _).bind fun _ => (blind_ofExcept _).bind fun _ => ?_
      refine (blind_assertPerOwnerLimitFor _ _).bind fun _ => ?_
      exact blind_timestamp.bind fun _ => blind_registerInputs _ _ _ _
  | _ => simp [Call.enrols] at hcall

theorem blind_amend
    {caller : Address} {id : Nat} (hcall : call.amends = some (caller, id)) :
    Blind (Migrated a) (dispatch call) := by
  cases call with
  | updateAlert caller id rules active =>
      refine blind_respond ?_ _
      refine blind_assertNotPaused.bind fun _ => blind_byOwner caller id fun cfg => ?_
      refine (blind_ofExcept _).bind fun _ => blind_timestamp.bind fun _ => ?_
      refine (blind_persistentStore _ _ _).bind fun _ => ?_
      exact (blind_persistentStore _ _ _).bind fun _ => blind_renewLists cfg _
  | updateWebhook caller id webhookHash =>
      refine blind_respond ?_ _
      refine blind_assertNotPaused.bind fun _ => blind_byOwner caller id fun cfg => ?_
      refine (blind_rejectIf _ _).bind fun _ => blind_timestamp.bind fun _ => ?_
      exact (blind_persistentStore _ _ _).bind fun _ => blind_renewLists cfg _
  | proposeWebhook caller id newWebhookHash =>
      refine blind_respond (blind_byOwner caller id fun cfg => ?_) _
      refine blind_timestamp.bind fun _ => ?_
      exact (blind_persistentStore _ _ _).bind fun _ => blind_publish _
  | confirmWebhook caller id =>
      refine blind_respond (blind_byOwner caller id fun cfg => ?_) _
      refine (blind_okOr _ _).bind fun _ => blind_timestamp.bind fun _ => ?_
      exact (blind_persistentStore _ _ _).bind fun _ => blind_publish _
  | updateLabel caller id label =>
      refine blind_respond ?_ _
      refine blind_assertNotPaused.bind fun _ => (blind_requireAuth _).bind fun _ => ?_
      refine (blind_ofExcept _).bind fun _ => (blind_loadAlert _).bind fun cfg => ?_
      refine (blind_assertOwner _ _).bind fun _ => blind_timestamp.bind fun _ => ?_
      exact (blind_persistentStore _ _ _).bind fun _ => blind_renewLists cfg _
  | updateTags caller id tags =>
      refine blind_respond ?_ _
      refine blind_assertNotPaused.bind fun _ => blind_byOwner caller id fun cfg => ?_
      refine (blind_ofExcept _).bind fun _ => blind_timestamp.bind fun _ => ?_
      exact (blind_persistentStore _ _ _).bind fun _ => blind_publish _
  | _ => simp [Call.amends] at hcall

theorem blind_setAlertActiveByAdmin (admin : Address) (id : Nat) (active : Bool) :
    Blind (Migrated a) (setAlertActiveByAdmin admin id active) := by
  refine blind_byAdmin admin ((blind_loadAlert _).bind fun _ => ?_)
  refine blind_timestamp.bind fun _ => (blind_persistentStore _ _ _).bind fun _ => ?_
  exact (blind_persistentStore _ _ _).bind fun _ => blind_publish _

theorem blind_bumpAlert (id ttl : Nat) :
    Blind (Migrated a) (bumpAlert id ttl) := by
  refine blind_assertNotPaused.bind fun _ => (blind_loadAlert _).bind fun _ => ?_
  refine (blind_persistentExtendTtl _ _ _).bind fun _ => ?_
  refine (blind_persistentExtendTtl _ _ _).bind fun _ => ?_
  refine (blind_persistentExtendTtl _ _ _).bind fun _ => ?_
  refine (blind_persistentExtendTtl _ _ _).bind fun _ => ?_
  refine (blind_persistentHas _).bind fun _ => ?_
  refine (blind_whenever (blind_persistentExtendTtl _ _ _)).bind fun _ => ?_
  exact (blind_instanceExtendTtl _ _).bind fun _ => blind_publish _

theorem blind_updateTargetContract
    (caller : Address) (id : Nat) (newTarget : Address) :
    Blind (Migrated a) (updateTargetContract caller id newTarget) := by
  refine blind_assertNotPaused.bind fun _ => blind_byOwner caller id fun cfg => ?_
  refine blind_timestamp.bind fun _ => (blind_persistentStore _ _ _).bind fun _ => ?_
  exact (blind_removeFromIndex _ _ _).bind fun _ => blind_pushIndex _ _ _

theorem blind_transferAlertOwnership
    (owner : Address) (id : Nat) (newOwner : Address) :
    Blind (Migrated a) (transferAlertOwnership owner id newOwner) := by
  refine blind_assertNotPaused.bind fun _ => blind_byOwner owner id fun cfg => ?_
  refine Blind.ite (blind_pure _) ?_
  refine (blind_assertPerOwnerLimitFor _ _).bind fun _ => ?_
  refine (blind_removeFromIndex _ _ _).bind fun _ => ?_
  refine (blind_pushIndex _ _ _).bind fun _ => blind_timestamp.bind fun _ => ?_
  exact (blind_persistentStore _ _ _).bind fun _ => blind_publish _

/-- The queries read the admin entry through `load_admins` only. -/
theorem blind_query
    (hquery : call.isQuery = true) :
    Blind (Migrated a) (dispatch call) := by
  cases call with
  | getAdmin =>
      refine blind_respond ?_ _
      exact blind_loadAdmins.bind fun _ => blind_okOr _ _
  | getAdmins => exact blind_respond blind_loadAdmins _
  | isPaused => exact blind_respond blind_isPaused _
  | getPerOwnerAlertLimit => exact blind_respond blind_getPerOwnerAlertLimit _
  | getWatcherRegistry => exact blind_respond (blind_get (by simp)) _
  | getAlertsForContract querier targetContract =>
      refine blind_respond ?_ _
      refine (blind_assertWatcherIfConfigured querier).bind fun _ => ?_
      refine blind_fromIndex _ _ _ fun s t h ids => ?_
      rw [configsForIds_eq, configsForIds_eq, records_congr h]
  | getAlertIdsForContract targetContract =>
      refine blind_respond ?_ _
      exact blind_fromIndex _ _ _ fun s t h ids => liveIds_congr h ids
  | getAlertIdsByOwner owner =>
      refine blind_respond ?_ _
      exact blind_fromIndex _ _ _ fun s t h ids => liveIds_congr h ids
  | getActiveAlertsForContract targetContract =>
      refine blind_respond ?_ _
      refine blind_fromIndex _ _ _ fun s t h ids => ?_
      rw [activeConfigsForIds_eq, activeConfigsForIds_eq, records_congr h]
  | getActiveAlertsPaginated targetContract offset limit =>
      refine blind_respond ((blind_loadIndex _ _).bind fun ids => ?_) _
      refine Blind.bind_read (fun _ _ => rfl) ?_ fun _ => blind_activePageFrom _ _ _ _
      intro s t h
      simp only [activeConfigsForIds_eq, records_congr h.persistent]
  | getAlertsByOwner querier owner =>
      refine blind_respond ?_ _
      refine (blind_assertWatcherIfConfigured querier).bind fun _ => ?_
      refine blind_fromIndex _ _ _ fun s t h ids => ?_
      rw [configsForIds_eq, configsForIds_eq, records_congr h]
  | getContractAlertsPaginated querier targetContract offset limit =>
      refine blind_respond ?_ _
      refine (blind_assertWatcherIfConfigured querier).bind fun _ => ?_
      exact (blind_loadIndex _ _).bind fun _ => blind_configsPaginatedFrom _ _ _ _
  | getAlertsByOwnerPaginated querier owner offset limit =>
      refine blind_respond ?_ _
      refine (blind_assertWatcherIfConfigured querier).bind fun _ => ?_
      exact (blind_loadIndex _ _).bind fun _ => blind_configsPaginatedFrom _ _ _ _
  | getAlert id =>
      refine blind_respond ((blind_persistentGet _).bind fun _ => ?_) _
      exact (blind_whenever (blind_persistentExtendTtl _ _ _)).bind fun _ => blind_pure _
  | getAlertActive id => exact blind_respond (blind_persistentGet _) _
  | getAlertsModifiedSince since =>
      refine blind_respond ((blind_get (by simp)).bind fun total => ?_) _
      refine Blind.bind_read (fun _ _ => rfl) ?_ fun _ => blind_pure _
      intro s t h
      rw [h.persistent]
  | getAlertsUpdatedSince targetContract since offset limit =>
      refine blind_respond ?_ _
      refine blind_fromIndex _ _ _ fun s t h ids => ?_
      rw [updatedSinceFrom_eq _ _ _ _ _ _ _ (Nat.zero_le _),
        updatedSinceFrom_eq _ _ _ _ _ _ _ (Nat.zero_le _), records_congr h]
  | getAlertCount =>
      exact blind_respond ((blind_get (by simp)).bind fun _ => blind_pure _) _
  | getActiveAlertCount owner =>
      refine blind_respond ?_ _
      refine blind_fromIndex _ _ _ fun s t h ids => ?_
      rw [h]
  | _ => simp [Call.isQuery] at hquery

/-- No entry point tells the two formats apart. -/
theorem blind_dispatch (call : Call) :
    Blind (Migrated a) (dispatch call) := by
  cases hquery : call.isQuery with
  | true => exact blind_query hquery
  | false =>
  cases hadm : call.administers with
  | some admin => exact blind_administer hadm
  | none =>
  cases henrol : call.enrols 0 with
  | some owned => exact blind_enrol henrol
  | none =>
  cases hamend : call.amends with
  | some owned => exact blind_amend hamend
  | none =>
  cases call with
  | initialise admin => exact blind_respond (blind_initialise admin) _
  | pauseAlert admin id =>
      exact blind_respond (blind_setAlertActiveByAdmin admin id false) _
  | unpauseAlert admin id =>
      exact blind_respond (blind_setAlertActiveByAdmin admin id true) _
  | removeAlert caller id =>
      refine blind_respond ?_ _
      exact blind_assertNotPaused.bind fun _ => blind_byOwner caller id fun cfg =>
        blind_removeRecord cfg id _
  | removeAlertByAdmin admin id =>
      refine blind_respond ?_ _
      refine blind_assertNotPaused.bind fun _ => blind_byAdmin admin ?_
      exact (blind_loadAlert id).bind fun cfg => blind_removeRecord cfg id _
  | bumpAlert id ttl => exact blind_respond (blind_bumpAlert id ttl) _
  | bulkRenewTtl ids =>
      refine blind_respond ?_ _
      exact (blind_rejectIf _ _).bind fun _ => blind_bulkRenewFrom _ _
  | deactivateAllAlerts caller =>
      refine blind_respond ?_ _
      refine blind_assertNotPaused.bind fun _ => (blind_requireAuth _).bind fun _ => ?_
      exact (blind_loadIndex _ _).bind fun _ => blind_deactivateFrom _ _
  | updateTargetContract caller id newTarget =>
      exact blind_respond (blind_updateTargetContract caller id newTarget) _
  | transferAlertOwnership owner id newOwner =>
      exact blind_respond (blind_transferAlertOwnership owner id newOwner) _
  | _ => simp_all [Call.isQuery, Call.administers, Call.enrols, Call.amends]

end EntryPoints

section Runs

variable {s t : State}

/-- A call ends alike on both storages and leaves them alike. -/
theorem migrated_invoke
    (h : State.DifferBy (Migrated a) s t) (env : Env) (call : Call) :
    (invoke env call t).1 = (invoke env call s).1 ∧
      State.DifferBy (Migrated a) (invoke env call s).2 (invoke env call t).2 := by
  have hquiet : State.DifferBy (Migrated a) s.silenced t.silenced :=
    h.map State.silenced (fun _ => rfl) (fun _ _ => rfl)
  obtain ⟨hval, hafter⟩ := blind_dispatch call env s.silenced t.silenced hquiet
  rcases hs : (dispatch call).run env s.silenced with ⟨f | resp, s'⟩
  · rcases ht : (dispatch call).run env t.silenced with ⟨f' | resp', t'⟩
    · rw [hs, ht] at hval
      obtain rfl := Except.error.inj hval
      rw [invoke_of_fails hs, invoke_of_fails ht]
      exact ⟨rfl, hquiet⟩
    · rw [hs, ht] at hval
      exact absurd hval (by simp)
  · rcases ht : (dispatch call).run env t.silenced with ⟨f' | resp', t'⟩
    · rw [hs, ht] at hval
      exact absurd hval (by simp)
    · rw [hs, ht] at hval hafter
      obtain rfl := Except.ok.inj hval
      rw [invoke_of_returns hs, invoke_of_returns ht]
      exact ⟨rfl, hafter⟩

theorem migrated_exec
    (h : State.DifferBy (Migrated a) s t) (st : Step) :
    State.DifferBy (Migrated a) (exec s st) (exec t st) := by
  cases st with
  | call env call => exact (migrated_invoke h env call).2
  | expire keys =>
      exact h.map (fun u => State.dropping (State.silenced u) keys) (fun _ => rfl)
        (fun _ _ => rfl)

theorem migrated_run
    (h : State.DifferBy (Migrated a) s t) (steps : List Step) :
    State.DifferBy (Migrated a) (run exec s steps) (run exec t steps) := by
  induction steps generalizing s t with
  | nil => exact h
  | cons st steps ih => exact ih (migrated_exec h st)

theorem differBy_migrated_iff :
    State.DifferBy (Migrated a) s t ↔
      t = s ∨
        (s.inst .admin = some (.address a) ∧ t = s.setInst .admin (.vec [a])) := by
  constructor
  · rintro ⟨hrest, hinst | ⟨hadmin, hinst⟩⟩
    · left
      rw [hrest, hinst]
    · right
      refine ⟨hadmin, ?_⟩
      rw [hrest, hinst]
      rfl
  · rintro (rfl | ⟨hadmin, rfl⟩)
    · exact ⟨rfl, Or.inl rfl⟩
    · exact ⟨rfl, Or.inr ⟨hadmin, rfl⟩⟩

end Runs

/-- A storage with a single address under `ADMIN` and the same storage with the
vector of that address: after any sequence of steps the two are equal except
that the entry may still be the address in the one and the vector in the other,
and the next call, whatever it is, has the same outcome and publishes the same
events on both. -/
theorem legacy_migration_invisible
    (s : State) (a : Address) (hlegacy : s.inst .admin = some (.address a))
    (steps : List Step) :
    (run exec (s.setInst .admin (.vec [a])) steps = run exec s steps ∨
        ((run exec s steps).inst .admin = some (.address a) ∧
          run exec (s.setInst .admin (.vec [a])) steps =
            (run exec s steps).setInst .admin (.vec [a]))) ∧
      ∀ env call,
        (invoke env call (run exec (s.setInst .admin (.vec [a])) steps)).1 =
            (invoke env call (run exec s steps)).1 ∧
          (invoke env call
              (run exec (s.setInst .admin (.vec [a])) steps)).2.events =
            (invoke env call (run exec s steps)).2.events := by
  have hstart : State.DifferBy (Migrated a) s (s.setInst .admin (.vec [a])) :=
    differBy_migrated_iff.mpr (Or.inr ⟨hlegacy, rfl⟩)
  have hrun := migrated_run hstart steps
  refine ⟨differBy_migrated_iff.mp hrun, ?_⟩
  intro env call
  obtain ⟨hval, hafter⟩ := migrated_invoke hrun env call
  exact ⟨hval, hafter.events⟩

/-- The first change of the set stores a vector in both. -/
theorem legacyStorage_migrated :
    (invoke (envAt 2 [bob]) (.transferAdmin bob alice)
        (run exec (legacyStorage.setInst .admin (.vec [operator]))
          [.call (envAt 1 [operator]) (.addAdmin operator bob)])).1 =
      (invoke (envAt 2 [bob]) (.transferAdmin bob alice)
        (run exec legacyStorage
          [.call (envAt 1 [operator]) (.addAdmin operator bob)])).1 := by
  have h := legacy_migration_invisible legacyStorage operator rfl
    [.call (envAt 1 [operator]) (.addAdmin operator bob)]
  exact (h.2 (envAt 2 [bob]) (.transferAdmin bob alice)).1

end AlertRegistry
end TxWatch
