import TxWatch.AlertRegistry.Readings
import TxWatch.AlertRegistry.Reachability
import TxWatch.Soroban.Translation

/-!
# AlertRegistry in other names

How the data of the contract reads after an exchange of addresses and a change
of clock, and that no entry point tells the difference.  Ids, labels, hashes,
rules, tags and limits keep their names.
-/

namespace TxWatch
namespace AlertRegistry

open Soroban Soroban.Contract

section Data

variable (ρ : Renaming)

/-- A record with new addresses and times. -/
def AlertConfig.rename (cfg : AlertConfig) : AlertConfig :=
  { cfg with
    owner := ρ.address cfg.owner
    targetContract := ρ.address cfg.targetContract
    createdAt := ρ.clock cfg.createdAt
    updatedAt := ρ.clock cfg.updatedAt }

/-- An input of a batch with a new target contract. -/
def AlertInput.rename (input : AlertInput) : AlertInput :=
  { input with targetContract := ρ.address input.targetContract }

/-- A persistent key with a new address, if it has one. -/
def DataKey.rename : DataKey → DataKey
  | .alert id => .alert id
  | .alertActive id => .alertActive id
  | .index kind a => .index kind (ρ.address a)
  | .nextId => .nextId

/-- What is kept under a key, renamed. -/
def DataKey.renameValue : (k : DataKey) → k.Value → (k.rename ρ).Value
  | .alert _, cfg => AlertConfig.rename ρ cfg
  | .alertActive _, active => active
  | .index _ _, ids => ids
  | .nextId, n => n

/-- Either format of the admin entry with new addresses. -/
def AdminEntry.rename : AdminEntry → AdminEntry
  | .address a => .address (ρ.address a)
  | .vec v => .vec (v.map ρ.address)

/-- What is kept under an instance key, renamed. -/
def InstanceKey.renameValue : (i : InstanceKey) → i.Value → i.Value
  | .admin, w => AdminEntry.rename ρ w
  | .limit, n => n
  | .paused, b => b
  | .watchreg, a => ρ.address a
  | .nextId, n => n

/-- A component of event data with a new address, if it is one. -/
def EventData.rename : EventData → EventData
  | .address a => .address (ρ.address a)
  | x => x

/-- An event with new addresses. -/
def Event.rename (ev : Event) : Event :=
  { ev with data := ev.data.map (EventData.rename ρ) }

theorem DataKey.rename_injective :
    Function.Injective (DataKey.rename ρ) := by
  intro k k' h
  cases k <;> cases k' <;> simp_all [DataKey.rename]

/-- The vocabulary of the contract after a renaming. -/
def dictionary :
    Dictionary DataKey DataKey.Value InstanceKey InstanceKey.Value Event where
  toRenaming := ρ
  key := DataKey.rename ρ
  key_injective := DataKey.rename_injective ρ
  value := DataKey.renameValue ρ
  entry := InstanceKey.renameValue ρ
  event := Event.rename ρ

/-- An answer with new addresses and times. -/
def Response.rename : Response → Response
  | .address a => .address (ρ.address a)
  | .optAddress o => .optAddress (o.map ρ.address)
  | .optAddresses o => .optAddresses (o.map (List.map ρ.address))
  | .optAlert o => .optAlert (o.map (AlertConfig.rename ρ))
  | .alerts l => .alerts (l.map (AlertConfig.rename ρ))
  | resp => resp

/-- A call with new addresses and times in its arguments. -/
def Call.rename : Call → Call
  | .initialise admin => .initialise (ρ.address admin)
  | .transferAdmin admin newAdmin =>
      .transferAdmin (ρ.address admin) (ρ.address newAdmin)
  | .addAdmin caller newAdmin => .addAdmin (ρ.address caller) (ρ.address newAdmin)
  | .removeAdmin caller targetAdmin =>
      .removeAdmin (ρ.address caller) (ρ.address targetAdmin)
  | .getAdmin => .getAdmin
  | .getAdmins => .getAdmins
  | .setPerOwnerAlertLimit admin limit =>
      .setPerOwnerAlertLimit (ρ.address admin) limit
  | .setPaused admin paused => .setPaused (ρ.address admin) paused
  | .isPaused => .isPaused
  | .getPerOwnerAlertLimit => .getPerOwnerAlertLimit
  | .setWatcherRegistry admin watcherRegistry =>
      .setWatcherRegistry (ρ.address admin) (ρ.address watcherRegistry)
  | .getWatcherRegistry => .getWatcherRegistry
  | .registerAlert owner targetContract label webhookHash rules tags =>
      .registerAlert (ρ.address owner) (ρ.address targetContract) label
        webhookHash rules tags
  | .batchRegisterAlerts caller inputs =>
      .batchRegisterAlerts (ρ.address caller) (inputs.map (AlertInput.rename ρ))
  | .pauseAlert admin configId => .pauseAlert (ρ.address admin) configId
  | .unpauseAlert admin configId => .unpauseAlert (ρ.address admin) configId
  | .updateAlert caller configId rules active =>
      .updateAlert (ρ.address caller) configId rules active
  | .updateWebhook caller configId webhookHash =>
      .updateWebhook (ρ.address caller) configId webhookHash
  | .proposeWebhook caller configId newWebhookHash =>
      .proposeWebhook (ρ.address caller) configId newWebhookHash
  | .confirmWebhook caller configId =>
      .confirmWebhook (ρ.address caller) configId
  | .updateLabel caller configId label =>
      .updateLabel (ρ.address caller) configId label
  | .removeAlert caller configId => .removeAlert (ρ.address caller) configId
  | .removeAlertByAdmin admin configId =>
      .removeAlertByAdmin (ρ.address admin) configId
  | .bumpAlert configId ttl => .bumpAlert configId ttl
  | .bulkRenewTtl configIds => .bulkRenewTtl configIds
  | .getAlertsForContract querier targetContract =>
      .getAlertsForContract (ρ.address querier) (ρ.address targetContract)
  | .getAlertIdsForContract targetContract =>
      .getAlertIdsForContract (ρ.address targetContract)
  | .getAlertIdsByOwner owner => .getAlertIdsByOwner (ρ.address owner)
  | .getActiveAlertsForContract targetContract =>
      .getActiveAlertsForContract (ρ.address targetContract)
  | .getActiveAlertsPaginated targetContract offset limit =>
      .getActiveAlertsPaginated (ρ.address targetContract) offset limit
  | .getAlertsByOwner querier owner =>
      .getAlertsByOwner (ρ.address querier) (ρ.address owner)
  | .getContractAlertsPaginated querier targetContract offset limit =>
      .getContractAlertsPaginated (ρ.address querier) (ρ.address targetContract)
        offset limit
  | .getAlertsByOwnerPaginated querier owner offset limit =>
      .getAlertsByOwnerPaginated (ρ.address querier) (ρ.address owner) offset limit
  | .getAlert configId => .getAlert configId
  | .getAlertActive configId => .getAlertActive configId
  | .deactivateAllAlerts caller => .deactivateAllAlerts (ρ.address caller)
  | .updateTargetContract caller configId newTarget =>
      .updateTargetContract (ρ.address caller) configId (ρ.address newTarget)
  | .getAlertsModifiedSince since => .getAlertsModifiedSince (ρ.clock since)
  | .updateTags caller configId tags =>
      .updateTags (ρ.address caller) configId tags
  | .transferAlertOwnership owner configId newOwner =>
      .transferAlertOwnership (ρ.address owner) configId (ρ.address newOwner)
  | .getAlertsUpdatedSince targetContract since offset limit =>
      .getAlertsUpdatedSince (ρ.address targetContract) (ρ.clock since) offset limit
  | .getAlertCount => .getAlertCount
  | .getActiveAlertCount owner => .getActiveAlertCount (ρ.address owner)

end Data

variable {ρ : Renaming}

/-- A computation of the contract in translation. -/
abbrev Renamed {α β : Type} (ρ : Renaming) (f : α → β) (m : Contract α)
    (m' : Contract β) : Prop :=
  Follows (dictionary ρ) f m m'

section Host

theorem renamed_get (k : DataKey) :
    Renamed ρ (Option.map (k.renameValue ρ)) (persistentGet k)
      (persistentGet (k.rename ρ)) := by
  exact follows_persistentGet k

theorem renamed_store (k : DataKey) (v : k.Value) (ttl : Nat) :
    Renamed ρ id (persistentStore k v ttl)
      (persistentStore (k.rename ρ) (k.renameValue ρ v) ttl) := by
  exact follows_persistentStore k v ttl ttl

theorem renamed_remove (k : DataKey) :
    Renamed ρ id (persistentRemove k) (persistentRemove (k.rename ρ)) := by
  exact follows_persistentRemove k

theorem renamed_extend (k : DataKey) (ttl : Nat) :
    Renamed ρ id (persistentExtendTtl k ttl ttl)
      (persistentExtendTtl (k.rename ρ) ttl ttl) := by
  exact follows_persistentExtendTtl k ttl ttl ttl ttl

end Host

section Guards

theorem renamed_isPaused : Renamed ρ id isPaused isPaused := by
  exact follows_ofInstance (i := InstanceKey.paused) (by rintro (_ | _) <;> rfl)

theorem renamed_assertNotPaused : Renamed ρ id assertNotPaused assertNotPaused := by
  exact renamed_isPaused.bind fun _ => follows_rejectIf Iff.rfl _

theorem renamed_getPerOwnerAlertLimit :
    Renamed ρ id getPerOwnerAlertLimit getPerOwnerAlertLimit := by
  exact follows_ofInstance (i := InstanceKey.limit) (by rintro (_ | _) <;> rfl)

theorem renamed_assertWatcherIfConfigured (querier : Address) :
    Renamed ρ id (assertWatcherIfConfigured querier)
      (assertWatcherIfConfigured (ρ.address querier)) := by
  refine (follows_instanceGet (d := dictionary ρ) InstanceKey.watchreg).bind
    fun maybeRegistry => ?_
  cases maybeRegistry with
  | none => exact follows_pure id ()
  | some registryAddr =>
      exact (follows_askPeer registryAddr querier).bind fun _ =>
        follows_rejectIf Iff.rfl _

theorem renamed_assertOwner (cfg : AlertConfig) (caller : Address) :
    Renamed ρ id (assertOwner cfg caller)
      (assertOwner (cfg.rename ρ) (ρ.address caller)) := by
  exact Follows.ite (ρ.address_inj cfg.owner caller) (follows_pure id ())
    (follows_fail id _)

theorem toVec_rename (w : AdminEntry) :
    (w.rename ρ).toVec = w.toVec.map (List.map ρ.address) := by
  cases w <;> rfl

theorem renamed_loadAdmins :
    Renamed ρ (Option.map (List.map ρ.address)) loadAdmins loadAdmins := by
  refine (follows_instanceGet (d := dictionary ρ) InstanceKey.admin).bind fun raw => ?_
  cases raw with
  | none => exact follows_pure _ none
  | some w =>
      have hvec : ((some w).map (InstanceKey.renameValue ρ .admin)).bind
          AdminEntry.toVec =
            ((some w).bind AdminEntry.toVec).map (List.map ρ.address) :=
        toVec_rename w
      show Renamed ρ _ _ (pure (((some w).map (InstanceKey.renameValue ρ .admin)).bind
        AdminEntry.toVec))
      rw [hvec]
      exact follows_pure _ _

theorem renamed_setAdmins (admins : List Address) :
    Renamed ρ id (setAdmins admins) (setAdmins (admins.map ρ.address)) := by
  exact follows_instanceSet (d := dictionary ρ) InstanceKey.admin (.vec admins)

theorem renamed_assertAdmin (caller : Address) :
    Renamed ρ id (assertAdmin caller) (assertAdmin (ρ.address caller)) := by
  refine renamed_loadAdmins.bind fun o => ?_
  refine (follows_okOr rfl _).bind fun admins => ?_
  exact Follows.ite (ρ.mem_map_address caller admins) (follows_pure id ())
    (follows_fail id _)

/-- The two checks with which the administrative entry points begin. -/
theorem renamed_byAdmin
    {α β : Type} {f : α → β} (admin : Address) {m : Contract α} {m' : Contract β}
    (hm : Renamed ρ f m m') :
    Renamed ρ f
      (do
        requireAuth admin
        assertAdmin admin
        m)
      (do
        requireAuth (ρ.address admin)
        assertAdmin (ρ.address admin)
        m') := by
  exact (follows_requireAuth admin).bind fun _ =>
    (renamed_assertAdmin admin).bind fun _ => hm

end Guards

section Indexes

theorem renamed_loadIndex (kind : IndexKind) (a : Address) :
    Renamed ρ id (loadIndex kind a) (loadIndex kind (ρ.address a)) := by
  refine (renamed_get (.index kind a)).bind fun ids => ?_
  cases ids with
  | none => exact follows_pure id []
  | some ids => exact follows_pure id ids

theorem renamed_storeIndex (kind : IndexKind) (a : Address) (ids : List Nat) :
    Renamed ρ id (persistentStore (.index kind a) ids defaultTtl)
      (persistentStore (.index kind (ρ.address a)) ids defaultTtl) := by
  exact renamed_store (.index kind a) ids defaultTtl

theorem renamed_removeIndex (kind : IndexKind) (a : Address) :
    Renamed ρ id (persistentRemove (.index kind a))
      (persistentRemove (.index kind (ρ.address a))) := by
  exact renamed_remove (.index kind a)

theorem renamed_pushIndex (kind : IndexKind) (a : Address) (id' : Nat) :
    Renamed ρ id (pushIndex kind a id') (pushIndex kind (ρ.address a) id') := by
  refine (renamed_loadIndex kind a).bind fun ids => ?_
  exact (follows_rejectIf Iff.rfl _).bind fun _ => renamed_storeIndex kind a _

theorem renamed_removeFromIndex (kind : IndexKind) (a : Address) (id' : Nat) :
    Renamed ρ id (removeFromIndex kind a id')
      (removeFromIndex kind (ρ.address a) id') := by
  refine (renamed_loadIndex kind a).bind fun ids => ?_
  exact Follows.ite Iff.rfl (renamed_removeIndex kind a) (renamed_storeIndex kind a _)

variable {s t : State}

theorem has_alert_of_matches (h : (dictionary ρ).Matches s t) (id : Nat) :
    t.persistent.has (.alert id) = s.persistent.has (.alert id) := by
  exact h.has (.alert id)

theorem liveIds_of_matches (h : (dictionary ρ).Matches s t) (ids : List Nat) :
    liveIds t ids = liveIds s ids := by
  unfold liveIds
  simp only [has_alert_of_matches h]

theorem alertAt_of_matches (h : (dictionary ρ).Matches s t) (id : Nat) :
    t.alertAt id = (s.alertAt id).map (AlertConfig.rename ρ) := by
  exact h.get (.alert id)

theorem records_of_matches (h : (dictionary ρ).Matches s t) (ids : List Nat) :
    t.records ids = (s.records ids).map (AlertConfig.rename ρ) := by
  unfold State.records
  rw [List.map_filterMap]
  apply List.filterMap_congr
  intro id _
  exact alertAt_of_matches h id

theorem renamed_assertPerOwnerLimitFor (owner : Address) (additional : Nat) :
    Renamed ρ id (assertPerOwnerLimitFor owner additional)
      (assertPerOwnerLimitFor (ρ.address owner) additional) := by
  refine renamed_getPerOwnerAlertLimit.bind fun limit => ?_
  refine follows_whenever Iff.rfl ?_
  refine (renamed_loadIndex .owner owner).bind fun ids => ?_
  refine Follows.bind_getState fun s t h => ?_
  rw [liveIds_of_matches h]
  refine (follows_whenever Iff.rfl ?_).bind fun _ => follows_rejectIf Iff.rfl _
  exact Follows.ite Iff.rfl (renamed_removeIndex .owner owner)
    (renamed_storeIndex .owner owner _)

end Indexes

section Records

/-- The counter does not change with the names. -/
theorem storedId_rename (stored : Option Nat) :
    (stored.map ((dictionary ρ).entry .nextId)).getD 0 = stored.getD 0 := by
  cases stored <;> rfl

theorem renamed_nextId : Renamed ρ id nextId nextId := by
  refine (follows_instanceGet (d := dictionary ρ) InstanceKey.nextId).bind fun stored => ?_
  rw [storedId_rename]
  refine (follows_okOr (f := id) (by simp) _).bind fun next => ?_
  refine (follows_instanceSet (d := dictionary ρ) InstanceKey.nextId next).bind fun _ => ?_
  exact (follows_instanceExtendTtl _ _ _ _).bind fun _ => follows_pure id _

theorem renamed_loadAlert (id' : Nat) :
    Renamed ρ (AlertConfig.rename ρ) (loadAlert id') (loadAlert id') := by
  exact (renamed_get (.alert id')).bind fun _ => follows_okOr rfl _

/-- The checks with which the owner's entry points go on once the caller has
signed. -/
theorem renamed_byOwner
    {α β : Type} {g : α → β} (caller : Address) (id' : Nat)
    {f : AlertConfig → Contract α} {f' : AlertConfig → Contract β}
    (hf : ∀ cfg, Renamed ρ g (f cfg) (f' (cfg.rename ρ))) :
    Renamed ρ g
      (do
        requireAuth caller
        let config ← loadAlert id'
        assertOwner config caller
        f config)
      (do
        requireAuth (ρ.address caller)
        let config ← loadAlert id'
        assertOwner config (ρ.address caller)
        f' config) := by
  refine (follows_requireAuth caller).bind fun _ => ?_
  exact (renamed_loadAlert id').bind fun cfg =>
    (renamed_assertOwner cfg caller).bind fun _ => hf cfg

theorem renamed_createAlert (cfg : AlertConfig) :
    Renamed ρ id (createAlert cfg) (createAlert (cfg.rename ρ)) := by
  refine renamed_nextId.bind fun id' => ?_
  refine (renamed_store (.alert id') cfg _).bind fun _ => ?_
  refine (renamed_store (.alertActive id') true _).bind fun _ => ?_
  refine (renamed_pushIndex .owner cfg.owner id').bind fun _ => ?_
  refine (renamed_pushIndex .contract cfg.targetContract id').bind fun _ => ?_
  exact (follows_publish _).bind fun _ => follows_pure id id'

theorem renamed_registerInputs
    (caller : Address) (now : Nat) (inputs : List AlertInput) (ids : List Nat) :
    Renamed ρ id (registerInputs caller now inputs ids)
      (registerInputs (ρ.address caller) (ρ.clock now)
        (inputs.map (AlertInput.rename ρ)) ids) := by
  induction inputs generalizing ids with
  | nil => exact follows_pure id ids
  | cons input rest ih =>
      exact (renamed_createAlert (input.toConfig caller now)).bind fun id' =>
        ih (ids ++ [id'])

/-- What both removals do to the storage before they publish. -/
theorem renamed_removeRecord (cfg : AlertConfig) (id' : Nat) (ev : Event) :
    Renamed ρ id
      (do
        persistentRemove (.alert id')
        persistentRemove (.alertActive id')
        removeFromOwnerIndex cfg.owner id'
        removeFromContractIndex cfg.targetContract id'
        publish ev)
      (do
        persistentRemove (.alert id')
        persistentRemove (.alertActive id')
        removeFromOwnerIndex (ρ.address cfg.owner) id'
        removeFromContractIndex (ρ.address cfg.targetContract) id'
        publish (ev.rename ρ)) := by
  refine (renamed_remove (.alert id')).bind fun _ => ?_
  refine (renamed_remove (.alertActive id')).bind fun _ => ?_
  refine (renamed_removeFromIndex .owner cfg.owner id').bind fun _ => ?_
  exact (renamed_removeFromIndex .contract cfg.targetContract id').bind fun _ =>
    follows_publish ev

theorem renamed_configsPaginatedFrom
    (ids : List Nat) (count i : Nat) (out : List AlertConfig) :
    Renamed ρ (List.map (AlertConfig.rename ρ))
      (configsPaginatedFrom ids count i out)
      (configsPaginatedFrom ids count i (out.map (AlertConfig.rename ρ))) := by
  induction count generalizing i out with
  | zero => exact follows_pure _ out
  | succ count ih =>
      refine (follows_unwrap (f := id) (by simp)).bind fun id' => ?_
      refine (renamed_get (.alert id')).bind fun cfg => ?_
      cases cfg with
      | none => exact ih (i + 1) out
      | some cfg =>
          have hout := ih (i + 1) (out ++ [cfg])
          rw [List.map_append] at hout
          exact hout

theorem renamed_activePageFrom
    (active : List AlertConfig) (count i : Nat) (out : List AlertConfig) :
    Renamed ρ (List.map (AlertConfig.rename ρ))
      (activePageFrom active count i out)
      (activePageFrom (active.map (AlertConfig.rename ρ)) count i
        (out.map (AlertConfig.rename ρ))) := by
  induction count generalizing i out with
  | zero => exact follows_pure _ out
  | succ count ih =>
      refine (follows_unwrap (f := AlertConfig.rename ρ) ?_).bind fun cfg => ?_
      · exact List.getElem?_map ..
      · have hout := ih (i + 1) (out ++ [cfg])
        rw [List.map_append] at hout
        exact hout

theorem renamed_bulkRenewFrom (ids : List Nat) (renewed : Nat) :
    Renamed ρ id (bulkRenewFrom ids renewed) (bulkRenewFrom ids renewed) := by
  induction ids generalizing renewed with
  | nil => exact follows_pure id renewed
  | cons id' rest ih =>
      refine (renamed_get (.alert id')).bind fun cfg => ?_
      cases cfg with
      | none => exact ih renewed
      | some cfg =>
          refine (renamed_extend (.alert id') _).bind fun _ => ?_
          refine (renamed_extend (.alertActive id') _).bind fun _ => ?_
          refine (renamed_extend (.ownerIndex cfg.owner) _).bind fun _ => ?_
          refine (renamed_extend (.contractIndex cfg.targetContract) _).bind fun _ => ?_
          exact (follows_publish (bumpEvent defaultTtl id')).bind fun _ => ih (renewed + 1)

theorem renamed_deactivateFrom (ids : List Nat) (count : Nat) :
    Renamed ρ id (deactivateFrom ids count) (deactivateFrom ids count) := by
  induction ids generalizing count with
  | nil => exact follows_pure id count
  | cons id' rest ih =>
      refine (renamed_get (.alert id')).bind fun cfg => ?_
      cases cfg with
      | none => exact ih count
      | some cfg =>
          refine Follows.ite Iff.rfl ?_ (ih count)
          refine follows_timestamp.bind fun now => ?_
          refine (renamed_store (.alert id')
            { cfg with active := false, updatedAt := now } _).bind fun _ => ?_
          exact (renamed_store (.alertActive id') false _).bind fun _ => ih (count + 1)

/-- Extending the lists that an alert is on, and then publishing. -/
theorem renamed_renewLists (cfg : AlertConfig) (ev : Event) :
    Renamed ρ id
      (do
        persistentExtendTtl (.ownerIndex cfg.owner) defaultTtl defaultTtl
        persistentExtendTtl (.contractIndex cfg.targetContract)
          defaultTtl defaultTtl
        publish ev)
      (do
        persistentExtendTtl (.ownerIndex (ρ.address cfg.owner))
          defaultTtl defaultTtl
        persistentExtendTtl (.contractIndex (ρ.address cfg.targetContract))
          defaultTtl defaultTtl
        publish (ev.rename ρ)) := by
  refine (renamed_extend (.ownerIndex cfg.owner) _).bind fun _ => ?_
  exact (renamed_extend (.contractIndex cfg.targetContract) _).bind fun _ =>
    follows_publish ev

end Records

section EntryPoints

variable {call : Call}

theorem renamed_respondAlerts
    {m m' : Contract (List AlertConfig)}
    (h : Renamed ρ (List.map (AlertConfig.rename ρ)) m m') :
    Renamed ρ (Response.rename ρ) (respond .alerts m) (respond .alerts m') := by
  exact follows_respond h fun _ => rfl

theorem renamed_initialise (admin : Address) :
    Renamed ρ id (initialise admin) (initialise (ρ.address admin)) := by
  refine (follows_instanceGet (d := dictionary ρ) InstanceKey.admin).bind fun raw => ?_
  refine (follows_rejectIf ?_ _).bind fun _ => ?_
  · cases raw <;> simp
  · exact (renamed_setAdmins [admin]).bind fun _ => follows_publish _

theorem renamed_administer
    {admin : Address} (hcall : call.administers = some admin) :
    Renamed ρ (Response.rename ρ) (dispatch call) (dispatch (call.rename ρ)) := by
  cases call with
  | transferAdmin admin newAdmin =>
      refine follows_done (renamed_byAdmin admin ?_) rfl
      exact (renamed_setAdmins [newAdmin]).bind fun _ => follows_publish _
  | addAdmin caller newAdmin =>
      refine follows_done (renamed_byAdmin caller ?_) rfl
      refine renamed_loadAdmins.bind fun o => (follows_okOr rfl _).bind fun admins => ?_
      refine (follows_rejectIf (ρ.mem_map_address newAdmin admins) _).bind fun _ => ?_
      have hset := renamed_setAdmins (ρ := ρ) (admins ++ [newAdmin])
      rw [List.map_append] at hset
      exact hset.bind fun _ => follows_publish _
  | removeAdmin caller targetAdmin =>
      refine follows_done (renamed_byAdmin caller ?_) rfl
      refine renamed_loadAdmins.bind fun o => (follows_okOr rfl _).bind fun admins => ?_
      refine (follows_rejectIf
        (not_congr (ρ.mem_map_address targetAdmin admins)) _).bind fun _ => ?_
      refine (follows_rejectIf (by simp) _).bind fun _ => ?_
      rw [foldl_push_eq_filter, foldl_push_eq_filter, List.nil_append,
        List.nil_append, ρ.filter_map_address]
      exact (renamed_setAdmins _).bind fun _ => follows_publish _
  | setPerOwnerAlertLimit admin limit =>
      refine follows_done (renamed_byAdmin admin ?_) rfl
      refine (follows_rejectIf Iff.rfl _).bind fun _ => ?_
      exact (follows_instanceSet (d := dictionary ρ) InstanceKey.limit limit).bind
        fun _ => follows_publish _
  | setPaused admin paused =>
      refine follows_done (renamed_byAdmin admin ?_) rfl
      exact (follows_instanceSet (d := dictionary ρ) InstanceKey.paused paused).bind
        fun _ => follows_publish _
  | setWatcherRegistry admin watcherRegistry =>
      exact follows_done (renamed_byAdmin admin
        (follows_instanceSet (d := dictionary ρ) .watchreg watcherRegistry)) rfl
  | _ => simp [Call.administers] at hcall

theorem validateInputs_rename (inputs : List AlertInput) :
    validateInputs (inputs.map (AlertInput.rename ρ)) = validateInputs inputs := by
  induction inputs with
  | nil => rfl
  | cons input rest ih =>
      simp only [List.map_cons, validateInputs, ih]
      rfl

theorem renamed_enrol
    {now : Nat} {owner : Address} {cfgs : List AlertConfig}
    (hcall : call.enrols now = some (owner, cfgs)) :
    Renamed ρ (Response.rename ρ) (dispatch call) (dispatch (call.rename ρ)) := by
  cases call with
  | registerAlert owner' targetContract label webhookHash rules tags =>
      refine follows_respond_same ?_ fun _ => rfl
      refine renamed_assertNotPaused.bind fun _ => ?_
      refine (follows_rejectIf Iff.rfl _).bind fun _ => ?_
      refine (follows_requireAuth owner').bind fun _ => ?_
      refine (follows_ofExcept _).bind fun _ => (follows_ofExcept _).bind fun _ => ?_
      refine (follows_ofExcept _).bind fun _ => ?_
      refine (renamed_assertPerOwnerLimitFor owner' 1).bind fun _ => ?_
      exact follows_timestamp.bind fun _ => renamed_createAlert _
  | batchRegisterAlerts caller inputs =>
      refine follows_respond_same ?_ fun _ => rfl
      refine renamed_assertNotPaused.bind fun _ => ?_
      refine (follows_rejectIf (by simp) _).bind fun _ => ?_
      refine (follows_requireAuth caller).bind fun _ => ?_
      rw [validateInputs_rename, List.length_map]
      refine (follows_ofExcept _).bind fun _ => ?_
      refine (renamed_assertPerOwnerLimitFor caller inputs.length).bind fun _ => ?_
      exact follows_timestamp.bind fun now => renamed_registerInputs caller now inputs []
  | _ => simp [Call.enrols] at hcall

theorem renamed_amend
    {caller : Address} {id' : Nat} (hcall : call.amends = some (caller, id')) :
    Renamed ρ (Response.rename ρ) (dispatch call) (dispatch (call.rename ρ)) := by
  cases call with
  | updateAlert caller id' rules active =>
      refine follows_done (renamed_assertNotPaused.bind fun _ => ?_) rfl
      refine renamed_byOwner caller id' fun cfg => ?_
      refine (follows_ofExcept _).bind fun _ => follows_timestamp.bind fun now => ?_
      refine (renamed_store (.alert id')
        { cfg with rules := rules, active := active, updatedAt := now } _).bind fun _ => ?_
      exact (renamed_store (.alertActive id') active _).bind fun _ =>
        renamed_renewLists cfg _
  | updateWebhook caller id' webhookHash =>
      refine follows_done (renamed_assertNotPaused.bind fun _ => ?_) rfl
      refine renamed_byOwner caller id' fun cfg => ?_
      refine (follows_rejectIf Iff.rfl _).bind fun _ => follows_timestamp.bind fun now => ?_
      exact (renamed_store (.alert id')
        { cfg with webhookHash := webhookHash, updatedAt := now } _).bind fun _ =>
        renamed_renewLists cfg _
  | proposeWebhook caller id' newWebhookHash =>
      refine follows_done (renamed_byOwner caller id' fun cfg => ?_) rfl
      refine follows_timestamp.bind fun now => ?_
      exact (renamed_store (.alert id')
        { cfg with
          pendingWebhookHash := some newWebhookHash, updatedAt := now } _).bind fun _ =>
        follows_publish _
  | confirmWebhook caller id' =>
      refine follows_done (renamed_byOwner caller id' fun cfg => ?_) rfl
      refine (follows_okOr (f := id) (by simp [AlertConfig.rename]) _).bind
        fun pending => ?_
      refine follows_timestamp.bind fun now => ?_
      exact (renamed_store (.alert id')
        { cfg with
          pendingWebhookHash := none, webhookHash := pending
          updatedAt := now } _).bind fun _ => follows_publish _
  | updateLabel caller id' label =>
      refine follows_done (renamed_assertNotPaused.bind fun _ => ?_) rfl
      refine (follows_requireAuth caller).bind fun _ => ?_
      refine (follows_ofExcept _).bind fun _ => ?_
      refine (renamed_loadAlert id').bind fun cfg => ?_
      refine (renamed_assertOwner cfg caller).bind fun _ => ?_
      refine follows_timestamp.bind fun now => ?_
      exact (renamed_store (.alert id')
        { cfg with label := label, updatedAt := now } _).bind fun _ =>
        renamed_renewLists cfg _
  | updateTags caller id' tags =>
      refine follows_done (renamed_assertNotPaused.bind fun _ => ?_) rfl
      refine renamed_byOwner caller id' fun cfg => ?_
      refine (follows_ofExcept _).bind fun _ => follows_timestamp.bind fun now => ?_
      exact (renamed_store (.alert id')
        { cfg with tags := tags, updatedAt := now } _).bind fun _ => follows_publish _
  | _ => simp [Call.amends] at hcall

theorem renamed_setAlertActiveByAdmin
    (admin : Address) (id' : Nat) (active : Bool) :
    Renamed ρ id (setAlertActiveByAdmin admin id' active)
      (setAlertActiveByAdmin (ρ.address admin) id' active) := by
  refine renamed_byAdmin admin ((renamed_loadAlert id').bind fun cfg => ?_)
  refine follows_timestamp.bind fun now => ?_
  refine (renamed_store (.alert id')
    { cfg with active := active, updatedAt := now } _).bind fun _ => ?_
  exact (renamed_store (.alertActive id') active _).bind fun _ => follows_publish _

theorem renamed_bumpAlert (id' ttl : Nat) :
    Renamed ρ id (bumpAlert id' ttl) (bumpAlert id' ttl) := by
  refine renamed_assertNotPaused.bind fun _ => (renamed_loadAlert id').bind fun cfg => ?_
  refine (renamed_extend (.alert id') _).bind fun _ => ?_
  refine (renamed_extend (.alertActive id') _).bind fun _ => ?_
  refine (renamed_extend (.ownerIndex cfg.owner) _).bind fun _ => ?_
  refine (renamed_extend (.contractIndex cfg.targetContract) _).bind fun _ => ?_
  refine (follows_persistentHas DataKey.nextId).bind fun _ => ?_
  refine (follows_whenever Iff.rfl (renamed_extend .nextId _)).bind fun _ => ?_
  exact (follows_instanceExtendTtl _ _ _ _).bind fun _ => follows_publish _

theorem renamed_updateTargetContract
    (caller : Address) (id' : Nat) (newTarget : Address) :
    Renamed ρ id (updateTargetContract caller id' newTarget)
      (updateTargetContract (ρ.address caller) id' (ρ.address newTarget)) := by
  refine renamed_assertNotPaused.bind fun _ => renamed_byOwner caller id' fun cfg => ?_
  refine follows_timestamp.bind fun now => ?_
  refine (renamed_store (.alert id')
    { cfg with targetContract := newTarget, updatedAt := now } _).bind fun _ => ?_
  exact (renamed_removeFromIndex .contract cfg.targetContract id').bind fun _ =>
    renamed_pushIndex .contract newTarget id'

theorem renamed_transferAlertOwnership
    (owner : Address) (id' : Nat) (newOwner : Address) :
    Renamed ρ id (transferAlertOwnership owner id' newOwner)
      (transferAlertOwnership (ρ.address owner) id' (ρ.address newOwner)) := by
  refine renamed_assertNotPaused.bind fun _ => renamed_byOwner owner id' fun cfg => ?_
  refine Follows.ite (ρ.address_inj newOwner owner) (follows_pure id ()) ?_
  refine (renamed_assertPerOwnerLimitFor newOwner 1).bind fun _ => ?_
  refine (renamed_removeFromIndex .owner owner id').bind fun _ => ?_
  refine (renamed_pushIndex .owner newOwner id').bind fun _ => ?_
  refine follows_timestamp.bind fun now => ?_
  exact (renamed_store (.alert id')
    { cfg with owner := newOwner, updatedAt := now } _).bind fun _ => follows_publish _

end EntryPoints

section Queries

variable {call : Call} {s t : State}

/-- A query that reads an index and then the records of its ids. -/
theorem renamed_fromIndex
    {α β : Type} {g : α → β} (kind : IndexKind) (a : Address)
    {f : State → List Nat → α} {f' : State → List Nat → β}
    (hf : ∀ s t : State, (dictionary ρ).Matches s t →
      ∀ ids, f' t ids = g (f s ids)) :
    Renamed ρ g
      (do
        let ids ← loadIndex kind a
        pure (f (← getState) ids))
      (do
        let ids ← loadIndex kind (ρ.address a)
        pure (f' (← getState) ids)) := by
  refine (renamed_loadIndex kind a).bind fun ids => ?_
  refine Follows.bind_getState fun s t h => ?_
  show Renamed ρ g (pure (f s ids)) (pure (f' t ids))
  rw [hf s t h]
  exact follows_pure g _

theorem configsForIds_of_matches
    (h : (dictionary ρ).Matches s t) (ids : List Nat) :
    configsForIds t ids = (configsForIds s ids).map (AlertConfig.rename ρ) := by
  rw [configsForIds_eq, configsForIds_eq, records_of_matches h]

theorem activeConfigsForIds_of_matches
    (h : (dictionary ρ).Matches s t) (ids : List Nat) :
    activeConfigsForIds t ids =
      (activeConfigsForIds s ids).map (AlertConfig.rename ρ) := by
  rw [activeConfigsForIds_eq, activeConfigsForIds_eq, records_of_matches h,
    List.filter_map]
  rfl

theorem modifiedSince_of_matches
    (h : (dictionary ρ).Matches s t) (ids : List Nat) (since : Nat) :
    (t.records ids).filter (fun cfg => cfg.updatedAt ≥ ρ.clock since) =
      ((s.records ids).filter (fun cfg => cfg.updatedAt ≥ since)).map
        (AlertConfig.rename ρ) := by
  rw [records_of_matches h, List.filter_map]
  congr 1
  apply List.filter_congr
  intro cfg _
  exact decide_eq_decide.mpr (ρ.clock_le since cfg.updatedAt)

theorem renamed_query
    (hquery : call.isQuery = true) :
    Renamed ρ (Response.rename ρ) (dispatch call) (dispatch (call.rename ρ)) := by
  cases call with
  | getAdmin =>
      refine follows_respond (renamed_loadAdmins.bind fun o => ?_) fun _ => rfl
      refine follows_okOr (f := ρ.address) ?_ _
      cases o with
      | none => rfl
      | some admins => exact List.getElem?_map ..
  | getAdmins => exact follows_respond renamed_loadAdmins fun _ => rfl
  | isPaused => exact follows_respond_same renamed_isPaused fun _ => rfl
  | getPerOwnerAlertLimit =>
      exact follows_respond_same renamed_getPerOwnerAlertLimit fun _ => rfl
  | getWatcherRegistry =>
      exact follows_respond
        (follows_instanceGet (d := dictionary ρ) InstanceKey.watchreg) fun _ => rfl
  | getAlertsForContract querier targetContract =>
      refine renamed_respondAlerts ?_
      refine (renamed_assertWatcherIfConfigured querier).bind fun _ => ?_
      exact renamed_fromIndex .contract targetContract
        fun _ _ h ids => configsForIds_of_matches h ids
  | getAlertIdsForContract targetContract =>
      refine follows_respond_same ?_ fun _ => rfl
      exact renamed_fromIndex .contract targetContract
        fun _ _ h ids => liveIds_of_matches h ids
  | getAlertIdsByOwner owner =>
      refine follows_respond_same ?_ fun _ => rfl
      exact renamed_fromIndex .owner owner
        fun _ _ h ids => liveIds_of_matches h ids
  | getActiveAlertsForContract targetContract =>
      refine renamed_respondAlerts ?_
      exact renamed_fromIndex .contract targetContract
        fun _ _ h ids => activeConfigsForIds_of_matches h ids
  | getActiveAlertsPaginated targetContract offset limit =>
      refine renamed_respondAlerts ?_
      refine (renamed_loadIndex .contract targetContract).bind fun ids => ?_
      refine Follows.bind_getState fun s t h => ?_
      simp only [id_eq, activeConfigsForIds_of_matches h, List.length_map]
      exact renamed_activePageFrom _ _ _ []
  | getAlertsByOwner querier owner =>
      refine renamed_respondAlerts ?_
      refine (renamed_assertWatcherIfConfigured querier).bind fun _ => ?_
      exact renamed_fromIndex .owner owner
        fun _ _ h ids => configsForIds_of_matches h ids
  | getContractAlertsPaginated querier targetContract offset limit =>
      refine renamed_respondAlerts ?_
      refine (renamed_assertWatcherIfConfigured querier).bind fun _ => ?_
      exact (renamed_loadIndex .contract targetContract).bind fun ids =>
        renamed_configsPaginatedFrom ids _ _ []
  | getAlertsByOwnerPaginated querier owner offset limit =>
      refine renamed_respondAlerts ?_
      refine (renamed_assertWatcherIfConfigured querier).bind fun _ => ?_
      exact (renamed_loadIndex .owner owner).bind fun ids =>
        renamed_configsPaginatedFrom ids _ _ []
  | getAlert id' =>
      refine follows_respond ((renamed_get (.alert id')).bind fun cfg => ?_)
        fun _ => rfl
      refine (follows_whenever ?_ (renamed_extend (.alert id') _)).bind fun _ => ?_
      · cases cfg <;> exact Iff.rfl
      · exact follows_pure _ cfg
  | getAlertActive id' =>
      refine follows_respond (renamed_get (.alertActive id')) fun o => ?_
      cases o with
      | none => rfl
      | some active => rfl
  | getAlertsModifiedSince since =>
      refine renamed_respondAlerts ?_
      refine (follows_instanceGet (d := dictionary ρ) InstanceKey.nextId).bind fun stored => ?_
      rw [storedId_rename]
      refine Follows.bind_getState fun s t h => ?_
      have hloop := fun (u : State) (since : Nat) =>
        foldl_push_eq_filter_records u (fun cfg => cfg.updatedAt ≥ since)
          (List.range (stored.getD 0)) []
      simp only [decide_eq_true_eq, List.nil_append] at hloop
      have hread : Renamed ρ (List.map (AlertConfig.rename ρ))
          (pure ((State.records s (List.range (stored.getD 0))).filter
            (fun cfg => cfg.updatedAt ≥ since)))
          (pure ((State.records t (List.range (stored.getD 0))).filter
            (fun cfg => cfg.updatedAt ≥ ρ.clock since))) := by
        rw [modifiedSince_of_matches h]
        exact follows_pure _ _
      rw [← hloop s, ← hloop t] at hread
      exact hread
  | getAlertsUpdatedSince targetContract since offset limit =>
      refine renamed_respondAlerts ?_
      refine renamed_fromIndex .contract targetContract fun s t h ids => ?_
      rw [updatedSinceFrom_eq _ _ _ _ _ _ _ (Nat.zero_le _),
        updatedSinceFrom_eq _ _ _ _ _ _ _ (Nat.zero_le _),
        modifiedSince_of_matches h, ← List.map_drop, List.nil_append,
        List.nil_append, ← List.map_take]
  | getAlertCount =>
      exact follows_respond_same (follows_ofInstance (d := dictionary ρ)
        (i := InstanceKey.nextId) storedId_rename) fun _ => rfl
  | getActiveAlertCount owner =>
      refine follows_respond_same ?_ fun _ => rfl
      refine renamed_fromIndex .owner owner fun s t h ids => ?_
      simp only [has_alert_of_matches h]
      rfl
  | _ => simp [Call.isQuery] at hquery

end Queries

/-- Every entry point, called in other names, does the same in other names. -/
theorem renamed_dispatch (call : Call) :
    Renamed ρ (Response.rename ρ) (dispatch call) (dispatch (call.rename ρ)) := by
  cases hquery : call.isQuery with
  | true => exact renamed_query hquery
  | false =>
  cases hadm : call.administers with
  | some admin => exact renamed_administer hadm
  | none =>
  cases henrol : call.enrols 0 with
  | some owned => exact renamed_enrol henrol
  | none =>
  cases hamend : call.amends with
  | some owned => exact renamed_amend hamend
  | none =>
  cases call with
  | initialise admin => exact follows_done (renamed_initialise admin) rfl
  | pauseAlert admin id' =>
      exact follows_done (renamed_setAlertActiveByAdmin admin id' false) rfl
  | unpauseAlert admin id' =>
      exact follows_done (renamed_setAlertActiveByAdmin admin id' true) rfl
  | removeAlert caller id' =>
      refine follows_done (renamed_assertNotPaused.bind fun _ => ?_) rfl
      exact renamed_byOwner caller id' fun cfg => renamed_removeRecord cfg id' _
  | removeAlertByAdmin admin id' =>
      refine follows_done (renamed_assertNotPaused.bind fun _ => ?_) rfl
      refine renamed_byAdmin admin ?_
      exact (renamed_loadAlert id').bind fun cfg => renamed_removeRecord cfg id' _
  | bumpAlert id' ttl => exact follows_done (renamed_bumpAlert id' ttl) rfl
  | bulkRenewTtl ids =>
      refine follows_respond_same ?_ fun _ => rfl
      exact (follows_rejectIf Iff.rfl _).bind fun _ => renamed_bulkRenewFrom ids 0
  | deactivateAllAlerts caller =>
      refine follows_respond_same ?_ fun _ => rfl
      refine renamed_assertNotPaused.bind fun _ => ?_
      refine (follows_requireAuth caller).bind fun _ => ?_
      exact (renamed_loadIndex .owner caller).bind fun ids =>
        renamed_deactivateFrom ids 0
  | updateTargetContract caller id' newTarget =>
      exact follows_done (renamed_updateTargetContract caller id' newTarget) rfl
  | transferAlertOwnership owner id' newOwner =>
      exact follows_done (renamed_transferAlertOwnership owner id' newOwner) rfl
  | _ => simp_all [Call.isQuery, Call.administers, Call.enrols, Call.amends]

section Calls

variable {s t : State}

/-- A call in other names, in a storage in other names. -/
theorem matches_invoke
    {env env' : Env} (henv : ρ.Hosts env env')
    (h : (dictionary ρ).Matches s t) (call : Call) :
    (invoke env' (call.rename ρ) t).1 =
        (invoke env call s).1.map (Response.rename ρ) ∧
      (dictionary ρ).Matches (invoke env call s).2
        (invoke env' (call.rename ρ) t).2 := by
  exact (renamed_dispatch call).transact henv h

end Calls

end AlertRegistry
end TxWatch
