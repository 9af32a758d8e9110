import TxWatch.AlertRegistry.Helpers

/-!
# AlertRegistry: entry points

The functions of the `#[contractimpl]` block of `lib.rs`, in the order of the
source and with its statements in their order.
-/

namespace TxWatch
namespace AlertRegistry

open Soroban Soroban.Contract

section Configuration

/-- Make `admin` the first admin, once; nobody has to sign. -/
def initialise (admin : Address) : Contract Unit := do
  rejectIf ((← instanceGet .admin).isSome) .alreadyInitialized
  setAdmins [admin]
  publish ⟨(.admin, .init), [.address admin]⟩

/-- Hand the registry over to a new admin, who takes the place of all the others. -/
def transferAdmin (admin newAdmin : Address) : Contract Unit := do
  requireAuth admin
  assertAdmin admin
  setAdmins [newAdmin]
  publish ⟨(.admin, .transfer), [.address admin, .address newAdmin]⟩

/-- Add an admin to the set. -/
def addAdmin (caller newAdmin : Address) : Contract Unit := do
  requireAuth caller
  assertAdmin caller
  let admins ← okOr (← loadAdmins) .notInitialized
  rejectIf (newAdmin ∈ admins) .alreadyAdmin
  setAdmins (admins ++ [newAdmin])
  publish ⟨(.admin, .add), [.address caller, .address newAdmin]⟩

/-- Take an admin off the set, unless he is the last. -/
def removeAdmin (caller targetAdmin : Address) : Contract Unit := do
  requireAuth caller
  assertAdmin caller
  let admins ← okOr (← loadAdmins) .notInitialized
  rejectIf (targetAdmin ∉ admins) .notAdmin
  rejectIf (admins.length ≤ 1) .lastAdmin
  let updated := admins.foldl
    (fun updated a => if a ≠ targetAdmin then updated ++ [a] else updated) []
  setAdmins updated
  publish ⟨(.admin, .remove), [.address caller, .address targetAdmin]⟩

/-- The first of the admins. -/
def getAdmin : Contract Address := do
  okOr ((← loadAdmins).bind (fun a => a[0]?)) .notInitialized

/-- The whole admin set. -/
def getAdmins : Contract (Option (List Address)) :=
  loadAdmins

/-- Set the limit of alerts for each owner, or lift it with 0. -/
def setPerOwnerAlertLimit (admin : Address) (limit : Nat) : Contract Unit := do
  requireAuth admin
  assertAdmin admin
  rejectIf (limit ≠ 0 ∧ limit < 1) .limitTooLow
  instanceSet .limit limit
  publish ⟨(.admin, .limit), [.address admin, .u32 limit]⟩

/-- Pause the contract or let it go on. -/
def setPaused (admin : Address) (paused : Bool) : Contract Unit := do
  requireAuth admin
  assertAdmin admin
  instanceSet .paused paused
  publish ⟨(.admin, if paused then .pause else .unpause), [.address admin]⟩

/-- Name the watcher registry that the gated queries ask. -/
def setWatcherRegistry (admin watcherRegistry : Address) : Contract Unit := do
  requireAuth admin
  assertAdmin admin
  instanceSet .watchreg watcherRegistry

/-- The watcher registry that has been named. -/
def getWatcherRegistry : Contract (Option Address) :=
  instanceGet InstanceKey.watchreg

end Configuration

section Registration

/-- Allocate an id for `config`, write its record and flag, list it in both
indexes and publish the registration: the part that `register_alert` and each
round of `batch_register_alerts` have in common. -/
def createAlert (config : AlertConfig) : Contract Nat := do
  let id ← nextId
  persistentStore (.alert id) config defaultTtl
  persistentStore (.alertActive id) true defaultTtl
  pushOwnerIndex config.owner id
  pushContractIndex config.targetContract id
  publish ⟨(.alert, .register),
    [.u64 id, .address config.owner, .address config.targetContract]⟩
  pure id

/-- Register an alert and return its id. -/
def registerAlert (owner targetContract : Address)
    (label webhookHash : HostString) (rules : List HostString)
    (tags : Option (List HostString)) : Contract Nat := do
  assertNotPaused
  rejectIf (webhookHash.len ≠ 64) .invalidWebhookHash
  requireAuth owner
  ofExcept (validateLabel label)
  ofExcept (validateRules rules)
  ofExcept (validateTags tags)
  assertPerOwnerLimit owner
  let now ← timestamp
  createAlert {
    label, webhookHash, rules, owner, targetContract
    createdAt := now
    updatedAt := now
    active := true
    pendingWebhookHash := none
    tags }

/-- The checks of `batch_register_alerts` on each input. -/
def validateInputs : List AlertInput → Except ContractError Unit
  | [] => .ok ()
  | input :: rest => do
      if input.webhookHash.len ≠ 64 then
        .error .invalidWebhookHash
      else do
        validateLabel input.label
        validateRules input.rules
        validateInputs rest

/-- The record `batch_register_alerts` builds for an input. -/
def AlertInput.toConfig (input : AlertInput) (caller : Address)
    (now : Nat) : AlertConfig where
  label := input.label
  webhookHash := input.webhookHash
  rules := input.rules
  owner := caller
  targetContract := input.targetContract
  createdAt := now
  updatedAt := now
  active := true
  pendingWebhookHash := none
  tags := none

/-- The writing loop of `batch_register_alerts`. -/
def registerInputs (caller : Address) (now : Nat) :
    List AlertInput → (ids : List Nat) → Contract (List Nat)
  | [], ids => pure ids
  | input :: rest, ids => do
      let id ← createAlert (input.toConfig caller now)
      registerInputs caller now rest (ids ++ [id])

/-- Register an alert for each input, all of them or none, and return their ids. -/
def batchRegisterAlerts (caller : Address) (inputs : List AlertInput) :
    Contract (List Nat) := do
  assertNotPaused
  rejectIf (inputs.length > maxBatchSize) .batchTooLarge
  requireAuth caller
  ofExcept (validateInputs inputs)
  assertPerOwnerLimitFor caller inputs.length
  let now ← timestamp
  registerInputs caller now inputs []

end Registration

section Mutation

/-- Switch an alert on or off in the name of an admin. -/
def setAlertActiveByAdmin (admin : Address) (configId : Nat)
    (active : Bool) : Contract Unit := do
  requireAuth admin
  assertAdmin admin
  let config ← loadAlert configId
  let now ← timestamp
  persistentStore (.alert configId)
    { config with active := active, updatedAt := now } defaultTtl
  persistentStore (.alertActive configId) active defaultTtl
  publish ⟨(.alert, .update),
    [.u64 configId, .address admin, .bool active]⟩

/-- Switch an alert off. -/
def pauseAlert (admin : Address) (configId : Nat) : Contract Unit :=
  setAlertActiveByAdmin admin configId false

/-- Switch an alert on. -/
def unpauseAlert (admin : Address) (configId : Nat) : Contract Unit :=
  setAlertActiveByAdmin admin configId true

/-- Replace the rules and the flag of an alert. -/
def updateAlert (caller : Address) (configId : Nat)
    (rules : List HostString) (active : Bool) : Contract Unit := do
  assertNotPaused
  requireAuth caller
  let config ← loadAlert configId
  assertOwner config caller
  ofExcept (validateRules rules)
  let now ← timestamp
  persistentStore (.alert configId)
    { config with rules := rules, active := active, updatedAt := now } defaultTtl
  persistentStore (.alertActive configId) active defaultTtl
  persistentExtendTtl (.ownerIndex config.owner) defaultTtl defaultTtl
  persistentExtendTtl (.contractIndex config.targetContract) defaultTtl defaultTtl
  publish ⟨(.alert, .update),
    [.u64 configId, .address caller, .bool active]⟩

/-- Replace the webhook hash of an alert at once. -/
def updateWebhook (caller : Address) (configId : Nat)
    (webhookHash : HostString) : Contract Unit := do
  assertNotPaused
  requireAuth caller
  let config ← loadAlert configId
  assertOwner config caller
  rejectIf (webhookHash.len ≠ 64) .invalidWebhookHash
  let now ← timestamp
  persistentStore (.alert configId)
    { config with webhookHash := webhookHash, updatedAt := now } defaultTtl
  persistentExtendTtl (.ownerIndex config.owner) defaultTtl defaultTtl
  persistentExtendTtl (.contractIndex config.targetContract) defaultTtl defaultTtl
  publish ⟨(.alert, .webhook), [.u64 configId, .address caller]⟩

/-- Unlike its siblings this entry point neither asks whether the contract is
paused nor checks the length of the hash. -/
def proposeWebhook (caller : Address) (configId : Nat)
    (newWebhookHash : HostString) : Contract Unit := do
  requireAuth caller
  let config ← loadAlert configId
  assertOwner config caller
  let now ← timestamp
  persistentStore (.alert configId)
    { config with
      pendingWebhookHash := some newWebhookHash
      updatedAt := now } defaultTtl
  publish ⟨(.alert, .whProp), [.u64 configId, .address caller]⟩

/-- Put the proposed webhook hash into force. -/
def confirmWebhook (caller : Address) (configId : Nat) : Contract Unit := do
  requireAuth caller
  let config ← loadAlert configId
  assertOwner config caller
  let pending ← okOr config.pendingWebhookHash .noPendingWebhook
  let now ← timestamp
  persistentStore (.alert configId)
    { config with
      pendingWebhookHash := none
      webhookHash := pending
      updatedAt := now } defaultTtl
  publish ⟨(.alert, .webhook), [.u64 configId, .address caller]⟩

/-- Replace the label of an alert. -/
def updateLabel (caller : Address) (configId : Nat)
    (label : HostString) : Contract Unit := do
  assertNotPaused
  requireAuth caller
  ofExcept (validateLabel label)
  let config ← loadAlert configId
  assertOwner config caller
  let now ← timestamp
  persistentStore (.alert configId)
    { config with label := label, updatedAt := now } defaultTtl
  persistentExtendTtl (.ownerIndex config.owner) defaultTtl defaultTtl
  persistentExtendTtl (.contractIndex config.targetContract) defaultTtl defaultTtl
  publish ⟨(.alert, .update),
    [.u64 configId, .address caller, .bool config.active]⟩

/-- Remove an alert of the caller. -/
def removeAlert (caller : Address) (configId : Nat) : Contract Unit := do
  assertNotPaused
  requireAuth caller
  let config ← loadAlert configId
  assertOwner config caller
  removeAlertRecord config configId caller

/-- Remove any alert, in the name of an admin. -/
def removeAlertByAdmin (admin : Address) (configId : Nat) : Contract Unit := do
  assertNotPaused
  requireAuth admin
  assertAdmin admin
  let config ← loadAlert configId
  removeAlertRecordByAdmin config configId admin config.owner

end Mutation

section Renewal

/-- Extend the lifetimes of an alert, of its lists and of the instance entry; anybody
may do this. -/
def bumpAlert (configId ttl : Nat) : Contract Unit := do
  assertNotPaused
  let effectiveTtl := min ttl maxTtl
  let config ← loadAlert configId
  persistentExtendTtl (.alert configId) effectiveTtl effectiveTtl
  persistentExtendTtl (.alertActive configId) effectiveTtl effectiveTtl
  persistentExtendTtl (.ownerIndex config.owner) effectiveTtl effectiveTtl
  persistentExtendTtl (.contractIndex config.targetContract)
    effectiveTtl effectiveTtl
  -- `NEXT_ID` is an instance key; nothing writes the persistent `NextId`.
  whenever (← persistentHas .nextId)
    (persistentExtendTtl .nextId effectiveTtl effectiveTtl)
  instanceExtendTtl effectiveTtl effectiveTtl
  publish ⟨(.alert, .bump), [.u64 configId, .u32 effectiveTtl]⟩

/-- The loop of `bulk_renew_ttl`. -/
def bulkRenewFrom : List Nat → (renewed : Nat) → Contract Nat
  | [], renewed => pure renewed
  | id :: rest, renewed => do
      match ← persistentGet (DataKey.alert id) with
      | none => bulkRenewFrom rest renewed
      | some config =>
          persistentExtendTtl (.alert id) defaultTtl defaultTtl
          persistentExtendTtl (.alertActive id) defaultTtl defaultTtl
          persistentExtendTtl (.ownerIndex config.owner) defaultTtl defaultTtl
          persistentExtendTtl (.contractIndex config.targetContract)
            defaultTtl defaultTtl
          publish ⟨(.alert, .bump), [.u64 id, .u32 defaultTtl]⟩
          bulkRenewFrom rest (renewed + 1)

/-- Extend the lifetimes of several alerts and of their lists, and return how many of
them there are; a batch that is too large is refused with `TooManyRules`. -/
def bulkRenewTtl (configIds : List Nat) : Contract Nat := do
  rejectIf (configIds.length > maxBatchSize) .tooManyRules
  bulkRenewFrom configIds 0

end Renewal

section Queries

/-- Alerts on a target contract, for a querier who may be asked to be a watcher. -/
def getAlertsForContract (querier targetContract : Address) :
    Contract (List AlertConfig) := do
  assertWatcherIfConfigured querier
  let ids ← contractIndex targetContract
  pure (configsForIds (← getState) ids)

/-- Ids of the live alerts on a target contract. -/
def getAlertIdsForContract (targetContract : Address) :
    Contract (List Nat) := do
  let ids ← contractIndex targetContract
  pure (liveIds (← getState) ids)

/-- Ids of the live alerts of an owner. -/
def getAlertIdsByOwner (owner : Address) : Contract (List Nat) := do
  let ids ← ownerIndex owner
  pure (liveIds (← getState) ids)

/-- Active alerts on a target contract. -/
def getActiveAlertsForContract (targetContract : Address) :
    Contract (List AlertConfig) := do
  let ids ← contractIndex targetContract
  pure (activeConfigsForIds (← getState) ids)

/-- The loop of `get_active_alerts_paginated`. -/
def activePageFrom (active : List AlertConfig) :
    (count i : Nat) → (out : List AlertConfig) → Contract (List AlertConfig)
  | 0, _, out => pure out
  | count + 1, i, out => do
      let cfg ← unwrap active[i]?
      activePageFrom active count (i + 1) (out ++ [cfg])

/-- A page of the active alerts on a target contract: inactive ones are left out before
the page is cut. -/
def getActiveAlertsPaginated (targetContract : Address)
    (offset limit : Nat) : Contract (List AlertConfig) := do
  let ids ← contractIndex targetContract
  let active := activeConfigsForIds (← getState) ids
  let effectiveLimit := min limit maxBatchSize
  let start := min offset active.length
  let stop := min (saturatingAdd32 offset effectiveLimit) active.length
  activePageFrom active (stop - start) start []

/-- Alerts of an owner, for a querier who may be asked to be a watcher. -/
def getAlertsByOwner (querier owner : Address) :
    Contract (List AlertConfig) := do
  assertWatcherIfConfigured querier
  let ids ← ownerIndex owner
  pure (configsForIds (← getState) ids)

/-- A page of the alerts on a target contract. -/
def getContractAlertsPaginated (querier targetContract : Address)
    (offset limit : Nat) : Contract (List AlertConfig) := do
  assertWatcherIfConfigured querier
  let ids ← contractIndex targetContract
  configsPaginated ids offset limit

/-- A page of the alerts of an owner. -/
def getAlertsByOwnerPaginated (querier owner : Address)
    (offset limit : Nat) : Contract (List AlertConfig) := do
  assertWatcherIfConfigured querier
  let ids ← ownerIndex owner
  configsPaginated ids offset limit

/-- Reading an alert renews its entry. -/
def getAlert (configId : Nat) : Contract (Option AlertConfig) := do
  let cfg ← persistentGet (.alert configId)
  whenever cfg.isSome
    (persistentExtendTtl (.alert configId) defaultTtl defaultTtl)
  pure cfg

/-- The flag kept beside an alert. -/
def getAlertActive (configId : Nat) : Contract (Option Bool) :=
  persistentGet (DataKey.alertActive configId)

end Queries

section OwnerOperations

/-- The loop of `deactivate_all_alerts`. -/
def deactivateFrom : List Nat → (count : Nat) → Contract Nat
  | [], count => pure count
  | id :: rest, count => do
      match ← persistentGet (DataKey.alert id) with
      | none => deactivateFrom rest count
      | some cfg =>
          if cfg.active then
            let now ← timestamp
            persistentStore (.alert id)
              { cfg with active := false, updatedAt := now } defaultTtl
            persistentStore (.alertActive id) false defaultTtl
            deactivateFrom rest (count + 1)
          else
            deactivateFrom rest count

/-- Deactivate every active alert of the caller and return how many there were. -/
def deactivateAllAlerts (caller : Address) : Contract Nat := do
  assertNotPaused
  requireAuth caller
  let ids ← ownerIndex caller
  deactivateFrom ids 0

/-- Point an alert at another contract and file it there; no event is published. -/
def updateTargetContract (caller : Address) (configId : Nat)
    (newTarget : Address) : Contract Unit := do
  assertNotPaused
  requireAuth caller
  let config ← loadAlert configId
  assertOwner config caller
  let oldTarget := config.targetContract
  let now ← timestamp
  persistentStore (.alert configId)
    { config with targetContract := newTarget, updatedAt := now } defaultTtl
  removeFromContractIndex oldTarget configId
  pushContractIndex newTarget configId

/-- Alerts changed at or after a time, in the order of their ids. -/
def getAlertsModifiedSince (since : Nat) : Contract (List AlertConfig) := do
  let total := (← instanceGet .nextId).getD 0
  let s ← getState
  pure ((List.range total).foldl
    (fun out id =>
      match s.persistent.get (.alert id) with
      | some cfg => if cfg.updatedAt ≥ since then out ++ [cfg] else out
      | none => out) [])

/-- Replace the tags of an alert. -/
def updateTags (caller : Address) (configId : Nat)
    (tags : Option (List HostString)) : Contract Unit := do
  assertNotPaused
  requireAuth caller
  let config ← loadAlert configId
  assertOwner config caller
  ofExcept (validateTags tags)
  let now ← timestamp
  persistentStore (.alert configId)
    { config with tags := tags, updatedAt := now } defaultTtl
  publish ⟨(.alert, .tags), [.u64 configId, .address caller]⟩

/-- Give an alert to a new owner who has room for it; to its owner it is given without
any effect. -/
def transferAlertOwnership (owner : Address) (configId : Nat)
    (newOwner : Address) : Contract Unit := do
  assertNotPaused
  requireAuth owner
  let config ← loadAlert configId
  assertOwner config owner
  if newOwner = owner then
    pure ()
  else
    assertPerOwnerLimit newOwner
    removeFromOwnerIndex owner configId
    pushOwnerIndex newOwner configId
    let now ← timestamp
    persistentStore (.alert configId)
      { config with owner := newOwner, updatedAt := now } defaultTtl
    publish ⟨(.alert, .transfer),
      [.u64 configId, .address owner, .address newOwner]⟩

/-- The loop of `get_alerts_updated_since`. -/
def updatedSinceFrom (s : State) (since offset limit : Nat) :
    List Nat → (skipped : Nat) → (out : List AlertConfig) → List AlertConfig
  | [], _, out => out
  | id :: rest, skipped, out =>
      if out.length ≥ limit then out
      else
        match s.persistent.get (.alert id) with
        | none => updatedSinceFrom s since offset limit rest skipped out
        | some cfg =>
            if cfg.updatedAt ≥ since then
              if skipped < offset then
                updatedSinceFrom s since offset limit rest (skipped + 1) out
              else
                updatedSinceFrom s since offset limit rest skipped (out ++ [cfg])
            else updatedSinceFrom s since offset limit rest skipped out

/-- A page of the alerts on a target contract that were changed at or after a time. -/
def getAlertsUpdatedSince (targetContract : Address)
    (since offset limit : Nat) : Contract (List AlertConfig) := do
  let ids ← contractIndex targetContract
  pure (updatedSinceFrom (← getState) since offset limit ids 0 [])

/-- How many ids have been issued. -/
def getAlertCount : Contract Nat := do
  let count ← instanceGet .nextId
  pure (count.getD 0)

/-- How many live alerts an owner has, active or not. -/
def getActiveAlertCount (owner : Address) : Contract Nat := do
  let ids ← ownerIndex owner
  let s ← getState
  pure (ids.foldl
    (fun count id =>
      if s.persistent.has (.alert id) then count + 1 else count) 0)

end OwnerOperations

end AlertRegistry
end TxWatch
