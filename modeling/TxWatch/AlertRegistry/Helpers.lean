import TxWatch.AlertRegistry.Types

/-!
# AlertRegistry: internal helpers

The private functions of `lib.rs`: guards, validation, the id counter, the two
indexes and the readers shared by the query entry points.

Loops that push onto a fresh vector are left folds over the list they scan.
The functions for the owner index and for the contract index are instances of
one function of the index kind.
-/

namespace TxWatch
namespace AlertRegistry

open Soroban Soroban.Contract

section Guards

/-- Whether the contract is paused; it is not until somebody has said so. -/
def isPaused : Contract Bool := do
  let paused ← instanceGet .paused
  pure (paused.getD false)

/-- Refuse the call while the contract is paused. -/
def assertNotPaused : Contract Unit := do
  rejectIf (← isPaused) .contractPaused

/-- The limit of alerts for each owner, where 0 means that there is none. -/
def getPerOwnerAlertLimit : Contract Nat := do
  let limit ← instanceGet .limit
  pure (limit.getD 0)

/-- If a watcher registry is configured, `querier` must be one of its
authorised watchers. -/
def assertWatcherIfConfigured (querier : Address) : Contract Unit := do
  let maybeRegistry ← instanceGet .watchreg
  match maybeRegistry with
  | none => pure ()
  | some registryAddr =>
      rejectIf (!(← askPeer registryAddr querier)) .notAWatcher

/-- Refuse a caller who does not own the alert. -/
def assertOwner (config : AlertConfig) (caller : Address) : Contract Unit :=
  if config.owner = caller then pure () else fail .unauthorized

/-- The admin set of a raw entry: a vector, or else a single address. -/
def AdminEntry.toVec (raw : AdminEntry) : Option (List Address) :=
  match raw.tryVec with
  | some v => some v
  | none => raw.tryAddress.map (fun a => [a])

/-- The admin set, in whichever format it is stored; none before `initialize`. -/
def loadAdmins : Contract (Option (List Address)) := do
  let raw ← instanceGet .admin
  pure (raw.bind AdminEntry.toVec)

/-- Write the admin set, always as a vector. -/
def setAdmins (admins : List Address) : Contract Unit :=
  instanceSet .admin (.vec admins)

/-- Refuse a caller who is no admin. -/
def assertAdmin (caller : Address) : Contract Unit := do
  let admins ← okOr (← loadAdmins) .notInitialized
  if caller ∈ admins then pure () else fail .unauthorized

end Guards

section Validation

/-- A label has at most 128 bytes. -/
def validateLabel (label : HostString) : Except ContractError Unit :=
  if label.len > 128 then .error .labelTooLong else .ok ()

/-- Each tag has at most `maxTagBytes` bytes. -/
def validateTagList : List HostString → Except ContractError Unit
  | [] => .ok ()
  | tag :: rest =>
      if tag.len > maxTagBytes then .error .tagTooLong
      else validateTagList rest

/-- There are at most `maxTags` tags, none of them too long. -/
def validateTags (tags : Option (List HostString)) :
    Except ContractError Unit :=
  match tags with
  | none => .ok ()
  | some t =>
      if t.length > maxTags then .error .tooManyTags
      else validateTagList t

/-- Descriptor of the rule that matches transfers. -/
def ruleTransfer : HostString := .fromStr "rule:transfer"

/-- Descriptor of the rule that matches mints. -/
def ruleMint : HostString := .fromStr "rule:mint"

/-- Descriptor of the rule that matches invocations. -/
def ruleInvoke : HostString := .fromStr "rule:invoke"

/-- Descriptor of the rule that matches everything. -/
def ruleAll : HostString := .fromStr "rule:all"

/-- A rule is one of the four descriptors. -/
def validateRule (rule : HostString) : Except ContractError Unit :=
  if rule ≠ ruleTransfer ∧ rule ≠ ruleMint ∧ rule ≠ ruleInvoke ∧
      rule ≠ ruleAll then
    .error .invalidRuleDescriptor
  else .ok ()

/-- The single pass of `validate_rules` over the remaining rules, with those
already seen. -/
def validateRulesFrom (seen : List HostString) :
    List HostString → Except ContractError Unit
  | [] => .ok ()
  | rule :: rest => do
      validateRule rule
      if rule ∈ seen then .error .duplicateRule
      else validateRulesFrom (seen ++ [rule]) rest

/-- There are between 1 and 50 rules, all of them known and none twice. -/
def validateRules (rules : List HostString) : Except ContractError Unit :=
  if rules.isEmpty then .error .emptyRules
  else if rules.length > 50 then .error .tooManyRules
  else validateRulesFrom [] rules

end Validation

section Indexes

/-- Ids listed for an address in the index of a kind. -/
def loadIndex (kind : IndexKind) (a : Address) : Contract (List Nat) := do
  let ids ← persistentGet (.index kind a)
  pure (ids.getD [])

/-- Ids listed for an owner. -/
def ownerIndex (owner : Address) : Contract (List Nat) :=
  loadIndex .owner owner

/-- Ids listed for a target contract. -/
def contractIndex (target : Address) : Contract (List Nat) :=
  loadIndex .contract target

/-- Append an id to an index, unless it is already listed. -/
def pushIndex (kind : IndexKind) (a : Address) (id : Nat) :
    Contract Unit := do
  let ids ← loadIndex kind a
  rejectIf (id ∈ ids) .duplicateAlertId
  persistentStore (.index kind a) (ids ++ [id]) defaultTtl

/-- Append an id to the list of an owner. -/
def pushOwnerIndex (owner : Address) (id : Nat) : Contract Unit :=
  pushIndex .owner owner id

/-- Append an id to the list of a target contract. -/
def pushContractIndex (target : Address) (id : Nat) : Contract Unit :=
  pushIndex .contract target id

/-- Remove an id from an index, deleting the key when nothing is left. -/
def removeFromIndex (kind : IndexKind) (a : Address) (id : Nat) :
    Contract Unit := do
  let ids ← loadIndex kind a
  let updated := ids.foldl
    (fun updated v => if v ≠ id then updated ++ [v] else updated) []
  if updated.isEmpty then
    persistentRemove (.index kind a)
  else
    persistentStore (.index kind a) updated defaultTtl

/-- Remove an id from the list of an owner. -/
def removeFromOwnerIndex (owner : Address) (id : Nat) : Contract Unit :=
  removeFromIndex .owner owner id

/-- Remove an id from the list of a target contract. -/
def removeFromContractIndex (target : Address) (id : Nat) : Contract Unit :=
  removeFromIndex .contract target id

/-- Ids of a list that have a live alert. -/
def liveIds (s : State) (ids : List Nat) : List Nat :=
  ids.foldl
    (fun out id =>
      if s.persistent.has (.alert id) then out ++ [id] else out) []

/-- Check that `additional` more alerts of `owner` fit under the cap, pruning
stale ids from the owner's index on the way. -/
def assertPerOwnerLimitFor (owner : Address) (additional : Nat) :
    Contract Unit := do
  let limit ← getPerOwnerAlertLimit
  whenever (limit > 0) do
    let ids ← ownerIndex owner
    let live := liveIds (← getState) ids
    whenever (live.length ≠ ids.length)
      (if live.isEmpty then
        persistentRemove (.ownerIndex owner)
      else
        persistentStore (.ownerIndex owner) live defaultTtl)
    rejectIf (saturatingAdd32 live.length additional > limit)
      .ownerAlertLimitExceeded

/-- Check that one more alert of `owner` fits under the cap. -/
def assertPerOwnerLimit (owner : Address) : Contract Unit :=
  assertPerOwnerLimitFor owner 1

end Indexes

section Records

/-- Read and increment the id counter. -/
def nextId : Contract Nat := do
  let stored ← instanceGet .nextId
  let id := stored.getD 0
  let next ← okOr (checkedAdd64 id 1) .counterOverflow
  instanceSet .nextId next
  instanceExtendTtl defaultTtl defaultTtl
  pure id

/-- The alert under an id, or `AlertNotFound`. -/
def loadAlert (id : Nat) : Contract AlertConfig := do
  okOr (← persistentGet (.alert id)) .alertNotFound

/-- Delete an alert and everything filed under it, on behalf of its owner. -/
def removeAlertRecord (config : AlertConfig) (configId : Nat)
    (caller : Address) : Contract Unit := do
  persistentRemove (.alert configId)
  persistentRemove (.alertActive configId)
  removeFromOwnerIndex config.owner configId
  removeFromContractIndex config.targetContract configId
  publish ⟨(.alert, .remove), [.u64 configId, .address caller]⟩

/-- Delete an alert on behalf of an admin; the event names the owner as well. -/
def removeAlertRecordByAdmin (config : AlertConfig) (configId : Nat)
    (admin owner : Address) : Contract Unit := do
  persistentRemove (.alert configId)
  persistentRemove (.alertActive configId)
  removeFromOwnerIndex config.owner configId
  removeFromContractIndex config.targetContract configId
  publish ⟨(.alert, .remove), [.u64 configId, .address admin, .address owner]⟩

/-- Alerts of a list of ids; ids without an alert are skipped. -/
def configsForIds (s : State) (ids : List Nat) : List AlertConfig :=
  ids.foldl
    (fun out id =>
      match s.persistent.get (.alert id) with
      | some cfg => out ++ [cfg]
      | none => out) []

/-- Active alerts of a list of ids. -/
def activeConfigsForIds (s : State) (ids : List Nat) : List AlertConfig :=
  ids.foldl
    (fun out id =>
      match s.persistent.get (.alert id) with
      | some cfg => if cfg.active then out ++ [cfg] else out
      | none => out) []

/-- The loop of `configs_paginated`: `count` positions of `ids` from `i` on. -/
def configsPaginatedFrom (ids : List Nat) :
    (count i : Nat) → (out : List AlertConfig) → Contract (List AlertConfig)
  | 0, _, out => pure out
  | count + 1, i, out => do
      let id ← unwrap ids[i]?
      match ← persistentGet (DataKey.alert id) with
      | some cfg => configsPaginatedFrom ids count (i + 1) (out ++ [cfg])
      | none => configsPaginatedFrom ids count (i + 1) out

/-- Alerts under a page of a list of ids: the page is cut before ids without an alert
are skipped. -/
def configsPaginated (ids : List Nat) (offset limit : Nat) :
    Contract (List AlertConfig) :=
  let effectiveLimit := min limit maxBatchSize
  let len := ids.length
  let start := min offset len
  let stop := min (saturatingAdd32 offset effectiveLimit) len
  configsPaginatedFrom ids (stop - start) start []

end Records

end AlertRegistry
end TxWatch
