import TxWatch.Soroban.Contract

/-!
# AlertRegistry: data types and storage layout

The data of `contracts/alert-registry/src/lib.rs`: the constants, the alert
record, the error codes, the storage keys of the two storage kinds with the
type kept under each, and the published events.

`OwnerIndex` and `ContractIndex` are the two kinds of one index key.  The
source treats them by word-for-word equal code, so that everything said about
an index is said once for both kinds.

Ids and timestamps are `u64`, limits, offsets and lifetimes `u32` in the
source; they are natural numbers here, with the bounds written out where the
source checks for overflow.
-/

namespace TxWatch
namespace AlertRegistry

open Soroban

/-- Default lifetime of persistent entries, in ledgers. -/
def defaultTtl : Nat := 120960

/-- Upper bound on lifetimes a caller may ask for. -/
def maxTtl : Nat := 535680

/-- Largest number of items in a batch, and of entries in a page. -/
def maxBatchSize : Nat := 50

/-- Largest number of tags of an alert. -/
def maxTags : Nat := 10

/-- Largest length of a tag in bytes. -/
def maxTagBytes : Nat := 32

/-- On-chain configuration of one alert. -/
structure AlertConfig where
  label : HostString
  webhookHash : HostString
  rules : List HostString
  owner : Address
  targetContract : Address
  createdAt : Nat
  updatedAt : Nat
  active : Bool
  pendingWebhookHash : Option HostString
  tags : Option (List HostString)
deriving DecidableEq

/-- One alert of a batch registration. -/
structure AlertInput where
  targetContract : Address
  label : HostString
  webhookHash : HostString
  rules : List HostString
deriving DecidableEq

/-- The error codes of the contract. -/
inductive ContractError where
  | unauthorized
  | alertNotFound
  | alreadyInitialized
  | notInitialized
  | notAWatcher
  | invalidWebhookHash
  | labelTooLong
  | tooManyRules
  | invalidRuleDescriptor
  | ownerAlertLimitExceeded
  | duplicateAlertId
  | noPendingWebhook
  | storageError
  | contractPaused
  | batchTooLarge
  | limitTooLow
  | emptyRules
  | duplicateRule
  | counterOverflow
  | lastAdmin
  | alreadyAdmin
  | notAdmin
  | tooManyTags
  | tagTooLong
deriving DecidableEq

/-- The two kinds of index: by owner and by watched contract. -/
inductive IndexKind where
  | owner
  | contract
deriving DecidableEq

/-- Address under which an alert is listed in the index of a kind. -/
def AlertConfig.party (cfg : AlertConfig) : IndexKind → Address
  | .owner => cfg.owner
  | .contract => cfg.targetContract

/-- Keys of persistent storage. -/
inductive DataKey where
  | alert (id : Nat)
  | alertActive (id : Nat)
  | index (kind : IndexKind) (a : Address)
  | nextId
deriving DecidableEq

/-- `DataKey::OwnerIndex`. -/
@[match_pattern] abbrev DataKey.ownerIndex (a : Address) : DataKey :=
  .index .owner a

/-- `DataKey::ContractIndex`. -/
@[match_pattern] abbrev DataKey.contractIndex (a : Address) : DataKey :=
  .index .contract a

/-- Type of the value under a persistent key. -/
@[reducible] def DataKey.Value : DataKey → Type
  | .alert _ => AlertConfig
  | .alertActive _ => Bool
  | .index _ _ => List Nat
  | .nextId => Nat

/-- Raw value under `ADMIN`: the admin set, or the single address written by
earlier versions of the contract. -/
inductive AdminEntry where
  | address (a : Address)
  | vec (v : List Address)
deriving DecidableEq

/-- `Vec::<Address>::try_from_val`. -/
def AdminEntry.tryVec : AdminEntry → Option (List Address)
  | .address _ => none
  | .vec v => some v

/-- `Address::try_from_val`. -/
def AdminEntry.tryAddress : AdminEntry → Option Address
  | .address a => some a
  | .vec _ => none

/-- Keys of instance storage. -/
inductive InstanceKey where
  | admin
  | limit
  | paused
  | watchreg
  | nextId
deriving DecidableEq

/-- Type of the value under an instance key. -/
@[reducible] def InstanceKey.Value : InstanceKey → Type
  | .admin => AdminEntry
  | .limit => Nat
  | .paused => Bool
  | .watchreg => Address
  | .nextId => Nat

/-- Symbols used as event topics. -/
inductive Symbol where
  | alert
  | admin
  | register
  | update
  | webhook
  | whProp
  | remove
  | bump
  | tags
  | transfer
  | init
  | add
  | limit
  | pause
  | unpause
deriving DecidableEq

/-- One component of the data of an event. -/
inductive EventData where
  | u64 (n : Nat)
  | u32 (n : Nat)
  | bool (b : Bool)
  | address (a : Address)
deriving DecidableEq

/-- A published event: its two topics and the components of its data. -/
structure Event where
  topics : Symbol × Symbol
  data : List EventData
deriving DecidableEq

/-- Storage of the contract. -/
abbrev State : Type :=
  Soroban.State DataKey DataKey.Value InstanceKey InstanceKey.Value Event

/-- Computations of the contract. -/
abbrev Contract : Type → Type :=
  Soroban.Contract State ContractError

/-- Storage of a freshly deployed contract. -/
abbrev State.empty : State :=
  Soroban.State.fresh

end AlertRegistry
end TxWatch
