import TxWatch.Soroban.Contract

/-!
# WatcherRegistry: data types and storage layout

The data of `contracts/watcher-registry/src/lib.rs`.  The record `WatcherInfo`,
its storage key, the two errors of labels and admin transfers and the bounds on
labels and pages are used by the source without being declared there; they are
taken from their uses and from `docs/watcher-registry.md`.
-/

namespace TxWatch
namespace WatcherRegistry

open Soroban

/-- Number of ledgers by which lifetimes are extended. -/
def defaultTtl : Nat := 518400

/-- Largest number of addresses in a batch. -/
def maxBatchSize : Nat := 20

/-- Largest number of watchers. -/
def maxWatchers : Nat := 1000

/-- Largest length of a label in bytes. -/
def maxLabelBytes : Nat := 64

/-- Largest number of addresses in a page. -/
def maxPageLimit : Nat := 50

/-- The error codes of the contract. -/
inductive ContractError where
  | alreadyInitialized
  | unauthorized
  | notInitialized
  | lastAdmin
  | watcherNotFound
  | contractPaused
  | batchTooLarge
  | watcherLimitExceeded
  | multipleAdminsExist
  | labelTooLong
deriving DecidableEq

/-- Metadata of a registered watcher. -/
structure WatcherInfo where
  address : Address
  label : HostString
  registeredAt : Nat
  registeredBy : Address
deriving DecidableEq

/-- Keys of persistent storage. -/
inductive DataKey where
  | watcherInfo (a : Address)
deriving DecidableEq

/-- Type of the value under a persistent key. -/
@[reducible] def DataKey.Value : DataKey → Type
  | .watcherInfo _ => WatcherInfo

/-- Keys of instance storage; `wCnt` is the symbol `W_CNT`. -/
inductive InstanceKey where
  | admins
  | watchers
  | paused
  | expiries
  | wCnt
deriving DecidableEq

/-- `Map<Address, u64>`: the value under each key that has one. -/
abbrev ExpiryMap : Type :=
  Address → Option Nat

/-- `Map::set`. -/
def ExpiryMap.set (m : ExpiryMap) (a : Address) (exp : Nat) : ExpiryMap :=
  Function.update m a (some exp)

/-- `Map::remove`. -/
def ExpiryMap.remove (m : ExpiryMap) (a : Address) : ExpiryMap :=
  Function.update m a none

/-- Type of the value under an instance key. -/
@[reducible] def InstanceKey.Value : InstanceKey → Type
  | .admins => List Address
  | .watchers => List Address
  | .paused => Bool
  | .expiries => ExpiryMap
  | .wCnt => Nat

/-- Symbols used as event topics. -/
inductive Symbol where
  | admin
  | watcher
  | init
  | add
  | remove
  | selfRemove
  | transfer
  | register
  | replace
  | renew
  | pause
  | unpause
deriving DecidableEq

/-- One component of the data of an event. -/
inductive EventData where
  | address (a : Address)
  | optU64 (o : Option Nat)
deriving DecidableEq

/-- A published event: its two topics and the components of its data. -/
structure Event where
  topics : Symbol × Symbol
  data : List EventData
deriving DecidableEq

/-- Storage of the contract. -/
abbrev State : Type :=
  Soroban.State DataKey DataKey.Value InstanceKey InstanceKey.Value Event

/-- Computations of the contract. -/
abbrev Contract : Type → Type :=
  Soroban.Contract State ContractError

/-- Storage of a freshly deployed contract. -/
abbrev State.empty : State :=
  Soroban.State.fresh

end WatcherRegistry
end TxWatch
