import TxWatch.WatcherRegistry.Types

/-!
# WatcherRegistry: helpers and entry points

The functions of `contracts/watcher-registry/src/lib.rs`, the internal helpers
first and then the entry points in the order of the source.  In
`register_watcher` the undeclared `watchers` is the stored list and `label` one
more argument.
-/

namespace TxWatch
namespace WatcherRegistry

open Soroban Soroban.Contract

section Helpers

/-- Extend the lifetime of the instance entry. -/
def extendInstanceTtl : Contract Unit :=
  instanceExtendTtl defaultTtl defaultTtl

/-- Write the metadata of a watcher. -/
def saveInfo (info : WatcherInfo) : Contract Unit :=
  persistentStore (.watcherInfo info.address) info defaultTtl

/-- The count is a `u32`, and an overflow aborts the call. -/
def incrementWatcherCount : Contract Unit := do
  let count := (← instanceGet .wCnt).getD 0
  let next ← unwrap (checkedAdd32 count 1)
  instanceSet .wCnt next

/-- Lower the count by one, unless it is 0. -/
def decrementWatcherCount : Contract Unit := do
  let count := (← instanceGet .wCnt).getD 0
  whenever (count > 0) (instanceSet .wCnt (count - 1))

/-- Whether the contract is paused. -/
def isPaused : Contract Bool := do
  let paused ← instanceGet .paused
  pure (paused.getD false)

/-- Refuse the call while the contract is paused. -/
def assertNotPaused : Contract Unit := do
  rejectIf (← isPaused) .contractPaused

/-- The expiries of the watchers that have one. -/
def loadExpiries : Contract ExpiryMap := do
  let m ← instanceGet .expiries
  pure (m.getD (fun _ => none))

/-- Set or clear the expiry of a watcher. -/
def setExpiry (watcher : Address) (expiresAt : Option Nat) : Contract Unit := do
  let m ← loadExpiries
  match expiresAt with
  | some exp => instanceSet .expiries (m.set watcher exp)
  | none => instanceSet .expiries (m.remove watcher)

/-- The watchers in the order of registration. -/
def loadWatchers : Contract (List Address) := do
  let watchers ← instanceGet .watchers
  pure (watchers.getD [])

/-- The admin set; empty before `initialize`. -/
def loadAdmins : Contract (List Address) := do
  let admins ← instanceGet .admins
  pure (admins.getD [])

/-- Refuse a caller who is no admin. -/
def assertAdmin (caller : Address) : Contract Unit := do
  rejectIf ((← instanceGet .admins).isNone) .notInitialized
  let admins ← loadAdmins
  if caller ∈ admins then pure () else fail .unauthorized

/-- The checks with which every mutating entry point except `initialize` and
`set_paused` begins. -/
def assertMutable (admin : Address) : Contract Unit := do
  requireAuth admin
  assertAdmin admin
  assertNotPaused

end Helpers

section Admins

/-- Make `admin`, who signs, the first admin, once. -/
def initialise (admin : Address) : Contract Unit := do
  requireAuth admin
  rejectIf ((← instanceGet .admins).isSome) .alreadyInitialized
  instanceSet .admins [admin]
  extendInstanceTtl
  publish ⟨(.admin, .init), [.address admin]⟩

/-- Add an admin to the set; one who is there already is left alone. -/
def addAdmin (caller newAdmin : Address) : Contract Unit := do
  assertMutable caller
  let admins ← loadAdmins
  if newAdmin ∈ admins then pure ()
  else
    instanceSet .admins (admins ++ [newAdmin])
    extendInstanceTtl
    publish ⟨(.admin, .add), [.address caller, .address newAdmin]⟩

/-- Take an admin off the set, unless he is the last. -/
def removeAdmin (caller targetAdmin : Address) : Contract Unit := do
  assertMutable caller
  let admins ← loadAdmins
  rejectIf (admins.length ≤ 1) .lastAdmin
  let updated := admins.foldl
    (fun updated a => if a ≠ targetAdmin then updated ++ [a] else updated) []
  instanceSet .admins updated
  extendInstanceTtl
  publish ⟨(.admin, .remove), [.address caller, .address targetAdmin]⟩
  whenever (caller = targetAdmin)
    (publish ⟨(.admin, .selfRemove), [.address caller]⟩)

/-- Hand the registry over to a new admin, unless there are several admins. -/
def transferAdmin (admin newAdmin : Address) : Contract Unit := do
  assertMutable admin
  rejectIf ((← loadAdmins).length > 1) .multipleAdminsExist
  instanceSet .admins [newAdmin]
  extendInstanceTtl
  publish ⟨(.admin, .transfer), [.address admin, .address newAdmin]⟩

end Admins

section Watchers

/-- Append a watcher to the list, unless there is metadata about him. -/
def registerWatcher (admin watcher : Address) (expiresAt : Option Nat)
    (label : Option HostString) : Contract Unit := do
  assertMutable admin
  let watchers ← loadWatchers
  let label := label.getD (.fromStr "")
  rejectIf (label.len > maxLabelBytes) .labelTooLong
  if ← persistentHas (.watcherInfo watcher) then pure ()
  else
    rejectIf (watchers.length ≥ maxWatchers) .watcherLimitExceeded
    setExpiry watcher expiresAt
    instanceSet .watchers (watchers ++ [watcher])
    extendInstanceTtl
    incrementWatcherCount
    publish ⟨(.watcher, .register), [.address watcher]⟩

/-- The loop of `remove_watcher` and `replace_watcher`: whether the address was
found, and `updated`, the list without it. -/
def withoutWatcher (watchers : List Address) (watcher : Address) :
    Bool × List Address :=
  watchers.foldl
    (fun acc w =>
      if w = watcher then (true, acc.2) else (acc.1, acc.2 ++ [w]))
    (false, [])

/-- Take a watcher off the list; the metadata about him stay. -/
def removeWatcher (admin watcher : Address) : Contract Unit := do
  assertMutable admin
  let watchers ← loadWatchers
  let (removed, updated) := withoutWatcher watchers watcher
  rejectIf (!removed) .watcherNotFound
  instanceSet .watchers updated
  extendInstanceTtl
  whenever removed do
    setExpiry watcher none
    decrementWatcherCount
    publish ⟨(.watcher, .remove), [.address watcher]⟩

/-- Take an old watcher off the list and append a new one, without an expiry, unless
he is on the list already. -/
def replaceWatcher (admin oldWatcher newWatcher : Address) :
    Contract Unit := do
  assertMutable admin
  let watchers ← loadWatchers
  let (found, updated) := withoutWatcher watchers oldWatcher
  rejectIf (!found) .watcherNotFound
  setExpiry oldWatcher none
  let alreadyPresent : Bool := newWatcher ∈ updated
  persistentRemove (.watcherInfo oldWatcher)
  let now ← timestamp
  let updated ←
    if alreadyPresent then do
      decrementWatcherCount
      pure updated
    else do
      saveInfo {
        address := newWatcher
        label := .fromStr ""
        registeredAt := now
        registeredBy := admin }
      pure (updated ++ [newWatcher])
  instanceSet .watchers updated
  extendInstanceTtl
  publish ⟨(.watcher, .remove), [.address oldWatcher]⟩
  publish ⟨(.watcher, .replace), [.address oldWatcher, .address newWatcher]⟩

/-- The loop of `batch_register_watchers`: `stored` with the new addresses
appended, and `added`, those addresses. -/
def appendNew (watchers stored : List Address) : List Address × List Address :=
  watchers.foldl
    (fun acc w =>
      if w ∈ acc.1 then acc else (acc.1 ++ [w], acc.2 ++ [w]))
    (stored, [])

/-- The second loop of `batch_register_watchers`. -/
def announceAdded : List Address → Contract Unit
  | [] => pure ()
  | w :: rest => do
      incrementWatcherCount
      publish ⟨(.watcher, .register), [.address w]⟩
      announceAdded rest

/-- Append the watchers that are not on the list yet, and return how many they are. -/
def batchRegisterWatchers (admin : Address) (watchers : List Address) :
    Contract Nat := do
  assertMutable admin
  rejectIf (watchers.length > maxBatchSize) .batchTooLarge
  let (stored, added) := appendNew watchers (← loadWatchers)
  rejectIf (stored.length > maxWatchers) .watcherLimitExceeded
  instanceSet .watchers stored
  extendInstanceTtl
  announceAdded added
  pure added.length

/-- Set or clear the expiry of a watcher on the list. -/
def renewWatcher (admin watcher : Address) (newExpiry : Option Nat) :
    Contract Unit := do
  assertMutable admin
  rejectIf (watcher ∉ (← loadWatchers)) .watcherNotFound
  setExpiry watcher newExpiry
  extendInstanceTtl
  publish ⟨(.watcher, .renew), [.address watcher, .optU64 newExpiry]⟩

/-- Pause the contract or let it go on. -/
def setPaused (admin : Address) (paused : Bool) : Contract Unit := do
  requireAuth admin
  assertAdmin admin
  instanceSet .paused paused
  extendInstanceTtl
  publish ⟨(.admin, if paused then .pause else .unpause), [.address admin]⟩

/-- Whether a watcher is on the list and not past his expiry. -/
def isWatcherAuthorized (watcher : Address) : Contract Bool := do
  extendInstanceTtl
  let watchers ← loadWatchers
  if watcher ∉ watchers then pure false
  else
    let m ← loadExpiries
    let now ← timestamp
    match m watcher with
    | some exp => pure (decide (now ≤ exp))
    | none => pure true

/-- The same under another name. -/
def isAuthorized (watcher : Address) : Contract Bool :=
  isWatcherAuthorized watcher

/-- The loop of `clear_all_watchers`. -/
def announceCleared : List Address → Contract Unit
  | [] => pure ()
  | w :: rest => do
      publish ⟨(.watcher, .remove), [.address w]⟩
      persistentRemove (.watcherInfo w)
      announceCleared rest

/-- Drop every watcher, with expiries and metadata. -/
def clearAllWatchers (admin : Address) : Contract Unit := do
  assertMutable admin
  announceCleared (← loadWatchers)
  instanceSet .watchers []
  instanceRemove .expiries
  extendInstanceTtl
  instanceSet .wCnt 0

end Watchers

section Queries

/-- The watchers in the order of registration. -/
def getWatchers : Contract (List Address) :=
  loadWatchers

/-- The same under another name. -/
def getAllWatchers : Contract (List Address) :=
  loadWatchers

/-- The loop of `get_all_watchers_paginated`: `count` positions from `i` on. -/
def watcherPageFrom (watchers : List Address) :
    (count i : Nat) → (page : List Address) → Contract (List Address)
  | 0, _, page => pure page
  | count + 1, i, page => do
      let w ← unwrap watchers[i]?
      watcherPageFrom watchers count (i + 1) (page ++ [w])

/-- A page of the list of watchers. -/
def getAllWatchersPaginated (offset limit : Nat) : Contract (List Address) := do
  let watchers ← loadWatchers
  let limit := min limit maxPageLimit
  let stop := min (saturatingAdd32 offset limit) watchers.length
  watcherPageFrom watchers (stop - offset) offset []

/-- The metadata about a watcher, if any. -/
def getWatcherInfo (watcher : Address) : Contract (Option WatcherInfo) :=
  persistentGet (DataKey.watcherInfo watcher)

/-- The admin set, or `NotInitialized`. -/
def getAdmins : Contract (List Address) := do
  rejectIf ((← instanceGet .admins).isNone) .notInitialized
  loadAdmins

/-- Whether there is an admin set. -/
def isInitialized : Contract Bool := do
  let admins ← instanceGet .admins
  pure admins.isSome

/-- Whether an address is an admin. -/
def isAdmin (address : Address) : Contract Bool := do
  if (← instanceGet .admins).isNone then pure false
  else
    let admins ← loadAdmins
    pure (decide (address ∈ admins))

/-- The first of the admins. -/
def getAdmin : Contract Address := do
  let admins ← getAdmins
  unwrap admins[0]?

/-- The count of watchers. -/
def getWatcherCount : Contract Nat := do
  let count ← instanceGet .wCnt
  pure (count.getD 0)

end Queries

end WatcherRegistry
end TxWatch
