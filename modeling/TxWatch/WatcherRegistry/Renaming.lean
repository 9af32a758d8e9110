import TxWatch.WatcherRegistry.Refinement
import TxWatch.Soroban.Translation

/-!
# WatcherRegistry in other names

How the data of the contract reads after an exchange of addresses and a change
of clock, and that no entry point tells the difference.
-/

namespace TxWatch
namespace WatcherRegistry

open Soroban Soroban.Contract

section Data

variable (ρ : Renaming)

/-- The metadata about a watcher with new addresses and a new time. -/
def WatcherInfo.rename (info : WatcherInfo) : WatcherInfo :=
  { info with
    address := ρ.address info.address
    registeredAt := ρ.clock info.registeredAt
    registeredBy := ρ.address info.registeredBy }

/-- A persistent key with a new address. -/
def DataKey.rename : DataKey → DataKey
  | .watcherInfo a => .watcherInfo (ρ.address a)

/-- What is kept under a key, renamed. -/
def DataKey.renameValue : (k : DataKey) → k.Value → (k.rename ρ).Value
  | .watcherInfo _, info => WatcherInfo.rename ρ info

/-- The expiries with new addresses and times. -/
def ExpiryMap.rename (m : ExpiryMap) : ExpiryMap :=
  fun a => (m (ρ.address.symm a)).map ρ.clock

/-- What is kept under an instance key, renamed. -/
def InstanceKey.renameValue : (i : InstanceKey) → i.Value → i.Value
  | .admins, l => l.map ρ.address
  | .watchers, l => l.map ρ.address
  | .paused, b => b
  | .expiries, m => ExpiryMap.rename ρ m
  | .wCnt, n => n

/-- A component of event data with a new address or time. -/
def EventData.rename : EventData → EventData
  | .address a => .address (ρ.address a)
  | .optU64 o => .optU64 (o.map ρ.clock)

/-- An event with new addresses and times. -/
def Event.rename (ev : Event) : Event :=
  { ev with data := ev.data.map (EventData.rename ρ) }

theorem DataKey.rename_injective :
    Function.Injective (DataKey.rename ρ) := by
  intro k k' h
  cases k
  cases k'
  simpa [DataKey.rename] using h

/-- The vocabulary of the contract after a renaming. -/
def dictionary :
    Dictionary DataKey DataKey.Value InstanceKey InstanceKey.Value Event where
  toRenaming := ρ
  key := DataKey.rename ρ
  key_injective := DataKey.rename_injective ρ
  value := DataKey.renameValue ρ
  entry := InstanceKey.renameValue ρ
  event := Event.rename ρ

/-- An answer with new addresses and times. -/
def Response.rename : Response → Response
  | .address a => .address (ρ.address a)
  | .addresses l => .addresses (l.map ρ.address)
  | .optInfo o => .optInfo (o.map (WatcherInfo.rename ρ))
  | resp => resp

/-- A call with new addresses and times in its arguments. -/
def Call.rename : Call → Call
  | .initialise admin => .initialise (ρ.address admin)
  | .addAdmin caller newAdmin => .addAdmin (ρ.address caller) (ρ.address newAdmin)
  | .removeAdmin caller targetAdmin =>
      .removeAdmin (ρ.address caller) (ρ.address targetAdmin)
  | .transferAdmin admin newAdmin =>
      .transferAdmin (ρ.address admin) (ρ.address newAdmin)
  | .registerWatcher admin watcher expiresAt label =>
      .registerWatcher (ρ.address admin) (ρ.address watcher)
        (expiresAt.map ρ.clock) label
  | .removeWatcher admin watcher =>
      .removeWatcher (ρ.address admin) (ρ.address watcher)
  | .replaceWatcher admin oldWatcher newWatcher =>
      .replaceWatcher (ρ.address admin) (ρ.address oldWatcher)
        (ρ.address newWatcher)
  | .batchRegisterWatchers admin watchers =>
      .batchRegisterWatchers (ρ.address admin) (watchers.map ρ.address)
  | .renewWatcher admin watcher newExpiry =>
      .renewWatcher (ρ.address admin) (ρ.address watcher) (newExpiry.map ρ.clock)
  | .setPaused admin paused => .setPaused (ρ.address admin) paused
  | .isPaused => .isPaused
  | .isWatcherAuthorized watcher => .isWatcherAuthorized (ρ.address watcher)
  | .isAuthorized watcher => .isAuthorized (ρ.address watcher)
  | .clearAllWatchers admin => .clearAllWatchers (ρ.address admin)
  | .getWatchers => .getWatchers
  | .getAllWatchers => .getAllWatchers
  | .getAllWatchersPaginated offset limit => .getAllWatchersPaginated offset limit
  | .getWatcherInfo watcher => .getWatcherInfo (ρ.address watcher)
  | .getAdmins => .getAdmins
  | .isInitialized => .isInitialized
  | .isAdmin address => .isAdmin (ρ.address address)
  | .getAdmin => .getAdmin
  | .getWatcherCount => .getWatcherCount

theorem rename_update (m : ExpiryMap) (a : Address) (o : Option Nat) :
    ExpiryMap.rename ρ (Function.update m a o) =
      Function.update (m.rename ρ) (ρ.address a) (o.map ρ.clock) := by
  funext b
  by_cases hb : b = ρ.address a
  · subst hb
    simp [ExpiryMap.rename]
  · have hb' : ρ.address.symm b ≠ a := by
      rintro rfl
      simp at hb
    simp [ExpiryMap.rename, hb, hb']

theorem newcomers_map (stored ws : List Address) :
    newcomers (stored.map ρ.address) (ws.map ρ.address) =
      (newcomers stored ws).map ρ.address := by
  induction ws generalizing stored with
  | nil => rfl
  | cons w ws ih =>
      simp only [List.map_cons, newcomers, ρ.mem_map_address]
      split_ifs
      · exact ih stored
      · have hsnoc := ih (stored ++ [w])
        rw [List.map_append] at hsnoc
        rw [List.map_cons]
        exact congrArg (ρ.address w :: ·) hsnoc

end Data

variable {ρ : Renaming}

/-- A computation of the contract in translation. -/
abbrev Renamed {α β : Type} (ρ : Renaming) (f : α → β) (m : Contract α)
    (m' : Contract β) : Prop :=
  Follows (dictionary ρ) f m m'

section Host

theorem renamed_storeWatchers (watchers : List Address) :
    Renamed ρ id (instanceSet .watchers watchers)
      (instanceSet .watchers (watchers.map ρ.address)) := by
  exact follows_instanceSet (d := dictionary ρ) InstanceKey.watchers watchers

theorem renamed_removeInfo (a : Address) :
    Renamed ρ id (persistentRemove (.watcherInfo a))
      (persistentRemove (.watcherInfo (ρ.address a))) := by
  exact follows_persistentRemove (d := dictionary ρ) (DataKey.watcherInfo a)

end Host

section Helpers

theorem renamed_extendInstanceTtl :
    Renamed ρ id extendInstanceTtl extendInstanceTtl := by
  exact follows_instanceExtendTtl _ _ _ _

theorem renamed_saveInfo (info : WatcherInfo) :
    Renamed ρ id (saveInfo info) (saveInfo (info.rename ρ)) := by
  exact follows_persistentStore (d := dictionary ρ)
    (DataKey.watcherInfo info.address) info _ _

theorem renamed_getCount :
    Renamed ρ id (instanceGet InstanceKey.wCnt) (instanceGet InstanceKey.wCnt) := by
  refine follows_of_read (fun _ _ => rfl) (fun _ _ => rfl) ?_
  intro s t h
  rw [h.inst]
  cases s.inst .wCnt <;> rfl

theorem renamed_incrementWatcherCount :
    Renamed ρ id incrementWatcherCount incrementWatcherCount := by
  refine renamed_getCount.bind fun count => ?_
  exact (follows_unwrap (f := id) (by simp)).bind fun next =>
    follows_instanceSet (d := dictionary ρ) InstanceKey.wCnt next

theorem renamed_decrementWatcherCount :
    Renamed ρ id decrementWatcherCount decrementWatcherCount := by
  exact renamed_getCount.bind fun count =>
    follows_whenever Iff.rfl (follows_instanceSet (d := dictionary ρ) InstanceKey.wCnt _)

theorem renamed_isPaused : Renamed ρ id isPaused isPaused := by
  exact follows_ofInstance (i := InstanceKey.paused) (by rintro (_ | _) <;> rfl)

theorem renamed_assertNotPaused : Renamed ρ id assertNotPaused assertNotPaused := by
  exact renamed_isPaused.bind fun _ => follows_rejectIf Iff.rfl _

theorem renamed_loadExpiries :
    Renamed ρ (ExpiryMap.rename ρ) loadExpiries loadExpiries := by
  exact follows_ofInstance (i := InstanceKey.expiries) (by rintro (_ | _) <;> rfl)

theorem renamed_setExpiry (watcher : Address) (expiresAt : Option Nat) :
    Renamed ρ id (setExpiry watcher expiresAt)
      (setExpiry (ρ.address watcher) (expiresAt.map ρ.clock)) := by
  refine renamed_loadExpiries.bind fun m => ?_
  have hset : Renamed ρ id (instanceSet .expiries (Function.update m watcher expiresAt))
      (instanceSet .expiries (Function.update (ExpiryMap.rename ρ m)
        (ρ.address watcher) (expiresAt.map ρ.clock))) := by
    rw [← rename_update]
    exact follows_instanceSet InstanceKey.expiries _
  cases expiresAt with
  | none => exact hset
  | some exp => exact hset

theorem renamed_loadWatchers :
    Renamed ρ (List.map ρ.address) loadWatchers loadWatchers := by
  exact follows_ofInstance (i := InstanceKey.watchers) (by rintro (_ | _) <;> rfl)

theorem renamed_loadAdmins :
    Renamed ρ (List.map ρ.address) loadAdmins loadAdmins := by
  exact follows_ofInstance (i := InstanceKey.admins) (by rintro (_ | _) <;> rfl)

/-- Whether the contract has been initialised does not change with the names. -/
theorem isNone_rename (o : Option (List Address)) :
    (o.map ((dictionary ρ).entry .admins)).isNone = o.isNone := by
  cases o <;> rfl

theorem renamed_assertAdmin (caller : Address) :
    Renamed ρ id (assertAdmin caller) (assertAdmin (ρ.address caller)) := by
  refine (follows_instanceGet (d := dictionary ρ) InstanceKey.admins).bind fun o => ?_
  refine (follows_rejectIf (by rw [isNone_rename]) _).bind fun _ => ?_
  refine renamed_loadAdmins.bind fun admins => ?_
  exact Follows.ite (ρ.mem_map_address caller admins) (follows_pure id ())
    (follows_fail id _)

theorem renamed_assertMutable (admin : Address) :
    Renamed ρ id (assertMutable admin) (assertMutable (ρ.address admin)) := by
  exact (follows_requireAuth admin).bind fun _ =>
    (renamed_assertAdmin admin).bind fun _ => renamed_assertNotPaused

/-- Writing the admin set, and what follows it in every entry point that does
so. -/
theorem renamed_setAdmins
    (admins : List Address) {m m' : Contract Unit} (hm : Renamed ρ id m m') :
    Renamed ρ id
      (do
        instanceSet .admins admins
        extendInstanceTtl
        m)
      (do
        instanceSet .admins (admins.map ρ.address)
        extendInstanceTtl
        m') := by
  exact (follows_instanceSet (d := dictionary ρ) InstanceKey.admins admins).bind fun _ =>
    renamed_extendInstanceTtl.bind fun _ => hm

end Helpers

section Admins

theorem renamed_initialise (admin : Address) :
    Renamed ρ id (initialise admin) (initialise (ρ.address admin)) := by
  refine (follows_requireAuth admin).bind fun _ => ?_
  refine (follows_instanceGet (d := dictionary ρ) InstanceKey.admins).bind fun o => ?_
  refine (follows_rejectIf ?_ _).bind fun _ => ?_
  · cases o <;> simp
  · exact renamed_setAdmins [admin] (follows_publish _)

theorem renamed_addAdmin (caller newAdmin : Address) :
    Renamed ρ id (addAdmin caller newAdmin)
      (addAdmin (ρ.address caller) (ρ.address newAdmin)) := by
  refine (renamed_assertMutable caller).bind fun _ => ?_
  refine renamed_loadAdmins.bind fun admins => ?_
  refine Follows.ite (ρ.mem_map_address newAdmin admins) (follows_pure id ()) ?_
  have hset := renamed_setAdmins (ρ := ρ) (admins ++ [newAdmin])
    (follows_publish ⟨(.admin, .add), [.address caller, .address newAdmin]⟩)
  rw [List.map_append] at hset
  exact hset

theorem renamed_removeAdmin (caller targetAdmin : Address) :
    Renamed ρ id (removeAdmin caller targetAdmin)
      (removeAdmin (ρ.address caller) (ρ.address targetAdmin)) := by
  refine (renamed_assertMutable caller).bind fun _ => ?_
  refine renamed_loadAdmins.bind fun admins => ?_
  refine (follows_rejectIf (by simp) _).bind fun _ => ?_
  rw [foldl_push_eq_filter, foldl_push_eq_filter, List.nil_append,
    List.nil_append, ρ.filter_map_address]
  refine renamed_setAdmins _ ((follows_publish _).bind fun _ => ?_)
  exact follows_whenever (ρ.address_inj caller targetAdmin) (follows_publish _)

theorem renamed_transferAdmin (admin newAdmin : Address) :
    Renamed ρ id (transferAdmin admin newAdmin)
      (transferAdmin (ρ.address admin) (ρ.address newAdmin)) := by
  refine (renamed_assertMutable admin).bind fun _ => ?_
  refine renamed_loadAdmins.bind fun admins => ?_
  refine (follows_rejectIf (by simp) _).bind fun _ => ?_
  exact renamed_setAdmins [newAdmin] (follows_publish _)

theorem renamed_setPaused (admin : Address) (paused : Bool) :
    Renamed ρ id (setPaused admin paused) (setPaused (ρ.address admin) paused) := by
  refine (follows_requireAuth admin).bind fun _ => ?_
  refine (renamed_assertAdmin admin).bind fun _ => ?_
  refine (follows_instanceSet (d := dictionary ρ) InstanceKey.paused paused).bind fun _ => ?_
  exact renamed_extendInstanceTtl.bind fun _ => follows_publish _

end Admins

section Watchers

theorem renamed_registerWatcher
    (admin watcher : Address) (expiresAt : Option Nat) (label : Option HostString) :
    Renamed ρ id (registerWatcher admin watcher expiresAt label)
      (registerWatcher (ρ.address admin) (ρ.address watcher)
        (expiresAt.map ρ.clock) label) := by
  refine (renamed_assertMutable admin).bind fun _ => ?_
  refine renamed_loadWatchers.bind fun watchers => ?_
  refine (follows_rejectIf Iff.rfl _).bind fun _ => ?_
  refine (follows_persistentHas (d := dictionary ρ)
    (DataKey.watcherInfo watcher)).bind fun known => ?_
  refine Follows.ite Iff.rfl (follows_pure id ()) ?_
  refine (follows_rejectIf (by simp) _).bind fun _ => ?_
  refine (renamed_setExpiry watcher expiresAt).bind fun _ => ?_
  have hset := renamed_storeWatchers (ρ := ρ) (watchers ++ [watcher])
  rw [List.map_append] at hset
  refine hset.bind fun _ => renamed_extendInstanceTtl.bind fun _ => ?_
  exact renamed_incrementWatcherCount.bind fun _ => follows_publish _

/-- The loop that takes an address off a list does not change with the names. -/
theorem withoutWatcher_map (watchers : List Address) (w : Address) :
    withoutWatcher (watchers.map ρ.address) (ρ.address w) =
      ((withoutWatcher watchers w).1,
        (withoutWatcher watchers w).2.map ρ.address) := by
  rw [withoutWatcher_eq, withoutWatcher_eq, ρ.filter_map_address]
  simp

theorem renamed_removeWatcher (admin watcher : Address) :
    Renamed ρ id (removeWatcher admin watcher)
      (removeWatcher (ρ.address admin) (ρ.address watcher)) := by
  refine (renamed_assertMutable admin).bind fun _ => ?_
  refine renamed_loadWatchers.bind fun watchers => ?_
  rw [withoutWatcher_map]
  refine (follows_rejectIf Iff.rfl _).bind fun _ => ?_
  refine (renamed_storeWatchers _).bind fun _ => ?_
  refine renamed_extendInstanceTtl.bind fun _ => follows_whenever Iff.rfl ?_
  refine (renamed_setExpiry watcher none).bind fun _ => ?_
  exact renamed_decrementWatcherCount.bind fun _ => follows_publish _

theorem renamed_replaceWatcher (admin oldWatcher newWatcher : Address) :
    Renamed ρ id (replaceWatcher admin oldWatcher newWatcher)
      (replaceWatcher (ρ.address admin) (ρ.address oldWatcher)
        (ρ.address newWatcher)) := by
  refine (renamed_assertMutable admin).bind fun _ => ?_
  refine renamed_loadWatchers.bind fun watchers => ?_
  rw [withoutWatcher_map]
  refine (follows_rejectIf Iff.rfl _).bind fun _ => ?_
  refine (renamed_setExpiry oldWatcher none).bind fun _ => ?_
  refine (renamed_removeInfo oldWatcher).bind fun _ => ?_
  refine follows_timestamp.bind fun now => ?_
  -- what comes after the two branches
  have hrest : ∀ updated : List Address, Renamed ρ id
      (do
        instanceSet .watchers updated
        extendInstanceTtl
        publish ⟨(.watcher, .remove), [.address oldWatcher]⟩
        publish ⟨(.watcher, .replace), [.address oldWatcher, .address newWatcher]⟩)
      (do
        instanceSet .watchers (updated.map ρ.address)
        extendInstanceTtl
        publish ⟨(.watcher, .remove), [.address (ρ.address oldWatcher)]⟩
        publish ⟨(.watcher, .replace),
          [.address (ρ.address oldWatcher), .address (ρ.address newWatcher)]⟩) := by
    intro updated
    refine (renamed_storeWatchers updated).bind fun _ => ?_
    refine renamed_extendInstanceTtl.bind fun _ => ?_
    exact (follows_publish _).bind fun _ => follows_publish _
  refine Follows.ite ?_ ?_ ?_
  · rw [decide_eq_true_eq, decide_eq_true_eq]
    exact ρ.mem_map_address newWatcher _
  · refine renamed_decrementWatcherCount.bind fun _ => ?_
    exact (follows_pure (List.map ρ.address) _).bind hrest
  · refine (renamed_saveInfo (replacementInfo
      { auths := [], timestamp := now, sequence := 0, peer := fun _ _ => none }
      admin newWatcher)).bind fun _ => ?_
    have hpure := follows_pure (ε := ContractError) (d := dictionary ρ)
      (List.map ρ.address) ((withoutWatcher watchers oldWatcher).2 ++ [newWatcher])
    rw [List.map_append] at hpure
    exact hpure.bind hrest

theorem renamed_announceAdded (ws : List Address) :
    Renamed ρ id (announceAdded ws) (announceAdded (ws.map ρ.address)) := by
  induction ws with
  | nil => exact follows_pure id ()
  | cons w rest ih =>
      refine renamed_incrementWatcherCount.bind fun _ => ?_
      exact (follows_publish _).bind fun _ => ih

theorem renamed_batchRegisterWatchers (admin : Address) (ws : List Address) :
    Renamed ρ id (batchRegisterWatchers admin ws)
      (batchRegisterWatchers (ρ.address admin) (ws.map ρ.address)) := by
  refine (renamed_assertMutable admin).bind fun _ => ?_
  refine (follows_rejectIf (by simp) _).bind fun _ => ?_
  refine renamed_loadWatchers.bind fun watchers => ?_
  rw [appendNew_eq, appendNew_eq, newcomers_map, ← List.map_append]
  refine (follows_rejectIf (by simp) _).bind fun _ => ?_
  refine (renamed_storeWatchers _).bind fun _ => ?_
  refine renamed_extendInstanceTtl.bind fun _ => ?_
  refine (renamed_announceAdded _).bind fun _ => ?_
  rw [List.length_map]
  exact follows_pure id _

theorem renamed_renewWatcher
    (admin watcher : Address) (newExpiry : Option Nat) :
    Renamed ρ id (renewWatcher admin watcher newExpiry)
      (renewWatcher (ρ.address admin) (ρ.address watcher)
        (newExpiry.map ρ.clock)) := by
  refine (renamed_assertMutable admin).bind fun _ => ?_
  refine renamed_loadWatchers.bind fun watchers => ?_
  refine (follows_rejectIf (not_congr (ρ.mem_map_address watcher watchers)) _).bind
    fun _ => ?_
  refine (renamed_setExpiry watcher newExpiry).bind fun _ => ?_
  exact renamed_extendInstanceTtl.bind fun _ => follows_publish _

theorem renamed_isWatcherAuthorized (watcher : Address) :
    Renamed ρ id (isWatcherAuthorized watcher)
      (isWatcherAuthorized (ρ.address watcher)) := by
  refine renamed_extendInstanceTtl.bind fun _ => ?_
  refine renamed_loadWatchers.bind fun watchers => ?_
  refine Follows.ite (not_congr (ρ.mem_map_address watcher watchers))
    (follows_pure id false) ?_
  refine renamed_loadExpiries.bind fun m => follows_timestamp.bind fun now => ?_
  have hexpiry : (ExpiryMap.rename ρ m) (ρ.address watcher) =
      (m watcher).map ρ.clock := by
    simp [ExpiryMap.rename]
  rw [hexpiry]
  cases m watcher with
  | none => exact follows_pure id true
  | some exp =>
      have hclock : (dictionary ρ).clock now ≤ ρ.clock exp ↔ now ≤ exp :=
        ρ.clock_le now exp
      simp only [Option.map_some, hclock]
      exact follows_pure id (decide (now ≤ exp))

theorem renamed_announceCleared (ws : List Address) :
    Renamed ρ id (announceCleared ws) (announceCleared (ws.map ρ.address)) := by
  induction ws with
  | nil => exact follows_pure id ()
  | cons w rest ih =>
      refine (follows_publish _).bind fun _ => ?_
      exact (renamed_removeInfo w).bind fun _ => ih

theorem renamed_clearAllWatchers (admin : Address) :
    Renamed ρ id (clearAllWatchers admin)
      (clearAllWatchers (ρ.address admin)) := by
  refine (renamed_assertMutable admin).bind fun _ => ?_
  refine renamed_loadWatchers.bind fun watchers => ?_
  refine (renamed_announceCleared watchers).bind fun _ => ?_
  refine (renamed_storeWatchers []).bind fun _ => ?_
  refine (follows_instanceRemove InstanceKey.expiries).bind fun _ => ?_
  exact renamed_extendInstanceTtl.bind fun _ =>
    follows_instanceSet (d := dictionary ρ) InstanceKey.wCnt 0

end Watchers

section Queries

theorem renamed_watcherPageFrom
    (watchers : List Address) (count i : Nat) (page : List Address) :
    Renamed ρ (List.map ρ.address) (watcherPageFrom watchers count i page)
      (watcherPageFrom (watchers.map ρ.address) count i
        (page.map ρ.address)) := by
  induction count generalizing i page with
  | zero => exact follows_pure _ page
  | succ count ih =>
      refine (follows_unwrap (f := ρ.address) ?_).bind fun w => ?_
      · exact List.getElem?_map ..
      · have hpage := ih (i + 1) (page ++ [w])
        rw [List.map_append] at hpage
        exact hpage

theorem renamed_getAdmins :
    Renamed ρ (List.map ρ.address) getAdmins getAdmins := by
  refine (follows_instanceGet (d := dictionary ρ) InstanceKey.admins).bind fun o => ?_
  exact (follows_rejectIf (by rw [isNone_rename]) _).bind fun _ => renamed_loadAdmins

theorem renamed_isAdmin (a : Address) :
    Renamed ρ id (isAdmin a) (isAdmin (ρ.address a)) := by
  refine (follows_instanceGet (d := dictionary ρ) InstanceKey.admins).bind fun o => ?_
  refine Follows.ite (by rw [isNone_rename]) (follows_pure id false) ?_
  refine renamed_loadAdmins.bind fun admins => ?_
  simp only [ρ.mem_map_address]
  exact follows_pure id _

end Queries

section EntryPoints

/-- Every entry point, called in other names, does the same in other names. -/
theorem renamed_dispatch (call : Call) :
    Renamed ρ (Response.rename ρ) (dispatch call) (dispatch (call.rename ρ)) := by
  cases call with
  | initialise admin => exact follows_done (renamed_initialise admin) rfl
  | addAdmin caller newAdmin =>
      exact follows_done (renamed_addAdmin caller newAdmin) rfl
  | removeAdmin caller targetAdmin =>
      exact follows_done (renamed_removeAdmin caller targetAdmin) rfl
  | transferAdmin admin newAdmin =>
      exact follows_done (renamed_transferAdmin admin newAdmin) rfl
  | registerWatcher admin watcher expiresAt label =>
      exact follows_done (renamed_registerWatcher admin watcher expiresAt label) rfl
  | removeWatcher admin watcher =>
      exact follows_done (renamed_removeWatcher admin watcher) rfl
  | replaceWatcher admin oldWatcher newWatcher =>
      exact follows_done (renamed_replaceWatcher admin oldWatcher newWatcher) rfl
  | batchRegisterWatchers admin watchers =>
      exact follows_respond (renamed_batchRegisterWatchers admin watchers)
        fun _ => rfl
  | renewWatcher admin watcher newExpiry =>
      exact follows_done (renamed_renewWatcher admin watcher newExpiry) rfl
  | setPaused admin paused => exact follows_done (renamed_setPaused admin paused) rfl
  | isPaused => exact follows_respond renamed_isPaused fun _ => rfl
  | isWatcherAuthorized watcher =>
      exact follows_respond (renamed_isWatcherAuthorized watcher) fun _ => rfl
  | isAuthorized watcher =>
      exact follows_respond (renamed_isWatcherAuthorized watcher) fun _ => rfl
  | clearAllWatchers admin => exact follows_done (renamed_clearAllWatchers admin) rfl
  | getWatchers => exact follows_respond renamed_loadWatchers fun _ => rfl
  | getAllWatchers => exact follows_respond renamed_loadWatchers fun _ => rfl
  | getAllWatchersPaginated offset limit =>
      refine follows_respond (renamed_loadWatchers.bind fun watchers => ?_)
        fun _ => rfl
      simp only [List.length_map]
      exact renamed_watcherPageFrom watchers _ offset []
  | getWatcherInfo watcher =>
      exact follows_respond (follows_persistentGet (d := dictionary ρ)
        (DataKey.watcherInfo watcher)) fun _ => rfl
  | getAdmins => exact follows_respond renamed_getAdmins fun _ => rfl
  | isInitialized =>
      exact follows_respond_same (follows_ofInstance (d := dictionary ρ)
        (i := InstanceKey.admins) (by rintro (_ | _) <;> rfl)) fun _ => rfl
  | isAdmin a => exact follows_respond (renamed_isAdmin a) fun _ => rfl
  | getAdmin =>
      refine follows_respond (f := ρ.address) (renamed_getAdmins.bind
        fun admins => ?_) fun _ => rfl
      exact follows_unwrap (List.getElem?_map ..)
  | getWatcherCount =>
      refine follows_respond (f := id) (renamed_getCount.bind fun count => ?_)
        fun _ => rfl
      exact follows_pure id _

end EntryPoints

section Calls

variable {s t : State}

/-- A call in other names, in a storage in other names. -/
theorem matches_invoke
    {env env' : Env} (henv : ρ.Hosts env env')
    (h : (dictionary ρ).Matches s t) (call : Call) :
    (invoke env' (call.rename ρ) t).1 =
        (invoke env call s).1.map (Response.rename ρ) ∧
      (dictionary ρ).Matches (invoke env call s).2
        (invoke env' (call.rename ρ) t).2 := by
  exact (renamed_dispatch call).transact henv h

end Calls

end WatcherRegistry
end TxWatch
