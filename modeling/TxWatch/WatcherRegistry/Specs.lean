import TxWatch.WatcherRegistry.Roster

/-!
# WatcherRegistry: what each function does when it returns

The registry that a storage holds, how the writes of the contract act on it,
and one inversion lemma for each function of the source: exactly when it
returns, with which value and in which storage.
-/

namespace TxWatch
namespace WatcherRegistry

open Soroban Soroban.Contract

/-- The registry that a storage holds. -/
def State.view (s : State) : Registry where
  admins := s.inst .admins
  paused := (s.inst .paused).getD false
  roster :=
    { watchers := (s.inst .watchers).getD []
      expiries := (s.inst .expiries).getD (fun _ => none)
      count := (s.inst .wCnt).getD 0
      info := fun a => s.persistent.get (.watcherInfo a) }

/-- The watchers as stored. -/
def State.watchers (s : State) : List Address :=
  s.view.roster.watchers

section Views

variable (s : State)

@[simp] theorem view_admins (l : List Address) :
    State.view (s.setInst .admins l) = { s.view with admins := some l } := by
  rfl

@[simp] theorem view_paused (b : Bool) :
    State.view (s.setInst .paused b) = { s.view with paused := b } := by
  rfl

@[simp] theorem view_watchers (l : List Address) :
    State.view (s.setInst .watchers l) =
      { s.view with roster := { s.view.roster with watchers := l } } := by
  rfl

@[simp] theorem view_expiries (m : ExpiryMap) :
    State.view (s.setInst .expiries m) =
      { s.view with roster := { s.view.roster with expiries := m } } := by
  rfl

@[simp] theorem view_wCnt (n : Nat) :
    State.view (s.setInst .wCnt n) =
      { s.view with roster := { s.view.roster with count := n } } := by
  rfl

@[simp] theorem view_removeExpiries :
    State.view (s.removeInst .expiries) =
      { s.view with
        roster := { s.view.roster with expiries := fun _ => none } } := by
  rfl

@[simp] theorem view_extendInst (ledger threshold extendTo : Nat) :
    State.view (s.extendInst ledger threshold extendTo) = s.view := by
  rfl

@[simp] theorem view_emit (ev : Event) :
    State.view (s.emit ev) = s.view := by
  rfl

@[simp] theorem view_silenced :
    State.view s.silenced = s.view := by
  rfl

@[simp] theorem view_storeInfo
    (ledger : Nat) (a : Address) (info : WatcherInfo) (ttl : Nat) :
    State.view (s.store ledger (.watcherInfo a) info ttl) =
      { s.view with
        roster :=
          { s.view.roster with
            info := Function.update s.view.roster.info a (some info) } } := by
  have hinfo : (fun b => (s.persistent.store ledger (.watcherInfo a) info ttl).get
      (.watcherInfo b)) =
        Function.update s.view.roster.info a (some info) := by
    funext b
    by_cases hb : b = a
    · subst hb
      simp
    · simp [hb, State.view]
  unfold State.view
  rw [State.persistent_store, hinfo]
  rfl

@[simp] theorem view_removeInfo (a : Address) :
    State.view (s.remove (.watcherInfo a)) =
      { s.view with
        roster :=
          { s.view.roster with
            info := Function.update s.view.roster.info a none } } := by
  have hinfo : (fun b => (s.persistent.remove (.watcherInfo a)).get
      (.watcherInfo b)) = Function.update s.view.roster.info a none := by
    funext b
    by_cases hb : b = a
    · subst hb
      simp
    · simp [hb, State.view]
  unfold State.view
  rw [State.persistent_remove, hinfo]
  rfl

end Views

theorem withoutWatcher_eq (l : List Address) (w : Address) :
    withoutWatcher l w = (decide (w ∈ l), l.filter (fun a => a ≠ w)) := by
  have hloop : ∀ (found : Bool) (acc : List Address),
      l.foldl (fun acc v =>
          if v = w then (true, acc.2) else (acc.1, acc.2 ++ [v]))
        (found, acc) =
      (found || decide (w ∈ l), acc ++ l.filter (fun a => a ≠ w)) := by
    induction l with
    | nil => simp
    | cons a l ih =>
        intro found acc
        by_cases h : a = w
        · simp [ih, h]
        · have h' : w ≠ a := fun hw => h hw.symm
          simp [ih, h, h']
  simpa [withoutWatcher] using hloop false []

theorem appendNew_eq (ws stored : List Address) :
    appendNew ws stored =
      (stored ++ newcomers stored ws, newcomers stored ws) := by
  have hloop : ∀ stored added : List Address,
      ws.foldl (fun acc w =>
          if w ∈ acc.1 then acc else (acc.1 ++ [w], acc.2 ++ [w]))
        (stored, added) =
        (stored ++ newcomers stored ws, added ++ newcomers stored ws) := by
    induction ws with
    | nil => simp [newcomers]
    | cons w ws ih =>
        intro stored added
        by_cases h : w ∈ stored
        · simp [newcomers, ih, h]
        · simp [newcomers, ih, h]
  simpa [appendNew] using hloop stored []

section Helpers

variable {env : Env} {s s' : State}

@[simp] theorem returns_extendInstanceTtl (u : Unit) :
    extendInstanceTtl.Returns env s u s' ↔
      s' = s.extendInst env.sequence defaultTtl defaultTtl := by
  simp [extendInstanceTtl]

@[simp] theorem returns_saveInfo (info : WatcherInfo) (u : Unit) :
    (saveInfo info).Returns env s u s' ↔
      s' = s.store env.sequence (.watcherInfo info.address) info defaultTtl := by
  simp [saveInfo]

@[simp] theorem returns_incrementWatcherCount (u : Unit) :
    incrementWatcherCount.Returns env s u s' ↔
      s.view.roster.count < u32Max ∧
        s' = s.setInst .wCnt (s.view.roster.count + 1) := by
  have hcount : (s.inst .wCnt).getD 0 = s.view.roster.count := by
    rfl
  simp only [incrementWatcherCount, returns_bind, returns_instanceGet,
    returns_unwrap, returns_instanceSet, checkedAdd32]
  constructor
  · rintro ⟨_, _, ⟨rfl, rfl⟩, next, _, ⟨hnext, rfl⟩, rfl⟩
    rw [hcount] at hnext
    split_ifs at hnext with hle
    cases hnext
    exact ⟨by omega, rfl⟩
  · rintro ⟨hlt, rfl⟩
    refine ⟨_, _, ⟨rfl, rfl⟩, _, _, ⟨?_, rfl⟩, rfl⟩
    rw [hcount, if_pos (by omega)]

/-- The storage after `decrement_watcher_count`. -/
def State.decremented (s : State) : State :=
  if 0 < s.view.roster.count then
    s.setInst .wCnt (s.view.roster.count - 1)
  else s

@[simp] theorem returns_decrementWatcherCount (u : Unit) :
    decrementWatcherCount.Returns env s u s' ↔ s' = s.decremented := by
  have hcount : (s.inst .wCnt).getD 0 = s.view.roster.count := by
    rfl
  unfold State.decremented
  simp only [decrementWatcherCount, returns_bind, returns_instanceGet,
    returns_whenever, returns_instanceSet]
  constructor
  · rintro ⟨_, _, ⟨rfl, rfl⟩, ⟨hpos, rfl⟩ | ⟨hzero, rfl⟩⟩
    · exact (if_pos hpos).symm
    · exact (if_neg hzero).symm
  · intro hs'
    refine ⟨_, _, ⟨rfl, rfl⟩, ?_⟩
    split_ifs at hs' with hpos
    · exact Or.inl ⟨hpos, hs'⟩
    · exact Or.inr ⟨hpos, hs'⟩

@[simp] theorem view_decremented (s : State) :
    s.decremented.view =
      { s.view with
        roster := { s.view.roster with count := s.view.roster.count - 1 } } := by
  unfold State.decremented
  split_ifs with hpos
  · rfl
  · have hzero : s.view.roster.count - 1 = s.view.roster.count := by
      omega
    rw [hzero]

@[simp] theorem events_decremented (s : State) :
    s.decremented.events = s.events := by
  unfold State.decremented
  split_ifs <;> rfl

@[simp] theorem returns_assertNotPaused (u : Unit) :
    assertNotPaused.Returns env s u s' ↔
      s.view.paused = false ∧ s' = s := by
  simp [assertNotPaused, isPaused, State.view, and_comm]

@[simp] theorem returns_loadExpiries (m : ExpiryMap) :
    loadExpiries.Returns env s m s' ↔
      m = s.view.roster.expiries ∧ s' = s := by
  simp [loadExpiries, State.view, and_comm]

@[simp] theorem returns_setExpiry (w : Address) (e : Option Nat) (u : Unit) :
    (setExpiry w e).Returns env s u s' ↔
      s' = s.setInst .expiries (Function.update s.view.roster.expiries w e) := by
  simp only [setExpiry, returns_bind, returns_loadExpiries]
  constructor
  · rintro ⟨_, _, ⟨rfl, rfl⟩, h⟩
    cases e with
    | none => exact (returns_instanceSet _ _ _).mp h
    | some exp => exact (returns_instanceSet _ _ _).mp h
  · intro hs'
    refine ⟨_, _, ⟨rfl, rfl⟩, ?_⟩
    cases e with
    | none => exact (returns_instanceSet _ _ _).mpr hs'
    | some exp => exact (returns_instanceSet _ _ _).mpr hs'

@[simp] theorem returns_loadWatchers (l : List Address) :
    loadWatchers.Returns env s l s' ↔
      l = s.view.roster.watchers ∧ s' = s := by
  simp [loadWatchers, State.view, and_comm]

@[simp] theorem returns_assertAdmin (caller : Address) (u : Unit) :
    (assertAdmin caller).Returns env s u s' ↔
      s.view.IsAdmin caller ∧ s' = s := by
  have hadmins : s.inst .admins = s.view.admins := by
    rfl
  simp only [assertAdmin, loadAdmins, returns_bind, returns_instanceGet,
    returns_rejectIf, returns_pure, returns_ite, returns_fail,
    Registry.IsAdmin]
  constructor
  · rintro ⟨_, _, ⟨rfl, rfl⟩, -, _, ⟨hsome, rfl⟩, _, _,
      ⟨_, _, ⟨rfl, rfl⟩, rfl, rfl⟩, ⟨hmem, -, rfl⟩ | ⟨-, hfalse⟩⟩
    · rw [hadmins] at hsome hmem
      cases hview : s'.view.admins with
      | none => simp [hview] at hsome
      | some admins =>
          rw [hview] at hmem
          exact ⟨⟨admins, rfl, hmem⟩, rfl⟩
    · exact absurd hfalse id
  · rintro ⟨⟨admins, hview, hmem⟩, rfl⟩
    rw [← hadmins] at hview
    refine ⟨_, _, ⟨rfl, rfl⟩, (), _, ⟨?_, rfl⟩, _, _,
      ⟨_, _, ⟨rfl, rfl⟩, rfl, rfl⟩, Or.inl ⟨?_, trivial, rfl⟩⟩
    · simp [hview]
    · rw [hview]
      exact hmem

@[simp] theorem returns_loadAdmins (l : List Address) :
    loadAdmins.Returns env s l s' ↔
      l = s.view.admins.getD [] ∧ s' = s := by
  simp [loadAdmins, State.view, and_comm]

@[simp] theorem returns_assertMutable (admin : Address) (u : Unit) :
    (assertMutable admin).Returns env s u s' ↔
      s.view.Permits env admin ∧ s' = s := by
  simp only [assertMutable, returns_bind, returns_requireAuth,
    returns_assertAdmin, returns_assertNotPaused]
  constructor
  · rintro ⟨_, _, ⟨hauth, rfl⟩, _, _, ⟨hadmin, rfl⟩, hpaused, rfl⟩
    exact ⟨⟨hauth, hadmin, hpaused⟩, rfl⟩
  · rintro ⟨⟨hauth, hadmin, hpaused⟩, rfl⟩
    exact ⟨(), _, ⟨hauth, rfl⟩, (), _, ⟨hadmin, rfl⟩, hpaused, rfl⟩

end Helpers

section Admins

variable {env : Env} {s s' : State}

/-- The storage after a write of the admin set. -/
def State.withAdmins (s : State) (env : Env) (admins : List Address) : State :=
  (s.setInst .admins admins).extendInst env.sequence defaultTtl defaultTtl

@[simp] theorem view_withAdmins (admins : List Address) :
    (s.withAdmins env admins).view = { s.view with admins := some admins } := by
  rfl

@[simp] theorem events_withAdmins (admins : List Address) :
    (s.withAdmins env admins).events = s.events := by
  rfl

theorem returns_initialise (admin : Address) (u : Unit) :
    (initialise admin).Returns env s u s' ↔
      admin ∈ env.auths ∧ s.view.admins = none ∧
        s' = (s.withAdmins env [admin]).emit
          ⟨(.admin, .init), [.address admin]⟩ := by
  simp only [initialise, returns_bind, returns_requireAuth, returns_instanceGet,
    returns_rejectIf, returns_instanceSet, returns_extendInstanceTtl,
    returns_publish]
  constructor
  · rintro ⟨_, _, ⟨hauth, rfl⟩, _, _, ⟨rfl, rfl⟩, _, _, ⟨hnone, rfl⟩, _, _, rfl,
      _, _, rfl, rfl⟩
    exact ⟨hauth, Option.not_isSome_iff_eq_none.mp hnone, rfl⟩
  · rintro ⟨hauth, hnone, rfl⟩
    have hnone' : s.inst .admins = none := hnone
    exact ⟨(), _, ⟨hauth, rfl⟩, _, _, ⟨rfl, rfl⟩, (), _, ⟨by simp [hnone'], rfl⟩,
      (), _, rfl, (), _, rfl, rfl⟩

theorem returns_addAdmin (caller newAdmin : Address) (u : Unit) :
    (addAdmin caller newAdmin).Returns env s u s' ↔
      s.view.Permits env caller ∧
        ((newAdmin ∈ s.view.admins.getD [] ∧ s' = s) ∨
          (newAdmin ∉ s.view.admins.getD [] ∧
            s' = (s.withAdmins env (s.view.admins.getD [] ++ [newAdmin])).emit
              ⟨(.admin, .add), [.address caller, .address newAdmin]⟩)) := by
  simp only [addAdmin, returns_bind, returns_assertMutable, returns_loadAdmins,
    returns_ite, returns_pure, returns_instanceSet, returns_extendInstanceTtl,
    returns_publish]
  constructor
  · rintro ⟨_, _, ⟨hpermits, rfl⟩, _, _, ⟨rfl, rfl⟩, ⟨hmem, -, rfl⟩ |
      ⟨hmem, _, _, rfl, _, _, rfl, rfl⟩⟩
    · exact ⟨hpermits, Or.inl ⟨hmem, rfl⟩⟩
    · exact ⟨hpermits, Or.inr ⟨hmem, rfl⟩⟩
  · rintro ⟨hpermits, ⟨hmem, rfl⟩ | ⟨hmem, rfl⟩⟩
    · exact ⟨(), _, ⟨hpermits, rfl⟩, _, _, ⟨rfl, rfl⟩, Or.inl ⟨hmem, trivial, rfl⟩⟩
    · exact ⟨(), _, ⟨hpermits, rfl⟩, _, _, ⟨rfl, rfl⟩,
        Or.inr ⟨hmem, (), _, rfl, (), _, rfl, rfl⟩⟩

/-- The storage after `remove_admin`. -/
def State.adminRemoved (s : State) (env : Env) (caller target : Address) :
    State :=
  let removed :=
    (s.withAdmins env
      ((s.view.admins.getD []).filter (fun a => a ≠ target))).emit
      ⟨(.admin, .remove), [.address caller, .address target]⟩
  if caller = target then
    removed.emit ⟨(.admin, .selfRemove), [.address caller]⟩
  else removed

theorem view_adminRemoved (caller target : Address) :
    (s.adminRemoved env caller target).view =
      { s.view with
        admins :=
          some ((s.view.admins.getD []).filter (fun a => a ≠ target)) } := by
  unfold State.adminRemoved
  split_ifs <;> rfl

theorem events_adminRemoved (caller target : Address) :
    (s.adminRemoved env caller target).events =
      s.events ++ removeAdminEvents caller target := by
  unfold State.adminRemoved removeAdminEvents
  split_ifs <;> simp

theorem returns_removeAdmin (caller target : Address) (u : Unit) :
    (removeAdmin caller target).Returns env s u s' ↔
      s.view.Permits env caller ∧ 1 < (s.view.admins.getD []).length ∧
        s' = s.adminRemoved env caller target := by
  simp only [removeAdmin, foldl_push_eq_filter, List.nil_append, returns_bind,
    returns_assertMutable, returns_loadAdmins, returns_rejectIf, not_le,
    returns_instanceSet, returns_extendInstanceTtl, returns_publish,
    returns_whenever]
  unfold State.adminRemoved
  constructor
  · rintro ⟨_, _, ⟨hpermits, rfl⟩, _, _, ⟨rfl, rfl⟩, _, _, ⟨hlen, rfl⟩, _, _, rfl,
      _, _, rfl, _, _, rfl, ⟨heq, rfl⟩ | ⟨hne, rfl⟩⟩
    · exact ⟨hpermits, hlen, (if_pos heq).symm⟩
    · exact ⟨hpermits, hlen, (if_neg hne).symm⟩
  · rintro ⟨hpermits, hlen, hs'⟩
    refine ⟨(), _, ⟨hpermits, rfl⟩, _, _, ⟨rfl, rfl⟩, (), _, ⟨hlen, rfl⟩, (), _, rfl,
      (), _, rfl, (), _, rfl, ?_⟩
    by_cases heq : caller = target
    · exact Or.inl ⟨heq, hs'.trans (if_pos heq)⟩
    · exact Or.inr ⟨heq, hs'.trans (if_neg heq)⟩

theorem returns_transferAdmin (admin newAdmin : Address) (u : Unit) :
    (transferAdmin admin newAdmin).Returns env s u s' ↔
      s.view.Permits env admin ∧ (s.view.admins.getD []).length ≤ 1 ∧
        s' = (s.withAdmins env [newAdmin]).emit
          ⟨(.admin, .transfer), [.address admin, .address newAdmin]⟩ := by
  simp only [transferAdmin, returns_bind, returns_assertMutable,
    returns_loadAdmins, returns_rejectIf, gt_iff_lt, not_lt,
    returns_instanceSet, returns_extendInstanceTtl, returns_publish]
  constructor
  · rintro ⟨_, _, ⟨hpermits, rfl⟩, _, _, ⟨rfl, rfl⟩, _, _, ⟨hlen, rfl⟩, _, _, rfl,
      _, _, rfl, rfl⟩
    exact ⟨hpermits, hlen, rfl⟩
  · rintro ⟨hpermits, hlen, rfl⟩
    exact ⟨(), _, ⟨hpermits, rfl⟩, _, _, ⟨rfl, rfl⟩, (), _, ⟨hlen, rfl⟩, (), _, rfl,
      (), _, rfl, rfl⟩

/-- The storage after `set_paused`. -/
def State.switched (s : State) (env : Env) (admin : Address) (paused : Bool) :
    State :=
  ((s.setInst .paused paused).extendInst env.sequence defaultTtl defaultTtl).emit
    ⟨(.admin, if paused then .pause else .unpause), [.address admin]⟩

theorem returns_setPaused (admin : Address) (paused : Bool) (u : Unit) :
    (setPaused admin paused).Returns env s u s' ↔
      admin ∈ env.auths ∧ s.view.IsAdmin admin ∧
        s' = s.switched env admin paused := by
  simp only [setPaused, returns_bind, returns_requireAuth, returns_assertAdmin,
    returns_instanceSet, returns_extendInstanceTtl, returns_publish]
  constructor
  · rintro ⟨_, _, ⟨hauth, rfl⟩, _, _, ⟨hadmin, rfl⟩, _, _, rfl, _, _, rfl, rfl⟩
    exact ⟨hauth, hadmin, rfl⟩
  · rintro ⟨hauth, hadmin, rfl⟩
    exact ⟨(), _, ⟨hauth, rfl⟩, (), _, ⟨hadmin, rfl⟩, (), _, rfl, (), _, rfl, rfl⟩

end Admins

section Watchers

variable {env : Env} {s s' : State}

/-- The storage after a registration. -/
def State.registered (s : State) (env : Env) (w : Address)
    (expiresAt : Option Nat) : State :=
  let filed : State :=
    (s.setInst .expiries
      (Function.update s.view.roster.expiries w expiresAt)).setInst .watchers
      (s.view.roster.watchers ++ [w])
  let counted : State :=
    (filed.extendInst env.sequence defaultTtl defaultTtl).setInst .wCnt
      (s.view.roster.count + 1)
  counted.emit ⟨(.watcher, .register), [.address w]⟩

theorem view_registered (w : Address) (expiresAt : Option Nat) :
    (s.registered env w expiresAt).view =
      { s.view with roster := s.view.roster.register w expiresAt } := by
  rfl

theorem returns_registerWatcher
    (admin w : Address) (expiresAt : Option Nat) (label : Option HostString)
    (u : Unit) :
    (registerWatcher admin w expiresAt label).Returns env s u s' ↔
      s.view.Permits env admin ∧ LabelFits label ∧
        (((s.view.roster.info w).isSome = true ∧ s' = s) ∨
          (s.view.roster.info w = none ∧
            s.view.roster.watchers.length < maxWatchers ∧
            s.view.roster.count < u32Max ∧
            s' = s.registered env w expiresAt)) := by
  have hhas : s.persistent.has (.watcherInfo w) =
      (s.view.roster.info w).isSome := by
    exact Store.has_eq_isSome_get _ _
  simp only [registerWatcher, returns_bind, returns_assertMutable,
    returns_loadWatchers, returns_rejectIf, gt_iff_lt, not_lt, ge_iff_le,
    not_le, returns_persistentHas, returns_ite, returns_pure,
    returns_setExpiry, returns_instanceSet, returns_extendInstanceTtl,
    returns_incrementWatcherCount, returns_publish]
  constructor
  · rintro ⟨_, _, ⟨hpermits, rfl⟩, _, _, ⟨rfl, rfl⟩, _, _, ⟨hlabel, rfl⟩,
      _, _, ⟨rfl, rfl⟩, h⟩
    rw [hhas] at h
    rcases h with ⟨hinfo, -, rfl⟩ |
      ⟨hinfo, _, _, ⟨hroom, rfl⟩, _, _, rfl, _, _, rfl, _, _, rfl,
        _, _, ⟨hcount, rfl⟩, rfl⟩
    · exact ⟨hpermits, hlabel, Or.inl ⟨hinfo, rfl⟩⟩
    · refine ⟨hpermits, hlabel, Or.inr ⟨?_, hroom, hcount, rfl⟩⟩
      simpa using hinfo
  · rintro ⟨hpermits, hlabel, h⟩
    refine ⟨(), _, ⟨hpermits, rfl⟩, _, _, ⟨rfl, rfl⟩, (), _, ⟨hlabel, rfl⟩,
      _, _, ⟨rfl, rfl⟩, ?_⟩
    rw [hhas]
    rcases h with ⟨hinfo, rfl⟩ | ⟨hinfo, hroom, hcount, rfl⟩
    · exact Or.inl ⟨hinfo, trivial, rfl⟩
    · refine Or.inr ⟨by simp [hinfo], (), _, ⟨hroom, rfl⟩, (), _, rfl, (), _, rfl,
        (), _, rfl, (), _, ⟨hcount, rfl⟩, rfl⟩

/-- The storage after a removal. -/
def State.removed (s : State) (env : Env) (w : Address) : State :=
  let unlisted : State :=
    (s.setInst .watchers (s.view.roster.others w)).extendInst env.sequence
      defaultTtl defaultTtl
  let cleared : State :=
    unlisted.setInst .expiries
      (Function.update s.view.roster.expiries w none)
  cleared.decremented.emit ⟨(.watcher, .remove), [.address w]⟩

theorem view_removed (w : Address) :
    (s.removed env w).view =
      { s.view with roster := s.view.roster.remove w } := by
  unfold State.removed
  rw [view_emit, view_decremented]
  rfl

theorem events_removed (w : Address) :
    (s.removed env w).events =
      s.events ++ [⟨(.watcher, .remove), [.address w]⟩] := by
  simp [State.removed]

theorem returns_removeWatcher (admin w : Address) (u : Unit) :
    (removeWatcher admin w).Returns env s u s' ↔
      s.view.Permits env admin ∧ w ∈ s.view.roster.watchers ∧
        s' = s.removed env w := by
  simp only [removeWatcher, withoutWatcher_eq, returns_bind,
    returns_assertMutable, returns_loadWatchers, returns_rejectIf,
    returns_instanceSet, returns_extendInstanceTtl, returns_whenever,
    returns_setExpiry, returns_decrementWatcherCount, returns_publish]
  constructor
  · rintro ⟨_, _, ⟨hpermits, rfl⟩, _, _, ⟨rfl, rfl⟩, _, _, ⟨hfound, rfl⟩,
      _, _, rfl, _, _, rfl, ⟨hmem, _, _, rfl, _, _, rfl, rfl⟩ | ⟨hnone, rfl⟩⟩
    · exact ⟨hpermits, of_decide_eq_true hmem, rfl⟩
    · simp only [Bool.not_eq_true', decide_eq_false_iff_not, not_not,
        decide_eq_true_eq] at hfound hnone
      exact absurd hfound hnone
  · rintro ⟨hpermits, hmem, rfl⟩
    exact ⟨(), _, ⟨hpermits, rfl⟩, _, _, ⟨rfl, rfl⟩, (), _, ⟨by simp [hmem], rfl⟩,
      (), _, rfl, (), _, rfl, Or.inl ⟨decide_eq_true hmem, (), _, rfl, (), _, rfl, rfl⟩⟩

/-- The storage of `replace_watcher` before the list is written, and the list
to be written. -/
def State.exchanged (s : State) (env : Env) (admin old new : Address) :
    State × List Address :=
  let erased : State :=
    (s.setInst .expiries (Function.update s.view.roster.expiries old none)).remove
      (.watcherInfo old)
  if new ∈ s.view.roster.others old then
    (erased.decremented, s.view.roster.others old)
  else
    (erased.store env.sequence (.watcherInfo new)
      (replacementInfo env admin new) defaultTtl,
      s.view.roster.others old ++ [new])

/-- The storage after a replacement. -/
def State.replaced (s : State) (env : Env) (admin old new : Address) : State :=
  let listed : State :=
    ((s.exchanged env admin old new).1.setInst .watchers
      (s.exchanged env admin old new).2).extendInst env.sequence
      defaultTtl defaultTtl
  (listed.emit ⟨(.watcher, .remove), [.address old]⟩).emit
    ⟨(.watcher, .replace), [.address old, .address new]⟩

theorem view_replaced (admin old new : Address) :
    (s.replaced env admin old new).view =
      { s.view with
        roster :=
          s.view.roster.replace old new (replacementInfo env admin new) } := by
  unfold State.replaced State.exchanged Roster.replace
  rw [view_emit, view_emit, view_extendInst, view_watchers]
  split_ifs with hmem
  · rw [view_decremented, view_removeInfo, view_expiries]
  · rw [view_storeInfo, view_removeInfo, view_expiries]

theorem events_replaced (admin old new : Address) :
    (s.replaced env admin old new).events =
      s.events ++ [⟨(.watcher, .remove), [.address old]⟩,
        ⟨(.watcher, .replace), [.address old, .address new]⟩] := by
  unfold State.replaced State.exchanged
  split_ifs <;> simp

theorem returns_replaceWatcher (admin old new : Address) (u : Unit) :
    (replaceWatcher admin old new).Returns env s u s' ↔
      s.view.Permits env admin ∧ old ∈ s.view.roster.watchers ∧
        s' = s.replaced env admin old new := by
  have hothers : s.view.roster.watchers.filter (fun a => a ≠ old) =
      s.view.roster.others old := by
    rfl
  simp only [replaceWatcher, withoutWatcher_eq, returns_bind,
    returns_assertMutable, returns_loadWatchers, returns_rejectIf,
    returns_setExpiry, returns_persistentRemove, returns_timestamp,
    decide_eq_true_eq, returns_ite, returns_decrementWatcherCount,
    returns_pure, returns_saveInfo, returns_instanceSet,
    returns_extendInstanceTtl, returns_publish]
  unfold State.replaced State.exchanged
  constructor
  · rintro ⟨_, _, ⟨hpermits, rfl⟩, _, _, ⟨rfl, rfl⟩, _, _, ⟨hfound, rfl⟩,
      _, _, rfl, _, _, rfl, _, _, ⟨rfl, rfl⟩, h⟩
    refine ⟨hpermits, by simpa using hfound, ?_⟩
    rw [hothers] at h
    rcases h with
      ⟨hnew, _, _, rfl, _, _, ⟨rfl, rfl⟩, _, _, rfl, _, _, rfl, _, _, rfl, rfl⟩ |
      ⟨hnew, _, _, rfl, _, _, ⟨rfl, rfl⟩, _, _, rfl, _, _, rfl, _, _, rfl, rfl⟩
    · rw [if_pos hnew]
    · rw [if_neg hnew]
      rfl
  · rintro ⟨hpermits, hmem, hs'⟩
    refine ⟨(), _, ⟨hpermits, rfl⟩, _, _, ⟨rfl, rfl⟩, (), _, ⟨by simp [hmem], rfl⟩,
      (), _, rfl, (), _, rfl, _, _, ⟨rfl, rfl⟩, ?_⟩
    rw [hothers]
    split_ifs at hs' with hnew
    · exact Or.inl ⟨hnew, (), _, rfl, _, _, ⟨rfl, rfl⟩, (), _, rfl, (), _, rfl,
        (), _, rfl, hs'⟩
    · exact Or.inr ⟨hnew, (), _, rfl, _, _, ⟨rfl, rfl⟩, (), _, rfl, (), _, rfl,
        (), _, rfl, hs'⟩

/-- The storage after the registrations of a batch have been counted and
announced. -/
def State.announced (s : State) : List Address → State
  | [] => s
  | w :: rest =>
      let counted : State := s.setInst .wCnt (s.view.roster.count + 1)
      State.announced
        (counted.emit ⟨(.watcher, .register), [.address w]⟩) rest

theorem view_announced (added : List Address) :
    (s.announced added).view =
      { s.view with
        roster :=
          { s.view.roster with
            count := s.view.roster.count + added.length } } := by
  induction added generalizing s with
  | nil => rfl
  | cons w rest ih =>
      rw [State.announced, ih, view_emit, view_wCnt, List.length_cons]
      simp only
      rw [Nat.add_assoc, Nat.add_comm 1]

theorem events_announced (added : List Address) :
    (s.announced added).events =
      s.events ++
        added.map (fun w => ⟨(.watcher, .register), [.address w]⟩) := by
  induction added generalizing s with
  | nil => simp [State.announced]
  | cons w rest ih =>
      rw [State.announced, ih]
      simp

theorem returns_announceAdded (added : List Address) (u : Unit) :
    (announceAdded added).Returns env s u s' ↔
      (added ≠ [] → s.view.roster.count + added.length ≤ u32Max) ∧
        s' = s.announced added := by
  induction added generalizing s with
  | nil => simp [announceAdded, State.announced]
  | cons w rest ih =>
      simp only [announceAdded, returns_bind, returns_incrementWatcherCount,
        returns_publish, State.announced, List.length_cons]
      constructor
      · rintro ⟨_, _, ⟨hcount, rfl⟩, _, _, rfl, h⟩
        obtain ⟨hrest, rfl⟩ := ih.mp h
        refine ⟨fun _ => ?_, rfl⟩
        rw [view_emit, view_wCnt] at hrest
        cases rest with
        | nil => exact hcount
        | cons v rest =>
            have hsum := hrest (List.cons_ne_nil v rest)
            simp only [List.length_cons] at hsum ⊢
            omega
      · rintro ⟨hsum, rfl⟩
        have hle := hsum (List.cons_ne_nil w rest)
        refine ⟨(), _, ⟨by omega, rfl⟩, (), _, rfl, ih.mpr ⟨fun _ => ?_, rfl⟩⟩
        rw [view_emit, view_wCnt]
        simp only
        omega

/-- The storage after a batch registration. -/
def State.enrolled (s : State) (env : Env) (ws : List Address) : State :=
  let listed : State :=
    s.setInst .watchers (s.view.roster.registerAll ws).watchers
  State.announced (listed.extendInst env.sequence defaultTtl defaultTtl)
    (newcomers s.view.roster.watchers ws)

theorem view_enrolled (ws : List Address) :
    (s.enrolled env ws).view =
      { s.view with roster := s.view.roster.registerAll ws } := by
  unfold State.enrolled
  rw [view_announced]
  rfl

theorem events_enrolled (ws : List Address) :
    (s.enrolled env ws).events =
      s.events ++ (newcomers s.view.roster.watchers ws).map
        (fun w => ⟨(.watcher, .register), [.address w]⟩) := by
  unfold State.enrolled
  rw [events_announced]
  rfl

theorem returns_batchRegisterWatchers
    (admin : Address) (ws : List Address) (n : Nat) :
    (batchRegisterWatchers admin ws).Returns env s n s' ↔
      s.view.Permits env admin ∧ ws.length ≤ maxBatchSize ∧
        (s.view.roster.registerAll ws).watchers.length ≤ maxWatchers ∧
        (newcomers s.view.roster.watchers ws ≠ [] →
          (s.view.roster.registerAll ws).count ≤ u32Max) ∧
        n = (newcomers s.view.roster.watchers ws).length ∧
        s' = s.enrolled env ws := by
  simp only [batchRegisterWatchers, returns_bind, returns_assertMutable,
    returns_rejectIf, gt_iff_lt, not_lt, returns_loadWatchers, appendNew_eq,
    returns_instanceSet, returns_extendInstanceTtl, returns_announceAdded,
    returns_pure]
  constructor
  · rintro ⟨_, _, ⟨hpermits, rfl⟩, _, _, ⟨hsize, rfl⟩, _, _, ⟨rfl, rfl⟩,
      _, _, ⟨hroom, rfl⟩, _, _, rfl, _, _, rfl, _, _, ⟨hcount, rfl⟩, rfl, rfl⟩
    exact ⟨hpermits, hsize, hroom, hcount, rfl, rfl⟩
  · rintro ⟨hpermits, hsize, hroom, hcount, rfl, rfl⟩
    exact ⟨(), _, ⟨hpermits, rfl⟩, (), _, ⟨hsize, rfl⟩, _, _, ⟨rfl, rfl⟩,
      (), _, ⟨hroom, rfl⟩, (), _, rfl, (), _, rfl, (), _, ⟨hcount, rfl⟩, rfl, rfl⟩

/-- The storage after a renewal. -/
def State.renewed (s : State) (env : Env) (w : Address)
    (newExpiry : Option Nat) : State :=
  let dated : State :=
    s.setInst .expiries (Function.update s.view.roster.expiries w newExpiry)
  (dated.extendInst env.sequence defaultTtl defaultTtl).emit
    ⟨(.watcher, .renew), [.address w, .optU64 newExpiry]⟩

theorem returns_renewWatcher
    (admin w : Address) (newExpiry : Option Nat) (u : Unit) :
    (renewWatcher admin w newExpiry).Returns env s u s' ↔
      s.view.Permits env admin ∧ w ∈ s.view.roster.watchers ∧
        s' = s.renewed env w newExpiry := by
  simp only [renewWatcher, returns_bind, returns_assertMutable,
    returns_loadWatchers, returns_rejectIf, not_not, returns_setExpiry,
    returns_extendInstanceTtl, returns_publish]
  constructor
  · rintro ⟨_, _, ⟨hpermits, rfl⟩, _, _, ⟨rfl, rfl⟩, _, _, ⟨hmem, rfl⟩,
      _, _, rfl, _, _, rfl, rfl⟩
    exact ⟨hpermits, hmem, rfl⟩
  · rintro ⟨hpermits, hmem, rfl⟩
    exact ⟨(), _, ⟨hpermits, rfl⟩, _, _, ⟨rfl, rfl⟩, (), _, ⟨hmem, rfl⟩,
      (), _, rfl, (), _, rfl, rfl⟩

/-- The storage after the loop of `clear_all_watchers`. -/
def State.dismissed (s : State) : List Address → State
  | [] => s
  | w :: rest =>
      State.dismissed
        ((s.emit ⟨(.watcher, .remove), [.address w]⟩).remove (.watcherInfo w))
        rest

theorem view_dismissed (l : List Address) :
    (s.dismissed l).view =
      { s.view with
        roster :=
          { s.view.roster with
            info := fun w =>
              if w ∈ l then none else s.view.roster.info w } } := by
  induction l generalizing s with
  | nil => rfl
  | cons v rest ih =>
      rw [State.dismissed, ih, view_removeInfo, view_emit]
      simp only
      congr 2
      funext w
      by_cases hw : w = v
      · subst hw
        simp
      · simp [hw]

theorem events_dismissed (l : List Address) :
    (s.dismissed l).events =
      s.events ++ l.map (fun w => ⟨(.watcher, .remove), [.address w]⟩) := by
  induction l generalizing s with
  | nil => simp [State.dismissed]
  | cons v rest ih =>
      rw [State.dismissed, ih]
      simp

theorem returns_announceCleared (l : List Address) (u : Unit) :
    (announceCleared l).Returns env s u s' ↔ s' = s.dismissed l := by
  induction l generalizing s with
  | nil => simp [announceCleared, State.dismissed]
  | cons v rest ih =>
      simp [announceCleared, State.dismissed, ih]

/-- The storage after `clear_all_watchers`. -/
def State.emptied (s : State) (env : Env) : State :=
  let unlisted : State :=
    (s.dismissed s.view.roster.watchers).setInst .watchers []
  State.setInst
    ((unlisted.removeInst .expiries).extendInst env.sequence
      defaultTtl defaultTtl) .wCnt 0

theorem view_emptied :
    (s.emptied env).view = { s.view with roster := s.view.roster.clear } := by
  unfold State.emptied
  rw [view_wCnt, view_extendInst, view_removeExpiries, view_watchers,
    view_dismissed]
  rfl

theorem events_emptied :
    (s.emptied env).events =
      s.events ++ s.view.roster.watchers.map
        (fun w => ⟨(.watcher, .remove), [.address w]⟩) := by
  exact events_dismissed _

theorem returns_clearAllWatchers (admin : Address) (u : Unit) :
    (clearAllWatchers admin).Returns env s u s' ↔
      s.view.Permits env admin ∧ s' = s.emptied env := by
  simp only [clearAllWatchers, returns_bind, returns_assertMutable,
    returns_loadWatchers, returns_announceCleared, returns_instanceSet,
    returns_instanceRemove, returns_extendInstanceTtl]
  constructor
  · rintro ⟨_, _, ⟨hpermits, rfl⟩, _, _, ⟨rfl, rfl⟩, _, _, rfl, _, _, rfl,
      _, _, rfl, _, _, rfl, rfl⟩
    exact ⟨hpermits, rfl⟩
  · rintro ⟨hpermits, rfl⟩
    exact ⟨(), _, ⟨hpermits, rfl⟩, _, _, ⟨rfl, rfl⟩, (), _, rfl, (), _, rfl,
      (), _, rfl, (), _, rfl, rfl⟩

end Watchers

end WatcherRegistry
end TxWatch
