import TxWatch.AlertRegistry.Registry

/-!
# AlertRegistry: storage read as a registry

`State.view` is the registry that a storage holds.  The groups of writes that
the entry points are made of get a name here, each with the operation on
registries that it amounts to.
-/

namespace TxWatch
namespace AlertRegistry

open Soroban Indexed

/-- The registry held by a storage: an absent list reads as the empty one. -/
def State.view (s : State) : Registry where
  table :=
    { row := fun id => s.persistent.get (.alert id)
      index := fun kind a => (s.persistent.get (.index kind a)).getD [] }
  active := fun id => s.persistent.get (.alertActive id)
  inst := s.inst

/-- Ids listed for an address under an index key; none if the key is absent. -/
def State.listed (s : State) (kind : IndexKind) (a : Address) : List Nat :=
  (s.persistent.get (.index kind a)).getD []

/-- The id counter; zero before the first registration. -/
def State.counter (s : State) : Nat :=
  (s.inst .nextId).getD 0

/-- The record under an id. -/
def State.alertAt (s : State) (id : Nat) : Option AlertConfig :=
  s.persistent.get (.alert id)

/-- The records found under a list of ids. -/
def State.records (s : State) (ids : List Nat) : List AlertConfig :=
  ids.filterMap s.alertAt

/-- Every record of the registry, in the order of the ids. -/
def State.allRecords (s : State) : List AlertConfig :=
  s.records (List.range s.counter)

section SingleWrites

variable (s : State) (ledger : Nat)

theorem view_row (id : Nat) :
    s.view.table.row id = s.persistent.get (.alert id) := by
  rfl

/-- The live ids of a list are those with an entry. -/
theorem live_eq_filter (ids : List Nat) :
    s.view.table.live ids =
      ids.filter (fun id => s.persistent.has (.alert id)) := by
  simp [Table.live, view_row, Store.has_eq_isSome_get]

theorem view_index (kind : IndexKind) (a : Address) :
    s.view.table.index kind a = (s.persistent.get (.index kind a)).getD [] := by
  rfl

theorem view_records (ids : List Nat) :
    s.view.records ids = s.records ids := by
  rfl

theorem view_listed (kind : IndexKind) (a : Address) :
    s.view.table.index kind a = s.listed kind a := by
  rfl

theorem view_nextId : s.view.nextId = s.counter := by
  rfl

theorem view_active (id : Nat) :
    s.view.active id = s.persistent.get (.alertActive id) := by
  rfl

@[simp] theorem view_silenced :
    State.view s.silenced = s.view := by
  rfl

@[simp] theorem view_emit (ev : Event) :
    State.view (s.emit ev) = s.view := by
  rfl

@[simp] theorem view_extendInst (threshold extendTo : Nat) :
    State.view (s.extendInst ledger threshold extendTo) = s.view := by
  rfl

@[simp] theorem view_extend (k : DataKey) (threshold extendTo : Nat) :
    State.view (s.extend ledger k threshold extendTo) = s.view := by
  simp [State.view]

@[simp] theorem view_setInst (i : InstanceKey) (w : i.Value) :
    State.view (s.setInst i w) = s.view.configure i w := by
  rfl

@[simp] theorem view_store_alert (id : Nat) (cfg : AlertConfig) (ttl : Nat) :
    State.view (s.store ledger (.alert id) cfg ttl) =
      s.view.rewrite id cfg := by
  apply Registry.eq_of_forall
  · intro id'
    by_cases h : id' = id
    · subst h
      simp [view_row, Registry.rewrite]
    · simp [view_row, Registry.rewrite, h]
  · intro kind a
    simp [view_index, Registry.rewrite]
  · intro id'
    simp [view_active, Registry.rewrite]
  · rfl

@[simp] theorem view_store_alertActive (id : Nat) (b : Bool) (ttl : Nat) :
    State.view (s.store ledger (.alertActive id) b ttl) =
      s.view.flag id (some b) := by
  apply Registry.eq_of_forall
  · intro id'
    simp [view_row, Registry.flag]
  · intro kind a
    simp [view_index, Registry.flag]
  · intro id'
    by_cases h : id' = id
    · subst h
      simp [view_active, Registry.flag]
    · simp [view_active, Registry.flag, h]
  · rfl

/-- A state that differs from `s` in one list at most. -/
theorem view_eq_relist
    {s s' : State} {kind : IndexKind} {a : Address} {ids : List Nat}
    (hinst : s'.inst = s.inst)
    (hself : (s'.persistent.get (.index kind a)).getD [] = ids)
    (hother : ∀ k, k ≠ .index kind a →
      s'.persistent.get k = s.persistent.get k) :
    s'.view = s.view.relist kind a ids := by
  apply Registry.eq_of_forall
  · intro id
    exact hother (.alert id) (by simp)
  · intro k b
    simp only [Registry.relist, Table.index_setIndex]
    split_ifs with h
    · obtain ⟨rfl, rfl⟩ := h
      exact hself
    · have hkey : DataKey.index k b ≠ .index kind a := by
        simpa using h
      rw [view_index, view_index, hother _ hkey]
  · intro id
    exact hother (.alertActive id) (by simp)
  · exact hinst

@[simp] theorem view_store_index
    (kind : IndexKind) (a : Address) (ids : List Nat) (ttl : Nat) :
    State.view (s.store ledger (.index kind a) ids ttl) =
      s.view.relist kind a ids := by
  apply view_eq_relist
  · rfl
  · simp
  · intro k hk
    simp [hk]

@[simp] theorem view_remove_index (kind : IndexKind) (a : Address) :
    State.view (s.remove (.index kind a)) = s.view.relist kind a [] := by
  apply view_eq_relist
  · rfl
  · simp
  · intro k hk
    simp [hk]

/-- Deleting the entries of an alert and of its flag. -/
theorem view_remove_record (id : Nat) :
    State.view ((s.remove (.alert id)).remove (.alertActive id)) =
      { s.view with
        table := s.view.table.setRow id none
        active := Function.update s.view.active id none } := by
  apply Registry.eq_of_forall
  · intro id'
    by_cases h : id' = id
    · subst h
      simp [view_row]
    · simp [view_row, h]
  · intro kind a
    simp [view_index]
  · intro id'
    by_cases h : id' = id
    · subst h
      simp [view_active]
    · simp [view_active, h]
  · rfl

end SingleWrites

section Lists

variable (s : State) (ledger : Nat)

/-- Write a list, or delete its key when nothing is left. -/
def State.relist (kind : IndexKind) (a : Address) (ids : List Nat) : State :=
  if ids.isEmpty then s.remove (.index kind a)
  else s.store ledger (.index kind a) ids defaultTtl

@[simp] theorem view_relist
    (kind : IndexKind) (a : Address) (ids : List Nat) :
    State.view (s.relist ledger kind a ids) = s.view.relist kind a ids := by
  unfold State.relist
  split_ifs with h
  · rw [List.isEmpty_iff] at h
    subst h
    exact view_remove_index s kind a
  · exact view_store_index s ledger kind a ids defaultTtl

/-- Append an id to a list. -/
def State.file (kind : IndexKind) (a : Address) (id : Nat) : State :=
  s.store ledger (.index kind a) (s.view.table.index kind a ++ [id]) defaultTtl

/-- Take an id off a list. -/
def State.unfile (kind : IndexKind) (a : Address) (id : Nat) : State :=
  s.relist ledger kind a ((s.view.table.index kind a).filter (fun v => v ≠ id))

/-- The storage after the limit check of an owner. -/
def State.prunedFor (owner : Address) : State :=
  if 0 < s.view.limit ∧
      (s.view.liveOf owner).length ≠ (s.view.table.index .owner owner).length then
    s.relist ledger .owner owner (s.view.liveOf owner)
  else s

@[simp] theorem view_file (kind : IndexKind) (a : Address) (id : Nat) :
    State.view (s.file ledger kind a id) =
      { s.view with table := s.view.table.file kind a id } := by
  exact view_store_index s ledger kind a _ defaultTtl

@[simp] theorem view_unfile (kind : IndexKind) (a : Address) (id : Nat) :
    State.view (s.unfile ledger kind a id) =
      { s.view with table := s.view.table.unfile kind a id } := by
  exact view_relist s ledger kind a _

@[simp] theorem view_prunedFor (owner : Address) :
    State.view (s.prunedFor ledger owner) = s.view.prunedFor owner := by
  unfold State.prunedFor Registry.prunedFor
  by_cases hlimit : 0 < s.view.limit
  · by_cases hlen : (s.view.liveOf owner).length =
        (s.view.table.index .owner owner).length
    · -- nothing is stale, and pruning changes nothing
      have hlive : s.view.liveOf owner = s.view.table.index .owner owner :=
        List.filter_sublist.eq_of_length hlen
      simp only [hlimit, hlen, ne_eq, not_true_eq_false, and_false, if_false,
        if_true]
      apply Registry.eq_of_forall
      · intro id
        rfl
      · intro kind a
        rw [Table.prune, Table.index_setIndex]
        split_ifs with h
        · obtain ⟨rfl, rfl⟩ := h
          exact hlive.symm
        · rfl
      · intro id
        rfl
      · rfl
    · simp only [hlimit, hlen, ne_eq, not_false_eq_true, and_self, if_true,
        view_relist]
      rfl
  · simp [hlimit]

end Lists

section Records

variable (s : State) (ledger : Nat)

/-- The storage after adding an alert. -/
def State.created (cfg : AlertConfig) : State :=
  let id := s.view.nextId
  let s := (s.setInst .nextId (id + 1)).extendInst ledger defaultTtl defaultTtl
  let s := s.store ledger (.alert id) cfg defaultTtl
  let s := s.store ledger (.alertActive id) true defaultTtl
  let s := State.file s ledger .owner cfg.owner id
  let s := State.file s ledger .contract cfg.targetContract id
  s.emit ⟨(.alert, .register),
    [.u64 id, .address cfg.owner, .address cfg.targetContract]⟩

/-- The storage after adding alerts in turn. -/
def State.createdAll : List AlertConfig → State → State
  | [], s => s
  | cfg :: rest, s => State.createdAll rest (s.created ledger cfg)

/-- The storage after deleting an alert. -/
def State.erased (id : Nat) (cfg : AlertConfig) : State :=
  let s := (s.remove (.alert id)).remove (.alertActive id)
  let s := State.unfile s ledger .owner cfg.owner id
  State.unfile s ledger .contract cfg.targetContract id

/-- The storage after writing a flag, if there is one to write. -/
def State.flagged (id : Nat) (active : Option Bool) : State :=
  match active with
  | none => s
  | some b => s.store ledger (.alertActive id) b defaultTtl

/-- The storage after extending the lists that an alert is on. -/
def State.renewedLists (cfg : AlertConfig) (ttl : Nat) : State :=
  (s.extend ledger (.ownerIndex cfg.owner) ttl ttl).extend ledger
    (.contractIndex cfg.targetContract) ttl ttl

/-- The storage after extending the entries of an alert. -/
def State.renewed (id : Nat) (cfg : AlertConfig) (ttl : Nat) : State :=
  let s := s.extend ledger (.alert id) ttl ttl
  let s := s.extend ledger (.alertActive id) ttl ttl
  State.renewedLists s ledger cfg ttl

/-- The storage after `bump_alert`. -/
def State.bumped (id : Nat) (cfg : AlertConfig) (ttl : Nat) : State :=
  let s := s.renewed ledger id cfg ttl
  let s := if s.persistent.has .nextId then s.extend ledger .nextId ttl ttl else s
  s.extendInst ledger ttl ttl

/-- The storage after an owner's call wrote `cfg'` over the record `cfg`. -/
def State.amended (call : Call) (id : Nat) (cfg cfg' : AlertConfig) : State :=
  let s := s.store ledger (.alert id) cfg' defaultTtl
  let s := State.flagged s ledger id call.amendedFlag
  if call.renewsLists then State.renewedLists s ledger cfg defaultTtl else s

/-- Publish a list of events. -/
def State.announce (evs : List Event) : State :=
  { s with events := s.events ++ evs }

/-- The storage after moving an id between lists of one kind. -/
def State.moved (kind : IndexKind) (id : Nat) (a b : Address) : State :=
  State.file (s.unfile ledger kind a id) ledger kind b id

@[simp] theorem view_flagged (id : Nat) (active : Option Bool) :
    State.view (s.flagged ledger id active) = s.view.flag id active := by
  cases active with
  | none => rfl
  | some b => exact view_store_alertActive s ledger id b defaultTtl

@[simp] theorem view_renewedLists (cfg : AlertConfig) (ttl : Nat) :
    State.view (s.renewedLists ledger cfg ttl) = s.view := by
  simp [State.renewedLists]

@[simp] theorem view_renewed (id : Nat) (cfg : AlertConfig) (ttl : Nat) :
    State.view (s.renewed ledger id cfg ttl) = s.view := by
  simp [State.renewed]

@[simp] theorem view_bumped (id : Nat) (cfg : AlertConfig) (ttl : Nat) :
    State.view (s.bumped ledger id cfg ttl) = s.view := by
  simp only [State.bumped, view_extendInst]
  split_ifs <;> simp

@[simp] theorem view_amended
    (call : Call) (id : Nat) (cfg cfg' : AlertConfig) :
    State.view (s.amended ledger call id cfg cfg') =
      (s.view.rewrite id cfg').flag id call.amendedFlag := by
  simp only [State.amended]
  split_ifs <;> simp

@[simp] theorem announce_nil :
    s.announce [] = s := by
  simp [State.announce]

@[simp] theorem announce_singleton (ev : Event) :
    s.announce [ev] = s.emit ev := by
  rfl

@[simp] theorem view_announce (evs : List Event) :
    State.view (s.announce evs) = s.view := by
  rfl

@[simp] theorem view_moved (kind : IndexKind) (id : Nat) (a b : Address) :
    State.view (s.moved ledger kind id a b) =
      { s.view with table := (s.view.table.unfile kind a id).file kind b id } := by
  simp [State.moved]

/-- Filing an alert under its owner and its target lists it wherever it
belongs. -/
theorem index_file_file
    (t : AlertTable) (id : Nat) (cfg : AlertConfig)
    (kind : IndexKind) (a : Address) :
    ((t.file .owner cfg.owner id).file .contract cfg.targetContract id).index
        kind a =
      (t.insert AlertConfig.party id cfg).index kind a := by
  cases kind with
  | owner =>
      by_cases h : a = cfg.owner <;>
        simp [Table.file, Table.index_setIndex, Table.insert,
          AlertConfig.party, h]
  | contract =>
      by_cases h : a = cfg.targetContract <;>
        simp [Table.file, Table.index_setIndex, Table.insert,
          AlertConfig.party, h]

theorem index_unfile_unfile
    (t : AlertTable) (id : Nat) (cfg : AlertConfig)
    (kind : IndexKind) (a : Address) :
    ((t.unfile .owner cfg.owner id).unfile .contract cfg.targetContract id).index
        kind a =
      (t.erase AlertConfig.party id cfg).index kind a := by
  cases kind with
  | owner =>
      by_cases h : a = cfg.owner <;>
        simp [Table.unfile, Table.index_setIndex, Table.erase,
          AlertConfig.party, h]
  | contract =>
      by_cases h : a = cfg.targetContract <;>
        simp [Table.unfile, Table.index_setIndex, Table.erase,
          AlertConfig.party, h]

@[simp] theorem view_created (cfg : AlertConfig) :
    State.view (s.created ledger cfg) = s.view.create cfg := by
  simp only [State.created, view_emit, view_file, view_store_alertActive,
    view_store_alert, view_extendInst, view_setInst]
  apply Registry.eq_of_forall
  · intro id
    rfl
  · intro kind a
    exact index_file_file s.view.table s.view.nextId cfg kind a
  · intro id
    rfl
  · rfl

@[simp] theorem view_createdAll (cfgs : List AlertConfig) :
    State.view (State.createdAll ledger cfgs s) = s.view.createAll cfgs := by
  induction cfgs generalizing s with
  | nil => rfl
  | cons cfg rest ih =>
      rw [State.createdAll, ih, view_created]
      rfl

@[simp] theorem view_erased (id : Nat) (cfg : AlertConfig) :
    State.view (s.erased ledger id cfg) = s.view.erase id cfg := by
  simp only [State.erased, view_unfile, view_remove_record]
  apply Registry.eq_of_forall
  · intro id'
    rfl
  · intro kind a
    exact index_unfile_unfile s.view.table id cfg kind a
  · intro id'
    rfl
  · rfl

end Records

section Loops

variable (ledger now : Nat)

/-- One round of `deactivate_all_alerts`. -/
def State.deactivatedOne (id : Nat) (s : State) : State :=
  match s.persistent.get (.alert id) with
  | none => s
  | some cfg =>
      if cfg.active then
        (s.store ledger (.alert id)
          { cfg with active := false, updatedAt := now } defaultTtl).store
          ledger (.alertActive id) false defaultTtl
      else s

/-- The storage after `deactivate_all_alerts` went over a list of ids. -/
def State.deactivatedEach : List Nat → State → State
  | [], s => s
  | id :: rest, s =>
      State.deactivatedEach rest (State.deactivatedOne ledger now id s)

/-- The storage after `bulk_renew_ttl` went over a list of ids. -/
def State.renewedEach : List Nat → State → State
  | [], s => s
  | id :: rest, s =>
      match s.persistent.get (.alert id) with
      | none => State.renewedEach rest s
      | some cfg =>
          State.renewedEach rest
            (State.emit (s.renewed ledger id cfg defaultTtl)
              (bumpEvent defaultTtl id))

theorem view_deactivatedOne (id : Nat) (s : State) :
    State.view (State.deactivatedOne ledger now id s) =
      s.view.deactivate now [id] := by
  unfold State.deactivatedOne
  cases hget : s.persistent.get (.alert id) with
  | none =>
      symm
      apply Registry.deactivate_inactive
      intro cfg hrow
      rw [view_row, hget] at hrow
      exact absurd hrow (by simp)
  | some cfg =>
      by_cases hactive : cfg.active = true
      · simp only [hactive, if_true, view_store_alertActive, view_store_alert]
        exact (Registry.deactivate_active now hget hactive).symm
      · simp only [hactive]
        symm
        apply Registry.deactivate_inactive
        intro cfg' hrow
        rw [view_row, hget] at hrow
        obtain rfl := Option.some.inj hrow
        simpa using hactive

theorem view_deactivatedEach (ids : List Nat) (s : State) :
    State.view (State.deactivatedEach ledger now ids s) =
      s.view.deactivate now ids := by
  induction ids generalizing s with
  | nil => exact (s.view.deactivate_nil now).symm
  | cons id rest ih =>
      rw [State.deactivatedEach, ih, view_deactivatedOne,
        Registry.deactivate_cons]

theorem view_renewedEach (ids : List Nat) (s : State) :
    State.view (State.renewedEach ledger ids s) = s.view := by
  induction ids generalizing s with
  | nil => rfl
  | cons id rest ih =>
      unfold State.renewedEach
      split
      · exact ih s
      · rw [ih, view_emit, view_renewed]

end Loops

section Events

variable (s : State) (ledger : Nat)

@[simp] theorem events_announce (evs : List Event) :
    (s.announce evs).events = s.events ++ evs := by
  rfl

@[simp] theorem events_relist
    (kind : IndexKind) (a : Address) (ids : List Nat) :
    (s.relist ledger kind a ids).events = s.events := by
  unfold State.relist
  split_ifs <;> rfl

@[simp] theorem events_file (kind : IndexKind) (a : Address) (id : Nat) :
    (s.file ledger kind a id).events = s.events := by
  rfl

@[simp] theorem events_unfile (kind : IndexKind) (a : Address) (id : Nat) :
    (s.unfile ledger kind a id).events = s.events := by
  exact events_relist s ledger kind a _

@[simp] theorem events_prunedFor (owner : Address) :
    (s.prunedFor ledger owner).events = s.events := by
  unfold State.prunedFor
  split_ifs
  · exact events_relist s ledger _ _ _
  · rfl

@[simp] theorem events_flagged (id : Nat) (active : Option Bool) :
    (s.flagged ledger id active).events = s.events := by
  cases active <;> rfl

@[simp] theorem events_renewed (id : Nat) (cfg : AlertConfig) (ttl : Nat) :
    (s.renewed ledger id cfg ttl).events = s.events := by
  rfl

@[simp] theorem events_bumped (id : Nat) (cfg : AlertConfig) (ttl : Nat) :
    (s.bumped ledger id cfg ttl).events = s.events := by
  simp only [State.bumped, State.events_extendInst]
  split_ifs <;> rfl

@[simp] theorem events_amended
    (call : Call) (id : Nat) (cfg cfg' : AlertConfig) :
    (s.amended ledger call id cfg cfg').events = s.events := by
  simp only [State.amended]
  split_ifs <;> simp [State.renewedLists]

@[simp] theorem events_moved (kind : IndexKind) (id : Nat) (a b : Address) :
    (s.moved ledger kind id a b).events = s.events := by
  simp [State.moved]

@[simp] theorem events_erased (id : Nat) (cfg : AlertConfig) :
    (s.erased ledger id cfg).events = s.events := by
  simp [State.erased]

theorem events_createdAll (cfgs : List AlertConfig) :
    (State.createdAll ledger cfgs s).events =
      s.events ++ registerEvents s.view.nextId cfgs := by
  induction cfgs generalizing s with
  | nil => simp [State.createdAll, registerEvents]
  | cons cfg rest ih =>
      rw [State.createdAll, ih, view_created, Registry.nextId_create]
      simp [State.created, registerEvents]

theorem events_deactivatedEach (now : Nat) (ids : List Nat) :
    (State.deactivatedEach ledger now ids s).events = s.events := by
  induction ids generalizing s with
  | nil => rfl
  | cons id rest ih =>
      rw [State.deactivatedEach, ih]
      unfold State.deactivatedOne
      split
      · rfl
      · split_ifs <;> rfl

theorem live_cons_of_none
    {id : Nat} {ids : List Nat} (h : s.persistent.get (.alert id) = none) :
    s.view.table.live (id :: ids) = s.view.table.live ids := by
  simp [Table.live, view_row, h]

theorem live_cons_of_some
    {id : Nat} {ids : List Nat} {cfg : AlertConfig}
    (h : s.persistent.get (.alert id) = some cfg) :
    s.view.table.live (id :: ids) = id :: s.view.table.live ids := by
  simp [Table.live, view_row, h]

theorem events_renewedEach (ids : List Nat) :
    (State.renewedEach ledger ids s).events =
      s.events ++ (s.view.table.live ids).map (bumpEvent defaultTtl) := by
  induction ids generalizing s with
  | nil => simp [State.renewedEach, Table.live]
  | cons id rest ih =>
      unfold State.renewedEach
      split
      · rename_i hget
        rw [ih, live_cons_of_none s hget]
      · rename_i cfg hget
        rw [ih, live_cons_of_some s hget]
        simp

end Events

end AlertRegistry
end TxWatch
