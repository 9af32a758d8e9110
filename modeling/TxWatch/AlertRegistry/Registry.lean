import TxWatch.AlertRegistry.System
import TxWatch.Indexed.Table

/-!
# The registry as an abstract machine

What the contract is for, without lifetimes, storage keys or host calls: a
table of alerts with an index by owner and one by watched contract, a flag for
each alert, and the instance entries.

`Registry.Step` says everything that a call which succeeds may do: who may make
it, on what data, what it changes, what it answers and which events it
publishes.  Entry points that differ only in the fields they rewrite share one
rule.
-/

namespace TxWatch
namespace AlertRegistry

open Soroban Indexed

/-- Alerts under their ids, listed by owner and by watched contract. -/
abbrev AlertTable : Type :=
  Table Nat IndexKind Address AlertConfig

/-- The data of the registry. -/
structure Registry where
  table : AlertTable
  active : Nat → Option Bool
  inst : (i : InstanceKey) → Option i.Value

namespace Registry

/-- Registries that read alike are equal. -/
theorem eq_of_forall
    {r r' : Registry}
    (hrow : ∀ id, r.table.row id = r'.table.row id)
    (hindex : ∀ kind a, r.table.index kind a = r'.table.index kind a)
    (hactive : ∀ id, r.active id = r'.active id)
    (hinst : r.inst = r'.inst) :
    r = r' := by
  obtain ⟨⟨row, index⟩, active, inst⟩ := r
  obtain ⟨⟨row', index'⟩, active', inst'⟩ := r'
  obtain rfl := funext hrow
  obtain rfl := funext (fun kind => funext (hindex kind))
  obtain rfl := funext hactive
  obtain rfl : inst = inst' := hinst
  rfl

/-- Next id to be issued. -/
def nextId (r : Registry) : Nat :=
  (r.inst .nextId).getD 0

/-- Largest number of alerts of one owner; `0` is no limit. -/
def limit (r : Registry) : Nat :=
  (r.inst .limit).getD 0

/-- Whether the contract is paused. -/
def paused (r : Registry) : Bool :=
  (r.inst .paused).getD false

/-- The admin set, once there is one. -/
def admins (r : Registry) : Option (List Address) :=
  (r.inst .admin).bind AdminEntry.toVec

/-- Membership of the admin set. -/
def IsAdmin (r : Registry) (a : Address) : Prop :=
  ∃ admins, r.admins = some admins ∧ a ∈ admins

/-- Live ids listed under an owner. -/
def liveOf (r : Registry) (owner : Address) : List Nat :=
  r.table.live (r.table.index .owner owner)

/-- `additional` more alerts of an owner are under the limit. -/
def Fits (r : Registry) (owner : Address) (additional : Nat) : Prop :=
  0 < r.limit → saturatingAdd32 (r.liveOf owner).length additional ≤ r.limit

instance (r : Registry) (owner : Address) (additional : Nat) :
    Decidable (r.Fits owner additional) :=
  inferInstanceAs (Decidable (_ → _))

/-- Replace the list of an address in the index of a kind. -/
def relist (r : Registry) (kind : IndexKind) (a : Address)
    (ids : List Nat) : Registry :=
  { r with table := r.table.setIndex kind a ids }

/-- Write an instance entry. -/
def configure (r : Registry) (i : InstanceKey) (w : i.Value) : Registry :=
  { r with inst := Function.update r.inst i (some w) }

/-- Replace the record of an alert. -/
def rewrite (r : Registry) (id : Nat) (cfg : AlertConfig) : Registry :=
  { r with table := r.table.setRow id (some cfg) }

/-- Write the flag of an alert, if there is one to write. -/
def flag (r : Registry) (id : Nat) (active : Option Bool) : Registry :=
  match active with
  | none => r
  | some b => { r with active := Function.update r.active id (some b) }

/-- Add an alert under the next id. -/
def create (r : Registry) (cfg : AlertConfig) : Registry where
  table := r.table.insert AlertConfig.party r.nextId cfg
  active := Function.update r.active r.nextId (some true)
  inst := Function.update r.inst .nextId (some (r.nextId + 1))

/-- Add alerts under the next ids in turn. -/
def createAll (r : Registry) : List AlertConfig → Registry
  | [] => r
  | cfg :: rest => (r.create cfg).createAll rest

/-- Delete an alert. -/
def erase (r : Registry) (id : Nat) (cfg : AlertConfig) : Registry where
  table := r.table.erase AlertConfig.party id cfg
  active := Function.update r.active id none
  inst := r.inst

/-- What the limit check leaves: stale ids are dropped when there is a limit. -/
def prunedFor (r : Registry) (owner : Address) : Registry :=
  if 0 < r.limit then { r with table := r.table.prune .owner owner } else r

/-- Move an alert to another party in the index of one kind. -/
def move (r : Registry) (kind : IndexKind) (id : Nat) (a b : Address)
    (cfg : AlertConfig) : Registry :=
  { r with table := r.table.move kind id a b cfg }

@[simp] theorem table_configure (r : Registry) (i : InstanceKey) (w : i.Value) :
    (r.configure i w).table = r.table := by
  rfl

@[simp] theorem row_rewrite (r : Registry) (id : Nat) (cfg : AlertConfig) :
    (r.rewrite id cfg).table.row = Function.update r.table.row id (some cfg) := by
  rfl

@[simp] theorem index_rewrite (r : Registry) (id : Nat) (cfg : AlertConfig) :
    (r.rewrite id cfg).table.index = r.table.index := by
  rfl

@[simp] theorem active_rewrite (r : Registry) (id : Nat) (cfg : AlertConfig) :
    (r.rewrite id cfg).active = r.active := by
  rfl

@[simp] theorem inst_rewrite (r : Registry) (id : Nat) (cfg : AlertConfig) :
    (r.rewrite id cfg).inst = r.inst := by
  rfl

@[simp] theorem table_flag (r : Registry) (id : Nat) (active : Option Bool) :
    (r.flag id active).table = r.table := by
  cases active <;> rfl

theorem row_rewrite_flag
    (r : Registry) (id id' : Nat) (cfg : AlertConfig) (active : Option Bool) :
    ((r.rewrite id cfg).flag id' active).table.row =
      Function.update r.table.row id (some cfg) := by
  rw [table_flag, row_rewrite]

@[simp] theorem inst_flag (r : Registry) (id : Nat) (active : Option Bool) :
    (r.flag id active).inst = r.inst := by
  cases active <;> rfl

@[simp] theorem inst_prunedFor (r : Registry) (owner : Address) :
    (r.prunedFor owner).inst = r.inst := by
  unfold prunedFor
  split_ifs <;> rfl

@[simp] theorem active_prunedFor (r : Registry) (owner : Address) :
    (r.prunedFor owner).active = r.active := by
  unfold prunedFor
  split_ifs <;> rfl

@[simp] theorem nextId_prunedFor (r : Registry) (owner : Address) :
    (r.prunedFor owner).nextId = r.nextId := by
  simp [nextId]

@[simp] theorem nextId_create (r : Registry) (cfg : AlertConfig) :
    (r.create cfg).nextId = r.nextId + 1 := by
  simp [nextId, create]

@[simp] theorem row_prunedFor (r : Registry) (owner : Address) :
    (r.prunedFor owner).table.row = r.table.row := by
  unfold prunedFor
  split_ifs <;> rfl

@[simp] theorem row_create (r : Registry) (cfg : AlertConfig) :
    (r.create cfg).table.row =
      Function.update r.table.row r.nextId (some cfg) := by
  rfl

@[simp] theorem row_erase (r : Registry) (id : Nat) (cfg : AlertConfig) :
    (r.erase id cfg).table.row = Function.update r.table.row id none := by
  rfl

@[simp] theorem row_move
    (r : Registry) (kind : IndexKind) (id : Nat) (a b : Address)
    (cfg : AlertConfig) :
    (r.move kind id a b cfg).table.row =
      Function.update r.table.row id (some cfg) := by
  rfl

/-- Pruning the list of the new owner first changes no record. -/
theorem row_reown
    (r : Registry) (id : Nat) (owner newOwner : Address) (cfg : AlertConfig) :
    ((r.prunedFor newOwner).move .owner id owner newOwner cfg).table.row =
      Function.update r.table.row id (some cfg) := by
  rw [row_move, row_prunedFor]

end Registry

/-- The record with `active` unset, if it was set. -/
def AlertConfig.deactivated (cfg : AlertConfig) (now : Nat) : AlertConfig :=
  if cfg.active then { cfg with active := false, updatedAt := now } else cfg

/-- Deactivate the alerts of a list of ids. -/
def Registry.deactivate (r : Registry) (now : Nat) (ids : List Nat) :
    Registry where
  table :=
    { r.table with
      row := fun id =>
        if id ∈ ids then (r.table.row id).map (fun cfg => cfg.deactivated now)
        else r.table.row id }
  active := fun id =>
    if id ∈ ids ∧ (r.table.row id).any (fun cfg => cfg.active) then some false
    else r.active id
  inst := r.inst

/-- There is an active alert under the id. -/
def Registry.isActive (r : Registry) (id : Nat) : Bool :=
  (r.table.row id).any AlertConfig.active

/-- The ids of a list that have an active alert, each of them once. -/
def Registry.activeAmong (r : Registry) (ids : List Nat) : Finset Nat :=
  ids.toFinset.filter (fun id => r.isActive id)

section Deactivation

variable (now : Nat)

theorem AlertConfig.deactivated_deactivated (cfg : AlertConfig) :
    (cfg.deactivated now).deactivated now = cfg.deactivated now := by
  unfold AlertConfig.deactivated
  split_ifs <;> simp_all

theorem AlertConfig.active_deactivated (cfg : AlertConfig) :
    (cfg.deactivated now).active = false := by
  unfold AlertConfig.deactivated
  split_ifs with h
  · rfl
  · simpa using h

namespace Registry

theorem deactivate_nil (r : Registry) :
    r.deactivate now [] = r := by
  simp [Registry.deactivate]

theorem deactivate_cons (r : Registry) (id : Nat) (ids : List Nat) :
    (r.deactivate now [id]).deactivate now ids = r.deactivate now (id :: ids) := by
  apply Registry.eq_of_forall
  · intro id'
    by_cases h : id' = id
    · subst h
      cases hrow : r.table.row id' <;>
        simp [Registry.deactivate, hrow, AlertConfig.deactivated_deactivated]
    · simp [Registry.deactivate, h]
  · intro kind a
    rfl
  · intro id'
    by_cases h : id' = id
    · subst h
      cases hrow : r.table.row id' <;>
        simp [Registry.deactivate, hrow, AlertConfig.active_deactivated]
    · simp [Registry.deactivate, h]
  · rfl

/-- Deactivating an id without an active alert changes nothing. -/
theorem deactivate_inactive
    {r : Registry} {id : Nat}
    (h : ∀ cfg, r.table.row id = some cfg → cfg.active = false) :
    r.deactivate now [id] = r := by
  apply Registry.eq_of_forall
  · intro id'
    by_cases he : id' = id
    · subst he
      cases hrow : r.table.row id' with
      | none => simp [Registry.deactivate, hrow]
      | some cfg =>
          simp [Registry.deactivate, hrow, AlertConfig.deactivated, h cfg hrow]
    · simp [Registry.deactivate, he]
  · intro kind a
    rfl
  · intro id'
    by_cases he : id' = id
    · subst he
      cases hrow : r.table.row id' with
      | none => simp [Registry.deactivate, hrow]
      | some cfg => simp [Registry.deactivate, hrow, h cfg hrow]
    · simp [Registry.deactivate, he]
  · rfl

theorem deactivate_active
    {r : Registry} {id : Nat} {cfg : AlertConfig}
    (hrow : r.table.row id = some cfg) (hactive : cfg.active = true) :
    r.deactivate now [id] =
      (r.rewrite id { cfg with active := false, updatedAt := now }).flag id
        (some false) := by
  apply Registry.eq_of_forall
  · intro id'
    by_cases he : id' = id
    · subst he
      simp [Registry.deactivate, Registry.flag, Registry.rewrite, hrow,
        AlertConfig.deactivated, hactive]
    · simp [Registry.deactivate, Registry.flag, Registry.rewrite, he]
  · intro kind a
    rfl
  · intro id'
    by_cases he : id' = id
    · subst he
      simp [Registry.deactivate, Registry.flag, hrow, hactive]
    · simp [Registry.deactivate, Registry.flag, Registry.rewrite, he]
  · rfl

theorem isActive_deactivate (r : Registry) (ids : List Nat) (id : Nat) :
    (r.deactivate now ids).isActive id = true ↔
      r.isActive id = true ∧ id ∉ ids := by
  by_cases hid : id ∈ ids
  · cases hrow : r.table.row id <;>
      simp [isActive, Registry.deactivate, hid, hrow,
        AlertConfig.active_deactivated]
  · simp [isActive, Registry.deactivate, hid]

theorem activeAmong_cons_of_inactive
    {r : Registry} {id : Nat} (ids : List Nat) (h : r.isActive id = false) :
    r.activeAmong (id :: ids) = r.activeAmong ids := by
  simp [activeAmong, Finset.filter_insert, h]

/-- Once the first of the active alerts has been deactivated, one less is left. -/
theorem card_activeAmong_cons
    {r : Registry} {id : Nat} (ids : List Nat) (h : r.isActive id = true) :
    (r.activeAmong (id :: ids)).card =
      ((r.deactivate now [id]).activeAmong ids).card + 1 := by
  have hrest : (r.deactivate now [id]).activeAmong ids =
      (r.activeAmong (id :: ids)).erase id := by
    ext id'
    simp only [activeAmong, Finset.mem_filter, Finset.mem_erase, List.mem_toFinset,
      List.mem_cons, isActive_deactivate, List.not_mem_nil, or_false]
    tauto
  have hmem : id ∈ r.activeAmong (id :: ids) := by
    simp [activeAmong, h]
  rw [hrest, Finset.card_erase_add_one hmem]

theorem card_activeAmong_of_nodup
    (r : Registry) {ids : List Nat} (h : ids.Nodup) :
    (r.activeAmong ids).card = (ids.filter r.isActive).length := by
  rw [← List.toFinset_card_of_nodup (h.filter _), List.toFinset_filter]
  rfl

end Registry

end Deactivation

namespace Call

/-- Entry points that only read. -/
def isQuery : Call → Bool
  | .getAdmin | .getAdmins | .isPaused | .getPerOwnerAlertLimit
  | .getWatcherRegistry | .getAlertsForContract _ _
  | .getAlertIdsForContract _ | .getAlertIdsByOwner _
  | .getActiveAlertsForContract _ | .getActiveAlertsPaginated _ _ _
  | .getAlertsByOwner _ _ | .getContractAlertsPaginated _ _ _ _
  | .getAlertsByOwnerPaginated _ _ _ _ | .getAlert _ | .getAlertActive _
  | .getAlertsModifiedSince _ | .getAlertsUpdatedSince _ _ _ _
  | .getAlertCount | .getActiveAlertCount _ => true
  | _ => false

/-- The querier whom a gated query names. -/
def querier : Call → Option Address
  | .getAlertsForContract querier _ => some querier
  | .getAlertsByOwner querier _ => some querier
  | .getContractAlertsPaginated querier _ _ _ => some querier
  | .getAlertsByOwnerPaginated querier _ _ _ => some querier
  | _ => none

/-- Entry points that return alert configs for a contract or an owner. -/
def readsAlerts : Call → Bool
  | .getAlertsForContract _ _ | .getContractAlertsPaginated _ _ _ _
  | .getAlertsByOwner _ _ | .getAlertsByOwnerPaginated _ _ _ _
  | .getActiveAlertsForContract _ | .getActiveAlertsPaginated _ _ _
  | .getAlertsUpdatedSince _ _ _ _ | .getAlertsModifiedSince _ => true
  | _ => false

/-- Entry points that ask whether the contract is paused. -/
def asksPaused : Call → Bool
  | .registerAlert _ _ _ _ _ _ | .batchRegisterAlerts _ _
  | .updateAlert _ _ _ _ | .updateWebhook _ _ _ | .updateLabel _ _ _
  | .removeAlert _ _ | .removeAlertByAdmin _ _ | .bumpAlert _ _
  | .deactivateAllAlerts _ | .updateTargetContract _ _ _
  | .updateTags _ _ _ | .transferAlertOwnership _ _ _ => true
  | _ => false

/-- The checks on the arguments alone. -/
def Checked : Call → Prop
  | .registerAlert _ _ label webhookHash rules tags =>
      webhookHash.len = 64 ∧ validateLabel label = .ok () ∧
        validateRules rules = .ok () ∧ validateTags tags = .ok ()
  | .batchRegisterAlerts _ inputs =>
      inputs.length ≤ maxBatchSize ∧ validateInputs inputs = .ok ()
  | .updateAlert _ _ rules _ => validateRules rules = .ok ()
  | .updateWebhook _ _ webhookHash => webhookHash.len = 64
  | .updateLabel _ _ label => validateLabel label = .ok ()
  | .updateTags _ _ tags => validateTags tags = .ok ()
  | _ => True

/-- The admin in whose name a call configures the contract. -/
def administers : Call → Option Address
  | .transferAdmin admin _ | .addAdmin admin _ | .removeAdmin admin _
  | .setPerOwnerAlertLimit admin _ | .setPaused admin _
  | .setWatcherRegistry admin _ => some admin
  | _ => none

/-- The instance entry a configuration call writes, given the admin set. -/
def setting (admins : List Address) :
    Call → Option ((i : InstanceKey) × i.Value)
  | .transferAdmin _ newAdmin => some ⟨.admin, .vec [newAdmin]⟩
  | .addAdmin _ newAdmin => some ⟨.admin, .vec (admins ++ [newAdmin])⟩
  | .removeAdmin _ targetAdmin =>
      some ⟨.admin, .vec (admins.filter (fun a => a ≠ targetAdmin))⟩
  | .setPerOwnerAlertLimit _ limit => some ⟨.limit, limit⟩
  | .setPaused _ paused => some ⟨.paused, paused⟩
  | .setWatcherRegistry _ watcherRegistry => some ⟨.watchreg, watcherRegistry⟩
  | _ => none

/-- The checks of a configuration call against the admin set. -/
def Permitted (admins : List Address) : Call → Prop
  | .addAdmin _ newAdmin => newAdmin ∉ admins
  | .removeAdmin _ targetAdmin =>
      targetAdmin ∈ admins ∧ 1 < admins.length
  | _ => True

/-- Events of a configuration call. -/
def adminEvents : Call → List Event
  | .transferAdmin admin newAdmin =>
      [⟨(.admin, .transfer), [.address admin, .address newAdmin]⟩]
  | .addAdmin caller newAdmin =>
      [⟨(.admin, .add), [.address caller, .address newAdmin]⟩]
  | .removeAdmin caller targetAdmin =>
      [⟨(.admin, .remove), [.address caller, .address targetAdmin]⟩]
  | .setPerOwnerAlertLimit admin limit =>
      [⟨(.admin, .limit), [.address admin, .u32 limit]⟩]
  | .setPaused admin paused =>
      [⟨(.admin, if paused then .pause else .unpause), [.address admin]⟩]
  | _ => []

/-- The owner and the records of a registration. -/
def enrols (now : Nat) : Call → Option (Address × List AlertConfig)
  | .registerAlert owner targetContract label webhookHash rules tags =>
      some (owner, [{
        label, webhookHash, rules, owner, targetContract
        createdAt := now
        updatedAt := now
        active := true
        pendingWebhookHash := none
        tags }])
  | .batchRegisterAlerts caller inputs =>
      some (caller, inputs.map (fun input => input.toConfig caller now))
  | _ => none

/-- Ids issued to a registration, as it answers them. -/
def receipt (first count : Nat) : Call → Response
  | .registerAlert _ _ _ _ _ _ => .number first
  | _ => .numbers (List.range' first count)

/-- The claimed owner and the alert of a call that rewrites part of a record. -/
def amends : Call → Option (Address × Nat)
  | .updateAlert caller configId _ _ | .updateWebhook caller configId _
  | .proposeWebhook caller configId _ | .confirmWebhook caller configId
  | .updateLabel caller configId _ | .updateTags caller configId _ =>
      some (caller, configId)
  | _ => none

/-- The record that such a call writes over `cfg`. -/
def amended (now : Nat) (cfg : AlertConfig) : Call → Option AlertConfig
  | .updateAlert _ _ rules active =>
      some { cfg with rules := rules, active := active, updatedAt := now }
  | .updateWebhook _ _ webhookHash =>
      some { cfg with webhookHash := webhookHash, updatedAt := now }
  | .proposeWebhook _ _ newWebhookHash =>
      some { cfg with
        pendingWebhookHash := some newWebhookHash, updatedAt := now }
  | .confirmWebhook _ _ =>
      cfg.pendingWebhookHash.map (fun pending =>
        { cfg with
          pendingWebhookHash := none, webhookHash := pending, updatedAt := now })
  | .updateLabel _ _ label =>
      some { cfg with label := label, updatedAt := now }
  | .updateTags _ _ tags =>
      some { cfg with tags := tags, updatedAt := now }
  | _ => none

/-- The flag that such a call writes. -/
def amendedFlag : Call → Option Bool
  | .updateAlert _ _ _ active => some active
  | _ => none

/-- Whether such a call extends the lists that the alert is on. -/
def renewsLists : Call → Bool
  | .updateAlert _ _ _ _ | .updateWebhook _ _ _ | .updateLabel _ _ _ => true
  | _ => false

/-- Events of such a call on the record `cfg`. -/
def amendEvents (cfg : AlertConfig) : Call → List Event
  | .updateAlert caller configId _ active =>
      [⟨(.alert, .update), [.u64 configId, .address caller, .bool active]⟩]
  | .updateWebhook caller configId _ | .confirmWebhook caller configId =>
      [⟨(.alert, .webhook), [.u64 configId, .address caller]⟩]
  | .proposeWebhook caller configId _ =>
      [⟨(.alert, .whProp), [.u64 configId, .address caller]⟩]
  | .updateLabel caller configId _ =>
      [⟨(.alert, .update), [.u64 configId, .address caller, .bool cfg.active]⟩]
  | .updateTags caller configId _ =>
      [⟨(.alert, .tags), [.u64 configId, .address caller]⟩]
  | _ => []

/-- The admin, the alert and the new flag of an administrative switch. -/
def activates : Call → Option (Address × Nat × Bool)
  | .pauseAlert admin configId => some (admin, configId, false)
  | .unpauseAlert admin configId => some (admin, configId, true)
  | _ => none

section Families

/-! No call belongs to two families. -/

variable {call : Call} {now : Nat}

theorem enrols_of_isQuery (h : call.isQuery = true) :
    call.enrols now = none := by
  cases call <;> simp_all [isQuery, enrols]

theorem enrols_of_administers {admin : Address} (h : call.administers = some admin) :
    call.enrols now = none := by
  cases call <;> simp_all [administers, enrols]

theorem enrols_of_amends {owned : Address × Nat} (h : call.amends = some owned) :
    call.enrols now = none := by
  cases call <;> simp_all [amends, enrols]

theorem enrols_of_activates
    {switch : Address × Nat × Bool} (h : call.activates = some switch) :
    call.enrols now = none := by
  cases call <;> simp_all [activates, enrols]

theorem amends_of_isQuery (h : call.isQuery = true) :
    call.amends = none := by
  cases call <;> simp_all [isQuery, amends]

theorem amends_of_administers {admin : Address} (h : call.administers = some admin) :
    call.amends = none := by
  cases call <;> simp_all [administers, amends]

theorem amends_of_enrols
    {owner : Address} {cfgs : List AlertConfig}
    (h : call.enrols now = some (owner, cfgs)) :
    call.amends = none := by
  cases call <;> simp_all [enrols, amends]

theorem amends_of_activates
    {switch : Address × Nat × Bool} (h : call.activates = some switch) :
    call.amends = none := by
  cases call <;> simp_all [activates, amends]

theorem administers_of_isQuery (h : call.isQuery = true) :
    call.administers = none := by
  cases call <;> simp_all [isQuery, administers]

theorem administers_of_activates
    {switch : Address × Nat × Bool} (h : call.activates = some switch) :
    call.administers = none := by
  cases call <;> simp_all [activates, administers]

theorem activates_of_isQuery (h : call.isQuery = true) :
    call.activates = none := by
  cases call <;> simp_all [isQuery, activates]

end Families

end Call

/-- Events of a registration whose first id is `first`. -/
def registerEvents (first : Nat) : List AlertConfig → List Event
  | [] => []
  | cfg :: rest =>
      ⟨(.alert, .register),
        [.u64 first, .address cfg.owner, .address cfg.targetContract]⟩ ::
        registerEvents (first + 1) rest

/-- Event of a renewal. -/
def bumpEvent (ttl id : Nat) : Event :=
  ⟨(.alert, .bump), [.u64 id, .u32 ttl]⟩

section Pages

variable {α : Type}

/-- The stretch of a list that a page with the given offset and limit shows. -/
def slice (l : List α) (offset limit : Nat) : List α :=
  (l.drop (min offset l.length)).take
    (min (saturatingAdd32 offset (min limit maxBatchSize)) l.length -
      min offset l.length)

/-- A page is empty when the list ends before it, or when it could show
nothing. -/
theorem slice_eq_nil_iff (l : List α) (offset limit : Nat) :
    slice l offset limit = [] ↔
      l.length ≤ offset ∨ limit = 0 ∨ u32Max ≤ offset := by
  have hlength : (slice l offset limit).length =
      min (min (min (offset + min limit 50) u32Max) l.length -
        min offset l.length) (l.length - min offset l.length) := by
    rw [slice, List.length_take, List.length_drop]
    rfl
  rw [← List.length_eq_zero_iff, hlength]
  omega

end Pages

namespace Registry

/-- The records found under a list of ids. -/
def records (r : Registry) (ids : List Nat) : List AlertConfig :=
  ids.filterMap r.table.row

/-- The records that an entry point for alert configs returns. -/
def readout (r : Registry) : Call → List AlertConfig
  | .getAlertsForContract _ target => r.records (r.table.index .contract target)
  | .getContractAlertsPaginated _ target offset limit =>
      r.records (slice (r.table.index .contract target) offset limit)
  | .getAlertsByOwner _ owner => r.records (r.table.index .owner owner)
  | .getAlertsByOwnerPaginated _ owner offset limit =>
      r.records (slice (r.table.index .owner owner) offset limit)
  | .getActiveAlertsForContract target =>
      (r.records (r.table.index .contract target)).filter (fun cfg => cfg.active)
  | .getActiveAlertsPaginated target offset limit =>
      slice ((r.records (r.table.index .contract target)).filter
        (fun cfg => cfg.active)) offset limit
  | .getAlertsUpdatedSince target since offset limit =>
      (((r.records (r.table.index .contract target)).filter
        (fun cfg => cfg.updatedAt ≥ since)).drop offset).take limit
  | .getAlertsModifiedSince since =>
      (r.records (List.range r.nextId)).filter (fun cfg => cfg.updatedAt ≥ since)
  | _ => []

/-- The gate lets a call through: the call names no querier, there is no watcher
registry, or the watcher registry vouches for the querier. -/
def gateOpen (r : Registry) (env : Env) (call : Call) : Bool :=
  call.querier.all (fun querier =>
    (r.inst .watchreg).all (fun registry => env.peer registry querier = some true))

/-- What a query answers; nothing if it fails. -/
def answer (r : Registry) (env : Env) : Call → Option Response
  | .getAdmin => (r.admins.bind (fun admins => admins[0]?)).map .address
  | .getAdmins => some (.optAddresses r.admins)
  | .isPaused => some (.bool r.paused)
  | .getPerOwnerAlertLimit => some (.number r.limit)
  | .getWatcherRegistry => some (.optAddress (r.inst .watchreg))
  | .getAlertIdsForContract target =>
      some (.numbers (r.table.live (r.table.index .contract target)))
  | .getAlertIdsByOwner owner => some (.numbers (r.liveOf owner))
  | .getAlert configId => some (.optAlert (r.table.row configId))
  | .getAlertActive configId => some (.optBool (r.active configId))
  | .getAlertCount => some (.number r.nextId)
  | .getActiveAlertCount owner => some (.number (r.liveOf owner).length)
  | call =>
      if call.readsAlerts ∧ r.gateOpen env call then some (.alerts (r.readout call))
      else none

end Registry

/-- What a call that succeeds does to the registry. -/
inductive Registry.Step (env : Env) (r : Registry) :
    Call → Response → List Event → Registry → Prop
  | query {call : Call} {resp : Response} :
      call.isQuery = true →
      r.answer env call = some resp →
      Step env r call resp [] r
  | initialise {admin : Address} :
      r.inst .admin = none →
      Step env r (.initialise admin) .unit
        [⟨(.admin, .init), [.address admin]⟩]
        (r.configure .admin (.vec [admin]))
  | administer {call : Call} {admin : Address} {admins : List Address}
      {entry : (i : InstanceKey) × i.Value} :
      call.administers = some admin →
      call.setting admins = some entry →
      admin ∈ env.auths →
      r.admins = some admins →
      admin ∈ admins →
      call.Permitted admins →
      Step env r call .unit call.adminEvents (r.configure entry.1 entry.2)
  | enrol {call : Call} {owner : Address} {cfgs : List AlertConfig} :
      call.enrols env.timestamp = some (owner, cfgs) →
      call.Checked →
      r.paused = false →
      owner ∈ env.auths →
      r.Fits owner cfgs.length →
      (cfgs ≠ [] → r.nextId + cfgs.length ≤ u64Max) →
      Step env r call (call.receipt r.nextId cfgs.length)
        (registerEvents r.nextId cfgs) ((r.prunedFor owner).createAll cfgs)
  | amend {call : Call} {caller : Address} {id : Nat}
      {cfg cfg' : AlertConfig} :
      call.amends = some (caller, id) →
      call.Checked →
      (call.asksPaused = true → r.paused = false) →
      caller ∈ env.auths →
      r.table.row id = some cfg →
      cfg.owner = caller →
      call.amended env.timestamp cfg = some cfg' →
      Step env r call .unit (call.amendEvents cfg)
        ((r.rewrite id cfg').flag id call.amendedFlag)
  | activate {call : Call} {admin : Address} {id : Nat} {active : Bool}
      {cfg : AlertConfig} :
      call.activates = some (admin, id, active) →
      admin ∈ env.auths →
      r.IsAdmin admin →
      r.table.row id = some cfg →
      Step env r call .unit
        [⟨(.alert, .update), [.u64 id, .address admin, .bool active]⟩]
        ((r.rewrite id
          { cfg with active := active, updatedAt := env.timestamp }).flag id
          (some active))
  | deactivateAll {caller : Address} :
      r.paused = false →
      caller ∈ env.auths →
      Step env r (.deactivateAllAlerts caller)
        (.number (r.activeAmong (r.table.index .owner caller)).card) []
        (r.deactivate env.timestamp (r.table.index .owner caller))
  | retarget {caller newTarget : Address} {id : Nat} {cfg : AlertConfig} :
      r.paused = false →
      caller ∈ env.auths →
      r.table.row id = some cfg →
      cfg.owner = caller →
      Step env r (.updateTargetContract caller id newTarget) .unit []
        (r.move .contract id cfg.targetContract newTarget
          { cfg with targetContract := newTarget, updatedAt := env.timestamp })
  | keepOwner {owner : Address} {id : Nat} {cfg : AlertConfig} :
      r.paused = false →
      owner ∈ env.auths →
      r.table.row id = some cfg →
      cfg.owner = owner →
      Step env r (.transferAlertOwnership owner id owner) .unit [] r
  | reown {owner newOwner : Address} {id : Nat} {cfg : AlertConfig} :
      newOwner ≠ owner →
      r.paused = false →
      owner ∈ env.auths →
      r.table.row id = some cfg →
      cfg.owner = owner →
      r.Fits newOwner 1 →
      Step env r (.transferAlertOwnership owner id newOwner) .unit
        [⟨(.alert, .transfer), [.u64 id, .address owner, .address newOwner]⟩]
        ((r.prunedFor newOwner).move .owner id owner newOwner
          { cfg with owner := newOwner, updatedAt := env.timestamp })
  | remove {caller : Address} {id : Nat} {cfg : AlertConfig} :
      r.paused = false →
      caller ∈ env.auths →
      r.table.row id = some cfg →
      cfg.owner = caller →
      Step env r (.removeAlert caller id) .unit
        [⟨(.alert, .remove), [.u64 id, .address caller]⟩]
        (r.erase id cfg)
  | removeByAdmin {admin : Address} {id : Nat} {cfg : AlertConfig} :
      r.paused = false →
      admin ∈ env.auths →
      r.IsAdmin admin →
      r.table.row id = some cfg →
      Step env r (.removeAlertByAdmin admin id) .unit
        [⟨(.alert, .remove), [.u64 id, .address admin, .address cfg.owner]⟩]
        (r.erase id cfg)
  | bump {id ttl : Nat} :
      r.paused = false →
      (r.table.row id).isSome →
      Step env r (.bumpAlert id ttl) .unit [bumpEvent (min ttl maxTtl) id] r
  | bulkRenew {ids : List Nat} :
      ids.length ≤ maxBatchSize →
      Step env r (.bulkRenewTtl ids) (.number (r.table.live ids).length)
        ((r.table.live ids).map (bumpEvent defaultTtl)) r

end AlertRegistry
end TxWatch
