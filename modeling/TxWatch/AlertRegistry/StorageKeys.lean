import TxWatch.AlertRegistry.ActiveFlag
import TxWatch.AlertRegistry.Readings
import TxWatch.AlertRegistry.Values

/-!
# No storage leak

As long as nothing expires, every persistent key is accounted for by a live
alert: its record, its flag, the list of its owner or the list of its target.
`Tidy` is the part of this that the registry cannot see, since there an absent
list and an empty one are the same.
-/

namespace TxWatch
namespace AlertRegistry

open Soroban Soroban.Contract Indexed

/-- What may be kept under a key.  No list is stored empty, and the counter is
not among the persistent entries. -/
def DataKey.Holds : (k : DataKey) → k.Value → Prop
  | .alert _, _ => True
  | .alertActive _, _ => True
  | .index _ _, ids => ids ≠ []
  | .nextId, _ => False

/-- Every persistent entry holds what its key may hold. -/
def State.Tidy (s : State) : Prop :=
  ∀ k v, s.persistent.get k = some v → k.Holds v

section Writes

variable {s s' : State} (ledger : Nat)

theorem State.Tidy.of_values
    (h : s.Tidy) (hvalues : ∀ k, s'.persistent.get k = s.persistent.get k) :
    s'.Tidy := by
  intro k v hget
  rw [hvalues k] at hget
  exact h k v hget

theorem State.Tidy.of_sameValues
    (h : s.Tidy) (hvalues : s.SameValues s') :
    s'.Tidy := by
  exact h.of_values hvalues.get

theorem State.Tidy.store
    (h : s.Tidy) {k : DataKey} {v : k.Value} (hv : k.Holds v) (ttl : Nat) :
    State.Tidy (s.store ledger k v ttl) := by
  intro k' v' hget
  by_cases hk : k' = k
  · subst hk
    rw [State.persistent_store, Store.get_store_self] at hget
    obtain rfl := Option.some.inj hget
    exact hv
  · rw [State.persistent_store, Store.get_store_of_ne _ _ hk] at hget
    exact h k' v' hget

theorem State.Tidy.remove
    (h : s.Tidy) (k : DataKey) :
    State.Tidy (s.remove k) := by
  intro k' v' hget
  by_cases hk : k' = k
  · subst hk
    rw [State.persistent_remove, Store.get_remove_self] at hget
    exact absurd hget (by simp)
  · rw [State.persistent_remove, Store.get_remove_of_ne _ hk] at hget
    exact h k' v' hget

theorem State.Tidy.storeAlert
    (h : s.Tidy) (id : Nat) (cfg : AlertConfig) (ttl : Nat) :
    State.Tidy (s.store ledger (.alert id) cfg ttl) := by
  exact h.store ledger (k := .alert id) trivial ttl

theorem State.Tidy.storeFlag
    (h : s.Tidy) (id : Nat) (b : Bool) (ttl : Nat) :
    State.Tidy (s.store ledger (.alertActive id) b ttl) := by
  exact h.store ledger (k := .alertActive id) trivial ttl

theorem State.Tidy.relist
    (h : s.Tidy) (kind : IndexKind) (a : Address) (ids : List Nat) :
    (s.relist ledger kind a ids).Tidy := by
  unfold State.relist
  split_ifs with hnil
  · exact h.remove _
  · refine h.store ledger ?_ _
    simpa [DataKey.Holds] using hnil

theorem State.Tidy.file
    (h : s.Tidy) (kind : IndexKind) (a : Address) (id : Nat) :
    (s.file ledger kind a id).Tidy := by
  refine h.store ledger ?_ _
  simp [DataKey.Holds]

theorem State.Tidy.prunedFor
    (h : s.Tidy) (owner : Address) :
    (s.prunedFor ledger owner).Tidy := by
  unfold State.prunedFor
  split_ifs
  · exact h.relist ledger _ _ _
  · exact h

theorem State.Tidy.createdAll
    (h : s.Tidy) (cfgs : List AlertConfig) :
    (State.createdAll ledger cfgs s).Tidy := by
  induction cfgs generalizing s with
  | nil => exact h
  | cons cfg rest ih =>
      apply ih
      unfold State.created
      have hcounted : State.Tidy ((s.setInst .nextId (s.view.nextId + 1)).extendInst
          ledger defaultTtl defaultTtl) := h.of_values (fun _ => rfl)
      have hrecord := hcounted.storeAlert ledger s.view.nextId cfg defaultTtl
      have hflag := hrecord.storeFlag ledger s.view.nextId true defaultTtl
      exact (hflag.file ledger _ _ _).file ledger _ _ _

theorem State.Tidy.erased
    (h : s.Tidy) (id : Nat) (cfg : AlertConfig) :
    (s.erased ledger id cfg).Tidy := by
  have hrecord := (h.remove (.alert id)).remove (.alertActive id)
  exact (hrecord.relist ledger _ _ _).relist ledger _ _ _

theorem State.Tidy.moved
    (h : s.Tidy) (kind : IndexKind) (id : Nat) (a b : Address) :
    (s.moved ledger kind id a b).Tidy := by
  exact (h.relist ledger _ _ _).file ledger _ _ _

theorem State.Tidy.flagged
    (h : s.Tidy) (id : Nat) (active : Option Bool) :
    (s.flagged ledger id active).Tidy := by
  cases active with
  | none => exact h
  | some b => exact h.storeFlag ledger id b defaultTtl

theorem State.Tidy.amended
    (h : s.Tidy) (call : Call) (id : Nat) (cfg cfg' : AlertConfig) :
    (s.amended ledger call id cfg cfg').Tidy := by
  have hrecord := h.storeAlert ledger id cfg' defaultTtl
  refine (hrecord.flagged ledger id call.amendedFlag).of_values ?_
  intro k
  unfold State.amended
  split_ifs <;> simp [State.renewedLists]

theorem State.Tidy.deactivatedEach
    (h : s.Tidy) (now : Nat) (ids : List Nat) :
    (State.deactivatedEach ledger now ids s).Tidy := by
  induction ids generalizing s with
  | nil => exact h
  | cons id rest ih =>
      apply ih
      unfold State.deactivatedOne
      split
      · exact h
      · split_ifs
        · exact (h.storeAlert ledger id _ defaultTtl).storeFlag ledger id _ defaultTtl
        · exact h

end Writes

section Calls

variable {env : Env} {s s' : State} {call : Call} {resp : Response}

/-- A configuration call writes no persistent entry. -/
theorem tidy_of_administer
    {admin : Address} (h : s.Tidy) (hadm : call.administers = some admin)
    (hreturns : (dispatch call).Returns env s.silenced resp s') :
    s'.Tidy := by
  rw [returns_administer hadm] at hreturns
  obtain ⟨admins, entry, -, -, -, -, -, -, rfl⟩ := hreturns
  exact h.of_values (fun _ => rfl)

/-- Calls that no family covers. -/
theorem tidy_of_other
    (h : s.Tidy)
    (hquery : call.isQuery = false) (hadm : call.administers = none)
    (hamend : call.amends = none) (hact : call.activates = none)
    (hreturns : (dispatch call).Returns env s.silenced resp s') :
    s'.Tidy := by
  have hquiet : State.Tidy s.silenced := h
  cases call with
  | initialise admin =>
      simp only [dispatch, returns_done, returns_initialise] at hreturns
      obtain ⟨⟨-, rfl⟩, -⟩ := hreturns
      exact h.of_values (fun _ => rfl)
  | registerAlert owner targetContract label webhookHash rules tags =>
      simp only [dispatch, returns_respond, returns_registerAlert] at hreturns
      obtain ⟨id, ⟨-, -, -, -, -, -, -, -, -, -, -, rfl⟩, -⟩ := hreturns
      exact (hquiet.prunedFor env.sequence owner).createdAll env.sequence [_]
  | batchRegisterAlerts caller inputs =>
      simp only [dispatch, returns_respond] at hreturns
      obtain ⟨ids, hbatch, -⟩ := hreturns
      obtain ⟨-, -, -, -, -, -, -, rfl⟩ := returns_batchRegisterAlerts hbatch
      exact (hquiet.prunedFor env.sequence caller).createdAll env.sequence _
  | removeAlert caller id =>
      simp only [dispatch, returns_done, returns_removeAlert] at hreturns
      obtain ⟨⟨cfg, -, -, -, -, rfl⟩, -⟩ := hreturns
      exact hquiet.erased env.sequence id cfg
  | removeAlertByAdmin admin id =>
      simp only [dispatch, returns_done, returns_removeAlertByAdmin] at hreturns
      obtain ⟨⟨cfg, -, -, -, -, rfl⟩, -⟩ := hreturns
      exact hquiet.erased env.sequence id cfg
  | bumpAlert id ttl => exact h.of_sameValues (sameValues_of_bumpAlert hreturns)
  | bulkRenewTtl ids =>
      exact h.of_sameValues (sameValues_of_bulkRenewTtl hreturns)
  | deactivateAllAlerts caller =>
      simp only [dispatch, returns_respond] at hreturns
      obtain ⟨n, hloop, -⟩ := hreturns
      obtain ⟨-, -, -, rfl⟩ := (returns_deactivateAllAlerts caller n).mp hloop
      exact hquiet.deactivatedEach env.sequence env.timestamp _
  | updateTargetContract caller id newTarget =>
      simp only [dispatch, returns_done, returns_updateTargetContract] at hreturns
      obtain ⟨⟨cfg, -, -, -, -, -, rfl⟩, -⟩ := hreturns
      have hrecord := hquiet.storeAlert env.sequence id
        { cfg with targetContract := newTarget, updatedAt := env.timestamp }
        defaultTtl
      exact hrecord.moved env.sequence _ _ _ _
  | transferAlertOwnership owner id newOwner =>
      simp only [dispatch, returns_done, returns_transferAlertOwnership] at hreturns
      obtain ⟨⟨cfg, -, -, -, -, hmove⟩, -⟩ := hreturns
      rcases hmove with ⟨-, rfl⟩ | ⟨-, -, -, rfl⟩
      · exact hquiet
      · have hpruned := hquiet.prunedFor env.sequence newOwner
        exact (hpruned.moved env.sequence _ _ _ _).storeAlert env.sequence _ _ _
  | _ =>
      simp_all [Call.isQuery, Call.amends, Call.activates, Call.administers]

theorem tidy_of_returns
    (h : s.Tidy) (hreturns : (dispatch call).Returns env s.silenced resp s') :
    s'.Tidy := by
  have hquiet : State.Tidy s.silenced := h
  cases hquery : call.isQuery with
  | true => exact h.of_sameValues (sameValues_of_query hquery hreturns)
  | false =>
  cases hadm : call.administers with
  | some admin => exact tidy_of_administer h hadm hreturns
  | none =>
  cases hamend : call.amends with
  | some owned =>
      rw [returns_amend hamend] at hreturns
      obtain ⟨cfg, cfg', -, -, -, -, -, -, -, -, rfl⟩ := hreturns
      exact hquiet.amended env.sequence call _ cfg cfg'
  | none =>
  cases hact : call.activates with
  | some switch =>
      rw [returns_activate hact] at hreturns
      obtain ⟨cfg, -, -, -, -, rfl⟩ := hreturns
      exact (hquiet.storeAlert env.sequence _ _ _).storeFlag env.sequence _ _ _
  | none => exact tidy_of_other h hquery hadm hamend hact hreturns

theorem tidy_exec
    (s : State) (st : Step) (hcall : st.isCall) (h : s.Tidy) :
    (exec s st).Tidy := by
  cases st with
  | call env call =>
      rcases invoke_cases env call s with ⟨resp, s', hreturns, heq⟩ | ⟨f, heq⟩
      · rw [exec_call, heq]
        exact tidy_of_returns h hreturns
      · rw [exec_call, heq]
        exact h
  | expire keys => exact False.elim hcall

theorem tidy_empty : State.empty.Tidy := by
  intro k v hget
  exact absurd hget (by simp)

end Calls

/-- Keys that a live alert accounts for: its own two, and the lists of its owner
and of its target. -/
def State.Accounted (s : State) : DataKey → Prop
  | .alert id => ∃ cfg, s.alertAt id = some cfg
  | .alertActive id => ∃ cfg, s.alertAt id = some cfg
  | .ownerIndex o => ∃ id cfg, s.alertAt id = some cfg ∧ cfg.owner = o
  | .contractIndex t => ∃ id cfg, s.alertAt id = some cfg ∧ cfg.targetContract = t
  | .nextId => False

/-- What holds of the storage as long as nothing expires. -/
structure State.Leakless (s : State) : Prop where
  safe : s.view.Safe
  complete : s.view.Complete
  occupied : s.view.table.Occupied
  flags : s.view.FlagsAgree
  tidy : s.Tidy

theorem leakless_empty : State.empty.Leakless where
  safe := safe_empty
  complete := complete_empty
  occupied := occupied_empty
  flags := fun _ => rfl
  tidy := tidy_empty

theorem leakless_exec
    (s : State) (st : Step) (hcall : st.isCall) (h : s.Leakless) :
    (exec s st).Leakless where
  safe := safe_exec s st h.safe
  complete := complete_exec s st (Step.keepsIndexes_of_isCall hcall) h.complete
  occupied := occupied_exec s st hcall h.safe h.occupied
  flags := flagsAgree_exec s st hcall h.flags
  tidy := tidy_exec s st hcall h.tidy

theorem leakless_run
    {steps : List Step} (hsteps : ∀ st ∈ steps, st.isCall) :
    (run exec State.empty steps).Leakless := by
  exact run_induction leakless_empty leakless_exec hsteps

section Keys

variable {s : State}

/-- A stored list has a first entry, and that entry is a live alert on it. -/
theorem State.Leakless.has_index_iff
    (h : s.Leakless) (kind : IndexKind) (a : Address) :
    s.persistent.has (.index kind a) = true ↔
      ∃ id cfg, s.alertAt id = some cfg ∧ cfg.party kind = a := by
  rw [Store.has_iff_get]
  constructor
  · rintro ⟨ids, hget⟩
    obtain ⟨id, rest, rfl⟩ := List.exists_cons_of_ne_nil (h.tidy _ ids hget)
    have hmem : id ∈ s.view.table.index kind a := by
      rw [view_index, hget]
      exact List.mem_cons_self
    obtain ⟨cfg, hrow⟩ := Option.isSome_iff_exists.mp (h.occupied kind a id hmem)
    exact ⟨id, cfg, hrow, h.safe.sound.party_eq kind a id cfg hmem hrow⟩
  · rintro ⟨id, cfg, hrow, rfl⟩
    have hmem := h.complete id cfg hrow kind
    rw [view_index] at hmem
    cases hget : s.persistent.get (.index kind (cfg.party kind)) with
    | none =>
        rw [hget] at hmem
        exact absurd hmem List.not_mem_nil
    | some ids => exact ⟨ids, rfl⟩

theorem State.Leakless.has_iff
    (h : s.Leakless) (k : DataKey) :
    s.persistent.has k = true ↔ s.Accounted k := by
  cases k with
  | alert id => exact Store.has_iff_get _ _
  | alertActive id =>
      rw [Store.has_eq_isSome_get, ← view_active, h.flags id, Option.isSome_map,
        Option.isSome_iff_exists]
      rfl
  | index kind a =>
      rw [h.has_index_iff kind a]
      cases kind with
      | owner => rfl
      | contract => rfl
  | nextId =>
      rw [Store.has_iff_get]
      constructor
      · rintro ⟨v, hget⟩
        exact h.tidy .nextId v hget
      · intro hfalse
        exact False.elim hfalse

/-- Tidy storages that hold the same registry hold the same values. -/
theorem State.Leakless.get_eq
    {s' : State} (h : s.Leakless) (h' : s'.Leakless)
    (htable : s'.view.table = s.view.table) (k : DataKey) :
    s'.persistent.get k = s.persistent.get k := by
  cases k with
  | alert id => exact congrFun (congrArg Table.row htable) id
  | alertActive id =>
      rw [← view_active, ← view_active, h.flags id, h'.flags id, htable]
  | index kind a =>
      have hindex := congrFun (congrFun (congrArg Table.index htable) kind) a
      rw [view_index, view_index] at hindex
      have hne := h.tidy (.index kind a)
      have hne' := h'.tidy (.index kind a)
      -- neither storage has an empty list to take for an absent one
      cases hget : s.persistent.get (.index kind a) with
      | none =>
          cases hget' : s'.persistent.get (.index kind a) with
          | none => rfl
          | some ids' =>
              rw [hget, hget'] at hindex
              exact absurd hindex (hne' ids' hget')
      | some ids =>
          cases hget' : s'.persistent.get (.index kind a) with
          | none =>
              rw [hget, hget'] at hindex
              exact absurd hindex.symm (hne ids hget)
          | some ids' =>
              rw [hget, hget'] at hindex
              exact congrArg some hindex
  | nextId =>
      cases hget : s.persistent.get .nextId with
      | none =>
          cases hget' : s'.persistent.get .nextId with
          | none => rfl
          | some v => exact False.elim (h'.tidy .nextId v hget')
      | some v => exact False.elim (h.tidy .nextId v hget)

end Keys

end AlertRegistry
end TxWatch
