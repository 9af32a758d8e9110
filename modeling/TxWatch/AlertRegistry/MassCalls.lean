import TxWatch.AlertRegistry.BatchRegistration
import TxWatch.AlertRegistry.BulkRenewal
import TxWatch.AlertRegistry.Deactivation
import TxWatch.AlertRegistry.Keepers
import TxWatch.AlertRegistry.StorageKeys

/-!
# Mass calls are their single calls one by one

`bulk_renew_ttl` is measured against `bump_alert` for each alert that is there,
and `deactivate_all_alerts` against `update_alert` for each active alert of the
caller.  The first comparison holds with whatever has expired before, and down
to the recorded lifetimes.
-/

namespace TxWatch
namespace AlertRegistry

open Soroban Soroban.Contract Indexed

section Counter

theorem State.Tidy.dropping {s : State} (h : s.Tidy) (keys : DataKey → Bool) :
    State.Tidy (s.silenced.dropping keys) := by
  intro k v hget
  have hexpired := s.persistent.get_expire keys k
  change (s.persistent.expire keys).get k = some v at hget
  rw [hexpired] at hget
  split_ifs at hget
  exact h k v hget

/-- No list is stored empty in any state, whatever expires. -/
theorem tidy_run (steps : List Step) :
    (run exec State.empty steps).Tidy := by
  refine run_induction (C := fun _ => True) tidy_empty ?_ (fun _ _ => trivial)
  intro s st _ h
  cases st with
  | call env call => exact tidy_exec s (.call env call) trivial h
  | expire keys => exact h.dropping keys

/-- The counter is an instance entry, and there is nothing persistent to
renew. -/
theorem State.Tidy.not_has_nextId {s : State} (h : s.Tidy) :
    s.persistent.has .nextId = false := by
  by_contra hhas
  rw [Bool.not_eq_false, Store.has_iff_get] at hhas
  obtain ⟨v, hget⟩ := hhas
  exact h .nextId v hget

end Counter

section Renewal

variable {env : Env} {s s' : State}

/-- An alert can be renewed under the id, or there is none: no companion of the
alert is absent. -/
def State.Renewable (s : State) (id : Nat) : Prop :=
  ∀ cfg, s.persistent.get (.alert id) = some cfg →
    ∀ k ∈ companions id cfg, s.persistent.has k = true

theorem State.Renewable.of_sameValues
    (h : s.SameValues s') (id : Nat) :
    s'.Renewable id ↔ s.Renewable id := by
  unfold State.Renewable
  simp only [Store.has_eq_isSome_get, h.get]

/-- The loop goes through exactly if no companion is missing on its way. -/
theorem returns_bulkRenewFrom_iff (ids : List Nat) (renewed : Nat) :
    (∃ n t, (bulkRenewFrom ids renewed).Returns env s n t) ↔
      ∀ id ∈ ids, s.Renewable id := by
  induction ids generalizing s renewed with
  | nil => simp [bulkRenewFrom]
  | cons id rest ih =>
      simp only [bulkRenewFrom, returns_bind, returns_persistentGet,
        List.forall_mem_cons]
      cases hget : s.persistent.get (.alert id) with
      | none =>
          have hid : s.Renewable id := by
            intro cfg hcfg
            rw [hget] at hcfg
            cases hcfg
          constructor
          · rintro ⟨n, t, _, _, ⟨rfl, rfl⟩, hrest⟩
            exact ⟨hid, (ih renewed).mp ⟨n, t, hrest⟩⟩
          · rintro ⟨-, hall⟩
            obtain ⟨n, t, hrest⟩ := (ih renewed).mpr hall
            exact ⟨n, t, none, s, ⟨rfl, rfl⟩, hrest⟩
      | some cfg =>
          -- a round of the loop leaves every value as it is
          let s₁ : State := State.emit (s.renewed env.sequence id cfg defaultTtl)
            (bumpEvent defaultTtl id)
          have hsame : s.SameValues s₁ := by
            have hround := sameValues_renewedEach s env.sequence [id]
            simpa only [State.renewedEach, hget] using hround
          have hid : s.Renewable id ↔
              s.persistent.has (.alertActive id) = true ∧
              s.persistent.has (.ownerIndex cfg.owner) = true ∧
              s.persistent.has (.contractIndex cfg.targetContract) = true := by
            simp [State.Renewable, hget, companions]
          have hhas : s.persistent.has (.alert id) = true :=
            (s.persistent.has_iff_get _).mpr ⟨cfg, hget⟩
          have hlater : ∀ id' ∈ rest, s₁.Renewable id' ↔ s.Renewable id' :=
            fun id' _ => State.Renewable.of_sameValues hsame id'
          rw [hid, ← forall₂_congr hlater, ← ih (renewed + 1)]
          constructor
          · rintro ⟨n, t, _, _, ⟨rfl, rfl⟩, hround⟩
            simp only [returns_bind, returns_persistentExtendTtl,
              returns_publish] at hround
            obtain ⟨-, _, ⟨-, rfl⟩, -, _, ⟨hflag, rfl⟩, -, _, ⟨howner, rfl⟩,
              -, _, ⟨htarget, rfl⟩, -, _, rfl, hrest⟩ := hround
            simp only [State.persistent_extend, Store.has_eq_isSome_get,
              Store.get_extendTtl] at hflag howner htarget
            simp only [Store.has_eq_isSome_get]
            exact ⟨⟨hflag, howner, htarget⟩, n, t, hrest⟩
          · rintro ⟨⟨hflag, howner, htarget⟩, n, t, hrest⟩
            refine ⟨n, t, some cfg, s, ⟨rfl, rfl⟩, ?_⟩
            simpa [hhas, hflag, howner, htarget, s₁, State.renewed,
              State.renewedLists, bumpEvent] using hrest

/-- A bulk renewal within the batch size. -/
theorem invoke_bulkRenewTtl_cases
    {ids : List Nat} (hsize : ids.length ≤ maxBatchSize) :
    ((∀ id ∈ ids, s.Renewable id) ∧
      invoke env (.bulkRenewTtl ids) s =
        (.ok (.number (s.view.table.live ids).length),
          State.renewedEach env.sequence ids s.silenced)) ∨
    ((¬ ∀ id ∈ ids, s.Renewable id) ∧
      ∃ f, invoke env (.bulkRenewTtl ids) s = (.error f, s.silenced)) := by
  have hloop := @returns_bulkRenewFrom_iff env s.silenced ids 0
  rcases invoke_cases env (.bulkRenewTtl ids) s with ⟨resp, t, hreturns, heq⟩ |
    ⟨f, heq⟩
  · left
    simp only [dispatch, returns_respond, bulkRenewTtl, returns_bind,
      returns_rejectIf] at hreturns
    obtain ⟨n, ⟨-, _, ⟨-, rfl⟩, hrun⟩, rfl⟩ := hreturns
    refine ⟨hloop.mp ⟨n, t, hrun⟩, ?_⟩
    obtain ⟨hn, ht⟩ := returns_bulkRenewFrom hrun
    rw [heq, hn, ht, Nat.zero_add, view_silenced]
  · right
    refine ⟨?_, f, heq⟩
    intro hall
    obtain ⟨n, t, hrun⟩ := hloop.mpr hall
    have hreturns : (dispatch (.bulkRenewTtl ids)).Returns env s.silenced (.number n)
        t := by
      simp only [dispatch, returns_respond, bulkRenewTtl, returns_bind,
        returns_rejectIf]
      exact ⟨n, ⟨(), _, ⟨Nat.not_lt.mpr hsize, rfl⟩, hrun⟩, rfl⟩
    rw [invoke_of_returns hreturns] at heq
    cases heq

/-- The renewal of an alert that is there, on an unpaused contract. -/
theorem invoke_bumpAlert_cases
    (htidy : s.Tidy) (hopen : s.view.paused = false)
    {id : Nat} {cfg : AlertConfig} (hget : s.persistent.get (.alert id) = some cfg) :
    (s.Renewable id ∧ ∃ s₁,
      invoke env (.bumpAlert id defaultTtl) s = (.ok .unit, s₁) ∧
        s₁.events = [bumpEvent defaultTtl id] ∧ s.SameValues s₁ ∧
        s₁.persistent = (s.renewed env.sequence id cfg defaultTtl).persistent) ∨
    (¬ s.Renewable id ∧
      ∃ f, invoke env (.bumpAlert id defaultTtl) s = (.error f, s.silenced)) := by
  have hnext : s.silenced.persistent.has .nextId = false := htidy.not_has_nextId
  have hrenewable : s.Renewable id ↔
      s.persistent.has (.alertActive id) = true ∧
      s.persistent.has (.ownerIndex cfg.owner) = true ∧
      s.persistent.has (.contractIndex cfg.targetContract) = true := by
    simp [State.Renewable, hget, companions]
  have hspec := fun t => @returns_bumpAlert env s.silenced t id defaultTtl ()
  rcases invoke_cases env (.bumpAlert id defaultTtl) s with
    ⟨resp, t, hreturns, heq⟩ | ⟨f, heq⟩
  · left
    have hsame := sameValues_of_bumpAlert hreturns
    simp only [dispatch, returns_done] at hreturns
    obtain ⟨hbump, rfl⟩ := hreturns
    obtain ⟨cfg', -, hrow, hflag, howner, htarget, ht⟩ := (hspec t).mp hbump
    obtain rfl : cfg' = cfg := Option.some.inj (hrow.symm.trans hget)
    refine ⟨hrenewable.mpr ⟨hflag, howner, htarget⟩, t, heq, ?_, hsame, ?_⟩
    · rw [ht, State.events_emit, events_bumped]
      rfl
    · rw [ht, State.bumped]
      have hkept : (State.renewed s.silenced env.sequence id cfg' (min defaultTtl maxTtl)
          ).persistent.has .nextId = false := by
        rw [State.renewed, State.renewedLists]
        simpa [Store.has_eq_isSome_get] using hnext
      simp only [hkept]
      rfl
  · right
    refine ⟨?_, f, heq⟩
    intro hid
    obtain ⟨hflag, howner, htarget⟩ := hrenewable.mp hid
    have hbump := (hspec _).mpr ⟨cfg, hopen, hget, hflag, howner, htarget, rfl⟩
    have hreturns : ∃ t, (dispatch (.bumpAlert id defaultTtl)).Returns env s.silenced
        .unit t := by
      simp only [dispatch, returns_done]
      exact ⟨_, hbump, trivial⟩
    obtain ⟨t, hreturns⟩ := hreturns
    rw [invoke_of_returns hreturns] at heq
    cases heq

end Renewal

section Renewals

variable {env : Env} {s s' : State}

theorem State.SameValues.view_eq (h : s.SameValues s') : s'.view = s.view := by
  apply Registry.eq_of_forall
  · exact fun id => h.get (.alert id)
  · intro kind a
    rw [view_index, view_index, h.get]
  · exact fun id => h.get (.alertActive id)
  · exact funext h.inst

/-- What the loop makes of the persistent entries depends on them alone. -/
theorem persistent_renewedEach_congr
    (ledger : Nat) (ids : List Nat) (h : s.persistent = s'.persistent) :
    (State.renewedEach ledger ids s).persistent =
      (State.renewedEach ledger ids s').persistent := by
  induction ids generalizing s s' with
  | nil => exact h
  | cons id rest ih =>
      unfold State.renewedEach
      rw [← h]
      cases s.persistent.get (.alert id) with
      | none => exact ih h
      | some cfg =>
          apply ih
          simp only [State.persistent_emit, State.renewed, State.renewedLists,
            State.persistent_extend, h]

/-- Ids without an alert are skipped. -/
theorem renewedEach_live (ledger : Nat) (ids : List Nat) (s : State) :
    State.renewedEach ledger (s.view.table.live ids) s =
      State.renewedEach ledger ids s := by
  induction ids generalizing s with
  | nil => rfl
  | cons id rest ih =>
      cases hget : s.persistent.get (.alert id) with
      | none =>
          rw [live_cons_of_none s hget, ih, State.renewedEach, hget]
      | some cfg =>
          have hround := ih (State.emit (s.renewed ledger id cfg defaultTtl)
            (bumpEvent defaultTtl id))
          rw [view_emit, view_renewed] at hround
          rw [live_cons_of_some s hget, State.renewedEach, State.renewedEach, hget]
          exact hround

/-- The renewal of each of several alerts that are there. -/
theorem invokeEach_bumpAlert
    (htidy : s.Tidy) (hopen : s.view.paused = false) (ids : List Nat)
    (hlive : ∀ id ∈ ids, ∃ cfg, s.persistent.get (.alert id) = some cfg) :
    ((∀ id ∈ ids, s.Renewable id) ∧ ∃ t,
      invokeEach dispatch env (ids.map (fun id => Call.bumpAlert id defaultTtl)) s =
        some (List.replicate ids.length .unit, ids.map (bumpEvent defaultTtl), t) ∧
      s.SameValues t ∧
      t.persistent = (State.renewedEach env.sequence ids s).persistent) ∨
    ((¬ ∀ id ∈ ids, s.Renewable id) ∧
      invokeEach dispatch env (ids.map (fun id => Call.bumpAlert id defaultTtl)) s =
        none) := by
  induction ids generalizing s with
  | nil =>
      refine Or.inl ⟨fun _ hid => absurd hid List.not_mem_nil, s, rfl, ?_, rfl⟩
      exact State.SameValues.refl s
  | cons id rest ih =>
      obtain ⟨cfg, hget⟩ := hlive id List.mem_cons_self
      rw [List.forall_mem_cons, List.map_cons]
      rcases @invoke_bumpAlert_cases env s htidy hopen id cfg hget with
        ⟨hid, s₁, hfirst, hevents, hsame, hpersistent⟩ | ⟨hid, f, hfirst⟩
      · have htidy₁ : s₁.Tidy := htidy.of_sameValues hsame
        have hopen₁ : s₁.view.paused = false := by
          rw [hsame.view_eq]
          exact hopen
        have hlive₁ : ∀ id' ∈ rest, ∃ cfg, s₁.persistent.get (.alert id') =
            some cfg := by
          intro id' hid'
          rw [hsame.get]
          exact hlive id' (List.mem_cons_of_mem _ hid')
        have hlater : (∀ id' ∈ rest, s₁.Renewable id') ↔
            ∀ id' ∈ rest, s.Renewable id' :=
          forall₂_congr fun id' _ => State.Renewable.of_sameValues hsame id'
        have hround : (State.renewedEach env.sequence rest s₁).persistent =
            (State.renewedEach env.sequence (id :: rest) s).persistent := by
          conv_rhs => rw [State.renewedEach, hget]
          apply persistent_renewedEach_congr
          rw [State.persistent_emit]
          exact hpersistent
        rcases ih htidy₁ hopen₁ hlive₁ with
          ⟨hall, t, hrest, hkept, hleft⟩ | ⟨hnot, hrest⟩
        · refine Or.inl ⟨⟨hid, hlater.mp hall⟩, t, ?_, hsame.trans hkept, ?_⟩
          · rw [invokeEach_cons_of_some hfirst hrest, hevents, List.length_cons,
              List.replicate_succ]
            rfl
          · rw [hleft, hround]
        · exact Or.inr ⟨fun hall => hnot (hlater.mpr hall.2),
            invokeEach_cons_of_none hfirst hrest⟩
      · exact Or.inr ⟨fun hall => hid hall.1, invokeEach_cons_of_error hfirst⟩

/-- In every state reached, whatever has expired, `bulk_renew_ttl` on an unpaused
contract succeeds exactly if `bump_alert` with the default lifetime does for each
position that has an alert, and then it counts these, publishes the same events,
and leaves the same entries with the same lifetimes. -/
theorem bulk_renewal_is_one_by_one
    (steps : List Step) (env : Env) (ids : List Nat)
    (hsize : ids.length ≤ maxBatchSize)
    (hopen : (run exec State.empty steps).view.paused = false) :
    ((∃ resp, (invoke env (.bulkRenewTtl ids)
        (run exec State.empty steps)).1 = .ok resp) ↔
      ∃ out, invokeEach dispatch env
        ((ids.filter (fun id => ((run exec State.empty steps).alertAt id).isSome)).map
          (fun id => .bumpAlert id defaultTtl))
        (run exec State.empty steps) = some out) ∧
    ∀ resp resps evs t,
      (invoke env (.bulkRenewTtl ids) (run exec State.empty steps)).1 = .ok resp →
      invokeEach dispatch env
        ((ids.filter (fun id => ((run exec State.empty steps).alertAt id).isSome)).map
          (fun id => .bumpAlert id defaultTtl))
        (run exec State.empty steps) = some (resps, evs, t) →
      resp = .number resps.length ∧
        (invoke env (.bulkRenewTtl ids) (run exec State.empty steps)).2.events =
          evs ∧
        (invoke env (.bulkRenewTtl ids) (run exec State.empty steps)).2.persistent =
          t.persistent ∧
        (invoke env (.bulkRenewTtl ids) (run exec State.empty steps)).2.inst =
          t.inst := by
  have htidy := tidy_run steps
  generalize run exec State.empty steps = s at hopen htidy ⊢
  change (_ ↔ ∃ out, invokeEach dispatch env ((s.view.table.live ids).map
    (fun id => Call.bumpAlert id defaultTtl)) s = some out) ∧
    ∀ resp resps evs t, _ → invokeEach dispatch env ((s.view.table.live ids).map
    (fun id => Call.bumpAlert id defaultTtl)) s = some (resps, evs, t) → _
  have hlive : ∀ id ∈ s.view.table.live ids,
      ∃ cfg, s.persistent.get (.alert id) = some cfg := by
    intro id hid
    exact Option.isSome_iff_exists.mp (List.mem_filter.mp hid).2
  have hrenewable : (∀ id ∈ s.view.table.live ids, s.Renewable id) ↔
      ∀ id ∈ ids, s.Renewable id := by
    constructor
    · intro h id hid cfg hget
      have hrow : s.view.table.row id = some cfg := hget
      have hmem : id ∈ s.view.table.live ids :=
        List.mem_filter.mpr ⟨hid, by rw [hrow]; rfl⟩
      exact h id hmem cfg hget
    · intro h id hid
      exact h id (List.mem_filter.mp hid).1
  rcases @invoke_bulkRenewTtl_cases env s ids hsize with
    ⟨hall, hbulk⟩ | ⟨hnot, f, hbulk⟩
  · rcases @invokeEach_bumpAlert env s htidy hopen _ hlive with
      ⟨-, t, heach, hsame, hpersistent⟩ | ⟨hnot, -⟩
    · rw [hbulk, heach]
      refine ⟨iff_of_true ⟨_, rfl⟩ ⟨_, rfl⟩, ?_⟩
      intro resp resps evs t' hresp hout
      cases hresp
      cases hout
      refine ⟨by rw [List.length_replicate], ?_, ?_, ?_⟩
      · exact events_renewedEach s.silenced env.sequence ids
      · rw [hpersistent, renewedEach_live]
        exact persistent_renewedEach_congr _ _ rfl
      · have hview := view_renewedEach env.sequence ids s.silenced
        have hinst := congrArg Registry.inst hview
        exact hinst.trans (funext hsame.inst).symm
    · exact absurd (hrenewable.mpr hall) hnot
  · rcases @invokeEach_bumpAlert env s htidy hopen _ hlive with
      ⟨hall, -⟩ | ⟨-, heach⟩
    · exact absurd (hrenewable.mp hall) hnot
    · rw [hbulk, heach]
      refine ⟨iff_of_false ?_ ?_, ?_⟩
      · rintro ⟨resp, hresp⟩
        cases hresp
      · rintro ⟨out, hout⟩
        cases hout
      · intro resp resps evs t hresp
        cases hresp

/-- One alert is asked for twice, and one position has none. -/
theorem bulk_renewal_is_one_by_one_mixedRun :
    ∃ out, invokeEach dispatch (envAt 5 [])
      (([0, 7, 0].filter (fun id =>
          ((run exec State.empty mixedRun).alertAt id).isSome)).map
        (fun id => .bumpAlert id defaultTtl))
      (run exec State.empty mixedRun) = some out := by
  have h := bulk_renewal_is_one_by_one mixedRun (envAt 5 []) [0, 7, 0] (by decide)
    (by rfl)
  exact h.1.mp ⟨.number 2, rfl⟩

end Renewals

section Switching

variable {env : Env} {s : State} {caller : Address}

/-- The calls that switch off, one by one, the active alerts under some ids. -/
def Registry.switchOffs (r : Registry) (caller : Address) (ids : List Nat) :
    List Call :=
  ids.filterMap (fun id => (r.table.row id).bind (fun cfg =>
    if cfg.active then some (.updateAlert caller id cfg.rules false) else none))

/-- What such a call publishes. -/
def switchOffEvent (caller : Address) (id : Nat) : Event :=
  ⟨(.alert, .update), [.u64 id, .address caller, .bool false]⟩

theorem switchOffs_cons_of_active
    {r : Registry} {id : Nat} {cfg : AlertConfig}
    (hrow : r.table.row id = some cfg) (hactive : cfg.active = true)
    (rest : List Nat) :
    r.switchOffs caller (id :: rest) =
      .updateAlert caller id cfg.rules false :: r.switchOffs caller rest := by
  simp [Registry.switchOffs, hrow, hactive]

theorem switchOffs_cons_of_not_active
    {id : Nat} (h : s.view.isActive id = false) (rest : List Nat) :
    s.view.switchOffs caller (id :: rest) = s.view.switchOffs caller rest := by
  rw [isActive_eq_false_iff] at h
  cases hget : s.persistent.get (.alert id) with
  | none => simp [Registry.switchOffs, view_row, hget]
  | some cfg => simp [Registry.switchOffs, view_row, hget, h cfg hget]

/-- The inactive ones need no call. -/
theorem switchOffs_filter (r : Registry) (ids : List Nat) :
    r.switchOffs caller (ids.filter r.isActive) = r.switchOffs caller ids := by
  unfold Registry.switchOffs
  rw [List.filterMap_filter]
  apply List.filterMap_congr
  intro id _
  cases hrow : r.table.row id <;> simp [Registry.isActive, hrow]

/-- Switching off one alert does not change what there is to do for others. -/
theorem switchOffs_deactivate
    (r : Registry) (now : Nat) {id : Nat} {ids : List Nat} (hid : id ∉ ids) :
    (r.deactivate now [id]).switchOffs caller ids = r.switchOffs caller ids := by
  apply List.filterMap_congr
  intro id' hid'
  have hne : id' ≠ id := by
    rintro rfl
    exact hid hid'
  simp [Registry.deactivate, hne]

/-- The caller may rewrite the alert under the id, if there is one, with the rules
that it has. -/
def Registry.Restatable (r : Registry) (caller : Address) (id : Nat) : Prop :=
  ∀ cfg, r.table.row id = some cfg →
    cfg.owner = caller ∧ validateRules cfg.rules = .ok ()

theorem Registry.Restatable.deactivate
    {r : Registry} {id : Nat} (h : r.Restatable caller id) (now : Nat)
    {id' : Nat} (hne : id ≠ id') :
    (r.deactivate now [id']).Restatable caller id := by
  intro cfg hrow
  apply h cfg
  simpa [Registry.deactivate, hne] using hrow

/-- Switching off an active alert. -/
theorem invoke_switchOff
    (h : s.Leakless) (hopen : s.view.paused = false) (hauth : caller ∈ env.auths)
    {id : Nat} {cfg : AlertConfig} (hrow : s.view.table.row id = some cfg)
    (hactive : cfg.active = true) (hid : s.view.Restatable caller id) :
    ∃ s₁, invoke env (.updateAlert caller id cfg.rules false) s =
        (.ok .unit, s₁) ∧
      s₁.events = [switchOffEvent caller id] ∧ s₁.Leakless ∧
      s₁.view = s.view.deactivate env.timestamp [id] := by
  obtain ⟨howner, hrules⟩ := hid cfg hrow
  have hlists : ∀ kind, s.persistent.has (.index kind (cfg.party kind)) = true :=
    fun kind => (h.has_index_iff kind _).mpr ⟨id, cfg, hrow, rfl⟩
  have hcall : (Call.updateAlert caller id cfg.rules false).amends =
      some (caller, id) := by
    rfl
  have hinvoke := invoke_amend (s := s) hcall hrow howner (fun _ => hopen) hauth
    hrules rfl (fun _ => ⟨hlists .owner, hlists .contract⟩)
  refine ⟨_, hinvoke, ?_, ?_, ?_⟩
  · simp [Call.amendEvents, switchOffEvent]
  · have hleft := leakless_exec s
      (.call env (.updateAlert caller id cfg.rules false)) trivial h
    rw [exec_call, hinvoke] at hleft
    exact hleft
  · rw [view_announce, view_amended, view_silenced,
      Registry.deactivate_active env.timestamp hrow hactive]
    rfl

/-- Switching off the active alerts under some ids, each in its turn. -/
theorem invokeEach_switchOffs
    (h : s.Leakless) (hopen : s.view.paused = false) (hauth : caller ∈ env.auths)
    {ids : List Nat} (hnodup : ids.Nodup)
    (hids : ∀ id ∈ ids, s.view.Restatable caller id) :
    ∃ t : State, invokeEach dispatch env (s.view.switchOffs caller ids) s =
        some (List.replicate (ids.filter s.view.isActive).length .unit,
          (ids.filter s.view.isActive).map (switchOffEvent caller), t) ∧
      t.Leakless ∧ t.view = s.view.deactivate env.timestamp ids := by
  induction ids generalizing s with
  | nil => exact ⟨s, rfl, h, (Registry.deactivate_nil _ _).symm⟩
  | cons id rest ih =>
      obtain ⟨hnew, hnodup⟩ := List.nodup_cons.mp hnodup
      have hrest : ∀ id' ∈ rest, s.view.Restatable caller id' :=
        fun id' hid' => hids id' (List.mem_cons_of_mem _ hid')
      by_cases hactive : s.view.isActive id = true
      · obtain ⟨cfg, hrow, hcfg⟩ : ∃ cfg, s.view.table.row id = some cfg ∧
            cfg.active = true := by
          simpa [Registry.isActive, Option.any_eq_true] using hactive
        obtain ⟨s₁, hfirst, hevents, h₁, hview⟩ := invoke_switchOff h hopen hauth
          hrow hcfg (hids id List.mem_cons_self)
        have hrest₁ : ∀ id' ∈ rest, s₁.view.Restatable caller id' := by
          intro id' hid'
          rw [hview]
          refine (hrest id' hid').deactivate _ ?_
          rintro rfl
          exact hnew hid'
        have hactive₁ : rest.filter s₁.view.isActive =
            rest.filter s.view.isActive := by
          apply List.filter_congr
          intro id' hid'
          have hne : id' ≠ id := by
            rintro rfl
            exact hnew hid'
          rw [hview]
          simp [Registry.isActive, Registry.deactivate, hne]
        have hopen₁ : s₁.view.paused = false := by
          rw [hview]
          exact hopen
        obtain ⟨t, heach, ht, hleft⟩ := ih h₁ hopen₁ hnodup hrest₁
        rw [hview, switchOffs_deactivate _ _ hnew] at heach
        rw [hview, Registry.deactivate_cons] at hleft
        refine ⟨t, ?_, ht, hleft⟩
        rw [switchOffs_cons_of_active hrow hcfg,
          invokeEach_cons_of_some hfirst heach, hevents,
          List.filter_cons_of_pos hactive, ← hview, hactive₁, List.length_cons,
          List.replicate_succ]
        rfl
      · have hinactive : s.view.isActive id = false := by
          simpa using hactive
        obtain ⟨t, heach, ht, hleft⟩ := ih h hopen hnodup hrest
        refine ⟨t, ?_, ht, ?_⟩
        · rw [switchOffs_cons_of_not_active hinactive,
            List.filter_cons_of_neg hactive]
          exact heach
        · rw [hleft, ← Registry.deactivate_cons, Registry.deactivate_inactive]
          exact (isActive_eq_false_iff id).mp hinactive

end Switching

section Records

/-- The fields of a record would be accepted again. -/
structure AlertConfig.Accepted (cfg : AlertConfig) : Prop where
  label : validateLabel cfg.label = .ok ()
  rules : validateRules cfg.rules = .ok ()
  tags : validateTags cfg.tags = .ok ()

/-- Registrations check what they write. -/
theorem enrols_accepted
    {call : Call} {now : Nat} {owner : Address} {cfgs : List AlertConfig}
    (h : call.enrols now = some (owner, cfgs)) (hok : call.Checked) :
    ∀ cfg ∈ cfgs, cfg.Accepted := by
  cases call with
  | registerAlert _ _ _ _ _ _ =>
      simp only [Call.enrols, Option.some.injEq, Prod.mk.injEq] at h
      obtain ⟨-, rfl⟩ := h
      intro cfg hcfg
      obtain rfl := List.mem_singleton.mp hcfg
      obtain ⟨-, hlabel, hrules, htags⟩ := hok
      exact ⟨hlabel, hrules, htags⟩
  | batchRegisterAlerts caller inputs =>
      simp only [Call.enrols, Option.some.injEq, Prod.mk.injEq] at h
      obtain ⟨-, rfl⟩ := h
      intro cfg hcfg
      obtain ⟨input, hinput, rfl⟩ := List.mem_map.mp hcfg
      obtain ⟨-, hlabel, hrules⟩ := validateInputs_spec hok.2 input hinput
      exact ⟨hlabel, hrules, rfl⟩
  | _ => simp [Call.enrols] at h

/-- So do the changes of an owner. -/
theorem amended_accepted
    {call : Call} {now : Nat} {cfg cfg' : AlertConfig}
    (hcfg : cfg.Accepted) (hok : call.Checked)
    (h : call.amended now cfg = some cfg') :
    cfg'.Accepted := by
  obtain ⟨hlabel, hrules, htags⟩ := hcfg
  cases call with
  | updateAlert _ _ rules active =>
      obtain rfl := Option.some.inj h
      exact ⟨hlabel, hok, htags⟩
  | updateLabel _ _ label =>
      obtain rfl := Option.some.inj h
      exact ⟨hok, hrules, htags⟩
  | updateTags _ _ tags =>
      obtain rfl := Option.some.inj h
      exact ⟨hlabel, hrules, hok⟩
  | updateWebhook _ _ _ | proposeWebhook _ _ _ =>
      obtain rfl := Option.some.inj h
      exact ⟨hlabel, hrules, htags⟩
  | confirmWebhook _ _ =>
      obtain ⟨pending, -, rfl⟩ := Option.map_eq_some_iff.mp h
      exact ⟨hlabel, hrules, htags⟩
  | _ => exact absurd h (by simp [Call.amended])

theorem accepted_exec
    (s : State) (st : Step) (h : s.view.AllRows AlertConfig.Accepted) :
    (exec s st).view.AllRows AlertConfig.Accepted := by
  cases st with
  | expire keys => exact allRows_dropping s.silenced h keys
  | call env call =>
      rcases invoke_refines env call s with ⟨resp, -, hstep⟩ | ⟨-, hview⟩
      · refine hstep.allRows h (fun _ _ => enrols_accepted) ?_ ?_ ?_ ?_
        · intro _ id cfg cfg' _ hok _ hrow _ hnew
          exact amended_accepted (h id cfg hrow) hok hnew
        · exact fun _ _ hcfg => ⟨hcfg.label, hcfg.rules, hcfg.tags⟩
        · exact fun _ _ hcfg => ⟨hcfg.label, hcfg.rules, hcfg.tags⟩
        · exact fun _ _ hcfg => ⟨hcfg.label, hcfg.rules, hcfg.tags⟩
      · rw [exec_call, hview]
        exact h

theorem accepted_empty : State.empty.view.AllRows AlertConfig.Accepted := by
  intro id cfg hrow
  exact absurd hrow (by simp [view_row])

/-- In every state, every record has fields that would be accepted again. -/
theorem accepted_run (steps : List Step) :
    (run exec State.empty steps).view.AllRows AlertConfig.Accepted := by
  exact run_induction (C := fun _ => True)
    (P := fun s => s.view.AllRows AlertConfig.Accepted) accepted_empty
    (fun s st _ => accepted_exec s st) (fun _ _ => trivial)

end Records

/-- On an unpaused contract in which nothing has expired, `deactivate_all_alerts`
leaves the same values as `update_alert` on each active alert of the caller with
the rules that it has, all of which succeed, and counts these.  But it publishes
nothing, where each of them publishes an event. -/
theorem mass_deactivation_is_one_by_one
    (steps : List Step) (hsteps : ∀ st ∈ steps, st.isCall)
    (env : Env) (caller : Address)
    (hopen : (run exec State.empty steps).view.paused = false)
    (hauth : caller ∈ env.auths) :
    ∃ (ids : List Nat) (t : State), ids.Nodup ∧
      (∀ id, id ∈ ids ↔ ∃ cfg, (run exec State.empty steps).alertAt id = some cfg ∧
        cfg.owner = caller ∧ cfg.active = true) ∧
      invokeEach dispatch env ((run exec State.empty steps).view.switchOffs caller ids)
          (run exec State.empty steps) =
        some (List.replicate ids.length .unit, ids.map (switchOffEvent caller), t) ∧
      (invoke env (.deactivateAllAlerts caller) (run exec State.empty steps)).1 =
        .ok (.number ids.length) ∧
      (invoke env (.deactivateAllAlerts caller)
        (run exec State.empty steps)).2.events = [] ∧
      t.SameValues (invoke env (.deactivateAllAlerts caller)
        (run exec State.empty steps)).2 := by
  have h := leakless_run hsteps
  have haccepted := accepted_run steps
  generalize run exec State.empty steps = s at hopen h haccepted ⊢
  let ids := (s.listed .owner caller).filter s.view.isActive
  have hnodup : (s.listed .owner caller).Nodup := h.safe.sound.nodup .owner caller
  have hmass := @invoke_deactivateAllAlerts env s caller hopen hauth hnodup
  have hmem : ∀ id, id ∈ ids ↔ ∃ cfg, s.alertAt id = some cfg ∧
      cfg.owner = caller ∧ cfg.active = true :=
    mem_filter_isActive h.safe h.complete
  have hids : ∀ id ∈ s.listed .owner caller, s.view.Restatable caller id := by
    intro id hid cfg hrow
    exact ⟨h.safe.sound.party_eq .owner caller id cfg hid hrow,
      (haccepted id cfg hrow).rules⟩
  obtain ⟨t, heach, ht, hview⟩ :=
    invokeEach_switchOffs h hopen hauth hnodup hids
  refine ⟨ids, t, List.Nodup.filter _ hnodup, hmem, ?_, ?_, ?_, ?_⟩
  · rw [switchOffs_filter]
    exact heach
  · rw [hmass]
  · rw [hmass]
    exact events_deactivatedEach s.silenced env.sequence env.timestamp _
  · have hleft := leakless_exec s (.call env (.deactivateAllAlerts caller)) trivial h
    have hview' := view_deactivatedEach env.sequence env.timestamp
      (s.listed .owner caller) s.silenced
    rw [exec_call, hmass] at hleft
    rw [hmass]
    have hboth : (State.deactivatedEach env.sequence env.timestamp
        (s.listed .owner caller) s.silenced).view = t.view := by
      rw [hview', hview, view_silenced]
    refine ⟨ht.get_eq hleft (congrArg Registry.table hboth), ?_⟩
    exact fun i => congrFun (congrArg Registry.inst hboth) i

theorem mass_deactivation_is_one_by_one_mixedRun :
    ∃ ids : List Nat,
      (invoke (envAt 5 [alice]) (.deactivateAllAlerts alice)
        (run exec State.empty mixedRun)).1 = .ok (.number ids.length) := by
  obtain ⟨ids, -, -, -, -, hmass, -⟩ := mass_deactivation_is_one_by_one mixedRun
    (by simp [mixedRun, Step.isCall]) (envAt 5 [alice]) alice (by rfl) (by decide)
  exact ⟨ids, hmass⟩

end AlertRegistry
end TxWatch
