import TxWatch.AlertRegistry.Specs
import TxWatch.AlertRegistry.Queries

/-!
# What the queries answer

Each loop over a list of ids is a filter of the records found under them.  A
query that gets past the gate therefore answers what `Registry.answer` says, and
one that does not fails.
-/

namespace TxWatch
namespace AlertRegistry

open Soroban Soroban.Contract Indexed

section Loops

variable (s : State)

/-- A loop that pushes the records passing a test, skipping absent ones. -/
theorem foldl_push_eq_filter_records
    (p : AlertConfig → Bool) (ids : List Nat) (out : List AlertConfig) :
    ids.foldl
        (fun out id =>
          match s.persistent.get (.alert id) with
          | some cfg => if p cfg then out ++ [cfg] else out
          | none => out) out =
      out ++ (s.records ids).filter p := by
  induction ids generalizing out with
  | nil => simp [State.records]
  | cons id rest ih =>
      rw [List.foldl_cons, ih]
      cases hget : s.persistent.get (.alert id) with
      | none => simp [State.records, State.alertAt, hget]
      | some cfg =>
          by_cases hp : p cfg = true
          · simp [State.records, State.alertAt, hget, hp]
          · simp [State.records, State.alertAt, hget, hp]

theorem configsForIds_eq (ids : List Nat) :
    configsForIds s ids = s.records ids := by
  have h := foldl_push_eq_filter_records s (fun _ => true) ids []
  simp only [if_true, List.nil_append, List.filter_true] at h
  exact h

theorem activeConfigsForIds_eq (ids : List Nat) :
    activeConfigsForIds s ids = (s.records ids).filter (fun cfg => cfg.active) := by
  exact foldl_push_eq_filter_records s (fun cfg => cfg.active) ids []

/-- The loop of `get_alerts_updated_since` filters, skips what is left of the
offset and stops at what is left of the limit. -/
theorem updatedSinceFrom_eq
    (since offset limit : Nat) (ids : List Nat) (skipped : Nat)
    (out : List AlertConfig) (hskipped : skipped ≤ offset) :
    updatedSinceFrom s since offset limit ids skipped out =
      out ++ (((s.records ids).filter (fun cfg => cfg.updatedAt ≥ since)).drop
        (offset - skipped)).take (limit - out.length) := by
  induction ids generalizing skipped out with
  | nil => simp [updatedSinceFrom, State.records]
  | cons id rest ih =>
      by_cases hfull : out.length ≥ limit
      · have hroom : limit - out.length = 0 := by
          omega
        rw [updatedSinceFrom, if_pos hfull, hroom, List.take_zero,
          List.append_nil]
      · rw [updatedSinceFrom, if_neg hfull]
        cases hget : s.persistent.get (.alert id) with
        | none =>
            rw [ih skipped out hskipped]
            simp [State.records, State.alertAt, hget]
        | some cfg =>
            by_cases hsince : cfg.updatedAt ≥ since
            · have hrecords : (s.records (id :: rest)).filter
                  (fun cfg => cfg.updatedAt ≥ since) =
                    cfg :: (s.records rest).filter
                      (fun cfg => cfg.updatedAt ≥ since) := by
                simp [State.records, State.alertAt, hget, hsince]
              rw [hrecords]
              simp only [hsince, if_true]
              by_cases hskip : skipped < offset
              · have hleft : offset - skipped = (offset - (skipped + 1)) + 1 := by
                  omega
                rw [if_pos hskip, ih (skipped + 1) out hskip, hleft,
                  List.drop_succ_cons]
              · have hdone : offset - skipped = 0 := by
                  omega
                have hroom : limit - out.length =
                    (limit - (out ++ [cfg]).length) + 1 := by
                  rw [List.length_append, List.length_singleton]
                  omega
                rw [if_neg hskip, ih skipped (out ++ [cfg]) hskipped, hdone,
                  hroom]
                simp
            · simp only [hsince, if_false]
              rw [ih skipped out hskipped]
              simp [State.records, State.alertAt, hget, hsince]

/-- The loop of `configs_paginated` reads the records of a stretch of the
list. -/
theorem returns_configsPaginatedFrom
    (env : Env) (ids : List Nat) (count i : Nat) (out : List AlertConfig)
    (h : i + count ≤ ids.length) :
    (configsPaginatedFrom ids count i out).Returns env s
      (out ++ s.records ((ids.drop i).take count)) s := by
  induction count generalizing i out with
  | zero => simp [configsPaginatedFrom, State.records]
  | succ count ih =>
      have hlt : i < ids.length := by
        omega
      have hrest : i + 1 + count ≤ ids.length := by
        omega
      rw [List.drop_eq_getElem_cons hlt, List.take_succ_cons]
      simp only [configsPaginatedFrom, returns_bind, returns_unwrap,
        returns_persistentGet]
      refine ⟨_, _, ⟨List.getElem?_eq_getElem hlt, rfl⟩, _, _, ⟨rfl, rfl⟩, ?_⟩
      cases hget : s.persistent.get (.alert ids[i]) with
      | none =>
          have hrecords := ih (i + 1) out hrest
          simpa [State.records, State.alertAt, hget] using hrecords
      | some cfg =>
          have hrecords := ih (i + 1) (out ++ [cfg]) hrest
          simpa [State.records, State.alertAt, hget] using hrecords

/-- The loop of `get_active_alerts_paginated` copies a stretch of the list. -/
theorem returns_activePageFrom
    (env : Env) (active : List AlertConfig) (count i : Nat)
    (out : List AlertConfig) (h : i + count ≤ active.length) :
    (activePageFrom active count i out).Returns env s
      (out ++ (active.drop i).take count) s := by
  induction count generalizing i out with
  | zero => simp [activePageFrom]
  | succ count ih =>
      have hlt : i < active.length := by
        omega
      have hrest : i + 1 + count ≤ active.length := by
        omega
      rw [List.drop_eq_getElem_cons hlt, List.take_succ_cons]
      simp only [activePageFrom, returns_bind, returns_unwrap]
      refine ⟨_, _, ⟨List.getElem?_eq_getElem hlt, rfl⟩, ?_⟩
      have hpage := ih (i + 1) (out ++ [active[i]]) hrest
      simpa using hpage

theorem foldl_count_eq_length
    {α : Type} (p : α → Bool) (l : List α) (n : Nat) :
    l.foldl (fun count x => if p x then count + 1 else count) n =
      n + (l.filter p).length := by
  induction l generalizing n with
  | nil => rfl
  | cons x l ih =>
      rw [List.foldl_cons, ih]
      by_cases hp : p x = true
      · simp [hp]
        omega
      · simp [hp]

/-- As many records are found as there are live ids. -/
theorem length_records (ids : List Nat) :
    (s.records ids).length = (s.view.table.live ids).length := by
  induction ids with
  | nil => rfl
  | cons id rest ih =>
      cases hget : s.persistent.get (.alert id) with
      | none => simpa [State.records, State.alertAt, Table.live, view_row, hget] using ih
      | some cfg =>
          simpa [State.records, State.alertAt, Table.live, view_row, hget] using ih

end Loops

section Queries

variable (env : Env) (s : State)

theorem returns_configsPaginated (ids : List Nat) (offset limit : Nat) :
    (configsPaginated ids offset limit).Returns env s
      (s.records (slice ids offset limit)) s := by
  have hpage := returns_configsPaginatedFrom s env ids
    (min (saturatingAdd32 offset (min limit maxBatchSize)) ids.length -
      min offset ids.length) (min offset ids.length) [] (by omega)
  exact hpage

theorem returns_getActiveAlertsPaginated
    (target : Address) (offset limit : Nat) :
    (getActiveAlertsPaginated target offset limit).Returns env s
      (slice ((s.records (s.view.table.index .contract target)).filter
        (fun cfg => cfg.active)) offset limit) s := by
  simp only [getActiveAlertsPaginated, contractIndex, returns_bind,
    returns_loadIndex, returns_getState]
  refine ⟨_, _, ⟨rfl, rfl⟩, _, _, ⟨rfl, rfl⟩, ?_⟩
  rw [activeConfigsForIds_eq]
  exact returns_activePageFrom s env _ _ _ [] (by omega)

/-- What the entry points that return alert configs answer, once the querier
has passed the gate where there is one. -/
theorem returns_readsAlerts
    {call : Call} (hcall : call.readsAlerts = true)
    (hgate : ∀ q, call.querier = some q →
      (assertWatcherIfConfigured q).Returns env s () s) :
    (dispatch call).Returns env s (.alerts (s.view.readout call)) s := by
  cases call with
  | getAlertsForContract querier target =>
      have hloop := configsForIds_eq s (s.view.table.index .contract target)
      simp only [dispatch, returns_respond, getAlertsForContract, contractIndex,
        returns_bind, returns_loadIndex, returns_getState, returns_pure]
      refine ⟨_, ⟨_, _, hgate querier rfl, _, _, ⟨rfl, rfl⟩, _, _, ⟨rfl, rfl⟩,
        rfl, rfl⟩, ?_⟩
      exact congrArg Response.alerts hloop.symm
  | getContractAlertsPaginated querier target offset limit =>
      simp only [dispatch, returns_respond, getContractAlertsPaginated,
        contractIndex, returns_bind, returns_loadIndex]
      exact ⟨_, ⟨_, _, hgate querier rfl, _, _, ⟨rfl, rfl⟩,
        returns_configsPaginated env s _ offset limit⟩, rfl⟩
  | getAlertsByOwner querier owner =>
      have hloop := configsForIds_eq s (s.view.table.index .owner owner)
      simp only [dispatch, returns_respond, getAlertsByOwner, ownerIndex,
        returns_bind, returns_loadIndex, returns_getState, returns_pure]
      refine ⟨_, ⟨_, _, hgate querier rfl, _, _, ⟨rfl, rfl⟩, _, _, ⟨rfl, rfl⟩,
        rfl, rfl⟩, ?_⟩
      exact congrArg Response.alerts hloop.symm
  | getAlertsByOwnerPaginated querier owner offset limit =>
      simp only [dispatch, returns_respond, getAlertsByOwnerPaginated,
        ownerIndex, returns_bind, returns_loadIndex]
      exact ⟨_, ⟨_, _, hgate querier rfl, _, _, ⟨rfl, rfl⟩,
        returns_configsPaginated env s _ offset limit⟩, rfl⟩
  | getActiveAlertsForContract target =>
      have hloop := activeConfigsForIds_eq s (s.view.table.index .contract target)
      simp only [dispatch, returns_respond, getActiveAlertsForContract,
        contractIndex, returns_bind, returns_loadIndex, returns_getState,
        returns_pure]
      refine ⟨_, ⟨_, _, ⟨rfl, rfl⟩, _, _, ⟨rfl, rfl⟩, rfl, rfl⟩, ?_⟩
      exact congrArg Response.alerts hloop.symm
  | getActiveAlertsPaginated target offset limit =>
      simp only [dispatch, returns_respond]
      exact ⟨_, returns_getActiveAlertsPaginated env s target offset limit,
        rfl⟩
  | getAlertsUpdatedSince target since offset limit =>
      have hloop := updatedSinceFrom_eq s since offset limit
        (s.view.table.index .contract target) 0 [] (Nat.zero_le offset)
      simp only [dispatch, returns_respond, getAlertsUpdatedSince,
        contractIndex, returns_bind, returns_loadIndex, returns_getState,
        returns_pure]
      refine ⟨_, ⟨_, _, ⟨rfl, rfl⟩, _, _, ⟨rfl, rfl⟩, rfl, rfl⟩, ?_⟩
      exact congrArg Response.alerts hloop.symm
  | getAlertsModifiedSince since =>
      have hloop := foldl_push_eq_filter_records s
        (fun cfg => cfg.updatedAt ≥ since) (List.range s.view.nextId) []
      simp only [dispatch, returns_respond, getAlertsModifiedSince,
        returns_bind, returns_instanceGet, returns_getState, returns_pure]
      refine ⟨_, ⟨_, _, ⟨rfl, rfl⟩, _, _, ⟨rfl, rfl⟩, rfl, rfl⟩, ?_⟩
      simp only [decide_eq_true_eq, List.nil_append] at hloop
      exact congrArg Response.alerts hloop.symm
  | _ => cases hcall

end Queries

section Outcomes

variable {env : Env} {s s' : State} {call : Call} {resp : Response}

@[simp] theorem returns_assertWatcherIfConfigured (querier : Address) (u : Unit) :
    (assertWatcherIfConfigured querier).Returns env s u s' ↔
      (∀ registry, s.inst .watchreg = some registry →
        env.peer registry querier = some true) ∧ s' = s := by
  cases hreg : s.inst .watchreg with
  | none => simp [assertWatcherIfConfigured, hreg]
  | some registry => simp [assertWatcherIfConfigured, hreg]

/-- A query that names a querier begins by checking the querier. -/
theorem dispatch_of_querier {q : Address} (hq : call.querier = some q) :
    ∃ m, dispatch call = respond .alerts (do
      assertWatcherIfConfigured q
      m) := by
  cases call with
  | getAlertsForContract querier target =>
      obtain rfl := Option.some.inj hq
      exact ⟨_, rfl⟩
  | getAlertsByOwner querier owner =>
      obtain rfl := Option.some.inj hq
      exact ⟨_, rfl⟩
  | getContractAlertsPaginated querier target offset limit =>
      obtain rfl := Option.some.inj hq
      exact ⟨_, rfl⟩
  | getAlertsByOwnerPaginated querier owner offset limit =>
      obtain rfl := Option.some.inj hq
      exact ⟨_, rfl⟩
  | _ => cases hq

/-- The gate is open exactly when that check passes. -/
theorem gateOpen_iff :
    s.view.gateOpen env call = true ↔
      ∀ q, call.querier = some q →
        (assertWatcherIfConfigured q).Returns env s () s := by
  simp [Registry.gateOpen, Option.all_eq_true, State.view]

theorem gateOpen_of_returns
    (h : (dispatch call).Returns env s resp s') :
    s.view.gateOpen env call = true := by
  rw [gateOpen_iff]
  intro q hq
  obtain ⟨m, hm⟩ := dispatch_of_querier hq
  rw [hm, returns_respond] at h
  obtain ⟨_, h, -⟩ := h
  rw [returns_bind] at h
  obtain ⟨_, _, hgate, -⟩ := h
  rw [returns_assertWatcherIfConfigured] at hgate ⊢
  exact ⟨hgate.1, rfl⟩

/-- A query that returns the answer of the registry returns nothing else. -/
theorem returns_iff_of_answer
    {resp₀ : Response} {u : State} (hanswer : s.view.answer env call = some resp₀)
    (h : (dispatch call).Returns env s resp₀ u) :
    (∃ t, (dispatch call).Returns env s resp t) ↔
      s.view.answer env call = some resp := by
  rw [hanswer, Option.some.injEq]
  constructor
  · rintro ⟨t, ht⟩
    exact (h.unique ht).1
  · rintro rfl
    exact ⟨u, h⟩

/-- Queries for alert configs, which may be gated. -/
theorem returns_readsAlerts_iff
    (hcall : call.readsAlerts = true) :
    (∃ t, (dispatch call).Returns env s resp t) ↔
      s.view.answer env call = some resp := by
  have hanswer : s.view.answer env call =
      if s.view.gateOpen env call = true then
        some (.alerts (s.view.readout call)) else none := by
    cases call <;> simp_all [Registry.answer, Call.readsAlerts]
  by_cases hopen : s.view.gateOpen env call = true
  · refine returns_iff_of_answer (hanswer.trans (if_pos hopen))
      (returns_readsAlerts env s hcall (gateOpen_iff.mp hopen))
  · rw [hanswer, if_neg hopen]
    refine iff_of_false ?_ (by simp)
    rintro ⟨t, h⟩
    exact hopen (gateOpen_of_returns h)

/-- A query returns exactly what the registry answers. -/
theorem returns_query_iff
    (hcall : call.isQuery = true) :
    (∃ t, (dispatch call).Returns env s resp t) ↔
      s.view.answer env call = some resp := by
  cases hreads : call.readsAlerts with
  | true => exact returns_readsAlerts_iff hreads
  | false =>
  cases call with
  | getAdmin =>
      simp only [dispatch, getAdmin, Registry.answer, returns_respond, returns_bind,
        returns_loadAdmins, returns_okOr]
      cases hadmin : s.view.admins.bind (fun admins => admins[0]?) with
      | none => simp [hadmin]
      | some admin => simp [hadmin, eq_comm]
  | getAdmins =>
      exact returns_iff_of_answer (u := s) rfl (by simp [dispatch, getAdmins])
  | isPaused =>
      refine returns_iff_of_answer (u := s) rfl ?_
      simp [dispatch, isPaused, Registry.paused, State.view]
  | getPerOwnerAlertLimit =>
      refine returns_iff_of_answer (u := s) rfl ?_
      simp [dispatch, getPerOwnerAlertLimit, Registry.limit, State.view]
  | getWatcherRegistry =>
      refine returns_iff_of_answer (u := s) rfl ?_
      simp [dispatch, getWatcherRegistry, State.view]
  | getAlertIdsForContract target =>
      refine returns_iff_of_answer (u := s) rfl ?_
      simp [dispatch, getAlertIdsForContract, contractIndex, liveIds_eq_live]
  | getAlertIdsByOwner owner =>
      refine returns_iff_of_answer (u := s) rfl ?_
      simp [dispatch, getAlertIdsByOwner, ownerIndex, liveIds_eq_live, Registry.liveOf]
  | getAlert id =>
      have hread := (@returns_getAlert env s _ id _).mpr ⟨rfl, rfl⟩
      exact returns_iff_of_answer rfl ((returns_respond _ _ _).mpr ⟨_, hread, rfl⟩)
  | getAlertActive id =>
      refine returns_iff_of_answer (u := s) rfl ?_
      simp [dispatch, getAlertActive, view_active]
  | getAlertCount =>
      refine returns_iff_of_answer (u := s) rfl ?_
      simp [dispatch, getAlertCount, Registry.nextId, State.view]
  | getActiveAlertCount owner =>
      refine returns_iff_of_answer (u := s) rfl ?_
      simp [dispatch, getActiveAlertCount, ownerIndex, foldl_count_eq_length,
        Registry.liveOf, live_eq_filter]
  | _ => simp_all [Call.isQuery, Call.readsAlerts]

end Outcomes

end AlertRegistry
end TxWatch
