import TxWatch.AlertRegistry.Answers

/-!
# The contract refines the registry

Every call that returns makes a step of the abstract registry, with the same
response and the same events; every call that fails leaves it alone.  What is
proved about `Registry.Step` therefore holds of every run of the contract.
-/

namespace TxWatch
namespace AlertRegistry

open Soroban Soroban.Contract Indexed

section Returning

variable {env : Env} {s s' : State} {call : Call} {resp : Response}

/-- A query leaves the registry as it was and publishes nothing. -/
theorem frame_of_query
    (hcall : call.isQuery = true)
    (h : (dispatch call).Returns env s.silenced resp s') :
    s'.events = [] ∧ s'.view = s.view := by
  by_cases hget : ∃ id, call = .getAlert id
  · obtain ⟨id, rfl⟩ := hget
    simp only [dispatch, returns_respond, returns_getAlert] at h
    obtain ⟨o, ⟨-, rfl⟩, -⟩ := h
    split_ifs <;> simp
  · have hro := checks_query hcall (fun id hid => hget ⟨id, hid⟩)
    obtain rfl := hro.returns h
    exact ⟨rfl, rfl⟩

theorem step_of_query
    (hcall : call.isQuery = true)
    (h : (dispatch call).Returns env s.silenced resp s') :
    Registry.Step env s.view call resp s'.events s'.view := by
  obtain ⟨hevents, hview⟩ := frame_of_query hcall h
  rw [hevents, hview]
  exact .query hcall ((returns_query_iff (s := s.silenced) hcall).mp ⟨s', h⟩)

theorem step_of_administer
    {admin : Address}
    (hcall : call.administers = some admin)
    (h : (dispatch call).Returns env s.silenced resp s') :
    Registry.Step env s.view call resp s'.events s'.view := by
  rw [returns_administer hcall] at h
  obtain ⟨admins, entry, hauth, hadmins, hmem, hok, hset, rfl, rfl⟩ := h
  rw [view_announce, view_setInst, events_announce]
  exact .administer hcall hset hauth hadmins hmem hok

/-- The storage that a registration leaves. -/
theorem step_of_createdAll
    {owner : Address} {cfgs : List AlertConfig}
    (hstep : Registry.Step env s.view call resp
      (registerEvents s.view.nextId cfgs)
      ((s.view.prunedFor owner).createAll cfgs))
    (hs' : s' = State.createdAll env.sequence cfgs
      (State.prunedFor s.silenced env.sequence owner)) :
    Registry.Step env s.view call resp s'.events s'.view := by
  subst hs'
  rw [events_createdAll, view_createdAll, view_prunedFor, events_prunedFor,
    Registry.nextId_prunedFor, view_silenced, State.events_silenced, List.nil_append]
  exact hstep

theorem step_of_enrol
    {owner : Address} {cfgs : List AlertConfig}
    (hcall : call.enrols env.timestamp = some (owner, cfgs))
    (h : (dispatch call).Returns env s.silenced resp s') :
    Registry.Step env s.view call resp s'.events s'.view := by
  cases call with
  | registerAlert owner' targetContract label webhookHash rules tags =>
      simp only [dispatch, returns_respond, returns_registerAlert,
        view_silenced] at h
      obtain ⟨id, ⟨hpaused, hlen, hauth, hlabel, hrules, htags, hfits, rfl,
        hlt, -, -, hs'⟩, rfl⟩ := h
      obtain ⟨rfl, rfl⟩ : owner' = owner ∧ _ = cfgs := by
        simpa [Call.enrols] using hcall
      exact step_of_createdAll (.enrol hcall ⟨hlen, hlabel, hrules, htags⟩
        hpaused hauth hfits (fun _ => hlt)) hs'
  | batchRegisterAlerts caller inputs =>
      simp only [dispatch, returns_respond] at h
      obtain ⟨ids, h, rfl⟩ := h
      obtain ⟨hpaused, hsize, hauth, hvalid, hfits, rfl, hbound, hs'⟩ :=
        returns_batchRegisterAlerts h
      obtain ⟨rfl, rfl⟩ : caller = owner ∧ _ = cfgs := by
        simpa [Call.enrols] using hcall
      have hstep := Registry.Step.enrol (r := s.view) hcall
        ⟨hsize, hvalid⟩ hpaused hauth (by simpa using hfits)
        (by simpa using hbound)
      refine step_of_createdAll ?_ hs'
      simpa [Call.receipt] using hstep
  | _ => simp [Call.enrols] at hcall

theorem step_of_amend
    {caller : Address} {id : Nat}
    (hcall : call.amends = some (caller, id))
    (h : (dispatch call).Returns env s.silenced resp s') :
    Registry.Step env s.view call resp s'.events s'.view := by
  rw [returns_amend hcall] at h
  obtain ⟨cfg, cfg', hrow, howner, hpaused, hauth, hok, hcfg', -, rfl, rfl⟩ := h
  rw [view_announce, view_amended, events_announce, events_amended]
  exact .amend hcall hok hpaused hauth hrow howner hcfg'

theorem step_of_activate
    {admin : Address} {id : Nat} {active : Bool}
    (hcall : call.activates = some (admin, id, active))
    (h : (dispatch call).Returns env s.silenced resp s') :
    Registry.Step env s.view call resp s'.events s'.view := by
  rw [returns_activate hcall] at h
  obtain ⟨cfg, hauth, hadmin, hrow, rfl, rfl⟩ := h
  rw [view_emit, view_flagged, view_store_alert, State.events_emit,
    events_flagged]
  exact .activate hcall hauth hadmin hrow

/-- Calls that no family covers. -/
theorem step_of_other
    (hquery : call.isQuery = false)
    (hadm : call.administers = none)
    (henrol : call.enrols env.timestamp = none)
    (hamend : call.amends = none)
    (hact : call.activates = none)
    (h : (dispatch call).Returns env s.silenced resp s') :
    Registry.Step env s.view call resp s'.events s'.view := by
  cases call with
  | initialise admin =>
      simp only [dispatch, returns_done, returns_initialise] at h
      obtain ⟨⟨hnone, rfl⟩, rfl⟩ := h
      exact .initialise hnone
  | removeAlert caller id =>
      simp only [dispatch, returns_done, returns_removeAlert] at h
      obtain ⟨⟨cfg, hpaused, hauth, hrow, howner, rfl⟩, rfl⟩ := h
      rw [view_emit, view_erased, State.events_emit, events_erased]
      exact .remove hpaused hauth hrow howner
  | removeAlertByAdmin admin id =>
      simp only [dispatch, returns_done, returns_removeAlertByAdmin] at h
      obtain ⟨⟨cfg, hpaused, hauth, hadmin, hrow, rfl⟩, rfl⟩ := h
      rw [view_emit, view_erased, State.events_emit, events_erased]
      exact .removeByAdmin hpaused hauth hadmin hrow
  | bumpAlert id ttl =>
      simp only [dispatch, returns_done, returns_bumpAlert] at h
      obtain ⟨⟨cfg, hpaused, hrow, -, -, -, rfl⟩, rfl⟩ := h
      rw [view_emit, view_bumped, State.events_emit, events_bumped]
      refine .bump hpaused ?_
      rw [view_silenced] at hrow
      simp [hrow]
  | bulkRenewTtl ids =>
      simp only [dispatch, returns_respond, bulkRenewTtl, returns_bind,
        returns_rejectIf] at h
      obtain ⟨n, ⟨-, _, ⟨hsize, rfl⟩, hloop⟩, rfl⟩ := h
      obtain ⟨rfl, rfl⟩ := returns_bulkRenewFrom hloop
      rw [view_renewedEach, events_renewedEach, Nat.zero_add]
      exact .bulkRenew (by omega)
  | deactivateAllAlerts caller =>
      simp only [dispatch, returns_respond] at h
      obtain ⟨n, h, rfl⟩ := h
      obtain ⟨hpaused, hauth, rfl, rfl⟩ := (returns_deactivateAllAlerts caller n).mp h
      rw [view_deactivatedEach, events_deactivatedEach]
      exact .deactivateAll hpaused hauth
  | updateTargetContract caller id newTarget =>
      simp only [dispatch, returns_done, returns_updateTargetContract] at h
      obtain ⟨⟨cfg, hpaused, hauth, hrow, howner, -, rfl⟩, rfl⟩ := h
      rw [view_moved, events_moved, view_store_alert, State.events_store]
      exact .retarget hpaused hauth hrow howner
  | transferAlertOwnership owner id newOwner =>
      simp only [dispatch, returns_done, returns_transferAlertOwnership] at h
      obtain ⟨⟨cfg, hpaused, hauth, hrow, howner, h⟩, rfl⟩ := h
      rcases h with ⟨rfl, rfl⟩ | ⟨hne, hfits, -, rfl⟩
      · exact .keepOwner hpaused hauth hrow howner
      · rw [view_emit, view_store_alert, view_moved, view_prunedFor,
          State.events_emit, State.events_store, events_moved, events_prunedFor]
        exact .reown hne hpaused hauth hrow howner hfits
  | _ =>
      simp_all [Call.isQuery, Call.administers, Call.enrols, Call.amends,
        Call.activates]

/-- A call that returns makes a step of the registry. -/
theorem step_of_returns
    (h : (dispatch call).Returns env s.silenced resp s') :
    Registry.Step env s.view call resp s'.events s'.view := by
  cases hquery : call.isQuery with
  | true => exact step_of_query hquery h
  | false =>
  cases hadm : call.administers with
  | some admin => exact step_of_administer hadm h
  | none =>
  cases henrol : call.enrols env.timestamp with
  | some owned => exact step_of_enrol henrol h
  | none =>
  cases hamend : call.amends with
  | some owned => exact step_of_amend hamend h
  | none =>
  cases hact : call.activates with
  | some switch => exact step_of_activate hact h
  | none => exact step_of_other hquery hadm henrol hamend hact h

end Returning

section Invocations

variable {env : Env} {call : Call} {s : State}

theorem invoke_of_returns
    {resp : Response} {s' : State}
    (h : (dispatch call).Returns env s.silenced resp s') :
    invoke env call s = (.ok resp, s') :=
  transact_of_returns h

theorem invoke_of_fails
    {f : Failure ContractError} {s' : State}
    (h : (dispatch call).Fails env s.silenced f s') :
    invoke env call s = (.error f, s.silenced) :=
  transact_of_fails h

/-- The result of a call is that of its computation. -/
theorem invoke_fst (env : Env) (call : Call) (s : State) :
    (invoke env call s).1 = ((dispatch call).run env s.silenced).1 :=
  transact_fst (dispatch call) env s

/-- The two outcomes of a call. -/
theorem invoke_cases (env : Env) (call : Call) (s : State) :
    (∃ resp s', (dispatch call).Returns env s.silenced resp s' ∧
        invoke env call s = (.ok resp, s')) ∨
      (∃ f, invoke env call s = (.error f, s.silenced)) := by
  rcases transact_cases (dispatch call) env s with
    ⟨resp, s', h, heq⟩ | ⟨f, s', -, heq⟩
  · exact Or.inl ⟨resp, s', h, heq⟩
  · exact Or.inr ⟨f, heq⟩

/-- A query succeeds exactly with what the registry answers. -/
theorem invoke_query_iff (hcall : call.isQuery = true) (resp : Response) :
    (invoke env call s).1 = .ok resp ↔ s.view.answer env call = some resp := by
  have hreturns := @returns_query_iff env s.silenced call resp hcall
  rw [view_silenced] at hreturns
  rw [← hreturns]
  constructor
  · intro h
    exact ⟨_, returns_of_transact h⟩
  · rintro ⟨s', h⟩
    rw [invoke_of_returns h]

/-- What a call does to the registry: a step when it succeeds, nothing when it
fails. -/
theorem invoke_refines (env : Env) (call : Call) (s : State) :
    (∃ resp, (invoke env call s).1 = .ok resp ∧
        Registry.Step env s.view call resp (invoke env call s).2.events
          (invoke env call s).2.view) ∨
      ((∃ f, (invoke env call s).1 = .error f) ∧
        (invoke env call s).2.view = s.view) := by
  rcases invoke_cases env call s with ⟨resp, s', h, heq⟩ | ⟨f, heq⟩
  · left
    rw [heq]
    exact ⟨resp, rfl, step_of_returns h⟩
  · right
    rw [heq]
    exact ⟨⟨f, rfl⟩, rfl⟩

/-- An owner's call on a record that passes its checks is carried out. -/
theorem invoke_amend
    {caller : Address} {id : Nat} {cfg cfg' : AlertConfig}
    (hcall : call.amends = some (caller, id))
    (hrow : s.view.table.row id = some cfg) (howner : cfg.owner = caller)
    (hpaused : call.asksPaused = true → s.view.paused = false)
    (hauth : caller ∈ env.auths) (hok : call.Checked)
    (hnew : call.amended env.timestamp cfg = some cfg')
    (hlists : call.renewsLists = true →
      s.persistent.has (.ownerIndex cfg.owner) = true ∧
      s.persistent.has (.contractIndex cfg.targetContract) = true) :
    invoke env call s =
      (.ok .unit,
        State.announce (State.amended s.silenced env.sequence call id cfg cfg')
          (call.amendEvents cfg)) := by
  apply invoke_of_returns
  rw [returns_amend hcall]
  exact ⟨cfg, cfg', hrow, howner, hpaused, hauth, hok, hnew, hlists, rfl, rfl⟩

/-- An administrative switch that passes its checks is carried out. -/
theorem invoke_activate
    {admin : Address} {id : Nat} {active : Bool} {cfg : AlertConfig}
    (hcall : call.activates = some (admin, id, active))
    (hauth : admin ∈ env.auths) (hadmin : s.view.IsAdmin admin)
    (hrow : s.view.table.row id = some cfg) :
    invoke env call s =
      (.ok .unit,
        State.emit
          (State.flagged
            (s.silenced.store env.sequence (.alert id)
              { cfg with active := active, updatedAt := env.timestamp }
              defaultTtl)
            env.sequence id (some active))
          ⟨(.alert, .update), [.u64 id, .address admin, .bool active]⟩) := by
  apply invoke_of_returns
  rw [returns_activate hcall]
  exact ⟨cfg, hauth, hadmin, hrow, rfl, rfl⟩

end Invocations

end AlertRegistry
end TxWatch
