import TxWatch.AlertRegistry.Values

/-!
# The circuit breaker

While the contract is paused most entry points refuse.  `pause_alert`,
`unpause_alert`, `propose_webhook` and `confirm_webhook` do not ask, so a
sequence of calls keeps the data frozen exactly if it contains no accepted call
of these four that has something to change.
-/

namespace TxWatch
namespace AlertRegistry

open Soroban Soroban.Contract Indexed

/-- The values of all persistent entries and of the counter are the same. -/
structure State.SameData (s s' : State) : Prop where
  get : ∀ k, s'.persistent.get k = s.persistent.get k
  counter : s'.inst .nextId = s.inst .nextId

/-- A successful `set_paused(_, false)`. -/
def Unpauses (s : State) (i : Invocation) : Prop :=
  (∃ admin, i.call = .setPaused admin false) ∧
    ∃ resp, (invoke i.env i.call s).1 = .ok resp

/-- An accepted call, of one of the four entry points that do not ask whether
the contract is paused, that changes a record or a flag. -/
def SlipsThrough (s : State) (i : Invocation) : Prop :=
  match i.call with
  | .pauseAlert admin id =>
      admin ∈ i.env.auths ∧ s.view.IsAdmin admin ∧
        ∃ cfg, s.persistent.get (.alert id) = some cfg ∧
          ¬ (cfg.active = false ∧ cfg.updatedAt = i.env.timestamp ∧
            s.persistent.get (.alertActive id) = some false)
  | .unpauseAlert admin id =>
      admin ∈ i.env.auths ∧ s.view.IsAdmin admin ∧
        ∃ cfg, s.persistent.get (.alert id) = some cfg ∧
          ¬ (cfg.active = true ∧ cfg.updatedAt = i.env.timestamp ∧
            s.persistent.get (.alertActive id) = some true)
  | .proposeWebhook caller id newWebhookHash =>
      caller ∈ i.env.auths ∧
        ∃ cfg, s.persistent.get (.alert id) = some cfg ∧ cfg.owner = caller ∧
          ¬ (cfg.pendingWebhookHash = some newWebhookHash ∧
            cfg.updatedAt = i.env.timestamp)
  | .confirmWebhook caller id =>
      caller ∈ i.env.auths ∧
        ∃ cfg, s.persistent.get (.alert id) = some cfg ∧ cfg.owner = caller ∧
          cfg.pendingWebhookHash ≠ none
  | _ => False

theorem State.SameData.refl (s : State) : s.SameData s := by
  exact ⟨fun _ => rfl, rfl⟩

theorem State.SameData.trans
    {s t u : State} (h : s.SameData t) (h' : t.SameData u) :
    s.SameData u := by
  refine ⟨?_, ?_⟩
  · intro k
    rw [h'.get, h.get]
  · rw [h'.counter, h.counter]

theorem State.SameData.symm
    {s t : State} (h : s.SameData t) :
    t.SameData s := by
  exact ⟨fun k => (h.get k).symm, h.counter.symm⟩

theorem State.SameValues.sameData
    {s s' : State} (h : s.SameValues s') :
    s.SameData s' := by
  exact ⟨h.get, h.inst .nextId⟩

/-- A call that asks whether the contract is paused succeeds only if it is
not. -/
theorem Registry.Step.not_paused
    {env : Env} {r r' : Registry} {call : Call} {resp : Response}
    {evs : List Event}
    (h : Registry.Step env r call resp evs r')
    (hasks : call.asksPaused = true) :
    r.paused = false := by
  cases h with
  | query hquery => cases call <;> simp_all [Call.isQuery, Call.asksPaused]
  | initialise _ => simp [Call.asksPaused] at hasks
  | administer hadm _ _ _ _ _ =>
      cases call <;> simp_all [Call.administers, Call.asksPaused]
  | enrol _ _ hpaused _ _ _ => exact hpaused
  | amend _ _ hpaused _ _ _ _ => exact hpaused hasks
  | activate hact _ _ _ =>
      cases call <;> simp_all [Call.activates, Call.asksPaused]
  | deactivateAll hpaused _ => exact hpaused
  | retarget hpaused _ _ _ => exact hpaused
  | keepOwner hpaused _ _ _ => exact hpaused
  | reown _ hpaused _ _ _ _ => exact hpaused
  | remove hpaused _ _ _ => exact hpaused
  | removeByAdmin hpaused _ _ _ => exact hpaused
  | bump hpaused _ => exact hpaused
  | bulkRenew _ => simp [Call.asksPaused] at hasks

theorem Registry.paused_configure
    (r : Registry) {i : InstanceKey} (hi : i ≠ .paused) (w : i.Value) :
    (r.configure i w).paused = r.paused := by
  simp [Registry.paused, Registry.configure, Function.update_of_ne hi.symm]

/-- The pause flag stays set until a `set_paused(_, false)` succeeds. -/
theorem Registry.Step.paused
    {env : Env} {r r' : Registry} {call : Call} {resp : Response}
    {evs : List Event}
    (h : Registry.Step env r call resp evs r') (hpaused : r.paused = true)
    (hcall : ∀ admin, call ≠ .setPaused admin false) :
    r'.paused = true := by
  have hrefuses : call.asksPaused = true → r'.paused = true := by
    intro hasks
    rw [h.not_paused hasks] at hpaused
    exact absurd hpaused (by simp)
  cases h with
  | query _ => exact hpaused
  | bulkRenew _ => exact hpaused
  | initialise _ =>
      rw [Registry.paused_configure _ (by simp)]
      exact hpaused
  | @administer call admin admins entry hadm hset _ _ _ _ =>
      cases call with
      | setPaused admin' value =>
          obtain rfl := Option.some.inj hset
          cases value with
          | true => rfl
          | false => exact absurd rfl (hcall admin')
      | transferAdmin _ _ | addAdmin _ _ | removeAdmin _ _
      | setPerOwnerAlertLimit _ _ | setWatcherRegistry _ _ =>
          obtain rfl := Option.some.inj hset
          rw [Registry.paused_configure _ (by simp)]
          exact hpaused
      | _ => exact absurd hadm (by simp [Call.administers])
  | amend _ _ _ _ _ _ _ => simpa [Registry.paused] using hpaused
  | activate _ _ _ _ => simpa [Registry.paused] using hpaused
  | enrol hcall' _ hfree _ _ _ =>
      rw [hfree] at hpaused
      exact absurd hpaused (by simp)
  | _ => exact hrefuses rfl

section Values

variable (s : State) (ledger : Nat)

/-- Writing an instance entry other than the counter. -/
theorem sameData_configure
    {i : InstanceKey} (hi : i ≠ .nextId) (w : i.Value) (evs : List Event) :
    s.SameData (State.announce (s.silenced.setInst i w) evs) := by
  refine ⟨fun _ => rfl, ?_⟩
  exact Function.update_of_ne hi.symm (some w) s.inst

/-- A switch keeps the data exactly if record and flag were as it writes
them. -/
theorem sameData_activate
    {id : Nat} {cfg : AlertConfig} (hrow : s.persistent.get (.alert id) = some cfg)
    (active : Bool) (now : Nat) (ev : Event) :
    s.SameData (State.emit
        (State.flagged
          (s.silenced.store ledger (.alert id)
            { cfg with active := active, updatedAt := now } defaultTtl)
          ledger id (some active)) ev) ↔
      cfg.active = active ∧ cfg.updatedAt = now ∧
        s.persistent.get (.alertActive id) = some active := by
  constructor
  · intro h
    have hrow' := h.get (.alert id)
    have hflag := h.get (.alertActive id)
    simp [State.flagged, hrow] at hrow' hflag
    refine ⟨?_, ?_, ?_⟩
    · exact (congrArg AlertConfig.active hrow').symm
    · exact (congrArg AlertConfig.updatedAt hrow').symm
    · exact hflag.symm
  · rintro ⟨rfl, rfl, hflag⟩
    refine ⟨?_, rfl⟩
    intro k
    have hfirst : (s.persistent.store ledger (.alert id) cfg defaultTtl).get
        (.alertActive id) = some cfg.active := by
      simpa using hflag
    simp only [State.flagged, State.persistent_emit, State.persistent_store]
    exact (Store.get_store_of_get _ ledger hfirst _ k).trans
      (Store.get_store_of_get _ ledger hrow _ k)

/-- A call that writes one record keeps the data exactly if the record was as
it writes it. -/
theorem sameData_store
    {id : Nat} {cfg : AlertConfig} (hrow : s.persistent.get (.alert id) = some cfg)
    (cfg' : AlertConfig) (evs : List Event) :
    s.SameData (State.announce
        (s.silenced.store ledger (.alert id) cfg' defaultTtl) evs) ↔
      cfg' = cfg := by
  constructor
  · intro h
    have hrow' := h.get (.alert id)
    have hstored : (State.announce
        (s.silenced.store ledger (.alert id) cfg' defaultTtl) evs).persistent.get
          (.alert id) = some cfg' := by
      exact Store.get_store_self s.persistent ledger (DataKey.alert id) cfg'
        defaultTtl
    rw [hstored, hrow] at hrow'
    exact Option.some.inj hrow'
  · rintro rfl
    refine ⟨?_, rfl⟩
    intro k
    exact Store.get_store_of_get s.persistent ledger hrow defaultTtl k

end Values

section Steps

variable {s : State} {i : Invocation}

/-- While the contract is paused, calls that ask are refused, and of the others
only owners' calls on records and administrative switches write data. -/
theorem sameData_of_frozen
    (hpaused : s.view.paused = true)
    (hcall : i.call.asksPaused = false →
      i.call.amends = none ∧ i.call.activates = none) :
    s.SameData (execCall s i) := by
  obtain ⟨env, call⟩ := i
  rcases invoke_cases env call s with ⟨resp, s', hreturns, heq⟩ | ⟨f, heq⟩
  · rw [execCall, heq]
    have hasks : call.asksPaused = false := by
      by_contra hasks
      have hfree := (step_of_returns hreturns).not_paused (by simpa using hasks)
      rw [hfree] at hpaused
      exact absurd hpaused (by simp)
    obtain ⟨hamend, hact⟩ := hcall hasks
    cases hquery : call.isQuery with
    | true => exact (sameValues_of_query hquery hreturns).sameData
    | false =>
        cases call with
        | initialise admin =>
            simp only [dispatch, returns_done, returns_initialise] at hreturns
            obtain ⟨⟨-, rfl⟩, -⟩ := hreturns
            exact sameData_configure s (by simp) _ [_]
        | bulkRenewTtl ids =>
            exact (sameValues_of_bulkRenewTtl hreturns).sameData
        | transferAdmin a _ | addAdmin a _ | removeAdmin a _
        | setPerOwnerAlertLimit a _ | setPaused a _ | setWatcherRegistry a _ =>
            rw [returns_administer rfl] at hreturns
            obtain ⟨admins, entry, -, -, -, -, hset, -, rfl⟩ := hreturns
            exact sameData_configure s (Registry.setting_key hset) _ _
        | _ =>
            simp_all [Call.asksPaused, Call.isQuery, Call.amends,
              Call.activates]
  · rw [execCall, heq]
    exact ⟨fun _ => rfl, rfl⟩

/-- An administrative switch keeps the data exactly if it is refused or finds
everything as it would write it. -/
theorem sameData_switch_iff
    {admin : Address} {id : Nat} {active : Bool}
    (hcall : i.call.activates = some (admin, id, active)) :
    s.SameData (execCall s i) ↔
      ¬ (admin ∈ i.env.auths ∧ s.view.IsAdmin admin ∧
        ∃ cfg, s.persistent.get (.alert id) = some cfg ∧
          ¬ (cfg.active = active ∧ cfg.updatedAt = i.env.timestamp ∧
            s.persistent.get (.alertActive id) = some active)) := by
  obtain ⟨env, call⟩ := i
  by_cases hok : admin ∈ env.auths ∧ s.view.IsAdmin admin ∧
      ∃ cfg, s.persistent.get (.alert id) = some cfg
  · obtain ⟨hauth, hadmin, cfg, hrow⟩ := hok
    have hsame := sameData_activate s env.sequence hrow active env.timestamp
      ⟨(.alert, .update), [.u64 id, .address admin, .bool active]⟩
    rw [execCall, invoke_activate hcall hauth hadmin hrow, hsame]
    simp [hauth, hadmin, hrow]
  · have hkeeps : s.SameData (execCall s ⟨env, call⟩) := by
      rcases invoke_cases env call s with ⟨resp, s', hreturns, heq⟩ | ⟨f, heq⟩
      · rw [returns_activate hcall] at hreturns
        obtain ⟨cfg, hauth, hadmin, hrow, -, -⟩ := hreturns
        exact absurd ⟨hauth, hadmin, cfg, hrow⟩ hok
      · rw [execCall, heq]
        exact ⟨fun _ => rfl, rfl⟩
    refine iff_of_true hkeeps ?_
    rintro ⟨hauth, hadmin, cfg, hrow, -⟩
    exact hok ⟨hauth, hadmin, cfg, hrow⟩

/-- A proposal or a confirmation keeps the data exactly if it is refused or
finds the record as it would write it. -/
theorem sameData_webhook_iff
    {caller : Address} {id : Nat}
    (hcall : i.call.amends = some (caller, id))
    (hasks : i.call.asksPaused = false) :
    s.SameData (execCall s i) ↔
      ¬ (caller ∈ i.env.auths ∧
        ∃ cfg, s.persistent.get (.alert id) = some cfg ∧ cfg.owner = caller ∧
          ∃ cfg', i.call.amended i.env.timestamp cfg = some cfg' ∧
            cfg' ≠ cfg) := by
  obtain ⟨env, call⟩ := i
  obtain ⟨hflag, hlists, hok⟩ : call.amendedFlag = none ∧
      call.renewsLists = false ∧ call.Checked := by
    cases call <;>
      simp_all [Call.amends, Call.asksPaused, Call.amendedFlag,
        Call.renewsLists, Call.Checked]
  by_cases hpass : caller ∈ env.auths ∧ ∃ cfg cfg',
      s.persistent.get (.alert id) = some cfg ∧ cfg.owner = caller ∧
        call.amended env.timestamp cfg = some cfg'
  · obtain ⟨hauth, cfg, cfg', hrow, howner, hnew⟩ := hpass
    have hinvoke := invoke_amend (s := s) hcall hrow howner
      (by simp [hasks]) hauth hok hnew (by simp [hlists])
    have hsame := sameData_store s env.sequence hrow cfg' (call.amendEvents cfg)
    rw [execCall, hinvoke]
    simp only [State.amended, hflag, hlists, State.flagged]
    simp only [Bool.false_eq_true, if_false, hsame]
    simp [hauth, hrow, howner, hnew]
  · have hkeeps : s.SameData (execCall s ⟨env, call⟩) := by
      rcases invoke_cases env call s with ⟨resp, s', hreturns, heq⟩ | ⟨f, heq⟩
      · rw [returns_amend hcall] at hreturns
        obtain ⟨cfg, cfg', hrow, howner, -, hauth, -, hnew, -⟩ := hreturns
        exact absurd ⟨hauth, cfg, cfg', hrow, howner, hnew⟩ hpass
      · rw [execCall, heq]
        exact ⟨fun _ => rfl, rfl⟩
    refine iff_of_true hkeeps ?_
    rintro ⟨hauth, cfg, hrow, howner, cfg', hnew, -⟩
    exact hpass ⟨hauth, cfg, cfg', hrow, howner, hnew⟩

theorem propose_eq_iff (cfg : AlertConfig) (hash : HostString) (now : Nat) :
    { cfg with pendingWebhookHash := some hash, updatedAt := now } = cfg ↔
      cfg.pendingWebhookHash = some hash ∧ cfg.updatedAt = now := by
  constructor
  · intro h
    exact ⟨(congrArg AlertConfig.pendingWebhookHash h).symm,
      (congrArg AlertConfig.updatedAt h).symm⟩
  · rintro ⟨hpending, hnow⟩
    rw [← hpending, ← hnow]

/-- A confirmation that has something to confirm always changes the record. -/
theorem confirm_ne_iff (cfg : AlertConfig) (now : Nat) :
    (∃ cfg', cfg.pendingWebhookHash.map (fun pending =>
          { cfg with
            pendingWebhookHash := none
            webhookHash := pending
            updatedAt := now }) = some cfg' ∧ cfg' ≠ cfg) ↔
      cfg.pendingWebhookHash ≠ none := by
  cases hpending : cfg.pendingWebhookHash with
  | none => simp
  | some pending =>
      simp only [Option.map_some, Option.some.injEq, exists_eq_left', ne_eq,
        reduceCtorEq, not_false_eq_true, iff_true]
      intro h
      have hnone := congrArg AlertConfig.pendingWebhookHash h
      rw [hpending] at hnone
      exact absurd hnone (by simp)

/-- While the contract is paused a call keeps the data exactly if it does not
slip through. -/
theorem sameData_exec_iff
    (hpaused : s.view.paused = true) :
    s.SameData (execCall s i) ↔ ¬ SlipsThrough s i := by
  obtain ⟨env, call⟩ := i
  cases call with
  | pauseAlert admin id => exact sameData_switch_iff rfl
  | unpauseAlert admin id => exact sameData_switch_iff rfl
  | proposeWebhook caller id hash =>
      have hcall : (Call.proposeWebhook caller id hash).amends =
          some (caller, id) := by
        rfl
      rw [sameData_webhook_iff hcall rfl]
      simp only [SlipsThrough, Call.amended, Option.some.injEq,
        exists_eq_left', ne_eq]
      simp only [propose_eq_iff]
  | confirmWebhook caller id =>
      have hcall : (Call.confirmWebhook caller id).amends =
          some (caller, id) := by
        rfl
      rw [sameData_webhook_iff hcall rfl]
      simp only [SlipsThrough, Call.amended, confirm_ne_iff]
  | _ =>
      refine iff_of_true (sameData_of_frozen hpaused ?_) id
      simp [Call.asksPaused, Call.amends, Call.activates]

theorem paused_execCall
    (hpaused : s.view.paused = true) (hcall : ¬ Unpauses s i) :
    (execCall s i).view.paused = true := by
  rcases invoke_refines i.env i.call s with ⟨resp, hout, hstep⟩ | ⟨-, hview⟩
  · apply hstep.paused hpaused
    intro admin hset
    exact hcall ⟨⟨admin, hset⟩, resp, hout⟩
  · rw [execCall, hview]
    exact hpaused

end Steps

/-- From any paused state, a sequence of calls without a successful
`set_paused(_, false)` keeps all data the same throughout, exactly if none of
its calls slips through. -/
theorem circuit_breaker_iff
    (s : State) (hpaused : s.inst .paused = some true)
    (calls : List Invocation)
    (hcalls : Along execCall (fun t i => ¬ Unpauses t i) s calls) :
    Throughout execCall s.SameData s calls ↔
      Along execCall (fun t i => ¬ SlipsThrough t i) s calls := by
  have hview : s.view.paused = true := by
    have hget : s.view.inst .paused = some true := hpaused
    rw [Registry.paused, hget, Option.getD_some]
  refine throughout_iff_along (Q := fun t => t.view.paused = true) ?_ ?_
    (State.SameData.refl s) hview hcalls
  · intro t i hi ht _
    exact paused_execCall ht hi
  · intro t i _ ht hsame
    rw [← sameData_exec_iff ht]
    constructor
    · exact hsame.symm.trans
    · exact hsame.trans

/-- A paused contract with an alert of `alice`. -/
def pausedRun : List Step :=
  [.call (envAt 1 [operator]) (.initialise operator),
    .call (envAt 1 [alice]) (sampleRegister alice pool),
    .call (envAt 2 [operator]) (.setPaused operator true)]

/-- The owner proposes another webhook. -/
def proposal : Invocation where
  env := envAt 3 [alice]
  call := .proposeWebhook alice 0 sampleHash

/-- The proposal is accepted although the contract is paused. -/
theorem pausedRun_not_frozen :
    (run exec State.empty pausedRun).inst .paused = some true ∧
      ¬ (run exec State.empty pausedRun).SameData
        (run execCall (run exec State.empty pausedRun) [proposal]) := by
  refine ⟨by decide, ?_⟩
  intro hsame
  have hrow := hsame.get (.alert 0)
  exact absurd hrow (by decide)

theorem pausedRun_frozen_iff :
    Throughout execCall (run exec State.empty pausedRun).SameData
        (run exec State.empty pausedRun) [proposal] ↔
      Along execCall (fun t i => ¬ SlipsThrough t i)
        (run exec State.empty pausedRun) [proposal] := by
  apply circuit_breaker_iff
  · decide
  · refine ⟨?_, trivial⟩
    rintro ⟨⟨admin, hcall⟩, -⟩
    exact absurd hcall (by simp [proposal])

end AlertRegistry
end TxWatch
