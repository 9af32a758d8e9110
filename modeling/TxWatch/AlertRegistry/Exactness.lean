import TxWatch.AlertRegistry.BatchRegistration
import TxWatch.AlertRegistry.BulkRenewal
import TxWatch.AlertRegistry.Traps

/-!
# The registry is exact

The contract refines `Registry.Step`; here is the other direction.  As long as
nothing expires, every step of the abstract registry is one that the contract
takes, so that a call succeeds exactly if the registry allows it, with just this
answer, these events and this effect.
-/

namespace TxWatch
namespace AlertRegistry

open Soroban Soroban.Contract Indexed

section Enabled

variable {env : Env} {s s' : State} {call : Call} {resp : Response}
  {evs : List Event} {r' : Registry}

/-- The contract takes a step with this answer and these events to this
registry. -/
def Takes (env : Env) (call : Call) (s : State) (resp : Response)
    (evs : List Event) (r' : Registry) : Prop :=
  ∃ s' : State, (dispatch call).Returns env s.silenced resp s' ∧
    s'.events = evs ∧ s'.view = r'

/-- It is enough to know the storage that the call leaves. -/
theorem takes_of_returns
    (h : (dispatch call).Returns env s.silenced resp s')
    (hevs : s'.events = evs) (hview : s'.view = r') :
    Takes env call s resp evs r' :=
  ⟨s', h, hevs, hview⟩

theorem takes_of_respond
    {α : Type} {f : α → Response} {m : Contract α} {a : α}
    (hcall : dispatch call = respond f m) (h : m.Returns env s.silenced a s')
    (hresp : resp = f a) (hevs : s'.events = evs) (hview : s'.view = r') :
    Takes env call s resp evs r' := by
  refine takes_of_returns ?_ hevs hview
  rw [hcall, returns_respond]
  exact ⟨a, h, hresp⟩

/-- A query is answered, and does nothing else. -/
theorem takes_query
    (hcall : call.isQuery = true) (hanswer : s.view.answer env call = some resp) :
    Takes env call s resp [] s.view := by
  obtain ⟨s', h⟩ := (returns_query_iff (s := s.silenced) hcall).mpr hanswer
  obtain ⟨hevs, hview⟩ := frame_of_query hcall h
  exact takes_of_returns h hevs hview

theorem takes_administer
    {admin : Address} {admins : List Address} {entry : (i : InstanceKey) × i.Value}
    (hcall : call.administers = some admin)
    (hset : call.setting admins = some entry) (hauth : admin ∈ env.auths)
    (hadmins : s.view.admins = some admins) (hmem : admin ∈ admins)
    (hok : call.Permitted admins) :
    Takes env call s .unit call.adminEvents (s.view.configure entry.1 entry.2) := by
  refine takes_of_returns ((returns_administer hcall .unit).mpr
    ⟨admins, entry, hauth, hadmins, hmem, hok, hset, rfl, rfl⟩) ?_ ?_
  · rw [events_announce]
    rfl
  · rw [view_announce, view_setInst]
    rfl

/-- A registration finds its ids unused. -/
theorem takes_enrol
    (hs : s.view.Safe) {owner : Address} {cfgs : List AlertConfig}
    (hcall : call.enrols env.timestamp = some (owner, cfgs))
    (hok : call.Checked) (hpaused : s.view.paused = false)
    (hauth : owner ∈ env.auths) (hfits : s.view.Fits owner cfgs.length)
    (hroom : cfgs ≠ [] → s.view.nextId + cfgs.length ≤ u64Max) :
    Takes env call s (call.receipt s.view.nextId cfgs.length)
      (registerEvents s.view.nextId cfgs)
      ((s.view.prunedFor owner).createAll cfgs) := by
  have hpruned : (s.view.prunedFor owner).Safe := hs.prunedFor owner
  have hevents : (State.createdAll env.sequence cfgs
      (State.prunedFor s.silenced env.sequence owner)).events =
        registerEvents s.view.nextId cfgs := by
    rw [events_createdAll, view_prunedFor, events_prunedFor,
      Registry.nextId_prunedFor, view_silenced, State.events_silenced, List.nil_append]
  have hview : (State.createdAll env.sequence cfgs
      (State.prunedFor s.silenced env.sequence owner)).view =
        (s.view.prunedFor owner).createAll cfgs := by
    rw [view_createdAll, view_prunedFor, view_silenced]
  cases call with
  | registerAlert owner' targetContract label webhookHash rules tags =>
      obtain ⟨rfl, rfl⟩ : owner' = owner ∧ _ = cfgs := by
        simpa [Call.enrols] using hcall
      obtain ⟨hlen, hlabel, hrules, htags⟩ := hok
      have hlt : s.view.nextId < u64Max := hroom (by simp)
      have hfresh : ∀ kind a,
          s.view.nextId ∉ (s.view.prunedFor owner').table.index kind a := by
        intro kind a
        have hnot := hpruned.within.not_listed (Nat.lt_irrefl _) kind a
        rwa [Registry.nextId_prunedFor] at hnot
      exact takes_of_respond rfl
        ((returns_registerAlert owner' targetContract label webhookHash rules tags
          s.view.nextId).mpr ⟨hpaused, hlen, hauth, hlabel, hrules, htags, hfits,
            rfl, hlt, hfresh .owner _, hfresh .contract _, rfl⟩) rfl hevents hview
  | batchRegisterAlerts caller inputs =>
      obtain ⟨rfl, rfl⟩ : caller = owner ∧ recordsOf caller env.timestamp inputs =
          cfgs := by
        simpa [Call.enrols, recordsOf] using hcall
      obtain ⟨hsize, hvalid⟩ := hok
      have hsafe : (State.prunedFor s.silenced env.sequence caller).view.Safe := by
        rwa [view_prunedFor]
      have hlength : (recordsOf caller env.timestamp inputs).length =
          inputs.length := by
        simp [recordsOf]
      rw [hlength] at hfits hroom
      have hloop := @returns_registerInputs_of_room env _ caller hsafe
        env.timestamp inputs [] (by
          rw [view_prunedFor, Registry.nextId_prunedFor]
          intro hne
          exact hroom (by simpa [recordsOf] using hne))
      rw [List.nil_append, view_prunedFor, Registry.nextId_prunedFor] at hloop
      have hreturns : (batchRegisterAlerts caller inputs).Returns env s.silenced
          (List.range' s.view.nextId inputs.length)
          (State.createdAll env.sequence (recordsOf caller env.timestamp inputs)
            (State.prunedFor s.silenced env.sequence caller)) := by
        simp only [batchRegisterAlerts, returns_bind, returns_assertNotPaused,
          returns_rejectIf, returns_requireAuth, returns_ofExcept,
          returns_assertPerOwnerLimitFor, returns_timestamp, view_silenced]
        exact ⟨(), _, ⟨hpaused, rfl⟩, (), _, ⟨Nat.not_lt.mpr hsize, rfl⟩, (), _,
          ⟨hauth, rfl⟩, (), _, ⟨hvalid, rfl⟩, (), _, ⟨hfits, rfl⟩, _, _,
          ⟨rfl, rfl⟩, hloop⟩
      refine takes_of_respond rfl hreturns ?_ hevents hview
      rw [hlength]
      rfl
  | _ => simp [Call.enrols] at hcall

theorem takes_amend
    (hkeyed : s.Keyed) {caller : Address} {id : Nat} {cfg cfg' : AlertConfig}
    (hcall : call.amends = some (caller, id)) (hok : call.Checked)
    (hpaused : call.asksPaused = true → s.view.paused = false)
    (hauth : caller ∈ env.auths) (hrow : s.view.table.row id = some cfg)
    (howner : cfg.owner = caller)
    (hnew : call.amended env.timestamp cfg = some cfg') :
    Takes env call s .unit (call.amendEvents cfg)
      ((s.view.rewrite id cfg').flag id call.amendedFlag) := by
  refine takes_of_returns ((returns_amend hcall .unit).mpr
    ⟨cfg, cfg', hrow, howner, hpaused, hauth, hok, hnew,
      fun _ => (hkeyed id cfg hrow).2, rfl, rfl⟩) ?_ ?_
  · rw [events_announce, events_amended]
    rfl
  · rw [view_announce, view_amended]
    rfl

theorem takes_activate
    {admin : Address} {id : Nat} {active : Bool} {cfg : AlertConfig}
    (hcall : call.activates = some (admin, id, active))
    (hauth : admin ∈ env.auths) (hadmin : s.view.IsAdmin admin)
    (hrow : s.view.table.row id = some cfg) :
    Takes env call s .unit
      [⟨(.alert, .update), [.u64 id, .address admin, .bool active]⟩]
      ((s.view.rewrite id
        { cfg with active := active, updatedAt := env.timestamp }).flag id
        (some active)) := by
  refine takes_of_returns ((returns_activate hcall .unit).mpr
    ⟨cfg, hauth, hadmin, hrow, rfl, rfl⟩) ?_ ?_
  · rw [State.events_emit, events_flagged]
    rfl
  · rw [view_emit, view_flagged, view_store_alert]
    rfl

/-- An id that moves is on no list of its kind once it has been taken off. -/
theorem not_mem_unfile
    (hs : s.view.Safe) {id : Nat} {cfg : AlertConfig}
    (hrow : s.view.table.row id = some cfg) (kind : IndexKind) (a : Address) :
    id ∉ (s.view.table.unfile kind (cfg.party kind) id).index kind a := by
  rw [Table.mem_index_unfile]
  rintro ⟨hmem, hnot⟩
  exact hnot ⟨rfl, (hs.sound.party_eq kind a id cfg hmem hrow).symm, rfl⟩

theorem takes_retarget
    (hs : s.view.Safe) {caller newTarget : Address} {id : Nat} {cfg : AlertConfig}
    (hpaused : s.view.paused = false) (hauth : caller ∈ env.auths)
    (hrow : s.view.table.row id = some cfg) (howner : cfg.owner = caller) :
    Takes env (.updateTargetContract caller id newTarget) s .unit []
      (s.view.move .contract id cfg.targetContract newTarget
        { cfg with targetContract := newTarget, updatedAt := env.timestamp }) := by
  refine takes_of_respond rfl
    ((returns_updateTargetContract caller newTarget id ()).mpr
      ⟨cfg, hpaused, hauth, hrow, howner,
        not_mem_unfile hs hrow .contract newTarget, rfl⟩) rfl ?_ ?_
  · rw [events_moved]
    rfl
  · rw [view_moved, view_store_alert]
    rfl

theorem takes_reown
    (hs : s.view.Safe) {owner newOwner : Address} {id : Nat} {cfg : AlertConfig}
    (hne : newOwner ≠ owner) (hpaused : s.view.paused = false)
    (hauth : owner ∈ env.auths) (hrow : s.view.table.row id = some cfg)
    (howner : cfg.owner = owner) (hfits : s.view.Fits newOwner 1) :
    Takes env (.transferAlertOwnership owner id newOwner) s .unit
      [⟨(.alert, .transfer), [.u64 id, .address owner, .address newOwner]⟩]
      ((s.view.prunedFor newOwner).move .owner id owner newOwner
        { cfg with owner := newOwner, updatedAt := env.timestamp }) := by
  have hpruned : (s.prunedFor env.sequence newOwner).view.Safe := by
    rw [view_prunedFor]
    exact hs.prunedFor newOwner
  have hrow' : (s.prunedFor env.sequence newOwner).view.table.row id = some cfg := by
    rw [view_prunedFor, Registry.row_prunedFor]
    exact hrow
  have hfresh := not_mem_unfile hpruned hrow' .owner newOwner
  rw [view_prunedFor] at hfresh
  subst howner
  refine takes_of_respond rfl
    ((returns_transferAlertOwnership cfg.owner newOwner id ()).mpr
      ⟨cfg, hpaused, hauth, hrow, rfl, Or.inr ⟨hne, hfits, hfresh, rfl⟩⟩) rfl ?_ ?_
  · rw [State.events_emit, State.events_store, events_moved, events_prunedFor]
    rfl
  · rw [view_emit, view_store_alert, view_moved, view_prunedFor]
    rfl

/-- The keys of a live alert are its companions. -/
theorem attended_of_keyed {s : State} (hkeyed : s.Keyed) : Attended s := by
  intro id cfg hget k hk
  obtain ⟨hflag, howner, htarget⟩ := hkeyed id cfg hget
  simp only [companions, List.mem_cons, List.not_mem_nil, or_false] at hk
  rcases hk with rfl | rfl | rfl
  · exact hflag
  · exact howner
  · exact htarget

theorem takes_bulkRenew
    (hkeyed : s.Keyed) {ids : List Nat} (hsize : ids.length ≤ maxBatchSize) :
    Takes env (.bulkRenewTtl ids) s (.number (s.view.table.live ids).length)
      ((s.view.table.live ids).map (bumpEvent defaultTtl)) s.view := by
  have hquiet : State.Keyed s.silenced := hkeyed
  obtain ⟨n, hloop⟩ := returns_bulkRenewFrom_of_attended env
    (attended_of_keyed hquiet) ids 0
  obtain ⟨hn, -⟩ := returns_bulkRenewFrom hloop
  rw [Nat.zero_add] at hn
  have hreturns : (bulkRenewTtl ids).Returns env s.silenced n
      (State.renewedEach env.sequence ids s.silenced) := by
    simp only [bulkRenewTtl, returns_bind, returns_rejectIf]
    exact ⟨(), _, ⟨Nat.not_lt.mpr hsize, rfl⟩, hloop⟩
  refine takes_of_respond rfl hreturns (congrArg Response.number hn.symm) ?_ ?_
  · rw [events_renewedEach]
    rfl
  · rw [view_renewedEach]
    rfl

/-- Every step of the registry is taken by the contract. -/
theorem takes_of_step
    (h : s.Leakless) (hstep : Registry.Step env s.view call resp evs r') :
    Takes env call s resp evs r' := by
  cases hstep with
  | query hcall hanswer => exact takes_query hcall hanswer
  | @initialise admin hnone =>
      refine takes_of_respond rfl ((returns_initialise admin ()).mpr ⟨hnone, rfl⟩)
        rfl ?_ ?_
      · rfl
      · rw [view_emit, view_setInst]
        rfl
  | administer hcall hset hauth hadmins hmem hok =>
      exact takes_administer hcall hset hauth hadmins hmem hok
  | enrol hcall hok hpaused hauth hfits hroom =>
      exact takes_enrol h.safe hcall hok hpaused hauth hfits hroom
  | amend hcall hok hpaused hauth hrow howner hnew =>
      exact takes_amend h.keyed hcall hok hpaused hauth hrow howner hnew
  | activate hcall hauth hadmin hrow =>
      exact takes_activate hcall hauth hadmin hrow
  | @deactivateAll caller hpaused hauth =>
      refine takes_of_respond rfl ((returns_deactivateAllAlerts caller _).mpr
        ⟨hpaused, hauth, rfl, rfl⟩) rfl ?_ ?_
      · rw [events_deactivatedEach]
        rfl
      · rw [view_deactivatedEach]
        rfl
  | retarget hpaused hauth hrow howner =>
      exact takes_retarget h.safe hpaused hauth hrow howner
  | @keepOwner owner id cfg hpaused hauth hrow howner =>
      exact takes_of_respond rfl
        ((returns_transferAlertOwnership owner owner id ()).mpr
          ⟨cfg, hpaused, hauth, hrow, howner, Or.inl ⟨rfl, rfl⟩⟩) rfl rfl rfl
  | reown hne hpaused hauth hrow howner hfits =>
      exact takes_reown h.safe hne hpaused hauth hrow howner hfits
  | @remove caller id cfg hpaused hauth hrow howner =>
      refine takes_of_respond rfl ((returns_removeAlert caller id ()).mpr
        ⟨cfg, hpaused, hauth, hrow, howner, rfl⟩) rfl ?_ ?_
      · rw [State.events_emit, events_erased]
        rfl
      · rw [view_emit, view_erased]
        rfl
  | @removeByAdmin admin id cfg hpaused hauth hadmin hrow =>
      refine takes_of_respond rfl ((returns_removeAlertByAdmin admin id ()).mpr
        ⟨cfg, hpaused, hauth, hadmin, hrow, rfl⟩) rfl ?_ ?_
      · rw [State.events_emit, events_erased]
        rfl
      · rw [view_emit, view_erased]
        rfl
  | @bump id ttl hpaused hlive =>
      obtain ⟨cfg, hrow⟩ := Option.isSome_iff_exists.mp hlive
      obtain ⟨hflag, howner, htarget⟩ := h.keyed id cfg hrow
      refine takes_of_respond rfl ((returns_bumpAlert id ttl ()).mpr
        ⟨cfg, hpaused, hrow, hflag, howner, htarget, rfl⟩) rfl ?_ ?_
      · rw [State.events_emit, events_bumped]
        rfl
      · rw [view_emit, view_bumped]
        rfl
  | bulkRenew hsize => exact takes_bulkRenew h.keyed hsize

/-- A step of the registry is what the call does. -/
theorem invoke_of_step
    (h : s.Leakless) (hstep : Registry.Step env s.view call resp evs r') :
    (invoke env call s).1 = .ok resp ∧ (invoke env call s).2.events = evs ∧
      (invoke env call s).2.view = r' := by
  obtain ⟨s', hreturns, hevs, hview⟩ := takes_of_step h hstep
  rw [invoke_of_returns hreturns]
  exact ⟨rfl, hevs, hview⟩

end Enabled

/-- In every state reached without expiry, a call succeeds exactly if the registry
has a step for it, and then answers, publishes and leaves what that step says. -/
theorem registry_exact
    {steps : List Step} (hsteps : ∀ st ∈ steps, st.isCall)
    (env : Env) (call : Call) (resp : Response) (evs : List Event)
    (r' : Registry) :
    Registry.Step env (run exec State.empty steps).view call resp evs r' ↔
      (invoke env call (run exec State.empty steps)).1 = .ok resp ∧
        (invoke env call (run exec State.empty steps)).2.events = evs ∧
        (invoke env call (run exec State.empty steps)).2.view = r' := by
  constructor
  · exact invoke_of_step (leakless_run hsteps)
  · rintro ⟨hok, rfl, rfl⟩
    exact step_of_returns (returns_of_transact hok)

/-- A removal, as the registry allows it. -/
theorem removal_exact :
    Registry.Step (envAt 4 [bob])
        (run exec State.empty movedRun).view (.removeAlert bob 0) .unit
        [⟨(.alert, .remove), [.u64 0, .address bob]⟩]
        (invoke (envAt 4 [bob]) (.removeAlert bob 0)
          (run exec State.empty movedRun)).2.view := by
  refine (registry_exact ?_ (envAt 4 [bob]) _ _ _ _).mpr ⟨?_, ?_, rfl⟩
  · simp [movedRun, Step.isCall]
  · decide
  · decide

end AlertRegistry
end TxWatch
