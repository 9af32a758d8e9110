import TxWatch.AlertRegistry.Records
import TxWatch.AlertRegistry.Values
import TxWatch.AlertRegistry.OwnerLimit
import TxWatch.AlertRegistry.IndexCoherence

/-!
# A batch is its registrations one by one

`batch_register_alerts` checks all inputs first and the limit once, and prunes
the owner's list once; registering the inputs in turn checks and prunes before
each.  After the first registration nothing is left to prune, and the sum that
the batch compares with the limit is the last of the sums that the single calls
compare with it.
-/

namespace TxWatch
namespace AlertRegistry

open Soroban Soroban.Contract Indexed

namespace Registry

variable {r : Registry} {owner : Address} {cfg : AlertConfig}

/-- The limit check of an owner has nothing to prune. -/
def Settled (r : Registry) (owner : Address) : Prop :=
  0 < r.limit → r.liveOf owner = r.table.index .owner owner

@[simp] theorem limit_prunedFor (r : Registry) (owner : Address) :
    (r.prunedFor owner).limit = r.limit := by
  simp [limit]

@[simp] theorem paused_prunedFor (r : Registry) (owner : Address) :
    (r.prunedFor owner).paused = r.paused := by
  simp [paused]

theorem liveOf_prunedFor (r : Registry) (owner : Address) :
    (r.prunedFor owner).liveOf owner = r.liveOf owner := by
  unfold liveOf prunedFor
  split_ifs
  · simp [Table.live, Table.prune, Table.index_setIndex]
  · rfl

theorem settled_prunedFor (r : Registry) (owner : Address) :
    (r.prunedFor owner).Settled owner := by
  intro hlimit
  rw [limit_prunedFor] at hlimit
  rw [liveOf_prunedFor, prunedFor, if_pos hlimit]
  simp [liveOf, Table.prune, Table.index_setIndex]

theorem fits_prunedFor (r : Registry) (owner : Address) (additional : Nat) :
    (r.prunedFor owner).Fits owner additional ↔ r.Fits owner additional := by
  rw [Fits, Fits, limit_prunedFor, liveOf_prunedFor]

@[simp] theorem limit_create (r : Registry) (cfg : AlertConfig) :
    (r.create cfg).limit = r.limit := by
  simp [limit, create]

@[simp] theorem paused_create (r : Registry) (cfg : AlertConfig) :
    (r.create cfg).paused = r.paused := by
  simp [paused, create]

theorem index_create_owner (r : Registry) (cfg : AlertConfig) :
    (r.create cfg).table.index .owner cfg.owner =
      r.table.index .owner cfg.owner ++ [r.nextId] := by
  simp [create, Table.insert, AlertConfig.party]

/-- A new alert is the last live one of its owner. -/
theorem liveOf_create
    (hs : r.Safe) (cfg : AlertConfig) :
    (r.create cfg).liveOf cfg.owner = r.liveOf cfg.owner ++ [r.nextId] := by
  have hfresh : r.nextId ∉ r.table.index .owner cfg.owner :=
    hs.within.not_listed (Nat.lt_irrefl _) .owner cfg.owner
  rw [liveOf, index_create_owner, Table.live, List.filter_append, liveOf,
    Table.live]
  congr 1
  · apply List.filter_congr
    intro id hid
    have hne : id ≠ r.nextId := by
      rintro rfl
      exact hfresh hid
    rw [row_create, Function.update_of_ne hne]
  · simp

theorem Settled.create
    (h : r.Settled cfg.owner) (hs : r.Safe) :
    (r.create cfg).Settled cfg.owner := by
  intro hlimit
  rw [limit_create] at hlimit
  rw [liveOf_create hs, index_create_owner, h hlimit]

/-- Room for one alert and then for the rest is room for all of them. -/
theorem fits_succ_iff
    (hs : r.Safe) (cfg : AlertConfig) (n : Nat) :
    r.Fits cfg.owner (n + 1) ↔
      r.Fits cfg.owner 1 ∧ (n ≠ 0 → (r.create cfg).Fits cfg.owner n) := by
  unfold Fits
  rw [limit_create, liveOf_create hs, List.length_append, List.length_singleton]
  unfold saturatingAdd32
  by_cases hlimit : 0 < r.limit
  · simp only [hlimit, true_imp_iff]
    omega
  · simp [hlimit]

end Registry

section Pruning

variable {s : State}

/-- Pruning twice in a row is pruning once. -/
theorem prunedFor_of_settled
    {owner : Address} (h : s.view.Settled owner) (ledger : Nat) :
    s.prunedFor ledger owner = s := by
  unfold State.prunedFor
  rw [if_neg]
  rintro ⟨hlimit, hlength⟩
  exact hlength (congrArg List.length (h hlimit))

end Pruning

section Single

/-- The registration of an input of a batch on its own. -/
def AlertInput.single (caller : Address) (input : AlertInput) : Call :=
  .registerAlert caller input.targetContract input.label input.webhookHash
    input.rules none

/-- Registering the inputs passes every check.  With none there is nothing to
check but the inputs. -/
structure Registry.Admits (r : Registry) (env : Env) (caller : Address)
    (inputs : List AlertInput) : Prop where
  valid : validateInputs inputs = .ok ()
  unpaused : inputs ≠ [] → r.paused = false
  auth : inputs ≠ [] → caller ∈ env.auths
  fits : inputs ≠ [] → r.Fits caller inputs.length
  ids : inputs ≠ [] → r.nextId + inputs.length ≤ u64Max

/-- Admitting a list is admitting its first input and then the rest. -/
theorem Registry.admits_cons_iff
    {r : Registry} {env : Env} {caller : Address} (hs : r.Safe)
    (input : AlertInput) (rest : List AlertInput) :
    r.Admits env caller (input :: rest) ↔
      r.Admits env caller [input] ∧
        (r.create (input.toConfig caller env.timestamp)).Admits env caller
          rest := by
  have hfits := Registry.fits_succ_iff hs (input.toConfig caller env.timestamp)
    rest.length
  have howner : (input.toConfig caller env.timestamp).owner = caller := by
    rfl
  rw [howner] at hfits
  have hne : input :: rest ≠ [] := List.cons_ne_nil _ _
  have hone : [input] ≠ [] := List.cons_ne_nil _ _
  have hzero : rest.length ≠ 0 ↔ rest ≠ [] := by
    simp
  constructor
  · rintro ⟨hinputs, hunpaused, hauth, hroom, hids⟩
    rw [validateInputs_cons_iff] at hinputs
    have hsplit := hfits.mp (hroom hne)
    have hbound := hids hne
    rw [List.length_cons] at hbound
    refine ⟨⟨?_, fun _ => hunpaused hne, fun _ => hauth hne, fun _ => hsplit.1, ?_⟩,
      hinputs.2, ?_, fun _ => hauth hne, ?_, ?_⟩
    · exact (validateInputs_cons_iff input []).mpr ⟨hinputs.1, rfl⟩
    · intro _
      rw [List.length_singleton]
      omega
    · intro _
      rw [Registry.paused_create]
      exact hunpaused hne
    · intro hrest
      exact hsplit.2 (hzero.mpr hrest)
    · intro _
      rw [Registry.nextId_create]
      omega
  · rintro ⟨⟨hinputs, hunpaused, hauth, hroom, hids⟩, hinputs', -, -, hroom', hids'⟩
    have hvalid := ((validateInputs_cons_iff input []).mp hinputs).1
    refine ⟨(validateInputs_cons_iff input rest).mpr ⟨hvalid, hinputs'⟩,
      fun _ => hunpaused hone, fun _ => hauth hone, ?_, ?_⟩
    · intro _
      exact hfits.mpr ⟨hroom hone, fun hrest => hroom' (hzero.mp hrest)⟩
    · intro _
      rw [List.length_cons]
      by_cases hrest : rest = []
      · subst hrest
        exact hids hone
      · have hbound := hids' hrest
        rw [Registry.nextId_create] at hbound
        omega

variable {env : Env} {s : State} {caller : Address}

/-- A single registration is carried out when it is admitted, and fails
otherwise. -/
theorem invoke_single
    (hs : s.view.Safe) (input : AlertInput) :
    (s.view.Admits env caller [input] ∧
      invoke env (input.single caller) s =
        (.ok (.number s.view.nextId),
          State.created (State.prunedFor s.silenced env.sequence caller) env.sequence
            (input.toConfig caller env.timestamp))) ∨
    (¬ s.view.Admits env caller [input] ∧
      ∃ f, invoke env (input.single caller) s = (.error f, s.silenced)) := by
  have hpruned : (s.view.prunedFor caller).Safe := hs.prunedFor caller
  have hfresh : ∀ kind a,
      s.view.nextId ∉ (s.view.prunedFor caller).table.index kind a := by
    intro kind a hmem
    have hlt := hpruned.within.listed kind a _ hmem
    rw [Registry.nextId_prunedFor] at hlt
    exact absurd hlt (Nat.lt_irrefl _)
  have hone : [input] ≠ [] := List.cons_ne_nil _ _
  rcases invoke_cases env (input.single caller) s with
    ⟨resp, s', hreturns, heq⟩ | ⟨f, heq⟩
  · left
    simp only [AlertInput.single, dispatch, returns_respond,
      returns_registerAlert, view_silenced] at hreturns
    obtain ⟨id, ⟨hpaused, hlen, hauth, hlabel, hrules, -, hfits, rfl, hlt, -, -,
      rfl⟩, rfl⟩ := hreturns
    refine ⟨⟨?_, fun _ => hpaused, fun _ => hauth, fun _ => hfits, fun _ => hlt⟩,
      heq⟩
    exact (validateInputs_cons_iff input []).mpr ⟨⟨hlen, hlabel, hrules⟩, rfl⟩
  · right
    refine ⟨?_, f, heq⟩
    rintro ⟨hinputs, hunpaused, hauth, hfits, hids⟩
    obtain ⟨hlen, hlabel, hrules⟩ :=
      ((validateInputs_cons_iff input []).mp hinputs).1
    have hreturns : (dispatch (input.single caller)).Returns env s.silenced
        (.number s.view.nextId)
        (State.created (State.prunedFor s.silenced env.sequence caller) env.sequence
          (input.toConfig caller env.timestamp)) := by
      simp only [AlertInput.single, dispatch, returns_respond,
        returns_registerAlert, view_silenced]
      exact ⟨_, ⟨hunpaused hone, hlen, hauth hone, hlabel, hrules, rfl,
        hfits hone, rfl, hids hone, hfresh .owner caller,
        hfresh .contract input.targetContract, rfl⟩, rfl⟩
    rw [invoke_of_returns hreturns] at heq
    cases heq

end Single

section Sequence

variable {env : Env} {s : State} {caller : Address}

/-- What is stored after adding alerts does not depend on events published
before. -/
theorem silenced_createdAll
    {s s' : State} (h : s.silenced = s'.silenced) (ledger : Nat)
    (cfgs : List AlertConfig) :
    (State.createdAll ledger cfgs s).silenced =
      (State.createdAll ledger cfgs s').silenced := by
  induction cfgs generalizing s s' with
  | nil => exact h
  | cons cfg rest ih =>
      apply ih
      calc (s.created ledger cfg).silenced
          = (State.created s.silenced ledger cfg).silenced := rfl
        _ = (State.created s'.silenced ledger cfg).silenced := by rw [h]
        _ = (s'.created ledger cfg).silenced := rfl

theorem Registry.admits_prunedFor
    (r : Registry) (env : Env) (caller : Address) (inputs : List AlertInput) :
    (r.prunedFor caller).Admits env caller inputs ↔
      r.Admits env caller inputs := by
  constructor
  · rintro ⟨hvalid, hunpaused, hauth, hfits, hids⟩
    rw [Registry.paused_prunedFor] at hunpaused
    rw [Registry.fits_prunedFor] at hfits
    rw [Registry.nextId_prunedFor] at hids
    exact ⟨hvalid, hunpaused, hauth, hfits, hids⟩
  · rintro ⟨hvalid, hunpaused, hauth, hfits, hids⟩
    refine ⟨hvalid, ?_, hauth, ?_, ?_⟩
    · rw [Registry.paused_prunedFor]
      exact hunpaused
    · rw [Registry.fits_prunedFor]
      exact hfits
    · rw [Registry.nextId_prunedFor]
      exact hids

/-- The records of a batch. -/
def recordsOf (caller : Address) (now : Nat) (inputs : List AlertInput) :
    List AlertConfig :=
  inputs.map (fun input => input.toConfig caller now)

theorem recordsOf_cons
    (caller : Address) (now : Nat) (input : AlertInput) (rest : List AlertInput) :
    recordsOf caller now (input :: rest) =
      input.toConfig caller now :: recordsOf caller now rest := by
  rfl

/-- What a batch publishes. -/
theorem events_createdAll_pruned
    (s : State) (ledger : Nat) (owner : Address) (cfgs : List AlertConfig) :
    (State.createdAll ledger cfgs (State.prunedFor s.silenced ledger owner)).events =
      registerEvents s.view.nextId cfgs := by
  rw [events_createdAll, events_prunedFor, State.events_silenced, view_prunedFor,
    Registry.nextId_prunedFor, List.nil_append, view_silenced]

/-- What the first of several registrations does: it adds the first record of
the batch and leaves nothing to prune. -/
theorem invoke_single_cases
    (hs : s.view.Safe) (input : AlertInput) :
    (s.view.Admits env caller [input] ∧
      ∃ s₁, invoke env (input.single caller) s =
          (.ok (.number s.view.nextId), s₁) ∧
        s₁.view = (s.view.prunedFor caller).create
          (input.toConfig caller env.timestamp) ∧
        s₁.events = registerEvents s.view.nextId
          [input.toConfig caller env.timestamp] ∧
        ∀ rest, State.createdAll env.sequence
            (recordsOf caller env.timestamp (input :: rest))
            (State.prunedFor s.silenced env.sequence caller) =
          State.createdAll env.sequence (recordsOf caller env.timestamp rest)
            s₁) ∨
    (¬ s.view.Admits env caller [input] ∧
      ∃ f, invoke env (input.single caller) s = (.error f, s.silenced)) := by
  rcases @invoke_single env s caller hs input with ⟨hadmits, heq⟩ | hfails
  · refine Or.inl ⟨hadmits, _, heq, ?_, ?_, fun rest => ?_⟩
    · rw [view_created, view_prunedFor, view_silenced]
    · exact events_createdAll_pruned s env.sequence caller
        [input.toConfig caller env.timestamp]
    · rw [recordsOf_cons, State.createdAll]
  · exact Or.inr hfails

/-- Registering inputs one by one: all are registered when they are admitted
together, and otherwise one of them fails. -/
theorem invokeEach_singles
    (hs : s.view.Safe) (input : AlertInput) (rest : List AlertInput) :
    (s.view.Admits env caller (input :: rest) ∧
      ∃ t : State,
        invokeEach dispatch env ((input :: rest).map (AlertInput.single caller)) s =
          some ((List.range' s.view.nextId (rest.length + 1)).map .number,
            registerEvents s.view.nextId
              (recordsOf caller env.timestamp (input :: rest)), t) ∧
        t.silenced = State.silenced (State.createdAll env.sequence
          (recordsOf caller env.timestamp (input :: rest))
          (State.prunedFor s.silenced env.sequence caller))) ∨
    (¬ s.view.Admits env caller (input :: rest) ∧
      invokeEach dispatch env ((input :: rest).map (AlertInput.single caller)) s =
        none) := by
  have hpruned : (s.view.prunedFor caller).Safe := hs.prunedFor caller
  induction rest generalizing input s with
  | nil =>
      rcases @invoke_single_cases env s caller hs input with
        ⟨hadmits, s₁, hfirst, -, hevents, hstate⟩ | ⟨hnot, f, hfirst⟩
      · refine Or.inl ⟨hadmits, s₁, ?_, ?_⟩
        · rw [List.map_cons, List.map_nil, invokeEach_cons_of_some hfirst rfl,
            hevents, List.append_nil]
          rfl
        · rw [hstate]
          rfl
      · exact Or.inr ⟨hnot, invokeEach_cons_of_error hfirst⟩
  | cons next rest ih =>
      have hsplit := @Registry.admits_cons_iff (s.view.prunedFor caller) env
        caller hpruned input (next :: rest)
      rw [Registry.admits_prunedFor, Registry.admits_prunedFor] at hsplit
      rcases @invoke_single_cases env s caller hs input with
        ⟨hadmits, s₁, hfirst, hview, hevents, hstate⟩ | ⟨hnot, f, hfirst⟩
      · rw [← hview] at hsplit
        have hsafe : s₁.view.Safe := by
          rw [hview]
          exact hpruned.create _
        have hsettled : (State.view s₁.silenced).Settled caller := by
          rw [view_silenced, hview]
          exact (Registry.settled_prunedFor s.view caller).create hpruned
        have hnext : s₁.view.nextId = s.view.nextId + 1 := by
          rw [hview, Registry.nextId_create, Registry.nextId_prunedFor]
        rcases ih hsafe next (hsafe.prunedFor caller) with
          ⟨hadmits', t, hrest, hquiet⟩ | ⟨hnot', hrest⟩
        · refine Or.inl ⟨hsplit.mpr ⟨hadmits, hadmits'⟩, t, ?_, ?_⟩
          · rw [List.map_cons, invokeEach_cons_of_some hfirst hrest, hevents, hnext,
              List.length_cons, List.range'_succ, List.map_cons,
              recordsOf_cons caller env.timestamp input]
            rfl
          · rw [hquiet, hstate, prunedFor_of_settled hsettled]
            have hquiet₁ : s₁.silenced.silenced = s₁.silenced := by
              rfl
            exact silenced_createdAll hquiet₁ _ _
        · refine Or.inr ⟨fun h => hnot' (hsplit.mp h).2, ?_⟩
          rw [List.map_cons]
          exact invokeEach_cons_of_none hfirst hrest
      · refine Or.inr ⟨fun h => hnot (hsplit.mp h).1, ?_⟩
        rw [List.map_cons]
        exact invokeEach_cons_of_error hfirst

end Sequence

section Batch

variable {env : Env} {s : State} {caller : Address}

/-- The writing loop of a batch goes through when there are ids left. -/
theorem returns_registerInputs_of_room
    (hs : s.view.Safe) (now : Nat) (inputs : List AlertInput) (ids : List Nat)
    (hroom : inputs ≠ [] → s.view.nextId + inputs.length ≤ u64Max) :
    (registerInputs caller now inputs ids).Returns env s
      (ids ++ List.range' s.view.nextId inputs.length)
      (State.createdAll env.sequence (recordsOf caller now inputs) s) := by
  induction inputs generalizing s ids with
  | nil => simp [registerInputs, recordsOf, State.createdAll]
  | cons input rest ih =>
      have hbound := hroom (List.cons_ne_nil _ _)
      rw [List.length_cons] at hbound
      have hfresh : ∀ kind a, s.view.nextId ∉ s.view.table.index kind a :=
        hs.within.not_listed (Nat.lt_irrefl _)
      have hsafe : (s.created env.sequence (input.toConfig caller now)).view.Safe := by
        rw [view_created]
        exact hs.create _
      have hrest := ih hsafe (ids ++ [s.view.nextId]) (by
        intro _
        rw [view_created, Registry.nextId_create]
        omega)
      rw [view_created, Registry.nextId_create, List.append_assoc] at hrest
      simp only [registerInputs, returns_bind, returns_createAlert]
      refine ⟨_, _, ⟨rfl, by omega, hfresh .owner _, hfresh .contract _, rfl⟩, ?_⟩
      rw [List.length_cons, List.range'_succ]
      exact hrest

/-- A batch is carried out when its inputs are admitted together, and fails
otherwise. -/
theorem invoke_batch
    (hs : s.view.Safe) {inputs : List AlertInput} (hne : inputs ≠ [])
    (hsize : inputs.length ≤ maxBatchSize) :
    (s.view.Admits env caller inputs ∧
      invoke env (.batchRegisterAlerts caller inputs) s =
        (.ok (.numbers (List.range' s.view.nextId inputs.length)),
          State.createdAll env.sequence (recordsOf caller env.timestamp inputs)
            (State.prunedFor s.silenced env.sequence caller))) ∨
    (¬ s.view.Admits env caller inputs ∧
      ∃ f, invoke env (.batchRegisterAlerts caller inputs) s =
        (.error f, s.silenced)) := by
  rcases invoke_cases env (.batchRegisterAlerts caller inputs) s with
    ⟨resp, s', hreturns, heq⟩ | ⟨f, heq⟩
  · left
    simp only [dispatch, returns_respond] at hreturns
    obtain ⟨ids, hbatch, rfl⟩ := hreturns
    obtain ⟨hpaused, -, hauth, hvalid, hfits, rfl, hids, rfl⟩ :=
      returns_batchRegisterAlerts hbatch
    exact ⟨⟨hvalid, fun _ => hpaused, fun _ => hauth, fun _ => hfits, hids⟩, heq⟩
  · right
    refine ⟨?_, f, heq⟩
    rintro ⟨hvalid, hunpaused, hauth, hfits, hids⟩
    have hpruned : (State.prunedFor s.silenced env.sequence caller).view.Safe := by
      rw [view_prunedFor]
      exact hs.prunedFor caller
    have hloop := @returns_registerInputs_of_room env
      (State.prunedFor s.silenced env.sequence caller) caller hpruned env.timestamp inputs
      [] (by
        rw [view_prunedFor, Registry.nextId_prunedFor]
        exact hids)
    have hreturns : ∃ resp s', (dispatch (.batchRegisterAlerts caller inputs)).Returns
        env s.silenced resp s' := by
      simp only [dispatch, returns_respond, batchRegisterAlerts, returns_bind,
        returns_assertNotPaused, returns_rejectIf, returns_requireAuth,
        returns_ofExcept, returns_assertPerOwnerLimitFor, returns_timestamp,
        view_silenced]
      exact ⟨_, _, _, ⟨(), _, ⟨hunpaused hne, rfl⟩, (), _,
        ⟨Nat.not_lt.mpr hsize, rfl⟩, (), _, ⟨hauth hne, rfl⟩, (), _,
        ⟨hvalid, rfl⟩, (), _, ⟨hfits hne, rfl⟩, _, _, ⟨rfl, rfl⟩, hloop⟩, rfl⟩
    obtain ⟨resp, s', hreturns⟩ := hreturns
    rw [invoke_of_returns hreturns] at heq
    cases heq

/-- In every reachable state, `batch_register_alerts` on one input or more, within
the batch size, succeeds exactly if registering the inputs one by one does, and
then both give the same ids, publish the same events and leave the same values
under every key. -/
theorem batch_is_one_by_one
    (steps : List Step) (env : Env) (caller : Address)
    (inputs : List AlertInput) (hne : inputs ≠ [])
    (hsize : inputs.length ≤ maxBatchSize) :
    ((∃ resp, (invoke env (.batchRegisterAlerts caller inputs)
        (run exec State.empty steps)).1 = .ok resp) ↔
      ∃ out, invokeEach dispatch env (inputs.map (AlertInput.single caller))
        (run exec State.empty steps) = some out) ∧
    ∀ resp resps evs t,
      (invoke env (.batchRegisterAlerts caller inputs)
        (run exec State.empty steps)).1 = .ok resp →
      invokeEach dispatch env (inputs.map (AlertInput.single caller))
        (run exec State.empty steps) = some (resps, evs, t) →
      (∃ ids : List Nat, resp = .numbers ids ∧ resps = ids.map .number) ∧
        (invoke env (.batchRegisterAlerts caller inputs)
          (run exec State.empty steps)).2.events = evs ∧
        State.SameValues t (invoke env (.batchRegisterAlerts caller inputs)
          (run exec State.empty steps)).2 := by
  have hs := safe_run steps
  generalize run exec State.empty steps = s at hs ⊢
  obtain ⟨input, rest, rfl⟩ := List.exists_cons_of_ne_nil hne
  rcases @invoke_batch env s caller hs _ hne hsize with
    ⟨hadmits, hbatch⟩ | ⟨hnot, f, hbatch⟩
  · rcases @invokeEach_singles env s caller hs input rest with
      ⟨-, t, heach, hquiet⟩ | ⟨hnot, -⟩
    · rw [hbatch, heach]
      refine ⟨iff_of_true ⟨_, rfl⟩ ⟨_, rfl⟩, ?_⟩
      intro resp resps evs t' hresp hout
      cases hresp
      cases hout
      have hevents := events_createdAll_pruned s env.sequence caller
        (recordsOf caller env.timestamp (input :: rest))
      refine ⟨⟨_, rfl, rfl⟩, hevents, ?_, ?_⟩
      · intro k
        exact (congrArg (fun s : State => s.persistent.get k) hquiet).symm
      · intro i
        exact (congrArg (fun s : State => s.inst i) hquiet).symm
    · exact absurd hadmits hnot
  · rcases @invokeEach_singles env s caller hs input rest with
      ⟨hadmits, -⟩ | ⟨-, heach⟩
    · exact absurd hadmits hnot
    · rw [hbatch, heach]
      refine ⟨iff_of_false ?_ ?_, ?_⟩
      · rintro ⟨resp, hresp⟩
        cases hresp
      · rintro ⟨out, hout⟩
        cases hout
      · intro resp resps evs t hresp
        cases hresp

/-- A limit of three alerts, of which the owner has one left. -/
def fillingRun : List Step :=
  [.call (envAt 1 [operator]) (.initialise operator),
    .call (envAt 1 [operator]) (.setPerOwnerAlertLimit operator 3)] ++ staleRun

/-- Two more alerts on one target. -/
def lastInputs : List AlertInput :=
  [{ targetContract := pool, label := .fromStr "large transfers",
     webhookHash := sampleHash, rules := [ruleTransfer] },
   { targetContract := pool, label := .fromStr "mints",
     webhookHash := sampleHash, rules := [ruleMint] }]

theorem batch_is_one_by_one_fillingRun :
    ∃ out, invokeEach dispatch (envAt 4 [alice])
      (lastInputs.map (AlertInput.single alice))
      (run exec State.empty fillingRun) = some out := by
  have h := batch_is_one_by_one fillingRun (envAt 4 [alice]) alice lastInputs
    (by decide) (by decide)
  exact h.1.mp ⟨.numbers [2, 3], rfl⟩

end Batch

end AlertRegistry
end TxWatch
