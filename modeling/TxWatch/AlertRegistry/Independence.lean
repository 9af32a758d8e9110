import TxWatch.AlertRegistry.FailureAtomicity
import TxWatch.AlertRegistry.Traps
import TxWatch.Soroban.Lockstep

/-!
# Calls on different alerts

A call on a single alert decides from the record of that alert and from the
instance entries whether it succeeds, and then puts another record in its place
or deletes it.  Calls on two alerts therefore do not get in each other's way,
even where both alerts are on the same lists.
-/

namespace TxWatch
namespace AlertRegistry

open Soroban Soroban.Contract Indexed

namespace Call

/-- The single alert that a call rewrites in its place or removes. -/
def edits : Call → Option Nat
  | .updateAlert _ configId _ _ | .updateWebhook _ configId _
  | .proposeWebhook _ configId _ | .confirmWebhook _ configId
  | .updateLabel _ configId _ | .updateTags _ configId _
  | .pauseAlert _ configId | .unpauseAlert _ configId
  | .removeAlert _ configId | .removeAlertByAdmin _ configId => some configId
  | _ => none

/-- What such a call puts in the place of the record when it succeeds; none if it
deletes it. -/
def outcome (now : Nat) (cfg : AlertConfig) : Call → Option AlertConfig
  | .pauseAlert _ _ => some { cfg with active := false, updatedAt := now }
  | .unpauseAlert _ _ => some { cfg with active := true, updatedAt := now }
  | .removeAlert _ _ | .removeAlertByAdmin _ _ => none
  | call => call.amended now cfg

end Call

/-- The storages look alike to a call on the alert `id`: they have the same
instance entries and the same record under `id`. -/
structure State.AlikeFor (id : Nat) (s t : State) : Prop where
  keyed : s.Keyed
  keyed' : t.Keyed
  inst : t.inst = s.inst
  row : t.view.table.row id = s.view.table.row id

section Guards

variable {env : Env} {s t : State} {id : Nat}

theorem endsAlike_assertNotPaused (hinst : t.inst = s.inst) :
    EndsAlike assertNotPaused env s t := by
  refine checks_isPaused.bind_endsAlike ?_ fun _ _ => endsAlike_rejectIf _ _
  exact endsAlike_bind_instanceGet (congrFun hinst _) (endsAlike_pure _)

theorem endsAlike_assertAdmin (hinst : t.inst = s.inst) (caller : Address) :
    EndsAlike (assertAdmin caller) env s t := by
  refine checks_loadAdmins.bind_endsAlike ?_ fun admins _ => ?_
  · exact endsAlike_bind_instanceGet (congrFun hinst _) (endsAlike_pure _)
  · refine (checks_okOr (P := NotDuplicate) (by decide) _).bind_endsAlike
      (endsAlike_okOr _ _) fun _ _ => ?_
    exact endsAlike_ite (endsAlike_pure _) (endsAlike_fail _)

theorem endsAlike_loadAlert
    (hrow : t.view.table.row id = s.view.table.row id) :
    EndsAlike (loadAlert id) env s t := by
  exact endsAlike_bind_persistentGet hrow (endsAlike_okOr _ _)

theorem endsAlike_assertOwner (cfg : AlertConfig) (caller : Address) :
    EndsAlike (assertOwner cfg caller) env s t := by
  exact endsAlike_ite (endsAlike_pure _) (endsAlike_fail _)

/-- The guards that calls of an owner begin with. -/
theorem ownerGuards_endAlike
    (h : State.AlikeFor id s t) {caller : Address}
    {f : AlertConfig → Contract Unit}
    (hf : ∀ cfg, s.view.table.row id = some cfg → EndsAlike (f cfg) env s t) :
    EndsAlike (do
      requireAuth caller
      let config ← loadAlert id
      assertOwner config caller
      f config) env s t := by
  refine (checks_requireAuth (P := NotDuplicate) caller).bind_endsAlike
    (endsAlike_requireAuth caller) fun _ _ => ?_
  refine (checks_loadAlert id).bind_endsAlike (endsAlike_loadAlert h.row)
    fun cfg hload => ?_
  refine (checks_assertOwner cfg caller).bind_endsAlike
    (endsAlike_assertOwner cfg caller) fun _ _ => ?_
  exact hf cfg ((returns_loadAlert id cfg).mp hload).1

/-- The guards that calls of an admin begin with. -/
theorem adminGuards_endAlike
    (h : State.AlikeFor id s t) {admin : Address}
    {f : AlertConfig → Contract Unit}
    (hf : ∀ cfg, s.view.table.row id = some cfg → EndsAlike (f cfg) env s t) :
    EndsAlike (do
      requireAuth admin
      assertAdmin admin
      let config ← loadAlert id
      f config) env s t := by
  refine (checks_requireAuth (P := NotDuplicate) admin).bind_endsAlike
    (endsAlike_requireAuth admin) fun _ _ => ?_
  refine (checks_assertAdmin admin).bind_endsAlike
    (endsAlike_assertAdmin h.inst admin) fun _ _ => ?_
  refine (checks_loadAlert id).bind_endsAlike (endsAlike_loadAlert h.row)
    fun cfg hload => ?_
  exact hf cfg ((returns_loadAlert id cfg).mp hload).1

/-- Asking first whether the contract is paused. -/
theorem unpaused_endAlike
    (h : State.AlikeFor id s t) {m : Contract Unit} (hm : EndsAlike m env s t) :
    EndsAlike (do
      assertNotPaused
      m) env s t := by
  exact checks_assertNotPaused.bind_endsAlike (endsAlike_assertNotPaused h.inst)
    fun _ _ => hm

/-- Writes that go through wherever the entries of the alert are present. -/
theorem writes_endAlike
    (h : State.AlikeFor id s t) {cfg : AlertConfig} {m : Contract Unit}
    (hrow : s.view.table.row id = some cfg)
    (hm : ∀ u : State, u.persistent.has (.ownerIndex cfg.owner) = true →
      u.persistent.has (.contractIndex cfg.targetContract) = true →
      ∃ u', m.Returns env u () u') :
    EndsAlike m env s t := by
  have hrow' : t.view.table.row id = some cfg := h.row.trans hrow
  obtain ⟨-, howner, htarget⟩ := h.keyed id cfg hrow
  obtain ⟨-, howner', htarget'⟩ := h.keyed' id cfg hrow'
  obtain ⟨s', hs⟩ := hm s howner htarget
  obtain ⟨t', ht⟩ := hm t howner' htarget'
  exact endsAlike_of_returns hs ht

end Guards

section Calls

variable {env : Env} {s t : State} {id : Nat}

theorem updateAlert_endsAlike
    (h : State.AlikeFor id s t) (caller : Address) (rules : List HostString)
    (active : Bool) :
    EndsAlike (updateAlert caller id rules active) env s t := by
  refine unpaused_endAlike h (ownerGuards_endAlike h fun cfg hrow => ?_)
  refine (checks_ofExcept (notDuplicate_validateRules rules)).bind_endsAlike
    (endsAlike_ofExcept _) fun _ _ => ?_
  refine writes_endAlike h hrow fun u howner htarget => ?_
  simp [howner, htarget]

theorem updateWebhook_endsAlike
    (h : State.AlikeFor id s t) (caller : Address) (webhookHash : HostString) :
    EndsAlike (updateWebhook caller id webhookHash) env s t := by
  refine unpaused_endAlike h (ownerGuards_endAlike h fun cfg hrow => ?_)
  refine (checks_rejectIf (P := NotDuplicate) (by decide) _).bind_endsAlike
    (endsAlike_rejectIf _ _) fun _ _ => ?_
  refine writes_endAlike h hrow fun u howner htarget => ?_
  simp [howner, htarget]

theorem proposeWebhook_endsAlike
    (h : State.AlikeFor id s t) (caller : Address)
    (newWebhookHash : HostString) :
    EndsAlike (proposeWebhook caller id newWebhookHash) env s t := by
  refine ownerGuards_endAlike h fun cfg hrow => ?_
  exact writes_endAlike h hrow fun u _ _ => by simp

theorem confirmWebhook_endsAlike
    (h : State.AlikeFor id s t) (caller : Address) :
    EndsAlike (confirmWebhook caller id) env s t := by
  refine ownerGuards_endAlike h fun cfg hrow => ?_
  refine (checks_okOr (P := NotDuplicate) (by decide) _).bind_endsAlike
    (endsAlike_okOr _ _) fun _ _ => ?_
  exact writes_endAlike h hrow fun u _ _ => by simp

/-- Here the argument is checked before the alert is read. -/
theorem updateLabel_endsAlike
    (h : State.AlikeFor id s t) (caller : Address) (label : HostString) :
    EndsAlike (updateLabel caller id label) env s t := by
  refine unpaused_endAlike h ?_
  refine (checks_requireAuth (P := NotDuplicate) caller).bind_endsAlike
    (endsAlike_requireAuth caller) fun _ _ => ?_
  refine (checks_ofExcept (notDuplicate_validateLabel label)).bind_endsAlike
    (endsAlike_ofExcept _) fun _ _ => ?_
  refine (checks_loadAlert id).bind_endsAlike (endsAlike_loadAlert h.row)
    fun cfg hload => ?_
  refine (checks_assertOwner cfg caller).bind_endsAlike
    (endsAlike_assertOwner cfg caller) fun _ _ => ?_
  refine writes_endAlike h ((returns_loadAlert id cfg).mp hload).1
    fun u howner htarget => ?_
  simp [howner, htarget]

theorem updateTags_endsAlike
    (h : State.AlikeFor id s t) (caller : Address)
    (tags : Option (List HostString)) :
    EndsAlike (updateTags caller id tags) env s t := by
  refine unpaused_endAlike h (ownerGuards_endAlike h fun cfg hrow => ?_)
  refine (checks_ofExcept (notDuplicate_validateTags tags)).bind_endsAlike
    (endsAlike_ofExcept _) fun _ _ => ?_
  exact writes_endAlike h hrow fun u _ _ => by simp

theorem setAlertActiveByAdmin_endsAlike
    (h : State.AlikeFor id s t) (admin : Address) (active : Bool) :
    EndsAlike (setAlertActiveByAdmin admin id active) env s t := by
  refine adminGuards_endAlike h fun cfg hrow => ?_
  exact writes_endAlike h hrow fun u _ _ => by simp

theorem removeAlert_endsAlike
    (h : State.AlikeFor id s t) (caller : Address) :
    EndsAlike (removeAlert caller id) env s t := by
  refine unpaused_endAlike h (ownerGuards_endAlike h fun cfg hrow => ?_)
  refine writes_endAlike h hrow fun u _ _ => ?_
  simp [removeAlertRecord, removeFromOwnerIndex, removeFromContractIndex]

theorem removeAlertByAdmin_endsAlike
    (h : State.AlikeFor id s t) (admin : Address) :
    EndsAlike (removeAlertByAdmin admin id) env s t := by
  refine unpaused_endAlike h (adminGuards_endAlike h fun cfg hrow => ?_)
  refine writes_endAlike h hrow fun u _ _ => ?_
  simp [removeAlertRecordByAdmin, removeFromOwnerIndex, removeFromContractIndex]

/-- A call on one alert ends alike in storages that look alike to it. -/
theorem dispatch_endsAlike
    {call : Call} (hcall : call.edits = some id) (h : State.AlikeFor id s t) :
    EndsAlike (dispatch call) env s t := by
  cases call with
  | updateAlert caller _ rules active =>
      obtain rfl := Option.some.inj hcall
      exact (updateAlert_endsAlike h caller rules active).map _
  | updateWebhook caller _ webhookHash =>
      obtain rfl := Option.some.inj hcall
      exact (updateWebhook_endsAlike h caller webhookHash).map _
  | proposeWebhook caller _ newWebhookHash =>
      obtain rfl := Option.some.inj hcall
      exact (proposeWebhook_endsAlike h caller newWebhookHash).map _
  | confirmWebhook caller _ =>
      obtain rfl := Option.some.inj hcall
      exact (confirmWebhook_endsAlike h caller).map _
  | updateLabel caller _ label =>
      obtain rfl := Option.some.inj hcall
      exact (updateLabel_endsAlike h caller label).map _
  | updateTags caller _ tags =>
      obtain rfl := Option.some.inj hcall
      exact (updateTags_endsAlike h caller tags).map _
  | pauseAlert admin _ =>
      obtain rfl := Option.some.inj hcall
      exact (setAlertActiveByAdmin_endsAlike h admin false).map _
  | unpauseAlert admin _ =>
      obtain rfl := Option.some.inj hcall
      exact (setAlertActiveByAdmin_endsAlike h admin true).map _
  | removeAlert caller _ =>
      obtain rfl := Option.some.inj hcall
      exact (removeAlert_endsAlike h caller).map _
  | removeAlertByAdmin admin _ =>
      obtain rfl := Option.some.inj hcall
      exact (removeAlertByAdmin_endsAlike h admin).map _
  | _ => exact absurd hcall (by simp [Call.edits])

theorem result_of_alike
    {call : Call} (hcall : call.edits = some id) (h : State.AlikeFor id s t) :
    (invoke env call t).1 = (invoke env call s).1 := by
  have hquiet : State.AlikeFor id s.silenced t.silenced := by
    exact ⟨h.keyed, h.keyed', h.inst, h.row⟩
  rw [invoke_fst, invoke_fst]
  exact dispatch_endsAlike hcall hquiet

end Calls

section Effects

variable {env : Env} {r r' : Registry} {call : Call} {resp : Response}
  {evs : List Event} {id : Nat}

/-- A call on one alert that succeeds alters the record of that alert. -/
theorem Registry.Step.of_edits
    (h : Registry.Step env r call resp evs r') (hcall : call.edits = some id) :
    r'.inst = r.inst ∧
      r'.table = r.table.alter AlertConfig.party id
        (fun cfg => call.outcome env.timestamp cfg) := by
  cases h with
  | query hquery =>
      cases call <;> simp_all [Call.isQuery, Call.edits]
  | administer hadm _ _ _ _ _ =>
      cases call <;> simp_all [Call.administers, Call.edits]
  | enrol henrol _ _ _ _ _ =>
      cases call <;> simp_all [Call.enrols, Call.edits]
  | @amend call caller id' cfg cfg' hamend _ _ _ hrow _ hcfg =>
      obtain ⟨rfl, houtcome⟩ : id' = id ∧
          call.outcome env.timestamp cfg = call.amended env.timestamp cfg := by
        cases call <;> simp_all [Call.amends, Call.edits, Call.outcome]
      refine ⟨by simp, ?_⟩
      rw [Table.alter_of_row hrow, houtcome, hcfg, table_flag]
      rfl
  | @activate call admin id' active cfg hact _ _ hrow =>
      obtain ⟨rfl, houtcome⟩ : id' = id ∧ call.outcome env.timestamp cfg =
          some { cfg with active := active, updatedAt := env.timestamp } := by
        cases call <;> simp_all [Call.activates, Call.edits, Call.outcome]
      refine ⟨by simp, ?_⟩
      rw [Table.alter_of_row hrow, houtcome, table_flag]
      rfl
  | remove _ _ hrow _ =>
      obtain rfl := Option.some.inj hcall
      refine ⟨rfl, ?_⟩
      rw [Table.alter_of_row hrow]
      rfl
  | removeByAdmin _ _ _ hrow =>
      obtain rfl := Option.some.inj hcall
      refine ⟨rfl, ?_⟩
      rw [Table.alter_of_row hrow]
      rfl
  | _ => exact absurd hcall (by simp [Call.edits])

/-- What a call on one alert makes of the table, given its result. -/
def Call.altered (env : Env) (id : Nat) (call : Call)
    (out : Except (Failure ContractError) Response) (t : AlertTable) :
    AlertTable :=
  match out with
  | .ok _ =>
      t.alter AlertConfig.party id (fun cfg => call.outcome env.timestamp cfg)
  | .error _ => t

theorem invoke_altered
    (hcall : call.edits = some id) (env : Env) (s : State) :
    (invoke env call s).2.inst = s.inst ∧
      (invoke env call s).2.view.table =
        call.altered env id (invoke env call s).1 s.view.table := by
  rcases invoke_refines env call s with ⟨resp, hok, hstep⟩ | ⟨⟨f, herror⟩, hview⟩
  · obtain ⟨hinst, htable⟩ := hstep.of_edits hcall
    refine ⟨hinst, ?_⟩
    rw [hok]
    exact htable
  · refine ⟨congrArg Registry.inst hview, ?_⟩
    rw [herror]
    exact congrArg Registry.table hview

theorem row_altered_of_ne
    {id' : Nat} (hne : id' ≠ id) (env : Env) (call : Call)
    (out : Except (Failure ContractError) Response) (t : AlertTable) :
    (call.altered env id out t).row id' = t.row id' := by
  cases out with
  | error f => rfl
  | ok resp => exact Table.row_alter_of_ne hne _

theorem altered_comm
    {id' : Nat} (hne : id ≠ id') (env env' : Env) (call call' : Call)
    (out out' : Except (Failure ContractError) Response) (t : AlertTable) :
    call'.altered env' id' out' (call.altered env id out t) =
      call.altered env id out (call'.altered env' id' out' t) := by
  cases out with
  | error f => rfl
  | ok resp =>
      cases out' with
      | error f' => rfl
      | ok resp' => exact Table.alter_comm hne _ _

end Effects

section Order

variable {s : State} {env env' : Env} {call call' : Call} {id id' : Nat}

/-- A call on another alert does not change what a call finds. -/
theorem alikeFor_invoke
    (h : s.Leakless) (hcall : call.edits = some id) (hne : id' ≠ id)
    (env : Env) :
    State.AlikeFor id' s (invoke env call s).2 := by
  obtain ⟨hinst, htable⟩ := invoke_altered hcall env s
  have hafter : (invoke env call s).2.Leakless := by
    exact leakless_exec s (.call env call) trivial h
  refine ⟨h.keyed, hafter.keyed, hinst, ?_⟩
  rw [htable, row_altered_of_ne hne]

/-- In every state reached without expiry, two calls on different alerts may be
made in either order: each has the same result, and every entry of the storage
has the same value in the end. -/
theorem calls_commute
    (steps : List Step) (hsteps : ∀ st ∈ steps, st.isCall)
    (env env' : Env) (call call' : Call) (id id' : Nat) (hne : id ≠ id')
    (hcall : call.edits = some id) (hcall' : call'.edits = some id') :
    (invoke env' call' (invoke env call (run exec State.empty steps)).2).1 =
        (invoke env' call' (run exec State.empty steps)).1 ∧
      (invoke env call (invoke env' call' (run exec State.empty steps)).2).1 =
        (invoke env call (run exec State.empty steps)).1 ∧
      State.SameValues
        (invoke env' call' (invoke env call (run exec State.empty steps)).2).2
        (invoke env call (invoke env' call' (run exec State.empty steps)).2).2 := by
  have h := leakless_run hsteps
  generalize run exec State.empty steps = s at h ⊢
  have hfirst : (invoke env' call' (invoke env call s).2).1 =
      (invoke env' call' s).1 :=
    result_of_alike hcall' (alikeFor_invoke h hcall hne.symm env)
  have hsecond : (invoke env call (invoke env' call' s).2).1 =
      (invoke env call s).1 :=
    result_of_alike hcall (alikeFor_invoke h hcall' hne env')
  obtain ⟨hinst, htable⟩ := invoke_altered hcall env s
  obtain ⟨hinst', htable'⟩ := invoke_altered hcall' env' s
  obtain ⟨hinst₁, htable₁⟩ := invoke_altered hcall' env' (invoke env call s).2
  obtain ⟨hinst₂, htable₂⟩ := invoke_altered hcall env (invoke env' call' s).2
  have hleakless₁ : (invoke env' call' (invoke env call s).2).2.Leakless := by
    exact leakless_exec _ (.call env' call') trivial
      (leakless_exec s (.call env call) trivial h)
  have hleakless₂ : (invoke env call (invoke env' call' s).2).2.Leakless := by
    exact leakless_exec _ (.call env call) trivial
      (leakless_exec s (.call env' call') trivial h)
  refine ⟨hfirst, hsecond, ?_, ?_⟩
  · apply hleakless₁.get_eq hleakless₂
    rw [htable₂, hsecond, htable', htable₁, hfirst, htable]
    exact (altered_comm hne env env' call call' _ _ _).symm
  · intro i
    rw [hinst₁, hinst, hinst₂, hinst']

/-- The two alerts of an owner on one target, removed in either order. -/
theorem removals_commute :
    State.SameValues
      (invoke (envAt 3 [alice]) (.removeAlert alice 1)
        (invoke (envAt 3 [alice]) (.removeAlert alice 0)
          (run exec State.empty (staleRun.take 2))).2).2
      (invoke (envAt 3 [alice]) (.removeAlert alice 0)
        (invoke (envAt 3 [alice]) (.removeAlert alice 1)
          (run exec State.empty (staleRun.take 2))).2).2 := by
  have h := calls_commute (staleRun.take 2) (by simp [staleRun, Step.isCall])
    (envAt 3 [alice]) (envAt 3 [alice]) (.removeAlert alice 0)
    (.removeAlert alice 1) 0 1 (by decide) rfl rfl
  exact h.2.2

end Order

end AlertRegistry
end TxWatch
