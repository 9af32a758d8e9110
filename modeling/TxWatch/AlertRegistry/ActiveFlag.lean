import TxWatch.AlertRegistry.Reachability

/-!
# The cheap active flag

`get_alert_active` reads a second copy of the `active` field.  As long as
nothing expires the copy agrees with the record: whoever writes the field
writes the copy, and everyone else leaves both alone.
-/

namespace TxWatch
namespace AlertRegistry

open Soroban Soroban.Contract Indexed

namespace Registry

/-- Every flag is the `active` field of the record, and there are no others. -/
def FlagsAgree (r : Registry) : Prop :=
  ∀ id, r.active id = (r.table.row id).map AlertConfig.active

variable {r r' : Registry}

theorem FlagsAgree.prunedFor
    (h : r.FlagsAgree) (owner : Address) :
    (r.prunedFor owner).FlagsAgree := by
  intro id
  rw [row_prunedFor, active_prunedFor]
  exact h id

/-- Writing a record and its flag, or a record with the same `active` field. -/
theorem FlagsAgree.rewrite
    (h : r.FlagsAgree) {id : Nat} {cfg cfg' : AlertConfig}
    (hrow : r.table.row id = some cfg) {active : Option Bool}
    (hactive : cfg'.active = active.getD cfg.active) :
    ((r.rewrite id cfg').flag id active).FlagsAgree := by
  intro id'
  by_cases hid : id' = id
  · subst hid
    cases active with
    | none =>
        have hold := h id'
        rw [hrow] at hold
        simp [Registry.flag, hold, hactive]
    | some b => simp [Registry.flag, hactive]
  · have hold := h id'
    cases active with
    | none => simpa [Registry.flag, hid] using hold
    | some b => simpa [Registry.flag, hid] using hold

theorem FlagsAgree.create
    (h : r.FlagsAgree) {cfg : AlertConfig} (hcfg : cfg.active = true) :
    (r.create cfg).FlagsAgree := by
  intro id
  rw [row_create]
  by_cases hid : id = r.nextId
  · subst hid
    simp [Registry.create, hcfg]
  · simpa [Registry.create, hid] using h id

theorem FlagsAgree.createAll
    (h : r.FlagsAgree) {cfgs : List AlertConfig}
    (hcfgs : ∀ cfg ∈ cfgs, cfg.active = true) :
    (r.createAll cfgs).FlagsAgree := by
  induction cfgs generalizing r with
  | nil => exact h
  | cons cfg rest ih =>
      have hcfg : cfg.active = true := hcfgs cfg List.mem_cons_self
      apply ih (h.create hcfg)
      intro cfg' hcfg'
      exact hcfgs cfg' (List.mem_cons_of_mem _ hcfg')

theorem FlagsAgree.erase
    (h : r.FlagsAgree) (id : Nat) (cfg : AlertConfig) :
    (r.erase id cfg).FlagsAgree := by
  intro id'
  rw [row_erase]
  by_cases hid : id' = id
  · subst hid
    simp [Registry.erase]
  · simpa [Registry.erase, hid] using h id'

theorem FlagsAgree.move
    (h : r.FlagsAgree) {id : Nat} {cfg cfg' : AlertConfig}
    (hrow : r.table.row id = some cfg) (hactive : cfg'.active = cfg.active)
    (kind : IndexKind) (a b : Address) :
    (r.move kind id a b cfg').FlagsAgree := by
  have hmoved : (r.move kind id a b cfg').active = r.active := by
    rfl
  intro id'
  rw [row_move, hmoved, h id']
  by_cases hid : id' = id
  · subst hid
    simp [hrow, hactive]
  · rw [Function.update_of_ne hid]

theorem FlagsAgree.deactivate
    (h : r.FlagsAgree) (now : Nat) (ids : List Nat) :
    (r.deactivate now ids).FlagsAgree := by
  intro id
  have hold := h id
  simp only [Registry.deactivate]
  by_cases hid : id ∈ ids
  · cases hrow : r.table.row id with
    | none =>
        rw [hrow] at hold
        simpa [hid, hrow] using hold
    | some cfg =>
        rw [hrow] at hold
        by_cases hactive : cfg.active = true
        · simp [hid, hactive, AlertConfig.deactivated]
        · simpa [hid, hactive, AlertConfig.deactivated] using hold
  · simpa [hid] using hold

/-- Every step keeps flags and records in agreement. -/
theorem Step.flagsAgree
    {env : Env} {call : Call} {resp : Response} {evs : List Event}
    (h : Step env r call resp evs r') (hflags : r.FlagsAgree) :
    r'.FlagsAgree := by
  cases h with
  | query _ => exact hflags
  | initialise _ => exact hflags
  | administer _ _ _ _ _ _ => exact hflags
  | bump _ _ => exact hflags
  | bulkRenew _ => exact hflags
  | keepOwner _ _ _ _ => exact hflags
  | enrol henrol _ _ _ _ _ =>
      apply (hflags.prunedFor _).createAll
      intro cfg hcfg
      exact (enrols_spec henrol cfg hcfg).2.1
  | amend _ _ _ _ hrow _ hnew =>
      exact hflags.rewrite hrow (amended_spec hnew).2.1
  | activate _ _ _ hrow => exact hflags.rewrite hrow rfl
  | deactivateAll _ _ => exact hflags.deactivate _ _
  | retarget _ _ hrow _ =>
      apply hflags.move hrow
      rfl
  | @reown owner newOwner id cfg _ _ _ hrow _ _ =>
      rw [← row_prunedFor r newOwner] at hrow
      apply (hflags.prunedFor newOwner).move hrow
      rfl
  | remove _ _ _ _ => exact hflags.erase _ _
  | removeByAdmin _ _ _ _ => exact hflags.erase _ _

end Registry

theorem flagsAgree_exec
    (s : State) (st : Step) (hcall : st.isCall)
    (h : s.view.FlagsAgree) :
    (exec s st).view.FlagsAgree := by
  cases st with
  | call env call =>
      rcases invoke_refines env call s with ⟨resp, -, hstep⟩ | ⟨-, hview⟩
      · exact hstep.flagsAgree h
      · rw [exec_call, hview]
        exact h
  | expire keys => exact absurd hcall id

theorem invoke_getAlert (env : Env) (id : Nat) (s : State) :
    (invoke env (.getAlert id) s).1 =
      .ok (.optAlert (s.persistent.get (.alert id))) := by
  exact (invoke_query_iff rfl _).mpr rfl

theorem invoke_getAlertActive (env : Env) (id : Nat) (s : State) :
    (invoke env (.getAlertActive id) s).1 =
      .ok (.optBool (s.persistent.get (.alertActive id))) := by
  exact (invoke_query_iff rfl _).mpr rfl

/-- As long as nothing expires, `get_alert_active` answers with the `active`
field of what `get_alert` answers, and with nothing when there is no alert. -/
theorem active_flag_agrees
    (steps : List Step) (hsteps : ∀ st ∈ steps, st.isCall)
    (id : Nat) (env env' : Env) :
    ∃ found : Option AlertConfig,
      (invoke env (.getAlert id) (run exec State.empty steps)).1 =
          .ok (.optAlert found) ∧
        (invoke env' (.getAlertActive id) (run exec State.empty steps)).1 =
          .ok (.optBool (found.map AlertConfig.active)) := by
  have hempty : State.empty.view.FlagsAgree := by
    intro id
    rfl
  have hagree := run_induction hempty flagsAgree_exec hsteps
  refine ⟨_, invoke_getAlert env id _, ?_⟩
  rw [invoke_getAlertActive]
  exact congrArg (fun o => Except.ok (Response.optBool o)) (hagree id)

/-- An alert that its owner deactivates. -/
def deactivatedRun : List Step :=
  [.call (envAt 1 [alice]) (sampleRegister alice pool),
    .call (envAt 2 [alice]) (.updateAlert alice 0 [ruleMint] false)]

theorem deactivatedRun_flag :
    ∃ found : Option AlertConfig,
      (invoke (envAt 3 []) (.getAlert 0)
          (run exec State.empty deactivatedRun)).1 = .ok (.optAlert found) ∧
        (invoke (envAt 3 []) (.getAlertActive 0)
          (run exec State.empty deactivatedRun)).1 =
          .ok (.optBool (found.map AlertConfig.active)) := by
  apply active_flag_agrees
  simp [deactivatedRun, Step.isCall]

end AlertRegistry
end TxWatch
