import TxWatch.AlertRegistry.Authority
import TxWatch.AlertRegistry.Exactness
import TxWatch.AlertRegistry.Independence
import TxWatch.AlertRegistry.Retraction

/-!
# What strangers can do together

A coalition is a set of addresses that sign each other's calls.  As long as no
admin belongs to it, nothing that it does, in whichever order, touches the
alerts of the others or a setting: to these, time alone makes a difference.  Nor
does it stand in the way of those who may call on such an alert.
-/

namespace TxWatch
namespace AlertRegistry

open Soroban Indexed

/-- A step in which entries expire. -/
def Step.isExpiry : Step → Bool
  | .call _ _ => false
  | .expire _ => true

/-- Whoever authorises the step belongs to the coalition. -/
def Step.SignedWithin (C : Set Address) : Step → Prop
  | .call env _ => ∀ a ∈ env.auths, a ∈ C
  | .expire _ => True

namespace Registry

variable {C : Set Address} {env : Env} {r r' : Registry} {call : Call}
  {resp : Response} {evs : List Event}

/-- The registry has an admin, and no admin belongs to the coalition. -/
def OutOfReach (C : Set Address) (r : Registry) : Prop :=
  r.inst .admin ≠ none ∧ ∀ a, r.IsAdmin a → a ∉ C

theorem OutOfReach.of_inst
    (h : r.OutOfReach C) (hinst : ∀ i, i ≠ .nextId → r'.inst i = r.inst i) :
    r'.OutOfReach C := by
  have hadmin := hinst .admin (by simp)
  refine ⟨by rw [hadmin]; exact h.1, ?_⟩
  rintro a ⟨admins, hadmins, hmem⟩
  apply h.2 a
  rw [Registry.admins, hadmin] at hadmins
  exact ⟨admins, hadmins, hmem⟩

/-- Out of reach of those who sign, every setting stays. -/
theorem Step.keepsSettings
    (h : Step env r call resp evs r') (hreach : r.OutOfReach C)
    (hsigned : ∀ a ∈ env.auths, a ∈ C) (i : InstanceKey) (hi : i ≠ .nextId) :
    r'.inst i = r.inst i := by
  cases h with
  | query _ => rfl
  | initialise hnone => exact absurd hnone hreach.1
  | administer _ _ hauth hadmins hmem _ =>
      exact absurd (hsigned _ hauth) (hreach.2 _ ⟨_, hadmins, hmem⟩)
  | enrol _ _ _ _ _ _ => rw [inst_createAll_of_ne _ _ hi, inst_prunedFor]
  | amend _ _ _ _ _ _ _ => simp
  | activate _ _ _ _ => simp
  | deactivateAll _ _ => rfl
  | retarget _ _ _ _ => rfl
  | keepOwner _ _ _ _ => rfl
  | reown _ _ _ _ _ _ => exact congrFun (inst_prunedFor r _) i
  | remove _ _ _ _ => rfl
  | removeByAdmin _ _ _ _ => rfl
  | bump _ _ => rfl
  | bulkRenew _ => rfl

theorem active_createAll_of_lt
    (r : Registry) (cfgs : List AlertConfig) {id : Nat} (hid : id < r.nextId) :
    (r.createAll cfgs).active id = r.active id := by
  induction cfgs generalizing r with
  | nil => rfl
  | cons cfg rest ih =>
      have hlt : id < (r.create cfg).nextId := by
        rw [nextId_create]
        omega
      have hne : id ≠ r.nextId := by
        omega
      rw [createAll, ih _ hlt]
      simp [create, Function.update_of_ne hne]

theorem flag_of_ne
    (r : Registry) {id id' : Nat} (hne : id ≠ id') (active : Option Bool) :
    (r.flag id' active).active id = r.active id := by
  cases active with
  | none => rfl
  | some b => exact Function.update_of_ne hne _ _

/-- A step touches neither record nor flag under an id that was issued and whose
alert, if there is one, belongs to somebody who has not signed. -/
theorem Step.sparesOthers
    (h : Step env r call resp evs r') (hs : r.Safe) (hreach : r.OutOfReach C)
    (hsigned : ∀ a ∈ env.auths, a ∈ C) {id : Nat} (hid : id < r.nextId)
    (howner : ∀ cfg, r.table.row id = some cfg → cfg.owner ∉ C) :
    r'.table.row id = r.table.row id ∧ r'.active id = r.active id := by
  have hother : ∀ {id' cfg a}, r.table.row id' = some cfg → cfg.owner = a →
      a ∈ env.auths → id ≠ id' := by
    rintro id' cfg a hrow rfl hauth rfl
    exact howner cfg hrow (hsigned _ hauth)
  cases h with
  | query _ => exact ⟨rfl, rfl⟩
  | initialise _ => exact ⟨rfl, rfl⟩
  | administer _ _ _ _ _ _ => exact ⟨rfl, rfl⟩
  | @enrol _ owner cfgs _ _ _ _ _ _ =>
      have hlt : id < (r.prunedFor owner).nextId := by
        rwa [nextId_prunedFor]
      rw [row_createAll_of_lt _ _ hlt, active_createAll_of_lt _ _ hlt,
        row_prunedFor, active_prunedFor]
      exact ⟨rfl, rfl⟩
  | amend _ _ _ hauth hrow hcaller _ =>
      have hne := hother hrow hcaller hauth
      rw [row_rewrite_flag, Function.update_of_ne hne, flag_of_ne _ hne]
      exact ⟨rfl, rfl⟩
  | activate _ hauth hadmin _ =>
      exact absurd (hsigned _ hauth) (hreach.2 _ hadmin)
  | @deactivateAll caller _ hauth =>
      have hunlisted : ∀ cfg, r.table.row id = some cfg →
          id ∉ r.table.index .owner caller := by
        intro cfg hrow hmem
        have hcaller := hs.sound.party_eq .owner caller id cfg hmem hrow
        exact hother hrow hcaller hauth rfl
      cases hrow : r.table.row id with
      | none => simp [deactivate, hrow]
      | some cfg => simp [deactivate, hrow, hunlisted cfg hrow]
  | retarget _ hauth hrow hcaller =>
      have hne := hother hrow hcaller hauth
      rw [row_move, Function.update_of_ne hne]
      exact ⟨rfl, rfl⟩
  | keepOwner _ _ _ _ => exact ⟨rfl, rfl⟩
  | reown _ _ hauth hrow hcaller _ =>
      have hne := hother hrow hcaller hauth
      rw [row_reown, Function.update_of_ne hne]
      exact ⟨rfl, congrFun (active_prunedFor r _) id⟩
  | remove _ hauth hrow hcaller =>
      have hne := hother hrow hcaller hauth
      rw [row_erase, Function.update_of_ne hne]
      exact ⟨rfl, Function.update_of_ne hne _ _⟩
  | removeByAdmin _ hauth hadmin _ =>
      exact absurd (hsigned _ hauth) (hreach.2 _ hadmin)
  | bump _ _ => exact ⟨rfl, rfl⟩
  | bulkRenew _ => exact ⟨rfl, rfl⟩

end Registry

section Runs

variable {C : Set Address} {s u t : State}

/-- `u` is a storage that the coalition has worked on since `s`, and `t` is what
time has made of `s` meanwhile. -/
structure Spared (C : Set Address) (s u t : State) : Prop where
  safe : u.view.Safe
  inst : ∀ i, i ≠ .nextId → u.inst i = s.inst i
  issued : ∀ id cfg, s.alertAt id = some cfg → id < u.view.nextId
  owned : ∀ id cfg, s.alertAt id = some cfg → cfg.owner ∉ C →
    u.alertAt id = none ∨ u.alertAt id = some cfg
  row : ∀ id cfg, s.alertAt id = some cfg → cfg.owner ∉ C →
    u.persistent.get (.alert id) = t.persistent.get (.alert id) ∧
      u.persistent.get (.alertActive id) = t.persistent.get (.alertActive id)

theorem spared_refl (hs : s.view.Safe) : Spared C s s s where
  safe := hs
  inst := fun _ _ => rfl
  issued := fun id _ hlive => hs.within.row id (by
    rw [view_row]
    exact Option.isSome_of_eq_some hlive)
  owned := fun _ _ hlive _ => Or.inr hlive
  row := fun _ _ _ _ => ⟨rfl, rfl⟩

/-- A call of the coalition leaves the others what time leaves them. -/
theorem Spared.call
    (h : Spared C s u t) (hreach : s.view.OutOfReach C) {env : Env}
    (hsigned : ∀ a ∈ env.auths, a ∈ C) (call : Call) :
    Spared C s (exec u (.call env call)) t := by
  have hsafe := safe_exec u (.call env call) h.safe
  have hissued : ∀ id cfg, s.alertAt id = some cfg →
      id < (exec u (.call env call)).view.nextId := by
    intro id cfg hlive
    exact (h.issued id cfg hlive).trans_le
      (change_invoke u env call).nextId_le
  rcases invoke_refines env call u with ⟨resp, -, hstep⟩ | ⟨-, hview⟩
  · have hreachu : u.view.OutOfReach C := hreach.of_inst h.inst
    have hspared : ∀ id cfg, s.alertAt id = some cfg → cfg.owner ∉ C →
        (invoke env call u).2.alertAt id = u.alertAt id ∧
          (invoke env call u).2.persistent.get (.alertActive id) =
            u.persistent.get (.alertActive id) := by
      intro id cfg hlive howner
      refine hstep.sparesOthers h.safe hreachu hsigned (h.issued id cfg hlive) ?_
      intro cfg' hrow
      rcases h.owned id cfg hlive howner with hnone | hsome
      · rw [view_row, ← State.alertAt, hnone] at hrow
        cases hrow
      · rw [view_row, ← State.alertAt, hsome] at hrow
        obtain rfl := Option.some.inj hrow
        exact howner
    refine ⟨hsafe, ?_, hissued, ?_, ?_⟩
    · intro i hi
      exact (hstep.keepsSettings hreachu hsigned i hi).trans (h.inst i hi)
    · intro id cfg hlive howner
      rw [exec_call, (hspared id cfg hlive howner).1]
      exact h.owned id cfg hlive howner
    · intro id cfg hlive howner
      obtain ⟨hrow, hflag⟩ := hspared id cfg hlive howner
      obtain ⟨hrow', hflag'⟩ := h.row id cfg hlive howner
      exact ⟨hrow.trans hrow', hflag.trans hflag'⟩
  · have hrow : (invoke env call u).2.view.table.row = u.view.table.row := by
      rw [hview]
    have hflag : (invoke env call u).2.view.active = u.view.active := by
      rw [hview]
    refine ⟨hsafe, ?_, hissued, ?_, ?_⟩
    · intro i hi
      exact (congrFun (congrArg Registry.inst hview) i).trans (h.inst i hi)
    · intro id cfg hlive howner
      have hsame : (exec u (.call env call)).alertAt id = u.alertAt id :=
        congrFun hrow id
      rw [hsame]
      exact h.owned id cfg hlive howner
    · intro id cfg hlive howner
      obtain ⟨hrow', hflag'⟩ := h.row id cfg hlive howner
      exact ⟨(congrFun hrow id).trans hrow', (congrFun hflag id).trans hflag'⟩

theorem Spared.expire
    (h : Spared C s u t) (keys : DataKey → Bool) :
    Spared C s (exec u (.expire keys)) (exec t (.expire keys)) := by
  have hget : ∀ (v : State) k, (exec v (.expire keys)).persistent.get k =
      if keys k then none else v.persistent.get k := by
    intro v k
    exact Store.get_expire _ _ _
  refine ⟨safe_exec u (.expire keys) h.safe, h.inst, h.issued, ?_, ?_⟩
  · intro id cfg hlive howner
    rw [State.alertAt, hget]
    split_ifs
    · exact Or.inl rfl
    · exact h.owned id cfg hlive howner
  · intro id cfg hlive howner
    obtain ⟨hrow, hflag⟩ := h.row id cfg hlive howner
    rw [hget, hget, hget, hget, hrow, hflag]
    exact ⟨rfl, rfl⟩

theorem Spared.run
    (h : Spared C s u t) (hreach : s.view.OutOfReach C) {steps : List Step}
    (hsigned : ∀ st ∈ steps, st.SignedWithin C) :
    Spared C s (run exec u steps) (run exec t (steps.filter Step.isExpiry)) := by
  induction steps generalizing u t with
  | nil => exact h
  | cons st rest ih =>
      obtain ⟨hst, hrest⟩ := List.forall_mem_cons.mp hsigned
      cases st with
      | call env call => exact ih (h.call hreach hst call) hrest
      | expire keys => exact ih (h.expire keys) hrest

end Runs

section Obstruction

namespace Call

/-- The single alert that a call rewrites, removes or points at another contract. -/
def handles : Call → Option Nat
  | .updateTargetContract _ configId _ => some configId
  | call => call.edits

section Families

variable {call : Call} {id : Nat}

theorem isQuery_of_handles (h : call.handles = some id) :
    call.isQuery = false := by
  cases call <;> simp_all [handles, edits, isQuery]

theorem administers_of_handles (h : call.handles = some id) :
    call.administers = none := by
  cases call <;> simp_all [handles, edits, administers]

theorem enrols_of_handles (h : call.handles = some id) (now : Nat) :
    call.enrols now = none := by
  cases call <;> simp_all [handles, edits, enrols]

theorem handles_of_amends
    {caller : Address} (h : call.amends = some (caller, id)) :
    call.handles = some id := by
  cases call <;> simp_all [amends, handles, edits]

theorem handles_of_activates
    {admin : Address} {active : Bool} (h : call.activates = some (admin, id, active)) :
    call.handles = some id := by
  cases call <;> simp_all [activates, handles, edits]

end Families

end Call

namespace Registry

variable {env : Env} {r r' t : Registry} {call : Call} {resp : Response}
  {evs : List Event} {id : Nat}

/-- A call on one alert needs no more than its record and the settings. -/
theorem Step.carried
    (h : Step env r call resp evs r') (hcall : call.handles = some id)
    (hrow : t.table.row id = r.table.row id)
    (hinst : ∀ i, i ≠ .nextId → t.inst i = r.inst i) :
    ∃ t', Step env t call resp evs t' ∧ t'.table.row id = r'.table.row id := by
  have hpaused : r.paused = false → t.paused = false := by
    intro h
    rwa [Registry.paused, hinst .paused (by simp), ← Registry.paused]
  have hadmin : ∀ {a}, r.IsAdmin a → t.IsAdmin a := by
    rintro a ⟨admins, hadmins, hmem⟩
    refine ⟨admins, ?_, hmem⟩
    rwa [Registry.admins, hinst .admin (by simp), ← Registry.admins]
  cases h with
  | query hquery =>
      rw [Call.isQuery_of_handles hcall] at hquery
      cases hquery
  | administer hadm _ _ _ _ _ =>
      rw [Call.administers_of_handles hcall] at hadm
      cases hadm
  | enrol henrol _ _ _ _ _ =>
      rw [Call.enrols_of_handles hcall] at henrol
      cases henrol
  | @amend _ caller id' cfg cfg' hamend hok hasks hauth hold howner hnew =>
      obtain rfl : id' = id :=
        Option.some.inj ((Call.handles_of_amends hamend).symm.trans hcall)
      refine ⟨_, .amend hamend hok (fun hask => hpaused (hasks hask)) hauth
        (hrow.trans hold) howner hnew, ?_⟩
      simp
  | @activate _ admin id' active cfg hact hauth hisAdmin hold =>
      obtain rfl : id' = id :=
        Option.some.inj ((Call.handles_of_activates hact).symm.trans hcall)
      refine ⟨_, .activate hact hauth (hadmin hisAdmin) (hrow.trans hold), ?_⟩
      simp
  | retarget hunpaused hauth hold howner =>
      obtain rfl := Option.some.inj hcall
      refine ⟨_, .retarget (hpaused hunpaused) hauth (hrow.trans hold) howner, ?_⟩
      simp [row_move]
  | remove hunpaused hauth hold howner =>
      obtain rfl := Option.some.inj hcall
      refine ⟨_, .remove (hpaused hunpaused) hauth (hrow.trans hold) howner, ?_⟩
      simp [row_erase]
  | removeByAdmin hunpaused hauth hisAdmin hold =>
      obtain rfl := Option.some.inj hcall
      refine ⟨_, .removeByAdmin (hpaused hunpaused) hauth (hadmin hisAdmin)
        (hrow.trans hold), ?_⟩
      simp [row_erase]
  | _ => simp [Call.handles, Call.edits] at hcall

end Registry

variable {env : Env} {s u : State} {call : Call} {id : Nat}

/-- Where a call on one alert succeeds, it does so wherever the record and the
settings are the same. -/
theorem ok_of_carried
    (hu : u.Leakless) (hcall : call.handles = some id)
    (hrow : u.alertAt id = s.alertAt id)
    (hinst : ∀ i, i ≠ .nextId → u.inst i = s.inst i)
    {resp : Response} (hok : (invoke env call s).1 = .ok resp) :
    (∃ resp', (invoke env call u).1 = .ok resp') ∧
      (invoke env call u).2.events = (invoke env call s).2.events ∧
      (invoke env call u).2.alertAt id = (invoke env call s).2.alertAt id := by
  rcases invoke_refines env call s with ⟨resp', -, hstep⟩ | ⟨⟨f, hf⟩, -⟩
  · obtain ⟨t', hstep', hrow'⟩ := @Registry.Step.carried env s.view
      (invoke env call s).2.view u.view call resp' _ id hstep hcall hrow hinst
    obtain ⟨hok', hevents, hview⟩ := invoke_of_step hu hstep'
    refine ⟨⟨resp', hok'⟩, hevents, ?_⟩
    rw [← hview] at hrow'
    exact hrow'
  · rw [hok] at hf
    cases hf

/-- So it ends alike in both. -/
theorem carried_iff
    (hs : s.Leakless) (hu : u.Leakless) (hcall : call.handles = some id)
    (hrow : u.alertAt id = s.alertAt id)
    (hinst : ∀ i, i ≠ .nextId → u.inst i = s.inst i) :
    ((∃ resp, (invoke env call u).1 = .ok resp) ↔
        ∃ resp, (invoke env call s).1 = .ok resp) ∧
      (invoke env call u).2.events = (invoke env call s).2.events ∧
      (invoke env call u).2.alertAt id = (invoke env call s).2.alertAt id := by
  rcases invoke_cases env call s with ⟨resp, s', -, heq⟩ | ⟨f, heq⟩
  · have hok : (invoke env call s).1 = .ok resp := by
      rw [heq]
    obtain ⟨hok', hevents, hafter⟩ := ok_of_carried hu hcall hrow hinst hok
    exact ⟨iff_of_true hok' ⟨resp, hok⟩, hevents, hafter⟩
  · rcases invoke_cases env call u with ⟨resp', u', -, heq'⟩ | ⟨f', heq'⟩
    · have hok' : (invoke env call u).1 = .ok resp' := by
        rw [heq']
      obtain ⟨⟨resp, hok⟩, -, -⟩ := ok_of_carried hs hcall hrow.symm
        (fun i hi => (hinst i hi).symm) hok'
      rw [heq] at hok
      cases hok
    · rw [heq, heq']
      refine ⟨iff_of_false (by simp) (by simp), rfl, hrow⟩

end Obstruction

/-- Take any reachable state with an admin, and a coalition without one.  Whatever
the coalition does from then on, in any order and with any expiry in between,
every setting stays, and every alert of somebody else and its flag are what they
would be if the coalition had done nothing. -/
theorem coalition_contained
    (before : List Step) {C : Set Address}
    (hreach : (run exec State.empty before).view.OutOfReach C)
    {steps : List Step} (hsigned : ∀ st ∈ steps, st.SignedWithin C) :
    (∀ i, i ≠ .nextId →
        (run exec State.empty (before ++ steps)).inst i =
          (run exec State.empty before).inst i) ∧
      ∀ id cfg, (run exec State.empty before).alertAt id = some cfg →
        cfg.owner ∉ C →
        (run exec State.empty (before ++ steps)).alertAt id =
            (run exec State.empty
              (before ++ steps.filter Step.isExpiry)).alertAt id ∧
          (run exec State.empty (before ++ steps)).persistent.get (.alertActive id) =
            (run exec State.empty
              (before ++ steps.filter Step.isExpiry)).persistent.get
                (.alertActive id) := by
  have h := (spared_refl (C := C) (safe_run before)).run hreach hsigned
  rw [run_append, run_append]
  exact ⟨h.inst, h.row⟩

theorem outOfReach_settledRun :
    (run exec State.empty settledRun).view.OutOfReach {bob} := by
  refine ⟨by decide, ?_⟩
  rintro a ⟨admins, hadmins, hmem⟩ rfl
  obtain rfl : [operator] = admins := Option.some.inj hadmins
  exact absurd hmem (by decide)

/-- A stranger's attempt at the alert of somebody else. -/
theorem stranger_contained :
    (run exec State.empty
        (settledRun ++ [.call (envAt 3 [bob]) (.removeAlert alice 0)])).alertAt 0 =
      (run exec State.empty (settledRun ++ [])).alertAt 0 := by
  have hsigned : ∀ st : Step, st ∈ [.call (envAt 3 [bob]) (.removeAlert alice 0)] →
      st.SignedWithin {bob} := by
    simp [Step.SignedWithin, envAt]
  exact ((coalition_contained _ outOfReach_settledRun hsigned).2 0
    (sampleAlert alice pool 2) (by decide) (by decide)).1

/-- As long as nothing expires, the coalition does not stand in the way of a call
on an alert of somebody else: made after all that the coalition has done, it
succeeds if it would have succeeded before, with the same events and the same
record. -/
theorem coalition_cannot_obstruct
    {before steps : List Step} (hbefore : ∀ st ∈ before, st.isCall)
    (hsteps : ∀ st ∈ steps, st.isCall) {C : Set Address}
    (hreach : (run exec State.empty before).view.OutOfReach C)
    (hsigned : ∀ st ∈ steps, st.SignedWithin C)
    {id : Nat} {cfg : AlertConfig}
    (hlive : (run exec State.empty before).alertAt id = some cfg)
    (howner : cfg.owner ∉ C)
    (env : Env) {call : Call} (hcall : call.handles = some id) :
    ((∃ resp, (invoke env call (run exec State.empty (before ++ steps))).1 =
          .ok resp) ↔
        ∃ resp, (invoke env call (run exec State.empty before)).1 = .ok resp) ∧
      (invoke env call (run exec State.empty (before ++ steps))).2.events =
        (invoke env call (run exec State.empty before)).2.events ∧
      (invoke env call (run exec State.empty (before ++ steps))).2.alertAt id =
        (invoke env call (run exec State.empty before)).2.alertAt id := by
  have hspared := (spared_refl (C := C) (safe_run before)).run hreach hsigned
  have hnone : steps.filter Step.isExpiry = [] := by
    rw [List.filter_eq_nil_iff]
    intro st hst
    have hst' := hsteps st hst
    cases st with
    | call env call => simp [Step.isExpiry]
    | expire keys => exact False.elim hst'
  have hrow := (hspared.row id cfg hlive howner).1
  rw [hnone, run_nil] at hrow
  have hleakless : (run exec State.empty (before ++ steps)).Leakless := by
    apply leakless_run
    intro st hst
    exact (List.mem_append.mp hst).elim (hbefore st) (hsteps st)
  rw [run_append] at hleakless ⊢
  exact carried_iff (leakless_run hbefore) hleakless hcall hrow hspared.inst

/-- An owner removes an alert, whatever a stranger has registered meanwhile. -/
theorem removal_not_obstructed :
    ∃ resp, (invoke (envAt 4 [alice]) (.removeAlert alice 0)
      (run exec State.empty (settledRun ++
        [.call (envAt 3 [bob]) (sampleRegister bob pool)]))).1 = .ok resp := by
  have hlive : (run exec State.empty settledRun).alertAt 0 =
      some (sampleAlert alice pool 2) := by
    decide
  exact (coalition_cannot_obstruct (by simp [settledRun, Step.isCall])
    (by simp [Step.isCall]) outOfReach_settledRun
    (by simp [Step.SignedWithin, envAt]) hlive (by decide)
    (envAt 4 [alice]) rfl).1.mpr ⟨.unit, by decide⟩

end AlertRegistry
end TxWatch
