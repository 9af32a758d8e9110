import TxWatch.AlertRegistry.IdLifecycle
import TxWatch.AlertRegistry.IndexCoherence
import TxWatch.AlertRegistry.Readings
import TxWatch.Soroban.History

/-!
# Records replayed from the calls that succeeded

Whoever knows which calls have succeeded, with their arguments, their times and
their answers, and which entries have expired, knows every record.  What is done
under an id depends on the record under that id alone, also when all alerts of
an owner are deactivated at once: no list need be known.
-/

namespace TxWatch
namespace AlertRegistry

open Soroban Indexed

/-- What may happen to records: a call succeeds at a time with an answer, or
entries expire. -/
inductive Deed where
  | done (now : Nat) (call : Call) (resp : Response)
  | lapse (keys : DataKey → Bool)

/-- What a step has done. -/
def deedIn (s : State) : Step → List Deed
  | .call env call =>
      match (invoke env call s).1 with
      | .ok resp => [.done env.timestamp call resp]
      | .error _ => []
  | .expire keys => [.lapse keys]

/-- What is done along a run, the latest first. -/
def deeds (s : State) (steps : List Step) : List Deed :=
  history exec deedIn s steps

namespace Call

/-- The record that a call registers under an id. -/
def registersAt (now : Nat) (call : Call) (resp : Response) (id : Nat) :
    Option AlertConfig :=
  (call.enrols now).bind (fun enrolment =>
    ((issuedBy call (.ok resp)).zip enrolment.2).lookup id)

/-- What a call leaves of the record under an id. -/
def rewritesAt (now : Nat) (id : Nat) (cfg : AlertConfig) : Call → Option AlertConfig
  | .removeAlert _ configId | .removeAlertByAdmin _ configId =>
      if configId = id then none else some cfg
  | .updateTargetContract _ configId newTarget =>
      if configId = id then
        some { cfg with targetContract := newTarget, updatedAt := now }
      else some cfg
  | .transferAlertOwnership owner configId newOwner =>
      if configId = id ∧ newOwner ≠ owner then
        some { cfg with owner := newOwner, updatedAt := now }
      else some cfg
  | .deactivateAllAlerts caller =>
      if cfg.owner = caller then some (cfg.deactivated now) else some cfg
  | call =>
      match call.amends, call.activates with
      | some (_, configId), _ =>
          if configId = id then call.amended now cfg else some cfg
      | none, some (_, configId, active) =>
          if configId = id then
            some { cfg with active := active, updatedAt := now }
          else some cfg
      | none, none => some cfg

end Call

/-- What a deed makes of the record under an id, or of its absence. -/
def Deed.replay (id : Nat) : Deed → Option AlertConfig → Option AlertConfig
  | .done now call resp, none => call.registersAt now resp id
  | .done now call _, some cfg => call.rewritesAt now id cfg
  | .lapse keys, o => if keys (.alert id) then none else o

/-- The record under an id after deeds, the latest first. -/
def recordAfter (id : Nat) (past : List Deed) : Option AlertConfig :=
  past.foldr (Deed.replay id) none

section Registrations

/-- Numbers from `first` on lead to the entries of a list in their order. -/
theorem lookup_zip_range'_eq
    {α : Type} (l : List α) (first id : Nat) :
    ((List.range' first l.length).zip l).lookup id =
      if first ≤ id then l[id - first]? else none := by
  induction l generalizing first with
  | nil => simp
  | cons a rest ih =>
      rw [List.length_cons, List.range'_succ, List.zip_cons_cons, List.lookup_cons,
        ih (first + 1)]
      by_cases hid : id = first
      · subst hid
        simp
      · have hne : (id == first) = false := by
          simpa using hid
        rw [hne]
        by_cases hle : first + 1 ≤ id
        · have hsub : id - first = id - (first + 1) + 1 := by
            omega
          rw [if_pos hle, if_pos (by omega), hsub, List.getElem?_cons_succ]
        · rw [if_neg hle, if_neg (by omega)]

/-- What a registration puts under an id, by its answer. -/
theorem registersAt_of_enrols
    {call : Call} {now : Nat} {owner : Address} {cfgs : List AlertConfig}
    (h : call.enrols now = some (owner, cfgs)) (first id : Nat) :
    call.registersAt now (call.receipt first cfgs.length) id =
      if first ≤ id then cfgs[id - first]? else none := by
  rw [Call.registersAt, h, Option.bind_some, issuedBy_receipt h]
  exact lookup_zip_range'_eq cfgs first id

theorem registersAt_of_not_enrols
    {call : Call} {now : Nat} (h : call.enrols now = none) (resp : Response)
    (id : Nat) :
    call.registersAt now resp id = none := by
  rw [Call.registersAt, h, Option.bind_none]

theorem row_createAll_eq
    (r : Registry) (hs : r.Safe) (cfgs : List AlertConfig) (id : Nat) :
    (r.createAll cfgs).table.row id =
      if r.nextId ≤ id then cfgs[id - r.nextId]? else r.table.row id := by
  induction cfgs generalizing r with
  | nil =>
      by_cases hle : r.nextId ≤ id
      · rw [if_pos hle]
        by_contra hrow
        have hlt := hs.within.row id (Option.isSome_iff_ne_none.mpr hrow)
        exact absurd hlt (Nat.not_lt.mpr hle)
      · rw [if_neg hle]
        rfl
  | cons first rest ih =>
      rw [Registry.createAll, ih _ (hs.create first), Registry.nextId_create,
        Registry.row_create]
      by_cases hid : id = r.nextId
      · subst hid
        simp
      · rw [Function.update_of_ne hid]
        by_cases hle : r.nextId + 1 ≤ id
        · have hsub : id - r.nextId = id - (r.nextId + 1) + 1 := by
            omega
          rw [if_pos hle, if_pos (by omega), hsub, List.getElem?_cons_succ]
        · rw [if_neg hle, if_neg (by omega)]

end Registrations

section Families

variable {now id : Nat} {cfg : AlertConfig} {call : Call}

theorem rewritesAt_of_isQuery (h : call.isQuery = true) :
    call.rewritesAt now id cfg = some cfg := by
  cases call <;> first | rfl | cases h

theorem rewritesAt_of_administers
    {admin : Address} (h : call.administers = some admin) :
    call.rewritesAt now id cfg = some cfg := by
  cases call <;> first | rfl | cases h

theorem rewritesAt_of_enrols
    {enrolment : Address × List AlertConfig} (h : call.enrols now = some enrolment) :
    call.rewritesAt now id cfg = some cfg := by
  cases call <;> first | rfl | cases h

theorem rewritesAt_of_amends
    {caller : Address} {id' : Nat} (h : call.amends = some (caller, id')) :
    call.rewritesAt now id cfg =
      if id' = id then call.amended now cfg else some cfg := by
  cases call with
  | updateAlert _ _ _ _ | updateWebhook _ _ _ | proposeWebhook _ _ _
  | confirmWebhook _ _ | updateLabel _ _ _ | updateTags _ _ _ =>
      obtain rfl := (Prod.mk.inj (Option.some.inj h)).2
      rfl
  | _ => exact absurd h (by simp [Call.amends])

theorem rewritesAt_of_activates
    {admin : Address} {id' : Nat} {active : Bool}
    (h : call.activates = some (admin, id', active)) :
    call.rewritesAt now id cfg =
      if id' = id then some { cfg with active := active, updatedAt := now }
      else some cfg := by
  cases call with
  | pauseAlert _ _ | unpauseAlert _ _ =>
      simp only [Call.activates, Option.some.injEq, Prod.mk.injEq] at h
      obtain ⟨-, rfl, rfl⟩ := h
      rfl
  | _ => exact absurd h (by simp [Call.activates])

end Families

namespace Registry

variable {env : Env} {r r' : Registry} {call : Call} {resp : Response}
  {evs : List Event} {id : Nat}

/-- A call that registers nothing puts nothing where there is nothing. -/
theorem replay_keep
    (henrol : call.enrols env.timestamp = none)
    (hrow : r'.table.row id = r.table.row id)
    (hkeep : ∀ cfg, call.rewritesAt env.timestamp id cfg = some cfg) :
    r'.table.row id =
      Deed.replay id (.done env.timestamp call resp) (r.table.row id) := by
  rw [hrow]
  cases r.table.row id with
  | none => exact (registersAt_of_not_enrols henrol resp id).symm
  | some cfg => exact (hkeep cfg).symm

/-- A call that writes under one id. -/
theorem replay_write
    {id' : Nat} {cfg : AlertConfig} {o : Option AlertConfig}
    (henrol : call.enrols env.timestamp = none)
    (hold : r.table.row id' = some cfg)
    (hrow : r'.table.row = Function.update r.table.row id' o)
    (hself : call.rewritesAt env.timestamp id' cfg = o)
    (hother : ∀ cfg, id' ≠ id → call.rewritesAt env.timestamp id cfg = some cfg) :
    r'.table.row id =
      Deed.replay id (.done env.timestamp call resp) (r.table.row id) := by
  by_cases hid : id = id'
  · subst hid
    rw [hrow, hold, Function.update_self]
    exact hself.symm
  · have hsame : r'.table.row id = r.table.row id := by
      rw [hrow, Function.update_of_ne hid]
    exact replay_keep henrol hsame fun cfg => hother cfg (Ne.symm hid)

/-- What a call that succeeds does under an id is decided by the record under that
id. -/
theorem Step.row_deed
    (h : Step env r call resp evs r') (hs : r.Safe) (hc : r.Complete) (id : Nat) :
    r'.table.row id =
      Deed.replay id (.done env.timestamp call resp) (r.table.row id) := by
  cases h with
  | query hquery =>
      exact replay_keep (Call.enrols_of_isQuery hquery) rfl
        fun _ => rewritesAt_of_isQuery hquery
  | initialise _ => exact replay_keep rfl rfl fun _ => rfl
  | administer hadm _ _ _ _ _ =>
      exact replay_keep (Call.enrols_of_administers hadm) rfl
        fun _ => rewritesAt_of_administers hadm
  | bump _ _ => exact replay_keep rfl rfl fun _ => rfl
  | bulkRenew _ => exact replay_keep rfl rfl fun _ => rfl
  | keepOwner _ _ _ _ =>
      refine replay_keep rfl rfl fun cfg => ?_
      simp [Call.rewritesAt]
  | @enrol _ owner cfgs henrol _ _ _ _ _ =>
      have hnext : (r.prunedFor owner).nextId = r.nextId := nextId_prunedFor r owner
      rw [row_createAll_eq _ (hs.prunedFor owner), hnext, row_prunedFor]
      cases hrow : r.table.row id with
      | some cfg =>
          have hlt : id < r.nextId := hs.within.row id (by rw [hrow]; rfl)
          rw [if_neg (Nat.not_le.mpr hlt)]
          exact (rewritesAt_of_enrols henrol).symm
      | none => exact (registersAt_of_enrols henrol r.nextId id).symm
  | amend hamend _ _ _ hold _ hcfg' =>
      refine replay_write (Call.enrols_of_amends hamend) hold
        (row_rewrite_flag ..) ?_ ?_
      · rw [rewritesAt_of_amends hamend, if_pos rfl, hcfg']
      · intro cfg hid
        rw [rewritesAt_of_amends hamend, if_neg hid]
  | activate hact _ _ hold =>
      refine replay_write (Call.enrols_of_activates hact) hold
        (row_rewrite_flag ..) ?_ ?_
      · rw [rewritesAt_of_activates hact, if_pos rfl]
      · intro cfg hid
        rw [rewritesAt_of_activates hact, if_neg hid]
  | @deactivateAll caller _ _ =>
      -- the caller's list holds the caller's alerts
      have hlisted : ∀ cfg, r.table.row id = some cfg →
          (id ∈ r.table.index .owner caller ↔ cfg.owner = caller) := by
        intro cfg hrow
        constructor
        · intro hmem
          exact hs.sound.party_eq .owner caller id cfg hmem hrow
        · rintro rfl
          exact hc id cfg hrow .owner
      cases hrow : r.table.row id with
      | none => simp [deactivate, hrow, Deed.replay, Call.registersAt, Call.enrols]
      | some cfg =>
          simp only [deactivate, hrow, hlisted cfg hrow, Option.map_some]
          rfl
  | retarget _ _ hold _ =>
      refine replay_write rfl hold (row_move ..) ?_ ?_
      · simp [Call.rewritesAt]
      · intro cfg hid
        simp [Call.rewritesAt, hid]
  | reown hne _ _ hold _ _ =>
      refine replay_write rfl hold (row_reown ..) ?_ ?_
      · simp [Call.rewritesAt, hne]
      · intro cfg hid
        simp [Call.rewritesAt, hid]
  | remove _ _ hold _ =>
      refine replay_write rfl hold (row_erase ..) ?_ ?_
      · simp [Call.rewritesAt]
      · intro cfg hid
        simp [Call.rewritesAt, hid]
  | removeByAdmin _ _ _ hold =>
      refine replay_write rfl hold (row_erase ..) ?_ ?_
      · simp [Call.rewritesAt]
      · intro cfg hid
        simp [Call.rewritesAt, hid]

end Registry

section Runs

/-- A step does to every record what its deed says. -/
theorem alertAt_exec
    (s : State) (st : Step) (hs : s.view.Safe) (hc : s.view.Complete) (id : Nat) :
    (exec s st).alertAt id = (deedIn s st).foldr (Deed.replay id) (s.alertAt id) := by
  cases st with
  | call env call =>
      rcases invoke_refines env call s with ⟨resp, hok, hstep⟩ | ⟨⟨f, hfail⟩, hview⟩
      · simp only [deedIn, hok, List.foldr_cons, List.foldr_nil]
        exact hstep.row_deed hs hc id
      · simp only [deedIn, hfail, List.foldr_nil]
        exact congrArg (fun r => r.table.row id) hview
  | expire keys => exact s.persistent.get_expire keys (.alert id)

/-- As long as no list expires, every record is what the successful calls and the
expiries, in their order, have made of it. -/
theorem records_replay
    (steps : List Step) (hsteps : ∀ st ∈ steps, st.keepsIndexes) (id : Nat) :
    (run exec State.empty steps).alertAt id =
      recordAfter id (deeds State.empty steps) := by
  have hrun := @history_preserves _ _ _ exec deedIn (fun _ st => st.keepsIndexes)
    (fun past s => (s.view.Safe ∧ s.view.Complete) ∧
      s.alertAt id = recordAfter id past) ?_ [] State.empty steps
    ⟨⟨safe_empty, complete_empty⟩, rfl⟩ (along_of_forall_mem _ _ hsteps)
  · rw [List.append_nil] at hrun
    exact hrun.2
  · rintro past s st hst ⟨⟨hs, hc⟩, hrecord⟩
    refine ⟨⟨safe_exec s st hs, complete_exec s st hst hc⟩, ?_⟩
    rw [alertAt_exec s st hs hc, hrecord, recordAfter, recordAfter,
      List.foldr_append]

/-- An alert is registered, moved to another target and given away, another
registration fails, and a record expires. -/
def eventfulRun : List Step :=
  [.call (envAt 1 [alice]) (sampleRegister alice pool),
    .call (envAt 2 [alice]) (.updateTargetContract alice 0 vault),
    .call (envAt 3 []) (sampleRegister bob pool),
    .call (envAt 4 [alice]) (sampleRegister alice pool),
    .call (envAt 5 [alice]) (.transferAlertOwnership alice 0 bob),
    .expire (fun k => k = .alert 1),
    .call (envAt 6 [alice]) (.deactivateAllAlerts alice)]

theorem records_replay_eventfulRun :
    (run exec State.empty eventfulRun).alertAt 0 =
      recordAfter 0 (deeds State.empty eventfulRun) := by
  apply records_replay
  simp [eventfulRun, Step.keepsIndexes]

end Runs

end AlertRegistry
end TxWatch
