import TxWatch.AlertRegistry.IndexCoherence

/-!
# The life of an id

Ids are issued as 0, 1, 2, ... without gaps, an alert comes into being only
through the registration that returned its id, and an id that has gone is never
used again, whatever is removed or expires meanwhile.
-/

namespace TxWatch
namespace AlertRegistry

open Soroban Soroban.Contract Indexed

/-- Ids that a registration returned; none for a failed or another call. -/
def issuedBy (call : Call) (out : Except (Failure ContractError) Response) :
    List Nat :=
  match call, out with
  | .registerAlert _ _ _ _ _ _, .ok (.number id) => [id]
  | .batchRegisterAlerts _ _, .ok (.numbers ids) => ids
  | _, _ => []

/-- Ids returned in a step taken from `s`. -/
def issuedIn (s : State) : Step → List Nat
  | .call env call => issuedBy call (invoke env call s).1
  | .expire _ => []

/-- Ids returned along a run from `s`, in the order of the calls. -/
def issuedAlong : State → List Step → List Nat
  | _, [] => []
  | s, st :: rest => issuedIn s st ++ issuedAlong (exec s st) rest

/-- A call that is no registration issues no id. -/
theorem issuedBy_eq_nil
    {call : Call} {now : Nat} (h : call.enrols now = none)
    (out : Except (Failure ContractError) Response) :
    issuedBy call out = [] := by
  cases call with
  | registerAlert _ _ _ _ _ _ => simp [Call.enrols] at h
  | batchRegisterAlerts _ _ => simp [Call.enrols] at h
  | _ => rfl

theorem issuedBy_receipt
    {call : Call} {now : Nat} {owner : Address} {cfgs : List AlertConfig}
    (h : call.enrols now = some (owner, cfgs)) (first : Nat) :
    issuedBy call (.ok (call.receipt first cfgs.length)) =
      List.range' first cfgs.length := by
  cases call with
  | registerAlert _ _ _ _ _ _ =>
      simp only [Call.enrols, Option.some.injEq, Prod.mk.injEq] at h
      obtain ⟨-, rfl⟩ := h
      rfl
  | batchRegisterAlerts _ _ => rfl
  | _ => simp [Call.enrols] at h

/-- A step of the registry issues exactly the ids by which the counter
advances. -/
theorem Registry.Step.issuedBy_eq
    {env : Env} {r r' : Registry} {call : Call} {resp : Response}
    {evs : List Event}
    (h : Registry.Step env r call resp evs r') :
    issuedBy call (.ok resp) =
      List.range' r.nextId (r'.nextId - r.nextId) := by
  have hkeep : ∀ {r₁ : Registry}, r₁.nextId = r.nextId →
      call.enrols env.timestamp = none →
      issuedBy call (.ok resp) =
        List.range' r.nextId (r₁.nextId - r.nextId) := by
    intro r₁ hnext hnone
    rw [issuedBy_eq_nil hnone, hnext, Nat.sub_self]
    rfl
  cases h with
  | query hquery => exact hkeep rfl (Call.enrols_of_isQuery hquery)
  | initialise _ =>
      exact hkeep (Registry.nextId_configure r (by simp) _) rfl
  | administer hadm hset _ _ _ _ =>
      exact hkeep (Registry.nextId_configure r (Registry.setting_key hset) _)
        (Call.enrols_of_administers hadm)
  | enrol henrol _ _ _ _ _ =>
      rw [issuedBy_receipt henrol, Registry.nextId_createAll,
        Registry.nextId_prunedFor, Nat.add_sub_cancel_left]
  | amend hamend _ _ _ _ _ _ =>
      exact hkeep (by simp [Registry.nextId]) (Call.enrols_of_amends hamend)
  | activate hact _ _ _ =>
      exact hkeep (by simp [Registry.nextId]) (Call.enrols_of_activates hact)
  | deactivateAll _ _ => exact hkeep rfl rfl
  | retarget _ _ _ _ => exact hkeep rfl rfl
  | keepOwner _ _ _ _ => exact hkeep rfl rfl
  | reown _ _ _ _ _ _ => exact hkeep (Registry.nextId_prunedFor r _) rfl
  | remove _ _ _ _ => exact hkeep rfl rfl
  | removeByAdmin _ _ _ _ => exact hkeep rfl rfl
  | bump _ _ => exact hkeep rfl rfl
  | bulkRenew _ => exact hkeep rfl rfl

section Steps

variable (s : State) (st : Step)

theorem issuedIn_eq :
    issuedIn s st =
      List.range' s.counter ((exec s st).counter - s.counter) := by
  cases st with
  | call env call =>
      rcases invoke_refines env call s with
        ⟨resp, hout, hstep⟩ | ⟨⟨f, hout⟩, hview⟩
      · rw [issuedIn, hout]
        exact hstep.issuedBy_eq
      · have hcounter : (exec s (.call env call)).counter = s.counter := by
          exact congrArg Registry.nextId hview
        rw [issuedIn, hout, hcounter, Nat.sub_self]
        cases call <;> rfl
  | expire keys =>
      have hcounter : (exec s (.expire keys)).counter = s.counter := by
        rfl
      rw [issuedIn, hcounter, Nat.sub_self]
      rfl

theorem counter_le_exec :
    s.counter ≤ (exec s st).counter := by
  cases st with
  | call env call => exact (change_invoke s env call).nextId_le
  | expire keys => exact le_refl _

/-- An alert becomes present only under an id issued in that step. -/
theorem has_exec
    {id : Nat} (h : (exec s st).persistent.has (.alert id) = true) :
    s.persistent.has (.alert id) = true ∨ id ∈ issuedIn s st := by
  rw [Store.has_eq_isSome_get] at h ⊢
  cases st with
  | call env call =>
      rcases (change_invoke s env call).isSome_row h with hold | ⟨hle, hlt⟩
      · exact Or.inl hold
      · right
        have hle' : s.counter ≤ id := hle
        have hlt' : id < (exec s (.call env call)).counter := hlt
        rw [issuedIn_eq, List.mem_range'_1]
        omega
  | expire keys =>
      left
      obtain ⟨cfg, hrow⟩ := Option.isSome_iff_exists.mp h
      have hold := (remnant_dropping s.silenced keys).row id cfg hrow
      exact Option.isSome_iff_exists.mpr ⟨cfg, hold⟩

end Steps

section Runs

theorem counter_le_run (s : State) (steps : List Step) :
    s.counter ≤ (run exec s steps).counter := by
  induction steps generalizing s with
  | nil => exact le_refl _
  | cons st rest ih => exact (counter_le_exec s st).trans (ih _)

/-- Along a run the ids between the two counters are issued, in order. -/
theorem issuedAlong_eq (s : State) (steps : List Step) :
    issuedAlong s steps =
      List.range' s.counter ((run exec s steps).counter - s.counter) := by
  induction steps generalizing s with
  | nil =>
      rw [run_nil, Nat.sub_self]
      rfl
  | cons st rest ih =>
      have hfirst := counter_le_exec s st
      have hrest := counter_le_run (exec s st) rest
      rw [issuedAlong, issuedIn_eq, ih, run_cons]
      have hmid : (exec s st).counter =
          s.counter + ((exec s st).counter - s.counter) := by
        omega
      have hsum : (run exec (exec s st) rest).counter - s.counter =
          ((exec s st).counter - s.counter) +
            ((run exec (exec s st) rest).counter - (exec s st).counter) := by
        omega
      rw [hsum, ← List.range'_append_1, ← hmid]

/-- An id below the counter that is absent stays absent. -/
theorem absent_run
    {s : State} {id : Nat} (hid : id < s.counter)
    (h : s.persistent.has (.alert id) = false) (steps : List Step) :
    (run exec s steps).persistent.has (.alert id) = false := by
  induction steps generalizing s with
  | nil => exact h
  | cons st rest ih =>
      have hle := counter_le_exec s st
      apply ih (by omega)
      rw [← Bool.not_eq_true]
      intro hnow
      rcases has_exec s st hnow with hold | hnew
      · rw [h] at hold
        exact absurd hold (by simp)
      · rw [issuedIn_eq, List.mem_range'_1] at hnew
        omega

/-- An alert present after a run was issued in one of its steps, which left it
present. -/
theorem exists_issuing_step
    {s : State} {steps : List Step} {id : Nat}
    (hbefore : s.persistent.has (.alert id) = false)
    (hafter : (run exec s steps).persistent.has (.alert id) = true) :
    ∃ pre st post, steps = pre ++ st :: post ∧
      id ∈ issuedIn (run exec s pre) st ∧
      (run exec s (pre ++ [st])).persistent.has (.alert id) = true := by
  induction steps generalizing s with
  | nil =>
      rw [run_nil, hbefore] at hafter
      exact absurd hafter (by simp)
  | cons st rest ih =>
      cases hnow : (exec s st).persistent.has (.alert id) with
      | false =>
          obtain ⟨pre, st', post, rfl, hid, hthere⟩ := ih hnow hafter
          exact ⟨st :: pre, st', post, rfl, hid, hthere⟩
      | true =>
          rcases has_exec s st hnow with hold | hnew
          · rw [hbefore] at hold
            exact absurd hold (by simp)
          · exact ⟨[], st, rest, rfl, hnew, hnow⟩

theorem invoke_getAlertCount (env : Env) (s : State) :
    (invoke env .getAlertCount s).1 = .ok (.number s.counter) := by
  exact (invoke_query_iff rfl _).mpr rfl

/-- No state of a run holds an id that is still to be issued. -/
theorem absent_of_counter_le
    (steps : List Step) {id : Nat}
    (hid : (run exec State.empty steps).counter ≤ id) :
    (run exec State.empty steps).persistent.has (.alert id) = false := by
  have hnew : ¬ id < (run exec State.empty steps).view.nextId :=
    Nat.not_lt.mpr hid
  have hnone := (safe_run steps).within.row_eq_none hnew
  rw [Store.has_eq_isSome_get]
  exact Option.isSome_eq_false_iff.mpr (by simpa [view_row] using hnone)

end Runs

/-- For every run from empty storage, whatever expires: the ids returned by
registrations are 0, 1, 2, ... in the order of the calls, and their number is
the alert count; a live alert was created by the registration that returned its
id: absent in every state before it, it is present after it; and an alert that
has gone is absent in every later state. -/
theorem id_lifecycle (steps : List Step) :
    issuedAlong State.empty steps =
      List.range (issuedAlong State.empty steps).length ∧
    (∀ env, (invoke env .getAlertCount (run exec State.empty steps)).1 =
      .ok (.number (issuedAlong State.empty steps).length)) ∧
    (∀ id, (run exec State.empty steps).persistent.has (.alert id) = true →
      ∃ pre env call post, steps = pre ++ .call env call :: post ∧
        id ∈ issuedBy call (invoke env call (run exec State.empty pre)).1 ∧
        (∀ earlier, earlier <+: pre →
          (run exec State.empty earlier).persistent.has (.alert id) =
            false) ∧
        (run exec State.empty (pre ++ [.call env call])).persistent.has
          (.alert id) = true) ∧
    (∀ pre mid post id, steps = pre ++ mid ++ post →
      (run exec State.empty pre).persistent.has (.alert id) = true →
      (run exec State.empty (pre ++ mid)).persistent.has (.alert id) = false →
      (run exec State.empty steps).persistent.has (.alert id) = false) := by
  have hissued : issuedAlong State.empty steps =
      List.range (run exec State.empty steps).counter := by
    have h := issuedAlong_eq State.empty steps
    have hzero : State.empty.counter = 0 := by
      rfl
    rw [hzero, Nat.sub_zero] at h
    rw [h, List.range_eq_range']
  refine ⟨?_, ?_, ?_, ?_⟩
  · rw [hissued, List.length_range]
  · intro env
    rw [invoke_getAlertCount, hissued, List.length_range]
  · intro id hpresent
    obtain ⟨pre, st, post, hsteps, hid, hthere⟩ :=
      exists_issuing_step (s := State.empty) (by rfl) hpresent
    cases st with
    | call env call =>
        refine ⟨pre, env, call, post, hsteps, hid, ?_, hthere⟩
        intro earlier hprefix
        have hmem := hid
        rw [issuedIn_eq, List.mem_range'_1] at hmem
        obtain ⟨rest, rfl⟩ := hprefix
        have hle := counter_le_run (run exec State.empty earlier) rest
        rw [← run_append] at hle
        exact absent_of_counter_le earlier (by omega)
    | expire keys => exact absurd hid (by simp [issuedIn])
  · rintro pre mid post id rfl hpresent habsent
    have hid : id < (run exec State.empty pre).counter := by
      by_contra hle
      rw [absent_of_counter_le pre (by omega)] at hpresent
      exact absurd hpresent (by simp)
    have hle := counter_le_run (run exec State.empty pre) mid
    rw [← run_append] at hle
    rw [run_append]
    exact absent_run (by omega) habsent post

end AlertRegistry
end TxWatch
