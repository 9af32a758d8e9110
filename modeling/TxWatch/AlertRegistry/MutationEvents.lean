import TxWatch.AlertRegistry.IndexCoherence

/-!
# Events of the calls that change alerts

Off-chain readers learn from events which alerts have changed.  A call that
changes, creates or deletes the record of an alert announces it, with two
exceptions: `deactivate_all_alerts` and `update_target_contract` publish
nothing.  They are harmless exactly when they leave every record as it was.
-/

namespace TxWatch
namespace AlertRegistry

open Soroban Indexed

/-- An event of the namespace `alert` whose data begin with an id. -/
def Event.Announces (ev : Event) (id : Nat) : Prop :=
  ev.topics.1 = .alert ∧ ev.data.head? = some (.u64 id)

instance (ev : Event) (id : Nat) : Decidable (ev.Announces id) :=
  inferInstanceAs (Decidable (_ ∧ _))

namespace Registry

variable {env : Env} {r r' : Registry} {call : Call} {resp : Response}
  {evs : List Event}

/-- Every id whose record differs is announced. -/
def Announced (r r' : Registry) (evs : List Event) : Prop :=
  ∀ id, r'.table.row id ≠ r.table.row id → ∃ ev ∈ evs, ev.Announces id

/-- The call changes a record without an event to tell of it: it deactivates an
active alert on the caller's list, or alters the target or the update time of a
record in `update_target_contract`. -/
def ChangedSilently (r : Registry) (now : Nat) : Call → Prop
  | .deactivateAllAlerts caller =>
      ∃ id ∈ r.table.index .owner caller, ∃ cfg,
        r.table.row id = some cfg ∧ cfg.active = true
  | .updateTargetContract _ id newTarget =>
      ∃ cfg, r.table.row id = some cfg ∧
        ¬ (cfg.targetContract = newTarget ∧ cfg.updatedAt = now)
  | _ => False

theorem announced_of_row_eq
    (h : r'.table.row = r.table.row) (evs : List Event) :
    Announced r r' evs := by
  intro id hne
  exact absurd (congrFun h id) hne

/-- Writing one record takes one event about it. -/
theorem announced_of_update
    {id : Nat} {o : Option AlertConfig} {ev : Event}
    (hrow : r'.table.row = Function.update r.table.row id o)
    (hmem : ev ∈ evs) (hev : ev.Announces id) :
    Announced r r' evs := by
  intro id' hne
  by_cases hid : id' = id
  · subst hid
    exact ⟨ev, hmem, hev⟩
  · rw [hrow, Function.update_of_ne hid] at hne
    exact absurd rfl hne

/-- A registration publishes one event for each id it issues. -/
theorem announced_createAll (r : Registry) (cfgs : List AlertConfig) :
    Announced r (r.createAll cfgs) (registerEvents r.nextId cfgs) := by
  induction cfgs generalizing r with
  | nil => exact announced_of_row_eq rfl _
  | cons cfg rest ih =>
      intro id hne
      by_cases hid : id = r.nextId
      · subst hid
        exact ⟨_, List.mem_cons_self, rfl, rfl⟩
      · have hrow : (r.create cfg).table.row id = r.table.row id := by
          rw [row_create, Function.update_of_ne hid]
        rw [createAll, ← hrow] at hne
        obtain ⟨ev, hmem, hev⟩ := ih (r.create cfg) id hne
        rw [nextId_create] at hmem
        exact ⟨ev, List.mem_cons_of_mem _ hmem, hev⟩

/-- An owner's call on a record publishes one event about it. -/
theorem amendEvents_announce
    {caller : Address} {id : Nat} (h : call.amends = some (caller, id))
    (cfg : AlertConfig) :
    ∃ ev ∈ call.amendEvents cfg, ev.Announces id := by
  cases call with
  | updateAlert _ id' _ _ | updateWebhook _ id' _ | proposeWebhook _ id' _
  | confirmWebhook _ id' | updateLabel _ id' _ | updateTags _ id' _ =>
      obtain ⟨-, rfl⟩ : _ ∧ id' = id := by
        simpa [Call.amends] using h
      exact ⟨_, List.mem_singleton_self _, rfl, rfl⟩
  | _ => simp [Call.amends] at h

/-- Deactivation changes exactly the records that were active. -/
theorem deactivated_ne_iff (cfg : AlertConfig) (now : Nat) :
    cfg.deactivated now ≠ cfg ↔ cfg.active = true := by
  constructor
  · intro hne
    by_contra hactive
    exact hne (by simp [AlertConfig.deactivated, hactive])
  · intro hactive heq
    have hoff := AlertConfig.active_deactivated now cfg
    rw [heq, hactive] at hoff
    exact absurd hoff (by simp)

/-- Without events a deactivation goes unnoticed unless there was nothing to
deactivate. -/
theorem announced_deactivate_iff (now : Nat) (ids : List Nat) :
    Announced r (r.deactivate now ids) [] ↔
      ¬ ∃ id ∈ ids, ∃ cfg, r.table.row id = some cfg ∧ cfg.active = true := by
  constructor
  · rintro h ⟨id, hid, cfg, hrow, hactive⟩
    have hne : (r.deactivate now ids).table.row id ≠ r.table.row id := by
      simpa [deactivate, hid, hrow] using
        (deactivated_ne_iff cfg now).mpr hactive
    obtain ⟨ev, hmem, -⟩ := h id hne
    exact absurd hmem List.not_mem_nil
  · intro h id hne
    exfalso
    apply hne
    by_cases hid : id ∈ ids
    · cases hrow : r.table.row id with
      | none => simp [deactivate, hrow]
      | some cfg =>
          have hoff : ¬ cfg.active = true := by
            intro hactive
            exact h ⟨id, hid, cfg, hrow, hactive⟩
          have heq := not_not.mp (mt (deactivated_ne_iff cfg now).mp hoff)
          simp [deactivate, hid, hrow, heq]
    · simp [deactivate, hid]

/-- Without events a retargeting goes unnoticed unless it rewrites the record
to what it was. -/
theorem announced_move_iff
    {id : Nat} {cfg cfg' : AlertConfig} (hrow : r.table.row id = some cfg)
    (kind : IndexKind) (a b : Address) :
    Announced r (r.move kind id a b cfg') [] ↔ cfg' = cfg := by
  constructor
  · intro h
    by_contra hne
    have hchange : (r.move kind id a b cfg').table.row id ≠ r.table.row id := by
      rw [row_move, Function.update_self, hrow]
      simpa using hne
    obtain ⟨ev, hmem, -⟩ := h id hchange
    exact absurd hmem List.not_mem_nil
  · rintro rfl
    apply announced_of_row_eq
    rw [row_move, ← hrow, Function.update_eq_self]

/-- A step announces every record it changes exactly if its call is none of the
two that change records silently. -/
theorem Step.announced_iff
    (h : Step env r call resp evs r') :
    Announced r r' evs ↔ ¬ r.ChangedSilently env.timestamp call := by
  have hloud : Announced r r' evs → ¬ r.ChangedSilently env.timestamp call →
      (Announced r r' evs ↔ ¬ r.ChangedSilently env.timestamp call) := by
    intro h₁ h₂
    exact ⟨fun _ => h₂, fun _ => h₁⟩
  cases h with
  | query hquery =>
      apply hloud (announced_of_row_eq rfl _)
      cases call <;> simp_all [Call.isQuery, ChangedSilently]
  | initialise _ => exact hloud (announced_of_row_eq rfl _) id
  | administer hadm _ _ _ _ _ =>
      apply hloud (announced_of_row_eq rfl _)
      cases call <;> simp_all [Call.administers, ChangedSilently]
  | @enrol call owner cfgs henrol _ _ _ _ _ =>
      apply hloud
      · have hann := announced_createAll (r.prunedFor owner) cfgs
        unfold Announced at hann
        rw [row_prunedFor, nextId_prunedFor] at hann
        exact hann
      · cases call <;> simp_all [Call.enrols, ChangedSilently]
  | amend hamend _ _ _ _ _ _ =>
      apply hloud
      · obtain ⟨ev, hmem, hev⟩ := amendEvents_announce hamend _
        exact announced_of_update (row_rewrite_flag ..) hmem hev
      · cases call <;> simp_all [Call.amends, ChangedSilently]
  | activate hact _ _ _ =>
      apply hloud
      · exact announced_of_update (row_rewrite_flag ..)
          (List.mem_singleton_self _) ⟨rfl, rfl⟩
      · cases call <;> simp_all [Call.activates, ChangedSilently]
  | deactivateAll _ _ => exact announced_deactivate_iff _ _
  | @retarget caller newTarget id cfg _ _ hrow _ =>
      rw [announced_move_iff hrow]
      constructor
      · rintro heq ⟨cfg', hrow', hdiff⟩
        obtain rfl := Option.some.inj (hrow.symm.trans hrow')
        apply hdiff
        constructor
        · exact (congrArg AlertConfig.targetContract heq).symm
        · exact (congrArg AlertConfig.updatedAt heq).symm
      · intro hsame
        by_contra hne
        apply hsame
        refine ⟨cfg, hrow, ?_⟩
        rintro ⟨htarget, hupdated⟩
        apply hne
        rw [← htarget, ← hupdated]
  | keepOwner _ _ _ _ => exact hloud (announced_of_row_eq rfl _) id
  | reown _ _ _ _ _ _ =>
      apply hloud _ id
      exact announced_of_update (row_reown ..) (List.mem_singleton_self _)
        ⟨rfl, rfl⟩
  | remove _ _ _ _ =>
      apply hloud _ id
      exact announced_of_update (row_erase ..) (List.mem_singleton_self _)
        ⟨rfl, rfl⟩
  | removeByAdmin _ _ _ _ =>
      apply hloud _ id
      exact announced_of_update (row_erase ..) (List.mem_singleton_self _)
        ⟨rfl, rfl⟩
  | bump _ _ => exact hloud (announced_of_row_eq rfl _) id
  | bulkRenew _ => exact hloud (announced_of_row_eq rfl _) id

end Registry

/-- In every reachable state, whatever has expired: a successful call publishes
an event about every alert it creates, changes or removes exactly if it is not
a `deactivate_all_alerts` with an active alert to deactivate, nor an
`update_target_contract` that makes a difference to the record. -/
theorem mutation_announced_iff
    (steps : List Step) (env : Env) (call : Call) (resp : Response)
    (hok : (invoke env call (run exec State.empty steps)).1 = .ok resp) :
    (∀ id,
      (invoke env call (run exec State.empty steps)).2.persistent.get
          (.alert id) ≠
        (run exec State.empty steps).persistent.get (.alert id) →
      ∃ ev ∈ (invoke env call (run exec State.empty steps)).2.events,
        ev.topics.1 = .alert ∧ ev.data.head? = some (.u64 id)) ↔
      ¬ (run exec State.empty steps).view.ChangedSilently env.timestamp call := by
  rcases invoke_refines env call (run exec State.empty steps) with
    ⟨resp', -, hstep⟩ | ⟨⟨f, hfail⟩, -⟩
  · exact hstep.announced_iff
  · rw [hok] at hfail
    exact absurd hfail (by simp)

/-- One alert of alice. -/
def watchedRun : List Step :=
  [.call (envAt 1 [alice]) (sampleRegister alice pool)]

/-- Deactivating it by `deactivate_all_alerts` succeeds and changes its record,
yet publishes nothing. -/
theorem watchedRun_silent :
    (invoke (envAt 2 [alice]) (.deactivateAllAlerts alice)
        (run exec State.empty watchedRun)).1 = .ok (.number 1) ∧
      ¬ ∀ id,
        (invoke (envAt 2 [alice]) (.deactivateAllAlerts alice)
            (run exec State.empty watchedRun)).2.persistent.get (.alert id) ≠
          (run exec State.empty watchedRun).persistent.get (.alert id) →
        ∃ ev ∈ (invoke (envAt 2 [alice]) (.deactivateAllAlerts alice)
            (run exec State.empty watchedRun)).2.events,
          ev.topics.1 = .alert ∧ ev.data.head? = some (.u64 id) := by
  refine ⟨by decide, ?_⟩
  intro h
  obtain ⟨ev, hmem, -⟩ := h 0 (by decide)
  have hnone : (invoke (envAt 2 [alice]) (.deactivateAllAlerts alice)
      (run exec State.empty watchedRun)).2.events = [] := by
    decide
  rw [hnone] at hmem
  exact absurd hmem List.not_mem_nil

theorem watchedRun_announced_iff :
    (∀ id,
      (invoke (envAt 2 [alice]) (.removeAlert alice 0)
          (run exec State.empty watchedRun)).2.persistent.get (.alert id) ≠
        (run exec State.empty watchedRun).persistent.get (.alert id) →
      ∃ ev ∈ (invoke (envAt 2 [alice]) (.removeAlert alice 0)
          (run exec State.empty watchedRun)).2.events,
        ev.topics.1 = .alert ∧ ev.data.head? = some (.u64 id)) ↔
      ¬ (run exec State.empty watchedRun).view.ChangedSilently
        (envAt 2 [alice]).timestamp (.removeAlert alice 0) := by
  exact mutation_announced_iff watchedRun (envAt 2 [alice])
    (.removeAlert alice 0) .unit (by decide)

end AlertRegistry
end TxWatch
