import TxWatch.AlertRegistry.Readings

/-!
# The three ways of reading the registry

Alerts can be read by a scan over all ids, through the list of an owner, or
through the list of a target.  As long as nothing expires the three agree, and
so do the counts: over all owners they add up to the registrations less the
removals.
-/

namespace TxWatch
namespace AlertRegistry

open Soroban Soroban.Contract Indexed

section Counting

namespace Registry

variable {env : Env} {r r' : Registry} {call : Call} {resp : Response}
  {evs : List Event}

/-- Ids of the live alerts. -/
def present (r : Registry) : Set Nat :=
  {id | (r.table.row id).isSome}

theorem finite_present (hs : r.Safe) : r.present.Finite := by
  apply Set.Finite.subset (Finset.range r.nextId).finite_toSet
  intro id hid
  rw [Finset.mem_coe, Finset.mem_range]
  exact hs.within.row id hid

theorem present_of_row_eq
    (h : r'.table.row = r.table.row) :
    r'.present = r.present := by
  simp only [present, h]

/-- Overwriting a record keeps the ids in use. -/
theorem present_of_overwrite
    {id : Nat} {cfg cfg' : AlertConfig} (hrow : r.table.row id = some cfg)
    (h : r'.table.row = Function.update r.table.row id (some cfg')) :
    r'.present = r.present := by
  ext id'
  simp only [present, Set.mem_ofPred_eq, h]
  by_cases hid : id' = id
  · simp [hid, hrow]
  · rw [Function.update_of_ne hid]

theorem ncard_present_create
    (hs : r.Safe) (cfg : AlertConfig) :
    (r.create cfg).present.ncard = r.present.ncard + 1 := by
  have hfresh : r.nextId ∉ r.present := by
    intro hid
    exact absurd (hs.within.row r.nextId hid) (Nat.lt_irrefl _)
  have hset : (r.create cfg).present = insert r.nextId r.present := by
    ext id
    simp only [present, Set.mem_ofPred_eq, row_create, Set.mem_insert_iff]
    by_cases hid : id = r.nextId
    · simp [hid]
    · simp [hid]
  rw [hset, Set.ncard_insert_of_notMem hfresh (finite_present hs)]

theorem ncard_present_createAll
    (hs : r.Safe) (cfgs : List AlertConfig) :
    (r.createAll cfgs).present.ncard = r.present.ncard + cfgs.length := by
  induction cfgs generalizing r with
  | nil => rfl
  | cons cfg rest ih =>
      rw [createAll, ih (hs.create cfg), ncard_present_create hs,
        List.length_cons]
      omega

theorem nextId_erase (r : Registry) (id : Nat) (cfg : AlertConfig) :
    (r.erase id cfg).nextId = r.nextId := by
  rfl

theorem ncard_present_erase
    (hs : r.Safe) {id : Nat} {cfg : AlertConfig}
    (hrow : r.table.row id = some cfg) :
    (r.erase id cfg).present.ncard + 1 = r.present.ncard := by
  have hmem : id ∈ r.present := by
    simp [present, hrow]
  have hset : (r.erase id cfg).present = r.present \ {id} := by
    ext id'
    simp only [present, Set.mem_ofPred_eq, row_erase, Set.mem_sdiff,
      Set.mem_singleton_iff]
    by_cases hid : id' = id
    · simp [hid]
    · simp [hid]
  rw [hset, Set.ncard_sdiff_singleton_add_one hmem (finite_present hs)]

end Registry

/-- Number of alerts that a call has removed. -/
def removedBy (call : Call) (out : Except (Failure ContractError) Response) :
    Nat :=
  match call, out with
  | .removeAlert _ _, .ok _ => 1
  | .removeAlertByAdmin _ _, .ok _ => 1
  | _, _ => 0

/-- Number of alerts removed in a step taken from `s`. -/
def removedIn (s : State) : Step → Nat
  | .call env call => removedBy call (invoke env call s).1
  | .expire _ => 0

/-- Number of alerts removed along a run from `s`. -/
def removedAlong : State → List Step → Nat
  | _, [] => 0
  | s, st :: rest => removedIn s st + removedAlong (exec s st) rest

theorem removedBy_error (call : Call) (f : Failure ContractError) :
    removedBy call (.error f) = 0 := by
  cases call <;> rfl

/-- A step changes the number of live alerts by the ids it issues and the
alerts it removes. -/
theorem Registry.Step.ncard_present
    {env : Env} {r r' : Registry} {call : Call} {resp : Response}
    {evs : List Event}
    (h : Registry.Step env r call resp evs r') (hs : r.Safe) :
    r'.present.ncard + removedBy call (.ok resp) + r.nextId =
      r.present.ncard + r'.nextId := by
  have hkeep : ∀ {r₁ : Registry}, r₁.present = r.present →
      r₁.nextId = r.nextId → removedBy call (.ok resp) = 0 →
      r₁.present.ncard + removedBy call (.ok resp) + r.nextId =
        r.present.ncard + r₁.nextId := by
    intro r₁ hset hnext hnone
    rw [hset, hnext, hnone]
    omega
  cases h with
  | query hquery =>
      apply hkeep rfl rfl
      cases call <;> simp_all [Call.isQuery, removedBy]
  | initialise _ =>
      exact hkeep rfl (Registry.nextId_configure r (by simp) _) rfl
  | administer hadm hset _ _ _ _ =>
      refine hkeep (Registry.present_of_row_eq rfl)
        (Registry.nextId_configure r (Registry.setting_key hset) _) ?_
      cases call <;> simp_all [Call.administers, removedBy]
  | @enrol call owner cfgs henrol _ _ _ _ _ =>
      have hnone : removedBy call (.ok (call.receipt r.nextId cfgs.length)) = 0 := by
        cases call <;> simp_all [Call.enrols, removedBy]
      have hset : (r.prunedFor owner).present = r.present :=
        Registry.present_of_row_eq (Registry.row_prunedFor r owner)
      rw [hnone, Registry.ncard_present_createAll (hs.prunedFor owner), hset,
        Registry.nextId_createAll, Registry.nextId_prunedFor]
      omega
  | amend hamend _ _ _ hrow _ _ =>
      apply hkeep (Registry.present_of_overwrite hrow
        (Registry.row_rewrite_flag ..)) (by simp [Registry.nextId])
      cases call <;> simp_all [Call.amends, removedBy]
  | activate hact _ _ hrow =>
      apply hkeep (Registry.present_of_overwrite hrow
        (Registry.row_rewrite_flag ..)) (by simp [Registry.nextId])
      cases call <;> simp_all [Call.activates, removedBy]
  | deactivateAll _ _ =>
      refine hkeep ?_ rfl rfl
      ext id
      exact Bool.eq_iff_iff.mp ((Registry.rewrites_deactivate r _ _).isSome id)
  | retarget _ _ hrow _ =>
      exact hkeep (Registry.present_of_overwrite hrow (Registry.row_move ..))
        rfl rfl
  | keepOwner _ _ _ _ => exact hkeep rfl rfl rfl
  | reown _ _ _ hrow _ _ =>
      exact hkeep (Registry.present_of_overwrite hrow (Registry.row_reown ..))
        (Registry.nextId_prunedFor r _) rfl
  | remove _ _ hrow _ =>
      rw [← Registry.ncard_present_erase hs hrow, Registry.nextId_erase]
      rfl
  | removeByAdmin _ _ _ hrow =>
      rw [← Registry.ncard_present_erase hs hrow, Registry.nextId_erase]
      rfl
  | bump _ _ => exact hkeep rfl rfl rfl
  | bulkRenew _ => exact hkeep rfl rfl rfl

/-- Along calls, live and removed alerts account for all ids issued. -/
theorem ncard_present_run
    {s : State} {steps : List Step} (hsteps : ∀ st ∈ steps, st.isCall)
    (hs : s.view.Safe) :
    (run exec s steps).view.present.ncard + removedAlong s steps + s.counter =
      s.view.present.ncard + (run exec s steps).counter := by
  induction steps generalizing s with
  | nil => rfl
  | cons st rest ih =>
      have hrest := ih (fun st' hst' => hsteps st' (List.mem_cons_of_mem _ hst'))
        (safe_exec s st hs)
      have hfirst : (exec s st).view.present.ncard + removedIn s st + s.counter =
          s.view.present.ncard + (exec s st).counter := by
        cases st with
        | expire keys => exact False.elim (hsteps _ List.mem_cons_self)
        | call env call =>
            rcases invoke_refines env call s with
              ⟨resp, hout, hstep⟩ | ⟨⟨f, hout⟩, hview⟩
            · have hcount := hstep.ncard_present hs
              rw [removedIn, hout]
              exact hcount
            · have hset : (exec s (.call env call)).view.present =
                  s.view.present := by
                exact congrArg Registry.present hview
              have hcounter : (exec s (.call env call)).counter = s.counter := by
                exact congrArg Registry.nextId hview
              rw [removedIn, hout, removedBy_error, hset, hcounter]
              omega
      rw [run_cons, removedAlong]
      omega

end Counting

section Views

variable {s : State}

/-- The scan finds as many records as there are live alerts. -/
theorem length_allRecords (hs : s.view.Safe) :
    s.allRecords.length = s.view.present.ncard := by
  have hset : s.view.present =
      ↑(s.view.table.live (List.range s.counter)).toFinset := by
    ext id
    rw [List.coe_toFinset, Set.mem_ofPred_eq, Table.mem_live, List.mem_range]
    constructor
    · intro hid
      exact ⟨hs.within.row id hid, hid⟩
    · exact fun hid => hid.2
  have hnodup : (s.view.table.live (List.range s.counter)).Nodup :=
    List.nodup_range.filter _
  rw [State.allRecords, length_records, hset, Set.ncard_coe_finset,
    List.toFinset_card_of_nodup hnodup]

variable (hs : s.view.Safe) (hc : s.view.Complete) (ho : s.view.table.Occupied)

include hs hc ho

/-- The list of a party holds the ids of exactly its alerts. -/
theorem listed_perm (kind : IndexKind) (a : Address) :
    (s.listed kind a).Perm
      ((List.range s.counter).filter
        (fun id => (s.alertAt id).any (fun cfg => cfg.party kind = a))) := by
  have hnodup : (s.listed kind a).Nodup := hs.sound.nodup kind a
  rw [List.perm_ext_iff_of_nodup hnodup (List.nodup_range.filter _)]
  intro id
  rw [List.mem_filter, List.mem_range]
  constructor
  · intro hmem
    obtain ⟨cfg, hrow⟩ := Option.isSome_iff_exists.mp (ho kind a id hmem)
    have hparty := hs.sound.party_eq kind a id cfg hmem hrow
    have hget : s.alertAt id = some cfg := hrow
    refine ⟨hs.within.listed kind a id hmem, ?_⟩
    simp [hget, hparty]
  · rintro ⟨-, hany⟩
    obtain ⟨cfg, hget, hparty⟩ := (Option.any_eq_true _ _).mp hany
    rw [decide_eq_true_eq] at hparty
    rw [← hparty]
    exact hc id cfg hget kind

/-- Reading through the list of a party and filtering the scan give the same
records. -/
theorem records_listed_perm (kind : IndexKind) (a : Address) :
    (s.records (s.listed kind a)).Perm
      (s.allRecords.filter (fun cfg => cfg.party kind = a)) := by
  have hperm := (listed_perm hs hc ho kind a).filterMap s.alertAt
  have hfilter : ((List.range s.counter).filter
      (fun id => (s.alertAt id).any (fun cfg => cfg.party kind = a))).filterMap
        s.alertAt =
      s.allRecords.filter (fun cfg => cfg.party kind = a) := by
    rw [State.allRecords, State.records, List.filter_filterMap,
      List.filterMap_filter]
    congr 1
    funext id
    cases s.alertAt id with
    | none => rfl
    | some cfg => simp [Option.filter]
  rw [hfilter] at hperm
  exact hperm

/-- Over all owners the counts add up to the number of live alerts. -/
theorem sum_length_records :
    ∃ owners : Finset Address,
      (∀ o, o ∉ owners → (s.records (s.listed .owner o)).length = 0) ∧
      ∑ o ∈ owners, (s.records (s.listed .owner o)).length =
        s.allRecords.length := by
  have hcount : ∀ o, (s.records (s.listed .owner o)).length =
      (s.allRecords.map AlertConfig.owner).count o := by
    intro o
    rw [(records_listed_perm hs hc ho .owner o).length_eq, List.count,
      List.countP_map, List.countP_eq_length_filter]
    congr 1
  refine ⟨(s.allRecords.map AlertConfig.owner).toFinset, ?_, ?_⟩
  · intro o hout
    rw [hcount, List.count_eq_zero]
    simpa using hout
  · rw [Finset.sum_congr rfl (fun o _ => hcount o),
      List.sum_toFinset_count_eq_length, List.length_map]

end Views

/-- In every state of a run in which nothing expires, and with no watcher
registry configured: the list of an owner and the list of a target give the
same records as the scan over all ids, up to their order; the active alerts of
a target are a sublist of its alerts; the three counts of the alerts of an
owner agree; and over all owners they add up to the number of alerts registered
less the number removed. -/
theorem read_views_agree
    (steps : List Step) (hsteps : ∀ st ∈ steps, st.isCall)
    (hopen : (run exec State.empty steps).inst .watchreg = none) (env : Env) :
    ∃ (all : List AlertConfig) (count : Address → Nat),
      (invoke env (.getAlertsModifiedSince 0) (run exec State.empty steps)).1 =
        .ok (.alerts all) ∧
      (∀ o, (invoke env (.getActiveAlertCount o) (run exec State.empty steps)).1 =
        .ok (.number (count o))) ∧
      (∀ querier o, ∃ owned ids,
        (invoke env (.getAlertsByOwner querier o)
          (run exec State.empty steps)).1 = .ok (.alerts owned) ∧
        owned.Perm (all.filter (fun cfg => cfg.owner = o)) ∧
        (invoke env (.getAlertIdsByOwner o) (run exec State.empty steps)).1 =
          .ok (.numbers ids) ∧
        count o = ids.length ∧ ids.length = owned.length) ∧
      (∀ querier t, ∃ watching,
        (invoke env (.getAlertsForContract querier t)
          (run exec State.empty steps)).1 = .ok (.alerts watching) ∧
        watching.Perm (all.filter (fun cfg => cfg.targetContract = t)) ∧
        (invoke env (.getActiveAlertsForContract t)
          (run exec State.empty steps)).1 =
            .ok (.alerts (watching.filter (fun cfg => cfg.active)))) ∧
      ∃ owners : Finset Address,
        (∀ o, o ∉ owners → count o = 0) ∧
        ∑ o ∈ owners, count o + removedAlong State.empty steps =
          (issuedAlong State.empty steps).length := by
  have hs := safe_run steps
  have hc := complete_run (fun st hst => Step.keepsIndexes_of_isCall (hsteps st hst))
  have ho := occupied_run hsteps
  have hissued : (issuedAlong State.empty steps).length =
      (run exec State.empty steps).counter := by
    rw [issuedAlong_eq, List.length_range']
    rfl
  have hlive : (run exec State.empty steps).allRecords.length +
      removedAlong State.empty steps = (run exec State.empty steps).counter := by
    have hrun := ncard_present_run hsteps safe_empty
    have hzero : State.empty.view.present.ncard = 0 := by
      have hnone : State.empty.view.present = ∅ := by
        ext id
        simp [Registry.present, view_row, State.empty]
      rw [hnone, Set.ncard_empty]
    have hfresh : State.empty.counter = 0 := by
      rfl
    rw [length_allRecords hs]
    omega
  have hcount : ∀ o, ((run exec State.empty steps).view.table.live
      ((run exec State.empty steps).listed .owner o)).length =
        ((run exec State.empty steps).records
          ((run exec State.empty steps).listed .owner o)).length := by
    intro o
    rw [length_records]
  refine ⟨(run exec State.empty steps).allRecords,
    fun o => ((run exec State.empty steps).records
      ((run exec State.empty steps).listed .owner o)).length, ?_, ?_, ?_, ?_, ?_⟩
  · rw [invoke_getAlertsModifiedSince]
    simp
  · intro o
    rw [invoke_getActiveAlertCount, hcount]
  · intro querier o
    exact ⟨_, _, invoke_getAlertsByOwner_of_none env _ hopen querier o,
      records_listed_perm hs hc ho .owner o, invoke_getAlertIdsByOwner env _ o,
      (hcount o).symm, hcount o⟩
  · intro querier t
    exact ⟨_, invoke_getAlertsForContract_of_none env _ hopen querier t,
      records_listed_perm hs hc ho .contract t,
      invoke_getActiveAlertsForContract env _ t⟩
  · obtain ⟨owners, hzero, hsum⟩ := sum_length_records hs hc ho
    refine ⟨owners, hzero, ?_⟩
    rw [hsum, hissued]
    exact hlive

/-- Two owners, two targets, a transfer and a removal. -/
def busyRun : List Step :=
  [.call (envAt 1 [alice]) (sampleRegister alice pool),
    .call (envAt 1 [bob]) (sampleRegister bob pool),
    .call (envAt 2 [alice]) (sampleRegister alice vault),
    .call (envAt 3 [bob]) (.transferAlertOwnership bob 1 alice),
    .call (envAt 4 [alice]) (.removeAlert alice 0)]

theorem busyRun_views_agree :
    ∃ count : Address → Nat,
      (∀ o, (invoke (envAt 5 []) (.getActiveAlertCount o)
        (run exec State.empty busyRun)).1 = .ok (.number (count o))) ∧
      ∃ owners : Finset Address,
        (∀ o, o ∉ owners → count o = 0) ∧
        ∑ o ∈ owners, count o + removedAlong State.empty busyRun =
          (issuedAlong State.empty busyRun).length := by
  have hcalls : ∀ st ∈ busyRun, st.isCall := by
    simp [busyRun, Step.isCall]
  obtain ⟨all, count, -, hcount, -, -, hsum⟩ :=
    read_views_agree busyRun hcalls (by rfl) (envAt 5 [])
  exact ⟨count, hcount, hsum⟩

end AlertRegistry
end TxWatch
