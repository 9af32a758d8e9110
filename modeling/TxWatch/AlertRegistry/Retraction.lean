import TxWatch.AlertRegistry.StorageKeys

/-!
# Registrations taken back

Removing what a registration added, in any order and in the name of the owner or
of an admin, gives every persistent entry the value it had before.  While the
removals go on, the table is the old one with the ids above the old counter
added (`Table.Adds`); once none of these is left, it is the old one.
-/

namespace TxWatch
namespace AlertRegistry

open Soroban Soroban.Contract Indexed

namespace Call

/-- The entry points that register alerts. -/
def registers : Call → Bool
  | .registerAlert _ _ _ _ _ _ => true
  | .batchRegisterAlerts _ _ => true
  | _ => false

/-- The alert that a removal names. -/
def removes : Call → Option Nat
  | .removeAlert _ configId => some configId
  | .removeAlertByAdmin _ configId => some configId
  | _ => none

end Call

/-- Ids that a response reports. -/
def Response.ids : Response → List Nat
  | .number n => [n]
  | .numbers ns => ns
  | _ => []

/-- Ids that a sequence of calls removes, in the order of the calls. -/
def removedIds (is : List Invocation) : List Nat :=
  is.filterMap (fun i => i.call.removes)

/-- A removal, by owner or admin, that succeeds. -/
def IsRemoval (s : State) (i : Invocation) : Prop :=
  i.call.removes.isSome ∧ ∃ resp, (invoke i.env i.call s).1 = .ok resp

namespace Registry

variable {env : Env} {r r' : Registry} {call : Call} {resp : Response}
  {evs : List Event}

/-- Where every listed id is live, the limit check drops nothing. -/
theorem prunedFor_of_occupied
    (ho : r.table.Occupied) (owner : Address) :
    r.prunedFor owner = r := by
  unfold prunedFor
  split_ifs
  · rw [Table.prune_of_occupied ho]
  · rfl

/-- What a registration adds, and what it answers. -/
theorem Step.registered
    (h : Step env r call resp evs r') (hcall : call.registers = true) :
    ∃ owner cfgs, r' = (r.prunedFor owner).createAll cfgs ∧
      resp.ids = List.range' r.nextId cfgs.length := by
  cases h with
  | @enrol _ owner cfgs henrol _ _ _ _ _ =>
      refine ⟨owner, cfgs, rfl, ?_⟩
      cases call with
      | registerAlert owner' targetContract label webhookHash rules tags =>
          obtain ⟨-, rfl⟩ : owner' = owner ∧ _ = cfgs := by
            simpa [Call.enrols] using henrol
          rfl
      | batchRegisterAlerts caller inputs => rfl
      | _ => simp [Call.registers] at hcall
  | query hquery => cases call <;> simp_all [Call.isQuery, Call.registers]
  | administer hadm _ _ _ _ _ =>
      cases call <;> simp_all [Call.administers, Call.registers]
  | amend hamend _ _ _ _ _ _ => cases call <;> simp_all [Call.amends, Call.registers]
  | activate hact _ _ _ => cases call <;> simp_all [Call.activates, Call.registers]
  | _ => simp [Call.registers] at hcall

/-- What a removal deletes. -/
theorem Step.removed
    (h : Step env r call resp evs r') {id : Nat}
    (hcall : call.removes = some id) :
    ∃ cfg, r' = r.erase id cfg := by
  cases h with
  | @remove _ _ cfg _ _ _ _ =>
      obtain rfl := Option.some.inj hcall
      exact ⟨cfg, rfl⟩
  | @removeByAdmin _ _ cfg _ _ _ _ =>
      obtain rfl := Option.some.inj hcall
      exact ⟨cfg, rfl⟩
  | query hquery => cases call <;> simp_all [Call.isQuery, Call.removes]
  | administer hadm _ _ _ _ _ =>
      cases call <;> simp_all [Call.administers, Call.removes]
  | enrol henrol _ _ _ _ _ => cases call <;> simp_all [Call.enrols, Call.removes]
  | amend hamend _ _ _ _ _ _ => cases call <;> simp_all [Call.amends, Call.removes]
  | activate hact _ _ _ => cases call <;> simp_all [Call.activates, Call.removes]
  | _ => simp [Call.removes] at hcall

/-- New alerts come under ids from the old counter on. -/
theorem adds_createAll
    {t : AlertTable} {n : Nat} (hn : n ≤ r.nextId)
    (h : Table.Adds (fun id => n ≤ id) r.table t) (cfgs : List AlertConfig) :
    Table.Adds (fun id => n ≤ id) (r.createAll cfgs).table t := by
  induction cfgs generalizing r with
  | nil => exact h
  | cons cfg rest ih =>
      apply ih
      · rw [nextId_create]
        omega
      · exact h.insert hn cfg

end Registry

section Removals

variable {s : State}

theorem view_execCall_of_removal
    {i : Invocation} {id : Nat} (hid : i.call.removes = some id)
    (hremoval : IsRemoval s i) :
    ∃ cfg, (execCall s i).view = s.view.erase id cfg := by
  obtain ⟨-, resp, hok⟩ := hremoval
  rcases invoke_refines i.env i.call s with ⟨_, -, hstep⟩ | ⟨⟨f, hf⟩, -⟩
  · exact hstep.removed hid
  · rw [hok] at hf
    exact absurd hf (by simp)

theorem leakless_execCall
    (s : State) (i : Invocation) (h : s.Leakless) :
    (execCall s i).Leakless := by
  exact leakless_exec s (.call i.env i.call) trivial h

/-- Removals take only added rows away, and they leave none that they name. -/
theorem removals_run
    {is : List Invocation} (his : Along execCall IsRemoval s is)
    {t : AlertTable} {n : Nat}
    (hadds : Table.Adds (fun id => n ≤ id) s.view.table t)
    (hids : ∀ id ∈ removedIds is, n ≤ id) :
    Table.Adds (fun id => n ≤ id) (run execCall s is).view.table t ∧
      ∀ id, ((run execCall s is).view.table.row id).isSome →
        (s.view.table.row id).isSome ∧ id ∉ removedIds is := by
  induction is generalizing s with
  | nil => exact ⟨hadds, fun id hrow => ⟨hrow, List.not_mem_nil⟩⟩
  | cons i is ih =>
      obtain ⟨hi, htail⟩ := his
      obtain ⟨id, hid⟩ := Option.isSome_iff_exists.mp hi.1
      have hcons : removedIds (i :: is) = id :: removedIds is := by
        simp [removedIds, hid]
      rw [hcons] at hids ⊢
      obtain ⟨cfg, hview⟩ := view_execCall_of_removal hid hi
      have hadds' : Table.Adds (fun id => n ≤ id) (execCall s i).view.table t := by
        rw [hview]
        exact hadds.erase (hids id List.mem_cons_self) cfg
      have hrest := ih htail hadds'
        (fun id' hid' => hids id' (List.mem_cons_of_mem _ hid'))
      refine ⟨hrest.1, ?_⟩
      intro id' hrow
      obtain ⟨hbefore, hnot⟩ := hrest.2 id' hrow
      rw [hview, Registry.row_erase] at hbefore
      by_cases he : id' = id
      · subst he
        simp at hbefore
      · rw [Function.update_of_ne he] at hbefore
        exact ⟨hbefore, by simp [he, hnot]⟩

/-- Taking a registration back restores the table. -/
theorem table_retracted
    {env : Env} {call : Call} {resp : Response} (h : s.Leakless)
    (hcall : call.registers = true)
    (hok : (invoke env call s).1 = .ok resp)
    {is : List Invocation} (hperm : (removedIds is).Perm resp.ids)
    (his : Along execCall IsRemoval (invoke env call s).2 is) :
    (run execCall (invoke env call s).2 is).view.table = s.view.table := by
  have hregistered : ∃ cfgs,
      (invoke env call s).2.view = s.view.createAll cfgs ∧
        resp.ids = List.range' s.view.nextId cfgs.length := by
    rcases invoke_refines env call s with ⟨resp', hok', hstep⟩ | ⟨⟨f, hf⟩, -⟩
    · obtain rfl := Except.ok.inj (hok.symm.trans hok')
      obtain ⟨owner, cfgs, hview, hids⟩ := hstep.registered hcall
      rw [Registry.prunedFor_of_occupied h.occupied] at hview
      exact ⟨cfgs, hview, hids⟩
    · rw [hok] at hf
      exact absurd hf (by simp)
  obtain ⟨cfgs, hview, hids⟩ := hregistered
  have hmem : ∀ id, id ∈ removedIds is ↔
      s.view.nextId ≤ id ∧ id < s.view.nextId + cfgs.length := by
    intro id
    rw [hperm.mem_iff, hids, List.mem_range'_1]
  have hold : Table.Within (fun id => ¬ s.view.nextId ≤ id) s.view.table := by
    simpa using h.safe.within
  have hadds : Table.Adds (fun id => s.view.nextId ≤ id)
      (invoke env call s).2.view.table s.view.table := by
    rw [hview]
    exact Registry.adds_createAll (le_refl _) (Table.Adds.refl hold) cfgs
  have hrun := removals_run his hadds (fun id hid => ((hmem id).mp hid).1)
  have hsafe : (s.view.createAll cfgs).Safe := h.safe.createAll cfgs
  have hafter : (invoke env call s).2.Leakless :=
    leakless_exec s (.call env call) trivial h
  have hlast : (run execCall (invoke env call s).2 is).Leakless :=
    run_preserves (C := IsRemoval) (fun s i _ hs => leakless_execCall s i hs)
      hafter his
  refine hrun.1.eq_of_gone hlast.occupied ?_ ?_
  · intro id hid
    rw [← Option.not_isSome_iff_eq_none]
    intro hrow
    obtain ⟨hbefore, hnot⟩ := hrun.2 id hrow
    rw [hview] at hbefore
    have hlt := hsafe.within.row id hbefore
    rw [Registry.nextId_createAll] at hlt
    exact hnot ((hmem id).mpr ⟨hid, hlt⟩)
  · intro id hid
    exact h.safe.within.row_eq_none (not_lt.mpr hid)

end Removals

/-- After any run of calls the persistent keys are those that live alerts account
for, and no list is stored empty.  A registration that succeeds from there,
followed by removals of exactly the ids it reported, in any order and by owner or
admin, leaves every persistent entry with the value it had. -/
theorem no_storage_leak
    (steps : List Step) (hsteps : ∀ st ∈ steps, st.isCall) :
    (∀ k, (run exec State.empty steps).persistent.has k = true ↔
      (run exec State.empty steps).Accounted k) ∧
    (∀ kind a,
      (run exec State.empty steps).persistent.get (.index kind a) ≠ some []) ∧
    (∀ (env : Env) (call : Call) (resp : Response) (removals : List Invocation),
      call.registers = true →
      (invoke env call (run exec State.empty steps)).1 = .ok resp →
      (removedIds removals).Perm resp.ids →
      Along execCall IsRemoval
        (invoke env call (run exec State.empty steps)).2 removals →
      ∀ k,
        (run execCall (invoke env call (run exec State.empty steps)).2
            removals).persistent.get k =
          (run exec State.empty steps).persistent.get k) := by
  have h := leakless_run hsteps
  refine ⟨h.has_iff, ?_, ?_⟩
  · intro kind a hget
    exact h.tidy (.index kind a) [] hget rfl
  · intro env call resp removals hcall hok hperm hremovals k
    have hafter := leakless_exec _ (.call env call) trivial h
    have hlast := run_preserves (C := IsRemoval)
      (fun s i _ hs => leakless_execCall s i hs) hafter hremovals
    exact h.get_eq hlast (table_retracted h hcall hok hperm hremovals) k

/-- An admin, and an alert that stays. -/
def settledRun : List Step :=
  [.call (envAt 1 [operator]) (.initialise operator),
    .call (envAt 2 [alice]) (sampleRegister alice pool)]

/-- Two more alerts on the same target. -/
def sampleBatch : Call :=
  .batchRegisterAlerts alice
    [{ targetContract := pool, label := .fromStr "large transfers",
       webhookHash := sampleHash, rules := [ruleTransfer] },
     { targetContract := pool, label := .fromStr "mints",
       webhookHash := sampleHash, rules := [ruleMint] }]

/-- The two taken back: the later one by an admin, then the other by its owner. -/
def takenBack : List Invocation :=
  [⟨envAt 4 [operator], .removeAlertByAdmin operator 2⟩,
    ⟨envAt 5 [alice], .removeAlert alice 1⟩]

theorem takenBack_restores :
    (run execCall
        (invoke (envAt 3 [alice]) sampleBatch
          (run exec State.empty settledRun)).2 takenBack).persistent.get
        (.contractIndex pool) =
      (run exec State.empty settledRun).persistent.get (.contractIndex pool) := by
  have h := no_storage_leak settledRun (by simp [settledRun, Step.isCall])
  refine h.2.2 (envAt 3 [alice]) sampleBatch (.numbers [1, 2]) takenBack rfl ?_ ?_
    ?_ (.contractIndex pool)
  · rfl
  · decide
  · refine ⟨⟨rfl, .unit, ?_⟩, ⟨rfl, .unit, ?_⟩, trivial⟩
    · rfl
    · rfl

end AlertRegistry
end TxWatch
