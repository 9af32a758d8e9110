import TxWatch.AlertRegistry.Reachability

/-!
# The records of alerts

`Step.row` says where a record comes from when a call has succeeded: the call
edited an old record in one of a few ways, or it added the record.  What is to
be shown of single records is then shown for these.

`Registry.AllRows Q` says that every alert satisfies `Q`.
-/

namespace TxWatch
namespace AlertRegistry

open Soroban Indexed

namespace Registry

/-- Every alert satisfies `Q`. -/
def AllRows (Q : AlertConfig → Prop) (r : Registry) : Prop :=
  ∀ id cfg, r.table.row id = some cfg → Q cfg

variable {Q : AlertConfig → Prop} {r r' : Registry}

/-- What a call may make of the record of an alert that stays. -/
inductive Edits (env : Env) (call : Call) (id : Nat) (cfg : AlertConfig) :
    AlertConfig → Prop
  | keep :
      (∀ caller, call.amends ≠ some (caller, id)) →
      Edits env call id cfg cfg
  | amend {caller : Address} {cfg' : AlertConfig} :
      call.amends = some (caller, id) →
      call.Checked →
      caller ∈ env.auths →
      cfg.owner = caller →
      call.amended env.timestamp cfg = some cfg' →
      Edits env call id cfg cfg'
  | switch (active : Bool) :
      call.amends = none →
      Edits env call id cfg
        { cfg with active := active, updatedAt := env.timestamp }
  | retarget (target : Address) :
      call.amends = none →
      Edits env call id cfg
        { cfg with targetContract := target, updatedAt := env.timestamp }
  | reown (owner : Address) :
      call.amends = none →
      Edits env call id cfg
        { cfg with owner := owner, updatedAt := env.timestamp }

variable {env : Env} {call : Call} {resp : Response} {evs : List Event}
  {id : Nat} {cfg : AlertConfig}

theorem edits_of_row_eq
    (hamend : call.amends = none) (hrow : r'.table.row = r.table.row)
    (hnew : r'.table.row id = some cfg) :
    ∃ old, r.table.row id = some old ∧ Edits env call id old cfg := by
  rw [hrow] at hnew
  exact ⟨cfg, hnew, .keep (by simp [hamend])⟩

theorem edits_of_write
    {id' : Nat} {cfg' new : AlertConfig}
    (hrow : r'.table.row = Function.update r.table.row id' (some cfg'))
    (hold : r.table.row id' = some cfg) (hedit : Edits env call id' cfg cfg')
    (hother : ∀ caller, id ≠ id' → call.amends ≠ some (caller, id))
    (hnew : r'.table.row id = some new) :
    ∃ old, r.table.row id = some old ∧ Edits env call id old new := by
  rw [hrow] at hnew
  by_cases hid : id = id'
  · subst hid
    rw [Function.update_self] at hnew
    obtain rfl := Option.some.inj hnew
    exact ⟨cfg, hold, hedit⟩
  · rw [Function.update_of_ne hid] at hnew
    exact ⟨new, hnew, .keep (fun caller => hother caller hid)⟩

theorem row_of_erased
    {id' : Nat}
    (hrow : r'.table.row = Function.update r.table.row id' none)
    (hnew : r'.table.row id = some cfg) :
    r.table.row id = some cfg := by
  rw [hrow] at hnew
  by_cases hid : id = id'
  · rw [hid, Function.update_self] at hnew
    cases hnew
  · rw [Function.update_of_ne hid] at hnew
    exact hnew

theorem edits_of_deactivate
    {ids : List Nat} (hamend : call.amends = none)
    (hnew : (r.deactivate env.timestamp ids).table.row id = some cfg) :
    ∃ old, r.table.row id = some old ∧ Edits env call id old cfg := by
  simp only [deactivate] at hnew
  split_ifs at hnew with hid
  · obtain ⟨old, hold, rfl⟩ := Option.map_eq_some_iff.mp hnew
    refine ⟨old, hold, ?_⟩
    unfold AlertConfig.deactivated
    split_ifs
    · exact .switch false hamend
    · exact .keep (by simp [hamend])
  · exact ⟨cfg, hnew, .keep (by simp [hamend])⟩

/-- The records that a registration adds lie under the ids from the counter on,
in their order. -/
theorem row_createAll
    (cfgs : List AlertConfig)
    (hnew : (r.createAll cfgs).table.row id = some cfg) :
    r.table.row id = some cfg ∨
      r.nextId ≤ id ∧ cfgs[id - r.nextId]? = some cfg := by
  induction cfgs generalizing r with
  | nil => exact Or.inl hnew
  | cons first rest ih =>
      rw [createAll] at hnew
      rcases ih hnew with hold | ⟨hid, hget⟩
      · rw [row_create] at hold
        by_cases hfirst : id = r.nextId
        · right
          rw [hfirst, Function.update_self] at hold
          rw [hfirst, Nat.sub_self]
          exact ⟨le_refl _, hold⟩
        · left
          rw [Function.update_of_ne hfirst] at hold
          exact hold
      · right
        rw [nextId_create] at hid hget
        have hsub : id - r.nextId = id - (r.nextId + 1) + 1 := by
          omega
        rw [hsub, List.getElem?_cons_succ]
        exact ⟨by omega, hget⟩

/-- Where a record comes from: it is an edited old one, or it is one of those of
a registration. -/
theorem Step.row
    (h : Step env r call resp evs r') (hnew : r'.table.row id = some cfg) :
    (∃ old, r.table.row id = some old ∧ Edits env call id old cfg) ∨
      (r.nextId ≤ id ∧ ∃ owner cfgs,
        call.enrols env.timestamp = some (owner, cfgs) ∧ call.Checked ∧
        resp = call.receipt r.nextId cfgs.length ∧
        cfgs[id - r.nextId]? = some cfg) := by
  cases h with
  | query hquery =>
      exact Or.inl (edits_of_row_eq (Call.amends_of_isQuery hquery) rfl hnew)
  | initialise _ => exact Or.inl (edits_of_row_eq rfl rfl hnew)
  | administer hadm _ _ _ _ _ =>
      exact Or.inl (edits_of_row_eq (Call.amends_of_administers hadm) rfl hnew)
  | bump _ _ => exact Or.inl (edits_of_row_eq rfl rfl hnew)
  | bulkRenew _ => exact Or.inl (edits_of_row_eq rfl rfl hnew)
  | keepOwner _ _ _ _ => exact Or.inl (edits_of_row_eq rfl rfl hnew)
  | enrol henrol hok _ _ _ _ =>
      rcases row_createAll _ hnew with hold | ⟨hid, hget⟩
      · left
        rw [row_prunedFor] at hold
        exact ⟨cfg, hold, .keep (by simp [Call.amends_of_enrols henrol])⟩
      · rw [nextId_prunedFor] at hid hget
        exact Or.inr ⟨hid, _, _, henrol, hok, rfl, hget⟩
  | amend hamend hok _ hauth hold howner hcfg' =>
      refine Or.inl (edits_of_write (row_rewrite_flag ..) hold
        (.amend hamend hok hauth howner hcfg') ?_ hnew)
      intro caller hid hother
      exact hid (Prod.mk.inj (Option.some.inj (hother.symm.trans hamend))).2
  | activate hact _ _ hold =>
      have hamend := Call.amends_of_activates hact
      exact Or.inl (edits_of_write (row_rewrite_flag ..) hold
        (.switch _ hamend) (by simp [hamend]) hnew)
  | deactivateAll _ _ => exact Or.inl (edits_of_deactivate rfl hnew)
  | retarget _ _ hold _ =>
      exact Or.inl (edits_of_write (row_move ..) hold (.retarget _ rfl)
        (by simp [Call.amends]) hnew)
  | reown _ _ _ hold _ _ =>
      exact Or.inl (edits_of_write (row_reown ..) hold (.reown _ rfl)
        (by simp [Call.amends]) hnew)
  | remove _ _ _ _ =>
      exact Or.inl ⟨cfg, row_of_erased (row_erase ..) hnew,
        .keep (by simp [Call.amends])⟩
  | removeByAdmin _ _ _ _ =>
      exact Or.inl ⟨cfg, row_of_erased (row_erase ..) hnew,
        .keep (by simp [Call.amends])⟩

/-- A step keeps what the records it writes satisfy. -/
theorem Step.allRows
    (h : Step env r call resp evs r') (hr : r.AllRows Q)
    (henrol : ∀ owner cfgs, call.enrols env.timestamp = some (owner, cfgs) →
      call.Checked → ∀ cfg ∈ cfgs, Q cfg)
    (hamend : ∀ caller id cfg cfg', call.amends = some (caller, id) →
      call.Checked → caller ∈ env.auths → r.table.row id = some cfg →
      cfg.owner = caller → call.amended env.timestamp cfg = some cfg' → Q cfg')
    (hswitch : ∀ cfg active, Q cfg →
      Q { cfg with active := active, updatedAt := env.timestamp })
    (htarget : ∀ cfg target, Q cfg →
      Q { cfg with targetContract := target, updatedAt := env.timestamp })
    (howner : ∀ cfg owner, Q cfg →
      Q { cfg with owner := owner, updatedAt := env.timestamp }) :
    r'.AllRows Q := by
  intro id cfg hnew
  rcases h.row hnew with ⟨old, hold, hedit⟩ | ⟨-, owner, cfgs, hcall, hok, -, hget⟩
  · have hQ : Q old := hr id old hold
    cases hedit with
    | keep _ => exact hQ
    | amend hcall hok hauth hown hcfg =>
        exact hamend _ _ _ _ hcall hok hauth hold hown hcfg
    | switch active _ => exact hswitch old active hQ
    | retarget target _ => exact htarget old target hQ
    | reown owner _ => exact howner old owner hQ
  · exact henrol owner cfgs hcall hok cfg (List.mem_of_getElem? hget)

end Registry

theorem validateInputs_cons_iff (input : AlertInput) (rest : List AlertInput) :
    validateInputs (input :: rest) = .ok () ↔
      (input.webhookHash.len = 64 ∧ validateLabel input.label = .ok () ∧
        validateRules input.rules = .ok ()) ∧
        validateInputs rest = .ok () := by
  rw [validateInputs]
  by_cases hlen : input.webhookHash.len = 64
  · cases hlabel : validateLabel input.label with
    | error e => simp [hlen, bind, Except.bind]
    | ok _ =>
        cases hrules : validateRules input.rules with
        | error e => simp [hlen, bind, Except.bind]
        | ok _ => simp [hlen, bind, Except.bind]
  · simp [hlen]

/-- The checks on every input of a batch. -/
theorem validateInputs_spec
    {inputs : List AlertInput} (h : validateInputs inputs = .ok ()) :
    ∀ input ∈ inputs,
      input.webhookHash.len = 64 ∧ validateLabel input.label = .ok () ∧
        validateRules input.rules = .ok () := by
  induction inputs with
  | nil => simp
  | cons input rest ih =>
      obtain ⟨hinput, hrest⟩ := (validateInputs_cons_iff input rest).mp h
      intro input' hinput'
      rcases List.mem_cons.mp hinput' with rfl | hmem
      · exact hinput
      · exact ih hrest input' hmem

/-- Expiry leaves only records that were there. -/
theorem allRows_dropping
    {Q : AlertConfig → Prop} (s : State) (h : s.view.AllRows Q)
    (keys : DataKey → Bool) :
    (State.view (s.dropping keys)).AllRows Q := by
  intro id cfg hcfg
  exact h id cfg ((remnant_dropping s keys).row id cfg hcfg)

end AlertRegistry
end TxWatch
