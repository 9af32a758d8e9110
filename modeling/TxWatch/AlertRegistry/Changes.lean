import TxWatch.AlertRegistry.Refinement

/-!
# How the alert table changes

`Registry.Change` sorts the steps of the registry by what they do to the table
of alerts: rewrite records in place, add records under new ids, move one record
between lists, or delete one.  The invariants of the table are preserved by
each kind of change, and so by every call.

`Registry.Safe` holds in every run, whatever expires.  That the table is also
`Complete` and `Occupied` depends on what may expire.
-/

namespace TxWatch
namespace AlertRegistry

open Soroban Indexed

namespace Registry

/-- Kinds of change to the table of alerts. -/
inductive Change (r : Registry) : Registry → Prop
  | rewrite {r' : Registry} :
      r'.table.Rewrites AlertConfig.party r.table →
      r'.nextId = r.nextId →
      Change r r'
  | create {owner : Address} {cfgs : List AlertConfig} :
      cfgs.length ≤ maxBatchSize →
      r.Fits owner cfgs.length →
      (∀ cfg ∈ cfgs, cfg.owner = owner) →
      Change r ((r.prunedFor owner).createAll cfgs)
  | retarget {id : Nat} {target : Address} {cfg cfg' : AlertConfig} :
      r.table.row id = some cfg →
      cfg'.owner = cfg.owner →
      cfg'.targetContract = target →
      Change r (r.move .contract id cfg.targetContract target cfg')
  | reown {id : Nat} {owner : Address} {cfg cfg' : AlertConfig} :
      r.Fits owner 1 →
      r.table.row id = some cfg →
      cfg'.owner = owner →
      cfg'.targetContract = cfg.targetContract →
      Change r ((r.prunedFor owner).move .owner id cfg.owner owner cfg')
  | erase {id : Nat} {cfg : AlertConfig} :
      r.table.row id = some cfg →
      Change r (r.erase id cfg)

theorem party_eq_of_eq
    {cfg cfg' : AlertConfig}
    (howner : cfg'.owner = cfg.owner)
    (htarget : cfg'.targetContract = cfg.targetContract) :
    cfg'.party = cfg.party := by
  funext kind
  cases kind with
  | owner => exact howner
  | contract => exact htarget

/-- Replacing a record by one of the same parties rewrites the table. -/
theorem rewrites_rewrite
    {r : Registry} {id : Nat} {cfg cfg' : AlertConfig}
    (hrow : r.table.row id = some cfg) (hp : cfg'.party = cfg.party)
    (active : Option Bool) :
    ((r.rewrite id cfg').flag id active).table.Rewrites AlertConfig.party
      r.table := by
  rw [table_flag]
  refine ⟨?_, rfl⟩
  intro id'
  rw [row_rewrite]
  by_cases h : id' = id
  · subst h
    simp [hrow, hp]
  · rw [Function.update_of_ne h]

theorem rewrites_deactivate
    (r : Registry) (now : Nat) (ids : List Nat) :
    (r.deactivate now ids).table.Rewrites AlertConfig.party r.table := by
  refine ⟨?_, rfl⟩
  intro id
  simp only [deactivate]
  split_ifs
  · rw [Option.map_map]
    congr 1
    funext cfg
    simp only [Function.comp_apply, AlertConfig.deactivated]
    split_ifs <;> rfl
  · rfl

/-- An owner's call on a record keeps its parties, writes the flag of the
record and stamps it. -/
theorem amended_spec
    {call : Call} {now : Nat} {cfg cfg' : AlertConfig}
    (h : call.amended now cfg = some cfg') :
    cfg'.party = cfg.party ∧
      cfg'.active = call.amendedFlag.getD cfg.active ∧
      cfg'.updatedAt = now := by
  cases call with
  | updateAlert _ _ _ _ | updateWebhook _ _ _ | proposeWebhook _ _ _
  | updateLabel _ _ _ | updateTags _ _ _ =>
      obtain rfl := Option.some.inj h
      exact ⟨party_eq_of_eq rfl rfl, rfl, rfl⟩
  | confirmWebhook _ _ =>
      obtain ⟨pending, -, rfl⟩ := Option.map_eq_some_iff.mp h
      exact ⟨party_eq_of_eq rfl rfl, rfl, rfl⟩
  | _ => exact absurd h (by simp [Call.amended])

theorem amended_party
    {call : Call} {now : Nat} {cfg cfg' : AlertConfig}
    (h : call.amended now cfg = some cfg') :
    cfg'.party = cfg.party := by
  exact (amended_spec h).1

/-- Registrations write active alerts of their caller and stamp them. -/
theorem enrols_spec
    {call : Call} {now : Nat} {owner : Address} {cfgs : List AlertConfig}
    (h : call.enrols now = some (owner, cfgs)) :
    ∀ cfg ∈ cfgs,
      cfg.owner = owner ∧ cfg.active = true ∧ cfg.updatedAt = now := by
  cases call with
  | registerAlert owner' target label hash rules tags =>
      simp only [Call.enrols, Option.some.injEq, Prod.mk.injEq] at h
      obtain ⟨rfl, rfl⟩ := h
      simp
  | batchRegisterAlerts caller inputs =>
      simp only [Call.enrols, Option.some.injEq, Prod.mk.injEq] at h
      obtain ⟨rfl, rfl⟩ := h
      intro cfg hcfg
      obtain ⟨input, -, rfl⟩ := List.mem_map.mp hcfg
      exact ⟨rfl, rfl, rfl⟩
  | _ => simp [Call.enrols] at h

theorem enrols_owner
    {call : Call} {now : Nat} {owner : Address} {cfgs : List AlertConfig}
    (h : call.enrols now = some (owner, cfgs)) :
    ∀ cfg ∈ cfgs, cfg.owner = owner := by
  intro cfg hcfg
  exact (enrols_spec h cfg hcfg).1

theorem enrols_length
    {call : Call} {now : Nat} {owner : Address} {cfgs : List AlertConfig}
    (h : call.enrols now = some (owner, cfgs)) (hok : call.Checked) :
    cfgs.length ≤ maxBatchSize := by
  cases call with
  | registerAlert owner' target label hash rules tags =>
      simp only [Call.enrols, Option.some.injEq, Prod.mk.injEq] at h
      obtain ⟨rfl, rfl⟩ := h
      simp [maxBatchSize]
  | batchRegisterAlerts caller inputs =>
      simp only [Call.enrols, Option.some.injEq, Prod.mk.injEq] at h
      obtain ⟨rfl, rfl⟩ := h
      rw [List.length_map]
      exact hok.1
  | _ => simp [Call.enrols] at h

theorem nextId_configure
    (r : Registry) {i : InstanceKey} (hi : i ≠ .nextId) (w : i.Value) :
    (r.configure i w).nextId = r.nextId := by
  simp [nextId, configure, Function.update_of_ne hi.symm]

theorem setting_key
    {call : Call} {admins : List Address} {entry : (i : InstanceKey) × i.Value}
    (h : call.setting admins = some entry) :
    entry.1 ≠ .nextId := by
  cases call <;> simp [Call.setting] at h <;> subst h <;> simp

/-- A registry that keeps its table and its counter. -/
theorem Change.same
    {r r' : Registry} (htable : r'.table = r.table)
    (hnext : r'.nextId = r.nextId) :
    Change r r' := by
  refine .rewrite ⟨?_, ?_⟩ hnext
  · intro id
    rw [htable]
  · rw [htable]

/-- Every step of the registry is a change of one of the kinds. -/
theorem Step.change
    {env : Env} {r r' : Registry} {call : Call} {resp : Response}
    {evs : List Event}
    (h : Step env r call resp evs r') :
    Change r r' := by
  cases h with
  | query _ => exact .same rfl rfl
  | initialise _ =>
      exact .same rfl (nextId_configure r (by simp) _)
  | administer _ hset _ _ _ _ =>
      exact .same rfl (nextId_configure r (setting_key hset) _)
  | enrol henrol hok _ _ hfits _ =>
      exact .create (enrols_length henrol hok) hfits (enrols_owner henrol)
  | amend _ _ _ _ hrow _ hcfg' =>
      refine .rewrite (rewrites_rewrite hrow (amended_party hcfg') _) ?_
      simp [nextId]
  | activate _ _ _ hrow =>
      refine .rewrite (rewrites_rewrite hrow ?_ _) ?_
      · exact party_eq_of_eq rfl rfl
      · simp [nextId]
  | deactivateAll _ _ =>
      exact .rewrite (rewrites_deactivate r _ _) rfl
  | retarget _ _ hrow _ => exact .retarget hrow rfl rfl
  | keepOwner _ _ _ _ => exact .same rfl rfl
  | reown _ _ _ hrow howner hfits =>
      subst howner
      exact .reown hfits hrow rfl rfl
  | remove _ _ hrow _ => exact .erase hrow
  | removeByAdmin _ _ _ hrow => exact .erase hrow
  | bump _ _ => exact .same rfl rfl
  | bulkRenew _ => exact .same rfl rfl

/-- What holds in every run, whatever expires: listed ids lie on duplicate-free
lists where their records belong, and no id in use is still to be issued. -/
structure Safe (r : Registry) : Prop where
  sound : r.table.Sound AlertConfig.party
  within : r.table.Within (fun id => id < r.nextId)

/-- Every alert is on the lists of its owner and of its target. -/
def Complete (r : Registry) : Prop :=
  r.table.Complete AlertConfig.party

section Pruning

variable {r : Registry}

theorem Safe.prunedFor (h : Safe r) (owner : Address) :
    Safe (r.prunedFor owner) := by
  refine ⟨?_, ?_⟩
  · unfold Registry.prunedFor
    split_ifs
    · exact h.sound.prune _ _
    · exact h.sound
  · rw [nextId_prunedFor]
    unfold Registry.prunedFor
    split_ifs
    · exact h.within.prune _ _
    · exact h.within

theorem Complete.prunedFor (h : Complete r) (owner : Address) :
    Complete (r.prunedFor owner) := by
  unfold Registry.prunedFor
  split_ifs
  · exact Table.Complete.prune h _ _
  · exact h

theorem occupied_prunedFor (h : r.table.Occupied) (owner : Address) :
    (r.prunedFor owner).table.Occupied := by
  unfold Registry.prunedFor
  split_ifs
  · exact h.prune _ _
  · exact h

end Pruning

section Creating

variable {r : Registry}

theorem Safe.create (h : Safe r) (cfg : AlertConfig) :
    Safe (r.create cfg) := by
  refine ⟨?_, ?_⟩
  · exact h.sound.insert (h.within.not_listed (Nat.lt_irrefl _))
  · rw [nextId_create]
    refine h.within.insert ?_ (Nat.lt_succ_self _)
    intro id hid
    exact Nat.lt_succ_of_lt hid

theorem Safe.createAll (h : Safe r) (cfgs : List AlertConfig) :
    Safe (r.createAll cfgs) := by
  induction cfgs generalizing r with
  | nil => exact h
  | cons cfg rest ih => exact ih (h.create cfg)

theorem Complete.createAll (h : Complete r) (cfgs : List AlertConfig) :
    Complete (r.createAll cfgs) := by
  induction cfgs generalizing r with
  | nil => exact h
  | cons cfg rest ih => exact ih (Table.Complete.insert h)

theorem occupied_createAll
    (h : r.table.Occupied) (cfgs : List AlertConfig) :
    (r.createAll cfgs).table.Occupied := by
  induction cfgs generalizing r with
  | nil => exact h
  | cons cfg rest ih => exact ih h.insert

/-- Registrations leave the records under ids already issued alone. -/
theorem row_createAll_of_lt
    (r : Registry) (cfgs : List AlertConfig) {id : Nat}
    (hid : id < r.nextId) :
    (r.createAll cfgs).table.row id = r.table.row id := by
  induction cfgs generalizing r with
  | nil => rfl
  | cons cfg rest ih =>
      have hlt : id < (r.create cfg).nextId := by
        rw [nextId_create]
        omega
      have hne : id ≠ r.nextId := by
        omega
      rw [createAll, ih _ hlt]
      simp [create, Function.update_of_ne hne]

end Creating

section Moving

variable {r : Registry} {id : Nat} {a : Address} {cfg cfg' : AlertConfig}

/-- Moving an alert to another target. -/
theorem Safe.retarget
    (h : Safe r) (hrow : r.table.row id = some cfg)
    (howner : cfg'.owner = cfg.owner) (htarget : cfg'.targetContract = a) :
    Safe (r.move .contract id cfg.targetContract a cfg') := by
  refine ⟨h.sound.move hrow htarget ?_, h.within.move hrow⟩
  intro kind hkind
  cases kind with
  | owner => exact howner
  | contract => exact absurd rfl hkind

theorem Complete.retarget
    (h : Complete r) (hrow : r.table.row id = some cfg)
    (howner : cfg'.owner = cfg.owner) (htarget : cfg'.targetContract = a) :
    Complete (r.move .contract id cfg.targetContract a cfg') := by
  refine Table.Complete.move h hrow htarget ?_
  intro kind hkind
  cases kind with
  | owner => exact howner
  | contract => exact absurd rfl hkind

/-- Moving an alert to another owner. -/
theorem Safe.reown
    (h : Safe r) (hrow : r.table.row id = some cfg)
    (howner : cfg'.owner = a)
    (htarget : cfg'.targetContract = cfg.targetContract) :
    Safe (r.move .owner id cfg.owner a cfg') := by
  refine ⟨h.sound.move hrow howner ?_, h.within.move hrow⟩
  intro kind hkind
  cases kind with
  | owner => exact absurd rfl hkind
  | contract => exact htarget

theorem Complete.reown
    (h : Complete r) (hrow : r.table.row id = some cfg)
    (howner : cfg'.owner = a)
    (htarget : cfg'.targetContract = cfg.targetContract) :
    Complete (r.move .owner id cfg.owner a cfg') := by
  refine Table.Complete.move h hrow howner ?_
  intro kind hkind
  cases kind with
  | owner => exact absurd rfl hkind
  | contract => exact htarget

end Moving

section Preservation

variable {r r' : Registry}

theorem Change.safe (h : Change r r') (hs : Safe r) :
    Safe r' := by
  cases h with
  | rewrite hr hnext =>
      refine ⟨hr.sound hs.sound, ?_⟩
      rw [hnext]
      exact hr.within hs.within
  | create _ _ _ => exact (hs.prunedFor _).createAll _
  | retarget hrow howner htarget => exact hs.retarget hrow howner htarget
  | reown _ hrow howner htarget =>
      refine (hs.prunedFor _).reown ?_ howner htarget
      rw [row_prunedFor]
      exact hrow
  | erase hrow => exact ⟨hs.sound.erase _ _, hs.within.erase _ _⟩

theorem Change.complete (h : Change r r') (hc : Complete r) :
    Complete r' := by
  cases h with
  | rewrite hr _ => exact hr.complete hc
  | create _ _ _ => exact (hc.prunedFor _).createAll _
  | retarget hrow howner htarget => exact hc.retarget hrow howner htarget
  | reown _ hrow howner htarget =>
      refine (hc.prunedFor _).reown ?_ howner htarget
      rw [row_prunedFor]
      exact hrow
  | erase hrow => exact Table.Complete.erase hc _ _

/-- Erasing a record takes its id off every list only if the table is sound. -/
theorem Change.occupied
    (h : Change r r') (hs : Safe r) (ho : r.table.Occupied) :
    r'.table.Occupied := by
  cases h with
  | rewrite hr _ => exact hr.occupied ho
  | create _ _ _ => exact occupied_createAll (occupied_prunedFor ho _) _
  | retarget hrow _ _ => exact ho.move
  | reown _ _ _ _ => exact (occupied_prunedFor ho _).move
  | erase hrow => exact ho.erase hs.sound hrow

end Preservation

section Ids

variable {r r' : Registry}

theorem nextId_createAll (r : Registry) (cfgs : List AlertConfig) :
    (r.createAll cfgs).nextId = r.nextId + cfgs.length := by
  induction cfgs generalizing r with
  | nil => rfl
  | cons cfg rest ih =>
      rw [createAll, ih, nextId_create, List.length_cons]
      omega

/-- Adding alerts writes no instance entry but the counter. -/
theorem inst_createAll_of_ne
    (r : Registry) (cfgs : List AlertConfig) {i : InstanceKey}
    (hi : i ≠ .nextId) :
    (r.createAll cfgs).inst i = r.inst i := by
  induction cfgs generalizing r with
  | nil => rfl
  | cons cfg rest ih =>
      rw [createAll, ih]
      exact Function.update_of_ne hi _ _

/-- A registration makes records present only under the ids it issues. -/
theorem isSome_row_createAll
    {cfgs : List AlertConfig} {id : Nat}
    (h : ((r.createAll cfgs).table.row id).isSome) :
    (r.table.row id).isSome ∨
      (r.nextId ≤ id ∧ id < r.nextId + cfgs.length) := by
  induction cfgs generalizing r with
  | nil => exact Or.inl h
  | cons cfg rest ih =>
      rw [List.length_cons]
      rcases ih h with hold | ⟨hle, hlt⟩
      · by_cases hid : id = r.nextId
        · right
          omega
        · rw [row_create, Function.update_of_ne hid] at hold
          exact Or.inl hold
      · rw [nextId_create] at hle hlt
        right
        omega

theorem isSome_row_update
    {id id' : Nat} {cfg : AlertConfig} {o : Option AlertConfig}
    (hrow : r.table.row id = some cfg)
    (h : (Function.update r.table.row id o id').isSome) :
    (r.table.row id').isSome := by
  by_cases hid : id' = id
  · rw [hid, hrow]
    rfl
  · rw [Function.update_of_ne hid] at h
    exact h

/-- The counter never goes back. -/
theorem Change.nextId_le (h : Change r r') :
    r.nextId ≤ r'.nextId := by
  cases h with
  | rewrite _ hnext => exact hnext.ge
  | create _ _ _ =>
      rw [nextId_createAll, nextId_prunedFor]
      omega
  | retarget _ _ _ => exact le_refl r.nextId
  | reown _ _ _ _ => exact (nextId_prunedFor r _).ge
  | erase _ => exact le_refl r.nextId

/-- Only a new id may become present. -/
theorem Change.isSome_row
    (h : Change r r') {id : Nat} (hrow : (r'.table.row id).isSome) :
    (r.table.row id).isSome ∨ (r.nextId ≤ id ∧ id < r'.nextId) := by
  cases h with
  | rewrite hr _ =>
      rw [hr.isSome] at hrow
      exact Or.inl hrow
  | create _ _ _ =>
      rw [nextId_createAll, nextId_prunedFor]
      rcases isSome_row_createAll hrow with hold | hnew
      · rw [row_prunedFor] at hold
        exact Or.inl hold
      · rw [nextId_prunedFor] at hnew
        exact Or.inr hnew
  | retarget hold _ _ =>
      rw [row_move] at hrow
      exact Or.inl (isSome_row_update hold hrow)
  | reown _ hold _ _ =>
      rw [row_reown] at hrow
      exact Or.inl (isSome_row_update hold hrow)
  | erase hold =>
      rw [row_erase] at hrow
      exact Or.inl (isSome_row_update hold hrow)

end Ids

end Registry

end AlertRegistry
end TxWatch
