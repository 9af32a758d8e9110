import TxWatch.AlertRegistry.IndexCoherence

/-!
# The limit on the alerts of one owner

The limit check counts the live ids on the owner's list.  In a sound and
complete registry that is the number of the owner's live alerts, so no call
carries an owner past the limit.
-/

namespace TxWatch
namespace AlertRegistry

open Soroban Indexed

namespace Registry

variable {r r' : Registry}

/-- Ids of the live alerts of an owner. -/
def owned (r : Registry) (owner : Address) : Set Nat :=
  r.table.members AlertConfig.party .owner owner

/-- The count that the limit check takes is the number of live alerts. -/
theorem encard_owned
    (hs : r.Safe) (hc : r.Complete) (owner : Address) :
    (r.owned owner).encard = (r.liveOf owner).length := by
  exact Table.encard_members hs.sound hc .owner owner

/-- New alerts of registrations lie under the next ids. -/
theorem mem_owned_createAll
    {cfgs : List AlertConfig} {owner : Address} {id : Nat}
    (h : id ∈ (r.createAll cfgs).owned owner) :
    id ∈ r.owned owner ∨
      (id ∈ Finset.Ico r.nextId (r.nextId + cfgs.length) ∧
        ∃ cfg ∈ cfgs, cfg.owner = owner) := by
  induction cfgs generalizing r with
  | nil => exact Or.inl h
  | cons cfg rest ih =>
      rcases ih h with hold | ⟨hid, cfg', hcfg', howner⟩
      · have hrow : (r.create cfg).table.row =
            Function.update r.table.row r.nextId (some cfg) := by
          rfl
        rw [owned, Table.mem_members_update _ hrow] at hold
        rcases hold with ⟨-, hold⟩ | ⟨rfl, cfg', hcfg', howner⟩
        · exact Or.inl hold
        · obtain rfl := Option.some.inj hcfg'
          right
          refine ⟨?_, cfg, List.mem_cons_self, howner⟩
          rw [Finset.mem_Ico, List.length_cons]
          omega
      · right
        refine ⟨?_, cfg', List.mem_cons_of_mem _ hcfg', howner⟩
        rw [nextId_create, Finset.mem_Ico] at hid
        rw [Finset.mem_Ico, List.length_cons]
        omega

theorem owned_prunedFor (r : Registry) (a owner : Address) :
    (r.prunedFor a).owned owner = r.owned owner := by
  unfold owned Table.members
  rw [row_prunedFor]

/-- Writing one record adds at most its id to the alerts of an owner. -/
theorem owned_update_subset
    {id : Nat} {o : Option AlertConfig}
    (h : r'.table.row = Function.update r.table.row id o) (a : Address) :
    r'.owned a ⊆ r.owned a ∪ {id} := by
  intro id' hid
  rw [owned, Table.mem_members_update r.table h] at hid
  rcases hid with ⟨-, hold⟩ | ⟨rfl, -⟩
  · exact Or.inl hold
  · exact Or.inr rfl

/-- It adds nothing if the alert was the owner's before, or is not now. -/
theorem owned_update_subset_of
    {id : Nat} {o : Option AlertConfig} {a : Address}
    (h : r'.table.row = Function.update r.table.row id o)
    (hnew : ∀ cfg, o = some cfg → cfg.owner = a → id ∈ r.owned a) :
    r'.owned a ⊆ r.owned a := by
  intro id' hid
  rw [owned, Table.mem_members_update r.table h] at hid
  rcases hid with ⟨-, hold⟩ | ⟨rfl, cfg, hcfg, howner⟩
  · exact hold
  · exact hnew cfg hcfg howner

section Limit

variable (hs : r.Safe) (hc : r.Complete) (hlimit : 0 < r.limit)

include hlimit in
/-- Without overflow the check bounds the sum itself. -/
theorem Fits.le
    {owner : Address} {k : Nat} (h : r.Fits owner k)
    (hsmall : (r.table.index .owner owner).length + k ≤ u32Max) :
    (r.liveOf owner).length + k ≤ r.limit := by
  have hle : (r.liveOf owner).length ≤ (r.table.index .owner owner).length :=
    List.length_filter_le _ _
  have hsum := h hlimit
  unfold saturatingAdd32 at hsum
  omega

include hs hc hlimit in
/-- An owner whose new alerts passed the check is within the limit. -/
theorem Fits.encard_le
    {owner : Address} {k : Nat} (h : r.Fits owner k)
    (hsmall : (r.table.index .owner owner).length + k ≤ u32Max)
    {after new : Set Nat} (hnew : new.encard ≤ k)
    (hafter : after ⊆ r.owned owner ∪ new) :
    after.encard ≤ r.limit := by
  have hle := h.le hlimit hsmall
  calc after.encard
      ≤ (r.owned owner).encard + new.encard :=
        (Set.encard_le_encard hafter).trans (Set.encard_union_le _ _)
    _ ≤ (r.owned owner).encard + k := by
        gcongr
    _ = ((r.liveOf owner).length + k : Nat) := by
        rw [encard_owned hs hc]
        push_cast
        rfl
    _ ≤ r.limit := by
        exact_mod_cast hle

include hs hc hlimit in
/-- No change carries an owner past the limit. -/
theorem Change.encard_owned_le
    (h : Change r r')
    (hsmall : ∀ a,
      (r.table.index .owner a).length + maxBatchSize ≤ u32Max)
    (o : Address) :
    (r'.owned o).encard ≤ max (r.owned o).encard r.limit := by
  have hless : ∀ {after : Set Nat}, after ⊆ r.owned o →
      after.encard ≤ max (r.owned o).encard r.limit := by
    intro after hsub
    exact (Set.encard_le_encard hsub).trans (le_max_left _ _)
  have hroom := hsmall o
  cases h with
  | rewrite hr _ =>
      have heq : r'.owned o = r.owned o := hr.members_eq .owner o
      exact hless heq.subset
  | @create owner cfgs hsize hfits howner =>
      by_cases ho : o = owner
      · subst ho
        have hcard : (↑(Finset.Ico r.nextId (r.nextId + cfgs.length)) :
            Set Nat).encard ≤ cfgs.length := by
          rw [Set.encard_coe_eq_coe_finsetCard, Nat.card_Ico]
          simp
        refine le_trans ?_ (le_max_right _ _)
        refine hfits.encard_le hs hc hlimit (by omega) hcard ?_
        intro id hid
        rcases mem_owned_createAll hid with hold | ⟨hnew, -⟩
        · rw [owned_prunedFor] at hold
          exact Or.inl hold
        · rw [nextId_prunedFor] at hnew
          exact Or.inr hnew
      · apply hless
        intro id hid
        rcases mem_owned_createAll hid with hold | ⟨-, cfg, hcfg, hcfgo⟩
        · rw [owned_prunedFor] at hold
          exact hold
        · exact absurd (hcfgo.symm.trans (howner cfg hcfg)) ho
  | @retarget id target cfg cfg' hrow howner htarget =>
      apply hless
      apply owned_update_subset_of (row_move ..)
      intro new hnew ho
      obtain rfl := Option.some.inj hnew
      exact ⟨cfg, hrow, howner.symm.trans ho⟩
  | @reown id owner cfg cfg' hfits hrow howner htarget =>
      have hupdate := row_reown r id cfg.owner owner cfg'
      by_cases ho : o = owner
      · subst ho
        have hone : ({id} : Set Nat).encard ≤ (1 : Nat) := by
          simp
        have hroom' : (r.table.index .owner o).length + 1 ≤ u32Max := by
          simp only [maxBatchSize] at hroom
          omega
        refine le_trans ?_ (le_max_right _ _)
        exact hfits.encard_le hs hc hlimit hroom' hone
          (owned_update_subset hupdate o)
      · apply hless
        apply owned_update_subset_of hupdate
        intro new hnew hparty
        obtain rfl := Option.some.inj hnew
        exact absurd (hparty.symm.trans howner) ho
  | @erase id cfg hrow =>
      apply hless
      apply owned_update_subset_of (row_erase ..)
      intro new hnew _
      exact absurd hnew (by simp)

end Limit

end Registry

/-- Ids of the live alerts of an owner. -/
def State.ownedBy (s : State) (owner : Address) : Set Nat :=
  {id | ∃ cfg, s.persistent.get (.alert id) = some cfg ∧ cfg.owner = owner}

/-- No call carries the number of an owner's live alerts past the limit in
force, in any state of a run in which at most alerts and flags expire. -/
theorem owner_limit_respected
    (steps : List Step) (hsteps : ∀ st ∈ steps, st.keepsIndexes)
    (hlength : ∀ kind a,
      ((run exec State.empty steps).listed kind a).length < 2 ^ 32 - 50)
    (n : Nat) (hpos : 0 < n)
    (hlimit : (run exec State.empty steps).inst .limit = some n)
    (env : Env) (call : Call) (owner : Address) :
    ((invoke env call (run exec State.empty steps)).2.ownedBy owner).encard ≤
      max ((run exec State.empty steps).ownedBy owner).encard n := by
  have hvalue : (run exec State.empty steps).view.limit = n := by
    have hget : (run exec State.empty steps).view.inst .limit = some n := hlimit
    rw [Registry.limit, hget, Option.getD_some]
  have hsmall : ∀ a,
      ((run exec State.empty steps).view.table.index .owner a).length +
        maxBatchSize ≤ u32Max := by
    intro a
    have h := hlength .owner a
    have hindex : (run exec State.empty steps).view.table.index .owner a =
        (run exec State.empty steps).listed .owner a := by
      rfl
    rw [hindex]
    simp only [maxBatchSize, u32Max]
    omega
  have h := (change_invoke (run exec State.empty steps) env call).encard_owned_le
    (safe_run steps) (complete_run hsteps) (by omega) hsmall owner
  rw [hvalue] at h
  exact h

/-- No list is longer than the number of ids issued. -/
theorem length_listed_le_counter
    (steps : List Step) (kind : IndexKind) (a : Address) :
    ((run exec State.empty steps).listed kind a).length ≤
      (run exec State.empty steps).counter := by
  have hsafe := safe_run steps
  have hsub : (run exec State.empty steps).listed kind a ⊆
      List.range (run exec State.empty steps).counter := by
    intro id hmem
    rw [List.mem_range]
    exact hsafe.within.listed kind a id hmem
  have hperm := List.subperm_of_subset (hsafe.sound.nodup kind a) hsub
  have hle := hperm.length_le
  rw [List.length_range] at hle
  exact hle

/-- A contract that allows one alert for each owner, with a stale id listed. -/
def limitedRun : List Step :=
  [.call (envAt 1 [operator]) (.initialise operator),
    .call (envAt 1 [operator]) (.setPerOwnerAlertLimit operator 1),
    .call (envAt 1 [alice]) (sampleRegister alice pool),
    .expire (fun k => k = .alert 0)]

theorem limitedRun_respects_limit :
    ((invoke (envAt 2 [alice]) (sampleRegister alice vault)
        (run exec State.empty limitedRun)).2.ownedBy alice).encard ≤
      max ((run exec State.empty limitedRun).ownedBy alice).encard
        (1 : Nat) := by
  apply owner_limit_respected limitedRun
  · simp [limitedRun, Step.keepsIndexes]
  · intro kind a
    have hle := length_listed_le_counter limitedRun kind a
    have hcounter : (run exec State.empty limitedRun).counter = 1 := by
      rfl
    omega
  · decide
  · rfl

end AlertRegistry
end TxWatch
