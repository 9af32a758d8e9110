import TxWatch.AlertRegistry.Reachability
import TxWatch.Soroban.Cover

/-!
# Lifetimes of an alert and its companions

An alert is found through its flag and the lists of its owner and its target:
its companions.  `Covered` says that the companions of every live alert live at
least as long as the alert.  `Carries` is what an operation does to the alerts
outside a set: it keeps their records and lengthens only their companions.
-/

namespace TxWatch
namespace AlertRegistry

open Soroban Indexed

/-- Keys that must not lapse before an alert does. -/
def companions (id : Nat) (cfg : AlertConfig) : List DataKey :=
  [.alertActive id, .ownerIndex cfg.owner, .contractIndex cfg.targetContract]

/-- The companions of every live alert live at least as long as it does. -/
def Covered (s : State) : Prop :=
  ∀ id cfg, s.persistent.get (.alert id) = some cfg →
    s.persistent.Covers (companions id cfg) (.alert id)

/-- First ledger at which an entry is gone that is extended by the default
lifetime. -/
def renewedDeadline (ledger : Nat) : Nat :=
  ledger + defaultTtl + 1

/-- Alerts outside `K` keep their records, and of the lifetimes that matter to
them only those of companions grow. -/
def Carries (K : Set Nat) (s s' : State) : Prop :=
  ∀ id, id ∉ K → ∀ cfg, s'.persistent.get (.alert id) = some cfg →
    s.persistent.get (.alert id) = some cfg ∧
      s'.persistent.deadline (.alert id) ≤ s.persistent.deadline (.alert id) ∧
      ∀ k ∈ companions id cfg, s.persistent.deadline k ≤ s'.persistent.deadline k

section Carrying

variable {K : Set Nat} {s s' s'' : State}

theorem Carries.refl (K : Set Nat) (s : State) : Carries K s s := by
  intro id _ cfg hget
  exact ⟨hget, le_refl _, fun _ _ => le_refl _⟩

theorem Carries.trans
    (h : Carries K s s') (h' : Carries K s' s'') :
    Carries K s s'' := by
  intro id hid cfg hget
  obtain ⟨hget', hle', hcomp'⟩ := h' id hid cfg hget
  obtain ⟨hget₀, hle, hcomp⟩ := h id hid cfg hget'
  exact ⟨hget₀, hle'.trans hle, fun k hk => (hcomp k hk).trans (hcomp' k hk)⟩

theorem Carries.covers
    (h : Carries K s s') (hs : Covered s)
    {id : Nat} (hid : id ∉ K) {cfg : AlertConfig}
    (hget : s'.persistent.get (.alert id) = some cfg) :
    s'.persistent.Covers (companions id cfg) (.alert id) := by
  obtain ⟨hget₀, hle, hcomp⟩ := h id hid cfg hget
  exact (hs id cfg hget₀).mono hle hcomp

/-- Carrying every alert keeps all of them covered. -/
theorem Carries.covered
    (h : Carries ∅ s s') (hs : Covered s) :
    Covered s' := by
  intro id cfg hget
  exact h.covers hs (Set.notMem_empty id) hget

/-- Raising lifetimes of other keys than alerts. -/
theorem carries_of_raised
    (hget : ∀ id, s'.persistent.get (.alert id) = s.persistent.get (.alert id))
    (hsame : ∀ id, s'.persistent.deadline (.alert id) =
      s.persistent.deadline (.alert id))
    (hraise : ∀ k, s.persistent.deadline k ≤ s'.persistent.deadline k) :
    Carries K s s' := by
  intro id _ cfg h
  rw [hget] at h
  exact ⟨h, (hsame id).le, fun k _ => hraise k⟩

/-- Storage that differs only outside persistent entries. -/
theorem carries_of_eq
    (h : s'.persistent = s.persistent) :
    Carries K s s' := by
  unfold Carries
  rw [h]
  exact Carries.refl K s

end Carrying

section Writes

variable {K : Set Nat} (s : State) (ledger : Nat)

theorem carries_store_alert
    {id : Nat} (hid : id ∈ K) (cfg : AlertConfig) (ttl : Nat) :
    Carries K s (s.store ledger (.alert id) cfg ttl) := by
  intro id' hid' cfg' hget
  have hne : id' ≠ id := by
    rintro rfl
    exact hid' hid
  simp only [State.persistent_store] at hget ⊢
  rw [Store.get_store_of_ne _ _ (by simp [hne])] at hget
  refine ⟨hget, ?_, ?_⟩
  · rw [Store.deadline_store_of_ne _ _ (by simp [hne])]
  · intro k hk
    rw [Store.deadline_store_of_ne]
    rintro rfl
    simp [companions] at hk

theorem carries_extend_alert
    {id : Nat} (hid : id ∈ K) (ttl : Nat) :
    Carries K s (s.extend ledger (.alert id) ttl ttl) := by
  intro id' hid' cfg' hget
  have hne : id' ≠ id := by
    rintro rfl
    exact hid' hid
  simp only [State.persistent_extend, Store.get_extendTtl] at hget ⊢
  refine ⟨hget, ?_, ?_⟩
  · rw [Store.deadline_extendTtl_of_ne _ _ (by simp [hne])]
  · intro k _
    exact Store.deadline_le_extendTtl _ _ _ _ _

theorem carries_store
    {k : DataKey} (hk : ∀ id, k ≠ .alert id) (v : k.Value) (ttl : Nat) :
    Carries K s (s.store ledger k v ttl) := by
  refine carries_of_raised ?_ ?_ ?_
  · intro id
    exact Store.get_store_of_ne _ _ (hk id).symm _ _
  · intro id
    exact Store.deadline_store_of_ne _ _ (hk id).symm _ _
  · intro k'
    rw [State.persistent_store, Store.deadline_store]
    split_ifs
    · exact le_max_left _ _
    · exact le_refl _

theorem carries_extend
    {k : DataKey} (hk : ∀ id, k ≠ .alert id) (ttl : Nat) :
    Carries K s (s.extend ledger k ttl ttl) := by
  refine carries_of_raised ?_ ?_ ?_
  · intro id
    exact Store.get_extendTtl _ _ _ _ _ _
  · intro id
    exact Store.deadline_extendTtl_of_ne _ _ (hk id).symm _ _
  · intro k'
    exact Store.deadline_le_extendTtl _ _ _ _ _

theorem carries_remove_record
    {id : Nat} (hid : id ∈ K) :
    Carries K s ((s.remove (.alert id)).remove (.alertActive id)) := by
  intro id' hid' cfg' hget
  have hne : id' ≠ id := by
    rintro rfl
    exact hid' hid
  simp only [State.persistent_remove] at hget ⊢
  rw [Store.get_remove_of_ne _ (by simp), Store.get_remove_of_ne _ (by simp [hne])]
    at hget
  refine ⟨hget, ?_, ?_⟩
  · rw [Store.deadline_remove_of_ne _ (by simp),
      Store.deadline_remove_of_ne _ (by simp [hne])]
  · intro k hk
    rw [Store.deadline_remove, Store.deadline_remove]
    have hflag : k ≠ .alertActive id := by
      rintro rfl
      simp [companions, hne.symm] at hk
    have halert : k ≠ .alert id := by
      rintro rfl
      simp [companions] at hk
    simp [hflag, halert]

theorem deadline_relist
    (kind : IndexKind) (a : Address) (ids : List Nat) (k : DataKey) :
    (State.relist s ledger kind a ids).persistent.deadline k =
      if k = .index kind a then
        if ids = [] then 0
        else max (s.persistent.deadline k) (renewedDeadline ledger)
      else s.persistent.deadline k := by
  unfold State.relist
  by_cases hids : ids = []
  · simp only [hids, List.isEmpty_nil, if_true, State.persistent_remove,
      Store.deadline_remove]
  · have hempty : ids.isEmpty = false := by
      simpa using hids
    simp only [hempty, hids, if_false, Bool.false_eq_true,
      State.persistent_store, Store.deadline_store, renewedDeadline]

/-- Rewriting a list, which keeps every other alert that is on it. -/
theorem carries_relist
    {kind : IndexKind} {a : Address} {ids : List Nat}
    (hids : ∀ id cfg, id ∉ K → s.persistent.get (.alert id) = some cfg →
      cfg.party kind = a → id ∈ ids) :
    Carries K s (State.relist s ledger kind a ids) := by
  intro id hid cfg hget
  have hview : ∀ id, (State.relist s ledger kind a ids).persistent.get (.alert id) =
      s.persistent.get (.alert id) := by
    intro id
    have h := congrArg (fun r => r.table.row id)
      (view_relist s ledger kind a ids)
    exact h
  rw [hview] at hget
  refine ⟨hget, ?_, ?_⟩
  · rw [deadline_relist, if_neg (by simp)]
  · intro k hk
    rw [deadline_relist]
    split_ifs with hkey hnil
    · -- the list of the alert itself is not empty
      have hparty : cfg.party kind = a := by
        subst hkey
        cases kind with
        | owner => simpa [companions, AlertConfig.party, eq_comm] using hk
        | contract => simpa [companions, AlertConfig.party, eq_comm] using hk
      have hmem := hids id cfg hid hget hparty
      rw [hnil] at hmem
      exact absurd hmem List.not_mem_nil
    · exact le_max_left _ _
    · exact le_refl _

end Writes

section Lists

variable {K : Set Nat} (s : State) (ledger : Nat)

/-- Every live alert outside `K` is on the lists of its owner and target. -/
def ListedBut (K : Set Nat) (s : State) : Prop :=
  ∀ id cfg, id ∉ K → s.persistent.get (.alert id) = some cfg →
    ∀ kind, id ∈ s.view.table.index kind (cfg.party kind)

variable {s}

theorem listedBut_of_complete (h : s.view.Complete) : ListedBut K s := by
  intro id cfg _ hget kind
  exact h id cfg hget kind

theorem carries_file (kind : IndexKind) (a : Address) (id : Nat) :
    Carries K s (State.file s ledger kind a id) := by
  exact carries_store s ledger (by simp) _ _

theorem carries_unfile
    (h : ListedBut K s) {id : Nat} (hid : id ∈ K)
    (kind : IndexKind) (a : Address) :
    Carries K s (State.unfile s ledger kind a id) := by
  refine carries_relist s ledger ?_
  intro id' cfg hid' hget hparty
  have hne : id' ≠ id := by
    rintro rfl
    exact hid' hid
  have hmem := h id' cfg hid' hget kind
  rw [hparty] at hmem
  simpa [hne] using hmem

/-- Taking an id of `K` off a list leaves the others listed. -/
theorem listedBut_unfile
    (h : ListedBut K s) {id : Nat} (hid : id ∈ K)
    (kind : IndexKind) (a : Address) :
    ListedBut K (State.unfile s ledger kind a id) := by
  intro id' cfg hid' hget kind'
  have hne : id' ≠ id := by
    rintro rfl
    exact hid' hid
  have hrow : (State.unfile s ledger kind a id).view.table.row id' = some cfg := hget
  rw [view_unfile] at hrow ⊢
  have hmem := h id' cfg hid' hrow kind'
  simp only [Table.mem_index_unfile]
  exact ⟨hmem, fun h => hne h.2.2⟩

theorem deadline_file
    (kind : IndexKind) (a : Address) (id : Nat) (k : DataKey) :
    (State.file s ledger kind a id).persistent.deadline k =
      if k = .index kind a then
        max (s.persistent.deadline k) (renewedDeadline ledger)
      else s.persistent.deadline k := by
  simp only [State.file, State.persistent_store, Store.deadline_store,
    renewedDeadline]

/-- Moving an id of `K` between lists. -/
theorem carries_moved
    (h : ListedBut K s) {id : Nat} (hid : id ∈ K)
    (kind : IndexKind) (a b : Address) :
    Carries K s (State.moved s ledger kind id a b) := by
  exact (carries_unfile ledger h hid kind a).trans
    (carries_file ledger kind b id)

/-- Moving an id touches only the lists of its kind. -/
theorem deadline_moved_of_ne
    {kind : IndexKind} {k : DataKey} (hk : ∀ a, k ≠ .index kind a)
    (id : Nat) (a b : Address) :
    (State.moved s ledger kind id a b).persistent.deadline k =
      s.persistent.deadline k := by
  rw [State.moved, deadline_file, if_neg (hk b), State.unfile, deadline_relist,
    if_neg (hk a)]

/-- The list that an id is moved to is renewed; if the id was alone on it, it
starts anew. -/
theorem deadline_moved_self
    (kind : IndexKind) (id : Nat) (a b : Address) :
    (State.moved s ledger kind id a b).persistent.deadline (.index kind b) =
      max (if b = a ∧ (s.view.table.index kind b).filter (fun v => v ≠ id) = []
        then 0 else s.persistent.deadline (.index kind b))
        (renewedDeadline ledger) := by
  rw [State.moved, deadline_file, if_pos rfl, State.unfile, deadline_relist]
  by_cases hb : b = a
  · subst hb
    simp only [true_and, if_true]
    split_ifs
    · rfl
    · rw [max_assoc, max_self]
  · simp [hb]

/-- Pruning drops no live alert. -/
theorem carries_prunedFor
    (h : s.view.Complete) (owner : Address) :
    Carries K s (s.prunedFor ledger owner) := by
  unfold State.prunedFor
  split_ifs
  · refine carries_relist s ledger ?_
    intro id cfg _ hget hparty
    have hmem := h id cfg hget .owner
    rw [hparty] at hmem
    have hrow : s.view.table.row id = some cfg := hget
    simp [Registry.liveOf, Table.live, hmem, hrow]
  · exact Carries.refl K s

/-- The list that was pruned is renewed, or gone if nothing on it was live. -/
theorem deadline_prunedFor_self (owner : Address) :
    max ((s.prunedFor ledger owner).persistent.deadline (.ownerIndex owner))
        (renewedDeadline ledger) =
      max (if 0 < s.view.limit ∧ s.view.table.index .owner owner ≠ [] ∧
          s.view.liveOf owner = [] then 0
        else s.persistent.deadline (.ownerIndex owner))
        (renewedDeadline ledger) := by
  unfold State.prunedFor
  by_cases hlimit : 0 < s.view.limit
  · by_cases hlen : (s.view.liveOf owner).length =
        (s.view.table.index .owner owner).length
    · have hnot : ¬ (s.view.table.index .owner owner ≠ [] ∧
          s.view.liveOf owner = []) := by
        rintro ⟨hne, hnil⟩
        rw [hnil, List.length_nil] at hlen
        exact hne (List.length_eq_zero_iff.mp hlen.symm)
      simp [hlimit, hlen, hnot]
    · rw [if_pos ⟨hlimit, hlen⟩, deadline_relist, if_pos rfl]
      by_cases hnil : s.view.liveOf owner = []
      · have hne : s.view.table.index .owner owner ≠ [] := by
          intro hempty
          rw [hnil, hempty] at hlen
          exact hlen rfl
        simp [hlimit, hnil, hne]
      · simp [hnil]
  · simp [hlimit]

theorem deadline_prunedFor_of_ne
    {owner : Address} {k : DataKey} (hk : k ≠ .ownerIndex owner) :
    (s.prunedFor ledger owner).persistent.deadline k =
      s.persistent.deadline k := by
  unfold State.prunedFor
  split_ifs
  · rw [deadline_relist, if_neg hk]
  · rfl

end Lists

section Coherence

variable {s s' : State} (ledger : Nat)

theorem covered_of_eq
    (h : s'.persistent = s.persistent) (hs : Covered s) :
    Covered s' := by
  exact (carries_of_eq h).covered hs

/-- Alerts that are carried stay covered; the others are shown to be. -/
theorem Carries.covered_of
    {K : Set Nat} (h : Carries K s s') (hs : Covered s)
    (hK : ∀ id, id ∈ K → ∀ cfg, s'.persistent.get (.alert id) = some cfg →
      s'.persistent.Covers (companions id cfg) (.alert id)) :
    Covered s' := by
  intro id cfg hget
  by_cases hid : id ∈ K
  · exact hK id hid cfg hget
  · exact h.covers hs hid hget

/-- Ledgers may pass. -/
theorem covered_atLedger (h : Covered s) :
    Covered (s.atLedger ledger) := by
  intro id cfg hget
  exact (h id cfg (Store.get_of_get_purge hget)).purge ledger

/-- As long as alerts are covered, no list goes before an alert on it. -/
theorem complete_atLedger
    (h : Covered s) (hc : s.view.Complete) :
    (s.atLedger ledger).view.Complete := by
  refine complete_dropping s hc ?_
  intro id cfg hrow kind
  have hget : (s.atLedger ledger).persistent.get (.alert id) = some cfg := hrow
  have hpos := Store.deadline_pos_of_get hget
  have hcover := h id cfg (Store.get_of_get_purge hget)
  have hmem : DataKey.index kind (cfg.party kind) ∈ companions id cfg := by
    cases kind <;> simp [companions, AlertConfig.party]
  have hle := hcover _ hmem
  have hlive : ledger < s.persistent.deadline (.alert id) := by
    have hpurge := s.persistent.deadline_purge ledger (.alert id)
    by_contra hlapsed
    rw [if_pos (by omega)] at hpurge
    exact absurd hpos (by rw [State.atLedger, State.dropping, ← Store.purge, hpurge]; simp)
  by_contra hlapsed
  rw [Bool.not_eq_false, Store.lapsed_iff] at hlapsed
  omega

/-- A new alert lives exactly as long as what is written with it. -/
theorem covered_created
    (hs : s.view.Safe) (h : Covered s) (cfg : AlertConfig) :
    Covered (s.created ledger cfg) := by
  have hfresh : s.persistent.deadline (.alert s.view.nextId) = 0 := by
    have hnone := hs.within.row_eq_none (lt_irrefl s.view.nextId)
    by_contra hpos
    have hhas := (s.persistent.has_iff_deadline_pos (.alert s.view.nextId)).mpr
      (Nat.pos_of_ne_zero hpos)
    rw [Store.has_iff_get] at hhas
    obtain ⟨v, hv⟩ := hhas
    rw [view_row, hv] at hnone
    exact absurd hnone (by simp)
  have hcarry : Carries {s.view.nextId} s (s.created ledger cfg) := by
    have hflag : ∀ id, DataKey.alertActive s.view.nextId ≠ .alert id := by
      simp
    let s₁ : State := (s.setInst .nextId (s.view.nextId + 1)).extendInst ledger
      defaultTtl defaultTtl
    have h₁ : Carries {s.view.nextId} s s₁ := carries_of_eq rfl
    have h₂ := carries_store_alert s₁ ledger (Set.mem_singleton s.view.nextId)
      cfg defaultTtl
    have h₃ := h₁.trans (h₂.trans (carries_store _ ledger hflag true defaultTtl))
    have h₄ := h₃.trans (carries_file ledger .owner cfg.owner s.view.nextId)
    have h₅ := h₄.trans
      (carries_file ledger .contract cfg.targetContract s.view.nextId)
    exact h₅.trans (carries_of_eq (State.persistent_emit _ _))
  refine hcarry.covered_of h ?_
  rintro id rfl cfg' hget
  have hrow : (s.created ledger cfg).view.table.row s.view.nextId = some cfg' := hget
  rw [view_created, Registry.row_create, Function.update_self] at hrow
  obtain rfl := Option.some.inj hrow
  intro k hk
  simp only [companions, List.mem_cons, List.not_mem_nil, or_false] at hk
  rcases hk with rfl | rfl | rfl <;>
    simp [State.created, State.file, hfresh]

theorem covered_createdAll
    (cfgs : List AlertConfig) (hs : s.view.Safe) (h : Covered s) :
    Covered (State.createdAll ledger cfgs s) := by
  induction cfgs generalizing s with
  | nil => exact h
  | cons cfg rest ih =>
      refine ih ?_ (covered_created ledger hs h cfg)
      rw [view_created]
      exact hs.create cfg

theorem covered_erased
    (hc : s.view.Complete) (h : Covered s) (id : Nat) (cfg : AlertConfig) :
    Covered (s.erased ledger id cfg) := by
  have hlisted : ListedBut {id} ((s.remove (.alert id)).remove (.alertActive id)) := by
    intro id' cfg' hid' hget kind
    have hrow : (State.view ((s.remove (.alert id)).remove
        (.alertActive id))).table.row id' = some cfg' := hget
    rw [view_remove_record] at hrow ⊢
    have hne : id' ≠ id := hid'
    have hrow' : s.view.table.row id' = some cfg' := by
      simpa [hne] using hrow
    exact hc id' cfg' hrow' kind
  have hcarry : Carries {id} s (s.erased ledger id cfg) := by
    refine Carries.trans (carries_remove_record s rfl) ?_
    refine Carries.trans (carries_unfile ledger hlisted rfl .owner cfg.owner) ?_
    exact carries_unfile ledger (listedBut_unfile ledger hlisted rfl _ _) rfl _ _
  refine hcarry.covered_of h ?_
  rintro id' rfl cfg' hget
  have hrow : (s.erased ledger id' cfg).view.table.row id' = some cfg' := hget
  rw [view_erased, Registry.row_erase, Function.update_self] at hrow
  exact absurd hrow (by simp)

theorem carries_renewed
    {K : Set Nat} {id : Nat} (hid : id ∈ K) (cfg : AlertConfig) (ttl : Nat) :
    Carries K s (s.renewed ledger id cfg ttl) := by
  have hflag : ∀ id', DataKey.alertActive id ≠ .alert id' := by
    simp
  have hindex : ∀ kind a id', DataKey.index kind a ≠ .alert id' := by
    simp
  exact Carries.trans (carries_extend_alert s ledger hid ttl)
    (Carries.trans (carries_extend _ ledger hflag ttl)
    (Carries.trans (carries_extend _ ledger (hindex .owner cfg.owner) ttl)
      (carries_extend _ ledger (hindex .contract cfg.targetContract) ttl)))

/-- Extending an alert with its companions keeps all alerts covered. -/
theorem covered_renewed
    (h : Covered s) {id : Nat} {cfg : AlertConfig}
    (hget : s.persistent.get (.alert id) = some cfg) (ttl : Nat) :
    Covered (s.renewed ledger id cfg ttl) := by
  refine (carries_renewed ledger (K := {id}) rfl cfg ttl).covered_of h ?_
  rintro id' rfl cfg' hget'
  have hrow : (s.renewed ledger id' cfg ttl).view.table.row id' = some cfg' := hget'
  rw [view_renewed, view_row, hget] at hrow
  obtain rfl := Option.some.inj hrow
  have hcover := h id' cfg hget
  have halert : s.persistent.has (.alert id') = true :=
    (s.persistent.has_iff_get _).mpr ⟨cfg, hget⟩
  have hhas : ∀ k ∈ companions id' cfg, s.persistent.has k = true :=
    fun k hk => hcover.has halert hk
  simp only [companions, List.mem_cons, List.not_mem_nil, or_false,
    forall_eq_or_imp, forall_eq] at hhas
  refine hcover.renew (n := ledger + ttl + 1) ?_ ?_
  · simp [State.renewed, State.renewedLists, Store.deadline_extendTtl, halert]
  · intro k hk
    simp only [companions, List.mem_cons, List.not_mem_nil, or_false] at hk
    rcases hk with rfl | rfl | rfl <;>
      simp [State.renewed, State.renewedLists, Store.deadline_extendTtl, hhas]

theorem covered_bumped
    (h : Covered s) {id : Nat} {cfg : AlertConfig}
    (hget : s.persistent.get (.alert id) = some cfg) (ttl : Nat) :
    Covered (s.bumped ledger id cfg ttl) := by
  have hrenewed := covered_renewed ledger h hget ttl
  simp only [State.bumped]
  refine covered_of_eq (State.persistent_extendInst _ _ _ _) ?_
  split_ifs
  · exact (carries_extend _ ledger (by simp) ttl).covered hrenewed
  · exact hrenewed

theorem covered_renewedEach
    (ids : List Nat) (h : Covered s) :
    Covered (State.renewedEach ledger ids s) := by
  induction ids generalizing s with
  | nil => exact h
  | cons id rest ih =>
      rw [State.renewedEach]
      cases hget : s.persistent.get (.alert id) with
      | none => exact ih h
      | some cfg =>
          refine ih (covered_of_eq (State.persistent_emit _ _) ?_)
          exact covered_renewed ledger h hget defaultTtl

end Coherence

end AlertRegistry
end TxWatch
