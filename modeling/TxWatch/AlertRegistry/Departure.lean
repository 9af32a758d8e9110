import TxWatch.AlertRegistry.Coalitions

/-!
# An owner can always leave

As long as the registry is not paused and nothing expires, an owner who removes
the alerts that `get_alert_ids_by_owner` lists, one after the other, gets rid of
every one of them, whatever strangers call in between.
-/

namespace TxWatch
namespace AlertRegistry

open Soroban Soroban.Contract Indexed

/-- The alert that an owner takes away in a call of his own. -/
def Invocation.departs (owner : Address) (i : Invocation) : Option Nat :=
  match i.call with
  | .removeAlert caller id =>
      if caller = owner ∧ owner ∈ i.env.auths then some id else none
  | _ => none

/-- The alerts that an owner takes away along a run, in the order of the calls. -/
def departures (owner : Address) (is : List Invocation) : List Nat :=
  is.filterMap (Invocation.departs owner)

/-- A departure of the owner, if it is one, succeeds. -/
def DepartureSucceeds (owner : Address) (s : State) (i : Invocation) : Prop :=
  (i.departs owner).isSome → ∃ resp, (invoke i.env i.call s).1 = .ok resp

theorem departs_eq_some
    {owner : Address} {i : Invocation} {id : Nat} (h : i.departs owner = some id) :
    i.call = .removeAlert owner id ∧ owner ∈ i.env.auths := by
  obtain ⟨env, call⟩ := i
  cases call with
  | removeAlert caller id' =>
      simp only [Invocation.departs] at h
      split_ifs at h with howner
      obtain rfl := Option.some.inj h
      exact ⟨by rw [howner.1], howner.2⟩
  | _ => simp [Invocation.departs] at h

/-- `ids` are still there for the owner to take away, and `gone` are not. -/
structure Leaving (C : Set Address) (owner : Address) (ids gone : List Nat)
    (s : State) : Prop where
  leakless : s.Leakless
  reach : s.view.OutOfReach C
  unpaused : s.view.paused = false
  held : ∀ id ∈ ids, ∃ cfg, s.alertAt id = some cfg ∧ cfg.owner = owner
  gone : ∀ id ∈ gone, s.alertAt id = none ∧ id < s.view.nextId

section Departing

variable {C : Set Address} {owner : Address} {ids gone : List Nat} {s : State}
  {i : Invocation}

theorem paused_of_inst
    {r r' : Registry} (hinst : r'.inst .paused = r.inst .paused) :
    r'.paused = r.paused := by
  rw [Registry.paused, hinst, ← Registry.paused]

/-- Strangers neither take the alerts away nor bring them back. -/
theorem Leaving.stranger
    (h : Leaving C owner ids gone s) (howner : owner ∉ C)
    (hsigned : ∀ a ∈ i.env.auths, a ∈ C) :
    Leaving C owner ids gone (execCall s i) := by
  have hleakless := leakless_execCall s i h.leakless
  rcases invoke_refines i.env i.call s with ⟨resp, -, hstep⟩ | ⟨-, hview⟩
  · have hinst := hstep.keepsSettings h.reach hsigned
    have hrow : ∀ id, id < s.view.nextId →
        (∀ cfg, s.alertAt id = some cfg → cfg.owner ∉ C) →
        (execCall s i).alertAt id = s.alertAt id := fun id hid hothers =>
      (hstep.sparesOthers h.leakless.safe h.reach hsigned hid hothers).1
    refine ⟨hleakless, h.reach.of_inst hinst, ?_, ?_, ?_⟩
    · exact (paused_of_inst (hinst .paused (by simp))).trans h.unpaused
    · intro id hid
      obtain ⟨cfg, hlive, hcfg⟩ := h.held id hid
      have hlt : id < s.view.nextId := h.leakless.safe.within.row id (by
        rw [view_row]
        exact Option.isSome_of_eq_some hlive)
      refine ⟨cfg, ?_, hcfg⟩
      rw [hrow id hlt, hlive]
      intro cfg' hlive'
      obtain rfl := Option.some.inj (hlive.symm.trans hlive')
      rwa [hcfg]
    · intro id hid
      obtain ⟨hnone, hlt⟩ := h.gone id hid
      refine ⟨?_, hlt.trans_le (change_invoke s i.env i.call).nextId_le⟩
      rw [hrow id hlt, hnone]
      intro cfg hlive
      rw [hnone] at hlive
      cases hlive
  · refine ⟨hleakless, ?_, ?_, ?_, ?_⟩ <;> rw [execCall]
    · rw [hview]
      exact h.reach
    · rw [hview]
      exact h.unpaused
    · intro id hid
      have hsame := congrArg (fun r => r.table.row id) hview
      obtain ⟨cfg, hlive, hcfg⟩ := h.held id hid
      exact ⟨cfg, hsame.trans hlive, hcfg⟩
    · intro id hid
      have hsame := congrArg (fun r => r.table.row id) hview
      rw [hview]
      exact ⟨hsame.trans (h.gone id hid).1, (h.gone id hid).2⟩

/-- A departure succeeds and takes away what it names. -/
theorem Leaving.departs
    (h : Leaving C owner ids gone s) {id : Nat} (hdeparts : i.departs owner = some id)
    (hid : id ∈ ids) (hnodup : ids.Nodup) :
    (∃ resp, (invoke i.env i.call s).1 = .ok resp) ∧
      Leaving C owner (ids.erase id) (id :: gone) (execCall s i) := by
  obtain ⟨hcall, hauth⟩ := departs_eq_some hdeparts
  obtain ⟨cfg, hlive, hcfg⟩ := h.held id hid
  obtain ⟨hok, -, hview⟩ := invoke_of_step h.leakless
    (Registry.Step.remove h.unpaused hauth hlive hcfg)
  rw [← hcall] at hok hview
  have hafter : (execCall s i).view = s.view.erase id cfg := hview
  have hrow : ∀ id', (execCall s i).alertAt id' =
      Function.update s.alertAt id none id' := by
    intro id'
    exact congrArg (fun r : Registry => r.table.row id') hafter
  refine ⟨⟨.unit, hok⟩, leakless_execCall s i h.leakless, ?_, ?_, ?_, ?_⟩
  · rw [hafter]
    exact h.reach
  · rw [hafter]
    exact h.unpaused
  · intro id' hid'
    rw [hnodup.mem_erase_iff] at hid'
    obtain ⟨cfg', hlive', hcfg'⟩ := h.held id' hid'.2
    refine ⟨cfg', ?_, hcfg'⟩
    rw [hrow, Function.update_of_ne hid'.1, hlive']
  · intro id' hid'
    have hlt : ∀ {id' : Nat}, id' < s.view.nextId →
        id' < (execCall s i).view.nextId := fun h => by
      rw [hafter]
      exact h
    rcases List.mem_cons.mp hid' with rfl | hgone
    · refine ⟨by rw [hrow, Function.update_self], hlt ?_⟩
      exact h.leakless.safe.within.row id' (by
        rw [view_row]
        exact Option.isSome_of_eq_some hlive)
    · obtain ⟨hnone, hissued⟩ := h.gone id' hgone
      refine ⟨?_, hlt hissued⟩
      rw [hrow]
      by_cases he : id' = id
      · rw [he, Function.update_self]
      · rw [Function.update_of_ne he, hnone]

/-- Departures amid the calls of strangers all succeed. -/
theorem Leaving.run
    (h : Leaving C owner ids gone s) (howner : owner ∉ C) (hnodup : ids.Nodup)
    {is : List Invocation} (hperm : (departures owner is).Perm ids)
    (hothers : ∀ i ∈ is, i.departs owner = none → ∀ a ∈ i.env.auths, a ∈ C) :
    Along execCall (DepartureSucceeds owner) s is ∧
      (run execCall s is).Leakless ∧
      ∀ id, id ∈ ids ∨ id ∈ gone → (run execCall s is).alertAt id = none := by
  induction is generalizing s ids gone with
  | nil =>
      obtain rfl : ids = [] := List.nil_perm.mp hperm
      refine ⟨trivial, h.leakless, ?_⟩
      rintro id (hid | hid)
      · exact absurd hid List.not_mem_nil
      · exact (h.gone id hid).1
  | cons i is ih =>
      obtain ⟨hi, hrest⟩ := List.forall_mem_cons.mp hothers
      cases hdeparts : i.departs owner with
      | none =>
          have hperm' : (departures owner is).Perm ids := by
            rwa [departures, List.filterMap_cons_none hdeparts] at hperm
          obtain ⟨halong, hend⟩ :=
            ih (h.stranger howner (hi hdeparts)) hnodup hperm' hrest
          refine ⟨⟨?_, halong⟩, hend⟩
          intro hsome
          rw [hdeparts] at hsome
          cases hsome
      | some id =>
          rw [departures, List.filterMap_cons_some hdeparts] at hperm
          have hid : id ∈ ids := hperm.subset List.mem_cons_self
          have hperm' : (departures owner is).Perm (ids.erase id) :=
            List.cons_perm_iff_perm_erase.mp hperm |>.2
          obtain ⟨hok, hafter⟩ := h.departs hdeparts hid hnodup
          obtain ⟨halong, hleakless, hgone⟩ :=
            ih hafter (hnodup.erase id) hperm' hrest
          refine ⟨⟨fun _ => hok, halong⟩, hleakless, ?_⟩
          rintro id' (hid' | hid')
          · by_cases he : id' = id
            · exact hgone id' (Or.inr (by simp [he]))
            · exact hgone id' (Or.inl ((hnodup.mem_erase_iff).mpr ⟨he, hid'⟩))
          · exact hgone id' (Or.inr (List.mem_cons_of_mem _ hid'))

end Departing

/-- Take any state reached without expiry in which the registry has an admin and is
not paused, an owner, and a coalition to which neither the owner nor an admin
belongs.  If the owner removes the alerts that the registry lists for him, each
once and in any order, every removal succeeds, whatever the coalition calls in
between, and nothing is left of these alerts. -/
theorem owner_can_leave
    {steps : List Step} (hsteps : ∀ st ∈ steps, st.isCall)
    {C : Set Address} {owner : Address} (howner : owner ∉ C)
    (hreach : (run exec State.empty steps).view.OutOfReach C)
    (hpaused : (run exec State.empty steps).view.paused = false)
    {env : Env} {ids : List Nat}
    (hids : (invoke env (.getAlertIdsByOwner owner)
      (run exec State.empty steps)).1 = .ok (.numbers ids))
    {is : List Invocation} (hperm : (departures owner is).Perm ids)
    (hothers : ∀ i ∈ is, i.departs owner = none → ∀ a ∈ i.env.auths, a ∈ C) :
    Along execCall (DepartureSucceeds owner) (run exec State.empty steps) is ∧
      ∀ id ∈ ids,
        (run execCall (run exec State.empty steps) is).persistent.has
            (.alert id) = false ∧
          (run execCall (run exec State.empty steps) is).persistent.has
            (.alertActive id) = false := by
  have hleakless := leakless_run hsteps
  rw [invoke_getAlertIdsByOwner] at hids
  obtain rfl := Response.numbers.inj (Except.ok.inj hids)
  have hheld : ∀ id ∈ (run exec State.empty steps).view.table.live
        ((run exec State.empty steps).listed .owner owner),
      ∃ cfg, (run exec State.empty steps).alertAt id = some cfg ∧
        cfg.owner = owner := by
    intro id hid
    obtain ⟨hmem, hlive⟩ := Table.mem_live.mp hid
    obtain ⟨cfg, hrow⟩ := Option.isSome_iff_exists.mp hlive
    exact ⟨cfg, hrow, hleakless.safe.sound.party_eq .owner owner id cfg hmem hrow⟩
  have hnodup := (hleakless.safe.sound.nodup .owner owner).filter
    (fun id => ((run exec State.empty steps).view.table.row id).isSome)
  have hleaving : Leaving C owner _ [] (run exec State.empty steps) :=
    ⟨hleakless, hreach, hpaused, hheld, fun _ hid => absurd hid List.not_mem_nil⟩
  obtain ⟨halong, hend, hgone⟩ := hleaving.run howner hnodup hperm hothers
  refine ⟨halong, ?_⟩
  intro id hid
  have hnone := hgone id (Or.inl hid)
  have hnot : ∀ cfg, (run execCall (run exec State.empty steps) is).alertAt id ≠
      some cfg := by
    intro cfg hlive
    rw [hnone] at hlive
    cases hlive
  refine ⟨?_, ?_⟩ <;> rw [← Bool.not_eq_true, hend.has_iff]
  · rintro ⟨cfg, hlive⟩
    exact hnot cfg hlive
  · rintro ⟨cfg, hlive⟩
    exact hnot cfg hlive

/-- An owner leaves while a stranger registers. -/
theorem alice_leaves :
    (run execCall (run exec State.empty settledRun)
        [⟨envAt 3 [bob], sampleRegister bob pool⟩,
          ⟨envAt 4 [alice], .removeAlert alice 0⟩]).persistent.has (.alert 0) =
      false := by
  have hids : (invoke (envAt 3 []) (.getAlertIdsByOwner alice)
      (run exec State.empty settledRun)).1 = .ok (.numbers [0]) := by
    decide
  exact ((owner_can_leave (by simp [settledRun, Step.isCall]) (by decide)
    outOfReach_settledRun (by decide) hids (by decide)
    (by simp [Invocation.departs, sampleRegister, envAt])).2 0 (by decide)).1

end AlertRegistry
end TxWatch
