import TxWatch.AlertRegistry.ActiveFlag
import TxWatch.AlertRegistry.Readings
import TxWatch.AlertRegistry.IndexCoherence
import TxWatch.AlertRegistry.Values

/-!
# Deactivating all alerts of an owner

The loop of `deactivate_all_alerts` goes over the owner's list.  As long as
nothing expires that list holds exactly the ids of the owner's alerts, each
once, so that the loop reaches all of them and counts those that it changes.
-/

namespace TxWatch
namespace AlertRegistry

open Soroban Soroban.Contract Indexed

section Loop

variable {env : Env} {s : State}

theorem isActive_eq_false_iff (id : Nat) :
    s.view.isActive id = false ↔
      ∀ cfg, s.persistent.get (.alert id) = some cfg → cfg.active = false := by
  cases hget : s.persistent.get (.alert id) with
  | none => simp [Registry.isActive, view_row, hget]
  | some cfg => simp [Registry.isActive, view_row, hget]

/-- A round that finds no active alert writes nothing. -/
theorem deactivatedOne_of_inactive
    (ledger now : Nat) {id : Nat} (h : s.view.isActive id = false) :
    State.deactivatedOne ledger now id s = s := by
  rw [isActive_eq_false_iff] at h
  unfold State.deactivatedOne
  cases hget : s.persistent.get (.alert id) with
  | none => rfl
  | some cfg =>
      have hinactive := h cfg hget
      simp [hinactive]

theorem deactivatedEach_of_inactive
    (ledger now : Nat) {ids : List Nat}
    (h : ∀ id ∈ ids, s.view.isActive id = false) :
    State.deactivatedEach ledger now ids s = s := by
  induction ids with
  | nil => rfl
  | cons id rest ih =>
      rw [State.deactivatedEach,
        deactivatedOne_of_inactive ledger now (h id List.mem_cons_self)]
      exact ih fun id' hid' => h id' (List.mem_cons_of_mem _ hid')

/-- The call on an unpaused contract, signed by the owner. -/
theorem invoke_deactivateAllAlerts
    {caller : Address} (hopen : s.view.paused = false)
    (hauth : caller ∈ env.auths)
    (hnodup : (s.listed .owner caller).Nodup) :
    invoke env (.deactivateAllAlerts caller) s =
      (.ok (.number ((s.listed .owner caller).filter s.view.isActive).length),
        State.deactivatedEach env.sequence env.timestamp
          (s.listed .owner caller) s.silenced) := by
  apply invoke_of_returns
  simp only [dispatch, returns_respond, returns_deactivateAllAlerts]
  refine ⟨_, ⟨hopen, hauth, rfl, rfl⟩, congrArg Response.number ?_⟩
  exact (s.view.card_activeAmong_of_nodup hnodup).symm

end Loop

section Completeness

variable {s : State} {caller : Address}

/-- The owner's list holds the ids of the owner's active alerts. -/
theorem mem_filter_isActive
    (hs : s.view.Safe) (hc : s.view.Complete) (id : Nat) :
    id ∈ (s.listed .owner caller).filter s.view.isActive ↔
      ∃ cfg, s.alertAt id = some cfg ∧ cfg.owner = caller ∧ cfg.active = true := by
  rw [List.mem_filter]
  constructor
  · rintro ⟨hmem, hactive⟩
    cases hrow : s.view.table.row id with
    | none => simp [Registry.isActive, hrow] at hactive
    | some cfg =>
        have howner := hs.sound.party_eq .owner caller id cfg hmem hrow
        refine ⟨cfg, hrow, howner, ?_⟩
        simpa [Registry.isActive, hrow] using hactive
  · rintro ⟨cfg, hrow, rfl, hactive⟩
    have hget : s.view.table.row id = some cfg := hrow
    exact ⟨hc id cfg hrow .owner, by simp [Registry.isActive, hget, hactive]⟩

/-- As many as the active alerts of the owner. -/
theorem length_filter_isActive
    (hs : s.view.Safe) (hc : s.view.Complete) :
    (((s.listed .owner caller).filter s.view.isActive).length : ℕ∞) =
      {id | ∃ cfg, s.alertAt id = some cfg ∧ cfg.owner = caller ∧
        cfg.active = true}.encard := by
  have hnodup : ((s.listed .owner caller).filter s.view.isActive).Nodup :=
    List.Nodup.filter _ (hs.sound.nodup .owner caller)
  have hset : {id | ∃ cfg, s.alertAt id = some cfg ∧ cfg.owner = caller ∧
      cfg.active = true} =
        ↑((s.listed .owner caller).filter s.view.isActive).toFinset := by
    ext id
    rw [List.coe_toFinset, Set.mem_ofPred_eq, Set.mem_ofPred_eq,
      mem_filter_isActive hs hc]
  rw [hset, Set.encard_coe_eq_coe_finsetCard,
    List.toFinset_card_of_nodup hnodup]

/-- What the call leaves under an id. -/
theorem alertAt_deactivatedEach
    (hs : s.view.Safe) (hc : s.view.Complete) (ledger now : Nat)
    {id : Nat} {cfg : AlertConfig} (hrow : s.alertAt id = some cfg) :
    State.alertAt (State.deactivatedEach ledger now (s.listed .owner caller)
        s.silenced) id =
      some (if cfg.owner = caller then cfg.deactivated now else cfg) := by
  have hview := view_deactivatedEach ledger now (s.listed .owner caller) s.silenced
  have hget : s.view.table.row id = some cfg := hrow
  have hafter := congrFun (congrArg (fun r => r.table.row) hview) id
  have hmem : id ∈ s.listed .owner caller ↔ caller = cfg.owner :=
    mem_listed_iff hs hc hrow .owner caller
  refine hafter.trans ?_
  simp only [Registry.deactivate, view_silenced, hget, hmem, Option.map_some]
  by_cases howner : cfg.owner = caller
  · rw [if_pos howner, if_pos howner.symm]
  · rw [if_neg howner, if_neg (fun h => howner h.symm)]

/-- Afterwards no alert of the owner is active. -/
theorem isActive_deactivatedEach
    (ledger now : Nat) (ids : List Nat) {id : Nat} (hid : id ∈ ids) :
    (State.deactivatedEach ledger now ids s).view.isActive id = false := by
  rw [view_deactivatedEach]
  cases hrow : s.view.table.row id with
  | none => simp [Registry.isActive, Registry.deactivate, hid, hrow]
  | some cfg =>
      simp [Registry.isActive, Registry.deactivate, hid, hrow,
        AlertConfig.active_deactivated]

/-- The flags agree with the records in every state that calls lead to. -/
theorem flagsAgree_run
    {steps : List Step} (hsteps : ∀ st ∈ steps, st.isCall) :
    (run exec State.empty steps).view.FlagsAgree := by
  exact run_induction (fun _ => rfl) flagsAgree_exec hsteps

theorem alertActive_of_alertAt
    {id : Nat} {cfg : AlertConfig} (hflags : s.view.FlagsAgree)
    (hrow : s.alertAt id = some cfg) :
    s.persistent.get (.alertActive id) = some cfg.active := by
  have hflag := hflags id
  have hget : s.view.table.row id = some cfg := hrow
  rw [hget] at hflag
  exact hflag

end Completeness

/-- The storage `s'` is left by a deactivation of all alerts of `caller` in `s`
that changed `n` of them: none of them is active any more, the `n` that were
have been switched off now, and all other alerts are as they were. -/
structure DeactivatesAll (now : Nat) (caller : Address) (s s' : State) (n : Nat) :
    Prop where
  inactive : ∀ id cfg, s'.alertAt id = some cfg → cfg.owner = caller →
    cfg.active = false ∧ s'.persistent.get (.alertActive id) = some false
  counted : (n : ℕ∞) =
    {id | ∃ cfg, s.alertAt id = some cfg ∧ cfg.owner = caller ∧
      cfg.active = true}.encard
  deactivated : ∀ id cfg, s.alertAt id = some cfg → cfg.owner = caller →
    cfg.active = true →
    s'.alertAt id = some { cfg with active := false, updatedAt := now }
  kept : ∀ id cfg, s.alertAt id = some cfg →
    (cfg.owner ≠ caller ∨ cfg.active = false) →
    s'.alertAt id = some cfg ∧
      s'.persistent.get (.alertActive id) = s.persistent.get (.alertActive id)

section Completeness

variable {s : State} {caller : Address}

/-- In storage with complete lists and true flags, the loop over the owner's
list deactivates all alerts of the owner. -/
theorem deactivatesAll_deactivatedEach
    (hs : s.view.Safe) (hc : s.view.Complete) (hflags : s.view.FlagsAgree)
    (ledger now : Nat) :
    DeactivatesAll now caller s
      (State.deactivatedEach ledger now (s.listed .owner caller) s.silenced)
      ((s.listed .owner caller).filter s.view.isActive).length := by
  have hview := view_deactivatedEach ledger now (s.listed .owner caller) s.silenced
  have hflags' : (State.deactivatedEach ledger now (s.listed .owner caller)
      s.silenced).view.FlagsAgree := by
    rw [hview]
    exact hflags.deactivate now _
  have hrow := fun {id cfg} =>
    @alertAt_deactivatedEach s caller hs hc ledger now id cfg
  refine ⟨?_, length_filter_isActive hs hc, ?_, ?_⟩
  · intro id cfg' hafter howner
    cases hbefore : s.alertAt id with
    | none =>
        -- The loop creates no alert.
        have hget : s.view.table.row id = none := hbefore
        have hnone := congrFun (congrArg (fun r => r.table.row) hview) id
        have hsome : (State.deactivatedEach ledger now (s.listed .owner caller)
            s.silenced).view.table.row id = some cfg' := hafter
        simp [hsome, Registry.deactivate, hget] at hnone
    | some cfg =>
        have hcfg := hafter.symm.trans (hrow hbefore)
        have hinactive : cfg'.active = false := by
          obtain rfl := Option.some.inj hcfg
          by_cases hcaller : cfg.owner = caller
          · rw [if_pos hcaller]
            exact cfg.active_deactivated now
          · rw [if_neg hcaller] at howner
            exact absurd howner hcaller
        have hflag := alertActive_of_alertAt hflags' hafter
        rw [hinactive] at hflag
        exact ⟨hinactive, hflag⟩
  · intro id cfg hbefore howner hactive
    rw [hrow hbefore, if_pos howner, AlertConfig.deactivated, if_pos hactive]
  · intro id cfg hbefore hother
    have hsame : State.alertAt (State.deactivatedEach ledger now
        (s.listed .owner caller) s.silenced) id = some cfg := by
      rw [hrow hbefore]
      rcases hother with hother | hinactive
      · rw [if_neg hother]
      · simp [AlertConfig.deactivated, hinactive]
    refine ⟨hsame, ?_⟩
    rw [alertActive_of_alertAt hflags' hsame, alertActive_of_alertAt hflags hbefore]

/-- On an unpaused contract in which nothing has expired, `deactivate_all_alerts`
deactivates every alert of its caller, counts those that were active, and leaves
all others alone.  Called again it returns 0 and changes no value. -/
theorem deactivates_all
    (steps : List Step) (hsteps : ∀ st ∈ steps, st.isCall)
    (env : Env) (caller : Address)
    (hopen : (run exec State.empty steps).view.paused = false)
    (hauth : caller ∈ env.auths) :
    ∃ n, (invoke env (.deactivateAllAlerts caller)
        (run exec State.empty steps)).1 = .ok (.number n) ∧
      DeactivatesAll env.timestamp caller (run exec State.empty steps)
        (invoke env (.deactivateAllAlerts caller)
          (run exec State.empty steps)).2 n ∧
      ∀ env' : Env, caller ∈ env'.auths →
        (invoke env' (.deactivateAllAlerts caller)
          (invoke env (.deactivateAllAlerts caller)
            (run exec State.empty steps)).2).1 = .ok (.number 0) ∧
        State.SameValues
          (invoke env (.deactivateAllAlerts caller)
            (run exec State.empty steps)).2
          (invoke env' (.deactivateAllAlerts caller)
            (invoke env (.deactivateAllAlerts caller)
              (run exec State.empty steps)).2).2 := by
  have hs := safe_run steps
  have hc := complete_run fun st hst => Step.keepsIndexes_of_isCall (hsteps st hst)
  have hflags := flagsAgree_run hsteps
  generalize run exec State.empty steps = s at hopen hs hc hflags ⊢
  have hnodup : (s.listed .owner caller).Nodup := hs.sound.nodup .owner caller
  rw [invoke_deactivateAllAlerts hopen hauth hnodup]
  refine ⟨_, rfl, deactivatesAll_deactivatedEach hs hc hflags _ _, ?_⟩
  intro env' hauth'
  have hview := view_deactivatedEach env.sequence env.timestamp
    (s.listed .owner caller) s.silenced
  have hlisted : State.listed (State.deactivatedEach env.sequence env.timestamp
      (s.listed .owner caller) s.silenced) .owner caller = s.listed .owner caller :=
    congrArg (fun r => r.table.index .owner caller) hview
  have hnone : ∀ id ∈ s.listed .owner caller,
      (State.deactivatedEach env.sequence env.timestamp
        (s.listed .owner caller) s.silenced).view.isActive id = false := by
    intro id hid
    exact isActive_deactivatedEach _ _ _ hid
  have hsecond := @invoke_deactivateAllAlerts env'
    (State.deactivatedEach env.sequence env.timestamp (s.listed .owner caller)
      s.silenced) caller
    ((congrArg Registry.paused hview).trans hopen) hauth'
    (by rw [hlisted]; exact hnodup)
  have hzero : (s.listed .owner caller).filter
      (State.deactivatedEach env.sequence env.timestamp
        (s.listed .owner caller) s.silenced).view.isActive = [] := by
    rw [List.filter_eq_nil_iff]
    intro id hid hactive
    rw [hnone id hid] at hactive
    cases hactive
  have hkept := @deactivatedEach_of_inactive
    (State.deactivatedEach env.sequence env.timestamp
      (s.listed .owner caller) s.silenced).silenced env'.sequence env'.timestamp
    (s.listed .owner caller) hnone
  rw [hlisted, hzero, hkept] at hsecond
  rw [hsecond]
  exact ⟨rfl, fun _ => rfl, fun _ => rfl⟩

/-- Alice owns an active alert and an inactive one, and Bob an active one. -/
def mixedRun : List Step :=
  [.call (envAt 1 [alice]) (sampleRegister alice pool),
    .call (envAt 2 [alice]) (sampleRegister alice vault),
    .call (envAt 3 [bob]) (sampleRegister bob pool),
    .call (envAt 4 [alice]) (.updateAlert alice 1 [ruleMint] false)]

theorem deactivates_all_mixedRun :
    ∃ n, DeactivatesAll 25 alice (run exec State.empty mixedRun)
      (invoke (envAt 5 [alice]) (.deactivateAllAlerts alice)
        (run exec State.empty mixedRun)).2 n := by
  obtain ⟨n, -, hall, -⟩ := deactivates_all mixedRun
    (by simp [mixedRun, Step.isCall]) (envAt 5 [alice]) alice (by rfl) (by decide)
  exact ⟨n, hall⟩

end Completeness

end AlertRegistry
end TxWatch
