import TxWatch.AlertRegistry.Lifetimes
import TxWatch.AlertRegistry.IndexCoherence

/-!
# Calls that renew an alert without all of its companions

Every function that touches an alert chooses by hand which of its companions it
renews with it.  `Renews` says which calls renew the record of a live alert,
`Call.unrenewed` what they leave alone, and `KeepsUp` when that is harmless:
what is left alone must already live as long as the renewed alert will.

This module treats the calls that leave the alert on its lists.
-/

namespace TxWatch
namespace AlertRegistry

open Soroban Soroban.Contract Indexed

section Condition

/-- Companions of an alert that a call leaves alone when it renews the alert. -/
def Call.unrenewed (id : Nat) (cfg : AlertConfig) : Call → List DataKey
  | .getAlert _ | .proposeWebhook _ _ _ | .confirmWebhook _ _
  | .updateTags _ _ _ =>
      [.alertActive id, .ownerIndex cfg.owner, .contractIndex cfg.targetContract]
  | .updateWebhook _ _ _ | .updateLabel _ _ _ => [.alertActive id]
  | .pauseAlert _ _ | .unpauseAlert _ _ | .deactivateAllAlerts _ =>
      [.ownerIndex cfg.owner, .contractIndex cfg.targetContract]
  | .updateTargetContract _ _ _ => [.alertActive id, .ownerIndex cfg.owner]
  | .transferAlertOwnership _ _ _ =>
      [.alertActive id, .contractIndex cfg.targetContract]
  | _ => []

/-- First ledger at which the list that an alert moves to would be gone, just
before the alert is appended to it.  A list from which the call first takes the
last id starts anew. -/
def State.receiving (s : State) (id : Nat) (cfg : AlertConfig) :
    Call → Option Nat
  | .updateTargetContract _ _ newTarget =>
      some (if newTarget = cfg.targetContract ∧
          (s.listed .contract newTarget).filter (fun v => v ≠ id) = [] then 0
        else s.persistent.deadline (.contractIndex newTarget))
  | .transferAlertOwnership _ _ newOwner =>
      some (if 0 < s.view.limit ∧ s.listed .owner newOwner ≠ [] ∧
          liveIds s (s.listed .owner newOwner) = [] then 0
        else s.persistent.deadline (.ownerIndex newOwner))
  | _ => none

/-- The call passes its checks and writes or extends the record `cfg` of a live
alert by the default lifetime, leaving it to the entry point which companions
are renewed too.  (`bump_alert` and `bulk_renew_ttl` extend all of them.) -/
inductive Renews (env : Env) (r : Registry) : Call → Nat → AlertConfig → Prop
  | read {id : Nat} {cfg : AlertConfig} :
      r.table.row id = some cfg →
      Renews env r (.getAlert id) id cfg
  | amend {call : Call} {caller : Address} {id : Nat} {cfg cfg' : AlertConfig} :
      call.amends = some (caller, id) →
      call.Checked →
      (call.asksPaused = true → r.paused = false) →
      caller ∈ env.auths →
      r.table.row id = some cfg →
      cfg.owner = caller →
      call.amended env.timestamp cfg = some cfg' →
      Renews env r call id cfg
  | activate {call : Call} {admin : Address} {id : Nat} {active : Bool}
      {cfg : AlertConfig} :
      call.activates = some (admin, id, active) →
      admin ∈ env.auths →
      r.IsAdmin admin →
      r.table.row id = some cfg →
      Renews env r call id cfg
  | deactivateAll {caller : Address} {id : Nat} {cfg : AlertConfig} :
      r.paused = false →
      caller ∈ env.auths →
      id ∈ r.table.index .owner caller →
      r.table.row id = some cfg →
      cfg.active = true →
      Renews env r (.deactivateAllAlerts caller) id cfg
  | retarget {caller newTarget : Address} {id : Nat} {cfg : AlertConfig} :
      r.paused = false →
      caller ∈ env.auths →
      r.table.row id = some cfg →
      cfg.owner = caller →
      Renews env r (.updateTargetContract caller id newTarget) id cfg
  | reown {owner newOwner : Address} {id : Nat} {cfg : AlertConfig} :
      newOwner ≠ owner →
      r.paused = false →
      owner ∈ env.auths →
      r.table.row id = some cfg →
      cfg.owner = owner →
      r.Fits newOwner 1 →
      Renews env r (.transferAlertOwnership owner id newOwner) id cfg

/-- What the call leaves alone lives long enough, and if it moves the alert, the
alert does not outlive its new list. -/
structure KeepsUp (s : State) (ledger : Nat) (call : Call) (id : Nat)
    (cfg : AlertConfig) : Prop where
  unrenewed : ∀ k ∈ call.unrenewed id cfg,
    renewedDeadline ledger ≤ s.persistent.deadline k
  receiving : ∀ d, s.receiving id cfg call = some d →
    s.persistent.deadline (.alert id) ≤ max d (renewedDeadline ledger)

/-- Every alert that the call renews is kept up with. -/
def RenewsInStep (s : State) (i : Invocation) : Prop :=
  ∀ id cfg,
    Renews i.env (s.atLedger i.env.sequence).view i.call id cfg →
    KeepsUp (s.atLedger i.env.sequence) i.env.sequence i.call id cfg

theorem Renews.row
    {env : Env} {r : Registry} {call : Call} {id : Nat} {cfg : AlertConfig}
    (h : Renews env r call id cfg) :
    r.table.row id = some cfg := by
  cases h <;> assumption

/-- The alert a call names, when it renews no other. -/
def Call.subject : Call → Option Nat
  | .getAlert id | .updateAlert _ id _ _ | .updateWebhook _ id _
  | .proposeWebhook _ id _ | .confirmWebhook _ id | .updateLabel _ id _
  | .updateTags _ id _ | .pauseAlert _ id | .unpauseAlert _ id
  | .updateTargetContract _ id _ | .transferAlertOwnership _ id _ => some id
  | _ => none

theorem subject_of_amends
    {call : Call} {caller : Address} {id : Nat}
    (h : call.amends = some (caller, id)) :
    call.subject = some id := by
  cases call <;> simp_all [Call.amends, Call.subject]

theorem subject_of_activates
    {call : Call} {admin : Address} {id : Nat} {active : Bool}
    (h : call.activates = some (admin, id, active)) :
    call.subject = some id := by
  cases call <;> simp_all [Call.activates, Call.subject]

/-- But for `deactivate_all_alerts`, a call renews only the alert it names. -/
theorem Renews.eq_subject
    {env : Env} {r : Registry} {call : Call} {id id' : Nat}
    {cfg cfg' : AlertConfig}
    (h : Renews env r call id cfg) (hcall : call.subject = some id')
    (hrow : r.table.row id' = some cfg') :
    id = id' ∧ cfg = cfg' := by
  have hid : call.subject = some id := by
    cases h with
    | read => rfl
    | amend hamend => exact subject_of_amends hamend
    | activate hact => exact subject_of_activates hact
    | deactivateAll => simp [Call.subject] at hcall
    | retarget => rfl
    | reown => rfl
  obtain rfl := Option.some.inj (hid.symm.trans hcall)
  exact ⟨rfl, Option.some.inj (h.row.symm.trans hrow)⟩

end Condition

section Steps

variable {env : Env} {s s' : State} {call : Call}

/-- A call whose effect on every alert it renews is known, and which carries
all others. -/
theorem covered_iff_of_renews
    (h : Covered s)
    (hcarry : Carries {id | ∃ cfg, Renews env s.view call id cfg} s s')
    (hnew : ∀ id cfg, Renews env s.view call id cfg →
      ∃ cfg', s'.persistent.get (.alert id) = some cfg' ∧
        (s'.persistent.Covers (companions id cfg') (.alert id) ↔
          KeepsUp s env.sequence call id cfg)) :
    Covered s' ↔
      ∀ id cfg, Renews env s.view call id cfg →
        KeepsUp s env.sequence call id cfg := by
  constructor
  · intro h' id cfg hrenews
    obtain ⟨cfg', hget, hiff⟩ := hnew id cfg hrenews
    exact hiff.mp (h' id cfg' hget)
  · intro hkeeps
    refine hcarry.covered_of h ?_
    rintro id ⟨cfg, hrenews⟩ cfg' hget
    obtain ⟨cfg'', hget'', hiff⟩ := hnew id cfg hrenews
    obtain rfl := Option.some.inj (hget.symm.trans hget'')
    exact hiff.mpr (hkeeps id cfg hrenews)

/-- The case of a single alert. -/
theorem covered_iff_of_subject
    {id : Nat} {cfg cfg' : AlertConfig}
    (h : Covered s) (hrenews : Renews env s.view call id cfg)
    (hcall : call.subject = some id)
    (hcarry : Carries {id} s s')
    (hget : s'.persistent.get (.alert id) = some cfg')
    (hiff : s'.persistent.Covers (companions id cfg') (.alert id) ↔
      KeepsUp s env.sequence call id cfg) :
    Covered s' ↔
      ∀ id cfg, Renews env s.view call id cfg →
        KeepsUp s env.sequence call id cfg := by
  have hK : {id' | ∃ cfg, Renews env s.view call id' cfg} = {id} := by
    ext id'
    constructor
    · rintro ⟨cfg'', h''⟩
      exact (h''.eq_subject hcall hrenews.row).1
    · rintro rfl
      exact ⟨cfg, hrenews⟩
  refine covered_iff_of_renews h (hK ▸ hcarry) ?_
  intro id' cfg'' h''
  obtain ⟨rfl, rfl⟩ := h''.eq_subject hcall hrenews.row
  exact ⟨cfg', hget, hiff⟩

/-- Renewing an alert in place. -/
theorem covers_iff_keepsUp
    (h : Covered s) {id : Nat} {cfg : AlertConfig}
    (hget : s.persistent.get (.alert id) = some cfg)
    (hreceiving : s.receiving id cfg call = none)
    (hleft : ∀ k ∈ call.unrenewed id cfg, k ∈ companions id cfg)
    (hk : s'.persistent.deadline (.alert id) =
      max (s.persistent.deadline (.alert id)) (renewedDeadline env.sequence))
    (hks : ∀ k ∈ companions id cfg,
      (k ∈ call.unrenewed id cfg ∧
        s'.persistent.deadline k = s.persistent.deadline k) ∨
      (k ∉ call.unrenewed id cfg ∧
        s'.persistent.deadline k =
          max (s.persistent.deadline k) (renewedDeadline env.sequence))) :
    s'.persistent.Covers (companions id cfg) (.alert id) ↔
      KeepsUp s env.sequence call id cfg := by
  rw [(h id cfg hget).renew_iff (call.unrenewed id cfg) hk hleft hks]
  constructor
  · intro hlong
    refine ⟨hlong, ?_⟩
    intro d hd
    rw [hreceiving] at hd
    exact absurd hd (by simp)
  · intro hkeeps
    exact hkeeps.unrenewed

/-- `get_alert` renews nothing but the record. -/
theorem covered_getAlert_iff
    (h : Covered s) {id : Nat} {cfg : AlertConfig}
    (hrow : s.view.table.row id = some cfg) :
    Covered (invoke env (.getAlert id) s).2 ↔
      ∀ id' cfg', Renews env s.view (.getAlert id) id' cfg' →
        KeepsUp s env.sequence (.getAlert id) id' cfg' := by
  have hget : s.persistent.get (.alert id) = some cfg := hrow
  have hhas : s.persistent.has (.alert id) = true :=
    (s.persistent.has_iff_get _).mpr ⟨cfg, hget⟩
  let s₁ := s.silenced.extend env.sequence (.alert id) defaultTtl defaultTtl
  have hreturns : (dispatch (.getAlert id)).Returns env s.silenced
      (.optAlert (some cfg)) s₁ := by
    simp only [dispatch, returns_respond, returns_getAlert]
    exact ⟨some cfg, ⟨hget.symm, rfl⟩, rfl⟩
  have hcarry : Carries {id} s s₁ :=
    (carries_of_eq rfl).trans
      (carries_extend_alert s.silenced env.sequence (Set.mem_singleton id) defaultTtl)
  have hget₁ : s₁.persistent.get (.alert id) = some cfg := by
    simpa [s₁] using hget
  rw [invoke_of_returns hreturns]
  refine covered_iff_of_subject h (.read hrow) rfl hcarry hget₁ ?_
  refine covers_iff_keepsUp h hget rfl (fun k hk => hk) ?_ ?_
  · simp [s₁, Store.deadline_extendTtl, hhas, renewedDeadline]
  · intro k hk
    refine Or.inl ⟨hk, ?_⟩
    have hne : k ≠ .alert id := by
      rintro rfl
      simp [companions] at hk
    simp [s₁, hne]

section Amendments

variable {id : Nat} {cfg cfg' : AlertConfig}

theorem carries_amended (ledger : Nat) (call : Call) (cfg cfg' : AlertConfig) :
    Carries {id} s (s.amended ledger call id cfg cfg') := by
  have hflag : ∀ id', DataKey.alertActive id ≠ .alert id' := by
    simp
  have hindex : ∀ kind a id', DataKey.index kind a ≠ .alert id' := by
    simp
  have hstore := carries_store_alert s ledger (Set.mem_singleton id) cfg' defaultTtl
  have hflagged : Carries {id} s
      (State.flagged (s.store ledger (.alert id) cfg' defaultTtl) ledger id
        call.amendedFlag) := by
    cases call.amendedFlag with
    | none => exact hstore
    | some b => exact hstore.trans (carries_store _ ledger hflag b defaultTtl)
  unfold State.amended
  split_ifs
  · exact hflagged.trans
      ((carries_extend _ ledger (hindex .owner cfg.owner) defaultTtl).trans
        (carries_extend _ ledger (hindex .contract cfg.targetContract) defaultTtl))
  · exact hflagged

theorem deadline_amended_alert (ledger : Nat) (call : Call) :
    (s.amended ledger call id cfg cfg').persistent.deadline (.alert id) =
      max (s.persistent.deadline (.alert id)) (renewedDeadline ledger) := by
  unfold State.amended State.flagged State.renewedLists
  cases call.amendedFlag <;> split_ifs <;> simp [renewedDeadline]

/-- What an owner's call on a record renews besides the record. -/
theorem deadline_amended_companion
    {caller : Address} (hcall : call.amends = some (caller, id)) (ledger : Nat)
    (hhas : ∀ k ∈ companions id cfg, s.persistent.has k = true)
    {k : DataKey} (hk : k ∈ companions id cfg) :
    (k ∈ call.unrenewed id cfg ∧
      (s.amended ledger call id cfg cfg').persistent.deadline k =
        s.persistent.deadline k) ∨
    (k ∉ call.unrenewed id cfg ∧
      (s.amended ledger call id cfg cfg').persistent.deadline k =
        max (s.persistent.deadline k) (renewedDeadline ledger)) := by
  simp only [companions, List.mem_cons, List.not_mem_nil, or_false,
    forall_eq_or_imp, forall_eq] at hhas hk
  cases call with
  | updateAlert _ _ _ _ =>
      right
      rcases hk with rfl | rfl | rfl <;>
        simp [Call.unrenewed, State.amended, State.flagged, Call.amendedFlag,
          Call.renewsLists, State.renewedLists, Store.deadline_extendTtl, hhas,
          renewedDeadline]
  | updateWebhook _ _ _ | updateLabel _ _ _ =>
      rcases hk with rfl | rfl | rfl <;>
        simp [Call.unrenewed, State.amended, State.flagged, Call.amendedFlag,
          Call.renewsLists, State.renewedLists, Store.deadline_extendTtl, hhas,
          renewedDeadline]
  | proposeWebhook _ _ _ | confirmWebhook _ _ | updateTags _ _ _ =>
      left
      rcases hk with rfl | rfl | rfl <;>
        simp [Call.unrenewed, State.amended, State.flagged, Call.amendedFlag,
          Call.renewsLists]
  | _ => simp [Call.amends] at hcall

theorem unrenewed_subset
    {k : DataKey} (hk : k ∈ call.unrenewed id cfg) :
    k ∈ companions id cfg := by
  simp only [companions, List.mem_cons, List.not_mem_nil, or_false]
  cases call <;> simp [Call.unrenewed] at hk <;> tauto

theorem receiving_of_amends
    {caller : Address} (hcall : call.amends = some (caller, id)) :
    s.receiving id cfg call = none := by
  cases call <;> simp_all [Call.amends, State.receiving]

theorem covered_amend_iff
    {caller : Address} (h : Covered s)
    (hcall : call.amends = some (caller, id)) (hok : call.Checked)
    (hpaused : call.asksPaused = true → s.view.paused = false)
    (hauth : caller ∈ env.auths)
    (hrow : s.view.table.row id = some cfg) (howner : cfg.owner = caller)
    (hnew : call.amended env.timestamp cfg = some cfg') :
    Covered (invoke env call s).2 ↔
      ∀ id' cfg'', Renews env s.view call id' cfg'' →
        KeepsUp s env.sequence call id' cfg'' := by
  have hget : s.persistent.get (.alert id) = some cfg := hrow
  have hhas : ∀ k ∈ companions id cfg, s.persistent.has k = true := by
    have halert : s.persistent.has (.alert id) = true :=
      (s.persistent.has_iff_get _).mpr ⟨cfg, hget⟩
    exact fun k hk => (h id cfg hget).has halert hk
  have hlists : s.persistent.has (.ownerIndex cfg.owner) = true ∧
      s.persistent.has (.contractIndex cfg.targetContract) = true :=
    ⟨hhas _ (by simp [companions]), hhas _ (by simp [companions])⟩
  have hparty : companions id cfg' = companions id cfg := by
    have hp := Registry.amended_party hnew
    have ho := congrFun hp IndexKind.owner
    have ht := congrFun hp IndexKind.contract
    simp only [AlertConfig.party] at ho ht
    simp [companions, ho, ht]
  let s₁ := State.amended s.silenced env.sequence call id cfg cfg'
  have hview : s₁.view = (s.view.rewrite id cfg').flag id call.amendedFlag :=
    view_amended s.silenced env.sequence call id cfg cfg'
  have hget₁ : s₁.persistent.get (.alert id) = some cfg' := by
    have hrow₁ : s₁.view.table.row id = some cfg' := by
      rw [hview, Registry.row_rewrite_flag, Function.update_self]
    exact hrow₁
  rw [invoke_amend hcall hrow howner hpaused hauth hok hnew (fun _ => hlists)]
  change Covered (State.announce s₁ (call.amendEvents cfg)) ↔ _
  refine covered_iff_of_subject h
    (.amend hcall hok hpaused hauth hrow howner hnew) (subject_of_amends hcall)
    ?_ hget₁ ?_
  · have hcarry : Carries {id} s.silenced s₁ :=
      carries_amended env.sequence call cfg cfg'
    exact (carries_of_eq rfl).trans (hcarry.trans (carries_of_eq rfl))
  · rw [hparty]
    refine covers_iff_keepsUp h hget (receiving_of_amends hcall)
      (fun k hk => unrenewed_subset hk) ?_ ?_
    · exact deadline_amended_alert (s := s.silenced) env.sequence call
    · intro k hk
      exact deadline_amended_companion (s := s.silenced) hcall env.sequence hhas hk

end Amendments

section Switches

theorem covered_activate_iff
    {admin : Address} {id : Nat} {active : Bool} {cfg : AlertConfig}
    (h : Covered s) (hcall : call.activates = some (admin, id, active))
    (hauth : admin ∈ env.auths) (hadmin : s.view.IsAdmin admin)
    (hrow : s.view.table.row id = some cfg) :
    Covered (invoke env call s).2 ↔
      ∀ id' cfg', Renews env s.view call id' cfg' →
        KeepsUp s env.sequence call id' cfg' := by
  have hget : s.persistent.get (.alert id) = some cfg := hrow
  have hflag : ∀ id', DataKey.alertActive id ≠ .alert id' := by
    simp
  have hunrenewed : call.unrenewed id cfg =
      [.ownerIndex cfg.owner, .contractIndex cfg.targetContract] := by
    cases call <;> simp_all [Call.activates, Call.unrenewed]
  have hreceiving : s.receiving id cfg call = none := by
    cases call <;> simp_all [Call.activates, State.receiving]
  let cfg' : AlertConfig := { cfg with active := active, updatedAt := env.timestamp }
  let s₁ := s.silenced.store env.sequence (.alert id) cfg' defaultTtl
  let s₂ := s₁.store env.sequence (.alertActive id) active defaultTtl
  have hcarry : Carries {id} s s₂ := by
    have h₁ : Carries {id} s s.silenced := carries_of_eq rfl
    have h₂ := carries_store_alert s.silenced env.sequence (Set.mem_singleton id)
      cfg' defaultTtl
    exact h₁.trans (h₂.trans (carries_store _ env.sequence hflag active defaultTtl))
  have hget₂ : s₂.persistent.get (.alert id) = some cfg' := by
    simp [s₂, s₁]
  rw [invoke_activate hcall hauth hadmin hrow]
  refine covered_iff_of_subject h (.activate hcall hauth hadmin hrow)
    (subject_of_activates hcall) (hcarry.trans (carries_of_eq rfl)) hget₂ ?_
  refine covers_iff_keepsUp h hget hreceiving
    (fun k hk => unrenewed_subset hk) ?_ ?_
  · change s₂.persistent.deadline (.alert id) = _
    simp [s₂, s₁, renewedDeadline]
  · intro k hk
    change _ ∧ s₂.persistent.deadline k = _ ∨ _ ∧ s₂.persistent.deadline k = _
    simp only [companions, List.mem_cons, List.not_mem_nil, or_false] at hk
    rw [hunrenewed]
    rcases hk with rfl | rfl | rfl <;> simp [s₂, s₁, renewedDeadline]

/-- One round of `deactivate_all_alerts` renews an alert that was active. -/
theorem deadline_deactivatedOne
    (ledger now id id' : Nat) {k : DataKey}
    (hk : k = .alert id' ∨ k = .alertActive id') :
    (State.deactivatedOne ledger now id s).persistent.deadline k =
      if id' = id ∧
          (s.persistent.get (.alert id)).any (fun cfg => cfg.active) then
        max (s.persistent.deadline k) (renewedDeadline ledger)
      else s.persistent.deadline k := by
  unfold State.deactivatedOne
  cases hget : s.persistent.get (.alert id) with
  | none => simp
  | some cfg =>
      by_cases hactive : cfg.active = true
      · by_cases hid : id' = id
        · subst hid
          rcases hk with rfl | rfl <;> simp [hactive, renewedDeadline]
        · rcases hk with rfl | rfl <;> simp [hactive, hid]
      · simp [hactive]

theorem get_deactivatedOne
    (ledger now id id' : Nat) :
    (State.deactivatedOne ledger now id s).persistent.get (.alert id') =
      if id' = id then
        (s.persistent.get (.alert id)).map (fun cfg => cfg.deactivated now)
      else s.persistent.get (.alert id') := by
  have hview := congrArg (fun r => r.table.row id')
    (view_deactivatedOne ledger now id s)
  change (State.deactivatedOne ledger now id s).persistent.get (.alert id') = _
    at hview
  rw [hview]
  by_cases hid : id' = id
  · subst hid
    simp [Registry.deactivate, view_row]
  · simp [Registry.deactivate, view_row, hid]

/-- The whole loop renews the alerts on the list that were active. -/
theorem deadline_deactivatedEach
    (ledger now id : Nat) (ids : List Nat) {k : DataKey}
    (hk : k = .alert id ∨ k = .alertActive id) :
    (State.deactivatedEach ledger now ids s).persistent.deadline k =
      if id ∈ ids ∧
          (s.persistent.get (.alert id)).any (fun cfg => cfg.active) then
        max (s.persistent.deadline k) (renewedDeadline ledger)
      else s.persistent.deadline k := by
  induction ids generalizing s with
  | nil => simp [State.deactivatedEach]
  | cons head rest ih =>
      rw [State.deactivatedEach, ih, deadline_deactivatedOne ledger now head id hk,
        get_deactivatedOne]
      by_cases hid : id = head
      · subst hid
        have hoff : (((s.persistent.get (.alert id)).map
            (fun cfg => cfg.deactivated now)).any (fun cfg => cfg.active)) =
              false := by
          cases s.persistent.get (.alert id) with
          | none => rfl
          | some cfg => simp [AlertConfig.active_deactivated]
        simp [hoff]
      · simp [hid]

/-- The loop leaves the lists alone. -/
theorem deadline_index_deactivatedEach
    (ledger now : Nat) (ids : List Nat) (kind : IndexKind) (a : Address) :
    (State.deactivatedEach ledger now ids s).persistent.deadline (.index kind a) =
      s.persistent.deadline (.index kind a) := by
  induction ids generalizing s with
  | nil => rfl
  | cons head rest ih =>
      rw [State.deactivatedEach, ih, State.deactivatedOne]
      cases s.persistent.get (.alert head) with
      | none => rfl
      | some cfg =>
          by_cases hactive : cfg.active = true <;> simp [hactive]

theorem carries_deactivatedEach
    {K : Set Nat} (ledger now : Nat) (ids : List Nat)
    (hK : ∀ id ∈ ids, ∀ cfg, s.persistent.get (.alert id) = some cfg →
      cfg.active = true → id ∈ K) :
    Carries K s (State.deactivatedEach ledger now ids s) := by
  induction ids generalizing s with
  | nil => exact Carries.refl K s
  | cons head rest ih =>
      have hflag : ∀ id', DataKey.alertActive head ≠ .alert id' := by
        simp
      have hone : Carries K s (State.deactivatedOne ledger now head s) := by
        unfold State.deactivatedOne
        cases hget : s.persistent.get (.alert head) with
        | none => exact Carries.refl K s
        | some cfg =>
            by_cases hactive : cfg.active = true
            · have hhead : head ∈ K := hK head (by simp) cfg hget hactive
              simp only [hactive, if_true]
              exact (carries_store_alert s ledger hhead _ defaultTtl).trans
                (carries_store _ ledger hflag false defaultTtl)
            · simp only [hactive]
              exact Carries.refl K s
      refine hone.trans (ih ?_)
      intro id hid cfg hget hactive
      rw [get_deactivatedOne] at hget
      split_ifs at hget with hhead
      · obtain ⟨cfg₀, -, rfl⟩ := Option.map_eq_some_iff.mp hget
        rw [AlertConfig.active_deactivated] at hactive
        exact absurd hactive (by decide)
      · exact hK id (List.mem_cons_of_mem _ hid) cfg hget hactive

theorem covered_deactivateAll_iff
    {caller : Address} (h : Covered s)
    (hpaused : s.view.paused = false) (hauth : caller ∈ env.auths) :
    Covered (invoke env (.deactivateAllAlerts caller) s).2 ↔
      ∀ id cfg, Renews env s.view (.deactivateAllAlerts caller) id cfg →
        KeepsUp s env.sequence (.deactivateAllAlerts caller) id cfg := by
  let ids := s.view.table.index .owner caller
  let s₁ := State.deactivatedEach env.sequence env.timestamp ids s.silenced
  have hn := (@returns_deactivateAllAlerts env s.silenced _ caller _).mpr
    ⟨hpaused, hauth, rfl, rfl⟩
  have hreturns : (dispatch (.deactivateAllAlerts caller)).Returns env s.silenced
      (.number (s.view.activeAmong ids).card) s₁ := by
    simp only [dispatch, returns_respond]
    exact ⟨_, hn, rfl⟩
  rw [invoke_of_returns hreturns]
  refine covered_iff_of_renews h ?_ ?_
  · have hcarry : Carries {id | ∃ cfg, Renews env s.view
        (.deactivateAllAlerts caller) id cfg} s.silenced s₁ := by
      refine carries_deactivatedEach env.sequence env.timestamp ids ?_
      intro id hid cfg hget hactive
      exact ⟨cfg, .deactivateAll hpaused hauth hid hget hactive⟩
    exact (carries_of_eq rfl).trans hcarry
  · intro id cfg hrenews
    have hget : s.persistent.get (.alert id) = some cfg := hrenews.row
    obtain ⟨hid, hactive⟩ : id ∈ ids ∧ cfg.active = true := by
      cases hrenews with
      | amend hcall => simp [Call.amends] at hcall
      | activate hcall => simp [Call.activates] at hcall
      | deactivateAll _ _ hid _ hactive => exact ⟨hid, hactive⟩
    have hcond : id ∈ ids ∧
        (s.silenced.persistent.get (.alert id)).any (fun cfg => cfg.active) = true := by
      refine ⟨hid, ?_⟩
      rw [State.persistent_silenced, hget]
      exact hactive
    have hget₁ : s₁.persistent.get (.alert id) =
        some (cfg.deactivated env.timestamp) := by
      have hrow : s₁.view.table.row id =
          (s.view.deactivate env.timestamp ids).table.row id := by
        rw [view_deactivatedEach, view_silenced]
      have hrow' : s₁.view.table.row id = some (cfg.deactivated env.timestamp) := by
        rw [hrow]
        simp [Registry.deactivate, hid, hrenews.row]
      exact hrow'
    have hparty : companions id (cfg.deactivated env.timestamp) =
        companions id cfg := by
      simp [companions, AlertConfig.deactivated, hactive]
    refine ⟨_, hget₁, ?_⟩
    rw [hparty]
    refine covers_iff_keepsUp h hget rfl (fun k hk => unrenewed_subset hk) ?_ ?_
    · rw [deadline_deactivatedEach env.sequence env.timestamp id ids (Or.inl rfl),
        if_pos hcond]
      rfl
    · intro k hk
      simp only [companions, List.mem_cons, List.not_mem_nil, or_false] at hk
      rcases hk with rfl | rfl | rfl
      · right
        refine ⟨by simp [Call.unrenewed], ?_⟩
        rw [deadline_deactivatedEach env.sequence env.timestamp id ids
          (Or.inr rfl), if_pos hcond]
        rfl
      · left
        refine ⟨by simp [Call.unrenewed], ?_⟩
        exact deadline_index_deactivatedEach env.sequence env.timestamp ids _ _
      · left
        refine ⟨by simp [Call.unrenewed], ?_⟩
        exact deadline_index_deactivatedEach env.sequence env.timestamp ids _ _

end Switches

end Steps

end AlertRegistry
end TxWatch
