import TxWatch.AlertRegistry.Renewals

/-!
# Coherence of lifetimes

Some calls renew an alert alone, so that its lists or its flag can lapse while
it is live, and some move it to a list that lapses first.  `ttl_coherent_iff`
says exactly when a run keeps the lifetimes coherent: whenever a call renews an
alert, everything that the alert is found through keeps up with it.
-/

namespace TxWatch
namespace AlertRegistry

open Soroban Soroban.Contract Indexed

/-- The companions of a live alert are live, none of them for a shorter time,
and the alert is on both of its lists. -/
structure TtlCoherent (s : State) : Prop where
  companions : ∀ id cfg l,
    s.persistent.get (.alert id) = some cfg →
    s.persistent.liveUntil (.alert id) = some l →
    ∀ k ∈ companions id cfg, ∃ l', s.persistent.liveUntil k = some l' ∧ l ≤ l'
  listed : ∀ id cfg, s.persistent.get (.alert id) = some cfg →
    id ∈ s.listed .owner cfg.owner ∧ id ∈ s.listed .contract cfg.targetContract

/-- The storage is coherent, however many ledgers pass from here. -/
def LastinglyCoherent (s : State) : Prop :=
  ∀ ledger, TtlCoherent (s.atLedger ledger)

section Statement

variable {s : State}

theorem ttlCoherent_iff :
    TtlCoherent s ↔ Covered s ∧ s.view.Complete := by
  constructor
  · intro h
    refine ⟨?_, ?_⟩
    · intro id cfg hget
      obtain ⟨l, hl⟩ := Store.liveUntil_of_get hget
      exact (Store.covers_iff_liveUntil hl).mpr (h.companions id cfg l hget hl)
    · intro id cfg hrow kind
      have hlisted := h.listed id cfg hrow
      cases kind with
      | owner => exact hlisted.1
      | contract => exact hlisted.2
  · rintro ⟨hcov, hc⟩
    refine ⟨?_, ?_⟩
    · intro id cfg l hget hl
      exact (Store.covers_iff_liveUntil hl).mp (hcov id cfg hget)
    · intro id cfg hget
      exact ⟨hc id cfg hget .owner, hc id cfg hget .contract⟩

theorem atLedger_zero (s : State) : s.atLedger 0 = s := by
  have hlapsed : ∀ k, s.persistent.lapsed 0 k = false := by
    intro k
    rw [Bool.eq_false_iff, ne_eq, Store.lapsed_iff]
    omega
  have hstore : s.persistent.expire (s.persistent.lapsed 0) = s.persistent := by
    funext k
    simp [Store.expire, hlapsed k]
  rw [State.atLedger, State.dropping, hstore]

theorem lastinglyCoherent_iff :
    LastinglyCoherent s ↔ Covered s ∧ s.view.Complete := by
  constructor
  · intro h
    have h₀ := h 0
    rw [atLedger_zero] at h₀
    exact ttlCoherent_iff.mp h₀
  · rintro ⟨hcov, hc⟩ ledger
    exact ttlCoherent_iff.mpr
      ⟨covered_atLedger ledger hcov, complete_atLedger ledger hcov hc⟩

end Statement

section Steps

variable {env : Env} {s s' : State} {call : Call}

section Moves

variable {id : Nat} {cfg cfg' : AlertConfig}

/-- Renewing an alert while moving it to another list. -/
theorem covers_moved_iff
    (h : Covered s) (hget : s.persistent.get (.alert id) = some cfg)
    (new : DataKey) {d e : Nat}
    (hcomp : ∀ k, k ∈ companions id cfg' ↔
      k ∈ call.unrenewed id cfg ∨ k = new)
    (hreceiving : s.receiving id cfg call = some d)
    (halert : s'.persistent.deadline (.alert id) =
      max (s.persistent.deadline (.alert id)) (renewedDeadline env.sequence))
    (hleft : ∀ k ∈ call.unrenewed id cfg,
      s'.persistent.deadline k = s.persistent.deadline k)
    (hnew : s'.persistent.deadline new = max e (renewedDeadline env.sequence))
    (hde : s.persistent.deadline (.alert id) ≤
        max e (renewedDeadline env.sequence) ↔
      s.persistent.deadline (.alert id) ≤
        max d (renewedDeadline env.sequence)) :
    s'.persistent.Covers (companions id cfg') (.alert id) ↔
      KeepsUp s env.sequence call id cfg := by
  have hcover := h id cfg hget
  constructor
  · intro hcover'
    refine ⟨?_, ?_⟩
    · intro k hk
      have hle := hcover' k ((hcomp k).mpr (Or.inl hk))
      rw [halert, hleft k hk] at hle
      omega
    · intro d' hd'
      obtain rfl := Option.some.inj (hreceiving.symm.trans hd')
      have hle := hcover' new ((hcomp new).mpr (Or.inr rfl))
      rw [halert, hnew] at hle
      exact hde.mp ((le_max_left _ _).trans hle)
  · intro hkeeps k hk
    rcases (hcomp k).mp hk with hk | rfl
    · have hle := hcover k (unrenewed_subset hk)
      have hlong := hkeeps.unrenewed k hk
      rw [halert, hleft k hk]
      omega
    · have hle := hde.mpr (hkeeps.receiving d hreceiving)
      rw [halert, hnew]
      omega

theorem covered_retarget_iff
    {caller newTarget : Address} (hs : s.view.Safe) (hc : s.view.Complete)
    (h : Covered s) (hpaused : s.view.paused = false)
    (hauth : caller ∈ env.auths) (hrow : s.view.table.row id = some cfg)
    (howner : cfg.owner = caller) :
    Covered (invoke env (.updateTargetContract caller id newTarget) s).2 ↔
      ∀ id' cfg', Renews env s.view (.updateTargetContract caller id newTarget)
          id' cfg' →
        KeepsUp s env.sequence (.updateTargetContract caller id newTarget)
          id' cfg' := by
  have hget : s.persistent.get (.alert id) = some cfg := hrow
  let cfg' : AlertConfig :=
    { cfg with targetContract := newTarget, updatedAt := env.timestamp }
  let s₁ : State := s.silenced.store env.sequence (.alert id) cfg' defaultTtl
  let s₂ : State := State.moved s₁ env.sequence .contract id cfg.targetContract newTarget
  have hreturns : (dispatch (.updateTargetContract caller id newTarget)).Returns
      env s.silenced .unit s₂ := by
    simp only [dispatch, returns_done, returns_updateTargetContract, view_silenced]
    exact ⟨⟨cfg, hpaused, hauth, hrow, howner,
      hs.sound.not_mem_unfile .contract hrow newTarget, rfl⟩, trivial⟩
  have hindex : s₁.view.table.index = s.view.table.index := by
    rw [show s₁.view = s.view.rewrite id cfg' from view_store_alert _ _ _ _ _]
    rfl
  have hlisted : ListedBut {id} s₁ := by
    intro id' cfg'' hid hget' kind
    have hne : id' ≠ id := hid
    rw [hindex]
    refine hc id' cfg'' ?_ kind
    simpa [s₁, hne, view_row] using hget'
  have hcarry : Carries {id} s s₂ := by
    have h₁ : Carries {id} s s.silenced := carries_of_eq rfl
    have h₂ := carries_store_alert s.silenced env.sequence (Set.mem_singleton id)
      cfg' defaultTtl
    exact h₁.trans (h₂.trans (carries_moved env.sequence hlisted
      (Set.mem_singleton id) .contract cfg.targetContract newTarget))
  have hget₂ : s₂.persistent.get (.alert id) = some cfg' := by
    have hrow₂ : s₂.view.table.row id = some cfg' := by
      simp [s₂, s₁, view_moved, Table.file, Table.unfile]
    exact hrow₂
  have hother : ∀ k : DataKey, (∀ a, k ≠ .contractIndex a) →
      s₂.persistent.deadline k = s₁.persistent.deadline k :=
    fun k hk => deadline_moved_of_ne env.sequence hk id _ _
  rw [invoke_of_returns hreturns]
  refine covered_iff_of_subject h (.retarget hpaused hauth hrow howner) rfl hcarry
    hget₂ ?_
  refine covers_moved_iff h hget (.contractIndex newTarget) ?_ rfl ?_ ?_
    (deadline_moved_self env.sequence .contract id cfg.targetContract newTarget) ?_
  · intro k
    simp [companions, cfg', Call.unrenewed, or_assoc]
  · rw [hother _ (by simp)]
    simp [s₁, renewedDeadline]
  · intro k hk
    simp only [Call.unrenewed, List.mem_cons, List.not_mem_nil, or_false] at hk
    rcases hk with rfl | rfl
    · rw [hother _ (by simp)]
      simp [s₁]
    · rw [hother _ (by simp)]
      simp [s₁]
  · rw [hindex]
    simp [s₁, State.listed, view_index]

theorem covered_reown_iff
    {owner newOwner : Address} (hs : s.view.Safe) (hc : s.view.Complete)
    (h : Covered s) (hne : newOwner ≠ owner) (hpaused : s.view.paused = false)
    (hauth : owner ∈ env.auths) (hrow : s.view.table.row id = some cfg)
    (howner : cfg.owner = owner) (hfits : s.view.Fits newOwner 1) :
    Covered (invoke env (.transferAlertOwnership owner id newOwner) s).2 ↔
      ∀ id' cfg', Renews env s.view (.transferAlertOwnership owner id newOwner)
          id' cfg' →
        KeepsUp s env.sequence (.transferAlertOwnership owner id newOwner)
          id' cfg' := by
  have hget : s.persistent.get (.alert id) = some cfg := hrow
  let cfg' : AlertConfig := { cfg with owner := newOwner, updatedAt := env.timestamp }
  let s₁ : State := State.prunedFor s.silenced env.sequence newOwner
  let s₂ : State := State.moved s₁ env.sequence .owner id owner newOwner
  let s₃ : State := s₂.store env.sequence (.alert id) cfg' defaultTtl
  have hview₁ : s₁.view = s.view.prunedFor newOwner :=
    view_prunedFor s.silenced env.sequence newOwner
  have hrow₁ : s₁.view.table.row id = some cfg := by
    rw [hview₁, Registry.row_prunedFor]
    exact hrow
  have hfree : id ∉ (s₁.view.table.unfile .owner owner id).index .owner
      newOwner := by
    have hsound : (s.view.prunedFor newOwner).Safe := hs.prunedFor newOwner
    rw [hview₁] at hrow₁ ⊢
    rw [← howner]
    exact hsound.sound.not_mem_unfile .owner hrow₁ newOwner
  have hreturns : (dispatch (.transferAlertOwnership owner id newOwner)).Returns
      env s.silenced .unit (s₃.emit ⟨(.alert, .transfer),
        [.u64 id, .address owner, .address newOwner]⟩) := by
    simp only [dispatch, returns_done, returns_transferAlertOwnership, view_silenced]
    rw [hview₁] at hfree
    exact ⟨⟨cfg, hpaused, hauth, hrow, howner,
      Or.inr ⟨hne, hfits, hfree, rfl⟩⟩, trivial⟩
  have hlisted : ListedBut {id} s₁ := by
    refine listedBut_of_complete ?_
    rw [hview₁]
    exact hc.prunedFor newOwner
  have hcarry : Carries {id} s s₃ := by
    have h₀ : Carries {id} s s.silenced := carries_of_eq rfl
    have h₁ : Carries {id} s.silenced s₁ :=
      carries_prunedFor (s := s.silenced) env.sequence hc newOwner
    have h₂ : Carries {id} s₁ s₂ := carries_moved env.sequence hlisted
      (Set.mem_singleton id) .owner owner newOwner
    exact h₀.trans (h₁.trans (h₂.trans (carries_store_alert s₂ env.sequence
      (Set.mem_singleton id) cfg' defaultTtl)))
  have hget₃ : s₃.persistent.get (.alert id) = some cfg' := by
    simp [s₃]
  have hother : ∀ k : DataKey, (∀ a, k ≠ .ownerIndex a) →
      s₂.persistent.deadline k = s.persistent.deadline k := by
    intro k hk
    calc s₂.persistent.deadline k
        = s₁.persistent.deadline k :=
          deadline_moved_of_ne env.sequence hk id _ _
      _ = s.persistent.deadline k :=
          deadline_prunedFor_of_ne (s := s.silenced) env.sequence (hk newOwner)
  have hself : s₃.persistent.deadline (.ownerIndex newOwner) =
      max (s₁.persistent.deadline (.ownerIndex newOwner))
        (renewedDeadline env.sequence) := by
    have hmoved := deadline_moved_self (s := s₁) env.sequence .owner id owner
      newOwner
    rw [if_neg (fun h => hne h.1)] at hmoved
    rw [← hmoved]
    simp [s₃, s₂]
  have hliveIds : liveIds s (s.listed .owner newOwner) = s.view.liveOf newOwner :=
    liveIds_eq_live s _
  rw [invoke_of_returns hreturns]
  refine covered_iff_of_subject h (.reown hne hpaused hauth hrow howner hfits) rfl
    (hcarry.trans (carries_of_eq rfl)) hget₃ ?_
  refine covers_moved_iff h hget (.ownerIndex newOwner) ?_ rfl ?_ ?_ hself ?_
  · intro k
    simp only [companions, cfg', Call.unrenewed, List.mem_cons, List.not_mem_nil,
      or_false]
    tauto
  · change s₃.persistent.deadline (.alert id) = _
    rw [← hother (.alert id) (by simp)]
    simp [s₃, renewedDeadline]
  · intro k hk
    change s₃.persistent.deadline k = _
    simp only [Call.unrenewed, List.mem_cons, List.not_mem_nil, or_false] at hk
    rcases hk with rfl | rfl
    · rw [← hother _ (by simp)]
      simp [s₃]
    · rw [← hother _ (by simp)]
      simp [s₃]
  · have hpruned := deadline_prunedFor_self (s := s.silenced) env.sequence newOwner
    rw [hpruned, hliveIds]
    rfl

end Moves

section Others

/-- New alerts are covered, and pruning for the limit check harms none. -/
theorem covered_enrolled
    (hs : s.view.Safe) (hc : s.view.Complete) (h : Covered s)
    (ledger : Nat) (owner : Address) (cfgs : List AlertConfig) :
    Covered (State.createdAll ledger cfgs (State.prunedFor s.silenced ledger owner)) := by
  have hquiet : Covered s.silenced := covered_of_eq rfl h
  have hpruned : Covered (State.prunedFor s.silenced ledger owner) :=
    (carries_prunedFor (s := s.silenced) ledger hc owner).covered hquiet
  have hsafe : (State.prunedFor s.silenced ledger owner).view.Safe := by
    rw [view_prunedFor]
    exact hs.prunedFor owner
  exact covered_createdAll ledger cfgs hsafe hpruned

/-- A query that renews no alert reads no alert that is there. -/
theorem covered_query
    {resp : Response} (h : Covered s) (hquery : call.isQuery = true)
    (hno : ∀ id cfg, ¬ Renews env s.view call id cfg)
    (hreturns : (dispatch call).Returns env s.silenced resp s') :
    Covered s' := by
  have hquiet : Covered s.silenced := covered_of_eq rfl h
  by_cases hread : ∃ id, call = .getAlert id
  · obtain ⟨id, rfl⟩ := hread
    simp only [dispatch, returns_respond, returns_getAlert] at hreturns
    obtain ⟨o, ⟨rfl, rfl⟩, -⟩ := hreturns
    cases hget : s.persistent.get (.alert id) with
    | none => simpa [hget] using hquiet
    | some cfg => exact absurd (.read hget) (hno id cfg)
  · have hchecks := checks_query hquery (fun id hid => hread ⟨id, hid⟩)
    obtain rfl := hchecks.returns hreturns
    exact hquiet

theorem covered_registration
    {resp : Response} {now : Nat} (hs : s.view.Safe) (hc : s.view.Complete)
    (h : Covered s) (henrols : call.enrols now ≠ none)
    (hreturns : (dispatch call).Returns env s.silenced resp s') :
    Covered s' := by
  cases call with
  | registerAlert owner targetContract label webhookHash rules tags =>
      simp only [dispatch, returns_respond, returns_registerAlert] at hreturns
      obtain ⟨id, ⟨-, -, -, -, -, -, -, -, -, -, -, rfl⟩, -⟩ := hreturns
      exact covered_enrolled hs hc h env.sequence owner [_]
  | batchRegisterAlerts caller inputs =>
      simp only [dispatch, returns_respond] at hreturns
      obtain ⟨ids, hbatch, -⟩ := hreturns
      obtain ⟨-, -, -, -, -, -, -, rfl⟩ := returns_batchRegisterAlerts hbatch
      exact covered_enrolled hs hc h env.sequence caller _
  | _ => exact absurd rfl henrols

/-- The two ways to remove an alert. -/
theorem covered_removeAlert
    {caller : Address} {id : Nat} (hc : s.view.Complete) (h : Covered s)
    (hreturns : (removeAlert caller id).Returns env s.silenced () s') :
    Covered s' := by
  rw [returns_removeAlert] at hreturns
  obtain ⟨cfg, -, -, -, -, rfl⟩ := hreturns
  exact covered_of_eq (State.persistent_emit _ _)
    (covered_erased (s := s.silenced) env.sequence hc (covered_of_eq rfl h) id cfg)

theorem covered_removeAlertByAdmin
    {admin : Address} {id : Nat} (hc : s.view.Complete) (h : Covered s)
    (hreturns : (removeAlertByAdmin admin id).Returns env s.silenced () s') :
    Covered s' := by
  rw [returns_removeAlertByAdmin] at hreturns
  obtain ⟨cfg, -, -, -, -, rfl⟩ := hreturns
  exact covered_of_eq (State.persistent_emit _ _)
    (covered_erased (s := s.silenced) env.sequence hc (covered_of_eq rfl h) id cfg)

/-- Renewals that take the companions along. -/
theorem covered_bumpAlert
    {id ttl : Nat} (h : Covered s)
    (hreturns : (bumpAlert id ttl).Returns env s.silenced () s') :
    Covered s' := by
  rw [returns_bumpAlert] at hreturns
  obtain ⟨cfg, -, hrow, -, -, -, rfl⟩ := hreturns
  exact covered_of_eq (State.persistent_emit _ _)
    (covered_bumped (s := s.silenced) env.sequence (covered_of_eq rfl h) hrow _)

theorem covered_bulkRenewTtl
    {ids : List Nat} {n : Nat} (h : Covered s)
    (hreturns : (bulkRenewTtl ids).Returns env s.silenced n s') :
    Covered s' := by
  simp only [bulkRenewTtl, returns_bind, returns_rejectIf] at hreturns
  obtain ⟨-, _, ⟨-, rfl⟩, hloop⟩ := hreturns
  obtain ⟨-, rfl⟩ := returns_bulkRenewFrom hloop
  exact covered_renewedEach env.sequence ids (covered_of_eq rfl h)

/-- A mass deactivation that renews no alert finds none to deactivate. -/
theorem covered_deactivateAllAlerts
    {caller : Address} {n : Nat} (h : Covered s)
    (hno : ∀ id cfg, ¬ Renews env s.view (.deactivateAllAlerts caller) id cfg)
    (hreturns : (deactivateAllAlerts caller).Returns env s.silenced n s') :
    Covered s' := by
  obtain ⟨hpaused, hauth, -, rfl⟩ :=
    (returns_deactivateAllAlerts caller n).mp hreturns
  refine (carries_deactivatedEach env.sequence env.timestamp _ ?_).covered
    (covered_of_eq rfl h)
  intro id hid cfg hget hactive
  exact absurd (.deactivateAll hpaused hauth hid hget hactive) (hno id cfg)

/-- A transfer that renews no alert is one to its owner. -/
theorem covered_transferAlertOwnership
    {owner newOwner : Address} {id : Nat} (h : Covered s)
    (hno : ∀ id' cfg, ¬ Renews env s.view (.transferAlertOwnership owner id newOwner)
      id' cfg)
    (hreturns : (transferAlertOwnership owner id newOwner).Returns env s.silenced ()
      s') :
    Covered s' := by
  rw [returns_transferAlertOwnership] at hreturns
  obtain ⟨cfg, hpaused, hauth, hrow, howner, hmove⟩ := hreturns
  rcases hmove with ⟨-, rfl⟩ | ⟨hne, hfits, -⟩
  · exact covered_of_eq rfl h
  · exact absurd (.reown hne hpaused hauth hrow howner hfits) (hno id cfg)

/-- A call that renews no alert in this way keeps the companions ahead. -/
theorem covered_of_not_renews
    (hs : s.view.Safe) (hc : s.view.Complete) (h : Covered s)
    (hno : ∀ id cfg, ¬ Renews env s.view call id cfg) :
    Covered (invoke env call s).2 := by
  rcases invoke_cases env call s with ⟨resp, s', hreturns, heq⟩ | ⟨f, heq⟩
  · rw [heq]
    cases hquery : call.isQuery with
    | true => exact covered_query h hquery hno hreturns
    | false =>
    cases hamend : call.amends with
    | some owned =>
        obtain ⟨caller, id⟩ := owned
        rw [returns_amend hamend] at hreturns
        obtain ⟨cfg, cfg', hrow, howner, hpaused, hauth, hok, hnew, -⟩ := hreturns
        exact absurd (.amend hamend hok hpaused hauth hrow howner hnew) (hno id cfg)
    | none =>
    cases hact : call.activates with
    | some switch =>
        obtain ⟨admin, id, active⟩ := switch
        rw [returns_activate hact] at hreturns
        obtain ⟨cfg, hauth, hadmin, hrow, -⟩ := hreturns
        exact absurd (.activate hact hauth hadmin hrow) (hno id cfg)
    | none =>
    cases hadm : call.administers with
    | some admin =>
        rw [returns_administer hadm] at hreturns
        obtain ⟨admins, entry, -, -, -, -, -, -, rfl⟩ := hreturns
        exact covered_of_eq rfl h
    | none =>
    cases call with
    | initialise admin =>
        simp only [dispatch, returns_done, returns_initialise] at hreturns
        obtain ⟨⟨-, rfl⟩, -⟩ := hreturns
        exact covered_of_eq rfl h
    | registerAlert _ _ _ _ _ _ | batchRegisterAlerts _ _ =>
        exact @covered_registration env s s' _ resp 0 hs hc h (by simp [Call.enrols]) hreturns
    | removeAlert caller id =>
        exact covered_removeAlert hc h ((returns_done _ _ _).mp hreturns).1
    | removeAlertByAdmin admin id =>
        exact covered_removeAlertByAdmin hc h ((returns_done _ _ _).mp hreturns).1
    | bumpAlert id ttl =>
        exact covered_bumpAlert h ((returns_done _ _ _).mp hreturns).1
    | bulkRenewTtl ids =>
        obtain ⟨n, hloop, -⟩ := (returns_respond _ _ _).mp hreturns
        exact covered_bulkRenewTtl h hloop
    | deactivateAllAlerts caller =>
        obtain ⟨n, hloop, -⟩ := (returns_respond _ _ _).mp hreturns
        exact covered_deactivateAllAlerts h hno hloop
    | updateTargetContract caller id newTarget =>
        simp only [dispatch, returns_done, returns_updateTargetContract] at hreturns
        obtain ⟨⟨cfg, hpaused, hauth, hrow, howner, -⟩, -⟩ := hreturns
        exact absurd (.retarget hpaused hauth hrow howner) (hno id cfg)
    | transferAlertOwnership owner id newOwner =>
        exact covered_transferAlertOwnership h hno
          ((returns_done _ _ _).mp hreturns).1
    | _ =>
        simp_all [Call.isQuery, Call.amends, Call.activates, Call.administers]
  · rw [heq]
    exact covered_of_eq rfl h

/-- A call keeps the companions ahead exactly if everything it renews is kept
up with. -/
theorem covered_invoke_iff
    (hs : s.view.Safe) (hc : s.view.Complete) (h : Covered s)
    (env : Env) (call : Call) :
    Covered (invoke env call s).2 ↔
      ∀ id cfg, Renews env s.view call id cfg →
        KeepsUp s env.sequence call id cfg := by
  by_cases hany : ∃ id cfg, Renews env s.view call id cfg
  · obtain ⟨id, cfg, hrenews⟩ := hany
    cases hrenews with
    | read hrow => exact covered_getAlert_iff h hrow
    | amend hcall hok hpaused hauth hrow howner hnew =>
        exact covered_amend_iff h hcall hok hpaused hauth hrow howner hnew
    | activate hcall hauth hadmin hrow =>
        exact covered_activate_iff h hcall hauth hadmin hrow
    | deactivateAll hpaused hauth => exact covered_deactivateAll_iff h hpaused hauth
    | retarget hpaused hauth hrow howner =>
        exact covered_retarget_iff hs hc h hpaused hauth hrow howner
    | reown hne hpaused hauth hrow howner hfits =>
        exact covered_reown_iff hs hc h hne hpaused hauth hrow howner hfits
  · have hno : ∀ id cfg, ¬ Renews env s.view call id cfg :=
      fun id cfg hrenews => hany ⟨id, cfg, hrenews⟩
    constructor
    · intro _ id cfg hrenews
      exact absurd hrenews (hno id cfg)
    · intro _
      exact covered_of_not_renews hs hc h hno

end Others

end Steps

section Runs

theorem safe_execTimed
    (s : State) (i : Invocation) (h : s.view.Safe) :
    (execTimed s i).view.Safe := by
  exact (change_invoke _ i.env i.call).safe (safe_dropping s h _)

/-- One step of a timed run. -/
theorem lastinglyCoherent_execTimed_iff
    {s : State} {i : Invocation}
    (hs : s.view.Safe) (h : LastinglyCoherent s) :
    LastinglyCoherent (execTimed s i) ↔ RenewsInStep s i := by
  obtain ⟨hcov, hc⟩ := lastinglyCoherent_iff.mp h
  let t := s.atLedger i.env.sequence
  have hcov' : Covered t := covered_atLedger i.env.sequence hcov
  have hc' : t.view.Complete := complete_atLedger i.env.sequence hcov hc
  have hs' : t.view.Safe := safe_dropping s hs _
  have hcomplete : (execTimed s i).view.Complete :=
    (change_invoke t i.env i.call).complete hc'
  have hstep := covered_invoke_iff hs' hc' hcov' i.env i.call
  rw [lastinglyCoherent_iff]
  constructor
  · intro h'
    exact hstep.mp h'.1
  · intro hrenews
    exact ⟨hstep.mpr hrenews, hcomplete⟩

/-- A run keeps the lifetimes coherent in every state it reaches, whatever
ledgers pass, exactly if all its calls renew in step. -/
theorem ttl_coherent_iff (calls : List Invocation) :
    Throughout execTimed LastinglyCoherent State.empty calls ↔
      Along execTimed RenewsInStep State.empty calls := by
  have hempty : LastinglyCoherent State.empty := by
    rw [lastinglyCoherent_iff]
    refine ⟨?_, complete_empty⟩
    intro id cfg hget
    exact absurd hget (by simp)
  refine throughout_iff_along (Q := fun s => s.view.Safe) (D := fun _ _ => True)
    ?_ ?_ hempty safe_empty ?_
  · intro s i _ hs _
    exact safe_execTimed s i hs
  · intro s i _ hs h
    exact lastinglyCoherent_execTimed_iff hs h
  · exact along_of_forall_mem _ _ (fun _ _ => trivial)

/-- An alert is registered and read ten ledgers later. -/
def readRun : List Invocation :=
  [⟨envAt 0 [alice], sampleRegister alice pool⟩,
    ⟨envAt 10 [], .getAlert 0⟩]

/-- Reading the alert has made it outlive the list of its owner. -/
theorem readRun_incoherent :
    ¬ Throughout execTimed LastinglyCoherent State.empty readRun := by
  intro h
  have hcoherent := h readRun (List.prefix_refl readRun) 120965
  have hget : ((run execTimed State.empty readRun).atLedger 120965).persistent.get
      (.alert 0) = some (sampleAlert alice pool 0) := by
    rfl
  have hlive : ((run execTimed State.empty readRun).atLedger 120965).persistent.liveUntil
      (.alert 0) = some 120970 := by
    rfl
  have hlapsed : ((run execTimed State.empty readRun).atLedger 120965).persistent.liveUntil
      (.ownerIndex alice) = none := by
    rfl
  obtain ⟨l', hl', -⟩ := hcoherent.companions 0 _ _ hget hlive
    (.ownerIndex alice) (by decide)
  rw [hlapsed] at hl'
  exact absurd hl' (by simp)

/-- The alert is live, and missing among the alerts of its owner. -/
example :
    (invoke (envAt 120965 []) (.getAlertsByOwner bob alice)
        ((run execTimed State.empty readRun).atLedger 120965)).1 =
      .ok (.alerts []) ∧
    ((run execTimed State.empty readRun).atLedger 120965).persistent.has
      (.alert 0) = true := by
  exact ⟨rfl, rfl⟩

end Runs

end AlertRegistry
end TxWatch
