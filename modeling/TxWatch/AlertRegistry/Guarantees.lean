import TxWatch.Soroban.Guarantee
import TxWatch.AlertRegistry.Refinement

/-!
# What calls guarantee

A relation that holds across every write of the contract holds across every
call.  The keys written may be restricted: of the alerts, a call writes or
extends only the entries of those it touches.
-/

namespace TxWatch
namespace AlertRegistry

open Soroban Soroban.Contract Indexed

/-- Alerts whose entry a call may write or extend. -/
def Call.touches (s : State) (id : Nat) : Call → Prop
  | .registerAlert _ _ _ _ _ _ | .batchRegisterAlerts _ _ => s.view.nextId ≤ id
  | .pauseAlert _ configId | .unpauseAlert _ configId
  | .updateAlert _ configId _ _ | .updateWebhook _ configId _
  | .proposeWebhook _ configId _ | .confirmWebhook _ configId
  | .updateLabel _ configId _ | .updateTags _ configId _
  | .updateTargetContract _ configId _ | .transferAlertOwnership _ configId _
  | .bumpAlert configId _ | .getAlert configId => configId = id
  | .bulkRenewTtl configIds => id ∈ configIds
  | .deactivateAllAlerts caller => id ∈ s.view.table.index .owner caller
  | _ => False

/-- Keys that a call may write or extend: of the alerts, those it touches. -/
def Call.written (s : State) (call : Call) : Set DataKey :=
  {k | ∀ id, k = .alert id → call.touches s id}

theorem defaultTtl_le_maxTtl : defaultTtl ≤ maxTtl := by
  decide

section Writes

variable {W : Set DataKey} {ledger : Nat}
  {R : Store DataKey DataKey.Value → Store DataKey DataKey.Value → Prop}

/-- The keys that are no alerts are among `W`. -/
def Spares (W : Set DataKey) : Prop :=
  ∀ k, (∀ id, k ≠ .alert id) → k ∈ W

variable (hR : Guarantee W ledger defaultTtl maxTtl R) (hW : Spares W)
include hR hW

theorem guaranteed_relist
    (s : State) (kind : IndexKind) (a : Address) (ids : List Nat) :
    R s.persistent (s.relist ledger kind a ids).persistent := by
  unfold State.relist
  split_ifs
  · exact hR.remove _ _
  · exact hR.store _ _ (hW _ (by simp)) _

theorem guaranteed_file
    (s : State) (kind : IndexKind) (a : Address) (id : Nat) :
    R s.persistent (s.file ledger kind a id).persistent := by
  exact hR.store _ _ (hW _ (by simp)) _

theorem guaranteed_moved
    (s : State) (kind : IndexKind) (id : Nat) (a b : Address) :
    R s.persistent (State.moved s ledger kind id a b).persistent := by
  exact hR.trans (guaranteed_relist hR hW s kind a _)
    (guaranteed_file hR hW _ kind b id)

theorem guaranteed_prunedFor
    (s : State) (owner : Address) :
    R s.persistent (s.prunedFor ledger owner).persistent := by
  unfold State.prunedFor
  split_ifs
  · exact guaranteed_relist hR hW s .owner owner _
  · exact hR.refl _

theorem guaranteed_flagged
    (s : State) (id : Nat) (active : Option Bool) :
    R s.persistent (s.flagged ledger id active).persistent := by
  cases active with
  | none => exact hR.refl _
  | some b => exact hR.store _ _ (hW _ (by simp)) _

theorem guaranteed_renewedLists
    (s : State) (cfg : AlertConfig) {ttl : Nat} (httl : ttl ≤ maxTtl) :
    R s.persistent (s.renewedLists ledger cfg ttl).persistent := by
  exact hR.trans (hR.extend _ _ (hW _ (by simp)) _ httl)
    (hR.extend _ _ (hW _ (by simp)) _ httl)

theorem guaranteed_renewed
    (s : State) {id : Nat} (hid : .alert id ∈ W) (cfg : AlertConfig)
    {ttl : Nat} (httl : ttl ≤ maxTtl) :
    R s.persistent (s.renewed ledger id cfg ttl).persistent := by
  have halert := hR.extend s.persistent _ hid _ httl
  have hflag := hR.extend (s.extend ledger (.alert id) ttl ttl).persistent
    (.alertActive id) (hW _ (by simp)) _ httl
  exact hR.trans (hR.trans halert hflag)
    (guaranteed_renewedLists hR hW
      ((s.extend ledger (.alert id) ttl ttl).extend ledger (.alertActive id) ttl ttl)
      cfg httl)

theorem guaranteed_bumped
    (s : State) {id : Nat} (hid : .alert id ∈ W) (cfg : AlertConfig)
    {ttl : Nat} (httl : ttl ≤ maxTtl) :
    R s.persistent (s.bumped ledger id cfg ttl).persistent := by
  have hrenewed := guaranteed_renewed hR hW s hid cfg httl
  simp only [State.bumped]
  split_ifs
  · exact hR.trans hrenewed (hR.extend _ _ (hW _ (by simp)) _ httl)
  · exact hrenewed

theorem guaranteed_renewedEach
    (s : State) {ids : List Nat} (hids : ∀ id ∈ ids, .alert id ∈ W) :
    R s.persistent (State.renewedEach ledger ids s).persistent := by
  induction ids generalizing s with
  | nil => exact hR.refl _
  | cons id rest ih =>
      have hrest : ∀ id ∈ rest, DataKey.alert id ∈ W :=
        fun id' hid' => hids id' (List.mem_cons_of_mem _ hid')
      unfold State.renewedEach
      cases s.persistent.get (.alert id) with
      | none => exact ih s hrest
      | some cfg =>
          exact hR.trans
            (guaranteed_renewed hR hW s (hids id List.mem_cons_self) cfg
              defaultTtl_le_maxTtl)
            (ih (State.emit (s.renewed ledger id cfg defaultTtl)
              (bumpEvent defaultTtl id)) hrest)

theorem guaranteed_amended
    (s : State) {id : Nat} (hid : .alert id ∈ W) (call : Call)
    (cfg cfg' : AlertConfig) :
    R s.persistent (s.amended ledger call id cfg cfg').persistent := by
  have hrecord := hR.store s.persistent _ hid cfg'
  have hflag := guaranteed_flagged hR hW
    (s.store ledger (.alert id) cfg' defaultTtl) id call.amendedFlag
  simp only [State.amended]
  split_ifs
  · exact hR.trans hrecord (hR.trans hflag
      (guaranteed_renewedLists hR hW _ cfg defaultTtl_le_maxTtl))
  · exact hR.trans hrecord hflag

theorem guaranteed_created
    (s : State) (hid : .alert s.view.nextId ∈ W) (cfg : AlertConfig) :
    R s.persistent (s.created ledger cfg).persistent := by
  have hrecord := hR.store s.persistent _ hid cfg
  have hflag := hR.store (s.persistent.store ledger (.alert s.view.nextId) cfg
    defaultTtl) (.alertActive s.view.nextId) (hW _ (by simp)) true
  let t : State := ((((s.setInst .nextId (s.view.nextId + 1)).extendInst ledger
    defaultTtl defaultTtl).store ledger (.alert s.view.nextId) cfg
    defaultTtl).store ledger (.alertActive s.view.nextId) true defaultTtl)
  have howner := guaranteed_file hR hW t .owner cfg.owner s.view.nextId
  have htarget := guaranteed_file hR hW
    (t.file ledger .owner cfg.owner s.view.nextId) .contract cfg.targetContract
    s.view.nextId
  exact hR.trans hrecord (hR.trans hflag (hR.trans howner htarget))

theorem guaranteed_createdAll
    (s : State) (hids : ∀ id, s.view.nextId ≤ id → .alert id ∈ W)
    (cfgs : List AlertConfig) :
    R s.persistent (State.createdAll ledger cfgs s).persistent := by
  induction cfgs generalizing s with
  | nil => exact hR.refl _
  | cons cfg rest ih =>
      have hfirst := guaranteed_created hR hW s (hids _ (le_refl _)) cfg
      refine hR.trans hfirst (ih (s.created ledger cfg) ?_)
      intro id hid
      rw [view_created, Registry.nextId_create] at hid
      exact hids id (by omega)

theorem guaranteed_erased
    (s : State) (id : Nat) (cfg : AlertConfig) :
    R s.persistent (s.erased ledger id cfg).persistent := by
  have hrecord := hR.trans (hR.remove s.persistent (.alert id))
    (hR.remove _ (.alertActive id))
  let t : State := (s.remove (.alert id)).remove (.alertActive id)
  have howner := guaranteed_relist hR hW t .owner cfg.owner
    ((t.view.table.index .owner cfg.owner).filter (fun v => v ≠ id))
  exact hR.trans hrecord (hR.trans howner
    (guaranteed_relist hR hW _ .contract cfg.targetContract _))

theorem guaranteed_deactivatedEach
    (now : Nat) (s : State) {ids : List Nat} (hids : ∀ id ∈ ids, .alert id ∈ W) :
    R s.persistent (State.deactivatedEach ledger now ids s).persistent := by
  induction ids generalizing s with
  | nil => exact hR.refl _
  | cons id rest ih =>
      have hrest : ∀ id ∈ rest, DataKey.alert id ∈ W :=
        fun id' hid' => hids id' (List.mem_cons_of_mem _ hid')
      refine hR.trans ?_ (ih (State.deactivatedOne ledger now id s) hrest)
      unfold State.deactivatedOne
      cases s.persistent.get (.alert id) with
      | none => exact hR.refl _
      | some cfg =>
          simp only
          split_ifs
          · exact hR.trans (hR.store _ _ (hids id List.mem_cons_self) _)
              (hR.store _ _ (hW _ (by simp)) _)
          · exact hR.refl _

end Writes

section Calls

variable {env : Env} {s s' : State} {call : Call} {resp : Response}
  {R : Store DataKey DataKey.Value → Store DataKey DataKey.Value → Prop}

theorem spares_written (s : State) (call : Call) : Spares (call.written s) := by
  intro k hk id hid
  exact absurd hid (hk id)

theorem alert_mem_written
    (call : Call) {id : Nat} (h : call.touches s id) :
    DataKey.alert id ∈ call.written s := by
  intro id' hid'
  obtain rfl : id = id' := by
    simpa using hid'
  exact h

/-- Calls that no family covers. -/
theorem guaranteed_other
    (hR : Guarantee (call.written s) env.sequence defaultTtl maxTtl R)
    (hquery : call.isQuery = false) (hadm : call.administers = none)
    (hamend : call.amends = none) (hact : call.activates = none)
    (h : (dispatch call).Returns env s.silenced resp s') :
    R s.persistent s'.persistent := by
  have hW := spares_written s call
  cases call with
  | initialise admin =>
      simp only [dispatch, returns_done, returns_initialise] at h
      obtain ⟨⟨-, rfl⟩, -⟩ := h
      exact hR.refl _
  | registerAlert owner targetContract label webhookHash rules tags =>
      simp only [dispatch, returns_respond, returns_registerAlert] at h
      obtain ⟨id, ⟨-, -, -, -, -, -, -, -, -, -, -, rfl⟩, -⟩ := h
      refine hR.trans (guaranteed_prunedFor hR hW s.silenced owner)
        (guaranteed_created hR hW _ ?_ _)
      rw [view_prunedFor, Registry.nextId_prunedFor]
      exact alert_mem_written _ (le_refl s.view.nextId)
  | batchRegisterAlerts caller inputs =>
      simp only [dispatch, returns_respond] at h
      obtain ⟨ids, hbatch, -⟩ := h
      obtain ⟨-, -, -, -, -, -, -, rfl⟩ := returns_batchRegisterAlerts hbatch
      refine hR.trans (guaranteed_prunedFor hR hW s.silenced caller)
        (guaranteed_createdAll hR hW _ ?_ _)
      intro id hid
      rw [view_prunedFor, Registry.nextId_prunedFor] at hid
      exact alert_mem_written (.batchRegisterAlerts caller inputs) hid
  | removeAlert caller id =>
      simp only [dispatch, returns_done, returns_removeAlert] at h
      obtain ⟨⟨cfg, -, -, -, -, rfl⟩, -⟩ := h
      exact guaranteed_erased hR hW s.silenced id cfg
  | removeAlertByAdmin admin id =>
      simp only [dispatch, returns_done, returns_removeAlertByAdmin] at h
      obtain ⟨⟨cfg, -, -, -, -, rfl⟩, -⟩ := h
      exact guaranteed_erased hR hW s.silenced id cfg
  | bumpAlert id ttl =>
      simp only [dispatch, returns_done, returns_bumpAlert] at h
      obtain ⟨⟨cfg, -, -, -, -, -, rfl⟩, -⟩ := h
      exact guaranteed_bumped hR hW s.silenced (alert_mem_written _ rfl) cfg
        (min_le_right _ _)
  | bulkRenewTtl ids =>
      simp only [dispatch, returns_respond, bulkRenewTtl, returns_bind,
        returns_rejectIf] at h
      obtain ⟨n, ⟨-, _, ⟨-, rfl⟩, hloop⟩, -⟩ := h
      obtain ⟨-, rfl⟩ := returns_bulkRenewFrom hloop
      exact guaranteed_renewedEach hR hW s.silenced
        (fun id hid => alert_mem_written (.bulkRenewTtl ids) hid)
  | deactivateAllAlerts caller =>
      simp only [dispatch, returns_respond] at h
      obtain ⟨n, hloop, -⟩ := h
      obtain ⟨-, -, -, rfl⟩ := (returns_deactivateAllAlerts caller n).mp hloop
      exact guaranteed_deactivatedEach hR hW _ s.silenced
        (fun id hid => alert_mem_written (.deactivateAllAlerts caller) hid)
  | updateTargetContract caller id newTarget =>
      simp only [dispatch, returns_done, returns_updateTargetContract] at h
      obtain ⟨⟨cfg, -, -, -, -, -, rfl⟩, -⟩ := h
      refine hR.trans ?_ (guaranteed_moved hR hW _ .contract id _ _)
      exact hR.store _ _ (alert_mem_written _ rfl) _
  | transferAlertOwnership owner id newOwner =>
      simp only [dispatch, returns_done, returns_transferAlertOwnership] at h
      obtain ⟨⟨cfg, -, -, -, -, hmove⟩, -⟩ := h
      rcases hmove with ⟨-, rfl⟩ | ⟨-, -, -, rfl⟩
      · exact hR.refl _
      · exact hR.trans (guaranteed_prunedFor hR hW s.silenced newOwner)
          (hR.trans (guaranteed_moved hR hW _ .owner id owner newOwner)
            (hR.store _ _ (alert_mem_written _ rfl) _))
  | _ =>
      simp_all [Call.isQuery, Call.amends, Call.activates, Call.administers]

theorem touches_of_amends
    {owned : Address × Nat} (h : call.amends = some owned) :
    call.touches s owned.2 := by
  cases call <;> simp_all [Call.amends, Call.touches, Prod.ext_iff]

theorem touches_of_activates
    {switch : Address × Nat × Bool} (h : call.activates = some switch) :
    call.touches s switch.2.1 := by
  cases call <;> simp_all [Call.activates, Call.touches, Prod.ext_iff]

/-- What every write guarantees, a call that returns guarantees. -/
theorem guaranteed_returns
    (hR : Guarantee (call.written s) env.sequence defaultTtl maxTtl R)
    (h : (dispatch call).Returns env s.silenced resp s') :
    R s.persistent s'.persistent := by
  have hW := spares_written s call
  cases hquery : call.isQuery with
  | true =>
      by_cases hget : ∃ id, call = .getAlert id
      · obtain ⟨id, rfl⟩ := hget
        simp only [dispatch, returns_respond, returns_getAlert] at h
        obtain ⟨o, ⟨-, rfl⟩, -⟩ := h
        split_ifs
        · exact hR.extend _ _ (alert_mem_written _ rfl) _ defaultTtl_le_maxTtl
        · exact hR.refl _
      · have hread := checks_query hquery (fun id hid => hget ⟨id, hid⟩)
        obtain rfl := hread.returns h
        exact hR.refl _
  | false =>
  cases hadm : call.administers with
  | some admin =>
      rw [returns_administer hadm] at h
      obtain ⟨admins, entry, -, -, -, -, -, -, rfl⟩ := h
      exact hR.refl _
  | none =>
  cases hamend : call.amends with
  | some owned =>
      rw [returns_amend hamend] at h
      obtain ⟨cfg, cfg', -, -, -, -, -, -, -, -, rfl⟩ := h
      exact guaranteed_amended hR hW s.silenced
        (alert_mem_written call (touches_of_amends hamend)) call cfg cfg'
  | none =>
  cases hact : call.activates with
  | some switch =>
      rw [returns_activate hact] at h
      obtain ⟨cfg, -, -, -, -, rfl⟩ := h
      refine hR.trans ?_ (guaranteed_flagged hR hW _ switch.2.1 (some _))
      exact hR.store _ _ (alert_mem_written call (touches_of_activates hact)) _
  | none => exact guaranteed_other hR hquery hadm hamend hact h

/-- Nor does a call that fails do anything else. -/
theorem guaranteed_execCall
    {i : Invocation}
    (hR : Guarantee (i.call.written s) i.env.sequence defaultTtl maxTtl R) :
    R s.persistent (execCall s i).persistent := by
  obtain ⟨env, call⟩ := i
  rcases invoke_cases env call s with ⟨resp, s', hreturns, heq⟩ | ⟨f, heq⟩
  · rw [execCall, heq]
    exact guaranteed_returns hR hreturns
  · rw [execCall, heq]
    exact hR.refl _

end Calls

end AlertRegistry
end TxWatch
