import TxWatch.AlertRegistry.MassCalls
import TxWatch.AlertRegistry.RecordReplay
import TxWatch.AlertRegistry.Retries

/-!
# Taking changes back

A change of an alert is taken back by a call that writes the old value again.
`Call.undo` names that call; `Call.Revocable` says when it will be accepted, and
there are two exceptions: an old webhook hash of a wrong length is refused, and
so is an alert for which its former owner has no room any more.  Changes of a
whole session are taken back in the opposite order.
-/

namespace TxWatch
namespace AlertRegistry

open Soroban Soroban.Contract Indexed

namespace Call

/-- The call that takes a call back which has been made in `r`. -/
def undo (r : Registry) : Call → Option Call
  | .updateAlert caller id _ _ =>
      (r.table.row id).map (fun cfg => .updateAlert caller id cfg.rules cfg.active)
  | .updateWebhook caller id _ =>
      (r.table.row id).map (fun cfg => .updateWebhook caller id cfg.webhookHash)
  | .updateLabel caller id _ =>
      (r.table.row id).map (fun cfg => .updateLabel caller id cfg.label)
  | .updateTags caller id _ =>
      (r.table.row id).map (fun cfg => .updateTags caller id cfg.tags)
  | .updateTargetContract caller id _ =>
      (r.table.row id).map (fun cfg =>
        .updateTargetContract caller id cfg.targetContract)
  | .transferAlertOwnership owner id newOwner =>
      some (.transferAlertOwnership newOwner id owner)
  | .pauseAlert admin id | .unpauseAlert admin id =>
      (r.table.row id).map (fun cfg =>
        if cfg.active then .unpauseAlert admin id else .pauseAlert admin id)
  | _ => none

/-- Having been made in `r` a call can be taken back. -/
def Revocable (r : Registry) : Call → Prop
  | .updateWebhook _ id _ =>
      ∀ cfg, r.table.row id = some cfg → cfg.webhookHash.len = 64
  | .transferAlertOwnership owner _ newOwner =>
      newOwner ≠ owner → 0 < r.limit →
        saturatingAdd32 ((r.liveOf owner).length - 1) 1 ≤ r.limit
  | _ => True

end Call

namespace Registry

/-- The registries hold the same alerts, but for the times of the last changes,
under the same settings. -/
structure SameAlerts (r t : Registry) : Prop where
  row : ∀ id, (t.table.row id).map AlertConfig.unstamped =
    (r.table.row id).map AlertConfig.unstamped
  inst : t.inst = r.inst

section SameAlerts

variable {r r' t t' u : Registry}

theorem SameAlerts.refl (r : Registry) : r.SameAlerts r := by
  exact ⟨fun _ => rfl, rfl⟩

theorem SameAlerts.exists_row
    (h : r.SameAlerts t) {id : Nat} {cfg : AlertConfig}
    (hrow : r.table.row id = some cfg) :
    ∃ now, t.table.row id = some { cfg with updatedAt := now } := by
  exact exists_stamped (h.row id) hrow

theorem SameAlerts.row_eq_none
    (h : r.SameAlerts t) {id : Nat} (hrow : r.table.row id = none) :
    t.table.row id = none := by
  have hid := h.row id
  rw [hrow, Option.map_none] at hid
  exact Option.map_eq_none_iff.mp hid

end SameAlerts

end Registry

section Members

variable {s t : State}

/-- Without expiry an id is on the lists of its alert and on no others. -/
theorem State.Leakless.mem_index_iff
    (h : s.Leakless) (kind : IndexKind) (a : Address) (id : Nat) :
    id ∈ s.view.table.index kind a ↔
      ∃ cfg, s.view.table.row id = some cfg ∧ cfg.party kind = a := by
  constructor
  · intro hmem
    obtain ⟨cfg, hrow⟩ := Option.isSome_iff_exists.mp (h.occupied kind a id hmem)
    exact ⟨cfg, hrow, h.safe.sound.party_eq kind a id cfg hmem hrow⟩
  · rintro ⟨cfg, hrow, rfl⟩
    exact h.complete id cfg hrow kind

/-- The lists of the same alerts differ in their order alone. -/
theorem index_perm_of_sameAlerts
    (hs : s.Leakless) (ht : t.Leakless) (h : s.view.SameAlerts t.view)
    (kind : IndexKind) (a : Address) :
    (t.view.table.index kind a).Perm (s.view.table.index kind a) := by
  rw [List.perm_ext_iff_of_nodup (ht.safe.sound.nodup kind a)
    (hs.safe.sound.nodup kind a)]
  intro id
  rw [ht.mem_index_iff, hs.mem_index_iff]
  have hparty : ∀ (cfg : AlertConfig) (now : Nat),
      ({ cfg with updatedAt := now } : AlertConfig).party kind = cfg.party kind := by
    intro cfg now
    cases kind <;> rfl
  cases hrow : s.view.table.row id with
  | none => simp [h.row_eq_none hrow]
  | some cfg =>
      obtain ⟨now, hrow'⟩ := h.exists_row hrow
      rw [hrow']
      simp [hparty]

theorem length_liveOf_of_sameAlerts
    (hs : s.Leakless) (ht : t.Leakless) (h : s.view.SameAlerts t.view)
    (owner : Address) :
    (t.view.liveOf owner).length = (s.view.liveOf owner).length := by
  have hlive : ∀ {u : State}, u.Leakless →
      u.view.liveOf owner = u.view.table.index .owner owner := by
    intro u hu
    exact List.filter_eq_self.mpr (hu.occupied .owner owner)
  rw [hlive hs, hlive ht]
  exact (index_perm_of_sameAlerts hs ht h .owner owner).length_eq

/-- Same alerts have the same flags. -/
theorem active_eq_of_sameAlerts
    (hs : s.Leakless) (ht : t.Leakless) (h : s.view.SameAlerts t.view) (id : Nat) :
    t.view.active id = s.view.active id := by
  rw [ht.flags id, hs.flags id]
  cases hrow : s.view.table.row id with
  | none => rw [h.row_eq_none hrow]
  | some cfg =>
      obtain ⟨now, hrow'⟩ := h.exists_row hrow
      rw [hrow']
      rfl

/-- What the same alerts have in common, as they are stored. -/
theorem restored_of_sameAlerts
    (hs : s.Leakless) (ht : t.Leakless) (h : s.view.SameAlerts t.view) :
    (∀ id, (t.alertAt id).map AlertConfig.unstamped =
        (s.alertAt id).map AlertConfig.unstamped) ∧
      (∀ id, t.persistent.get (.alertActive id) =
        s.persistent.get (.alertActive id)) ∧
      (∀ kind a, (t.listed kind a).Perm (s.listed kind a)) ∧ t.inst = s.inst := by
  exact ⟨h.row, active_eq_of_sameAlerts hs ht h, index_perm_of_sameAlerts hs ht h,
    h.inst⟩

end Members

section Revisions

namespace Call

/-- The calls that can be taken back, as far as they concern alerts. -/
def revises : Call → Bool
  | .updateAlert _ _ _ _ | .updateWebhook _ _ _ | .updateLabel _ _ _
  | .updateTags _ _ _ | .updateTargetContract _ _ _
  | .transferAlertOwnership _ _ _ | .pauseAlert _ _ | .unpauseAlert _ _ => true
  | _ => false

variable {call u : Call} {r : Registry}

theorem revises_of_undo (h : call.undo r = some u) : call.revises = true := by
  cases call <;> first | rfl | cases h

theorem revises_undo (h : call.undo r = some u) : u.revises = true := by
  cases call with
  | transferAlertOwnership _ _ _ =>
      obtain rfl := Option.some.inj h
      rfl
  | pauseAlert _ _ | unpauseAlert _ _ =>
      obtain ⟨cfg, -, rfl⟩ := Option.map_eq_some_iff.mp h
      split_ifs <;> rfl
  | updateAlert _ _ _ _ | updateWebhook _ _ _ | updateLabel _ _ _
  | updateTags _ _ _ | updateTargetContract _ _ _ =>
      obtain ⟨cfg, -, rfl⟩ := Option.map_eq_some_iff.mp h
      rfl
  | _ => cases h

theorem revises_of_administers
    {admin : Address} (h : call.administers = some admin) :
    call.revises = false := by
  cases call <;> first | rfl | cases h

theorem enrols_of_revises (h : call.revises = true) (now : Nat) :
    call.enrols now = none := by
  cases call <;> first | rfl | cases h

end Call

namespace Registry

variable {env env' : Env} {r r' t t' : Registry} {call u : Call}
  {resp resp' : Response} {evs evs' : List Event}

/-- A revision changes no setting. -/
theorem Step.inst_of_revises
    (h : Step env r call resp evs r') (hcall : call.revises = true) :
    r'.inst = r.inst := by
  cases h with
  | query _ => rfl
  | administer hadm _ _ _ _ _ =>
      rw [Call.revises_of_administers hadm] at hcall
      cases hcall
  | enrol henrol _ _ _ _ _ =>
      rw [Call.enrols_of_revises hcall] at henrol
      cases henrol
  | amend _ _ _ _ _ _ _ => simp
  | activate _ _ _ _ => simp
  | retarget _ _ _ _ => rfl
  | keepOwner _ _ _ _ => rfl
  | reown _ _ _ _ _ _ => exact inst_prunedFor _ _
  | initialise _ => cases hcall
  | deactivateAll _ _ => cases hcall
  | remove _ _ _ _ => cases hcall
  | removeByAdmin _ _ _ _ => cases hcall
  | bump _ _ => cases hcall
  | bulkRenew _ => cases hcall

/-- An alert is handed over by its owner. -/
theorem Step.guards_of_transfer
    {owner newOwner : Address} {id : Nat}
    (h : Step env r (.transferAlertOwnership owner id newOwner) resp evs r') :
    r.paused = false ∧ ∃ cfg, r.table.row id = some cfg ∧ cfg.owner = owner ∧
      (newOwner = owner ∧ r' = r ∨ newOwner ≠ owner ∧ r.Fits newOwner 1 ∧
        r' = (r.prunedFor newOwner).move .owner id owner newOwner
          { cfg with owner := newOwner, updatedAt := env.timestamp }) := by
  cases h with
  | query hquery => cases hquery
  | administer hadm _ _ _ _ _ => cases hadm
  | enrol henrol _ _ _ _ _ => cases henrol
  | amend hamend _ _ _ _ _ _ => cases hamend
  | activate hact _ _ _ => cases hact
  | keepOwner hopen _ hrow howner => exact ⟨hopen, _, hrow, howner, Or.inl ⟨rfl, rfl⟩⟩
  | reown hne hopen _ hrow howner hfits =>
      exact ⟨hopen, _, hrow, howner, Or.inr ⟨hne, hfits, rfl⟩⟩

theorem Step.guards_of_retarget
    {caller target : Address} {id : Nat}
    (h : Step env r (.updateTargetContract caller id target) resp evs r') :
    r.paused = false ∧ ∃ cfg, r.table.row id = some cfg ∧ cfg.owner = caller := by
  cases h with
  | query hquery => cases hquery
  | administer hadm _ _ _ _ _ => cases hadm
  | enrol henrol _ _ _ _ _ => cases henrol
  | amend hamend _ _ _ _ _ _ => cases hamend
  | activate hact _ _ _ => cases hact
  | retarget hopen _ hrow howner => exact ⟨hopen, _, hrow, howner⟩

theorem Step.guards_of_amends
    {caller : Address} {id : Nat} (h : Step env r call resp evs r')
    (hamend : call.amends = some (caller, id)) :
    call.Checked ∧ (call.asksPaused = true → r.paused = false) ∧
      ∃ cfg, r.table.row id = some cfg ∧ cfg.owner = caller := by
  cases h with
  | query hquery =>
      rw [Call.amends_of_isQuery hquery] at hamend
      cases hamend
  | administer hadm _ _ _ _ _ =>
      rw [Call.amends_of_administers hadm] at hamend
      cases hamend
  | enrol henrol _ _ _ _ _ =>
      rw [Call.amends_of_enrols henrol] at hamend
      cases hamend
  | activate hact _ _ _ =>
      rw [Call.amends_of_activates hact] at hamend
      cases hamend
  | amend hamend' hok hopen _ hrow howner _ =>
      obtain ⟨rfl, rfl⟩ := Prod.mk.inj (Option.some.inj (hamend'.symm.trans hamend))
      exact ⟨hok, hopen, _, hrow, howner⟩
  | _ => cases hamend

theorem Step.guards_of_activates
    {admin : Address} {id : Nat} {active : Bool} (h : Step env r call resp evs r')
    (hact : call.activates = some (admin, id, active)) :
    r.IsAdmin admin ∧ ∃ cfg, r.table.row id = some cfg := by
  cases h with
  | query hquery => cases call <;> first | (cases hquery; done) | cases hact
  | administer hadm _ _ _ _ _ =>
      cases call <;> first | (cases hadm; done) | cases hact
  | enrol henrol _ _ _ _ _ =>
      rw [Call.enrols_of_activates hact] at henrol
      cases henrol
  | amend hamend _ _ _ _ _ _ =>
      rw [Call.amends_of_activates hact] at hamend
      cases hamend
  | activate hact' _ hadmin hrow =>
      obtain ⟨rfl, hrest⟩ := Prod.mk.inj (Option.some.inj (hact'.symm.trans hact))
      obtain ⟨rfl, -⟩ := Prod.mk.inj hrest
      exact ⟨hadmin, _, hrow⟩
  | _ => cases hact

/-- What a call makes of a record, the call that takes it back makes good. -/
theorem Step.rewritesAt_undo
    (h : Step env r call resp evs r') (hu : call.undo r = some u)
    {id : Nat} {cfg : AlertConfig} (hrow : r.table.row id = some cfg) :
    ∃ cfg', call.rewritesAt env.timestamp id cfg = some cfg' ∧
      ∀ stamp now, (u.rewritesAt now id { cfg' with updatedAt := stamp }).map
        AlertConfig.unstamped = some cfg.unstamped := by
  have hother : ∀ {c c' : Call},
      c.rewritesAt env.timestamp id cfg = some cfg →
      (∀ now (cfg' : AlertConfig), c'.rewritesAt now id cfg' = some cfg') →
      ∃ cfg', c.rewritesAt env.timestamp id cfg = some cfg' ∧
        ∀ stamp now, (c'.rewritesAt now id { cfg' with updatedAt := stamp }).map
          AlertConfig.unstamped = some cfg.unstamped := by
    intro c c' hc hc'
    refine ⟨cfg, hc, fun stamp now => ?_⟩
    rw [hc']
    rfl
  cases call with
  | transferAlertOwnership owner id' newOwner =>
      obtain rfl := Option.some.inj hu
      obtain ⟨-, cfg₀, hrow₀, howner, -⟩ := h.guards_of_transfer
      by_cases hmove : id' = id ∧ newOwner ≠ owner
      · obtain ⟨rfl, hne⟩ := hmove
        obtain rfl := Option.some.inj (hrow₀.symm.trans hrow)
        refine ⟨_, if_pos ⟨rfl, hne⟩, fun stamp now => ?_⟩
        rw [Call.rewritesAt, if_pos ⟨rfl, hne.symm⟩, ← howner]
        rfl
      · refine hother (if_neg hmove) fun now cfg' => if_neg ?_
        exact fun hback => hmove ⟨hback.1, hback.2.symm⟩
  | updateTargetContract caller id' target =>
      obtain ⟨cfg₀, hrow₀, rfl⟩ := Option.map_eq_some_iff.mp hu
      by_cases hid : id' = id
      · subst hid
        obtain rfl := Option.some.inj (hrow₀.symm.trans hrow)
        refine ⟨_, if_pos rfl, fun stamp now => ?_⟩
        rw [Call.rewritesAt, if_pos rfl]
        rfl
      · exact hother (if_neg hid) fun now cfg' => if_neg hid
  | updateAlert _ id' _ _ | updateWebhook _ id' _ | updateLabel _ id' _
  | updateTags _ id' _ =>
      obtain ⟨cfg₀, hrow₀, rfl⟩ := Option.map_eq_some_iff.mp hu
      by_cases hid : id' = id
      · subst hid
        obtain rfl := Option.some.inj (hrow₀.symm.trans hrow)
        refine ⟨_, (rewritesAt_of_amends rfl).trans (if_pos rfl), fun stamp now => ?_⟩
        rw [rewritesAt_of_amends rfl, if_pos rfl]
        rfl
      · exact hother ((rewritesAt_of_amends rfl).trans (if_neg hid))
          fun now cfg' => (rewritesAt_of_amends rfl).trans (if_neg hid)
  | pauseAlert _ id' | unpauseAlert _ id' =>
      obtain ⟨cfg₀, hrow₀, rfl⟩ := Option.map_eq_some_iff.mp hu
      by_cases hid : id' = id
      · subst hid
        obtain rfl := Option.some.inj (hrow₀.symm.trans hrow)
        refine ⟨_, (rewritesAt_of_activates rfl).trans (if_pos rfl),
          fun stamp now => ?_⟩
        cases hactive : cfg₀.active with
        | true =>
            rw [if_pos rfl, rewritesAt_of_activates rfl, if_pos rfl]
            simp [AlertConfig.unstamped, hactive]
        | false =>
            rw [if_neg Bool.false_ne_true, rewritesAt_of_activates rfl, if_pos rfl]
            simp [AlertConfig.unstamped, hactive]
      · refine hother ((rewritesAt_of_activates rfl).trans (if_neg hid)) ?_
        intro now cfg'
        split_ifs
        · exact (rewritesAt_of_activates rfl).trans (if_neg hid)
        · exact (rewritesAt_of_activates rfl).trans (if_neg hid)
  | _ => cases hu

/-- A call and then, among the same alerts, the call that takes it back. -/
theorem Step.undone
    (h : Step env r call resp evs r') (hu : call.undo r = some u)
    (hsame : r'.SameAlerts t) (h' : Step env' t u resp' evs' t')
    (hr : r.Safe ∧ r.Complete) (ht : t.Safe ∧ t.Complete) :
    r.SameAlerts t' := by
  have hcall := Call.revises_of_undo hu
  have hback := Call.revises_undo hu
  refine ⟨?_, ?_⟩
  · intro id
    have hrow₁ := h.row_deed hr.1 hr.2 id
    have hrow₂ := h'.row_deed ht.1 ht.2 id
    cases hrow : r.table.row id with
    | none =>
        rw [hrow] at hrow₁
        have hgone : r'.table.row id = none := hrow₁.trans
          (registersAt_of_not_enrols (Call.enrols_of_revises hcall _) _ _)
        rw [hsame.row_eq_none hgone] at hrow₂
        rw [hrow₂]
        exact congrArg _
          (registersAt_of_not_enrols (Call.enrols_of_revises hback _) _ _)
    | some cfg =>
        obtain ⟨cfg', hcfg', hundo⟩ := h.rewritesAt_undo hu hrow
        rw [hrow] at hrow₁
        have hafter : r'.table.row id = some cfg' := hrow₁.trans hcfg'
        obtain ⟨stamp, hrow'⟩ := hsame.exists_row hafter
        rw [hrow'] at hrow₂
        rw [hrow₂]
        exact hundo stamp env'.timestamp
  · rw [h'.inst_of_revises hback, hsame.inst, h.inst_of_revises hcall]

end Registry

end Revisions

section Enabled

variable {env env' : Env} {s s' t : State} {call u : Call} {resp : Response}
  {evs : List Event}

/-- The registry has a step for the call. -/
def Registry.Enables (r : Registry) (env : Env) (call : Call) : Prop :=
  ∃ resp evs r', Registry.Step env r call resp evs r'

/-- How the call that takes an owner's change back relates to it. -/
theorem undo_of_amends
    {r : Registry} {caller : Address} {id : Nat} {cfg : AlertConfig}
    (hu : call.undo r = some u) (hamend : call.amends = some (caller, id))
    (hrow : r.table.row id = some cfg) (hcfg : cfg.Accepted) :
    call.asksPaused = true ∧ u.amends = some (caller, id) ∧
      (u.Checked ↔ call.Revocable r) ∧
      ∀ now (cfg' : AlertConfig), ∃ cfg'', u.amended now cfg' = some cfg'' := by
  cases call with
  | updateAlert _ id' _ _ | updateWebhook _ id' _ | updateLabel _ id' _
  | updateTags _ id' _ =>
      obtain ⟨rfl, rfl⟩ := Prod.mk.inj (Option.some.inj hamend)
      obtain ⟨cfg₀, hrow₀, rfl⟩ := Option.map_eq_some_iff.mp hu
      obtain rfl := Option.some.inj (hrow₀.symm.trans hrow)
      refine ⟨rfl, rfl, ?_, fun now cfg' => ⟨_, rfl⟩⟩
      simp [Call.Checked, Call.Revocable, hrow₀, hcfg.label, hcfg.rules, hcfg.tags]
  | proposeWebhook _ _ _ | confirmWebhook _ _ => cases hu
  | _ => cases hamend

theorem signer_of_amends
    {caller : Address} {id : Nat} (h : call.amends = some (caller, id)) :
    call.signer = some caller := by
  cases call with
  | updateAlert _ _ _ _ | updateWebhook _ _ _ | proposeWebhook _ _ _
  | confirmWebhook _ _ | updateLabel _ _ _ | updateTags _ _ _ =>
      obtain ⟨rfl, -⟩ := Prod.mk.inj (Option.some.inj h)
      rfl
  | _ => cases h

/-- Giving an alert away leaves its owner one less. -/
theorem length_liveOf_of_transfer
    (hs : s.Leakless) (hs' : s'.Leakless) {owner newOwner : Address} {id : Nat}
    {cfg : AlertConfig} {now : Nat} (hne : newOwner ≠ owner)
    (hrow : s.view.table.row id = some cfg) (howner : cfg.owner = owner)
    (hafter : s'.view.table.row = Function.update s.view.table.row id
      (some { cfg with owner := newOwner, updatedAt := now })) :
    (s'.view.liveOf owner).length = (s.view.liveOf owner).length - 1 := by
  have hlive : ∀ {u : State}, u.Leakless →
      u.view.liveOf owner = u.view.table.index .owner owner := by
    intro u hu
    exact List.filter_eq_self.mpr (hu.occupied .owner owner)
  have hmem : id ∈ s.view.table.index .owner owner :=
    (hs.mem_index_iff .owner owner id).mpr ⟨cfg, hrow, howner⟩
  have hnodup := hs.safe.sound.nodup .owner owner
  have hperm : (s'.view.table.index .owner owner).Perm
      ((s.view.table.index .owner owner).erase id) := by
    rw [List.perm_ext_iff_of_nodup (hs'.safe.sound.nodup .owner owner)
      (hnodup.erase id)]
    intro id'
    rw [hs'.mem_index_iff, hnodup.mem_erase_iff, hs.mem_index_iff, hafter]
    by_cases hid : id' = id
    · subst hid
      simp [AlertConfig.party, hne]
    · simp [hid]
  rw [hlive hs, hlive hs', hperm.length_eq, List.length_erase_of_mem hmem]

/-- The settings are still those from before the revision. -/
theorem inst_of_revised
    (h : Registry.Step env s.view call resp evs s'.view)
    (hu : call.undo s.view = some u) (hsame : s'.view.SameAlerts t.view) :
    t.view.inst = s.view.inst := by
  exact hsame.inst.trans (h.inst_of_revises (Call.revises_of_undo hu))

theorem open_of_revised
    (h : Registry.Step env s.view call resp evs s'.view)
    (hu : call.undo s.view = some u) (hsame : s'.view.SameAlerts t.view)
    (hopen : s.view.paused = false) :
    t.view.paused = false := by
  rwa [Registry.paused, inst_of_revised h hu hsame, ← Registry.paused]

/-- The record is still what the revision has made of it, but for its stamp. -/
theorem exists_revised
    (hs : s.Leakless) (h : Registry.Step env s.view call resp evs s'.view)
    (hu : call.undo s.view = some u) (hsame : s'.view.SameAlerts t.view)
    {id : Nat} {cfg : AlertConfig} (hrow : s.view.table.row id = some cfg) :
    ∃ cfg' stamp, call.rewritesAt env.timestamp id cfg = some cfg' ∧
      t.view.table.row id = some { cfg' with updatedAt := stamp } := by
  obtain ⟨cfg', hcfg', -⟩ := h.rewritesAt_undo hu hrow
  have hafter : s'.view.table.row id = some cfg' := by
    rw [h.row_deed hs.safe hs.complete id, hrow]
    exact hcfg'
  obtain ⟨stamp, hrow'⟩ := hsame.exists_row hafter
  exact ⟨cfg', stamp, hcfg', hrow'⟩

/-- A change by the owner is taken back if the old values pass the checks. -/
theorem undo_enabled_of_amends
    (hs : s.Leakless) (haccepted : s.view.AllRows AlertConfig.Accepted)
    (h : Registry.Step env s.view call resp evs s'.view)
    (hu : call.undo s.view = some u) (hsame : s'.view.SameAlerts t.view)
    (hsigned : ∀ a, u.signer = some a → a ∈ env'.auths)
    {caller : Address} {id : Nat} (hamend : call.amends = some (caller, id)) :
    t.view.Enables env' u ↔ call.Revocable s.view := by
  obtain ⟨-, hpaused, cfg, hrow, howner⟩ := h.guards_of_amends hamend
  obtain ⟨hasks, hback, hchecked, hamended⟩ :=
    undo_of_amends hu hamend hrow (haccepted id cfg hrow)
  rw [← hchecked]
  constructor
  · rintro ⟨resp', evs', t', hstep⟩
    exact (hstep.guards_of_amends hback).1
  · intro hok
    obtain ⟨cfg', stamp, hcfg', hrow'⟩ := exists_revised hs h hu hsame hrow
    rw [rewritesAt_of_amends hamend, if_pos rfl] at hcfg'
    have howner' : cfg'.owner = caller :=
      (congrFun (Registry.amended_party hcfg') .owner).trans howner
    obtain ⟨cfg'', hcfg''⟩ := hamended env'.timestamp { cfg' with updatedAt := stamp }
    exact ⟨_, _, _, .amend hback hok
      (fun _ => open_of_revised h hu hsame (hpaused hasks))
      (hsigned caller (signer_of_amends hback)) hrow' howner' hcfg''⟩

/-- A transfer is taken back if its former owner has room for the alert. -/
theorem undo_enabled_of_transfer
    {owner newOwner : Address} {id : Nat}
    (hs : s.Leakless) (hs' : s'.Leakless) (ht : t.Leakless)
    (h : Registry.Step env s.view (.transferAlertOwnership owner id newOwner) resp evs
      s'.view)
    (hsame : s'.view.SameAlerts t.view) (hsigned : newOwner ∈ env'.auths) :
    t.view.Enables env' (.transferAlertOwnership newOwner id owner) ↔
      (Call.transferAlertOwnership owner id newOwner).Revocable s.view := by
  obtain ⟨hunpaused, cfg, hrow, howner, hmove⟩ := h.guards_of_transfer
  have hopen := open_of_revised h rfl hsame hunpaused
  rcases hmove with ⟨rfl, hkept⟩ | ⟨hne, -, hmoved⟩
  · -- nothing has been given away
    rw [hkept] at hsame
    obtain ⟨stamp, hrow'⟩ := hsame.exists_row hrow
    refine iff_of_true ⟨_, _, _, .keepOwner hopen hsigned hrow' howner⟩ ?_
    exact fun hne => absurd rfl hne
  · have hafter : s'.view.table.row = Function.update s.view.table.row id
        (some { cfg with owner := newOwner, updatedAt := env.timestamp }) := by
      rw [hmoved, Registry.row_reown]
    have hlength : (t.view.liveOf owner).length =
        (s.view.liveOf owner).length - 1 := by
      rw [length_liveOf_of_sameAlerts hs' ht hsame,
        length_liveOf_of_transfer hs hs' hne hrow howner hafter]
    have hfits : t.view.Fits owner 1 ↔
        (Call.transferAlertOwnership owner id newOwner).Revocable s.view := by
      rw [Registry.Fits, Registry.limit, inst_of_revised h rfl hsame, ← Registry.limit,
        hlength]
      exact ⟨fun hroom _ => hroom, fun hroom => hroom hne⟩
    rw [← hfits]
    constructor
    · rintro ⟨resp', evs', t', hstep⟩
      obtain ⟨-, cfg₁, -, -, ⟨heq, -⟩ | ⟨-, hroom, -⟩⟩ := hstep.guards_of_transfer
      · exact absurd heq.symm hne
      · exact hroom
    · intro hroom
      have hnow : s'.view.table.row id = some
          { cfg with owner := newOwner, updatedAt := env.timestamp } := by
        rw [hafter, Function.update_self]
      obtain ⟨stamp, hrow'⟩ := hsame.exists_row hnow
      exact ⟨_, _, _, .reown hne.symm hopen hsigned hrow' rfl hroom⟩

/-- A new target is always taken back. -/
theorem undo_enabled_of_retarget
    {caller target : Address} {id : Nat} (hs : s.Leakless)
    (h : Registry.Step env s.view (.updateTargetContract caller id target) resp evs
      s'.view)
    (hu : (Call.updateTargetContract caller id target).undo s.view = some u)
    (hsame : s'.view.SameAlerts t.view)
    (hsigned : ∀ a, u.signer = some a → a ∈ env'.auths) :
    t.view.Enables env' u := by
  obtain ⟨hunpaused, cfg, hrow, howner⟩ := h.guards_of_retarget
  obtain ⟨cfg', stamp, hcfg', hrow'⟩ := exists_revised hs h hu hsame hrow
  have hopen := open_of_revised h hu hsame hunpaused
  obtain rfl := Option.some.inj ((if_pos rfl).symm.trans hcfg')
  obtain ⟨cfg₀, -, rfl⟩ := Option.map_eq_some_iff.mp hu
  exact ⟨_, _, _, .retarget hopen (hsigned _ rfl) hrow' howner⟩

/-- So is a switch by an admin. -/
theorem undo_enabled_of_activates
    {admin : Address} {id : Nat} {active : Bool} (hs : s.Leakless)
    (h : Registry.Step env s.view call resp evs s'.view)
    (hact : call.activates = some (admin, id, active))
    (hu : call.undo s.view = some u) {active' : Bool}
    (hback : u.activates = some (admin, id, active'))
    (hsame : s'.view.SameAlerts t.view) (hsigned : admin ∈ env'.auths) :
    t.view.Enables env' u := by
  obtain ⟨hadmin, cfg, hrow⟩ := h.guards_of_activates hact
  obtain ⟨cfg', stamp, -, hrow'⟩ := exists_revised hs h hu hsame hrow
  have hadmin' : t.view.IsAdmin admin := by
    rwa [Registry.IsAdmin, Registry.admins, inst_of_revised h hu hsame]
  exact ⟨_, _, _, .activate hback hsigned hadmin' hrow'⟩

/-- Among the same alerts, what a revision has changed can be taken back exactly if
it is revocable. -/
theorem undo_enabled_iff
    (hs : s.Leakless) (hs' : s'.Leakless) (ht : t.Leakless)
    (haccepted : s.view.AllRows AlertConfig.Accepted)
    (h : Registry.Step env s.view call resp evs s'.view)
    (hu : call.undo s.view = some u) (hsame : s'.view.SameAlerts t.view)
    (hsigned : ∀ a, u.signer = some a → a ∈ env'.auths) :
    t.view.Enables env' u ↔ call.Revocable s.view := by
  cases hamend : call.amends with
  | some owned =>
      exact undo_enabled_of_amends hs haccepted h hu hsame hsigned hamend
  | none =>
      cases call with
      | transferAlertOwnership owner id newOwner =>
          obtain rfl := Option.some.inj hu
          exact undo_enabled_of_transfer hs hs' ht h hsame (hsigned _ rfl)
      | updateTargetContract caller id target =>
          exact iff_of_true (undo_enabled_of_retarget hs h hu hsame hsigned) trivial
      | pauseAlert admin id | unpauseAlert admin id =>
          refine iff_of_true ?_ trivial
          obtain ⟨cfg, -, hswitch⟩ := Option.map_eq_some_iff.mp hu
          split_ifs at hswitch
          · subst hswitch
            exact undo_enabled_of_activates hs h rfl hu rfl hsame (hsigned _ rfl)
          · subst hswitch
            exact undo_enabled_of_activates hs h rfl hu rfl hsame (hsigned _ rfl)
      | updateAlert _ _ _ _ | updateWebhook _ _ _ | updateLabel _ _ _
      | updateTags _ _ _ => cases hamend
      | _ => cases hu

end Enabled

section Sessions

/-- The calls that take the calls of a session back, the latest first; there are
none if a call fails or is no revision. -/
def takeBacks : State → List Invocation → Option (List Call)
  | _, [] => some []
  | s, i :: is =>
      match i.call.undo s.view, (invoke i.env i.call s).1 with
      | some u, .ok _ => (takeBacks (execCall s i) is).map (fun us => us ++ [u])
      | _, _ => none

/-- The call succeeds. -/
def Succeeds (s : State) (i : Invocation) : Prop :=
  ∃ resp, (invoke i.env i.call s).1 = .ok resp

/-- The call carries the signature that it asks for. -/
def Invocation.Signed (i : Invocation) : Prop :=
  ∀ a, i.call.signer = some a → a ∈ i.env.auths

variable {s t : State} {i : Invocation} {is js : List Invocation} {us : List Call}

theorem takeBacks_cons
    (h : takeBacks s (i :: is) = some us) :
    ∃ u us', i.call.undo s.view = some u ∧ Succeeds s i ∧
      takeBacks (execCall s i) is = some us' ∧ us = us' ++ [u] := by
  rw [takeBacks] at h
  split at h
  · next u resp hu hok =>
      obtain ⟨us', hus', rfl⟩ := Option.map_eq_some_iff.mp h
      exact ⟨u, us', hu, ⟨resp, hok⟩, hus', rfl⟩
  · cases h

/-- One call is taken back, by a signed call, exactly if it is revocable, and then
the alerts are those of before. -/
theorem taken_back
    (hs : s.Leakless) (ht : t.Leakless)
    (haccepted : s.view.AllRows AlertConfig.Accepted) {u : Call}
    (hu : i.call.undo s.view = some u) (hok : Succeeds s i)
    (hsame : (execCall s i).view.SameAlerts t.view)
    {j : Invocation} (hj : j.call = u) (hsigned : j.Signed) :
    (Succeeds t j ↔ i.call.Revocable s.view) ∧
      (Succeeds t j → s.view.SameAlerts (execCall t j).view) := by
  obtain ⟨env', u'⟩ := j
  obtain rfl : u' = u := hj
  obtain ⟨resp, hresp⟩ := hok
  rcases invoke_refines i.env i.call s with ⟨_, -, hstep⟩ | ⟨⟨f, hf⟩, -⟩
  · have hs' := leakless_execCall s i hs
    have henabled := undo_enabled_iff hs hs' ht haccepted hstep hu hsame hsigned
    have hsucceeds : ∀ {resp'}, (invoke env' u' t).1 = .ok resp' →
        ∃ resp'' evs', Registry.Step env' t.view u' resp'' evs'
          (execCall t ⟨env', u'⟩).view := by
      intro resp' hresp'
      rcases invoke_refines env' u' t with ⟨resp'', -, hback⟩ | ⟨⟨f, hf⟩, -⟩
      · exact ⟨resp'', _, hback⟩
      · rw [hf] at hresp'
        cases hresp'
    refine ⟨?_, ?_⟩
    · rw [← henabled]
      constructor
      · rintro ⟨resp', hresp'⟩
        obtain ⟨resp'', evs', hback⟩ := hsucceeds hresp'
        exact ⟨resp'', evs', _, hback⟩
      · rintro ⟨resp', evs', t', hback⟩
        exact ⟨resp', (invoke_of_step ht hback).1⟩
    · rintro ⟨resp', hresp'⟩
      obtain ⟨resp'', evs', hback⟩ := hsucceeds hresp'
      exact hstep.undone hu hsame hback ⟨hs.safe, hs.complete⟩ ⟨ht.safe, ht.complete⟩
  · rw [hf] at hresp
    cases hresp

/-- A session is taken back call by call, the latest first. -/
theorem session_undone
    (hs : s.Leakless) (ht : t.Leakless)
    (haccepted : s.view.AllRows AlertConfig.Accepted)
    (hus : takeBacks s is = some us)
    (hrevocable : Along execCall (fun s i => i.call.Revocable s.view) s is)
    (hsame : (run execCall s is).view.SameAlerts t.view)
    (hjs : js.map (fun j => j.call) = us) (hsigned : ∀ j ∈ js, j.Signed) :
    Along execCall Succeeds t js ∧
      s.view.SameAlerts (run execCall t js).view ∧
      (run execCall t js).Leakless := by
  induction is generalizing s us js with
  | nil =>
      obtain rfl := Option.some.inj hus
      obtain rfl := List.map_eq_nil_iff.mp hjs
      exact ⟨trivial, hsame, ht⟩
  | cons i is ih =>
      obtain ⟨u, us', hu, hok, hus', rfl⟩ := takeBacks_cons hus
      obtain ⟨hi, hrest⟩ := hrevocable
      obtain ⟨js', js'', rfl, hjs', hlast⟩ := List.map_eq_append_iff.mp hjs
      obtain ⟨j, rfl, hj⟩ := List.map_eq_singleton_iff.mp hlast
      have haccepted' := accepted_exec s (.call i.env i.call) haccepted
      -- first what came after the call, and then the call itself
      obtain ⟨hlater, hback, ht'⟩ := ih (leakless_execCall s i hs) haccepted' hus'
        hrest hsame hjs' fun j' hj' => hsigned j' (List.mem_append_left _ hj')
      obtain ⟨hiff, hundone⟩ := taken_back hs ht' haccepted hu hok hback hj
        (hsigned j (List.mem_append_right _ List.mem_cons_self))
      have hsucceeds := hiff.mpr hi
      rw [along_append, run_append]
      exact ⟨⟨hlater, hsucceeds, trivial⟩, hundone hsucceeds,
        leakless_execCall _ j ht'⟩

end Sessions

section Runs

/-- While nothing expires, a change of an alert that has just been made is taken back,
by a call with the right signature, exactly if it is revocable: all changes of
rules, flag, label, tags and target are, a webhook hash if the old one has the
right length, and a transfer if the former owner has room for the alert.  Every
record but for its time stamp, every flag, the members of every list and every
setting are then those from before the change. -/
theorem taken_back_iff_revocable
    (steps : List Step) (hsteps : ∀ st ∈ steps, st.isCall) (i : Invocation)
    {u : Call} (hu : i.call.undo (run exec State.empty steps).view = some u)
    (hok : Succeeds (run exec State.empty steps) i)
    (env : Env) (hsigned : (Invocation.mk env u).Signed) :
    (Succeeds (execCall (run exec State.empty steps) i) ⟨env, u⟩ ↔
        i.call.Revocable (run exec State.empty steps).view) ∧
      (Succeeds (execCall (run exec State.empty steps) i) ⟨env, u⟩ →
        ∀ t, t = execCall (execCall (run exec State.empty steps) i) ⟨env, u⟩ →
          (∀ id, (t.alertAt id).map AlertConfig.unstamped =
            ((run exec State.empty steps).alertAt id).map AlertConfig.unstamped) ∧
          (∀ id, t.persistent.get (.alertActive id) =
            (run exec State.empty steps).persistent.get (.alertActive id)) ∧
          (∀ kind a, (t.listed kind a).Perm
            ((run exec State.empty steps).listed kind a)) ∧
          t.inst = (run exec State.empty steps).inst) := by
  have hs := leakless_run hsteps
  have ht := leakless_execCall _ i hs
  obtain ⟨hiff, hback⟩ := taken_back hs ht (accepted_run steps) hu hok
    (Registry.SameAlerts.refl _) rfl hsigned
  refine ⟨hiff, ?_⟩
  rintro hsucceeds t rfl
  exact restored_of_sameAlerts hs (leakless_execCall _ _ ht) (hback hsucceeds)

/-- An alert with no room at its owner's any more once it is given away: the limit
has been lowered below what the owner holds. -/
def crampedRun : List Step :=
  [.call (envAt 1 [operator]) (.initialise operator),
    .call (envAt 2 [alice]) (sampleRegister alice pool),
    .call (envAt 3 [alice]) (sampleRegister alice vault),
    .call (envAt 4 [operator]) (.setPerOwnerAlertLimit operator 1)]

/-- The transfer stays, but a new label is taken back. -/
theorem crampedRun_not_taken_back :
    ¬ Succeeds (execCall (run exec State.empty crampedRun)
        ⟨envAt 5 [alice], .transferAlertOwnership alice 0 bob⟩)
      ⟨envAt 6 [bob], .transferAlertOwnership bob 0 alice⟩ ∧
    Succeeds (execCall (run exec State.empty crampedRun)
        ⟨envAt 5 [alice], .updateLabel alice 0 (.fromStr "mints")⟩)
      ⟨envAt 6 [alice],
        .updateLabel alice 0 (sampleAlert alice pool 2).label⟩ := by
  have hsteps : ∀ st ∈ crampedRun, st.isCall := by
    simp [crampedRun, Step.isCall]
  constructor
  · rw [(taken_back_iff_revocable crampedRun hsteps
      ⟨envAt 5 [alice], .transferAlertOwnership alice 0 bob⟩ rfl ⟨.unit, rfl⟩
      (envAt 6 [bob]) (by rintro a ⟨⟩; decide)).1]
    intro hrevocable
    exact absurd (hrevocable (by decide) (by decide)) (by decide)
  · exact (taken_back_iff_revocable crampedRun hsteps
      ⟨envAt 5 [alice], .updateLabel alice 0 (.fromStr "mints")⟩ rfl ⟨.unit, rfl⟩
      (envAt 6 [alice]) (by rintro a ⟨⟩; decide)).1.mpr trivial

/-- Any session of revocable changes, by any owners and admins on any alerts, is
taken back by the opposite calls in the opposite order: all of them succeed, and
every record but for its time stamp, every flag, the members of every list and
every setting are those from before the session. -/
theorem session_taken_back
    (steps : List Step) (hsteps : ∀ st ∈ steps, st.isCall) (is : List Invocation)
    {us : List Call} (hus : takeBacks (run exec State.empty steps) is = some us)
    (hrevocable : Along execCall (fun s i => i.call.Revocable s.view)
      (run exec State.empty steps) is)
    (js : List Invocation) (hjs : js.map (fun j => j.call) = us)
    (hsigned : ∀ j ∈ js, j.Signed) :
    Along execCall Succeeds (run execCall (run exec State.empty steps) is) js ∧
      ∀ t, t = run execCall (run execCall (run exec State.empty steps) is) js →
        (∀ id, (t.alertAt id).map AlertConfig.unstamped =
          ((run exec State.empty steps).alertAt id).map AlertConfig.unstamped) ∧
        (∀ id, t.persistent.get (.alertActive id) =
          (run exec State.empty steps).persistent.get (.alertActive id)) ∧
        (∀ kind a, (t.listed kind a).Perm
          ((run exec State.empty steps).listed kind a)) ∧
        t.inst = (run exec State.empty steps).inst := by
  have hs := leakless_run hsteps
  have haccepted := accepted_run steps
  generalize run exec State.empty steps = s at hs haccepted hus hrevocable ⊢
  have hmiddle : (run execCall s is).Leakless :=
    run_preserves (C := fun _ _ => True)
      (fun s i _ h => leakless_execCall s i h) hs
      (along_of_forall_mem s is fun _ _ => trivial)
  obtain ⟨hsucceed, hsame, ht⟩ := session_undone hs hmiddle haccepted hus hrevocable
    (Registry.SameAlerts.refl _) hjs hsigned
  refine ⟨hsucceed, ?_⟩
  rintro t rfl
  exact restored_of_sameAlerts hs ht hsame

/-- An alert is pointed at another contract and given away. -/
def sampleSession : List Invocation :=
  [⟨envAt 2 [alice], .updateTargetContract alice 0 vault⟩,
    ⟨envAt 3 [alice], .transferAlertOwnership alice 0 bob⟩]

theorem sampleSession_taken_back :
    Along execCall Succeeds
      (run execCall (run exec State.empty
        [.call (envAt 1 [alice]) (sampleRegister alice pool)]) sampleSession)
      [⟨envAt 4 [bob], .transferAlertOwnership bob 0 alice⟩,
        ⟨envAt 5 [alice], .updateTargetContract alice 0 pool⟩] := by
  refine (session_taken_back _ ?_ sampleSession rfl ?_ _ rfl ?_).1
  · simp [Step.isCall]
  · refine ⟨trivial, ?_, trivial⟩
    intro _ hlimit
    exact absurd hlimit (by decide)
  · intro j hj
    rcases List.mem_cons.mp hj with rfl | hj
    · rintro a ⟨⟩
      decide
    · obtain rfl := List.mem_singleton.mp hj
      rintro a ⟨⟩
      decide

end Runs

end AlertRegistry
end TxWatch
