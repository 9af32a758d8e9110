import TxWatch.AlertRegistry.Authority
import TxWatch.AlertRegistry.IncrementalSync
import TxWatch.AlertRegistry.Records
import TxWatch.AlertRegistry.RuleGrammar

/-!
# Stored configs are well formed

Whatever entry point wrote it last, a stored config has a label, rules and tags
within their bounds and was created no later than it was last updated.  The
labels, rules and tags are checked wherever they are written; every other write
copies them.  The timestamps are in order as long as the ledger's clock does not
run backwards.
-/

namespace TxWatch
namespace AlertRegistry

open Soroban Indexed

/-- What every stored config satisfies at time `now`. -/
structure AlertConfig.WellFormed (now : Nat) (cfg : AlertConfig) : Prop where
  label : cfg.label.len ≤ 128
  rules_ne_nil : cfg.rules ≠ []
  rules_nodup : cfg.rules.Nodup
  rules_known : ∀ rule ∈ cfg.rules,
    rule ∈ [ruleTransfer, ruleMint, ruleInvoke, ruleAll]
  tags : ∀ tags, cfg.tags = some tags →
    tags.length ≤ maxTags ∧ ∀ tag ∈ tags, tag.len ≤ maxTagBytes
  created_le : cfg.createdAt ≤ cfg.updatedAt
  updated_le : cfg.updatedAt ≤ now

section Validation

theorem validateLabel_spec
    {label : HostString} (h : validateLabel label = .ok ()) :
    label.len ≤ 128 := by
  unfold validateLabel at h
  split_ifs at h with hlen
  omega

theorem validateTagList_spec
    {tags : List HostString} (h : validateTagList tags = .ok ()) :
    ∀ tag ∈ tags, tag.len ≤ maxTagBytes := by
  induction tags with
  | nil => simp
  | cons tag rest ih =>
      rw [validateTagList] at h
      split_ifs at h with hlen
      intro tag' htag'
      rcases List.mem_cons.mp htag' with rfl | hmem
      · omega
      · exact ih h tag' hmem

theorem validateTags_spec
    {tags : Option (List HostString)} (h : validateTags tags = .ok ()) :
    ∀ t, tags = some t →
      t.length ≤ maxTags ∧ ∀ tag ∈ t, tag.len ≤ maxTagBytes := by
  rintro t rfl
  simp only [validateTags] at h
  split_ifs at h with hlen
  exact ⟨by omega, validateTagList_spec h⟩

end Validation

namespace AlertConfig.WellFormed

variable {now now' : Nat} {cfg cfg' : AlertConfig}

theorem mono (h : cfg.WellFormed now) (hle : now ≤ now') :
    cfg.WellFormed now' := by
  exact { h with updated_le := le_trans h.updated_le hle }

/-- A record with the same label, rules and tags, stamped `now`. -/
theorem stamp
    (h : cfg.WellFormed now) (hlabel : cfg'.label = cfg.label)
    (hrules : cfg'.rules = cfg.rules) (htags : cfg'.tags = cfg.tags)
    (hcreated : cfg'.createdAt = cfg.createdAt) (hupdated : cfg'.updatedAt = now) :
    cfg'.WellFormed now := by
  refine ⟨?_, ?_, ?_, ?_, ?_, ?_, ?_⟩
  · rw [hlabel]
    exact h.label
  · rw [hrules]
    exact h.rules_ne_nil
  · rw [hrules]
    exact h.rules_nodup
  · rw [hrules]
    exact h.rules_known
  · rw [htags]
    exact h.tags
  · rw [hcreated, hupdated]
    exact le_trans h.created_le h.updated_le
  · rw [hupdated]

end AlertConfig.WellFormed

section Writers

variable {call : Call} {now : Nat}

/-- Registrations write well-formed records. -/
theorem enrols_wellFormed
    {owner : Address} {cfgs : List AlertConfig}
    (h : call.enrols now = some (owner, cfgs)) (hok : call.Checked) :
    ∀ cfg ∈ cfgs, cfg.WellFormed now := by
  cases call with
  | registerAlert _ _ _ _ _ _ =>
      simp only [Call.enrols, Option.some.injEq, Prod.mk.injEq] at h
      obtain ⟨-, rfl⟩ := h
      intro cfg hcfg
      obtain rfl := List.mem_singleton.mp hcfg
      obtain ⟨-, hlabel, hrules, htags⟩ := hok
      obtain ⟨hne, hnodup, hknown⟩ := validateRules_eq_ok_iff.mp hrules
      exact ⟨validateLabel_spec hlabel, hne, hnodup, hknown,
        validateTags_spec htags, le_refl now, le_refl now⟩
  | batchRegisterAlerts caller inputs =>
      simp only [Call.enrols, Option.some.injEq, Prod.mk.injEq] at h
      obtain ⟨-, rfl⟩ := h
      intro cfg hcfg
      obtain ⟨input, hinput, rfl⟩ := List.mem_map.mp hcfg
      obtain ⟨-, hlabel, hrules⟩ := validateInputs_spec hok.2 input hinput
      obtain ⟨hne, hnodup, hknown⟩ := validateRules_eq_ok_iff.mp hrules
      refine ⟨validateLabel_spec hlabel, hne, hnodup, hknown, ?_, le_refl now,
        le_refl now⟩
      intro tags htags
      cases htags
  | _ => simp [Call.enrols] at h

/-- An owner's call writes a well-formed record over a well-formed one. -/
theorem amended_wellFormed
    {cfg cfg' : AlertConfig} (hcfg : cfg.WellFormed now) (hok : call.Checked)
    (h : call.amended now cfg = some cfg') :
    cfg'.WellFormed now := by
  have hstamped : ({ cfg with updatedAt := now } : AlertConfig).WellFormed now :=
    hcfg.stamp rfl rfl rfl rfl rfl
  cases call with
  | updateAlert _ _ rules active =>
      obtain rfl := Option.some.inj h
      obtain ⟨hne, hnodup, hknown⟩ := validateRules_eq_ok_iff.mp hok
      exact { hstamped with
        rules_ne_nil := hne, rules_nodup := hnodup, rules_known := hknown }
  | updateLabel _ _ label =>
      obtain rfl := Option.some.inj h
      exact { hstamped with
        label := validateLabel_spec hok }
  | updateTags _ _ tags =>
      obtain rfl := Option.some.inj h
      exact { hstamped with
        tags := validateTags_spec hok }
  | updateWebhook _ _ _ =>
      obtain rfl := Option.some.inj h
      exact hcfg.stamp rfl rfl rfl rfl rfl
  | proposeWebhook _ _ _ =>
      obtain rfl := Option.some.inj h
      exact hcfg.stamp rfl rfl rfl rfl rfl
  | confirmWebhook _ _ =>
      obtain ⟨pending, -, rfl⟩ := Option.map_eq_some_iff.mp h
      exact hcfg.stamp rfl rfl rfl rfl rfl
  | _ => exact absurd h (by simp [Call.amended])

end Writers

namespace Registry

variable {env : Env} {r r' : Registry} {call : Call} {resp : Response}
  {evs : List Event}

/-- A step writes well-formed records only. -/
theorem Step.wellFormed
    (h : Step env r call resp evs r')
    (hr : r.AllRows (AlertConfig.WellFormed env.timestamp)) :
    r'.AllRows (AlertConfig.WellFormed env.timestamp) := by
  apply h.allRows hr
  · intro owner cfgs henrol hok
    exact enrols_wellFormed henrol hok
  · intro caller id cfg cfg' _ hok _ hrow _ hnew
    exact amended_wellFormed (hr id cfg hrow) hok hnew
  · intro cfg active hcfg
    exact hcfg.stamp rfl rfl rfl rfl rfl
  · intro cfg target hcfg
    exact hcfg.stamp rfl rfl rfl rfl rfl
  · intro cfg owner hcfg
    exact hcfg.stamp rfl rfl rfl rfl rfl

/-- Alerts that stay keep their time of creation. -/
def KeepsCreation (r r' : Registry) : Prop :=
  ∀ id cfg cfg', r.table.row id = some cfg → r'.table.row id = some cfg' →
    cfg'.createdAt = cfg.createdAt

theorem amended_createdAt
    {now : Nat} {cfg cfg' : AlertConfig}
    (h : call.amended now cfg = some cfg') :
    cfg'.createdAt = cfg.createdAt := by
  cases call with
  | updateAlert _ _ _ _ | updateWebhook _ _ _ | proposeWebhook _ _ _
  | updateLabel _ _ _ | updateTags _ _ _ =>
      obtain rfl := Option.some.inj h
      rfl
  | confirmWebhook _ _ =>
      obtain ⟨pending, -, rfl⟩ := Option.map_eq_some_iff.mp h
      rfl
  | _ => exact absurd h (by simp [Call.amended])

/-- No step touches the time of creation of an alert. -/
theorem Step.keepsCreation
    (h : Step env r call resp evs r') (hs : r.Safe) :
    KeepsCreation r r' := by
  intro id cfg cfg' hold hnew
  rcases h.row hnew with ⟨old, hrow, hedit⟩ | ⟨hle, -⟩
  · obtain rfl := Option.some.inj (hold.symm.trans hrow)
    cases hedit with
    | keep _ => rfl
    | amend _ _ _ _ hcfg => exact amended_createdAt hcfg
    | switch _ _ => rfl
    | retarget _ _ => rfl
    | reown _ _ => rfl
  · -- The new ids are none of the old ones.
    have hlt : id < r.nextId := hs.within.row id (by simp [hold])
    omega

end Registry

/-- Ledger time of a step, if it is a call. -/
def Step.timestamp : Step → Option Nat
  | .call env _ => some env.timestamp
  | .expire _ => none

section Runs

variable {s : State} {t : Nat}

theorem wellFormed_exec
    (h : s.view.AllRows (AlertConfig.WellFormed t)) {now : Nat} (hle : t ≤ now)
    {st : Step} (hst : ∀ now', st.timestamp = some now' → now' = now) :
    (exec s st).view.AllRows (AlertConfig.WellFormed now) := by
  have hs : s.view.AllRows (AlertConfig.WellFormed now) :=
    fun id cfg hcfg => (h id cfg hcfg).mono hle
  cases st with
  | expire keys => exact allRows_dropping s.silenced hs keys
  | call env call =>
      obtain rfl := hst env.timestamp rfl
      rcases invoke_refines env call s with ⟨resp, -, hstep⟩ | ⟨-, hview⟩
      · exact hstep.wellFormed hs
      · rw [exec_call, hview]
        exact hs

/-- As long as the clock does not run backwards, all records stay well
formed. -/
theorem wellFormed_run
    (h : s.view.AllRows (AlertConfig.WellFormed t)) {steps : List Step} {now : Nat}
    (hclock : (t :: (steps.filterMap Step.timestamp ++ [now])).Pairwise
      (fun t u => t ≤ u)) :
    (run exec s steps).view.AllRows (AlertConfig.WellFormed now) := by
  induction steps generalizing s t with
  | nil =>
      have hle : t ≤ now := by
        simpa using hclock
      exact fun id cfg hcfg => (h id cfg hcfg).mono hle
  | cons st steps ih =>
      cases st with
      | expire keys =>
          refine ih (t := t) ?_ hclock
          exact wellFormed_exec h (le_refl t) (by simp [Step.timestamp])
      | call env call =>
          have hclock' := hclock
          simp only [List.filterMap_cons, Step.timestamp, List.cons_append] at hclock'
          obtain ⟨hfirst, hrest⟩ := List.pairwise_cons.mp hclock'
          have hle : t ≤ env.timestamp := hfirst _ List.mem_cons_self
          refine ih (t := env.timestamp) ?_ hrest
          exact wellFormed_exec h hle (by simp [Step.timestamp])

/-- A step keeps the time of creation of an alert, and does not take its last
update back. -/
theorem stamps_exec
    (hsafe : s.view.Safe) (h : s.view.AllRows (AlertConfig.WellFormed t))
    {st : Step} (hst : ∀ now, st.timestamp = some now → t ≤ now)
    {id : Nat} {cfg cfg' : AlertConfig}
    (hold : s.persistent.get (.alert id) = some cfg)
    (hnew : (exec s st).persistent.get (.alert id) = some cfg') :
    cfg'.createdAt = cfg.createdAt ∧ cfg.updatedAt ≤ cfg'.updatedAt := by
  cases st with
  | expire keys =>
      have hkept := (remnant_dropping s.silenced keys).row id cfg' hnew
      obtain rfl := Option.some.inj (hold.symm.trans hkept)
      exact ⟨rfl, le_refl _⟩
  | call env call =>
      rcases invoke_refines env call s with ⟨resp, -, hstep⟩ | ⟨-, hview⟩
      · refine ⟨hstep.keepsCreation hsafe id cfg cfg' hold hnew, ?_⟩
        rcases hstep.stamped id cfg' hnew with hkept | hstamp
        · rw [Option.some.inj (hold.symm.trans hkept)]
        · have hupdated := (h id cfg hold).updated_le
          have hlater := hst env.timestamp rfl
          omega
      · have hsame := congrArg (fun r => r.table.row id) hview
        have hkept : s.persistent.get (.alert id) = some cfg' :=
          hsame.symm.trans hnew
        rw [Option.some.inj (hold.symm.trans hkept)]
        exact ⟨rfl, le_refl _⟩

end Runs

/-- After any run from empty storage in which the ledger's clock does not run
backwards, whatever has expired: every live config is within the bounds on
label, rules and tags, it was created no later than it was last updated and
that no later than now, and the next step leaves the time of creation as it is
and does not take the last update back. -/
theorem stored_configs_well_formed
    (steps : List Step) (now : Nat)
    (hclock : (steps.filterMap Step.timestamp ++ [now]).Pairwise
      (fun t u => t ≤ u)) :
    (∀ id cfg,
        (run exec State.empty steps).persistent.get (.alert id) = some cfg →
        cfg.label.len ≤ 128 ∧ cfg.rules ≠ [] ∧ cfg.rules.Nodup ∧
          (∀ rule ∈ cfg.rules,
            rule ∈ [ruleTransfer, ruleMint, ruleInvoke, ruleAll]) ∧
          (∀ tags, cfg.tags = some tags →
            tags.length ≤ maxTags ∧ ∀ tag ∈ tags, tag.len ≤ maxTagBytes) ∧
          cfg.createdAt ≤ cfg.updatedAt ∧ cfg.updatedAt ≤ now) ∧
      ∀ st, (∀ t, st.timestamp = some t → now ≤ t) →
        ∀ id cfg cfg',
          (run exec State.empty steps).persistent.get (.alert id) = some cfg →
          (exec (run exec State.empty steps) st).persistent.get (.alert id) =
            some cfg' →
          cfg'.createdAt = cfg.createdAt ∧ cfg.updatedAt ≤ cfg'.updatedAt := by
  have hempty : State.empty.view.AllRows (AlertConfig.WellFormed 0) := by
    intro id cfg hcfg
    exact absurd hcfg (by simp [view_row])
  have hstart := List.pairwise_cons.mpr ⟨fun t _ => Nat.zero_le t, hclock⟩
  have hrun := wellFormed_run hempty hstart
  constructor
  · intro id cfg hcfg
    have h := hrun id cfg hcfg
    exact ⟨h.label, h.rules_ne_nil, h.rules_nodup, h.rules_known, h.tags,
      h.created_le, h.updated_le⟩
  · intro st hst id cfg cfg' hold hnew
    exact stamps_exec (safe_run steps) hrun hst hold hnew

/-- One alert, switched off by an admin some time after its registration. -/
theorem switched_alert_stamped :
    (run exec State.empty administeredRun).persistent.get (.alert 0) =
        some (sampleAlert alice pool 1) ∧
      5 ≤ ({ sampleAlert alice pool 1 with
        active := false, updatedAt := 20 } : AlertConfig).updatedAt := by
  have h := stored_configs_well_formed administeredRun 15 (by decide)
  have hlive : (run exec State.empty administeredRun).persistent.get (.alert 0) =
      some (sampleAlert alice pool 1) := by
    rfl
  have hstamps := h.2 (.call (envAt 4 [operator]) (.pauseAlert operator 0))
    (by simp [Step.timestamp, envAt]) 0 (sampleAlert alice pool 1)
    { sampleAlert alice pool 1 with active := false, updatedAt := 20 }
    hlive (by rfl)
  exact ⟨hlive, hstamps.2⟩

end AlertRegistry
end TxWatch
