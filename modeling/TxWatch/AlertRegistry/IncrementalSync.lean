import TxWatch.AlertRegistry.Readings
import TxWatch.AlertRegistry.Records

/-!
# Incremental synchronisation

A reader that remembers the time of its last poll asks for what has changed
since.  It misses nothing: every write of a record stamps it with the time of
the call, and both queries still reach the record, whatever has been moved,
transferred or removed meanwhile.
-/

namespace TxWatch
namespace AlertRegistry

open Soroban Indexed

namespace Registry

variable {env : Env} {r r' : Registry} {call : Call} {resp : Response}
  {evs : List Event}

/-- Every record is an old one or was last updated at `now`. -/
def Stamped (now : Nat) (r r' : Registry) : Prop :=
  ∀ id cfg, r'.table.row id = some cfg →
    r.table.row id = some cfg ∨ cfg.updatedAt = now

/-- Every write of a record stamps it. -/
theorem Step.stamped
    (h : Step env r call resp evs r') :
    Stamped env.timestamp r r' := by
  intro id cfg hnew
  rcases h.row hnew with ⟨old, hold, hedit⟩ | ⟨-, owner, cfgs, henrol, -, -, hget⟩
  · cases hedit with
    | keep _ => exact Or.inl hold
    | amend _ _ _ _ hcfg => exact Or.inr (amended_spec hcfg).2.2
    | switch _ _ => exact Or.inr rfl
    | retarget _ _ => exact Or.inr rfl
    | reown _ _ => exact Or.inr rfl
  · exact Or.inr (enrols_spec henrol cfg (List.mem_of_getElem? hget)).2.2

end Registry

section Runs

/-- A call made at a time of at least `t`. -/
def Step.Since (t : Nat) : Step → Prop
  | .call env _ => t ≤ env.timestamp
  | .expire _ => False

/-- Along calls made since `t`, every record that is not an old one is stamped
`t` or later. -/
theorem stamped_run
    (s : State) {t : Nat} {steps : List Step}
    (hsteps : ∀ st ∈ steps, st.Since t)
    {id : Nat} {cfg : AlertConfig}
    (hrow : (run exec s steps).alertAt id = some cfg) :
    s.alertAt id = some cfg ∨ t ≤ cfg.updatedAt := by
  have hkeep : ∀ s' st, Step.Since t st →
      (∀ id cfg, s'.alertAt id = some cfg →
        s.alertAt id = some cfg ∨ t ≤ cfg.updatedAt) →
      ∀ id cfg, (exec s' st).alertAt id = some cfg →
        s.alertAt id = some cfg ∨ t ≤ cfg.updatedAt := by
    intro s' st hst hold id cfg hnew
    cases st with
    | expire keys => exact False.elim hst
    | call env call =>
        rcases invoke_refines env call s' with ⟨resp, -, hstep⟩ | ⟨-, hview⟩
        · rcases hstep.stamped id cfg hnew with hkept | hstamp
          · exact hold id cfg hkept
          · right
            rw [hstamp]
            exact hst
        · have hsame : (exec s' (.call env call)).alertAt id = s'.alertAt id :=
            congrArg (fun r => r.table.row id) hview
          rw [hsame] at hnew
          exact hold id cfg hnew
  have hrun := run_preserves (C := fun _ st => Step.Since t st) hkeep
    (s := s) (fun _ _ h => Or.inl h) (along_of_forall_mem _ steps hsteps)
  exact hrun id cfg hrow

/-- The scan over all ids reaches every live alert. -/
theorem mem_allRecords
    {s : State} (hs : s.view.Safe) {id : Nat} {cfg : AlertConfig}
    (hrow : s.alertAt id = some cfg) :
    cfg ∈ s.allRecords := by
  have hlt : id < s.counter := hs.within.row id (by
    have hview : s.view.table.row id = some cfg := hrow
    simp [hview])
  exact List.mem_filterMap.mpr ⟨id, List.mem_range.mpr hlt, hrow⟩

/-- The list of its target reaches every live alert. -/
theorem mem_records_listed
    {s : State} (hc : s.view.Complete) {id : Nat} {cfg : AlertConfig}
    (hrow : s.alertAt id = some cfg) (kind : IndexKind) :
    cfg ∈ s.records (s.listed kind (cfg.party kind)) := by
  have hmem : id ∈ s.listed kind (cfg.party kind) := hc id cfg hrow kind
  exact List.mem_filterMap.mpr ⟨id, hmem, hrow⟩

end Runs

/-- Take two states of a run in which nothing expires, such that every call
between them is made at time `t` or later.  Every alert that is live in the
later state, and was absent or had another value in the earlier one, is among
the answers of `get_alerts_modified_since(t)`, and among those of
`get_alerts_updated_since(_, t, 0, u32::MAX)` for its target.  (The length of a
stored vector is a `u32`.) -/
theorem incremental_sync_complete
    (pre mid : List Step) (t : Nat)
    (hcalls : ∀ st ∈ pre ++ mid, st.isCall)
    (hmid : ∀ env call, .call env call ∈ mid → t ≤ env.timestamp)
    (id : Nat) (cfg : AlertConfig)
    (hlive : (run exec State.empty (pre ++ mid)).persistent.get (.alert id) =
      some cfg)
    (hchange : (run exec State.empty pre).persistent.get (.alert id) ≠ some cfg)
    (env : Env) :
    (∃ out,
      (invoke env (.getAlertsModifiedSince t)
        (run exec State.empty (pre ++ mid))).1 = .ok (.alerts out) ∧
      cfg ∈ out) ∧
    (((run exec State.empty (pre ++ mid)).listed .contract
        cfg.targetContract).length ≤ u32Max →
      ∃ out,
        (invoke env (.getAlertsUpdatedSince cfg.targetContract t 0 u32Max)
          (run exec State.empty (pre ++ mid))).1 = .ok (.alerts out) ∧
        cfg ∈ out) := by
  have hsince : ∀ st ∈ mid, st.Since t := by
    intro st hst
    cases st with
    | call env call => exact hmid env call hst
    | expire keys => exact hcalls (.expire keys) (List.mem_append_right pre hst)
  have hstamp : t ≤ cfg.updatedAt := by
    have hrun := hlive
    rw [run_append] at hrun
    rcases stamped_run _ hsince hrun with hold | hnew
    · exact absurd hold hchange
    · exact hnew
  have hkeeps : ∀ st ∈ pre ++ mid, st.keepsIndexes := by
    intro st hst
    exact Step.keepsIndexes_of_isCall (hcalls st hst)
  constructor
  · refine ⟨_, invoke_getAlertsModifiedSince env _ t, ?_⟩
    rw [List.mem_filter]
    exact ⟨mem_allRecords (safe_run _) hlive, by simpa using hstamp⟩
  · intro hvec
    refine ⟨_, invoke_getAlertsUpdatedSince env _ cfg.targetContract t hvec, ?_⟩
    rw [List.mem_filter]
    exact ⟨mem_records_listed (complete_run hkeeps) hlive .contract,
      by simpa using hstamp⟩

/-- Two registrations before a poll, and a change of target after it. -/
def polledRun : List Step :=
  [.call (envAt 1 [alice]) (sampleRegister alice pool),
    .call (envAt 2 [bob]) (sampleRegister bob pool)]

/-- The first of the alerts is pointed at another contract. -/
def retargeting : Step :=
  .call (envAt 3 [alice]) (.updateTargetContract alice 0 vault)

theorem retargeting_synchronised :
    (∃ out,
      (invoke (envAt 4 []) (.getAlertsModifiedSince 15)
        (run exec State.empty (polledRun ++ [retargeting]))).1 =
          .ok (.alerts out) ∧
      { sampleAlert alice pool 1 with
        targetContract := vault, updatedAt := 15 } ∈ out) ∧
    (∃ out,
      (invoke (envAt 4 []) (.getAlertsUpdatedSince vault 15 0 u32Max)
        (run exec State.empty (polledRun ++ [retargeting]))).1 =
          .ok (.alerts out) ∧
      { sampleAlert alice pool 1 with
        targetContract := vault, updatedAt := 15 } ∈ out) := by
  have h := incremental_sync_complete polledRun [retargeting] 15
    (by simp [polledRun, retargeting, Step.isCall])
    (by
      intro env call hmem
      rw [List.mem_singleton, retargeting] at hmem
      obtain ⟨rfl, -⟩ := Step.call.inj hmem
      decide)
    0 { sampleAlert alice pool 1 with targetContract := vault, updatedAt := 15 }
    (by rfl) (by decide) (envAt 4 [])
  exact ⟨h.1, h.2 (by decide)⟩

end AlertRegistry
end TxWatch
