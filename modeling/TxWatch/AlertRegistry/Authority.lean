import TxWatch.AlertRegistry.Reachability

/-!
# Who may change an alert

An alert changes only with the authorisation of its owner, or of a current
admin who deletes it or switches it on or off.  For `deactivate_all_alerts`,
which writes every alert on the caller's list without looking at its owner,
this rests on the soundness of the owner index.
-/

namespace TxWatch
namespace AlertRegistry

open Soroban Indexed

/-- `cfg'` differs from `cfg` at most in `active` and `updatedAt`. -/
def AlertConfig.SwitchOf (cfg' cfg : AlertConfig) : Prop :=
  cfg' = { cfg with active := cfg'.active, updatedAt := cfg'.updatedAt }

/-- What happened to the record of an alert is in the hands of its owner, or is
something an admin may do. -/
def Registry.Sanctioned (env : Env) (r r' : Registry) (id : Nat)
    (cfg : AlertConfig) : Prop :=
  cfg.owner ∈ env.auths ∨
    ∃ admin, r.IsAdmin admin ∧ admin ∈ env.auths ∧
      (r'.table.row id = none ∨
        ∃ cfg', r'.table.row id = some cfg' ∧ cfg'.SwitchOf cfg)

namespace Registry

variable {env : Env} {r r' : Registry} {call : Call} {resp : Response}
  {evs : List Event} {id : Nat} {cfg : AlertConfig}

/-- Deactivating a list of ids only touches alerts on it. -/
theorem mem_of_deactivate_ne
    {now : Nat} {ids : List Nat}
    (h : (r.deactivate now ids).table.row id ≠ r.table.row id) :
    id ∈ ids := by
  by_contra hid
  apply h
  simp [deactivate, hid]

/-- An owner's write to one record changes the records of that owner only. -/
theorem owner_auth_of_update
    {caller : Address} {id' : Nat} {old : AlertConfig} {w : Option AlertConfig}
    (hauth : caller ∈ env.auths) (hold : r.table.row id' = some old)
    (howner : old.owner = caller) (hrow : r.table.row id = some cfg)
    (hne : Function.update r.table.row id' w id ≠ some cfg) :
    cfg.owner ∈ env.auths := by
  by_cases hid : id = id'
  · subst hid
    obtain rfl := Option.some.inj (hold.symm.trans hrow)
    rw [howner]
    exact hauth
  · rw [Function.update_of_ne hid] at hne
    exact absurd hrow hne

/-- Every step that changes or deletes the record of an alert is sanctioned. -/
theorem Step.sanctioned
    (h : Step env r call resp evs r') (hs : r.Safe)
    (hrow : r.table.row id = some cfg)
    (hne : r'.table.row id ≠ some cfg) :
    r.Sanctioned env r' id cfg := by
  have hlt : id < r.nextId := hs.within.row id (by simp [hrow])
  cases h with
  | query _ => exact absurd hrow hne
  | initialise _ => exact absurd hrow hne
  | administer _ _ _ _ _ _ => exact absurd hrow hne
  | bump _ _ => exact absurd hrow hne
  | bulkRenew _ => exact absurd hrow hne
  | keepOwner _ _ _ _ => exact absurd hrow hne
  | enrol _ _ _ _ _ _ =>
      rw [row_createAll_of_lt _ _ (by simpa using hlt), row_prunedFor] at hne
      exact absurd hrow hne
  | @amend call caller id' old new hamend hok hpaused hauth hold howner hnew =>
      left
      rw [table_flag, row_rewrite] at hne
      exact owner_auth_of_update hauth hold howner hrow hne
  | @activate call admin id' active old hact hauth hadmin hold =>
      right
      refine ⟨admin, hadmin, hauth, Or.inr ?_⟩
      by_cases hid : id = id'
      · subst hid
        obtain rfl := Option.some.inj (hold.symm.trans hrow)
        rw [table_flag, row_rewrite, Function.update_self]
        exact ⟨_, rfl, rfl⟩
      · rw [table_flag, row_rewrite, Function.update_of_ne hid] at hne
        exact absurd hrow hne
  | @deactivateAll caller hpaused hauth =>
      left
      rw [← hrow] at hne
      have hmem := mem_of_deactivate_ne hne
      have howner := hs.sound.party_eq .owner caller id cfg hmem hrow
      have hcaller : cfg.owner = caller := howner
      rw [hcaller]
      exact hauth
  | @retarget caller target id' old hpaused hauth hold howner =>
      left
      rw [move, Table.row_move] at hne
      exact owner_auth_of_update hauth hold howner hrow hne
  | @reown owner newOwner id' old hnew hpaused hauth hold howner hfits =>
      left
      have hold' : (r.prunedFor newOwner).table.row id' = some old := by
        rw [row_prunedFor]
        exact hold
      have hrow' : (r.prunedFor newOwner).table.row id = some cfg := by
        rw [row_prunedFor]
        exact hrow
      rw [move, Table.row_move] at hne
      exact owner_auth_of_update hauth hold' howner hrow' hne
  | @remove caller id' old hpaused hauth hold howner =>
      left
      rw [erase, Table.row_erase] at hne
      exact owner_auth_of_update hauth hold howner hrow hne
  | @removeByAdmin admin id' old hpaused hauth hadmin hold =>
      right
      refine ⟨admin, hadmin, hauth, Or.inl ?_⟩
      by_cases hid : id = id'
      · subst hid
        simp [erase]
      · simp only [erase, Table.row_erase, Function.update_of_ne hid] at hne
        exact absurd hrow hne

end Registry

/-- In every reachable state, whatever has expired: a call that changes or
deletes a live alert is authorised by its owner, or by a current admin who
deletes it or touches only `active` and `updated_at`. -/
theorem alert_change_authorised
    (steps : List Step) (env : Env) (call : Call)
    (id : Nat) (cfg : AlertConfig)
    (hlive :
      (run exec State.empty steps).persistent.get (.alert id) = some cfg)
    (hchange :
      (invoke env call (run exec State.empty steps)).2.persistent.get
        (.alert id) ≠ some cfg) :
    cfg.owner ∈ env.auths ∨
      ∃ admin admins,
        (run exec State.empty steps).view.admins = some admins ∧
        admin ∈ admins ∧
        admin ∈ env.auths ∧
        ((invoke env call (run exec State.empty steps)).2.persistent.get
            (.alert id) = none ∨
          ∃ cfg',
            (invoke env call (run exec State.empty steps)).2.persistent.get
              (.alert id) = some cfg' ∧
            cfg' = { cfg with
              active := cfg'.active, updatedAt := cfg'.updatedAt }) := by
  have hsafe := safe_run steps
  rcases invoke_refines env call (run exec State.empty steps) with
    ⟨resp, -, hstep⟩ | ⟨-, hview⟩
  · rcases hstep.sanctioned hsafe hlive hchange with
      howner | ⟨admin, ⟨admins, hadmins, hmem⟩, hauth, hafter⟩
    · exact Or.inl howner
    · exact Or.inr ⟨admin, admins, hadmins, hmem, hauth, hafter⟩
  · have hrow := congrArg (fun r => r.table.row id) hview
    exact absurd (hrow.trans hlive) hchange

/-- A contract with an admin and one alert. -/
def administeredRun : List Step :=
  [.call (envAt 1 [operator]) (.initialise operator),
    .call (envAt 1 [alice]) (sampleRegister alice pool)]

theorem operator_pause_authorised :
    ∃ admin admins,
      (run exec State.empty administeredRun).view.admins = some admins ∧
      admin ∈ admins ∧
      admin ∈ (envAt 2 [operator]).auths := by
  have h := alert_change_authorised administeredRun (envAt 2 [operator])
    (.pauseAlert operator 0) 0 (sampleAlert alice pool 1) (by rfl) (by decide)
  rcases h with howner | ⟨admin, admins, hadmins, hmem, hauth, -⟩
  · exact absurd howner (by decide)
  · exact ⟨admin, admins, hadmins, hmem, hauth⟩

end AlertRegistry
end TxWatch
