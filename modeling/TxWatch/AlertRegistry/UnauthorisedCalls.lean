import TxWatch.AlertRegistry.Values

/-!
# Calls that nobody has authorised

Without a signature a caller can read, renew lifetimes, and set up a contract
that has no admin.  Only the last of these changes a value: `initialize` names
an admin without asking for anyone's authorisation.
-/

namespace TxWatch
namespace AlertRegistry

open Soroban Soroban.Contract Indexed

section Steps

variable {env : Env} {r r' : Registry} {call : Call} {resp : Response}
  {evs : List Event}

/-- What a call without any authorisation may do. -/
inductive Call.Unsigned : Call → Prop
  | query {call : Call} : call.isQuery = true → Unsigned call
  | initialise (admin : Address) : Unsigned (.initialise admin)
  | bumpAlert (id ttl : Nat) : Unsigned (.bumpAlert id ttl)
  | bulkRenewTtl (ids : List Nat) : Unsigned (.bulkRenewTtl ids)

/-- Every other call that succeeds has been authorised by someone. -/
theorem Registry.Step.unsigned
    (h : Registry.Step env r call resp evs r') (hauths : env.auths = []) :
    call.Unsigned := by
  have hnobody : ∀ {a : Address}, a ∉ env.auths := by
    intro a
    rw [hauths]
    exact List.not_mem_nil
  cases h with
  | query hquery => exact .query hquery
  | initialise _ => exact .initialise _
  | bump _ _ => exact .bumpAlert _ _
  | bulkRenew _ => exact .bulkRenewTtl _
  | administer _ _ hauth _ _ _ => exact absurd hauth hnobody
  | enrol _ _ _ hauth _ _ => exact absurd hauth hnobody
  | amend _ _ _ hauth _ _ _ => exact absurd hauth hnobody
  | activate _ hauth _ _ => exact absurd hauth hnobody
  | deactivateAll _ hauth => exact absurd hauth hnobody
  | retarget _ hauth _ _ => exact absurd hauth hnobody
  | keepOwner _ hauth _ _ => exact absurd hauth hnobody
  | reown _ _ hauth _ _ _ => exact absurd hauth hnobody
  | remove _ hauth _ _ => exact absurd hauth hnobody
  | removeByAdmin _ hauth _ _ => exact absurd hauth hnobody

end Steps

section Calls

variable (s : State) (env : Env)

/-- The first `initialize` always succeeds and writes the admin set. -/
theorem invoke_initialise
    (admin : Address) (hnone : s.inst .admin = none) :
    invoke env (.initialise admin) s =
      (.ok .unit,
        State.emit (s.silenced.setInst .admin (.vec [admin]))
          ⟨(.admin, .init), [.address admin]⟩) := by
  apply invoke_of_returns
  simp only [dispatch, returns_done, returns_initialise]
  exact ⟨⟨hnone, trivial⟩, trivial⟩

/-- A call that nobody has authorised keeps every value, unless it is the first
`initialize`. -/
theorem sameValues_of_unauthorised
    (hauths : env.auths = []) (call : Call)
    (hcall : ∀ admin, call = .initialise admin → s.inst .admin ≠ none) :
    s.SameValues (invoke env call s).2 := by
  rcases invoke_cases env call s with ⟨resp, s', hreturns, heq⟩ | ⟨f, heq⟩
  · rw [heq]
    cases (step_of_returns hreturns).unsigned hauths with
    | query hquery => exact sameValues_of_query hquery hreturns
    | initialise admin =>
        simp only [dispatch, returns_done, returns_initialise] at hreturns
        obtain ⟨⟨hnone, -⟩, -⟩ := hreturns
        exact absurd hnone (hcall admin rfl)
    | bumpAlert id ttl => exact sameValues_of_bumpAlert hreturns
    | bulkRenewTtl ids => exact sameValues_of_bulkRenewTtl hreturns
  · rw [heq]
    exact (State.SameValues.refl _).of_silenced

end Calls

/-- In every reachable state, the uninitialised one included: a call that no
address has authorised leaves the values of all instance and persistent entries
as they were exactly if it is not an `initialize` of a contract without an
admin. -/
theorem unauthorised_change_iff
    (steps : List Step) (env : Env) (hauths : env.auths = []) (call : Call) :
    ((∀ i, (invoke env call (run exec State.empty steps)).2.inst i =
        (run exec State.empty steps).inst i) ∧
      (∀ k, (invoke env call (run exec State.empty steps)).2.persistent.get k =
        (run exec State.empty steps).persistent.get k)) ↔
      ¬ ((∃ admin, call = .initialise admin) ∧
        (run exec State.empty steps).inst .admin = none) := by
  constructor
  · rintro ⟨hinst, -⟩ ⟨⟨admin, rfl⟩, hnone⟩
    have hadmin := hinst .admin
    rw [invoke_initialise _ env admin hnone, hnone] at hadmin
    simp at hadmin
  · intro hcall
    have hsame := sameValues_of_unauthorised (run exec State.empty steps) env
      hauths call (fun admin heq hnone => hcall ⟨⟨admin, heq⟩, hnone⟩)
    exact ⟨hsame.inst, hsame.get⟩

/-- A stranger makes himself admin of a fresh contract without a signature. -/
theorem fresh_contract_seized :
    (envAt 1 []).auths = [] ∧
      (invoke (envAt 1 []) (.initialise bob) State.empty).2.inst .admin ≠
        State.empty.inst .admin := by
  exact ⟨by decide, by decide⟩

/-- A contract with an admin and an alert of alice. -/
def tenantRun : List Step :=
  [.call (envAt 1 [operator]) (.initialise operator),
    .call (envAt 2 [alice]) (sampleRegister alice pool)]

/-- Without a signature anybody renews the alert, nobody removes it, and either way
every value stays. -/
theorem tenantRun_unchanged :
    (invoke (envAt 9 []) (.bumpAlert 0 200000)
        (run exec State.empty tenantRun)).1 = .ok .unit ∧
      ((∀ i, (invoke (envAt 9 []) (.bumpAlert 0 200000)
            (run exec State.empty tenantRun)).2.inst i =
          (run exec State.empty tenantRun).inst i) ∧
        ∀ k, (invoke (envAt 9 []) (.bumpAlert 0 200000)
            (run exec State.empty tenantRun)).2.persistent.get k =
          (run exec State.empty tenantRun).persistent.get k) ∧
      (invoke (envAt 9 []) (.removeAlert alice 0)
        (run exec State.empty tenantRun)).1 ≠ .ok .unit ∧
      ((∀ i, (invoke (envAt 9 []) (.removeAlert alice 0)
            (run exec State.empty tenantRun)).2.inst i =
          (run exec State.empty tenantRun).inst i) ∧
        ∀ k, (invoke (envAt 9 []) (.removeAlert alice 0)
            (run exec State.empty tenantRun)).2.persistent.get k =
          (run exec State.empty tenantRun).persistent.get k) := by
  refine ⟨by decide, ?_, by decide, ?_⟩
  · exact (unauthorised_change_iff tenantRun (envAt 9 []) rfl (.bumpAlert 0 200000)).mpr
      (by simp)
  · exact (unauthorised_change_iff tenantRun (envAt 9 []) rfl (.removeAlert alice 0)).mpr
      (by simp)

end AlertRegistry
end TxWatch
