import TxWatch.AlertRegistry.Reachability

/-!
# What comes before `require_auth`

`SECURITY.md` demands that `require_auth` be the very first instruction of every
mutating function, so that a call nobody signed ends alike in all storages.  Some
of the functions it lists ask first whether the contract is paused,
`register_alert` also looks at the hash, and `initialize` asks for no
authorisation at all.  `unsigned_outcome_iff` says when that makes a difference.
-/

namespace TxWatch
namespace AlertRegistry

open Soroban Soroban.Contract Indexed

namespace Call

/-- The address that an entry point of the audit names as its caller, owner or
admin. -/
def audited : Call → Option Address
  | .registerAlert owner _ _ _ _ _ => some owner
  | .updateAlert caller _ _ _ => some caller
  | .updateWebhook caller _ _ => some caller
  | .proposeWebhook caller _ _ => some caller
  | .confirmWebhook caller _ => some caller
  | .removeAlert caller _ => some caller
  | .removeAlertByAdmin admin _ => some admin
  | .initialise admin => some admin
  | .transferAdmin admin _ => some admin
  | .setPerOwnerAlertLimit admin _ => some admin
  | _ => none

/-- The arguments let the call get as far as `require_auth`, if there is one. -/
def ReachesAuth : Call → Prop
  | .initialise _ => False
  | .registerAlert _ _ _ webhookHash _ _ => webhookHash.len = 64
  | _ => True

end Call

section Failures

variable {env : Env} {s s' : State}

@[simp] theorem fails_assertNotPaused (f : Failure ContractError) :
    assertNotPaused.Fails env s f s' ↔
      s.view.paused = true ∧ f = .error .contractPaused ∧ s' = s := by
  simp [assertNotPaused, isPaused, Registry.paused, State.view]

/-- A call is refused with a failure exactly if its entry point ends in it. -/
theorem invoke_eq_error_iff
    (env : Env) (call : Call) (s : State) (f : Failure ContractError) :
    invoke env call s = (.error f, s.silenced) ↔
      ∃ s', (dispatch call).Fails env s.silenced f s' := by
  constructor
  · intro h
    rcases hrun : (dispatch call).run env s.silenced with ⟨g | resp, s'⟩
    · rw [invoke_of_fails hrun] at h
      obtain rfl : g = f := by simpa using h
      exact ⟨s', hrun⟩
    · rw [invoke_of_returns hrun] at h
      simp at h
  · rintro ⟨s', hfails⟩
    exact invoke_of_fails hfails

end Failures

/-- An unsigned call of an audited entry point ends in the authorisation failure
exactly if nothing in front of `require_auth` ends it first. -/
theorem invoke_unsigned_iff
    {call : Call} {a : Address} (haudited : call.audited = some a)
    {env : Env} (hauth : a ∉ env.auths) (s : State) :
    invoke env call s = (.error .authFailed, s.silenced) ↔
      call.ReachesAuth ∧ (call.asksPaused = true → s.view.paused = false) := by
  rw [invoke_eq_error_iff]
  cases call with
  | initialise admin =>
      simp [dispatch, initialise, setAdmins, Call.ReachesAuth]
  | registerAlert owner target label webhookHash rules tags =>
      obtain rfl := Option.some.inj haudited
      simp [dispatch, registerAlert, hauth, Call.ReachesAuth, Call.asksPaused,
        and_comm]
  | updateAlert caller id rules active =>
      obtain rfl := Option.some.inj haudited
      simp [dispatch, updateAlert, hauth, Call.ReachesAuth, Call.asksPaused]
  | updateWebhook caller id webhookHash =>
      obtain rfl := Option.some.inj haudited
      simp [dispatch, updateWebhook, hauth, Call.ReachesAuth, Call.asksPaused]
  | proposeWebhook caller id newWebhookHash =>
      obtain rfl := Option.some.inj haudited
      simp [dispatch, proposeWebhook, hauth, Call.ReachesAuth, Call.asksPaused]
  | confirmWebhook caller id =>
      obtain rfl := Option.some.inj haudited
      simp [dispatch, confirmWebhook, hauth, Call.ReachesAuth, Call.asksPaused]
  | removeAlert caller id =>
      obtain rfl := Option.some.inj haudited
      simp [dispatch, removeAlert, hauth, Call.ReachesAuth, Call.asksPaused]
  | removeAlertByAdmin admin id =>
      obtain rfl := Option.some.inj haudited
      simp [dispatch, removeAlertByAdmin, hauth, Call.ReachesAuth, Call.asksPaused]
  | transferAdmin admin newAdmin =>
      obtain rfl := Option.some.inj haudited
      simp [dispatch, transferAdmin, hauth, Call.ReachesAuth, Call.asksPaused]
  | setPerOwnerAlertLimit admin limit =>
      obtain rfl := Option.some.inj haudited
      simp [dispatch, setPerOwnerAlertLimit, hauth, Call.ReachesAuth,
        Call.asksPaused]
  | _ => simp [Call.audited] at haudited

/-- For every audited entry point, its arguments and any two storages: a call not
authorised by the address it names ends in the authorisation failure in both,
leaving both unchanged, exactly if it is no `initialize`, a hash to register has
64 bytes, and neither contract is paused where the entry point asks for it. -/
theorem unsigned_outcome_iff
    (env : Env) (call : Call) (a : Address)
    (haudited : call.audited = some a) (hauth : a ∉ env.auths) (s t : State) :
    (invoke env call s = (.error .authFailed, s.silenced) ∧
        invoke env call t = (.error .authFailed, t.silenced)) ↔
      call.ReachesAuth ∧
        (call.asksPaused = true →
          s.view.paused = false ∧ t.view.paused = false) := by
  rw [invoke_unsigned_iff haudited hauth s, invoke_unsigned_iff haudited hauth t]
  constructor
  · rintro ⟨⟨hreaches, hs⟩, -, ht⟩
    exact ⟨hreaches, fun hasks => ⟨hs hasks, ht hasks⟩⟩
  · rintro ⟨hreaches, hpaused⟩
    exact ⟨⟨hreaches, fun hasks => (hpaused hasks).1⟩,
      hreaches, fun hasks => (hpaused hasks).2⟩

/-- A contract that its admin has paused. -/
def haltedRun : List Step :=
  [.call (envAt 1 [operator]) (.initialise operator),
    .call (envAt 2 [operator]) (.setPaused operator true)]

/-- Without a signature a stranger learns from `remove_alert` whether the contract
is paused, and becomes admin of one that has none. -/
theorem stranger_learns_pause :
    (envAt 3 []).auths = [] ∧
      (Call.removeAlert alice 0).audited = some alice ∧
      (Call.initialise bob).audited = some bob ∧
      (invoke (envAt 3 []) (.removeAlert alice 0)
        (run exec State.empty haltedRun)).1 = .error (.error .contractPaused) ∧
      (invoke (envAt 3 []) (.removeAlert alice 0) State.empty).1 =
        .error .authFailed ∧
      (invoke (envAt 3 []) (.initialise bob) State.empty).1 = .ok .unit ∧
      (invoke (envAt 3 []) (.initialise bob)
        (run exec State.empty haltedRun)).1 =
          .error (.error .alreadyInitialized) := by
  exact ⟨rfl, rfl, rfl, rfl, rfl, rfl, rfl⟩

/-- Asking for authorisation first hides it. -/
theorem proposal_hides_pause :
    (invoke (envAt 3 []) (.proposeWebhook alice 0 sampleHash)
          (run exec State.empty haltedRun) =
        (.error .authFailed, (run exec State.empty haltedRun).silenced) ∧
      invoke (envAt 3 []) (.proposeWebhook alice 0 sampleHash) State.empty =
        (.error .authFailed, State.empty.silenced)) ↔
      (Call.proposeWebhook alice 0 sampleHash).ReachesAuth ∧
        ((Call.proposeWebhook alice 0 sampleHash).asksPaused = true →
          (run exec State.empty haltedRun).view.paused = false ∧
            State.empty.view.paused = false) := by
  exact unsigned_outcome_iff (envAt 3 []) (.proposeWebhook alice 0 sampleHash) alice
    (by rfl) (by decide) (run exec State.empty haltedRun) State.empty

end AlertRegistry
end TxWatch
