import TxWatch.WatcherRegistry.Refinement

/-!
# The abstract machine is exact

Every call that returns makes a step of the registry; here is the other
direction.  Whatever the storage, a call succeeds exactly if the registry has a
step for it, and answers, publishes and leaves what the step says.
-/

namespace TxWatch
namespace WatcherRegistry

open Soroban Soroban.Contract

section Enabled

variable {env : Env} {s : State} {call : Call} {resp : Response}
  {evs : List Event} {r' : Registry}

/-- The contract takes a step with this answer, these events and this registry. -/
def Takes (env : Env) (call : Call) (s : State) (resp : Response)
    (evs : List Event) (r' : Registry) : Prop :=
  ∃ s', (dispatch call).Returns env s.silenced resp s' ∧
    s'.events = evs ∧ s'.view = r'

/-- It is enough to know the storage that the call leaves. -/
theorem takes_of_done
    {m : Contract Unit} {s' : State}
    (hcall : dispatch call = done .unit m) (h : m.Returns env s.silenced () s')
    (hevs : s'.events = evs) (hview : s'.view = r') :
    Takes env call s .unit evs r' := by
  refine ⟨s', ?_, hevs, hview⟩
  rw [hcall, returns_done]
  exact ⟨h, rfl⟩

/-- Steps that change the admin set. -/
theorem takes_addAdmin
    {caller newAdmin : Address} {admins : List Address}
    (hpermits : s.view.Permits env caller) (hadmins : s.view.admins = some admins)
    (hnew : newAdmin ∉ admins) :
    Takes env (.addAdmin caller newAdmin) s .unit
      [⟨(.admin, .add), [.address caller, .address newAdmin]⟩]
      { s.view with admins := some (admins ++ [newAdmin]) } := by
  have hgetD : (State.view s.silenced).admins.getD [] = admins := by
    rw [view_silenced, hadmins, Option.getD_some]
  have hreturns := (@returns_addAdmin env s.silenced _ caller newAdmin ()).mpr
    ⟨hpermits, Or.inr ⟨by rwa [hgetD], rfl⟩⟩
  refine takes_of_done rfl hreturns rfl ?_
  rw [hgetD]
  rfl

theorem takes_removeAdmin
    {caller target : Address} {admins : List Address}
    (hpermits : s.view.Permits env caller) (hadmins : s.view.admins = some admins)
    (hlen : 1 < admins.length) :
    Takes env (.removeAdmin caller target) s .unit
      (removeAdminEvents caller target)
      { s.view with admins := some (admins.filter (fun a => a ≠ target)) } := by
  have hgetD : (State.view s.silenced).admins.getD [] = admins := by
    rw [view_silenced, hadmins, Option.getD_some]
  have hreturns := (@returns_removeAdmin env s.silenced _ caller target ()).mpr
    ⟨hpermits, by rwa [hgetD], rfl⟩
  refine takes_of_done rfl hreturns ?_ ?_
  · rw [events_adminRemoved]
    rfl
  · rw [view_adminRemoved, hgetD]
    rfl

/-- Every step of the registry is taken by the contract. -/
theorem takes_of_step
    (hstep : Registry.Step env s.view call resp evs r') :
    Takes env call s resp evs r' := by
  cases hstep with
  | query hquery hanswer =>
      exact ⟨_, (returns_query_iff hquery).mpr ⟨hanswer, rfl⟩,
        events_queried _ env call, view_queried _ env call⟩
  | @initialise admin hauth hnone =>
      exact takes_of_done rfl
        ((returns_initialise admin ()).mpr ⟨hauth, hnone, rfl⟩) rfl rfl
  | @keepAdmin caller newAdmin admins hpermits hadmins hmem =>
      have hgetD : newAdmin ∈ (State.view s.silenced).admins.getD [] := by
        rwa [view_silenced, hadmins, Option.getD_some]
      exact takes_of_done rfl ((returns_addAdmin caller newAdmin ()).mpr
        ⟨hpermits, Or.inl ⟨hgetD, rfl⟩⟩) rfl rfl
  | addAdmin hpermits hadmins hnew => exact takes_addAdmin hpermits hadmins hnew
  | removeAdmin hpermits hadmins hlen =>
      exact takes_removeAdmin hpermits hadmins hlen
  | @transferAdmin admin newAdmin admins hpermits hadmins hlen =>
      have hgetD : ((State.view s.silenced).admins.getD []).length ≤ 1 := by
        rwa [view_silenced, hadmins, Option.getD_some]
      exact takes_of_done rfl ((returns_transferAdmin admin newAdmin ()).mpr
        ⟨hpermits, hgetD, rfl⟩) rfl rfl
  | @keepWatcher admin w expiresAt label hpermits hlabel hinfo =>
      exact takes_of_done rfl
        ((returns_registerWatcher admin w expiresAt label ()).mpr
          ⟨hpermits, hlabel, Or.inl ⟨hinfo, rfl⟩⟩) rfl rfl
  | @register admin w expiresAt label hpermits hlabel hinfo hroom hcount =>
      exact takes_of_done rfl
        ((returns_registerWatcher admin w expiresAt label ()).mpr
          ⟨hpermits, hlabel, Or.inr ⟨hinfo, hroom, hcount, rfl⟩⟩) rfl rfl
  | @remove admin w hpermits hmem =>
      refine takes_of_done rfl ((returns_removeWatcher admin w ()).mpr
        ⟨hpermits, hmem, rfl⟩) ?_ ?_
      · rw [events_removed]
        rfl
      · rw [view_removed]
        rfl
  | @replace admin old new hpermits hmem =>
      refine takes_of_done rfl ((returns_replaceWatcher admin old new ()).mpr
        ⟨hpermits, hmem, rfl⟩) ?_ ?_
      · rw [events_replaced]
        rfl
      · rw [view_replaced]
        rfl
  | @batch admin ws hpermits hsize hroom hcount =>
      refine ⟨State.enrolled s.silenced env ws, ?_, ?_, ?_⟩
      · simp only [dispatch, returns_respond, returns_batchRegisterWatchers,
          view_silenced]
        exact ⟨_, ⟨hpermits, hsize, hroom, hcount, rfl, trivial⟩, rfl⟩
      · rw [events_enrolled]
        rfl
      · rw [view_enrolled]
        rfl
  | @renew admin w newExpiry hpermits hmem =>
      exact takes_of_done rfl ((returns_renewWatcher admin w newExpiry ()).mpr
        ⟨hpermits, hmem, rfl⟩) rfl rfl
  | @setPaused admin paused hauth hadmin =>
      exact takes_of_done rfl ((returns_setPaused admin paused ()).mpr
        ⟨hauth, hadmin, rfl⟩) rfl rfl
  | @clear admin hpermits =>
      refine takes_of_done rfl ((returns_clearAllWatchers admin ()).mpr
        ⟨hpermits, rfl⟩) ?_ ?_
      · rw [events_emptied]
        rfl
      · rw [view_emptied]
        rfl

/-- So a call for which the registry has a step succeeds with it. -/
theorem invoke_of_step
    (hstep : Registry.Step env s.view call resp evs r') :
    (invoke env call s).1 = .ok resp ∧
      (invoke env call s).2.events = evs ∧
      (invoke env call s).2.view = r' := by
  obtain ⟨s', hreturns, hevs, hview⟩ := takes_of_step hstep
  have heq : invoke env call s = (.ok resp, s') := transact_of_returns hreturns
  rw [heq]
  exact ⟨rfl, hevs, hview⟩

/-- A call that succeeds makes a step. -/
theorem step_of_ok (hok : (invoke env call s).1 = .ok resp) :
    Registry.Step env s.view call resp (invoke env call s).2.events
      (invoke env call s).2.view := by
  rcases invoke_refines env call s with ⟨resp', hok', hstep⟩ | ⟨⟨f, hf⟩, -⟩
  · obtain rfl : resp' = resp := Except.ok.inj (hok'.symm.trans hok)
    exact hstep
  · rw [hok] at hf
    exact absurd hf (by simp)

end Enabled

/-- In every storage, a call ends with an answer, publishes events and leaves a
registry exactly if the registry has that step. -/
theorem roster_exact
    (env : Env) (s : State) (call : Call) (resp : Response) (evs : List Event)
    (r' : Registry) :
    Registry.Step env s.view call resp evs r' ↔
      (invoke env call s).1 = .ok resp ∧
        (invoke env call s).2.events = evs ∧
        (invoke env call s).2.view = r' := by
  constructor
  · exact invoke_of_step
  · rintro ⟨hok, rfl, rfl⟩
    exact step_of_ok hok

/-- An admin, and a watcher whom he has registered. -/
def enrolledRun : List Step :=
  [.call (signedBy [keeper] 1) (.initialise keeper),
    .call (signedBy [keeper] 2) (.registerWatcher keeper sentry none none)]

/-- The removal of that watcher, as the registry allows it. -/
theorem dismissal_exact :
    Registry.Step (signedBy [keeper] 3)
      (run exec State.empty enrolledRun).view (.removeWatcher keeper sentry) .unit
      [⟨(.watcher, .remove), [.address sentry]⟩]
      (invoke (signedBy [keeper] 3) (.removeWatcher keeper sentry)
        (run exec State.empty enrolledRun)).2.view :=
  (roster_exact _ _ _ _ _ _).mpr ⟨by decide, by decide, rfl⟩

end WatcherRegistry
end TxWatch
