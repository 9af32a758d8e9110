import TxWatch.AlertRegistry.Readings
import TxWatch.WatcherRegistry.Expiries

/-!
# The two contracts together

A world is the storage of one alert registry and of the watcher registry
deployed at a given address.  A call of the alert registry is run with the
answers that this watcher registry gives at the same ledger.  When such a call
succeeds and has asked, the lifetime that `is_watcher_authorized` extends stays
extended.
-/

namespace TxWatch
namespace Gating

open Soroban

/-- Storage of the two contracts. -/
structure World where
  alerts : AlertRegistry.State
  watchers : WatcherRegistry.State

/-- Both contracts freshly deployed. -/
def World.empty : World where
  alerts := AlertRegistry.State.empty
  watchers := WatcherRegistry.State.empty

/-- What `is_watcher_authorized` answers to another contract. -/
def watcherAnswer (env : Env) (s : WatcherRegistry.State) (who : Address) :
    Option Bool :=
  match (WatcherRegistry.invoke env (.isWatcherAuthorized who) s).1 with
  | .ok (.bool b) => some b
  | _ => none

/-- The environment in which the alert registry runs: at `wr` it finds the
watcher registry of the world. -/
def World.env (w : World) (wr : Address) (env : Env) : Env :=
  { env with
    peer := fun registry who =>
      if registry = wr then watcherAnswer env w.watchers who
      else env.peer registry who }

/-- The watcher registry after a call of the alert registry that succeeded:
asked about a querier, it has extended its lifetime. -/
def World.asked (w : World) (wr : Address) (env : Env)
    (call : AlertRegistry.Call) : WatcherRegistry.State :=
  match call.querier, w.alerts.inst .watchreg with
  | some q, some registry =>
      if registry = wr then
        (WatcherRegistry.invoke env (.isWatcherAuthorized q) w.watchers).2
      else w.watchers
  | _, _ => w.watchers

/-- Outcome of a call of the alert registry, and the world it leaves. -/
def callAlerts (wr : Address) (env : Env) (call : AlertRegistry.Call)
    (w : World) :
    Except (Failure AlertRegistry.ContractError) AlertRegistry.Response ×
      World :=
  match AlertRegistry.invoke (w.env wr env) call w.alerts with
  | (.ok resp, s) => (.ok resp, ⟨s, w.asked wr env call⟩)
  | (.error f, s) => (.error f, ⟨s, w.watchers⟩)

/-- Outcome of a call of the watcher registry, and the world it leaves. -/
def callWatchers (env : Env) (call : WatcherRegistry.Call) (w : World) :
    Except (Failure WatcherRegistry.ContractError) WatcherRegistry.Response ×
      World :=
  match WatcherRegistry.invoke env call w.watchers with
  | (outcome, s) => (outcome, ⟨w.alerts, s⟩)

/-- What can happen: a call of either contract, or the disappearance of
persistent entries of either. -/
inductive Action where
  | alerts (env : Env) (call : AlertRegistry.Call)
  | watchers (env : Env) (call : WatcherRegistry.Call)
  | expireAlerts (keys : AlertRegistry.DataKey → Bool)
  | expireWatchers (keys : WatcherRegistry.DataKey → Bool)

/-- Effect of an action on the world. -/
def exec (wr : Address) (w : World) : Action → World
  | .alerts env call => (callAlerts wr env call w).2
  | .watchers env call => (callWatchers env call w).2
  | .expireAlerts keys =>
      { w with alerts := AlertRegistry.exec w.alerts (.expire keys) }
  | .expireWatchers keys =>
      { w with watchers := WatcherRegistry.exec w.watchers (.expire keys) }

section Answers

variable (wr : Address) (env : Env) (w : World)

/-- The watcher registry always answers, and says whether the address is
authorised at the time of the call. -/
theorem watcherAnswer_eq (s : WatcherRegistry.State) (who : Address) :
    watcherAnswer env s who =
      some (decide (s.view.roster.Authorised env.timestamp who)) := by
  rw [watcherAnswer, WatcherRegistry.invoke_isWatcherAuthorized]

@[simp] theorem peer_env (who : Address) :
    (w.env wr env).peer wr who =
      some (decide (w.watchers.view.roster.Authorised env.timestamp who)) := by
  rw [World.env]
  simp only [if_true]
  exact watcherAnswer_eq env w.watchers who

/-- Being asked leaves the watcher registry as it was. -/
theorem view_asked (call : AlertRegistry.Call) :
    (w.asked wr env call).view = w.watchers.view := by
  unfold World.asked
  split
  · split_ifs
    · rw [WatcherRegistry.invoke_isWatcherAuthorized]
      rfl
    · rfl
  · rfl

theorem callAlerts_fst (call : AlertRegistry.Call) :
    (callAlerts wr env call w).1 =
      (AlertRegistry.invoke (w.env wr env) call w.alerts).1 := by
  unfold callAlerts
  rcases AlertRegistry.invoke (w.env wr env) call w.alerts with ⟨f | resp, s⟩
  · rfl
  · rfl

/-- No call of the alert registry changes the watcher registry. -/
theorem view_callAlerts (call : AlertRegistry.Call) :
    (callAlerts wr env call w).2.watchers.view = w.watchers.view := by
  unfold callAlerts
  rcases AlertRegistry.invoke (w.env wr env) call w.alerts with ⟨f | resp, s⟩
  · rfl
  · exact view_asked wr env w call

end Answers

section Gate

open Soroban.Contract AlertRegistry

variable {env : Env} {s s' : AlertRegistry.State} {registry q : Address}

/-- The gate lets a querier pass whom the watcher registry confirms. -/
theorem returns_gate
    (hreg : s.inst .watchreg = some registry) (u : Unit) :
    (assertWatcherIfConfigured q).Returns env s u s' ↔
      env.peer registry q = some true ∧ s' = s := by
  simp [hreg]

/-- The gate turns away a querier whom the watcher registry denies. -/
theorem fails_gate
    (hreg : s.inst .watchreg = some registry)
    (hpeer : env.peer registry q = some false) :
    (assertWatcherIfConfigured q).Fails env s (.error .notAWatcher) s := by
  simp only [assertWatcherIfConfigured, fails_bind]
  refine Or.inr ⟨_, _, (returns_instanceGet _ _).mpr ⟨rfl, rfl⟩, ?_⟩
  rw [hreg]
  simp [hpeer]

/-- A gated query fails where its gate does. -/
theorem fails_of_gate
    {call : AlertRegistry.Call} {f : Failure AlertRegistry.ContractError}
    (hcall : call.querier = some q)
    (hgate : (assertWatcherIfConfigured q).Fails env s f s) :
    (dispatch call).Fails env s f s := by
  obtain ⟨m, hm⟩ := dispatch_of_querier hcall
  rw [hm]
  exact (fails_bind _ _ _).mpr (Or.inl ((fails_bind _ _ _).mpr (Or.inl hgate)))

end Gate

section Queries

variable {wr : Address} {env : Env} {w : World} {call : AlertRegistry.Call}
  {q : Address}

/-- With the gate in place, a query for somebody who is not authorised ends in
`NotAWatcher`. -/
theorem callAlerts_refused
    (hcall : call.querier = some q)
    (hreg : w.alerts.inst .watchreg = some wr)
    (hq : ¬ w.watchers.view.roster.Authorised env.timestamp q) :
    (callAlerts wr env call w).1 = .error (.error .notAWatcher) := by
  have hpeer : (w.env wr env).peer wr q = some false := by
    simp [hq]
  have hreg' : w.alerts.silenced.inst .watchreg = some wr := hreg
  rw [callAlerts_fst, AlertRegistry.invoke_of_fails
    (fails_of_gate hcall (fails_gate hreg' hpeer))]

/-- A gated query that succeeds has an authorised querier. -/
theorem authorised_of_callAlerts
    {resp : AlertRegistry.Response}
    (hcall : call.querier = some q)
    (hreg : w.alerts.inst .watchreg = some wr)
    (h : (callAlerts wr env call w).1 = .ok resp) :
    w.watchers.view.roster.Authorised env.timestamp q := by
  by_contra hq
  rw [callAlerts_refused hcall hreg hq] at h
  cases h

end Queries

section Samples

open AlertRegistry WatcherRegistry

/-- Where the watcher registry of the sample runs is deployed. -/
def gatehouse : Address := ⟨40⟩

/-- A watcher registry with one watcher, and an alert registry that asks it. -/
def gatedRun : List Action :=
  [.watchers (signedBy [keeper] 1) (.initialise keeper),
    .watchers (signedBy [keeper] 2) (.registerWatcher keeper sentry none none),
    .alerts (signedBy [operator] 3) (.initialise operator),
    .alerts (signedBy [operator] 4) (.setWatcherRegistry operator gatehouse),
    .alerts (signedBy [alice] 5) (sampleRegister alice pool)]

end Samples

end Gating
end TxWatch
