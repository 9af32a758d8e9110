import TxWatch.Gating.System

/-!
# Revocation

The grants of the watcher registry decide who passes the gate of the alert
registry, and calls of the alert registry change none of them.  A watcher that
has been revoked therefore stays out, whatever is called in whichever order,
until the watcher registry admits it again.
-/

namespace TxWatch
namespace Gating

open Soroban Access

/-- Calls of the watcher registry that revoke `q`. -/
def Revokes (q : Address) : WatcherRegistry.Call → Prop
  | .removeWatcher _ w => w = q
  | .clearAllWatchers _ => True
  | .replaceWatcher _ old new => old = q ∧ new ≠ q
  | _ => False

/-- Calls of the watcher registry that admit `q`. -/
def Admits (q : Address) : WatcherRegistry.Call → Prop
  | .registerWatcher _ w _ _ => w = q
  | .batchRegisterWatchers _ ws => q ∈ ws
  | .replaceWatcher _ _ new => new = q
  | _ => False

/-- The action is a call of the watcher registry that admits `q` and
succeeds. -/
def Action.Readmits (w : World) (q : Address) : Action → Prop
  | .watchers env call =>
      Admits q call ∧ ∃ resp, (callWatchers env call w).1 = .ok resp
  | _ => False

/-- The step that an action is to the watcher registry. -/
def Action.watcherStep : Action → Option WatcherRegistry.Step
  | .watchers env call => some (.call env call)
  | .expireWatchers keys => some (.expire keys)
  | _ => none

/-- What an action changes about the grants. -/
def Action.changes (w : World) (a : Action) : List (Change Address Nat) :=
  match a.watcherStep with
  | some st => st.changes w.watchers
  | none => []

section Tracking

variable (wr : Address)

/-- What an action does to the watcher registry. -/
theorem view_exec (w : World) (a : Action) :
    (exec wr w a).watchers.view =
      match a.watcherStep with
      | some st => (WatcherRegistry.exec w.watchers st).view
      | none => w.watchers.view := by
  cases a with
  | alerts env call => exact view_callAlerts wr env w call
  | watchers env call => rfl
  | expireAlerts keys => rfl
  | expireWatchers keys => rfl

/-- The two contracts together are tracked by the changes of the grants. -/
theorem tracked :
    Tracked (exec wr) (fun w => w.watchers.view.roster.Coherent)
      (fun w => w.watchers.view.roster.grants) (fun w a => a.changes w) := by
  refine ⟨?_, ?_⟩
  · intro w a hw
    rw [view_exec]
    cases a.watcherStep with
    | some st => exact WatcherRegistry.tracked.keeps w.watchers st hw
    | none => exact hw
  · intro w a hw
    rw [view_exec, Action.changes]
    cases a.watcherStep with
    | some st => exact WatcherRegistry.tracked.follows w.watchers st hw
    | none => rfl

theorem coherent_run (actions : List Action) :
    (run (exec wr) World.empty actions).watchers.view.roster.Coherent := by
  exact (tracked wr).inv_run WatcherRegistry.coherent_empty

end Tracking

section Changes

variable {w : World} {q : Address}

/-- A successful revocation leaves no grant. -/
theorem grants_of_revokes
    (wr : Address) {env : Env} {call : WatcherRegistry.Call}
    {resp : WatcherRegistry.Response}
    (hw : w.watchers.view.roster.Coherent) (hcall : Revokes q call)
    (hok : (callWatchers env call w).1 = .ok resp) :
    (exec wr w (.watchers env call)).watchers.view.roster.grants q = none := by
  have hfollows := (tracked wr).follows w (.watchers env call) hw
  have hchanges : Action.changes w (.watchers env call) =
      call.changes w.watchers.view.roster :=
    WatcherRegistry.Step.changes_of_ok hok
  simp only [hchanges] at hfollows
  rw [hfollows]
  cases call with
  | removeWatcher admin v =>
      have hv : v = q := hcall
      subst hv
      exact Change.apply_revoke_self
  | clearAllWatchers admin => rfl
  | replaceWatcher admin old new =>
      obtain ⟨hold, hnew⟩ : old = q ∧ new ≠ q := hcall
      subst hold
      rw [WatcherRegistry.Call.changes, WatcherRegistry.Roster.replaceChanges,
        run_cons]
      refine Change.run_eq_none Change.apply_revoke_self ?_
      intro c hc
      split_ifs at hc
      · exact absurd hc List.not_mem_nil
      · obtain rfl := List.mem_singleton.mp hc
        exact hnew
  | _ => exact False.elim hcall

/-- While `q` holds no grant, a call that grants it access admits it: a renewal
of somebody who is not listed fails. -/
theorem admits_of_grantsTo
    {env : Env} {call : WatcherRegistry.Call} {resp : WatcherRegistry.Response}
    {c : Change Address Nat}
    (hnone : w.watchers.view.roster.grants q = none)
    (hok : (callWatchers env call w).1 = .ok resp)
    (hc : c ∈ call.changes w.watchers.view.roster) (hgrants : c.GrantsTo q) :
    Admits q call := by
  have hnames : call.Names q :=
    WatcherRegistry.Call.names_of_concerns hc hgrants.concerns
  cases call with
  | registerWatcher admin v expiresAt label => exact hnames
  | removeWatcher admin v =>
      obtain rfl := List.mem_singleton.mp hc
      exact False.elim hgrants
  | replaceWatcher admin old new =>
      rcases List.mem_cons.mp hc with rfl | hc
      · exact False.elim hgrants
      · split_ifs at hc
        · exact absurd hc List.not_mem_nil
        · obtain rfl := List.mem_singleton.mp hc
          exact hgrants
  | batchRegisterWatchers admin ws => exact hnames
  | renewWatcher admin v newExpiry =>
      have hv : v = q := hnames
      subst hv
      have hmem := WatcherRegistry.mem_of_renewed hok
      exact absurd hmem (WatcherRegistry.Roster.grants_eq_none_iff.mp hnone)
  | clearAllWatchers admin =>
      obtain rfl := List.mem_singleton.mp hc
      exact False.elim hgrants
  | _ => exact absurd hc List.not_mem_nil

/-- While `q` holds no grant, an action that does not readmit it grants it no
access. -/
theorem not_grantsTo_of_not_readmits
    {a : Action} (ha : ¬ a.Readmits w q)
    (hnone : w.watchers.view.roster.grants q = none) :
    ∀ c ∈ a.changes w, ¬ c.GrantsTo q := by
  intro c hc hgrants
  cases a with
  | alerts env call => exact absurd hc List.not_mem_nil
  | watchers env call =>
      rcases WatcherRegistry.invoke_refines env call w.watchers with
        ⟨resp, hok, -⟩ | ⟨⟨f, herror⟩, -⟩
      · have hchanges : Action.changes w (.watchers env call) =
            call.changes w.watchers.view.roster :=
          WatcherRegistry.Step.changes_of_ok hok
        rw [hchanges] at hc
        exact ha ⟨admits_of_grantsTo hnone hok hc hgrants, resp, hok⟩
      · have hchanges : Action.changes w (.watchers env call) = [] :=
          WatcherRegistry.Step.changes_of_error herror
        rw [hchanges] at hc
        exact absurd hc List.not_mem_nil
  | expireAlerts keys => exact absurd hc List.not_mem_nil
  | expireWatchers keys => exact absurd hc List.not_mem_nil

end Changes

/-- After any interleaving of calls of the two contracts: a gated query that
succeeds has a querier who is listed and not past its expiry; and once a
watcher has been removed, cleared or replaced by another, every gated query
with it as querier ends in `NotAWatcher` until a call that succeeds admits it
again. -/
theorem revocation_lasting (wr : Address) (before : List Action) (q : Address) :
    (∀ (env : Env) (call : AlertRegistry.Call) (resp : AlertRegistry.Response),
        call.querier = some q →
        (run (exec wr) World.empty before).alerts.inst .watchreg = some wr →
        (callAlerts wr env call (run (exec wr) World.empty before)).1 =
          .ok resp →
        q ∈ (run (exec wr) World.empty before).watchers.watchers ∧
          ∀ exp ∈ (run (exec wr) World.empty
            before).watchers.view.roster.expiries q,
            env.timestamp ≤ exp) ∧
      ∀ (env : Env) (revoking : WatcherRegistry.Call)
        (resp : WatcherRegistry.Response) (after : List Action),
        Revokes q revoking →
        (callWatchers env revoking (run (exec wr) World.empty before)).1 =
          .ok resp →
        Along (exec wr) (fun w a => ¬ a.Readmits w q)
          (exec wr (run (exec wr) World.empty before) (.watchers env revoking))
          after →
        (run (exec wr)
          (exec wr (run (exec wr) World.empty before) (.watchers env revoking))
          after).alerts.inst .watchreg = some wr →
        ∀ (later : Env) (call : AlertRegistry.Call), call.querier = some q →
          (callAlerts wr later call
            (run (exec wr)
              (exec wr (run (exec wr) World.empty before)
                (.watchers env revoking))
              after)).1 = .error (.error .notAWatcher) := by
  refine ⟨?_, ?_⟩
  · intro env call resp hcall hreg hok
    exact authorised_of_callAlerts hcall hreg hok
  · intro env revoking resp after hrevokes hok hafter hreg later call hcall
    have hcoherent := coherent_run wr before
    have hrevoked := grants_of_revokes wr hcoherent hrevokes hok
    have hend := (tracked wr).revoked_until_granted
      ((tracked wr).keeps _ _ hcoherent) hrevoked
      (fun _ _ ha _ hnone => not_grantsTo_of_not_readmits ha hnone) hafter
    refine callAlerts_refused hcall hreg ?_
    rw [WatcherRegistry.Roster.authorised_iff_admits]
    exact Grants.not_admits_of_none hend

section Samples

open WatcherRegistry AlertRegistry

/-- The removed watcher asks in vain, also after another one has been
registered and has read. -/
theorem gatedRun_revoked :
    (callAlerts gatehouse (signedBy [sentry] 9)
      (.getAlertsForContract sentry pool)
      (run (exec gatehouse)
        (exec gatehouse (run (exec gatehouse) World.empty gatedRun)
          (.watchers (signedBy [keeper] 6) (.removeWatcher keeper sentry)))
        [.watchers (signedBy [keeper] 7)
            (.registerWatcher keeper scout none none),
          .alerts (signedBy [scout] 8) (.getAlertsForContract scout pool)])).1 =
      .error (.error .notAWatcher) := by
  refine (revocation_lasting gatehouse gatedRun sentry).2 (signedBy [keeper] 6)
    (.removeWatcher keeper sentry) .unit _ rfl rfl ?_ rfl _ _ rfl
  refine ⟨?_, ?_, trivial⟩
  · rintro ⟨hadmits, -⟩
    have hscout : scout = sentry := hadmits
    exact absurd hscout (by decide)
  · exact id

end Samples

end Gating
end TxWatch
