import TxWatch.AlertRegistry.Coalitions
import TxWatch.Gating.Noninterference

/-!
# Strangers and the gate

Who passes the gate is decided by the admins of the two contracts alone: a
coalition to which none of them belongs neither admits anybody nor keeps anybody
out, whatever its members call in either contract.
-/

namespace TxWatch

open Soroban

namespace WatcherRegistry

/-- The registry has an admin, and no admin belongs to the coalition. -/
def Registry.OutOfReach (C : Set Address) (r : Registry) : Prop :=
  r.admins ≠ none ∧ ∀ a, r.IsAdmin a → a ∉ C

/-- Whatever changes the registry has been authorised by an admin, but for the
first `initialize`. -/
theorem Registry.Step.eq_of_outOfReach
    {C : Set Address} {env : Env} {r r' : Registry} {call : Call}
    {resp : Response} {evs : List Event}
    (h : Registry.Step env r call resp evs r') (hreach : r.OutOfReach C)
    (hsigned : ∀ a ∈ env.auths, a ∈ C) :
    r' = r := by
  have hnot : ∀ {a}, r.Permits env a → False := fun hpermits =>
    hreach.2 _ hpermits.isAdmin (hsigned _ hpermits.auth)
  cases h with
  | query _ => rfl
  | initialise _ hnone => exact absurd hnone hreach.1
  | keepAdmin _ _ _ => rfl
  | keepWatcher _ _ _ => rfl
  | addAdmin hpermits _ _ => exact False.elim (hnot hpermits)
  | removeAdmin hpermits _ _ => exact False.elim (hnot hpermits)
  | transferAdmin hpermits _ _ => exact False.elim (hnot hpermits)
  | register hpermits _ _ _ _ => exact False.elim (hnot hpermits)
  | remove hpermits _ => exact False.elim (hnot hpermits)
  | replace hpermits _ => exact False.elim (hnot hpermits)
  | batch hpermits _ _ _ => exact False.elim (hnot hpermits)
  | renew hpermits _ => exact False.elim (hnot hpermits)
  | setPaused hauth hadmin => exact absurd (hsigned _ hauth) (hreach.2 _ hadmin)
  | clear hpermits => exact False.elim (hnot hpermits)

end WatcherRegistry

namespace Gating

/-- Whoever authorises the action belongs to the coalition. -/
def Action.SignedWithin (C : Set Address) : Action → Prop
  | .alerts env _ => ∀ a ∈ env.auths, a ∈ C
  | .watchers env _ => ∀ a ∈ env.auths, a ∈ C
  | .expireAlerts _ => True
  | .expireWatchers _ => True

/-- What `w'` has in common with `w`: the settings of both contracts and the
watchers with their expiries. -/
structure SameGate (w w' : World) : Prop where
  inst : ∀ i, i ≠ .nextId → w'.alerts.inst i = w.alerts.inst i
  admins : w'.watchers.view.admins = w.watchers.view.admins
  paused : w'.watchers.view.paused = w.watchers.view.paused
  watchers : w'.watchers.view.roster.watchers = w.watchers.view.roster.watchers
  expiries : w'.watchers.view.roster.expiries = w.watchers.view.roster.expiries

section Coalition

variable (wr : Address) {C : Set Address} {w v : World}

theorem SameGate.of_view
    (h : SameGate w v) {v' : World}
    (hinst : ∀ i, i ≠ .nextId → v'.alerts.inst i = v.alerts.inst i)
    (hview : v'.watchers.view = v.watchers.view) :
    SameGate w v' := by
  refine ⟨fun i hi => (hinst i hi).trans (h.inst i hi), ?_, ?_, ?_, ?_⟩ <;> rw [hview]
  · exact h.admins
  · exact h.paused
  · exact h.watchers
  · exact h.expiries

/-- No call of the coalition changes anything about the gate. -/
theorem SameGate.exec
    (h : SameGate w v) (halerts : w.alerts.view.OutOfReach C)
    (hwatchers : w.watchers.view.OutOfReach C) {a : Action}
    (hsigned : a.SignedWithin C) :
    SameGate w (exec wr v a) := by
  cases a with
  | alerts env call =>
      refine h.of_view ?_ (view_callAlerts wr env v call)
      have hreach : v.alerts.view.OutOfReach C := halerts.of_inst h.inst
      have hsame : (callAlerts wr env call v).2.alerts =
          (AlertRegistry.invoke (v.env wr env) call v.alerts).2 := by
        unfold callAlerts
        rcases AlertRegistry.invoke (v.env wr env) call v.alerts with ⟨f | resp, s⟩
        · rfl
        · rfl
      intro i hi
      rw [Gating.exec, hsame]
      rcases AlertRegistry.invoke_refines (v.env wr env) call v.alerts with
        ⟨resp, -, hstep⟩ | ⟨-, hview⟩
      · exact hstep.keepsSettings hreach hsigned i hi
      · exact congrFun (congrArg AlertRegistry.Registry.inst hview) i
  | watchers env call =>
      refine h.of_view (fun _ _ => rfl) ?_
      have hreach : v.watchers.view.OutOfReach C := by
        unfold WatcherRegistry.Registry.OutOfReach WatcherRegistry.Registry.IsAdmin
        rw [h.admins]
        exact hwatchers
      rcases WatcherRegistry.invoke_refines env call v.watchers with
        ⟨resp, -, hstep⟩ | ⟨-, hview⟩
      · exact hstep.eq_of_outOfReach hreach hsigned
      · exact hview
  | expireAlerts keys => exact h.of_view (fun _ _ => rfl) rfl
  | expireWatchers keys =>
      exact ⟨h.inst, h.admins, h.paused, h.watchers, h.expiries⟩

theorem sameGate_run
    (halerts : w.alerts.view.OutOfReach C)
    (hwatchers : w.watchers.view.OutOfReach C) {actions : List Action}
    (hsigned : ∀ a ∈ actions, a.SignedWithin C) :
    SameGate w (run (exec wr) w actions) := by
  have hrefl : SameGate w w := ⟨fun _ _ => rfl, rfl, rfl, rfl, rfl⟩
  exact run_preserves (C := fun _ a => a.SignedWithin C) (P := SameGate w)
    (fun v a ha h => SameGate.exec wr h halerts hwatchers ha) hrefl
    (along_of_forall_mem w actions hsigned)

end Coalition

/-- Take two contracts that both have admins, and a coalition without any of them.
Whatever the coalition does in either contract, in any order and with any expiry
of persistent entries in between, a gated query made afterwards passes exactly if its querier was
authorised for that time before; the others end in `NotAWatcher`. -/
theorem coalition_kept_out
    (wr : Address) (w : World) {C : Set Address}
    (halerts : w.alerts.view.OutOfReach C)
    (hwatchers : w.watchers.view.OutOfReach C)
    (hreg : w.alerts.inst .watchreg = some wr) {actions : List Action}
    (hsigned : ∀ a ∈ actions, a.SignedWithin C)
    (env : Env) {call : AlertRegistry.Call} {q : Address}
    (hcall : call.querier = some q) :
    ((∃ resp, (callAlerts wr env call (run (exec wr) w actions)).1 = .ok resp) ↔
        w.watchers.view.roster.Authorised env.timestamp q) ∧
      (¬ w.watchers.view.roster.Authorised env.timestamp q →
        (callAlerts wr env call (run (exec wr) w actions)).1 =
          .error (.error .notAWatcher)) := by
  have hsame := sameGate_run wr halerts hwatchers hsigned
  have hreg' : (run (exec wr) w actions).alerts.inst .watchreg = some wr :=
    (hsame.inst .watchreg (by simp)).trans hreg
  have hiff : (run (exec wr) w actions).watchers.view.roster.Authorised
      env.timestamp q ↔ w.watchers.view.roster.Authorised env.timestamp q := by
    unfold WatcherRegistry.Roster.Authorised
    rw [hsame.watchers, hsame.expiries]
  refine ⟨⟨?_, ?_⟩, ?_⟩
  · rintro ⟨resp, hok⟩
    exact hiff.mp (authorised_of_callAlerts hcall hreg' hok)
  · intro hauthorised
    have hreads : call.readsAlerts = true := by
      cases call <;> first | rfl | cases hcall
    have hnot : ¬ Refused (run (exec wr) w actions) env call := by
      rintro ⟨q', hq', hrefused⟩
      obtain rfl := Option.some.inj (hcall.symm.trans hq')
      exact hrefused (hiff.mpr hauthorised)
    exact ⟨_, callAlerts_of_not_refused hreg' hreads hnot⟩
  · intro hrefused
    exact callAlerts_refused hcall hreg' (fun h => hrefused (hiff.mp h))

section Samples

open AlertRegistry WatcherRegistry

/-- A stranger who tries to register himself with the watchers is not let in. -/
theorem stranger_kept_out :
    (callAlerts gatehouse (signedBy [scout] 9) (.getAlertsForContract scout pool)
      (run (exec gatehouse) gatedWorld
        [.watchers (signedBy [scout] 8) (.registerWatcher scout scout none none)])).1 =
      .error (.error .notAWatcher) := by
  have halerts : gatedWorld.alerts.view.OutOfReach {scout} := by
    refine ⟨by decide, ?_⟩
    rintro a ⟨admins, hadmins, hmem⟩ rfl
    obtain rfl : [operator] = admins := Option.some.inj hadmins
    exact absurd hmem (by decide)
  have hwatchers : gatedWorld.watchers.view.OutOfReach {scout} := by
    refine ⟨by decide, ?_⟩
    rintro a ⟨admins, hadmins, hmem⟩ rfl
    obtain rfl : [keeper] = admins := Option.some.inj hadmins
    exact absurd hmem (by decide)
  have hsigned : ∀ a ∈ [Action.watchers (signedBy [scout] 8)
      (.registerWatcher scout scout none none)], a.SignedWithin {scout} := by
    simp [Action.SignedWithin, signedBy]
  exact (coalition_kept_out gatehouse gatedWorld halerts hwatchers rfl hsigned
    (signedBy [scout] 9) rfl).2 (by decide)

end Samples

end Gating
end TxWatch
