import TxWatch.AlertRegistry.Paging
import TxWatch.AlertRegistry.OverflowChecks
import TxWatch.WatcherRegistry.Refinement

/-!
# Reading either registry page by page

The alert registry cuts a page before it leaves out ids without an alert, or
after it has selected the active alerts, and the watcher registry walks from the
offset to the end of its page.  In all three ways the pages make up the unpaged
answer, whatever the storage, and none is longer than 50.
-/

namespace TxWatch

open Soroban Soroban.Contract Indexed

namespace WatcherRegistry

/-- The addresses with which a call answers. -/
def State.answered (s : State) (env : Env) (call : Call) : Option (List Address) :=
  match (invoke env call s).1 with
  | .ok (.addresses l) => some l
  | _ => none

section Pages

variable (env : Env) (s : State)

theorem answered_of_returns
    {call : Call} {l : List Address} {s' : State}
    (h : (dispatch call).Returns env s.silenced (.addresses l) s') :
    s.answered env call = some l := by
  rw [State.answered, invoke, transact_of_returns h]

theorem answered_getAllWatchers :
    s.answered env .getAllWatchers = some s.view.roster.watchers := by
  refine @answered_of_returns env s _ _ s.silenced ?_
  exact (returns_query_iff rfl).mpr ⟨rfl, rfl⟩

theorem answered_getAllWatchersPaginated (offset limit : Nat) :
    s.answered env (.getAllWatchersPaginated offset limit) =
      some (window s.view.roster.watchers offset
        (min (saturatingAdd32 offset (min limit maxPageLimit))
          s.view.roster.watchers.length - offset)) := by
  refine @answered_of_returns env s _ _ s.silenced ?_
  exact (returns_query_iff rfl).mpr ⟨rfl, rfl⟩

/-- On a list that a host vector can hold, a page is a plain window. -/
theorem answered_page
    (hlength : s.view.roster.watchers.length ≤ u32Max) (offset limit : Nat) :
    s.answered env (.getAllWatchersPaginated offset limit) =
      some (window s.view.roster.watchers offset (min limit maxPageLimit)) := by
  have hrest : (s.view.roster.watchers.drop offset).length =
      s.view.roster.watchers.length - offset :=
    List.length_drop
  rw [answered_getAllWatchersPaginated, window, window, Option.some_inj,
    List.take_eq_take_iff, hrest, saturatingAdd32]
  omega

theorem length_page_le
    {offset limit : Nat} {l : List Address}
    (h : s.answered env (.getAllWatchersPaginated offset limit) = some l) :
    l.length ≤ maxPageLimit := by
  rw [answered_getAllWatchersPaginated] at h
  cases h
  refine (length_window_le _ _ _).trans ?_
  rw [saturatingAdd32]
  omega

end Pages

end WatcherRegistry

namespace Gating

/-- Pages of a size from 1 to 50, read at the offsets `0`, `size`, `2 * size`
and so on up to the length of the paged list, make up the unpaged answer: by
contract and by owner, for active alerts, and for watchers.  No page has more
than 50 entries. -/
theorem pages_make_up_answers
    (env : Env) (alerts : AlertRegistry.State) (watchers : WatcherRegistry.State)
    (halerts : alerts.Hosted)
    (hwatchers : watchers.view.roster.watchers.length ≤ u32Max) :
    (∀ size, 1 ≤ size → size ≤ 50 →
      (∀ kind querier a whole,
        alerts.answered env (.listing kind querier a) = some whole →
        ReadInPages
          (fun offset limit =>
            alerts.answered env (.page kind querier a offset limit))
          size (alerts.listed kind a).length whole) ∧
      (∀ target whole,
        alerts.answered env (.getActiveAlertsForContract target) = some whole →
        ReadInPages
          (fun offset limit =>
            alerts.answered env (.getActiveAlertsPaginated target offset limit))
          size whole.length whole) ∧
      (∀ whole, watchers.answered env .getAllWatchers = some whole →
        ReadInPages
          (fun offset limit =>
            watchers.answered env (.getAllWatchersPaginated offset limit))
          size whole.length whole)) ∧
    (∀ kind querier a offset limit l,
      alerts.answered env (.page kind querier a offset limit) = some l →
        l.length ≤ 50) ∧
    (∀ target offset limit l,
      alerts.answered env (.getActiveAlertsPaginated target offset limit) =
        some l → l.length ≤ 50) ∧
    (∀ offset limit l,
      watchers.answered env (.getAllWatchersPaginated offset limit) = some l →
        l.length ≤ 50) := by
  refine ⟨?_, ?_, ?_, ?_⟩
  · intro size hsize hmax
    refine ⟨?_, ?_, ?_⟩
    · intro kind querier a whole hwhole
      exact AlertRegistry.readInPages_page env alerts hsize hmax (halerts kind a)
        hwhole
    · intro target whole hwhole
      exact AlertRegistry.readInPages_active env alerts hsize hmax
        (halerts .contract target) hwhole
    · intro whole hwhole
      rw [WatcherRegistry.answered_getAllWatchers] at hwhole
      cases hwhole
      refine readInPages_window hsize _ ?_
      intro offset _
      have hcap : min size WatcherRegistry.maxPageLimit = size :=
        min_eq_left hmax
      rw [WatcherRegistry.answered_page env watchers hwatchers, hcap]
  · intro kind querier a offset limit l h
    exact AlertRegistry.length_page_le env alerts h
  · intro target offset limit l h
    exact AlertRegistry.length_activePage_le env alerts h
  · intro offset limit l h
    exact WatcherRegistry.length_page_le env watchers h

/-- Two alerts of one contract, the first of them expired, and no watchers. -/
theorem pages_make_up_answers_stale :
    ReadInPages
      (fun offset limit =>
        (run AlertRegistry.exec AlertRegistry.State.empty
          AlertRegistry.staleRun).answered (AlertRegistry.envAt 3 [])
            (.page .contract AlertRegistry.alice AlertRegistry.pool offset limit))
      1 2 [AlertRegistry.sampleAlert AlertRegistry.alice AlertRegistry.pool 2] := by
  have halerts : (run AlertRegistry.exec AlertRegistry.State.empty
      AlertRegistry.staleRun).Hosted :=
    AlertRegistry.hosted_run (by decide)
  have hpages := pages_make_up_answers (AlertRegistry.envAt 3 []) _
    WatcherRegistry.State.empty halerts (by decide)
  exact (hpages.1 1 (by decide) (by decide)).1 .contract AlertRegistry.alice
    AlertRegistry.pool _ (by decide)

end Gating
end TxWatch
