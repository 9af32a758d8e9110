import TxWatch.WatcherRegistry.Specs

/-!
# What the queries of the watcher registry answer

A query answers what the registry says, and leaves the storage as it is, but that
the two which another contract may ask extend the lifetime of the instance entry.
-/

namespace TxWatch
namespace WatcherRegistry

open Soroban Soroban.Contract

/-- The storage after a query. -/
def State.queried (s : State) (env : Env) : Call → State
  | .isWatcherAuthorized _ | .isAuthorized _ =>
      s.extendInst env.sequence defaultTtl defaultTtl
  | _ => s

section Storages

variable (s : State) (env : Env) (call : Call)

@[simp] theorem persistent_queried :
    (s.queried env call).persistent = s.persistent := by
  cases call <;> rfl

@[simp] theorem inst_queried :
    (s.queried env call).inst = s.inst := by
  cases call <;> rfl

@[simp] theorem events_queried :
    (s.queried env call).events = s.events := by
  cases call <;> rfl

@[simp] theorem view_queried :
    (s.queried env call).view = s.view := by
  cases call <;> rfl

end Storages

section Queries

variable {env : Env} {s s' : State}

/-- The answer of `is_watcher_authorized`, which extends the lifetime of the
instance entry on the way. -/
@[simp] theorem returns_isWatcherAuthorized (w : Address) (b : Bool) :
    (isWatcherAuthorized w).Returns env s b s' ↔
      b = decide (s.view.roster.Authorised env.timestamp w) ∧
        s' = s.extendInst env.sequence defaultTtl defaultTtl := by
  simp only [isWatcherAuthorized, returns_bind, returns_extendInstanceTtl,
    returns_loadWatchers, returns_ite, returns_pure, returns_loadExpiries,
    returns_timestamp]
  constructor
  · rintro ⟨_, _, rfl, _, _, ⟨rfl, rfl⟩, ⟨hmem, rfl, rfl⟩ |
      ⟨hmem, _, _, ⟨rfl, rfl⟩, _, _, ⟨rfl, rfl⟩, h⟩⟩
    · have hnot : ¬ s.view.roster.Authorised env.timestamp w := by
        intro h
        exact hmem h.1
      simp [hnot]
    · have hin : w ∈ s.view.roster.watchers := not_not.mp hmem
      rw [view_extendInst] at h
      cases hexp : s.view.roster.expiries w with
      | none =>
          rw [hexp] at h
          simpa [Roster.authorised_of_none hin hexp] using h
      | some exp =>
          rw [hexp] at h
          simpa [Roster.authorised_iff_of_some hin hexp] using h
  · rintro ⟨rfl, rfl⟩
    refine ⟨(), _, rfl, _, _, ⟨rfl, rfl⟩, ?_⟩
    by_cases hmem : w ∈ s.view.roster.watchers
    · refine Or.inr ⟨not_not.mpr hmem, _, _, ⟨rfl, rfl⟩, _, _, ⟨rfl, rfl⟩, ?_⟩
      rw [view_extendInst]
      cases hexp : s.view.roster.expiries w with
      | none => simp [Roster.authorised_of_none hmem hexp]
      | some exp => simp [Roster.authorised_iff_of_some hmem hexp]
    · refine Or.inl ⟨hmem, ?_, rfl⟩
      rw [decide_eq_false_iff_not]
      intro h
      exact hmem h.1

@[simp] theorem returns_getAdmins (l : List Address) :
    getAdmins.Returns env s l s' ↔ s.view.admins = some l ∧ s' = s := by
  have hadmins : s.inst .admins = s.view.admins := by
    rfl
  simp only [getAdmins, returns_bind, returns_instanceGet, returns_rejectIf,
    returns_loadAdmins]
  constructor
  · rintro ⟨_, _, ⟨rfl, rfl⟩, _, _, ⟨hsome, rfl⟩, rfl, rfl⟩
    rw [hadmins] at hsome
    cases hview : s'.view.admins with
    | none => simp [hview] at hsome
    | some admins => exact ⟨rfl, rfl⟩
  · rintro ⟨hview, rfl⟩
    rw [← hadmins] at hview
    refine ⟨_, _, ⟨rfl, rfl⟩, (), _, ⟨by simp [hview], rfl⟩, ?_, rfl⟩
    rw [← hadmins, hview, Option.getD_some]

@[simp] theorem returns_isAdmin (a : Address) (b : Bool) :
    (isAdmin a).Returns env s b s' ↔
      b = decide (a ∈ s.view.admins.getD []) ∧ s' = s := by
  have hadmins : s.inst .admins = s.view.admins := by
    rfl
  cases hview : s.view.admins with
  | none => simp [isAdmin, hadmins, hview, and_comm]
  | some admins => simp [isAdmin, hadmins, hview, and_comm]

/-- The loop of `get_all_watchers_paginated` copies a stretch of the list. -/
theorem returns_watcherPageFrom
    (l : List Address) (count i : Nat) (page : List Address)
    (h : i + count ≤ l.length) :
    (watcherPageFrom l count i page).Returns env s
      (page ++ (l.drop i).take count) s := by
  induction count generalizing i page with
  | zero => simp [watcherPageFrom]
  | succ count ih =>
      have hlt : i < l.length := by
        omega
      have hrest : i + 1 + count ≤ l.length := by
        omega
      rw [List.drop_eq_getElem_cons hlt, List.take_succ_cons]
      simp only [watcherPageFrom, returns_bind, returns_unwrap]
      refine ⟨_, _, ⟨List.getElem?_eq_getElem hlt, rfl⟩, ?_⟩
      have hpage := ih (i + 1) (page ++ [l[i]]) hrest
      simpa using hpage

theorem returns_getAllWatchersPaginated (offset limit : Nat) :
    (getAllWatchersPaginated offset limit).Returns env s
      (s.view.roster.page offset limit) s := by
  simp only [getAllWatchersPaginated, returns_bind, returns_loadWatchers]
  refine ⟨_, _, ⟨rfl, rfl⟩, ?_⟩
  unfold Roster.page
  by_cases hoffset : offset ≤ s.view.roster.watchers.length
  · exact returns_watcherPageFrom _ _ offset [] (by omega)
  · -- Past the end the loop does not start.
    have hnone : min (saturatingAdd32 offset (min limit maxPageLimit))
        s.view.roster.watchers.length - offset = 0 := by
      omega
    rw [hnone]
    simp [watcherPageFrom]

end Queries

section Outcomes

variable {env : Env} {s s' t : State} {call : Call} {resp : Response}

/-- A query that returns in one way only. -/
theorem returns_iff_of_answer
    {resp₀ : Response} (hanswer : s.view.answer env call = some resp₀)
    (h : (dispatch call).Returns env s resp₀ t) :
    (dispatch call).Returns env s resp s' ↔
      s.view.answer env call = some resp ∧ s' = t := by
  rw [hanswer, Option.some.injEq]
  constructor
  · intro hreturns
    exact ⟨(h.unique hreturns).1, (h.unique hreturns).2.symm⟩
  · rintro ⟨rfl, rfl⟩
    exact h

/-- When a query returns, with which answer and in which storage. -/
theorem returns_query_iff (hcall : call.isQuery = true) :
    (dispatch call).Returns env s resp s' ↔
      s.view.answer env call = some resp ∧ s' = s.queried env call := by
  cases call with
  | isPaused =>
      refine returns_iff_of_answer rfl ?_
      simp [dispatch, isPaused, State.view, State.queried]
  | isWatcherAuthorized w =>
      refine returns_iff_of_answer rfl ?_
      simp [dispatch, State.queried]
  | isAuthorized w =>
      refine returns_iff_of_answer rfl ?_
      simp [dispatch, isAuthorized, State.queried]
  | getWatchers =>
      refine returns_iff_of_answer rfl ?_
      simp [dispatch, getWatchers, State.queried]
  | getAllWatchers =>
      refine returns_iff_of_answer rfl ?_
      simp [dispatch, getAllWatchers, State.queried]
  | getAllWatchersPaginated offset limit =>
      refine returns_iff_of_answer rfl ?_
      exact (returns_respond _ _ _).mpr
        ⟨_, returns_getAllWatchersPaginated offset limit, rfl⟩
  | getWatcherInfo w =>
      refine returns_iff_of_answer rfl ?_
      simp [dispatch, getWatcherInfo, State.view, State.queried]
  | getAdmins =>
      simp only [dispatch, Registry.answer, returns_respond, returns_getAdmins,
        State.queried]
      cases s.view.admins with
      | none => simp
      | some admins => simp [eq_comm, and_comm]
  | isInitialized =>
      refine returns_iff_of_answer rfl ?_
      simp [dispatch, isInitialized, State.view, State.queried]
  | isAdmin a =>
      refine returns_iff_of_answer rfl ?_
      simp [dispatch, State.queried]
  | getAdmin =>
      simp only [dispatch, getAdmin, Registry.answer, returns_respond, returns_bind,
        returns_getAdmins, returns_unwrap, State.queried]
      cases s.view.admins with
      | none => simp
      | some admins =>
          rw [Option.bind_some]
          cases hadmin : admins[0]? with
          | none => simp [hadmin]
          | some admin => simp [hadmin, eq_comm, and_comm]
  | getWatcherCount =>
      refine returns_iff_of_answer rfl ?_
      simp [dispatch, getWatcherCount, State.view, State.queried]
  | _ => cases hcall

end Outcomes

end WatcherRegistry
end TxWatch
