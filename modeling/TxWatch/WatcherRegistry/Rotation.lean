import TxWatch.WatcherRegistry.Expiries
import TxWatch.WatcherRegistry.WatcherInfo

/-!
# Registering a watcher and rotating its key

A registration that succeeds should leave the watcher registered, and a
replacement should hand over without a gap.  The former looks for metadata
instead of looking into the list; the latter leaves the expiry of a new address
alone that was on the list before, and that may be past.
-/

namespace TxWatch
namespace WatcherRegistry

open Soroban Soroban.Contract

namespace Roster

/-- The counter covers the list.  It may exceed it, since `register_watcher` can
list an address twice and a removal counts once. -/
def Counted (r : Roster) : Prop :=
  r.watchers.length ≤ r.count

variable {r : Roster} {v w : Address}

theorem length_others_lt (hw : w ∈ r.watchers) :
    (r.others w).length < r.watchers.length := by
  have hnot : ¬ (r.others w).length = r.watchers.length := by
    intro hlength
    have hall := List.length_filter_eq_length_iff.mp hlength
    exact absurd (hall w hw) (by simp)
  exact lt_of_le_of_ne (List.length_filter_le _ _) hnot

theorem Counted.register
    (h : r.Counted) (expiresAt : Option Nat) :
    (r.register w expiresAt).Counted := by
  change (r.watchers ++ [w]).length ≤ r.count + 1
  rw [List.length_append, List.length_singleton]
  exact Nat.succ_le_succ h

theorem Counted.remove
    (h : r.Counted) (hw : w ∈ r.watchers) :
    (r.remove w).Counted := by
  have hlt := length_others_lt hw
  have hle : r.watchers.length ≤ r.count := h
  change (r.others w).length ≤ r.count - 1
  omega

theorem Counted.replace
    (h : r.Counted) (hw : w ∈ r.watchers) (new : Address) (info : WatcherInfo) :
    (r.replace w new info).Counted := by
  have hlt := length_others_lt hw
  have hle : r.watchers.length ≤ r.count := h
  unfold Roster.replace
  split_ifs with hnew
  · change (r.others w).length ≤ r.count - 1
    omega
  · change (r.others w ++ [new]).length ≤ r.count
    rw [List.length_append, List.length_singleton]
    omega

theorem Counted.registerAll
    (h : r.Counted) (ws : List Address) :
    (r.registerAll ws).Counted := by
  change (r.watchers ++ newcomers r.watchers ws).length ≤
    r.count + (newcomers r.watchers ws).length
  rw [List.length_append]
  exact Nat.add_le_add_right h _

section Replacement

variable {old new : Address}

theorem mem_replace_of_ne
    (info : WatcherInfo) (hold : w ≠ old) (hnew : w ≠ new) :
    w ∈ (r.replace old new info).watchers ↔ w ∈ r.watchers := by
  unfold Roster.replace
  split_ifs with hmem
  · simp [hold]
  · simp [hold, hnew]

theorem not_mem_replace_old (info : WatcherInfo) (hne : old ≠ new) :
    old ∉ (r.replace old new info).watchers := by
  unfold Roster.replace
  split_ifs with hmem
  · exact not_mem_others
  · simp [hne]

theorem mem_replace_new (info : WatcherInfo) :
    new ∈ (r.replace old new info).watchers := by
  unfold Roster.replace
  split_ifs with hmem
  · exact hmem
  · simp

theorem expiries_replace (info : WatcherInfo) :
    (r.replace old new info).expiries =
      Function.update r.expiries old none := by
  unfold Roster.replace
  split_ifs <;> rfl

/-- The new watcher is authorised as far as its own expiry allows. -/
theorem authorised_replace_new
    (info : WatcherInfo) (hne : old ≠ new) (now : Nat) :
    (r.replace old new info).Authorised now new ↔
      ∀ exp ∈ r.expiries new, now ≤ exp := by
  unfold Authorised
  rw [expiries_replace, Function.update_of_ne hne.symm]
  simp only [mem_replace_new, true_and]

theorem authorised_replace_of_ne
    (info : WatcherInfo) (hold : w ≠ old) (hnew : w ≠ new) (now : Nat) :
    (r.replace old new info).Authorised now w ↔ r.Authorised now w := by
  unfold Authorised
  rw [mem_replace_of_ne info hold hnew, expiries_replace,
    Function.update_of_ne hold]

theorem count_replace (info : WatcherInfo) (hne : old ≠ new) :
    (r.replace old new info).count =
      if new ∈ r.watchers then r.count - 1 else r.count := by
  have hiff : new ∈ r.others old ↔ new ∈ r.watchers := by
    simp [hne.symm]
  unfold Roster.replace
  by_cases hnew : new ∈ r.watchers
  · rw [if_pos (hiff.mpr hnew), if_pos hnew]
  · rw [if_neg (fun h => hnew (hiff.mp h)), if_neg hnew]

end Replacement

end Roster

section Counting

theorem Registry.Step.counted
    {env : Env} {r r' : Registry} {call : Call} {resp : Response}
    {evs : List Event}
    (h : Registry.Step env r call resp evs r') (hr : r.roster.Counted) :
    r'.roster.Counted := by
  cases h with
  | query _ => exact hr
  | initialise _ _ => exact hr
  | keepAdmin _ _ _ => exact hr
  | addAdmin _ _ _ => exact hr
  | removeAdmin _ _ _ => exact hr
  | transferAdmin _ _ _ => exact hr
  | keepWatcher _ _ _ => exact hr
  | register _ _ _ _ _ => exact hr.register _
  | remove _ hmem => exact hr.remove hmem
  | replace _ hmem => exact hr.replace hmem _ _
  | batch _ _ _ _ => exact hr.registerAll _
  | renew _ _ => exact hr
  | setPaused _ _ => exact hr
  | clear _ => exact Nat.le_refl 0

theorem counted_run (steps : List Step) :
    (run exec State.empty steps).view.roster.Counted := by
  exact run_induction (P := fun r => r.roster.Counted) (Nat.le_refl 0)
    (fun h hr => h.counted hr) (fun _ _ hr => hr) steps

end Counting

section Rotation

/-- The storage `s'` is left by a replacement of `old` by `new` in `s`, without
a gap: now `old` is no longer authorised and `new` is, nothing has changed for
anybody else, and the count has gone down by one if `new` was on the list. -/
structure HandsOver (now : Nat) (old new : Address) (s s' : State) : Prop where
  retired : ∀ env : Env, env.timestamp = now →
    (invoke env (.isWatcherAuthorized old) s').1 = .ok (.bool false)
  installed : ∀ env : Env, env.timestamp = now →
    (invoke env (.isWatcherAuthorized new) s').1 = .ok (.bool true)
  others : ∀ (env : Env) (w : Address), w ≠ old → w ≠ new →
    (invoke env (.isWatcherAuthorized w) s').1 =
      (invoke env (.isWatcherAuthorized w) s).1
  count : ∀ env : Env, ∃ n n' : Nat,
    (invoke env .getWatcherCount s).1 = .ok (.number n) ∧
    (invoke env .getWatcherCount s').1 = .ok (.number n') ∧
    if new ∈ s.watchers then n' + 1 = n else n' = n

variable {env : Env} {s : State} {admin old new : Address} {resp : Response}

/-- What a replacement that succeeds leaves. -/
theorem view_of_replaceWatcher
    (hok : (invoke env (.replaceWatcher admin old new) s).1 = .ok resp) :
    old ∈ s.view.roster.watchers ∧
      (invoke env (.replaceWatcher admin old new) s).2.view.roster =
        s.view.roster.replace old new (replacementInfo env admin new) := by
  rcases invoke_refines env (.replaceWatcher admin old new) s with
    ⟨resp', -, hstep⟩ | ⟨⟨f, herror⟩, -⟩
  · generalize (invoke env (.replaceWatcher admin old new) s).2.view = r',
      (invoke env (.replaceWatcher admin old new) s).2.events = evs at hstep ⊢
    cases hstep with
    | query hquery => simp [Call.isQuery] at hquery
    | replace _ hmem => exact ⟨hmem, rfl⟩
  · rw [herror] at hok
    cases hok

/-- In every reachable state, a replacement that succeeds hands over without a
gap exactly when the new watcher has no expiry that is past. -/
theorem hands_over_iff
    (steps : List Step) (env : Env) (admin old new : Address) (hne : old ≠ new)
    (hok : (invoke env (.replaceWatcher admin old new)
      (run exec State.empty steps)).1 = .ok .unit) :
    HandsOver env.timestamp old new (run exec State.empty steps)
        (invoke env (.replaceWatcher admin old new)
          (run exec State.empty steps)).2 ↔
      ∀ exp ∈ (run exec State.empty steps).view.roster.expiries new,
        env.timestamp ≤ exp := by
  obtain ⟨hmem, hview⟩ := view_of_replaceWatcher hok
  have hcounted : (run exec State.empty steps).view.roster.Counted :=
    counted_run steps
  constructor
  · intro h
    have hinstalled := h.installed env rfl
    rw [invoke_isWatcherAuthorized, hview] at hinstalled
    simp only [Except.ok.injEq, Response.bool.injEq, decide_eq_true_eq]
      at hinstalled
    exact (Roster.authorised_replace_new _ hne _).mp hinstalled
  · intro hexp
    refine ⟨?_, ?_, ?_, ?_⟩
    · intro env' _
      have hnot := Roster.not_mem_replace_old
        (r := (run exec State.empty steps).view.roster)
        (replacementInfo env admin new) hne
      rw [invoke_isWatcherAuthorized, hview]
      simp only [Except.ok.injEq, Response.bool.injEq, decide_eq_false_iff_not]
      exact fun hauth => hnot hauth.1
    · intro env' hnow
      rw [invoke_isWatcherAuthorized, hview, hnow]
      simp only [Except.ok.injEq, Response.bool.injEq, decide_eq_true_eq]
      exact (Roster.authorised_replace_new _ hne _).mpr hexp
    · intro env' w hold hnew
      rw [invoke_isWatcherAuthorized, invoke_isWatcherAuthorized, hview]
      simp only [Except.ok.injEq, Response.bool.injEq, decide_eq_decide]
      exact Roster.authorised_replace_of_ne _ hold hnew _
    · intro env'
      refine ⟨_, _, invoke_getWatcherCount env' _, invoke_getWatcherCount env' _, ?_⟩
      have hpos : 0 < (run exec State.empty steps).view.roster.count :=
        lt_of_lt_of_le (List.length_pos_of_mem hmem) hcounted
      rw [hview, Roster.count_replace _ hne, State.watchers]
      split_ifs with hnew
      · omega
      · rfl

/-- Two watchers, the second of them until a date that passes. -/
def expiredRun : List Step :=
  [.call (signedBy [keeper] 1) (.initialise keeper),
    .call (signedBy [keeper] 2) (.batchRegisterWatchers keeper [sentry, scout]),
    .call (signedBy [keeper] 3) (.renewWatcher keeper scout (some 50))]

/-- As long as the date has not passed, the replacement hands over. -/
theorem hands_over_expiredRun_in_time :
    HandsOver 50 sentry scout (run exec State.empty expiredRun)
      (invoke (signedBy [keeper] 10) (.replaceWatcher keeper sentry scout)
        (run exec State.empty expiredRun)).2 := by
  have hiff := hands_over_iff expiredRun (signedBy [keeper] 10) keeper sentry
    scout (by decide) (by rfl)
  refine hiff.mpr ?_
  intro exp hexp
  have hfifty : (run exec State.empty expiredRun).view.roster.expiries scout =
      some 50 := by
    rfl
  rw [hfifty] at hexp
  cases hexp
  decide

/-- Afterwards it leaves nobody authorised. -/
theorem replaced_by_expired :
    ¬ ∀ (steps : List Step) (env : Env) (admin old new : Address), old ≠ new →
      (invoke env (.replaceWatcher admin old new)
        (run exec State.empty steps)).1 = .ok .unit →
      HandsOver env.timestamp old new (run exec State.empty steps)
        (invoke env (.replaceWatcher admin old new)
          (run exec State.empty steps)).2 := by
  intro h
  have hover := h expiredRun (signedBy [keeper] 11) keeper sentry scout
    (by decide) (by rfl)
  have hinstalled := hover.installed (signedBy [] 11) rfl
  have hrefused : (invoke (signedBy [] 11) (.isWatcherAuthorized scout)
      (invoke (signedBy [keeper] 11) (.replaceWatcher keeper sentry scout)
        (run exec State.empty expiredRun)).2).1 = .ok (.bool false) := by
    rfl
  rw [hrefused] at hinstalled
  cases hinstalled

end Rotation

section Registration

/-- The storage `s'` is left by a registration of `w` in `s` that did its work:
`w` is on the list, appended with its expiry and counted if it was not there, and
otherwise nothing has changed. -/
structure Registered (w : Address) (expiresAt : Option Nat) (s s' : State) :
    Prop where
  listed : w ∈ s'.watchers
  added : w ∉ s.watchers →
    s'.watchers = s.watchers ++ [w] ∧
      s'.view.roster.expiries w = expiresAt ∧
      s'.view.roster.count = s.view.roster.count + 1
  kept : w ∈ s.watchers →
    s'.watchers = s.watchers ∧
      s'.view.roster.expiries = s.view.roster.expiries ∧
      s'.view.roster.count = s.view.roster.count

variable {env : Env} {s : State} {admin w : Address} {expiresAt : Option Nat}
  {label : Option HostString} {resp : Response}

/-- A registration that succeeds adds the watcher if there is no metadata of it,
and does nothing otherwise. -/
theorem roster_of_registerWatcher
    (hok : (invoke env (.registerWatcher admin w expiresAt label) s).1 =
      .ok resp) :
    (invoke env (.registerWatcher admin w expiresAt label) s).2.view.roster =
      if (s.view.roster.info w).isSome then s.view.roster
      else s.view.roster.register w expiresAt := by
  rcases invoke_refines env (.registerWatcher admin w expiresAt label) s with
    ⟨resp', -, hstep⟩ | ⟨⟨f, herror⟩, -⟩
  · generalize
      (invoke env (.registerWatcher admin w expiresAt label) s).2.view = r',
      (invoke env (.registerWatcher admin w expiresAt label) s).2.events = evs
      at hstep ⊢
    cases hstep with
    | query hquery => simp [Call.isQuery] at hquery
    | keepWatcher _ _ hsome => rw [if_pos hsome]
    | register _ _ hnone _ _ => simp [hnone]
  · rw [herror] at hok
    cases hok

/-- In every reachable state, a registration that returns has done its work
exactly when there is metadata of the address if and only if it is on the
list. -/
theorem registered_iff
    (steps : List Step) (env : Env) (admin w : Address)
    (expiresAt : Option Nat) (label : Option HostString)
    (hok : (invoke env (.registerWatcher admin w expiresAt label)
      (run exec State.empty steps)).1 = .ok .unit) :
    Registered w expiresAt (run exec State.empty steps)
        (invoke env (.registerWatcher admin w expiresAt label)
          (run exec State.empty steps)).2 ↔
      (((run exec State.empty steps).view.roster.info w).isSome = true ↔
        w ∈ (run exec State.empty steps).watchers) := by
  generalize run exec State.empty steps = s at hok ⊢
  have hroster := roster_of_registerWatcher hok
  by_cases hsome : (s.view.roster.info w).isSome = true
  · -- The call has returned early.
    rw [if_pos hsome] at hroster
    constructor
    · intro h
      have hlisted := h.listed
      rw [State.watchers, hroster] at hlisted
      exact iff_of_true hsome hlisted
    · intro hiff
      have hmem : w ∈ s.watchers := hiff.mp hsome
      refine ⟨?_, fun hnew => absurd hmem hnew, fun _ => ?_⟩
      · rw [State.watchers, hroster]
        exact hmem
      · rw [State.watchers, hroster]
        exact ⟨rfl, rfl, rfl⟩
  · -- The call has appended the watcher, whether it was on the list or not.
    rw [if_neg hsome] at hroster
    constructor
    · intro h
      refine iff_of_false hsome ?_
      intro hmem
      have hcount := (h.kept hmem).2.2
      rw [hroster] at hcount
      exact Nat.succ_ne_self _ hcount
    · intro hiff
      have hnew : w ∉ s.watchers := fun hmem => hsome (hiff.mpr hmem)
      refine ⟨?_, fun _ => ?_, fun hmem => absurd hmem hnew⟩
      · rw [State.watchers, hroster]
        simp [Roster.register]
      · rw [State.watchers, hroster]
        exact ⟨rfl, by simp [Roster.register], rfl⟩

/-- The first registration of a watcher. -/
theorem registered_first :
    Registered sentry (some 50) (run exec State.empty (doubleRun.take 1))
      (invoke (signedBy [keeper] 2) (.registerWatcher keeper sentry (some 50) none)
        (run exec State.empty (doubleRun.take 1))).2 := by
  have hiff := registered_iff (doubleRun.take 1) (signedBy [keeper] 2) keeper
    sentry (some 50) none (by rfl)
  exact hiff.mpr (iff_of_false (by decide) (by decide))

/-- A second registration returns and lists the watcher again. -/
theorem registered_twice :
    ¬ ∀ (steps : List Step) (env : Env) (admin w : Address)
      (expiresAt : Option Nat) (label : Option HostString),
      (invoke env (.registerWatcher admin w expiresAt label)
        (run exec State.empty steps)).1 = .ok .unit →
      Registered w expiresAt (run exec State.empty steps)
        (invoke env (.registerWatcher admin w expiresAt label)
          (run exec State.empty steps)).2 := by
  intro h
  have hsecond := h singleRun (signedBy [keeper] 3) keeper sentry none none
    (by rfl)
  have hkept := (hsecond.kept (by decide)).1
  exact absurd hkept (by decide)

end Registration

end WatcherRegistry
end TxWatch
