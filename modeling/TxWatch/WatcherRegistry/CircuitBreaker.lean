import TxWatch.WatcherRegistry.Refinement

/-!
# The circuit breaker of the watcher registry

While the registry is paused only `set_paused` and the queries succeed, and
these write nothing but the pause switch.  `initialize` does not ask whether the
registry is paused; that it is refused rests on the fact that nobody can pause a
registry before it has admins.
-/

namespace TxWatch
namespace WatcherRegistry

open Soroban Soroban.Contract

/-- The storage holds the same values, except perhaps under `Paused`. -/
structure State.SameData (s s' : State) : Prop where
  get : ∀ k, s'.persistent.get k = s.persistent.get k
  inst : ∀ i, i ≠ .paused → s'.inst i = s.inst i

/-- A successful `set_paused(_, false)`. -/
def Step.Unpauses (s : State) : Step → Prop
  | .call env (.setPaused admin false) =>
      ∃ resp, (invoke env (.setPaused admin false) s).1 = .ok resp
  | _ => False

namespace Registry

variable {env : Env} {r r' : Registry} {call : Call} {resp : Response}
  {evs : List Event}

/-- Only a registry with admins is paused. -/
def PausedByAdmins (r : Registry) : Prop :=
  r.paused = true → r.admins ≠ none

theorem Step.pausedByAdmins
    (h : Step env r call resp evs r') (hr : r.PausedByAdmins) :
    r'.PausedByAdmins := by
  cases h with
  | query _ => exact hr
  | initialise _ _ => exact fun _ => by simp
  | keepAdmin _ _ _ => exact hr
  | addAdmin _ _ _ => exact fun _ => by simp
  | removeAdmin _ _ _ => exact fun _ => by simp
  | transferAdmin _ _ _ => exact fun _ => by simp
  | keepWatcher _ _ _ => exact hr
  | register _ _ _ _ _ => exact hr
  | remove _ _ => exact hr
  | replace _ _ => exact hr
  | batch _ _ _ _ => exact hr
  | renew _ _ => exact hr
  | clear _ => exact hr
  | setPaused _ hadmin =>
      obtain ⟨admins, hadmins, -⟩ := hadmin
      intro _ hnone
      exact absurd (hadmins.symm.trans hnone) (by simp)

/-- The calls that succeed in a paused registry. -/
theorem Step.of_paused
    (h : Step env r call resp evs r') (hpaused : r.paused = true)
    (hadmins : r.admins ≠ none) :
    call.isQuery = true ∨ ∃ admin paused, call = .setPaused admin paused := by
  have hrefused : ∀ admin, ¬ r.Permits env admin := by
    intro admin hpermits
    exact absurd (hpaused.symm.trans hpermits.unpaused) (by simp)
  cases h with
  | query hquery => exact Or.inl hquery
  | setPaused _ _ => exact Or.inr ⟨_, _, rfl⟩
  | initialise _ hnone => exact absurd hnone hadmins
  | keepAdmin hpermits _ _ => exact absurd hpermits (hrefused _)
  | addAdmin hpermits _ _ => exact absurd hpermits (hrefused _)
  | removeAdmin hpermits _ _ => exact absurd hpermits (hrefused _)
  | transferAdmin hpermits _ _ => exact absurd hpermits (hrefused _)
  | keepWatcher hpermits _ _ => exact absurd hpermits (hrefused _)
  | register hpermits _ _ _ _ => exact absurd hpermits (hrefused _)
  | remove hpermits _ => exact absurd hpermits (hrefused _)
  | replace hpermits _ => exact absurd hpermits (hrefused _)
  | batch hpermits _ _ _ => exact absurd hpermits (hrefused _)
  | renew hpermits _ => exact absurd hpermits (hrefused _)
  | clear hpermits => exact absurd hpermits (hrefused _)

end Registry

section Steps

variable {s t : State}

theorem State.SameData.refl (s : State) : s.SameData s := by
  exact ⟨fun _ => rfl, fun _ _ => rfl⟩

theorem State.SameData.trans
    {u : State} (h : s.SameData t) (h' : t.SameData u) :
    s.SameData u := by
  refine ⟨?_, ?_⟩
  · intro k
    rw [h'.get, h.get]
  · intro i hi
    rw [h'.inst i hi, h.inst i hi]

/-- Paused, with admins who can undo it. -/
structure State.Halted (s : State) : Prop where
  paused : s.inst .paused = some true
  admins : s.inst .admins ≠ none

theorem State.Halted.view_paused
    (h : s.Halted) :
    s.view.paused = true := by
  have hpaused : s.view.paused = (s.inst .paused).getD false := by
    rfl
  rw [hpaused, h.paused]
  rfl

/-- What `set_paused` leaves. -/
theorem sameData_switched
    (s : State) (env : Env) (admin : Address) (paused : Bool) :
    s.SameData (State.switched s.silenced env admin paused) := by
  refine ⟨fun _ => rfl, ?_⟩
  intro i hi
  exact Function.update_of_ne hi _ _

/-- A call that does not lift the pause leaves it in place and the data as they
were. -/
theorem halted_invoke
    (hs : s.Halted) (env : Env) (call : Call)
    (hnever : ¬ Step.Unpauses s (.call env call)) :
    (invoke env call s).2.Halted ∧ s.SameData (invoke env call s).2 := by
  rcases transact_cases (dispatch call) env s with
    ⟨resp, s', h, heq⟩ | ⟨f, s', -, heq⟩
  · rw [invoke, heq]
    rcases (step_of_returns h).of_paused hs.view_paused hs.admins with
      hquery | ⟨admin, paused, rfl⟩
    · obtain ⟨-, rfl⟩ := (returns_query_iff hquery).mp h
      exact ⟨⟨by simp [hs.paused], by simp [hs.admins]⟩, by simp, by simp⟩
    · have hpaused : paused = true := by
        by_contra hfalse
        obtain rfl := Bool.eq_false_iff.mpr hfalse
        exact hnever ⟨resp, congrArg Prod.fst heq⟩
      subst hpaused
      simp only [dispatch, returns_done, returns_setPaused] at h
      obtain ⟨⟨-, -, rfl⟩, -⟩ := h
      exact ⟨⟨rfl, hs.admins⟩, sameData_switched s env admin true⟩
  · rw [invoke, heq]
    exact ⟨⟨hs.paused, hs.admins⟩, fun _ => rfl, fun _ _ => rfl⟩

/-- Calls that never lift the pause leave the data as they were. -/
theorem State.Halted.sameData
    (hs : s.Halted) {calls : List Step} (hcalls : ∀ st ∈ calls, st.isCall)
    (hnever : Along exec (fun s st => ¬ st.Unpauses s) s calls) :
    s.SameData (run exec s calls) := by
  induction calls generalizing s with
  | nil => exact .refl s
  | cons st calls ih =>
      cases st with
      | expire keys => exact False.elim (hcalls _ List.mem_cons_self)
      | call env call =>
          have hstep := halted_invoke hs env call hnever.1
          have hrest : ∀ st ∈ calls, st.isCall :=
            fun st hst => hcalls st (List.mem_cons_of_mem _ hst)
          exact hstep.2.trans (ih hstep.1 hrest hnever.2)

/-- A reachable registry that is paused has admins. -/
theorem halted_run
    {steps : List Step}
    (hpaused : (run exec State.empty steps).inst .paused = some true) :
    (run exec State.empty steps).Halted := by
  have hempty : State.empty.view.PausedByAdmins := by
    intro h
    cases h
  have hrun : (run exec State.empty steps).view.PausedByAdmins :=
    run_induction hempty (fun h hr => h.pausedByAdmins hr) (fun _ _ hr => hr)
      steps
  refine ⟨hpaused, hrun ?_⟩
  have hview : (run exec State.empty steps).view.paused =
      ((run exec State.empty steps).inst .paused).getD false := by
    rfl
  rw [hview, hpaused]
  rfl

end Steps

/-- From any reachable state in which the registry is paused, calls that contain
no successful `set_paused(_, false)` leave the admins, the watchers, their
expiries, their count and their metadata as they were. -/
theorem watcher_circuit_breaker
    (pre calls : List Step)
    (hpaused : (run exec State.empty pre).inst .paused = some true)
    (hcalls : ∀ st ∈ calls, st.isCall)
    (hnever : Along exec (fun s st => ¬ st.Unpauses s)
      (run exec State.empty pre) calls) :
    (∀ i, i ≠ .paused →
        (run exec (run exec State.empty pre) calls).inst i =
          (run exec State.empty pre).inst i) ∧
      ∀ w,
        (run exec (run exec State.empty pre) calls).persistent.get
            (.watcherInfo w) =
          (run exec State.empty pre).persistent.get (.watcherInfo w) := by
  have hsame := (halted_run hpaused).sameData hcalls hnever
  exact ⟨hsame.inst, fun w => hsame.get (.watcherInfo w)⟩

/-- A watcher, and then a pause. -/
def haltedRun : List Step :=
  [.call (signedBy [keeper] 1) (.initialise keeper),
    .call (signedBy [keeper] 2) (.batchRegisterWatchers keeper [sentry]),
    .call (signedBy [keeper] 3) (.setPaused keeper true)]

/-- The pause keeps the watcher from being removed. -/
theorem haltedRun_frozen :
    (run exec (run exec State.empty haltedRun)
        [.call (signedBy [keeper] 4) (.removeWatcher keeper sentry),
          .call (signedBy [keeper] 5) (.setPaused keeper true)]).inst .watchers =
      (run exec State.empty haltedRun).inst .watchers := by
  have h := watcher_circuit_breaker haltedRun
    [.call (signedBy [keeper] 4) (.removeWatcher keeper sentry),
      .call (signedBy [keeper] 5) (.setPaused keeper true)]
    (by rfl) (by simp [Step.isCall]) ⟨id, id, trivial⟩
  exact h.1 .watchers (by decide)

end WatcherRegistry
end TxWatch
