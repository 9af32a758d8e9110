import TxWatch.WatcherRegistry.Refinement
import TxWatch.Access.Grants

/-!
# Expiries and what they mean

The list of watchers and the expiry map together are a list of grants with
deadlines: a watcher without an expiry holds a grant that never ends.  Every
operation has the effect of a few changes of these grants.  For the operations
that add an address without writing an expiry this rests on an invariant: only
listed addresses have an expiry.
-/

namespace TxWatch
namespace WatcherRegistry

open Soroban Soroban.Contract Access

/-- The deadline of a watcher with the given expiry. -/
def deadline : Option Nat → WithTop Nat
  | some exp => (exp : WithTop Nat)
  | none => ⊤

@[simp] theorem le_deadline_iff (now : Nat) (expiresAt : Option Nat) :
    (now : WithTop Nat) ≤ deadline expiresAt ↔
      ∀ exp ∈ expiresAt, now ≤ exp := by
  cases expiresAt with
  | none => simp [deadline]
  | some exp => simp [deadline]

namespace Roster

/-- Only watchers on the roster have an expiry. -/
def Coherent (r : Roster) : Prop :=
  ∀ w, (r.expiries w).isSome = true → w ∈ r.watchers

/-- The roster as a list of grants. -/
def grants (r : Roster) : Grants Address Nat :=
  fun w => if w ∈ r.watchers then some (deadline (r.expiries w)) else none

variable {r : Roster} {v w : Address}

theorem grants_of_mem (h : w ∈ r.watchers) :
    r.grants w = some (deadline (r.expiries w)) := by
  exact if_pos h

theorem grants_eq_none_iff :
    r.grants w = none ↔ w ∉ r.watchers := by
  unfold grants
  split_ifs with h <;> simp [h]

/-- The answer of `is_watcher_authorized` is read off the grants. -/
theorem authorised_iff_admits (now : Nat) :
    r.Authorised now w ↔ r.grants.Admits now w := by
  unfold Authorised Grants.Admits grants
  split_ifs with h <;> simp [h]

theorem Coherent.expiry_of_not_mem
    (h : r.Coherent) (hw : w ∉ r.watchers) :
    r.expiries w = none := by
  by_contra hsome
  exact hw (h w (Option.isSome_iff_ne_none.mpr hsome))

/-- The grants of a roster whose entries are those of another except at one
address. -/
theorem grants_congr
    {r' : Roster}
    (hmem : v ∈ r'.watchers ↔ v ∈ r.watchers)
    (hexp : r'.expiries v = r.expiries v) :
    r'.grants v = r.grants v := by
  unfold grants
  rw [hexp]
  by_cases hv : v ∈ r.watchers
  · rw [if_pos hv, if_pos (hmem.mpr hv)]
  · rw [if_neg hv, if_neg (fun h => hv (hmem.mp h))]

theorem grants_register (expiresAt : Option Nat) :
    (r.register w expiresAt).grants =
      Change.apply r.grants (.grant w (deadline expiresAt)) := by
  funext v
  by_cases hv : v = w
  · subst hv
    have hmem : v ∈ (r.register v expiresAt).watchers := by
      simp [register]
    rw [grants_of_mem hmem, Change.apply_grant_self]
    simp [register]
  · rw [Change.apply_grant_of_ne hv]
    exact grants_congr (by simp [register, hv]) (by simp [register, hv])

theorem grants_remove :
    (r.remove w).grants = Change.apply r.grants (.revoke w) := by
  funext v
  by_cases hv : v = w
  · subst hv
    rw [Change.apply_revoke_self, grants_eq_none_iff]
    exact not_mem_others
  · rw [Change.apply_revoke_of_ne hv]
    exact grants_congr (by simp [remove, hv]) (by simp [remove, hv])

/-- The changes that a replacement amounts to. -/
def replaceChanges (r : Roster) (old new : Address) :
    List (Change Address Nat) :=
  .revoke old :: if new ∈ r.others old then [] else [.grant new ⊤]

theorem grants_replace
    (h : r.Coherent) (old new : Address) (info : WatcherInfo) :
    (r.replace old new info).grants =
      run Change.apply r.grants (r.replaceChanges old new) := by
  unfold replace replaceChanges
  split_ifs with hnew
  · exact grants_remove
  · funext v
    rw [run_cons, run_cons, run_nil, ← grants_remove]
    by_cases hv : v = new
    · subst hv
      have hexp : Function.update r.expiries old none v = none := by
        by_cases hold : v = old
        · simp [hold]
        · have hv : v ∉ r.watchers := fun hmem =>
            hnew (mem_others.mpr ⟨hmem, hold⟩)
          simp [hold, h.expiry_of_not_mem hv]
      rw [Change.apply_grant_self, grants_of_mem (by simp)]
      simp only [hexp]
      rfl
    · rw [Change.apply_grant_of_ne hv]
      exact grants_congr (by simp [remove, hv]) rfl

theorem grants_registerAll
    (h : r.Coherent) (ws : List Address) :
    (r.registerAll ws).grants =
      run Change.apply r.grants
        ((newcomers r.watchers ws).map (fun w => .grant w ⊤)) := by
  funext v
  rw [Change.run_map_grant]
  split_ifs with hv
  · have hnot := ((mem_newcomers _ _).mp hv).2
    have hmem : v ∈ (r.registerAll ws).watchers := by
      simp [registerAll, hv]
    have hexp : (r.registerAll ws).expiries v = none :=
      h.expiry_of_not_mem hnot
    rw [grants_of_mem hmem, hexp]
    rfl
  · exact grants_congr (by simp [registerAll, hv]) rfl

theorem grants_renew
    (hw : w ∈ r.watchers) (newExpiry : Option Nat) :
    (r.renew w newExpiry).grants =
      Change.apply r.grants (.grant w (deadline newExpiry)) := by
  funext v
  by_cases hv : v = w
  · subst hv
    have hmem : v ∈ (r.renew v newExpiry).watchers := hw
    rw [grants_of_mem hmem, Change.apply_grant_self]
    simp [renew]
  · rw [Change.apply_grant_of_ne hv]
    exact grants_congr Iff.rfl (by simp [renew, hv])

theorem grants_clear :
    r.clear.grants = Change.apply r.grants .revokeAll := by
  funext v
  rw [Change.apply_revokeAll, grants_eq_none_iff]
  exact List.not_mem_nil

/-- An expiry map with one entry changed, on a list that keeps its members and
has the changed entry's address if the entry is present. -/
theorem coherent_update
    {r' : Roster} (h : r.Coherent) (expiresAt : Option Nat)
    (hexp : r'.expiries = Function.update r.expiries w expiresAt)
    (hkept : ∀ v ∈ r.watchers, v ≠ w → v ∈ r'.watchers)
    (hw : expiresAt.isSome = true → w ∈ r'.watchers) :
    r'.Coherent := by
  intro v hv
  rw [hexp] at hv
  by_cases hvw : v = w
  · subst hvw
    rw [Function.update_self] at hv
    exact hw hv
  · rw [Function.update_of_ne hvw] at hv
    exact hkept v (h v hv) hvw

theorem Coherent.register
    (h : r.Coherent) (expiresAt : Option Nat) :
    (r.register w expiresAt).Coherent := by
  refine coherent_update h expiresAt rfl ?_ ?_
  · intro v hv _
    exact List.mem_append_left _ hv
  · intro _
    exact List.mem_append_right _ (List.mem_singleton.mpr rfl)

theorem Coherent.remove
    (h : r.Coherent) :
    (r.remove w).Coherent := by
  refine coherent_update h none rfl ?_ ?_
  · intro v hv hne
    exact mem_others.mpr ⟨hv, hne⟩
  · intro hsome
    cases hsome

theorem Coherent.replace
    (h : r.Coherent) (new : Address) (info : WatcherInfo) :
    (r.replace w new info).Coherent := by
  unfold Roster.replace
  split_ifs with hnew
  · exact h.remove
  · refine coherent_update h none rfl ?_ ?_
    · intro v hv hne
      exact List.mem_append_left _ (mem_others.mpr ⟨hv, hne⟩)
    · intro hsome
      cases hsome

theorem Coherent.registerAll
    (h : r.Coherent) (ws : List Address) :
    (r.registerAll ws).Coherent := by
  intro v hv
  exact List.mem_append_left _ (h v hv)

theorem Coherent.renew
    (h : r.Coherent) (hw : w ∈ r.watchers) (newExpiry : Option Nat) :
    (r.renew w newExpiry).Coherent := by
  exact coherent_update h newExpiry rfl (fun v hv _ => hv) (fun _ => hw)

theorem coherent_clear : r.clear.Coherent := by
  intro v hv
  cases hv

end Roster

/-- What a call that succeeds changes about the grants. -/
def Call.changes (r : Roster) : Call → List (Change Address Nat)
  | .registerWatcher _ w expiresAt _ =>
      if (r.info w).isSome then [] else [.grant w (deadline expiresAt)]
  | .removeWatcher _ w => [.revoke w]
  | .replaceWatcher _ old new => r.replaceChanges old new
  | .batchRegisterWatchers _ ws =>
      (newcomers r.watchers ws).map (fun w => .grant w ⊤)
  | .renewWatcher _ w newExpiry => [.grant w (deadline newExpiry)]
  | .clearAllWatchers _ => [.revokeAll]
  | _ => []

/-- What a step changes about the grants. -/
def Step.changes (s : State) : Step → List (Change Address Nat)
  | .call env c =>
      match (invoke env c s).1 with
      | .ok _ => c.changes s.view.roster
      | .error _ => []
  | .expire _ => []

section Steps

variable {env : Env} {r r' : Registry} {call : Call} {resp : Response}
  {evs : List Event}

theorem Call.changes_of_query (hcall : call.isQuery = true) (r : Roster) :
    call.changes r = [] := by
  cases call <;> simp_all [Call.isQuery, Call.changes]

theorem Registry.Step.coherent
    (h : Registry.Step env r call resp evs r') (hr : r.roster.Coherent) :
    r'.roster.Coherent := by
  cases h with
  | query _ => exact hr
  | initialise _ _ => exact hr
  | keepAdmin _ _ _ => exact hr
  | addAdmin _ _ _ => exact hr
  | removeAdmin _ _ _ => exact hr
  | transferAdmin _ _ _ => exact hr
  | keepWatcher _ _ _ => exact hr
  | register _ _ _ _ _ => exact hr.register _
  | remove _ _ => exact hr.remove
  | replace _ _ => exact hr.replace _ _
  | batch _ _ _ _ => exact hr.registerAll _
  | renew _ hmem => exact hr.renew hmem _
  | setPaused _ _ => exact hr
  | clear _ => exact Roster.coherent_clear

/-- A call that succeeds has the effect of its changes. -/
theorem Registry.Step.grants
    (h : Registry.Step env r call resp evs r') (hr : r.roster.Coherent) :
    r'.roster.grants = run Change.apply r.roster.grants
      (call.changes r.roster) := by
  cases h with
  | query hquery =>
      rw [Call.changes_of_query hquery]
      rfl
  | initialise _ _ => rfl
  | keepAdmin _ _ _ => rfl
  | addAdmin _ _ _ => rfl
  | removeAdmin _ _ _ => rfl
  | transferAdmin _ _ _ => rfl
  | keepWatcher _ _ hinfo =>
      rw [Call.changes, if_pos hinfo]
      rfl
  | register _ _ hinfo _ _ =>
      rw [Call.changes, hinfo]
      exact Roster.grants_register _
  | remove _ _ => exact Roster.grants_remove
  | replace _ _ => exact Roster.grants_replace hr _ _ _
  | batch _ _ _ _ => exact Roster.grants_registerAll hr _
  | renew _ hmem => exact Roster.grants_renew hmem _
  | setPaused _ _ => rfl
  | clear _ => exact Roster.grants_clear

theorem Step.changes_of_ok
    {s : State} (h : (invoke env call s).1 = .ok resp) :
    Step.changes s (.call env call) = call.changes s.view.roster := by
  rw [Step.changes, h]

theorem Step.changes_of_error
    {s : State} {f : Failure ContractError}
    (h : (invoke env call s).1 = .error f) :
    Step.changes s (.call env call) = [] := by
  rw [Step.changes, h]

/-- The contract is tracked by the changes of its grants. -/
theorem tracked :
    Tracked exec (fun s => s.view.roster.Coherent)
      (fun s => s.view.roster.grants) (fun s st => st.changes s) := by
  refine ⟨?_, ?_⟩
  · exact exec_preserves (P := fun r => r.roster.Coherent)
      (fun h hr => h.coherent hr) (fun _ _ hr => hr)
  · intro s st hs
    cases st with
    | call env call =>
        rcases invoke_refines env call s with
          ⟨resp, hok, hstep⟩ | ⟨⟨f, herror⟩, hview⟩
        · rw [Step.changes_of_ok hok]
          exact hstep.grants hs
        · rw [Step.changes_of_error herror, exec_call, hview]
          rfl
    | expire keys => rfl

/-- Only a listed watcher can be renewed. -/
theorem mem_of_renewed
    {s : State} {admin w : Address} {newExpiry : Option Nat}
    (h : (invoke env (.renewWatcher admin w newExpiry) s).1 = .ok resp) :
    w ∈ s.view.roster.watchers := by
  have hreturns := returns_of_transact h
  simp only [dispatch, returns_done, returns_renewWatcher] at hreturns
  exact hreturns.1.2.1

theorem coherent_empty : State.empty.view.roster.Coherent := by
  intro w hw
  cases hw

/-- Only listed addresses have an expiry, after any run. -/
theorem coherent_run (steps : List Step) :
    (run exec State.empty steps).view.roster.Coherent := by
  exact tracked.inv_run coherent_empty

end Steps

/-- The call is about the watcher, or clears the list. -/
def Call.Names (w : Address) : Call → Prop
  | .registerWatcher _ v _ _ => v = w
  | .removeWatcher _ v => v = w
  | .replaceWatcher _ old new => old = w ∨ new = w
  | .batchRegisterWatchers _ ws => w ∈ ws
  | .renewWatcher _ v _ => v = w
  | .clearAllWatchers _ => True
  | _ => False

/-- The step is a call that succeeds and is about the watcher, or clears the
list. -/
def Step.Touches (s : State) (w : Address) : Step → Prop
  | .call env c => (∃ resp, (invoke env c s).1 = .ok resp) ∧ c.Names w
  | .expire _ => False

section Additions

variable {env : Env} {s : State} {w : Address}

theorem Call.names_of_concerns
    {call : Call} {r : Roster} {c : Change Address Nat}
    (hc : c ∈ call.changes r) (hw : c.Concerns w) :
    call.Names w := by
  cases call with
  | registerWatcher admin v expiresAt label =>
      rw [Call.changes] at hc
      split_ifs at hc with hinfo
      · exact absurd hc List.not_mem_nil
      · obtain rfl := List.mem_singleton.mp hc
        exact hw
  | removeWatcher admin v =>
      obtain rfl := List.mem_singleton.mp hc
      exact hw
  | replaceWatcher admin old new =>
      rcases List.mem_cons.mp hc with rfl | hc
      · exact Or.inl hw
      · split_ifs at hc with hnew
        · exact absurd hc List.not_mem_nil
        · obtain rfl := List.mem_singleton.mp hc
          exact Or.inr hw
  | batchRegisterWatchers admin ws =>
      obtain ⟨v, hv, rfl⟩ := List.mem_map.mp hc
      have hvw : v = w := hw
      subst hvw
      exact ((mem_newcomers _ _).mp hv).1
  | renewWatcher admin v newExpiry =>
      obtain rfl := List.mem_singleton.mp hc
      exact hw
  | clearAllWatchers admin => trivial
  | _ => exact absurd hc List.not_mem_nil

/-- A step that does not touch a watcher leaves its grant alone. -/
theorem Step.not_concerns_of_not_touches
    {st : Step} (h : ¬ st.Touches s w) :
    ∀ c ∈ st.changes s, ¬ c.Concerns w := by
  intro c hc hw
  cases st with
  | call env call =>
      rcases invoke_refines env call s with ⟨resp, hok, -⟩ | ⟨⟨f, herror⟩, -⟩
      · rw [Step.changes_of_ok hok] at hc
        exact h ⟨⟨resp, hok⟩, Call.names_of_concerns hc hw⟩
      · rw [Step.changes_of_error herror] at hc
        exact absurd hc List.not_mem_nil
  | expire keys => exact absurd hc List.not_mem_nil

/-- An address that a call has added holds the grant that the changes of the
call give it. -/
theorem grant_of_added
    {call : Call} (hs : s.view.roster.Coherent)
    (hnew : w ∉ s.watchers)
    (hadded : w ∈ (exec s (.call env call)).watchers) :
    ∃ d, (exec s (.call env call)).view.roster.grants w = some d ∧
      run Change.apply s.view.roster.grants (call.changes s.view.roster) w =
        some d := by
  have hgrant := Roster.grants_of_mem hadded
  refine ⟨_, hgrant, ?_⟩
  rcases invoke_refines env call s with ⟨resp, hok, -⟩ | ⟨-, hview⟩
  · have hfollows := tracked.follows s (.call env call) hs
    rw [Step.changes_of_ok hok] at hfollows
    rw [← hfollows]
    exact hgrant
  · rw [State.watchers, exec_call, hview] at hadded
    exact absurd hadded hnew

/-- A watcher added without an expiry holds a grant that never ends. -/
theorem grant_of_added_freely
    {call : Call} (hs : s.view.roster.Coherent)
    (hnew : w ∉ s.watchers)
    (hadded : w ∈ (exec s (.call env call)).watchers)
    (hcall : (∃ admin ws, call = .batchRegisterWatchers admin ws) ∨
      ∃ admin old, call = .replaceWatcher admin old w) :
    (exec s (.call env call)).view.roster.grants w = some ⊤ := by
  have hnone : s.view.roster.grants w = none :=
    Roster.grants_eq_none_iff.mpr hnew
  obtain ⟨d, hgrant, hrun⟩ := grant_of_added hs hnew hadded
  rcases hcall with ⟨admin, ws, rfl⟩ | ⟨admin, old, rfl⟩
  · rw [Call.changes, Change.run_map_grant] at hrun
    split_ifs at hrun
    · rw [hgrant, ← hrun]
    · rw [hnone] at hrun
      cases hrun
  · rw [Call.changes, Roster.replaceChanges, run_cons] at hrun
    split_ifs at hrun
    · have hrevoked := Change.apply_eq_none (c := .revoke old) hnone id
      rw [run_nil, hrevoked] at hrun
      cases hrun
    · rw [run_cons, run_nil, Change.apply_grant_self] at hrun
      rw [hgrant, ← hrun]

/-- A watcher added by `register_watcher` holds a grant until its expiry. -/
theorem grant_of_registered
    {admin : Address} {expiresAt : Option Nat} {label : Option HostString}
    (hs : s.view.roster.Coherent) (hnew : w ∉ s.watchers)
    (hadded : w ∈ (exec s
      (.call env (.registerWatcher admin w expiresAt label))).watchers) :
    (exec s (.call env
      (.registerWatcher admin w expiresAt label))).view.roster.grants w =
        some (deadline expiresAt) := by
  have hnone : s.view.roster.grants w = none :=
    Roster.grants_eq_none_iff.mpr hnew
  obtain ⟨d, hgrant, hrun⟩ := grant_of_added hs hnew hadded
  rw [Call.changes] at hrun
  split_ifs at hrun
  · rw [run_nil, hnone] at hrun
    cases hrun
  · rw [run_cons, run_nil, Change.apply_grant_self] at hrun
    rw [hgrant, ← hrun]

/-- The answer about a watcher whose grant no later step has touched. -/
theorem authorised_until_touched
    {post : List Step} {d : WithTop Nat} (hs : s.view.roster.Coherent)
    (hgrant : s.view.roster.grants w = some d)
    (hpost : Along exec (fun t st => ¬ st.Touches t w) s post) (now : Nat) :
    (run exec s post).view.roster.Authorised now w ↔ (now : WithTop Nat) ≤ d := by
  have hend := tracked.unchanged_until_concerned (a := w) hs
    (fun _ _ hst => Step.not_concerns_of_not_touches hst) hpost
  rw [Roster.authorised_iff_admits]
  exact Grants.admits_iff_of_grant (hend.trans hgrant)

end Additions

/-- In every reachable state only watchers on the list have an expiry.  A
watcher that a batch or a replacement has added is authorised at all times, and
one that `register_watcher` has added exactly until its expiry, as long as no
call that succeeds names it or clears the list. -/
theorem no_inherited_expiry (pre : List Step) :
    (∀ w, ((run exec State.empty pre).view.roster.expiries w).isSome = true →
        w ∈ (run exec State.empty pre).watchers) ∧
      ∀ (env : Env) (call : Call) (post : List Step) (w : Address),
        w ∉ (run exec State.empty pre).watchers →
        w ∈ (exec (run exec State.empty pre) (.call env call)).watchers →
        Along exec (fun t st => ¬ st.Touches t w)
          (exec (run exec State.empty pre) (.call env call)) post →
        ∀ later : Env,
          (((∃ admin ws, call = .batchRegisterWatchers admin ws) ∨
              ∃ admin old, call = .replaceWatcher admin old w) →
            (invoke later (.isWatcherAuthorized w)
              (run exec (exec (run exec State.empty pre) (.call env call))
                post)).1 = .ok (.bool true)) ∧
          (∀ admin label, call = .registerWatcher admin w none label →
            (invoke later (.isWatcherAuthorized w)
              (run exec (exec (run exec State.empty pre) (.call env call))
                post)).1 = .ok (.bool true)) ∧
          (∀ admin e label, call = .registerWatcher admin w (some e) label →
            (invoke later (.isWatcherAuthorized w)
              (run exec (exec (run exec State.empty pre) (.call env call))
                post)).1 = .ok (.bool (decide (later.timestamp ≤ e)))) := by
  refine ⟨coherent_run pre, ?_⟩
  intro env call post w hnew hadded hpost later
  have hcoherent : (exec (run exec State.empty pre)
      (.call env call)).view.roster.Coherent :=
    tracked.keeps _ _ (coherent_run pre)
  have hanswer : ∀ {d : WithTop Nat},
      (exec (run exec State.empty pre)
        (.call env call)).view.roster.grants w = some d →
      ((run exec (exec (run exec State.empty pre) (.call env call))
        post).view.roster.Authorised later.timestamp w ↔
          (later.timestamp : WithTop Nat) ≤ d) := by
    intro d hgrant
    exact authorised_until_touched hcoherent hgrant hpost later.timestamp
  simp only [invoke_isWatcherAuthorized, Except.ok.injEq, Response.bool.injEq,
    decide_eq_true_eq, decide_eq_decide]
  refine ⟨?_, ?_, ?_⟩
  · intro hcall
    have hgrant := grant_of_added_freely (coherent_run pre) hnew hadded hcall
    exact (hanswer hgrant).mpr le_top
  · rintro admin label rfl
    have hgrant := grant_of_registered (coherent_run pre) hnew hadded
    exact (hanswer hgrant).mpr le_top
  · rintro admin e label rfl
    have hgrant := grant_of_registered (coherent_run pre) hnew hadded
    rw [hanswer hgrant]
    exact WithTop.coe_le_coe

/-- A watcher registered until a date and removed again. -/
def lapsedRun : List Step :=
  [.call (signedBy [keeper] 1) (.initialise keeper),
    .call (signedBy [keeper] 2) (.registerWatcher keeper sentry (some 50) none),
    .call (signedBy [keeper] 3) (.removeWatcher keeper sentry)]

/-- Added again by a batch, the watcher is authorised long after that date. -/
theorem lapsedRun_renewed :
    (invoke (signedBy [] 100) (.isWatcherAuthorized sentry)
      (run exec
        (exec (run exec State.empty lapsedRun)
          (.call (signedBy [keeper] 4) (.batchRegisterWatchers keeper [sentry])))
        [.call (signedBy [keeper] 5)
          (.registerWatcher keeper scout (some 30) none)])).1 =
      .ok (.bool true) := by
  have hothers : Along exec (fun t st => ¬ st.Touches t sentry)
      (exec (run exec State.empty lapsedRun)
        (.call (signedBy [keeper] 4) (.batchRegisterWatchers keeper [sentry])))
      [.call (signedBy [keeper] 5)
        (.registerWatcher keeper scout (some 30) none)] := by
    refine ⟨?_, trivial⟩
    intro htouches
    have hname : scout = sentry := htouches.2
    exact absurd hname (by decide)
  have hlater := (no_inherited_expiry lapsedRun).2 (signedBy [keeper] 4)
    (.batchRegisterWatchers keeper [sentry]) _ sentry (by decide) (by decide)
    hothers (signedBy [] 100)
  exact hlater.1 (Or.inl ⟨keeper, [sentry], rfl⟩)

end WatcherRegistry
end TxWatch
