import TxWatch.WatcherRegistry.Refinement

/-!
# The list of watchers and its count

A roster is tidy when no watcher is listed twice, the list is within its bound
and the counter says how long it is.  Every operation keeps it tidy but one:
`register_watcher` looks for the metadata of an address and not for the address
in the list, and no registration writes metadata.  It therefore lists an
address again that is on the list already.
-/

namespace TxWatch
namespace WatcherRegistry

open Soroban Soroban.Contract

namespace Roster

/-- No address twice, no more than the bound, and counted right. -/
structure Tidy (r : Roster) : Prop where
  nodup : r.watchers.Nodup
  bounded : r.watchers.length ≤ maxWatchers
  counted : r.count = r.watchers.length

variable {r : Roster} {w : Address}

/-- A duplicate-free list loses one entry with one watcher. -/
theorem length_others
    (hr : r.watchers.Nodup) (hw : w ∈ r.watchers) :
    (r.others w).length + 1 = r.watchers.length := by
  have herase : r.others w = r.watchers.erase w := by
    rw [hr.erase_eq_filter]
    simp [others, bne, beq_eq_decide]
  have hpos := List.length_pos_of_mem hw
  rw [herase, List.length_erase_of_mem hw]
  omega

theorem Tidy.register
    (h : r.Tidy) (hnew : w ∉ r.watchers)
    (hroom : r.watchers.length < maxWatchers) (expiresAt : Option Nat) :
    (r.register w expiresAt).Tidy := by
  have hlength : (r.watchers ++ [w]).length = r.watchers.length + 1 := by
    simp
  have hnodup : (r.watchers ++ [w]).Nodup := by
    rw [← List.concat_eq_append]
    exact h.nodup.concat hnew
  have hcounted := h.counted
  refine ⟨hnodup, ?_, ?_⟩
  · change (r.watchers ++ [w]).length ≤ maxWatchers
    omega
  · change r.count + 1 = (r.watchers ++ [w]).length
    omega

theorem Tidy.remove
    (h : r.Tidy) (hw : w ∈ r.watchers) :
    (r.remove w).Tidy := by
  have hlength := length_others h.nodup hw
  have hbounded := h.bounded
  have hcounted := h.counted
  refine ⟨h.nodup.filter _, ?_, ?_⟩
  · change (r.others w).length ≤ maxWatchers
    omega
  · change r.count - 1 = (r.others w).length
    omega

/-- A replacement keeps the length, or shortens the list when the new address
was on it already. -/
theorem Tidy.replace
    (h : r.Tidy) (hw : w ∈ r.watchers) (new : Address) (info : WatcherInfo) :
    (r.replace w new info).Tidy := by
  have hlength := length_others h.nodup hw
  have hbounded := h.bounded
  have hcounted := h.counted
  have hnodup : (r.others w).Nodup := h.nodup.filter _
  unfold Roster.replace
  split_ifs with hnew
  · refine ⟨hnodup, ?_, ?_⟩
    · change (r.others w).length ≤ maxWatchers
      omega
    · change r.count - 1 = (r.others w).length
      omega
  · have hsnoc : (r.others w ++ [new]).length = (r.others w).length + 1 := by
      simp
    refine ⟨?_, ?_, ?_⟩
    · change (r.others w ++ [new]).Nodup
      rw [← List.concat_eq_append]
      exact hnodup.concat hnew
    · change (r.others w ++ [new]).length ≤ maxWatchers
      omega
    · change r.count = (r.others w ++ [new]).length
      omega

theorem Tidy.registerAll
    (h : r.Tidy) {ws : List Address}
    (hroom : (r.registerAll ws).watchers.length ≤ maxWatchers) :
    (r.registerAll ws).Tidy := by
  refine ⟨nodup_append_newcomers h.nodup ws, hroom, ?_⟩
  change r.count + (newcomers r.watchers ws).length =
    (r.watchers ++ newcomers r.watchers ws).length
  rw [List.length_append, h.counted]

theorem Tidy.renew
    (h : r.Tidy) (newExpiry : Option Nat) :
    (r.renew w newExpiry).Tidy := by
  exact ⟨h.nodup, h.bounded, h.counted⟩

theorem tidy_clear : r.clear.Tidy := by
  exact ⟨List.nodup_nil, Nat.zero_le _, rfl⟩

end Roster

section Steps

/-- A `register_watcher` that passes every check and finds no metadata of the
address. -/
structure Registry.Registers (r : Registry) (env : Env) (admin w : Address)
    (label : Option HostString) : Prop where
  permits : r.Permits env admin
  label : LabelFits label
  info : r.roster.info w = none
  room : r.roster.watchers.length < maxWatchers
  count : r.roster.count < u32Max

/-- The step registers an address that is on the list. -/
def Step.RegistersAgain (s : State) : Step → Prop
  | .call env (.registerWatcher admin w _ label) =>
      s.view.Registers env admin w label ∧ w ∈ s.view.roster.watchers
  | .call _ _ => False
  | .expire _ => False

variable {env : Env} {r r' : Registry} {call : Call} {resp : Response}
  {evs : List Event}

/-- Every step keeps the roster tidy, unless it registers an address that is on
the list. -/
theorem Registry.Step.tidy
    (h : Registry.Step env r call resp evs r') (hr : r.roster.Tidy)
    (hagain : ∀ admin w expiresAt label,
      call = .registerWatcher admin w expiresAt label →
      r.roster.info w = none → w ∉ r.roster.watchers) :
    r'.roster.Tidy := by
  cases h with
  | query _ => exact hr
  | initialise _ _ => exact hr
  | keepAdmin _ _ _ => exact hr
  | addAdmin _ _ _ => exact hr
  | removeAdmin _ _ _ => exact hr
  | transferAdmin _ _ _ => exact hr
  | keepWatcher _ _ _ => exact hr
  | register _ _ hinfo hroom _ =>
      exact hr.register (hagain _ _ _ _ rfl hinfo) hroom _
  | remove _ hmem => exact hr.remove hmem
  | replace _ hmem => exact hr.replace hmem _ _
  | batch _ _ hroom _ => exact hr.registerAll hroom
  | renew _ _ => exact hr.renew _
  | setPaused _ _ => exact hr
  | clear _ => exact Roster.tidy_clear

/-- A registration that succeeds without metadata has passed the checks. -/
theorem Registry.Step.registers
    {admin w : Address} {expiresAt : Option Nat} {label : Option HostString}
    (h : Registry.Step env r (.registerWatcher admin w expiresAt label) resp
      evs r')
    (hinfo : r.roster.info w = none) :
    r.Registers env admin w label := by
  cases h with
  | query hquery => simp [Call.isQuery] at hquery
  | keepWatcher _ _ hsome => simp [hinfo] at hsome
  | register hpermits hlabel _ hroom hcount =>
      exact ⟨hpermits, hlabel, hinfo, hroom, hcount⟩

/-- Such a registration is carried out. -/
theorem Registry.Registers.invoke
    {s : State} {admin w : Address} {label : Option HostString}
    (h : s.view.Registers env admin w label) (expiresAt : Option Nat) :
    invoke env (.registerWatcher admin w expiresAt label) s =
      (.ok .unit, State.registered s.silenced env w expiresAt) := by
  apply transact_of_returns
  simp only [dispatch, returns_done, returns_registerWatcher]
  exact ⟨⟨h.permits, h.label, Or.inr ⟨h.info, h.room, h.count, trivial⟩⟩,
    trivial⟩

/-- A second registration breaks the roster, and nothing else does. -/
theorem tidy_exec_iff
    (s : State) (st : Step) (hs : s.view.roster.Tidy) :
    (exec s st).view.roster.Tidy ↔ ¬ st.RegistersAgain s := by
  cases st with
  | expire keys =>
      refine ⟨fun _ => id, fun _ => ?_⟩
      exact ⟨hs.nodup, hs.bounded, hs.counted⟩
  | call env call =>
      constructor
      · intro hafter hagain
        cases call with
        | registerWatcher admin w expiresAt label =>
            obtain ⟨hreg, hmem⟩ := hagain
            rw [exec_call, hreg.invoke] at hafter
            have hnodup : (s.view.roster.watchers ++ [w]).Nodup := hafter.nodup
            exact (List.disjoint_of_nodup_append hnodup) hmem
              (List.mem_singleton.mpr rfl)
        | _ => exact hagain
      · intro hagain
        rcases invoke_refines env call s with ⟨resp, -, hstep⟩ | ⟨-, hview⟩
        · refine hstep.tidy hs ?_
          rintro admin w expiresAt label rfl hinfo hmem
          exact hagain ⟨hstep.registers hinfo, hmem⟩
        · rw [exec_call, hview]
          exact hs

end Steps

/-- The list is duplicate free and bounded, and `get_watcher_count` tells its
length. -/
structure WatcherSet (s : State) : Prop where
  nodup : s.watchers.Nodup
  bounded : s.watchers.length ≤ maxWatchers
  counted : ∀ env,
    (invoke env .getWatcherCount s).1 = .ok (.number s.watchers.length)

theorem invoke_getWatcherCount (env : Env) (s : State) :
    (invoke env .getWatcherCount s).1 = .ok (.number s.view.roster.count) := by
  have hreturns : (dispatch .getWatcherCount).Returns env s.silenced
      (.number s.view.roster.count) s.silenced := by
    simp [dispatch, getWatcherCount, State.view]
  rw [invoke, transact_of_returns hreturns]

theorem watcherSet_iff_tidy (s : State) :
    WatcherSet s ↔ s.view.roster.Tidy := by
  constructor
  · intro h
    have hcounted := h.counted (signedBy [] 0)
    rw [invoke_getWatcherCount] at hcounted
    exact ⟨h.nodup, h.bounded,
      Response.number.inj (Except.ok.inj hcounted)⟩
  · intro h
    refine ⟨h.nodup, h.bounded, ?_⟩
    intro env
    rw [invoke_getWatcherCount, h.counted]
    rfl

theorem watcherSet_empty : WatcherSet State.empty := by
  rw [watcherSet_iff_tidy]
  exact ⟨List.nodup_nil, Nat.zero_le _, rfl⟩

/-- Along any run the list is a set with the right count exactly as long as no
`register_watcher` that passes its checks names an address that is listed
without metadata. -/
theorem watcher_set_iff (steps : List Step) :
    Throughout exec WatcherSet State.empty steps ↔
      Along exec (fun s st => ¬ st.RegistersAgain s) State.empty steps := by
  have hstep : ∀ s st, True → True → WatcherSet s →
      (WatcherSet (exec s st) ↔ ¬ st.RegistersAgain s) := by
    intro s st _ _ hs
    rw [watcherSet_iff_tidy] at hs ⊢
    exact tidy_exec_iff s st hs
  exact throughout_iff_along (Q := fun _ => True) (fun _ _ _ _ _ => trivial)
    hstep watcherSet_empty trivial (along_of_forall_mem _ _ fun _ _ => trivial)

/-- A watcher registered twice. -/
def doubleRun : List Step :=
  [.call (signedBy [keeper] 1) (.initialise keeper),
    .call (signedBy [keeper] 2) (.registerWatcher keeper sentry none none),
    .call (signedBy [keeper] 3) (.registerWatcher keeper sentry none none)]

/-- The second registration lists the watcher again. -/
theorem doubleRun_lists_twice :
    (run exec State.empty doubleRun).watchers = [sentry, sentry] ∧
      ¬ WatcherSet (run exec State.empty doubleRun) := by
  have hlist : (run exec State.empty doubleRun).watchers = [sentry, sentry] := by
    rfl
  refine ⟨hlist, ?_⟩
  intro h
  have hnodup := h.nodup
  rw [hlist] at hnodup
  exact absurd hnodup (by decide)

end WatcherRegistry
end TxWatch
