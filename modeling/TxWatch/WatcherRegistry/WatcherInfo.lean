import TxWatch.WatcherRegistry.WatcherSet

/-!
# Metadata of watchers

The metadata of a watcher should be there exactly while the watcher is listed.
`replace_watcher` and `clear_all_watchers` see to that.  The registrations
write no metadata and `remove_watcher` deletes none, so that the first of these
calls that takes effect separates the two.
-/

namespace TxWatch
namespace WatcherRegistry

open Soroban Soroban.Contract

namespace Roster

/-- The listed watchers have metadata, each its own, and nobody else has. -/
structure Recorded (r : Roster) : Prop where
  isSome_iff : ∀ w, (r.info w).isSome = true ↔ w ∈ r.watchers
  address : ∀ w, ∀ info ∈ r.info w, info.address = w

variable {r : Roster} {v w : Address}

theorem Recorded.info_of_not_mem
    (h : r.Recorded) (hw : w ∉ r.watchers) :
    r.info w = none := by
  by_contra hsome
  exact hw ((h.isSome_iff w).mp (Option.isSome_iff_ne_none.mpr hsome))

/-- A replacement moves the metadata along with the entry. -/
theorem Recorded.replace
    (h : r.Recorded) (old new : Address) {info : WatcherInfo}
    (hinfo : info.address = new) :
    (r.replace old new info).Recorded := by
  have herased : ∀ v, (Function.update r.info old none v).isSome = true ↔
      v ∈ r.others old := by
    intro v
    by_cases hv : v = old
    · simp [hv]
    · simp [hv, h.isSome_iff]
  have haddress : ∀ v, ∀ i ∈ Function.update r.info old none v,
      i.address = v := by
    intro v i hi
    by_cases hv : v = old
    · simp [hv] at hi
    · rw [Function.update_of_ne hv] at hi
      exact h.address v i hi
  unfold Roster.replace
  split_ifs with hnew
  · exact ⟨herased, haddress⟩
  · refine ⟨?_, ?_⟩
    · intro v
      by_cases hv : v = new
      · simp [hv]
      · have hold := herased v
        simpa [hv] using hold
    · intro v i hi
      by_cases hv : v = new
      · subst hv
        simp only [Function.update_self, Option.mem_def, Option.some.injEq] at hi
        rw [← hi, hinfo]
      · simp only [Function.update_of_ne hv] at hi
        exact haddress v i hi

/-- Replacing the only watcher gives its successor metadata. -/
theorem recorded_replace_sole
    {old new : Address} {info : WatcherInfo}
    (hlist : r.watchers = [old]) (hnone : ∀ w, r.info w = none)
    (hinfo : info.address = new) :
    (r.replace old new info).Recorded := by
  have hothers : r.others old = [] := by
    simp [others, hlist]
  have hrest : Function.update r.info old none = fun _ => none := by
    funext w
    by_cases hw : w = old <;> simp [hw, hnone]
  unfold Roster.replace
  rw [hothers, if_neg List.not_mem_nil, hrest]
  refine ⟨?_, ?_⟩
  · intro w
    by_cases hw : w = new <;> simp [hw]
  · intro w i hi
    by_cases hw : w = new
    · subst hw
      simp only [Function.update_self, Option.mem_def, Option.some.injEq] at hi
      rw [← hi, hinfo]
    · simp [hw] at hi

theorem Recorded.clear
    (h : r.Recorded) :
    r.clear.Recorded := by
  have hnone : ∀ v, r.clear.info v = none := by
    intro v
    by_cases hv : v ∈ r.watchers
    · simp [Roster.clear, hv]
    · simp [Roster.clear, hv, h.info_of_not_mem hv]
  refine ⟨?_, ?_⟩
  · intro v
    rw [hnone v]
    exact ⟨fun hsome => absurd hsome (by decide),
      fun hmem => absurd hmem List.not_mem_nil⟩
  · intro v i hi
    rw [hnone v] at hi
    cases hi

/-- An address on the list without metadata. -/
theorem not_recorded_of_none
    (hmem : w ∈ r.watchers) (hnone : r.info w = none) :
    ¬ r.Recorded := by
  intro h
  have hsome := (h.isSome_iff w).mpr hmem
  rw [hnone] at hsome
  cases hsome

theorem not_recorded_register (expiresAt : Option Nat) (hnone : r.info w = none) :
    ¬ (r.register w expiresAt).Recorded := by
  refine not_recorded_of_none (w := w) ?_ hnone
  simp [register]

/-- The metadata of a removed watcher stays behind. -/
theorem Recorded.not_remove
    (h : r.Recorded) (hmem : w ∈ r.watchers) :
    ¬ (r.remove w).Recorded := by
  intro hafter
  have hsome : ((r.remove w).info w).isSome = true := (h.isSome_iff w).mpr hmem
  exact not_mem_others ((hafter.isSome_iff w).mp hsome)

theorem Recorded.not_registerAll
    (h : r.Recorded) {ws : List Address}
    (hw : w ∈ ws) (hnew : w ∉ r.watchers) :
    ¬ (r.registerAll ws).Recorded := by
  refine not_recorded_of_none (w := w) ?_ (h.info_of_not_mem hnew)
  exact List.mem_append_right _ ((mem_newcomers _ _).mpr ⟨hw, hnew⟩)

end Roster

section Steps

/-- A batch registration that passes every check and adds someone. -/
structure Registry.RegistersBatch (r : Registry) (env : Env) (admin : Address)
    (ws : List Address) : Prop where
  permits : r.Permits env admin
  size : ws.length ≤ maxBatchSize
  newcomer : ∃ w ∈ ws, w ∉ r.roster.watchers
  room : (r.roster.registerAll ws).watchers.length ≤ maxWatchers
  count : (r.roster.registerAll ws).count ≤ u32Max

/-- The step is a registration, single or in a batch, or a removal, and takes
effect. -/
def Step.Separates (s : State) : Step → Prop
  | .call env (.registerWatcher admin w _ label) =>
      s.view.Registers env admin w label
  | .call env (.batchRegisterWatchers admin ws) =>
      s.view.RegistersBatch env admin ws
  | .call env (.removeWatcher admin w) =>
      s.view.Permits env admin ∧ w ∈ s.view.roster.watchers
  | .call _ _ => False
  | .expire _ => False

variable {env : Env} {s : State}

theorem Registry.RegistersBatch.invoke
    {admin : Address} {ws : List Address}
    (h : s.view.RegistersBatch env admin ws) :
    invoke env (.batchRegisterWatchers admin ws) s =
      (.ok (.number (newcomers s.view.roster.watchers ws).length),
        State.enrolled s.silenced env ws) := by
  apply transact_of_returns
  simp only [dispatch, returns_respond, returns_batchRegisterWatchers]
  exact ⟨_, ⟨h.permits, h.size, h.room, fun _ => h.count, rfl, trivial⟩, rfl⟩

theorem invoke_removeWatcher
    {admin w : Address} (hpermits : s.view.Permits env admin)
    (hmem : w ∈ s.view.roster.watchers) :
    invoke env (.removeWatcher admin w) s =
      (.ok .unit, State.removed s.silenced env w) := by
  apply transact_of_returns
  simp only [dispatch, returns_done, returns_removeWatcher]
  exact ⟨⟨hpermits, hmem, trivial⟩, trivial⟩

theorem invoke_replaceWatcher
    {admin old : Address} (hpermits : s.view.Permits env admin)
    (hmem : old ∈ s.view.roster.watchers) (new : Address) :
    invoke env (.replaceWatcher admin old new) s =
      (.ok .unit, State.replaced s.silenced env admin old new) := by
  apply transact_of_returns
  simp only [dispatch, returns_done, returns_replaceWatcher]
  exact ⟨⟨hpermits, hmem, trivial⟩, trivial⟩

/-- A step that separates metadata and list. -/
theorem not_recorded_of_separates
    {st : Step} (hs : s.view.roster.Recorded) (h : st.Separates s) :
    ¬ (exec s st).view.roster.Recorded := by
  cases st with
  | expire keys => exact False.elim h
  | call env call =>
      cases call with
      | registerWatcher admin w expiresAt label =>
          have hreg : s.view.Registers env admin w label := h
          rw [exec_call, hreg.invoke, view_registered]
          exact Roster.not_recorded_register expiresAt hreg.info
      | batchRegisterWatchers admin ws =>
          have hreg : s.view.RegistersBatch env admin ws := h
          obtain ⟨w, hw, hnew⟩ := hreg.newcomer
          rw [exec_call, hreg.invoke, view_enrolled]
          exact hs.not_registerAll hw hnew
      | removeWatcher admin w =>
          rw [exec_call, invoke_removeWatcher h.1 h.2, view_removed]
          exact hs.not_remove h.2
      | _ => exact False.elim h

end Steps

section Preservation

variable {env : Env} {r r' : Registry} {call : Call} {resp : Response}
  {evs : List Event}

/-- The other steps keep them together. -/
theorem Registry.Step.recorded
    (h : Registry.Step env r call resp evs r') (hr : r.roster.Recorded)
    (hregister : ∀ admin w expiresAt label,
      call = .registerWatcher admin w expiresAt label →
      ¬ r.Registers env admin w label)
    (hbatch : ∀ admin ws, call = .batchRegisterWatchers admin ws →
      ¬ r.RegistersBatch env admin ws)
    (hremove : ∀ admin w, call = .removeWatcher admin w →
      ¬ (r.Permits env admin ∧ w ∈ r.roster.watchers)) :
    r'.roster.Recorded := by
  cases h with
  | query _ => exact hr
  | initialise _ _ => exact hr
  | keepAdmin _ _ _ => exact hr
  | addAdmin _ _ _ => exact hr
  | removeAdmin _ _ _ => exact hr
  | transferAdmin _ _ _ => exact hr
  | keepWatcher _ _ _ => exact hr
  | register hpermits hlabel hinfo hroom hcount =>
      exact absurd ⟨hpermits, hlabel, hinfo, hroom, hcount⟩
        (hregister _ _ _ _ rfl)
  | remove hpermits hmem => exact absurd ⟨hpermits, hmem⟩ (hremove _ _ rfl)
  | replace _ _ => exact hr.replace _ _ rfl
  | @batch admin ws hpermits hsize hroom hcount =>
      have hnobody : newcomers r.roster.watchers ws = [] := by
        by_contra hne
        obtain ⟨w, hw⟩ := List.exists_mem_of_ne_nil _ hne
        have hnew := (mem_newcomers _ _).mp hw
        exact hbatch admin ws rfl
          ⟨hpermits, hsize, ⟨w, hnew.1, hnew.2⟩, hroom, hcount hne⟩
      have hsame : (r.roster.registerAll ws).watchers = r.roster.watchers := by
        simp [Roster.registerAll, hnobody]
      refine ⟨?_, hr.address⟩
      intro w
      rw [hsame]
      exact hr.isSome_iff w
  | renew _ _ => exact ⟨hr.isSome_iff, hr.address⟩
  | setPaused _ _ => exact hr
  | clear _ => exact hr.clear

/-- Between calls that keep what is stored, exactly the steps that separate
metadata and list break the correspondence. -/
theorem recorded_exec_iff
    (s : State) (st : Step) (hcall : st.isCall)
    (hs : s.view.roster.Recorded) :
    (exec s st).view.roster.Recorded ↔ ¬ st.Separates s := by
  refine ⟨fun hafter h => not_recorded_of_separates hs h hafter, ?_⟩
  intro h
  cases st with
  | expire keys => exact False.elim hcall
  | call env call =>
      rcases invoke_refines env call s with ⟨resp, -, hstep⟩ | ⟨-, hview⟩
      · refine hstep.recorded hs ?_ ?_ ?_
        · rintro admin w expiresAt label rfl
          exact h
        · rintro admin ws rfl
          exact h
        · rintro admin w rfl
          exact h
      · rw [exec_call, hview]
        exact hs

end Preservation

/-- `get_watcher_info` has an answer for the listed addresses only, and it is
about the address asked for. -/
def InfoFollows (s : State) : Prop :=
  ∀ (env : Env) (w : Address), ∃ o : Option WatcherInfo,
    (invoke env (.getWatcherInfo w) s).1 = .ok (.optInfo o) ∧
      (o.isSome = true ↔ w ∈ s.watchers) ∧ ∀ info ∈ o, info.address = w

theorem invoke_getWatcherInfo (env : Env) (s : State) (w : Address) :
    (invoke env (.getWatcherInfo w) s).1 =
      .ok (.optInfo (s.view.roster.info w)) := by
  have hreturns : (dispatch (.getWatcherInfo w)).Returns env s.silenced
      (.optInfo (s.view.roster.info w)) s.silenced := by
    simp [dispatch, getWatcherInfo, State.view]
  rw [invoke, transact_of_returns hreturns]

theorem infoFollows_iff_recorded (s : State) :
    InfoFollows s ↔ s.view.roster.Recorded := by
  constructor
  · intro h
    have hinfo : ∀ w, ((s.view.roster.info w).isSome = true ↔ w ∈ s.watchers) ∧
        ∀ info ∈ s.view.roster.info w, info.address = w := by
      intro w
      obtain ⟨o, ho, hiff, haddress⟩ := h (signedBy [] 0) w
      rw [invoke_getWatcherInfo] at ho
      obtain rfl := Response.optInfo.inj (Except.ok.inj ho)
      exact ⟨hiff, haddress⟩
    exact ⟨fun w => (hinfo w).1, fun w => (hinfo w).2⟩
  · intro h env w
    exact ⟨_, invoke_getWatcherInfo env s w, h.isSome_iff w, h.address w⟩

/-- From any reachable state in which the metadata follow the list, they do so
throughout a run of calls exactly if no registration and no removal in it takes
effect. -/
theorem watcher_info_iff
    (pre post : List Step) (hpost : ∀ st ∈ post, st.isCall)
    (hstart : InfoFollows (run exec State.empty pre)) :
    Throughout exec InfoFollows (run exec State.empty pre) post ↔
      Along exec (fun s st => ¬ st.Separates s) (run exec State.empty pre)
        post := by
  have hstep : ∀ s st, st.isCall → True → InfoFollows s →
      (InfoFollows (exec s st) ↔ ¬ st.Separates s) := by
    intro s st hcall _ hs
    rw [infoFollows_iff_recorded] at hs ⊢
    exact recorded_exec_iff s st hcall hs
  exact throughout_iff_along (D := fun _ st => st.isCall) (Q := fun _ => True)
    (fun _ _ _ _ _ => trivial) hstep hstart trivial
    (along_of_forall_mem _ _ hpost)

/-- A watcher registered in a batch. -/
def batchedRun : List Step :=
  [.call (signedBy [keeper] 1) (.initialise keeper),
    .call (signedBy [keeper] 2) (.batchRegisterWatchers keeper [sentry])]

/-- The watcher replaced by another. -/
def rotatedRun : List Step :=
  batchedRun ++
    [.call (signedBy [keeper] 3) (.replaceWatcher keeper sentry scout)]

/-- The replacement brings metadata and list together. -/
theorem infoFollows_rotatedRun :
    InfoFollows (run exec State.empty rotatedRun) := by
  have hpermits : (run exec State.empty batchedRun).view.Permits
      (signedBy [keeper] 3) keeper :=
    ⟨by decide, ⟨[keeper], rfl, by decide⟩, rfl⟩
  have hlist : (run exec State.empty batchedRun).view.roster.watchers =
      [sentry] := by
    rfl
  have hmem : sentry ∈ (run exec State.empty batchedRun).view.roster.watchers := by
    rw [hlist]
    exact List.mem_singleton.mpr rfl
  have hnone : ∀ w, (run exec State.empty batchedRun).view.roster.info w =
      none := by
    intro w
    rfl
  rw [infoFollows_iff_recorded, rotatedRun, run_append, run_cons, run_nil, exec_call,
    invoke_replaceWatcher hpermits hmem, view_replaced, view_silenced]
  exact Roster.recorded_replace_sole hlist hnone rfl

/-- Replacing that watcher again and clearing the list keeps them together. -/
theorem rotatedRun_follows_iff :
    Throughout exec InfoFollows (run exec State.empty rotatedRun)
        [.call (signedBy [keeper] 4) (.replaceWatcher keeper scout sentry),
          .call (signedBy [keeper] 5) (.clearAllWatchers keeper)] ↔
      Along exec (fun s st => ¬ st.Separates s)
        (run exec State.empty rotatedRun)
        [.call (signedBy [keeper] 4) (.replaceWatcher keeper scout sentry),
          .call (signedBy [keeper] 5) (.clearAllWatchers keeper)] := by
  exact watcher_info_iff rotatedRun _ (by simp [Step.isCall])
    infoFollows_rotatedRun

/-- A watcher registered once. -/
def singleRun : List Step :=
  [.call (signedBy [keeper] 1) (.initialise keeper),
    .call (signedBy [keeper] 2) (.registerWatcher keeper sentry none none)]

/-- The registration writes no metadata. -/
theorem singleRun_unrecorded :
    sentry ∈ (run exec State.empty singleRun).watchers ∧
      ¬ InfoFollows (run exec State.empty singleRun) := by
  have hmem : sentry ∈ (run exec State.empty singleRun).watchers := by
    decide
  have hnone : (run exec State.empty singleRun).view.roster.info sentry =
      none := by
    rfl
  refine ⟨hmem, ?_⟩
  rw [infoFollows_iff_recorded]
  exact Roster.not_recorded_of_none hmem hnone

end WatcherRegistry
end TxWatch
