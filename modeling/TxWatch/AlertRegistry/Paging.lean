import TxWatch.AlertRegistry.Readings
import TxWatch.AlertRegistry.IndexCoherence
import TxWatch.Indexed.Pages

/-!
# Paged queries

The queries by contract and by owner cut their page out of the list of ids and
then leave out the ids without an alert; the queries for active alerts and for
alerts updated since a time cut it out of the alerts found.  So the former show
what their documentation says, a stretch of the unpaged answer, only as long as
no id without an alert comes before one that has an alert.
-/

namespace TxWatch
namespace AlertRegistry

open Soroban Soroban.Contract Indexed

/-- The alerts with which a call answers. -/
def State.answered (s : State) (env : Env) (call : Call) :
    Option (List AlertConfig) :=
  match (invoke env call s).1 with
  | .ok (.alerts l) => some l
  | _ => none

namespace Call

/-- The unpaged query for the alerts of a contract or of an owner. -/
def listing : IndexKind → (querier a : Address) → Call
  | .contract, querier, a => .getAlertsForContract querier a
  | .owner, querier, a => .getAlertsByOwner querier a

/-- Its paged counterpart. -/
def page : IndexKind → (querier a : Address) → (offset limit : Nat) → Call
  | .contract, querier, a, offset, limit =>
      .getContractAlertsPaginated querier a offset limit
  | .owner, querier, a, offset, limit =>
      .getAlertsByOwnerPaginated querier a offset limit

end Call

section Answers

variable {env : Env} {s : State}

theorem answered_of_invoke
    {call : Call} {l : List AlertConfig}
    (h : (invoke env call s).1 = .ok (.alerts l)) :
    s.answered env call = some l := by
  rw [State.answered, h]

theorem answered_of_fails
    {call : Call} {f : Failure ContractError} {s' : State}
    (h : (dispatch call).Fails env s.silenced f s') :
    s.answered env call = none := by
  rw [State.answered, invoke_of_fails h]

/-- The gate lets a querier through or fails, and writes nothing. -/
theorem gate_cases (env : Env) (s : State) (querier : Address) :
    (assertWatcherIfConfigured querier).Returns env s.silenced () s.silenced ∨
      ∃ f s', (assertWatcherIfConfigured querier).Fails env s.silenced f s' := by
  rcases h : (assertWatcherIfConfigured querier).run env s.silenced with ⟨f | u, s'⟩
  · exact Or.inr ⟨f, s', h⟩
  · have hkeep := (checks_assertWatcherIfConfigured querier).returns h
    rw [hkeep] at h
    exact Or.inl h

/-- Behind the gate, both ways of asking read the same list. -/
theorem answered_listing
    {querier : Address} (kind : IndexKind) (a : Address)
    (hgate : (assertWatcherIfConfigured querier).Returns env s.silenced () s.silenced) :
    s.answered env (.listing kind querier a) =
      some (s.records (s.listed kind a)) := by
  apply answered_of_invoke
  cases kind with
  | contract =>
      refine invoke_readsAlerts env s rfl ?_
      rintro q ⟨⟩
      exact hgate
  | owner =>
      refine invoke_readsAlerts env s rfl ?_
      rintro q ⟨⟩
      exact hgate

theorem answered_page
    {querier : Address} (kind : IndexKind) (a : Address) (offset limit : Nat)
    (hgate : (assertWatcherIfConfigured querier).Returns env s.silenced () s.silenced) :
    s.answered env (.page kind querier a offset limit) =
      some (s.records (slice (s.listed kind a) offset limit)) := by
  apply answered_of_invoke
  cases kind with
  | contract =>
      refine invoke_readsAlerts env s rfl ?_
      rintro q ⟨⟩
      exact hgate
  | owner =>
      refine invoke_readsAlerts env s rfl ?_
      rintro q ⟨⟩
      exact hgate

/-- In front of the gate, neither answers. -/
theorem unanswered_of_gate
    {querier : Address} {f : Failure ContractError} {s' : State}
    (kind : IndexKind) (a : Address)
    (hgate : (assertWatcherIfConfigured querier).Fails env s.silenced f s') :
    s.answered env (.listing kind querier a) = none ∧
      ∀ offset limit, s.answered env (.page kind querier a offset limit) = none := by
  cases kind with
  | contract =>
      refine ⟨@answered_of_fails env s _ f s' ?_, fun offset limit =>
        @answered_of_fails env s _ f s' ?_⟩
      · exact (fails_bind ..).mpr (Or.inl ((fails_bind ..).mpr (Or.inl hgate)))
      · exact (fails_bind ..).mpr (Or.inl ((fails_bind ..).mpr (Or.inl hgate)))
  | owner =>
      refine ⟨@answered_of_fails env s _ f s' ?_, fun offset limit =>
        @answered_of_fails env s _ f s' ?_⟩
      · exact (fails_bind ..).mpr (Or.inl ((fails_bind ..).mpr (Or.inl hgate)))
      · exact (fails_bind ..).mpr (Or.inl ((fails_bind ..).mpr (Or.inl hgate)))

end Answers

section Slices

variable {α : Type}

/-- On a list that a host vector can hold, the clamps of a page make no
difference. -/
theorem slice_eq_window
    {l : List α} (hl : l.length ≤ u32Max) (offset limit : Nat) :
    slice l offset limit = window l offset (min limit maxBatchSize) := by
  by_cases hoffset : offset ≤ l.length
  · have hrest : (l.drop offset).length = l.length - offset :=
      List.length_drop
    rw [slice, window, min_eq_left hoffset, saturatingAdd32,
      List.take_eq_take_iff, hrest]
    omega
  · have hlength : l.length ≤ offset := (Nat.lt_of_not_le hoffset).le
    rw [slice, window, min_eq_right hlength, List.drop_length,
      List.drop_eq_nil_of_le hlength, List.take_nil, List.take_nil]

theorem length_slice_le (l : List α) (offset limit : Nat) :
    (slice l offset limit).length ≤ maxBatchSize := by
  rw [slice, List.length_take, List.length_drop, saturatingAdd32]
  omega

end Slices

theorem length_records_le (s : State) (ids : List Nat) :
    (s.records ids).length ≤ ids.length := by
  exact List.length_filterMap_le _ _

section ByPages

variable (env : Env) (s : State) {size : Nat}

/-- The pages of a list of ids make up the unpaged answer. -/
theorem readInPages_page
    (hsize : 1 ≤ size) (hmax : size ≤ maxBatchSize)
    {kind : IndexKind} {querier a : Address} {whole : List AlertConfig}
    (hlength : (s.listed kind a).length ≤ u32Max)
    (hwhole : s.answered env (.listing kind querier a) = some whole) :
    ReadInPages
      (fun offset limit => s.answered env (.page kind querier a offset limit))
      size (s.listed kind a).length whole := by
  rcases gate_cases env s querier with hgate | ⟨f, s', hgate⟩
  · rw [answered_listing kind a hgate] at hwhole
    cases hwhole
    refine readInPages_of_window hsize s.alertAt (s.listed kind a) ?_
    intro offset _
    rw [answered_page kind a offset size hgate, slice_eq_window hlength,
      min_eq_left hmax, State.records]
  · rw [(unanswered_of_gate kind a hgate).1] at hwhole
    cases hwhole

theorem length_page_le
    {kind : IndexKind} {querier a : Address} {offset limit : Nat}
    {l : List AlertConfig}
    (h : s.answered env (.page kind querier a offset limit) = some l) :
    l.length ≤ maxBatchSize := by
  rcases gate_cases env s querier with hgate | ⟨f, s', hgate⟩
  · rw [answered_page kind a offset limit hgate] at h
    cases h
    exact (length_records_le s _).trans (length_slice_le _ _ _)
  · rw [(unanswered_of_gate kind a hgate).2] at h
    cases h

theorem answered_getActiveAlertsPaginated
    (target : Address) (offset limit : Nat) :
    s.answered env (.getActiveAlertsPaginated target offset limit) =
      some (slice ((s.records (s.listed .contract target)).filter
        (fun cfg => cfg.active)) offset limit) := by
  apply answered_of_invoke
  refine invoke_readsAlerts env s rfl ?_
  rintro q ⟨⟩

/-- The pages of active alerts make up the list of them. -/
theorem readInPages_active
    (hsize : 1 ≤ size) (hmax : size ≤ maxBatchSize)
    {target : Address} {whole : List AlertConfig}
    (hlength : (s.listed .contract target).length ≤ u32Max)
    (hwhole : s.answered env (.getActiveAlertsForContract target) = some whole) :
    ReadInPages
      (fun offset limit =>
        s.answered env (.getActiveAlertsPaginated target offset limit))
      size whole.length whole := by
  rw [answered_of_invoke (invoke_getActiveAlertsForContract env s target)]
    at hwhole
  cases hwhole
  have hactive : ((s.records (s.listed .contract target)).filter
      (fun cfg => cfg.active)).length ≤ u32Max :=
    (List.length_filter_le _ _).trans ((length_records_le s _).trans hlength)
  refine readInPages_window hsize _ ?_
  intro offset _
  rw [answered_getActiveAlertsPaginated, slice_eq_window hactive,
    min_eq_left hmax]

theorem length_activePage_le
    {target : Address} {offset limit : Nat} {l : List AlertConfig}
    (h : s.answered env (.getActiveAlertsPaginated target offset limit) = some l) :
    l.length ≤ maxBatchSize := by
  rw [answered_getActiveAlertsPaginated] at h
  cases h
  exact length_slice_le _ _ _

end ByPages

section SinceATime

/-- The alerts of a target updated at or after a time, in the order of its
list. -/
def State.updatedSince (s : State) (target : Address) (since : Nat) :
    List AlertConfig :=
  (s.records (s.listed .contract target)).filter
    (fun cfg => cfg.updatedAt ≥ since)

theorem answered_getAlertsUpdatedSince
    (env : Env) (s : State) (target : Address) (since offset limit : Nat) :
    s.answered env (.getAlertsUpdatedSince target since offset limit) =
      some (window (s.updatedSince target since) offset limit) := by
  apply answered_of_invoke
  refine invoke_readsAlerts env s rfl ?_
  rintro q ⟨⟩

/-- `get_alerts_updated_since` shows a stretch of the alerts updated since the
given time, and its pages make up all of them. -/
theorem updatedSince_in_pages
    (env : Env) (s : State) (target : Address) (since : Nat) :
    (∀ offset limit,
      s.answered env (.getAlertsUpdatedSince target since offset limit) =
        some (((s.updatedSince target since).drop offset).take limit)) ∧
    ∀ size, 1 ≤ size →
      ReadInPages
        (fun offset limit =>
          s.answered env (.getAlertsUpdatedSince target since offset limit))
        size (s.updatedSince target since).length
        (s.updatedSince target since) := by
  have hanswer := answered_getAlertsUpdatedSince env s target since
  refine ⟨hanswer, ?_⟩
  intro size hsize
  refine readInPages_window hsize _ ?_
  intro offset _
  exact hanswer offset size

theorem updatedSince_in_pages_of_one :
    ReadInPages
      (fun offset limit => (run exec State.empty staleRun).answered (envAt 3 [])
        (.getAlertsUpdatedSince pool 0 offset limit))
      1 ((run exec State.empty staleRun).updatedSince pool 0).length
      ((run exec State.empty staleRun).updatedSince pool 0) := by
  exact (updatedSince_in_pages (envAt 3 []) (run exec State.empty staleRun)
    pool 0).2 1 (by decide)

end SinceATime

section Documented

/-- The paging law of the documentation: with `offset` results skipped, a page
shows the next ones up to the limit, and one that is not full is the last. -/
def State.PagesAsDocumented (s : State) (kind : IndexKind) (a : Address) : Prop :=
  ∀ env querier offset limit, offset ≤ u32Max → limit ≤ u32Max →
    ∃ whole page,
      s.answered env (.listing kind querier a) = some whole ∧
      s.answered env (.page kind querier a offset limit) = some page ∧
      page = (whole.drop offset).take (min limit maxBatchSize) ∧
      (page.length < min limit maxBatchSize →
        whole.drop (offset + page.length) = [])

variable {s : State} {kind : IndexKind} {a : Address}

theorem pagesAsDocumented_of_gapsLast
    (hopen : s.inst .watchreg = none)
    (hlength : (s.listed kind a).length ≤ u32Max)
    (hgaps : GapsLast s.alertAt (s.listed kind a)) :
    s.PagesAsDocumented kind a := by
  intro env querier offset limit _ _
  have hgate := returns_assertWatcherIfConfigured_of_none env s hopen querier
  refine ⟨s.records (s.listed kind a),
    window (s.records (s.listed kind a)) offset (min limit maxBatchSize),
    answered_listing kind a hgate, ?_, rfl, drop_eq_nil_of_length_window_lt⟩
  rw [answered_page kind a offset limit hgate, slice_eq_window hlength,
    State.records, filterMap_window hgaps, State.records]

theorem gapsLast_of_pagesAsDocumented
    (hopen : s.inst .watchreg = none)
    (hlength : (s.listed kind a).length ≤ u32Max)
    (hpages : s.PagesAsDocumented kind a) :
    GapsLast s.alertAt (s.listed kind a) := by
  apply gapsLast_of_window
  intro offset hoffset
  -- Pages of a single element are enough.
  let env : Env := ⟨[], 0, 0, fun _ _ => none⟩
  have hgate := returns_assertWatcherIfConfigured_of_none env s hopen a
  obtain ⟨whole, page, hwhole, hpage, hlaw, -⟩ :=
    hpages env a offset 1 (hoffset.le.trans hlength) (by decide)
  rw [answered_listing kind a hgate] at hwhole
  rw [answered_page kind a offset 1 hgate, slice_eq_window hlength] at hpage
  cases hwhole
  cases hpage
  exact hlaw

/-- After any run, the paged queries follow the law for a party exactly when no
id without an alert comes before one with an alert on its list.  That is so as
long as nothing has expired. -/
theorem pages_as_documented_iff
    (steps : List Step)
    (hopen : (run exec State.empty steps).inst .watchreg = none)
    (kind : IndexKind) (a : Address)
    (hlength : ((run exec State.empty steps).listed kind a).length ≤ u32Max) :
    ((run exec State.empty steps).PagesAsDocumented kind a ↔
      GapsLast (run exec State.empty steps).alertAt
        ((run exec State.empty steps).listed kind a)) ∧
    ((∀ st ∈ steps, st.isCall) →
      GapsLast (run exec State.empty steps).alertAt
        ((run exec State.empty steps).listed kind a)) := by
  refine ⟨⟨gapsLast_of_pagesAsDocumented hopen hlength,
    pagesAsDocumented_of_gapsLast hopen hlength⟩, ?_⟩
  intro hcalls
  apply gapsLast_of_isSome
  intro id hid
  exact occupied_run hcalls kind a id hid

/-- Two alerts, neither of which expires. -/
theorem pages_as_documented_twoAlerts :
    (run exec State.empty (staleRun.take 2)).PagesAsDocumented .contract pool := by
  have hpages := pages_as_documented_iff (staleRun.take 2) (by rfl) .contract pool
    (by decide)
  refine hpages.1.mpr (hpages.2 ?_)
  simp [staleRun, Step.isCall]

/-- With the first alert of a contract expired and the second alive, the page of
one alert from the start shows none, though there is one. -/
theorem stale_first_page :
    ¬ ∀ steps : List Step, (∀ st ∈ steps, st.keepsIndexes) →
      (run exec State.empty steps).inst .watchreg = none →
      ∀ kind a, (run exec State.empty steps).PagesAsDocumented kind a := by
  intro h
  have hsteps : ∀ st ∈ staleRun, st.keepsIndexes := by
    simp [staleRun, Step.keepsIndexes]
  obtain ⟨whole, page, hwhole, hpage, hlaw, -⟩ :=
    h staleRun hsteps (by rfl) .contract pool (envAt 3 []) alice 0 1
      (by decide) (by decide)
  have hread : ((run exec State.empty staleRun).answered (envAt 3 [])
      (.listing .contract alice pool)).map List.length = some 1 := by
    decide
  have hempty : (run exec State.empty staleRun).answered (envAt 3 [])
      (.page .contract alice pool 0 1) = some [] := by
    decide
  rw [hwhole] at hread
  rw [hempty] at hpage
  cases hpage
  have hone : whole.length = 1 := Option.some.inj hread
  rw [List.drop_zero] at hlaw
  have hnone := congrArg List.length hlaw
  rw [List.length_take, hone] at hnone
  exact absurd hnone (by decide)

end Documented

end AlertRegistry
end TxWatch
