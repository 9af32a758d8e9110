import TxWatch.Gating.System

/-!
# What the gate hides

For a call that returns alert configs, does the answer depend on the alert data
at all?  A gated query for a querier whom the watcher registry does not
authorise always answers `NotAWatcher`.  Every other call of this kind shows the
data: the querier of a gated query is an argument that nobody has to sign, and
four of the entry points have no gate.  What remains are calls that could show
no record in any storage.
-/

namespace TxWatch
namespace Gating

open Soroban AlertRegistry

/-- Storages of the alert registry that differ in alerts, flags and index
lists only. -/
structure SameButAlerts (s t : AlertRegistry.State) : Prop where
  inst : t.inst = s.inst
  instLiveUntil : t.instLiveUntil = s.instLiveUntil
  nextId : t.persistent .nextId = s.persistent .nextId

/-- Index lists are vectors, whose lengths are `u32`. -/
def Sized (s : AlertRegistry.State) : Prop :=
  ∀ kind a, (s.listed kind a).length ≤ u32Max

/-- The call shows no record in any storage with these instance entries: its
page has no room, or lies past the longest list, or no id has been issued. -/
def ShowsNothing (s : AlertRegistry.State) : AlertRegistry.Call → Prop
  | .getContractAlertsPaginated _ _ offset limit =>
      limit = 0 ∨ u32Max ≤ offset
  | .getAlertsByOwnerPaginated _ _ offset limit => limit = 0 ∨ u32Max ≤ offset
  | .getActiveAlertsPaginated _ offset limit => limit = 0 ∨ u32Max ≤ offset
  | .getAlertsUpdatedSince _ _ offset limit => limit = 0 ∨ u32Max ≤ offset
  | .getAlertsModifiedSince _ => s.counter = 0
  | _ => False

section Storages

variable (s : AlertRegistry.State)

/-- The storage without any alert data. -/
def bare : AlertRegistry.State :=
  { s with
    persistent := fun k =>
      match k with
      | .nextId => s.persistent .nextId
      | _ => none }

/-- An active alert, written at the given time. -/
def decoy (now : Nat) : AlertConfig where
  label := .fromStr ""
  webhookHash := .fromStr ""
  rules := []
  owner := ⟨0⟩
  targetContract := ⟨0⟩
  createdAt := now
  updatedAt := now
  active := true
  pendingWebhookHash := none
  tags := none

/-- The storage in which every id has a decoy and every list names the first
`n` ids. -/
def crowded (n now : Nat) : AlertRegistry.State :=
  { s with
    persistent := fun k =>
      match k with
      | .alert _ => some ⟨decoy now, 0⟩
      | .alertActive _ => some ⟨true, 0⟩
      | .index _ _ => some ⟨List.range n, 0⟩
      | .nextId => s.persistent .nextId }

theorem sameButAlerts_bare : SameButAlerts s (bare s) := by
  exact ⟨rfl, rfl, rfl⟩

theorem sameButAlerts_crowded (n now : Nat) :
    SameButAlerts s (crowded s n now) := by
  exact ⟨rfl, rfl, rfl⟩

/-- Expiry of alert data. -/
theorem sameButAlerts_expire
    {keys : AlertRegistry.DataKey → Bool} (h : keys .nextId = false) :
    SameButAlerts s (AlertRegistry.exec s (.expire keys)) := by
  refine ⟨rfl, rfl, ?_⟩
  simp [State.silenced, State.dropping, Store.expire, h]

theorem listed_bare (kind : IndexKind) (a : Address) :
    (bare s).listed kind a = [] := by
  rfl

theorem listed_crowded (n now : Nat) (kind : IndexKind) (a : Address) :
    (crowded s n now).listed kind a = List.range n := by
  rfl

theorem sized_bare : Sized (bare s) := by
  intro kind a
  rw [listed_bare]
  exact Nat.zero_le _

theorem sized_crowded {n : Nat} (h : n ≤ u32Max) (now : Nat) :
    Sized (crowded s n now) := by
  intro kind a
  rw [listed_crowded, List.length_range]
  exact h

theorem records_bare (ids : List Nat) :
    (bare s).records ids = [] := by
  have hnone : (bare s).alertAt = fun _ => none := by
    rfl
  rw [State.records, hnone, List.filterMap_none]

theorem records_crowded (n now : Nat) (ids : List Nat) :
    (crowded s n now).records ids = List.replicate ids.length (decoy now) := by
  have hsome : (crowded s n now).alertAt = fun _ => some (decoy now) := by
    rfl
  have hmap : (fun _ : Nat => some (decoy now)) =
      some ∘ (fun _ => decoy now) := by
    rfl
  rw [State.records, hsome, hmap, List.filterMap_eq_map, List.map_const']

/-- Without alert data nothing is read. -/
theorem readout_bare (call : AlertRegistry.Call) :
    (State.view (bare s)).readout call = [] := by
  cases call <;> simp [Registry.readout, view_records, records_bare, slice]

end Storages

section Readouts

variable {s t : AlertRegistry.State} {call : AlertRegistry.Call}

theorem SameButAlerts.counter
    (h : SameButAlerts s t) :
    t.counter = s.counter := by
  rw [State.counter, State.counter, h.inst]

/-- A call that shows nothing reads nothing. -/
theorem readout_of_showsNothing
    (hsized : Sized s) (h : ShowsNothing s call) :
    s.view.readout call = [] := by
  cases call with
  | getContractAlertsPaginated q target offset limit =>
      have hnil : slice (s.listed .contract target) offset limit = [] :=
        (slice_eq_nil_iff _ _ _).mpr (Or.inr h)
      rw [Registry.readout, view_listed, hnil]
      rfl
  | getAlertsByOwnerPaginated q owner offset limit =>
      have hnil : slice (s.listed .owner owner) offset limit = [] :=
        (slice_eq_nil_iff _ _ _).mpr (Or.inr h)
      rw [Registry.readout, view_listed, hnil]
      rfl
  | getActiveAlertsPaginated target offset limit =>
      exact (slice_eq_nil_iff _ _ _).mpr (Or.inr h)
  | getAlertsUpdatedSince target since offset limit =>
      have hlength : ((s.records (s.listed .contract target)).filter
          (fun cfg => cfg.updatedAt ≥ since)).length ≤ u32Max := by
        refine le_trans (List.length_filter_le _ _) ?_
        exact le_trans (List.length_filterMap_le _ _) (hsized .contract target)
      rw [Registry.readout, view_listed, view_records]
      rcases h with hlimit | hoffset
      · rw [hlimit, List.take_zero]
      · rw [List.drop_eq_nil_of_le (le_trans hlength hoffset), List.take_nil]
  | getAlertsModifiedSince since =>
      have hcounter : s.counter = 0 := h
      rw [Registry.readout, view_nextId, hcounter]
      rfl
  | _ => exact False.elim h

theorem SameButAlerts.showsNothing
    (h : SameButAlerts s t) (hs : ShowsNothing s call) :
    ShowsNothing t call := by
  cases call with
  | getAlertsModifiedSince since => exact h.counter.trans hs
  | _ => exact hs

/-- Any other call reads something in some storage. -/
theorem exists_readout_ne_nil
    (s : AlertRegistry.State) (hreads : call.readsAlerts = true)
    (h : ¬ ShowsNothing s call) :
    ∃ t, SameButAlerts s t ∧ Sized t ∧ t.view.readout call ≠ [] := by
  have hroom : ∀ {limit offset : Nat}, ¬ (limit = 0 ∨ u32Max ≤ offset) →
      offset + 1 ≤ u32Max ∧ ∀ {α : Type} (l : List α), l.length = offset + 1 →
        slice l offset limit ≠ [] := by
    intro limit offset hpage
    rw [not_or, not_le] at hpage
    refine ⟨hpage.2, ?_⟩
    intro α l hlength hnil
    rcases (slice_eq_nil_iff _ _ _).mp hnil with hshort | hlimit | hoffset
    · omega
    · exact hpage.1 hlimit
    · omega
  have hpage : ∀ {limit offset : Nat}, ¬ (limit = 0 ∨ u32Max ≤ offset) →
      (crowded s (offset + 1) 0).records
        (slice (List.range (offset + 1)) offset limit) ≠ [] := by
    intro limit offset hlimits hnil
    have hslice := (hroom hlimits).2 (List.range (offset + 1))
      List.length_range
    rw [records_crowded, List.replicate_eq_nil_iff,
      List.length_eq_zero_iff] at hnil
    exact hslice hnil
  cases call with
  | getAlertsForContract q target =>
      refine ⟨crowded s 1 0, sameButAlerts_crowded s 1 0,
        sized_crowded s (by decide) 0, ?_⟩
      simp [Registry.readout, view_listed, view_records, listed_crowded,
        records_crowded]
  | getContractAlertsPaginated q target offset limit =>
      exact ⟨crowded s (offset + 1) 0, sameButAlerts_crowded _ _ _,
        sized_crowded s (hroom h).1 0, hpage h⟩
  | getAlertsByOwner q owner =>
      refine ⟨crowded s 1 0, sameButAlerts_crowded s 1 0,
        sized_crowded s (by decide) 0, ?_⟩
      simp [Registry.readout, view_listed, view_records, listed_crowded,
        records_crowded]
  | getAlertsByOwnerPaginated q owner offset limit =>
      exact ⟨crowded s (offset + 1) 0, sameButAlerts_crowded _ _ _,
        sized_crowded s (hroom h).1 0, hpage h⟩
  | getActiveAlertsForContract target =>
      refine ⟨crowded s 1 0, sameButAlerts_crowded s 1 0,
        sized_crowded s (by decide) 0, ?_⟩
      simp [Registry.readout, view_listed, view_records, listed_crowded,
        records_crowded, decoy]
  | getActiveAlertsPaginated target offset limit =>
      refine ⟨crowded s (offset + 1) 0, sameButAlerts_crowded _ _ _,
        sized_crowded s (hroom h).1 0, (hroom h).2 _ ?_⟩
      simp [view_listed, view_records, listed_crowded, records_crowded, decoy]
  | getAlertsUpdatedSince target since offset limit =>
      have hlimits : ¬ (limit = 0 ∨ u32Max ≤ offset) := h
      refine ⟨crowded s (offset + 1) since, sameButAlerts_crowded _ _ _,
        sized_crowded s (hroom h).1 since, ?_⟩
      rw [not_or] at hlimits
      simp [Registry.readout, view_listed, view_records, listed_crowded,
        records_crowded, decoy, hlimits.1]
  | getAlertsModifiedSince since =>
      have hcounter : s.counter ≠ 0 := h
      have hsame := (sameButAlerts_crowded s 1 since).counter
      refine ⟨crowded s 1 since, sameButAlerts_crowded _ _ _,
        sized_crowded s (by decide) since, ?_⟩
      simp [Registry.readout, view_nextId, view_records, records_crowded, decoy,
        hsame, hcounter]
  | _ => cases hreads

end Readouts

/-- The call is a gated query for somebody who is not authorised. -/
def Refused (w : World) (env : Env) (call : AlertRegistry.Call) : Prop :=
  ∃ q, call.querier = some q ∧
    ¬ w.watchers.view.roster.Authorised env.timestamp q

section Answers

variable {wr : Address} {env : Env} {w : World} {call : AlertRegistry.Call}

/-- A call that is not refused answers with what it reads. -/
theorem callAlerts_of_not_refused
    {t : AlertRegistry.State} (hreg : t.inst .watchreg = some wr)
    (hreads : call.readsAlerts = true) (h : ¬ Refused w env call) :
    (callAlerts wr env call ⟨t, w.watchers⟩).1 = .ok (.alerts (t.view.readout call)) := by
  rw [callAlerts_fst]
  refine invoke_readsAlerts _ t hreads ?_
  intro q hq
  have hauthorised : w.watchers.view.roster.Authorised env.timestamp q := by
    by_contra hnot
    exact h ⟨q, hq, hnot⟩
  have hreg' : t.silenced.inst .watchreg = some wr := hreg
  rw [returns_gate hreg', peer_env]
  exact ⟨congrArg some (decide_eq_true hauthorised), rfl⟩

/-- A refused call answers alike whatever the alert data. -/
theorem callAlerts_of_refused
    {t : AlertRegistry.State} (hreg : t.inst .watchreg = some wr)
    (h : Refused w env call) :
    (callAlerts wr env call ⟨t, w.watchers⟩).1 =
      .error (.error .notAWatcher) := by
  obtain ⟨q, hcall, hq⟩ := h
  have hreg' : (World.mk t w.watchers).alerts.inst .watchreg = some wr := hreg
  exact callAlerts_refused hcall hreg' hq

end Answers

/-- With the watcher registry configured, and whoever has signed the call: the
answer is the same in all storages that differ in alert data only, exactly if
the call is a gated query whose `querier` argument names somebody who is not
authorised, or one that could show no record anyway. -/
theorem gate_hides_iff
    (wr : Address) (w : World) (hreg : w.alerts.inst .watchreg = some wr)
    (hsized : Sized w.alerts) (env : Env) (call : AlertRegistry.Call)
    (hreads : call.readsAlerts = true) :
    (∀ t, SameButAlerts w.alerts t → Sized t →
        (callAlerts wr env call ⟨t, w.watchers⟩).1 =
          (callAlerts wr env call w).1) ↔
      Refused w env call ∨ ShowsNothing w.alerts call := by
  have hkept : ∀ {t}, SameButAlerts w.alerts t → t.inst .watchreg = some wr := by
    intro t ht
    rw [ht.inst]
    exact hreg
  constructor
  · intro hsame
    by_contra hnot
    rw [not_or] at hnot
    obtain ⟨hrefused, hshows⟩ := hnot
    obtain ⟨t, ht, htsized, hne⟩ := exists_readout_ne_nil w.alerts hreads hshows
    have hread := hsame t ht htsized
    have hbare := hsame (bare w.alerts) (sameButAlerts_bare _) (sized_bare _)
    rw [callAlerts_of_not_refused (hkept ht) hreads hrefused] at hread
    rw [callAlerts_of_not_refused (hkept (sameButAlerts_bare _)) hreads hrefused,
      readout_bare, ← hread] at hbare
    exact hne (Response.alerts.inj (Except.ok.inj hbare)).symm
  · intro h t ht htsized
    by_cases hrefused : Refused w env call
    · rw [callAlerts_of_refused (hkept ht) hrefused]
      exact (callAlerts_of_refused hreg hrefused).symm
    · have hshows := h.resolve_left hrefused
      have hhere := callAlerts_of_not_refused hreg hreads hrefused
      rw [readout_of_showsNothing hsized hshows] at hhere
      rw [callAlerts_of_not_refused (hkept ht) hreads hrefused,
        readout_of_showsNothing htsized (ht.showsNothing hshows)]
      exact hhere.symm

section Samples

open WatcherRegistry

/-- A world with one alert and one watcher. -/
def gatedWorld : World :=
  run (exec gatehouse) World.empty gatedRun

/-- The same world after its alert data have expired. -/
def clearedWorld : World :=
  exec gatehouse gatedWorld (.expireAlerts fun k => decide (k ≠ .nextId))

/-- Nobody has signed, and the alert shows all the same: through an entry point
without a gate, and through a gated one by naming the watcher. -/
theorem gatedWorld_shows :
    SameButAlerts gatedWorld.alerts clearedWorld.alerts ∧
      clearedWorld.watchers = gatedWorld.watchers ∧
      gatedWorld.alerts.inst .watchreg = some gatehouse ∧
      (∀ a ∈ (signedBy [] 9).auths,
        ¬ gatedWorld.watchers.view.roster.Authorised
          (signedBy [] 9).timestamp a) ∧
      (callAlerts gatehouse (signedBy [] 9) (.getActiveAlertsForContract pool)
          clearedWorld).1 ≠
        (callAlerts gatehouse (signedBy [] 9) (.getActiveAlertsForContract pool)
          gatedWorld).1 ∧
      (callAlerts gatehouse (signedBy [] 9) (.getAlertsForContract sentry pool)
          clearedWorld).1 ≠
        (callAlerts gatehouse (signedBy [] 9) (.getAlertsForContract sentry pool)
          gatedWorld).1 := by
  refine ⟨sameButAlerts_expire _ rfl, rfl, rfl, ?_, ?_, ?_⟩
  · intro a ha
    exact absurd ha List.not_mem_nil
  · decide
  · decide

/-- A stranger who asks under his own name learns nothing. -/
theorem clearedWorld_hides_iff :
    (∀ t, SameButAlerts clearedWorld.alerts t → Sized t →
        (callAlerts gatehouse (signedBy [scout] 9)
            (.getAlertsForContract scout pool) ⟨t, clearedWorld.watchers⟩).1 =
          (callAlerts gatehouse (signedBy [scout] 9)
            (.getAlertsForContract scout pool) clearedWorld).1) ↔
      Refused clearedWorld (signedBy [scout] 9)
          (.getAlertsForContract scout pool) ∨
        ShowsNothing clearedWorld.alerts (.getAlertsForContract scout pool) := by
  have hsized : Sized clearedWorld.alerts := by
    intro kind a
    have hnil : clearedWorld.alerts.listed kind a = [] := by
      rfl
    rw [hnil]
    exact Nat.zero_le _
  exact gate_hides_iff gatehouse clearedWorld rfl hsized (signedBy [scout] 9)
    (.getAlertsForContract scout pool) rfl

end Samples

end Gating
end TxWatch
