import TxWatch.AlertRegistry.Reachability

/-!
# Calls that keep every value

Queries and renewals may extend lifetimes, but no value of any entry differs
afterwards.
-/

namespace TxWatch
namespace AlertRegistry

open Soroban Soroban.Contract Indexed

/-- The values of all entries of both storage kinds are the same. -/
structure State.SameValues (s s' : State) : Prop where
  get : ∀ k, s'.persistent.get k = s.persistent.get k
  inst : ∀ i, s'.inst i = s.inst i

theorem State.SameValues.refl (s : State) : s.SameValues s := by
  exact ⟨fun _ => rfl, fun _ => rfl⟩

/-- Published events are no values. -/
theorem State.SameValues.of_silenced
    {s s' : State} (h : State.SameValues s.silenced s') :
    s.SameValues s' := by
  exact ⟨h.get, h.inst⟩

section Renewals

variable (s : State) (ledger : Nat)

/-- Extending a persistent entry. -/
theorem sameValues_extend (k : DataKey) (threshold extendTo : Nat) :
    s.SameValues (s.extend ledger k threshold extendTo) := by
  refine ⟨?_, fun _ => rfl⟩
  intro k'
  rw [State.persistent_extend, Store.get_extendTtl]

/-- Extending the entries of one alert and of the counters. -/
theorem sameValues_bumped (id : Nat) (cfg : AlertConfig) (ttl : Nat) (ev : Event) :
    s.SameValues (State.emit (s.bumped ledger id cfg ttl) ev) := by
  refine ⟨?_, ?_⟩
  · intro k
    simp only [State.bumped]
    split_ifs <;> simp [State.renewed, State.renewedLists]
  · intro i
    have hinst := congrArg Registry.inst (view_bumped s ledger id cfg ttl)
    exact congrFun hinst i

/-- Renewing a list of alerts. -/
theorem sameValues_renewedEach (ids : List Nat) :
    s.SameValues (State.renewedEach ledger ids s) := by
  refine ⟨?_, ?_⟩
  · intro k
    induction ids generalizing s with
    | nil => rfl
    | cons id rest ih =>
        unfold State.renewedEach
        split
        · exact ih s
        · rw [ih]
          simp [State.renewed, State.renewedLists]
  · intro i
    have hinst := congrArg Registry.inst (view_renewedEach ledger ids s)
    exact congrFun hinst i

end Renewals

variable {env : Env} {s s' : State} {call : Call} {resp : Response}

/-- A query keeps every value. -/
theorem sameValues_of_query
    (hquery : call.isQuery = true)
    (h : (dispatch call).Returns env s.silenced resp s') :
    s.SameValues s' := by
  by_cases hget : ∃ id, call = .getAlert id
  · obtain ⟨id, rfl⟩ := hget
    simp only [dispatch, returns_respond, returns_getAlert] at h
    obtain ⟨o, ⟨-, rfl⟩, -⟩ := h
    apply State.SameValues.of_silenced
    split_ifs
    · exact sameValues_extend s.silenced _ _ _ _
    · exact State.SameValues.refl _
  · have hread := checks_query hquery (fun id hid => hget ⟨id, hid⟩)
    obtain rfl := hread.returns h
    exact (State.SameValues.refl _).of_silenced

/-- So does a renewal of one alert. -/
theorem sameValues_of_bumpAlert
    {id ttl : Nat}
    (h : (dispatch (.bumpAlert id ttl)).Returns env s.silenced resp s') :
    s.SameValues s' := by
  simp only [dispatch, returns_done, returns_bumpAlert] at h
  obtain ⟨⟨cfg, -, -, -, -, -, rfl⟩, -⟩ := h
  exact (sameValues_bumped s.silenced _ _ _ _ _).of_silenced

/-- So does a bulk renewal. -/
theorem sameValues_of_bulkRenewTtl
    {ids : List Nat}
    (h : (dispatch (.bulkRenewTtl ids)).Returns env s.silenced resp s') :
    s.SameValues s' := by
  simp only [dispatch, returns_respond, bulkRenewTtl, returns_bind,
    returns_rejectIf] at h
  obtain ⟨n, ⟨-, _, ⟨-, rfl⟩, hloop⟩, -⟩ := h
  obtain ⟨-, rfl⟩ := returns_bulkRenewFrom hloop
  exact (sameValues_renewedEach s.silenced _ _).of_silenced

end AlertRegistry
end TxWatch
