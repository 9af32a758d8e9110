import Mathlib.Tactic

/-!
# Typed ledger storage with lifetimes

A persistent store maps each key to an entry holding a value of the key's own
type together with the last ledger at which the entry is live.  Writing a key
keeps the lifetime of an entry that exists; only `extendTtl` raises it.

Lifetimes are compared through `deadline`, the first ledger at which a key is
absent.  A key with no entry has deadline `0`, so "live at least as long as"
is plain `≤` on natural numbers, and presence is `0 < deadline`.
-/

namespace TxWatch
namespace Soroban

/-- One ledger entry: its value and the last ledger at which it is live. -/
structure Entry (α : Type) where
  value : α
  liveUntil : Nat

/-- A store whose keys determine the type of the value kept under them. -/
abbrev Store (K : Type) (V : K → Type) : Type :=
  (k : K) → Option (Entry (V k))

namespace Store

variable {K : Type} {V : K → Type}

/-- The store without entries. -/
def empty : Store K V :=
  fun _ => none

/-- Value kept under a key, if there is one. -/
def get (s : Store K V) (k : K) : Option (V k) :=
  (s k).map Entry.value

/-- Whether a key has an entry. -/
def has (s : Store K V) (k : K) : Bool :=
  (s k).isSome

/-- Last ledger at which the entry of a key is live. -/
def liveUntil (s : Store K V) (k : K) : Option Nat :=
  (s k).map Entry.liveUntil

/-- First ledger at which a key is absent; `0` for a key without an entry. -/
def deadline (s : Store K V) (k : K) : Nat :=
  match s k with
  | none => 0
  | some e => e.liveUntil + 1

/-- Drop the entries of the selected keys. -/
def expire (s : Store K V) (keys : K → Bool) : Store K V :=
  fun k => if keys k then none else s k

/-- Keys whose entry has lapsed at a ledger. -/
def lapsed (s : Store K V) (ledger : Nat) (k : K) : Bool :=
  (s k).any (fun e => e.liveUntil < ledger)

/-- The store as it reads at a ledger: what is past its lifetime is absent. -/
def purge (s : Store K V) (ledger : Nat) : Store K V :=
  s.expire (s.lapsed ledger)

section Writes

variable [DecidableEq K]

/-- Write a value.  An existing entry keeps its lifetime, a new one lives for
the current ledger until it is extended. -/
def set (s : Store K V) (ledger : Nat) (k : K) (v : V k) : Store K V :=
  Function.update s k
    (some { value := v, liveUntil := (s.liveUntil k).getD ledger })

/-- Delete a key. -/
def remove (s : Store K V) (k : K) : Store K V :=
  Function.update s k none

/-- Raise the lifetime of an existing entry to `ledger + extendTo`, provided it
would grow and at most `threshold` ledgers remain. -/
def extendTtl (s : Store K V) (ledger : Nat) (k : K)
    (threshold extendTo : Nat) : Store K V :=
  match s k with
  | none => s
  | some e =>
      if e.liveUntil < ledger + extendTo ∧ e.liveUntil - ledger ≤ threshold then
        Function.update s k
          (some { value := e.value, liveUntil := ledger + extendTo })
      else s

/-- Write a value and extend its lifetime by `ttl` ledgers. -/
def store (s : Store K V) (ledger : Nat) (k : K) (v : V k)
    (ttl : Nat) : Store K V :=
  (s.set ledger k v).extendTtl ledger k ttl ttl

end Writes

@[simp] theorem get_empty (k : K) :
    (empty : Store K V).get k = none := by
  rfl

/-- A key is present exactly when its deadline is positive. -/
theorem has_iff_deadline_pos
    (s : Store K V) (k : K) :
    s.has k = true ↔ 0 < s.deadline k := by
  unfold has deadline
  cases s k <;> simp

theorem has_eq_isSome_get
    (s : Store K V) (k : K) :
    s.has k = (s.get k).isSome := by
  simp [has, get]

theorem has_iff_get
    (s : Store K V) (k : K) :
    s.has k = true ↔ ∃ v, s.get k = some v := by
  rw [has_eq_isSome_get, Option.isSome_iff_exists]

/-- A readable key has a positive deadline. -/
theorem deadline_pos_of_get
    {s : Store K V} {k : K} {v : V k}
    (h : s.get k = some v) :
    0 < s.deadline k := by
  rw [← has_iff_deadline_pos, has_iff_get]
  exact ⟨v, h⟩

/-- The deadline is one past the lifetime of a present entry. -/
theorem liveUntil_eq_some_iff
    (s : Store K V) (k : K) (l : Nat) :
    s.liveUntil k = some l ↔ s.deadline k = l + 1 := by
  unfold liveUntil deadline
  cases s k <;> simp

section Expiry

variable (s : Store K V)

theorem get_expire
    (keys : K → Bool) (k : K) :
    (s.expire keys).get k = if keys k then none else s.get k := by
  unfold get expire
  split_ifs <;> rfl

theorem deadline_expire
    (keys : K → Bool) (k : K) :
    (s.expire keys).deadline k = if keys k then 0 else s.deadline k := by
  unfold deadline expire
  by_cases h : keys k = true
  · simp [h]
  · simp [h]

theorem lapsed_iff
    (ledger : Nat) (k : K) :
    s.lapsed ledger k = true ↔
      0 < s.deadline k ∧ s.deadline k ≤ ledger := by
  unfold lapsed deadline
  cases s k with
  | none => simp
  | some e => simp

/-- Purging zeroes exactly the deadlines that have been reached. -/
theorem deadline_purge
    (ledger : Nat) (k : K) :
    (s.purge ledger).deadline k =
      if s.deadline k ≤ ledger then 0 else s.deadline k := by
  rw [purge, deadline_expire]
  have h := s.lapsed_iff ledger k
  split_ifs with h₁ h₂ h₂
  · rfl
  · exact absurd (h.mp h₁).2 h₂
  · by_contra hne
    exact h₁ (h.mpr ⟨Nat.pos_of_ne_zero hne, h₂⟩)
  · rfl

theorem get_purge
    (ledger : Nat) (k : K) :
    (s.purge ledger).get k =
      if s.deadline k ≤ ledger then none else s.get k := by
  rw [purge, get_expire]
  have h := s.lapsed_iff ledger k
  split_ifs with h₁ h₂ h₂
  · rfl
  · exact absurd (h.mp h₁).2 h₂
  · by_contra hne
    cases hg : s.get k with
    | none => exact hne hg
    | some v => exact h₁ (h.mpr ⟨deadline_pos_of_get hg, h₂⟩)
  · rfl

/-- What survives a purge reads as before. -/
theorem get_of_get_purge
    {s : Store K V} {ledger : Nat} {k : K} {v : V k}
    (h : (s.purge ledger).get k = some v) :
    s.get k = some v := by
  rw [get_purge] at h
  split_ifs at h
  exact h

end Expiry

section WriteLemmas

variable [DecidableEq K] (s : Store K V) (ledger : Nat)

/-- Storing a key leaves the other entries as they are. -/
theorem store_apply_of_ne
    {k k' : K} (h : k' ≠ k) (v : V k) (ttl : Nat) :
    s.store ledger k v ttl k' = s k' := by
  have hset : (s.set ledger k v) k = some ⟨v, (s.liveUntil k).getD ledger⟩ := by
    simp [set]
  unfold store extendTtl
  rw [hset]
  simp only
  split_ifs
  · simp [set, h]
  · simp [set, h]

/-- Deleting a key leaves the other entries as they are. -/
theorem remove_apply_of_ne
    {k k' : K} (h : k' ≠ k) :
    s.remove k k' = s k' := by
  simp [remove, h]

@[simp] theorem get_set_self
    (k : K) (v : V k) :
    (s.set ledger k v).get k = some v := by
  simp [get, set]

@[simp] theorem get_set_of_ne
    {k k' : K} (h : k' ≠ k) (v : V k) :
    (s.set ledger k v).get k' = s.get k' := by
  simp [get, set, h]

@[simp] theorem get_remove_self
    (k : K) :
    (s.remove k).get k = none := by
  simp [get, remove]

@[simp] theorem get_remove_of_ne
    {k k' : K} (h : k' ≠ k) :
    (s.remove k).get k' = s.get k' := by
  simp [get, remove, h]

@[simp] theorem get_extendTtl
    (k k' : K) (threshold extendTo : Nat) :
    (s.extendTtl ledger k threshold extendTo).get k' = s.get k' := by
  unfold extendTtl
  cases he : s k with
  | none => rfl
  | some e =>
      simp only
      split_ifs
      · by_cases hk : k' = k
        · subst hk
          simp [get, he]
        · simp [get, hk]
      · rfl

@[simp] theorem deadline_set_of_ne
    {k k' : K} (h : k' ≠ k) (v : V k) :
    (s.set ledger k v).deadline k' = s.deadline k' := by
  simp [deadline, set, h]

@[simp] theorem deadline_remove_self
    (k : K) :
    (s.remove k).deadline k = 0 := by
  simp [deadline, remove]

@[simp] theorem deadline_remove_of_ne
    {k k' : K} (h : k' ≠ k) :
    (s.remove k).deadline k' = s.deadline k' := by
  simp [deadline, remove, h]

@[simp] theorem deadline_extendTtl_of_ne
    {k k' : K} (h : k' ≠ k) (threshold extendTo : Nat) :
    (s.extendTtl ledger k threshold extendTo).deadline k' = s.deadline k' := by
  unfold extendTtl
  cases s k with
  | none => rfl
  | some e =>
      simp only
      split_ifs
      · simp [deadline, h]
      · rfl

/-- With equal threshold and target, extending a present key takes the maximum
of the old and the requested lifetime. -/
theorem deadline_extendTtl_self
    (k : K) (n : Nat)
    (h : s.has k = true) :
    (s.extendTtl ledger k n n).deadline k =
      max (s.deadline k) (ledger + n + 1) := by
  unfold has at h
  unfold extendTtl deadline
  cases he : s k with
  | none => simp [he] at h
  | some e =>
      simp only
      split_ifs with hc
      · simp
        omega
      · simp [he]
        omega

/-- A stored key lives at least as long as it did and as long as requested. -/
@[simp] theorem deadline_store_self
    (k : K) (v : V k) (ttl : Nat) :
    (s.store ledger k v ttl).deadline k =
      max (s.deadline k) (ledger + ttl + 1) := by
  have hhas : (s.set ledger k v).has k = true := by
    simp [has, set]
  rw [store, deadline_extendTtl_self _ _ _ _ hhas]
  unfold deadline set liveUntil
  cases s k with
  | none => simp
  | some e => simp

@[simp] theorem deadline_store_of_ne
    {k k' : K} (h : k' ≠ k) (v : V k) (ttl : Nat) :
    (s.store ledger k v ttl).deadline k' = s.deadline k' := by
  simp [store, h]

@[simp] theorem get_store_self
    (k : K) (v : V k) (ttl : Nat) :
    (s.store ledger k v ttl).get k = some v := by
  simp [store]

@[simp] theorem get_store_of_ne
    {k k' : K} (h : k' ≠ k) (v : V k) (ttl : Nat) :
    (s.store ledger k v ttl).get k' = s.get k' := by
  simp [store, h]

/-- Storing the value that a key already has changes no value. -/
theorem get_store_of_get
    {k : K} {v : V k} (h : s.get k = some v) (ttl : Nat) (k' : K) :
    (s.store ledger k v ttl).get k' = s.get k' := by
  by_cases hk : k' = k
  · subst hk
    rw [get_store_self, h]
  · rw [get_store_of_ne s ledger hk]

@[simp] theorem has_extendTtl
    (k k' : K) (threshold extendTo : Nat) :
    (s.extendTtl ledger k threshold extendTo).has k' = s.has k' := by
  simp [has_eq_isSome_get]

@[simp] theorem has_set_self
    (k : K) (v : V k) :
    (s.set ledger k v).has k = true := by
  simp [has_eq_isSome_get]

@[simp] theorem has_store_of_ne
    {k k' : K} (h : k' ≠ k) (v : V k) (ttl : Nat) :
    (s.store ledger k v ttl).has k' = s.has k' := by
  simp [has_eq_isSome_get, h]

end WriteLemmas

end Store

end Soroban
end TxWatch
