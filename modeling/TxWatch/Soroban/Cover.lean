import TxWatch.Soroban.Store

/-!
# Entries that outlive others

`s.Covers ks k` says that each of the keys `ks` is present for at least as long
as the key `k`.  Nothing that raises the lifetimes of `ks` or lowers the one of
`k` breaks it, and neither does the passage of ledgers.
-/

namespace TxWatch
namespace Soroban
namespace Store

variable {K : Type} {V : K → Type} {s s' : Store K V} {ks : List K} {k : K}

/-- Every one of `ks` lives at least as long as `k`. -/
def Covers (s : Store K V) (ks : List K) (k : K) : Prop :=
  ∀ k' ∈ ks, s.deadline k ≤ s.deadline k'

theorem Covers.mono
    (h : s.Covers ks k)
    (hk : s'.deadline k ≤ s.deadline k)
    (hks : ∀ k' ∈ ks, s.deadline k' ≤ s'.deadline k') :
    s'.Covers ks k := by
  intro k' hk'
  calc s'.deadline k
      ≤ s.deadline k := hk
    _ ≤ s.deadline k' := h k' hk'
    _ ≤ s'.deadline k' := hks k' hk'

/-- Renewing a key together with everything that covers it. -/
theorem Covers.renew
    (h : s.Covers ks k) {n : Nat}
    (hk : s'.deadline k = max (s.deadline k) n)
    (hks : ∀ k' ∈ ks, s'.deadline k' = max (s.deadline k') n) :
    s'.Covers ks k := by
  intro k' hk'
  have hle := h k' hk'
  rw [hk, hks k' hk']
  omega

/-- Renewing a key but leaving some of what covers it alone is harmless exactly
if those live long enough already. -/
theorem Covers.renew_iff
    (h : s.Covers ks k) {n : Nat} (left : List K)
    (hk : s'.deadline k = max (s.deadline k) n)
    (hleft : ∀ k' ∈ left, k' ∈ ks)
    (hks : ∀ k' ∈ ks,
      (k' ∈ left ∧ s'.deadline k' = s.deadline k') ∨
        (k' ∉ left ∧ s'.deadline k' = max (s.deadline k') n)) :
    s'.Covers ks k ↔ ∀ k' ∈ left, n ≤ s.deadline k' := by
  constructor
  · intro h' k' hk'
    have hle := h' k' (hleft k' hk')
    rcases hks k' (hleft k' hk') with ⟨-, heq⟩ | ⟨hnot, -⟩
    · rw [hk, heq] at hle
      omega
    · exact absurd hk' hnot
  · intro hlong k' hk'
    have hle := h k' hk'
    rcases hks k' hk' with ⟨hin, heq⟩ | ⟨-, heq⟩
    · have hn := hlong k' hin
      rw [hk, heq]
      omega
    · rw [hk, heq]
      omega

/-- The passage of ledgers takes the covered key first. -/
theorem Covers.purge
    (h : s.Covers ks k) (ledger : Nat) :
    (s.purge ledger).Covers ks k := by
  intro k' hk'
  have hle := h k' hk'
  rw [deadline_purge, deadline_purge]
  split_ifs <;> omega

/-- What covers a present key is present. -/
theorem Covers.has
    (h : s.Covers ks k) (hk : s.has k = true)
    {k' : K} (hk' : k' ∈ ks) :
    s.has k' = true := by
  have hle := h k' hk'
  rw [has_iff_deadline_pos] at hk ⊢
  omega

/-- Covering, said with the lifetimes of present entries. -/
theorem covers_iff_liveUntil
    {l : Nat} (hk : s.liveUntil k = some l) :
    s.Covers ks k ↔ ∀ k' ∈ ks, ∃ l', s.liveUntil k' = some l' ∧ l ≤ l' := by
  rw [liveUntil_eq_some_iff] at hk
  constructor
  · intro h k' hk'
    have hle := h k' hk'
    refine ⟨s.deadline k' - 1, ?_, by omega⟩
    rw [liveUntil_eq_some_iff]
    omega
  · intro h k' hk'
    obtain ⟨l', hl', hle⟩ := h k' hk'
    rw [liveUntil_eq_some_iff] at hl'
    omega

/-- A present key has a lifetime. -/
theorem liveUntil_of_get
    {v : V k} (h : s.get k = some v) :
    ∃ l, s.liveUntil k = some l := by
  have hpos := deadline_pos_of_get h
  refine ⟨s.deadline k - 1, ?_⟩
  rw [liveUntil_eq_some_iff]
  omega

section Writes

variable [DecidableEq K] (s) (ledger : Nat)

theorem deadline_store
    (k k' : K) (v : V k) (ttl : Nat) :
    (s.store ledger k v ttl).deadline k' =
      if k' = k then max (s.deadline k') (ledger + ttl + 1)
      else s.deadline k' := by
  split_ifs with h
  · subst h
    exact deadline_store_self s ledger k' v ttl
  · exact deadline_store_of_ne s ledger h v ttl

theorem deadline_remove
    (k k' : K) :
    (s.remove k).deadline k' = if k' = k then 0 else s.deadline k' := by
  split_ifs with h
  · subst h
    exact deadline_remove_self s k'
  · exact deadline_remove_of_ne s h

theorem deadline_extendTtl
    (k k' : K) (n : Nat) :
    (s.extendTtl ledger k n n).deadline k' =
      if k' = k ∧ s.has k = true then max (s.deadline k') (ledger + n + 1)
      else s.deadline k' := by
  by_cases hk : k' = k
  · subst hk
    cases hhas : s.has k' with
    | true => simpa using deadline_extendTtl_self s ledger k' n hhas
    | false =>
        have hnone : s k' = none := by
          simpa [has] using hhas
        simp [extendTtl, hnone]
  · rw [deadline_extendTtl_of_ne s ledger hk, if_neg (fun h => hk h.1)]

/-- Extending a key shortens no lifetime. -/
theorem deadline_le_extendTtl
    (k k' : K) (n : Nat) :
    s.deadline k' ≤ (s.extendTtl ledger k n n).deadline k' := by
  rw [deadline_extendTtl]
  split_ifs
  · exact le_max_left _ _
  · exact le_refl _

end Writes

end Store
end Soroban
end TxWatch
