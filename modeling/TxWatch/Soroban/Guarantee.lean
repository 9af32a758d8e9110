import TxWatch.Soroban.Cover

/-!
# What writes guarantee

Code that keeps a store writes a key with one fixed lifetime, extends keys by
at most some longest one, and deletes.  A relation on stores that each of these
writes establishes holds between the store before any piece of the code and the
store after it.  `Lasting` and `Bounded` are two such relations: nothing that is
there loses lifetime, and nothing gains too much of it.
-/

namespace TxWatch
namespace Soroban

variable {K : Type} {V : K → Type}

namespace Store

/-- Entries that are there either were there with the same value and live no
shorter, or live up to `n`. -/
def Lasting (n : Nat) (s s' : Store K V) : Prop :=
  ∀ k, s'.has k = true →
    (s'.get k = s.get k ∧ s.deadline k ≤ s'.deadline k) ∨ n ≤ s'.deadline k

/-- No entry lives longer than it did or than up to `n`, and one outside `W` no
longer than it did. -/
def Bounded (W : Set K) (n : Nat) (s s' : Store K V) : Prop :=
  ∀ k, s'.deadline k ≤ s.deadline k ∨ (k ∈ W ∧ s'.deadline k ≤ n)

end Store

/-- `R` holds across every write of a key in `W` at a ledger: storing with
lifetime `ttl`, extending by at most `longest`, and deleting. -/
structure Guarantee [DecidableEq K] (W : Set K) (ledger ttl longest : Nat)
    (R : Store K V → Store K V → Prop) : Prop where
  refl : ∀ s, R s s
  trans : ∀ {s t u}, R s t → R t u → R s u
  store : ∀ s, ∀ k ∈ W, ∀ v, R s (s.store ledger k v ttl)
  extend : ∀ s, ∀ k ∈ W, ∀ n ≤ longest, R s (s.extendTtl ledger k n n)
  remove : ∀ s k, R s (s.remove k)

namespace Store

variable [DecidableEq K] {ledger ttl longest : Nat}

/-- Whatever is written, entries last. -/
theorem guarantee_lasting (W : Set K) :
    Guarantee W ledger ttl longest (Lasting (V := V) (ledger + ttl + 1)) where
  refl := fun _ _ _ => Or.inl ⟨rfl, le_refl _⟩
  trans := by
    intro s t u hst htu k hhas
    rcases htu k hhas with ⟨hget, hle⟩ | hlong
    · have hhas' : t.has k = true := by
        rw [has_eq_isSome_get] at hhas ⊢
        rwa [← hget]
      rcases hst k hhas' with ⟨hget', hle'⟩ | hlong'
      · exact Or.inl ⟨hget.trans hget', hle'.trans hle⟩
      · exact Or.inr (hlong'.trans hle)
    · exact Or.inr hlong
  store := by
    intro s k _ v k' _
    by_cases hk : k' = k
    · subst hk
      rw [deadline_store_self]
      exact Or.inr (le_max_right _ _)
    · rw [get_store_of_ne s ledger hk, deadline_store_of_ne s ledger hk]
      exact Or.inl ⟨rfl, le_refl _⟩
  extend := by
    intro s k _ n _ k' _
    exact Or.inl ⟨get_extendTtl s ledger k k' n n,
      deadline_le_extendTtl s ledger k k' n⟩
  remove := by
    intro s k k' hhas
    by_cases hk : k' = k
    · subst hk
      simp [has_eq_isSome_get] at hhas
    · rw [get_remove_of_ne s hk, deadline_remove_of_ne s hk]
      exact Or.inl ⟨rfl, le_refl _⟩

/-- Nothing gains more lifetime than the longest extension gives. -/
theorem guarantee_bounded (W : Set K) (hle : ttl ≤ longest) :
    Guarantee W ledger ttl longest
      (Bounded (V := V) W (ledger + longest + 1)) where
  refl := fun _ _ => Or.inl (le_refl _)
  trans := by
    intro s t u hst htu k
    rcases htu k with hle | ⟨hk, hlong⟩
    · rcases hst k with hle' | ⟨hk, hlong⟩
      · exact Or.inl (hle.trans hle')
      · exact Or.inr ⟨hk, hle.trans hlong⟩
    · exact Or.inr ⟨hk, hlong⟩
  store := by
    intro s k hW v k'
    by_cases hk : k' = k
    · subst hk
      rw [deadline_store_self]
      rcases le_total (s.deadline k') (ledger + ttl + 1) with h | h
      · exact Or.inr ⟨hW, by omega⟩
      · exact Or.inl (by omega)
    · exact Or.inl (deadline_store_of_ne s ledger hk v ttl).le
  extend := by
    intro s k hW n hn k'
    rw [deadline_extendTtl]
    split_ifs with h
    · obtain ⟨rfl, -⟩ := h
      rcases le_total (s.deadline k') (ledger + n + 1) with h | h
      · exact Or.inr ⟨hW, by omega⟩
      · exact Or.inl (by omega)
    · exact Or.inl (le_refl _)
  remove := by
    intro s k k'
    rw [deadline_remove]
    split_ifs
    · exact Or.inl (Nat.zero_le _)
    · exact Or.inl (le_refl _)

end Store

end Soroban
end TxWatch
