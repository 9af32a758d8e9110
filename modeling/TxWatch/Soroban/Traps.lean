import TxWatch.Soroban.Contract

/-!
# Computations that do not trap

`m.Untrapped env s` says that `m`, run from `s`, ends with a value or with an
error of the contract's own: no missing authorisation and no abort of the host.
The rules take a computation apart statement by statement, just as those for
`Returns` do.

`forIndices` is the loop over positions of a vector whose rounds unwrap the
element they read, and `addChecked32` the addition of a build with overflow
checks.  As long as neither goes out of range they are a plain loop and a plain
addition.
-/

namespace TxWatch
namespace Soroban
namespace Contract

variable {σ ε α β γ : Type}

/-- Every way in which the computation fails is an error of the contract. -/
def Untrapped (m : Contract σ ε α) (env : Env) (s : σ) : Prop :=
  ∀ f s', m.Fails env s f s' → ∃ e, f = .error e

section Rules

variable {env : Env} {s s' : σ}

theorem Returns.untrapped
    {m : Contract σ ε α} {a : α} (h : m.Returns env s a s') :
    m.Untrapped env s := by
  intro f t hfails
  rw [Returns] at h
  rw [Fails, h] at hfails
  simp at hfails

/-- A sequence is untrapped when its first part is, and its second wherever the
first may have led. -/
@[simp] theorem untrapped_bind
    (m : Contract σ ε α) (f : α → Contract σ ε β) :
    (m >>= f).Untrapped env s ↔
      m.Untrapped env s ∧
        ∀ a t, m.Returns env s a t → (f a).Untrapped env t := by
  unfold Untrapped
  simp only [fails_bind]
  constructor
  · intro h
    refine ⟨fun g s' hg => h g s' (Or.inl hg), ?_⟩
    intro a t ha g s' hg
    exact h g s' (Or.inr ⟨a, t, ha, hg⟩)
  · rintro ⟨hm, hf⟩ g s' (hg | ⟨a, t, ha, hg⟩)
    · exact hm g s' hg
    · exact hf a t ha g s' hg

@[simp] theorem untrapped_ite
    (c : Prop) [Decidable c] (m n : Contract σ ε α) :
    (if c then m else n).Untrapped env s ↔
      (c → m.Untrapped env s) ∧ (¬ c → n.Untrapped env s) := by
  by_cases h : c <;> simp [h]

@[simp] theorem untrapped_pure (a : α) :
    (pure a : Contract σ ε α).Untrapped env s := by
  simp [Untrapped]

@[simp] theorem untrapped_fail (e : ε) :
    (fail e : Contract σ ε α).Untrapped env s := by
  simp [Untrapped]

@[simp] theorem untrapped_respond
    {ρ : Type} (f : α → ρ) (m : Contract σ ε α) :
    (respond f m).Untrapped env s ↔ m.Untrapped env s := by
  simp [respond]

@[simp] theorem untrapped_done
    {ρ : Type} (unit : ρ) (m : Contract σ ε Unit) :
    (done unit m).Untrapped env s ↔ m.Untrapped env s := by
  simp [done]

theorem not_untrapped_of_fails
    {m : Contract σ ε α} {f : Failure ε} (h : m.Fails env s f s')
    (hf : ∀ e, f ≠ .error e) :
    ¬ m.Untrapped env s := by
  intro hm
  obtain ⟨e, he⟩ := hm f s' h
  exact hf e he

@[simp] theorem untrapped_abort :
    ¬ (abort : Contract σ ε α).Untrapped env s := by
  have hfails : (abort : Contract σ ε α).Fails env s .aborted s := by
    simp
  exact not_untrapped_of_fails hfails (by simp)

@[simp] theorem untrapped_rejectIf (c : Prop) [Decidable c] (e : ε) :
    (rejectIf c e : Contract σ ε Unit).Untrapped env s := by
  simp [rejectIf]

@[simp] theorem untrapped_whenever
    (c : Prop) [Decidable c] (m : Contract σ ε Unit) :
    (whenever c m).Untrapped env s ↔ (c → m.Untrapped env s) := by
  by_cases h : c <;> simp [whenever, h]

@[simp] theorem untrapped_okOr (o : Option α) (e : ε) :
    (okOr o e : Contract σ ε α).Untrapped env s := by
  cases o <;> simp [okOr]

@[simp] theorem untrapped_ofExcept (x : Except ε α) :
    (ofExcept x : Contract σ ε α).Untrapped env s := by
  cases x <;> simp [ofExcept]

@[simp] theorem untrapped_unwrap (o : Option α) :
    (unwrap o : Contract σ ε α).Untrapped env s ↔ o ≠ none := by
  cases o <;> simp [unwrap]

@[simp] theorem untrapped_requireAuth (a : Address) :
    (requireAuth a : Contract σ ε Unit).Untrapped env s ↔ a ∈ env.auths := by
  by_cases h : a ∈ env.auths
  · simp [Untrapped, h]
  · have hfails : (requireAuth a : Contract σ ε Unit).Fails env s .authFailed s := by
      simp [h]
    simp [h, not_untrapped_of_fails hfails]

@[simp] theorem untrapped_timestamp :
    (timestamp : Contract σ ε Nat).Untrapped env s := by
  simp [Untrapped]

@[simp] theorem untrapped_askPeer (registry who : Address) :
    (askPeer registry who : Contract σ ε Bool).Untrapped env s ↔
      env.peer registry who ≠ none := by
  by_cases h : env.peer registry who = none
  · have hfails : (askPeer registry who : Contract σ ε Bool).Fails env s .aborted
        s := by
      simp [h]
    simp [h, not_untrapped_of_fails hfails]
  · simp [Untrapped, h]

@[simp] theorem untrapped_getState :
    (getState : Contract σ ε σ).Untrapped env s := by
  simp [Untrapped]

end Rules

section Host

variable {K : Type} {V : K → Type} {I : Type} {W : I → Type} {E : Type}
variable {env : Env} {s : State K V I W E}

@[simp] theorem untrapped_persistentGet (k : K) :
    (persistentGet k : Contract (State K V I W E) ε _).Untrapped env s := by
  simp [Untrapped]

@[simp] theorem untrapped_persistentHas (k : K) :
    (persistentHas k : Contract (State K V I W E) ε _).Untrapped env s := by
  simp [Untrapped]

@[simp] theorem untrapped_instanceGet (i : I) :
    (instanceGet i : Contract (State K V I W E) ε _).Untrapped env s := by
  simp [Untrapped]

@[simp] theorem untrapped_instanceExtendTtl (threshold extendTo : Nat) :
    (instanceExtendTtl threshold extendTo :
        Contract (State K V I W E) ε Unit).Untrapped env s := by
  simp [Untrapped]

@[simp] theorem untrapped_publish (ev : E) :
    (publish ev : Contract (State K V I W E) ε Unit).Untrapped env s := by
  simp [Untrapped]

@[simp] theorem untrapped_instanceSet [DecidableEq I] (i : I) (w : W i) :
    (instanceSet i w : Contract (State K V I W E) ε Unit).Untrapped env s := by
  simp [Untrapped]

@[simp] theorem untrapped_persistentRemove [DecidableEq K] (k : K) :
    (persistentRemove k : Contract (State K V I W E) ε Unit).Untrapped env s := by
  simp [Untrapped]

@[simp] theorem untrapped_persistentStore [DecidableEq K]
    (k : K) (v : V k) (ttl : Nat) :
    (persistentStore k v ttl :
        Contract (State K V I W E) ε Unit).Untrapped env s := by
  simp [Untrapped]

/-- Extending a lifetime is safe exactly when the key is there. -/
@[simp] theorem untrapped_persistentExtendTtl [DecidableEq K]
    (k : K) (threshold extendTo : Nat) :
    (persistentExtendTtl k threshold extendTo :
        Contract (State K V I W E) ε Unit).Untrapped env s ↔
      s.persistent.has k = true := by
  by_cases h : s.persistent.has k = true
  · simp [Untrapped, h]
  · have hfails : (persistentExtendTtl k threshold extendTo :
        Contract (State K V I W E) ε Unit).Fails env s .aborted s := by
      simpa using h
    simp [h, not_untrapped_of_fails hfails]

end Host

section Sequences

/-- Sequences may be regrouped. -/
theorem bind_bind
    (m : Contract σ ε α) (f : α → Contract σ ε β) (g : β → Contract σ ε γ) :
    (m >>= f) >>= g = m >>= fun a => f a >>= g := by
  simp only [bind, mk.injEq]
  funext env s
  rcases m.run env s with ⟨e | a, t⟩
  · rfl
  · rfl

/-- What comes after a computation only matters for what it returns. -/
theorem run_bind_congr
    {m : Contract σ ε α} {f g : α → Contract σ ε β} {env : Env} {s : σ}
    (h : ∀ a t, m.Returns env s a t → (f a).run env t = (g a).run env t) :
    (m >>= f).run env s = (m >>= g).run env s := by
  simp only [bind]
  rcases hm : m.run env s with ⟨e | a, t⟩
  · rfl
  · exact h a t hm

theorem run_bind_congr_left
    {m n : Contract σ ε α} {env : Env} {s : σ}
    (h : m.run env s = n.run env s) (f : α → Contract σ ε β) :
    (m >>= f).run env s = (n >>= f).run env s := by
  simp only [bind]
  rw [h]

end Sequences

section Machine

/-- `a + b` on `u32` in a build with overflow checks. -/
def addChecked32 (a b : Nat) : Contract σ ε Nat :=
  unwrap (checkedAdd32 a b)

theorem addChecked32_of_le
    {a b : Nat} (h : a + b ≤ u32Max) :
    (addChecked32 a b : Contract σ ε Nat) = pure (a + b) := by
  rw [addChecked32, checkedAdd32, if_pos h]
  rfl

/-- `for i in ..`: as many rounds as asked for from position `i` on, each of
which starts with `xs.get(i).unwrap()`. -/
def forIndices (xs : List α) (body : β → α → Contract σ ε β) :
    (count i : Nat) → β → Contract σ ε β
  | 0, _, b => pure b
  | count + 1, i, b => do
      let x ← unwrap xs[i]?
      let b ← body b x
      forIndices xs body count (i + 1) b

/-- As long as it stays inside the vector, the loop visits its elements. -/
theorem forIndices_eq_foldlM
    (xs : List α) (body : β → α → Contract σ ε β) (count i : Nat) (b : β)
    (h : i + count ≤ xs.length) :
    forIndices xs body count i b = ((xs.drop i).take count).foldlM body b := by
  induction count generalizing i b with
  | zero => rfl
  | succ count ih =>
      have hlt : i < xs.length := by
        omega
      have hrest : i + 1 + count ≤ xs.length := by
        omega
      rw [List.drop_eq_getElem_cons hlt, List.take_succ_cons, List.foldlM_cons,
        forIndices, List.getElem?_eq_getElem hlt]
      change body b xs[i] >>= _ = _
      congr 1
      funext b'
      exact ih (i + 1) b' hrest

/-- The loop over all positions is the loop over the elements. -/
theorem forIndices_all
    (xs : List α) (body : β → α → Contract σ ε β) (b : β) :
    forIndices xs body xs.length 0 b = xs.foldlM body b := by
  rw [forIndices_eq_foldlM xs body xs.length 0 b (by omega), List.drop_zero,
    List.take_length]

end Machine

end Contract
end Soroban
end TxWatch
