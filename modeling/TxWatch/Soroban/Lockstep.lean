import TxWatch.Soroban.Atomicity

/-!
# The same computation in two storages

A computation ends alike in two storages when the checks it makes first cannot
tell them apart and the writes it makes afterwards go through in both.  What the
two storages have in common besides, and what the writes leave, plays no part.
-/

namespace TxWatch
namespace Soroban
namespace Contract

variable {σ ε α β : Type} {P : ε → Prop}

/-- The computation ends with the same value or failure in both storages. -/
def EndsAlike (m : Contract σ ε α) (env : Env) (s t : σ) : Prop :=
  (m.run env t).1 = (m.run env s).1

variable {env : Env} {s t : σ}

theorem endsAlike_of_returns
    {m : Contract σ ε α} {a : α} {s' t' : σ}
    (hs : m.Returns env s a s') (ht : m.Returns env t a t') :
    EndsAlike m env s t := by
  rw [Returns] at hs ht
  rw [EndsAlike, hs, ht]

/-- A check that ends alike may precede any computation that does so. -/
theorem Checks.bind_endsAlike
    {m : Contract σ ε α} {f : α → Contract σ ε β}
    (hm : Checks P m) (hsame : EndsAlike m env s t)
    (hf : ∀ a, m.Returns env s a s → EndsAlike (f a) env s t) :
    EndsAlike (m >>= f) env s t := by
  have hs := hm.unchanged env s
  have ht := hm.unchanged env t
  rw [EndsAlike] at hsame
  simp only [EndsAlike, Bind.bind]
  rcases hruns : m.run env s with ⟨e | a, s'⟩
  · rcases hrunt : m.run env t with ⟨e' | a', t'⟩
    · rw [hruns, hrunt] at hsame
      obtain rfl := Except.error.inj hsame
      rfl
    · rw [hruns, hrunt] at hsame
      cases hsame
  · rcases hrunt : m.run env t with ⟨e' | a', t'⟩
    · rw [hruns, hrunt] at hsame
      cases hsame
    · rw [hruns, hrunt] at hsame
      obtain rfl := Except.ok.inj hsame
      rw [hruns] at hs
      rw [hrunt] at ht
      obtain rfl : s' = s := hs
      obtain rfl : t' = t := ht
      exact hf a' hruns

/-- Presenting the value of a computation in another way. -/
theorem EndsAlike.map
    {m : Contract σ ε α} (h : EndsAlike m env s t) (f : α → β) :
    EndsAlike (do
      let a ← m
      pure (f a)) env s t := by
  simp only [EndsAlike, Bind.bind] at h ⊢
  rcases hs : m.run env s with ⟨e | a, s'⟩ <;>
    rcases ht : m.run env t with ⟨e' | a', t'⟩ <;>
    rw [hs, ht] at h <;>
    cases h <;>
    rfl

theorem endsAlike_ite
    {c : Prop} [Decidable c] {m n : Contract σ ε α}
    (hm : EndsAlike m env s t) (hn : EndsAlike n env s t) :
    EndsAlike (if c then m else n) env s t := by
  by_cases h : c
  · simpa [h] using hm
  · simpa [h] using hn

theorem endsAlike_pure (a : α) :
    EndsAlike (pure a : Contract σ ε α) env s t := by
  rfl

theorem endsAlike_fail (e : ε) :
    EndsAlike (fail e : Contract σ ε α) env s t := by
  rfl

theorem endsAlike_requireAuth (a : Address) :
    EndsAlike (requireAuth a : Contract σ ε Unit) env s t := by
  by_cases h : a ∈ env.auths
  · exact endsAlike_of_returns ((returns_requireAuth a ()).mpr ⟨h, rfl⟩)
      ((returns_requireAuth a ()).mpr ⟨h, rfl⟩)
  · simp [EndsAlike, requireAuth, h]

theorem endsAlike_rejectIf (c : Prop) [Decidable c] (e : ε) :
    EndsAlike (rejectIf c e : Contract σ ε Unit) env s t := by
  exact endsAlike_ite (endsAlike_fail e) (endsAlike_pure ())

theorem endsAlike_okOr (o : Option α) (e : ε) :
    EndsAlike (okOr o e : Contract σ ε α) env s t := by
  cases o with
  | none => rfl
  | some a => rfl

theorem endsAlike_ofExcept (x : Except ε α) :
    EndsAlike (ofExcept x : Contract σ ε α) env s t := by
  cases x with
  | ok a => rfl
  | error e => rfl

theorem endsAlike_askPeer (registry who : Address) :
    EndsAlike (askPeer registry who : Contract σ ε Bool) env s t := by
  simp only [EndsAlike, askPeer]
  cases env.peer registry who with
  | none => rfl
  | some b => rfl

section Host

variable {K : Type} {V : K → Type} {I : Type} {W : I → Type} {E : Type}
  {s t : State K V I W E}

theorem endsAlike_bind_instanceGet
    {i : I} {f : Option (W i) → Contract (State K V I W E) ε α}
    (h : t.inst i = s.inst i) (hf : EndsAlike (f (s.inst i)) env s t) :
    EndsAlike (instanceGet i >>= f) env s t := by
  simp only [EndsAlike, Bind.bind, instanceGet]
  rw [h]
  exact hf

theorem endsAlike_bind_persistentGet
    {k : K} {f : Option (V k) → Contract (State K V I W E) ε α}
    (h : t.persistent.get k = s.persistent.get k)
    (hf : EndsAlike (f (s.persistent.get k)) env s t) :
    EndsAlike (persistentGet k >>= f) env s t := by
  simp only [EndsAlike, Bind.bind, persistentGet]
  rw [h]
  exact hf

end Host

end Contract
end Soroban
end TxWatch
