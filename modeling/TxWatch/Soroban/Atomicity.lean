import TxWatch.Soroban.Contract

/-!
# Contract errors without a rollback

What a call that ends in a contract error has done up to that point, without
any help from a rollback.  `ErrsWithin Q` says that every contract error, with
the storage it leaves, satisfies `Q`.  The rules establish this for
computations that check first and write afterwards: `Checks P` describes the
checks, which change nothing and whose errors satisfy `P`, and `Unfailing` the
writes, which may abort but never end in a contract error.
-/

namespace TxWatch
namespace Soroban
namespace Contract

variable {σ ε α β : Type} {P : ε → Prop}

/-- The computation changes nothing, and its errors satisfy `P`. -/
structure Checks (P : ε → Prop) (m : Contract σ ε α) : Prop where
  unchanged : ∀ env s, (m.run env s).2 = s
  error : ∀ env s e s', m.Fails env s (.error e) s' → P e

/-- The computation never ends in a contract error. -/
def Unfailing (m : Contract σ ε α) : Prop :=
  ∀ env s e s', ¬ m.Fails env s (.error e) s'

/-- Every contract error of the computation from `s` satisfies `Q`, together
with the storage reached. -/
def ErrsWithin (Q : ε → σ → Prop) (m : Contract σ ε α) (env : Env) (s : σ) :
    Prop :=
  ∀ e s', m.Fails env s (.error e) s' → Q e s'

theorem Checks.returns
    {m : Contract σ ε α} (h : Checks P m)
    {env : Env} {s s' : σ} {a : α}
    (hm : m.Returns env s a s') :
    s' = s := by
  have hs := h.unchanged env s
  rw [Returns] at hm
  rw [hm] at hs
  exact hs

theorem Checks.fails
    {m : Contract σ ε α} (h : Checks P m)
    {env : Env} {s s' : σ} {e : Failure ε}
    (hm : m.Fails env s e s') :
    s' = s := by
  have hs := h.unchanged env s
  rw [Fails] at hm
  rw [hm] at hs
  exact hs

theorem Checks.bind
    {m : Contract σ ε α} {f : α → Contract σ ε β}
    (hm : Checks P m) (hf : ∀ a, Checks P (f a)) :
    Checks P (m >>= f) := by
  refine ⟨?_, ?_⟩
  · intro env s
    have hs := hm.unchanged env s
    simp only [Bind.bind]
    rcases h : m.run env s with ⟨r | a, t⟩
    · rw [h] at hs
      exact hs
    · rw [h] at hs
      have ht : t = s := hs
      subst ht
      exact (hf a).unchanged env t
  · intro env s e s' h
    rw [fails_bind] at h
    rcases h with h | ⟨a, t, -, h⟩
    · exact hm.error env s e s' h
    · exact (hf a).error env t e s' h

/-- A computation that returns does not fail. -/
theorem Returns.not_fails
    {m : Contract σ ε α} {env : Env} {s t s' : σ} {a : α} {e : Failure ε}
    (h : m.Returns env s a t) :
    ¬ m.Fails env s e s' := by
  intro hfails
  rw [Returns] at h
  rw [Fails, h] at hfails
  simp at hfails

theorem Unfailing.errsWithin
    {m : Contract σ ε α} (h : Unfailing m)
    (Q : ε → σ → Prop) (env : Env) (s : σ) :
    ErrsWithin Q m env s := by
  intro e s' hm
  exact absurd hm (h env s e s')

/-- Checks may precede any computation, which may rely on what they returned. -/
theorem Checks.bind_errsWithin
    {m : Contract σ ε α} {f : α → Contract σ ε β}
    {Q : ε → σ → Prop} {env : Env} {s : σ}
    (hm : Checks P m) (hQ : ∀ e, P e → Q e s)
    (hf : ∀ a, m.Returns env s a s → ErrsWithin Q (f a) env s) :
    ErrsWithin Q (m >>= f) env s := by
  intro e s' h
  rw [fails_bind] at h
  rcases h with h | ⟨a, t, ha, h⟩
  · obtain rfl := hm.fails h
    exact hQ e (hm.error env s' e s' h)
  · obtain rfl := hm.returns ha
    exact hf a ha e s' h

theorem Checks.ite
    {c : Prop} [Decidable c] {m n : Contract σ ε α}
    (hm : Checks P m) (hn : Checks P n) :
    Checks P (if c then m else n) := by
  by_cases h : c
  · simpa [h] using hm
  · simpa [h] using hn

section Primitives

theorem checks_pure (a : α) :
    Checks P (pure a : Contract σ ε α) := by
  exact ⟨fun _ _ => rfl, by simp⟩

theorem checks_respond
    {ρ : Type} {m : Contract σ ε α} (h : Checks P m) (f : α → ρ) :
    Checks P (respond f m) := by
  exact h.bind fun _ => checks_pure _

theorem checks_fail {e : ε} (he : P e) :
    Checks P (fail e : Contract σ ε α) := by
  refine ⟨fun _ _ => rfl, ?_⟩
  rintro env s e' s' h
  rw [fails_fail] at h
  obtain ⟨h, -⟩ := h
  obtain rfl := Failure.error.inj h
  exact he

theorem checks_rejectIf {e : ε} (he : P e) (c : Prop) [Decidable c] :
    Checks P (rejectIf c e : Contract σ ε Unit) := by
  exact Checks.ite (checks_fail he) (checks_pure ())

theorem checks_okOr {e : ε} (he : P e) (o : Option α) :
    Checks P (okOr o e : Contract σ ε α) := by
  cases o with
  | none => exact checks_fail he
  | some a => exact checks_pure a

theorem checks_ofExcept
    {x : Except ε α} (hx : ∀ e, x = .error e → P e) :
    Checks P (ofExcept x : Contract σ ε α) := by
  cases x with
  | ok a => exact checks_pure a
  | error e => exact checks_fail (hx e rfl)

theorem checks_unwrap (o : Option α) :
    Checks P (unwrap o : Contract σ ε α) := by
  cases o with
  | none => exact ⟨fun _ _ => rfl, by simp⟩
  | some a => exact checks_pure a

theorem checks_requireAuth (a : Address) :
    Checks P (requireAuth a : Contract σ ε Unit) := by
  refine ⟨?_, by simp⟩
  intro env s
  unfold requireAuth
  by_cases h : a ∈ env.auths <;> simp [h]

theorem checks_askPeer (registry who : Address) :
    Checks P (askPeer registry who : Contract σ ε Bool) := by
  refine ⟨?_, by simp⟩
  intro env s
  unfold askPeer
  cases h : env.peer registry who <;> simp [h]

theorem checks_getState :
    Checks P (getState : Contract σ ε σ) := by
  exact ⟨fun _ _ => rfl, by simp⟩

variable {K : Type} {V : K → Type} {I : Type} {W : I → Type} {E : Type}

theorem checks_persistentGet (k : K) :
    Checks P (persistentGet k : Contract (State K V I W E) ε _) := by
  exact ⟨fun _ _ => rfl, by simp⟩

theorem checks_instanceGet (i : I) :
    Checks P (instanceGet i : Contract (State K V I W E) ε _) := by
  exact ⟨fun _ _ => rfl, by simp⟩

end Primitives

end Contract
end Soroban
end TxWatch
