import TxWatch.Soroban.Contract

/-!
# Computations run on two storages

Two storages that hold the same persistent entries may differ in their instance
entries.  A computation is blind to the difference when it ends alike on both
and leaves storages that differ in the same way again.

`Blind Q` is preserved by all ways of building computations.  What has to be
looked at are the instance entries: a read must not tell the two apart, and a
write must lead to related entries.
-/

namespace TxWatch
namespace Soroban

variable {K : Type} {V : K → Type} {I : Type} {W : I → Type} {E : Type}

/-- The storages differ at most in their instance entries, which are related by
`Q`. -/
structure State.DifferBy
    (Q : ((i : I) → Option (W i)) → ((i : I) → Option (W i)) → Prop)
    (s t : State K V I W E) : Prop where
  rest : t = { s with inst := t.inst }
  inst : Q s.inst t.inst

namespace State.DifferBy

variable {Q : ((i : I) → Option (W i)) → ((i : I) → Option (W i)) → Prop}
  {s t : State K V I W E}

theorem persistent (h : s.DifferBy Q t) :
    t.persistent = s.persistent := by
  rw [h.rest]

theorem events (h : s.DifferBy Q t) :
    t.events = s.events := by
  rw [h.rest]

/-- Changing both storages outside their instance entries. -/
theorem map
    (h : s.DifferBy Q t) (f : State K V I W E → State K V I W E)
    (hf : ∀ u, (f u).inst = u.inst)
    (hrest : ∀ u w, f { u with inst := w } = { f u with inst := w }) :
    (f s).DifferBy Q (f t) := by
  refine ⟨?_, ?_⟩
  · rw [hf t]
    conv_lhs => rw [h.rest]
    exact hrest s t.inst
  · rw [hf s, hf t]
    exact h.inst

theorem setInst
    [DecidableEq I] (h : s.DifferBy Q t) {i : I} {w : W i}
    (hQ : ∀ f g, Q f g →
      Q (Function.update f i (some w)) (Function.update g i (some w))) :
    (s.setInst i w).DifferBy Q (t.setInst i w) := by
  refine ⟨?_, hQ _ _ h.inst⟩
  conv_lhs => rw [h.rest]
  rfl

end State.DifferBy

namespace Contract

variable {ε α β : Type}
  {Q : ((i : I) → Option (W i)) → ((i : I) → Option (W i)) → Prop}

/-- On storages that differ by `Q` the computation ends alike, and it leaves
storages that differ by `Q`. -/
def Blind (Q : ((i : I) → Option (W i)) → ((i : I) → Option (W i)) → Prop)
    (m : Contract (State K V I W E) ε α) : Prop :=
  ∀ env s t, s.DifferBy Q t →
    (m.run env t).1 = (m.run env s).1 ∧
      (m.run env s).2.DifferBy Q (m.run env t).2

theorem Blind.bind
    {m : Contract (State K V I W E) ε α}
    {f : α → Contract (State K V I W E) ε β}
    (hm : Blind Q m) (hf : ∀ a, Blind Q (f a)) :
    Blind Q (m >>= f) := by
  intro env s t h
  have hst := hm env s t h
  simp only [Bind.bind]
  rcases hs : m.run env s with ⟨e | a, s'⟩
  · rcases ht : m.run env t with ⟨e' | a', t'⟩
    · rw [hs, ht] at hst
      obtain ⟨he, hst⟩ := hst
      obtain rfl := Except.error.inj he
      exact ⟨rfl, hst⟩
    · rw [hs, ht] at hst
      exact absurd hst.1 (by simp)
  · rcases ht : m.run env t with ⟨e' | a', t'⟩
    · rw [hs, ht] at hst
      exact absurd hst.1 (by simp)
    · rw [hs, ht] at hst
      obtain ⟨ha, hst⟩ := hst
      obtain rfl := Except.ok.inj ha
      exact hf a' env s' t' hst

/-- A read followed by something that does not depend on what distinguishes the
two storages. -/
theorem Blind.bind_read
    {m : Contract (State K V I W E) ε α}
    {f : α → Contract (State K V I W E) ε β}
    {g : State K V I W E → α}
    (hm : ∀ env s, m.run env s = (.ok (g s), s))
    (hsame : ∀ s t, s.DifferBy Q t → f (g t) = f (g s))
    (hf : ∀ a, Blind Q (f a)) :
    Blind Q (m >>= f) := by
  intro env s t h
  simp only [Bind.bind, hm]
  rw [hsame s t h]
  exact hf (g s) env s t h

theorem Blind.ite
    {c : Prop} [Decidable c] {m n : Contract (State K V I W E) ε α}
    (hm : Blind Q m) (hn : Blind Q n) :
    Blind Q (if c then m else n) := by
  by_cases h : c
  · simpa [h] using hm
  · simpa [h] using hn

/-- A computation that neither reads nor writes the storage. -/
theorem blind_of_stateless
    {m : Contract (State K V I W E) ε α} {r : Env → Except (Failure ε) α}
    (hm : ∀ env s, m.run env s = (r env, s)) :
    Blind Q m := by
  intro env s t h
  rw [hm, hm]
  exact ⟨rfl, h⟩

/-- A computation that only reads, and reads the same in both storages. -/
theorem blind_of_read
    {m : Contract (State K V I W E) ε α} {g : State K V I W E → α}
    (hm : ∀ env s, m.run env s = (.ok (g s), s))
    (hg : ∀ s t, s.DifferBy Q t → g t = g s) :
    Blind Q m := by
  intro env s t h
  rw [hm, hm, hg s t h]
  exact ⟨rfl, h⟩

/-- A computation that only writes, and not to the instance entries. -/
theorem blind_of_write
    {m : Contract (State K V I W E) ε Unit}
    {w : Env → State K V I W E → State K V I W E}
    (hm : ∀ env s, m.run env s = (.ok (), w env s))
    (hinst : ∀ env u, (w env u).inst = u.inst)
    (hrest : ∀ env u v, w env { u with inst := v } = { w env u with inst := v }) :
    Blind Q m := by
  intro env s t h
  rw [hm, hm]
  exact ⟨rfl, h.map (w env) (hinst env) (hrest env)⟩

section Primitives

theorem blind_pure (a : α) :
    Blind Q (pure a : Contract (State K V I W E) ε α) := by
  exact blind_of_stateless (fun _ _ => rfl)

theorem blind_respond
    {ρ : Type} {m : Contract (State K V I W E) ε α} (h : Blind Q m) (f : α → ρ) :
    Blind Q (respond f m) := by
  exact h.bind fun _ => blind_pure _

theorem blind_fail (e : ε) :
    Blind Q (fail e : Contract (State K V I W E) ε α) := by
  exact blind_of_stateless (fun _ _ => rfl)

theorem blind_rejectIf (c : Prop) [Decidable c] (e : ε) :
    Blind Q (rejectIf c e : Contract (State K V I W E) ε Unit) := by
  exact Blind.ite (blind_fail e) (blind_pure ())

theorem blind_whenever
    {c : Prop} [Decidable c] {m : Contract (State K V I W E) ε Unit}
    (hm : Blind Q m) :
    Blind Q (whenever c m) := by
  exact Blind.ite hm (blind_pure ())

theorem blind_okOr (o : Option α) (e : ε) :
    Blind Q (okOr o e : Contract (State K V I W E) ε α) := by
  cases o with
  | none => exact blind_fail e
  | some a => exact blind_pure a

theorem blind_ofExcept (x : Except ε α) :
    Blind Q (ofExcept x : Contract (State K V I W E) ε α) := by
  cases x with
  | ok a => exact blind_pure a
  | error e => exact blind_fail e

theorem blind_unwrap (o : Option α) :
    Blind Q (unwrap o : Contract (State K V I W E) ε α) := by
  cases o with
  | none => exact blind_of_stateless (fun _ _ => rfl)
  | some a => exact blind_pure a

theorem blind_requireAuth (a : Address) :
    Blind Q (requireAuth a : Contract (State K V I W E) ε Unit) := by
  intro env s t h
  simp only [requireAuth]
  split_ifs
  · exact ⟨rfl, h⟩
  · exact ⟨rfl, h⟩

theorem blind_timestamp :
    Blind Q (timestamp : Contract (State K V I W E) ε Nat) := by
  exact blind_of_stateless (r := fun env => .ok env.timestamp) (fun _ _ => rfl)

theorem blind_askPeer (registry who : Address) :
    Blind Q (askPeer registry who : Contract (State K V I W E) ε Bool) := by
  intro env s t h
  simp only [askPeer]
  cases env.peer registry who with
  | none => exact ⟨rfl, h⟩
  | some b => exact ⟨rfl, h⟩

theorem blind_persistentGet (k : K) :
    Blind Q (persistentGet k : Contract (State K V I W E) ε _) := by
  apply blind_of_read (fun _ _ => rfl)
  intro s t h
  rw [h.persistent]

theorem blind_persistentHas (k : K) :
    Blind Q (persistentHas k : Contract (State K V I W E) ε _) := by
  apply blind_of_read (fun _ _ => rfl)
  intro s t h
  rw [h.persistent]

/-- A read of an instance entry on which the storages agree. -/
theorem blind_instanceGet
    {i : I} (hi : ∀ f g, Q f g → g i = f i) :
    Blind Q (instanceGet i : Contract (State K V I W E) ε _) := by
  apply blind_of_read (fun _ _ => rfl)
  intro s t h
  exact hi _ _ h.inst

theorem blind_instanceExtendTtl (threshold extendTo : Nat) :
    Blind Q (instanceExtendTtl threshold extendTo :
      Contract (State K V I W E) ε Unit) := by
  exact blind_of_write (fun _ _ => rfl) (fun _ _ => rfl) (fun _ _ _ => rfl)

theorem blind_publish (ev : E) :
    Blind Q (publish ev : Contract (State K V I W E) ε Unit) := by
  exact blind_of_write (fun _ _ => rfl) (fun _ _ => rfl) (fun _ _ _ => rfl)

section PersistentWrites

variable [DecidableEq K]

theorem blind_persistentSet (k : K) (v : V k) :
    Blind Q (persistentSet k v : Contract (State K V I W E) ε Unit) := by
  exact blind_of_write (fun _ _ => rfl) (fun _ _ => rfl) (fun _ _ _ => rfl)

theorem blind_persistentRemove (k : K) :
    Blind Q (persistentRemove k : Contract (State K V I W E) ε Unit) := by
  exact blind_of_write (fun _ _ => rfl) (fun _ _ => rfl) (fun _ _ _ => rfl)

theorem blind_persistentExtendTtl (k : K) (threshold extendTo : Nat) :
    Blind Q (persistentExtendTtl k threshold extendTo :
      Contract (State K V I W E) ε Unit) := by
  intro env s t h
  simp only [persistentExtendTtl, h.persistent]
  split_ifs
  · exact ⟨rfl, h.map (fun u => u.extend env.sequence k threshold extendTo)
      (fun _ => rfl) (fun _ _ => rfl)⟩
  · exact ⟨rfl, h⟩

theorem blind_persistentStore (k : K) (v : V k) (ttl : Nat) :
    Blind Q (persistentStore k v ttl :
      Contract (State K V I W E) ε Unit) := by
  exact (blind_persistentSet k v).bind fun _ =>
    blind_persistentExtendTtl k ttl ttl

end PersistentWrites

/-- A write of an instance entry that keeps the entries related. -/
theorem blind_instanceSet
    [DecidableEq I] {i : I} {w : W i}
    (hQ : ∀ f g, Q f g →
      Q (Function.update f i (some w)) (Function.update g i (some w))) :
    Blind Q (instanceSet i w : Contract (State K V I W E) ε Unit) := by
  intro env s t h
  exact ⟨rfl, h.setInst hQ⟩

end Primitives

end Contract
end Soroban
end TxWatch
