import TxWatch.Soroban.Contract

/-!
# The same computation in another vocabulary

A renaming exchanges addresses for addresses and moves the clock without
changing the order of times.  A dictionary says how keys, values and events read
after it.  Two storages match when the one holds what the other holds,
translated; lifetimes are no part of this.

`Follows` says that one computation is another in translation: in matching
storages, called from matching environments, they end with matching results and
leave matching storages.  It is preserved by all ways of building computations.
-/

namespace TxWatch
namespace Soroban

/-- An exchange of addresses, and a change of clock that keeps the order of
times. -/
structure Renaming where
  address : Address ≃ Address
  clock : Nat → Nat
  mono : StrictMono clock

namespace Renaming

/-- The renaming that changes nothing. -/
def refl : Renaming where
  address := Equiv.refl Address
  clock := fun t => t
  mono := fun _ _ h => h

variable (ρ : Renaming)

@[simp] theorem address_inj (a b : Address) :
    ρ.address a = ρ.address b ↔ a = b := by
  exact ρ.address.injective.eq_iff

@[simp] theorem clock_le (t u : Nat) :
    ρ.clock t ≤ ρ.clock u ↔ t ≤ u := by
  exact ρ.mono.le_iff_le

@[simp] theorem mem_map_address (a : Address) (l : List Address) :
    ρ.address a ∈ l.map ρ.address ↔ a ∈ l := by
  exact List.mem_map_of_injective ρ.address.injective

theorem filter_map_address (a : Address) (l : List Address) :
    (l.map ρ.address).filter (fun b => b ≠ ρ.address a) =
      (l.filter (fun b => b ≠ a)).map ρ.address := by
  rw [List.filter_map]
  congr 1
  apply List.filter_congr
  intro b _
  simp

/-- What a call sees of the network, renamed.  The ledger it runs in is free. -/
structure Hosts (env env' : Env) : Prop where
  auths : ∀ a, ρ.address a ∈ env'.auths ↔ a ∈ env.auths
  timestamp : env'.timestamp = ρ.clock env.timestamp
  peer : ∀ registry who,
    env'.peer (ρ.address registry) (ρ.address who) = env.peer registry who

end Renaming

variable {K : Type} {V : K → Type} {I : Type} {W : I → Type} {E : Type}

/-- How keys, values and events read after a renaming. -/
structure Dictionary (K : Type) (V : K → Type) (I : Type) (W : I → Type)
    (E : Type) extends Renaming where
  key : K → K
  key_injective : Function.Injective key
  value : (k : K) → V k → V (key k)
  entry : (i : I) → W i → W i
  event : E → E

/-- The second storage holds what the first holds, translated. -/
structure Dictionary.Matches (d : Dictionary K V I W E)
    (s t : State K V I W E) : Prop where
  get : ∀ k, t.persistent.get (d.key k) = (s.persistent.get k).map (d.value k)
  inst : ∀ i, t.inst i = (s.inst i).map (d.entry i)
  events : t.events = s.events.map d.event

namespace Dictionary.Matches

variable {d : Dictionary K V I W E} {s t : State K V I W E}

theorem has (h : d.Matches s t) (k : K) :
    t.persistent.has (d.key k) = s.persistent.has k := by
  rw [Store.has_eq_isSome_get, Store.has_eq_isSome_get, h.get, Option.isSome_map]

/-- Storages of the same values match those that match them. -/
theorem congr
    {s' t' : State K V I W E} (h : d.Matches s t)
    (hs : ∀ k, s'.persistent.get k = s.persistent.get k)
    (ht : ∀ k, t'.persistent.get k = t.persistent.get k)
    (hsi : s'.inst = s.inst) (hti : t'.inst = t.inst)
    (hse : s'.events = s.events) (hte : t'.events = t.events) :
    d.Matches s' t' := by
  refine ⟨?_, ?_, ?_⟩
  · intro k
    rw [ht, hs, h.get]
  · intro i
    rw [hti, hsi, h.inst]
  · rw [hte, hse, h.events]

theorem fresh : d.Matches State.fresh State.fresh := by
  exact ⟨fun _ => rfl, fun _ => rfl, rfl⟩

theorem silenced (h : d.Matches s t) :
    d.Matches s.silenced t.silenced := by
  exact ⟨h.get, h.inst, rfl⟩

theorem emit (h : d.Matches s t) (ev : E) :
    d.Matches (s.emit ev) (t.emit (d.event ev)) := by
  refine ⟨h.get, h.inst, ?_⟩
  simp [h.events]

section Writes

variable [DecidableEq K]

theorem put (h : d.Matches s t) (ledger ledger' : Nat) (k : K) (v : V k) :
    d.Matches (s.put ledger k v) (t.put ledger' (d.key k) (d.value k v)) := by
  refine ⟨?_, h.inst, h.events⟩
  intro k'
  by_cases hk : k' = k
  · subst hk
    simp
  · have hk' : d.key k' ≠ d.key k := fun he => hk (d.key_injective he)
    simp [hk, hk', h.get]

theorem remove (h : d.Matches s t) (k : K) :
    d.Matches (s.remove k) (t.remove (d.key k)) := by
  refine ⟨?_, h.inst, h.events⟩
  intro k'
  by_cases hk : k' = k
  · subst hk
    simp
  · have hk' : d.key k' ≠ d.key k := fun he => hk (d.key_injective he)
    simp [hk, hk', h.get]

theorem extend (h : d.Matches s t) (ledger ledger' : Nat) (k k' : K)
    (threshold threshold' extendTo extendTo' : Nat) :
    d.Matches (s.extend ledger k threshold extendTo)
      (t.extend ledger' k' threshold' extendTo') := by
  refine h.congr ?_ ?_ rfl rfl rfl rfl
  · intro k
    exact Store.get_extendTtl _ _ _ _ _ _
  · intro k
    exact Store.get_extendTtl _ _ _ _ _ _

end Writes

theorem setInst
    [DecidableEq I] (h : d.Matches s t) (i : I) (w : W i) :
    d.Matches (s.setInst i w) (t.setInst i (d.entry i w)) := by
  refine ⟨h.get, ?_, h.events⟩
  intro i'
  by_cases hi : i' = i
  · subst hi
    simp
  · simp [hi, h.inst]

theorem removeInst
    [DecidableEq I] (h : d.Matches s t) (i : I) :
    d.Matches (s.removeInst i) (t.removeInst i) := by
  refine ⟨h.get, ?_, h.events⟩
  intro i'
  by_cases hi : i' = i
  · subst hi
    simp
  · simp [hi, h.inst]

/-- What disappears from both storages alike. -/
theorem dropping
    (h : d.Matches s t) {keys keys' : K → Bool}
    (hkeys : ∀ k, keys' (d.key k) = keys k) :
    d.Matches (s.dropping keys) (t.dropping keys') := by
  refine ⟨?_, h.inst, h.events⟩
  intro k
  simp only [State.dropping, Store.get_expire, hkeys]
  split_ifs
  · rfl
  · exact h.get k

end Dictionary.Matches

namespace Contract

variable {ε α β γ δ : Type} {d : Dictionary K V I W E}

/-- The second computation is the first in translation; `f` translates the
value. -/
def Follows (d : Dictionary K V I W E) (f : α → β)
    (m : Contract (State K V I W E) ε α)
    (m' : Contract (State K V I W E) ε β) : Prop :=
  ∀ env env' s t, d.Hosts env env' → d.Matches s t →
    (m'.run env' t).1 = (m.run env s).1.map f ∧
      d.Matches (m.run env s).2 (m'.run env' t).2

theorem Follows.bind
    {f : α → β} {g : γ → δ}
    {m : Contract (State K V I W E) ε α}
    {m' : Contract (State K V I W E) ε β}
    {k : α → Contract (State K V I W E) ε γ}
    {k' : β → Contract (State K V I W E) ε δ}
    (hm : Follows d f m m') (hk : ∀ a, Follows d g (k a) (k' (f a))) :
    Follows d g (m >>= k) (m' >>= k') := by
  intro env env' s t henv hst
  obtain ⟨hval, hafter⟩ := hm env env' s t henv hst
  simp only [Bind.bind]
  rcases hs : m.run env s with ⟨e | a, s'⟩
  · rcases ht : m'.run env' t with ⟨e' | b, t'⟩
    · rw [hs, ht] at hval hafter
      obtain rfl := Except.error.inj hval
      exact ⟨rfl, hafter⟩
    · rw [hs, ht] at hval
      cases hval
  · rcases ht : m'.run env' t with ⟨e' | b, t'⟩
    · rw [hs, ht] at hval
      cases hval
    · rw [hs, ht] at hval hafter
      obtain rfl := Except.ok.inj hval
      exact hk a env env' s' t' henv hafter

theorem Follows.ite
    {f : α → β} {c c' : Prop} [Decidable c] [Decidable c']
    {m n : Contract (State K V I W E) ε α}
    {m' n' : Contract (State K V I W E) ε β}
    (hc : c' ↔ c) (hm : Follows d f m m') (hn : Follows d f n n') :
    Follows d f (if c then m else n) (if c' then m' else n') := by
  by_cases h : c
  · rw [if_pos h, if_pos (hc.mpr h)]
    exact hm
  · rw [if_neg h, if_neg (fun h' => h (hc.mp h'))]
    exact hn

/-- A computation that neither reads nor writes the storage. -/
theorem follows_of_stateless
    {f : α → β} {m : Contract (State K V I W E) ε α}
    {m' : Contract (State K V I W E) ε β}
    {r : Env → Except (Failure ε) α} {q : Env → Except (Failure ε) β}
    (hm : ∀ env s, m.run env s = (r env, s))
    (hm' : ∀ env s, m'.run env s = (q env, s))
    (hr : ∀ env env', d.Hosts env env' → q env' = (r env).map f) :
    Follows d f m m' := by
  intro env env' s t henv hst
  rw [hm, hm']
  exact ⟨hr env env' henv, hst⟩

/-- A computation that only reads. -/
theorem follows_of_read
    {f : α → β} {m : Contract (State K V I W E) ε α}
    {m' : Contract (State K V I W E) ε β}
    {g : State K V I W E → α} {g' : State K V I W E → β}
    (hm : ∀ env s, m.run env s = (.ok (g s), s))
    (hm' : ∀ env s, m'.run env s = (.ok (g' s), s))
    (hg : ∀ s t, d.Matches s t → g' t = f (g s)) :
    Follows d f m m' := by
  intro env env' s t henv hst
  rw [hm, hm', hg s t hst]
  exact ⟨rfl, hst⟩

/-- A computation that only writes. -/
theorem follows_of_write
    {m m' : Contract (State K V I W E) ε Unit}
    {w w' : Env → State K V I W E → State K V I W E}
    (hm : ∀ env s, m.run env s = (.ok (), w env s))
    (hm' : ∀ env s, m'.run env s = (.ok (), w' env s))
    (hw : ∀ env env' s t, d.Matches s t → d.Matches (w env s) (w' env' t)) :
    Follows d id m m' := by
  intro env env' s t henv hst
  rw [hm, hm']
  exact ⟨rfl, hw env env' s t hst⟩

/-- A computation of what has been read from the storage. -/
theorem Follows.bind_getState
    {f : α → β} {k : State K V I W E → Contract (State K V I W E) ε α}
    {k' : State K V I W E → Contract (State K V I W E) ε β}
    (hk : ∀ s t, d.Matches s t → Follows d f (k s) (k' t)) :
    Follows d f (getState >>= k) (getState >>= k') := by
  intro env env' s t henv hst
  exact hk s t hst env env' s t henv hst

section Primitives

theorem follows_pure (f : α → β) (a : α) :
    Follows d f (pure a : Contract (State K V I W E) ε α) (pure (f a)) := by
  exact follows_of_stateless (fun _ _ => rfl) (fun _ _ => rfl) (fun _ _ _ => rfl)

theorem follows_fail (f : α → β) (e : ε) :
    Follows d f (fail e : Contract (State K V I W E) ε α) (fail e) := by
  exact follows_of_stateless (fun _ _ => rfl) (fun _ _ => rfl) (fun _ _ _ => rfl)

theorem follows_rejectIf
    {c c' : Prop} [Decidable c] [Decidable c'] (hc : c' ↔ c) (e : ε) :
    Follows d id (rejectIf c e : Contract (State K V I W E) ε Unit)
      (rejectIf c' e) := by
  exact Follows.ite hc (follows_fail id e) (follows_pure id ())

theorem follows_whenever
    {c c' : Prop} [Decidable c] [Decidable c'] (hc : c' ↔ c)
    {m m' : Contract (State K V I W E) ε Unit} (hm : Follows d id m m') :
    Follows d id (whenever c m) (whenever c' m') := by
  exact Follows.ite hc hm (follows_pure id ())

theorem follows_okOr
    {f : α → β} {o : Option α} {o' : Option β} (ho : o' = o.map f) (e : ε) :
    Follows d f (okOr o e : Contract (State K V I W E) ε α) (okOr o' e) := by
  subst ho
  cases o with
  | none => exact follows_fail f e
  | some a => exact follows_pure f a

theorem follows_ofExcept (x : Except ε α) :
    Follows d id (ofExcept x : Contract (State K V I W E) ε α) (ofExcept x) := by
  cases x with
  | ok a => exact follows_pure id a
  | error e => exact follows_fail id e

theorem follows_unwrap
    {f : α → β} {o : Option α} {o' : Option β} (ho : o' = o.map f) :
    Follows d f (unwrap o : Contract (State K V I W E) ε α) (unwrap o') := by
  subst ho
  cases o with
  | none =>
      exact follows_of_stateless (fun _ _ => rfl) (fun _ _ => rfl) (fun _ _ _ => rfl)
  | some a => exact follows_pure f a

theorem follows_requireAuth (a : Address) :
    Follows d id (requireAuth a : Contract (State K V I W E) ε Unit)
      (requireAuth (d.address a)) := by
  intro env env' s t henv hst
  simp only [requireAuth, henv.auths]
  split_ifs
  · exact ⟨rfl, hst⟩
  · exact ⟨rfl, hst⟩

theorem follows_timestamp :
    Follows d d.clock (timestamp : Contract (State K V I W E) ε Nat)
      timestamp := by
  refine follows_of_stateless (r := fun env => .ok env.timestamp)
    (q := fun env => .ok env.timestamp) (fun _ _ => rfl) (fun _ _ => rfl) ?_
  intro env env' henv
  rw [henv.timestamp]
  rfl

theorem follows_askPeer (registry who : Address) :
    Follows d id (askPeer registry who : Contract (State K V I W E) ε Bool)
      (askPeer (d.address registry) (d.address who)) := by
  intro env env' s t henv hst
  simp only [askPeer, henv.peer]
  cases env.peer registry who with
  | none => exact ⟨rfl, hst⟩
  | some b => exact ⟨rfl, hst⟩

theorem follows_persistentGet (k : K) :
    Follows d (Option.map (d.value k))
      (persistentGet k : Contract (State K V I W E) ε _)
      (persistentGet (d.key k)) := by
  exact follows_of_read (fun _ _ => rfl) (fun _ _ => rfl) (fun _ _ h => h.get k)

theorem follows_persistentHas (k : K) :
    Follows d id (persistentHas k : Contract (State K V I W E) ε _)
      (persistentHas (d.key k)) := by
  exact follows_of_read (fun _ _ => rfl) (fun _ _ => rfl) (fun _ _ h => h.has k)

theorem follows_instanceGet (i : I) :
    Follows d (Option.map (d.entry i))
      (instanceGet i : Contract (State K V I W E) ε _) (instanceGet i) := by
  exact follows_of_read (fun _ _ => rfl) (fun _ _ => rfl) (fun _ _ h => h.inst i)

theorem follows_instanceExtendTtl (threshold threshold' extendTo extendTo' : Nat) :
    Follows d id
      (instanceExtendTtl threshold extendTo :
        Contract (State K V I W E) ε Unit)
      (instanceExtendTtl threshold' extendTo') := by
  exact follows_of_write (fun _ _ => rfl) (fun _ _ => rfl)
    (fun _ _ _ _ h => ⟨h.get, h.inst, h.events⟩)

/-- A value made of one instance entry. -/
theorem follows_ofInstance
    {i : I} {f : α → β} {g : Option (W i) → α} {g' : Option (W i) → β}
    (hg : ∀ o, g' (o.map (d.entry i)) = f (g o)) :
    Follows d f
      (do
        let o ← instanceGet i
        pure (g o) : Contract (State K V I W E) ε α)
      (do
        let o ← instanceGet i
        pure (g' o)) := by
  refine (follows_instanceGet i).bind fun o => ?_
  rw [hg]
  exact follows_pure f (g o)

theorem follows_publish (ev : E) :
    Follows d id (publish ev : Contract (State K V I W E) ε Unit)
      (publish (d.event ev)) := by
  exact follows_of_write (fun _ _ => rfl) (fun _ _ => rfl)
    (fun _ _ _ _ h => h.emit ev)

section PersistentWrites

variable [DecidableEq K]

theorem follows_persistentSet (k : K) (v : V k) :
    Follows d id (persistentSet k v : Contract (State K V I W E) ε Unit)
      (persistentSet (d.key k) (d.value k v)) := by
  exact follows_of_write (fun _ _ => rfl) (fun _ _ => rfl)
    (fun _ _ _ _ h => h.put _ _ k v)

theorem follows_persistentRemove (k : K) :
    Follows d id (persistentRemove k : Contract (State K V I W E) ε Unit)
      (persistentRemove (d.key k)) := by
  exact follows_of_write (fun _ _ => rfl) (fun _ _ => rfl)
    (fun _ _ _ _ h => h.remove k)

theorem follows_persistentExtendTtl
    (k : K) (threshold threshold' extendTo extendTo' : Nat) :
    Follows d id
      (persistentExtendTtl k threshold extendTo :
        Contract (State K V I W E) ε Unit)
      (persistentExtendTtl (d.key k) threshold' extendTo') := by
  intro env env' s t henv hst
  simp only [persistentExtendTtl, hst.has]
  split_ifs
  · exact ⟨rfl, hst.extend _ _ _ _ _ _ _ _⟩
  · exact ⟨rfl, hst⟩

theorem follows_persistentStore (k : K) (v : V k) (ttl ttl' : Nat) :
    Follows d id
      (persistentStore k v ttl : Contract (State K V I W E) ε Unit)
      (persistentStore (d.key k) (d.value k v) ttl') := by
  exact (follows_persistentSet k v).bind fun _ =>
    follows_persistentExtendTtl k ttl ttl' ttl ttl'

end PersistentWrites

theorem follows_instanceSet [DecidableEq I] (i : I) (w : W i) :
    Follows d id (instanceSet i w : Contract (State K V I W E) ε Unit)
      (instanceSet i (d.entry i w)) := by
  exact follows_of_write (fun _ _ => rfl) (fun _ _ => rfl)
    (fun _ _ _ _ h => h.setInst i w)

theorem follows_instanceRemove [DecidableEq I] (i : I) :
    Follows d id (instanceRemove i : Contract (State K V I W E) ε Unit)
      (instanceRemove i) := by
  exact follows_of_write (fun _ _ => rfl) (fun _ _ => rfl)
    (fun _ _ _ _ h => h.removeInst i)

end Primitives

section Responses

variable {ρ : Type} {r : ρ → ρ}

theorem follows_respond
    {f : α → β} {m : Contract (State K V I W E) ε α}
    {m' : Contract (State K V I W E) ε β} (h : Follows d f m m')
    {g : α → ρ} {g' : β → ρ} (hg : ∀ a, g' (f a) = r (g a)) :
    Follows d r (respond g m) (respond g' m') := by
  refine h.bind fun a => ?_
  rw [hg]
  exact follows_pure r (g a)

/-- Presenting a value that is not translated. -/
theorem follows_respond_same
    {m m' : Contract (State K V I W E) ε α} (h : Follows d id m m')
    {g : α → ρ} (hg : ∀ a, r (g a) = g a) :
    Follows d r (respond g m) (respond g m') := by
  exact follows_respond h fun a => (hg a).symm

theorem follows_done
    {m m' : Contract (State K V I W E) ε Unit} (h : Follows d id m m')
    {unit : ρ} (hunit : r unit = unit) :
    Follows d r (done unit m) (done unit m') := by
  exact follows_respond_same h fun _ => hunit

end Responses

/-- A transaction in translation. -/
theorem Follows.transact
    {f : α → β} {m : Contract (State K V I W E) ε α}
    {m' : Contract (State K V I W E) ε β} (h : Follows d f m m')
    {env env' : Env} {s t : State K V I W E}
    (henv : d.Hosts env env') (hst : d.Matches s t) :
    (m'.transact env' t).1 = (m.transact env s).1.map f ∧
      d.Matches (m.transact env s).2 (m'.transact env' t).2 := by
  obtain ⟨hval, hafter⟩ := h env env' s.silenced t.silenced henv hst.silenced
  unfold Contract.transact
  rcases hs : m.run env s.silenced with ⟨e | a, s'⟩
  · rcases ht : m'.run env' t.silenced with ⟨e' | b, t'⟩
    · rw [hs, ht] at hval
      obtain rfl := Except.error.inj hval
      exact ⟨rfl, hst.silenced⟩
    · rw [hs, ht] at hval
      cases hval
  · rcases ht : m'.run env' t.silenced with ⟨e' | b, t'⟩
    · rw [hs, ht] at hval
      cases hval
    · rw [hs, ht] at hval hafter
      exact ⟨hval, hafter⟩

end Contract

end Soroban
end TxWatch
