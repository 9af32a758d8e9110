import TxWatch.Soroban.State

/-!
# Contract computations over a host

A contract entry point runs against the storage of its contract and a call
environment.  It ends with a value, with an error of the contract's own, or
with a host failure (a missing authorisation, or an aborted call).  A
computation that fails keeps the storage it had reached: rolling back is the
business of whoever invokes it, not of the computation.

`Returns` and `Fails` relate a computation to its two kinds of ending.  Their
inversion lemmas form the simp set with which source functions are taken apart
statement by statement.
-/

namespace TxWatch
namespace Soroban

/-- Account and contract identifiers, compared for equality only. -/
structure Address where
  key : Nat
deriving DecidableEq, Repr

/-- A host string: a sequence of bytes. -/
structure HostString where
  bytes : List UInt8
deriving DecidableEq, Repr

/-- Length of a host string in bytes. -/
def HostString.len (s : HostString) : Nat :=
  s.bytes.length

/-- The host string with the UTF-8 bytes of a literal. -/
def HostString.fromStr (s : String) : HostString :=
  ⟨s.toUTF8.data.toList⟩

/-- Largest `u64`. -/
def u64Max : Nat := 2 ^ 64 - 1

/-- Largest `u32`. -/
def u32Max : Nat := 2 ^ 32 - 1

/-- `u64::checked_add`. -/
def checkedAdd64 (a b : Nat) : Option Nat :=
  if a + b ≤ u64Max then some (a + b) else none

/-- `u32` addition; an overflow gives no value. -/
def checkedAdd32 (a b : Nat) : Option Nat :=
  if a + b ≤ u32Max then some (a + b) else none

/-- `u32::saturating_add`. -/
def saturatingAdd32 (a b : Nat) : Nat :=
  min (a + b) u32Max

/-- What a call sees of the network: who has authorised it, the ledger it runs
in, and what other contracts answer about an address (`none` when the call to
them aborts). -/
structure Env where
  auths : List Address
  timestamp : Nat
  sequence : Nat
  peer : Address → Address → Option Bool

/-- How a computation fails: with a contract error, for want of an
authorisation, or by an abort of the host. -/
inductive Failure (ε : Type) where
  | error (e : ε)
  | authFailed
  | aborted
deriving DecidableEq, Repr

/-- A computation of a contract. -/
structure Contract (σ ε α : Type) where
  run : Env → σ → Except (Failure ε) α × σ

namespace Contract

variable {σ ε α β : Type}

instance : Monad (Contract σ ε) where
  pure a := ⟨fun _ s => (.ok a, s)⟩
  bind m f := ⟨fun env s =>
    match m.run env s with
    | (.ok a, s') => (f a).run env s'
    | (.error e, s') => (.error e, s')⟩

/-- The computation ends with value `a` in storage `s'`. -/
def Returns (m : Contract σ ε α) (env : Env) (s : σ) (a : α) (s' : σ) : Prop :=
  m.run env s = (.ok a, s')

/-- The computation fails with `e`, having reached storage `s'`. -/
def Fails (m : Contract σ ε α) (env : Env) (s : σ)
    (e : Failure ε) (s' : σ) : Prop :=
  m.run env s = (.error e, s')

/-- Fail with a contract error. -/
def fail (e : ε) : Contract σ ε α :=
  ⟨fun _ s => (.error (.error e), s)⟩

/-- Abort the call. -/
def abort : Contract σ ε α :=
  ⟨fun _ s => (.error .aborted, s)⟩

/-- `if c { return Err(e) }`. -/
def rejectIf (c : Prop) [Decidable c] (e : ε) : Contract σ ε Unit :=
  if c then fail e else pure ()

/-- `if c { m }`. -/
def whenever (c : Prop) [Decidable c] (m : Contract σ ε Unit) :
    Contract σ ε Unit :=
  if c then m else pure ()

/-- The value of an option, or a contract error. -/
def okOr (o : Option α) (e : ε) : Contract σ ε α :=
  match o with
  | some a => pure a
  | none => fail e

/-- A checked result of pure code (the `?` operator). -/
def ofExcept (x : Except ε α) : Contract σ ε α :=
  match x with
  | .ok a => pure a
  | .error e => fail e

/-- The value of an option; unwrapping `none` aborts. -/
def unwrap (o : Option α) : Contract σ ε α :=
  match o with
  | some a => pure a
  | none => abort

/-- Demand the authorisation of an address. -/
def requireAuth (a : Address) : Contract σ ε Unit :=
  ⟨fun env s =>
    if a ∈ env.auths then (.ok (), s) else (.error .authFailed, s)⟩

/-- Timestamp of the current ledger. -/
def timestamp : Contract σ ε Nat :=
  ⟨fun env s => (.ok env.timestamp, s)⟩

/-- Ask the contract at `registry` about `who`. -/
def askPeer (registry who : Address) : Contract σ ε Bool :=
  ⟨fun env s =>
    match env.peer registry who with
    | some b => (.ok b, s)
    | none => (.error .aborted, s)⟩

/-- Present the result of a computation as a response. -/
def respond {ρ : Type} (f : α → ρ) (m : Contract σ ε α) : Contract σ ε ρ := do
  let a ← m
  pure (f a)

/-- Response of a computation that returns nothing. -/
def done {ρ : Type} (unit : ρ) (m : Contract σ ε Unit) : Contract σ ε ρ :=
  respond (fun _ => unit) m

/-- Read the whole storage. -/
def getState : Contract σ ε σ :=
  ⟨fun _ s => (.ok s, s)⟩

section Inversion

variable {env : Env} {s s' : σ}

/-- A computation returns one value, in one storage. -/
theorem Returns.unique
    {m : Contract σ ε α} {a b : α} {t : σ}
    (h : m.Returns env s a s') (h' : m.Returns env s b t) :
    a = b ∧ s' = t := by
  rw [Returns] at h h'
  rw [h] at h'
  simpa using h'

@[simp] theorem returns_pure (a b : α) :
    (pure a : Contract σ ε α).Returns env s b s' ↔ b = a ∧ s' = s := by
  simp [Returns, pure, eq_comm]

@[simp] theorem fails_pure (a : α) (e : Failure ε) :
    ¬ (pure a : Contract σ ε α).Fails env s e s' := by
  simp [Fails, pure]

/-- A sequence returns exactly when both parts do. -/
@[simp] theorem returns_bind
    (m : Contract σ ε α) (f : α → Contract σ ε β) (b : β) :
    (m >>= f).Returns env s b s' ↔
      ∃ a t, m.Returns env s a t ∧ (f a).Returns env t b s' := by
  unfold Returns
  simp only [bind]
  rcases h : m.run env s with ⟨r | a, t⟩
  · simp
  · simp only [Prod.mk.injEq, Except.ok.injEq]
    constructor
    · intro hf
      exact ⟨a, t, ⟨rfl, rfl⟩, hf⟩
    · rintro ⟨a', t', ⟨rfl, rfl⟩, hf⟩
      exact hf

/-- A sequence fails in its first part, or in its second after the first
returned. -/
@[simp] theorem fails_bind
    (m : Contract σ ε α) (f : α → Contract σ ε β) (e : Failure ε) :
    (m >>= f).Fails env s e s' ↔
      m.Fails env s e s' ∨
        ∃ a t, m.Returns env s a t ∧ (f a).Fails env t e s' := by
  unfold Fails Returns
  simp only [bind]
  rcases h : m.run env s with ⟨r | a, t⟩
  · simp
  · simp only [Prod.mk.injEq, Except.ok.injEq, reduceCtorEq, false_and, false_or]
    constructor
    · intro hf
      exact ⟨a, t, ⟨rfl, rfl⟩, hf⟩
    · rintro ⟨a', t', ⟨rfl, rfl⟩, hf⟩
      exact hf

@[simp] theorem returns_ite
    (c : Prop) [Decidable c] (m n : Contract σ ε α) (a : α) :
    (if c then m else n).Returns env s a s' ↔
      (c ∧ m.Returns env s a s') ∨ (¬ c ∧ n.Returns env s a s') := by
  by_cases h : c <;> simp [h]

@[simp] theorem fails_ite
    (c : Prop) [Decidable c] (m n : Contract σ ε α) (e : Failure ε) :
    (if c then m else n).Fails env s e s' ↔
      (c ∧ m.Fails env s e s') ∨ (¬ c ∧ n.Fails env s e s') := by
  by_cases h : c <;> simp [h]

@[simp] theorem returns_fail (e : ε) (a : α) :
    ¬ (fail e : Contract σ ε α).Returns env s a s' := by
  simp [Returns, fail]

@[simp] theorem fails_fail (e : ε) (f : Failure ε) :
    (fail e : Contract σ ε α).Fails env s f s' ↔ f = .error e ∧ s' = s := by
  simp [Fails, fail, eq_comm]

@[simp] theorem returns_abort (a : α) :
    ¬ (abort : Contract σ ε α).Returns env s a s' := by
  simp [Returns, abort]

@[simp] theorem fails_abort (f : Failure ε) :
    (abort : Contract σ ε α).Fails env s f s' ↔ f = .aborted ∧ s' = s := by
  simp [Fails, abort, eq_comm]

@[simp] theorem returns_rejectIf (c : Prop) [Decidable c] (e : ε) (u : Unit) :
    (rejectIf c e : Contract σ ε Unit).Returns env s u s' ↔ ¬ c ∧ s' = s := by
  by_cases h : c <;> simp [rejectIf, h]

@[simp] theorem fails_rejectIf (c : Prop) [Decidable c] (e : ε) (f : Failure ε) :
    (rejectIf c e : Contract σ ε Unit).Fails env s f s' ↔
      c ∧ f = .error e ∧ s' = s := by
  by_cases h : c <;> simp [rejectIf, h]

@[simp] theorem returns_whenever
    (c : Prop) [Decidable c] (m : Contract σ ε Unit) (u : Unit) :
    (whenever c m).Returns env s u s' ↔
      (c ∧ m.Returns env s u s') ∨ (¬ c ∧ s' = s) := by
  by_cases h : c <;> simp [whenever, h]

@[simp] theorem fails_whenever
    (c : Prop) [Decidable c] (m : Contract σ ε Unit) (f : Failure ε) :
    (whenever c m).Fails env s f s' ↔ c ∧ m.Fails env s f s' := by
  by_cases h : c <;> simp [whenever, h]

@[simp] theorem returns_okOr (o : Option α) (e : ε) (a : α) :
    (okOr o e : Contract σ ε α).Returns env s a s' ↔ o = some a ∧ s' = s := by
  cases o <;> simp [okOr, eq_comm]

@[simp] theorem fails_okOr (o : Option α) (e : ε) (f : Failure ε) :
    (okOr o e : Contract σ ε α).Fails env s f s' ↔
      o = none ∧ f = .error e ∧ s' = s := by
  cases o <;> simp [okOr]

@[simp] theorem returns_ofExcept (x : Except ε Unit) (u : Unit) :
    (ofExcept x : Contract σ ε Unit).Returns env s u s' ↔
      x = .ok () ∧ s' = s := by
  cases x <;> simp [ofExcept]

@[simp] theorem fails_ofExcept (x : Except ε α) (f : Failure ε) :
    (ofExcept x : Contract σ ε α).Fails env s f s' ↔
      ∃ e, x = .error e ∧ f = .error e ∧ s' = s := by
  cases x <;> simp [ofExcept]

@[simp] theorem returns_unwrap (o : Option α) (a : α) :
    (unwrap o : Contract σ ε α).Returns env s a s' ↔ o = some a ∧ s' = s := by
  cases o <;> simp [unwrap, eq_comm]

@[simp] theorem fails_unwrap (o : Option α) (f : Failure ε) :
    (unwrap o : Contract σ ε α).Fails env s f s' ↔
      o = none ∧ f = .aborted ∧ s' = s := by
  cases o <;> simp [unwrap]

@[simp] theorem returns_requireAuth (a : Address) (u : Unit) :
    (requireAuth a : Contract σ ε Unit).Returns env s u s' ↔
      a ∈ env.auths ∧ s' = s := by
  unfold Returns requireAuth
  by_cases h : a ∈ env.auths <;> simp [h, eq_comm]

@[simp] theorem fails_requireAuth (a : Address) (f : Failure ε) :
    (requireAuth a : Contract σ ε Unit).Fails env s f s' ↔
      a ∉ env.auths ∧ f = .authFailed ∧ s' = s := by
  unfold Fails requireAuth
  by_cases h : a ∈ env.auths <;> simp [h, eq_comm]

@[simp] theorem returns_timestamp (t : Nat) :
    (timestamp : Contract σ ε Nat).Returns env s t s' ↔
      t = env.timestamp ∧ s' = s := by
  simp [Returns, timestamp, eq_comm]

@[simp] theorem fails_timestamp (f : Failure ε) :
    ¬ (timestamp : Contract σ ε Nat).Fails env s f s' := by
  simp [Fails, timestamp]

@[simp] theorem returns_askPeer (registry who : Address) (b : Bool) :
    (askPeer registry who : Contract σ ε Bool).Returns env s b s' ↔
      env.peer registry who = some b ∧ s' = s := by
  unfold Returns askPeer
  cases h : env.peer registry who <;> simp [h, eq_comm]

@[simp] theorem fails_askPeer (registry who : Address) (f : Failure ε) :
    (askPeer registry who : Contract σ ε Bool).Fails env s f s' ↔
      env.peer registry who = none ∧ f = .aborted ∧ s' = s := by
  unfold Fails askPeer
  cases h : env.peer registry who <;> simp [h, eq_comm]

@[simp] theorem returns_getState (t : σ) :
    (getState : Contract σ ε σ).Returns env s t s' ↔ t = s ∧ s' = s := by
  simp [Returns, getState, eq_comm]

@[simp] theorem fails_getState (f : Failure ε) :
    ¬ (getState : Contract σ ε σ).Fails env s f s' := by
  simp [Fails, getState]

section Responses

variable {ρ : Type}

@[simp] theorem returns_respond
    (f : α → ρ) (m : Contract σ ε α) (resp : ρ) :
    (respond f m).Returns env s resp s' ↔
      ∃ a, m.Returns env s a s' ∧ resp = f a := by
  simp [respond]

@[simp] theorem fails_respond
    (f : α → ρ) (m : Contract σ ε α) (e : Failure ε) :
    (respond f m).Fails env s e s' ↔ m.Fails env s e s' := by
  simp [respond]

@[simp] theorem returns_done (unit : ρ) (m : Contract σ ε Unit) (resp : ρ) :
    (done unit m).Returns env s resp s' ↔
      m.Returns env s () s' ∧ resp = unit := by
  unfold done
  rw [returns_respond]
  constructor
  · rintro ⟨⟨⟩, h, hresp⟩
    exact ⟨h, hresp⟩
  · rintro ⟨h, hresp⟩
    exact ⟨(), h, hresp⟩

@[simp] theorem fails_done (unit : ρ) (m : Contract σ ε Unit) (e : Failure ε) :
    (done unit m).Fails env s e s' ↔ m.Fails env s e s' := by
  unfold done
  rw [fails_respond]

end Responses

end Inversion

section Host

variable {K : Type} {V : K → Type} {I : Type} {W : I → Type} {E : Type}

/-- Read a persistent key. -/
def persistentGet (k : K) : Contract (State K V I W E) ε (Option (V k)) :=
  ⟨fun _ s => (.ok (s.persistent.get k), s)⟩

/-- Test a persistent key. -/
def persistentHas (k : K) : Contract (State K V I W E) ε Bool :=
  ⟨fun _ s => (.ok (s.persistent.has k), s)⟩

/-- Read an instance key. -/
def instanceGet (i : I) : Contract (State K V I W E) ε (Option (W i)) :=
  ⟨fun _ s => (.ok (s.inst i), s)⟩

/-- Extend the lifetime of the instance entry. -/
def instanceExtendTtl (threshold extendTo : Nat) :
    Contract (State K V I W E) ε Unit :=
  ⟨fun env s => (.ok (), s.extendInst env.sequence threshold extendTo)⟩

/-- Publish an event. -/
def publish (ev : E) : Contract (State K V I W E) ε Unit :=
  ⟨fun _ s => (.ok (), s.emit ev)⟩

section PersistentWrites

variable [DecidableEq K]

/-- Write a persistent key. -/
def persistentSet (k : K) (v : V k) : Contract (State K V I W E) ε Unit :=
  ⟨fun env s => (.ok (), s.put env.sequence k v)⟩

/-- Delete a persistent key. -/
def persistentRemove (k : K) : Contract (State K V I W E) ε Unit :=
  ⟨fun _ s => (.ok (), s.remove k)⟩

/-- Extend the lifetime of a persistent key; an absent key aborts the call. -/
def persistentExtendTtl (k : K) (threshold extendTo : Nat) :
    Contract (State K V I W E) ε Unit :=
  ⟨fun env s =>
    if s.persistent.has k then
      (.ok (), s.extend env.sequence k threshold extendTo)
    else (.error .aborted, s)⟩

/-- Write a persistent key and extend its lifetime by `ttl` ledgers. -/
def persistentStore (k : K) (v : V k) (ttl : Nat) :
    Contract (State K V I W E) ε Unit := do
  persistentSet k v
  persistentExtendTtl k ttl ttl

end PersistentWrites

/-- Write an instance key. -/
def instanceSet [DecidableEq I] (i : I) (w : W i) : Contract (State K V I W E) ε Unit :=
  ⟨fun _ s => (.ok (), s.setInst i w)⟩

/-- Delete an instance key. -/
def instanceRemove [DecidableEq I] (i : I) : Contract (State K V I W E) ε Unit :=
  ⟨fun _ s => (.ok (), s.removeInst i)⟩

variable {env : Env} {s s' : State K V I W E}

@[simp] theorem returns_persistentGet (k : K) (o : Option (V k)) :
    (persistentGet k : Contract (State K V I W E) ε _).Returns env s o s' ↔
      o = s.persistent.get k ∧ s' = s := by
  simp [Returns, persistentGet, eq_comm]

@[simp] theorem fails_persistentGet (k : K) (f : Failure ε) :
    ¬ (persistentGet k : Contract (State K V I W E) ε _).Fails env s f s' := by
  simp [Fails, persistentGet]

@[simp] theorem returns_persistentHas (k : K) (b : Bool) :
    (persistentHas k : Contract (State K V I W E) ε _).Returns env s b s' ↔
      b = s.persistent.has k ∧ s' = s := by
  simp [Returns, persistentHas, eq_comm]

@[simp] theorem fails_persistentHas (k : K) (f : Failure ε) :
    ¬ (persistentHas k : Contract (State K V I W E) ε _).Fails env s f s' := by
  simp [Fails, persistentHas]

@[simp] theorem returns_instanceGet (i : I) (o : Option (W i)) :
    (instanceGet i : Contract (State K V I W E) ε _).Returns env s o s' ↔
      o = s.inst i ∧ s' = s := by
  simp [Returns, instanceGet, eq_comm]

@[simp] theorem fails_instanceGet (i : I) (f : Failure ε) :
    ¬ (instanceGet i : Contract (State K V I W E) ε _).Fails env s f s' := by
  simp [Fails, instanceGet]

@[simp] theorem returns_instanceExtendTtl (threshold extendTo : Nat) (u : Unit) :
    (instanceExtendTtl threshold extendTo :
        Contract (State K V I W E) ε Unit).Returns env s u s' ↔
      s' = s.extendInst env.sequence threshold extendTo := by
  simp [Returns, instanceExtendTtl, eq_comm]

@[simp] theorem fails_instanceExtendTtl (threshold extendTo : Nat) (f : Failure ε) :
    ¬ (instanceExtendTtl threshold extendTo :
        Contract (State K V I W E) ε Unit).Fails env s f s' := by
  simp [Fails, instanceExtendTtl]

@[simp] theorem returns_publish (ev : E) (u : Unit) :
    (publish ev : Contract (State K V I W E) ε Unit).Returns env s u s' ↔
      s' = s.emit ev := by
  simp [Returns, publish, eq_comm]

@[simp] theorem fails_publish (ev : E) (f : Failure ε) :
    ¬ (publish ev : Contract (State K V I W E) ε Unit).Fails env s f s' := by
  simp [Fails, publish]

section PersistentWriteLemmas

variable [DecidableEq K]

@[simp] theorem returns_persistentSet (k : K) (v : V k) (u : Unit) :
    (persistentSet k v : Contract (State K V I W E) ε Unit).Returns env s u s' ↔
      s' = s.put env.sequence k v := by
  simp [Returns, persistentSet, eq_comm]

@[simp] theorem fails_persistentSet (k : K) (v : V k) (f : Failure ε) :
    ¬ (persistentSet k v : Contract (State K V I W E) ε Unit).Fails env s f s' := by
  simp [Fails, persistentSet]

@[simp] theorem returns_persistentRemove (k : K) (u : Unit) :
    (persistentRemove k : Contract (State K V I W E) ε Unit).Returns env s u s' ↔
      s' = s.remove k := by
  simp [Returns, persistentRemove, eq_comm]

@[simp] theorem fails_persistentRemove (k : K) (f : Failure ε) :
    ¬ (persistentRemove k : Contract (State K V I W E) ε Unit).Fails env s f s' := by
  simp [Fails, persistentRemove]

@[simp] theorem returns_persistentExtendTtl
    (k : K) (threshold extendTo : Nat) (u : Unit) :
    (persistentExtendTtl k threshold extendTo :
        Contract (State K V I W E) ε Unit).Returns env s u s' ↔
      s.persistent.has k = true ∧
        s' = s.extend env.sequence k threshold extendTo := by
  unfold Returns persistentExtendTtl
  cases h : s.persistent.has k <;> simp [h, eq_comm]

@[simp] theorem fails_persistentExtendTtl
    (k : K) (threshold extendTo : Nat) (f : Failure ε) :
    (persistentExtendTtl k threshold extendTo :
        Contract (State K V I W E) ε Unit).Fails env s f s' ↔
      s.persistent.has k = false ∧ f = .aborted ∧ s' = s := by
  unfold Fails persistentExtendTtl
  cases h : s.persistent.has k <;> simp [h, eq_comm]

@[simp] theorem returns_persistentStore (k : K) (v : V k) (ttl : Nat) (u : Unit) :
    (persistentStore k v ttl :
        Contract (State K V I W E) ε Unit).Returns env s u s' ↔
      s' = s.store env.sequence k v ttl := by
  simp [persistentStore]

@[simp] theorem fails_persistentStore (k : K) (v : V k) (ttl : Nat) (f : Failure ε) :
    ¬ (persistentStore k v ttl :
        Contract (State K V I W E) ε Unit).Fails env s f s' := by
  simp [persistentStore]

end PersistentWriteLemmas

section InstanceWriteLemmas

variable [DecidableEq I]

@[simp] theorem returns_instanceSet (i : I) (w : W i) (u : Unit) :
    (instanceSet i w : Contract (State K V I W E) ε Unit).Returns env s u s' ↔
      s' = s.setInst i w := by
  simp [Returns, instanceSet, eq_comm]

@[simp] theorem fails_instanceSet (i : I) (w : W i) (f : Failure ε) :
    ¬ (instanceSet i w : Contract (State K V I W E) ε Unit).Fails env s f s' := by
  simp [Fails, instanceSet]

@[simp] theorem returns_instanceRemove (i : I) (u : Unit) :
    (instanceRemove i : Contract (State K V I W E) ε Unit).Returns env s u s' ↔
      s' = s.removeInst i := by
  simp [Returns, instanceRemove, eq_comm]

end InstanceWriteLemmas

section Transactions

/-- Run a computation as a transaction.  The `events` of the storage it leaves
are those it published; a failed computation publishes none and changes
nothing. -/
def transact (m : Contract (State K V I W E) ε α) (env : Env)
    (s : State K V I W E) :
    Except (Failure ε) α × State K V I W E :=
  match m.run env s.silenced with
  | (.ok a, s') => (.ok a, s')
  | (.error f, _) => (.error f, s.silenced)

variable {m : Contract (State K V I W E) ε α}

theorem transact_of_returns
    {a : α} (h : m.Returns env s.silenced a s') :
    m.transact env s = (.ok a, s') := by
  rw [Returns] at h
  rw [transact, h]

theorem transact_of_fails
    {f : Failure ε} (h : m.Fails env s.silenced f s') :
    m.transact env s = (.error f, s.silenced) := by
  rw [Fails] at h
  rw [transact, h]

/-- The result of a transaction is that of its computation. -/
theorem transact_fst
    (m : Contract (State K V I W E) ε α) (env : Env) (s : State K V I W E) :
    (m.transact env s).1 = (m.run env s.silenced).1 := by
  rw [transact]
  rcases m.run env s.silenced with ⟨f | a, s'⟩
  · rfl
  · rfl

/-- The two outcomes of a transaction. -/
theorem transact_cases
    (m : Contract (State K V I W E) ε α) (env : Env) (s : State K V I W E) :
    (∃ a s', m.Returns env s.silenced a s' ∧ m.transact env s = (.ok a, s')) ∨
      (∃ f s', m.Fails env s.silenced f s' ∧
        m.transact env s = (.error f, s.silenced)) := by
  rcases h : m.run env s.silenced with ⟨f | a, s'⟩
  · exact Or.inr ⟨f, s', h, transact_of_fails h⟩
  · exact Or.inl ⟨a, s', h, transact_of_returns h⟩

/-- What a successful transaction returns. -/
theorem returns_of_transact
    {a : α} (h : (m.transact env s).1 = .ok a) :
    m.Returns env s.silenced a (m.transact env s).2 := by
  rcases transact_cases m env s with ⟨b, s', hm, heq⟩ | ⟨f, s', -, heq⟩
  · rw [heq] at h ⊢
    cases h
    exact hm
  · rw [heq] at h
    cases h

end Transactions

end Host

end Contract

/-- A loop that pushes the elements passing a test is a filter. -/
theorem foldl_push_eq_filter
    {α : Type} (p : α → Prop) [DecidablePred p] (l acc : List α) :
    l.foldl (fun out x => if p x then out ++ [x] else out) acc =
      acc ++ l.filter (fun x => p x) := by
  induction l generalizing acc with
  | nil => simp
  | cons x l ih =>
      by_cases h : p x <;> simp [ih, h]

end Soroban
end TxWatch
