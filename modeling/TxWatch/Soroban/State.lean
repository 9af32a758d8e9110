import TxWatch.Soroban.Store

/-!
# Storage of a contract

The two storage kinds of one contract with the operations that write them, and
the events of the call in progress.  Each operation comes with its effect on
every field, so that the result of a sequence of writes is read off by `simp`.
-/

namespace TxWatch
namespace Soroban

/-- Storage of one contract, with the events of the call in progress.  Instance
storage is a single ledger entry; it has no recorded lifetime until it is
extended for the first time. -/
structure State (K : Type) (V : K → Type) (I : Type) (W : I → Type) (E : Type) where
  persistent : Store K V
  inst : (i : I) → Option (W i)
  instLiveUntil : Option Nat
  events : List E

namespace State

variable {K : Type} {V : K → Type} {I : Type} {W : I → Type} {E : Type}

section Persistent

variable [DecidableEq K]

/-- Write a persistent key. -/
def put (s : State K V I W E) (ledger : Nat) (k : K) (v : V k) :
    State K V I W E :=
  { s with persistent := s.persistent.set ledger k v }

/-- Delete a persistent key. -/
def remove (s : State K V I W E) (k : K) : State K V I W E :=
  { s with persistent := s.persistent.remove k }

/-- Extend the lifetime of a persistent key. -/
def extend (s : State K V I W E) (ledger : Nat) (k : K)
    (threshold extendTo : Nat) : State K V I W E :=
  { s with persistent := s.persistent.extendTtl ledger k threshold extendTo }

/-- Write a persistent key and extend its lifetime by `ttl` ledgers. -/
def store (s : State K V I W E) (ledger : Nat) (k : K) (v : V k)
    (ttl : Nat) : State K V I W E :=
  { s with persistent := s.persistent.store ledger k v ttl }

@[simp] theorem extend_put (s : State K V I W E) (ledger : Nat) (k : K) (v : V k)
    (ttl : Nat) :
    (s.put ledger k v).extend ledger k ttl ttl = s.store ledger k v ttl := by
  rfl

end Persistent

/-- Write an instance key. -/
def setInst [DecidableEq I] (s : State K V I W E) (i : I) (w : W i) :
    State K V I W E :=
  { s with inst := Function.update s.inst i (some w) }

/-- Delete an instance key. -/
def removeInst [DecidableEq I] (s : State K V I W E) (i : I) :
    State K V I W E :=
  { s with inst := Function.update s.inst i none }

/-- Lifetime of the instance entry after an extension. -/
def extendedInst (ledger : Nat) (old : Option Nat)
    (threshold extendTo : Nat) : Option Nat :=
  match old with
  | none => some (ledger + extendTo)
  | some l =>
      if l < ledger + extendTo ∧ l - ledger ≤ threshold then
        some (ledger + extendTo)
      else some l

/-- Extend the lifetime of the instance entry. -/
def extendInst (s : State K V I W E) (ledger threshold extendTo : Nat) :
    State K V I W E :=
  { s with
    instLiveUntil := extendedInst ledger s.instLiveUntil threshold extendTo }

/-- Record a published event. -/
def emit (s : State K V I W E) (ev : E) : State K V I W E :=
  { s with events := s.events ++ [ev] }

/-- Storage of a freshly deployed contract. -/
def fresh : State K V I W E where
  persistent := Store.empty
  inst := fun _ => none
  instLiveUntil := none
  events := []

/-- The same storage with no event published yet. -/
def silenced (s : State K V I W E) : State K V I W E :=
  { s with events := [] }

/-- The storage without the persistent entries of the selected keys. -/
def dropping (s : State K V I W E) (keys : K → Bool) : State K V I W E :=
  { s with persistent := s.persistent.expire keys }

section Fields

variable (s : State K V I W E)

@[simp] theorem persistent_put [DecidableEq K] (ledger : Nat) (k : K) (v : V k) :
    (s.put ledger k v).persistent = s.persistent.set ledger k v := by
  rfl

@[simp] theorem persistent_remove [DecidableEq K] (k : K) :
    (s.remove k).persistent = s.persistent.remove k := by
  rfl

@[simp] theorem persistent_extend [DecidableEq K]
    (ledger : Nat) (k : K) (threshold extendTo : Nat) :
    (s.extend ledger k threshold extendTo).persistent =
      s.persistent.extendTtl ledger k threshold extendTo := by
  rfl

@[simp] theorem persistent_store [DecidableEq K]
    (ledger : Nat) (k : K) (v : V k) (ttl : Nat) :
    (s.store ledger k v ttl).persistent = s.persistent.store ledger k v ttl := by
  rfl

@[simp] theorem persistent_setInst [DecidableEq I] (i : I) (w : W i) :
    (s.setInst i w).persistent = s.persistent := by
  rfl

@[simp] theorem persistent_removeInst [DecidableEq I] (i : I) :
    (s.removeInst i).persistent = s.persistent := by
  rfl

@[simp] theorem persistent_extendInst (ledger threshold extendTo : Nat) :
    (s.extendInst ledger threshold extendTo).persistent = s.persistent := by
  rfl

@[simp] theorem persistent_emit (ev : E) :
    (s.emit ev).persistent = s.persistent := by
  rfl

@[simp] theorem inst_put [DecidableEq K] (ledger : Nat) (k : K) (v : V k) :
    (s.put ledger k v).inst = s.inst := by
  rfl

@[simp] theorem inst_remove [DecidableEq K] (k : K) :
    (s.remove k).inst = s.inst := by
  rfl

@[simp] theorem inst_extend [DecidableEq K]
    (ledger : Nat) (k : K) (threshold extendTo : Nat) :
    (s.extend ledger k threshold extendTo).inst = s.inst := by
  rfl

@[simp] theorem inst_store [DecidableEq K]
    (ledger : Nat) (k : K) (v : V k) (ttl : Nat) :
    (s.store ledger k v ttl).inst = s.inst := by
  rfl

@[simp] theorem inst_setInst [DecidableEq I] (i : I) (w : W i) :
    (s.setInst i w).inst = Function.update s.inst i (some w) := by
  rfl

@[simp] theorem inst_removeInst [DecidableEq I] (i : I) :
    (s.removeInst i).inst = Function.update s.inst i none := by
  rfl

@[simp] theorem inst_extendInst (ledger threshold extendTo : Nat) :
    (s.extendInst ledger threshold extendTo).inst = s.inst := by
  rfl

@[simp] theorem inst_emit (ev : E) :
    (s.emit ev).inst = s.inst := by
  rfl

@[simp] theorem events_put [DecidableEq K] (ledger : Nat) (k : K) (v : V k) :
    (s.put ledger k v).events = s.events := by
  rfl

@[simp] theorem events_remove [DecidableEq K] (k : K) :
    (s.remove k).events = s.events := by
  rfl

@[simp] theorem events_extend [DecidableEq K]
    (ledger : Nat) (k : K) (threshold extendTo : Nat) :
    (s.extend ledger k threshold extendTo).events = s.events := by
  rfl

@[simp] theorem events_store [DecidableEq K]
    (ledger : Nat) (k : K) (v : V k) (ttl : Nat) :
    (s.store ledger k v ttl).events = s.events := by
  rfl

@[simp] theorem events_setInst [DecidableEq I] (i : I) (w : W i) :
    (s.setInst i w).events = s.events := by
  rfl

@[simp] theorem events_removeInst [DecidableEq I] (i : I) :
    (s.removeInst i).events = s.events := by
  rfl

@[simp] theorem events_extendInst (ledger threshold extendTo : Nat) :
    (s.extendInst ledger threshold extendTo).events = s.events := by
  rfl

@[simp] theorem events_emit (ev : E) :
    (s.emit ev).events = s.events ++ [ev] := by
  rfl

@[simp] theorem persistent_silenced :
    s.silenced.persistent = s.persistent := by
  rfl

@[simp] theorem inst_silenced :
    s.silenced.inst = s.inst := by
  rfl

@[simp] theorem events_silenced :
    s.silenced.events = [] := by
  rfl

@[simp] theorem persistent_fresh :
    (fresh : State K V I W E).persistent = Store.empty := by
  rfl

@[simp] theorem inst_fresh (i : I) :
    (fresh : State K V I W E).inst i = none := by
  rfl

@[simp] theorem events_fresh :
    (fresh : State K V I W E).events = [] := by
  rfl

end Fields

section Repetition

/-- Writing the value that an instance key has. -/
theorem setInst_of_eq [DecidableEq I]
    {s : State K V I W E} {i : I} {w : W i} (h : s.inst i = some w) :
    s.setInst i w = s := by
  unfold setInst
  rw [← h, Function.update_eq_self]

/-- An extension that has been made in a ledger changes nothing when it is made
again. -/
theorem extendedInst_extendedInst (ledger n : Nat) (old : Option Nat) :
    extendedInst ledger (extendedInst ledger old n n) n n =
      extendedInst ledger old n n := by
  cases old with
  | none => simp [extendedInst]
  | some l =>
      by_cases h : l < ledger + n ∧ l - ledger ≤ n
      · simp [extendedInst, h]
      · simp only [extendedInst, if_neg h]

end Repetition

end State

end Soroban
end TxWatch
