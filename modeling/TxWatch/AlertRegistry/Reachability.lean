import TxWatch.AlertRegistry.Changes

/-!
# Runs of the contract

The changes of the alert table carried over to whole runs: calls in any order,
with any part of persistent storage disappearing between them.
-/

namespace TxWatch
namespace AlertRegistry

open Soroban Indexed

section Steps

variable (s : State)

/-- What a call does to the registry, whether it succeeds or fails. -/
theorem change_invoke (env : Env) (call : Call) :
    Registry.Change s.view (invoke env call s).2.view := by
  rcases invoke_refines env call s with ⟨resp, -, hstep⟩ | ⟨-, hview⟩
  · exact hstep.change
  · rw [hview]
    exact .same rfl rfl

/-- Expiry leaves a remnant of the table. -/
theorem remnant_dropping (keys : DataKey → Bool) :
    (State.view (s.dropping keys)).table.Remnant s.view.table := by
  refine ⟨?_, ?_⟩
  · intro id cfg hrow
    rw [view_row, State.dropping, Store.get_expire] at hrow
    split_ifs at hrow
    exact hrow
  · intro kind a
    rw [view_index, view_index, State.dropping, Store.get_expire]
    split_ifs
    · exact Or.inr rfl
    · exact Or.inl rfl

@[simp] theorem nextId_dropping (keys : DataKey → Bool) :
    (State.view (s.dropping keys)).nextId = s.view.nextId := by
  rfl

theorem index_dropping_of_kept
    {keys : DataKey → Bool} {kind : IndexKind} {a : Address}
    (h : keys (.index kind a) = false) :
    (State.view (s.dropping keys)).table.index kind a = s.view.table.index kind a := by
  rw [view_index, view_index, State.dropping, Store.get_expire]
  simp [h]

theorem safe_dropping
    (h : s.view.Safe) (keys : DataKey → Bool) :
    (State.view (s.dropping keys)).Safe := by
  refine ⟨(remnant_dropping s keys).sound h.sound, ?_⟩
  rw [nextId_dropping]
  exact (remnant_dropping s keys).within h.within

/-- Completeness survives expiry as long as no list goes before an alert on
it. -/
theorem complete_dropping
    (h : s.view.Complete) {keys : DataKey → Bool}
    (hkept : ∀ id cfg, (State.view (s.dropping keys)).table.row id = some cfg →
      ∀ kind, keys (.index kind (cfg.party kind)) = false) :
    (State.view (s.dropping keys)).Complete := by
  refine (remnant_dropping s keys).complete h ?_
  intro id cfg hrow kind
  exact index_dropping_of_kept s (hkept id cfg hrow kind)

end Steps

section Invariants

/-- The invariants of the table in freshly deployed storage. -/
theorem safe_empty : State.empty.view.Safe := by
  refine ⟨⟨?_, ?_⟩, ⟨?_, ?_⟩⟩
  · intro kind a
    exact List.nodup_nil
  · intro kind a id cfg hmem
    exact absurd hmem List.not_mem_nil
  · intro id hrow
    exact absurd hrow (by simp [view_row])
  · intro kind a id hmem
    exact absurd hmem List.not_mem_nil

theorem complete_empty : State.empty.view.Complete := by
  intro id cfg hrow
  exact absurd hrow (by simp [view_row])

theorem occupied_empty : State.empty.view.table.Occupied := by
  intro kind a id hmem
  exact absurd hmem List.not_mem_nil

theorem safe_exec (s : State) (st : Step) (h : s.view.Safe) :
    (exec s st).view.Safe := by
  cases st with
  | call env call => exact (change_invoke s env call).safe h
  | expire keys => exact safe_dropping s.silenced h keys

theorem complete_exec
    (s : State) (st : Step) (hkeep : st.keepsIndexes)
    (h : s.view.Complete) :
    (exec s st).view.Complete := by
  cases st with
  | call env call => exact (change_invoke s env call).complete h
  | expire keys =>
      refine complete_dropping s.silenced h ?_
      intro id cfg _ kind
      exact hkeep kind _

theorem occupied_exec
    (s : State) (st : Step) (hcall : st.isCall)
    (hs : s.view.Safe) (h : s.view.table.Occupied) :
    (exec s st).view.table.Occupied := by
  cases st with
  | call env call => exact (change_invoke s env call).occupied hs h
  | expire keys => exact absurd hcall id

/-- The induction rule for runs from empty storage. -/
theorem run_induction
    {C : Step → Prop} {P : State → Prop}
    (hempty : P State.empty)
    (hstep : ∀ s st, C st → P s → P (exec s st))
    {steps : List Step} (hsteps : ∀ st ∈ steps, C st) :
    P (run exec State.empty steps) := by
  exact run_preserves hstep hempty (along_of_forall_mem _ _ hsteps)

/-- The invariants of the table hold after any run. -/
theorem safe_run (steps : List Step) :
    (run exec State.empty steps).view.Safe := by
  exact run_induction (C := fun _ => True) safe_empty
    (fun s st _ h => safe_exec s st h) (fun _ _ => trivial)

/-- As long as the lists stay, every live alert is listed. -/
theorem complete_run
    {steps : List Step} (hsteps : ∀ st ∈ steps, st.keepsIndexes) :
    (run exec State.empty steps).view.Complete := by
  exact run_induction complete_empty complete_exec hsteps

/-- As long as nothing expires, every listed id is live. -/
theorem occupied_run
    {steps : List Step} (hsteps : ∀ st ∈ steps, st.isCall) :
    (run exec State.empty steps).view.table.Occupied := by
  have h := run_induction
    (P := fun s => s.view.Safe ∧ s.view.table.Occupied)
    ⟨safe_empty, occupied_empty⟩
    (fun s st hst h =>
      ⟨safe_exec s st h.1, occupied_exec s st hst h.1 h.2⟩)
    hsteps
  exact h.2

end Invariants

section Samples

/-! A few addresses and calls for concrete runs. -/

/-- An owner of alerts. -/
def alice : Address := ⟨1⟩

/-- Another owner. -/
def bob : Address := ⟨2⟩

/-- A contract that alerts are about. -/
def pool : Address := ⟨3⟩

/-- Another such contract. -/
def vault : Address := ⟨4⟩

/-- The admin of the sample runs. -/
def operator : Address := ⟨9⟩

/-- A hash of the required length. -/
def sampleHash : HostString := ⟨List.replicate 64 48⟩

/-- A call environment at a ledger, with nobody to ask about watchers. -/
def envAt (ledger : Nat) (auths : List Address) : Env where
  auths := auths
  timestamp := 5 * ledger
  sequence := ledger
  peer := fun _ _ => none

/-- A plain registration. -/
def sampleRegister (owner target : Address) : Call :=
  .registerAlert owner target (.fromStr "large transfers") sampleHash
    [ruleTransfer] none

/-- The record that a plain registration at a ledger writes. -/
def sampleAlert (owner target : Address) (ledger : Nat) : AlertConfig where
  label := .fromStr "large transfers"
  webhookHash := sampleHash
  rules := [ruleTransfer]
  owner := owner
  targetContract := target
  createdAt := 5 * ledger
  updatedAt := 5 * ledger
  active := true
  pendingWebhookHash := none
  tags := none

end Samples

end AlertRegistry
end TxWatch
