import Mathlib.Tactic

/-!
# Runs of a step function

A system is a step function on states, its runs are lists of inputs.  A
condition on inputs may depend on the state in which the input is taken;
`Along` says that every input of a run meets it.  `Throughout` says that a
property holds in every state the run passes through.

`run_preserves` is the induction rule for invariants.  `throughout_iff_along`
is its sharp form: when a step keeps a property exactly if its input meets the
condition, a run keeps the property throughout exactly if all its inputs do.
-/

namespace TxWatch
namespace Soroban

universe u v

variable {σ : Type u} {ι : Type v} (step : σ → ι → σ)

/-- Final state of a run. -/
def run (s : σ) (is : List ι) : σ :=
  is.foldl step s

/-- Every input of the run meets `C` in the state in which it is taken. -/
def Along (C : σ → ι → Prop) : σ → List ι → Prop
  | _, [] => True
  | s, i :: is => C s i ∧ Along C (step s i) is

/-- `P` holds in every state the run passes through. -/
def Throughout (P : σ → Prop) (s : σ) (is : List ι) : Prop :=
  ∀ pre, pre <+: is → P (run step s pre)

@[simp] theorem run_nil (s : σ) :
    run step s ([] : List ι) = s := by
  rfl

@[simp] theorem run_cons (s : σ) (i : ι) (is : List ι) :
    run step s (i :: is) = run step (step s i) is := by
  rfl

theorem run_append (s : σ) (is js : List ι) :
    run step s (is ++ js) = run step (run step s is) js := by
  simp [run, List.foldl_append]

variable {step}

@[simp] theorem along_nil (C : σ → ι → Prop) (s : σ) :
    Along step C s [] := by
  trivial

@[simp] theorem along_cons (C : σ → ι → Prop) (s : σ) (i : ι) (is : List ι) :
    Along step C s (i :: is) ↔ C s i ∧ Along step C (step s i) is := by
  rfl

theorem along_append (C : σ → ι → Prop) (s : σ) (is js : List ι) :
    Along step C s (is ++ js) ↔
      Along step C s is ∧ Along step C (run step s is) js := by
  induction is generalizing s with
  | nil => simp
  | cons i is ih => simp [ih, and_assoc]

/-- A condition on inputs alone holds along a run when all inputs meet it. -/
theorem along_of_forall_mem
    {C : ι → Prop} (s : σ) (is : List ι)
    (h : ∀ i ∈ is, C i) :
    Along step (fun _ i => C i) s is := by
  induction is generalizing s with
  | nil => trivial
  | cons i is ih =>
      refine ⟨h i (by simp), ih _ ?_⟩
      intro j hj
      exact h j (List.mem_cons_of_mem _ hj)

/-- What one step preserves, a run preserves. -/
theorem run_preserves
    {C : σ → ι → Prop} {P : σ → Prop}
    (hstep : ∀ s i, C s i → P s → P (step s i))
    {s : σ} {is : List ι}
    (hs : P s) (hC : Along step C s is) :
    P (run step s is) := by
  induction is generalizing s with
  | nil => exact hs
  | cons i is ih =>
      exact ih (hstep s i hC.1 hs) hC.2

/-- What an invariant says of each input holds along the whole run. -/
theorem along_of_preserved
    {C D : σ → ι → Prop} {P : σ → Prop}
    (hstep : ∀ s i, C s i → P s → D s i ∧ P (step s i))
    {s : σ} {is : List ι}
    (hs : P s) (hC : Along step C s is) :
    Along step D s is := by
  induction is generalizing s with
  | nil => trivial
  | cons i is ih =>
      have hi := hstep s i hC.1 hs
      exact ⟨hi.1, ih hi.2 hC.2⟩

theorem throughout_cons
    (P : σ → Prop) (s : σ) (i : ι) (is : List ι) :
    Throughout step P s (i :: is) ↔
      P s ∧ Throughout step P (step s i) is := by
  constructor
  · intro h
    refine ⟨h [] List.nil_prefix, ?_⟩
    intro pre hpre
    exact h (i :: pre) (List.cons_prefix_cons.mpr ⟨rfl, hpre⟩)
  · rintro ⟨hs, h⟩ pre hpre
    cases pre with
    | nil => exact hs
    | cons j pre =>
        obtain ⟨rfl, htail⟩ := List.cons_prefix_cons.mp hpre
        exact h pre htail

@[simp] theorem throughout_nil
    (P : σ → Prop) (s : σ) :
    Throughout step P s ([] : List ι) ↔ P s := by
  simp [Throughout]

/-- When a step keeps `P` exactly if its input meets `C`, a run keeps `P`
throughout exactly if all its inputs meet `C`.  `Q` collects what else is known
of the states as long as `P` holds. -/
theorem throughout_iff_along
    {C : σ → ι → Prop} {P Q : σ → Prop} {D : σ → ι → Prop}
    (hQ : ∀ s i, D s i → Q s → P s → Q (step s i))
    (hP : ∀ s i, D s i → Q s → P s → (P (step s i) ↔ C s i))
    {s : σ} {is : List ι}
    (hs : P s) (hq : Q s) (hD : Along step D s is) :
    Throughout step P s is ↔ Along step C s is := by
  induction is generalizing s with
  | nil => simpa using hs
  | cons i is ih =>
      have hi := hP s i hD.1 hq hs
      have hq' := hQ s i hD.1 hq hs
      rw [throughout_cons, along_cons]
      constructor
      · rintro ⟨-, h⟩
        have hs' : P (step s i) := h [] List.nil_prefix
        exact ⟨hi.mp hs', (ih hs' hq' hD.2).mp h⟩
      · rintro ⟨hc, h⟩
        have hs' : P (step s i) := hi.mpr hc
        exact ⟨hs, (ih hs' hq' hD.2).mpr h⟩

end Soroban
end TxWatch
