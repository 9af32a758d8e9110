import TxWatch.Soroban.Run

/-!
# Inputs that are taken more than once

A sender who hears nothing sends again, so that an input may be taken, and taken
again, before the next one comes.  If every input absorbs its repetitions up to
a relation between states that the steps respect, the run comes to the same as
one in which every input is taken once.
-/

namespace TxWatch
namespace Soroban

universe u v

variable {σ : Type u} {ι : Type v} {step : σ → ι → σ}

/-- Every input followed by its repetitions. -/
def delivered : List (ι × List ι) → List ι
  | [] => []
  | (i, repetitions) :: rest => i :: (repetitions ++ delivered rest)

section Absorbing

variable {P : σ → Prop} {R : σ → σ → Prop} {Repeats : ι → ι → Prop}

/-- Repetitions of the last input change nothing. -/
theorem run_repetitions
    (hP : ∀ s i, P s → P (step s i))
    (htrans : ∀ {s t u}, R s t → R t u → R s u)
    (hcong : ∀ s t i, P s → P t → R s t → R (step s i) (step t i))
    (habsorb : ∀ s i j, P s → Repeats i j → R (step (step s i) j) (step s i))
    {s u : σ} {i : ι} {repetitions : List ι}
    (hs : P s) (hu : P u) (hsame : R u (step s i))
    (hrepeats : ∀ j ∈ repetitions, Repeats i j) :
    P (run step u repetitions) ∧ R (run step u repetitions) (step s i) := by
  induction repetitions generalizing u with
  | nil => exact ⟨hu, hsame⟩
  | cons j rest ih =>
      obtain ⟨hj, hrest⟩ := List.forall_mem_cons.mp hrepeats
      have hagain : R (step u j) (step s i) :=
        htrans (hcong u (step s i) j hu (hP s i hs) hsame) (habsorb s i j hs hj)
      exact ih (hP u j hu) hagain hrest

theorem run_delivered
    (hP : ∀ s i, P s → P (step s i))
    (htrans : ∀ {s t u}, R s t → R t u → R s u) (hrefl : ∀ s, R s s)
    (hcong : ∀ s t i, P s → P t → R s t → R (step s i) (step t i))
    (habsorb : ∀ s i j, P s → Repeats i j → R (step (step s i) j) (step s i))
    {s t : σ} {sent : List (ι × List ι)}
    (hs : P s) (ht : P t) (hsame : R s t)
    (hrepeats : ∀ d ∈ sent, ∀ j ∈ d.2, Repeats d.1 j) :
    R (run step s (delivered sent)) (run step t (sent.map Prod.fst)) := by
  induction sent generalizing s t with
  | nil => exact hsame
  | cons d rest ih =>
      obtain ⟨i, repetitions⟩ := d
      obtain ⟨hd, hrest⟩ := List.forall_mem_cons.mp hrepeats
      obtain ⟨hkept, habsorbed⟩ := run_repetitions (R := R) hP htrans hcong habsorb
        hs (hP s i hs) (hrefl _) hd
      rw [delivered, run_cons, run_append, List.map_cons, run_cons]
      exact ih hkept (hP t i ht) (htrans habsorbed (hcong s t i hs ht hsame)) hrest

end Absorbing

end Soroban
end TxWatch
