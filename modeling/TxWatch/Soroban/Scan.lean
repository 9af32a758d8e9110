import Mathlib.Tactic

/-!
# Scans that stop at the first refusal

A scan goes through a list from the left and checks each element against those
it has passed.  It accepts the list exactly when the check refuses no position,
and otherwise ends in the error of the least position that the check refuses.
-/

namespace TxWatch
namespace Soroban

variable {α ε : Type}

/-- Check the elements of a list in turn, each against those seen before it. -/
def scan (check : List α → α → Except ε Unit) :
    (seen : List α) → List α → Except ε Unit
  | _, [] => .ok ()
  | seen, a :: rest =>
      match check seen a with
      | .error e => .error e
      | .ok _ => scan check (seen ++ [a]) rest

/-- Positions that the check refuses. -/
def refusals (check : List α → α → Except ε Unit) (seen l : List α) : Set Nat :=
  {i | ∃ a, l[i]? = some a ∧ check (seen ++ l.take i) a ≠ .ok ()}

section Positions

variable {check : List α → α → Except ε Unit} {seen rest : List α} {a : α}

theorem not_mem_refusals_nil (i : Nat) : i ∉ refusals check seen [] := by
  rintro ⟨a, ha, -⟩
  cases ha

theorem zero_mem_refusals_cons :
    0 ∈ refusals check seen (a :: rest) ↔ check seen a ≠ .ok () := by
  simp [refusals]

theorem succ_mem_refusals_cons (i : Nat) :
    i + 1 ∈ refusals check seen (a :: rest) ↔
      i ∈ refusals check (seen ++ [a]) rest := by
  simp [refusals]

/-- Where the head passes, the least refusal is that of the rest. -/
theorem isLeast_refusals_cons
    (hhead : check seen a = .ok ()) (i : Nat) :
    IsLeast (refusals check seen (a :: rest)) (i + 1) ↔
      IsLeast (refusals check (seen ++ [a]) rest) i := by
  constructor
  · rintro ⟨hmem, hleast⟩
    refine ⟨(succ_mem_refusals_cons i).mp hmem, ?_⟩
    intro j hj
    have hle := hleast ((succ_mem_refusals_cons j).mpr hj)
    omega
  · rintro ⟨hmem, hleast⟩
    refine ⟨(succ_mem_refusals_cons i).mpr hmem, ?_⟩
    intro j hj
    cases j with
    | zero => exact absurd hhead (zero_mem_refusals_cons.mp hj)
    | succ j =>
        have hle := hleast ((succ_mem_refusals_cons j).mp hj)
        omega

end Positions

variable (check : List α → α → Except ε Unit)

/-- A scan accepts exactly when no position is refused. -/
theorem scan_eq_ok_iff (seen l : List α) :
    scan check seen l = .ok () ↔ ∀ i, i ∉ refusals check seen l := by
  induction l generalizing seen with
  | nil => exact iff_of_true rfl not_mem_refusals_nil
  | cons a rest ih =>
      cases hhead : check seen a with
      | error e =>
          have hzero : 0 ∈ refusals check seen (a :: rest) := by
            simp [zero_mem_refusals_cons, hhead]
          refine iff_of_false ?_ fun h => h 0 hzero
          simp [scan, hhead]
      | ok _ =>
          rw [scan, hhead]
          simp only [ih]
          constructor
          · intro h i hi
            cases i with
            | zero => exact zero_mem_refusals_cons.mp hi hhead
            | succ i => exact h i ((succ_mem_refusals_cons i).mp hi)
          · intro h i hi
            exact h (i + 1) ((succ_mem_refusals_cons i).mpr hi)

/-- A scan ends in the error of the least position that is refused. -/
theorem scan_eq_error_iff (seen l : List α) (e : ε) :
    scan check seen l = .error e ↔
      ∃ i a, IsLeast (refusals check seen l) i ∧ l[i]? = some a ∧
        check (seen ++ l.take i) a = .error e := by
  induction l generalizing seen with
  | nil => simp [scan]
  | cons a rest ih =>
      cases hhead : check seen a with
      | error e' =>
          have hzero : 0 ∈ refusals check seen (a :: rest) := by
            simp [zero_mem_refusals_cons, hhead]
          rw [scan, hhead]
          constructor
          · intro h
            refine ⟨0, a, ⟨hzero, fun j _ => Nat.zero_le j⟩, rfl, ?_⟩
            simpa [hhead] using h
          · rintro ⟨i, b, hleast, hget, herror⟩
            obtain rfl : i = 0 := Nat.le_zero.mp (hleast.2 hzero)
            obtain rfl := Option.some.inj hget
            simpa [hhead] using herror
      | ok _ =>
          rw [scan, hhead]
          simp only [ih]
          constructor
          · rintro ⟨i, b, hleast, hget, herror⟩
            refine ⟨i + 1, b, (isLeast_refusals_cons hhead i).mpr hleast, hget, ?_⟩
            simpa using herror
          · rintro ⟨i, b, hleast, hget, herror⟩
            cases i with
            | zero => exact absurd hhead (zero_mem_refusals_cons.mp hleast.1)
            | succ i =>
                refine ⟨i, b, (isLeast_refusals_cons hhead i).mp hleast, hget, ?_⟩
                simpa using herror

/-- Whatever a scan ends in, some check has ended in it. -/
theorem exists_check_of_scan_eq_error
    {check} {seen l : List α} {e : ε} (h : scan check seen l = .error e) :
    ∃ before, ∃ a ∈ l, check before a = .error e := by
  obtain ⟨i, a, -, hget, herror⟩ := (scan_eq_error_iff check seen l e).mp h
  exact ⟨_, a, List.mem_of_getElem? hget, herror⟩

/-- A list is free of repeats exactly when no element stands before itself. -/
theorem nodup_iff_not_mem_take (l : List α) :
    l.Nodup ↔ ∀ i a, l[i]? = some a → a ∉ l.take i := by
  rw [List.Nodup, List.pairwise_iff_getElem]
  constructor
  · intro h i a hget hmem
    obtain ⟨hi, rfl⟩ := List.getElem?_eq_some_iff.mp hget
    obtain ⟨j, hj, heq⟩ := List.mem_take_iff_getElem.mp hmem
    have hlt : j < i ∧ j < l.length := lt_min_iff.mp hj
    exact h j i hlt.2 hi hlt.1 heq
  · intro h j i hj hi hlt heq
    refine h i l[i] (List.getElem?_eq_getElem hi) ?_
    rw [List.mem_take_iff_getElem]
    exact ⟨j, lt_min hlt hj, heq⟩

end Soroban
end TxWatch
