import TxWatch.Soroban.Run

/-!
# The history of a run

What a run has brought about, kept as a list with the latest first, so that a
property of the state it has led to can be read off by recursion on the list.
-/

namespace TxWatch
namespace Soroban

universe u v w x

variable {σ : Type u} {ι : Type v} {γ : Type w} {β : Type x}

/-- What has been done along a run, the latest first, when an input `i` taken in
`s` brings about `out s i`. -/
def history (step : σ → ι → σ) (out : σ → ι → List γ) : σ → List ι → List γ
  | _, [] => []
  | s, i :: is => history step out (step s i) is ++ out s i

variable {step : σ → ι → σ} {out : σ → ι → List γ}

/-- What every step preserves of the state and of the history that has led to
it, a run preserves. -/
theorem history_preserves
    {C : σ → ι → Prop} {P : List γ → σ → Prop}
    (hstep : ∀ past s i, C s i → P past s → P (out s i ++ past) (step s i))
    {past : List γ} {s : σ} {is : List ι}
    (hs : P past s) (hC : Along step C s is) :
    P (history step out s is ++ past) (run step s is) := by
  induction is generalizing past s with
  | nil => exact hs
  | cons i is ih =>
      rw [history, run_cons, List.append_assoc]
      exact ih (hstep past s i hC.1 hs) hC.2

/-- The latest since something happened is the latest of all. -/
theorem findSome?_of_takeWhile
    {p : γ → Bool} {f : γ → Option β} {l : List γ} {b : β}
    (h : (l.takeWhile p).findSome? f = some b) :
    l.findSome? f = some b := by
  rw [← List.takeWhile_append_dropWhile (p := p) (l := l), List.findSome?_append,
    h, Option.some_or]

end Soroban
end TxWatch
