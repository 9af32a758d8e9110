import TxWatch.Soroban.Run

/-!
# Replaying the events of a run

Whoever only sees the events of a system can keep a mirror of it: a value that
is updated with every event.  When the events of each single step turn the
mirror of the state before it into the mirror of the state after it, replaying
the log of a whole run gives the mirror of the state in which the run ends.
-/

namespace TxWatch
namespace Soroban

universe u v w x

variable {σ : Type u} {ι : Type v} {ε : Type w} {μ : Type x}

/-- The events of a run in order, when a state holds those of the step that led
to it. -/
def log (step : σ → ι → σ) (events : σ → List ε) : σ → List ι → List ε
  | _, [] => []
  | s, i :: is => events (step s i) ++ log step events (step s i) is

/-- Update a mirror with events one by one. -/
def replay (observe : μ → ε → μ) (m : μ) (evs : List ε) : μ :=
  evs.foldl observe m

variable {step : σ → ι → σ} {events : σ → List ε} {observe : μ → ε → μ}

@[simp] theorem replay_nil (m : μ) :
    replay observe m [] = m := by
  rfl

@[simp] theorem replay_cons (m : μ) (ev : ε) (evs : List ε) :
    replay observe m (ev :: evs) = replay observe (observe m ev) evs := by
  rfl

theorem replay_append (m : μ) (evs evs' : List ε) :
    replay observe m (evs ++ evs') = replay observe (replay observe m evs) evs' := by
  simp [replay, List.foldl_append]

/-- Events that the mirror does not react to. -/
theorem replay_of_ignored
    {m : μ} {evs : List ε} (h : ∀ ev ∈ evs, ∀ m, observe m ev = m) :
    replay observe m evs = m := by
  induction evs with
  | nil => rfl
  | cons ev evs ih =>
      rw [replay_cons, h ev List.mem_cons_self]
      exact ih (fun ev' hev' => h ev' (List.mem_cons_of_mem _ hev'))

/-- When every step keeps the mirror exact, so does every run. -/
theorem replay_log
    (mirror : σ → μ) {C : σ → ι → Prop}
    (hstep : ∀ s i, C s i →
      replay observe (mirror s) (events (step s i)) = mirror (step s i))
    {s : σ} {is : List ι} (hC : Along step C s is) :
    replay observe (mirror s) (log step events s is) = mirror (run step s is) := by
  induction is generalizing s with
  | nil => rfl
  | cons i is ih =>
      rw [log, replay_append, hstep s i hC.1, run_cons]
      exact ih hC.2

end Soroban
end TxWatch
