import TxWatch.AlertRegistry.Reachability

/-!
# Coherence of the two indexes

Whatever calls are made, and whenever alerts expire, the owner index and the
contract index agree with the alert records.
-/

namespace TxWatch
namespace AlertRegistry

open Soroban Indexed

/-- In a safe and complete registry an alert is listed exactly where it
belongs. -/
theorem mem_listed_iff
    {s : State} (hs : s.view.Safe) (hc : s.view.Complete)
    {id : Nat} {cfg : AlertConfig}
    (hrow : s.persistent.get (.alert id) = some cfg)
    (kind : IndexKind) (a : Address) :
    id ∈ s.listed kind a ↔ a = cfg.party kind := by
  constructor
  · intro hmem
    exact (hs.sound.party_eq kind a id cfg hmem hrow).symm
  · rintro rfl
    exact hc id cfg hrow kind

/-- After any run in which at most alerts and flags expire, ids in use are below
the counter, no list repeats an id, and a live alert is on the lists of its
owner and of its target and on no others.  If nothing expired at all, every
listed id has a live alert. -/
theorem indexes_coherent
    (steps : List Step) (hsteps : ∀ st ∈ steps, st.keepsIndexes) :
    (∀ id, (run exec State.empty steps).persistent.has (.alert id) = true →
      id < (run exec State.empty steps).counter) ∧
    (∀ kind a id, id ∈ (run exec State.empty steps).listed kind a →
      id < (run exec State.empty steps).counter) ∧
    (∀ kind a, ((run exec State.empty steps).listed kind a).Nodup) ∧
    (∀ id cfg,
      (run exec State.empty steps).persistent.get (.alert id) = some cfg →
      (∀ o, id ∈ (run exec State.empty steps).listed .owner o ↔
        o = cfg.owner) ∧
      (∀ t, id ∈ (run exec State.empty steps).listed .contract t ↔
        t = cfg.targetContract)) ∧
    ((∀ st ∈ steps, st.isCall) →
      ∀ kind a id, id ∈ (run exec State.empty steps).listed kind a →
        (run exec State.empty steps).persistent.has (.alert id) = true) := by
  have hsafe := safe_run steps
  have hcomplete := complete_run hsteps
  refine ⟨?_, ?_, hsafe.sound.nodup, ?_, ?_⟩
  · intro id hhas
    rw [Store.has_eq_isSome_get] at hhas
    exact hsafe.within.row id hhas
  · intro kind a id hmem
    exact hsafe.within.listed kind a id hmem
  · intro id cfg hrow
    exact ⟨mem_listed_iff hsafe hcomplete hrow .owner,
      mem_listed_iff hsafe hcomplete hrow .contract⟩
  · intro hcalls kind a id hmem
    rw [Store.has_eq_isSome_get]
    exact occupied_run hcalls kind a id hmem

/-- Two registrations, the first of which expires. -/
def staleRun : List Step :=
  [.call (envAt 1 [alice]) (sampleRegister alice pool),
    .call (envAt 2 [alice]) (sampleRegister alice pool),
    .expire (fun k => k = .alert 0)]

theorem staleRun_coherent :
    ((run exec State.empty staleRun).listed .owner alice).Nodup ∧
      (0 ∈ (run exec State.empty staleRun).listed .owner alice →
        0 < (run exec State.empty staleRun).counter) := by
  have hsteps : ∀ st ∈ staleRun, st.keepsIndexes := by
    simp [staleRun, Step.keepsIndexes]
  have h := indexes_coherent staleRun hsteps
  exact ⟨h.2.2.1 .owner alice, h.2.1 .owner alice 0⟩

end AlertRegistry
end TxWatch
