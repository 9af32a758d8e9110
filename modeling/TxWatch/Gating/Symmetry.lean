import TxWatch.AlertRegistry.Renaming
import TxWatch.WatcherRegistry.Renaming
import TxWatch.Gating.System

/-!
# No address is privileged

Both contracts compare addresses with one another and never with anything that
the code knows, timestamps are only put in order, and the ledger a call runs in
shows in lifetimes alone.  So what happens to a world happens in the same way in
other names, at other times of the same order and in other ledgers.
-/

namespace TxWatch
namespace Gating

open Soroban

/-- The second world holds what the first holds, in other names. -/
structure World.Matches (ρ : Renaming) (w w' : World) : Prop where
  alerts : (AlertRegistry.dictionary ρ).Matches w.alerts w'.alerts
  watchers : (WatcherRegistry.dictionary ρ).Matches w.watchers w'.watchers

/-- The second action is the first in other names. -/
inductive Action.Renamed (ρ : Renaming) : Action → Action → Prop
  | alerts {env env' : Env} {call : AlertRegistry.Call} :
      ρ.Hosts env env' →
      Renamed ρ (.alerts env call) (.alerts env' (call.rename ρ))
  | watchers {env env' : Env} {call : WatcherRegistry.Call} :
      ρ.Hosts env env' →
      Renamed ρ (.watchers env call) (.watchers env' (call.rename ρ))
  | expireAlerts {keys keys' : AlertRegistry.DataKey → Bool} :
      (∀ k, keys' (k.rename ρ) = keys k) →
      Renamed ρ (.expireAlerts keys) (.expireAlerts keys')
  | expireWatchers {keys keys' : WatcherRegistry.DataKey → Bool} :
      (∀ k, keys' (k.rename ρ) = keys k) →
      Renamed ρ (.expireWatchers keys) (.expireWatchers keys')

section Answers

variable {ρ : Renaming} {env env' : Env}

/-- The watcher registry answers alike about the same address in other names. -/
theorem watcherAnswer_renamed
    {s t : WatcherRegistry.State} (henv : ρ.Hosts env env')
    (h : (WatcherRegistry.dictionary ρ).Matches s t) (who : Address) :
    watcherAnswer env' t (ρ.address who) = watcherAnswer env s who := by
  have hval := (WatcherRegistry.matches_invoke henv h (.isWatcherAuthorized who)).1
  unfold watcherAnswer
  rw [show WatcherRegistry.Call.isWatcherAuthorized (ρ.address who) =
    (WatcherRegistry.Call.isWatcherAuthorized who).rename ρ from rfl, hval,
    WatcherRegistry.invoke_isWatcherAuthorized]
  rfl

theorem hosts_env
    {w w' : World} (henv : ρ.Hosts env env') (h : w.Matches ρ w')
    (wr : Address) :
    ρ.Hosts (w.env wr env) (w'.env (ρ.address wr) env') := by
  refine ⟨henv.auths, henv.timestamp, ?_⟩
  intro registry who
  simp only [World.env, ρ.address_inj]
  split_ifs
  · exact watcherAnswer_renamed henv h.watchers who
  · exact henv.peer registry who

/-- Asking leaves the watcher registry alike in both. -/
theorem matches_asked
    {w w' : World} (henv : ρ.Hosts env env') (h : w.Matches ρ w')
    (wr : Address) (call : AlertRegistry.Call) :
    (WatcherRegistry.dictionary ρ).Matches (w.asked wr env call)
      (w'.asked (ρ.address wr) env' (call.rename ρ)) := by
  have hquerier : (call.rename ρ).querier = call.querier.map ρ.address := by
    cases call <;> rfl
  have hreg : w'.alerts.inst .watchreg = (w.alerts.inst .watchreg).map ρ.address :=
    h.alerts.inst .watchreg
  unfold World.asked
  rw [hquerier, hreg]
  cases call.querier with
  | none => exact h.watchers
  | some q =>
      cases w.alerts.inst .watchreg with
      | none => exact h.watchers
      | some registry =>
          simp only [Option.map_some, ρ.address_inj]
          split_ifs
          · exact (WatcherRegistry.matches_invoke henv h.watchers
              (.isWatcherAuthorized q)).2
          · exact h.watchers

end Answers

section Actions

variable {ρ : Renaming} {w w' : World}

theorem matches_callAlerts
    {env env' : Env} (henv : ρ.Hosts env env') (h : w.Matches ρ w')
    (wr : Address) (call : AlertRegistry.Call) :
    (callAlerts (ρ.address wr) env' (call.rename ρ) w').1 =
        (callAlerts wr env call w).1.map (AlertRegistry.Response.rename ρ) ∧
      (callAlerts wr env call w).2.Matches ρ
        (callAlerts (ρ.address wr) env' (call.rename ρ) w').2 := by
  obtain ⟨hval, hafter⟩ := AlertRegistry.matches_invoke (hosts_env henv h wr)
    h.alerts call
  unfold callAlerts
  rcases hs : AlertRegistry.invoke (w.env wr env) call w.alerts with ⟨f | resp, s⟩
  · rcases ht : AlertRegistry.invoke (w'.env (ρ.address wr) env') (call.rename ρ)
      w'.alerts with ⟨f' | resp', t⟩
    · rw [hs, ht] at hval hafter
      exact ⟨hval, ⟨hafter, h.watchers⟩⟩
    · rw [hs, ht] at hval
      cases hval
  · rcases ht : AlertRegistry.invoke (w'.env (ρ.address wr) env') (call.rename ρ)
      w'.alerts with ⟨f' | resp', t⟩
    · rw [hs, ht] at hval
      cases hval
    · rw [hs, ht] at hval hafter
      exact ⟨hval, ⟨hafter, matches_asked henv h wr call⟩⟩

theorem matches_callWatchers
    {env env' : Env} (henv : ρ.Hosts env env') (h : w.Matches ρ w')
    (call : WatcherRegistry.Call) :
    (callWatchers env' (call.rename ρ) w').1 =
        (callWatchers env call w).1.map (WatcherRegistry.Response.rename ρ) ∧
      (callWatchers env call w).2.Matches ρ
        (callWatchers env' (call.rename ρ) w').2 := by
  obtain ⟨hval, hafter⟩ := WatcherRegistry.matches_invoke henv h.watchers call
  exact ⟨hval, ⟨h.alerts, hafter⟩⟩

theorem matches_exec
    {act act' : Action} (hact : Action.Renamed ρ act act') (h : w.Matches ρ w')
    (wr : Address) :
    (exec wr w act).Matches ρ (exec (ρ.address wr) w' act') := by
  cases hact with
  | alerts henv => exact (matches_callAlerts henv h wr _).2
  | watchers henv => exact (matches_callWatchers henv h _).2
  | expireAlerts hkeys =>
      exact ⟨h.alerts.silenced.dropping hkeys, h.watchers⟩
  | expireWatchers hkeys =>
      exact ⟨h.alerts, h.watchers.silenced.dropping hkeys⟩

theorem matches_run
    {acts acts' : List Action} (hacts : List.Forall₂ (Action.Renamed ρ) acts acts')
    (h : w.Matches ρ w') (wr : Address) :
    (run (exec wr) w acts).Matches ρ (run (exec (ρ.address wr)) w' acts') := by
  induction hacts generalizing w w' with
  | nil => exact h
  | cons hact _ ih => exact ih (matches_exec hact h wr)

theorem matches_empty : World.empty.Matches ρ World.empty := by
  exact ⟨Dictionary.Matches.fresh, Dictionary.Matches.fresh⟩

end Actions

/-- Take any run of the two contracts and the same run in other names, at other
times of the same order and in any other ledgers.  Afterwards every call, made
in other names, ends alike, publishes the same events in other names, and leaves
the same values in other names. -/
theorem no_address_privileged
    (ρ : Renaming) (wr : Address) {acts acts' : List Action}
    (hacts : List.Forall₂ (Action.Renamed ρ) acts acts') :
    (∀ env env' call, ρ.Hosts env env' →
      (callAlerts (ρ.address wr) env' (call.rename ρ)
          (run (exec (ρ.address wr)) World.empty acts')).1 =
        (callAlerts wr env call (run (exec wr) World.empty acts)).1.map
          (AlertRegistry.Response.rename ρ) ∧
      World.Matches ρ
        (callAlerts wr env call (run (exec wr) World.empty acts)).2
        (callAlerts (ρ.address wr) env' (call.rename ρ)
          (run (exec (ρ.address wr)) World.empty acts')).2) ∧
    ∀ env env' call, ρ.Hosts env env' →
      (callWatchers env' (call.rename ρ)
          (run (exec (ρ.address wr)) World.empty acts')).1 =
        (callWatchers env call (run (exec wr) World.empty acts)).1.map
          (WatcherRegistry.Response.rename ρ) ∧
      World.Matches ρ
        (callWatchers env call (run (exec wr) World.empty acts)).2
        (callWatchers env' (call.rename ρ)
          (run (exec (ρ.address wr)) World.empty acts')).2 := by
  have hrun := matches_run hacts matches_empty wr
  refine ⟨?_, ?_⟩
  · intro env env' call henv
    exact matches_callAlerts henv hrun wr call
  · intro env env' call henv
    exact matches_callWatchers henv hrun call

section Samples

open WatcherRegistry

/-- Two keepers exchanged, and every time doubled. -/
def exchanged : Renaming where
  address := Equiv.swap keeper scout
  clock := fun t => 2 * t
  mono := fun _ _ h => Nat.mul_lt_mul_of_pos_left h (by decide)

/-- What the one keeper signs at a ledger, the other signs at the doubled time,
in any ledger. -/
theorem exchanged_hosts (ledger sequence : Nat) :
    exchanged.Hosts (signedBy [keeper] ledger)
      { signedBy [scout] (2 * ledger) with sequence := sequence } := by
  have hkeeper : exchanged.address keeper = scout := Equiv.swap_apply_left _ _
  refine ⟨?_, ?_, fun _ _ => rfl⟩
  · intro a
    rw [← hkeeper]
    simp [signedBy]
  · simp only [signedBy, exchanged]
    omega

/-- The other keeper gets as far as the first one did. -/
theorem exchanged_registers :
    (callWatchers { signedBy [scout] 4 with sequence := 9 }
        (.registerWatcher scout sentry (some 24) none)
        (run (exec (exchanged.address gatehouse)) World.empty
          [.watchers { signedBy [scout] 2 with sequence := 7 }
            (.initialise scout)])).1 =
      (callWatchers (signedBy [keeper] 2)
        (.registerWatcher keeper sentry (some 12) none)
        (run (exec gatehouse) World.empty
          [.watchers (signedBy [keeper] 1) (.initialise keeper)])).1.map
        (WatcherRegistry.Response.rename exchanged) := by
  have hfirst : (WatcherRegistry.Call.initialise keeper).rename exchanged =
      .initialise scout := by decide
  have hcall : (WatcherRegistry.Call.registerWatcher keeper sentry (some 12)
      none).rename exchanged = .registerWatcher scout sentry (some 24) none := by
    decide
  have hacts : List.Forall₂ (Action.Renamed exchanged)
      [.watchers (signedBy [keeper] 1) (.initialise keeper)]
      [.watchers { signedBy [scout] 2 with sequence := 7 } (.initialise scout)] := by
    refine .cons ?_ .nil
    rw [← hfirst]
    exact .watchers (exchanged_hosts 1 7)
  have h := (no_address_privileged exchanged gatehouse hacts).2
    (signedBy [keeper] 2) { signedBy [scout] 4 with sequence := 9 }
    (.registerWatcher keeper sentry (some 12) none) (exchanged_hosts 2 9)
  rw [hcall] at h
  exact h.1

end Samples

end Gating
end TxWatch
