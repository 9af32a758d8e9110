import TxWatch.WatcherRegistry.Refinement
import TxWatch.Soroban.Replay

/-!
# Replaying the events of the watcher registry

An off-chain observer who keeps two sets, one of watchers and one of admins, and
updates them with every event of the registry, has exactly the addresses that
the registry stores.  Only `remove_admin` publishes for an address that need not
be stored, and only `add_admin` and `register_watcher` may succeed without a
word; either way the sets are the same before and after.
-/

namespace TxWatch
namespace WatcherRegistry

open Soroban Soroban.Contract

/-- What an observer knows of the registry. -/
@[ext] structure Mirror where
  watchers : Finset Address
  admins : Finset Address

namespace Mirror

/-- Before the first event. -/
def blank : Mirror where
  watchers := ∅
  admins := ∅

/-- Take an event into account. -/
def observe (m : Mirror) : Event → Mirror
  | ⟨(.watcher, .register), [.address w]⟩ =>
      { m with watchers := insert w m.watchers }
  | ⟨(.watcher, .remove), [.address w]⟩ =>
      { m with watchers := m.watchers.erase w }
  | ⟨(.watcher, .replace), [.address _, .address new]⟩ =>
      { m with watchers := insert new m.watchers }
  | ⟨(.admin, .init), [.address a]⟩ =>
      { m with admins := {a} }
  | ⟨(.admin, .add), [.address _, .address a]⟩ =>
      { m with admins := insert a m.admins }
  | ⟨(.admin, .remove), [.address _, .address a]⟩ =>
      { m with admins := m.admins.erase a }
  | ⟨(.admin, .transfer), [.address old, .address new]⟩ =>
      { m with admins := insert new (m.admins.erase old) }
  | _ => m

/-- The mirror of a registry. -/
def ofRegistry (r : Registry) : Mirror where
  watchers := r.roster.watchers.toFinset
  admins := (r.admins.getD []).toFinset

/-- A register event for each address of a list. -/
theorem replay_register (m : Mirror) (ws : List Address) :
    replay observe m
        (ws.map fun w => ⟨(.watcher, .register), [.address w]⟩) =
      { m with watchers := m.watchers ∪ ws.toFinset } := by
  induction ws generalizing m with
  | nil => simp
  | cons w ws ih =>
      rw [List.map_cons, replay_cons, ih]
      ext a
      · simp [observe]
      · rfl

/-- A remove event for each address of a list. -/
theorem replay_remove (m : Mirror) (ws : List Address) :
    replay observe m
        (ws.map fun w => ⟨(.watcher, .remove), [.address w]⟩) =
      { m with watchers := m.watchers \ ws.toFinset } := by
  induction ws generalizing m with
  | nil => simp
  | cons w ws ih =>
      rw [List.map_cons, replay_cons, ih]
      ext a
      · simp [observe]
        tauto
      · rfl

/-- `remove_admin` publishes one more event about a self-removal, which says
nothing new. -/
theorem replay_removeAdmin (m : Mirror) (caller target : Address) :
    replay observe m (removeAdminEvents caller target) =
      { m with admins := m.admins.erase target } := by
  unfold removeAdminEvents
  split_ifs <;> rfl

end Mirror

section Sets

/-- Leaving an address out of a list. -/
theorem toFinset_filter_ne (l : List Address) (a : Address) :
    (l.filter fun b => b ≠ a).toFinset = l.toFinset.erase a := by
  ext b
  simp [and_comm]

/-- The watchers after a replacement, whether or not `new` was one of the
others. -/
theorem toFinset_replace
    (r : Roster) (old new : Address) (info : WatcherInfo) :
    (r.replace old new info).watchers.toFinset =
      insert new (r.watchers.toFinset.erase old) := by
  unfold Roster.replace
  split_ifs with h
  · have hmem : new ∈ r.watchers.toFinset.erase old := by
      simpa [and_comm] using h
    rw [Finset.insert_eq_of_mem hmem]
    exact toFinset_filter_ne r.watchers old
  · ext a
    simp [and_comm]

end Sets

/-- The events of a step turn the mirror of the registry before it into the
mirror of the registry after it. -/
theorem Registry.Step.mirrored
    {env : Env} {r r' : Registry} {call : Call} {resp : Response}
    {evs : List Event}
    (h : Registry.Step env r call resp evs r') :
    replay Mirror.observe (.ofRegistry r) evs = .ofRegistry r' := by
  cases h with
  | query _ => rfl
  | keepAdmin _ _ _ => rfl
  | keepWatcher _ _ _ => rfl
  | renew _ _ => rfl
  | setPaused _ _ =>
      apply replay_of_ignored
      intro ev hev m
      obtain rfl := List.mem_singleton.mp hev
      split_ifs <;> rfl
  | initialise _ _ => rfl
  | addAdmin _ hadmins _ =>
      ext a
      · rfl
      · simp [Mirror.observe, Mirror.ofRegistry, hadmins]
  | removeAdmin _ hadmins _ =>
      rw [Mirror.replay_removeAdmin]
      simp only [Mirror.ofRegistry, hadmins, Option.getD_some]
      rw [toFinset_filter_ne]
  | @transferAdmin admin newAdmin admins hpermits hadmins hlen =>
      obtain ⟨admins', hadmins', hmem⟩ := hpermits.isAdmin
      obtain rfl := Option.some.inj (hadmins.symm.trans hadmins')
      -- The caller is an admin and the only one.
      have hsole : admins = [admin] := by
        obtain ⟨b, rfl⟩ : ∃ b, admins = [b] := by
          apply List.length_eq_one_iff.mp
          have hpos := List.length_pos_of_mem hmem
          omega
        rw [List.mem_singleton.mp hmem]
      simp [Mirror.observe, Mirror.ofRegistry, hadmins, hsole]
  | register _ _ _ _ _ =>
      ext a
      · simp [Mirror.observe, Mirror.ofRegistry, Roster.register]
      · rfl
  | remove _ _ =>
      ext a
      · simp [Mirror.observe, Mirror.ofRegistry, Roster.remove, and_comm]
      · rfl
  | replace _ _ =>
      simp only [replay_cons, replay_nil, Mirror.observe, Mirror.ofRegistry]
      rw [toFinset_replace]
  | batch _ _ _ _ =>
      rw [Mirror.replay_register]
      simp [Mirror.ofRegistry, Roster.registerAll]
  | clear _ =>
      rw [Mirror.replay_remove]
      simp [Mirror.ofRegistry, Roster.clear]

theorem mirrored_exec (s : State) (st : Step) :
    replay Mirror.observe (.ofRegistry s.view) (exec s st).events =
      .ofRegistry (exec s st).view := by
  cases st with
  | expire keys => rfl
  | call env call =>
      rcases transact_cases (dispatch call) env s with
        ⟨resp, s', h, heq⟩ | ⟨f, s', -, heq⟩
      · rw [exec_call, invoke, heq]
        exact (step_of_returns h).mirrored
      · rw [exec_call, invoke, heq]
        rfl

/-- After any run from empty storage, replaying its events gives the set of the
stored watchers and the set of the stored admins. -/
theorem watcher_events_replay
    (steps : List Step) :
    replay Mirror.observe .blank
        (log exec (fun s => s.events) State.empty steps) =
      { watchers :=
          (((run exec State.empty steps).inst .watchers).getD []).toFinset
        admins :=
          (((run exec State.empty steps).inst .admins).getD []).toFinset } := by
  have hsteps : Along exec (fun _ _ => True) State.empty steps :=
    along_of_forall_mem _ _ fun _ _ => trivial
  exact replay_log (fun s => Mirror.ofRegistry s.view)
    (fun s st _ => mirrored_exec s st) hsteps

end WatcherRegistry
end TxWatch
