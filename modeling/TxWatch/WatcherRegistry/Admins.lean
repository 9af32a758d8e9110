import TxWatch.WatcherRegistry.Refinement
import TxWatch.Access.Council

/-!
# The admin set of the watcher registry

The admin set is a council: founded by `initialize` and changed by its members.
`remove_admin` looks at the length of the list before it filters, which leaves
somebody only because no admin is listed twice.
-/

namespace TxWatch
namespace WatcherRegistry

open Soroban Soroban.Contract Access

/-- The addresses in `Admins`. -/
def State.admins (s : State) : List Address :=
  s.view.admins.getD []

/-- The act of government that a call asks for. -/
def Call.act : Call → Option (Act Address)
  | .initialise admin => some (.found admin)
  | .addAdmin caller newAdmin => some (.elect caller newAdmin)
  | .removeAdmin caller targetAdmin => some (.dismiss caller targetAdmin)
  | .transferAdmin admin newAdmin => some (.handOver admin newAdmin)
  | _ => none

namespace Registry

variable {env : Env} {r r' : Registry} {call : Call} {resp : Response}
  {evs : List Event} {o : Option (Council Address)}

/-- Who passes the shared checks is a member. -/
theorem Permits.mem
    {c : Council Address} {admin : Address} (hpermits : r.Permits env admin)
    (ho : Held r.admins (some c)) :
    admin ∈ c.members := by
  obtain ⟨admins, hadmins, hmem⟩ := hpermits.isAdmin
  exact ho.mem hadmins hmem

/-- A step leaves the council alone or carries out the act that its call asks
for. -/
theorem Step.governed
    (h : Step env r call resp evs r') (ho : Held r.admins o) :
    Held r'.admins o ∨
      ∃ act o', call.act = some act ∧
        Enacts (fun a => a ∈ env.auths) o act o' ∧ Held r'.admins o' := by
  cases h with
  | query _ => exact Or.inl ho
  | keepAdmin _ _ _ => exact Or.inl ho
  | keepWatcher _ _ _ => exact Or.inl ho
  | register _ _ _ _ _ => exact Or.inl ho
  | remove _ _ => exact Or.inl ho
  | replace _ _ => exact Or.inl ho
  | batch _ _ _ _ => exact Or.inl ho
  | renew _ _ => exact Or.inl ho
  | setPaused _ _ => exact Or.inl ho
  | clear _ => exact Or.inl ho
  | initialise _ hnone =>
      right
      obtain rfl := ho.eq_none hnone
      exact ⟨_, _, rfl, .found, rfl⟩
  | addAdmin hpermits hadmins hnew =>
      right
      obtain ⟨c, rfl, rfl⟩ := ho.council hadmins
      exact ⟨_, _, rfl, .elect hnew (hpermits.mem ho) hpermits.auth, rfl⟩
  | removeAdmin hpermits hadmins hlen =>
      right
      obtain ⟨c, rfl, rfl⟩ := ho.council hadmins
      exact ⟨_, _, rfl, .dismiss hlen (hpermits.mem ho) hpermits.auth, rfl⟩
  | transferAdmin hpermits hadmins _ =>
      right
      obtain ⟨c, rfl, rfl⟩ := ho.council hadmins
      exact ⟨_, _, rfl, .handOver (hpermits.mem ho) hpermits.auth, rfl⟩

/-- The founder signs. -/
theorem Step.founder_auth
    {a : Address} (h : Step env r (.initialise a) resp evs r') :
    a ∈ env.auths := by
  cases h with
  | query hquery => simp [Call.isQuery] at hquery
  | initialise hauth _ => exact hauth

/-- Only a sole admin hands over. -/
theorem Step.transfer_sole
    {a b : Address} (h : Step env r (.transferAdmin a b) resp evs r') :
    (r.admins.getD []).length ≤ 1 := by
  cases h with
  | query hquery => simp [Call.isQuery] at hquery
  | transferAdmin _ hadmins hlen =>
      rw [hadmins]
      exact hlen

end Registry

section Runs

variable {s : State} {o : Option (Council Address)}

/-- What a step of the system does to the council. -/
theorem governed_exec
    (h : Held s.view.admins o) (st : Step) :
    Held (exec s st).view.admins o ∨
      ∃ env call act o' resp evs, st = .call env call ∧ call.act = some act ∧
        Enacts (fun a => a ∈ env.auths) o act o' ∧
        Held (exec s st).view.admins o' ∧
        Registry.Step env s.view call resp evs (exec s st).view := by
  cases st with
  | expire keys => exact Or.inl h
  | call env call =>
      rcases invoke_refines env call s with ⟨resp, -, hstep⟩ | ⟨-, hview⟩
      · rcases hstep.governed h with hkeep | ⟨act, o', hact, henacts, hafter⟩
        · exact Or.inl hkeep
        · exact Or.inr
            ⟨env, call, act, o', resp, _, rfl, hact, henacts, hafter, hstep⟩
      · left
        rw [exec_call, hview]
        exact h

theorem governed_step
    (s : State) (st : Step) (o : Option (Council Address))
    (h : Held s.view.admins o) :
    Held (exec s st).view.admins o ∨
      ∃ signed act o', Enacts signed o act o' ∧
        Held (exec s st).view.admins o' := by
  rcases governed_exec h st with
    hkeep | ⟨_, _, _, o', _, _, -, -, henacts, hafter, -⟩
  · exact Or.inl hkeep
  · exact Or.inr ⟨_, _, o', henacts, hafter⟩

/-- The council after a run. -/
theorem governed_run (steps : List Step) :
    ∃ o, Held (run exec State.empty steps).view.admins o := by
  have hempty : Held State.empty.view.admins none := by
    rfl
  obtain ⟨o, ho, -⟩ := held_run governed_step hempty steps
  exact ⟨o, ho⟩

/-- Who joins is the founder, with its own signature, or an admin has signed. -/
theorem admins_join
    (h : Held s.view.admins o) {st : Step} {a : Address}
    (hout : a ∉ s.admins) (hin : a ∈ (exec s st).admins) :
    ∃ env call, st = .call env call ∧
      ((call = .initialise a ∧ a ∈ env.auths) ∨
        ∃ b ∈ s.admins, b ∈ env.auths) := by
  rcases governed_exec h st with
    hkeep | ⟨env, call, act, o', resp, evs, rfl, hact, henacts, hafter, hstep⟩
  · rw [State.admins, hkeep.getD, ← h.getD] at hin
    exact absurd hin hout
  · rw [State.admins, h.getD] at hout
    rw [State.admins, hafter.getD] at hin
    refine ⟨env, call, rfl, ?_⟩
    rcases henacts.joins hout hin with ⟨-, rfl⟩ | ⟨b, hb, hauth⟩
    · cases call with
      | initialise admin =>
          obtain rfl := Act.found.inj (Option.some.inj hact)
          exact Or.inl ⟨rfl, hstep.founder_auth⟩
      | _ => simp [Call.act] at hact
    · rw [← h.getD] at hb
      exact Or.inr ⟨b, hb, hauth⟩

/-- Who leaves is removed, or hands over as the only admin. -/
theorem admins_leave
    (h : Held s.view.admins o) {st : Step} {a : Address}
    (hin : a ∈ s.admins) (hout : a ∉ (exec s st).admins) :
    ∃ env,
      (∃ caller, st = .call env (.removeAdmin caller a)) ∨
        ∃ newAdmin, st = .call env (.transferAdmin a newAdmin) ∧
          s.admins = [a] := by
  rcases governed_exec h st with
    hkeep | ⟨env, call, act, o', resp, evs, rfl, hact, henacts, hafter, hstep⟩
  · rw [State.admins, hkeep.getD, ← h.getD] at hout
    exact absurd hin hout
  · rw [State.admins, h.getD] at hin
    rw [State.admins, hafter.getD] at hout
    refine ⟨env, ?_⟩
    rcases henacts.leaves hin hout with ⟨actor, rfl⟩ | ⟨actor, b, rfl, hactor⟩
    · cases call with
      | removeAdmin caller target =>
          obtain ⟨rfl, rfl⟩ := Act.dismiss.inj (Option.some.inj hact)
          exact Or.inl ⟨caller, rfl⟩
      | _ => simp [Call.act] at hact
    · cases call with
      | transferAdmin admin newAdmin =>
          obtain ⟨rfl, rfl⟩ := Act.handOver.inj (Option.some.inj hact)
          have hlen := hstep.transfer_sole
          rw [h.getD] at hlen
          cases o with
          | none => exact absurd hin List.not_mem_nil
          | some c =>
              have hsole : c.members = [admin] := c.eq_singleton hactor hlen
              have ha : a ∈ c.members := hin
              rw [hsole] at ha
              obtain rfl := List.mem_singleton.mp ha
              exact Or.inr ⟨newAdmin, rfl, h.getD.trans hsole⟩
      | _ => simp [Call.act] at hact

end Runs

/-- `get_admin` answers with the first of the stored admins. -/
theorem invoke_getAdmin
    {s : State} {c : Council Address}
    (h : s.inst .admins = some c.members) (env : Env) :
    (invoke env .getAdmin s).1 = .ok (.address c.eldest) := by
  rw [c.members_eq] at h
  have hreturns : (dispatch .getAdmin).Returns env s.silenced (.address c.eldest)
      s.silenced := by
    simp [dispatch, getAdmin, getAdmins, State.view, h]
  rw [invoke, transact_of_returns hreturns]

/-- The registry is never without an admin: in every reachable state a stored
admin set is non-empty and free of duplicates and `get_admin` answers, it never
disappears again, and in every step an address joins it through `initialize`
with its own authorisation or with the authorisation of an existing admin, and
leaves it through `remove_admin` or by handing over as the only admin. -/
theorem watcher_admins_governed
    (steps : List Step) :
    (∀ admins, (run exec State.empty steps).inst .admins = some admins →
        admins ≠ [] ∧ admins.Nodup ∧
          ∀ env, ∃ a ∈ admins,
            (invoke env .getAdmin (run exec State.empty steps)).1 =
              .ok (.address a)) ∧
      (∀ more, (run exec State.empty steps).inst .admins ≠ none →
        (run exec (run exec State.empty steps) more).inst .admins ≠ none) ∧
      (∀ st a, a ∉ (run exec State.empty steps).admins →
        a ∈ (exec (run exec State.empty steps) st).admins →
        ∃ env call, st = .call env call ∧
          ((call = .initialise a ∧ a ∈ env.auths) ∨
            ∃ b ∈ (run exec State.empty steps).admins, b ∈ env.auths)) ∧
      ∀ st a, a ∈ (run exec State.empty steps).admins →
        a ∉ (exec (run exec State.empty steps) st).admins →
        ∃ env,
          (∃ caller, st = .call env (.removeAdmin caller a)) ∨
            ∃ newAdmin, st = .call env (.transferAdmin a newAdmin) ∧
              (run exec State.empty steps).admins = [a] := by
  obtain ⟨o, ho⟩ := governed_run steps
  refine ⟨?_, ?_, fun _ _ => admins_join ho, fun _ _ => admins_leave ho⟩
  · intro admins hadmins
    obtain ⟨c, -, rfl⟩ := ho.council hadmins
    refine ⟨c.ne_nil, c.nodup, ?_⟩
    intro env
    exact ⟨c.eldest, c.eldest_mem, invoke_getAdmin hadmins env⟩
  · intro more hsome
    obtain ⟨o', ho', hstays⟩ := held_run governed_step ho more
    exact ho'.ne_none (hstays (ho.isSome hsome))

end WatcherRegistry
end TxWatch
