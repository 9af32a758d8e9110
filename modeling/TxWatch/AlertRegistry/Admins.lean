import TxWatch.AlertRegistry.Reachability
import TxWatch.Access.Council

/-!
# The admin set of the alert registry

The admin set is a council here too, whether it is stored as a vector or, by an
earlier version of the contract, as a single address: reading the latter gives
the council of one, and the first change writes the vector.  Nobody signs for
`initialize`, so that the founder may be put into office by anyone.
-/

namespace TxWatch
namespace AlertRegistry

open Soroban Soroban.Contract Access

/-- The admins as `load_admins` reads them. -/
def State.admins (s : State) : List Address :=
  s.view.admins.getD []

/-- The admin in whose name a call of one of the nine administrative entry
points is made. -/
def Call.inNameOf : Call → Option Address
  | .transferAdmin admin _ | .addAdmin admin _ | .removeAdmin admin _
  | .setPerOwnerAlertLimit admin _ | .setPaused admin _
  | .setWatcherRegistry admin _ | .pauseAlert admin _ | .unpauseAlert admin _
  | .removeAlertByAdmin admin _ => some admin
  | _ => none

namespace Registry

variable {env : Env} {r r' : Registry} {call : Call} {resp : Response}
  {evs : List Event} {o : Option (Council Address)}

theorem admins_congr
    (h : r'.inst .admin = r.inst .admin) :
    r'.admins = r.admins := by
  unfold admins
  rw [h]

theorem admins_configure_of_ne
    {i : InstanceKey} (hi : i ≠ .admin) (w : i.Value) :
    (r.configure i w).admins = r.admins := by
  exact admins_congr (Function.update_of_ne hi.symm _ _)

theorem admins_configure (l : List Address) :
    (r.configure .admin (.vec l)).admins = some l := by
  simp [admins, configure, AdminEntry.toVec, AdminEntry.tryVec]

/-- A configuration call keeps the council or acts for it. -/
theorem governed_administer
    {admin : Address} {admins : List Address}
    {entry : (i : InstanceKey) × i.Value}
    (hcall : call.administers = some admin)
    (hset : call.setting admins = some entry) (hauth : admin ∈ env.auths)
    (hadmins : r.admins = some admins) (hmem : admin ∈ admins)
    (hok : call.Permitted admins) (ho : Held r.admins o) :
    Held (r.configure entry.1 entry.2).admins o ∨
      ∃ act o', Enacts (fun a => a ∈ env.auths) o act o' ∧
        Held (r.configure entry.1 entry.2).admins o' := by
  obtain ⟨c, rfl, rfl⟩ := ho.council hadmins
  cases call with
  | transferAdmin caller newAdmin =>
      obtain rfl := Option.some.inj hcall
      obtain rfl := Option.some.inj hset
      exact Or.inr ⟨_, _, .handOver hmem hauth, admins_configure _⟩
  | addAdmin caller newAdmin =>
      obtain rfl := Option.some.inj hcall
      obtain rfl := Option.some.inj hset
      exact Or.inr ⟨_, _, .elect hok hmem hauth, admins_configure _⟩
  | removeAdmin caller target =>
      obtain rfl := Option.some.inj hcall
      obtain rfl := Option.some.inj hset
      exact Or.inr ⟨_, _, .dismiss hok.2 hmem hauth, admins_configure _⟩
  | setPerOwnerAlertLimit _ _ | setPaused _ _ | setWatcherRegistry _ _ =>
      obtain rfl := Option.some.inj hset
      left
      rw [admins_configure_of_ne (by simp)]
      exact ho
  | _ => simp [Call.administers] at hcall

/-- A step keeps the council or acts for it. -/
theorem Step.governed
    (h : Step env r call resp evs r') (ho : Held r.admins o) :
    Held r'.admins o ∨
      ∃ act o', Enacts (fun a => a ∈ env.auths) o act o' ∧
        Held r'.admins o' := by
  have hkeep : r'.inst .admin = r.inst .admin → Held r'.admins o := by
    intro hinst
    rw [admins_congr hinst]
    exact ho
  cases h with
  | query _ => exact Or.inl ho
  | initialise hnone =>
      right
      have hadmins : r.admins = none := by
        rw [admins, hnone]
        rfl
      obtain rfl := ho.eq_none hadmins
      exact ⟨_, _, .found, admins_configure _⟩
  | administer hcall hset hauth hadmins hmem hok =>
      exact governed_administer hcall hset hauth hadmins hmem hok ho
  | enrol _ _ _ _ _ _ =>
      left
      apply hkeep
      rw [inst_createAll_of_ne _ _ (by simp), inst_prunedFor]
  | amend _ _ _ _ _ _ _ => exact Or.inl (hkeep (by simp))
  | activate _ _ _ _ => exact Or.inl (hkeep (by simp))
  | deactivateAll _ _ => exact Or.inl (hkeep rfl)
  | retarget _ _ _ _ => exact Or.inl (hkeep rfl)
  | keepOwner _ _ _ _ => exact Or.inl ho
  | reown _ _ _ _ _ _ => exact Or.inl (hkeep (by simp [move]))
  | remove _ _ _ _ => exact Or.inl (hkeep rfl)
  | removeByAdmin _ _ _ _ => exact Or.inl (hkeep rfl)
  | bump _ _ => exact Or.inl ho
  | bulkRenew _ => exact Or.inl ho

/-- An administrative call that succeeds is made in the name of an admin, and signed
by him. -/
theorem Step.signed_by_admin
    {a : Address} (h : Step env r call resp evs r')
    (hcall : call.inNameOf = some a) :
    r.IsAdmin a ∧ a ∈ env.auths := by
  cases h with
  | @administer _ admin _ _ hadm _ hauth hadmins hmem _ =>
      have hname : admin = a := by
        cases call <;> simp_all [Call.administers, Call.inNameOf]
      subst hname
      exact ⟨⟨_, hadmins, hmem⟩, hauth⟩
  | @activate _ admin _ _ _ hact hauth hadmin _ =>
      have hname : admin = a := by
        cases call <;> simp_all [Call.activates, Call.inNameOf]
      subst hname
      exact ⟨hadmin, hauth⟩
  | removeByAdmin _ hauth hadmin _ =>
      obtain rfl := Option.some.inj hcall
      exact ⟨hadmin, hauth⟩
  | query hquery => cases call <;> simp_all [Call.isQuery, Call.inNameOf]
  | enrol henrol _ _ _ _ _ =>
      cases call <;> simp_all [Call.enrols, Call.inNameOf]
  | amend hamend _ _ _ _ _ _ =>
      cases call <;> simp_all [Call.amends, Call.inNameOf]
  | _ => simp [Call.inNameOf] at hcall

end Registry

section Runs

variable {s : State} {o : Option (Council Address)}

/-- What a step of the system does to the council. -/
theorem governed_exec
    (h : Held s.view.admins o) (st : Step) :
    Held (exec s st).view.admins o ∨
      ∃ env call act o', st = .call env call ∧
        Enacts (fun a => a ∈ env.auths) o act o' ∧
        Held (exec s st).view.admins o' := by
  cases st with
  | expire keys => exact Or.inl h
  | call env call =>
      rcases invoke_refines env call s with ⟨resp, -, hstep⟩ | ⟨-, hview⟩
      · rcases hstep.governed h with hkeep | ⟨act, o', henacts, hafter⟩
        · exact Or.inl hkeep
        · exact Or.inr ⟨env, call, act, o', rfl, henacts, hafter⟩
      · left
        rw [exec_call, hview]
        exact h

theorem governed_step
    (s : State) (st : Step) (o : Option (Council Address))
    (h : Held s.view.admins o) :
    Held (exec s st).view.admins o ∨
      ∃ signed act o', Enacts signed o act o' ∧
        Held (exec s st).view.admins o' := by
  rcases governed_exec h st with hkeep | ⟨_, _, _, o', -, henacts, hafter⟩
  · exact Or.inl hkeep
  · exact Or.inr ⟨_, _, o', henacts, hafter⟩

/-- Every entry under `ADMIN` reads as a list. -/
theorem admins_eq_none_iff :
    s.view.admins = none ↔ s.inst .admin = none := by
  have hadmins : s.view.admins = (s.inst .admin).bind AdminEntry.toVec := by
    rfl
  rw [hadmins]
  cases s.inst .admin with
  | none => simp
  | some raw =>
      cases raw <;> simp [AdminEntry.toVec, AdminEntry.tryVec, AdminEntry.tryAddress]

/-- A storage without an admin has no council, one with a single address has the
council of one. -/
theorem governed_start
    (h : s = State.empty ∨ ∃ a, s.inst .admin = some (.address a)) :
    ∃ o, Held s.view.admins o := by
  rcases h with rfl | ⟨a, ha⟩
  · exact ⟨none, rfl⟩
  · refine ⟨some (Council.sole a), ?_⟩
    have hadmins : s.view.admins = (s.inst .admin).bind AdminEntry.toVec := by
      rfl
    rw [hadmins, ha]
    rfl

/-- Once there is a council, whoever joins does so with the signature of one of
its members. -/
theorem admins_join
    (h : Held s.view.admins o) (hsome : s.inst .admin ≠ none)
    {st : Step} {a : Address}
    (hout : a ∉ s.admins) (hin : a ∈ (exec s st).admins) :
    ∃ env call, st = .call env call ∧ ∃ b ∈ s.admins, b ∈ env.auths := by
  rcases governed_exec h st with
    hkeep | ⟨env, call, act, o', rfl, henacts, hafter⟩
  · rw [State.admins, hkeep.getD, ← h.getD] at hin
    exact absurd hin hout
  · rw [State.admins, h.getD] at hout
    rw [State.admins, hafter.getD] at hin
    refine ⟨env, call, rfl, ?_⟩
    rcases henacts.joins hout hin with ⟨hnone, -⟩ | ⟨b, hb, hauth⟩
    · have hsome' := h.isSome (fun hv => hsome (admins_eq_none_iff.mp hv))
      rw [hnone] at hsome'
      cases hsome'
    · rw [← h.getD] at hb
      exact ⟨b, hb, hauth⟩

/-- Nobody but an admin makes an administrative call succeed, and that with his own
signature. -/
theorem signed_by_admin
    {env : Env} {call : Call} {a : Address} {resp : Response}
    (hcall : call.inNameOf = some a) (hok : (invoke env call s).1 = .ok resp) :
    a ∈ s.admins ∧ a ∈ env.auths := by
  rcases invoke_refines env call s with ⟨resp', -, hstep⟩ | ⟨⟨f, hf⟩, -⟩
  · obtain ⟨⟨admins, hadmins, hmem⟩, hauth⟩ := hstep.signed_by_admin hcall
    rw [State.admins, hadmins]
    exact ⟨hmem, hauth⟩
  · rw [hf] at hok
    cases hok

/-- `get_admin` answers with the first of the stored admins. -/
theorem invoke_getAdmin
    {c : Council Address} (h : s.view.admins = some c.members) (env : Env) :
    (invoke env .getAdmin s).1 = .ok (.address c.eldest) := by
  rw [c.members_eq] at h
  exact (invoke_query_iff rfl _).mpr (by rw [Registry.answer, h]; rfl)

end Runs

/-- From empty storage, and from any storage that names a single admin in the
old format, in every state reached: an entry under `ADMIN` reads as a non-empty
list without duplicates and `get_admin` answers, the entry never disappears, an
address joins the set only with the signature of a current admin, and an
administrative entry point succeeds only in the name of a current admin who has
signed. -/
theorem alert_admins_governed
    (s₀ : State)
    (hstart : s₀ = State.empty ∨ ∃ a, s₀.inst .admin = some (.address a))
    (steps : List Step) :
    (∀ raw, (run exec s₀ steps).inst .admin = some raw →
        ∃ admins, admins ≠ [] ∧ admins.Nodup ∧
          ∀ env,
            loadAdmins.run env (run exec s₀ steps) =
                (.ok (some admins), run exec s₀ steps) ∧
              ∃ a ∈ admins,
                (invoke env .getAdmin (run exec s₀ steps)).1 =
                  .ok (.address a)) ∧
      (∀ more, (run exec s₀ steps).inst .admin ≠ none →
        (run exec (run exec s₀ steps) more).inst .admin ≠ none) ∧
      (∀ st a, (run exec s₀ steps).inst .admin ≠ none →
        a ∉ (run exec s₀ steps).admins →
        a ∈ (exec (run exec s₀ steps) st).admins →
        ∃ env call, st = .call env call ∧
          ∃ b ∈ (run exec s₀ steps).admins, b ∈ env.auths) ∧
      ∀ env call a resp, call.inNameOf = some a →
        (invoke env call (run exec s₀ steps)).1 = .ok resp →
        a ∈ (run exec s₀ steps).admins ∧ a ∈ env.auths := by
  obtain ⟨o₀, ho₀⟩ := governed_start hstart
  obtain ⟨o, ho, -⟩ := held_run governed_step ho₀ steps
  refine ⟨?_, ?_, fun _ _ hsome => admins_join ho hsome,
    fun _ _ _ _ hcall hok => signed_by_admin hcall hok⟩
  · intro raw hraw
    have hsome : (run exec s₀ steps).view.admins ≠ none := by
      rw [ne_eq, admins_eq_none_iff, hraw]
      simp
    obtain ⟨admins, hadmins⟩ := Option.ne_none_iff_exists'.mp hsome
    obtain ⟨c, -, rfl⟩ := ho.council hadmins
    refine ⟨c.members, c.ne_nil, c.nodup, ?_⟩
    intro env
    refine ⟨?_, c.eldest, c.eldest_mem, invoke_getAdmin hadmins env⟩
    have hload : loadAdmins.run env (run exec s₀ steps) =
        (.ok (run exec s₀ steps).view.admins, run exec s₀ steps) := by
      rfl
    rw [hload, hadmins]
  · intro more hsome
    rw [ne_eq, ← admins_eq_none_iff] at hsome ⊢
    obtain ⟨o', ho', hstays⟩ := held_run governed_step ho more
    exact ho'.ne_none (hstays (ho.isSome hsome))

/-- Storage written by an earlier version of the contract. -/
def legacyStorage : State :=
  State.setInst State.empty .admin (.address operator)

/-- The old admin takes on a colleague; a stranger is still turned away, in his own
name and in that of the colleague. -/
theorem legacyStorage_outsider_refused :
    (∀ resp, (invoke (envAt 2 [alice]) (.setPaused alice true)
        (run exec legacyStorage
          [.call (envAt 1 [operator]) (.addAdmin operator bob)])).1 ≠ .ok resp) ∧
      ∀ resp, (invoke (envAt 2 [alice]) (.setPaused bob true)
        (run exec legacyStorage
          [.call (envAt 1 [operator]) (.addAdmin operator bob)])).1 ≠ .ok resp := by
  have h := alert_admins_governed legacyStorage (Or.inr ⟨operator, rfl⟩)
    [.call (envAt 1 [operator]) (.addAdmin operator bob)]
  constructor
  · intro resp hok
    exact absurd (h.2.2.2 (envAt 2 [alice]) (.setPaused alice true) alice resp rfl
      hok).1 (by decide)
  · intro resp hok
    exact absurd (h.2.2.2 (envAt 2 [alice]) (.setPaused bob true) bob resp rfl
      hok).2 (by decide)

end AlertRegistry
end TxWatch
