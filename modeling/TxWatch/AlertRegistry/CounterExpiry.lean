import TxWatch.AlertRegistry.IdLifecycle

/-!
# Expiry of the id counter

The id counter is an entry of instance storage, which lapses as a whole and
whose lifetime only registrations and `bump_alert` extend.  Alerts that other
calls keep alive can outlast it; the next registration then starts again from
zero under their ids.

`no_collision` says when that cannot happen: the counter is there at every
registration, or else no alert is live.
-/

namespace TxWatch
namespace AlertRegistry

open Soroban Soroban.Contract

/-- Whether instance storage has lapsed at a ledger. -/
def State.instLapsed (s : State) (ledger : Nat) : Bool :=
  s.instLiveUntil.any (fun l => l < ledger)

/-- The storage as it reads at a ledger, instance storage included. -/
def State.aged (s : State) (ledger : Nat) : State :=
  if s.instLapsed ledger then
    { s.atLedger ledger with inst := fun _ => none, instLiveUntil := none }
  else s.atLedger ledger

/-- Effect of a call when both kinds of storage may have lapsed by its
ledger. -/
def execAged (s : State) (i : Invocation) : State :=
  execCall (s.aged i.env.sequence) i

/-- No id that the call returns has a live alert just before the call. -/
def NoCollision (s : State) (i : Invocation) : Prop :=
  ∀ id ∈ issuedBy i.call (invoke i.env i.call (s.aged i.env.sequence)).1,
    (s.aged i.env.sequence).persistent.has (.alert id) = false

/-- A registration of at least one alert that passes its checks. -/
def Registers (env : Env) (r : Registry) (call : Call) : Prop :=
  ∃ owner cfgs, call.enrols env.timestamp = some (owner, cfgs) ∧ cfgs ≠ [] ∧
    call.Checked ∧ r.paused = false ∧ owner ∈ env.auths ∧
    r.Fits owner cfgs.length

/-- At a registration the counter is present, or no alert is live. -/
def CounterKept (s : State) (i : Invocation) : Prop :=
  Registers i.env (s.aged i.env.sequence).view i.call →
    ((s.aged i.env.sequence).inst .nextId).isSome ∨
      ∀ id, (s.aged i.env.sequence).persistent.has (.alert id) = false

/-- A counter that is present is above the ids of all live alerts. -/
def CounterAhead (s : State) : Prop :=
  ∀ n, s.inst .nextId = some n →
    ∀ id, s.persistent.has (.alert id) = true → id < n

namespace Registry

variable {env : Env} {r r' : Registry} {call : Call} {resp : Response}
  {evs : List Event}

/-- Adding alerts writes the counter. -/
theorem inst_createAll
    (r : Registry) {cfgs : List AlertConfig} (h : cfgs ≠ []) :
    (r.createAll cfgs).inst .nextId = some (r.nextId + cfgs.length) := by
  induction cfgs generalizing r with
  | nil => exact absurd rfl h
  | cons cfg rest ih =>
      rw [createAll]
      by_cases hrest : rest = []
      · subst hrest
        simp [createAll, create]
      · rw [ih (r.create cfg) hrest, nextId_create, List.length_cons]
        congr 1
        omega

theorem inst_configure_of_ne
    (r : Registry) {i : InstanceKey} (h : i ≠ .nextId) (w : i.Value) :
    (r.configure i w).inst .nextId = r.inst .nextId := by
  exact Function.update_of_ne h.symm _ _

/-- A step leaves the counter alone, or registers and advances it. -/
theorem Step.counter
    (h : Registry.Step env r call resp evs r') :
    r'.inst .nextId = r.inst .nextId ∨
      (Registers env r call ∧ r'.inst .nextId = some r'.nextId ∧
        r.nextId < r'.nextId) := by
  cases h with
  | query _ => exact Or.inl rfl
  | initialise _ => exact Or.inl (inst_configure_of_ne r (by simp) _)
  | administer _ hset _ _ _ _ =>
      exact Or.inl (inst_configure_of_ne r (setting_key hset) _)
  | @enrol call owner cfgs henrol hok hpaused hauth hfits _ =>
      by_cases hnil : cfgs = []
      · left
        subst hnil
        simp [createAll]
      · right
        refine ⟨⟨owner, cfgs, henrol, hnil, hok, hpaused, hauth, hfits⟩, ?_, ?_⟩
        · rw [inst_createAll _ hnil, nextId_createAll]
        · have hpos : 0 < cfgs.length := List.length_pos_iff.mpr hnil
          rw [nextId_createAll, nextId_prunedFor]
          omega
  | amend _ _ _ _ _ _ _ => exact Or.inl (by simp)
  | activate _ _ _ _ => exact Or.inl (by simp)
  | deactivateAll _ _ => exact Or.inl rfl
  | retarget _ _ _ _ => exact Or.inl rfl
  | keepOwner _ _ _ _ => exact Or.inl rfl
  | reown _ _ _ _ _ _ => exact Or.inl (by simp [move])
  | remove _ _ _ _ => exact Or.inl rfl
  | removeByAdmin _ _ _ _ => exact Or.inl rfl
  | bump _ _ => exact Or.inl rfl
  | bulkRenew _ => exact Or.inl rfl

end Registry

section Steps

variable {s : State} {i : Invocation}

/-- Ledgers only take entries away. -/
theorem counterAhead_aged
    (h : CounterAhead s) (ledger : Nat) :
    CounterAhead (s.aged ledger) := by
  intro n hn id hid
  unfold State.aged at hn hid
  split_ifs at hn hid
  -- only a counter that has not lapsed is left to consider
  have hold : s.persistent.has (.alert id) = true := by
    rw [Store.has_iff_get] at hid ⊢
    obtain ⟨cfg, hcfg⟩ := hid
    exact ⟨cfg, Store.get_of_get_purge hcfg⟩
  exact h n hn id hold

/-- The counter stays ahead and no id is issued twice. -/
theorem counterAhead_execAged
    (h : CounterAhead s) (hkept : CounterKept s i) :
    NoCollision s i ∧ CounterAhead (execAged s i) := by
  let t := s.aged i.env.sequence
  have ht : CounterAhead t := counterAhead_aged h i.env.sequence
  have hlive : ∀ id, (invoke i.env i.call t).2.persistent.has (.alert id) = true →
      t.persistent.has (.alert id) = true ∨
        (t.view.nextId ≤ id ∧ id < (invoke i.env i.call t).2.view.nextId) := by
    intro id hid
    rw [Store.has_eq_isSome_get] at hid ⊢
    exact (change_invoke t i.env i.call).isSome_row hid
  rcases invoke_refines i.env i.call t with ⟨resp, hout, hstep⟩ | ⟨⟨f, hout⟩, hview⟩
  · have hissued := hstep.issuedBy_eq
    rw [← hout] at hissued
    rcases hstep.counter with hsame | ⟨hregisters, hcounter, hlt⟩
    · -- the counter was not touched, and no alert is new
      have hnext : (invoke i.env i.call t).2.view.nextId = t.view.nextId := by
        rw [Registry.nextId, hsame]
        rfl
      refine ⟨?_, ?_⟩
      · intro id hid
        change id ∈ issuedBy i.call (invoke i.env i.call t).1 at hid
        rw [hissued, hnext, Nat.sub_self] at hid
        exact absurd hid (by simp)
      · intro n hn id hid
        have hn' : t.inst .nextId = some n := hsame.symm.trans hn
        rcases hlive id hid with hold | hnew
        · exact ht n hn' id hold
        · omega
    · have hbelow : ∀ id, t.persistent.has (.alert id) = true →
          id < t.view.nextId := by
        intro id hid
        rcases hkept hregisters with hsome | hnone
        · obtain ⟨n, hn⟩ := Option.isSome_iff_exists.mp hsome
          have hnext : t.view.nextId = n := by
            rw [Registry.nextId]
            change (t.inst .nextId).getD 0 = n
            rw [hn]
            rfl
          rw [hnext]
          exact ht n hn id hid
        · exact absurd hid (by rw [hnone id]; simp)
      refine ⟨?_, ?_⟩
      · intro id hid
        change id ∈ issuedBy i.call (invoke i.env i.call t).1 at hid
        rw [hissued, List.mem_range'_1] at hid
        rw [← Bool.not_eq_true]
        intro hold
        have hlt := hbelow id hold
        omega
      · intro n hn id hid
        obtain rfl := Option.some.inj (hcounter.symm.trans hn)
        rcases hlive id hid with hold | hnew
        · have hlt := hbelow id hold
          omega
        · exact hnew.2
  · refine ⟨?_, ?_⟩
    · intro id hid
      change id ∈ issuedBy i.call (invoke i.env i.call t).1 at hid
      rw [hout] at hid
      cases hcall : i.call <;> simp [hcall, issuedBy] at hid
    · have hquiet : (invoke i.env i.call t).2 = t.silenced := by
        rcases invoke_cases i.env i.call t with ⟨resp, s', -, heq⟩ | ⟨f', heq⟩
        · rw [heq] at hout
          exact absurd hout (by simp)
        · rw [heq]
      change CounterAhead (invoke i.env i.call t).2
      rw [hquiet]
      exact ht

end Steps

/-- In every run in which, at each registration, the counter has not lapsed or
no alert is live, no registration returns the id of a live alert. -/
theorem no_collision
    (calls : List Invocation)
    (hkept : Along execAged CounterKept State.empty calls) :
    Along execAged NoCollision State.empty calls := by
  have hempty : CounterAhead State.empty := by
    intro n hn
    exact absurd hn (by simp)
  exact along_of_preserved (fun s i hi hs => counterAhead_execAged hs hi)
    hempty hkept

/-- An alert is bumped half-way through its lifetime, and another registered
when the first lifetime would have been over. -/
def bumpedRun : List Invocation :=
  [⟨envAt 0 [alice], sampleRegister alice pool⟩,
    ⟨envAt 60000 [], .bumpAlert 0 120960⟩,
    ⟨envAt 121000 [bob], sampleRegister bob vault⟩]

theorem bumpedRun_no_collision :
    Along execAged NoCollision State.empty bumpedRun := by
  have hfirst : CounterKept State.empty ⟨envAt 0 [alice], sampleRegister alice pool⟩ :=
    fun _ => Or.inr (fun _ => rfl)
  have hbump : CounterKept (run execAged State.empty (bumpedRun.take 1))
      ⟨envAt 60000 [], .bumpAlert 0 120960⟩ :=
    fun _ => Or.inl rfl
  have hlast : CounterKept (run execAged State.empty (bumpedRun.take 2))
      ⟨envAt 121000 [bob], sampleRegister bob vault⟩ :=
    fun _ => Or.inl rfl
  exact no_collision bumpedRun ⟨hfirst, hbump, hlast, trivial⟩

/-- The same with an update by the owner in place of the bump. -/
def updatedRun : List Invocation :=
  [⟨envAt 0 [alice], sampleRegister alice pool⟩,
    ⟨envAt 60000 [alice], .updateAlert alice 0 [ruleMint] true⟩,
    ⟨envAt 121000 [bob], sampleRegister bob vault⟩]

/-- The update kept the alert alive but not the counter, and the second owner
is given the id of the first. -/
theorem updatedRun_collides :
    ¬ Along execAged NoCollision State.empty updatedRun := by
  rintro ⟨-, -, hlast, -⟩
  have hissued : 0 ∈ issuedBy (sampleRegister bob vault)
      (invoke (envAt 121000 [bob]) (sampleRegister bob vault)
        (State.aged (run execAged State.empty (updatedRun.take 2)) 121000)).1 := by
    decide
  have hlive : (State.aged (run execAged State.empty (updatedRun.take 2))
      121000).persistent.has (.alert 0) = true := by
    decide
  have hgone := hlast 0 hissued
  exact absurd (hlive.symm.trans hgone) (by decide)

end AlertRegistry
end TxWatch
