import TxWatch.AlertRegistry.Guarantees
import TxWatch.AlertRegistry.BulkRenewal
import TxWatch.AlertRegistry.Retraction

/-!
# Keeping alerts alive

An alert and its companions last as long as somebody tends it: registers it,
bumps it, or names it in a bulk renewal, at least every `DEFAULT_TTL` ledgers.
As long as all alerts are tended nothing ever lapses, and a run in which entries
have lifetimes is one in which they have none.  An alert that no call touches for
more than `MAX_TTL` ledgers is gone.
-/

namespace TxWatch
namespace AlertRegistry

open Soroban Soroban.Contract Indexed

/-- Calls that renew an alert for at least the default lifetime. -/
def Call.tends (id : Nat) : Call → Prop
  | .bumpAlert configId ttl => configId = id ∧ defaultTtl ≤ ttl
  | .bulkRenewTtl configIds => id ∈ configIds
  | _ => False

/-- A call that gives an alert a new lifetime: afterwards the alert is there, and
it was not before or the call has renewed it. -/
def Invocation.Tends (s : State) (i : Invocation) (id : Nat) : Prop :=
  (∃ cfg, (execCall s i).alertAt id = some cfg) ∧
    (s.alertAt id = none ∨
      (i.call.tends id ∧ ∃ resp, (invoke i.env i.call s).1 = .ok resp))

/-- Some call of the run has tended the alert no more than a default lifetime
before a ledger. -/
def TendedBy (calls : List Invocation) (id ledger : Nat) : Prop :=
  ∃ p j q, calls = p ++ j :: q ∧
    j.Tends ((run execTimed State.empty p).atLedger j.env.sequence) id ∧
    ledger ≤ j.env.sequence + defaultTtl

/-- Whenever a call is made, every alert in the storage has been tended. -/
def AllTended (calls : List Invocation) : Prop :=
  ∀ pre i post, calls = pre ++ i :: post →
    ∀ id cfg, (run execTimed State.empty pre).alertAt id = some cfg →
      TendedBy pre id i.env.sequence

/-- The keys of an alert: its own and those of its companions. -/
def keysOf (id : Nat) (cfg : AlertConfig) : List DataKey :=
  .alert id :: companions id cfg

section Keys

variable {s s' : State}

/-- Where nothing has expired, every entry belongs to a live alert. -/
theorem State.Leakless.exists_keysOf
    (h : s.Leakless) {k : DataKey} (hhas : s.persistent.has k = true) :
    ∃ id cfg, s.alertAt id = some cfg ∧ k ∈ keysOf id cfg := by
  have hacc := (h.has_iff k).mp hhas
  cases k with
  | alert id =>
      obtain ⟨cfg, hrow⟩ := hacc
      exact ⟨id, cfg, hrow, by simp [keysOf]⟩
  | alertActive id =>
      obtain ⟨cfg, hrow⟩ := hacc
      exact ⟨id, cfg, hrow, by simp [keysOf, companions]⟩
  | index kind a =>
      cases kind with
      | owner =>
          obtain ⟨id, cfg, hrow, rfl⟩ := hacc
          exact ⟨id, cfg, hrow, by simp [keysOf, companions]⟩
      | contract =>
          obtain ⟨id, cfg, hrow, rfl⟩ := hacc
          exact ⟨id, cfg, hrow, by simp [keysOf, companions]⟩
  | nextId => exact False.elim hacc

/-- And every live alert has all its entries. -/
theorem State.Leakless.has_keysOf
    (h : s.Leakless) {id : Nat} {cfg : AlertConfig}
    (hrow : s.alertAt id = some cfg) {k : DataKey} (hk : k ∈ keysOf id cfg) :
    s.persistent.has k = true := by
  rw [h.has_iff]
  simp only [keysOf, companions, List.mem_cons, List.not_mem_nil, or_false] at hk
  rcases hk with rfl | rfl | rfl | rfl
  · exact ⟨cfg, hrow⟩
  · exact ⟨cfg, hrow⟩
  · exact ⟨id, cfg, hrow, rfl⟩
  · exact ⟨id, cfg, hrow, rfl⟩

/-- A key of an alert under which nothing has changed was a key of it before. -/
theorem State.Leakless.traced
    (h : s.Leakless) (h' : s'.Leakless) {id : Nat} {cfg : AlertConfig}
    (hrow : s'.alertAt id = some cfg) {k : DataKey} (hk : k ∈ keysOf id cfg)
    (heq : s'.persistent.get k = s.persistent.get k) :
    ∃ cfg₀, s.alertAt id = some cfg₀ ∧ k ∈ keysOf id cfg₀ := by
  have hlist : ∀ kind, k = .index kind (cfg.party kind) →
      ∃ cfg₀, s.alertAt id = some cfg₀ ∧ cfg₀.party kind = cfg.party kind := by
    rintro kind rfl
    have hmem := h'.complete id cfg hrow kind
    rw [view_index, heq, ← view_index] at hmem
    obtain ⟨cfg₀, hrow₀⟩ :=
      Option.isSome_iff_exists.mp (h.occupied kind _ id hmem)
    exact ⟨cfg₀, hrow₀, h.safe.sound.party_eq kind _ id cfg₀ hmem hrow₀⟩
  simp only [keysOf, companions, List.mem_cons, List.not_mem_nil, or_false] at hk
  rcases hk with rfl | rfl | rfl | rfl
  · exact ⟨cfg, heq.symm.trans hrow, by simp [keysOf]⟩
  · have hhas : s.persistent.has (.alertActive id) = true := by
      rw [Store.has_eq_isSome_get, ← heq, ← Store.has_eq_isSome_get]
      exact h'.has_keysOf hrow (by simp [keysOf, companions])
    obtain ⟨cfg₀, hrow₀⟩ := (h.has_iff (.alertActive id)).mp hhas
    exact ⟨cfg₀, hrow₀, by simp [keysOf, companions]⟩
  · obtain ⟨cfg₀, hrow₀, hparty⟩ := hlist .owner rfl
    refine ⟨cfg₀, hrow₀, ?_⟩
    have howner : cfg₀.owner = cfg.owner := hparty
    simp [keysOf, companions, howner]
  · obtain ⟨cfg₀, hrow₀, hparty⟩ := hlist .contract rfl
    refine ⟨cfg₀, hrow₀, ?_⟩
    have htarget : cfg₀.targetContract = cfg.targetContract := hparty
    simp [keysOf, companions, htarget]

theorem leakless_runCalls (calls : List Invocation) :
    (run execCall State.empty calls).Leakless := by
  have hstep : ∀ (s : State) (i : Invocation), True → s.Leakless →
      (execCall s i).Leakless := fun s i _ h => leakless_execCall s i h
  exact run_preserves hstep leakless_empty
    (along_of_forall_mem _ _ (fun _ _ => trivial))

end Keys

section Renewals

variable {s : State} (ledger : Nat)

theorem deadline_le_extend (k k' : DataKey) (ttl : Nat) :
    s.persistent.deadline k' ≤
      (s.extend ledger k ttl ttl).persistent.deadline k' := by
  exact Store.deadline_le_extendTtl _ _ _ _ _

theorem le_deadline_bumped
    {id : Nat} {cfg : AlertConfig} {k : DataKey} (hk : k ∈ keysOf id cfg)
    (hhas : s.persistent.has k = true) (ttl : Nat) :
    ledger + ttl + 1 ≤
      (s.bumped ledger id cfg ttl).persistent.deadline k := by
  have hrenewed := le_deadline_renewed ledger hk hhas ttl
  simp only [State.bumped, State.persistent_extendInst]
  split_ifs
  · exact hrenewed.trans (deadline_le_extend ledger _ _ _)
  · exact hrenewed

end Renewals

section Steps

variable {s : State} {i : Invocation}

/-- A call that ends well has returned. -/
theorem returns_of_ok
    {resp : Response} (hok : (invoke i.env i.call s).1 = .ok resp) :
    (dispatch i.call).Returns i.env s.silenced resp (execCall s i) := by
  rcases invoke_cases i.env i.call s with ⟨resp', s', hreturns, heq⟩ | ⟨f, heq⟩
  · rw [heq] at hok
    obtain rfl : resp' = resp := by
      simpa using hok
    rwa [execCall, heq]
  · rw [heq] at hok
    exact absurd hok (by simp)

/-- A renewal gives every key of the alert at least the default lifetime. -/
theorem renewedDeadline_le_of_renewal
    (h : s.Leakless) {id : Nat} {cfg : AlertConfig} (htends : i.call.tends id)
    {resp : Response} (hok : (invoke i.env i.call s).1 = .ok resp)
    (hrow : s.alertAt id = some cfg) {k : DataKey} (hk : k ∈ keysOf id cfg) :
    renewedDeadline i.env.sequence ≤ (execCall s i).persistent.deadline k := by
  have hreturns := returns_of_ok hok
  have hhas := h.has_keysOf hrow hk
  obtain ⟨env, call⟩ := i
  cases call with
  | bumpAlert configId ttl =>
      obtain ⟨rfl, httl⟩ := htends
      simp only [dispatch, returns_done, returns_bumpAlert] at hreturns
      obtain ⟨⟨cfg', -, hrow', -, -, -, heq⟩, -⟩ := hreturns
      obtain rfl : cfg = cfg' := Option.some.inj (hrow.symm.trans hrow')
      rw [heq]
      have hmin : defaultTtl ≤ min ttl maxTtl :=
        le_min httl defaultTtl_le_maxTtl
      calc renewedDeadline env.sequence
          ≤ env.sequence + min ttl maxTtl + 1 := by
            unfold renewedDeadline
            omega
        _ ≤ _ := le_deadline_bumped (s := s.silenced) env.sequence hk hhas _
  | bulkRenewTtl configIds =>
      simp only [dispatch, returns_respond, bulkRenewTtl, returns_bind,
        returns_rejectIf] at hreturns
      obtain ⟨n, ⟨-, _, ⟨-, rfl⟩, hloop⟩, -⟩ := hreturns
      obtain ⟨-, heq⟩ := returns_bulkRenewFrom hloop
      rw [heq]
      exact le_deadline_renewedEach (s := s.silenced) env.sequence htends hk hrow hhas
  | _ => exact False.elim htends

/-- A call that tends an alert gives each of its keys at least the default
lifetime. -/
theorem renewedDeadline_le_of_tends
    (h : s.Leakless) {id : Nat} (htends : i.Tends s id) {cfg : AlertConfig}
    (hrow : (execCall s i).alertAt id = some cfg)
    {k : DataKey} (hk : k ∈ keysOf id cfg) :
    renewedDeadline i.env.sequence ≤ (execCall s i).persistent.deadline k := by
  have h' := leakless_execCall s i h
  have hlasting := guaranteed_execCall (s := s) (i := i)
    (Store.guarantee_lasting _)
  cases hbefore : s.alertAt id with
  | none =>
      rcases hlasting k (h'.has_keysOf hrow hk) with ⟨hget, -⟩ | hlong
      · -- what has not changed would have belonged to the alert before
        obtain ⟨cfg₀, hrow₀, -⟩ := h.traced h' hrow hk hget
        exact absurd (hbefore.symm.trans hrow₀) (by simp)
      · exact hlong
  | some cfg₀ =>
      rcases htends.2 with hnone | ⟨hcall, resp, hok⟩
      · exact absurd (hnone.symm.trans hbefore) (by simp)
      · have hsame : s.SameValues (execCall s i) := by
          have hreturns := returns_of_ok hok
          obtain ⟨env, call⟩ := i
          cases call with
          | bumpAlert configId ttl => exact sameValues_of_bumpAlert hreturns
          | bulkRenewTtl configIds => exact sameValues_of_bulkRenewTtl hreturns
          | _ => exact False.elim hcall
        obtain rfl : cfg₀ = cfg := by
          have hget := (hsame.get (.alert id)).symm.trans hrow
          exact Option.some.inj (hbefore.symm.trans hget)
        exact renewedDeadline_le_of_renewal h hcall hok hbefore hk

/-- The keys of an alert keep their lifetimes, or are renewed. -/
theorem deadline_of_kept
    (h : s.Leakless) {id n : Nat}
    (hn : n ≤ renewedDeadline i.env.sequence)
    (hkeys : ∀ cfg, s.alertAt id = some cfg → ∀ k ∈ keysOf id cfg,
      n ≤ s.persistent.deadline k)
    {cfg : AlertConfig} (hrow : (execCall s i).alertAt id = some cfg)
    {k : DataKey} (hk : k ∈ keysOf id cfg) :
    n ≤ (execCall s i).persistent.deadline k := by
  have h' := leakless_execCall s i h
  have hlasting := guaranteed_execCall (s := s) (i := i)
    (Store.guarantee_lasting _)
  rcases hlasting k (h'.has_keysOf hrow hk) with ⟨hget, hle⟩ | hlong
  · obtain ⟨cfg₀, hrow₀, hk₀⟩ := h.traced h' hrow hk hget
    exact (hkeys cfg₀ hrow₀ k hk₀).trans hle
  · exact hn.trans hlong

end Steps

section Runs

variable {calls : List Invocation}

/-- What holds after a run whose alerts have all been tended: nothing has lapsed,
and each alert lives as long as the last call that tended it has made it. -/
structure KeptAlive (calls : List Invocation) : Prop where
  untimed : run execTimed State.empty calls = run execCall State.empty calls
  renewed : ∀ p j q, calls = p ++ j :: q → ∀ id,
    j.Tends ((run execTimed State.empty p).atLedger j.env.sequence) id →
      ∀ cfg, (run execTimed State.empty calls).alertAt id = some cfg →
        ∀ k ∈ keysOf id cfg, renewedDeadline j.env.sequence ≤
          (run execTimed State.empty calls).persistent.deadline k

theorem KeptAlive.leakless (h : KeptAlive calls) :
    (run execTimed State.empty calls).Leakless := by
  rw [h.untimed]
  exact leakless_runCalls calls

/-- A ledger in which every alert has been tended finds all entries there. -/
theorem KeptAlive.atLedger
    (h : KeptAlive calls) {ledger : Nat}
    (htended : ∀ id cfg, (run execTimed State.empty calls).alertAt id = some cfg →
      TendedBy calls id ledger) :
    (run execTimed State.empty calls).atLedger ledger =
      run execTimed State.empty calls := by
  set s := run execTimed State.empty calls with hs
  have hlive : ∀ k, s.persistent.lapsed ledger k = false := by
    intro k
    by_contra hlapsed
    rw [Bool.not_eq_false, Store.lapsed_iff] at hlapsed
    have hhas := (s.persistent.has_iff_deadline_pos k).mpr hlapsed.1
    obtain ⟨id, cfg, hrow, hk⟩ := h.leakless.exists_keysOf hhas
    obtain ⟨p, j, q, hsplit, htends, hle⟩ := htended id cfg hrow
    have hlong := h.renewed p j q hsplit id htends cfg hrow k hk
    rw [← hs, renewedDeadline] at hlong
    omega
  have hexpire : s.persistent.expire (s.persistent.lapsed ledger) = s.persistent := by
    funext k
    simp [Store.expire, hlive k]
  rw [State.atLedger, State.dropping, hexpire]

/-- One more call, made while every alert has been tended. -/
theorem KeptAlive.snoc
    (h : KeptAlive calls) {i : Invocation}
    (htended : ∀ id cfg, (run execTimed State.empty calls).alertAt id = some cfg →
      TendedBy calls id i.env.sequence)
    (hlater : ∀ j ∈ calls, j.env.sequence ≤ i.env.sequence) :
    KeptAlive (calls ++ [i]) := by
  have hfound := h.atLedger htended
  have hlast : run execTimed State.empty (calls ++ [i]) =
      execCall (run execTimed State.empty calls) i := by
    rw [run_append, run_cons, run_nil, execTimed, hfound]
  refine ⟨?_, ?_⟩
  · rw [hlast, h.untimed, run_append, run_cons, run_nil]
  · intro p j q hsplit id htends cfg hrow k hk
    rw [hlast] at hrow ⊢
    rcases List.eq_nil_or_concat q with rfl | ⟨q, i', rfl⟩
    · -- the alert is tended by the call itself
      obtain ⟨rfl, hji⟩ := List.append_inj' hsplit rfl
      obtain rfl : i = j := by
        simpa using hji
      rw [hfound] at htends
      exact renewedDeadline_le_of_tends h.leakless htends hrow hk
    · -- it has been tended before, and keeps what it was given
      have hsplit' : calls ++ [i] = (p ++ j :: q) ++ [i'] := by
        simpa using hsplit
      obtain ⟨hcalls, -⟩ := List.append_inj' hsplit' rfl
      refine deadline_of_kept h.leakless ?_
        (h.renewed p j q hcalls id htends) hrow hk
      have hle := hlater j (by simp [hcalls])
      unfold renewedDeadline
      omega

theorem AllTended.of_append
    {post : List Invocation} (h : AllTended (calls ++ post)) :
    AllTended calls := by
  intro pre i rest hsplit
  exact h pre i (rest ++ post) (by simp [hsplit])

theorem keptAlive_of_allTended
    (hsorted : calls.Pairwise (fun i j => i.env.sequence ≤ j.env.sequence))
    (htended : AllTended calls) :
    KeptAlive calls := by
  induction calls using List.reverseRecOn with
  | nil =>
      refine ⟨rfl, ?_⟩
      intro p j q hsplit
      exact absurd hsplit (by simp)
  | append_singleton calls i ih =>
      rw [List.pairwise_append] at hsorted
      have hkept := ih hsorted.1 htended.of_append
      refine hkept.snoc (htended calls i [] rfl) ?_
      intro j hj
      exact hsorted.2.2 j hj i (by simp)

end Runs

/-- A run in which every alert is tended at least every `DEFAULT_TTL` ledgers is
one without lifetimes: every call finds all that was ever written. -/
theorem tended_alerts_last
    {calls : List Invocation}
    (hsorted : calls.Pairwise (fun i j => i.env.sequence ≤ j.env.sequence))
    (htended : AllTended calls) :
    run execTimed State.empty calls = run execCall State.empty calls ∧
      ∀ pre i post, calls = pre ++ i :: post →
        (run execTimed State.empty pre).atLedger i.env.sequence =
          run execCall State.empty pre := by
  refine ⟨(keptAlive_of_allTended hsorted htended).untimed, ?_⟩
  rintro pre i post rfl
  have hkept : KeptAlive pre :=
    keptAlive_of_allTended (hsorted.sublist (List.sublist_append_left _ _))
      htended.of_append
  rw [hkept.atLedger (htended pre i post rfl), hkept.untimed]

/-- A registration and a renewal some time later. -/
def renewedRun : List Invocation :=
  [⟨envAt 1 [alice], sampleRegister alice pool⟩,
    ⟨envAt 100000 [], .bulkRenewTtl [0]⟩]

/-- The only alert of the run has the id `0`. -/
theorem renewedRun_tended : AllTended renewedRun := by
  intro pre i post hsplit id cfg hrow
  match pre, hsplit with
  | [], _ => exact absurd hrow (by simp [State.alertAt, State.empty])
  | [j], hsplit =>
      obtain ⟨rfl, rfl, -⟩ : ⟨envAt 1 [alice], sampleRegister alice pool⟩ = j ∧
          ⟨envAt 100000 [], .bulkRenewTtl [0]⟩ = i ∧ [] = post := by
        simpa [renewedRun] using hsplit
      have hid : id < 1 := (leakless_runCalls
        [⟨envAt 1 [alice], sampleRegister alice pool⟩]).safe.within.row id
          (Option.isSome_iff_exists.mpr ⟨cfg, hrow⟩)
      obtain rfl : id = 0 := by
        omega
      exact ⟨[], _, [], rfl, ⟨⟨_, rfl⟩, Or.inl rfl⟩, by decide⟩
  | j :: j' :: j'' :: pre, hsplit =>
      exact absurd (congrArg List.length hsplit) (by simp [renewedRun])
  | [j, j'], hsplit =>
      exact absurd (congrArg List.length hsplit) (by simp [renewedRun])

/-- Renewed once, an alert is there long after its first lifetime. -/
theorem renewedRun_lasts :
    run execTimed State.empty renewedRun = run execCall State.empty renewedRun :=
  (tended_alerts_last (by decide) renewedRun_tended).1

section Neglect

variable {id ledger : Nat}

/-- A call that leaves an alert alone does not prolong its life. -/
theorem deadline_execTimed
    {s : State} {i : Invocation}
    (hcall : i.call.touches (s.atLedger i.env.sequence) id →
      i.env.sequence + maxTtl < ledger)
    (h : s.persistent.deadline (.alert id) ≤ ledger) :
    (execTimed s i).persistent.deadline (.alert id) ≤ ledger := by
  have hbounded := guaranteed_execCall (s := s.atLedger i.env.sequence) (i := i)
    (Store.guarantee_bounded _ defaultTtl_le_maxTtl)
  rcases hbounded (.alert id) with hle | ⟨hmem, hle⟩
  · have hpurged : (s.atLedger i.env.sequence).persistent.deadline (.alert id) ≤
        s.persistent.deadline (.alert id) := by
      have hpurge := s.persistent.deadline_purge i.env.sequence (.alert id)
      have heq : (s.atLedger i.env.sequence).persistent =
          s.persistent.purge i.env.sequence := rfl
      rw [heq, hpurge]
      split_ifs
      · exact Nat.zero_le _
      · exact le_refl _
    exact hle.trans (hpurged.trans h)
  · have htouch := hcall (hmem id rfl)
    exact hle.trans (by omega)

end Neglect

/-- An alert that no call has touched for more than `MAX_TTL` ledgers is gone. -/
theorem neglected_alerts_lapse
    {calls : List Invocation} {id ledger : Nat}
    (hneglect : Along execTimed
      (fun s i => i.call.touches (s.atLedger i.env.sequence) id →
        i.env.sequence + maxTtl < ledger) State.empty calls) :
    ((run execTimed State.empty calls).atLedger ledger).alertAt id = none := by
  have hdeadline : (run execTimed State.empty calls).persistent.deadline
      (.alert id) ≤ ledger :=
    run_preserves (P := fun s => s.persistent.deadline (.alert id) ≤ ledger)
      (fun s i hcall h => deadline_execTimed hcall h) (Nat.zero_le ledger) hneglect
  have hget := (run execTimed State.empty calls).persistent.get_purge ledger
    (.alert id)
  rw [if_pos hdeadline] at hget
  exact hget

/-- The same alert, if nothing more is done for it. -/
theorem renewedRun_lapses :
    ((run execTimed State.empty renewedRun).atLedger 635681).alertAt 0 = none :=
  neglected_alerts_lapse
    ⟨fun _ => by decide, fun _ => by decide, trivial⟩

end AlertRegistry
end TxWatch
