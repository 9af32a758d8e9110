import TxWatch.WatcherRegistry.BatchEnrolment
import TxWatch.WatcherRegistry.Exactness
import TxWatch.WatcherRegistry.Expiries

/-!
# Mass calls on watchers and their single calls

`batch_register_watchers` is measured against `register_watcher` for each address
that is not listed, and `clear_all_watchers` against `remove_watcher` for each that
is.  In both cases the metadata makes the difference: a single registration gives
way to it, and a single removal leaves it behind.
-/

namespace TxWatch
namespace WatcherRegistry

open Soroban Soroban.Contract

section Sequences

variable {env : Env} {s : State} {call : Call} {rest : List Call}

/-- A call that makes a step of the registry, and the calls after it. -/
theorem invokeEach_cons_of_step
    {resp : Response} {evs : List Event} {r' : Registry}
    (hstep : Registry.Step env s.view call resp evs r') :
    ∃ s₁ : State, s₁.view = r' ∧
      invokeEach dispatch env (call :: rest) s =
        (invokeEach dispatch env rest s₁).map
          (fun later => (resp :: later.1, evs ++ later.2.1, later.2.2)) := by
  obtain ⟨hok, hevs, hview⟩ := invoke_of_step hstep
  refine ⟨(invoke env call s).2, hview, ?_⟩
  have hpair : invoke env call s = (.ok resp, (invoke env call s).2) :=
    Prod.ext hok rfl
  rw [invokeEach_cons_of_ok hpair]
  simp only [hevs]

/-- A call for which the registry has no step ends the sequence. -/
theorem invokeEach_cons_of_stuck
    (h : ∀ resp evs r', ¬ Registry.Step env s.view call resp evs r') :
    invokeEach dispatch env (call :: rest) s = none := by
  rcases invoke_refines env call s with ⟨resp, -, hstep⟩ | ⟨⟨f, hf⟩, -⟩
  · exact absurd hstep (h resp _ _)
  · have hpair : invoke env call s = (.error f, (invoke env call s).2) :=
      Prod.ext hf rfl
    exact invokeEach_cons_of_error hpair

end Sequences

section Enrolment

/-- What a registration publishes. -/
def registerEvent (w : Address) : Event :=
  ⟨(.watcher, .register), [.address w]⟩

/-- The roster with more watchers, who have no expiry. -/
def Roster.enlist (r : Roster) (ws : List Address) : Roster :=
  { r with watchers := r.watchers ++ ws, count := r.count + ws.length }

/-- There is room for more watchers on the list and in the count. -/
def Roster.HasRoom (r : Roster) (n : Nat) : Prop :=
  n ≠ 0 → r.watchers.length + n ≤ maxWatchers ∧ r.count + n ≤ u32Max

/-- Those of some addresses that have no metadata. -/
def Roster.unrecorded (r : Roster) (ws : List Address) : List Address :=
  ws.filter (fun w => (r.info w).isNone)

theorem Roster.register_eq_enlist
    {r : Roster} {w : Address} (h : r.Coherent) (hw : w ∉ r.watchers) :
    r.register w none = r.enlist [w] := by
  have hexpiry : Function.update r.expiries w none = r.expiries := by
    rw [← h.expiry_of_not_mem hw, Function.update_eq_self]
  rw [Roster.register, Roster.enlist, hexpiry]
  rfl

theorem Roster.Coherent.enlist
    {r : Roster} (h : r.Coherent) (ws : List Address) :
    (r.enlist ws).Coherent := by
  intro w hsome
  exact List.mem_append_left _ (h w hsome)

theorem Roster.enlist_enlist (r : Roster) (ws vs : List Address) :
    (r.enlist ws).enlist vs = r.enlist (ws ++ vs) := by
  simp only [Roster.enlist, List.append_assoc, List.length_append, Nat.add_assoc]

/-- Room for one and then for the rest is room for all of them. -/
theorem Roster.hasRoom_succ_iff (r : Roster) (w : Address) (n : Nat) :
    r.HasRoom (n + 1) ↔ r.HasRoom 1 ∧ (r.enlist [w]).HasRoom n := by
  simp only [Roster.HasRoom, Roster.enlist, List.length_append,
    List.length_singleton]
  omega

variable {env : Env} {s : State} {admin : Address}

/-- Registering the addresses one by one appends those without metadata, if there
is room for them, and passes over the others. -/
def State.EnlistsEach (s : State) (env : Env) (admin : Address)
    (ws : List Address) : Prop :=
  (s.view.roster.HasRoom (s.view.roster.unrecorded ws).length ∧ ∃ t : State,
    invokeEach dispatch env (ws.map (fun w => .registerWatcher admin w none none)) s =
      some (List.replicate ws.length .unit,
        (s.view.roster.unrecorded ws).map registerEvent, t) ∧
    t.view = { s.view with
      roster := s.view.roster.enlist (s.view.roster.unrecorded ws) }) ∨
  (¬ s.view.roster.HasRoom (s.view.roster.unrecorded ws).length ∧
    invokeEach dispatch env (ws.map (fun w => .registerWatcher admin w none none)) s =
      none)

theorem labelFits_none : LabelFits none :=
  Nat.zero_le _

/-- An address with metadata is passed over: its call succeeds and does nothing. -/
theorem State.enlistsEach_cons_of_info
    (hpermits : s.view.Permits env admin) {w : Address} {ws : List Address}
    {info : WatcherInfo} (hinfo : s.view.roster.info w = some info)
    (hrest : ∀ s₁ : State, s₁.view = s.view → s₁.EnlistsEach env admin ws) :
    s.EnlistsEach env admin (w :: ws) := by
  have hpass : s.view.roster.unrecorded (w :: ws) = s.view.roster.unrecorded ws := by
    simp [Roster.unrecorded, hinfo]
  have hstep : Registry.Step env s.view
      (.registerWatcher admin w none none) .unit [] s.view :=
    .keepWatcher hpermits labelFits_none (by rw [hinfo]; rfl)
  obtain ⟨s₁, hview, heach⟩ := @invokeEach_cons_of_step env s _
    (ws.map (fun w => Call.registerWatcher admin w none none)) _ _ _ hstep
  have hlater := hrest s₁ hview
  unfold State.EnlistsEach at hlater ⊢
  rw [hview] at hlater
  rw [List.map_cons, hpass, heach]
  rcases hlater with ⟨hroom, t, hsome, ht⟩ | ⟨hroom, hnone⟩
  · refine Or.inl ⟨hroom, t, ?_, ht⟩
    rw [hsome]
    rfl
  · refine Or.inr ⟨hroom, ?_⟩
    rw [hnone]
    rfl

/-- An address without metadata is appended when there is room for it. -/
theorem State.enlistsEach_cons_of_room
    (hpermits : s.view.Permits env admin) (hcoherent : s.view.roster.Coherent)
    {w : Address} {ws : List Address} (hfresh : w ∉ s.view.roster.watchers)
    (hinfo : s.view.roster.info w = none) (hone : s.view.roster.HasRoom 1)
    (hrest : ∀ s₁ : State,
      s₁.view = { s.view with roster := s.view.roster.enlist [w] } →
        s₁.EnlistsEach env admin ws) :
    s.EnlistsEach env admin (w :: ws) := by
  have hpass : s.view.roster.unrecorded (w :: ws) =
      w :: s.view.roster.unrecorded ws := by
    simp [Roster.unrecorded, hinfo]
  have hsplit := s.view.roster.hasRoom_succ_iff w
    (s.view.roster.unrecorded ws).length
  obtain ⟨hroom, hcount⟩ := hone one_ne_zero
  have hstep : Registry.Step env s.view
      (.registerWatcher admin w none none) .unit [registerEvent w]
      { s.view with roster := s.view.roster.enlist [w] } := by
    rw [← Roster.register_eq_enlist hcoherent hfresh]
    exact .register hpermits labelFits_none hinfo hroom hcount
  obtain ⟨s₁, hview, heach⟩ := @invokeEach_cons_of_step env s _
    (ws.map (fun w => Call.registerWatcher admin w none none)) _ _ _ hstep
  have hlater := hrest s₁ hview
  unfold State.EnlistsEach at hlater ⊢
  rw [hview] at hlater
  rw [List.map_cons, hpass, List.length_cons, heach]
  rcases hlater with ⟨hmore, t, hsome, ht⟩ | ⟨hmore, hnone⟩
  · refine Or.inl ⟨hsplit.mpr ⟨hone, hmore⟩, t, ?_, ?_⟩
    · rw [hsome]
      rfl
    · rw [ht]
      exact congrArg (fun roster => { s.view with roster := roster })
        (Roster.enlist_enlist s.view.roster [w] _)
  · refine Or.inr ⟨fun h => hmore (hsplit.mp h).2, ?_⟩
    rw [hnone]
    rfl

/-- An address without metadata ends the sequence when there is no room for it. -/
theorem State.enlistsEach_cons_of_full
    {w : Address} {ws : List Address} (hinfo : s.view.roster.info w = none)
    (hfull : ¬ s.view.roster.HasRoom 1) :
    s.EnlistsEach env admin (w :: ws) := by
  have hpass : s.view.roster.unrecorded (w :: ws) =
      w :: s.view.roster.unrecorded ws := by
    simp [Roster.unrecorded, hinfo]
  have hsplit := s.view.roster.hasRoom_succ_iff w
    (s.view.roster.unrecorded ws).length
  refine Or.inr ⟨?_, invokeEach_cons_of_stuck ?_⟩
  · rw [hpass, List.length_cons]
    exact fun h => hfull (hsplit.mp h).1
  · intro resp evs r' hstep
    have hregisters := hstep.registers hinfo
    exact hfull fun _ => ⟨hregisters.room, hregisters.count⟩

/-- Addresses that are not listed. -/
theorem State.enlistsEach
    (hpermits : s.view.Permits env admin) (hcoherent : s.view.roster.Coherent)
    {ws : List Address} (hnodup : ws.Nodup)
    (hnew : ∀ w ∈ ws, w ∉ s.view.roster.watchers) :
    s.EnlistsEach env admin ws := by
  induction ws generalizing s with
  | nil =>
      refine Or.inl ⟨fun h => absurd rfl h, s, rfl, ?_⟩
      simp [Roster.unrecorded, Roster.enlist]
  | cons w ws ih =>
      obtain ⟨hw, hnodup⟩ := List.nodup_cons.mp hnodup
      have hfresh : w ∉ s.view.roster.watchers := hnew w List.mem_cons_self
      have hlater : ∀ v ∈ ws, v ∉ s.view.roster.watchers :=
        fun v hv => hnew v (List.mem_cons_of_mem _ hv)
      cases hinfo : s.view.roster.info w with
      | some info =>
          refine State.enlistsEach_cons_of_info hpermits hinfo fun s₁ hview => ?_
          exact ih (hview ▸ hpermits) (hview ▸ hcoherent) hnodup (hview ▸ hlater)
      | none =>
          by_cases hone : s.view.roster.HasRoom 1
          · refine State.enlistsEach_cons_of_room hpermits hcoherent hfresh hinfo hone
              fun s₁ hview => ?_
            refine ih (hview ▸ ⟨hpermits.auth, hpermits.isAdmin, hpermits.unpaused⟩)
              (hview ▸ hcoherent.enlist [w]) hnodup ?_
            intro v hv
            have hne : v ≠ w := by
              rintro rfl
              exact hw hv
            rw [hview]
            simp [Roster.enlist, hlater v hv, hne]
          · exact State.enlistsEach_cons_of_full hinfo hone

end Enrolment

section Bound

/-- No step makes the list longer than its bound, not even one that lists an
address again. -/
theorem bounded_run (steps : List Step) :
    (run exec State.empty steps).view.roster.watchers.length ≤ maxWatchers := by
  refine run_induction (P := fun r => r.roster.watchers.length ≤ maxWatchers)
    (Nat.zero_le _) ?_ (fun _ _ h => h) steps
  intro env r call resp evs r' hstep h
  have hothers : ∀ w ∈ r.roster.watchers,
      (r.roster.others w).length < r.roster.watchers.length := by
    intro w hw
    exact List.length_filter_lt_length_iff_exists.mpr ⟨w, hw, by simp⟩
  cases hstep with
  | query _ => exact h
  | initialise _ _ => exact h
  | keepAdmin _ _ _ => exact h
  | addAdmin _ _ _ => exact h
  | removeAdmin _ _ _ => exact h
  | transferAdmin _ _ _ => exact h
  | keepWatcher _ _ _ => exact h
  | @register admin w _ _ _ _ _ hroom _ =>
      change (r.roster.watchers ++ [w]).length ≤ maxWatchers
      rw [List.length_append, List.length_singleton]
      exact hroom
  | @remove admin w _ hmem => exact (hothers w hmem).le.trans h
  | @replace admin old new _ hmem =>
      have hlt := hothers old hmem
      change (r.roster.replace old new _).watchers.length ≤ maxWatchers
      unfold Roster.replace
      split_ifs
      · exact hlt.le.trans h
      · rw [List.length_append, List.length_singleton]
        omega
  | batch _ _ hroom _ => exact hroom
  | renew _ _ => exact h
  | setPaused _ _ => exact h
  | clear _ => exact Nat.zero_le _

end Bound

section Batch

variable {env : Env} {s : State} {admin : Address} {ws : List Address}

theorem registerAll_eq_enlist (s : State) (ws : List Address) :
    s.view.roster.registerAll ws = s.view.roster.enlist (s.unlisted ws) := by
  rw [unlisted_eq]
  rfl

theorem nodup_newcomers (stored ws : List Address) :
    (newcomers stored ws).Nodup := by
  induction ws generalizing stored with
  | nil => exact List.nodup_nil
  | cons w ws ih =>
      unfold newcomers
      split_ifs with hw
      · exact ih stored
      · refine List.nodup_cons.mpr ⟨?_, ih (stored ++ [w])⟩
        intro hmem
        exact ((mem_newcomers _ _).mp hmem).2 (by simp)

/-- A batch that succeeds has found room. -/
theorem Registry.Step.room_of_batch
    {r r' : Registry} {resp : Response} {evs : List Event}
    (h : Registry.Step env r (.batchRegisterWatchers admin ws) resp evs r') :
    r.roster.HasRoom (newcomers r.roster.watchers ws).length := by
  intro hne
  cases h with
  | query hq => cases hq
  | batch _ _ hlength hcount =>
      refine ⟨?_, hcount ?_⟩
      · rw [← List.length_append]
        exact hlength
      · rintro hnil
        exact hne (by rw [hnil]; rfl)

/-- A batch within the batch size. -/
theorem invoke_batchRegisterWatchers_cases
    (hpermits : s.view.Permits env admin) (hsize : ws.length ≤ maxBatchSize)
    (hbound : s.view.roster.watchers.length ≤ maxWatchers) :
    (s.view.roster.HasRoom (s.unlisted ws).length ∧
      (invoke env (.batchRegisterWatchers admin ws) s).1 =
        .ok (.number (s.unlisted ws).length) ∧
      (invoke env (.batchRegisterWatchers admin ws) s).2.events =
        (s.unlisted ws).map registerEvent ∧
      (invoke env (.batchRegisterWatchers admin ws) s).2.view =
        { s.view with roster := s.view.roster.enlist (s.unlisted ws) }) ∨
    (¬ s.view.roster.HasRoom (s.unlisted ws).length ∧
      ∃ f, (invoke env (.batchRegisterWatchers admin ws) s).1 = .error f) := by
  have hnewcomers : newcomers s.view.roster.watchers ws = s.unlisted ws :=
    (unlisted_eq s ws).symm
  by_cases hroom : s.view.roster.HasRoom (s.unlisted ws).length
  · left
    refine ⟨hroom, ?_⟩
    have hlength : (s.view.roster.registerAll ws).watchers.length ≤ maxWatchers := by
      rw [registerAll_eq_enlist, Roster.enlist, List.length_append]
      by_cases hzero : (s.unlisted ws).length = 0
      · omega
      · exact (hroom hzero).1
    have hcount : newcomers s.view.roster.watchers ws ≠ [] →
        (s.view.roster.registerAll ws).count ≤ u32Max := by
      intro hne
      rw [hnewcomers] at hne
      rw [registerAll_eq_enlist]
      exact (hroom (fun hzero => hne (List.length_eq_zero_iff.mp hzero))).2
    have hstep := Registry.Step.batch hpermits hsize hlength hcount
    rw [hnewcomers, registerAll_eq_enlist] at hstep
    exact invoke_of_step hstep
  · right
    refine ⟨hroom, ?_⟩
    rcases invoke_refines env (.batchRegisterWatchers admin ws) s with
      ⟨resp, -, hstep⟩ | ⟨hf, -⟩
    · have hfits := hstep.room_of_batch
      rw [hnewcomers] at hfits
      exact absurd hfits hroom
    · exact hf

/-- In every state reached, an admin's batch of at most `maxBatchSize` addresses
on an unpaused contract and `register_watcher`, without expiry or label, for each
address of it that is not listed: when none of these has metadata, either both
fail or both succeed, and then they agree in their number, their events and the
registry that they leave.  When both succeed they leave the same registry only if
none has metadata. -/
theorem batch_enrolment_is_one_by_one
    (steps : List Step) (env : Env) (admin : Address) (ws : List Address)
    (hpermits : (run exec State.empty steps).view.Permits env admin)
    (hsize : ws.length ≤ maxBatchSize) :
    ((∀ w ∈ (run exec State.empty steps).unlisted ws,
        (run exec State.empty steps).view.roster.info w = none) →
      ((∃ resp, (invoke env (.batchRegisterWatchers admin ws)
          (run exec State.empty steps)).1 = .ok resp) ↔
        ∃ out, invokeEach dispatch env (((run exec State.empty steps).unlisted ws).map
            (fun w => .registerWatcher admin w none none))
          (run exec State.empty steps) = some out)) ∧
    ∀ resp resps evs (t : State),
      (invoke env (.batchRegisterWatchers admin ws)
        (run exec State.empty steps)).1 = .ok resp →
      invokeEach dispatch env (((run exec State.empty steps).unlisted ws).map
          (fun w => .registerWatcher admin w none none))
        (run exec State.empty steps) = some (resps, evs, t) →
      ((∀ w ∈ (run exec State.empty steps).unlisted ws,
          (run exec State.empty steps).view.roster.info w = none) ↔
        (invoke env (.batchRegisterWatchers admin ws)
          (run exec State.empty steps)).2.view = t.view) ∧
      ((∀ w ∈ (run exec State.empty steps).unlisted ws,
          (run exec State.empty steps).view.roster.info w = none) →
        resp = .number resps.length ∧
          (invoke env (.batchRegisterWatchers admin ws)
            (run exec State.empty steps)).2.events = evs) := by
  have hbound := bounded_run steps
  have hcoherent := coherent_run steps
  generalize run exec State.empty steps = s at hpermits hbound hcoherent ⊢
  have hnodup : (s.unlisted ws).Nodup := by
    rw [unlisted_eq]
    exact nodup_newcomers _ _
  have hnew : ∀ w ∈ s.unlisted ws, w ∉ s.view.roster.watchers := by
    intro w hw
    rw [unlisted_eq] at hw
    exact ((mem_newcomers _ _).mp hw).2
  have hall : (∀ w ∈ s.unlisted ws, s.view.roster.info w = none) ↔
      s.view.roster.unrecorded (s.unlisted ws) = s.unlisted ws := by
    simp [Roster.unrecorded, List.filter_eq_self]
  rw [hall]
  rcases @State.enlistsEach env s admin hpermits hcoherent _ hnodup hnew
    with ⟨hroom, t, heach, ht⟩ | ⟨hroom, heach⟩
  · rcases invoke_batchRegisterWatchers_cases hpermits hsize hbound with
      ⟨-, hok, hevents, hview⟩ | ⟨hfull, f, hf⟩
    · refine ⟨fun _ => iff_of_true ⟨_, hok⟩ ⟨_, heach⟩, ?_⟩
      intro resp resps evs t' hresp hout
      rw [hok] at hresp
      rw [heach] at hout
      cases hresp
      cases hout
      rw [hview, ht]
      refine ⟨⟨fun hsame => by rw [hsame], ?_⟩, ?_⟩
      · intro hsame
        have hlists := congrArg (fun r => r.roster.watchers) hsame
        exact (List.append_cancel_left hlists).symm
      · intro hsame
        rw [hsame]
        exact ⟨by rw [List.length_replicate], hevents⟩
    · refine ⟨?_, ?_⟩
      · intro hsame
        rw [hsame] at hroom
        exact absurd hroom hfull
      · intro resp resps evs t' hresp
        rw [hf] at hresp
        cases hresp
  · refine ⟨?_, ?_⟩
    · intro hsame
      rw [hsame] at hroom
      rcases invoke_batchRegisterWatchers_cases hpermits hsize hbound with
        ⟨hfits, -⟩ | ⟨-, f, hf⟩
      · exact absurd hfits hroom
      · refine iff_of_false ?_ ?_
        · rintro ⟨resp, hresp⟩
          rw [hf] at hresp
          cases hresp
        · rintro ⟨out, hout⟩
          rw [heach] at hout
          cases hout
    · intro resp resps evs t' _ hout
      rw [heach] at hout
      cases hout

/-- A watcher has been replaced and the new one removed, which leaves its metadata
behind. -/
def leftoverRun : List Step :=
  [.call (signedBy [keeper] 1) (.initialise keeper),
    .call (signedBy [keeper] 2) (.registerWatcher keeper sentry none none),
    .call (signedBy [keeper] 3) (.replaceWatcher keeper sentry scout),
    .call (signedBy [keeper] 4) (.removeWatcher keeper scout)]

theorem batch_enrolment_is_one_by_one_leftoverRun :
    ∃ out, invokeEach dispatch (signedBy [keeper] 5)
      (((run exec State.empty leftoverRun).unlisted [sentry, sentry]).map
        (fun w => .registerWatcher keeper w none none))
      (run exec State.empty leftoverRun) = some out := by
  have h := batch_enrolment_is_one_by_one leftoverRun (signedBy [keeper] 5) keeper
    [sentry, sentry] ⟨by decide, ⟨[keeper], rfl, by decide⟩, rfl⟩ (by decide)
  refine (h.1 ?_).mp ⟨.number 1, rfl⟩
  intro w hw
  have hlist : (run exec State.empty leftoverRun).unlisted [sentry, sentry] =
      [sentry] := by
    rfl
  rw [hlist, List.mem_singleton] at hw
  subst hw
  rfl

end Batch

section Clearing

/-- What a removal publishes. -/
def removeEvent (w : Address) : Event :=
  ⟨(.watcher, .remove), [.address w]⟩

/-- The roster without some of its watchers; the metadata stays. -/
def Roster.dismiss (r : Roster) (ws : List Address) : Roster :=
  { r with
    watchers := r.watchers.filter (fun v => v ∉ ws)
    expiries := fun w => if w ∈ ws then none else r.expiries w
    count := r.count - ws.length }

theorem Roster.dismiss_remove (r : Roster) (w : Address) (ws : List Address) :
    (r.remove w).dismiss ws = r.dismiss (w :: ws) := by
  have hlist : (r.others w).filter (fun v => v ∉ ws) =
      r.watchers.filter (fun v => v ∉ w :: ws) := by
    rw [Roster.others, List.filter_filter]
    apply List.filter_congr
    intro v _
    simp [Bool.and_comm]
  have hexpiries : (fun v => if v ∈ ws then none
      else Function.update r.expiries w none v) =
        fun v => if v ∈ w :: ws then none else r.expiries v := by
    funext v
    by_cases hv : v = w
    · simp [hv]
    · simp [hv]
  have hcount : r.count - 1 - ws.length = r.count - (w :: ws).length := by
    rw [List.length_cons]
    omega
  simp only [Roster.dismiss, Roster.remove, hlist, hexpiries, hcount]

variable {env : Env} {s : State} {admin : Address}

/-- Removing watchers one by one. -/
theorem invokeEach_removeWatcher
    (hpermits : s.view.Permits env admin) {ws : List Address} (hnodup : ws.Nodup)
    (hlisted : ∀ w ∈ ws, w ∈ s.view.roster.watchers) :
    ∃ t : State, invokeEach dispatch env (ws.map (fun w => Call.removeWatcher admin w)) s =
        some (List.replicate ws.length .unit, ws.map removeEvent, t) ∧
      t.view = { s.view with roster := s.view.roster.dismiss ws } := by
  induction ws generalizing s with
  | nil =>
      refine ⟨s, rfl, ?_⟩
      simp [Roster.dismiss]
  | cons w ws ih =>
      obtain ⟨hw, hnodup⟩ := List.nodup_cons.mp hnodup
      have hstep : Registry.Step env s.view (.removeWatcher admin w) .unit
          [removeEvent w] { s.view with roster := s.view.roster.remove w } :=
        .remove hpermits (hlisted w List.mem_cons_self)
      obtain ⟨s₁, hview, heach⟩ := @invokeEach_cons_of_step env s _
        (ws.map (fun w => Call.removeWatcher admin w)) _ _ _ hstep
      have hpermits₁ : s₁.view.Permits env admin := by
        rw [hview]
        exact ⟨hpermits.auth, hpermits.isAdmin, hpermits.unpaused⟩
      have hlisted₁ : ∀ v ∈ ws, v ∈ s₁.view.roster.watchers := by
        intro v hv
        have hne : v ≠ w := by
          rintro rfl
          exact hw hv
        rw [hview]
        exact Roster.mem_others.mpr ⟨hlisted v (List.mem_cons_of_mem _ hv), hne⟩
      obtain ⟨t, hsome, ht⟩ := ih hpermits₁ hnodup hlisted₁
      refine ⟨t, ?_, ?_⟩
      · rw [List.map_cons, heach, hsome]
        rfl
      · rw [ht, hview]
        exact congrArg (fun roster => { s.view with roster := roster })
          (Roster.dismiss_remove s.view.roster w ws)

/-- Dismissing everybody, once each, empties a tidy roster. -/
theorem Roster.dismiss_all
    {r : Roster} (hr : r.Tidy) (hcoherent : r.Coherent) {ws : List Address}
    (hperm : ws.Perm r.watchers) :
    r.dismiss ws =
      { watchers := [], expiries := fun _ => none, count := 0, info := r.info } := by
  have hlist : r.watchers.filter (fun v => v ∉ ws) = [] := by
    rw [List.filter_eq_nil_iff]
    intro v hv
    simpa using hperm.mem_iff.mpr hv
  have hexpiries : (fun w => if w ∈ ws then none else r.expiries w) =
      fun _ => none := by
    funext w
    split_ifs with hw
    · rfl
    · exact hcoherent.expiry_of_not_mem (fun hmem => hw (hperm.mem_iff.mpr hmem))
  have hcount : r.count - ws.length = 0 := by
    rw [hr.counted, hperm.length_eq, Nat.sub_self]
  simp only [Roster.dismiss, hlist, hexpiries, hcount]

/-- In every state reached in which the list is a set with the right count, an
admin on an unpaused contract may remove all watchers one by one, in any order:
every call succeeds, and the events and the registry are those of
`clear_all_watchers`, but for their order and for the metadata of these watchers,
which clearing deletes and the removals keep. -/
theorem clearing_is_one_by_one
    (steps : List Step) (hset : WatcherSet (run exec State.empty steps))
    (env : Env) (admin : Address)
    (hpermits : (run exec State.empty steps).view.Permits env admin)
    (ws : List Address) (hperm : ws.Perm (run exec State.empty steps).watchers) :
    (invoke env (.clearAllWatchers admin) (run exec State.empty steps)).1 =
        .ok .unit ∧
    ∃ t : State, invokeEach dispatch env (ws.map (fun w => .removeWatcher admin w))
        (run exec State.empty steps) =
          some (List.replicate ws.length .unit, ws.map removeEvent, t) ∧
      (ws.map removeEvent).Perm (invoke env (.clearAllWatchers admin)
        (run exec State.empty steps)).2.events ∧
      t.view.roster.info = (run exec State.empty steps).view.roster.info ∧
      (invoke env (.clearAllWatchers admin) (run exec State.empty steps)).2.view =
        { t.view with
          roster := { t.view.roster with
            info := fun w => if w ∈ ws then none else t.view.roster.info w } } := by
  have hcoherent := coherent_run steps
  generalize run exec State.empty steps = s at hset hpermits hperm hcoherent ⊢
  have htidy : s.view.roster.Tidy := (watcherSet_iff_tidy s).mp hset
  have hnodup : ws.Nodup := hperm.nodup_iff.mpr htidy.nodup
  obtain ⟨hok, hevents, hview⟩ :=
    invoke_of_step (Registry.Step.clear hpermits)
  obtain ⟨t, heach, ht⟩ := invokeEach_removeWatcher hpermits hnodup
    (fun w hw => hperm.mem_iff.mp hw)
  refine ⟨hok, t, heach, ?_, ?_, ?_⟩
  · rw [hevents]
    exact hperm.map removeEvent
  · rw [ht]
    rfl
  · have hinfo : (fun w => if w ∈ s.view.roster.watchers then none
        else s.view.roster.info w) =
          fun w => if w ∈ ws then none else s.view.roster.info w := by
      funext w
      simp only [hperm.mem_iff]
      rfl
    rw [hview, ht, Roster.dismiss_all htidy hcoherent hperm, Roster.clear, hinfo]

/-- Two watchers removed against the order of the list. -/
theorem pair_cleared_one_by_one :
    ∃ t : State, invokeEach dispatch (signedBy [keeper] 5)
      ([scout, sentry].map (fun w => .removeWatcher keeper w))
      (run exec State.empty
        [.call (signedBy [keeper] 1) (.initialise keeper),
          .call (signedBy [keeper] 2)
            (.batchRegisterWatchers keeper [sentry, scout])]) =
      some (List.replicate 2 .unit, [scout, sentry].map removeEvent, t) := by
  obtain ⟨-, t, heach, -⟩ := clearing_is_one_by_one
    [.call (signedBy [keeper] 1) (.initialise keeper),
      .call (signedBy [keeper] 2) (.batchRegisterWatchers keeper [sentry, scout])]
    ((watcherSet_iff_tidy _).mpr ⟨by decide, by decide, rfl⟩)
    (signedBy [keeper] 5) keeper ⟨by decide, ⟨[keeper], rfl, by decide⟩, rfl⟩
    [scout, sentry] (List.Perm.swap _ _ _)
  exact ⟨t, heach⟩

end Clearing

end WatcherRegistry
end TxWatch
