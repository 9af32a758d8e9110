import TxWatch.WatcherRegistry.WatcherSet

/-!
# Registering watchers in a batch

`batch_register_watchers` looks an address up in a list that grows as it goes,
checks the bound afterwards, and counts and announces in a second loop.  What
comes of it is the old list with the addresses that were not on it, each at its
first occurrence; a second call finds all of them there.
-/

namespace TxWatch
namespace WatcherRegistry

open Soroban Soroban.Contract

/-- The addresses of a list that are not registered, at their first
occurrences. -/
def State.unlisted (s : State) (ws : List Address) : List Address :=
  (ws.filter (fun w => w ∉ s.watchers)).eraseDups

/-- A batch registration of `ws` has turned `s` into `s'`. -/
structure Enrolled (ws : List Address) (resp : Response) (s s' : State) :
    Prop where
  returned : resp = .number (s.unlisted ws).length
  listed : s'.watchers = s.watchers ++ s.unlisted ws
  announced : s'.events =
    (s.unlisted ws).map (fun w => ⟨(.watcher, .register), [.address w]⟩)
  counted : ∀ env : Env, ∃ n : Nat,
    (invoke env .getWatcherCount s).1 = .ok (.number n) ∧
    (invoke env .getWatcherCount s').1 =
      .ok (.number (n + (s.unlisted ws).length))
  expiries : s'.inst .expiries = s.inst .expiries

/-- Nothing stored differs, and nothing has been published. -/
structure Untouched (s s' : State) : Prop where
  persistent : s'.persistent = s.persistent
  inst : s'.inst = s.inst
  events : s'.events = []

section Newcomers

/-- The loop of the batch keeps first occurrences. -/
theorem newcomers_eq_eraseDups (stored ws : List Address) :
    newcomers stored ws = (ws.filter (fun w => w ∉ stored)).eraseDups := by
  induction ws generalizing stored with
  | nil => rfl
  | cons w ws ih =>
      rw [newcomers]
      split_ifs with hw
      · rw [ih, List.filter_cons_of_neg (by simpa using hw)]
      · have hrest : ws.filter (fun v => v ∉ stored ++ [w]) =
            (ws.filter (fun v => v ∉ stored)).filter (fun v => !v == w) := by
          rw [List.filter_filter]
          apply List.filter_congr
          intro v _
          by_cases hv : v = w
          · simp [hv]
          · simp [hv]
        rw [ih, hrest, List.filter_cons_of_pos (by simpa using hw),
          List.eraseDups_cons]

/-- What has been appended once is not appended again. -/
theorem newcomers_append_newcomers (stored ws : List Address) :
    newcomers (stored ++ newcomers stored ws) ws = [] := by
  rw [List.eq_nil_iff_forall_not_mem]
  intro w hw
  rw [mem_newcomers, List.mem_append, mem_newcomers] at hw
  by_cases hstored : w ∈ stored
  · exact hw.2 (Or.inl hstored)
  · exact hw.2 (Or.inr ⟨hw.1, hstored⟩)

/-- A batch has no more newcomers than entries. -/
theorem length_newcomers_le (stored ws : List Address) :
    (newcomers stored ws).length ≤ ws.length := by
  induction ws generalizing stored with
  | nil => exact Nat.le_refl 0
  | cons w ws ih =>
      unfold newcomers
      split_ifs with hw
      · exact (ih stored).trans (Nat.le_succ _)
      · exact Nat.succ_le_succ (ih (stored ++ [w]))

theorem unlisted_eq (s : State) (ws : List Address) :
    s.unlisted ws = newcomers s.view.roster.watchers ws := by
  exact (newcomers_eq_eraseDups s.watchers ws).symm

end Newcomers

section Outcomes

variable {env : Env} {s : State} {admin : Address} {ws : List Address}

/-- The batch goes through when there is room for it. -/
theorem invoke_batch_of_room
    (hpermits : s.view.Permits env admin) (hsize : ws.length ≤ maxBatchSize)
    (hcount : s.view.roster.count ≤ u32Max - maxBatchSize)
    (hroom : (s.watchers ++ s.unlisted ws).length ≤ maxWatchers) :
    invoke env (.batchRegisterWatchers admin ws) s =
      (.ok (.number (s.unlisted ws).length), State.enrolled s.silenced env ws) := by
  rw [unlisted_eq] at hroom ⊢
  have hlength := length_newcomers_le s.view.roster.watchers ws
  have hbound : (s.view.roster.registerAll ws).count ≤ u32Max := by
    change s.view.roster.count + (newcomers s.view.roster.watchers ws).length ≤ u32Max
    unfold u32Max maxBatchSize at *
    omega
  apply transact_of_returns
  simp only [dispatch, returns_respond, returns_batchRegisterWatchers,
    view_silenced]
  exact ⟨_, ⟨hpermits, hsize, hroom, fun _ => hbound, rfl, trivial⟩, rfl⟩

/-- Without room it is refused before anything has been written. -/
theorem invoke_batch_of_full
    (hpermits : s.view.Permits env admin) (hsize : ws.length ≤ maxBatchSize)
    (hfull : maxWatchers < (s.watchers ++ s.unlisted ws).length) :
    invoke env (.batchRegisterWatchers admin ws) s =
      (.error (.error .watcherLimitExceeded), s.silenced) := by
  rw [unlisted_eq] at hfull
  have hfails : (batchRegisterWatchers admin ws).Fails env s.silenced
      (.error .watcherLimitExceeded) s.silenced := by
    simp only [batchRegisterWatchers, fails_bind, returns_assertMutable,
      returns_rejectIf, returns_loadWatchers, appendNew_eq, fails_rejectIf]
    exact Or.inr ⟨(), _, ⟨hpermits, rfl⟩, Or.inr ⟨(), _,
      ⟨Nat.not_lt.mpr hsize, rfl⟩, Or.inr ⟨_, _, ⟨rfl, rfl⟩,
        Or.inl ⟨hfull, trivial, rfl⟩⟩⟩⟩
  apply transact_of_fails
  simp only [dispatch, respond, fails_bind]
  exact Or.inl hfails

end Outcomes

section Effects

variable {s : State}

theorem inst_announced
    {i : InstanceKey} (hi : i ≠ .wCnt) (added : List Address) :
    (s.announced added).inst i = s.inst i := by
  induction added generalizing s with
  | nil => rfl
  | cons w rest ih =>
      rw [State.announced, ih, State.inst_emit]
      exact Function.update_of_ne hi _ _

theorem instLiveUntil_announced (added : List Address) :
    (s.announced added).instLiveUntil = s.instLiveUntil := by
  induction added generalizing s with
  | nil => rfl
  | cons w rest ih =>
      rw [State.announced, ih]
      rfl

variable (s) (env : Env) (ws : List Address)

theorem inst_watchers_enrolled :
    (s.enrolled env ws).inst .watchers = some (s.enrolled env ws).watchers := by
  rw [State.watchers, view_enrolled, State.enrolled, inst_announced (by decide)]
  simp

/-- The batch has extended the lifetime of the instance entry already. -/
theorem extendInst_enrolled :
    (s.enrolled env ws).silenced.extendInst env.sequence defaultTtl defaultTtl =
      (s.enrolled env ws).silenced := by
  have hlive : (s.enrolled env ws).instLiveUntil =
      State.extendedInst env.sequence s.instLiveUntil defaultTtl defaultTtl := by
    rw [State.enrolled, instLiveUntil_announced]
    rfl
  have hsame : State.extendedInst env.sequence (s.enrolled env ws).instLiveUntil
      defaultTtl defaultTtl = (s.enrolled env ws).instLiveUntil := by
    rw [hlive, State.extendedInst_extendedInst]
  unfold State.extendInst State.silenced
  simp only [hsame]

theorem enrolled_spec :
    Enrolled ws (.number (s.unlisted ws).length) s
      (State.enrolled s.silenced env ws) := by
  have hview := @view_enrolled env s.silenced ws
  have hevents := @events_enrolled env s.silenced ws
  rw [view_silenced] at hview hevents
  refine ⟨rfl, ?_, ?_, ?_, ?_⟩
  · rw [State.watchers, hview, unlisted_eq]
    rfl
  · rw [hevents, unlisted_eq]
    rfl
  · intro env'
    refine ⟨_, invoke_getWatcherCount env' s, ?_⟩
    rw [invoke_getWatcherCount, hview, unlisted_eq]
    rfl
  · rw [State.enrolled, inst_announced (by decide)]
    rfl

/-- Once the batch is on the list, registering it extends the lifetime of the
instance entry and does nothing else. -/
theorem invoke_batch_of_listed
    {s : State} {env : Env} {admin : Address} {ws : List Address}
    (hpermits : s.view.Permits env admin) (hsize : ws.length ≤ maxBatchSize)
    (hstored : s.inst .watchers = some s.watchers)
    (hbound : s.watchers.length ≤ maxWatchers)
    (hnone : newcomers s.view.roster.watchers ws = []) :
    invoke env (.batchRegisterWatchers admin ws) s =
      (.ok (.number 0),
        s.silenced.extendInst env.sequence defaultTtl defaultTtl) := by
  have hsame : (s.view.roster.registerAll ws).watchers = s.watchers := by
    change s.view.roster.watchers ++ newcomers s.view.roster.watchers ws = _
    rw [hnone, List.append_nil]
    rfl
  have hstate : State.enrolled s.silenced env ws =
      s.silenced.extendInst env.sequence defaultTtl defaultTtl := by
    have hsilent : (State.silenced s).setInst .watchers s.watchers =
        State.silenced s := State.setInst_of_eq hstored
    rw [State.enrolled, view_silenced, hnone, hsame, hsilent]
    rfl
  apply transact_of_returns
  simp only [dispatch, returns_respond, returns_batchRegisterWatchers,
    view_silenced, hsame, hnone, hstate]
  exact ⟨0, ⟨hpermits, hsize, hbound, fun hne => absurd rfl hne, rfl, trivial⟩, rfl⟩

/-- So it is when a batch that went through is made again. -/
theorem invoke_batch_again
    {s : State} {env env' : Env} {admin : Address} {ws : List Address}
    (hpermits : s.view.Permits env admin) (hsize : ws.length ≤ maxBatchSize)
    (hroom : (s.watchers ++ s.unlisted ws).length ≤ maxWatchers)
    (hauth : admin ∈ env'.auths) :
    invoke env' (.batchRegisterWatchers admin ws)
        (State.enrolled s.silenced env ws) =
      (.ok (.number 0),
        State.extendInst (State.silenced (State.enrolled s.silenced env ws))
          env'.sequence defaultTtl defaultTtl) := by
  have hview := @view_enrolled env s.silenced ws
  rw [view_silenced] at hview
  have hpermits' : (State.enrolled s.silenced env ws).view.Permits env' admin := by
    rw [hview]
    exact ⟨hauth, hpermits.isAdmin, hpermits.unpaused⟩
  have hbound : (State.enrolled s.silenced env ws).watchers.length ≤
      maxWatchers := by
    rw [(enrolled_spec s env ws).listed]
    exact hroom
  have hnone : newcomers
      (State.enrolled s.silenced env ws).view.roster.watchers ws = [] := by
    rw [hview]
    exact newcomers_append_newcomers _ ws
  exact invoke_batch_of_listed hpermits' hsize
    (inst_watchers_enrolled s.silenced env ws) hbound hnone

end Effects

section Batches

/-- In every reachable state, a batch within its size that an admin authorises
succeeds exactly when the old list and the unlisted addresses are within the
bound, and is refused for the bound otherwise, which changes nothing.  When it
succeeds, it has appended, counted and announced those addresses; made again, it
adds nothing. -/
theorem batch_enrols
    (steps : List Step) (env : Env) (admin : Address) (ws : List Address)
    (hpermits : (run exec State.empty steps).view.Permits env admin)
    (hcount : (run exec State.empty steps).view.roster.count ≤
      u32Max - maxBatchSize)
    (hsize : ws.length ≤ maxBatchSize) :
    ((∃ resp, (invoke env (.batchRegisterWatchers admin ws)
        (run exec State.empty steps)).1 = .ok resp) ↔
      ((run exec State.empty steps).watchers ++
        (run exec State.empty steps).unlisted ws).length ≤ maxWatchers) ∧
    (invoke env (.batchRegisterWatchers admin ws)
        (run exec State.empty steps) =
        (.error (.error .watcherLimitExceeded),
          (run exec State.empty steps).silenced) ↔
      maxWatchers < ((run exec State.empty steps).watchers ++
        (run exec State.empty steps).unlisted ws).length) ∧
    ∀ s' resp, invoke env (.batchRegisterWatchers admin ws)
        (run exec State.empty steps) = (.ok resp, s') →
      Enrolled ws resp (run exec State.empty steps) s' ∧
      ∀ env', admin ∈ env'.auths →
        (invoke env' (.batchRegisterWatchers admin ws) s').1 =
            .ok (.number 0) ∧
          Untouched s' (invoke env' (.batchRegisterWatchers admin ws) s').2 ∧
          (env'.sequence = env.sequence →
            (invoke env' (.batchRegisterWatchers admin ws) s').2 =
              s'.silenced) := by
  generalize run exec State.empty steps = s at hpermits hcount ⊢
  by_cases hroom : (s.watchers ++ s.unlisted ws).length ≤ maxWatchers
  · rw [invoke_batch_of_room hpermits hsize hcount hroom]
    refine ⟨iff_of_true ⟨_, rfl⟩ hroom, ?_, ?_⟩
    · refine iff_of_false ?_ (Nat.not_lt.mpr hroom)
      intro h
      cases h
    · rintro s' resp ⟨⟩
      refine ⟨enrolled_spec s env ws, ?_⟩
      intro env' hauth
      rw [invoke_batch_again hpermits hsize hroom hauth]
      refine ⟨rfl, ⟨rfl, rfl, rfl⟩, ?_⟩
      intro hsequence
      rw [hsequence]
      exact extendInst_enrolled s.silenced env ws
  · have hfull : maxWatchers < (s.watchers ++ s.unlisted ws).length :=
      Nat.not_le.mp hroom
    rw [invoke_batch_of_full hpermits hsize hfull]
    refine ⟨iff_of_false ?_ hroom, iff_of_true rfl hfull, ?_⟩
    · rintro ⟨resp, hresp⟩
      cases hresp
    · intro s' resp h
      cases h

/-- Of three entries one is new. -/
theorem batch_enrols_doubleRun :
    Enrolled [scout, sentry, scout] (.number 1)
      (run exec State.empty (doubleRun.take 2))
      (invoke (signedBy [keeper] 4)
        (.batchRegisterWatchers keeper [scout, sentry, scout])
        (run exec State.empty (doubleRun.take 2))).2 := by
  have h := batch_enrols (doubleRun.take 2) (signedBy [keeper] 4) keeper
    [scout, sentry, scout] ⟨by decide, ⟨[keeper], rfl, by decide⟩, rfl⟩
    (by decide) (by decide)
  exact (h.2.2 _ _ rfl).1

end Batches

end WatcherRegistry
end TxWatch
