import TxWatch.WatcherRegistry.BatchEnrolment
import TxWatch.WatcherRegistry.Exactness
import TxWatch.Soroban.Redelivery

/-!
# Retries in the watcher registry

Every entry point but `register_watcher` absorbs a call that is made again in the
same names: it is refused, or writes what is there already, but for the time in
the metadata of a watcher that was replaced by himself.  The storage may hold
anything to begin with, and metadata may expire on the way.
-/

namespace TxWatch
namespace WatcherRegistry

open Soroban Soroban.Contract

namespace Roster

/-- Replaced by himself, a watcher goes to the end of the list. -/
theorem replace_self (r : Roster) (w : Address) (info : WatcherInfo) :
    r.replace w w info =
      { watchers := r.others w ++ [w]
        expiries := Function.update r.expiries w none
        count := r.count
        info := Function.update r.info w (some info) } := by
  rw [replace, if_neg not_mem_others, Function.update_idem]

theorem replace_self_replace (r : Roster) (w : Address) (info info' : WatcherInfo) :
    (r.replace w w info).replace w w info' = r.replace w w info' := by
  have hothers : (r.replace w w info).others w = r.others w := by
    rw [replace_self, others]
    simp [others, List.filter_append, List.filter_filter]
  rw [replace_self (r.replace w w info), hothers, replace_self, replace_self]
  simp only [Function.update_idem]

/-- Otherwise he is gone. -/
theorem eq_of_mem_replace
    {r : Roster} {old new : Address} {info : WatcherInfo}
    (h : old ∈ (r.replace old new info).watchers) :
    new = old := by
  unfold replace at h
  split_ifs at h
  · exact absurd h not_mem_others
  · simpa [eq_comm] using h

end Roster

/-- Metadata without the time of the registration. -/
def WatcherInfo.unstamped (info : WatcherInfo) : WatcherInfo :=
  { info with registeredAt := 0 }

/-- An answer without the times of registrations. -/
def Response.unstamped : Response → Response
  | .optInfo o => .optInfo (o.map WatcherInfo.unstamped)
  | resp => resp

/-- Every entry point but `register_watcher`. -/
def Call.repeatable : Call → Bool
  | .registerWatcher _ _ _ _ => false
  | _ => true

/-- The registries differ in nothing but the times in the metadata. -/
structure Registry.Alike (r t : Registry) : Prop where
  admins : t.admins = r.admins
  paused : t.paused = r.paused
  watchers : t.roster.watchers = r.roster.watchers
  expiries : t.roster.expiries = r.roster.expiries
  count : t.roster.count = r.roster.count
  info : ∀ w, (t.roster.info w).map WatcherInfo.unstamped =
    (r.roster.info w).map WatcherInfo.unstamped

namespace Registry

section Alike

variable {r t u : Registry}

theorem Alike.refl (r : Registry) : r.Alike r := by
  exact ⟨rfl, rfl, rfl, rfl, rfl, fun _ => rfl⟩

theorem Alike.symm (h : r.Alike t) : t.Alike r := by
  exact ⟨h.admins.symm, h.paused.symm, h.watchers.symm, h.expiries.symm,
    h.count.symm, fun w => (h.info w).symm⟩

theorem Alike.trans (h : r.Alike t) (h' : t.Alike u) : r.Alike u := by
  exact ⟨h'.admins.trans h.admins, h'.paused.trans h.paused,
    h'.watchers.trans h.watchers, h'.expiries.trans h.expiries,
    h'.count.trans h.count, fun w => (h'.info w).trans (h.info w)⟩

theorem Alike.isSome_info (h : r.Alike t) (w : Address) :
    (t.roster.info w).isSome = (r.roster.info w).isSome := by
  simpa using congrArg Option.isSome (h.info w)

theorem Alike.permits
    (h : r.Alike t) {env env' : Env} (hauths : env'.auths = env.auths)
    {admin : Address} (hr : r.Permits env admin) :
    t.Permits env' admin := by
  obtain ⟨admins, hadmins, hmem⟩ := hr.isAdmin
  refine ⟨?_, ⟨admins, h.admins.trans hadmins, hmem⟩, h.paused.trans hr.unpaused⟩
  rw [hauths]
  exact hr.auth

theorem Alike.authorised
    (h : r.Alike t) (now : Nat) (w : Address) :
    t.roster.Authorised now w ↔ r.roster.Authorised now w := by
  rw [Roster.Authorised, h.watchers, h.expiries, Roster.Authorised]

/-- What a query answers depends on those times only where it shows them. -/
theorem Alike.answer
    (h : r.Alike t) {env env' : Env} (hnow : env'.timestamp = env.timestamp)
    (call : Call) :
    (t.answer env' call).map Response.unstamped =
      (r.answer env call).map Response.unstamped := by
  have hauthorised : ∀ w, t.roster.Authorised env'.timestamp w ↔
      r.roster.Authorised env.timestamp w := by
    intro w
    rw [hnow, h.authorised]
  cases call with
  | getWatcherInfo w =>
      exact congrArg (fun o => some (Response.optInfo o)) (h.info w)
  | _ => simp only [Registry.answer, Roster.page, hauthorised, h.admins, h.paused,
      h.watchers, h.count]

/-- The metadata of one address written in both. -/
theorem info_update
    {f g : Address → Option WatcherInfo} {o o' : Option WatcherInfo}
    (h : ∀ w, (g w).map WatcherInfo.unstamped = (f w).map WatcherInfo.unstamped)
    (hsame : o'.map WatcherInfo.unstamped = o.map WatcherInfo.unstamped)
    (v w : Address) :
    (Function.update g v o' w).map WatcherInfo.unstamped =
      (Function.update f v o w).map WatcherInfo.unstamped := by
  by_cases hw : w = v
  · subst hw
    simpa using hsame
  · rw [Function.update_of_ne hw, Function.update_of_ne hw]
    exact h w

theorem Alike.others (h : r.Alike t) (w : Address) :
    t.roster.others w = r.roster.others w := by
  rw [Roster.others, h.watchers, Roster.others]

theorem Alike.replace
    (h : r.Alike t) (old new : Address) {info info' : WatcherInfo}
    (hinfo : info'.unstamped = info.unstamped) :
    Alike { r with roster := r.roster.replace old new info }
      { t with roster := t.roster.replace old new info' } := by
  have hsome : (some info').map WatcherInfo.unstamped =
      (some info).map WatcherInfo.unstamped := congrArg some hinfo
  unfold Roster.replace
  simp only [h.others]
  split_ifs
  · refine ⟨h.admins, h.paused, rfl, ?_, ?_, ?_⟩
    · simp only [h.expiries]
    · simp only [h.count]
    · exact info_update h.info rfl old
  · refine ⟨h.admins, h.paused, rfl, ?_, h.count, ?_⟩
    · simp only [h.expiries]
    · exact info_update (info_update h.info rfl old) hsome new

end Alike

section Steps

variable {env env' : Env} {r r' r'' t : Registry} {call : Call}
  {resp resp' : Response} {evs evs' : List Event}

/-- Whatever a call does in one registry, it does in an alike one, with the same
answer but for the times in it; and a call that is no query does so at any time. -/
theorem Step.alike
    (h : Step env r call resp evs r') (ha : r.Alike t)
    (hauths : env'.auths = env.auths)
    (hnow : call.isQuery = true → env'.timestamp = env.timestamp) :
    ∃ resp' t', Step env' t call resp' evs t' ∧ r'.Alike t' ∧
      resp'.unstamped = resp.unstamped := by
  cases h with
  | query hquery hanswer =>
      have hsame := ha.answer (hnow hquery) call
      rw [hanswer] at hsame
      obtain ⟨resp', hanswer', hresp⟩ := Option.map_eq_some_iff.mp hsame
      exact ⟨resp', t, .query hquery hanswer', ha, hresp⟩
  | initialise hauth hnone =>
      exact ⟨_, _, .initialise (by rwa [hauths]) (ha.admins.trans hnone),
        { ha with admins := rfl }, rfl⟩
  | keepAdmin hpermits hadmins hmem =>
      exact ⟨_, t, .keepAdmin (ha.permits hauths hpermits)
        (ha.admins.trans hadmins) hmem, ha, rfl⟩
  | addAdmin hpermits hadmins hnew =>
      exact ⟨_, _, .addAdmin (ha.permits hauths hpermits)
        (ha.admins.trans hadmins) hnew, { ha with admins := rfl }, rfl⟩
  | removeAdmin hpermits hadmins hlen =>
      exact ⟨_, _, .removeAdmin (ha.permits hauths hpermits)
        (ha.admins.trans hadmins) hlen, { ha with admins := rfl }, rfl⟩
  | transferAdmin hpermits hadmins hlen =>
      exact ⟨_, _, .transferAdmin (ha.permits hauths hpermits)
        (ha.admins.trans hadmins) hlen, { ha with admins := rfl }, rfl⟩
  | keepWatcher hpermits hlabel hinfo =>
      exact ⟨_, t, .keepWatcher (ha.permits hauths hpermits) hlabel
        (by rwa [ha.isSome_info]), ha, rfl⟩
  | @register admin w expiresAt label hpermits hlabel hinfo hroom hcount =>
      have hinfo' : t.roster.info w = none := by
        rw [← Option.isNone_iff_eq_none, ← Option.not_isSome, ha.isSome_info, hinfo]
        rfl
      refine ⟨_, _, .register (ha.permits hauths hpermits) hlabel hinfo'
        (by rwa [ha.watchers]) (by rwa [ha.count]), ?_, rfl⟩
      refine { ha with watchers := ?_, expiries := ?_, count := ?_ }
      · simp only [Roster.register, ha.watchers]
      · simp only [Roster.register, ha.expiries]
      · simp only [Roster.register, ha.count]
  | remove hpermits hmem =>
      refine ⟨_, _, .remove (ha.permits hauths hpermits) (by rwa [ha.watchers]), ?_, rfl⟩
      refine { ha with watchers := ha.others _, expiries := ?_, count := ?_ }
      · simp only [Roster.remove, ha.expiries]
      · simp only [Roster.remove, ha.count]
  | replace hpermits hmem =>
      exact ⟨_, _, .replace (ha.permits hauths hpermits) (by rwa [ha.watchers]),
        ha.replace _ _ rfl, rfl⟩
  | @batch admin ws hpermits hsize hroom hcount =>
      have hwatchers : (t.roster.registerAll ws).watchers =
          (r.roster.registerAll ws).watchers := by
        simp only [Roster.registerAll, ha.watchers]
      have hcounts : (t.roster.registerAll ws).count =
          (r.roster.registerAll ws).count := by
        simp only [Roster.registerAll, ha.watchers, ha.count]
      rw [← ha.watchers]
      exact ⟨_, _, .batch (ha.permits hauths hpermits) hsize (by rwa [hwatchers])
        (by rwa [hcounts, ha.watchers]),
        { ha with watchers := hwatchers, count := hcounts }, rfl⟩
  | renew hpermits hmem =>
      refine ⟨_, _, .renew (ha.permits hauths hpermits) (by rwa [ha.watchers]), ?_, rfl⟩
      refine { ha with expiries := ?_ }
      simp only [Roster.renew, ha.expiries]
  | setPaused hauth hadmin =>
      obtain ⟨admins, hadmins, hmem⟩ := hadmin
      exact ⟨_, _, .setPaused (by rwa [hauths])
        ⟨admins, ha.admins.trans hadmins, hmem⟩, { ha with paused := rfl }, rfl⟩
  | clear hpermits =>
      rw [← ha.watchers]
      refine ⟨_, _, .clear (ha.permits hauths hpermits), ?_, rfl⟩
      refine { ha with watchers := rfl, expiries := rfl, count := rfl, info := ?_ }
      intro w
      simp only [Roster.clear, ha.watchers]
      split_ifs
      · rfl
      · exact ha.info w

theorem Step.eq_of_isQuery
    (h : Step env r call resp evs r') (hquery : call.isQuery = true) :
    r' = r := by
  cases h with
  | query _ => rfl
  | _ => simp [Call.isQuery] at hquery

/-- A call that is made again finds its work done. -/
theorem Step.again
    (h : Step env r call resp evs r') (hcall : call.repeatable = true)
    (h' : Step env' r' call resp' evs' r'') :
    r'.Alike r'' := by
  cases h with
  | query hquery =>
      cases h' with
      | query _ => exact Alike.refl _
      | _ => simp [Call.isQuery] at hquery
  | initialise _ _ =>
      cases h' with
      | query hquery => simp [Call.isQuery] at hquery
      | initialise _ hnone => simp at hnone
  | keepAdmin _ hadmins hmem =>
      cases h' with
      | query hquery => simp [Call.isQuery] at hquery
      | keepAdmin _ _ _ => exact Alike.refl _
      | addAdmin _ hadmins' hnew =>
          obtain rfl := Option.some.inj (hadmins.symm.trans hadmins')
          exact absurd hmem hnew
  | addAdmin _ _ _ =>
      cases h' with
      | query hquery => simp [Call.isQuery] at hquery
      | keepAdmin _ _ _ => exact Alike.refl _
      | addAdmin _ hadmins' hnew =>
          obtain rfl := Option.some.inj hadmins'
          exact absurd (List.mem_append_right _ List.mem_cons_self) hnew
  | removeAdmin _ _ _ =>
      cases h' with
      | query hquery => simp [Call.isQuery] at hquery
      | removeAdmin _ hadmins' _ =>
          obtain rfl := Option.some.inj hadmins'
          refine { Alike.refl _ with admins := ?_ }
          simp [List.filter_filter]
  | transferAdmin _ _ _ =>
      cases h' with
      | query hquery => simp [Call.isQuery] at hquery
      | transferAdmin _ _ _ => exact Alike.refl _
  | keepWatcher _ _ _ => simp [Call.repeatable] at hcall
  | register _ _ _ _ _ => simp [Call.repeatable] at hcall
  | remove _ _ =>
      cases h' with
      | query hquery => simp [Call.isQuery] at hquery
      | remove _ hmem => exact absurd hmem Roster.not_mem_others
  | replace _ _ =>
      cases h' with
      | query hquery => simp [Call.isQuery] at hquery
      | replace _ hmem =>
          obtain rfl := Roster.eq_of_mem_replace hmem
          rw [Roster.replace_self_replace]
          exact (Alike.refl r).replace _ _ rfl
  | batch _ _ _ _ =>
      cases h' with
      | query hquery => simp [Call.isQuery] at hquery
      | batch _ _ _ _ =>
          have hnone := newcomers_append_newcomers r.roster.watchers
          refine { Alike.refl _ with watchers := ?_, count := ?_ }
          · simp [Roster.registerAll, hnone]
          · simp [Roster.registerAll, hnone]
  | renew _ _ =>
      cases h' with
      | query hquery => simp [Call.isQuery] at hquery
      | renew _ _ =>
          refine { Alike.refl _ with expiries := ?_ }
          simp [Roster.renew]
  | setPaused _ _ =>
      cases h' with
      | query hquery => simp [Call.isQuery] at hquery
      | setPaused _ _ => exact Alike.refl _
  | clear _ =>
      cases h' with
      | query hquery => simp [Call.isQuery] at hquery
      | clear _ =>
          refine { Alike.refl _ with
            watchers := rfl, expiries := rfl, count := rfl, info := ?_ }
          intro w
          simp [Roster.clear]

end Steps

end Registry

section Calls

variable {env env' : Env} {s t : State} {call : Call} {resp : Response}

/-- A call that succeeds in one storage does so in an alike one, with the same
answer but for the times in it, and with the same events. -/
theorem ok_of_alike
    (ha : s.view.Alike t.view) (hauths : env'.auths = env.auths)
    (hnow : call.isQuery = true → env'.timestamp = env.timestamp)
    (hok : (invoke env call s).1 = .ok resp) :
    (∃ resp', (invoke env' call t).1 = .ok resp' ∧
        resp'.unstamped = resp.unstamped) ∧
      (invoke env' call t).2.events = (invoke env call s).2.events ∧
      (invoke env call s).2.view.Alike (invoke env' call t).2.view := by
  obtain ⟨resp', t', hstep, ha', hresp⟩ := (step_of_ok hok).alike ha hauths hnow
  obtain ⟨hok', hevents, hview⟩ := invoke_of_step hstep
  exact ⟨⟨resp', hok', hresp⟩, hevents, by rwa [hview]⟩

theorem silent_of_error
    {f : Failure ContractError} (h : (invoke env call s).1 = .error f) :
    (invoke env call s).2.events = [] := by
  rcases transact_cases (dispatch call) env s with
    ⟨resp, s', -, heq⟩ | ⟨f', s', -, heq⟩
  · rw [invoke, heq] at h
    cases h
  · rw [invoke, heq]
    rfl

/-- So a call ends alike in alike storages. -/
theorem endsAlike_of_alike
    (ha : s.view.Alike t.view) (hauths : env'.auths = env.auths)
    (hnow : call.isQuery = true → env'.timestamp = env.timestamp) :
    (invoke env' call t).1.toOption.map Response.unstamped =
        (invoke env call s).1.toOption.map Response.unstamped ∧
      (invoke env' call t).2.events = (invoke env call s).2.events ∧
      (invoke env call s).2.view.Alike (invoke env' call t).2.view := by
  rcases invoke_refines env call s with ⟨resp, hok, -⟩ | ⟨⟨f, hf⟩, hview⟩
  · obtain ⟨⟨resp', hok', hresp⟩, hrest⟩ := ok_of_alike ha hauths hnow hok
    rw [hok, hok']
    exact ⟨congrArg some hresp, hrest⟩
  · rcases invoke_refines env' call t with ⟨resp', hok', -⟩ | ⟨⟨f', hf'⟩, hview'⟩
    · obtain ⟨⟨resp, hok, -⟩, -⟩ := ok_of_alike ha.symm hauths.symm
        (fun hquery => (hnow hquery).symm) hok'
      rw [hf] at hok
      cases hok
    · rw [hf, hf', silent_of_error hf, silent_of_error hf', hview, hview']
      exact ⟨rfl, rfl, ha⟩

theorem view_of_isQuery
    (hquery : call.isQuery = true) (env : Env) (s : State) :
    (invoke env call s).2.view = s.view := by
  rcases invoke_refines env call s with ⟨resp, -, hstep⟩ | ⟨-, hview⟩
  · exact hstep.eq_of_isQuery hquery
  · exact hview

/-- A call that is made again changes nothing but times in the metadata, whether it
succeeded the first time or was refused. -/
theorem alike_again
    (s : State) (hcall : call.repeatable = true) (hauths : env'.auths = env.auths) :
    (invoke env call s).2.view.Alike
      (invoke env' call (invoke env call s).2).2.view := by
  cases hquery : call.isQuery with
  | true =>
      rw [view_of_isQuery hquery env' (invoke env call s).2]
      exact Registry.Alike.refl _
  | false =>
      rcases invoke_refines env call s with ⟨resp, -, hstep⟩ | ⟨⟨f, hf⟩, hview⟩
      · rcases invoke_refines env' call (invoke env call s).2 with
          ⟨resp', -, hstep'⟩ | ⟨-, hview'⟩
        · exact hstep.again hcall hstep'
        · rw [hview']
          exact Registry.Alike.refl _
      · -- refused the first time, it is refused again
        have hsame : s.view.Alike (invoke env call s).2.view := by
          rw [hview]
          exact Registry.Alike.refl _
        exact (endsAlike_of_alike hsame hauths (by simp [hquery])).2.2

end Calls

section Runs

/-- Metadata of the same addresses lapse. -/
theorem Registry.Alike.dropping
    {s t : State} (ha : s.view.Alike t.view) (keys : DataKey → Bool) :
    (State.view (s.silenced.dropping keys)).Alike
      (State.view (t.silenced.dropping keys)) := by
  refine ⟨ha.admins, ha.paused, ha.watchers, ha.expiries, ha.count, ?_⟩
  intro w
  change ((t.persistent.expire keys).get (.watcherInfo w)).map _ =
    ((s.persistent.expire keys).get (.watcherInfo w)).map _
  rw [Store.get_expire, Store.get_expire]
  split_ifs
  · rfl
  · exact ha.info w

theorem alike_exec
    {s t : State} (ha : s.view.Alike t.view) (st : Step) :
    (exec s st).view.Alike (exec t st).view := by
  cases st with
  | expire keys => exact ha.dropping keys
  | call env call => exact (endsAlike_of_alike ha rfl (fun _ => rfl)).2.2

/-- The same call, not of `register_watcher`, in the name of the same addresses. -/
inductive Step.RepeatedBy : Step → Step → Prop
  | retry {env env' : Env} {c : Call} :
      env'.auths = env.auths →
      c.repeatable = true →
      Step.RepeatedBy (.call env c) (.call env' c)

theorem alike_of_repeated
    (s : State) {st st' : Step} (h : st.RepeatedBy st') :
    (exec s st).view.Alike (exec (exec s st) st').view := by
  cases h with
  | retry hauths hcall => exact alike_again s hcall hauths

end Runs

/-- Calls made again and again before the next step, whatever the storage holds and
whatever metadata lapse, leave the registry that is left when each is made once,
but for the times in the metadata.  Every address is authorised at the same
times, and whatever is called next succeeds alike, answers the same but for those
times, and publishes the same events. -/
theorem repeats_absorbed
    (s : State) {sent : List (Step × List Step)}
    (hsent : ∀ d ∈ sent, ∀ st ∈ d.2, d.1.RepeatedBy st) :
    (run exec s (sent.map Prod.fst)).view.Alike
        (run exec s (delivered sent)).view ∧
      (∀ env w, (invoke env (.isWatcherAuthorized w)
          (run exec s (delivered sent))).1 =
        (invoke env (.isWatcherAuthorized w)
          (run exec s (sent.map Prod.fst))).1) ∧
      ∀ env call,
        (invoke env call (run exec s (delivered sent))).1.toOption.map
            Response.unstamped =
          (invoke env call (run exec s (sent.map Prod.fst))).1.toOption.map
            Response.unstamped ∧
        (invoke env call (run exec s (delivered sent))).2.events =
          (invoke env call (run exec s (sent.map Prod.fst))).2.events := by
  have hsame : (run exec s (sent.map Prod.fst)).view.Alike
      (run exec s (delivered sent)).view :=
    run_delivered (P := fun _ => True) (R := fun s t => t.view.Alike s.view)
      (fun _ _ _ => trivial)
      (fun h h' => h'.trans h) (fun _ => Registry.Alike.refl _)
      (fun s t st _ _ h => alike_exec h st)
      (fun s st st' _ hrepeated => alike_of_repeated s hrepeated)
      trivial trivial (Registry.Alike.refl _) hsent
  refine ⟨hsame, ?_, ?_⟩
  · intro env w
    rw [invoke_isWatcherAuthorized, invoke_isWatcherAuthorized]
    simp only [hsame.authorised]
  · intro env call
    obtain ⟨hanswer, hevents, -⟩ :=
      @endsAlike_of_alike env env _ _ call hsame rfl (fun _ => rfl)
    exact ⟨hanswer, hevents⟩

/-- A watcher is enrolled by a batch and replaced by himself, and both calls are
sent twice. -/
theorem rotation_repeated :
    (run exec State.empty
        [.call (signedBy [keeper] 1) (.initialise keeper),
          .call (signedBy [keeper] 2) (.batchRegisterWatchers keeper [sentry]),
          .call (signedBy [keeper] 4)
            (.replaceWatcher keeper sentry sentry)]).view.Alike
      (run exec State.empty
        [.call (signedBy [keeper] 1) (.initialise keeper),
          .call (signedBy [keeper] 2) (.batchRegisterWatchers keeper [sentry]),
          .call (signedBy [keeper] 3) (.batchRegisterWatchers keeper [sentry]),
          .call (signedBy [keeper] 4) (.replaceWatcher keeper sentry sentry),
          .call (signedBy [keeper] 5)
            (.replaceWatcher keeper sentry sentry)]).view := by
  have hsent : ∀ d : Step × List Step, d ∈
      [(.call (signedBy [keeper] 1) (.initialise keeper), []),
        (.call (signedBy [keeper] 2) (.batchRegisterWatchers keeper [sentry]),
          [.call (signedBy [keeper] 3) (.batchRegisterWatchers keeper [sentry])]),
        (.call (signedBy [keeper] 4) (.replaceWatcher keeper sentry sentry),
          [.call (signedBy [keeper] 5) (.replaceWatcher keeper sentry sentry)])] →
      ∀ st ∈ d.2, d.1.RepeatedBy st := by
    simp only [List.forall_mem_cons]
    exact ⟨by simp, ⟨.retry rfl rfl, by simp⟩, ⟨.retry rfl rfl, by simp⟩, by simp⟩
  exact (repeats_absorbed State.empty hsent).1

end WatcherRegistry
end TxWatch
