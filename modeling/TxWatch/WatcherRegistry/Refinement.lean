import TxWatch.WatcherRegistry.Answers
import TxWatch.Soroban.Atomicity

/-!
# The contract refines the watcher registry

Every call that returns makes a step of the registry, with the same response and
the same events.  A call that fails changes nothing.
-/

namespace TxWatch
namespace WatcherRegistry

open Soroban Soroban.Contract

section Steps

variable {env : Env} {s s' : State} {call : Call} {resp : Response}

/-- Whoever passes the shared checks finds an admin set. -/
theorem Registry.Permits.admins
    {r : Registry} {admin : Address} (h : r.Permits env admin) :
    ∃ admins, r.admins = some admins := by
  obtain ⟨admins, hadmins, -⟩ := h.isAdmin
  exact ⟨admins, hadmins⟩

/-- A call that returns makes a step of the registry. -/
theorem step_of_returns
    (h : (dispatch call).Returns env s.silenced resp s') :
    Registry.Step env s.view call resp s'.events s'.view := by
  cases hquery : call.isQuery with
  | true =>
      obtain ⟨hanswer, rfl⟩ := (returns_query_iff hquery).mp h
      rw [events_queried, view_queried]
      exact .query hquery hanswer
  | false =>
  cases call with
  | initialise admin =>
      simp only [dispatch, returns_done, returns_initialise] at h
      obtain ⟨⟨hauth, hnone, rfl⟩, rfl⟩ := h
      exact .initialise hauth hnone
  | addAdmin caller newAdmin =>
      simp only [dispatch, returns_done, returns_addAdmin] at h
      obtain ⟨⟨hpermits, h⟩, rfl⟩ := h
      rw [view_silenced] at hpermits h
      obtain ⟨admins, hadmins⟩ := hpermits.admins
      rw [hadmins, Option.getD_some] at h
      rcases h with ⟨hmem, rfl⟩ | ⟨hmem, rfl⟩
      · exact .keepAdmin hpermits hadmins hmem
      · exact .addAdmin hpermits hadmins hmem
  | removeAdmin caller target =>
      simp only [dispatch, returns_done, returns_removeAdmin] at h
      obtain ⟨⟨hpermits, hlen, rfl⟩, rfl⟩ := h
      rw [view_adminRemoved, events_adminRemoved, view_silenced]
      rw [view_silenced] at hpermits hlen
      obtain ⟨admins, hadmins⟩ := hpermits.admins
      rw [hadmins, Option.getD_some] at hlen ⊢
      exact .removeAdmin hpermits hadmins hlen
  | transferAdmin admin newAdmin =>
      simp only [dispatch, returns_done, returns_transferAdmin] at h
      obtain ⟨⟨hpermits, hlen, rfl⟩, rfl⟩ := h
      rw [view_silenced] at hpermits hlen
      obtain ⟨admins, hadmins⟩ := hpermits.admins
      rw [hadmins, Option.getD_some] at hlen
      exact .transferAdmin hpermits hadmins hlen
  | registerWatcher admin w expiresAt label =>
      simp only [dispatch, returns_done, returns_registerWatcher] at h
      obtain ⟨⟨hpermits, hlabel, h⟩, rfl⟩ := h
      rcases h with ⟨hinfo, rfl⟩ | ⟨hinfo, hroom, hcount, rfl⟩
      · exact .keepWatcher hpermits hlabel hinfo
      · exact .register hpermits hlabel hinfo hroom hcount
  | removeWatcher admin w =>
      simp only [dispatch, returns_done, returns_removeWatcher] at h
      obtain ⟨⟨hpermits, hmem, rfl⟩, rfl⟩ := h
      rw [view_removed, events_removed]
      exact .remove hpermits hmem
  | replaceWatcher admin old new =>
      simp only [dispatch, returns_done, returns_replaceWatcher] at h
      obtain ⟨⟨hpermits, hmem, rfl⟩, rfl⟩ := h
      rw [view_replaced, events_replaced]
      exact .replace hpermits hmem
  | batchRegisterWatchers admin ws =>
      simp only [dispatch, returns_respond, returns_batchRegisterWatchers] at h
      obtain ⟨n, ⟨hpermits, hsize, hroom, hcount, rfl, rfl⟩, rfl⟩ := h
      rw [view_enrolled, events_enrolled]
      exact .batch hpermits hsize hroom hcount
  | renewWatcher admin w newExpiry =>
      simp only [dispatch, returns_done, returns_renewWatcher] at h
      obtain ⟨⟨hpermits, hmem, rfl⟩, rfl⟩ := h
      exact .renew hpermits hmem
  | setPaused admin paused =>
      simp only [dispatch, returns_done, returns_setPaused] at h
      obtain ⟨⟨hauth, hadmin, rfl⟩, rfl⟩ := h
      exact .setPaused hauth hadmin
  | clearAllWatchers admin =>
      simp only [dispatch, returns_done, returns_clearAllWatchers] at h
      obtain ⟨⟨hpermits, rfl⟩, rfl⟩ := h
      rw [view_emptied, events_emptied]
      exact .clear hpermits
  | _ => simp [Call.isQuery] at hquery

/-- What a call does to the registry: a step when it succeeds, nothing when it
fails. -/
theorem invoke_refines (env : Env) (call : Call) (s : State) :
    (∃ resp, (invoke env call s).1 = .ok resp ∧
        Registry.Step env s.view call resp (invoke env call s).2.events
          (invoke env call s).2.view) ∨
      ((∃ f, (invoke env call s).1 = .error f) ∧
        (invoke env call s).2.view = s.view) := by
  rcases transact_cases (dispatch call) env s with
    ⟨resp, s', h, heq⟩ | ⟨f, s', -, heq⟩
  · left
    rw [invoke, heq]
    exact ⟨resp, rfl, step_of_returns h⟩
  · right
    rw [invoke, heq]
    exact ⟨⟨f, rfl⟩, rfl⟩

/-- What the steps of the registry preserve, whatever becomes of the metadata,
the contract preserves. -/
theorem exec_preserves
    {P : Registry → Prop}
    (hstep : ∀ {env r call resp evs r'},
      Registry.Step env r call resp evs r' → P r → P r')
    (hinfo : ∀ r info, P r →
      P { r with roster := { r.roster with info := info } })
    (s : State) (st : Step) (hs : P s.view) :
    P (exec s st).view := by
  cases st with
  | expire keys =>
      exact hinfo s.view
        (fun a => (s.silenced.dropping keys).persistent.get (.watcherInfo a)) hs
  | call env call =>
      rcases invoke_refines env call s with ⟨resp, -, h⟩ | ⟨-, hview⟩
      · exact hstep h hs
      · rw [exec_call, hview]
        exact hs

/-- The induction rule for runs from empty storage. -/
theorem run_induction
    {P : Registry → Prop} (hempty : P State.empty.view)
    (hstep : ∀ {env r call resp evs r'},
      Registry.Step env r call resp evs r' → P r → P r')
    (hinfo : ∀ r info, P r →
      P { r with roster := { r.roster with info := info } })
    (steps : List Step) :
    P (run exec State.empty steps).view := by
  exact run_preserves (C := fun _ _ => True)
    (fun s st _ hs => exec_preserves hstep hinfo s st hs) hempty
    (along_of_forall_mem _ _ fun _ _ => trivial)

/-- The answer about a watcher. -/
theorem invoke_isWatcherAuthorized (w : Address) :
    invoke env (.isWatcherAuthorized w) s =
      (.ok (.bool (decide (s.view.roster.Authorised env.timestamp w))),
        s.silenced.extendInst env.sequence defaultTtl defaultTtl) := by
  apply transact_of_returns
  simp only [dispatch, returns_respond, returns_isWatcherAuthorized,
    view_silenced]
  exact ⟨_, ⟨rfl, trivial⟩, rfl⟩

end Steps

section Samples

/-! A few addresses and an environment for concrete runs. -/

/-- The admin of the sample runs. -/
def keeper : Address := ⟨21⟩

/-- A watcher. -/
def sentry : Address := ⟨22⟩

/-- Another watcher. -/
def scout : Address := ⟨23⟩

/-- A call at a ledger, signed by some addresses. -/
def signedBy (auths : List Address) (ledger : Nat) : Env where
  auths := auths
  timestamp := 5 * ledger
  sequence := ledger
  peer := fun _ _ => none

end Samples

end WatcherRegistry
end TxWatch
