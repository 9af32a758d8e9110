import TxWatch.AlertRegistry.Records
import TxWatch.AlertRegistry.Readings
import TxWatch.Soroban.History

/-!
# Rotation of webhooks over whole histories

The calls that have succeeded, the latest first, determine both hashes of a live
alert: the live hash is the one that the last of them installed, and a hash is
pending exactly when it has been proposed since the last confirmation.  Nothing
else that happens to the alert in between loses or alters either.
-/

namespace TxWatch
namespace AlertRegistry

open Soroban Soroban.Contract Indexed

/-- A call that has succeeded, with its answer. -/
structure Completed where
  call : Call
  resp : Response

/-- What a step completes. -/
def completedIn (s : State) : Step → List Completed
  | .call env call =>
      match (invoke env call s).1 with
      | .ok resp => [⟨call, resp⟩]
      | .error _ => []
  | .expire _ => []

namespace Completed

/-- The hash with which a call registers an alert. -/
def registers (id : Nat) : Completed → Option HostString
  | ⟨.registerAlert _ _ _ webhookHash _ _, .number first⟩ =>
      if first = id then some webhookHash else none
  | ⟨.batchRegisterAlerts _ inputs, .numbers ids⟩ =>
      ((ids.zip inputs).lookup id).map (fun input => input.webhookHash)
  | _ => none

/-- The hash that a call proposes for an alert. -/
def proposes (id : Nat) : Completed → Option HostString
  | ⟨.proposeWebhook _ configId newWebhookHash, _⟩ =>
      if configId = id then some newWebhookHash else none
  | _ => none

/-- The hash to which a call updates an alert. -/
def updates (id : Nat) : Completed → Option HostString
  | ⟨.updateWebhook _ configId webhookHash, _⟩ =>
      if configId = id then some webhookHash else none
  | _ => none

/-- The call confirms a proposal for an alert. -/
def confirms (id : Nat) : Completed → Bool
  | ⟨.confirmWebhook _ configId, _⟩ => configId = id
  | _ => false

end Completed

/-- The hash proposed last for an alert. -/
def lastProposed (id : Nat) (past : List Completed) : Option HostString :=
  past.findSome? (fun c => c.proposes id)

/-- The hash proposed last for an alert since the last confirmation. -/
def outstanding (id : Nat) (past : List Completed) : Option HostString :=
  lastProposed id (past.takeWhile (fun c => !c.confirms id))

/-- The hash installed last: by the registration of the alert, an update or a
confirmation, which installs the hash proposed last before it. -/
def installed (id : Nat) : List Completed → Option HostString
  | [] => none
  | c :: past =>
      if c.confirms id then lastProposed id past
      else ((c.registers id).or (c.updates id)).or (installed id past)

/-- The calls that succeed along a run, the latest first. -/
def completed (s : State) (steps : List Step) : List Completed :=
  history exec completedIn s steps

section Histories

variable {id : Nat} {c : Completed} {past : List Completed}

theorem outstanding_cons_of_confirms
    (h : c.confirms id = true) :
    outstanding id (c :: past) = none := by
  simp [outstanding, lastProposed, h]

theorem outstanding_cons
    (h : c.confirms id = false) :
    outstanding id (c :: past) = (c.proposes id).or (outstanding id past) := by
  cases hproposes : c.proposes id <;>
    simp [outstanding, lastProposed, h, hproposes]

theorem lastProposed_of_outstanding
    {webhookHash : HostString} (h : outstanding id past = some webhookHash) :
    lastProposed id past = some webhookHash := by
  exact findSome?_of_takeWhile h

theorem installed_cons
    (h : c.confirms id = false) :
    installed id (c :: past) =
      ((c.registers id).or (c.updates id)).or (installed id past) := by
  rw [installed, h]
  simp

end Histories

section Calls

variable {env : Env} {r r' : Registry} {call : Call} {resp : Response}
  {evs : List Event} {id : Nat}

/-- A call that does not return an id has not registered it. -/
theorem registers_of_not_issued
    (hissued : id ∉ issuedBy call (.ok resp)) :
    Completed.registers id ⟨call, resp⟩ = none := by
  cases call with
  | registerAlert _ _ _ _ _ _ =>
      cases resp with
      | number first =>
          have hne : first ≠ id := by
            rintro rfl
            exact hissued List.mem_cons_self
          simp [Completed.registers, hne]
      | _ => rfl
  | batchRegisterAlerts _ inputs =>
      cases resp with
      | numbers ids =>
          have hnone : (ids.zip inputs).lookup id = none := by
            rw [List.lookup_eq_none_iff]
            intro entry hentry
            have hmem : entry.1 ∈ ids := (List.of_mem_zip hentry).1
            rw [bne_iff_ne]
            rintro rfl
            exact hissued hmem
          simp [Completed.registers, hnone]
      | _ => rfl
  | _ => rfl

/-- A call that does not amend an alert leaves its hashes alone. -/
theorem silent_of_not_amends
    (hamend : ∀ caller, call.amends ≠ some (caller, id)) (resp : Response) :
    Completed.proposes id ⟨call, resp⟩ = none ∧
      Completed.updates id ⟨call, resp⟩ = none ∧
      Completed.confirms id ⟨call, resp⟩ = false := by
  cases call with
  | proposeWebhook caller configId _ | updateWebhook caller configId _
  | confirmWebhook caller configId =>
      have hne : configId ≠ id := by
        rintro rfl
        exact hamend caller rfl
      simp [Completed.proposes, Completed.updates, Completed.confirms, hne]
  | _ => exact ⟨rfl, rfl, rfl⟩

/-- What a call that is no confirmation makes of the hashes of a record. -/
theorem Registry.Edits.hashes
    {cfg cfg' : AlertConfig}
    (h : Registry.Edits env call id cfg cfg')
    (hconfirm : Completed.confirms id ⟨call, resp⟩ = false) :
    cfg'.webhookHash =
        (Completed.updates id ⟨call, resp⟩).getD cfg.webhookHash ∧
      cfg'.pendingWebhookHash =
        (Completed.proposes id ⟨call, resp⟩).or cfg.pendingWebhookHash := by
  have hquiet : (∀ caller, call.amends ≠ some (caller, id)) →
      Completed.updates id ⟨call, resp⟩ = none ∧
        Completed.proposes id ⟨call, resp⟩ = none := by
    intro hamend
    have hsilent := silent_of_not_amends hamend resp
    exact ⟨hsilent.2.1, hsilent.1⟩
  cases h with
  | keep hamend => simp [hquiet hamend]
  | switch _ hnone => simp [hquiet (by simp [hnone])]
  | retarget _ hnone => simp [hquiet (by simp [hnone])]
  | reown _ hnone => simp [hquiet (by simp [hnone])]
  | @amend caller _ hamend _ _ _ hcfg =>
      cases call with
      | updateAlert _ _ _ _ | updateLabel _ _ _ | updateTags _ _ _ =>
          obtain rfl := Option.some.inj hcfg
          simp [Completed.updates, Completed.proposes]
      | updateWebhook _ configId _ =>
          obtain rfl := Option.some.inj hcfg
          obtain rfl := (Prod.mk.inj (Option.some.inj hamend)).2
          simp [Completed.updates, Completed.proposes]
      | proposeWebhook _ configId _ =>
          obtain rfl := Option.some.inj hcfg
          obtain rfl := (Prod.mk.inj (Option.some.inj hamend)).2
          simp [Completed.updates, Completed.proposes]
      | confirmWebhook _ configId =>
          obtain rfl := (Prod.mk.inj (Option.some.inj hamend)).2
          simp [Completed.confirms] at hconfirm
      | _ => exact absurd hamend (by simp [Call.amends])

/-- A confirmation installs the pending hash and leaves none. -/
theorem Registry.Edits.hashes_of_confirms
    {cfg cfg' : AlertConfig}
    (h : Registry.Edits env call id cfg cfg')
    (hconfirm : Completed.confirms id ⟨call, resp⟩ = true) :
    cfg.pendingWebhookHash = some cfg'.webhookHash ∧
      cfg'.pendingWebhookHash = none := by
  cases call with
  | confirmWebhook caller configId =>
      obtain rfl : configId = id := of_decide_eq_true hconfirm
      cases h with
      | keep hamend => exact absurd rfl (hamend caller)
      | switch _ hnone => exact absurd hnone (by simp [Call.amends])
      | retarget _ hnone => exact absurd hnone (by simp [Call.amends])
      | reown _ hnone => exact absurd hnone (by simp [Call.amends])
      | amend _ _ _ _ hcfg =>
          obtain ⟨pending, hpending, rfl⟩ := Option.map_eq_some_iff.mp hcfg
          exact ⟨hpending, rfl⟩
  | _ => exact absurd hconfirm (by simp [Completed.confirms])

/-- Ids numbered from `first` on lead to the inputs in their order. -/
theorem lookup_zip_range'
    {inputs : List AlertInput} {input : AlertInput} {first i : Nat}
    (h : inputs[i]? = some input) :
    ((List.range' first inputs.length).zip inputs).lookup (first + i) =
      some input := by
  induction inputs generalizing first i with
  | nil => simp at h
  | cons next rest ih =>
      rw [List.length_cons, List.range'_succ, List.zip_cons_cons, List.lookup_cons]
      cases i with
      | zero => simpa using h
      | succ i =>
          have hne : (first + (i + 1) == first) = false := by
            simp
          rw [hne]
          have hrest := @ih (first + 1) i (by simpa using h)
          rw [show first + 1 + i = first + (i + 1) by omega] at hrest
          exact hrest

/-- A registration installs the hash of the record it adds, with none pending. -/
theorem registers_of_enrols
    {now first i : Nat} {owner : Address} {cfgs : List AlertConfig}
    {cfg : AlertConfig} (h : call.enrols now = some (owner, cfgs))
    (hget : cfgs[i]? = some cfg) :
    Completed.registers (first + i) ⟨call, call.receipt first cfgs.length⟩ =
        some cfg.webhookHash ∧
      cfg.pendingWebhookHash = none := by
  cases call with
  | registerAlert _ _ _ webhookHash _ _ =>
      simp only [Call.enrols, Option.some.injEq, Prod.mk.injEq] at h
      obtain ⟨-, rfl⟩ := h
      cases i with
      | zero =>
          obtain rfl := Option.some.inj hget
          simp [Completed.registers, Call.receipt]
      | succ i => simp at hget
  | batchRegisterAlerts caller inputs =>
      simp only [Call.enrols, Option.some.injEq, Prod.mk.injEq] at h
      obtain ⟨-, rfl⟩ := h
      rw [List.getElem?_map] at hget
      obtain ⟨input, hinput, rfl⟩ := Option.map_eq_some_iff.mp hget
      refine ⟨?_, rfl⟩
      have hlookup := @lookup_zip_range' inputs input first i hinput
      simp [Completed.registers, Call.receipt, hlookup, AlertInput.toConfig]
  | _ => simp [Call.enrols] at h

/-- What a call of an owner that succeeds does. -/
theorem Registry.Step.of_amends
    (h : Registry.Step env r call resp evs r') {caller : Address}
    (hamend : call.amends = some (caller, id)) :
    ∃ cfg cfg', r.table.row id = some cfg ∧
      call.amended env.timestamp cfg = some cfg' ∧
      r'.table.row = Function.update r.table.row id (some cfg') := by
  cases h with
  | query hquery => simp [Call.amends_of_isQuery hquery] at hamend
  | administer hadm _ _ _ _ _ =>
      simp [Call.amends_of_administers hadm] at hamend
  | enrol henrol _ _ _ _ _ => simp [Call.amends_of_enrols henrol] at hamend
  | activate hact _ _ _ => simp [Call.amends_of_activates hact] at hamend
  | amend hamend' _ _ _ hrow _ hcfg =>
      obtain ⟨rfl, rfl⟩ := Prod.mk.inj (Option.some.inj (hamend'.symm.trans hamend))
      exact ⟨_, _, hrow, hcfg, Registry.row_rewrite_flag ..⟩
  | _ => simp [Call.amends] at hamend

end Calls

section Runs

/-- The history tells both hashes of every live alert, and nothing is pending
under an id still to be issued. -/
structure Recalled (past : List Completed) (s : State) : Prop where
  safe : s.view.Safe
  hashes : ∀ id cfg, s.alertAt id = some cfg →
    installed id past = some cfg.webhookHash ∧
      outstanding id past = cfg.pendingWebhookHash
  unissued : ∀ id, s.counter ≤ id → outstanding id past = none

variable {past : List Completed} {s : State}

theorem recalled_empty : Recalled [] State.empty := by
  refine ⟨safe_empty, ?_, fun _ _ => rfl⟩
  intro id cfg hlive
  exact absurd hlive (by simp [State.alertAt, State.empty])

theorem completedIn_of_ok
    {env : Env} {call : Call} {resp : Response}
    (h : (invoke env call s).1 = .ok resp) :
    completedIn s (.call env call) = [⟨call, resp⟩] := by
  rw [completedIn, h]

theorem completedIn_of_error
    {env : Env} {call : Call} {f : Failure ContractError}
    (h : (invoke env call s).1 = .error f) :
    completedIn s (.call env call) = [] := by
  rw [completedIn, h]

/-- The hashes of an alert that was there before the call. -/
theorem Recalled.edited
    (h : Recalled past s) {env : Env} {id : Nat} {call : Call} {resp : Response}
    {cfg cfg' : AlertConfig} (hlive : s.alertAt id = some cfg)
    (hedit : Registry.Edits env call id cfg cfg')
    (hissued : id ∉ issuedBy call (.ok resp)) :
    installed id (⟨call, resp⟩ :: past) = some cfg'.webhookHash ∧
      outstanding id (⟨call, resp⟩ :: past) = cfg'.pendingWebhookHash := by
  obtain ⟨hinstalled, houtstanding⟩ := h.hashes id cfg hlive
  cases hconfirm : Completed.confirms id ⟨call, resp⟩ with
  | true =>
      obtain ⟨hpending, hnone⟩ := hedit.hashes_of_confirms hconfirm
      rw [hpending] at houtstanding
      refine ⟨?_, ?_⟩
      · rw [installed, if_pos hconfirm]
        exact lastProposed_of_outstanding houtstanding
      · rw [outstanding_cons_of_confirms hconfirm, hnone]
  | false =>
      obtain ⟨hhash, hpending⟩ := hedit.hashes hconfirm
      refine ⟨?_, ?_⟩
      · rw [installed_cons hconfirm, registers_of_not_issued hissued, hinstalled,
          hhash, Option.none_or]
        cases Completed.updates id ⟨call, resp⟩ <;> rfl
      · rw [outstanding_cons hconfirm, houtstanding, hpending]

/-- The hashes of an alert that the call has registered. -/
theorem Recalled.enrolled
    (h : Recalled past s) {now id : Nat} {call : Call} {owner : Address}
    {cfgs : List AlertConfig} {cfg : AlertConfig} (hid : s.counter ≤ id)
    (henrol : call.enrols now = some (owner, cfgs))
    (hget : cfgs[id - s.counter]? = some cfg) :
    installed id (⟨call, call.receipt s.counter cfgs.length⟩ :: past) =
        some cfg.webhookHash ∧
      outstanding id (⟨call, call.receipt s.counter cfgs.length⟩ :: past) =
        cfg.pendingWebhookHash := by
  have hnone := Call.amends_of_enrols henrol
  obtain ⟨hproposes, -, hconfirm⟩ := @silent_of_not_amends call id
    (by simp [hnone]) (call.receipt s.counter cfgs.length)
  obtain ⟨hregisters, hpending⟩ :=
    @registers_of_enrols call now s.counter _ _ _ _ henrol hget
  rw [Nat.add_sub_cancel' hid] at hregisters
  refine ⟨?_, ?_⟩
  · rw [installed_cons hconfirm, hregisters, Option.some_or, Option.some_or]
  · rw [outstanding_cons hconfirm, hproposes, h.unissued id hid, hpending]
    rfl

theorem recalled_exec (h : Recalled past s) (st : Step) :
    Recalled (completedIn s st ++ past) (exec s st) := by
  have hunissued : ∀ id, (exec s st).counter ≤ id → s.counter ≤ id := by
    intro id hid
    exact (counter_le_exec s st).trans hid
  cases st with
  | expire keys =>
      refine ⟨safe_exec s _ h.safe, ?_, fun id hid => h.unissued id (hunissued id hid)⟩
      intro id cfg hlive
      exact h.hashes id cfg ((remnant_dropping s.silenced keys).row id cfg hlive)
  | call env call =>
      rcases invoke_refines env call s with
        ⟨resp, hok, hstep⟩ | ⟨⟨f, herror⟩, hview⟩
      · rw [completedIn_of_ok hok, List.singleton_append]
        refine ⟨safe_exec s _ h.safe, ?_, ?_⟩
        · intro id cfg hlive
          rcases hstep.row hlive with
            ⟨old, hold, hedit⟩ | ⟨hid, owner, cfgs, henrol, -, rfl, hget⟩
          · refine h.edited hold hedit ?_
            have hlt : id < s.counter := h.safe.within.row id (by simp [hold])
            intro hissued
            rw [hstep.issuedBy_eq, List.mem_range'_1] at hissued
            exact absurd hlt (Nat.not_lt.mpr hissued.1)
          · exact h.enrolled hid henrol hget
        · intro id hid
          -- Nobody can propose a hash for an alert that does not exist yet.
          have hamend : ∀ caller, call.amends ≠ some (caller, id) := by
            intro caller hamend
            obtain ⟨cfg, -, hrow, -⟩ := hstep.of_amends hamend
            have hlt : id < s.counter := h.safe.within.row id (by simp [hrow])
            exact absurd hlt (Nat.not_lt.mpr (hunissued id hid))
          obtain ⟨hproposes, -, hconfirm⟩ := silent_of_not_amends hamend resp
          rw [outstanding_cons hconfirm, hproposes,
            h.unissued id (hunissued id hid)]
          rfl
      · rw [completedIn_of_error herror, List.nil_append]
        refine ⟨safe_exec s _ h.safe, ?_, fun id hid => h.unissued id (hunissued id hid)⟩
        intro id cfg hlive
        have hsame := congrArg (fun r => r.table.row id) hview
        exact h.hashes id cfg (hsame.symm.trans hlive)

theorem recalled_run (steps : List Step) :
    Recalled (completed State.empty steps) (run exec State.empty steps) := by
  have h := @history_preserves _ _ _ exec completedIn (fun _ _ => True) Recalled
    (fun past s st _ h => recalled_exec h st) [] State.empty steps recalled_empty
    (along_of_forall_mem _ _ fun _ _ => trivial)
  rw [List.append_nil] at h
  exact h

/-- A confirmation succeeds only on a proposal made since the last one. -/
theorem Recalled.outstanding_of_confirm
    (h : Recalled past s) {env : Env} {caller : Address} {id : Nat}
    {resp : Response}
    (hok : (invoke env (.confirmWebhook caller id) s).1 = .ok resp) :
    ∃ webhookHash, outstanding id past = some webhookHash := by
  rcases invoke_refines env (.confirmWebhook caller id) s with
    ⟨resp', -, hstep⟩ | ⟨⟨f, herror⟩, -⟩
  · obtain ⟨cfg, cfg', hrow, hcfg, -⟩ := hstep.of_amends rfl
    obtain ⟨pending, hpending, -⟩ := Option.map_eq_some_iff.mp hcfg
    rw [(h.hashes id cfg hrow).2, hpending]
    exact ⟨pending, rfl⟩
  · rw [herror] at hok
    cases hok

/-- A proposal changes no live hash. -/
theorem webhookHash_of_propose
    (s : State) (env : Env) (caller : Address) (configId : Nat)
    (newWebhookHash : HostString) (id : Nat) :
    (State.alertAt (invoke env (.proposeWebhook caller configId newWebhookHash)
      s).2 id).map (fun cfg => cfg.webhookHash) =
      (s.alertAt id).map (fun cfg => cfg.webhookHash) := by
  rcases invoke_refines env (.proposeWebhook caller configId newWebhookHash) s with
    ⟨resp, -, hstep⟩ | ⟨-, hview⟩
  · obtain ⟨cfg, cfg', hrow, hcfg, hrows⟩ := hstep.of_amends rfl
    have hid := congrFun hrows id
    obtain rfl := Option.some.inj hcfg
    by_cases hne : id = configId
    · subst hne
      rw [Function.update_self] at hid
      have hbefore : s.alertAt id = some cfg := hrow
      have hhash := congrArg
        (Option.map (fun cfg : AlertConfig => cfg.webhookHash)) hid
      rw [hbefore]
      exact hhash
    · rw [Function.update_of_ne hne] at hid
      exact congrArg (Option.map _) hid
  · have hid := congrArg (fun r => r.table.row id) hview
    exact congrArg (Option.map _) hid

/-- What a step leaves of the hashes of an alert that stays. -/
theorem hashes_exec
    (hs : s.view.Safe) (st : Step) {id : Nat} {cfg cfg' : AlertConfig}
    (hbefore : s.alertAt id = some cfg) (hafter : (exec s st).alertAt id = some cfg') :
    (cfg'.webhookHash = cfg.webhookHash ∨
      ∃ c ∈ completedIn s st, (c.updates id).isSome ∨ c.confirms id) ∧
    (cfg'.pendingWebhookHash = cfg.pendingWebhookHash ∨
      ∃ c ∈ completedIn s st, (c.proposes id).isSome ∨ c.confirms id) := by
  cases st with
  | expire keys =>
      have hkept := (remnant_dropping s.silenced keys).row id cfg' hafter
      obtain rfl := Option.some.inj (hbefore.symm.trans hkept)
      exact ⟨Or.inl rfl, Or.inl rfl⟩
  | call env call =>
      rcases invoke_refines env call s with ⟨resp, hok, hstep⟩ | ⟨-, hview⟩
      · rw [completedIn_of_ok hok]
        simp only [List.mem_singleton, exists_eq_left]
        rcases hstep.row hafter with ⟨old, hold, hedit⟩ | ⟨hle, -⟩
        · obtain rfl := Option.some.inj (hbefore.symm.trans hold)
          cases hconfirm : Completed.confirms id ⟨call, resp⟩ with
          | true => exact ⟨Or.inr (Or.inr rfl), Or.inr (Or.inr rfl)⟩
          | false =>
              obtain ⟨hhash, hpending⟩ := hedit.hashes hconfirm
              constructor
              · cases hupdates : Completed.updates id ⟨call, resp⟩ with
                | none => exact Or.inl (by rw [hhash, hupdates, Option.getD_none])
                | some _ => exact Or.inr (Or.inl rfl)
              · cases hproposes : Completed.proposes id ⟨call, resp⟩ with
                | none => exact Or.inl (by rw [hpending, hproposes, Option.none_or])
                | some _ => exact Or.inr (Or.inl rfl)
        · have hlt : id < s.view.nextId :=
            hs.within.row id (Option.isSome_iff_exists.mpr ⟨cfg, hbefore⟩)
          exact absurd hlt (Nat.not_lt.mpr hle)
      · have hsame := congrArg (fun r => r.table.row id) hview
        have hkept : s.alertAt id = some cfg' := hsame.symm.trans hafter
        obtain rfl := Option.some.inj (hbefore.symm.trans hkept)
        exact ⟨Or.inl rfl, Or.inl rfl⟩

/-- After any run, whatever has expired: the hash of a live alert is the one
installed last, the pending one is the one proposed since the last confirmation,
a confirmation succeeds only if there is one, a proposal changes no hash that is
live, and no further step changes either hash but an update, a proposal or a
confirmation for the alert that succeeds. -/
theorem webhook_rotation
    (steps : List Step) (id : Nat) :
    (∀ cfg, (run exec State.empty steps).alertAt id = some cfg →
      installed id (completed State.empty steps) = some cfg.webhookHash ∧
        outstanding id (completed State.empty steps) =
          cfg.pendingWebhookHash) ∧
    (∀ env caller resp,
      (invoke env (.confirmWebhook caller id)
        (run exec State.empty steps)).1 = .ok resp →
      ∃ webhookHash,
        outstanding id (completed State.empty steps) = some webhookHash) ∧
    (∀ env caller configId newWebhookHash,
      (State.alertAt (invoke env (.proposeWebhook caller configId newWebhookHash)
        (run exec State.empty steps)).2 id).map (fun cfg => cfg.webhookHash) =
      ((run exec State.empty steps).alertAt id).map
        (fun cfg => cfg.webhookHash)) ∧
    ∀ st cfg cfg', (run exec State.empty steps).alertAt id = some cfg →
      (exec (run exec State.empty steps) st).alertAt id = some cfg' →
      (cfg'.webhookHash = cfg.webhookHash ∨
        ∃ c ∈ completedIn (run exec State.empty steps) st,
          (c.updates id).isSome ∨ c.confirms id) ∧
      (cfg'.pendingWebhookHash = cfg.pendingWebhookHash ∨
        ∃ c ∈ completedIn (run exec State.empty steps) st,
          (c.proposes id).isSome ∨ c.confirms id) := by
  have hrecalled := recalled_run steps
  refine ⟨hrecalled.hashes id, ?_, ?_, ?_⟩
  · intro env caller resp hok
    exact hrecalled.outstanding_of_confirm hok
  · intro env caller configId newWebhookHash
    exact webhookHash_of_propose _ env caller configId newWebhookHash id
  · intro st cfg cfg' hbefore hafter
    exact hashes_exec hrecalled.safe st hbefore hafter

/-- Another hash of the required length. -/
def nextHash : HostString := ⟨List.replicate 64 49⟩

/-- A hash proposed by one owner and confirmed by the next. -/
def rotationRun : List Step :=
  [.call (envAt 1 [alice]) (sampleRegister alice pool),
    .call (envAt 2 [alice]) (.proposeWebhook alice 0 nextHash),
    .call (envAt 3 [alice]) (.transferAlertOwnership alice 0 bob),
    .call (envAt 4 [bob]) (.confirmWebhook bob 0)]

theorem webhook_rotation_rotationRun :
    installed 0 (completed State.empty rotationRun) = some nextHash ∧
      ∃ webhookHash,
        outstanding 0 (completed State.empty (rotationRun.take 3)) =
          some webhookHash := by
  have hafter := webhook_rotation rotationRun 0
  have hbefore := webhook_rotation (rotationRun.take 3) 0
  refine ⟨(hafter.1
    { sampleAlert bob pool 1 with webhookHash := nextHash, updatedAt := 20 } ?_).1,
    hbefore.2.1 (envAt 4 [bob]) bob .unit ?_⟩
  · rfl
  · rfl

end Runs

end AlertRegistry
end TxWatch
