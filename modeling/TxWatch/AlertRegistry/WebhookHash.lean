import TxWatch.AlertRegistry.Records

/-!
# The length of webhook hashes

Registration and `update_webhook` accept only hashes of 64 bytes.
`propose_webhook` accepts any, and `confirm_webhook` makes it the live one.  A
run keeps all hashes at 64 bytes exactly if it contains no accepted proposal of
another length.
-/

namespace TxWatch
namespace AlertRegistry

open Soroban Soroban.Contract Indexed

/-- The live hash has 64 bytes, and so has a pending one. -/
def AlertConfig.HashesValid (cfg : AlertConfig) : Prop :=
  cfg.webhookHash.len = 64 ∧
    ∀ pending, cfg.pendingWebhookHash = some pending → pending.len = 64

/-- The hashes of all live alerts have 64 bytes. -/
def State.HashesValid (s : State) : Prop :=
  ∀ id cfg, s.persistent.get (.alert id) = some cfg → cfg.HashesValid

/-- The step is a `propose_webhook` by the authorised owner of a live alert,
for a hash that does not have 64 bytes. -/
def Step.ProposesBadHash (s : State) : Step → Prop
  | .call env (.proposeWebhook caller id newWebhookHash) =>
      caller ∈ env.auths ∧
        (∃ cfg, s.persistent.get (.alert id) = some cfg ∧
          cfg.owner = caller) ∧
        newWebhookHash.len ≠ 64
  | _ => False

/-- Records of registrations have valid hashes. -/
theorem enrols_hashesValid
    {call : Call} {now : Nat} {owner : Address} {cfgs : List AlertConfig}
    (h : call.enrols now = some (owner, cfgs)) (hok : call.Checked) :
    ∀ cfg ∈ cfgs, cfg.HashesValid := by
  cases call with
  | registerAlert _ _ _ _ _ _ =>
      simp only [Call.enrols, Option.some.injEq, Prod.mk.injEq] at h
      obtain ⟨-, rfl⟩ := h
      intro cfg hcfg
      rw [List.mem_singleton] at hcfg
      subst hcfg
      exact ⟨hok.1, by simp⟩
  | batchRegisterAlerts caller inputs =>
      simp only [Call.enrols, Option.some.injEq, Prod.mk.injEq] at h
      obtain ⟨-, rfl⟩ := h
      intro cfg hcfg
      obtain ⟨input, hinput, rfl⟩ := List.mem_map.mp hcfg
      exact ⟨(validateInputs_spec hok.2 input hinput).1, by
        simp [AlertInput.toConfig]⟩
  | _ => simp [Call.enrols] at h

/-- An owner's call writes valid hashes over valid ones, given that a proposed
hash is valid. -/
theorem amended_hashesValid
    {call : Call} {now : Nat} {cfg cfg' : AlertConfig}
    (hcfg : cfg.HashesValid) (hok : call.Checked)
    (hpropose : ∀ caller id hash,
      call = .proposeWebhook caller id hash → hash.len = 64)
    (h : call.amended now cfg = some cfg') :
    cfg'.HashesValid := by
  cases call with
  | updateAlert _ _ _ _ | updateLabel _ _ _ | updateTags _ _ _ =>
      obtain rfl := Option.some.inj h
      exact hcfg
  | updateWebhook _ _ _ =>
      obtain rfl := Option.some.inj h
      exact ⟨hok, hcfg.2⟩
  | proposeWebhook caller id hash =>
      obtain rfl := Option.some.inj h
      refine ⟨hcfg.1, ?_⟩
      intro pending hpending
      obtain rfl := Option.some.inj hpending
      exact hpropose caller id hash rfl
  | confirmWebhook _ _ =>
      obtain ⟨pending, hpending, rfl⟩ := Option.map_eq_some_iff.mp h
      exact ⟨hcfg.2 pending hpending, by simp⟩
  | _ => exact absurd h (by simp [Call.amended])

/-- Every step but an accepted proposal of a bad hash keeps hashes valid. -/
theorem hashesValid_exec
    {s : State} {st : Step} (h : s.HashesValid)
    (hst : ¬ st.ProposesBadHash s) :
    (exec s st).HashesValid := by
  cases st with
  | call env call =>
      rcases invoke_refines env call s with ⟨resp, -, hstep⟩ | ⟨-, hview⟩
      · have hrows : s.view.AllRows AlertConfig.HashesValid := h
        refine hstep.allRows hrows (fun _ _ => enrols_hashesValid) ?_
          (fun _ _ hcfg => hcfg) (fun _ _ hcfg => hcfg) (fun _ _ hcfg => hcfg)
        intro caller id cfg cfg' hamend hok hauth hrow howner hnew
        refine amended_hashesValid (h id cfg hrow) hok ?_ hnew
        rintro caller' id' hash rfl
        obtain ⟨rfl, rfl⟩ : caller' = caller ∧ id' = id := by
          simpa [Call.amends] using hamend
        by_contra hlen
        exact hst ⟨hauth, ⟨cfg, hrow, howner⟩, hlen⟩
      · intro id cfg hrow
        have hold := congrArg (fun r => r.table.row id) hview
        exact h id cfg (hold.symm.trans hrow)
  | expire keys => exact allRows_dropping s.silenced h keys

/-- An accepted proposal of a bad hash leaves it pending. -/
theorem not_hashesValid_exec
    {s : State} {st : Step} (hst : st.ProposesBadHash s) :
    ¬ (exec s st).HashesValid := by
  cases st with
  | expire keys => exact absurd hst id
  | call env call =>
      cases call with
      | proposeWebhook caller id hash =>
          obtain ⟨hauth, ⟨cfg, hrow, howner⟩, hlen⟩ := hst
          have hcall : (Call.proposeWebhook caller id hash).amends =
              some (caller, id) := by
            rfl
          have hinvoke := invoke_amend (s := s) hcall hrow howner
            (by simp [Call.asksPaused]) hauth trivial rfl
            (by simp [Call.renewsLists])
          have hafter :
              (exec s (.call env (.proposeWebhook caller id hash))).persistent.get
                (.alert id) = some { cfg with
                  pendingWebhookHash := some hash
                  updatedAt := env.timestamp } := by
            rw [exec_call, hinvoke, ← view_row, view_announce, view_amended,
              Registry.row_rewrite_flag]
            exact Function.update_self ..
          intro hvalid
          exact hlen ((hvalid id _ hafter).2 hash rfl)
      | _ => exact absurd hst (by simp [Step.ProposesBadHash])

/-- Every hash of every live alert has 64 bytes in every state of a run from
empty storage, exactly if the run contains no accepted proposal of a hash of
another length. -/
theorem webhook_hashes_valid_iff (steps : List Step) :
    Throughout exec State.HashesValid State.empty steps ↔
      Along exec (fun s st => ¬ st.ProposesBadHash s) State.empty steps := by
  have hempty : State.empty.HashesValid := by
    intro id cfg hrow
    exact absurd hrow (by simp)
  refine throughout_iff_along (Q := fun _ => True) (D := fun _ _ => True)
    (fun _ _ _ _ _ => trivial) ?_ hempty trivial ?_
  · intro s st _ _ hvalid
    constructor
    · intro hafter hst
      exact not_hashesValid_exec hst hafter
    · exact hashesValid_exec hvalid
  · exact along_of_forall_mem _ _ (fun _ _ => trivial)

/-- A hash of three bytes. -/
def shortHash : HostString := .fromStr "abc"

/-- The owner of an alert proposes a short hash and confirms it. -/
def shortHashRun : List Step :=
  [.call (envAt 1 [alice]) (sampleRegister alice pool),
    .call (envAt 2 [alice]) (.proposeWebhook alice 0 shortHash),
    .call (envAt 3 [alice]) (.confirmWebhook alice 0)]

/-- A short hash becomes the live one. -/
theorem shortHashRun_invalid :
    ¬ (run exec State.empty shortHashRun).HashesValid := by
  intro hvalid
  have hget : ((run exec State.empty shortHashRun).persistent.get
      (.alert 0)).map (fun cfg => cfg.webhookHash.len) = some 3 := by
    decide
  obtain ⟨cfg, hrow, hlen⟩ := Option.map_eq_some_iff.mp hget
  have hsixtyfour := (hvalid 0 cfg hrow).1
  omega

end AlertRegistry
end TxWatch
