import TxWatch.AlertRegistry.EntryPoints
import TxWatch.Soroban.Run
import TxWatch.Soroban.System

/-!
# AlertRegistry as a system

A call names an entry point with its arguments.  `invoke` runs it as a
transaction: a call that fails leaves the storage as it found it.  A step of the
system is a call, or the disappearance of persistent entries between calls.

`execTimed` is the second, timed reading of the same calls: every call happens
at a ledger, and what has outlived its recorded lifetime by then is absent.
-/

namespace TxWatch
namespace AlertRegistry

open Soroban Soroban.Contract

/-- A call of an entry point. -/
inductive Call where
  | initialise (admin : Address)
  | transferAdmin (admin newAdmin : Address)
  | addAdmin (caller newAdmin : Address)
  | removeAdmin (caller targetAdmin : Address)
  | getAdmin
  | getAdmins
  | setPerOwnerAlertLimit (admin : Address) (limit : Nat)
  | setPaused (admin : Address) (paused : Bool)
  | isPaused
  | getPerOwnerAlertLimit
  | setWatcherRegistry (admin watcherRegistry : Address)
  | getWatcherRegistry
  | registerAlert (owner targetContract : Address)
      (label webhookHash : HostString) (rules : List HostString)
      (tags : Option (List HostString))
  | batchRegisterAlerts (caller : Address) (inputs : List AlertInput)
  | pauseAlert (admin : Address) (configId : Nat)
  | unpauseAlert (admin : Address) (configId : Nat)
  | updateAlert (caller : Address) (configId : Nat)
      (rules : List HostString) (active : Bool)
  | updateWebhook (caller : Address) (configId : Nat) (webhookHash : HostString)
  | proposeWebhook (caller : Address) (configId : Nat)
      (newWebhookHash : HostString)
  | confirmWebhook (caller : Address) (configId : Nat)
  | updateLabel (caller : Address) (configId : Nat) (label : HostString)
  | removeAlert (caller : Address) (configId : Nat)
  | removeAlertByAdmin (admin : Address) (configId : Nat)
  | bumpAlert (configId ttl : Nat)
  | bulkRenewTtl (configIds : List Nat)
  | getAlertsForContract (querier targetContract : Address)
  | getAlertIdsForContract (targetContract : Address)
  | getAlertIdsByOwner (owner : Address)
  | getActiveAlertsForContract (targetContract : Address)
  | getActiveAlertsPaginated (targetContract : Address) (offset limit : Nat)
  | getAlertsByOwner (querier owner : Address)
  | getContractAlertsPaginated (querier targetContract : Address)
      (offset limit : Nat)
  | getAlertsByOwnerPaginated (querier owner : Address) (offset limit : Nat)
  | getAlert (configId : Nat)
  | getAlertActive (configId : Nat)
  | deactivateAllAlerts (caller : Address)
  | updateTargetContract (caller : Address) (configId : Nat)
      (newTarget : Address)
  | getAlertsModifiedSince (since : Nat)
  | updateTags (caller : Address) (configId : Nat)
      (tags : Option (List HostString))
  | transferAlertOwnership (owner : Address) (configId : Nat)
      (newOwner : Address)
  | getAlertsUpdatedSince (targetContract : Address)
      (since offset limit : Nat)
  | getAlertCount
  | getActiveAlertCount (owner : Address)
deriving DecidableEq

/-- Value returned by a call. -/
inductive Response where
  | unit
  | bool (b : Bool)
  | number (n : Nat)
  | numbers (ns : List Nat)
  | address (a : Address)
  | optAddress (o : Option Address)
  | optAddresses (o : Option (List Address))
  | optAlert (o : Option AlertConfig)
  | optBool (o : Option Bool)
  | alerts (l : List AlertConfig)
deriving DecidableEq

/-- The entry point of a call. -/
def dispatch : Call → Contract Response
  | .initialise admin => done .unit (initialise admin)
  | .transferAdmin admin newAdmin => done .unit (transferAdmin admin newAdmin)
  | .addAdmin caller newAdmin => done .unit (addAdmin caller newAdmin)
  | .removeAdmin caller targetAdmin => done .unit (removeAdmin caller targetAdmin)
  | .getAdmin => respond .address getAdmin
  | .getAdmins => respond .optAddresses getAdmins
  | .setPerOwnerAlertLimit admin limit =>
      done .unit (setPerOwnerAlertLimit admin limit)
  | .setPaused admin paused => done .unit (setPaused admin paused)
  | .isPaused => respond .bool isPaused
  | .getPerOwnerAlertLimit => respond .number getPerOwnerAlertLimit
  | .setWatcherRegistry admin watcherRegistry =>
      done .unit (setWatcherRegistry admin watcherRegistry)
  | .getWatcherRegistry => respond .optAddress getWatcherRegistry
  | .registerAlert owner targetContract label webhookHash rules tags =>
      respond .number
        (registerAlert owner targetContract label webhookHash rules tags)
  | .batchRegisterAlerts caller inputs =>
      respond .numbers (batchRegisterAlerts caller inputs)
  | .pauseAlert admin configId => done .unit (pauseAlert admin configId)
  | .unpauseAlert admin configId => done .unit (unpauseAlert admin configId)
  | .updateAlert caller configId rules active =>
      done .unit (updateAlert caller configId rules active)
  | .updateWebhook caller configId webhookHash =>
      done .unit (updateWebhook caller configId webhookHash)
  | .proposeWebhook caller configId newWebhookHash =>
      done .unit (proposeWebhook caller configId newWebhookHash)
  | .confirmWebhook caller configId => done .unit (confirmWebhook caller configId)
  | .updateLabel caller configId label =>
      done .unit (updateLabel caller configId label)
  | .removeAlert caller configId => done .unit (removeAlert caller configId)
  | .removeAlertByAdmin admin configId =>
      done .unit (removeAlertByAdmin admin configId)
  | .bumpAlert configId ttl => done .unit (bumpAlert configId ttl)
  | .bulkRenewTtl configIds => respond .number (bulkRenewTtl configIds)
  | .getAlertsForContract querier targetContract =>
      respond .alerts (getAlertsForContract querier targetContract)
  | .getAlertIdsForContract targetContract =>
      respond .numbers (getAlertIdsForContract targetContract)
  | .getAlertIdsByOwner owner => respond .numbers (getAlertIdsByOwner owner)
  | .getActiveAlertsForContract targetContract =>
      respond .alerts (getActiveAlertsForContract targetContract)
  | .getActiveAlertsPaginated targetContract offset limit =>
      respond .alerts (getActiveAlertsPaginated targetContract offset limit)
  | .getAlertsByOwner querier owner =>
      respond .alerts (getAlertsByOwner querier owner)
  | .getContractAlertsPaginated querier targetContract offset limit =>
      respond .alerts
        (getContractAlertsPaginated querier targetContract offset limit)
  | .getAlertsByOwnerPaginated querier owner offset limit =>
      respond .alerts (getAlertsByOwnerPaginated querier owner offset limit)
  | .getAlert configId => respond .optAlert (getAlert configId)
  | .getAlertActive configId => respond .optBool (getAlertActive configId)
  | .deactivateAllAlerts caller => respond .number (deactivateAllAlerts caller)
  | .updateTargetContract caller configId newTarget =>
      done .unit (updateTargetContract caller configId newTarget)
  | .getAlertsModifiedSince since =>
      respond .alerts (getAlertsModifiedSince since)
  | .updateTags caller configId tags => done .unit (updateTags caller configId tags)
  | .transferAlertOwnership owner configId newOwner =>
      done .unit (transferAlertOwnership owner configId newOwner)
  | .getAlertsUpdatedSince targetContract since offset limit =>
      respond .alerts (getAlertsUpdatedSince targetContract since offset limit)
  | .getAlertCount => respond .number getAlertCount
  | .getActiveAlertCount owner => respond .number (getActiveAlertCount owner)

/-- Outcome of a call and the storage it leaves behind. -/
def invoke (env : Env) (call : Call) (s : State) :
    Except (Failure ContractError) Response × State :=
  (dispatch call).transact env s

/-- A step of the system. -/
abbrev Step : Type :=
  Soroban.Step Call DataKey

/-- Effect of a step on the storage. -/
def exec : State → Step → State :=
  execute dispatch

@[simp] theorem exec_call (s : State) (env : Env) (call : Call) :
    exec s (.call env call) = (invoke env call s).2 := by
  rfl

@[simp] theorem exec_expire (s : State) (keys : DataKey → Bool) :
    exec s (.expire keys) = s.silenced.dropping keys := by
  rfl

/-- A step in which at most the entries of alerts and their flags expire. -/
def Step.keepsIndexes : Step → Prop
  | .call _ _ => True
  | .expire keys => ∀ kind a, keys (.index kind a) = false

theorem Step.keepsIndexes_of_isCall
    {st : Step} (h : st.isCall) :
    st.keepsIndexes := by
  cases st with
  | call env call => trivial
  | expire keys => exact False.elim h

/-- The storage as it reads at a ledger. -/
def State.atLedger (s : State) (ledger : Nat) : State :=
  s.dropping (s.persistent.lapsed ledger)

/-- A call with the environment in which it is made. -/
structure Invocation where
  env : Env
  call : Call

/-- Effect of a call on the storage. -/
def execCall (s : State) (i : Invocation) : State :=
  (invoke i.env i.call s).2

/-- Effect of a call in a timed run: the ledger is the one of its
environment. -/
def execTimed (s : State) (i : Invocation) : State :=
  execCall (s.atLedger i.env.sequence) i

end AlertRegistry
end TxWatch
