import TxWatch.WatcherRegistry.EntryPoints
import TxWatch.Soroban.Run
import TxWatch.Soroban.System

/-!
# WatcherRegistry as a system

A call names an entry point with its arguments, and is run as a transaction.  A
step of the system is a call, or the disappearance of persistent entries
between calls.
-/

namespace TxWatch
namespace WatcherRegistry

open Soroban Soroban.Contract

/-- A call of an entry point. -/
inductive Call where
  | initialise (admin : Address)
  | addAdmin (caller newAdmin : Address)
  | removeAdmin (caller targetAdmin : Address)
  | transferAdmin (admin newAdmin : Address)
  | registerWatcher (admin watcher : Address) (expiresAt : Option Nat)
      (label : Option HostString)
  | removeWatcher (admin watcher : Address)
  | replaceWatcher (admin oldWatcher newWatcher : Address)
  | batchRegisterWatchers (admin : Address) (watchers : List Address)
  | renewWatcher (admin watcher : Address) (newExpiry : Option Nat)
  | setPaused (admin : Address) (paused : Bool)
  | isPaused
  | isWatcherAuthorized (watcher : Address)
  | isAuthorized (watcher : Address)
  | clearAllWatchers (admin : Address)
  | getWatchers
  | getAllWatchers
  | getAllWatchersPaginated (offset limit : Nat)
  | getWatcherInfo (watcher : Address)
  | getAdmins
  | isInitialized
  | isAdmin (address : Address)
  | getAdmin
  | getWatcherCount
deriving DecidableEq

/-- Value returned by a call. -/
inductive Response where
  | unit
  | bool (b : Bool)
  | number (n : Nat)
  | address (a : Address)
  | addresses (l : List Address)
  | optInfo (o : Option WatcherInfo)
deriving DecidableEq

/-- The entry point of a call. -/
def dispatch : Call → Contract Response
  | .initialise admin => done .unit (initialise admin)
  | .addAdmin caller newAdmin => done .unit (addAdmin caller newAdmin)
  | .removeAdmin caller targetAdmin => done .unit (removeAdmin caller targetAdmin)
  | .transferAdmin admin newAdmin => done .unit (transferAdmin admin newAdmin)
  | .registerWatcher admin watcher expiresAt label =>
      done .unit (registerWatcher admin watcher expiresAt label)
  | .removeWatcher admin watcher => done .unit (removeWatcher admin watcher)
  | .replaceWatcher admin oldWatcher newWatcher =>
      done .unit (replaceWatcher admin oldWatcher newWatcher)
  | .batchRegisterWatchers admin watchers =>
      respond .number (batchRegisterWatchers admin watchers)
  | .renewWatcher admin watcher newExpiry =>
      done .unit (renewWatcher admin watcher newExpiry)
  | .setPaused admin paused => done .unit (setPaused admin paused)
  | .isPaused => respond .bool isPaused
  | .isWatcherAuthorized watcher => respond .bool (isWatcherAuthorized watcher)
  | .isAuthorized watcher => respond .bool (isAuthorized watcher)
  | .clearAllWatchers admin => done .unit (clearAllWatchers admin)
  | .getWatchers => respond .addresses getWatchers
  | .getAllWatchers => respond .addresses getAllWatchers
  | .getAllWatchersPaginated offset limit =>
      respond .addresses (getAllWatchersPaginated offset limit)
  | .getWatcherInfo watcher => respond .optInfo (getWatcherInfo watcher)
  | .getAdmins => respond .addresses getAdmins
  | .isInitialized => respond .bool isInitialized
  | .isAdmin address => respond .bool (isAdmin address)
  | .getAdmin => respond .address getAdmin
  | .getWatcherCount => respond .number getWatcherCount

/-- Outcome of a call and the storage it leaves behind. -/
def invoke (env : Env) (call : Call) (s : State) :
    Except (Failure ContractError) Response × State :=
  (dispatch call).transact env s

/-- A step of the system. -/
abbrev Step : Type :=
  Soroban.Step Call DataKey

/-- Effect of a step on the storage. -/
def exec : State → Step → State :=
  execute dispatch

@[simp] theorem exec_call (s : State) (env : Env) (call : Call) :
    exec s (.call env call) = (invoke env call s).2 := by
  rfl

@[simp] theorem exec_expire (s : State) (keys : DataKey → Bool) :
    exec s (.expire keys) = s.silenced.dropping keys := by
  rfl

end WatcherRegistry
end TxWatch
