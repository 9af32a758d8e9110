import TxWatch.WatcherRegistry.System

/-!
# The watcher registry as an abstract machine

What the contract is for, without lifetimes, storage keys or host calls: an
admin set, a pause switch and a roster of watchers with their expiries, their
count and their metadata.  `Registry.Step` says everything that a call which
succeeds may do.
-/

namespace TxWatch
namespace WatcherRegistry

open Soroban

/-- The watchers in the order of registration, and what is kept about them. -/
structure Roster where
  watchers : List Address
  expiries : Address → Option Nat
  count : Nat
  info : Address → Option WatcherInfo

/-- The metadata that `replace_watcher` writes. -/
def replacementInfo (env : Env) (admin watcher : Address) : WatcherInfo where
  address := watcher
  label := .fromStr ""
  registeredAt := env.timestamp
  registeredBy := admin

/-- The addresses of a batch that are not stored yet, each once. -/
def newcomers (stored : List Address) : List Address → List Address
  | [] => []
  | w :: ws =>
      if w ∈ stored then newcomers stored ws
      else w :: newcomers (stored ++ [w]) ws

namespace Roster

/-- The watcher is on the roster and not past its expiry. -/
def Authorised (r : Roster) (now : Nat) (w : Address) : Prop :=
  w ∈ r.watchers ∧ ∀ exp ∈ r.expiries w, now ≤ exp

instance (r : Roster) (now : Nat) (w : Address) :
    Decidable (r.Authorised now w) :=
  inferInstanceAs (Decidable (_ ∧ _))

theorem authorised_of_none
    {r : Roster} {now : Nat} {w : Address}
    (hmem : w ∈ r.watchers) (hexp : r.expiries w = none) :
    r.Authorised now w := by
  refine ⟨hmem, ?_⟩
  intro exp h
  rw [hexp] at h
  cases h

theorem authorised_iff_of_some
    {r : Roster} {now exp : Nat} {w : Address}
    (hmem : w ∈ r.watchers) (hexp : r.expiries w = some exp) :
    r.Authorised now w ↔ now ≤ exp := by
  simp [Authorised, hmem, hexp]

/-- The list without a watcher. -/
def others (r : Roster) (w : Address) : List Address :=
  r.watchers.filter (fun v => v ≠ w)

/-- Append a watcher. -/
def register (r : Roster) (w : Address) (expiresAt : Option Nat) : Roster :=
  { r with
    watchers := r.watchers ++ [w]
    expiries := Function.update r.expiries w expiresAt
    count := r.count + 1 }

/-- Drop a watcher; its metadata stays. -/
def remove (r : Roster) (w : Address) : Roster :=
  { r with
    watchers := r.others w
    expiries := Function.update r.expiries w none
    count := r.count - 1 }

/-- Put `new` in the place of `old`. -/
def replace (r : Roster) (old new : Address) (info : WatcherInfo) : Roster :=
  if new ∈ r.others old then
    { watchers := r.others old
      expiries := Function.update r.expiries old none
      count := r.count - 1
      info := Function.update r.info old none }
  else
    { watchers := r.others old ++ [new]
      expiries := Function.update r.expiries old none
      count := r.count
      info := Function.update (Function.update r.info old none) new (some info) }

/-- Append the newcomers of a batch. -/
def registerAll (r : Roster) (ws : List Address) : Roster :=
  { r with
    watchers := r.watchers ++ newcomers r.watchers ws
    count := r.count + (newcomers r.watchers ws).length }

/-- Set or clear an expiry. -/
def renew (r : Roster) (w : Address) (newExpiry : Option Nat) : Roster :=
  { r with expiries := Function.update r.expiries w newExpiry }

/-- A page of the list: at most `maxPageLimit` watchers from an offset on. -/
def page (r : Roster) (offset limit : Nat) : List Address :=
  (r.watchers.drop offset).take
    (min (saturatingAdd32 offset (min limit maxPageLimit)) r.watchers.length - offset)

/-- Drop every watcher. -/
def clear (r : Roster) : Roster where
  watchers := []
  expiries := fun _ => none
  count := 0
  info := fun w => if w ∈ r.watchers then none else r.info w

section Members

variable {r : Roster} {v w : Address}

@[simp] theorem mem_others :
    v ∈ r.others w ↔ v ∈ r.watchers ∧ v ≠ w := by
  simp [others]

theorem not_mem_others : w ∉ r.others w := by
  simp

end Members

end Roster

section Newcomers

variable {w : Address}

theorem mem_newcomers (stored ws : List Address) :
    w ∈ newcomers stored ws ↔ w ∈ ws ∧ w ∉ stored := by
  induction ws generalizing stored with
  | nil => simp [newcomers]
  | cons v ws ih =>
      unfold newcomers
      split_ifs with hv
      · rw [ih, List.mem_cons]
        constructor
        · rintro ⟨hmem, hnew⟩
          exact ⟨Or.inr hmem, hnew⟩
        · rintro ⟨rfl | hmem, hnew⟩
          · exact absurd hv hnew
          · exact ⟨hmem, hnew⟩
      · rw [List.mem_cons, ih, List.mem_cons]
        constructor
        · rintro (rfl | ⟨hmem, hnew⟩)
          · exact ⟨Or.inl rfl, hv⟩
          · simp only [List.mem_append, not_or] at hnew
            exact ⟨Or.inr hmem, hnew.1⟩
        · rintro ⟨hmem, hnew⟩
          by_cases hwv : w = v
          · exact Or.inl hwv
          · have hrest : w ∈ ws := hmem.resolve_left hwv
            exact Or.inr ⟨hrest, by simp [hnew, hwv]⟩

/-- Appending the newcomers keeps a list duplicate free. -/
theorem nodup_append_newcomers
    {stored : List Address} (h : stored.Nodup) (ws : List Address) :
    (stored ++ newcomers stored ws).Nodup := by
  induction ws generalizing stored with
  | nil => simpa [newcomers] using h
  | cons v ws ih =>
      unfold newcomers
      split_ifs with hv
      · exact ih h
      · have hsnoc : (stored ++ [v]).Nodup := by
          rw [← List.concat_eq_append]
          exact h.concat hv
        have hrest := ih hsnoc
        rw [List.append_assoc] at hrest
        exact hrest

end Newcomers

/-- The data of the contract. -/
structure Registry where
  admins : Option (List Address)
  paused : Bool
  roster : Roster

namespace Registry

/-- Membership of the admin set. -/
def IsAdmin (r : Registry) (a : Address) : Prop :=
  ∃ admins, r.admins = some admins ∧ a ∈ admins

/-- A call in the name of `admin` passes the checks that the mutating entry
points share. -/
structure Permits (r : Registry) (env : Env) (admin : Address) : Prop where
  auth : admin ∈ env.auths
  isAdmin : r.IsAdmin admin
  unpaused : r.paused = false

end Registry

/-- The label is short enough. -/
def LabelFits (label : Option HostString) : Prop :=
  (label.getD (.fromStr "")).len ≤ maxLabelBytes

instance (label : Option HostString) : Decidable (LabelFits label) :=
  inferInstanceAs (Decidable (_ ≤ _))

/-- Entry points that only read. -/
def Call.isQuery : Call → Bool
  | .isPaused | .isWatcherAuthorized _ | .isAuthorized _ | .getWatchers
  | .getAllWatchers | .getAllWatchersPaginated _ _ | .getWatcherInfo _
  | .getAdmins | .isInitialized | .isAdmin _ | .getAdmin
  | .getWatcherCount => true
  | _ => false

/-- What a query answers; nothing if it fails. -/
def Registry.answer (r : Registry) (env : Env) : Call → Option Response
  | .isPaused => some (.bool r.paused)
  | .isWatcherAuthorized watcher | .isAuthorized watcher =>
      some (.bool (decide (r.roster.Authorised env.timestamp watcher)))
  | .getWatchers | .getAllWatchers => some (.addresses r.roster.watchers)
  | .getAllWatchersPaginated offset limit =>
      some (.addresses (r.roster.page offset limit))
  | .getWatcherInfo watcher => some (.optInfo (r.roster.info watcher))
  | .getAdmins => r.admins.map .addresses
  | .isInitialized => some (.bool r.admins.isSome)
  | .isAdmin address => some (.bool (decide (address ∈ r.admins.getD [])))
  | .getAdmin => (r.admins.bind (fun admins => admins[0]?)).map .address
  | .getWatcherCount => some (.number r.roster.count)
  | _ => none

/-- Events of `remove_admin`. -/
def removeAdminEvents (caller target : Address) : List Event :=
  ⟨(.admin, .remove), [.address caller, .address target]⟩ ::
    if caller = target then [⟨(.admin, .selfRemove), [.address caller]⟩] else []

/-- What a call that succeeds does to the registry. -/
inductive Registry.Step (env : Env) (r : Registry) :
    Call → Response → List Event → Registry → Prop
  | query {call : Call} {resp : Response} :
      call.isQuery = true →
      r.answer env call = some resp →
      Step env r call resp [] r
  | initialise {admin : Address} :
      admin ∈ env.auths →
      r.admins = none →
      Step env r (.initialise admin) .unit
        [⟨(.admin, .init), [.address admin]⟩]
        { r with admins := some [admin] }
  | keepAdmin {caller newAdmin : Address} {admins : List Address} :
      r.Permits env caller →
      r.admins = some admins →
      newAdmin ∈ admins →
      Step env r (.addAdmin caller newAdmin) .unit [] r
  | addAdmin {caller newAdmin : Address} {admins : List Address} :
      r.Permits env caller →
      r.admins = some admins →
      newAdmin ∉ admins →
      Step env r (.addAdmin caller newAdmin) .unit
        [⟨(.admin, .add), [.address caller, .address newAdmin]⟩]
        { r with admins := some (admins ++ [newAdmin]) }
  | removeAdmin {caller target : Address} {admins : List Address} :
      r.Permits env caller →
      r.admins = some admins →
      1 < admins.length →
      Step env r (.removeAdmin caller target) .unit
        (removeAdminEvents caller target)
        { r with admins := some (admins.filter (fun a => a ≠ target)) }
  | transferAdmin {admin newAdmin : Address} {admins : List Address} :
      r.Permits env admin →
      r.admins = some admins →
      admins.length ≤ 1 →
      Step env r (.transferAdmin admin newAdmin) .unit
        [⟨(.admin, .transfer), [.address admin, .address newAdmin]⟩]
        { r with admins := some [newAdmin] }
  | keepWatcher {admin w : Address} {expiresAt : Option Nat}
      {label : Option HostString} :
      r.Permits env admin →
      LabelFits label →
      (r.roster.info w).isSome = true →
      Step env r (.registerWatcher admin w expiresAt label) .unit [] r
  | register {admin w : Address} {expiresAt : Option Nat}
      {label : Option HostString} :
      r.Permits env admin →
      LabelFits label →
      r.roster.info w = none →
      r.roster.watchers.length < maxWatchers →
      r.roster.count < u32Max →
      Step env r (.registerWatcher admin w expiresAt label) .unit
        [⟨(.watcher, .register), [.address w]⟩]
        { r with roster := r.roster.register w expiresAt }
  | remove {admin w : Address} :
      r.Permits env admin →
      w ∈ r.roster.watchers →
      Step env r (.removeWatcher admin w) .unit
        [⟨(.watcher, .remove), [.address w]⟩]
        { r with roster := r.roster.remove w }
  | replace {admin old new : Address} :
      r.Permits env admin →
      old ∈ r.roster.watchers →
      Step env r (.replaceWatcher admin old new) .unit
        [⟨(.watcher, .remove), [.address old]⟩,
          ⟨(.watcher, .replace), [.address old, .address new]⟩]
        { r with
          roster := r.roster.replace old new (replacementInfo env admin new) }
  | batch {admin : Address} {ws : List Address} :
      r.Permits env admin →
      ws.length ≤ maxBatchSize →
      (r.roster.registerAll ws).watchers.length ≤ maxWatchers →
      (newcomers r.roster.watchers ws ≠ [] →
        (r.roster.registerAll ws).count ≤ u32Max) →
      Step env r (.batchRegisterWatchers admin ws)
        (.number (newcomers r.roster.watchers ws).length)
        ((newcomers r.roster.watchers ws).map
          (fun w => ⟨(.watcher, .register), [.address w]⟩))
        { r with roster := r.roster.registerAll ws }
  | renew {admin w : Address} {newExpiry : Option Nat} :
      r.Permits env admin →
      w ∈ r.roster.watchers →
      Step env r (.renewWatcher admin w newExpiry) .unit
        [⟨(.watcher, .renew), [.address w, .optU64 newExpiry]⟩]
        { r with roster := r.roster.renew w newExpiry }
  | setPaused {admin : Address} {paused : Bool} :
      admin ∈ env.auths →
      r.IsAdmin admin →
      Step env r (.setPaused admin paused) .unit
        [⟨(.admin, if paused then .pause else .unpause), [.address admin]⟩]
        { r with paused := paused }
  | clear {admin : Address} :
      r.Permits env admin →
      Step env r (.clearAllWatchers admin) .unit
        (r.roster.watchers.map (fun w => ⟨(.watcher, .remove), [.address w]⟩))
        { r with roster := r.roster.clear }

end WatcherRegistry
end TxWatch
