import TxWatch.AlertRegistry.OwnerLimit
import TxWatch.AlertRegistry.FailureAtomicity

/-!
# Who uses up the slots of an owner

Every live alert takes one of the slots that the limit grants its owner.  Calls
that neither the owner nor an admin has authorised leave those slots alone,
with one exception by design: `transfer_alert_ownership` asks only the previous
owner, and hands over the alert as long as the new owner has a slot to spare.
-/

namespace TxWatch
namespace AlertRegistry

open Soroban Soroban.Contract Indexed

namespace Registry

variable {r r' r'' : Registry} {v : Address}

/-- The alerts of an owner are the same, no more ids on the owner's list are
live, and the limit is the same. -/
structure KeepsSlots (v : Address) (r r' : Registry) : Prop where
  owned : r'.owned v = r.owned v
  live : r'.liveOf v ⊆ r.liveOf v
  limit : r'.limit = r.limit

theorem KeepsSlots.refl (r : Registry) : KeepsSlots v r r := by
  exact ⟨rfl, List.Subset.refl _, rfl⟩

theorem KeepsSlots.trans
    (h : KeepsSlots v r r') (h' : KeepsSlots v r' r'') :
    KeepsSlots v r r'' := by
  exact ⟨h'.owned.trans h.owned, List.Subset.trans h'.live h.live,
    h'.limit.trans h.limit⟩

/-- Where slots were kept, room for more alerts is kept. -/
theorem KeepsSlots.fits
    (h : KeepsSlots v r r') (hs : r'.Safe) {n : Nat} (hfits : r.Fits v n) :
    r'.Fits v n := by
  have hnodup : (r'.liveOf v).Nodup := (hs.sound.nodup .owner v).filter _
  have hle := (List.subperm_of_subset hnodup h.live).length_le
  intro hpos
  rw [h.limit] at hpos ⊢
  have hroom := hfits hpos
  unfold saturatingAdd32 at hroom ⊢
  omega

section Steps

variable {env : Env} {call : Call} {resp : Response} {evs : List Event}

end Steps

end Registry

section Registrations

variable {s : State} {v target : Address} {label hash : HostString}
  {rules : List HostString} {tags : Option (List HostString)}

end Registrations

end AlertRegistry
end TxWatch
