import TxWatch.Soroban.Contract

/-!
# A contract as a system

A contract answers calls, each of which runs one of its entry points as a
transaction.  A step of the system is a call, or the disappearance of
persistent entries between calls.  `invokeEach` is a sequence of calls of which
none may fail.
-/

namespace TxWatch
namespace Soroban

/-- A step of a contract with calls `C` and persistent keys `K`. -/
inductive Step (C K : Type) where
  | call (env : Env) (call : C)
  | expire (keys : K → Bool)

/-- A step in which nothing expires. -/
def Step.isCall {C K : Type} : Step C K → Prop
  | .call _ _ => True
  | .expire _ => False

variable {C R ε : Type}
variable {K : Type} {V : K → Type} {I : Type} {W : I → Type} {E : Type}
variable (dispatch : C → Contract (State K V I W E) ε R)

/-- Effect of a step on the storage. -/
def execute (s : State K V I W E) : Step C K → State K V I W E
  | .call env call => ((dispatch call).transact env s).2
  | .expire keys => s.silenced.dropping keys

/-- Make calls one after the other: the responses, the events and the storage
left, or nothing if one of them fails. -/
def invokeEach (env : Env) :
    List C → State K V I W E → Option (List R × List E × State K V I W E)
  | [], s => some ([], [], s)
  | call :: rest, s =>
      match (dispatch call).transact env s with
      | (.ok resp, s') =>
          (invokeEach env rest s').map
            (fun later => (resp :: later.1, s'.events ++ later.2.1, later.2.2))
      | (.error _, _) => none

section Sequences

variable {dispatch} {env : Env} {s s₁ : State K V I W E}
  {call : C} {rest : List C}

/-- A call that succeeds, and the calls after it. -/
theorem invokeEach_cons_of_ok
    {resp : R} (hfirst : (dispatch call).transact env s = (.ok resp, s₁)) :
    invokeEach dispatch env (call :: rest) s =
      (invokeEach dispatch env rest s₁).map
        (fun later => (resp :: later.1, s₁.events ++ later.2.1, later.2.2)) := by
  rw [invokeEach, hfirst]

theorem invokeEach_cons_of_some
    {resp : R} (hfirst : (dispatch call).transact env s = (.ok resp, s₁))
    {later : List R × List E × State K V I W E}
    (hrest : invokeEach dispatch env rest s₁ = some later) :
    invokeEach dispatch env (call :: rest) s =
      some (resp :: later.1, s₁.events ++ later.2.1, later.2.2) := by
  rw [invokeEach_cons_of_ok hfirst, hrest, Option.map_some]

theorem invokeEach_cons_of_none
    {resp : R} (hfirst : (dispatch call).transact env s = (.ok resp, s₁))
    (hrest : invokeEach dispatch env rest s₁ = none) :
    invokeEach dispatch env (call :: rest) s = none := by
  rw [invokeEach_cons_of_ok hfirst, hrest, Option.map_none]

/-- A call that fails ends the sequence. -/
theorem invokeEach_cons_of_error
    {f : Failure ε} (hfirst : (dispatch call).transact env s = (.error f, s₁)) :
    invokeEach dispatch env (call :: rest) s = none := by
  rw [invokeEach, hfirst]

end Sequences

end Soroban
end TxWatch
