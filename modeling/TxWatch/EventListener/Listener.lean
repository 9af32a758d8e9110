import TxWatch.Soroban.Feed
import TxWatch.AlertRegistry.System

/-!
# The event listener

The example program that follows the registrations of an alert registry: it
polls the RPC server for events, handles the events of each page and keeps the
paging token of the last one as its cursor, in memory.  The server is not part
of the program: `GetEvents` is what it answers, and `Serves` is what its
documentation says of an answer.  Nor is `scValToNative`, which the program takes
from the SDK: it is a parameter, and `BigIntsU64` what its documentation says.
-/

namespace TxWatch
namespace EventListener

open Soroban Soroban.Feed AlertRegistry

/-- `SorobanRpc.Api.EventResponse` without its paging token. -/
structure EventRecord where
  contractId : Address
  ledger : Nat
  event : Event
deriving DecidableEq

/-- What `poll` asks the server for. -/
structure EventsRequest where
  startLedger : Option Nat
  cursor : Option Nat
  contractIds : List Address
  topics : Symbol × Symbol
  limit : Nat

/-- `server.getEvents`: a page of events with their paging tokens, or a
rejection. -/
abbrev GetEvents : Type :=
  EventsRequest → Option (List (EventRecord × Nat))

/-- Values of JavaScript that event data is turned into. -/
inductive Native where
  | bigint (n : Nat)
  | number (n : Nat)
  | boolean (b : Bool)
  | string (a : Address)
deriving DecidableEq

/-- What a conversion makes of the data of an event, which are a vector: an array,
with a BigInt where an integer of 64 bits stands in front. -/
def BigIntsU64 (scValToNative : List EventData → List Native) : Prop :=
  ∀ n rest, ∃ more, scValToNative (.u64 n :: rest) = .bigint n :: more

/-- `JSON.stringify` throws on a BigInt. -/
def Native.stringifies : Native → Bool
  | .bigint _ => false
  | _ => true

/-- A line of output. -/
structure Line where
  ledger : Nat
  topics : Symbol × Symbol
  data : List Native
deriving DecidableEq

/-- Print one event, or throw. -/
def handle (scValToNative : List EventData → List Native) (ev : EventRecord) :
    Option Line :=
  let data := scValToNative ev.event.data
  if data.all Native.stringifies then
    some { ledger := ev.ledger, topics := ev.event.topics, data := data }
  else none

/-- The cursor of the program, and what its handler has made of the events. -/
abbrev Listener (ω : Type) : Type :=
  Reader ω

/-- The argument of `getEvents`: the first call starts from a ledger, later
calls use the cursor. -/
def request (contractId : Address) (cursor : Option Nat) : EventsRequest where
  startLedger := if cursor.isSome then none else some 0
  cursor := cursor
  contractIds := [contractId]
  topics := (.alert, .register)
  limit := 100

/-- One round of the loop in `main`.  A rejection and an exception of the handler
are both caught; the cursor stays where it is. -/
def poll {ω : Type} (contractId : Address) (handler : EventRecord → Option ω)
    (getEvents : GetEvents) (l : Listener ω) : Listener ω :=
  match getEvents (request contractId l.cursor) with
  | none => l
  | some page => l.consume handler page

/-- Whether an event of the log answers a request. -/
def EventsRequest.selects (req : EventsRequest) (e : EventRecord × Nat) : Bool :=
  req.contractIds.contains e.1.contractId && e.1.event.topics == req.topics &&
    (req.startLedger.all (fun l => l ≤ e.1.ledger) && after req.cursor e)

/-- A page that the server may answer: events that are asked for, in the order
of the log and without leaving one out, but maybe not all of them. -/
def Serves (log : List EventRecord) (req : EventsRequest)
    (page : List (EventRecord × Nat)) : Prop :=
  page <+: log.zipIdx.filter req.selects ∧ page.length ≤ req.limit

/-- A page with as many events as the request allows. -/
def fullPage (log : List EventRecord) (req : EventsRequest) :
    List (EventRecord × Nat) :=
  (log.zipIdx.filter req.selects).take req.limit

/-- Topics of a registration. -/
def registers (ev : Event) : Bool :=
  ev.topics == (.alert, .register)

/-- Events of registrations in the registry that the listener follows. -/
def isRegistration (contractId : Address) (ev : EventRecord) : Bool :=
  decide (ev.contractId = contractId) && registers ev.event

/-- What a request of the listener selects is pending at its cursor. -/
theorem filter_request
    (log : List EventRecord) (contractId : Address) (cursor : Option Nat) :
    log.zipIdx.filter (request contractId cursor).selects =
      pending (isRegistration contractId) log cursor := by
  rw [pending, wanted, List.filter_filter]
  apply List.filter_congr
  intro e _
  cases cursor <;>
    simp [EventsRequest.selects, request, isRegistration, registers, after,
      Bool.and_comm]

end EventListener
end TxWatch
