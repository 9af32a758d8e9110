import TxWatch.EventListener.Listener
import TxWatch.AlertRegistry.IdLifecycle

/-!
# What the listener has seen

The registry, the log of its network and a listener, in any interleaving of
calls, of events of other contracts, of polls and of restarts of the listener.
As long as the server answers as documented, the listener has handled the
registrations from the first up to some one of them, each once and in the order
of their ids.
-/

namespace TxWatch
namespace EventListener

open Soroban Soroban.Feed AlertRegistry

variable {ω : Type}

/-- The registry, the events that have been published in its network, and one
listener. -/
structure Network (ω : Type) where
  storage : State
  log : List EventRecord
  listener : Listener ω

/-- A fresh registry in an empty network. -/
def Network.initial : Network ω where
  storage := State.empty
  log := []
  listener := Reader.fresh

/-- What can happen: a step of the registry, an event of another contract, a poll
of the listener, and the end and new start of its process. -/
inductive Action where
  | registry (st : Step)
  | foreign (ev : EventRecord)
  | poll (getEvents : GetEvents)
  | restart

/-- The ledger of a step. -/
def ledgerOf : Step → Nat
  | .call env _ => env.sequence
  | .expire _ => 0

section System

variable (contractId : Address) (handler : EventRecord → Option ω)

/-- Effect of an action on the network. -/
def exec (w : Network ω) : Action → Network ω
  | .registry st =>
      let s := AlertRegistry.exec w.storage st
      { w with
        storage := s
        log := w.log ++ s.events.map (EventRecord.mk contractId (ledgerOf st)) }
  | .foreign ev => { w with log := w.log ++ [ev] }
  | .poll getEvents =>
      { w with listener := EventListener.poll contractId handler getEvents w.listener }
  | .restart => { w with listener := Reader.fresh }

/-- Other contracts publish under their own ids, and the server answers the
request of the listener as documented, or rejects it. -/
def Admissible (w : Network ω) : Action → Prop
  | .registry _ => True
  | .foreign ev => ev.contractId ≠ contractId
  | .poll getEvents =>
      ∀ page, getEvents (request contractId w.listener.cursor) = some page →
        Serves w.log (request contractId w.listener.cursor) page
  | .restart => True

end System

/-- Registrations in the log of a network. -/
def Network.registrations (contractId : Address) (w : Network ω) :
    List EventRecord :=
  w.log.filter (isRegistration contractId)

/-- The id that the data of an event starts with. -/
def idOf (ev : Event) : Option Nat :=
  match ev.data with
  | .u64 id :: _ => some id
  | _ => none

/-- The id that an event of a registration names. -/
def registeredId (ev : EventRecord) : Option Nat :=
  idOf ev.event

section Events

variable {env : Env} {r r' : Registry} {call : Call} {resp : Response}
  {evs : List Event}

theorem filter_registerEvents (first : Nat) (cfgs : List AlertConfig) :
    ((registerEvents first cfgs).filter registers).map idOf =
      (List.range' first cfgs.length).map some := by
  induction cfgs generalizing first with
  | nil => rfl
  | cons cfg rest ih =>
      rw [registerEvents, List.filter_cons_of_pos rfl, List.map_cons, ih,
        List.length_cons, List.range'_succ, List.map_cons]
      rfl

theorem filter_adminEvents (call : Call) :
    call.adminEvents.filter registers = [] := by
  cases call with
  | setPaused admin paused => cases paused <;> rfl
  | _ => rfl

theorem filter_amendEvents (cfg : AlertConfig) (call : Call) :
    (call.amendEvents cfg).filter registers = [] := by
  cases call <;> rfl

theorem filter_bumpEvents (ttl : Nat) (ids : List Nat) :
    (ids.map (bumpEvent ttl)).filter registers = [] := by
  rw [List.filter_eq_nil_iff]
  intro ev hev
  obtain ⟨id, -, rfl⟩ := List.mem_map.mp hev
  simp [bumpEvent, registers]

/-- A call announces exactly the ids by which the counter advances. -/
theorem registered_of_step
    (h : Registry.Step env r call resp evs r') :
    (evs.filter registers).map idOf =
      (List.range' r.nextId (r'.nextId - r.nextId)).map some := by
  have hnone : ∀ {evs : List Event} {r' : Registry}, evs.filter registers = [] →
      r'.nextId = r.nextId →
      (evs.filter registers).map idOf =
        (List.range' r.nextId (r'.nextId - r.nextId)).map some := by
    intro evs r' hevs hnext
    rw [hevs, hnext, Nat.sub_self]
    rfl
  cases h with
  | query _ => exact hnone rfl rfl
  | initialise _ => exact hnone rfl (Registry.nextId_configure r (by simp) _)
  | administer _ hset _ _ _ _ =>
      exact hnone (filter_adminEvents call)
        (Registry.nextId_configure r (Registry.setting_key hset) _)
  | enrol _ _ _ _ _ _ =>
      rw [filter_registerEvents, Registry.nextId_createAll,
        Registry.nextId_prunedFor, Nat.add_sub_cancel_left]
  | amend _ _ _ _ _ _ _ =>
      exact hnone (filter_amendEvents _ call) (by simp [Registry.nextId])
  | activate _ _ _ _ => exact hnone rfl (by simp [Registry.nextId])
  | deactivateAll _ _ => exact hnone rfl rfl
  | retarget _ _ _ _ => exact hnone rfl rfl
  | keepOwner _ _ _ _ => exact hnone rfl rfl
  | reown _ _ _ _ _ _ => exact hnone rfl (Registry.nextId_prunedFor r _)
  | remove _ _ _ _ => exact hnone rfl rfl
  | removeByAdmin _ _ _ _ => exact hnone rfl rfl
  | bump _ _ => exact hnone rfl rfl
  | bulkRenew _ => exact hnone (filter_bumpEvents _ _) rfl

theorem registered_exec (s : State) (st : Step) :
    ((AlertRegistry.exec s st).events.filter registers).map idOf =
      (List.range' s.counter
        ((AlertRegistry.exec s st).counter - s.counter)).map some := by
  cases st with
  | call env call =>
      rcases invoke_cases env call s with ⟨resp, s', hreturns, heq⟩ | ⟨f, heq⟩
      · rw [AlertRegistry.exec_call, heq]
        exact registered_of_step (step_of_returns hreturns)
      · have hcounter : State.counter s.silenced = s.counter := rfl
        rw [AlertRegistry.exec_call, heq, hcounter, Nat.sub_self]
        rfl
  | expire keys =>
      have hcounter : (AlertRegistry.exec s (.expire keys)).counter = s.counter := rfl
      rw [hcounter, Nat.sub_self]
      rfl

end Events

section Invariant

variable {contractId : Address} {handler : EventRecord → Option ω} {w : Network ω}

/-- What holds of every network: the log has one registration for each id that
has been issued, in order, and the listener has handled the first of them. -/
structure Network.Sound (contractId : Address) (handler : EventRecord → Option ω)
    (w : Network ω) : Prop where
  ids : (w.registrations contractId).map registeredId =
    (List.range w.storage.counter).map some
  follows : ∃ n, Follows (isRegistration contractId) handler w.log w.listener n

theorem sound_initial :
    (Network.initial : Network ω).Sound contractId handler where
  ids := rfl
  follows := ⟨0, follows_fresh⟩

/-- Registrations among the events that a step adds to the log. -/
theorem filter_records (ledger : Nat) (evs : List Event) :
    ((evs.map (EventRecord.mk contractId ledger)).filter
        (isRegistration contractId)).map registeredId =
      (evs.filter registers).map idOf := by
  have hfilter : (isRegistration contractId) ∘ (EventRecord.mk contractId ledger) =
      registers := by
    funext ev
    simp [isRegistration]
  rw [List.filter_map, hfilter, List.map_map]
  rfl

/-- A poll that is served as documented handles some more registrations: all of
its page if the handler throws on none of them. -/
theorem follows_poll
    {log : List EventRecord} {l : Listener ω} {n : Nat}
    (h : Follows (isRegistration contractId) handler log l n)
    {getEvents : GetEvents} {page : List (EventRecord × Nat)}
    (hpage : getEvents (request contractId l.cursor) = some page)
    (hserves : Serves log (request contractId l.cursor) page) :
    ∃ m, Follows (isRegistration contractId) handler log
        (poll contractId handler getEvents l) (n + m) ∧
      ((∀ ev, (handler ev).isSome) → m = page.length) := by
  have hprefix : page <+: (wanted (isRegistration contractId) log).drop n := by
    rw [← h.pending, ← filter_request]
    exact hserves.1
  obtain ⟨m, hm, hall⟩ := h.consume hprefix
  refine ⟨m, ?_, fun htotal => hall fun e _ => htotal e.1⟩
  rw [poll, hpage]
  exact hm

theorem sound_exec
    (w : Network ω) (act : Action) (hadm : Admissible contractId w act)
    (h : w.Sound contractId handler) :
    (exec contractId handler w act).Sound contractId handler := by
  obtain ⟨n, hn⟩ := h.follows
  cases act with
  | registry st =>
      refine ⟨?_, n, hn.append _⟩
      have hle := counter_le_exec w.storage st
      have hids := h.ids
      rw [Network.registrations] at hids ⊢
      rw [exec, List.filter_append, List.map_append, hids, filter_records,
        registered_exec, ← List.map_append, List.range_eq_range',
        List.range_eq_range']
      congr 1
      have hsum : (AlertRegistry.exec w.storage st).counter = w.storage.counter +
          ((AlertRegistry.exec w.storage st).counter - w.storage.counter) := by
        omega
      rw [hsum, ← List.range'_append_1, Nat.zero_add, ← hsum]
  | foreign ev =>
      refine ⟨?_, n, hn.append _⟩
      have hids := h.ids
      have hforeign : [ev].filter (isRegistration contractId) = [] := by
        have hne : ev.contractId ≠ contractId := hadm
        simp [isRegistration, hne]
      rw [Network.registrations] at hids ⊢
      rw [exec, List.filter_append, hforeign, List.append_nil]
      exact hids
  | poll getEvents =>
      refine ⟨h.ids, ?_⟩
      cases hpage : getEvents (request contractId w.listener.cursor) with
      | none =>
          refine ⟨n, ?_⟩
          rw [exec, poll, hpage]
          exact hn
      | some page =>
          obtain ⟨m, hm, -⟩ := follows_poll hn hpage (hadm page hpage)
          exact ⟨n + m, hm⟩
  | restart => exact ⟨h.ids, 0, follows_fresh⟩

theorem sound_run
    {w : Network ω} (h : w.Sound contractId handler) {actions : List Action}
    (hadm : Along (exec contractId handler) (Admissible contractId) w actions) :
    (run (exec contractId handler) w actions).Sound contractId handler :=
  run_preserves sound_exec h hadm

/-- How much of the log the listener has handled. -/
theorem Network.Sound.follows_output
    (h : w.Sound contractId handler) :
    Follows (isRegistration contractId) handler w.log w.listener
      w.listener.output.length := by
  obtain ⟨n, hn⟩ := h.follows
  have hlen := congrArg List.length hn.output
  rw [List.length_map, List.length_map, List.length_take,
    Nat.min_eq_left hn.le] at hlen
  rwa [hlen]

theorem Network.Sound.length_registrations
    (h : w.Sound contractId handler) :
    (w.registrations contractId).length = w.storage.counter := by
  have hlen := congrArg List.length h.ids
  simpa using hlen

end Invariant

/-- In every interleaving, the log has exactly one registration for each id, in
the order of the ids, and the process of the listener has handled the first of
them, each once and in order, and nothing else. -/
theorem listener_in_order
    {contractId : Address} {handler : EventRecord → Option ω}
    {actions : List Action}
    (hadm : Along (exec contractId handler) (Admissible contractId)
      Network.initial actions) :
    ((run (exec contractId handler) Network.initial actions).registrations
        contractId).map registeredId =
      (List.range (run (exec contractId handler) Network.initial
        actions).storage.counter).map some ∧
    ∃ n ≤ (run (exec contractId handler) Network.initial actions).storage.counter,
      (run (exec contractId handler) Network.initial
          actions).listener.output.map some =
        (((run (exec contractId handler) Network.initial actions).registrations
          contractId).take n).map handler := by
  have hsound := sound_run sound_initial hadm
  refine ⟨hsound.ids, ?_⟩
  obtain ⟨n, hn⟩ := hsound.follows
  refine ⟨n, ?_, ?_⟩
  · rw [← hsound.length_registrations, Network.registrations, ← length_wanted]
    exact hn.le
  · rw [hn.output, Network.registrations, ← map_fst_wanted, ← List.map_take,
      List.map_map]
    rfl

section Sample

/-- A server that answers in full from a log. -/
def server (log : List EventRecord) : GetEvents :=
  fun req => some (fullPage log req)

theorem serves_fullPage (log : List EventRecord) (req : EventsRequest) :
    Serves log req (fullPage log req) := by
  exact ⟨List.take_prefix _ _, List.length_take_le _ _⟩

/-- Alice registers an alert in the registry at the address of the vault. -/
def registration : Action :=
  .registry (.call (envAt 1 [alice]) (sampleRegister alice pool))

/-- The event of the registration. -/
def registered : EventRecord where
  contractId := vault
  ledger := 1
  event := ⟨(.alert, .register), [.u64 0, .address alice, .address pool]⟩

theorem admissible_sample (handler : EventRecord → Option ω) :
    Along (exec vault handler) (Admissible vault) Network.initial
      [registration, .poll (server [registered])] := by
  refine ⟨trivial, ?_, trivial⟩
  intro page hpage
  obtain rfl := Option.some.inj hpage
  exact serves_fullPage [registered] _

end Sample

/-- A registration that a listener has fetched and handled. -/
theorem sample_in_order :
    ((run (exec vault some) Network.initial
        [registration, .poll (server [registered])]).registrations vault).map
          registeredId = [some 0] ∧
      (run (exec vault some) Network.initial
        [registration, .poll (server [registered])]).listener.output =
          [registered] := by
  obtain ⟨hids, n, hn, houtput⟩ :=
    listener_in_order (admissible_sample (some : EventRecord → Option EventRecord))
  refine ⟨hids, ?_⟩
  have hregistered : (run (exec vault some) Network.initial
      [registration, .poll (server [registered])] :
        Network EventRecord).registrations vault = [registered] := by
    decide
  have hlength : (run (exec vault some) Network.initial
      [registration, .poll (server [registered])] :
        Network EventRecord).listener.output.length = 1 := by
    decide
  rw [hregistered] at houtput
  have hcount := congrArg List.length houtput
  rw [List.length_map, List.length_map, List.length_take, hlength,
    List.length_singleton] at hcount
  rw [List.take_of_length_le (by rw [List.length_singleton]; omega)] at houtput
  exact List.map_injective_iff.mpr (Option.some_injective _) houtput

section Progress

variable {contractId : Address} {handler : EventRecord → Option ω}

/-- The server answers the poll with as many events as it may. -/
def AnsweredInFull (contractId : Address) (w : Network ω) : Action → Prop
  | .poll getEvents =>
      getEvents (request contractId w.listener.cursor) =
        some (fullPage w.log (request contractId w.listener.cursor))
  | _ => False

instance (w : Network ω) (act : Action) :
    Decidable (AnsweredInFull contractId w act) := by
  cases act <;> unfold AnsweredInFull <;> infer_instance

/-- How many polls of a run are answered in full. -/
def fullAnswers (contractId : Address) (handler : EventRecord → Option ω) :
    Network ω → List Action → Nat
  | _, [] => 0
  | w, act :: rest =>
      (if AnsweredInFull contractId w act then 1 else 0) +
        fullAnswers contractId handler (exec contractId handler w act) rest

/-- The process goes on. -/
def Action.continues : Action → Bool
  | .restart => false
  | _ => true

/-- While the process goes on it forgets nothing, and every full answer brings it
to the end of the log or on by a whole page. -/
theorem length_output_exec
    {w : Network ω} {act : Action} (hadm : Admissible contractId w act)
    (h : w.Sound contractId handler) (hgoes : act.continues = true)
    (htotal : ∀ ev, (handler ev).isSome) {target : Nat}
    (htarget : target ≤ (w.registrations contractId).length) :
    min target (w.listener.output.length +
        100 * (if AnsweredInFull contractId w act then 1 else 0)) ≤
      (exec contractId handler w act).listener.output.length := by
  have hfollows := h.follows_output
  have hidle : ¬ AnsweredInFull contractId w act →
      w.listener.output.length ≤
        (exec contractId handler w act).listener.output.length →
      min target (w.listener.output.length +
          100 * (if AnsweredInFull contractId w act then 1 else 0)) ≤
        (exec contractId handler w act).listener.output.length := by
    intro hnot hle
    rw [if_neg hnot]
    omega
  cases act with
  | registry st => exact hidle (fun hfull => hfull) (le_refl _)
  | foreign ev => exact hidle (fun hfull => hfull) (le_refl _)
  | restart => exact absurd hgoes (by simp [Action.continues])
  | poll getEvents =>
      cases hpage : getEvents (request contractId w.listener.cursor) with
      | none =>
          refine hidle ?_ ?_
          · simp [AnsweredInFull, hpage]
          · rw [exec, poll, hpage]
      | some page =>
          obtain ⟨m, hm, hall⟩ := follows_poll hfollows hpage (hadm page hpage)
          have hlen := congrArg List.length hm.output
          rw [List.length_map, List.length_map, List.length_take,
            Nat.min_eq_left hm.le, hall htotal] at hlen
          have hafter : (exec contractId handler w
              (.poll getEvents)).listener.output.length =
                w.listener.output.length + page.length := hlen
          rw [hafter]
          by_cases hfull : AnsweredInFull contractId w (.poll getEvents)
          · rw [if_pos hfull]
            have heq : page = fullPage w.log (request contractId w.listener.cursor) := by
              rw [AnsweredInFull, hpage] at hfull
              exact Option.some.inj hfull
            rw [heq, fullPage, filter_request, hfollows.pending, List.length_take,
              List.length_drop, length_wanted]
            have hlimit : (request contractId w.listener.cursor).limit = 100 := rfl
            rw [Network.registrations] at htarget
            omega
          · rw [if_neg hfull]
            omega

theorem registrations_le_exec (w : Network ω) (act : Action) :
    (w.registrations contractId).length ≤
      ((exec contractId handler w act).registrations contractId).length := by
  have hgrow : ∀ more : List EventRecord,
      (w.log.filter (isRegistration contractId)).length ≤
        ((w.log ++ more).filter (isRegistration contractId)).length := by
    intro more
    rw [List.filter_append, List.length_append]
    omega
  cases act with
  | registry st => exact hgrow _
  | foreign ev => exact hgrow _
  | poll getEvents => exact le_refl _
  | restart => exact le_refl _

theorem length_output_run
    {w : Network ω} {actions : List Action} (h : w.Sound contractId handler)
    (hadm : Along (exec contractId handler) (Admissible contractId) w actions)
    (hgoes : ∀ act ∈ actions, act.continues = true)
    (htotal : ∀ ev, (handler ev).isSome) {target : Nat}
    (htarget : target ≤ (w.registrations contractId).length) :
    min target (w.listener.output.length +
        100 * fullAnswers contractId handler w actions) ≤
      (run (exec contractId handler) w actions).listener.output.length := by
  induction actions generalizing w with
  | nil => simp [fullAnswers]
  | cons act rest ih =>
      have hstep := length_output_exec hadm.1 h (hgoes act List.mem_cons_self)
        htotal htarget
      have hrest := ih (sound_exec w act hadm.1 h) hadm.2
        (fun act' hact' => hgoes act' (List.mem_cons_of_mem _ hact'))
        (htarget.trans (registrations_le_exec w act))
      rw [run_cons, fullAnswers]
      omega

end Progress

/-- A listener whose handler never throws catches up: from any network that is
reached, as long as its process goes on, `k` polls answered in full bring it to
every registration that was in the log, or on by `100 k` of them, whatever else
happens meanwhile. -/
theorem listener_catches_up
    {contractId : Address} {handler : EventRecord → Option ω}
    (htotal : ∀ ev, (handler ev).isSome) {before actions : List Action}
    (hbefore : Along (exec contractId handler) (Admissible contractId)
      Network.initial before)
    (hactions : Along (exec contractId handler) (Admissible contractId)
      (run (exec contractId handler) Network.initial before) actions)
    (hgoes : ∀ act ∈ actions, act.continues = true) :
    min (run (exec contractId handler) Network.initial before).storage.counter
        ((run (exec contractId handler) Network.initial
            before).listener.output.length +
          100 * fullAnswers contractId handler
            (run (exec contractId handler) Network.initial before) actions) ≤
      (run (exec contractId handler) Network.initial
        (before ++ actions)).listener.output.length := by
  have hsound := sound_run sound_initial hbefore
  rw [run_append, ← hsound.length_registrations]
  exact length_output_run hsound hactions hgoes htotal (le_refl _)

/-- One full answer after one registration. -/
theorem sample_caught_up :
    1 ≤ (run (exec vault some) Network.initial
      [registration, .poll (server [registered])]).listener.output.length := by
  have hadm := admissible_sample (some : EventRecord → Option EventRecord)
  have hcaught := @listener_catches_up EventRecord vault some (fun _ => rfl)
    [registration] [.poll (server [registered])] ⟨hadm.1, trivial⟩ hadm.2
    (by simp [Action.continues])
  exact le_trans (by decide) hcaught

section Shipped

variable {scValToNative : List EventData → List Native}

theorem handle_eq_none
    (hnative : BigIntsU64 scValToNative) {ev : EventRecord} {id : Nat}
    (h : registeredId ev = some id) :
    handle scValToNative ev = none := by
  have hdata : ∃ rest, ev.event.data = .u64 id :: rest := by
    unfold registeredId idOf at h
    split at h
    · rename_i id' rest hdata
      exact ⟨rest, by rw [hdata, Option.some.inj h]⟩
    · exact absurd h (by simp)
  obtain ⟨rest, hdata⟩ := hdata
  obtain ⟨more, hmore⟩ := hnative id rest
  simp [handle, hdata, hmore, Native.stringifies]

/-- The handler that comes with the program throws on every registration, whose
data starts with an id of 64 bits: as long as the SDK makes a BigInt of that, the
program never prints anything, and its cursor never moves. -/
theorem shipped_listener_stuck
    (hnative : BigIntsU64 scValToNative) {contractId : Address}
    {actions : List Action}
    (hadm : Along (exec contractId (handle scValToNative)) (Admissible contractId)
      Network.initial actions) :
    (run (exec contractId (handle scValToNative)) Network.initial actions).listener =
      Reader.fresh := by
  have hsound := sound_run sound_initial hadm
  generalize run (exec contractId (handle scValToNative)) Network.initial actions = w
    at hsound
  obtain ⟨n, hn⟩ := hsound.follows
  have hthrows : ∀ e ∈ wanted (isRegistration contractId) w.log,
      handle scValToNative e.1 = none := by
    intro e he
    have hmem : e.1 ∈ w.registrations contractId := by
      rw [Network.registrations, ← map_fst_wanted]
      exact List.mem_map_of_mem he
    have hid : registeredId e.1 ∈
        (List.range w.storage.counter).map some := by
      rw [← hsound.ids]
      exact List.mem_map_of_mem hmem
    obtain ⟨id, -, hid⟩ := List.mem_map.mp hid
    exact handle_eq_none hnative hid.symm
  have hzero : (wanted (isRegistration contractId) w.log).take n = [] := by
    cases htake : (wanted (isRegistration contractId) w.log).take n with
    | nil => rfl
    | cons e rest =>
        have he : e ∈ wanted (isRegistration contractId) w.log :=
          List.mem_of_mem_take (htake ▸ List.mem_cons_self)
        have hout := hn.output
        rw [htake, List.map_cons, hthrows e he] at hout
        cases hl : w.listener.output <;> simp [hl] at hout
  have houtput := hn.output
  have hcursor := hn.cursor
  rw [hzero] at houtput hcursor
  have hnil : w.listener.output = [] := List.map_eq_nil_iff.mp houtput
  cases hl : w.listener with
  | mk cursor output =>
      rw [hl] at hcursor hnil
      rw [show cursor = none from hcursor, show output = [] from hnil]
      rfl

/-- What `scValToNative` makes of each value in an event of the registry. -/
def elementToNative : EventData → Native
  | .u64 n => .bigint n
  | .u32 n => .number n
  | .bool b => .boolean b
  | .address a => .string a

theorem bigIntsU64_map : BigIntsU64 (List.map elementToNative) := by
  intro n rest
  exact ⟨rest.map elementToNative, rfl⟩

/-- The listener as shipped, after the same registration. -/
theorem sample_stuck :
    (run (exec vault (handle (List.map elementToNative))) Network.initial
      [registration, .poll (server [registered])]).listener = Reader.fresh :=
  shipped_listener_stuck bigIntsU64_map (admissible_sample _)

end Shipped

end EventListener
end TxWatch
