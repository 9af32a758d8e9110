import TxWatch.AlertRegistry.Exactness
import TxWatch.AlertRegistry.Retraction
import TxWatch.Soroban.Redelivery

/-!
# Retries are harmless, but for registrations

A client that does not hear of its call makes it again.  Every entry point but
the two that register absorbs this: after a call that succeeded, the same call
is refused or writes what is there already, but for the time of the last change.
-/

namespace TxWatch
namespace AlertRegistry

open Soroban Soroban.Contract Indexed

/-- A record without the time of its last change. -/
def AlertConfig.unstamped (cfg : AlertConfig) : AlertConfig :=
  { cfg with updatedAt := 0 }

theorem AlertConfig.eq_stamped
    {cfg cfg' : AlertConfig} (h : cfg'.unstamped = cfg.unstamped) :
    cfg' = { cfg with updatedAt := cfg'.updatedAt } := by
  cases cfg
  cases cfg'
  simp_all [AlertConfig.unstamped]

/-- What is the same without its stamp is the same record, stamped in its own way. -/
theorem exists_stamped
    {o o' : Option AlertConfig} {cfg : AlertConfig}
    (h : o'.map AlertConfig.unstamped = o.map AlertConfig.unstamped)
    (hcfg : o = some cfg) :
    ∃ now, o' = some { cfg with updatedAt := now } := by
  rw [hcfg, Option.map_some] at h
  obtain ⟨cfg', hcfg', hsame⟩ := Option.map_eq_some_iff.mp h
  refine ⟨cfg'.updatedAt, ?_⟩
  rw [hcfg', ← AlertConfig.eq_stamped hsame]

namespace Registry

/-- The registries differ in nothing but the times of the last changes. -/
structure Alike (r t : Registry) : Prop where
  row : ∀ id, (t.table.row id).map AlertConfig.unstamped =
    (r.table.row id).map AlertConfig.unstamped
  index : t.table.index = r.table.index
  active : t.active = r.active
  inst : t.inst = r.inst

section Alike

variable {r r' t t' u : Registry}

theorem Alike.refl (r : Registry) : r.Alike r := by
  exact ⟨fun _ => rfl, rfl, rfl, rfl⟩

theorem Alike.symm (h : r.Alike t) : t.Alike r := by
  exact ⟨fun id => (h.row id).symm, h.index.symm, h.active.symm, h.inst.symm⟩

theorem Alike.trans (h : r.Alike t) (h' : t.Alike u) : r.Alike u := by
  exact ⟨fun id => (h'.row id).trans (h.row id), h'.index.trans h.index,
    h'.active.trans h.active, h'.inst.trans h.inst⟩

theorem Alike.exists_row
    (h : r.Alike t) {id : Nat} {cfg : AlertConfig}
    (hrow : r.table.row id = some cfg) :
    ∃ now, t.table.row id = some { cfg with updatedAt := now } := by
  exact exists_stamped (h.row id) hrow

theorem Alike.isSome_row (h : r.Alike t) (id : Nat) :
    (t.table.row id).isSome = (r.table.row id).isSome := by
  simpa using congrArg Option.isSome (h.row id)

theorem Alike.live (h : r.Alike t) (ids : List Nat) :
    t.table.live ids = r.table.live ids := by
  unfold Table.live
  simp only [h.isSome_row]

theorem Alike.nextId (h : r.Alike t) : t.nextId = r.nextId := by
  rw [Registry.nextId, h.inst, Registry.nextId]

theorem Alike.paused (h : r.Alike t) : t.paused = r.paused := by
  rw [Registry.paused, h.inst, Registry.paused]

theorem Alike.admins (h : r.Alike t) : t.admins = r.admins := by
  rw [Registry.admins, h.inst, Registry.admins]

theorem Alike.isAdmin (h : r.Alike t) {a : Address} (ha : r.IsAdmin a) :
    t.IsAdmin a := by
  obtain ⟨admins, hadmins, hmem⟩ := ha
  exact ⟨admins, h.admins.trans hadmins, hmem⟩

theorem Alike.fits
    (h : r.Alike t) {owner : Address} {additional : Nat}
    (hfits : r.Fits owner additional) :
    t.Fits owner additional := by
  have hlimit : t.limit = r.limit := by
    rw [Registry.limit, h.inst, Registry.limit]
  have hlive : t.liveOf owner = r.liveOf owner := by
    rw [Registry.liveOf, h.index, h.live, Registry.liveOf]
  rwa [Registry.Fits, hlimit, hlive]

theorem Alike.isActive (h : r.Alike t) (id : Nat) :
    t.isActive id = r.isActive id := by
  have hid := congrArg (Option.any AlertConfig.active) (h.row id)
  simpa [Registry.isActive, Option.any_map, Function.comp_def,
    AlertConfig.unstamped] using hid

theorem Alike.activeAmong (h : r.Alike t) (ids : List Nat) :
    t.activeAmong ids = r.activeAmong ids := by
  exact Finset.filter_congr fun id _ => by rw [h.isActive]

/-- Whether a query is answered does not depend on stamps. -/
theorem Alike.isSome_answer
    (h : r.Alike t) {env env' : Env} (hpeer : env'.peer = env.peer) (call : Call) :
    (t.answer env' call).isSome = (r.answer env call).isSome := by
  have hgate : t.gateOpen env' call = r.gateOpen env call := by
    simp only [gateOpen, h.inst, hpeer]
  cases call <;> simp only [answer, h.admins, hgate, Option.isSome_map] <;>
    first
    | rfl
    | split_ifs <;> rfl

theorem Alike.prunedFor (h : r.Alike t) (owner : Address) :
    (r.prunedFor owner).Alike (t.prunedFor owner) := by
  refine ⟨?_, ?_, ?_, ?_⟩
  · intro id
    rw [row_prunedFor, row_prunedFor]
    exact h.row id
  · have hlimit : t.limit = r.limit := by
      rw [Registry.limit, h.inst, Registry.limit]
    unfold Registry.prunedFor
    rw [hlimit]
    split_ifs
    · funext kind a
      simp only [Table.prune, Table.index_setIndex, h.index, h.live]
    · exact h.index
  · rw [active_prunedFor, active_prunedFor, h.active]
  · rw [inst_prunedFor, inst_prunedFor, h.inst]

/-- Writing alike records under an id. -/
theorem Alike.row_update
    (h : r.Alike t) {id : Nat} {o o' : Option AlertConfig}
    (hsame : o'.map AlertConfig.unstamped = o.map AlertConfig.unstamped)
    (hr : r'.table.row = Function.update r.table.row id o)
    (ht : t'.table.row = Function.update t.table.row id o') (id' : Nat) :
    (t'.table.row id').map AlertConfig.unstamped =
      (r'.table.row id').map AlertConfig.unstamped := by
  rw [hr, ht]
  by_cases hid : id' = id
  · subst hid
    simpa using hsame
  · rw [Function.update_of_ne hid, Function.update_of_ne hid]
    exact h.row id'

theorem Alike.create (h : r.Alike t) (cfg : AlertConfig) :
    (r.create cfg).Alike (t.create cfg) := by
  refine ⟨?_, ?_, ?_, ?_⟩
  · refine h.row_update rfl (row_create r cfg) ?_
    rw [row_create, h.nextId]
  · funext kind a
    simp only [Registry.create, Table.insert, h.index, h.nextId]
  · simp only [Registry.create, h.active, h.nextId]
  · simp only [Registry.create, h.inst, h.nextId]

theorem Alike.createAll (h : r.Alike t) (cfgs : List AlertConfig) :
    (r.createAll cfgs).Alike (t.createAll cfgs) := by
  induction cfgs generalizing r t with
  | nil => exact h
  | cons cfg rest ih => exact ih (h.create cfg)

theorem Alike.configure
    (h : r.Alike t) (i : InstanceKey) (w : i.Value) :
    (r.configure i w).Alike (t.configure i w) := by
  refine ⟨h.row, h.index, h.active, ?_⟩
  simp only [Registry.configure, h.inst]

theorem Alike.rewrite_flag
    (h : r.Alike t) (id : Nat) {cfg cfg' : AlertConfig}
    (hcfg : cfg'.unstamped = cfg.unstamped) (active : Option Bool) :
    ((r.rewrite id cfg).flag id active).Alike
      ((t.rewrite id cfg').flag id active) := by
  have hsome : (some cfg').map AlertConfig.unstamped =
      (some cfg).map AlertConfig.unstamped := congrArg some hcfg
  refine ⟨?_, ?_, ?_, ?_⟩
  · exact h.row_update hsome (row_rewrite_flag ..) (row_rewrite_flag ..)
  · rw [table_flag, table_flag]
    exact h.index
  · cases active with
    | none => exact h.active
    | some b => simp only [Registry.flag, active_rewrite, h.active]
  · simp [h.inst]

theorem Alike.move
    (h : r.Alike t) (kind : IndexKind) (id : Nat) (a b : Address)
    {cfg cfg' : AlertConfig} (hcfg : cfg'.unstamped = cfg.unstamped) :
    (r.move kind id a b cfg).Alike (t.move kind id a b cfg') := by
  have hsome : (some cfg').map AlertConfig.unstamped =
      (some cfg).map AlertConfig.unstamped := congrArg some hcfg
  refine ⟨?_, ?_, h.active, h.inst⟩
  · exact h.row_update hsome (row_move ..) (row_move ..)
  · funext kind' c
    simp only [Registry.move, Table.move, Table.file, Table.unfile,
      Table.index_setRow, Table.index_setIndex, h.index]

theorem Alike.erase
    (h : r.Alike t) (id : Nat) {cfg cfg' : AlertConfig}
    (hparty : cfg'.party = cfg.party) :
    (r.erase id cfg).Alike (t.erase id cfg') := by
  refine ⟨?_, ?_, ?_, h.inst⟩
  · exact h.row_update rfl (row_erase ..) (row_erase ..)
  · funext kind a
    simp only [Registry.erase, Table.erase, h.index, hparty]
  · simp only [Registry.erase, h.active]

theorem unstamped_deactivated (cfg : AlertConfig) (now : Nat) :
    (cfg.deactivated now).unstamped = { cfg.unstamped with active := false } := by
  unfold AlertConfig.deactivated AlertConfig.unstamped
  split_ifs with hactive
  · rfl
  · simp_all

theorem Alike.deactivate (h : r.Alike t) (now now' : Nat) (ids : List Nat) :
    (r.deactivate now ids).Alike (t.deactivate now' ids) := by
  refine ⟨?_, h.index, ?_, h.inst⟩
  · intro id
    simp only [Registry.deactivate]
    split_ifs
    · have hid := congrArg
        (Option.map fun cfg : AlertConfig => { cfg with active := false }) (h.row id)
      simpa [Function.comp_def, unstamped_deactivated] using hid
    · exact h.row id
  · funext id
    have hactive := h.isActive id
    unfold Registry.isActive at hactive
    simp only [Registry.deactivate, hactive, h.active]

end Alike

section Steps

variable {env env' : Env} {r r' r'' t : Registry} {call : Call}
  {resp resp' : Response} {evs evs' : List Event}

/-- What a call of an owner makes of a record does not depend on its stamp. -/
theorem amended_unstamped
    {now now' stamp : Nat} {cfg cfg' : AlertConfig}
    (h : call.amended now cfg = some cfg') :
    ∃ dfg, call.amended now' { cfg with updatedAt := stamp } = some dfg ∧
      dfg.unstamped = cfg'.unstamped := by
  cases call with
  | updateAlert _ _ _ _ | updateWebhook _ _ _ | proposeWebhook _ _ _
  | updateLabel _ _ _ | updateTags _ _ _ =>
      obtain rfl := Option.some.inj h
      exact ⟨_, rfl, rfl⟩
  | confirmWebhook _ _ =>
      obtain ⟨pending, hpending, rfl⟩ := Option.map_eq_some_iff.mp h
      refine ⟨_, Option.map_eq_some_iff.mpr ⟨pending, hpending, rfl⟩, rfl⟩
  | _ => exact absurd h (by simp [Call.amended])

theorem amendEvents_stamped (stamp : Nat) (cfg : AlertConfig) :
    call.amendEvents { cfg with updatedAt := stamp } = call.amendEvents cfg := by
  cases call <;> rfl

/-- A call does not see the times of the last changes, and that of its own ledger
only where it registers: whatever it does in one registry, it does in an alike
one, at any time.  Only the answer of a query may differ. -/
theorem Step.alike
    (h : Step env r call resp evs r') (ha : r.Alike t)
    (hauths : env'.auths = env.auths)
    (hpeer : call.isQuery = true → env'.peer = env.peer)
    (henrols : call.enrols env'.timestamp = call.enrols env.timestamp) :
    ∃ resp' t', Step env' t call resp' evs t' ∧ r'.Alike t' ∧
      (call.isQuery = false → resp' = resp) := by
  cases h with
  | query hquery hanswer =>
      have hsome := ha.isSome_answer (hpeer hquery) call
      rw [hanswer] at hsome
      obtain ⟨resp', hanswer'⟩ := Option.isSome_iff_exists.mp hsome
      exact ⟨resp', t, .query hquery hanswer', ha, by simp [hquery]⟩
  | initialise hnone =>
      exact ⟨_, _, .initialise (by rwa [ha.inst]), ha.configure _ _, fun _ => rfl⟩
  | administer hadm hset hauth hadmins hmem hok =>
      exact ⟨_, _, .administer hadm hset (by rwa [hauths]) (ha.admins.trans hadmins)
        hmem hok, ha.configure _ _, fun _ => rfl⟩
  | enrol henrol hok hpaused hauth hfits hroom =>
      rw [← henrols] at henrol
      rw [← ha.nextId] at hroom ⊢
      exact ⟨_, _, .enrol henrol hok (ha.paused.trans hpaused) (by rwa [hauths])
        (ha.fits hfits) hroom, (ha.prunedFor _).createAll _, fun _ => rfl⟩
  | amend hamend hok hpaused hauth hrow howner hnew =>
      obtain ⟨stamp, hrow'⟩ := ha.exists_row hrow
      obtain ⟨dfg, hdfg, hsame⟩ := amended_unstamped hnew
      refine ⟨_, _, ?_, ha.rewrite_flag _ hsame _, fun _ => rfl⟩
      rw [← amendEvents_stamped stamp]
      exact .amend hamend hok (fun hask => ha.paused.trans (hpaused hask))
        (by rwa [hauths]) hrow' howner hdfg
  | activate hact hauth hadmin hrow =>
      obtain ⟨stamp, hrow'⟩ := ha.exists_row hrow
      refine ⟨_, _, .activate hact (by rwa [hauths]) (ha.isAdmin hadmin) hrow', ?_,
        fun _ => rfl⟩
      exact ha.rewrite_flag _ (by rfl) _
  | deactivateAll hpaused hauth =>
      rw [← ha.index, ← ha.activeAmong]
      exact ⟨_, _, .deactivateAll (ha.paused.trans hpaused) (by rwa [hauths]),
        ha.deactivate _ _ _, fun _ => rfl⟩
  | retarget hpaused hauth hrow howner =>
      obtain ⟨stamp, hrow'⟩ := ha.exists_row hrow
      exact ⟨_, _, .retarget (ha.paused.trans hpaused) (by rwa [hauths]) hrow' howner,
        ha.move _ _ _ _ rfl, fun _ => rfl⟩
  | keepOwner hpaused hauth hrow howner =>
      obtain ⟨stamp, hrow'⟩ := ha.exists_row hrow
      exact ⟨_, _, .keepOwner (ha.paused.trans hpaused) (by rwa [hauths]) hrow' howner,
        ha, fun _ => rfl⟩
  | reown hne hpaused hauth hrow howner hfits =>
      obtain ⟨stamp, hrow'⟩ := ha.exists_row hrow
      exact ⟨_, _, .reown hne (ha.paused.trans hpaused) (by rwa [hauths]) hrow' howner
        (ha.fits hfits), (ha.prunedFor _).move _ _ _ _ rfl, fun _ => rfl⟩
  | remove hpaused hauth hrow howner =>
      obtain ⟨stamp, hrow'⟩ := ha.exists_row hrow
      exact ⟨_, _, .remove (ha.paused.trans hpaused) (by rwa [hauths]) hrow' howner,
        ha.erase _ (party_eq_of_eq rfl rfl), fun _ => rfl⟩
  | removeByAdmin hpaused hauth hadmin hrow =>
      obtain ⟨stamp, hrow'⟩ := ha.exists_row hrow
      have hstep := Step.removeByAdmin (ha.paused.trans hpaused)
        (by rwa [hauths]) (ha.isAdmin hadmin) hrow'
      exact ⟨_, _, hstep, ha.erase _ (party_eq_of_eq rfl rfl), fun _ => rfl⟩
  | bump hpaused hlive =>
      exact ⟨_, _, .bump (ha.paused.trans hpaused) (by rwa [ha.isSome_row]), ha,
        fun _ => rfl⟩
  | bulkRenew hsize =>
      rw [← ha.live]
      exact ⟨_, _, .bulkRenew hsize, ha, fun _ => rfl⟩

/-- What a configuration call that succeeds does. -/
theorem Step.of_administers
    (h : Step env r call resp evs r') {admin : Address}
    (hadm : call.administers = some admin) :
    ∃ admins entry, call.setting admins = some entry ∧ r.admins = some admins ∧
      call.Permitted admins ∧ r' = r.configure entry.1 entry.2 := by
  cases h with
  | query hquery =>
      rw [Call.administers_of_isQuery hquery] at hadm
      cases hadm
  | administer _ hset _ hadmins _ hok => exact ⟨_, _, hset, hadmins, hok, rfl⟩
  | enrol henrol _ _ _ _ _ =>
      rw [Call.enrols_of_administers hadm] at henrol
      cases henrol
  | amend hamend _ _ _ _ _ _ =>
      rw [Call.amends_of_administers hadm] at hamend
      cases hamend
  | activate hact _ _ _ =>
      rw [Call.administers_of_activates hact] at hadm
      cases hadm
  | _ => simp [Call.administers] at hadm

/-- What a switch of an admin that succeeds does. -/
theorem Step.of_activates
    (h : Step env r call resp evs r') {admin : Address} {id : Nat} {active : Bool}
    (hact : call.activates = some (admin, id, active)) :
    ∃ cfg, r.table.row id = some cfg ∧
      r' = (r.rewrite id
        { cfg with active := active, updatedAt := env.timestamp }).flag id
        (some active) := by
  cases h with
  | query hquery =>
      rw [Call.activates_of_isQuery hquery] at hact
      cases hact
  | administer hadm _ _ _ _ _ =>
      rw [Call.administers_of_activates hact] at hadm
      cases hadm
  | enrol henrol _ _ _ _ _ =>
      rw [Call.enrols_of_activates hact] at henrol
      cases henrol
  | amend hamend _ _ _ _ _ _ =>
      rw [Call.amends_of_activates hact] at hamend
      cases hamend
  | activate hact' _ _ hrow =>
      obtain ⟨rfl, rfl, rfl⟩ : _ ∧ _ ∧ _ := by simpa [hact'] using hact
      exact ⟨_, hrow, rfl⟩
  | _ => simp [Call.activates] at hact

/-- What a call of an owner that succeeds does to the registry. -/
theorem Step.of_amends_registry
    (h : Step env r call resp evs r') {caller : Address} {id : Nat}
    (hamend : call.amends = some (caller, id)) :
    ∃ cfg cfg', r.table.row id = some cfg ∧
      call.amended env.timestamp cfg = some cfg' ∧
      r' = (r.rewrite id cfg').flag id call.amendedFlag := by
  cases h with
  | query hquery => simp [Call.amends_of_isQuery hquery] at hamend
  | administer hadm _ _ _ _ _ => simp [Call.amends_of_administers hadm] at hamend
  | enrol henrol _ _ _ _ _ => simp [Call.amends_of_enrols henrol] at hamend
  | activate hact _ _ _ => simp [Call.amends_of_activates hact] at hamend
  | amend hamend' _ _ _ hrow _ hcfg =>
      obtain ⟨rfl, rfl⟩ := Prod.mk.inj (Option.some.inj (hamend'.symm.trans hamend))
      exact ⟨_, _, hrow, hcfg, rfl⟩
  | _ => simp [Call.amends] at hamend

theorem Step.eq_of_isQuery
    (h : Step env r call resp evs r') (hquery : call.isQuery = true) :
    r' = r := by
  cases h with
  | query _ => rfl
  | administer hadm _ _ _ _ _ =>
      rw [Call.administers_of_isQuery hquery] at hadm
      cases hadm
  | enrol henrol _ _ _ _ _ =>
      rw [Call.enrols_of_isQuery hquery] at henrol
      cases henrol
  | amend hamend _ _ _ _ _ _ =>
      rw [Call.amends_of_isQuery hquery] at hamend
      cases hamend
  | activate hact _ _ _ =>
      rw [Call.activates_of_isQuery hquery] at hact
      cases hact
  | _ => simp [Call.isQuery] at hquery

/-- Configuring again sets the same entry, or is no longer permitted. -/
theorem configure_again
    {admins admins' : List Address} {entry entry' : (i : InstanceKey) × i.Value}
    (hset : call.setting admins = some entry)
    (hset' : call.setting admins' = some entry')
    (hok : call.Permitted admins')
    (hadmins : (r.configure entry.1 entry.2).admins = some admins') :
    (r.configure entry.1 entry.2).configure entry'.1 entry'.2 =
      r.configure entry.1 entry.2 := by
  have hsame : entry' = entry := by
    cases call with
    | addAdmin _ newAdmin =>
        obtain rfl := Option.some.inj hset
        obtain rfl : admins ++ [newAdmin] = admins' := Option.some.inj hadmins
        exact absurd (List.mem_append_right _ List.mem_cons_self) hok
    | removeAdmin _ targetAdmin =>
        obtain rfl := Option.some.inj hset
        obtain rfl : admins.filter (fun a => a ≠ targetAdmin) = admins' :=
          Option.some.inj hadmins
        exact absurd hok.1 (by simp)
    | _ => exact Option.some.inj (hset'.symm.trans hset)
  rw [hsame]
  unfold configure
  rw [Function.update_idem]

/-- Amending again writes what is there. -/
theorem amended_again
    {now now' : Nat} {cfg cfg' cfg'' : AlertConfig}
    (h : call.amended now cfg = some cfg')
    (h' : call.amended now' cfg' = some cfg'') :
    cfg''.unstamped = cfg'.unstamped := by
  cases call with
  | confirmWebhook _ _ =>
      obtain ⟨pending, -, rfl⟩ := Option.map_eq_some_iff.mp h
      exact absurd h' (by simp [Call.amended])
  | updateAlert _ _ _ _ | updateWebhook _ _ _ | proposeWebhook _ _ _
  | updateLabel _ _ _ | updateTags _ _ _ =>
      obtain rfl := Option.some.inj h
      obtain rfl := Option.some.inj h'
      rfl
  | _ => exact absurd h (by simp [Call.amended])

theorem rewrite_flag_again
    (r : Registry) (id : Nat) {cfg cfg' : AlertConfig}
    (hcfg : cfg'.unstamped = cfg.unstamped) (active : Option Bool) :
    Alike ((r.rewrite id cfg).flag id active)
      ((((r.rewrite id cfg).flag id active).rewrite id cfg').flag id active) := by
  refine ⟨?_, ?_, ?_, ?_⟩
  · intro id'
    rw [row_rewrite_flag, row_rewrite_flag]
    by_cases hid : id' = id
    · subst hid
      simp [hcfg]
    · rw [Function.update_of_ne hid]
  · simp
  · cases active <;> simp [Registry.flag]
  · simp

theorem deactivate_again
    (r : Registry) (now now' : Nat) (ids : List Nat) :
    (r.deactivate now ids).deactivate now' ids = r.deactivate now ids := by
  have hrow : ∀ id cfg, id ∈ ids →
      (r.deactivate now ids).table.row id = some cfg → cfg.active = false := by
    intro id cfg hid hrow
    simp only [deactivate, if_pos hid] at hrow
    obtain ⟨old, -, rfl⟩ := Option.map_eq_some_iff.mp hrow
    exact AlertConfig.active_deactivated now old
  apply Registry.eq_of_forall
  · intro id
    rw [deactivate]
    by_cases hid : id ∈ ids
    · cases hget : (r.deactivate now ids).table.row id with
      | none => simp [hget]
      | some cfg => simp [hget, AlertConfig.deactivated, hrow id cfg hid hget]
    · simp only [if_neg hid]
  · intro kind a
    rfl
  · intro id
    rw [deactivate]
    by_cases hid : id ∈ ids
    · cases hget : (r.deactivate now ids).table.row id with
      | none => simp [hget]
      | some cfg => simp [hget, hrow id cfg hid hget]
    · simp [hid]
  · rfl

theorem move_again
    (hs : r.Safe) {kind : IndexKind} {id : Nat} {b : Address}
    {cfg cfg' cfg'' : AlertConfig} (hrow : r.table.row id = some cfg)
    (hcfg : cfg''.unstamped = cfg'.unstamped) :
    Alike (r.move kind id (cfg.party kind) b cfg')
      ((r.move kind id (cfg.party kind) b cfg').move kind id b b cfg'') := by
  refine ⟨?_, ?_, rfl, rfl⟩
  · intro id'
    rw [row_move, row_move]
    by_cases hid : id' = id
    · subst hid
      simp [hcfg]
    · rw [Function.update_of_ne hid]
  · exact Table.index_move_again (hs.sound.not_mem_unfile kind hrow b) cfg' cfg''

/-- After a call that succeeded, and registered nothing, the same call is refused
at any time or changes nothing but stamps. -/
theorem Step.again
    (hs : r.Safe) (h : Step env r call resp evs r')
    (henrols : call.enrols env.timestamp = none)
    (h' : Step env' r' call resp' evs' r'') :
    r'.Alike r'' := by
  cases h with
  | query hquery =>
      rw [h'.eq_of_isQuery hquery]
      exact Alike.refl r
  | enrol henrol _ _ _ _ _ =>
      rw [henrols] at henrol
      cases henrol
  | administer hadm hset _ _ _ _ =>
      obtain ⟨admins', entry', hset', hadmins', hok', rfl⟩ := h'.of_administers hadm
      rw [configure_again hset hset' hok' hadmins']
      exact Alike.refl _
  | amend hamend _ _ _ _ _ hnew =>
      obtain ⟨old, new, hold, hnew', rfl⟩ := h'.of_amends_registry hamend
      rw [row_rewrite_flag, Function.update_self] at hold
      obtain rfl := Option.some.inj hold
      exact rewrite_flag_again r _ (amended_again hnew hnew') _
  | activate hact _ _ _ =>
      obtain ⟨old, hold, rfl⟩ := h'.of_activates hact
      rw [row_rewrite_flag, Function.update_self] at hold
      obtain rfl := Option.some.inj hold
      exact rewrite_flag_again r _ (by rfl) _
  | initialise _ =>
      cases h' with
      | initialise hnone => simp [configure] at hnone
      | _ => simp_all [Call.isQuery, Call.administers, Call.amends, Call.activates,
          Call.enrols]
  | deactivateAll _ _ =>
      cases h' with
      | deactivateAll _ _ =>
          rw [show (r.deactivate env.timestamp _).table.index = r.table.index from rfl,
            deactivate_again]
          exact Alike.refl _
      | _ => simp_all [Call.isQuery, Call.administers, Call.amends, Call.activates,
          Call.enrols]
  | retarget _ _ hrow _ =>
      cases h' with
      | retarget _ _ hrow' _ =>
          rw [row_move, Function.update_self] at hrow'
          obtain rfl := Option.some.inj hrow'
          exact move_again hs hrow rfl
      | _ => simp_all [Call.isQuery, Call.administers, Call.amends, Call.activates,
          Call.enrols]
  | keepOwner _ _ _ _ =>
      cases h' with
      | keepOwner _ _ _ _ => exact Alike.refl r
      | reown hne _ _ _ _ _ => exact absurd rfl hne
      | _ => simp_all [Call.isQuery, Call.administers, Call.amends, Call.activates,
          Call.enrols]
  | reown hne _ _ _ _ _ =>
      cases h' with
      | keepOwner _ _ _ _ => exact absurd rfl hne
      | reown _ _ _ hrow' howner' _ =>
          rw [row_reown, Function.update_self] at hrow'
          obtain rfl := Option.some.inj hrow'
          exact absurd howner' hne
      | _ => simp_all [Call.isQuery, Call.administers, Call.amends, Call.activates,
          Call.enrols]
  | remove _ _ _ _ =>
      cases h' with
      | remove _ _ hrow' _ =>
          rw [row_erase, Function.update_self] at hrow'
          cases hrow'
      | _ => simp_all [Call.isQuery, Call.administers, Call.amends, Call.activates,
          Call.enrols]
  | removeByAdmin _ _ _ _ =>
      cases h' with
      | removeByAdmin _ _ _ hrow' =>
          rw [row_erase, Function.update_self] at hrow'
          cases hrow'
      | _ => simp_all [Call.isQuery, Call.administers, Call.amends, Call.activates,
          Call.enrols]
  | bump _ _ =>
      cases h' with
      | bump _ _ => exact Alike.refl r
      | _ => simp_all [Call.isQuery, Call.administers, Call.amends, Call.activates,
          Call.enrols]
  | bulkRenew _ =>
      cases h' with
      | bulkRenew _ => exact Alike.refl r
      | _ => simp_all [Call.isQuery, Call.administers, Call.amends, Call.activates,
          Call.enrols]

end Steps

end Registry

section Calls

variable {env env' : Env} {s t : State} {call : Call}

theorem events_of_error
    {f : Failure ContractError} (h : (invoke env call s).1 = .error f) :
    (invoke env call s).2.events = [] := by
  rcases invoke_cases env call s with ⟨resp, s', -, heq⟩ | ⟨f', heq⟩
  · rw [heq] at h
    cases h
  · rw [heq]
    rfl

/-- A call that succeeds in one storage does so in an alike one. -/
theorem ok_of_alike
    (ht : t.Leakless) (ha : s.view.Alike t.view)
    (hauths : env'.auths = env.auths)
    (hpeer : call.isQuery = true → env'.peer = env.peer)
    (henrols : call.enrols env'.timestamp = call.enrols env.timestamp)
    {resp : Response} (hok : (invoke env call s).1 = .ok resp) :
    (∃ resp', (invoke env' call t).1 = .ok resp' ∧
        (call.isQuery = false → resp' = resp)) ∧
      (invoke env' call t).2.events = (invoke env call s).2.events ∧
      (invoke env call s).2.view.Alike (invoke env' call t).2.view := by
  rcases invoke_refines env call s with ⟨resp₀, hok₀, hstep⟩ | ⟨⟨f, hf⟩, -⟩
  · obtain rfl : resp₀ = resp := by
      rw [hok] at hok₀
      exact (Except.ok.inj hok₀).symm
    obtain ⟨resp', t', hstep', ha', hsame⟩ := hstep.alike ha hauths hpeer henrols
    obtain ⟨hok', hevents, hview⟩ := invoke_of_step ht hstep'
    exact ⟨⟨resp', hok', hsame⟩, hevents, by rwa [hview]⟩
  · rw [hok] at hf
    cases hf

/-- So a call ends alike in alike storages, and but for queries with the same
answer. -/
theorem endsAlike_of_alike
    (hs : s.Leakless) (ht : t.Leakless) (ha : s.view.Alike t.view)
    (hauths : env'.auths = env.auths)
    (hpeer : call.isQuery = true → env'.peer = env.peer)
    (henrols : call.enrols env'.timestamp = call.enrols env.timestamp) :
    ((∃ resp, (invoke env' call t).1 = .ok resp) ↔
        ∃ resp, (invoke env call s).1 = .ok resp) ∧
      (call.isQuery = false → ∀ resp, (invoke env' call t).1 = .ok resp ↔
        (invoke env call s).1 = .ok resp) ∧
      (invoke env' call t).2.events = (invoke env call s).2.events ∧
      (invoke env call s).2.view.Alike (invoke env' call t).2.view := by
  rcases invoke_refines env call s with ⟨resp, hok, -⟩ | ⟨⟨f, hf⟩, hview⟩
  · obtain ⟨⟨resp', hok', hsame⟩, hevents, ha'⟩ :=
      ok_of_alike ht ha hauths hpeer henrols hok
    refine ⟨⟨fun _ => ⟨resp, hok⟩, fun _ => ⟨resp', hok'⟩⟩, ?_, hevents, ha'⟩
    intro hquery u
    rw [hok, hok', hsame hquery]
  · rcases invoke_refines env' call t with ⟨resp', hok', -⟩ | ⟨⟨f', hf'⟩, hview'⟩
    · obtain ⟨⟨resp, hok, -⟩, -, -⟩ := ok_of_alike hs ha.symm hauths.symm
        (fun hquery => (hpeer hquery).symm) henrols.symm hok'
      rw [hf] at hok
      cases hok
    · refine ⟨?_, ?_, ?_, ?_⟩
      · simp [hf, hf']
      · simp [hf, hf']
      · rw [events_of_error hf, events_of_error hf']
      · rwa [hview, hview']

theorem view_of_isQuery
    (hquery : call.isQuery = true) (env : Env) (s : State) :
    (invoke env call s).2.view = s.view := by
  rcases invoke_refines env call s with ⟨resp, -, hstep⟩ | ⟨-, hview⟩
  · exact hstep.eq_of_isQuery hquery
  · exact hview

theorem enrols_of_not_registers
    (h : call.registers = false) (now : Nat) :
    call.enrols now = none := by
  cases call <;> simp_all [Call.registers, Call.enrols]

/-- A call that is made again changes nothing but stamps, whether it succeeded the
first time or was refused. -/
theorem alike_again
    (hs : s.Leakless) (hregisters : call.registers = false)
    (hauths : env'.auths = env.auths) :
    (invoke env call s).2.view.Alike
      (invoke env' call (invoke env call s).2).2.view := by
  have henrols := enrols_of_not_registers hregisters
  rcases invoke_refines env' call (invoke env call s).2 with
    ⟨resp', hok', hstep'⟩ | ⟨-, hview'⟩
  · rcases invoke_refines env call s with ⟨resp, -, hstep⟩ | ⟨⟨f, hf⟩, hview⟩
    · exact hstep.again hs.safe (henrols _) hstep'
    · cases hquery : call.isQuery with
      | true =>
          rw [view_of_isQuery hquery env' (invoke env call s).2]
          exact Registry.Alike.refl _
      | false =>
          -- refused the first time, it would have to be refused again
          have hsame : (invoke env call s).2.view.Alike s.view := by
            rw [hview]
            exact Registry.Alike.refl _
          obtain ⟨⟨resp, hok, -⟩, -, -⟩ := ok_of_alike hs hsame hauths.symm
            (by simp [hquery]) ((henrols _).trans (henrols _).symm) hok'
          rw [hf] at hok
          cases hok
  · rw [hview']
    exact Registry.Alike.refl _

end Calls

/-- The same call in the name of the same addresses, made again at any time.
Registrations are not made again. -/
structure Invocation.RepeatedBy (i j : Invocation) : Prop where
  call : j.call = i.call
  auths : j.env.auths = i.env.auths
  registers : i.call.registers = false

section Runs

theorem alike_execCall
    (s t : State) (i : Invocation) (hs : s.Leakless) (ht : t.Leakless)
    (ha : s.view.Alike t.view) :
    (execCall s i).view.Alike (execCall t i).view := by
  exact (endsAlike_of_alike hs ht ha rfl (fun _ => rfl) rfl).2.2.2

end Runs

/-- Calls made again and again, at any time before the next call, leave the registry
that is left when each is made once, but for the times of the last changes;
whatever is called next succeeds alike and publishes the same events, and if it is
no query it answers the same. -/
theorem retries_harmless
    {sent : List (Invocation × List Invocation)}
    (hsent : ∀ d ∈ sent, ∀ j ∈ d.2, d.1.RepeatedBy j) :
    (run execCall State.empty (sent.map Prod.fst)).view.Alike
        (run execCall State.empty (delivered sent)).view ∧
      ∀ env call,
        ((∃ resp, (invoke env call
            (run execCall State.empty (delivered sent))).1 = .ok resp) ↔
          ∃ resp, (invoke env call
            (run execCall State.empty (sent.map Prod.fst))).1 = .ok resp) ∧
        (call.isQuery = false → ∀ resp,
          (invoke env call (run execCall State.empty (delivered sent))).1 = .ok resp ↔
          (invoke env call
            (run execCall State.empty (sent.map Prod.fst))).1 = .ok resp) ∧
        (invoke env call (run execCall State.empty (delivered sent))).2.events =
          (invoke env call
            (run execCall State.empty (sent.map Prod.fst))).2.events := by
  have hleakless : ∀ is, (run execCall State.empty is).Leakless := by
    intro is
    exact run_preserves (C := fun _ _ => True)
      (fun s i _ h => leakless_execCall s i h) leakless_empty
      (along_of_forall_mem _ _ fun _ _ => trivial)
  have hsame : (run execCall State.empty (sent.map Prod.fst)).view.Alike
      (run execCall State.empty (delivered sent)).view :=
    run_delivered (R := fun s t => t.view.Alike s.view) leakless_execCall
      (fun h h' => h'.trans h) (fun _ => Registry.Alike.refl _)
      (fun s t i hs ht h => alike_execCall t s i ht hs h)
      (fun s i j hs hrepeated => by
        rw [execCall, execCall, hrepeated.call]
        exact alike_again hs hrepeated.registers hrepeated.auths)
      leakless_empty leakless_empty (Registry.Alike.refl _) hsent
  refine ⟨hsame, ?_⟩
  intro env call
  obtain ⟨hok, hresp, hevents, -⟩ :=
    endsAlike_of_alike (hleakless _) (hleakless _) hsame rfl (fun _ => rfl) rfl
  exact ⟨hok, hresp, hevents⟩

/-- A removal that is sent twice. -/
theorem removal_retried :
    (run execCall State.empty
        [⟨envAt 1 [alice], sampleRegister alice pool⟩,
          ⟨envAt 2 [alice], .removeAlert alice 0⟩]).view.Alike
      (run execCall State.empty
        [⟨envAt 1 [alice], sampleRegister alice pool⟩,
          ⟨envAt 2 [alice], .removeAlert alice 0⟩,
          ⟨envAt 3 [alice], .removeAlert alice 0⟩]).view := by
  have hsent : ∀ d ∈ [((⟨envAt 1 [alice], sampleRegister alice pool⟩ : Invocation),
        ([] : List Invocation)),
      (⟨envAt 2 [alice], .removeAlert alice 0⟩,
        [⟨envAt 3 [alice], .removeAlert alice 0⟩])],
      ∀ j ∈ d.2, d.1.RepeatedBy j := by
    simp only [List.forall_mem_cons]
    exact ⟨by simp, ⟨⟨rfl, rfl, rfl⟩, by simp⟩, by simp⟩
  exact (retries_harmless hsent).1

end AlertRegistry
end TxWatch
