import TxWatch.AlertRegistry.Paging
import TxWatch.AlertRegistry.Retraction

/-!
# Reading page by page while the registry is in use

Lists grow at their ends.  As long as none of the alerts of a contract or an
owner is removed or moved meanwhile, somebody who reads them page by page meets
every alert that was there when he began, once and in order, whatever else is
called between his pages.
-/

namespace TxWatch
namespace AlertRegistry

open Soroban Soroban.Contract Indexed

/-- The alert that a call takes off a list, or moves to the end of one. -/
def Call.relocates : Call → Option Nat
  | .removeAlert _ configId | .removeAlertByAdmin _ configId
  | .updateTargetContract _ configId _
  | .transferAlertOwnership _ configId _ => some configId
  | _ => none

/-- The call leaves the alerts on the list of `a` in their places. -/
def LeavesInPlace (kind : IndexKind) (a : Address) (s : State) (i : Invocation) :
    Prop :=
  ∀ id, i.call.relocates = some id → id ∉ s.listed kind a

namespace Registry

variable {env : Env} {r r' : Registry} {call : Call} {resp : Response}
  {evs : List Event} {kind : IndexKind} {a : Address}

theorem index_createAll_prefix
    (r : Registry) (cfgs : List AlertConfig) (kind : IndexKind) (a : Address) :
    r.table.index kind a <+: (r.createAll cfgs).table.index kind a := by
  induction cfgs generalizing r with
  | nil => exact List.prefix_refl _
  | cons cfg rest ih =>
      have hfirst : r.table.index kind a <+: (r.create cfg).table.index kind a := by
        simp only [create, Table.insert]
        split_ifs
        · exact List.prefix_append _ _
        · exact List.prefix_refl _
      exact hfirst.trans (ih (r.create cfg))

theorem filter_ne_of_not_mem
    {l : List Nat} {id : Nat} (h : id ∉ l) :
    l.filter (fun v => v ≠ id) = l := by
  rw [List.filter_eq_self]
  intro v hv
  have hne : v ≠ id := by
    rintro rfl
    exact h hv
  simpa using hne

/-- Moving an alert that is not on a list at most adds it at the end. -/
theorem index_move_prefix
    {kind' : IndexKind} {id : Nat} {b c : Address} {cfg : AlertConfig}
    (hid : id ∉ r.table.index kind a) :
    r.table.index kind a <+: (r.move kind' id b c cfg).table.index kind a := by
  have hunfile : (r.table.unfile kind' b id).index kind a = r.table.index kind a := by
    rw [Table.unfile, Table.index_setIndex]
    split_ifs with h
    · obtain ⟨rfl, rfl⟩ := h
      exact filter_ne_of_not_mem hid
    · rfl
  rw [move, Table.move, Table.index_setRow, Table.file, Table.index_setIndex]
  split_ifs with h
  · obtain ⟨rfl, rfl⟩ := h
    rw [hunfile]
    exact List.prefix_append _ _
  · rw [hunfile]

/-- A call that leaves the alerts of a list in their places appends to it, or
leaves it alone. -/
theorem Step.index_prefix
    (h : Step env r call resp evs r') (ho : r.table.Occupied)
    (hstay : ∀ id, call.relocates = some id → id ∉ r.table.index kind a) :
    r.table.index kind a <+: r'.table.index kind a := by
  cases h with
  | query _ => exact List.prefix_refl _
  | initialise _ => exact List.prefix_refl _
  | administer _ _ _ _ _ _ => exact List.prefix_refl _
  | @enrol _ owner cfgs _ _ _ _ _ _ =>
      rw [prunedFor_of_occupied ho]
      exact index_createAll_prefix r cfgs kind a
  | amend _ _ _ _ _ _ _ =>
      rw [table_flag]
      exact List.prefix_refl _
  | activate _ _ _ _ =>
      rw [table_flag]
      exact List.prefix_refl _
  | deactivateAll _ _ => exact List.prefix_refl _
  | retarget _ _ _ _ => exact index_move_prefix (hstay _ rfl)
  | keepOwner _ _ _ _ => exact List.prefix_refl _
  | reown _ _ _ _ _ _ =>
      rw [prunedFor_of_occupied ho]
      exact index_move_prefix (hstay _ rfl)
  | @remove caller id cfg _ _ _ _ =>
      simp only [erase, Table.erase]
      split_ifs
      · rw [filter_ne_of_not_mem (hstay id rfl)]
      · exact List.prefix_refl _
  | @removeByAdmin admin id cfg _ _ _ _ =>
      simp only [erase, Table.erase]
      split_ifs
      · rw [filter_ne_of_not_mem (hstay id rfl)]
      · exact List.prefix_refl _
  | bump _ _ => exact List.prefix_refl _
  | bulkRenew _ => exact List.prefix_refl _

end Registry

section Growth

variable {kind : IndexKind} {a : Address} {s : State}

theorem listed_prefix_execCall
    (h : s.Leakless) {i : Invocation} (hstay : LeavesInPlace kind a s i) :
    s.listed kind a <+: (execCall s i).listed kind a := by
  rcases invoke_refines i.env i.call s with ⟨resp, -, hstep⟩ | ⟨-, hview⟩
  · exact hstep.index_prefix h.occupied hstay
  · have hsame : (execCall s i).listed kind a = s.listed kind a :=
      congrArg (fun r => r.table.index kind a) hview
    rw [hsame]

/-- What was listed stays in front. -/
theorem listed_prefix_run
    {l : List Nat} (h : s.Leakless) (hl : l <+: s.listed kind a)
    {is : List Invocation} (hstay : Along execCall (LeavesInPlace kind a) s is) :
    (run execCall s is).Leakless ∧ l <+: (run execCall s is).listed kind a := by
  refine run_preserves (C := LeavesInPlace kind a)
    (P := fun s => s.Leakless ∧ l <+: s.listed kind a) ?_ ⟨h, hl⟩ hstay
  rintro s i hi ⟨hs, hl⟩
  exact ⟨leakless_execCall s i hs, hl.trans (listed_prefix_execCall hs hi)⟩

end Growth

/-- Pages of `size` alerts, each read by `querier` in its own environment and
followed by other calls; none if a page is refused. -/
def readWhileInUse (kind : IndexKind) (querier a : Address) (size : Nat) :
    (offset : Nat) → State → List (Env × List Invocation) →
      Option (List (List AlertConfig))
  | _, _, [] => some []
  | offset, s, (env, is) :: rest =>
      match s.answered env (.page kind querier a offset size),
        readWhileInUse kind querier a size (offset + size) (run execCall s is) rest with
      | some page, some pages => some (page :: pages)
      | _, _ => none

/-- The storages in which the pages are read. -/
def readIn : State → List (Env × List Invocation) → List State
  | _, [] => []
  | s, (_, is) :: rest => s :: readIn (run execCall s is) rest

/-- The page shows the alerts with these ids, all on the list of `a`, as they are in
the storage. -/
def Shows (kind : IndexKind) (a : Address) (s : State) (ids : List Nat)
    (page : List AlertConfig) : Prop :=
  ids ⊆ s.listed kind a ∧
    List.Forall₂ (fun id cfg => s.alertAt id = some cfg) ids page

/-- The calls between the pages leave the alerts of `a` in their places. -/
def InPlaceThroughout (kind : IndexKind) (a : Address) :
    State → List (Env × List Invocation) → Prop
  | _, [] => True
  | s, (_, is) :: rest =>
      Along execCall (LeavesInPlace kind a) s is ∧
        InPlaceThroughout kind a (run execCall s is) rest

section Reading

variable {kind : IndexKind} {querier a : Address} {size : Nat} {s : State}
  {env : Env}

/-- A page of a list shows no more than its window, -/
theorem slice_prefix_window (l : List Nat) (offset size : Nat) :
    slice l offset size <+: window l offset size := by
  rw [slice, window]
  by_cases hoffset : offset ≤ l.length
  · rw [min_eq_left hoffset]
    apply List.take_prefix_take_left
    rw [saturatingAdd32]
    omega
  · have hmin : min offset l.length = l.length := by
      omega
    rw [hmin, List.drop_length, List.take_nil]
    exact List.nil_prefix

/-- and no less than that of the list from which it has grown. -/
theorem window_prefix_slice
    {l l' : List Nat} (h : l <+: l') (hl : l.length ≤ u32Max)
    (hmax : size ≤ maxBatchSize) (offset : Nat) :
    window l offset size <+: slice l' offset size := by
  obtain ⟨new, rfl⟩ := h
  rw [slice, window, min_eq_left hmax, saturatingAdd32]
  by_cases hoffset : offset ≤ l.length
  · have hmin : min offset (l ++ new).length = offset := by
      rw [List.length_append]
      omega
    rw [hmin, List.drop_append_of_le_length hoffset, List.take_append]
    have hcount : (l.drop offset).take size =
        (l.drop offset).take
          (min (min (offset + size) u32Max) (l ++ new).length - offset) := by
      rw [List.take_eq_take_iff, List.length_drop, List.length_append]
      omega
    rw [hcount]
    exact List.prefix_append _ _
  · have hnil : l.drop offset = [] := by
      rw [List.drop_eq_nil_iff]
      omega
    rw [hnil, List.take_nil]
    exact List.nil_prefix

/-- Where every listed alert is live, the records of a list go with its ids. -/
theorem forall₂_records
    {ids : List Nat} (hlive : ∀ id ∈ ids, (s.alertAt id).isSome) :
    List.Forall₂ (fun id cfg => s.alertAt id = some cfg) ids (s.records ids) := by
  induction ids with
  | nil => exact .nil
  | cons id rest ih =>
      obtain ⟨hid, hrest⟩ := List.forall_mem_cons.mp hlive
      obtain ⟨cfg, hcfg⟩ := Option.isSome_iff_exists.mp hid
      rw [State.records, List.filterMap_cons_some hcfg]
      exact .cons hcfg (ih hrest)

/-- A page shows the records of the ids that it cuts from the list. -/
theorem shows_of_page
    (h : s.Leakless) {offset : Nat} {page : List AlertConfig}
    (hpage : s.answered env (.page kind querier a offset size) = some page) :
    Shows kind a s (slice (s.listed kind a) offset size) page := by
  rcases gate_cases env s querier with hgate | ⟨f, s', hgate⟩
  · rw [answered_page kind a offset size hgate] at hpage
    obtain rfl := Option.some.inj hpage
    have hlisted : slice (s.listed kind a) offset size ⊆ s.listed kind a := by
      intro id hid
      exact List.mem_of_mem_drop (List.mem_of_mem_take hid)
    refine ⟨hlisted, forall₂_records ?_⟩
    intro id hid
    exact h.occupied kind a id (hlisted hid)
  · rw [(unanswered_of_gate kind a hgate).2] at hpage
    cases hpage

/-- The ids behind the pages, between what was listed when the reading began and
what is listed when it ends. -/
theorem exists_shown
    (h : s.Leakless) {l : List Nat} (hl : l <+: s.listed kind a)
    (hlength : l.length ≤ u32Max) (hmax : size ≤ maxBatchSize) {offset : Nat}
    {plan : List (Env × List Invocation)}
    (hplace : InPlaceThroughout kind a s plan) {pages : List (List AlertConfig)}
    (hpages : readWhileInUse kind querier a size offset s plan = some pages) :
    ∃ idss L, pages.length = plan.length ∧ idss.length = plan.length ∧
      List.Forall₂ (fun turn ids => Shows kind a turn.1 ids turn.2)
        ((readIn s plan).zip pages) idss ∧
      s.listed kind a <+: L ∧ L.Nodup ∧ PagesBetween l L size offset idss := by
  induction plan generalizing s offset pages with
  | nil =>
      obtain rfl := Option.some.inj hpages
      exact ⟨[], s.listed kind a, rfl, rfl, .nil, List.prefix_refl _,
        h.safe.sound.nodup kind a, trivial⟩
  | cons turn rest ih =>
      obtain ⟨env, is⟩ := turn
      obtain ⟨halong, hrest⟩ := hplace
      rw [readWhileInUse] at hpages
      split at hpages
      · rename_i page later hpage hlater
        obtain rfl := Option.some.inj hpages
        obtain ⟨hafter, hgrown⟩ := listed_prefix_run h (List.prefix_refl _) halong
        obtain ⟨idss, L, hcount, hcount', hshows, hprefix, hnodup, hbetween⟩ :=
          ih hafter (hl.trans hgrown) hrest hlater
        have hgrows := hgrown.trans hprefix
        refine ⟨slice (s.listed kind a) offset size :: idss, L, ?_, ?_,
          .cons (shows_of_page h hpage) hshows, hgrows, hnodup,
          window_prefix_slice hl hlength hmax offset, ?_, hbetween⟩
        · rw [List.length_cons, List.length_cons, hcount]
        · rw [List.length_cons, List.length_cons, hcount']
        · exact (slice_prefix_window _ _ _).trans
            (window_prefix_window hgrows offset size)
      · cases hpages

end Reading

/-- Take any state reached without expiry, and somebody who from there on reads the
alerts of a contract or of an owner in pages of at most 50, with any calls in
between that leave these alerts in their places.  If he is never turned away and
reads far enough, each page shows listed alerts as they are when it is read, the
alerts that were listed when he began come first, all of them and in order, and no
alert is shown twice. -/
theorem scan_while_in_use
    {steps : List Step} (hsteps : ∀ st ∈ steps, st.isCall)
    {kind : IndexKind} {querier a : Address} {size : Nat}
    (hmax : size ≤ maxBatchSize)
    (hlength : ((run exec State.empty steps).listed kind a).length ≤ u32Max)
    {plan : List (Env × List Invocation)}
    (hplace : InPlaceThroughout kind a (run exec State.empty steps) plan)
    (henough : ((run exec State.empty steps).listed kind a).length ≤
      plan.length * size)
    {pages : List (List AlertConfig)}
    (hpages : readWhileInUse kind querier a size 0 (run exec State.empty steps) plan =
      some pages) :
    ∃ idss : List (List Nat),
      pages.length = plan.length ∧ idss.length = plan.length ∧
        List.Forall₂ (fun turn ids => Shows kind a turn.1 ids turn.2)
          ((readIn (run exec State.empty steps) plan).zip pages) idss ∧
        (run exec State.empty steps).listed kind a <+: idss.flatten ∧
        idss.flatten.Nodup := by
  obtain ⟨idss, L, hcount, hcount', hshows, -, hnodup, hbetween⟩ :=
    exists_shown (leakless_run hsteps) (List.prefix_refl _) hlength hmax hplace hpages
  refine ⟨idss, hcount, hcount', hshows, ?_, ?_⟩
  · exact hbetween.prefix_flatten (by rwa [Nat.zero_add, hcount'])
  · exact hbetween.flatten_sublist.nodup hnodup

/-- Two alerts on one contract. -/
def sharedRun : List Step :=
  [.call (envAt 1 [alice]) (sampleRegister alice pool),
    .call (envAt 2 [bob]) (sampleRegister bob pool)]

/-- One alert a page; between the pages a third alert is added, and a label is
changed. -/
def sharedPlan : List (Env × List Invocation) :=
  [(envAt 3 [],
      [⟨envAt 4 [alice], sampleRegister alice pool⟩,
        ⟨envAt 5 [bob], .updateLabel bob 1 (.fromStr "mints")⟩]),
    (envAt 6 [], [])]

theorem sharedPlan_reads :
    ∃ idss : List (List Nat),
      List.Forall₂ (fun turn ids => Shows .contract pool turn.1 ids turn.2)
          ((readIn (run exec State.empty sharedRun) sharedPlan).zip
            [[sampleAlert alice pool 1],
              [{ sampleAlert bob pool 2 with
                  label := .fromStr "mints"
                  updatedAt := 25 }]]) idss ∧
        [0, 1] <+: idss.flatten ∧ idss.flatten.Nodup := by
  have hpages : readWhileInUse .contract alice pool 1 0
      (run exec State.empty sharedRun) sharedPlan =
        some [[sampleAlert alice pool 1],
          [{ sampleAlert bob pool 2 with
              label := .fromStr "mints"
              updatedAt := 25 }]] := by
    decide
  have hplace : InPlaceThroughout .contract pool (run exec State.empty sharedRun)
      sharedPlan := by
    simp [InPlaceThroughout, sharedPlan, LeavesInPlace, Call.relocates,
      sampleRegister]
  have hsteps : ∀ st ∈ sharedRun, st.isCall := by
    simp [sharedRun, Step.isCall]
  obtain ⟨idss, -, -, hread⟩ :=
    scan_while_in_use hsteps (by decide) (by decide) hplace (by decide) hpages
  exact ⟨idss, hread⟩

end AlertRegistry
end TxWatch
