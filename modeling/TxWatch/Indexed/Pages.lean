import Mathlib.Tactic

/-!
# Reading a list in pages

A page of a list is a window of it.  Windows that start where the one before
ended make up the list, whatever is done to the elements of each; whether
elements may be dropped before the window is cut, rather than after, depends on
where the dropped ones stand.
-/

namespace TxWatch
namespace Indexed

section Windows

variable {α β : Type}

/-- At most `limit` elements of a list, from position `offset` on. -/
def window (l : List α) (offset limit : Nat) : List α :=
  (l.drop offset).take limit

theorem length_window_le (l : List α) (offset limit : Nat) :
    (window l offset limit).length ≤ limit := by
  rw [window, List.length_take]
  exact min_le_left _ _

theorem window_nil (offset limit : Nat) :
    window ([] : List α) offset limit = [] := by
  rw [window, List.drop_nil, List.take_nil]

theorem window_zero (l : List α) (limit : Nat) :
    window l 0 limit = l.take limit := by
  rfl

theorem window_cons_succ (a : α) (l : List α) (offset limit : Nat) :
    window (a :: l) (offset + 1) limit = window l offset limit := by
  rfl

/-- A window that is not full reaches the end of the list. -/
theorem drop_eq_nil_of_length_window_lt
    {l : List α} {offset limit : Nat}
    (h : (window l offset limit).length < limit) :
    l.drop (offset + (window l offset limit).length) = [] := by
  rw [window, List.length_take, List.length_drop] at h
  rw [List.drop_eq_nil_iff, window, List.length_take, List.length_drop]
  omega

/-- The first windows of one size make up the front of the list. -/
theorem flatMap_window_eq_take (l : List α) (size count : Nat) :
    (List.range count).flatMap (fun i => window l (i * size) size) =
      l.take (count * size) := by
  induction count with
  | zero => simp
  | succ count ih =>
      rw [List.range_succ, List.flatMap_append, ih, Nat.succ_mul, List.take_add,
        List.flatMap_singleton, window]

end Windows

section Pages

variable {α β : Type}

/-- The pages at the offsets `0`, `size`, `2 * size`, and so on up to `length`,
one after the other. -/
def allPages (page : Nat → List β) (size length : Nat) : List β :=
  (List.range (length / size + 1)).flatMap (fun i => page (i * size))

/-- The windows of a list make up the list. -/
theorem allPages_window (l : List α) {size : Nat} (hsize : 0 < size) :
    allPages (fun offset => window l offset size) size l.length = l := by
  rw [allPages, flatMap_window_eq_take]
  apply List.take_of_length_le
  have hlt : l.length < size * (l.length / size + 1) :=
    Nat.lt_mul_div_succ l.length hsize
  rw [Nat.mul_comm]
  exact hlt.le

/-- So do the windows in which some elements are dropped and others replaced. -/
theorem allPages_filterMap (f : α → Option β) (l : List α)
    {size : Nat} (hsize : 0 < size) :
    allPages (fun offset => (window l offset size).filterMap f) size l.length =
      l.filterMap f := by
  have hwhole := congrArg (List.filterMap f) (allPages_window l hsize)
  rw [allPages, List.filterMap_flatMap] at hwhole
  exact hwhole

/-- A query with an offset and a limit answers every page up to `length`, and
the pages make up `whole`. -/
def ReadInPages (answer : Nat → Nat → Option (List β))
    (size length : Nat) (whole : List β) : Prop :=
  ∃ page : Nat → List β,
    (∀ i ≤ length / size, answer (i * size) size = some (page (i * size))) ∧
      allPages page size length = whole

/-- A query that answers with windows of a list can be read in pages. -/
theorem readInPages_of_window
    {answer : Nat → Nat → Option (List β)} {size : Nat} (hsize : 0 < size)
    (f : α → Option β) (l : List α)
    (h : ∀ offset ≤ l.length,
      answer offset size = some ((window l offset size).filterMap f)) :
    ReadInPages answer size l.length (l.filterMap f) := by
  refine ⟨fun offset => (window l offset size).filterMap f, ?_,
    allPages_filterMap f l hsize⟩
  intro i hi
  apply h
  exact (Nat.le_div_iff_mul_le hsize).mp hi

/-- Nothing need be dropped. -/
theorem readInPages_window
    {answer : Nat → Nat → Option (List α)} {size : Nat} (hsize : 0 < size)
    (l : List α)
    (h : ∀ offset ≤ l.length, answer offset size = some (window l offset size)) :
    ReadInPages answer size l.length l := by
  have hread := @readInPages_of_window α α answer size hsize some l
  simp only [List.filterMap_some] at hread
  exact hread h

end Pages

section Growing

variable {α : Type} {l l' L : List α} {size : Nat}

/-- A list that grows at its end keeps what its windows show. -/
theorem window_prefix_window (h : l <+: l') (offset limit : Nat) :
    window l offset limit <+: window l' offset limit := by
  obtain ⟨new, rfl⟩ := h
  rw [window, window, List.drop_append, List.take_append]
  exact List.prefix_append _ _

/-- Pages from `offset` on, read one after the other while a list grew from `l` to
`L`: each shows at least what `l`, and at most what `L`, has in its window. -/
def PagesBetween (l L : List α) (size : Nat) : (offset : Nat) → List (List α) → Prop
  | _, [] => True
  | offset, page :: rest =>
      window l offset size <+: page ∧ page <+: window L offset size ∧
        PagesBetween l L size (offset + size) rest

/-- Enough such pages begin with the whole of `l`. -/
theorem PagesBetween.prefix_flatten
    {offset : Nat} {pages : List (List α)} (h : PagesBetween l L size offset pages)
    (henough : l.length ≤ offset + pages.length * size) :
    l.drop offset <+: pages.flatten := by
  induction pages generalizing offset with
  | nil =>
      have hnil : l.drop offset = [] := by
        rw [List.drop_eq_nil_iff]
        simpa using henough
      rw [hnil]
      exact List.nil_prefix
  | cons page rest ih =>
      obtain ⟨hleast, hmost, hrest⟩ := h
      have hsplit : l.drop offset = window l offset size ++ l.drop (offset + size) := by
        rw [window, ← List.drop_drop, List.take_append_drop]
      rw [hsplit, List.flatten_cons]
      by_cases hfull : offset + size ≤ l.length
      · -- a full page leaves no room for later elements
        have hlength : page.length ≤ (window l offset size).length := by
          refine (hmost.length_le.trans (length_window_le _ _ _)).trans ?_
          rw [window, List.length_take, List.length_drop]
          omega
        rw [hleast.eq_of_length_le hlength, List.prefix_append_right_inj]
        apply ih hrest
        rw [List.length_cons, Nat.succ_mul] at henough
        omega
      · have hdone : l.drop (offset + size) = [] := by
          rw [List.drop_eq_nil_iff]
          omega
        rw [hdone, List.append_nil]
        exact hleast.trans (List.prefix_append _ _)

/-- Such pages show nothing twice that `L` has once. -/
theorem PagesBetween.flatten_sublist
    {offset : Nat} {pages : List (List α)} (h : PagesBetween l L size offset pages) :
    pages.flatten.Sublist (L.drop offset) := by
  induction pages generalizing offset with
  | nil => exact List.nil_sublist _
  | cons page rest ih =>
      obtain ⟨-, hmost, hrest⟩ := h
      have hsplit : L.drop offset = window L offset size ++ L.drop (offset + size) := by
        rw [window, ← List.drop_drop, List.take_append_drop]
      rw [hsplit, List.flatten_cons]
      exact hmost.sublist.append (ih hrest)

end Growing

section Gaps

variable {α β : Type} (f : α → Option β)

/-- No element that `f` drops stands before one that it keeps. -/
def GapsLast (l : List α) : Prop :=
  l.Pairwise (fun a later => (f later).isSome → (f a).isSome)

variable {f}

theorem filterMap_eq_nil_of_gap
    {a : α} {l : List α} (ha : f a = none) (h : GapsLast f (a :: l)) :
    l.filterMap f = [] := by
  rw [List.filterMap_eq_nil_iff]
  intro b hb
  have hkept := (List.pairwise_cons.mp h).1 b hb
  rw [ha] at hkept
  cases hfb : f b with
  | none => rfl
  | some c =>
      rw [hfb] at hkept
      exact absurd (hkept rfl) Bool.false_ne_true

/-- With the gaps last, it makes no difference whether elements are dropped
before or after a window is cut. -/
theorem filterMap_window
    {l : List α} (h : GapsLast f l) (offset limit : Nat) :
    (window l offset limit).filterMap f = window (l.filterMap f) offset limit := by
  induction l generalizing offset limit with
  | nil => simp [window_nil]
  | cons a l ih =>
      have hrest : GapsLast f l := (List.pairwise_cons.mp h).2
      cases ha : f a with
      | none =>
          -- Everything after the gap is dropped as well.
          have hnil := filterMap_eq_nil_of_gap ha h
          rw [List.filterMap_cons_none ha, hnil, window_nil,
            List.filterMap_eq_nil_iff]
          intro b hb
          have hmem : b ∈ a :: l := List.mem_of_mem_drop (List.mem_of_mem_take hb)
          rcases List.mem_cons.mp hmem with rfl | hmem
          · exact ha
          · exact List.filterMap_eq_nil_iff.mp hnil b hmem
      | some b =>
          rw [List.filterMap_cons_some ha]
          cases offset with
          | succ offset =>
              rw [window_cons_succ, window_cons_succ]
              exact ih hrest offset limit
          | zero =>
              cases limit with
              | zero => rfl
              | succ limit =>
                  have htail := ih hrest 0 limit
                  rw [window_zero, window_zero] at htail ⊢
                  rw [List.take_succ_cons, List.take_succ_cons,
                    List.filterMap_cons_some ha, htail]

/-- Windows of a single element tell whether the gaps are last. -/
theorem gapsLast_of_window
    {l : List α}
    (h : ∀ offset < l.length,
      (window l offset 1).filterMap f = window (l.filterMap f) offset 1) :
    GapsLast f l := by
  induction l with
  | nil => exact List.Pairwise.nil
  | cons a l ih =>
      cases ha : f a with
      | none =>
          have hfirst := h 0 (Nat.succ_pos _)
          have hnil : l.filterMap f = [] := by
            rw [window_zero, window_zero, List.filterMap_cons_none ha,
              List.take_succ_cons, List.take_zero, List.filterMap_cons_none ha,
              List.filterMap_nil] at hfirst
            cases hl : l.filterMap f with
            | nil => rfl
            | cons b rest =>
                rw [hl, List.take_succ_cons] at hfirst
                cases hfirst
          have hnone := List.filterMap_eq_nil_iff.mp hnil
          refine List.pairwise_cons.mpr ⟨?_, ?_⟩
          · intro b hb hkept
            rw [hnone b hb] at hkept
            exact absurd hkept Bool.false_ne_true
          · apply List.pairwise_of_forall_mem_list
            intro b _ c hc hkept
            rw [hnone c hc] at hkept
            exact absurd hkept Bool.false_ne_true
      | some b =>
          refine List.pairwise_cons.mpr ⟨?_, ih ?_⟩
          · intro c _ _
            rw [ha]
            rfl
          · intro offset hoffset
            have hnext := h (offset + 1) (Nat.succ_lt_succ hoffset)
            rw [window_cons_succ, List.filterMap_cons_some ha,
              window_cons_succ] at hnext
            exact hnext

/-- Where nothing is dropped there are no gaps. -/
theorem gapsLast_of_isSome
    {l : List α} (h : ∀ a ∈ l, (f a).isSome) :
    GapsLast f l := by
  apply List.pairwise_of_forall_mem_list
  intro a ha _ _ _
  exact h a ha

end Gaps

end Indexed
end TxWatch
