import Mathlib.Tactic

/-!
# Tables with inverse indexes

A table keeps rows under ids and, for each kind of index and each party, the
list of ids filed under that party.  `party r k` is where a row `r` belongs in
the index of kind `k`.

The invariants are kept apart because they survive different events.
`Sound` (no id is listed twice, and a listed row belongs where it is listed)
survives the loss of rows and of index lists.  `Complete` (every row is listed
where it belongs) survives the loss of rows.  `Occupied` (every listed id has a
row) survives neither, and `Within` bounds all ids in use.
-/

namespace TxWatch
namespace Indexed

/-- Rows under ids, and the lists of ids filed under each party. -/
structure Table (ι κ α ρ : Type) where
  row : ι → Option ρ
  index : κ → α → List ι

namespace Table

variable {ι κ α ρ : Type}

/-- Tables that read alike are equal. -/
theorem eq_of_row_of_index
    {t t' : Table ι κ α ρ} (hrow : t'.row = t.row) (hindex : t'.index = t.index) :
    t' = t := by
  obtain ⟨row, index⟩ := t
  obtain ⟨row', index'⟩ := t'
  obtain rfl : row' = row := hrow
  obtain rfl : index' = index := hindex
  rfl

/-- Keep only the ids of a list that have a row. -/
def live (t : Table ι κ α ρ) (ids : List ι) : List ι :=
  ids.filter (fun id => (t.row id).isSome)

/-- Ids whose row belongs to a party. -/
def members (party : ρ → κ → α) (t : Table ι κ α ρ) (k : κ) (a : α) : Set ι :=
  {id | ∃ r, t.row id = some r ∧ party r k = a}

/-- Listed ids lie on duplicate-free lists, and their rows belong there. -/
structure Sound (party : ρ → κ → α) (t : Table ι κ α ρ) : Prop where
  nodup : ∀ k a, (t.index k a).Nodup
  party_eq : ∀ k a id r, id ∈ t.index k a → t.row id = some r → party r k = a

/-- Every row is listed where it belongs. -/
def Complete (party : ρ → κ → α) (t : Table ι κ α ρ) : Prop :=
  ∀ id r, t.row id = some r → ∀ k, id ∈ t.index k (party r k)

/-- Every listed id has a row. -/
def Occupied (t : Table ι κ α ρ) : Prop :=
  ∀ k a id, id ∈ t.index k a → (t.row id).isSome

/-- All ids in use satisfy `P`. -/
structure Within (P : ι → Prop) (t : Table ι κ α ρ) : Prop where
  row : ∀ id, (t.row id).isSome → P id
  listed : ∀ k a id, id ∈ t.index k a → P id

/-- What is left of `t` after losses: no new row, and every list is one of `t`
or empty. -/
structure Remnant (t' t : Table ι κ α ρ) : Prop where
  row : ∀ id r, t'.row id = some r → t.row id = some r
  index : ∀ k a, t'.index k a = t.index k a ∨ t'.index k a = []

/-- `t'` has the lists of `t`, and the same ids with rows of the same parties. -/
structure Rewrites (party : ρ → κ → α) (t' t : Table ι κ α ρ) : Prop where
  row : ∀ id, (t'.row id).map party = (t.row id).map party
  index : t'.index = t.index

section Losses

variable {party : ρ → κ → α} {t t' : Table ι κ α ρ} {P Q : ι → Prop}

theorem mem_live
    {ids : List ι} {id : ι} :
    id ∈ t.live ids ↔ id ∈ ids ∧ (t.row id).isSome := by
  simp [live]

/-- An id out of bounds is on no list. -/
theorem Within.not_listed
    (h : Within P t) {id : ι} (hid : ¬ P id) (k : κ) (a : α) :
    id ∉ t.index k a := by
  intro hmem
  exact hid (h.listed k a id hmem)

/-- An id out of bounds has no row. -/
theorem Within.row_eq_none
    (h : Within P t) {id : ι} (hid : ¬ P id) :
    t.row id = none := by
  rw [← Option.not_isSome_iff_eq_none]
  intro hrow
  exact hid (h.row id hrow)

theorem Remnant.sound
    (hr : Remnant t' t) (h : Sound party t) :
    Sound party t' := by
  refine ⟨?_, ?_⟩
  · intro k a
    rcases hr.index k a with he | he
    · rw [he]
      exact h.nodup k a
    · rw [he]
      exact List.nodup_nil
  · intro k a id r hmem hrow
    rcases hr.index k a with he | he
    · rw [he] at hmem
      exact h.party_eq k a id r hmem (hr.row id r hrow)
    · rw [he] at hmem
      exact absurd hmem List.not_mem_nil

theorem Remnant.within
    (hr : Remnant t' t) (h : Within P t) :
    Within P t' := by
  refine ⟨?_, ?_⟩
  · intro id hid
    obtain ⟨r, hrow⟩ := Option.isSome_iff_exists.mp hid
    exact h.row id (Option.isSome_iff_exists.mpr ⟨r, hr.row id r hrow⟩)
  · intro k a id hmem
    rcases hr.index k a with he | he
    · rw [he] at hmem
      exact h.listed k a id hmem
    · rw [he] at hmem
      exact absurd hmem List.not_mem_nil

/-- As long as no row outlives a list it belongs on, losses keep every row
listed. -/
theorem Remnant.complete
    (hr : Remnant t' t) (h : Complete party t)
    (hkept : ∀ id r, t'.row id = some r →
      ∀ k, t'.index k (party r k) = t.index k (party r k)) :
    Complete party t' := by
  intro id r hrow k
  rw [hkept id r hrow k]
  exact h id r (hr.row id r hrow) k

end Losses

section Rewriting

variable {party : ρ → κ → α} {t t' : Table ι κ α ρ} {P : ι → Prop}

theorem Rewrites.isSome
    (h : Rewrites party t' t) (id : ι) :
    (t'.row id).isSome = (t.row id).isSome := by
  have hrow := congrArg Option.isSome (h.row id)
  simpa using hrow

/-- A rewritten row has a row of the same parties behind it. -/
theorem Rewrites.exists_row
    (h : Rewrites party t' t) {id : ι} {r' : ρ}
    (hrow : t'.row id = some r') :
    ∃ r, t.row id = some r ∧ party r' = party r := by
  have hid := h.row id
  rw [hrow, Option.map_some] at hid
  obtain ⟨r, hr, hp⟩ := Option.map_eq_some_iff.mp hid.symm
  exact ⟨r, hr, hp.symm⟩

theorem Rewrites.sound
    (hr : Rewrites party t' t) (h : Sound party t) :
    Sound party t' := by
  refine ⟨?_, ?_⟩
  · intro k a
    rw [hr.index]
    exact h.nodup k a
  · intro k a id r' hmem hrow
    rw [hr.index] at hmem
    obtain ⟨r, hr', hp⟩ := hr.exists_row hrow
    rw [hp]
    exact h.party_eq k a id r hmem hr'

theorem Rewrites.complete
    (hr : Rewrites party t' t) (h : Complete party t) :
    Complete party t' := by
  intro id r' hrow k
  obtain ⟨r, hr', hp⟩ := hr.exists_row hrow
  rw [hr.index, hp]
  exact h id r hr' k

theorem Rewrites.occupied
    (hr : Rewrites party t' t) (h : Occupied t) :
    Occupied t' := by
  intro k a id hmem
  rw [hr.index] at hmem
  rw [hr.isSome]
  exact h k a id hmem

theorem Rewrites.within
    (hr : Rewrites party t' t) (h : Within P t) :
    Within P t' := by
  refine ⟨?_, ?_⟩
  · intro id hid
    rw [hr.isSome] at hid
    exact h.row id hid
  · intro k a id hmem
    rw [hr.index] at hmem
    exact h.listed k a id hmem

theorem Rewrites.members_eq
    (hr : Rewrites party t' t) (k : κ) (a : α) :
    t'.members party k a = t.members party k a := by
  ext id
  unfold members
  have hid := hr.row id
  cases h' : t'.row id with
  | none =>
      cases h : t.row id with
      | none => simp [h, h']
      | some r => simp [h, h'] at hid
  | some r' =>
      cases h : t.row id with
      | none => simp [h, h'] at hid
      | some r =>
          have hp : party r' = party r := by simpa [h, h'] using hid
          simp [h, h', hp]

end Rewriting

section Counting

variable {party : ρ → κ → α} {t : Table ι κ α ρ}

/-- In a sound and complete table the members of a party are the live ids on
its list. -/
theorem mem_live_index_iff
    (hs : Sound party t) (hc : Complete party t)
    (k : κ) (a : α) (id : ι) :
    id ∈ t.live (t.index k a) ↔ id ∈ t.members party k a := by
  rw [mem_live, Option.isSome_iff_exists]
  constructor
  · rintro ⟨hmem, r, hrow⟩
    exact ⟨r, hrow, hs.party_eq k a id r hmem hrow⟩
  · rintro ⟨r, hrow, rfl⟩
    exact ⟨hc id r hrow k, r, hrow⟩

/-- The live part of its list counts the members of a party. -/
theorem encard_members
    (hs : Sound party t) (hc : Complete party t)
    (k : κ) (a : α) :
    (t.members party k a).encard = (t.live (t.index k a)).length := by
  classical
  have hnodup : (t.live (t.index k a)).Nodup := (hs.nodup k a).filter _
  have hset : t.members party k a = ↑(t.live (t.index k a)).toFinset := by
    ext id
    rw [← mem_live_index_iff hs hc]
    simp
  rw [hset, Set.encard_coe_eq_coe_finsetCard, List.toFinset_card_of_nodup hnodup]

end Counting

section Operations

set_option linter.unusedSectionVars false

variable [DecidableEq ι] [DecidableEq κ] [DecidableEq α]

/-- Replace the row under an id. -/
def setRow (t : Table ι κ α ρ) (id : ι) (o : Option ρ) : Table ι κ α ρ where
  row := Function.update t.row id o
  index := t.index

/-- Replace the list filed under a party. -/
def setIndex (t : Table ι κ α ρ) (k : κ) (a : α) (ids : List ι) :
    Table ι κ α ρ where
  row := t.row
  index := fun k' a' => if k' = k ∧ a' = a then ids else t.index k' a'

/-- File an id under a party. -/
def file (t : Table ι κ α ρ) (k : κ) (a : α) (id : ι) : Table ι κ α ρ :=
  t.setIndex k a (t.index k a ++ [id])

/-- Take an id off the list of a party. -/
def unfile (t : Table ι κ α ρ) (k : κ) (a : α) (id : ι) : Table ι κ α ρ :=
  t.setIndex k a ((t.index k a).filter (fun v => v ≠ id))

/-- Drop the ids without a row from the list of a party. -/
def prune (t : Table ι κ α ρ) (k : κ) (a : α) : Table ι κ α ρ :=
  t.setIndex k a (t.live (t.index k a))

/-- Add a row and list it wherever it belongs. -/
def insert (party : ρ → κ → α) (t : Table ι κ α ρ) (id : ι) (r : ρ) :
    Table ι κ α ρ where
  row := Function.update t.row id (some r)
  index := fun k a =>
    if a = party r k then t.index k a ++ [id] else t.index k a

/-- Delete the row `r` under an id and take it off the lists it belongs on. -/
def erase (party : ρ → κ → α) (t : Table ι κ α ρ) (id : ι) (r : ρ) :
    Table ι κ α ρ where
  row := Function.update t.row id none
  index := fun k a =>
    if a = party r k then (t.index k a).filter (fun v => v ≠ id)
    else t.index k a

/-- Put a row in the place of the row `r` under an id, or delete `r` when there is
none to put there. -/
def replace (party : ρ → κ → α) (t : Table ι κ α ρ) (id : ι) (r : ρ) :
    Option ρ → Table ι κ α ρ
  | some r' => t.setRow id (some r')
  | none => t.erase party id r

/-- Replace the row under an id, if there is one, by what `f` makes of it. -/
def alter (party : ρ → κ → α) (t : Table ι κ α ρ) (id : ι) (f : ρ → Option ρ) :
    Table ι κ α ρ :=
  match t.row id with
  | some r => t.replace party id r (f r)
  | none => t

/-- Move an id from one party to another in the index of one kind, and replace
its row. -/
def move (t : Table ι κ α ρ) (k : κ) (id : ι) (a b : α) (r : ρ) :
    Table ι κ α ρ :=
  ((t.unfile k a id).file k b id).setRow id (some r)

section Reading

variable (t : Table ι κ α ρ)

@[simp] theorem row_setRow (id : ι) (o : Option ρ) :
    (t.setRow id o).row = Function.update t.row id o := by
  rfl

@[simp] theorem index_setRow (id : ι) (o : Option ρ) :
    (t.setRow id o).index = t.index := by
  rfl

@[simp] theorem row_setIndex (k : κ) (a : α) (ids : List ι) :
    (t.setIndex k a ids).row = t.row := by
  rfl

@[simp] theorem row_prune (k : κ) (a : α) :
    (t.prune k a).row = t.row := by
  rfl

@[simp] theorem row_insert (party : ρ → κ → α) (id : ι) (r : ρ) :
    (t.insert party id r).row = Function.update t.row id (some r) := by
  rfl

@[simp] theorem row_erase (party : ρ → κ → α) (id : ι) (r : ρ) :
    (t.erase party id r).row = Function.update t.row id none := by
  rfl

@[simp] theorem row_replace
    (party : ρ → κ → α) (id : ι) (r : ρ) (o : Option ρ) :
    (t.replace party id r o).row = Function.update t.row id o := by
  cases o <;> rfl

@[simp] theorem row_move (k : κ) (id : ι) (a b : α) (r : ρ) :
    (t.move k id a b r).row = Function.update t.row id (some r) := by
  rfl

theorem index_setIndex (k k' : κ) (a a' : α) (ids : List ι) :
    (t.setIndex k a ids).index k' a' =
      if k' = k ∧ a' = a then ids else t.index k' a' := by
  rfl

theorem mem_index_file (k k' : κ) (a a' : α) (id id' : ι) :
    id' ∈ (t.file k a id).index k' a' ↔
      id' ∈ t.index k' a' ∨ (k' = k ∧ a' = a ∧ id' = id) := by
  unfold file
  rw [index_setIndex]
  split_ifs with h
  · obtain ⟨rfl, rfl⟩ := h
    simp
  · constructor
    · exact Or.inl
    · rintro (hmem | ⟨hk, ha, -⟩)
      · exact hmem
      · exact absurd ⟨hk, ha⟩ h

theorem mem_index_unfile (k k' : κ) (a a' : α) (id id' : ι) :
    id' ∈ (t.unfile k a id).index k' a' ↔
      id' ∈ t.index k' a' ∧ ¬ (k' = k ∧ a' = a ∧ id' = id) := by
  unfold unfile
  rw [index_setIndex]
  split_ifs with h
  · obtain ⟨rfl, rfl⟩ := h
    simp
  · constructor
    · intro hmem
      exact ⟨hmem, fun hc => h ⟨hc.1, hc.2.1⟩⟩
    · exact fun hmem => hmem.1

theorem mem_index_prune (k k' : κ) (a a' : α) (id : ι) :
    id ∈ (t.prune k a).index k' a' ↔
      id ∈ t.index k' a' ∧ (k' = k ∧ a' = a → (t.row id).isSome) := by
  unfold prune
  rw [index_setIndex]
  split_ifs with h
  · obtain ⟨rfl, rfl⟩ := h
    simp [mem_live]
  · simp [h]

theorem mem_index_insert
    (party : ρ → κ → α) (id id' : ι) (r : ρ) (k : κ) (a : α) :
    id' ∈ (t.insert party id r).index k a ↔
      id' ∈ t.index k a ∨ (a = party r k ∧ id' = id) := by
  unfold insert
  by_cases h : a = party r k <;> simp [h]

theorem mem_index_erase
    (party : ρ → κ → α) (id id' : ι) (r : ρ) (k : κ) (a : α) :
    id' ∈ (t.erase party id r).index k a ↔
      id' ∈ t.index k a ∧ ¬ (a = party r k ∧ id' = id) := by
  unfold erase
  by_cases h : a = party r k <;> simp [h]

theorem mem_index_move (k k' : κ) (id id' : ι) (a b c : α) (r : ρ) :
    id' ∈ (t.move k id a b r).index k' c ↔
      (id' ∈ t.index k' c ∧ ¬ (k' = k ∧ c = a ∧ id' = id)) ∨
        (k' = k ∧ c = b ∧ id' = id) := by
  unfold move
  rw [index_setRow, mem_index_file, mem_index_unfile]

/-- Members after replacing one row. -/
theorem mem_members_update
    {t' : Table ι κ α ρ} {party : ρ → κ → α} {id : ι} {o : Option ρ}
    (h : t'.row = Function.update t.row id o) (k : κ) (a : α) (id' : ι) :
    id' ∈ t'.members party k a ↔
      (id' ≠ id ∧ id' ∈ t.members party k a) ∨
        (id' = id ∧ ∃ r, o = some r ∧ party r k = a) := by
  unfold members
  rw [h]
  by_cases hid : id' = id
  · subst hid
    simp
  · simp [hid]

end Reading

section Pruning

variable {party : ρ → κ → α} {t : Table ι κ α ρ} {P : ι → Prop}

theorem Sound.prune
    (h : Sound party t) (k : κ) (a : α) :
    Sound party (t.prune k a) := by
  refine ⟨?_, ?_⟩
  · intro k' a'
    unfold Table.prune live
    rw [index_setIndex]
    split_ifs
    · exact (h.nodup k a).filter _
    · exact h.nodup k' a'
  · intro k' a' id r hmem hrow
    exact h.party_eq k' a' id r ((mem_index_prune ..).mp hmem).1 hrow

theorem Complete.prune
    (h : Complete party t) (k : κ) (a : α) :
    Complete party (t.prune k a) := by
  intro id r hrow k'
  rw [row_prune] at hrow
  rw [mem_index_prune]
  exact ⟨h id r hrow k', fun _ => by simp [hrow]⟩

theorem Occupied.prune
    (h : Occupied t) (k : κ) (a : α) :
    Occupied (t.prune k a) := by
  intro k' a' id hmem
  exact h k' a' id ((mem_index_prune ..).mp hmem).1

theorem Within.prune
    (h : Within P t) (k : κ) (a : α) :
    Within P (t.prune k a) := by
  refine ⟨h.row, ?_⟩
  intro k' a' id hmem
  exact h.listed k' a' id ((mem_index_prune ..).mp hmem).1

end Pruning

section Inserting

variable {party : ρ → κ → α} {t : Table ι κ α ρ} {P Q : ι → Prop}

/-- A row under an id that is on no list keeps the table sound. -/
theorem Sound.insert
    {id : ι} {r : ρ}
    (h : Sound party t) (hid : ∀ k a, id ∉ t.index k a) :
    Sound party (t.insert party id r) := by
  refine ⟨?_, ?_⟩
  · intro k a
    unfold Table.insert
    by_cases ha : a = party r k
    · simp only [ha, if_true]
      rw [← List.concat_eq_append]
      exact (h.nodup k _).concat (hid k _)
    · simp only [ha, if_false]
      exact h.nodup k a
  · intro k a id' r' hmem hrow
    rw [mem_index_insert] at hmem
    rw [row_insert] at hrow
    by_cases he : id' = id
    · subst he
      rw [Function.update_self] at hrow
      obtain rfl := Option.some.inj hrow
      rcases hmem with hmem | ⟨ha, -⟩
      · exact absurd hmem (hid k a)
      · exact ha.symm
    · rw [Function.update_of_ne he] at hrow
      rcases hmem with hmem | ⟨-, hc⟩
      · exact h.party_eq k a id' r' hmem hrow
      · exact absurd hc he

theorem Complete.insert
    {id : ι} {r : ρ}
    (h : Complete party t) :
    Complete party (t.insert party id r) := by
  intro id' r' hrow k
  rw [row_insert] at hrow
  rw [mem_index_insert]
  by_cases he : id' = id
  · subst he
    rw [Function.update_self] at hrow
    obtain rfl := Option.some.inj hrow
    exact Or.inr ⟨rfl, rfl⟩
  · rw [Function.update_of_ne he] at hrow
    exact Or.inl (h id' r' hrow k)

theorem Occupied.insert
    {id : ι} {r : ρ}
    (h : Occupied t) :
    Occupied (t.insert party id r) := by
  intro k a id' hmem
  rw [mem_index_insert] at hmem
  rw [row_insert]
  by_cases he : id' = id
  · subst he
    simp
  · rw [Function.update_of_ne he]
    rcases hmem with hmem | ⟨-, hc⟩
    · exact h k a id' hmem
    · exact absurd hc he

theorem Within.insert
    {id : ι} {r : ρ}
    (h : Within P t) (hPQ : ∀ id, P id → Q id) (hid : Q id) :
    Within Q (t.insert party id r) := by
  refine ⟨?_, ?_⟩
  · intro id' hrow
    rw [row_insert] at hrow
    by_cases he : id' = id
    · rw [he]
      exact hid
    · rw [Function.update_of_ne he] at hrow
      exact hPQ id' (h.row id' hrow)
  · intro k a id' hmem
    rw [mem_index_insert] at hmem
    rcases hmem with hmem | ⟨-, rfl⟩
    · exact hPQ id' (h.listed k a id' hmem)
    · exact hid

end Inserting

section Erasing

variable {party : ρ → κ → α} {t : Table ι κ α ρ} {P : ι → Prop}

theorem Sound.erase
    (h : Sound party t) (id : ι) (r : ρ) :
    Sound party (t.erase party id r) := by
  refine ⟨?_, ?_⟩
  · intro k a
    unfold Table.erase
    by_cases ha : a = party r k
    · simp only [ha, if_true]
      exact (h.nodup k _).filter _
    · simp only [ha, if_false]
      exact h.nodup k a
  · intro k a id' r' hmem hrow
    rw [mem_index_erase] at hmem
    rw [row_erase] at hrow
    by_cases he : id' = id
    · subst he
      simp at hrow
    · rw [Function.update_of_ne he] at hrow
      exact h.party_eq k a id' r' hmem.1 hrow

theorem Complete.erase
    (h : Complete party t) (id : ι) (r : ρ) :
    Complete party (t.erase party id r) := by
  intro id' r' hrow k
  rw [row_erase] at hrow
  rw [mem_index_erase]
  by_cases he : id' = id
  · subst he
    simp at hrow
  · rw [Function.update_of_ne he] at hrow
    exact ⟨h id' r' hrow k, fun hc => he hc.2⟩

/-- Erasing a row of a sound table leaves its id on no list. -/
theorem Occupied.erase
    {id : ι} {r : ρ}
    (h : Occupied t) (hs : Sound party t) (hrow : t.row id = some r) :
    Occupied (t.erase party id r) := by
  intro k a id' hmem
  rw [mem_index_erase] at hmem
  rw [row_erase]
  by_cases he : id' = id
  · subst he
    have hp := hs.party_eq k a id' r hmem.1 hrow
    exact absurd ⟨hp.symm, rfl⟩ hmem.2
  · rw [Function.update_of_ne he]
    exact h k a id' hmem.1

theorem Within.erase
    (h : Within P t) (id : ι) (r : ρ) :
    Within P (t.erase party id r) := by
  refine ⟨?_, ?_⟩
  · intro id' hrow
    rw [row_erase] at hrow
    by_cases he : id' = id
    · subst he
      simp at hrow
    · rw [Function.update_of_ne he] at hrow
      exact h.row id' hrow
  · intro k a id' hmem
    rw [mem_index_erase] at hmem
    exact h.listed k a id' hmem.1

end Erasing

section Moving

variable {party : ρ → κ → α} {t : Table ι κ α ρ} {P : ι → Prop}

/-- After taking a row off the list of its party it is listed nowhere. -/
theorem Sound.not_mem_unfile
    (h : Sound party t) {id : ι} {r : ρ} (k : κ)
    (hrow : t.row id = some r) (b : α) :
    id ∉ (t.unfile k (party r k) id).index k b := by
  rw [mem_index_unfile]
  rintro ⟨hmem, hne⟩
  have hb := h.party_eq k b id r hmem hrow
  exact hne ⟨rfl, hb.symm, rfl⟩

/-- Moving an id that the destination does not list keeps lists free of
duplicates. -/
theorem nodup_move
    {k : κ} {id : ι} {a b : α} {r : ρ}
    (h : ∀ k a, (t.index k a).Nodup)
    (hid : id ∉ (t.unfile k a id).index k b)
    (k' : κ) (c : α) :
    ((t.move k id a b r).index k' c).Nodup := by
  have hunfile : ∀ k' c, ((t.unfile k a id).index k' c).Nodup := by
    intro k' c
    unfold unfile
    rw [index_setIndex]
    split_ifs
    · exact (h k a).filter _
    · exact h k' c
  unfold move
  rw [index_setRow]
  unfold file
  rw [index_setIndex]
  split_ifs
  · rw [← List.concat_eq_append]
    exact (hunfile k b).concat hid
  · exact hunfile k' c

/-- Moving an id to where it has just been moved keeps it last there. -/
theorem index_move_again
    {k : κ} {id : ι} {a b : α} (hid : id ∉ (t.unfile k a id).index k b) (r r' : ρ) :
    ((t.move k id a b r).move k id b b r').index = (t.move k id a b r).index := by
  have hkept : ((t.unfile k a id).index k b).filter (fun v => v ≠ id) =
      (t.unfile k a id).index k b := by
    rw [List.filter_eq_self]
    intro v hv
    have hne : v ≠ id := by
      rintro rfl
      exact hid hv
    simpa using hne
  funext k' c
  simp only [move, file, unfile, index_setRow, index_setIndex] at hkept ⊢
  by_cases hc : k' = k ∧ c = b
  · obtain ⟨rfl, rfl⟩ := hc
    simpa using hkept
  · simp [hc]

theorem Sound.move
    {k : κ} {id : ι} {b : α} {r r' : ρ}
    (h : Sound party t) (hrow : t.row id = some r)
    (hk : party r' k = b) (hother : ∀ k', k' ≠ k → party r' k' = party r k') :
    Sound party (t.move k id (party r k) b r') := by
  refine ⟨nodup_move h.nodup (h.not_mem_unfile k hrow b), ?_⟩
  intro k' c id' r'' hmem hrow'
  rw [row_move] at hrow'
  rw [mem_index_move] at hmem
  by_cases hid : id' = id
  · subst hid
    rw [Function.update_self] at hrow'
    obtain rfl := Option.some.inj hrow'
    rcases hmem with ⟨hmem, hne⟩ | ⟨rfl, rfl, -⟩
    · have hc := h.party_eq k' c id' r hmem hrow
      by_cases hkk : k' = k
      · subst hkk
        exact absurd ⟨rfl, hc.symm, rfl⟩ hne
      · rw [hother k' hkk]
        exact hc
    · exact hk
  · rw [Function.update_of_ne hid] at hrow'
    rcases hmem with ⟨hmem, -⟩ | ⟨-, -, hc⟩
    · exact h.party_eq k' c id' r'' hmem hrow'
    · exact absurd hc hid

theorem Complete.move
    {k : κ} {id : ι} {b : α} {r r' : ρ}
    (h : Complete party t) (hrow : t.row id = some r)
    (hk : party r' k = b) (hother : ∀ k', k' ≠ k → party r' k' = party r k') :
    Complete party (t.move k id (party r k) b r') := by
  intro id' r'' hrow' k'
  rw [row_move] at hrow'
  rw [mem_index_move]
  by_cases hid : id' = id
  · subst hid
    rw [Function.update_self] at hrow'
    obtain rfl := Option.some.inj hrow'
    by_cases hkk : k' = k
    · subst hkk
      exact Or.inr ⟨rfl, hk, rfl⟩
    · left
      rw [hother k' hkk]
      exact ⟨h id' r hrow k', fun hc => hkk hc.1⟩
  · rw [Function.update_of_ne hid] at hrow'
    exact Or.inl ⟨h id' r'' hrow' k', fun hc => hid hc.2.2⟩

theorem Occupied.move
    {k : κ} {id : ι} {a b : α} {r' : ρ}
    (h : Occupied t) :
    Occupied (t.move k id a b r') := by
  intro k' c id' hmem
  rw [row_move]
  by_cases hid : id' = id
  · subst hid
    simp
  · rw [Function.update_of_ne hid]
    rw [mem_index_move] at hmem
    rcases hmem with ⟨hmem, -⟩ | ⟨-, -, hc⟩
    · exact h k' c id' hmem
    · exact absurd hc hid

theorem Within.move
    {k : κ} {id : ι} {a b : α} {r r' : ρ}
    (h : Within P t) (hrow : t.row id = some r) :
    Within P (t.move k id a b r') := by
  have hid : P id := h.row id (by simp [hrow])
  refine ⟨?_, ?_⟩
  · intro id' hid'
    rw [row_move] at hid'
    by_cases he : id' = id
    · rw [he]
      exact hid
    · rw [Function.update_of_ne he] at hid'
      exact h.row id' hid'
  · intro k' c id' hmem
    rw [mem_index_move] at hmem
    rcases hmem with ⟨hmem, -⟩ | ⟨-, -, rfl⟩
    · exact h.listed k' c id' hmem
    · exact hid

end Moving

section Adding

variable {party : ρ → κ → α} {t t' : Table ι κ α ρ}
variable {P : ι → Prop} [DecidablePred P]

/-- `t'` has the rows and the lists of `t`, and besides at most rows and entries
under ids that satisfy `P`. -/
structure Adds (P : ι → Prop) [DecidablePred P] (t' t : Table ι κ α ρ) :
    Prop where
  row : ∀ id, ¬ P id → t'.row id = t.row id
  index : ∀ k a, (t'.index k a).filter (fun id => ¬ P id) = t.index k a

theorem Adds.refl
    (h : Within (fun id => ¬ P id) t) :
    Adds P t t := by
  refine ⟨fun _ _ => rfl, ?_⟩
  intro k a
  rw [List.filter_eq_self]
  intro id hmem
  simpa using h.listed k a id hmem

theorem Adds.insert
    (h : Adds P t' t) {id : ι} (hid : P id) (r : ρ) :
    Adds P (t'.insert party id r) t := by
  refine ⟨?_, ?_⟩
  · intro id' hid'
    have hne : id' ≠ id := by
      rintro rfl
      exact hid' hid
    rw [row_insert, Function.update_of_ne hne]
    exact h.row id' hid'
  · intro k a
    rw [← h.index k a]
    unfold Table.insert
    by_cases ha : a = party r k
    · simp [ha, hid]
    · simp [ha]

theorem Adds.erase
    (h : Adds P t' t) {id : ι} (hid : P id) (r : ρ) :
    Adds P (t'.erase party id r) t := by
  refine ⟨?_, ?_⟩
  · intro id' hid'
    have hne : id' ≠ id := by
      rintro rfl
      exact hid' hid
    rw [row_erase, Function.update_of_ne hne]
    exact h.row id' hid'
  · intro k a
    rw [← h.index k a]
    unfold Table.erase
    by_cases ha : a = party r k
    · -- what `erase` filters out, the other filter takes out anyway
      simp only [ha, if_true, List.filter_filter]
      apply List.filter_congr
      intro id' _
      by_cases he : id' = id
      · simp [he, hid]
      · simp [he]
    · simp [ha]

/-- When none of the added rows is left, neither is any entry of theirs. -/
theorem Adds.eq_of_gone
    (h : Adds P t' t) (ho : Occupied t')
    (hnew : ∀ id, P id → t'.row id = none)
    (hold : ∀ id, P id → t.row id = none) :
    t' = t := by
  have hrow : t'.row = t.row := by
    funext id
    by_cases hid : P id
    · rw [hnew id hid, hold id hid]
    · exact h.row id hid
  have hindex : t'.index = t.index := by
    funext k a
    rw [← h.index k a, eq_comm, List.filter_eq_self]
    intro id hmem
    have hsome := ho k a id hmem
    have hid : ¬ P id := by
      intro hid
      simp [hnew id hid] at hsome
    simpa using hid
  exact eq_of_row_of_index hrow hindex

/-- Where every listed id has a row there is nothing to prune. -/
theorem prune_of_occupied
    (ho : Occupied t) (k : κ) (a : α) :
    t.prune k a = t := by
  have hlive : t.live (t.index k a) = t.index k a := by
    unfold live
    rw [List.filter_eq_self]
    exact ho k a
  unfold prune setIndex
  rw [hlive]
  obtain ⟨row, index⟩ := t
  congr 1
  funext k' a'
  split_ifs with h
  · obtain ⟨rfl, rfl⟩ := h
    rfl
  · rfl

end Adding

section Commuting

variable {party : ρ → κ → α} {t : Table ι κ α ρ} {id id' : ι} {r r' : ρ}

theorem index_erase_erase (id id' : ι) (r r' : ρ) :
    ((t.erase party id r).erase party id' r').index =
      ((t.erase party id' r').erase party id r).index := by
  funext k a
  simp only [erase]
  split_ifs
  · rw [List.filter_filter, List.filter_filter]
    simp only [Bool.and_comm]
  · rfl
  · rfl
  · rfl

theorem replace_comm
    (hne : id ≠ id') (o o' : Option ρ) :
    (t.replace party id r o).replace party id' r' o' =
      (t.replace party id' r' o').replace party id r o := by
  apply eq_of_row_of_index
  · simp only [row_replace]
    exact Function.update_comm hne _ _ _
  · cases o with
    | some _ => cases o' <;> rfl
    | none =>
        cases o' with
        | some _ => rfl
        | none => exact index_erase_erase id id' r r'

theorem alter_of_row
    (h : t.row id = some r) (f : ρ → Option ρ) :
    t.alter party id f = t.replace party id r (f r) := by
  rw [alter, h]

theorem alter_of_none
    (h : t.row id = none) (f : ρ → Option ρ) :
    t.alter party id f = t := by
  rw [alter, h]

theorem row_alter_of_ne
    (hne : id' ≠ id) (f : ρ → Option ρ) :
    (t.alter party id f).row id' = t.row id' := by
  cases h : t.row id with
  | none => rw [alter_of_none h]
  | some r => rw [alter_of_row h, row_replace, Function.update_of_ne hne]

/-- What is done to one row does not interfere with what is done to another,
even where both are on the same lists. -/
theorem alter_comm
    (hne : id ≠ id') (f f' : ρ → Option ρ) :
    (t.alter party id f).alter party id' f' =
      (t.alter party id' f').alter party id f := by
  cases h : t.row id with
  | none =>
      have hafter : (t.alter party id' f').row id = none := by
        rw [row_alter_of_ne hne, h]
      rw [alter_of_none h, alter_of_none hafter]
  | some r =>
      have hafter : (t.alter party id' f').row id = some r := by
        rw [row_alter_of_ne hne, h]
      cases h' : t.row id' with
      | none =>
          have hafter' : (t.alter party id f).row id' = none := by
            rw [row_alter_of_ne hne.symm, h']
          rw [alter_of_none hafter', alter_of_none h']
      | some r' =>
          have hafter' : (t.alter party id f).row id' = some r' := by
            rw [row_alter_of_ne hne.symm, h']
          rw [alter_of_row hafter', alter_of_row hafter, alter_of_row h,
            alter_of_row h']
          exact replace_comm hne _ _

end Commuting

end Operations

end Table

end Indexed
end TxWatch
