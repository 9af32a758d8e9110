import TxWatch.Soroban.Run

/-!
# Councils

A council is the set of those who govern a system, listed in the order in which
they joined.  It is never empty and lists nobody twice.  It comes about by being
founded and is changed by its own members, who elect others, dismiss one of
several, or hand over to a single successor.

The two invariants hold each other up: a member can be dismissed only from a
council of two or more, and because nobody is listed twice somebody is left.
-/

namespace TxWatch
namespace Access

open Soroban

universe u v w

/-- Those who govern, each listed once. -/
structure Council (α : Type u) where
  members : List α
  ne_nil : members ≠ []
  nodup : members.Nodup

variable {α : Type u}

namespace Council

/-- The council with one member. -/
def sole (a : α) : Council α where
  members := [a]
  ne_nil := List.cons_ne_nil a []
  nodup := List.nodup_singleton a

/-- The council with one more member. -/
def elect (c : Council α) (a : α) (h : a ∉ c.members) : Council α where
  members := c.members ++ [a]
  ne_nil := by simp
  nodup := by
    rw [← List.concat_eq_append]
    exact c.nodup.concat h

/-- Leaving out one element of a duplicate-free list of two or more. -/
theorem filter_ne_nil
    [DecidableEq α] {l : List α} (hnodup : l.Nodup) (hlen : 1 < l.length)
    (a : α) :
    l.filter (fun b => b ≠ a) ≠ [] := by
  intro hnil
  have hall : ∀ b ∈ l, b = a := by
    intro b hb
    by_contra hne
    have hmem : b ∈ l.filter (fun b => b ≠ a) := by
      simp [hb, hne]
    rw [hnil] at hmem
    exact absurd hmem List.not_mem_nil
  have hle : l.length ≤ [a].length := by
    apply hnodup.length_le_of_subset
    intro b hb
    exact List.mem_singleton.mpr (hall b hb)
  simp only [List.length_singleton] at hle
  omega

/-- The council without one of its members. -/
def dismiss [DecidableEq α] (c : Council α) (a : α)
    (h : 1 < c.members.length) : Council α where
  members := c.members.filter (fun b => b ≠ a)
  ne_nil := filter_ne_nil c.nodup h a
  nodup := c.nodup.filter _

/-- The member who joined first. -/
def eldest (c : Council α) : α :=
  c.members.head c.ne_nil

theorem eldest_mem (c : Council α) :
    c.eldest ∈ c.members := by
  exact List.head_mem c.ne_nil

theorem members_eq (c : Council α) :
    c.members = c.eldest :: c.members.tail := by
  exact (List.cons_head_tail c.ne_nil).symm

/-- The only member of a council that has no second one. -/
theorem eq_singleton
    (c : Council α) {a : α} (ha : a ∈ c.members) (hlen : c.members.length ≤ 1) :
    c.members = [a] := by
  obtain ⟨b, hb⟩ : ∃ b, c.members = [b] := by
    apply List.length_eq_one_iff.mp
    have hpos := List.length_pos_iff.mpr c.ne_nil
    omega
  rw [hb] at ha
  obtain rfl := List.mem_singleton.mp ha
  exact hb

end Council

/-- An act of government. -/
inductive Act (α : Type u) where
  | found (a : α)
  | elect (actor a : α)
  | dismiss (actor a : α)
  | handOver (actor a : α)

/-- The members of a council that may not have been founded yet. -/
def seats : Option (Council α) → List α
  | none => []
  | some c => c.members

/-- The act takes the council from one state to the next.  Whoever acts is a
member and has signed. -/
inductive Enacts [DecidableEq α] (signed : α → Prop) :
    Option (Council α) → Act α → Option (Council α) → Prop
  | found {a : α} :
      Enacts signed none (.found a) (some (Council.sole a))
  | elect {c : Council α} {actor a : α} (ha : a ∉ c.members) :
      actor ∈ c.members →
      signed actor →
      Enacts signed (some c) (.elect actor a) (some (c.elect a ha))
  | dismiss {c : Council α} {actor a : α} (hlen : 1 < c.members.length) :
      actor ∈ c.members →
      signed actor →
      Enacts signed (some c) (.dismiss actor a) (some (c.dismiss a hlen))
  | handOver {c : Council α} {actor a : α} :
      actor ∈ c.members →
      signed actor →
      Enacts signed (some c) (.handOver actor a) (some (Council.sole a))

namespace Enacts

variable [DecidableEq α] {signed : α → Prop} {o o' : Option (Council α)}
  {act : Act α} {a : α}

/-- After any act there is a council. -/
theorem isSome (h : Enacts signed o act o') :
    o'.isSome = true := by
  cases h <;> rfl

/-- Who joins is the founder, or a member has signed. -/
theorem joins
    (h : Enacts signed o act o') (hout : a ∉ seats o) (hin : a ∈ seats o') :
    (o = none ∧ act = .found a) ∨ ∃ b ∈ seats o, signed b := by
  cases h with
  | found =>
      obtain rfl := List.mem_singleton.mp hin
      exact Or.inl ⟨rfl, rfl⟩
  | elect _ hactor hsigned => exact Or.inr ⟨_, hactor, hsigned⟩
  | dismiss _ hactor hsigned => exact Or.inr ⟨_, hactor, hsigned⟩
  | handOver hactor hsigned => exact Or.inr ⟨_, hactor, hsigned⟩

/-- Who leaves is dismissed, or the council was handed over. -/
theorem leaves
    (h : Enacts signed o act o') (hin : a ∈ seats o) (hout : a ∉ seats o') :
    (∃ actor, act = .dismiss actor a) ∨
      ∃ actor b, act = .handOver actor b ∧ actor ∈ seats o := by
  cases h with
  | found => exact absurd hin List.not_mem_nil
  | elect _ _ _ => exact absurd (List.mem_append_left _ hin) hout
  | @dismiss c actor b _ _ _ =>
      left
      have hab : a = b := by
        by_contra hne
        apply hout
        exact List.mem_filter.mpr ⟨hin, by simpa using hne⟩
      exact ⟨actor, by rw [hab]⟩
  | handOver hactor _ => exact Or.inr ⟨_, _, rfl, hactor⟩

end Enacts

section Storage

/-- The stored list is the one of the council, or there is neither. -/
def Held (stored : Option (List α)) (o : Option (Council α)) : Prop :=
  stored = o.map Council.members

variable {stored : Option (List α)} {o : Option (Council α)}

theorem Held.getD
    (h : Held stored o) :
    stored.getD [] = seats o := by
  rw [h]
  cases o <;> rfl

/-- A stored list is the one of a council. -/
theorem Held.council
    (h : Held stored o) {l : List α} (hl : stored = some l) :
    ∃ c, o = some c ∧ c.members = l := by
  rw [Held, hl] at h
  exact Option.map_eq_some_iff.mp h.symm

theorem Held.eq_none
    (h : Held stored o) (hnone : stored = none) :
    o = none := by
  rw [Held, hnone] at h
  exact Option.map_eq_none_iff.mp h.symm

/-- A member of the stored list sits on the council. -/
theorem Held.mem
    {c : Council α} (h : Held stored (some c)) {l : List α} {a : α}
    (hl : stored = some l) (ha : a ∈ l) :
    a ∈ c.members := by
  obtain rfl : c.members = l := Option.some.inj (h.symm.trans hl)
  exact ha

theorem Held.ne_none
    (h : Held stored o) (hsome : o.isSome = true) :
    stored ≠ none := by
  intro hnone
  rw [h.eq_none hnone] at hsome
  cases hsome

theorem Held.isSome
    (h : Held stored o) (hstored : stored ≠ none) :
    o.isSome = true := by
  cases o with
  | none => exact absurd h hstored
  | some c => rfl

variable {σ : Type v} {ι : Type w} {step : σ → ι → σ}

/-- A council whose every change is an act of government stays in office. -/
theorem held_run
    [DecidableEq α] {list : σ → Option (List α)}
    (hstep : ∀ s i o, Held (list s) o →
      Held (list (step s i)) o ∨
        ∃ signed act o', Enacts signed o act o' ∧ Held (list (step s i)) o')
    {s : σ} {o : Option (Council α)} (h : Held (list s) o) (is : List ι) :
    ∃ o', Held (list (run step s is)) o' ∧ (o.isSome = true → o'.isSome = true) := by
  induction is generalizing s o with
  | nil => exact ⟨o, h, id⟩
  | cons i is ih =>
      rcases hstep s i o h with hkeep | ⟨_, _, o', henacts, hafter⟩
      · exact ih hkeep
      · obtain ⟨o'', hheld, hsome⟩ := ih hafter
        exact ⟨o'', hheld, fun _ => hsome henacts.isSome⟩

end Storage

end Access
end TxWatch
