import TxWatch.Soroban.Run

/-!
# Grants with deadlines

An access list as it looks to those who ask it: every subject holds no grant,
or a grant with a deadline, where `⊤` is a grant that never ends.  A list is
changed by granting, by revoking and by revoking everything.

A system is tracked by its changes when every step has the effect of a list of
them.  In such a system a revoked subject stays revoked until a change grants
it access again, and a grant stays as it is until a change concerns its
subject.
-/

namespace TxWatch
namespace Access

open Soroban

universe u v

/-- Who holds a grant, and until when. -/
abbrev Grants (α τ : Type) : Type :=
  α → Option (WithTop τ)

/-- A change of the grants. -/
inductive Change (α τ : Type) where
  | grant (a : α) (deadline : WithTop τ)
  | revoke (a : α)
  | revokeAll

variable {α τ : Type}

/-- At time `now` the grants admit `a`. -/
def Grants.Admits [LE τ] (g : Grants α τ) (now : τ) (a : α) : Prop :=
  ∃ deadline, g a = some deadline ∧ (now : WithTop τ) ≤ deadline

namespace Change

/-- The change grants access to `a`. -/
def GrantsTo (a : α) : Change α τ → Prop
  | grant b _ => b = a
  | revoke _ => False
  | revokeAll => False

/-- The change says something about `a`. -/
def Concerns (a : α) : Change α τ → Prop
  | grant b _ => b = a
  | revoke b => b = a
  | revokeAll => True

theorem GrantsTo.concerns
    {a : α} {c : Change α τ} (h : c.GrantsTo a) :
    c.Concerns a := by
  cases c with
  | grant b deadline => exact h
  | revoke b => exact False.elim h
  | revokeAll => trivial

variable [DecidableEq α]

/-- Effect of a change. -/
def apply (g : Grants α τ) : Change α τ → Grants α τ
  | grant a deadline => Function.update g a (some deadline)
  | revoke a => Function.update g a none
  | revokeAll => fun _ => none

variable {g : Grants α τ} {a : α}

@[simp] theorem apply_grant_self (deadline : WithTop τ) :
    apply g (.grant a deadline) a = some deadline := by
  simp [apply]

@[simp] theorem apply_revoke_self :
    apply g (.revoke a) a = none := by
  simp [apply]

@[simp] theorem apply_revokeAll :
    apply g .revokeAll a = none := by
  rfl

theorem apply_grant_of_ne {b : α} (h : a ≠ b) (deadline : WithTop τ) :
    apply g (.grant b deadline) a = g a := by
  simp [apply, h]

theorem apply_revoke_of_ne {b : α} (h : a ≠ b) :
    apply g (.revoke b) a = g a := by
  simp [apply, h]

theorem apply_of_not_concerns
    {c : Change α τ} (h : ¬ c.Concerns a) :
    apply g c a = g a := by
  cases c with
  | grant b deadline => exact apply_grant_of_ne (fun hab => h hab.symm) deadline
  | revoke b => exact apply_revoke_of_ne (fun hab => h hab.symm)
  | revokeAll => exact absurd trivial h

theorem apply_eq_none
    {c : Change α τ} (hg : g a = none) (h : ¬ c.GrantsTo a) :
    apply g c a = none := by
  by_cases hc : c.Concerns a
  · cases c with
    | grant b deadline => exact absurd hc h
    | revoke b =>
        have hb : b = a := hc
        subst hb
        exact apply_revoke_self
    | revokeAll => rfl
  · rw [apply_of_not_concerns hc, hg]

/-- Changes that do not concern `a` leave its grant alone. -/
theorem run_of_not_concerns
    {cs : List (Change α τ)} (h : ∀ c ∈ cs, ¬ c.Concerns a) :
    run apply g cs a = g a := by
  induction cs generalizing g with
  | nil => rfl
  | cons c cs ih =>
      have hrest : ∀ d ∈ cs, ¬ d.Concerns a := by
        intro d hd
        exact h d (List.mem_cons_of_mem _ hd)
      rw [run_cons, ih hrest, apply_of_not_concerns (h c List.mem_cons_self)]

/-- Without a change that grants it access, a subject without a grant gets
none. -/
theorem run_eq_none
    {cs : List (Change α τ)} (hg : g a = none)
    (h : ∀ c ∈ cs, ¬ c.GrantsTo a) :
    run apply g cs a = none := by
  induction cs generalizing g with
  | nil => exact hg
  | cons c cs ih =>
      refine ih (apply_eq_none hg (h c List.mem_cons_self)) ?_
      intro d hd
      exact h d (List.mem_cons_of_mem _ hd)

/-- Granting a list of subjects the same deadline. -/
theorem run_map_grant
    (l : List α) (deadline : WithTop τ) :
    run apply g (l.map (fun b => .grant b deadline)) a =
      if a ∈ l then some deadline else g a := by
  induction l generalizing g with
  | nil => rfl
  | cons b l ih =>
      rw [List.map_cons, run_cons, ih]
      by_cases hmem : a ∈ l
      · simp [hmem]
      · by_cases hab : a = b
        · subst hab
          simp
        · simp [hmem, hab, apply]

end Change

section Admission

variable [LinearOrder τ] {g : Grants α τ} {a : α} {now : τ}

theorem Grants.admits_iff_of_grant
    {deadline : WithTop τ} (h : g a = some deadline) :
    g.Admits now a ↔ (now : WithTop τ) ≤ deadline := by
  simp [Grants.Admits, h]

theorem Grants.not_admits_of_none
    (h : g a = none) :
    ¬ g.Admits now a := by
  simp [Grants.Admits, h]

end Admission

section Systems

variable [DecidableEq α] {σ : Type u} {ι : Type v}

/-- Every step of the system has the effect of its changes, in the states that
satisfy `inv`, which the steps keep. -/
structure Tracked (step : σ → ι → σ) (inv : σ → Prop)
    (grants : σ → Grants α τ) (changes : σ → ι → List (Change α τ)) : Prop where
  keeps : ∀ s i, inv s → inv (step s i)
  follows : ∀ s i, inv s →
    grants (step s i) = run Change.apply (grants s) (changes s i)

variable {step : σ → ι → σ} {inv : σ → Prop} {grants : σ → Grants α τ}
  {changes : σ → ι → List (Change α τ)} {s : σ} {is : List ι} {a : α}

theorem Tracked.inv_run
    (h : Tracked step inv grants changes) (hs : inv s) :
    inv (run step s is) := by
  induction is generalizing s with
  | nil => exact hs
  | cons i is ih => exact ih (h.keeps s i hs)

/-- A subject without a grant has none until a change grants it access.  The
steps need to be of this kind only while the subject is without a grant. -/
theorem Tracked.revoked_until_granted
    {C : σ → ι → Prop}
    (h : Tracked step inv grants changes) (hs : inv s)
    (hnone : grants s a = none)
    (hC : ∀ s i, C s i → inv s → grants s a = none →
      ∀ c ∈ changes s i, ¬ c.GrantsTo a)
    (hrun : Along step C s is) :
    grants (run step s is) a = none := by
  have hstep : ∀ s i, C s i → (inv s ∧ grants s a = none) →
      inv (step s i) ∧ grants (step s i) a = none := by
    intro s i hi hp
    refine ⟨h.keeps s i hp.1, ?_⟩
    rw [h.follows s i hp.1]
    exact Change.run_eq_none hp.2 (hC s i hi hp.1 hp.2)
  have hend := run_preserves (P := fun s => inv s ∧ grants s a = none) hstep
    ⟨hs, hnone⟩ hrun
  exact hend.2

/-- A grant stays as it is until a change concerns its subject. -/
theorem Tracked.unchanged_until_concerned
    {C : σ → ι → Prop}
    (h : Tracked step inv grants changes) (hs : inv s)
    (hC : ∀ s i, C s i → ∀ c ∈ changes s i, ¬ c.Concerns a)
    (hrun : Along step C s is) :
    grants (run step s is) a = grants s a := by
  have hstep : ∀ t i, C t i → (inv t ∧ grants t a = grants s a) →
      inv (step t i) ∧ grants (step t i) a = grants s a := by
    intro t i hi hp
    refine ⟨h.keeps t i hp.1, ?_⟩
    rw [h.follows t i hp.1, Change.run_of_not_concerns (hC t i hi)]
    exact hp.2
  have hend := run_preserves
    (P := fun t => inv t ∧ grants t a = grants s a) hstep ⟨hs, rfl⟩ hrun
  exact hend.2

end Systems

end Access
end TxWatch
