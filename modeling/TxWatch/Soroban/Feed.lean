import Mathlib.Tactic

/-!
# Following a log through a cursor

A log only grows.  A reader wants some of its entries, fetches them page by page
from after a cursor, handles them one by one and moves the cursor past each that
it has handled; a handler that refuses an entry ends the page.  Whatever the
pages are, what the reader has handled is an initial stretch of what it wants.
-/

namespace TxWatch
namespace Soroban
namespace Feed

universe u v

variable {ε : Type u} {ω : Type v}

/-- The entries that are wanted, each with its token: its position in the log. -/
def wanted (p : ε → Bool) (log : List ε) : List (ε × Nat) :=
  log.zipIdx.filter (fun e => p e.1)

/-- Whether an entry comes after the cursor. -/
def after (cursor : Option Nat) (e : ε × Nat) : Bool :=
  cursor.all (fun t => t < e.2)

/-- The wanted entries after the cursor. -/
def pending (p : ε → Bool) (log : List ε) (cursor : Option Nat) :
    List (ε × Nat) :=
  (wanted p log).filter (after cursor)

/-- A reader: the token of the entry it has handled last, and what its handler
has made of the entries. -/
structure Reader (ω : Type v) where
  cursor : Option Nat
  output : List ω

/-- A reader that has handled nothing. -/
def Reader.fresh : Reader ω where
  cursor := none
  output := []

/-- Handle the entries of a page in order, up to the first that the handler
refuses. -/
def Reader.consume (handle : ε → Option ω) : List (ε × Nat) → Reader ω → Reader ω
  | [], r => r
  | (entry, token) :: rest, r =>
      match handle entry with
      | none => r
      | some out =>
          Reader.consume handle rest ⟨some token, r.output ++ [out]⟩

/-- The reader has handled the first `n` wanted entries and nothing else. -/
structure Follows (p : ε → Bool) (handle : ε → Option ω) (log : List ε)
    (r : Reader ω) (n : Nat) : Prop where
  le : n ≤ (wanted p log).length
  cursor : r.cursor = ((wanted p log).take n).getLast?.map Prod.snd
  output : r.output.map some =
    ((wanted p log).take n).map (fun e => handle e.1)

section Tokens

variable {p : ε → Bool} {log : List ε}

/-- What a log grows by comes after what was wanted. -/
theorem wanted_prefix (p : ε → Bool) (log more : List ε) :
    wanted p log <+: wanted p (log ++ more) := by
  rw [wanted, wanted, List.zipIdx_append, List.filter_append]
  exact List.prefix_append _ _

theorem map_fst_wanted (p : ε → Bool) (log : List ε) :
    (wanted p log).map Prod.fst = log.filter p := by
  have hfst := List.zipIdx_map_fst 0 log
  calc (wanted p log).map Prod.fst
      = (log.zipIdx.map Prod.fst).filter p := by
        rw [List.filter_map]
        rfl
    _ = log.filter p := by rw [hfst]

theorem length_wanted (p : ε → Bool) (log : List ε) :
    (wanted p log).length = (log.filter p).length := by
  rw [← map_fst_wanted, List.length_map]

/-- Tokens increase along the log. -/
theorem pairwise_wanted (p : ε → Bool) (log : List ε) :
    (wanted p log).Pairwise (fun e e' => e.2 < e'.2) := by
  apply List.Pairwise.filter
  have hrange : (log.zipIdx.map Prod.snd).Pairwise (· < ·) := by
    rw [List.zipIdx_map_snd]
    exact List.pairwise_lt_range'
  exact List.pairwise_map.mp hrange

/-- A cursor on the last of the first `n` wanted entries leaves the others. -/
theorem pending_eq_drop
    {n : Nat} {cursor : Option Nat}
    (hcursor : cursor = ((wanted p log).take n).getLast?.map Prod.snd) :
    pending p log cursor = (wanted p log).drop n := by
  have hsplit := List.take_append_drop n (wanted p log)
  have hpair := pairwise_wanted p log
  rw [← hsplit, List.pairwise_append] at hpair
  obtain ⟨htake, -, hcross⟩ := hpair
  have hbehind : ((wanted p log).take n).filter (after cursor) = [] := by
    rw [List.filter_eq_nil_iff]
    intro e he
    obtain ⟨last, hlast⟩ := Option.isSome_iff_exists.mp
      (List.getLast?_isSome.mpr (List.ne_nil_of_mem he))
    have hle : e.2 ≤ last.2 := by
      obtain ⟨front, hfront⟩ := List.getLast?_eq_some_iff.mp hlast
      rw [hfront, List.pairwise_append] at htake
      rw [hfront] at he
      rcases List.mem_append.mp he with he | he
      · exact (htake.2.2 e he last (by simp)).le
      · rw [List.mem_singleton.mp he]
    rw [hcursor, hlast]
    simp [after, hle]
  have hahead : ((wanted p log).drop n).filter (after cursor) =
      (wanted p log).drop n := by
    rw [List.filter_eq_self]
    intro e he
    rw [hcursor]
    cases hlast : ((wanted p log).take n).getLast? with
    | none => rfl
    | some last =>
        have hlt := hcross last (List.mem_of_getLast? hlast) e he
        simp [after, hlt]
  calc pending p log cursor
      = ((wanted p log).take n ++ (wanted p log).drop n).filter (after cursor) := by
        rw [hsplit, pending]
    _ = (wanted p log).drop n := by
        rw [List.filter_append, hbehind, hahead, List.nil_append]

end Tokens

section Reading

variable {p : ε → Bool} {handle : ε → Option ω} {log : List ε} {r : Reader ω}
  {n : Nat}

theorem follows_fresh : Follows p handle log (Reader.fresh : Reader ω) 0 where
  le := Nat.zero_le _
  cursor := rfl
  output := rfl

/-- The log may grow under the reader. -/
theorem Follows.append
    (h : Follows p handle log r n) (more : List ε) :
    Follows p handle (log ++ more) r n := by
  have hprefix := wanted_prefix p log more
  have htake : (wanted p (log ++ more)).take n = (wanted p log).take n := by
    obtain ⟨rest, hrest⟩ := hprefix
    rw [← hrest, List.take_append_of_le_length h.le]
  refine ⟨h.le.trans hprefix.length_le, ?_, ?_⟩
  · rw [htake, h.cursor]
  · rw [htake, h.output]

theorem Follows.pending
    (h : Follows p handle log r n) :
    pending p log r.cursor = (wanted p log).drop n :=
  pending_eq_drop h.cursor

/-- Handling the next wanted entry. -/
theorem Follows.next
    (h : Follows p handle log r n) {entry : ε} {token : Nat} {out : ω}
    {rest : List (ε × Nat)}
    (hdrop : (wanted p log).drop n = (entry, token) :: rest)
    (hout : handle entry = some out) :
    Follows p handle log ⟨some token, r.output ++ [out]⟩ (n + 1) := by
  have hlt : n < (wanted p log).length := by
    by_contra hge
    rw [List.drop_of_length_le (by omega)] at hdrop
    exact absurd hdrop (by simp)
  have htake : (wanted p log).take (n + 1) =
      (wanted p log).take n ++ [(entry, token)] := by
    rw [List.take_add_one, ← List.head?_drop, hdrop]
    rfl
  refine ⟨hlt, ?_, ?_⟩
  · rw [htake]
    simp
  · rw [htake, List.map_append, List.map_append, h.output]
    simp [hout]

/-- A page of what is pending is handled in order, and as a whole if the handler
refuses nothing of it. -/
theorem Follows.consume
    (h : Follows p handle log r n) {page : List (ε × Nat)}
    (hpage : page <+: (wanted p log).drop n) :
    ∃ m, Follows p handle log (r.consume handle page) (n + m) ∧
      ((∀ e ∈ page, (handle e.1).isSome) → m = page.length) := by
  induction page generalizing r n with
  | nil => exact ⟨0, h, fun _ => rfl⟩
  | cons e rest ih =>
      obtain ⟨entry, token⟩ := e
      obtain ⟨back, hback⟩ := hpage
      unfold Reader.consume
      cases hout : handle entry with
      | none =>
          refine ⟨0, h, ?_⟩
          intro hall
          have hsome := hall (entry, token) List.mem_cons_self
          rw [hout] at hsome
          exact absurd hsome (by simp)
      | some out =>
          have hnext := h.next hback.symm hout
          have hrest : rest <+: (wanted p log).drop (n + 1) := by
            refine ⟨back, ?_⟩
            have htail := congrArg List.tail hback
            rwa [List.cons_append, List.tail_cons, List.tail_drop] at htail
          obtain ⟨m, hm, hfull⟩ := ih hnext hrest
          refine ⟨m + 1, ?_, ?_⟩
          · rwa [Nat.add_right_comm, Nat.add_assoc] at hm
          · intro hall
            rw [List.length_cons,
              hfull fun e he => hall e (List.mem_cons_of_mem _ he)]

end Reading

end Feed
end Soroban
end TxWatch
