import Mathlib.Tactic.Common
import Mathlib.Data.List.Induction

/-! Numbered slots of which the highest that applies decides, as a protection unit decides
by its regions. Written in ascending order over empty slots, the last slot written that
applies decides. -/
namespace AkNano.Priority

variable {α : Type} (number : α → Nat) (applies : α → Bool)

def written (slots : Nat → Option α) (x : α) : Nat → Option α :=
  fun n => if n = number x then some x else slots n

def deciding (slots : Nat → Option α) : Nat → Option α
  | 0 => none
  | n + 1 =>
    match slots n with
    | some x => if applies x then some x else deciding slots n
    | none => deciding slots n

variable {number applies} {slots slots' : Nat → Option α}

theorem decidingCongr {k : Nat} (same : ∀ n, n < k → slots n = slots' n) :
    deciding applies slots k = deciding applies slots' k := by
  induction k with
  | zero => rfl
  | succ k ih =>
    have rest := ih (fun n below => same n (Nat.lt_succ_of_lt below))
    simp only [deciding,same k (Nat.lt_succ_self k),rest]

theorem decidingAbove {k j : Nat} (empty : ∀ n, k ≤ n → n < k + j → slots n = none) :
    deciding applies slots (k + j) = deciding applies slots k := by
  induction j with
  | zero => rfl
  | succ j ih =>
    have rest := ih (fun n above below => empty n above (Nat.lt_succ_of_lt below))
    rw [← Nat.add_assoc]
    simp only [deciding,empty (k + j) (Nat.le_add_right k j) (Nat.lt_succ_self _),rest]

theorem decidingLast {x : α} {k : Nat} (below : number x < k)
    (empty : ∀ n, number x < n → n < k → slots n = none) :
    deciding applies (written number slots x) k =
      if applies x then some x else deciding applies slots (number x) := by
  have split : k = (number x + 1) + (k - (number x + 1)) := (Nat.add_sub_cancel' below).symm
  have above : ∀ n, number x + 1 ≤ n → n < (number x + 1) + (k - (number x + 1)) →
      written number slots x n = none := by
    intro n higher inside
    rw [written,if_neg (Nat.ne_of_gt higher)]
    exact empty n higher (split ▸ inside)
  have lower : deciding applies (written number slots x) (number x) =
      deciding applies slots (number x) :=
    decidingCongr (fun n small => if_neg (Nat.ne_of_lt small))
  have own : written number slots x (number x) = some x := if_pos rfl
  rw [split,decidingAbove above]
  simp only [deciding,own,lower]

theorem writtenUnnamed {xs : List α} {n : Nat} (unnamed : n ∉ xs.map number) :
    xs.foldl (written number) slots n = slots n := by
  induction xs generalizing slots with
  | nil => rfl
  | cons x xs ih =>
    rw [List.map_cons,List.mem_cons,not_or] at unnamed
    rw [List.foldl_cons,ih unnamed.2,written,if_neg unnamed.1]

theorem decidingWritten {xs : List α} {k : Nat} (ascending : (xs.map number).Pairwise (· < ·))
    (below : ∀ x ∈ xs, number x < k)
    (empty : ∀ n, n < k → n ∉ xs.map number → slots n = none) :
    deciding applies (xs.foldl (written number) slots) k = xs.reverse.find? applies := by
  induction xs using List.reverseRecOn generalizing k with
  | nil =>
    have silent : deciding applies slots (0 + k) = none := by
      rw [decidingAbove]
      · rfl
      · intro n _ small
        exact empty n (by omega) List.not_mem_nil
    rwa [Nat.zero_add] at silent
  | append_singleton xs x ih =>
    rw [List.map_append,List.pairwise_append] at ascending
    have least : ∀ y ∈ xs, number y < number x := fun y inside =>
      ascending.2.2 _ (List.mem_map_of_mem inside) _ (List.mem_singleton_self _)
    have last := below x (List.mem_append_right xs (List.mem_singleton_self x))
    have unnamed : ∀ n, n ∉ xs.map number → n ≠ number x → n ∉ (xs ++ [x]).map number := by
      intro n outside other inside
      rw [List.map_append,List.mem_append] at inside
      rcases inside with early | late
      · exact outside early
      · exact other (List.mem_singleton.mp late)
    have above : ∀ n, number x < n → n < k → xs.foldl (written number) slots n = none := by
      intro n higher small
      have outside : n ∉ xs.map number := by
        intro inside
        obtain ⟨y,member,same⟩ := List.mem_map.mp inside
        exact absurd (least y member) (by omega)
      rw [writtenUnnamed outside]
      exact empty n small (unnamed n outside (Nat.ne_of_gt higher))
    have rest := ih ascending.1 least (fun n small outside =>
      empty n (Nat.lt_trans small last) (unnamed n outside (Nat.ne_of_lt small)))
    rw [List.foldl_append,List.foldl_cons,List.foldl_nil,decidingLast last above,rest,
      List.reverse_append,List.reverse_singleton,List.singleton_append]
    cases given : applies x <;> simp [given]

end AkNano.Priority
