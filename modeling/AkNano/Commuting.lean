import Mathlib.Tactic.Common

/-! Operations that commute with each other and do nothing the second time. What a list of
them does depends on which ones occur in it, not on how often or in which order. -/
namespace AkNano.Commuting

variable {ι σ : Type}

def applied (act : ι → σ → σ) (s : σ) : List ι → σ
  | [] => s
  | i :: is => applied act (act i s) is

structure Settling (act : ι → σ → σ) : Prop where
  comm : ∀ i j s, act i (act j s) = act j (act i s)
  idem : ∀ i s, act i (act i s) = act i s

variable {act : ι → σ → σ}

theorem appliedAppend (s : σ) (is js : List ι) :
    applied act s (is ++ js) = applied act (applied act s is) js := by
  induction is generalizing s with
  | nil => rfl
  | cons i is ih => exact ih (act i s)

variable (h : Settling act)

include h

theorem appliedLater (i : ι) (s : σ) (is : List ι) :
    act i (applied act s is) = applied act (act i s) is := by
  induction is generalizing s with
  | nil => rfl
  | cons j is ih => rw [applied,applied,ih,h.comm]

theorem appliedAbsorbs {i : ι} {is : List ι} (s : σ) (mem : i ∈ is) :
    act i (applied act s is) = applied act s is := by
  induction is generalizing s with
  | nil => exact absurd mem List.not_mem_nil
  | cons j is ih =>
    rcases List.mem_cons.mp mem with first | later
    · rw [applied,first,appliedLater h,h.idem]
    · exact ih (act j s) later

theorem appliedCovered {is js : List ι} (s : σ) (covered : ∀ j ∈ js, j ∈ is) :
    applied act (applied act s is) js = applied act s is := by
  induction js with
  | nil => rfl
  | cons j js ih =>
    rw [applied,appliedAbsorbs h s (covered j List.mem_cons_self)]
    exact ih (fun k mem => covered k (List.mem_cons_of_mem j mem))

theorem appliedSwap (s : σ) (is js : List ι) :
    applied act (applied act s is) js = applied act (applied act s js) is := by
  induction is generalizing s with
  | nil => rfl
  | cons i is ih => rw [applied,applied,ih,appliedLater h]

theorem appliedSame {is js : List ι} (s : σ) (same : ∀ i, i ∈ is ↔ i ∈ js) :
    applied act s is = applied act s js := by
  calc applied act s is
      = applied act (applied act s is) js := (appliedCovered h s (fun j => (same j).mpr)).symm
    _ = applied act (applied act s js) is := appliedSwap h s is js
    _ = applied act s js := appliedCovered h s (fun i => (same i).mp)

end AkNano.Commuting
