import Mathlib.Data.Nat.Basic
import Mathlib.Logic.Function.Basic
import Mathlib.Logic.Nontrivial.Basic
import Mathlib.Tactic.Common

/-! Cell-addressed memories as total functions, with the one write they need:
an overlay of a finite window. NOR erase and program are overlays, so every
frame fact below serves RAM copies and flash updates alike. -/
namespace AkNano.Memory

variable {α : Type}

def overlay (m : Nat → α) (p len : Nat) (f : Nat → α) : Nat → α :=
  fun x => if p ≤ x ∧ x < p + len then f (x - p) else m x

def AgreeOn (p len : Nat) (m n : Nat → α) : Prop := ∀ i, i < len → n (p + i) = m (p + i)

def AgreeOff (p len : Nat) (m n : Nat → α) : Prop := ∀ x, x < p ∨ p + len ≤ x → n x = m x

theorem overlayIn (m : Nat → α) (p len : Nat) (f : Nat → α) {i : Nat} (inside : i < len) :
    overlay m p len f (p + i) = f i := by
  have window : p ≤ p + i ∧ p + i < p + len := by omega
  simp [overlay, window]

theorem overlayAt (m : Nat → α) (p len : Nat) (f : Nat → α) {x : Nat}
    (lower : p ≤ x) (upper : x < p + len) : overlay m p len f x = f (x - p) := by
  simp [overlay, lower, upper]

theorem overlayOut (m : Nat → α) (p len : Nat) (f : Nat → α) {x : Nat}
    (outside : x < p ∨ p + len ≤ x) : overlay m p len f x = m x := by
  have window : ¬ (p ≤ x ∧ x < p + len) := by omega
  simp [overlay, window]

theorem overlayZero (m : Nat → α) (p : Nat) (f : Nat → α) : overlay m p 0 f = m := by
  funext x
  exact overlayOut m p 0 f (by omega)

theorem overlayCongr (m : Nat → α) (p len : Nat) {f g : Nat → α}
    (same : ∀ i, i < len → f i = g i) : overlay m p len f = overlay m p len g := by
  funext x
  by_cases window : p ≤ x ∧ x < p + len
  · rw [overlayAt m p len f window.1 window.2, overlayAt m p len g window.1 window.2]
    exact same _ (by omega)
  · rw [overlayOut m p len f (by omega), overlayOut m p len g (by omega)]

theorem overlayAppend (m : Nat → α) (p a b : Nat) (f g : Nat → α) :
    overlay (overlay m p a f) (p + a) b g =
      overlay m p (a + b) (fun i => if i < a then f i else g (i - a)) := by
  funext x
  by_cases first : p ≤ x ∧ x < p + a
  · have small : x - p < a := by omega
    rw [overlayOut _ _ _ _ (by omega), overlayAt _ _ _ _ first.1 first.2,
      overlayAt _ _ _ _ first.1 (by omega), if_pos small]
  · by_cases second : p + a ≤ x ∧ x < p + a + b
    · have large : ¬ x - p < a := by omega
      rw [overlayAt _ _ _ _ second.1 second.2, overlayAt _ _ _ _ (by omega) (by omega),
        if_neg large, Nat.sub_sub]
    · rw [overlayOut _ _ _ _ (by omega), overlayOut _ _ _ _ (by omega),
        overlayOut _ _ _ _ (by omega)]

theorem agreeOnRefl (p len : Nat) (m : Nat → α) : AgreeOn p len m m := fun _ _ => rfl

theorem agreeOffRefl (p len : Nat) (m : Nat → α) : AgreeOff p len m m := fun _ _ => rfl

theorem agreeOffTrans {p len : Nat} {m n k : Nat → α} (first : AgreeOff p len m n)
    (second : AgreeOff p len n k) : AgreeOff p len m k :=
  fun x outside => (second x outside).trans (first x outside)

theorem agreeOffWiden {p len q wide : Nat} {m n : Nat → α} (h : AgreeOff p len m n)
    (lower : q ≤ p) (upper : p + len ≤ q + wide) : AgreeOff q wide m n :=
  fun x outside => h x (by omega)

theorem agreeOffOverlay (m : Nat → α) (p len : Nat) (f : Nat → α) :
    AgreeOff p len m (overlay m p len f) := fun _ outside => overlayOut m p len f outside

theorem agreeOnOfAgreeOff {p len q wide : Nat} {m n : Nat → α} (h : AgreeOff q wide m n)
    (apart : p + len ≤ q ∨ q + wide ≤ p) : AgreeOn p len m n :=
  fun _ _ => h _ (by omega)

theorem overlayForgets {p len q wide : Nat} {m n : Nat → α} (f : Nat → α)
    (h : AgreeOff p len m n) (lower : q ≤ p) (upper : p + len ≤ q + wide) :
    overlay n q wide f = overlay m q wide f := by
  funext x
  by_cases window : q ≤ x ∧ x < q + wide
  · rw [overlayAt _ _ _ _ window.1 window.2, overlayAt _ _ _ _ window.1 window.2]
  · rw [overlayOut _ _ _ _ (by omega), overlayOut _ _ _ _ (by omega)]
    exact h x (by omega)

theorem overlayLonger (m : Nat → α) (p : Nat) {a b : Nat} {f g : Nat → α} (longer : a ≤ b)
    (same : ∀ i, i < a → g i = f i) :
    AgreeOff (p + a) (b - a) (overlay m p a f) (overlay m p b g) := by
  intro x outside
  by_cases inside : p ≤ x ∧ x < p + a
  · rw [overlayAt _ _ _ _ inside.1 (by omega), overlayAt _ _ _ _ inside.1 inside.2]
    exact same _ (by omega)
  · rw [overlayOut _ _ _ _ (by omega), overlayOut _ _ _ _ (by omega)]

theorem overlayComm {p len q wide : Nat} (m : Nat → α) (f g : Nat → α)
    (apart : p + len ≤ q ∨ q + wide ≤ p) :
    overlay (overlay m p len f) q wide g = overlay (overlay m q wide g) p len f := by
  funext x
  by_cases first : p ≤ x ∧ x < p + len
  · rw [overlayOut _ _ _ _ (by omega),overlayAt _ _ _ _ first.1 first.2,
      overlayAt _ _ _ _ first.1 first.2]
  · rw [overlayOut _ p len f (by omega)]
    by_cases second : q ≤ x ∧ x < q + wide
    · rw [overlayAt _ _ _ _ second.1 second.2,overlayAt _ _ _ _ second.1 second.2]
    · rw [overlayOut _ _ _ _ (by omega),overlayOut _ _ _ _ (by omega),
        overlayOut _ _ _ _ (by omega)]

def cells (m : Nat → α) (p len : Nat) : List α := (List.range len).map (fun i => m (p + i))

@[simp] theorem cellsLength (m : Nat → α) (p len : Nat) : (cells m p len).length = len := by
  simp [cells]

theorem cellsEq {m n : Nat → α} {p q len : Nat} :
    cells m p len = cells n q len ↔ ∀ i, i < len → m (p + i) = n (q + i) := by
  simp only [cells, List.map_inj_left, List.mem_range]

theorem cellsAppend (m : Nat → α) (p a b : Nat) :
    cells m p (a + b) = cells m p a ++ cells m (p + a) b := by
  simp only [cells,List.range_add,List.map_append,List.map_map]
  congr 1
  apply List.map_congr_left
  intro i _
  simp only [Function.comp_apply,Nat.add_assoc]

def Stored (m : Nat → α) (p : Nat) (bs : List α) : Prop := cells m p bs.length = bs

theorem storedNil (m : Nat → α) (p : Nat) : Stored m p [] := rfl

theorem storedAppend {m : Nat → α} {p : Nat} {as bs : List α} :
    Stored m p (as ++ bs) ↔ Stored m p as ∧ Stored m (p + as.length) bs := by
  unfold Stored
  rw [List.length_append,cellsAppend]
  constructor
  · intro same
    exact List.append_inj same (cellsLength m p as.length)
  · rintro ⟨first,second⟩
    rw [first,second]

theorem storedSingle {m : Nat → α} {p : Nat} {b : α} : Stored m p [b] ↔ m p = b := by
  simp [Stored,cells]

theorem storedCons {m : Nat → α} {p : Nat} {b : α} {bs : List α} :
    Stored m p (b :: bs) ↔ m p = b ∧ Stored m (p + 1) bs := by
  have split : Stored m p ([b] ++ bs) ↔ Stored m p [b] ∧ Stored m (p + 1) bs := storedAppend
  rwa [storedSingle] at split

theorem storedCongr {m n : Nat → α} {p : Nat} {bs : List α} (same : AgreeOn p bs.length m n) :
    Stored n p bs ↔ Stored m p bs := by
  have cells : cells n p bs.length = cells m p bs.length := cellsEq.mpr same
  unfold Stored
  rw [cells]

section Nor

def erase (m : Nat → α) (p len : Nat) (blank : α) : Nat → α := overlay m p len (fun _ => blank)

def program [AndOp α] (m : Nat → α) (p len : Nat) (data : Nat → α) : Nat → α :=
  overlay m p len (fun i => m (p + i) &&& data i)

theorem eraseAgreeOff (m : Nat → α) (p len : Nat) (blank : α) :
    AgreeOff p len m (erase m p len blank) := agreeOffOverlay m p len _

theorem eraseAt (m : Nat → α) (p len : Nat) (blank : α) {x : Nat} (lower : p ≤ x)
    (upper : x < p + len) : erase m p len blank x = blank := overlayAt m p len _ lower upper

theorem eraseFixes (m : Nat → α) (p len : Nat) (blank : α) :
    erase m p len blank = m ↔ ∀ i, i < len → m (p + i) = blank := by
  constructor
  · intro same i inside
    rw [← same]
    exact overlayIn m p len _ inside
  · intro blanks
    funext x
    by_cases window : p ≤ x ∧ x < p + len
    · have value := blanks (x - p) (by omega)
      rw [Nat.add_sub_cancel' window.1] at value
      rw [eraseAt m p len blank window.1 window.2,value]
    · exact overlayOut m p len _ (by omega)

theorem programErased [AndOp α] (m : Nat → α) {p a q b : Nat} (blank : α) (data : Nat → α)
    (neutral : ∀ x : α, blank &&& x = x) (lower : q ≤ p) (upper : p + a ≤ q + b) :
    program (erase m q b blank) p a data = overlay (erase m q b blank) p a data := by
  apply overlayCongr
  intro i inside
  rw [eraseAt _ _ _ _ (by omega) (by omega), neutral]

end Nor

/-! What a window of known cells says about the rest: a list of demanded cells is
settled by the window when a known cell breaks a demand or every demanded cell is known. -/
section Demands

def Meets (m : Nat → α) (ds : List (Nat × α)) : Prop := ∀ x ∈ ds, m x.1 = x.2

def AgreeAt (known : Nat → Prop) (m n : Nat → α) : Prop := ∀ a, known a → n a = m a

def Settled (known : Nat → Prop) (m : Nat → α) (ds : List (Nat × α)) : Prop :=
  ∀ n, AgreeAt known m n → (Meets n ds ↔ Meets m ds)

variable {known : Nat → Prop} {m : Nat → α} {ds : List (Nat × α)}

theorem meetsAppend {as bs : List (Nat × α)} : Meets m (as ++ bs) ↔ Meets m as ∧ Meets m bs := by
  simp only [Meets,List.mem_append,or_imp,forall_and]

theorem settledOfBroken {x : Nat × α} (mem : x ∈ ds) (inside : known x.1) (broken : m x.1 ≠ x.2) :
    Settled known m ds := by
  intro n agree
  have fails : ¬ Meets m ds := fun h => broken (h x mem)
  have fails' : ¬ Meets n ds := fun h => broken ((agree x.1 inside).symm.trans (h x mem))
  exact iff_of_false fails' fails

theorem settledOfKnown (all : ∀ x ∈ ds, known x.1) : Settled known m ds := by
  intro n agree
  constructor
  · intro h x mem
    exact (agree x.1 (all x mem)).symm.trans (h x mem)
  · intro h x mem
    exact (agree x.1 (all x mem)).trans (h x mem)

theorem completion (distinct : ds.Pairwise (fun x y => x.1 ≠ y.1))
    (kept : ∀ x ∈ ds, known x.1 → m x.1 = x.2) : ∃ n, AgreeAt known m n ∧ Meets n ds := by
  classical
  induction ds with
  | nil => exact ⟨m,fun _ _ => rfl,by simp [Meets]⟩
  | cons x rest ih =>
    obtain ⟨apart,later⟩ := List.pairwise_cons.mp distinct
    obtain ⟨n,agree,meets⟩ := ih later (fun y mem => kept y (List.mem_cons_of_mem x mem))
    refine ⟨Function.update n x.1 x.2,?_,?_⟩
    · intro a inside
      by_cases same : a = x.1
      · subst same
        rw [Function.update_self]
        exact (kept x List.mem_cons_self inside).symm
      · rw [Function.update_of_ne same]
        exact agree a inside
    · intro y mem
      rcases List.mem_cons.mp mem with first | tail
      · rw [first,Function.update_self]
      · rw [Function.update_of_ne (apart y tail).symm]
        exact meets y tail

theorem settledIff [Nontrivial α] (distinct : ds.Pairwise (fun x y => x.1 ≠ y.1)) :
    Settled known m ds ↔ ¬ ((∀ x ∈ ds, known x.1 → m x.1 = x.2) ∧ ∃ x ∈ ds, ¬ known x.1) := by
  classical
  constructor
  · rintro settled ⟨kept,x,mem,unknown⟩
    obtain ⟨n,agree,meets⟩ := completion distinct kept
    obtain ⟨other,different⟩ := exists_ne x.2
    have agree' : AgreeAt known m (Function.update m x.1 other) := by
      intro a inside
      have apart : a ≠ x.1 := by
        intro same
        rw [same] at inside
        exact unknown inside
      exact Function.update_of_ne apart other m
    have holds : Meets m ds := (settled n agree).mp meets
    have spoiled := (settled _ agree').mpr holds x mem
    rw [Function.update_self] at spoiled
    exact different spoiled
  · intro h
    by_cases kept : ∀ x ∈ ds, known x.1 → m x.1 = x.2
    · exact settledOfKnown (fun x mem => not_not.mp (fun unknown => h ⟨kept,x,mem,unknown⟩))
    · simp only [not_forall] at kept
      obtain ⟨x,mem,inside,broken⟩ := kept
      exact settledOfBroken mem inside broken

end Demands

end AkNano.Memory
