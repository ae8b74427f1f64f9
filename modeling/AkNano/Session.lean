import AkNano.SwapEffects
import AkNano.ImageVerdict

/-! One boot as a history of calls: the update API in any order and with any failures,
and the OTA writer, who may write wherever a partition was granted to him. A call that
is cut off leaves the session with what it had done. -/
namespace AkNano.Session
open Memory Interrupted Platform FlashRead SwapState SlotLayout SwapEffects VerifyImage ImageVerdict

structure Boot where
  dev : Device
  granted : List Partition

inductive Event where
  | getImageState
  | getUpdatePartitionInfo
  | verifyImage (data size : UInt32)
  | updateImageState (state : UInt32)
  | otaWrite (p : Partition)
  deriving DecidableEq, Repr

def grantedBy : Option (Status × Partition) → List Partition
  | some (st,p) => if st = kStatusSuccess then [p] else []
  | none => []

inductive Step (E : Env) : Boot → Event → Boot → Prop where
  | getImageState (s : Boot) :
      Step E s .getImageState {s with dev := leaves (blGetImageState E) s.dev}
  | getUpdatePartitionInfo (s : Boot) :
      Step E s .getUpdatePartitionInfo
        ⟨leaves (blGetUpdatePartitionInfo E) s.dev,
          grantedBy (ending (blGetUpdatePartitionInfo E) s.dev) ++ s.granted⟩
  | verifyImage (s : Boot) (data size : UInt32) :
      Step E s (.verifyImage data size) {s with dev := leaves (blVerifyImage E data size) s.dev}
  | updateImageState (s : Boot) (state : UInt32) :
      Step E s (.updateImageState state) {s with dev := leaves (blUpdateImageState E state) s.dev}
  | otaWrite {s : Boot} {p : Partition} {f : Bytes} (granted : p ∈ s.granted)
      (inside : AgreeOff p.start p.size s.dev.flash f) :
      Step E s (.otaWrite p) {s with dev := {s.dev with flash := f}}

/-! Every call keeps to the slot that is not active and to the active slot's last sector. -/

def Spared (active : Slot) (x : Nat) : Prop :=
  (x < active.other.start ∨ active.other.stop ≤ x) ∧
  (x < active.stop - mflashSectorSize ∨ active.stop ≤ x)

structure Confined (active : Slot) (d t : Device) : Prop where
  remap : t.remap = d.remap
  spared : ∀ x, Spared active x → t.flash x = d.flash x

theorem confinedQuiet {active : Slot} {d t : Device} (h : Quiet d t) : Confined active d t :=
  ⟨h.remap,fun x _ => by rw [h.flash]⟩

theorem confinedTrans {active : Slot} {d t u : Device} (first : Confined active d t)
    (second : Confined active t u) : Confined active d u :=
  ⟨second.remap.trans first.remap,
    fun x outside => (second.spared x outside).trans (first.spared x outside)⟩

theorem rewriteFrame {E d s page o t} (h : RewriteEnd E d s page o t) :
    AgreeOff (s.stop - mflashSectorSize) mflashSectorSize d.flash t.flash := by
  have layout := startCases s
  have wide : ∀ {m n : Bytes}, AgreeOff (s.stop - mflashPageSize) mflashPageSize m n →
      AgreeOff (s.stop - mflashSectorSize) mflashSectorSize m n := by
    intro m n h
    refine agreeOffWiden h ?_ ?_
    all_goals simp only [stopEq,mflashSectorSize,mflashPageSize]; omega
  cases h with
  | done erased programmed => rw [wroteFlash]; exact rewrittenAgreeOff d.flash s page
  | eraseFailed bad fault torn => rw [wroteFlash]; exact torn.confined
  | eraseCut fault => rw [wroteFlash]; exact agreeOffRefl _ _ _
  | programFailed bad fault torn =>
    rw [wroteFlash]
    exact agreeOffTrans (wipedAgreeOff d.flash s) (wide torn.confined)
  | programCut fault => rw [wroteFlash]; exact wipedAgreeOff d.flash s

theorem eraseFrame {E d addr o t} (h : EraseEnd E d addr o t) :
    t.remap = d.remap ∧ AgreeOff addr mflashSectorSize d.flash t.flash := by
  cases h with
  | done ok => exact ⟨wroteRemap _ _ _,eraseAgreeOff _ _ _ _⟩
  | failed bad fault torn => exact ⟨wroteRemap _ _ _,torn.confined⟩
  | cut fault => exact ⟨wroteRemap _ _ _,agreeOffRefl _ _ _⟩

theorem sparedLastSector {active s : Slot} {x : Nat} (h : Spared active x) :
    x < s.stop - mflashSectorSize ∨ s.stop - mflashSectorSize + mflashSectorSize ≤ x := by
  have layout := startCases active
  obtain ⟨inactive,last⟩ := h
  simp only [stopEq,mflashSectorSize] at inactive last ⊢
  cases s <;> cases active <;> simp only [Slot.other,Slot.start] at * <;> omega

theorem sparedHeader {active : Slot} {x : Nat} (h : Spared active x) :
    x < active.other.start ∨ active.other.start + mflashSectorSize ≤ x := by
  have inactive := h.1
  simp only [stopEq,mflashSectorSize] at inactive ⊢
  omega

theorem rewriteConfined {E d s page o t} (active : Slot) (h : RewriteEnd E d s page o t) :
    Confined active d t :=
  ⟨rewriteRemap h,fun x outside => rewriteFrame h x (sparedLastSector outside)⟩

theorem eraseConfined {E d o t} {active : Slot} (h : EraseEnd E d active.other.start o t) :
    Confined active d t :=
  ⟨(eraseFrame h).1,fun x outside => (eraseFrame h).2 x (sparedHeader outside)⟩

theorem swapOkConfined {E d o t} (h : SwapOkEnd E d o t) : Confined (activeSlot E d) d t := by
  cases h with
  | readFailed bad quiet fault => exact confinedQuiet quiet
  | readCut quiet fault => exact confinedQuiet quiet
  | noData quiet read absent => exact confinedQuiet quiet
  | already quiet was => exact confinedQuiet quiet
  | rewriting quiet was part failed =>
    exact confinedTrans (confinedQuiet quiet) (rewriteConfined _ part)
  | finished quiet was part support =>
    exact confinedTrans (confinedQuiet quiet) (rewriteConfined _ part)
  | header quiet was part support last =>
    exact confinedTrans (confinedTrans (confinedQuiet quiet) (rewriteConfined _ part))
      (eraseConfined last)

theorem updateConfined {E d state o t} (h : UpdateEnd E d state o t) :
    Confined (activeSlot E d) d t := by
  cases h with
  | test asked part => exact rewriteConfined _ part
  | confirm asked part => exact swapOkConfined part
  | invalid other => exact confinedQuiet (quietRefl d)

def lastSectorKept (s : Slot) (f g : Bytes) : Prop :=
  AgreeOn (s.stop - mflashSectorSize) mflashSectorSize f g

theorem keptQuiet {s : Slot} {d t : Device} (h : Quiet d t) : lastSectorKept s d.flash t.flash := by
  rw [lastSectorKept,h.flash]
  exact agreeOnRefl _ _ _

theorem otherSectorKept {s : Slot} {f g : Bytes} (h : AgreeOff s.other.start slotSize f g) :
    lastSectorKept s f g := by
  have layout := startCases s
  apply agreeOnOfAgreeOff h
  simp only [stopEq,mflashSectorSize,slotSize]
  omega

theorem updateActiveSector {E d state o t} (h : UpdateEnd E d state o t) :
    lastSectorKept (activeSlot E d) d.flash t.flash ∨
      (state = SwapType.permanent.code ∧ Pending (trailerOf d.flash (activeSlot E d))) := by
  cases h with
  | test asked part =>
    refine .inl (otherSectorKept (agreeOffWiden (rewriteFrame part) ?_ ?_))
    all_goals simp only [stopEq,mflashSectorSize,slotSize]; omega
  | confirm asked part =>
    cases part with
    | readFailed bad quiet fault => exact .inl (keptQuiet quiet)
    | readCut quiet fault => exact .inl (keptQuiet quiet)
    | noData quiet read absent => exact .inl (keptQuiet quiet)
    | already quiet was => exact .inl (keptQuiet quiet)
    | rewriting quiet was part failed => exact .inr ⟨asked,was⟩
    | finished quiet was part support => exact .inr ⟨asked,was⟩
    | header quiet was part support last => exact .inr ⟨asked,was⟩
  | invalid other => exact .inl (agreeOnRefl _ _ _)

theorem stateQuiet {E : Env} {d : Device} : Quiet d (leaves (blGetImageState E) d) := by
  have h := endedLeaves (blGetImageStateEnds E d)
  generalize ending (blGetImageState E) d = o at h
  cases h with
  | failed bad quiet fault => exact quiet
  | cut quiet fault => exact quiet
  | state quiet active dormant => exact quiet

theorem partitionQuiet {E : Env} {d : Device} : Quiet d (leaves (blGetUpdatePartitionInfo E) d) := by
  have h := endedLeaves (blGetUpdatePartitionInfoEnds E d)
  generalize ending (blGetUpdatePartitionInfo E) d = o at h
  cases h with
  | failed quiet fault => exact quiet
  | cut quiet fault => exact quiet
  | refused quiet active dormant busy => exact quiet
  | granted quiet active dormant free => exact quiet

theorem verifyQuiet {E : Env} {d : Device} {data size : UInt32} :
    Quiet d (leaves (blVerifyImage E data size) d) := endedLeaves (verifyImageQuiet E data size d)

theorem grantedSlot {E : Env} {d : Device} {p : Partition}
    (h : p ∈ grantedBy (ending (blGetUpdatePartitionInfo E) d)) :
    p = slotPartition (activeSlot E d).other := by
  have ends := endedLeaves (blGetUpdatePartitionInfoEnds E d)
  generalize ending (blGetUpdatePartitionInfo E) d = o at h ends
  have failed : kStatusFail ≠ kStatusSuccess := by decide
  cases ends with
  | failed quiet fault => simp [grantedBy,failed] at h
  | cut quiet fault => simp [grantedBy] at h
  | refused quiet active dormant busy => simp [grantedBy,failed] at h
  | granted quiet active dormant free => simpa [grantedBy] using h

/-! The invariant of a boot: confinement since its first state, and grants of the
inactive slot only. -/

structure WithinSlots (E : Env) (d : Device) (s : Boot) : Prop where
  confined : Confined (activeSlot E d) d s.dev
  grants : ∀ p ∈ s.granted, p = slotPartition (activeSlot E d).other

theorem stepKeepsSlots {E : Env} {d : Device} {s t : Boot} {e : Event} (h : WithinSlots E d s)
    (step : Step E s e t) : WithinSlots E d t := by
  have same : activeSlot E s.dev = activeSlot E d := activeSlotQuiet h.confined.remap
  cases step with
  | getImageState => exact ⟨confinedTrans h.confined (confinedQuiet stateQuiet),h.grants⟩
  | getUpdatePartitionInfo =>
    refine ⟨confinedTrans h.confined (confinedQuiet partitionQuiet),?_⟩
    intro p mem
    rcases List.mem_append.mp mem with new | old
    · rw [← same]
      exact grantedSlot new
    · exact h.grants p old
  | verifyImage data size => exact ⟨confinedTrans h.confined (confinedQuiet verifyQuiet),h.grants⟩
  | updateImageState state =>
    have part := updateConfined (endedLeaves (blUpdateImageStateEnds E s.dev state))
    rw [same] at part
    exact ⟨confinedTrans h.confined part,h.grants⟩
  | otaWrite granted inside =>
    refine ⟨⟨h.confined.remap,?_⟩,h.grants⟩
    intro x outside
    rw [h.grants _ granted] at inside
    have window : x < (activeSlot E d).other.start ∨ (activeSlot E d).other.start + slotSize ≤ x := by
      have slot := outside.1
      rwa [stopEq] at slot
    exact (inside x window).trans (h.confined.spared x outside)

theorem stepActiveSector {E : Env} {d : Device} {s t : Boot} {e : Event} (h : WithinSlots E d s)
    (step : Step E s e t) : lastSectorKept (activeSlot E d) s.dev.flash t.dev.flash ∨
      (e = .updateImageState SwapType.permanent.code ∧
        Pending (trailerOf s.dev.flash (activeSlot E d))) := by
  have same : activeSlot E s.dev = activeSlot E d := activeSlotQuiet h.confined.remap
  cases step with
  | getImageState => exact .inl (keptQuiet stateQuiet)
  | getUpdatePartitionInfo => exact .inl (keptQuiet partitionQuiet)
  | verifyImage data size => exact .inl (keptQuiet verifyQuiet)
  | updateImageState state =>
    have part := updateActiveSector (endedLeaves (blUpdateImageStateEnds E s.dev state))
    rw [same] at part
    rcases part with kept | ⟨asked,pending⟩
    · exact .inl kept
    · exact .inr ⟨by rw [asked],pending⟩
  | otaWrite granted inside =>
    rw [h.grants _ granted] at inside
    exact .inl (otherSectorKept inside)

theorem runKeepsSlots {E : Env} {d : Device} {t : Boot} {es : List Event}
    (run : Steps (Step E) ⟨d,[]⟩ es t) : WithinSlots E d t := by
  apply stepsInvariant (WithinSlots E d) (fun s e u h step => stepKeepsSlots h step) run
  exact ⟨confinedQuiet (quietRefl d),by simp⟩

theorem bootIsConfined {E : Env} {d : Device} {t : Boot} {es : List Event}
    (run : Steps (Step E) ⟨d,[]⟩ es t) :
    (∀ x, Spared (activeSlot E d) x → t.dev.flash x = d.flash x) ∧
    ∀ e u, Step E t e u → ¬ lastSectorKept (activeSlot E d) t.dev.flash u.dev.flash →
      e = .updateImageState SwapType.permanent.code ∧
      Pending (trailerOf t.dev.flash (activeSlot E d)) := by
  have within := runKeepsSlots run
  refine ⟨within.confined.spared,?_⟩
  intro e u step changed
  exact (stepActiveSector within step).resolve_left changed

/-- The erase of the inactive header fails once and leaves zeros there. -/
abbrev tornBench : Env := bench Build.shipped
  (failsOnce (.sectorErase Slot.secondary.start) (some (fun _ => 0)))

def updating : List Event :=
  [.getUpdatePartitionInfo,.updateImageState SwapType.permanent.code,.getUpdatePartitionInfo,
    .otaWrite (slotPartition .secondary),.updateImageState SwapType.readyForTest.code]

theorem bootIsConfinedOnBoard : ∃ t : Boot, t.granted = [slotPartition .secondary] ∧
    Steps (Step tornBench) ⟨awaitingBoard,[]⟩ updating t ∧
    (∀ x, Spared (activeSlot tornBench awaitingBoard) x → t.dev.flash x = awaitingBoard.flash x) ∧
    ∀ e u, Step tornBench t e u →
      ¬ lastSectorKept (activeSlot tornBench awaitingBoard) t.dev.flash u.dev.flash →
      e = .updateImageState SwapType.permanent.code ∧
      Pending (trailerOf t.dev.flash (activeSlot tornBench awaitingBoard)) := by
  have asked : Step tornBench ⟨awaitingBoard,[]⟩ .getUpdatePartitionInfo _ := .getUpdatePartitionInfo _
  have confirmed := (Steps.nil _).snoc asked |>.snoc (.updateImageState _ SwapType.permanent.code)
  have granted := confirmed.snoc (.getUpdatePartitionInfo _)
  have handed : grantedBy (ending (blGetUpdatePartitionInfo tornBench)
      (leaves (blUpdateImageState tornBench SwapType.permanent.code)
        (leaves (blGetUpdatePartitionInfo tornBench) awaitingBoard))) =
      [slotPartition .secondary] := by decide +kernel
  have refused : grantedBy (ending (blGetUpdatePartitionInfo tornBench) awaitingBoard) = [] := by
    decide +kernel
  rw [handed,refused] at granted
  have image : ∀ f : Bytes, AgreeOff (slotPartition .secondary).start (slotPartition .secondary).size
      f (overlay f Slot.secondary.start slotSize (fun i => if i < 4 then 0x3d else 0)) :=
    fun f => agreeOffOverlay f _ _ _
  have written := granted.snoc (.otaWrite List.mem_cons_self (image _))
  have run := written.snoc (.updateImageState _ SwapType.readyForTest.code)
  exact ⟨_,rfl,run,bootIsConfined run⟩

end AkNano.Session
