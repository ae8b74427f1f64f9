import AkNano.SlotLayout
import AkNano.ImageGrammar

/-! `bl_get_image_build_num` reads the header through the memory-mapped flash, everything
else through the driver. While the remap register is set the first slot's window shows the
second slot, so a header asked for by position is the one the bootloader mapped there. -/
namespace AkNano.BuildNumber
open Memory Interrupted Platform FlashRead SwapState SlotLayout VerifyImage ImageVerdict ImageGrammar

/-- The flash as loads see it: `[ACT_APP,CAND_APP)` is the window that is remapped. -/
def mappedView (E : Env) (d : Device) : Bytes := fun a =>
  if d.remap > 0 ∧ bootFlashActApp E.board ≤ a ∧ a < bootFlashCandApp E.board then
    d.flash (a - bootFlashActApp E.board + flashAreaImage2Offset E.board)
  else d.flash (a - bootFlashBase E.board)

def blGetImageBuildNum (E : Env) (imagePosition : UInt8) : Fw (Status × UInt32) := do
  let d ← get
  let ih := if imagePosition = 2 then bootFlashCandApp E.board else bootFlashActApp E.board
  pure (kStatusSuccess,(headerAt (mappedView E d) ih).ihVer.ivBuildNum)

def imageOffset (E : Env) (imagePosition : UInt8) : Nat :=
  if imagePosition = 2 then flashAreaImage2Offset E.board else flashAreaImage1Offset E.board

def storedBuildNum (d : Device) (offset : Nat) : UInt32 := (headerAt d.flash offset).ihVer.ivBuildNum

structure SlotNumber (E : Env) (d : Device) (imagePosition : UInt8) (n : UInt32) : Prop where
  stored : n = storedBuildNum d (imageOffset E imagePosition)
  read : ∃ mem t, flashRead E (imageOffset E imagePosition) E.buf E.stack imageHeaderSize d =
    .ok (kStatusSuccess,mem) t ∧ (headerAt mem E.buf).ihVer.ivBuildNum = n

def NumberFromSlot (E : Env) (d : Device) (imagePosition : UInt8) : Prop :=
  ∃ n, blGetImageBuildNum E imagePosition d = .ok (kStatusSuccess,n) d ∧
    SlotNumber E d imagePosition n

def shownOffset (E : Env) (d : Device) (imagePosition : UInt8) : Nat :=
  if imagePosition = 2 ∨ d.remap > 0 then flashAreaImage2Offset E.board
  else flashAreaImage1Offset E.board

section View

variable (E : Env) (d : Device)

theorem windowPlaces (b : BoardModel) : bootFlashActApp b + imageHeaderSize ≤ bootFlashCandApp b ∧
    bootFlashActApp b = bootFlashBase b + flashAreaImage1Offset b ∧
    bootFlashCandApp b = bootFlashBase b + flashAreaImage2Offset b := by cases b <;> decide

theorem candidateView : headerAt (mappedView E d) (bootFlashCandApp E.board) =
    headerAt d.flash (flashAreaImage2Offset E.board) := by
  have places := windowPlaces E.board
  apply headerCongr
  intro i _
  have index : bootFlashCandApp E.board + i - bootFlashBase E.board =
      flashAreaImage2Offset E.board + i := by omega
  rw [mappedView,if_neg (by omega),index]

theorem activeView : headerAt (mappedView E d) (bootFlashActApp E.board) = headerAt d.flash
    (if d.remap > 0 then flashAreaImage2Offset E.board else flashAreaImage1Offset E.board) := by
  have places := windowPlaces E.board
  apply headerCongr
  intro i inside
  split
  case isTrue remapped =>
    have index : bootFlashActApp E.board + i - bootFlashActApp E.board +
        flashAreaImage2Offset E.board = flashAreaImage2Offset E.board + i := by omega
    rw [mappedView,if_pos ⟨remapped,by omega,by omega⟩,index]
  case isFalse plain =>
    have index : bootFlashActApp E.board + i - bootFlashBase E.board =
        flashAreaImage1Offset E.board + i := by omega
    rw [mappedView,if_neg (fun h => plain h.1),index]

theorem buildNumShown (imagePosition : UInt8) : blGetImageBuildNum E imagePosition d =
    .ok (kStatusSuccess,storedBuildNum d (shownOffset E d imagePosition)) d := by
  have shown : headerAt (mappedView E d)
      (if imagePosition = 2 then bootFlashCandApp E.board else bootFlashActApp E.board) =
        headerAt d.flash (shownOffset E d imagePosition) := by
    unfold shownOffset
    by_cases second : imagePosition = 2
    · rw [if_pos second,if_pos (.inl second),candidateView]
    · rw [if_neg second,activeView]
      simp only [second,false_or]
  change EStateM.Result.ok _ d = _
  rw [shown]
  rfl

theorem storedHeaderRead {E : Env} (reads : E.ReadsSucceed slotsEnd) (d : Device)
    (imagePosition : UInt8) : ∃ mem t,
    flashRead E (imageOffset E imagePosition) E.buf E.stack imageHeaderSize d =
      .ok (kStatusSuccess,mem) t ∧
    headerAt mem E.buf = headerAt d.flash (imageOffset E imagePosition) := by
  have inside : imageOffset E imagePosition + imageHeaderSize ≤ slotsEnd := by
    unfold imageOffset
    cases E.board <;> split <;> decide
  have size : slotsEnd = 4456448 := rfl
  have plain : headerIn d.flash (imageOffset E imagePosition) =
      headerAt d.flash (imageOffset E imagePosition) := headerInPlain (by omega)
  have offset : (UInt32.ofNat (imageOffset E imagePosition)).toNat = imageOffset E imagePosition :=
    UInt32.toNat_ofNat_of_lt' (Nat.lt_of_le_of_lt (Nat.le_trans (Nat.le_add_right _ _) inside) (by decide))
  obtain ⟨mem,t,_,run,header⟩ := headerRead (by decide) (by decide) reads
    (UInt32.ofNat (imageOffset E imagePosition)) d
    (fun i small => by rw [offset,u32Small (by omega)]; omega)
  rw [offset] at run header
  exact ⟨mem,t,run,header.trans plain⟩

theorem shownIffStored {imagePosition : UInt8} (position : imagePosition = 1 ∨ imagePosition = 2) :
    storedBuildNum d (shownOffset E d imagePosition) =
      storedBuildNum d (imageOffset E imagePosition) ↔
    imagePosition = 2 ∨ d.remap = 0 ∨
      storedBuildNum d (flashAreaImage1Offset E.board) =
        storedBuildNum d (flashAreaImage2Offset E.board) := by
  unfold shownOffset imageOffset
  rcases position with first | second
  · have other : imagePosition ≠ 2 := by rw [first]; decide
    by_cases plain : d.remap = 0
    · simp [other,plain]
    · have remapped : d.remap > 0 := UInt32.pos_iff_ne_zero.mpr plain
      simp only [other,remapped,or_true,if_true,plain,if_false,false_or]
      exact eq_comm
  · simp only [second,true_or,if_true]

theorem numberStored {imagePosition : UInt8} (h : NumberFromSlot E d imagePosition) :
    storedBuildNum d (shownOffset E d imagePosition) =
      storedBuildNum d (imageOffset E imagePosition) := by
  obtain ⟨n,run,number⟩ := h
  rw [buildNumShown] at run
  simp only [EStateM.Result.ok.injEq,Prod.mk.injEq] at run
  rw [run.1.2,number.stored]

end View

theorem buildNumberFromSlot {E : Env} (reads : E.ReadsSucceed slotsEnd) (d : Device)
    {imagePosition : UInt8} (position : imagePosition = 1 ∨ imagePosition = 2) :
    NumberFromSlot E d imagePosition ↔ imagePosition = 2 ∨ d.remap = 0 ∨
      storedBuildNum d (flashAreaImage1Offset E.board) =
        storedBuildNum d (flashAreaImage2Offset E.board) := by
  rw [← shownIffStored E d position]
  constructor
  · exact numberStored E d
  · intro same
    obtain ⟨mem,t,run,header⟩ := storedHeaderRead reads d imagePosition
    refine ⟨_,buildNumShown E d imagePosition,same,mem,t,run,?_⟩
    rw [header,same]
    rfl

def secondSlotBoard : Device := {holding 262168 [7,0,0,0] with remap := 0x200000}

theorem buildNumberFromOther : ∃ E : Env, E.Faultless ∧ E.build = Build.shipped ∧
    ∃ d, ¬ NumberFromSlot E d 1 := by
  refine ⟨bench Build.shipped allDone,benchFaultless _,rfl,secondSlotBoard,?_⟩
  intro number
  have same := numberStored _ _ number
  exact absurd same (by decide)

theorem buildNumberFromSlotOnBoard :
    NumberFromSlot (bench Build.shipped allDone) (holding 262168 [7,0,0,0]) 1 ↔
      (1 : UInt8) = 2 ∨ (holding 262168 [7,0,0,0]).remap = 0 ∨
      storedBuildNum (holding 262168 [7,0,0,0]) (flashAreaImage1Offset .rt1060) =
        storedBuildNum (holding 262168 [7,0,0,0]) (flashAreaImage2Offset .rt1060) :=
  buildNumberFromSlot ((benchFaultless _).reads _) _ (.inl rfl)

end AkNano.BuildNumber
