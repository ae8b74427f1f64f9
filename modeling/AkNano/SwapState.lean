import AkNano.FlashRead

/-! The update-state functions of `mcuboot_app_support.c`. A trailer is read from the
bytes it overlays; every slot offset is computed from the partitioning macros as the
source computes it. `magicLoop` walks the image's bytes and the magic side by side. -/
namespace AkNano.SwapState
open Memory Interrupted Platform FlashRead

def bootImgMagic : List Nat := [0xf395c277,0x7fefd260,0x0f505235,0x8079b62c]

def wordBytes (w : Nat) : List UInt8 :=
  [UInt8.ofNat w,UInt8.ofNat (w / 256),UInt8.ofNat (w / 65536),UInt8.ofNat (w / 16777216)]

def bootImgMagicBytes : List UInt8 := bootImgMagic.flatMap wordBytes

structure ImageTrailer where
  swapType : UInt8
  pad1 : List UInt8
  copyDone : UInt8
  pad2 : List UInt8
  imageOk : UInt8
  pad3 : List UInt8
  magic : List UInt8
  deriving DecidableEq, Repr

def imageTrailerSize : Nat := 40
def imageOkOffset : Nat := 16
def magicOffset : Nat := 24
def bootFlagSet : UInt8 := 1

def trailerAt (m : Bytes) (p : Nat) : ImageTrailer :=
  ⟨m p,cells m (p + 1) 7,m (p + 8),cells m (p + 9) 7,m (p + imageOkOffset),cells m (p + 17) 7,
    cells m (p + magicOffset) 16⟩

inductive SwapType where
  | none | readyForTest | testing | permanent | fail | fatal | max
  deriving DecidableEq, Repr

def SwapType.code : SwapType → UInt32
  | .none => 0
  | .readyForTest => 1
  | .testing => 2
  | .permanent => 3
  | .fail => 4
  | .fatal => 5
  | .max => 6

structure Partition where
  start : Nat
  size : Nat
  deriving DecidableEq, Repr

def primarySlotActive : Nat := 0
def secondarySlotActive : Nat := 1

def getActiveImage (E : Env) (d : Device) : Nat :=
  if E.build.flashRemapEnable then
    if d.remap > 0 then secondarySlotActive else primarySlotActive
  else if bootFlashActApp E.board < E.mainAddr ∧ E.mainAddr < bootFlashCandApp E.board then
    primarySlotActive
  else secondarySlotActive

def checkUnset : List UInt8 → Bool
  | [] => true
  | b :: bs => if b ≠ 0xff then false else checkUnset bs

def magicLoop : List UInt8 → List UInt8 → Bool
  | _, [] => true
  | [], _ :: _ => false
  | p :: ps, q :: qs => if p = q then magicLoop ps qs else false

def bootImgMagicCheck (p : List UInt8) : Bool := magicLoop p bootImgMagicBytes

def trailerInPage : Nat := mflashPageSize - imageTrailerSize

def magicPage (E : Env) : Bytes :=
  overlay (overlay E.stack E.buf mflashPageSize (fun _ => 0xff))
    (E.buf + trailerInPage + magicOffset) 16 (fun i => bootImgMagicBytes.getD i 0)

def setImageOk (mem : Bytes) (trailer : Nat) : Bytes :=
  overlay mem (trailer + imageOkOffset) 1 (fun _ => bootFlagSet)

/-- Erase the last sector below `off`, program the last page from the buffer at `buf`. -/
def rewriteTrailer (E : Env) (off : Nat) (mem : Bytes) (buf : Nat) : Fw Status := do
  let status ← mflashDrvSectorErase E (off - mflashSectorSize)
  if status ≠ kStatusSuccess then pure status
  else mflashDrvPageProgram E (off - mflashPageSize) (fun i => mem (buf + i))

def bootSwapTest (E : Env) : Fw Status := do
  let d ← get
  let off := if getActiveImage E d = primarySlotActive then
      flashAreaImage2Offset E.board + flashAreaImage2Size E.board
    else flashAreaImage1Offset E.board + flashAreaImage1Size E.board
  rewriteTrailer E off (magicPage E) E.buf

def bootSwapPerm (E : Env) : Fw Status :=
  let off := flashAreaImage2Offset E.board + flashAreaImage2Size E.board
  rewriteTrailer E off (setImageOk (magicPage E) (E.buf + trailerInPage)) E.buf

def eraseInactiveHeader (E : Env) : Fw Status := do
  let d ← get
  let offHeaderErase := if getActiveImage E d = primarySlotActive then
      flashAreaImage2Offset E.board
    else flashAreaImage1Offset E.board
  mflashDrvSectorErase E offHeaderErase

def bootSwapOk (E : Env) : Fw Status := do
  let d ← get
  let offReplace := if getActiveImage E d = primarySlotActive then
      flashAreaImage1Offset E.board + flashAreaImage1Size E.board
    else flashAreaImage2Offset E.board + flashAreaImage2Size E.board
  let r ← flashRead E (offReplace - mflashPageSize) E.buf E.stack mflashPageSize
  if r.1 ≠ kStatusSuccess then pure r.1
  else
    let imageTrailer := trailerAt r.2 (E.buf + trailerInPage)
    if bootImgMagicCheck imageTrailer.magic = false ∨ imageTrailer.copyDone ≠ 0x01 then
      pure kStatusNoData
    else if imageTrailer.imageOk = bootFlagSet then pure r.1
    else do
      let status ← rewriteTrailer E offReplace (setImageOk r.2 (E.buf + trailerInPage)) E.buf
      if status ≠ kStatusSuccess then pure status
      else if E.build.flashRemapDowngradeSupport then eraseInactiveHeader E
      else pure status

def blUpdateImageState (E : Env) (state : UInt32) : Fw Status :=
  if state = SwapType.readyForTest.code then bootSwapTest E
  else if state = SwapType.permanent.code then bootSwapOk E
  else pure kStatusInvalidArgument

def underTest (active : ImageTrailer) : Bool :=
  bootImgMagicCheck active.magic && active.imageOk = 0xff && active.copyDone = 0x01

def activeState (active : ImageTrailer) : SwapType :=
  if underTest active then .testing else .none

def stateOf (b : Build) (active dormant : ImageTrailer) : SwapType :=
  if b.flashRemapEnable then activeState active
  else if bootImgMagicCheck dormant.magic then
    if checkUnset [dormant.imageOk] then .readyForTest
    else if dormant.imageOk = 0x01 then .permanent
    else .none
  else if checkUnset dormant.magic then activeState active
  else .none

def blGetImageState (E : Env) : Fw (Status × Option SwapType) := do
  let r1 ← flashRead E (flashAreaImage1Offset E.board + flashAreaImage1Size E.board - imageTrailerSize)
    E.imageTrailer1 E.stack imageTrailerSize
  -- `*state` is written on success only
  if r1.1 ≠ kStatusSuccess then pure (r1.1,none)
  else do
    let r2 ← flashRead E (flashAreaImage2Offset E.board + flashAreaImage2Size E.board - imageTrailerSize)
      E.imageTrailer2 E.stack imageTrailerSize
    if r2.1 ≠ kStatusSuccess then pure (r2.1,none)
    else do
      let d ← get
      let trailer1 := trailerAt r1.2 E.imageTrailer1
      let trailer2 := trailerAt r2.2 E.imageTrailer2
      if getActiveImage E d = primarySlotActive then
        pure (kStatusSuccess,some (stateOf E.build trailer1 trailer2))
      else pure (kStatusSuccess,some (stateOf E.build trailer2 trailer1))

def blGetUpdatePartitionInfo (E : Env) : Fw (Status × Partition) := do
  let r ← blGetImageState E
  if r.1 ≠ kStatusSuccess then pure (kStatusFail,⟨0,0⟩)
  else if r.2 = some .readyForTest ∨ r.2 = some .testing then pure (kStatusFail,⟨0,0⟩)
  else do
    let d ← get
    if getActiveImage E d = primarySlotActive then
      pure (kStatusSuccess,⟨bootFlashCandApp E.board - bootFlashBase E.board,
        bootFlashCandApp E.board - bootFlashActApp E.board⟩)
    else
      pure (kStatusSuccess,⟨bootFlashActApp E.board - bootFlashBase E.board,
        bootFlashCandApp E.board - bootFlashActApp E.board⟩)

end AkNano.SwapState
