import AkNano.Fallback
import AkNano.Marking
import AkNano.BuildNumber
import AkNano.ImageFormat
import AkNano.UpdateCycles

/-! Images delivered one after the other. An image written into the partition that was
granted is verified, marked, started, tried and confirmed, and all along it lies in its slot
byte for byte, is accepted by the verifier and gives its own build number. -/
namespace AkNano.Deliveries
open Memory Interrupted Platform FlashRead SwapState SlotLayout SwapEffects Session SwapRuns
open VerifyImage ImageVerdict BuildNumber Marking Rollback Lifetime UpdateCycles Fallback Confirmation
open ImageFormat

structure Lodged (E : Env) (image : FirmwareImage) (s : Slot) (d : Device) : Prop where
  bytes : Stored d.flash s.start image.bytes
  verifies : ∀ size : UInt32, fullSize image.header ≤ size.toNat → size.toNat ≤ slotSize →
    Returns (blVerifyImage E (slotBase s) size) d 1

structure Running (E : Env) (image : FirmwareImage) (s : Slot) (d : Device) : Prop where
  active : activeSlot E d = s
  lodged : Lodged E image s d
  buildNum : ∀ imagePosition, imagePosition ≠ 2 →
    blGetImageBuildNum E imagePosition d = .ok (kStatusSuccess,image.version.ivBuildNum) d

structure Kept (E : Env) (image : FirmwareImage) (s : Slot) (next : Device → Prop) (d : Device) :
    Prop where
  running : Running E image s d
  reports : ∃ t, blGetImageState E d = .ok (kStatusSuccess,some .none) t
  next : next d

structure Tried (E : Env) (image : FirmwareImage) (s : Slot) (next : Device → Prop) (d : Device) :
    Prop where
  running : Running E image s d
  reports : ∃ t, blGetImageState E d = .ok (kStatusSuccess,some .testing) t
  confirms : ∃ t, blUpdateImageState E SwapType.permanent.code d = .ok kStatusSuccess t ∧
    Kept E image s next t

def Delivery (E : Env) (image : FirmwareImage) (s : Slot) (next : Device → Prop) (d : Device) : Prop :=
  ∃ t, blGetUpdatePartitionInfo E d = .ok (kStatusSuccess,slotPartition s.other) t ∧
  ∀ f, AgreeOff (slotPartition s.other).start (slotPartition s.other).size t.flash f →
    Stored f (slotPartition s.other).start image.bytes →
  Lodged E image s.other {t with flash := f} ∧
  ∃ u, blUpdateImageState E SwapType.readyForTest.code {t with flash := f} = .ok kStatusSuccess u ∧
  ∀ v, Reboot E s.other u v → Tried E image s.other next v

def EachDelivered (E : Env) : List FirmwareImage → Slot → Device → Prop
  | [],_,_ => True
  | image :: images,s,d => Delivery E image s (EachDelivered E images s.other) d

section Steps

variable {E : Env} {image : FirmwareImage} {d t : Device} {s : Slot}

theorem confirmedBody (E : Env) (d : Device) :
    AgreeOn (activeSlot E d).start bodySize d.flash (confirmedFlash E d) := by
  intro i inside
  simp only [bodySize,slotSize,mflashSectorSize] at inside
  rw [confirmedFlashInside (by simp only [slotSize]; omega)]
  exact rewrittenBelow _ _ _ (by simp only [slotSize,mflashSectorSize]; omega)

theorem storedBody {f g : Bytes} (fits : image.bytes.length ≤ bodySize)
    (same : AgreeOn s.start bodySize f g) (stored : Stored f s.start image.bytes) :
    Stored g s.start image.bytes :=
  (storedCongr (fun i inside => same i (Nat.lt_of_lt_of_le inside fits))).mpr stored

variable (faultless : E.Faultless)

include faultless

theorem lodgedStored (stored : Stored d.flash s.start image.bytes) : Lodged E image s d := by
  refine ⟨stored,?_⟩
  intro size declared small
  have layout := startCases s
  rw [← baseToNat] at stored
  have inside : (slotBase s).toNat + size.toNat + 4 ≤ 8388608 := by
    rw [baseToNat]
    simp only [slotSize] at small
    omega
  rcases assembledVerdict (by decide) (by decide) (faultless.reads 8388608) faultless.noCut d
    (slotBase s) size inside stored with ⟨_,one⟩ | ⟨no,_⟩
  · exact one
  · exact absurd declared no

variable (remapped : E.build.flashRemapEnable = true)

include remapped

theorem runningStored (active : activeSlot E d = s) (stored : Stored d.flash s.start image.bytes) :
    Running E image s d := by
  refine ⟨active,lodgedStored faultless stored,?_⟩
  intro imagePosition position
  have areas := areaOffsets E.board
  have shown : shownOffset E d imagePosition = s.start := by
    rw [remapSlot remapped] at active
    rw [shownOffset,areas.1,areas.2.1,← active]
    simp only [position,false_or]
    split <;> rfl
  rw [buildNumShown,shown,storedBuildNum,(FirmwareImage.partsStored stored).header]
  rfl

section Fits

variable (fits : image.bytes.length ≤ bodySize)

include fits

theorem confirmKeeps {next : Device → Prop} (stored : Stored d.flash (activeSlot E d).start image.bytes)
    (awaiting : Awaiting (trailerOf d.flash (activeSlot E d)))
    (after : ∀ t, activeSlot E t = activeSlot E d →
      ¬ Awaiting (trailerOf t.flash (activeSlot E t)) → next t) :
    ∃ t, blUpdateImageState E SwapType.permanent.code d = .ok kStatusSuccess t ∧
      Kept E image (activeSlot E d) next t := by
  have pending := awaitingPending awaiting
  obtain ⟨t,run,settled⟩ := confirmSettles remapped faultless awaiting after
  have ends := endedReturned (blUpdateImageStateEnds E d _) run
  have wrote : t.flash = confirmedFlash E d := by
    rcases (confirmSucceeded ends).2 with ⟨was,_⟩ | ⟨_,wrote⟩
    · exact absurd was (pendingNotConfirmed pending)
    · exact wrote
  have kept := storedBody fits (confirmedBody E d) stored
  rw [← wrote] at kept
  exact ⟨t,run,runningStored faultless remapped settled.active kept,settled.reports,settled.next⟩

theorem deliveryRuns {next : Device → Prop}
    (idle : ¬ Awaiting (trailerOf d.flash (activeSlot E d)))
    (after : ∀ t, activeSlot E t = (activeSlot E d).other →
      ¬ Awaiting (trailerOf t.flash (activeSlot E t)) → next t) :
    Delivery E image (activeSlot E d) next d := by
  obtain ⟨_,t,quiet,opened⟩ := idleReports remapped faultless idle
  refine ⟨t,opened,?_⟩
  intro f _ written
  obtain ⟨u,run,ends⟩ := testRuns {t with flash := f} faultless
  refine ⟨lodgedStored faultless written,u,run,?_⟩
  intro v again
  have same : activeSlot E {t with flash := f} = activeSlot E d := activeSlotQuiet quiet.remap
  have mark : u.flash = marked f (activeSlot E d).other := by
    rw [(testSucceeded ends).2,same]
  have marked' : trailerOf u.flash (activeSlot E d).other = markedTrailer := by
    rw [mark,markedTrailerOf]
  have awaiting := rebootAwaits marked' again
  have stored : Stored v.flash (activeSlot E d).other.start image.bytes := by
    refine storedBody fits (swapSparesBody again _) ?_
    rw [mark]
    exact storedBody fits (sectorOutsideBody (rewrittenAgreeOff f _ markedPage)) written
  rw [← again.active] at after awaiting stored ⊢
  exact ⟨runningStored faultless remapped rfl stored,
    (awaitingReports remapped faultless awaiting).1,
    confirmKeeps faultless remapped fits stored awaiting after⟩

end Fits

section Lists

variable {images : List FirmwareImage} (fits : ∀ image ∈ images, image.bytes.length ≤ bodySize)

include fits

theorem eachDelivered (idle : ¬ Awaiting (trailerOf d.flash (activeSlot E d))) :
    EachDelivered E images (activeSlot E d) d := by
  induction images generalizing d with
  | nil => trivial
  | cons image images ih =>
    apply deliveryRuns faultless remapped (fits image List.mem_cons_self) idle
    intro u swapped settled
    rw [← swapped]
    exact ih (fun next mem => fits next (List.mem_cons_of_mem image mem)) settled

theorem deliveriesRun (d : Device) :
    (∃ u, blGetImageState E d = .ok (kStatusSuccess,some .none) u) ∧
      EachDelivered E images (activeSlot E d) d ∨
    (∃ u, blGetImageState E d = .ok (kStatusSuccess,some .testing) u) ∧
      ∃ t, blUpdateImageState E SwapType.permanent.code d = .ok kStatusSuccess t ∧
        activeSlot E t = activeSlot E d ∧ EachDelivered E images (activeSlot E t) t := by
  by_cases awaiting : Awaiting (trailerOf d.flash (activeSlot E d))
  case neg =>
    exact .inl ⟨(idleReports remapped faultless awaiting).1,
      eachDelivered faultless remapped fits awaiting⟩
  case pos =>
    have after : ∀ t, activeSlot E t = activeSlot E d →
        ¬ Awaiting (trailerOf t.flash (activeSlot E t)) → EachDelivered E images (activeSlot E t) t :=
      fun t _ settled => eachDelivered faultless remapped fits settled
    obtain ⟨t,run,settled⟩ := confirmSettles remapped faultless awaiting after
    exact .inr ⟨(awaitingReports remapped faultless awaiting).1,t,run,settled.active,settled.next⟩

end Lists

end Steps

theorem deliveriesRunOnTrial :
    (∃ u, blGetImageState shippedBench awaitingBoard = .ok (kStatusSuccess,some .none) u) ∧
      EachDelivered shippedBench [smallFirmware,smallFirmware] (activeSlot shippedBench awaitingBoard)
        awaitingBoard ∨
    (∃ u, blGetImageState shippedBench awaitingBoard = .ok (kStatusSuccess,some .testing) u) ∧
      ∃ t, blUpdateImageState shippedBench SwapType.permanent.code awaitingBoard =
          .ok kStatusSuccess t ∧
        activeSlot shippedBench t = activeSlot shippedBench awaitingBoard ∧
        EachDelivered shippedBench [smallFirmware,smallFirmware] (activeSlot shippedBench t) t :=
  deliveriesRun (benchFaultless Build.shipped) rfl (by decide) awaitingBoard

end AkNano.Deliveries
