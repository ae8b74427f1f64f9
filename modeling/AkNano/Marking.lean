import AkNano.SwapRuns
import AkNano.ImageGrammar

/-! What marking a slot does to the image in it. Both marking functions erase the slot's
last sector and write back its last page, so an image that reaches into that sector
keeps only what was erased there anyway, and in a confirmed slot also the last page. -/
namespace AkNano.Marking
open Memory Interrupted Platform FlashRead SwapState SlotLayout SwapEffects Session SwapRuns
open VerifyImage ImageVerdict ImageGrammar

def slotBase (s : Slot) : UInt32 := UInt32.ofNat s.start

structure StoredImage (f : Bytes) (s : Slot) (len : Nat) : Prop where
  length : len = fullSize (headerAt f s.start) +
    (tlvInfoAt f (s.start + fullSize (headerAt f s.start))).itTlvTot.toNat
  info : imageTlvInfoSize ≤
    (tlvInfoAt f (s.start + fullSize (headerAt f s.start))).itTlvTot.toNat
  fits : len ≤ slotSize - imageTrailerSize

structure ImageKept (E : Env) (s : Slot) (len : Nat) (d t : Device) : Prop where
  bytes : AgreeOn s.start len d.flash t.flash
  verdict : ∀ size v, Returns (blVerifyImage E.withoutFaults (slotBase s) size) t v ↔
    Returns (blVerifyImage E.withoutFaults (slotBase s) size) d v

def Vacant (f : Bytes) (s : Slot) (len stop : Nat) : Prop :=
  ∀ i, slotSize - mflashSectorSize ≤ i → i < stop → i < len → f (s.start + i) = 0xff

inductive Marks (E : Env) (d : Device) : UInt32 → Slot → Prop where
  | test : Marks E d SwapType.readyForTest.code (activeSlot E d).other
  | confirm : Marks E d SwapType.permanent.code (activeSlot E d)

def Spares (d : Device) (state : UInt32) (s : Slot) (len : Nat) : Prop :=
  state = SwapType.readyForTest.code ∧ Vacant d.flash s len slotSize ∨
  state = SwapType.permanent.code ∧
    (Confirmed (trailerOf d.flash s) ∨ Vacant d.flash s len (slotSize - mflashPageSize))

section Verdict

variable {f g : Bytes} {s : Slot} {len : Nat}

theorem baseToNat (s : Slot) : (slotBase s).toNat = s.start := by cases s <;> rfl

theorem headerSame (header : AgreeOn s.start imageHeaderSize f g) :
    headerIn g s.start = headerIn f s.start := by
  have layout := startCases s
  have small : s.start + imageHeaderSize ≤ 4294967296 := by simp only [imageHeaderSize]; omega
  rw [headerInPlain small,headerInPlain small]
  exact headerCongr header

theorem infoSame {a : Nat} (bytes : AgreeOn s.start len f g) (inside : a + imageTlvInfoSize ≤ len)
    (fits : len ≤ slotSize) : infoIn g (s.start + a) = infoIn f (s.start + a) := by
  have layout := startCases s
  have small : s.start + a + imageTlvInfoSize ≤ 4294967296 := by
    simp only [slotSize] at fits
    omega
  rw [infoInPlain small,infoInPlain small]
  apply tlvInfoCongr
  intro i four
  rw [Nat.add_assoc]
  exact bytes (a + i) (by omega)

theorem acceptsSame (header : AgreeOn s.start imageHeaderSize f g) (image : StoredImage f s len)
    (bytes : AgreeOn s.start len f g) (size : UInt32) :
    Accepts g (some (infoIn g (s.start + tlvInfoOffset (headerIn g s.start)))) (slotBase s) size ↔
    Accepts f (some (infoIn f (s.start + tlvInfoOffset (headerIn f s.start)))) (slotBase s) size := by
  have layout := startCases s
  have fits : len ≤ slotSize := Nat.le_trans image.fits (Nat.sub_le _ _)
  have plain : headerIn f s.start = headerAt f s.start :=
    headerInPlain (by simp only [imageHeaderSize]; omega)
  have length := image.length
  have info := image.info
  rw [← plain] at length info
  have trailing := infoSame (a := fullSize (headerIn f s.start)) bytes (by omega) fits
  have guarded : ProtectedAccepted (headerIn f s.start)
        (some (infoIn g (s.start + tlvInfoOffset (headerIn f s.start)))) ↔
      ProtectedAccepted (headerIn f s.start)
        (some (infoIn f (s.start + tlvInfoOffset (headerIn f s.start)))) := by
    by_cases large : imageTlvInfoSize ≤ (headerIn f s.start).ihProtectTlvSize.toNat
    · have room : tlvInfoOffset (headerIn f s.start) + imageTlvInfoSize ≤ len := by
        unfold fullSize at length
        unfold tlvInfoOffset
        omega
      rw [infoSame bytes room fits]
    · exact guardedSmall large _ _
  unfold Accepts
  rw [baseToNat,headerSame header,trailing,guarded]

theorem verdictSame {E : Env} {d t : Device} (header : AgreeOn s.start imageHeaderSize d.flash t.flash)
    (image : StoredImage d.flash s len) (bytes : AgreeOn s.start len d.flash t.flash) :
    ImageKept E s len d t := by
  refine ⟨bytes,?_⟩
  intro size v
  have faultless := withoutFaultsFaultless E
  have before := verdictFaultless faultless (slotBase s) size d
  have after := verdictFaultless faultless (slotBase s) size t
  rw [baseToNat] at before after
  rw [decidesReturns before,decidesReturns after,acceptsSame header image bytes size]

end Verdict

section Sector

variable (f : Bytes) (s : Slot) {i : Nat}

theorem rewrittenBelow (page : Bytes) (below : i < slotSize - mflashSectorSize) :
    rewritten f s page (s.start + i) = f (s.start + i) := by
  have layout := startCases s
  apply rewrittenAgreeOff f s page
  simp only [stopEq,slotSize,mflashSectorSize] at *
  omega

theorem rewrittenMiddle (page : Bytes) (lower : slotSize - mflashSectorSize ≤ i)
    (upper : i < slotSize - mflashPageSize) : rewritten f s page (s.start + i) = 0xff := by
  have inside : s.stop - mflashSectorSize ≤ s.start + i ∧
      s.start + i < s.stop - mflashSectorSize + mflashSectorSize ∧
      s.start + i < s.stop - mflashPageSize := by
    have layout := startCases s
    simp only [stopEq,slotSize,mflashSectorSize,mflashPageSize] at *
    omega
  rw [rewritten,overlayOut _ _ _ _ (.inl inside.2.2)]
  exact eraseAt f _ _ 0xff inside.1 inside.2.1

theorem rewrittenPage (page : Bytes) (lower : slotSize - mflashPageSize ≤ i) (upper : i < slotSize) :
    rewritten f s page (s.start + i) = page (i - (slotSize - mflashPageSize)) := by
  have layout := startCases s
  simp only [slotSize,mflashPageSize] at lower upper
  have index : s.start + i = s.stop - mflashPageSize + (i - (slotSize - mflashPageSize)) := by
    simp only [stopEq,slotSize,mflashPageSize]
    omega
  rw [rewritten,index]
  exact overlayIn _ _ _ _ (by simp only [slotSize,mflashPageSize]; omega)

theorem markedBytes (below : i < slotSize - imageTrailerSize) : marked f s (s.start + i) =
    if i < slotSize - mflashSectorSize then f (s.start + i) else 0xff := by
  split
  case isTrue body => exact rewrittenBelow f s _ body
  case isFalse sector =>
    by_cases page : i < slotSize - mflashPageSize
    · exact rewrittenMiddle f s _ (Nat.not_lt.mp sector) page
    · rw [marked,rewrittenPage f s _ (Nat.not_lt.mp page) (by omega)]
      apply if_pos
      simp only [slotSize,imageTrailerSize,mflashPageSize,trailerInPage,magicOffset] at *
      omega

theorem confirmedBytes (below : i < slotSize - imageTrailerSize) : confirmed f s (s.start + i) =
    if i < slotSize - mflashSectorSize ∨ slotSize - mflashPageSize ≤ i then f (s.start + i)
    else 0xff := by
  have layout := startCases s
  by_cases body : i < slotSize - mflashSectorSize
  · rw [if_pos (.inl body)]
    exact rewrittenBelow f s _ body
  · by_cases page : i < slotSize - mflashPageSize
    · rw [if_neg (by omega)]
      exact rewrittenMiddle f s _ (Nat.not_lt.mp body) page
    · have lower := Nat.not_lt.mp page
      have other : ¬ i - (slotSize - mflashPageSize) = trailerInPage + imageOkOffset := by
        simp only [slotSize,imageTrailerSize,mflashPageSize,trailerInPage,imageOkOffset] at *
        omega
      have index : s.stop - mflashPageSize + (i - (slotSize - mflashPageSize)) = s.start + i := by
        simp only [stopEq,slotSize,mflashPageSize] at *
        omega
      rw [if_pos (.inr lower),confirmed,rewrittenPage f s _ lower (by omega),confirmedPage,
        if_neg other,index]

theorem rewrittenHeader (page : Bytes) : AgreeOn s.start imageHeaderSize f (rewritten f s page) := by
  intro i inside
  apply rewrittenBelow f s page
  simp only [imageHeaderSize,slotSize,mflashSectorSize] at *
  omega

theorem markedKept {len : Nat} (fits : len ≤ slotSize - imageTrailerSize) :
    AgreeOn s.start len f (marked f s) ↔ Vacant f s len slotSize := by
  constructor
  · intro same i lower _ inside
    have byte := same i inside
    rw [markedBytes f s (by omega),if_neg (Nat.not_lt.mpr lower)] at byte
    exact byte.symm
  · intro vacant i inside
    rw [markedBytes f s (by omega)]
    split
    case isTrue => rfl
    case isFalse sector => exact (vacant i (Nat.not_lt.mp sector) (by omega) inside).symm

theorem confirmedKept {len : Nat} (fits : len ≤ slotSize - imageTrailerSize) :
    AgreeOn s.start len f (confirmed f s) ↔ Vacant f s len (slotSize - mflashPageSize) := by
  constructor
  · intro same i lower upper inside
    have byte := same i inside
    rw [confirmedBytes f s (by omega),if_neg (by omega)] at byte
    exact byte.symm
  · intro vacant i inside
    rw [confirmedBytes f s (by omega)]
    split
    case isTrue => rfl
    case isFalse sector => exact (vacant i (by omega) (by omega) inside).symm

end Sector

section Marked

variable {E : Env} {d t : Device} {s : Slot} {len : Nat}

theorem confirmedFlashInside {i : Nat} (inside : i < slotSize) :
    confirmedFlash E d ((activeSlot E d).start + i) =
      confirmed d.flash (activeSlot E d) ((activeSlot E d).start + i) := by
  unfold confirmedFlash
  split
  · have layout := startCases (activeSlot E d)
    apply headerErasedAgreeOff
    simp only [slotSize,mflashSectorSize] at *
    omega
  · rfl

theorem keptIff (image : StoredImage d.flash s len)
    (header : AgreeOn s.start imageHeaderSize d.flash t.flash) :
    ImageKept E s len d t ↔ AgreeOn s.start len d.flash t.flash :=
  ⟨fun kept => kept.bytes,verdictSame header image⟩

theorem testKept (image : StoredImage d.flash s len) (flash : t.flash = marked d.flash s) :
    ImageKept E s len d t ↔ Vacant d.flash s len slotSize := by
  have header := rewrittenHeader d.flash s markedPage
  rw [keptIff image (by rw [flash]; exact header),flash]
  exact markedKept d.flash s image.fits

theorem confirmKept (image : StoredImage d.flash (activeSlot E d) len)
    (flash : t.flash = confirmedFlash E d) :
    ImageKept E (activeSlot E d) len d t ↔
      Vacant d.flash (activeSlot E d) len (slotSize - mflashPageSize) := by
  have fits : len ≤ slotSize := Nat.le_trans image.fits (Nat.sub_le _ _)
  have header : AgreeOn (activeSlot E d).start imageHeaderSize d.flash t.flash := by
    intro i inside
    rw [flash,confirmedFlashInside (Nat.lt_trans inside (by decide))]
    exact rewrittenHeader d.flash _ _ i inside
  rw [keptIff image header,← confirmedKept d.flash _ image.fits,flash]
  constructor
  · intro same i inside
    rw [← confirmedFlashInside (Nat.lt_of_lt_of_le inside fits)]
    exact same i inside
  · intro same i inside
    rw [confirmedFlashInside (Nat.lt_of_lt_of_le inside fits)]
    exact same i inside

theorem markingKeepsImage {state : UInt32} (marks : Marks E d state s)
    (image : StoredImage d.flash s len)
    (success : blUpdateImageState E state d = .ok kStatusSuccess t) :
    ImageKept E s len d t ↔ Spares d state s len := by
  have ends := endedReturned (blUpdateImageStateEnds E d state) success
  cases marks with
  | test =>
    have confirming : SwapType.readyForTest.code ≠ SwapType.permanent.code := by decide
    rw [testKept image (testSucceeded ends).2]
    constructor
    · intro vacant
      exact .inl ⟨rfl,vacant⟩
    · rintro (⟨_,vacant⟩ | ⟨asked,_⟩)
      · exact vacant
      · exact absurd asked confirming
  | confirm =>
    have testing : SwapType.permanent.code ≠ SwapType.readyForTest.code := by decide
    rcases (confirmSucceeded ends).2 with ⟨was,flash⟩ | ⟨was,flash⟩
    · have header : AgreeOn (activeSlot E d).start imageHeaderSize d.flash t.flash := by
        rw [flash]
        exact fun _ _ => rfl
      rw [keptIff image header,flash]
      exact ⟨fun _ => .inr ⟨rfl,.inl was⟩,fun _ _ _ => rfl⟩
    · rw [confirmKept image flash]
      constructor
      · intro vacant
        exact .inr ⟨rfl,.inr vacant⟩
      · rintro (⟨asked,_⟩ | ⟨_,done | vacant⟩)
        · exact absurd asked testing
        · exact absurd done (pendingNotConfirmed was)
        · exact vacant

end Marked

def longImage : Device :=
  let header := holding 2359296 (headerBytes 32 0 2093024)
  {header with flash := overlay header.flash 4452352 4 (fun i => [0x07,0x69,4,0].getD i 0)}

theorem longImageStored : StoredImage longImage.flash .secondary 2093060 := by
  constructor <;> decide

theorem markingClipsImage : ∃ E : Env, E.build = Build.shipped ∧ E.Faultless ∧ ∃ d t u len,
    blGetUpdatePartitionInfo E d = .ok (kStatusSuccess,slotPartition .secondary) u ∧
    StoredImage d.flash .secondary len ∧
    blUpdateImageState E SwapType.readyForTest.code d = .ok kStatusSuccess t ∧
    ¬ AgreeOn Slot.secondary.start len d.flash t.flash ∧
    Returns (blVerifyImage E (slotBase .secondary) 2097152) d 1 ∧
    Returns (blVerifyImage E (slotBase .secondary) 2097152) t 0 := by
  have faultless := benchFaultless Build.shipped
  obtain ⟨u,_,granted⟩ := partitionRuns longImage (faultless.reads slotsEnd)
  obtain ⟨t,run,ends⟩ := testRuns longImage faultless
  have flash : t.flash = marked longImage.flash .secondary := (testSucceeded ends).2
  refine ⟨_,rfl,faultless,longImage,t,u,2093060,granted,longImageStored,run,?_,?_,?_⟩
  · intro same
    have first := same 2093056 (by decide)
    rw [flash] at first
    exact absurd first (by decide)
  · rcases verdictFaultless faultless (slotBase .secondary) 2097152 longImage with ⟨_,one⟩ | ⟨no,_⟩
    · exact one
    · exact absurd (by decide) no
  · rcases verdictFaultless faultless (slotBase .secondary) 2097152 t with ⟨yes,_⟩ | ⟨_,zero⟩
    · rw [flash] at yes
      exact absurd yes (by decide)
    · exact zero

theorem markingKeepsImageOnBench : ∃ t,
    blUpdateImageState (bench Build.shipped allDone) SwapType.readyForTest.code longImage =
      .ok kStatusSuccess t ∧
    (ImageKept (bench Build.shipped allDone) .secondary 2093060 longImage t ↔
      Spares longImage SwapType.readyForTest.code .secondary 2093060) := by
  obtain ⟨t,run,_⟩ := testRuns longImage (benchFaultless Build.shipped)
  exact ⟨t,run,markingKeepsImage .test longImageStored run⟩

end AkNano.Marking
