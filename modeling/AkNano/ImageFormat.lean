import AkNano.ImageGrammar
import AkNano.SwapState

/-! The image format written out: little-endian fields as `image.h` lays them out, and an
image as the parts its header announces. Reading the structures back is exact, an image in
flash is the only one there, the verifier takes it for every size its parts fit in, and what
it takes is an image, up to four sizes that it does not check. -/
namespace AkNano.ImageFormat
open Memory Interrupted Platform FlashRead SwapState VerifyImage ImageVerdict ImageGrammar

def halfBytes (x : UInt16) : List UInt8 := [UInt8.ofNat x.toNat,UInt8.ofNat (x.toNat / 256)]

def fullBytes (x : UInt32) : List UInt8 := wordBytes x.toNat

def versionBytes (v : ImageVersion) : List UInt8 :=
  v.ivMajor :: v.ivMinor :: (halfBytes v.ivRevision ++ fullBytes v.ivBuildNum)

def imageHeaderBytes (h : ImageHeader) : List UInt8 :=
  fullBytes h.ihMagic ++ (fullBytes h.ihLoadAddr ++ (halfBytes h.ihHdrSize ++
    (halfBytes h.ihProtectTlvSize ++ (fullBytes h.ihImgSize ++ (fullBytes h.ihFlags ++
    (versionBytes h.ihVer ++ fullBytes h.pad2))))))

def tlvInfoBytes (it : ImageTlvInfo) : List UInt8 := halfBytes it.itMagic ++ halfBytes it.itTlvTot

section Fields

variable {m : Bytes} {p : Nat}

theorem le16Exact {x : UInt16} : le16 m p = x ↔ Stored m p (halfBytes x) := by
  have low := (m p).toNat_lt
  have high := (m (p + 1)).toNat_lt
  have width := x.toNat_lt
  simp only [halfBytes,storedCons,storedNil,and_true,le16,← UInt16.toNat_inj,UInt16.toNat_ofNat',
    ← UInt8.toNat_inj,UInt8.toNat_ofNat']
  omega

theorem le32Exact {x : UInt32} : le32 m p = x ↔ Stored m p (fullBytes x) := by
  have first := (m p).toNat_lt
  have second := (m (p + 1)).toNat_lt
  have third := (m (p + 2)).toNat_lt
  have fourth := (m (p + 3)).toNat_lt
  have width := x.toNat_lt
  simp only [fullBytes,wordBytes,storedCons,storedNil,and_true,le32,le16,Nat.add_assoc,
    Nat.reduceAdd,← UInt32.toNat_inj,UInt32.toNat_ofNat',UInt16.toNat_ofNat',← UInt8.toNat_inj,
    UInt8.toNat_ofNat']
  omega

@[simp] theorem halfLength (x : UInt16) : (halfBytes x).length = 2 := rfl
@[simp] theorem fullLength (x : UInt32) : (fullBytes x).length = 4 := rfl
@[simp] theorem versionLength (v : ImageVersion) : (versionBytes v).length = 8 := rfl
@[simp] theorem imageHeaderLength (h : ImageHeader) :
    (imageHeaderBytes h).length = imageHeaderSize := rfl
@[simp] theorem tlvInfoLength (it : ImageTlvInfo) : (tlvInfoBytes it).length = imageTlvInfoSize := rfl

theorem versionExact {v : ImageVersion} : versionAt m p = v ↔ Stored m p (versionBytes v) := by
  obtain ⟨major,minor,revision,build⟩ := v
  simp only [versionAt,ImageVersion.mk.injEq,versionBytes,storedCons,storedAppend,le16Exact,
    le32Exact,halfLength,Nat.add_assoc,Nat.reduceAdd]

theorem headerExact {h : ImageHeader} : headerAt m p = h ↔ Stored m p (imageHeaderBytes h) := by
  obtain ⟨magic,loadAddr,hdrSize,protectTlvSize,imgSize,flags,version,pad2⟩ := h
  simp only [headerAt,ImageHeader.mk.injEq,imageHeaderBytes,storedAppend,le16Exact,le32Exact,
    versionExact,halfLength,fullLength,versionLength,Nat.add_assoc,Nat.reduceAdd]

theorem tlvInfoExact {it : ImageTlvInfo} : tlvInfoAt m p = it ↔ Stored m p (tlvInfoBytes it) := by
  obtain ⟨magic,tot⟩ := it
  simp only [tlvInfoAt,ImageTlvInfo.mk.injEq,tlvInfoBytes,storedAppend,le16Exact,halfLength]

theorem storedUnique {as bs : List UInt8} (first : Stored m p as) (second : Stored m p bs)
    (length : as.length = bs.length) : as = bs := by
  rw [← first,← second,length]

end Fields

def tlvArea (magic : UInt16) (entries : List UInt8) : List UInt8 :=
  tlvInfoBytes ⟨magic,UInt16.ofNat (imageTlvInfoSize + entries.length)⟩ ++ entries

def protectedArea : Option (List UInt8) → List UInt8
  | none => []
  | some entries => tlvArea imageTlvProtInfoMagic entries

/-- The parts of an image, small enough for the fields that announce them. -/
@[ext] structure FirmwareImage where
  loadAddr : UInt32
  flags : UInt32
  version : ImageVersion
  pad2 : UInt32
  headerPad : List UInt8
  body : List UInt8
  protectedTlvs : Option (List UInt8)
  tlvs : List UInt8
  headerFits : imageHeaderSize + headerPad.length < 65536
  protectedFits : (protectedArea protectedTlvs).length < 65536
  tlvsFit : imageTlvInfoSize + tlvs.length < 65536
  sizeFits : imageHeaderSize + headerPad.length + body.length +
    (protectedArea protectedTlvs).length < 4294967296

namespace FirmwareImage

variable (image : FirmwareImage)

def header : ImageHeader where
  ihMagic := imageMagic
  ihLoadAddr := image.loadAddr
  ihHdrSize := UInt16.ofNat (imageHeaderSize + image.headerPad.length)
  ihProtectTlvSize := UInt16.ofNat (protectedArea image.protectedTlvs).length
  ihImgSize := UInt32.ofNat image.body.length
  ihFlags := image.flags
  ihVer := image.version
  pad2 := image.pad2

def bytes : List UInt8 :=
  imageHeaderBytes image.header ++ (image.headerPad ++ (image.body ++
    (protectedArea image.protectedTlvs ++ tlvArea imageTlvInfoMagic image.tlvs)))

theorem headerSizeToNat : image.header.ihHdrSize.toNat = imageHeaderSize + image.headerPad.length :=
  UInt16.toNat_ofNat_of_lt' image.headerFits

theorem protectedSizeToNat :
    image.header.ihProtectTlvSize.toNat = (protectedArea image.protectedTlvs).length :=
  UInt16.toNat_ofNat_of_lt' image.protectedFits

theorem bodySizeToNat : image.header.ihImgSize.toNat = image.body.length := by
  have fits := image.sizeFits
  exact UInt32.toNat_ofNat_of_lt' (by omega : image.body.length < 4294967296)

theorem infoOffset : tlvInfoOffset image.header =
    imageHeaderSize + (image.headerPad.length + image.body.length) := by
  rw [tlvInfoOffset,headerSizeToNat,bodySizeToNat,Nat.add_assoc]

theorem declaredSize : fullSize image.header = imageHeaderSize + (image.headerPad.length +
    (image.body.length + (protectedArea image.protectedTlvs).length)) := by
  rw [fullSize,headerSizeToNat,bodySizeToNat,protectedSizeToNat]
  omega

theorem bytesLength :
    image.bytes.length = fullSize image.header + (imageTlvInfoSize + image.tlvs.length) := by
  unfold bytes tlvArea
  simp only [List.length_append,imageHeaderLength,tlvInfoLength,declaredSize]
  omega

variable {image} {m : Bytes} {p : Nat}

structure Parts (image : FirmwareImage) (m : Bytes) (p : Nat) : Prop where
  header : headerAt m p = image.header
  headerPad : Stored m (p + imageHeaderSize) image.headerPad
  body : Stored m (p + imageHeaderSize + image.headerPad.length) image.body
  guarded : Stored m (p + tlvInfoOffset image.header) (protectedArea image.protectedTlvs)
  info : tlvInfoAt m (p + fullSize image.header) =
    ⟨imageTlvInfoMagic,UInt16.ofNat (imageTlvInfoSize + image.tlvs.length)⟩
  tlvs : Stored m (p + fullSize image.header + imageTlvInfoSize) image.tlvs

theorem partsStored (stored : Stored m p image.bytes) : Parts image m p := by
  unfold bytes tlvArea at stored
  simp only [storedAppend,imageHeaderLength,tlvInfoLength,← headerExact,← tlvInfoExact] at stored
  obtain ⟨header,pad,body,guarded,info,tlvs⟩ := stored
  have offset : p + imageHeaderSize + image.headerPad.length + image.body.length =
      p + tlvInfoOffset image.header := by
    rw [infoOffset]
    omega
  have full : p + tlvInfoOffset image.header + (protectedArea image.protectedTlvs).length =
      p + fullSize image.header := by
    rw [infoOffset,declaredSize]
    omega
  rw [offset] at guarded info tlvs
  rw [full] at info tlvs
  exact ⟨header,pad,body,guarded,info,tlvs⟩

theorem protectedInfoStored (parts : Parts image m p)
    (present : 0 < image.header.ihProtectTlvSize.toNat) :
    imageTlvInfoSize ≤ image.header.ihProtectTlvSize.toNat ∧
    tlvInfoAt m (p + tlvInfoOffset image.header) =
      ⟨imageTlvProtInfoMagic,image.header.ihProtectTlvSize⟩ := by
  have guarded := parts.guarded
  rw [protectedSizeToNat] at present ⊢
  unfold header
  cases entries : image.protectedTlvs with
  | none => simp [entries,protectedArea] at present
  | some bs =>
    simp only [entries,protectedArea,tlvArea,storedAppend,← tlvInfoExact] at guarded
    simp only [protectedArea,tlvArea,List.length_append,tlvInfoLength]
    exact ⟨Nat.le_add_right _ _,guarded.1⟩

theorem grammarStored (stored : Stored m p image.bytes) (size : Nat) :
    Grammar m p size ↔ fullSize image.header ≤ size := by
  have parts := partsStored stored
  have least : imageHeaderSize ≤ fullSize image.header := by
    rw [declaredSize]
    exact Nat.le_add_right _ _
  constructor
  · intro grammar
    have fits := grammar.fits
    rwa [parts.header] at fits
  · intro fits
    constructor
    case enough => exact Nat.le_trans least fits
    all_goals rw [parts.header]
    case magic => rfl
    case fits => exact fits
    case guarded => exact protectedInfoStored parts
    case trailing => rw [parts.info]

theorem protectedAreaInjective {as bs : Option (List UInt8)}
    (same : protectedArea as = protectedArea bs) : as = bs := by
  have length := congrArg List.length same
  cases as with
  | none =>
    cases bs with
    | none => rfl
    | some bs =>
      simp only [protectedArea,tlvArea,List.length_append,tlvInfoLength,imageTlvInfoSize,
        List.length_nil] at length
      omega
  | some as =>
    cases bs with
    | none =>
      simp only [protectedArea,tlvArea,List.length_append,tlvInfoLength,imageTlvInfoSize,
        List.length_nil] at length
      omega
    | some bs => rw [(List.append_inj same rfl).2]

/-- What the verifier leaves unchecked and an image in a flash of `flashSize` bytes needs. -/
structure WellSized (flashSize : Nat) (m : Bytes) (p : Nat) : Prop where
  header : imageHeaderSize ≤ (headerAt m p).ihHdrSize.toNat
  noWrap : fullSize (headerAt m p) < 4294967296
  trailing : imageTlvInfoSize ≤ (tlvInfoAt m (p + fullSize (headerAt m p))).itTlvTot.toNat
  within : p + fullSize (headerAt m p) +
    (tlvInfoAt m (p + fullSize (headerAt m p))).itTlvTot.toNat ≤ flashSize

theorem wellSizedStored {flashSize : Nat} (stored : Stored m p image.bytes)
    (within : p + image.bytes.length ≤ flashSize) : WellSized flashSize m p := by
  have parts := partsStored stored
  have fits := image.sizeFits
  have tot := UInt16.toNat_ofNat_of_lt' image.tlvsFit
  constructor
  all_goals rw [parts.header]
  case header =>
    rw [headerSizeToNat]
    exact Nat.le_add_right _ _
  case noWrap =>
    rw [declaredSize]
    omega
  case trailing =>
    rw [parts.info,tot]
    exact Nat.le_add_right _ _
  case within =>
    rw [parts.info,tot]
    rw [bytesLength] at within
    omega

theorem storedCells (m : Bytes) (p len : Nat) : Stored m p (cells m p len) := by
  rw [Stored,cellsLength]

def protectedTlvsAt (m : Bytes) (p : Nat) (h : ImageHeader) : Option (List UInt8) :=
  if h.ihProtectTlvSize.toNat = 0 then none
  else some (cells m (p + tlvInfoOffset h + imageTlvInfoSize)
    (h.ihProtectTlvSize.toNat - imageTlvInfoSize))

theorem protectedAt {size : Nat} (grammar : Grammar m p size) :
    (protectedArea (protectedTlvsAt m p (headerAt m p))).length =
      (headerAt m p).ihProtectTlvSize.toNat ∧
    Stored m (p + tlvInfoOffset (headerAt m p))
      (protectedArea (protectedTlvsAt m p (headerAt m p))) := by
  have width := (headerAt m p).ihProtectTlvSize.toNat_lt
  unfold protectedTlvsAt
  by_cases none : (headerAt m p).ihProtectTlvSize.toNat = 0
  case pos =>
    rw [if_pos none,none]
    exact ⟨rfl,storedNil m _⟩
  case neg =>
    obtain ⟨least,info⟩ := grammar.guarded (Nat.pos_of_ne_zero none)
    have tot : UInt16.ofNat (imageTlvInfoSize +
        ((headerAt m p).ihProtectTlvSize.toNat - imageTlvInfoSize)) =
          (headerAt m p).ihProtectTlvSize := by
      rw [Nat.add_sub_cancel' least,UInt16.ofNat_toNat]
    rw [if_neg none]
    simp only [protectedArea,tlvArea,cellsLength,tot,List.length_append,tlvInfoLength,storedAppend,
      ← tlvInfoExact]
    exact ⟨Nat.add_sub_cancel' least,info,storedCells m _ _⟩

theorem imageOfGrammar {size flashSize : Nat} (grammar : Grammar m p size)
    (sized : WellSized flashSize m p) : ∃ image : FirmwareImage, image.header = headerAt m p ∧
      p + image.bytes.length ≤ flashSize ∧ Stored m p image.bytes := by
  generalize read : headerAt m p = h
  generalize ended : tlvInfoAt m (p + fullSize h) = it
  have guarded := protectedAt grammar
  have trailing := grammar.trailing
  have magic := grammar.magic
  have roomy := sized.header
  have small := sized.noWrap
  have tot := sized.trailing
  have within := sized.within
  rw [read] at guarded trailing magic roomy small tot within
  rw [ended] at trailing tot within
  have pad : imageHeaderSize + (h.ihHdrSize.toNat - imageHeaderSize) = h.ihHdrSize.toNat :=
    Nat.add_sub_cancel' roomy
  have entries : imageTlvInfoSize + (it.itTlvTot.toNat - imageTlvInfoSize) = it.itTlvTot.toNat :=
    Nat.add_sub_cancel' tot
  let image : FirmwareImage := {
    loadAddr := h.ihLoadAddr
    flags := h.ihFlags
    version := h.ihVer
    pad2 := h.pad2
    headerPad := cells m (p + imageHeaderSize) (h.ihHdrSize.toNat - imageHeaderSize)
    body := cells m (p + h.ihHdrSize.toNat) h.ihImgSize.toNat
    protectedTlvs := protectedTlvsAt m p h
    tlvs := cells m (p + fullSize h + imageTlvInfoSize) (it.itTlvTot.toNat - imageTlvInfoSize)
    headerFits := by
      rw [cellsLength,pad]
      exact h.ihHdrSize.toNat_lt
    protectedFits := by
      rw [guarded.1]
      exact h.ihProtectTlvSize.toNat_lt
    tlvsFit := by
      rw [cellsLength,entries]
      exact it.itTlvTot.toNat_lt
    sizeFits := by
      rw [cellsLength,cellsLength,guarded.1,pad]
      exact small }
  have header : image.header = h := by
    simp only [image,FirmwareImage.header,cellsLength,pad,guarded.1,UInt16.ofNat_toNat,
      UInt32.ofNat_toNat,← magic]
  refine ⟨image,header,?_,?_⟩
  · rw [bytesLength,header]
    simp only [image,cellsLength,entries]
    omega
  unfold bytes tlvArea
  simp only [storedAppend,imageHeaderLength,tlvInfoLength,← headerExact,← tlvInfoExact,header]
  simp only [image,cellsLength,guarded.1,entries,UInt16.ofNat_toNat,← trailing]
  have start : p + imageHeaderSize + (h.ihHdrSize.toNat - imageHeaderSize) =
      p + h.ihHdrSize.toNat := by rw [Nat.add_assoc,pad]
  have offset : p + h.ihHdrSize.toNat + h.ihImgSize.toNat = p + tlvInfoOffset h := Nat.add_assoc _ _ _
  have full : p + tlvInfoOffset h + h.ihProtectTlvSize.toNat = p + fullSize h := by
    unfold tlvInfoOffset fullSize
    omega
  rw [start,offset,full]
  exact ⟨read,storedCells _ _ _,storedCells _ _ _,guarded.2,ended,storedCells _ _ _⟩

theorem storedOnce {a b : FirmwareImage} (first : Stored m p a.bytes) (second : Stored m p b.bytes) :
    a = b := by
  have parts := partsStored first
  have parts' := partsStored second
  have header : a.header = b.header := parts.header.symm.trans parts'.header
  have headerSize : a.headerPad.length = b.headerPad.length := by
    have size := congrArg (fun h => h.ihHdrSize.toNat) header
    simp only [headerSizeToNat] at size
    omega
  have bodySize : a.body.length = b.body.length := by
    have size := congrArg (fun h => h.ihImgSize.toNat) header
    simpa only [bodySizeToNat] using size
  have protectedSize : (protectedArea a.protectedTlvs).length =
      (protectedArea b.protectedTlvs).length := by
    have size := congrArg (fun h => h.ihProtectTlvSize.toNat) header
    simpa only [protectedSizeToNat] using size
  have tlvsSize : a.tlvs.length = b.tlvs.length := by
    have info := parts.info
    rw [header,parts'.info,ImageTlvInfo.mk.injEq] at info
    have tot := congrArg UInt16.toNat info.2
    rw [UInt16.toNat_ofNat_of_lt' b.tlvsFit,UInt16.toNat_ofNat_of_lt' a.tlvsFit] at tot
    omega
  have body := parts.body
  have guarded := parts.guarded
  have tlvs := parts.tlvs
  rw [headerSize] at body
  rw [header] at guarded tlvs
  exact FirmwareImage.ext (congrArg ImageHeader.ihLoadAddr header)
    (congrArg ImageHeader.ihFlags header) (congrArg ImageHeader.ihVer header)
    (congrArg ImageHeader.pad2 header) (storedUnique parts.headerPad parts'.headerPad headerSize)
    (storedUnique body parts'.body bodySize)
    (protectedAreaInjective (storedUnique guarded parts'.guarded protectedSize))
    (storedUnique tlvs parts'.tlvs tlvsSize)

end FirmwareImage

section Verdict

variable {E : Env} {flashSize : Nat} {image : FirmwareImage}

theorem assembledVerdict (aligned : flashSize % 4 = 0) (bounded : flashSize ≤ 4294967296)
    (reads : E.ReadsSucceed flashSize) (power : E.NoCut) (d : Device) (data size : UInt32)
    (inside : data.toNat + size.toNat + 4 ≤ flashSize)
    (stored : Stored d.flash data.toNat image.bytes) :
    Decides (blVerifyImage E data size) d (fullSize image.header ≤ size.toNat) := by
  have plain : ¬ WrapAccepted E d data size := by
    intro wrapped
    have wraps := wrapped.wraps
    have fits := image.sizeFits
    rw [(FirmwareImage.partsStored stored).header,FirmwareImage.declaredSize] at wraps
    omega
  refine decidesCongr ?_ (verdictRun aligned bounded reads power d data size inside)
  rw [← FirmwareImage.grammarStored stored]
  exact or_iff_left plain

/-- Where an image lies, the verifier takes it; what it takes is an image, up to four sizes. -/
theorem acceptedImages (aligned : flashSize % 4 = 0) (bounded : flashSize ≤ 4294967296)
    (reads : E.ReadsSucceed flashSize) (power : E.NoCut) (d : Device) (data size : UInt32)
    (inside : data.toNat + size.toNat + 4 ≤ flashSize) :
    (∃ image : FirmwareImage, data.toNat + image.bytes.length ≤ flashSize ∧
      Stored d.flash data.toNat image.bytes ∧ fullSize image.header ≤ size.toNat) ↔
    Returns (blVerifyImage E data size) d 1 ∧
      FirmwareImage.WellSized flashSize d.flash data.toNat := by
  constructor
  · rintro ⟨image,within,stored,fits⟩
    refine ⟨?_,FirmwareImage.wellSizedStored stored within⟩
    rcases assembledVerdict aligned bounded reads power d data size inside stored with
      ⟨_,one⟩ | ⟨no,_⟩
    · exact one
    · exact absurd fits no
  · rintro ⟨one,sized⟩
    have verdict := verdictRun aligned bounded reads power d data size inside
    rcases decidesValue verdict one with ⟨grammar | wrapped,_⟩ | ⟨_,zero⟩
    · obtain ⟨image,header,within,stored⟩ := FirmwareImage.imageOfGrammar grammar sized
      refine ⟨image,within,stored,?_⟩
      rw [header]
      exact grammar.fits
    · exact absurd wrapped.wraps (Nat.not_le.mpr sized.noWrap)
    · contradiction

end Verdict

theorem holdingStored (p : Nat) (bytes : List UInt8) : Stored (holding p bytes).flash p bytes := by
  apply List.ext_getElem (cellsLength _ _ _)
  intro i _ inside
  simp only [cells,List.getElem_map,List.getElem_range]
  have flash : (holding p bytes).flash =
      overlay (fun _ => 0xff) p bytes.length (fun i => bytes.getD i 0xff) := rfl
  rw [flash,overlayIn _ _ _ _ inside]
  simp [inside]

def smallFirmware : FirmwareImage where
  loadAddr := 0
  flags := 0
  version := ⟨1,0,2,7⟩
  pad2 := 0
  headerPad := [0,0,0,0]
  body := List.replicate 12 0x55
  protectedTlvs := some []
  tlvs := [0x10,0,0,0]
  headerFits := by decide
  protectedFits := by decide
  tlvsFit := by decide
  sizeFits := by decide

theorem acceptedImagesOnBench :
    (∃ image : FirmwareImage, (2359296 : UInt32).toNat + image.bytes.length ≤ 8388608 ∧
      Stored (holding 2359296 smallFirmware.bytes).flash (2359296 : UInt32).toNat image.bytes ∧
      fullSize image.header ≤ (60 : UInt32).toNat) ↔
    Returns (blVerifyImage (bench Build.shipped allDone) 2359296 60)
      (holding 2359296 smallFirmware.bytes) 1 ∧
    FirmwareImage.WellSized 8388608 (holding 2359296 smallFirmware.bytes).flash
      (2359296 : UInt32).toNat :=
  acceptedImages (by decide) (by decide) ((benchFaultless Build.shipped).reads 8388608)
    (benchFaultless Build.shipped).noCut _ 2359296 60 (by decide)

theorem smallFirmwareAlone : ∃ d : Device, ∀ b : FirmwareImage,
    Stored d.flash 2359296 b.bytes → smallFirmware = b :=
  ⟨holding 2359296 smallFirmware.bytes,fun _ => FirmwareImage.storedOnce (holdingStored _ _)⟩

end AkNano.ImageFormat
