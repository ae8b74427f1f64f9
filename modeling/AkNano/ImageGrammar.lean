import AkNano.ImageVerdict

/-! What `bl_verify_image` accepts: the header grammar over unbounded sums, the headers
whose sum wraps past the size check, and what becomes of a shortened size. -/
namespace AkNano.ImageGrammar
open Memory Interrupted Platform FlashRead VerifyImage ImageVerdict

structure Grammar (f : Bytes) (data size : Nat) : Prop where
  enough : imageHeaderSize ≤ size
  magic : (headerAt f data).ihMagic = imageMagic
  fits : fullSize (headerAt f data) ≤ size
  guarded : 0 < (headerAt f data).ihProtectTlvSize.toNat →
    imageTlvInfoSize ≤ (headerAt f data).ihProtectTlvSize.toNat ∧
    tlvInfoAt f (data + tlvInfoOffset (headerAt f data)) =
      ⟨imageTlvProtInfoMagic,(headerAt f data).ihProtectTlvSize⟩
  trailing : (tlvInfoAt f (data + fullSize (headerAt f data))).itMagic = imageTlvInfoMagic

/-- The sum of the header's sizes leaves 32 bits, and what is left of it passes for a layout. -/
structure WrapAccepted (E : Env) (d : Device) (data size : UInt32) : Prop where
  enough : imageHeaderSize ≤ size.toNat
  magic : (headerAt d.flash data.toNat).ihMagic = imageMagic
  wraps : 4294967296 ≤ fullSize (headerAt d.flash data.toNat)
  fits : fullSize (headerAt d.flash data.toNat) - 4294967296 ≤ size.toNat
  guarded : ProtectedAccepted (headerAt d.flash data.toNat) (protectedInfo E data d)
  trailing : (tlvInfoAt d.flash
    (data.toNat + (fullSize (headerAt d.flash data.toNat) - 4294967296))).itMagic = imageTlvInfoMagic

theorem grammarNotWrapped {E d} {data size : UInt32} (h : Grammar d.flash data.toNat size.toNat) :
    ¬ WrapAccepted E d data size := by
  intro wrapped
  have small := h.fits
  have large := wrapped.wraps
  have bound := size.toNat_lt
  omega

theorem flashAtPlain {f : Bytes} {addr len : Nat} (below : addr + len ≤ 4294967296) :
    ∀ i, i < len → flashAt f addr (0 + i) = f (addr + i) := by
  intro i inside
  rw [flashAt,Nat.zero_add,u32Small (by omega)]

theorem headerInPlain {f : Bytes} {addr : Nat} (below : addr + imageHeaderSize ≤ 4294967296) :
    headerIn f addr = headerAt f addr := headerCongr (flashAtPlain below)

theorem infoInPlain {f : Bytes} {addr : Nat} (below : addr + imageTlvInfoSize ≤ 4294967296) :
    infoIn f addr = tlvInfoAt f addr := tlvInfoCongr (flashAtPlain below)

theorem infoInWraps (f : Bytes) (addr : Nat) : infoIn f (u32 addr) = infoIn f addr := by
  rw [infoIn,infoIn,flashAtWraps]

theorem fullSizeBound (h : ImageHeader) : fullSize h < 2 * 4294967296 := by
  have hdr := h.ihHdrSize.toNat_lt
  have img := h.ihImgSize.toNat_lt
  have prot := h.ihProtectTlvSize.toNat_lt
  unfold fullSize
  omega

theorem guardedIff {h : ImageHeader} {info : ImageTlvInfo} : ProtectedAccepted h (some info) ↔
    (0 < h.ihProtectTlvSize.toNat → imageTlvInfoSize ≤ h.ihProtectTlvSize.toNat ∧
      info = ⟨imageTlvProtInfoMagic,h.ihProtectTlvSize⟩) := by
  have zero : h.ihProtectTlvSize = 0 ↔ ¬ 0 < h.ihProtectTlvSize.toNat := by
    rw [← UInt16.toNat_inj]
    simp
  unfold ProtectedAccepted
  rw [zero,Option.some_inj]
  constructor
  · intro accepted present
    exact accepted.resolve_left (not_not.mpr present)
  · intro accepted
    by_cases present : 0 < h.ihProtectTlvSize.toNat
    · exact .inr (accepted present)
    · exact .inl present

theorem guardedSmall {h : ImageHeader} (small : ¬ imageTlvInfoSize ≤ h.ihProtectTlvSize.toNat)
    (o o' : Option ImageTlvInfo) : ProtectedAccepted h o ↔ ProtectedAccepted h o' := by
  simp only [ProtectedAccepted,small,false_and]

section Grammar

variable {E : Env} {flashSize : Nat}

theorem guardedPlain (aligned : flashSize % 4 = 0) (bounded : flashSize ≤ 4294967296)
    (reads : E.ReadsSucceed flashSize) (d : Device) (data size : UInt32)
    (inside : data.toNat + size.toNat + 4 ≤ flashSize) (enough : imageHeaderSize ≤ size.toNat)
    (fits : fullSize (headerAt d.flash data.toNat) ≤ size.toNat) :
    ProtectedAccepted (headerAt d.flash data.toNat) (protectedInfo E data d) ↔
      ProtectedAccepted (headerAt d.flash data.toNat) (some (tlvInfoAt d.flash
        (data.toNat + tlvInfoOffset (headerAt d.flash data.toNat)))) := by
  have header : headerIn d.flash data.toNat = headerAt d.flash data.toNat :=
    headerInPlain (by omega)
  by_cases large : imageTlvInfoSize ≤ (headerAt d.flash data.toNat).ihProtectTlvSize.toNat
  · have room : tlvInfoOffset (headerAt d.flash data.toNat) + imageTlvInfoSize ≤ size.toNat := by
      unfold fullSize at fits
      unfold tlvInfoOffset
      omega
    have fetched := protectedInfoExact aligned bounded reads data d
      (fun i small => by rw [u32Small (by omega)]; omega)
      (fun i small => by rw [header,u32Small (by omega)]; omega)
    rw [fetched,header,infoInPlain (by omega)]
  · exact guardedSmall large _ _

theorem acceptsPlain (aligned : flashSize % 4 = 0) (bounded : flashSize ≤ 4294967296)
    (reads : E.ReadsSucceed flashSize) (d : Device) (data size : UInt32)
    (inside : data.toNat + size.toNat + 4 ≤ flashSize) (enough : imageHeaderSize ≤ size.toNat)
    (plain : fullSize (headerAt d.flash data.toNat) < 4294967296) :
    Accepts d.flash (protectedInfo E data d) data size ↔ Grammar d.flash data.toNat size.toNat := by
  have header : headerIn d.flash data.toNat = headerAt d.flash data.toNat :=
    headerInPlain (by omega)
  have four : imageTlvInfoSize = 4 := rfl
  have trailing : fullSize (headerAt d.flash data.toNat) ≤ size.toNat →
      infoIn d.flash (data.toNat + fullSize (headerAt d.flash data.toNat)) =
        tlvInfoAt d.flash (data.toNat + fullSize (headerAt d.flash data.toNat)) := by
    intro fits
    exact infoInPlain (by omega)
  have guarded := guardedPlain aligned bounded reads d data size inside enough
  unfold Accepts
  rw [header,u32Small plain]
  constructor
  · rintro ⟨_,magic,fits,accepted,last⟩
    rw [trailing fits] at last
    rw [guarded fits] at accepted
    exact ⟨enough,magic,fits,guardedIff.mp accepted,last⟩
  · intro h
    have last := h.trailing
    rw [← trailing h.fits] at last
    exact ⟨enough,h.magic,h.fits,(guarded h.fits).mpr (guardedIff.mpr h.guarded),last⟩

theorem acceptsWrapped (bounded : flashSize ≤ 4294967296) (d : Device) (data size : UInt32)
    (inside : data.toNat + size.toNat + 4 ≤ flashSize) (enough : imageHeaderSize ≤ size.toNat)
    (wraps : 4294967296 ≤ fullSize (headerAt d.flash data.toNat)) :
    Accepts d.flash (protectedInfo E data d) data size ↔ WrapAccepted E d data size := by
  have header : headerIn d.flash data.toNat = headerAt d.flash data.toNat :=
    headerInPlain (by omega)
  have bound := fullSizeBound (headerAt d.flash data.toNat)
  have four : imageTlvInfoSize = 4 := rfl
  have rest : u32 (fullSize (headerAt d.flash data.toNat)) =
      fullSize (headerAt d.flash data.toNat) - 4294967296 := by unfold u32; omega
  have place : u32 (data.toNat + fullSize (headerAt d.flash data.toNat)) =
      u32 (data.toNat + (fullSize (headerAt d.flash data.toNat) - 4294967296)) := by
    unfold u32; omega
  have trailing : fullSize (headerAt d.flash data.toNat) - 4294967296 ≤ size.toNat →
      infoIn d.flash (data.toNat + fullSize (headerAt d.flash data.toNat)) = tlvInfoAt d.flash
        (data.toNat + (fullSize (headerAt d.flash data.toNat) - 4294967296)) := by
    intro fits
    rw [← infoInWraps,place,infoInWraps,infoInPlain (by omega)]
  unfold Accepts
  rw [header,rest]
  constructor
  · rintro ⟨_,magic,fits,guarded,last⟩
    rw [trailing fits] at last
    exact ⟨enough,magic,wraps,fits,guarded,last⟩
  · intro h
    have last := h.trailing
    rw [← trailing h.fits] at last
    exact ⟨enough,h.magic,h.fits,h.guarded,last⟩

theorem acceptsCases (aligned : flashSize % 4 = 0) (bounded : flashSize ≤ 4294967296)
    (reads : E.ReadsSucceed flashSize) (d : Device) (data size : UInt32)
    (inside : data.toNat + size.toNat + 4 ≤ flashSize) :
    Accepts d.flash (protectedInfo E data d) data size ↔
      Grammar d.flash data.toNat size.toNat ∨ WrapAccepted E d data size := by
  by_cases short : size.toNat < imageHeaderSize
  · have none : ¬ imageHeaderSize ≤ size.toNat := Nat.not_le.mpr short
    refine iff_of_false (fun h => none h.1) ?_
    rintro (h | h)
    · exact none h.enough
    · exact none h.enough
  · have enough := Nat.not_lt.mp short
    by_cases wraps : 4294967296 ≤ fullSize (headerAt d.flash data.toNat)
    · have large : ¬ Grammar d.flash data.toNat size.toNat := by
        intro h
        have fits := h.fits
        have below := size.toNat_lt
        omega
      rw [acceptsWrapped bounded d data size inside enough wraps]
      exact (or_iff_right large).symm
    · have small : ¬ WrapAccepted E d data size := fun h => wraps h.wraps
      rw [acceptsPlain aligned bounded reads d data size inside enough (Nat.not_le.mp wraps)]
      exact (or_iff_left small).symm

theorem verdictRun (aligned : flashSize % 4 = 0) (bounded : flashSize ≤ 4294967296)
    (reads : E.ReadsSucceed flashSize) (power : E.NoCut) (d : Device) (data size : UInt32)
    (inside : data.toNat + size.toNat + 4 ≤ flashSize) :
    Decides (blVerifyImage E data size) d
      (Grammar d.flash data.toNat size.toNat ∨ WrapAccepted E d data size) := by
  have four : imageTlvInfoSize = 4 := rfl
  have run := verdictExact aligned bounded reads power data size d
    (fun i small => by rw [u32Small (by omega)]; omega)
  exact decidesCongr (acceptsCases aligned bounded reads d data size inside) run

theorem verdictIsGrammar (aligned : flashSize % 4 = 0) (bounded : flashSize ≤ 4294967296)
    (reads : E.ReadsSucceed flashSize) (power : E.NoCut) (d : Device) (data size : UInt32)
    (inside : data.toNat + size.toNat + 4 ≤ flashSize) :
    Decides (blVerifyImage E data size) d (Grammar d.flash data.toNat size.toNat) ↔
      ¬ WrapAccepted E d data size := by
  have run := verdictRun aligned bounded reads power d data size inside
  constructor
  · intro grammar wrapped
    have same := decidesUnique run grammar
    exact grammarNotWrapped (same.mp (.inr wrapped)) wrapped
  · intro plain
    refine decidesCongr ?_ run
    simp only [plain,or_false]

end Grammar

def headerBytes (hdr prot : UInt16) (img : UInt32) : List UInt8 :=
  [0x3d,0xb8,0xf3,0x96,0,0,0,0,hdr.toUInt8,(hdr >>> 8).toUInt8,prot.toUInt8,(prot >>> 8).toUInt8,
    img.toUInt8,(img >>> 8).toUInt8,(img >>> 16).toUInt8,(img >>> 24).toUInt8] ++ List.replicate 16 0

/-- The sum 64 + (2^32 - 32) wraps to 32, where a TLV info is waiting. -/
def wrappedImage : Device := holding 2359296 (headerBytes 64 0 0xffffffe0 ++ [0x07,0x69,4,0])

theorem wrappedImageAccepted :
    WrapAccepted (shippedBench) wrappedImage 2359296 36 := by
  constructor
  case guarded => exact .inl (by decide)
  all_goals decide

theorem verdictIgnoresGrammar : ∃ E flashSize, flashSize % 4 = 0 ∧ flashSize ≤ 4294967296 ∧
    E.ReadsSucceed flashSize ∧ E.NoCut ∧ ∃ d : Device, ∃ data size : UInt32,
      data.toNat + size.toNat + 4 ≤ flashSize ∧
      ¬ Decides (blVerifyImage E data size) d (Grammar d.flash data.toNat size.toNat) := by
  have faultless := benchFaultless Build.shipped
  refine ⟨shippedBench,8388608,by decide,by decide,faultless.reads _,faultless.noCut,
    wrappedImage,2359296,36,by decide,?_⟩
  intro grammar
  have run := verdictRun (by decide) (by decide) (faultless.reads 8388608) faultless.noCut
    wrappedImage 2359296 36 (by decide)
  have wrapped := wrappedImageAccepted
  exact grammarNotWrapped ((decidesUnique run grammar).mp (.inr wrapped)) wrapped

def guardedImage : Device :=
  holding 2359296 (headerBytes 32 4 16 ++ List.replicate 16 0xa5 ++ [0x08,0x69,4,0,0x07,0x69,4,0])

theorem guardedImageGrammar : Grammar guardedImage.flash 2359296 56 := by constructor <;> decide

theorem verdictIsGrammarOnImages :
    (Decides (blVerifyImage shippedBench 2359296 56) guardedImage
        (Grammar guardedImage.flash 2359296 56) ∧ Grammar guardedImage.flash 2359296 56) ∧
    (Decides (blVerifyImage shippedBench 2359296 36) wrappedImage
        (Grammar wrappedImage.flash 2359296 36) ↔
      ¬ WrapAccepted shippedBench wrappedImage 2359296 36) := by
  have faultless := benchFaultless Build.shipped
  have exact' := @verdictIsGrammar shippedBench 8388608 (by decide) (by decide)
    (faultless.reads _) faultless.noCut
  have accepted := (exact' guardedImage 2359296 56 (by decide)).mpr
    (grammarNotWrapped guardedImageGrammar)
  exact ⟨⟨accepted,guardedImageGrammar⟩,exact' wrappedImage 2359296 36 (by decide)⟩

end AkNano.ImageGrammar
