import AkNano.FlashRead

/-! `bl_verify_image`. Header and TLV info share one word-aligned buffer: the
protected TLV size is read again after the TLV info has overwritten the buffer's
first word. `declSize` is the source's 32-bit sum, `fullSize` the unbounded one. -/
namespace AkNano.VerifyImage
open Memory Interrupted Platform FlashRead

def imageMagic : UInt32 := 0x96f3b83d
def imageTlvInfoMagic : UInt16 := 0x6907
def imageTlvProtInfoMagic : UInt16 := 0x6908
def imageHeaderSize : Nat := 32
def imageTlvInfoSize : Nat := 4

def le16 (m : Bytes) (p : Nat) : UInt16 := UInt16.ofNat ((m p).toNat + 256 * (m (p + 1)).toNat)

def le32 (m : Bytes) (p : Nat) : UInt32 :=
  UInt32.ofNat ((le16 m p).toNat + 65536 * (le16 m (p + 2)).toNat)

structure ImageVersion where
  ivMajor : UInt8
  ivMinor : UInt8
  ivRevision : UInt16
  ivBuildNum : UInt32
  deriving DecidableEq, Repr

structure ImageHeader where
  ihMagic : UInt32
  ihLoadAddr : UInt32
  ihHdrSize : UInt16
  ihProtectTlvSize : UInt16
  ihImgSize : UInt32
  ihFlags : UInt32
  ihVer : ImageVersion
  pad2 : UInt32
  deriving DecidableEq, Repr

structure ImageTlvInfo where
  itMagic : UInt16
  itTlvTot : UInt16
  deriving DecidableEq, Repr

def versionAt (m : Bytes) (p : Nat) : ImageVersion :=
  ⟨m p,m (p + 1),le16 m (p + 2),le32 m (p + 4)⟩

def headerAt (m : Bytes) (p : Nat) : ImageHeader :=
  ⟨le32 m p,le32 m (p + 4),le16 m (p + 8),le16 m (p + 10),le32 m (p + 12),le32 m (p + 16),
    versionAt m (p + 20),le32 m (p + 28)⟩

def tlvInfoAt (m : Bytes) (p : Nat) : ImageTlvInfo := ⟨le16 m p,le16 m (p + 2)⟩

def declSize (h : ImageHeader) : UInt32 :=
  h.ihImgSize + h.ihHdrSize.toUInt32 + h.ihProtectTlvSize.toUInt32

def tlvStart (h : ImageHeader) (offset : UInt32) : UInt32 :=
  offset + h.ihImgSize + h.ihHdrSize.toUInt32

def checkProtectedTlvs (E : Env) (offset : UInt32) (buffer : Bytes) : Fw (Option Bytes) :=
  let ih := headerAt buffer E.buf
  if 0 < ih.ihProtectTlvSize then
    -- `none` rejects the image
    if ih.ihProtectTlvSize.toNat < imageTlvInfoSize then pure none
    else do
      let r ← flashRead E (tlvStart ih offset).toNat E.buf buffer imageTlvInfoSize
      if r.1 ≠ kStatusSuccess then pure none
      else
        let it := tlvInfoAt r.2 E.buf
        if it.itMagic ≠ imageTlvProtInfoMagic ∨
            it.itTlvTot ≠ (headerAt r.2 E.buf).ihProtectTlvSize then pure none
        else pure (some r.2)
  else pure (some buffer)

def checkTlvs (E : Env) (data : UInt32) (ih : ImageHeader) (buffer : Bytes) : Fw Int := do
  match ← checkProtectedTlvs E data buffer with
  | none => pure 0
  | some buffer => do
    let r ← flashRead E (data + declSize ih).toNat E.buf buffer imageTlvInfoSize
    if r.1 ≠ kStatusSuccess then pure 0
    else if (tlvInfoAt r.2 E.buf).itMagic ≠ imageTlvInfoMagic then pure 0
    else pure 1

def blVerifyImage (E : Env) (data size : UInt32) : Fw Int := do
  let r ← flashRead E data.toNat E.buf E.stack imageHeaderSize
  if r.1 ≠ kStatusSuccess then pure 0
  else
    let ih := headerAt r.2 E.buf
    if size.toNat < imageHeaderSize then pure 0
    else if ih.ihMagic ≠ imageMagic then pure 0
    else if size < declSize ih then pure 0
    else checkTlvs E data ih r.2

/-! Reading structures out of a memory, and out of the flash at a 32-bit address. -/

theorem le16Congr {m n : Bytes} {p q : Nat} (same : ∀ i, i < 2 → m (p + i) = n (q + i)) :
    le16 m p = le16 n q := by
  have low := same 0 (by omega)
  rw [Nat.add_zero,Nat.add_zero] at low
  rw [le16,le16,low,same 1 (by omega)]

theorem le32Congr {m n : Bytes} {p q : Nat} (same : ∀ i, i < 4 → m (p + i) = n (q + i)) :
    le32 m p = le32 n q := by
  have low : le16 m p = le16 n q := le16Congr (fun i small => same i (by omega))
  have high : le16 m (p + 2) = le16 n (q + 2) := by
    apply le16Congr
    intro i small
    rw [Nat.add_assoc,Nat.add_assoc]
    exact same (2 + i) (by omega)
  rw [le32,le32,low,high]

theorem headerCongr {m n : Bytes} {p q : Nat}
    (same : ∀ i, i < imageHeaderSize → m (p + i) = n (q + i)) : headerAt m p = headerAt n q := by
  simp only [imageHeaderSize] at same
  have half : ∀ a, a + 2 ≤ 32 → le16 m (p + a) = le16 n (q + a) := by
    intro a fits
    apply le16Congr
    intro i small
    rw [Nat.add_assoc,Nat.add_assoc]
    exact same (a + i) (by omega)
  have word : ∀ a, a + 4 ≤ 32 → le32 m (p + a) = le32 n (q + a) := by
    intro a fits
    apply le32Congr
    intro i small
    rw [Nat.add_assoc,Nat.add_assoc]
    exact same (a + i) (by omega)
  have first : le32 m p = le32 n q := word 0 (by omega)
  have version : versionAt m (p + 20) = versionAt n (q + 20) := by
    simp only [versionAt,Nat.add_assoc,Nat.reduceAdd,same 20 (by omega),same 21 (by omega),
      half 22 (by omega),word 24 (by omega)]
  simp only [headerAt,first,version,word 4 (by omega),half 8 (by omega),half 10 (by omega),
    word 12 (by omega),word 16 (by omega),word 28 (by omega)]

theorem tlvInfoCongr {m n : Bytes} {p q : Nat}
    (same : ∀ i, i < imageTlvInfoSize → m (p + i) = n (q + i)) : tlvInfoAt m p = tlvInfoAt n q := by
  simp only [imageTlvInfoSize] at same
  have low : le16 m p = le16 n q := le16Congr (fun i small => same i (by omega))
  have high : le16 m (p + 2) = le16 n (q + 2) := by
    apply le16Congr
    intro i small
    rw [Nat.add_assoc,Nat.add_assoc]
    exact same (2 + i) (by omega)
  rw [tlvInfoAt,tlvInfoAt,low,high]

def flashAt (f : Bytes) (addr : Nat) : Bytes := fun i => f (u32 (addr + i))

def headerIn (f : Bytes) (addr : Nat) : ImageHeader := headerAt (flashAt f addr) 0
def infoIn (f : Bytes) (addr : Nat) : ImageTlvInfo := tlvInfoAt (flashAt f addr) 0

theorem flashAtWraps (f : Bytes) (addr : Nat) : flashAt f (u32 addr) = flashAt f addr := by
  funext i
  rw [flashAt,flashAt,u32Add]

theorem headerDelivered (f m : Bytes) (addr p : Nat) :
    headerAt (overlay m p imageHeaderSize (flashAt f addr)) p = headerIn f addr := by
  apply headerCongr
  intro i inside
  rw [overlayIn _ _ _ _ inside,Nat.zero_add]

theorem infoDelivered (f m : Bytes) (addr p : Nat) :
    tlvInfoAt (overlay m p imageTlvInfoSize (flashAt f addr)) p = infoIn f addr := by
  apply tlvInfoCongr
  intro i inside
  rw [overlayIn _ _ _ _ inside,Nat.zero_add]

theorem protectSizeKept {m n : Bytes} {p : Nat} (off : AgreeOff p imageTlvInfoSize m n) :
    (headerAt n p).ihProtectTlvSize = (headerAt m p).ihProtectTlvSize := by
  simp only [imageTlvInfoSize] at off
  exact le16Congr (fun i small => off _ (by omega))

def fullSize (h : ImageHeader) : Nat :=
  h.ihHdrSize.toNat + h.ihImgSize.toNat + h.ihProtectTlvSize.toNat

theorem declSizeWraps (h : ImageHeader) : (declSize h).toNat = u32 (fullSize h) := by
  simp only [declSize,fullSize,u32,UInt32.toNat_add,UInt16.toNat_toUInt32]
  omega

theorem tlvStartWraps (h : ImageHeader) (offset : UInt32) :
    (tlvStart h offset).toNat = u32 (offset.toNat + h.ihHdrSize.toNat + h.ihImgSize.toNat) := by
  simp only [tlvStart,u32,UInt32.toNat_add,UInt16.toNat_toUInt32]
  omega

end AkNano.VerifyImage
