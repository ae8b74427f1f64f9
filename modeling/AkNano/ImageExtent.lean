import AkNano.ImageGrammar

/-! How far into the flash the verdict of `bl_verify_image` looks. The size is compared
with the header's declared sizes only, so the trailing TLV info may lie past it, and
the TLV data behind that info always does so unnoticed. -/
namespace AkNano.ImageExtent
open Memory Interrupted Platform FlashRead VerifyImage ImageVerdict ImageGrammar

structure CompleteImage (f : Bytes) (data total : UInt32) : Prop where
  length : total.toNat = fullSize (headerIn f data.toNat) +
    (infoIn f (data.toNat + fullSize (headerIn f data.toNat))).itTlvTot.toNat
  info : imageTlvInfoSize ≤
    (infoIn f (data.toNat + fullSize (headerIn f data.toNat))).itTlvTot.toNat

structure Accepted (E : Env) (data size : UInt32) (d : Device) (r : Status × Bytes) (t : Device) :
    Prop where
  fetched : flashRead E data.toNat E.buf E.stack imageHeaderSize d = .ok r t
  success : r.1 = kStatusSuccess
  passed : ¬ HeaderRejected (headerAt r.2 E.buf) size
  tlvs : Returns (checkTlvs E data (headerAt r.2 E.buf) r.2) t 1

section Extent

variable {E : Env} {data size : UInt32} {d : Device}

theorem acceptedParts (h : Returns (blVerifyImage E data size) d 1) :
    ∃ r t, Accepted E data size d r t := by
  obtain ⟨u,run⟩ := h
  cases fetched : flashRead E data.toNat E.buf E.stack imageHeaderSize d with
  | error e t =>
    simp only [blVerifyImage,bind,EStateM.bind,fetched] at run
    contradiction
  | ok r t =>
    by_cases success : r.1 = kStatusSuccess
    · rw [verifyAfterHeader fetched success] at run
      split at run
      case isTrue rejected => simp at run
      case isFalse passed => exact ⟨r,t,fetched,success,passed,u,run⟩
    · rw [blVerifyImage,returnedThen fetched,if_pos success] at run
      cases run

theorem truncatedRejected (genuine : E.Genuine) {total : UInt32}
    (complete : CompleteImage d.flash data total)
    (accepted : Returns (blVerifyImage E data total) d 1) :
    Returns (blVerifyImage E data size) d 0 ↔ size.toNat < imageHeaderSize ∨
      size.toNat < fullSize (headerIn d.flash data.toNat) := by
  obtain ⟨r,t,parts⟩ := acceptedParts accepted
  have header : headerAt r.2 E.buf = headerIn d.flash data.toNat := by
    rw [flashReadGenuine E genuine data.toNat_lt parts.fetched parts.success]
    exact headerDelivered d.flash E.stack data.toNat E.buf
  have plain : u32 (fullSize (headerIn d.flash data.toNat)) =
      fullSize (headerIn d.flash data.toNat) := by
    have length := complete.length
    have bound := total.toNat_lt
    exact u32Small (by omega)
  have magic : (headerIn d.flash data.toNat).ihMagic = imageMagic := by
    have passed := parts.passed
    rw [header] at passed
    simp only [HeaderRejected,not_or,not_not] at passed
    exact passed.2.1
  have rejected : HeaderRejected (headerAt r.2 E.buf) size ↔ size.toNat < imageHeaderSize ∨
      size.toNat < fullSize (headerIn d.flash data.toNat) := by
    rw [header]
    simp only [HeaderRejected,magic,plain,ne_eq,not_true_eq_false,false_or]
  unfold Returns
  rw [verifyAfterHeader parts.fetched parts.success,← rejected]
  constructor
  · rintro ⟨u,run⟩
    split at run
    case isTrue short => exact short
    case isFalse =>
      obtain ⟨v,one⟩ := parts.tlvs
      rw [one] at run
      simp at run
  · intro short
    exact ⟨t,if_pos short⟩

end Extent

/-- Header, four bytes of body and eight of TLVs: 44 in all, of which 36 are declared. -/
def smallImage : Device :=
  holding 2359296 (headerBytes 32 0 4 ++ [0xde,0xad,0xbe,0xef,0x07,0x69,8,0,0x10,0,0,0])

theorem smallImageAccepted {size : UInt32} (enough : 36 ≤ size.toNat) :
    Returns (blVerifyImage (bench Build.shipped allDone) 2359296 size) smallImage 1 := by
  have faultless := benchFaultless Build.shipped
  rcases verdictFaultless faultless 2359296 size smallImage with ⟨_,one⟩ | ⟨rejected,_⟩
  · exact one
  · have header : (headerIn smallImage.flash 2359296).ihMagic = imageMagic ∧
        u32 (fullSize (headerIn smallImage.flash 2359296)) = 36 ∧
        (headerIn smallImage.flash 2359296).ihProtectTlvSize = 0 := by decide
    have info : (infoIn smallImage.flash
        (2359296 + fullSize (headerIn smallImage.flash 2359296))).itMagic = imageTlvInfoMagic := by decide
    refine absurd ⟨?_,header.1,?_,.inl header.2.2,info⟩ rejected
    · exact Nat.le_trans (by decide) enough
    · change u32 (fullSize (headerIn smallImage.flash 2359296)) ≤ size.toNat
      rw [header.2.1]
      exact enough

theorem smallImageComplete : CompleteImage smallImage.flash 2359296 44 := by constructor <;> decide

theorem truncatedAccepted : ∃ E : Env, E.Genuine ∧ ∃ d : Device, ∃ data total size : UInt32,
    CompleteImage d.flash data total ∧ Returns (blVerifyImage E data total) d 1 ∧
    size < total ∧ ¬ Returns (blVerifyImage E data size) d 0 := by
  refine ⟨bench Build.shipped allDone,benchGenuine _,smallImage,2359296,44,36,smallImageComplete,
    smallImageAccepted (by decide),by decide,?_⟩
  rintro ⟨t,zero⟩
  obtain ⟨u,one⟩ := smallImageAccepted (show 36 ≤ (36 : UInt32).toNat by decide)
  rw [one] at zero
  simp at zero

theorem truncatedRejectedOnSmall :
    Returns (blVerifyImage (bench Build.shipped allDone) 2359296 20) smallImage 0 ↔
      (20 : UInt32).toNat < imageHeaderSize ∨
      (20 : UInt32).toNat < fullSize (headerIn smallImage.flash 2359296) :=
  truncatedRejected (benchGenuine _) smallImageComplete (smallImageAccepted (by decide))

/-! The bytes that acceptance demands, given the header: the magic of the trailing TLV
info and, with protected TLVs, the four bytes of theirs. -/

def demand16 (addr : Nat) (v : UInt16) : List (Nat × UInt8) :=
  [(u32 addr,UInt8.ofNat v.toNat),(u32 (addr + 1),UInt8.ofNat (v.toNat / 256))]

def demands (h : ImageHeader) (data : Nat) : List (Nat × UInt8) :=
  demand16 (data + fullSize h) imageTlvInfoMagic ++
    if h.ihProtectTlvSize = 0 then []
    else demand16 (data + tlvInfoOffset h) imageTlvProtInfoMagic ++
      demand16 (data + tlvInfoOffset h + 2) h.ihProtectTlvSize

def InRange (data size : UInt32) (a : Nat) : Prop :=
  ∃ i, i < size.toNat ∧ a = u32 (data.toNat + i)

structure HeaderAccepted (h : ImageHeader) (size : UInt32) : Prop where
  passed : ¬ HeaderRejected h size
  sized : h.ihProtectTlvSize = 0 ∨ imageTlvInfoSize ≤ h.ihProtectTlvSize.toNat

structure Undecided (f : Bytes) (data size : UInt32) : Prop where
  header : HeaderAccepted (headerIn f data.toNat) size
  kept : ∀ x ∈ demands (headerIn f data.toNat) data.toNat, InRange data size x.1 → f x.1 = x.2
  beyond : ∃ x ∈ demands (headerIn f data.toNat) data.toNat, ¬ InRange data size x.1

section Range

theorem le16Meets (f : Bytes) (addr : Nat) (v : UInt16) :
    le16 (flashAt f addr) 0 = v ↔ Meets f (demand16 addr v) := by
  have bound := v.toNat_lt
  have low := (f (u32 addr)).toNat_lt
  have high := (f (u32 (addr + 1))).toNat_lt
  have low' : f (u32 addr) = UInt8.ofNat v.toNat ↔ (f (u32 addr)).toNat = v.toNat % 256 := by
    rw [← UInt8.toNat_inj]
    simp
  have high' : f (u32 (addr + 1)) = UInt8.ofNat (v.toNat / 256) ↔
      (f (u32 (addr + 1))).toNat = v.toNat / 256 := by
    rw [← UInt8.toNat_inj]
    simp
    omega
  simp only [Meets,demand16,List.mem_cons,List.not_mem_nil,or_false,forall_eq_or_imp,forall_eq,
    low',high']
  rw [← UInt16.toNat_inj,le16]
  simp only [flashAt,Nat.add_zero,Nat.zero_add,UInt16.toNat_ofNat']
  omega

theorem infoMeets (f : Bytes) (addr : Nat) (v : ImageTlvInfo) : infoIn f addr = v ↔
    Meets f (demand16 addr v.itMagic ++ demand16 (addr + 2) v.itTlvTot) := by
  have second : le16 (flashAt f addr) 2 = le16 (flashAt f (addr + 2)) 0 := by
    apply le16Congr
    intro i _
    rw [flashAt,flashAt,Nat.zero_add,Nat.add_assoc]
  obtain ⟨itMagic,itTlvTot⟩ := v
  rw [meetsAppend,← le16Meets,← le16Meets,← second]
  simp only [infoIn,tlvInfoAt,ImageTlvInfo.mk.injEq,Nat.zero_add]

theorem acceptsDemands (f : Bytes) (data size : UInt32) :
    Accepts f (some (infoIn f (data.toNat + tlvInfoOffset (headerIn f data.toNat)))) data size ↔
      HeaderAccepted (headerIn f data.toNat) size ∧
      Meets f (demands (headerIn f data.toNat) data.toNat) := by
  unfold Accepts demands ProtectedAccepted
  generalize headerIn f data.toNat = h
  have trailing : (infoIn f (data.toNat + fullSize h)).itMagic = imageTlvInfoMagic ↔
      Meets f (demand16 (data.toNat + fullSize h) imageTlvInfoMagic) := le16Meets _ _ _
  have guarded := infoMeets f (data.toNat + tlvInfoOffset h) ⟨imageTlvProtInfoMagic,h.ihProtectTlvSize⟩
  have passed : ¬ HeaderRejected h size ↔ imageHeaderSize ≤ size.toNat ∧ h.ihMagic = imageMagic ∧
      u32 (fullSize h) ≤ size.toNat := by
    simp only [HeaderRejected,not_or,not_not,Nat.not_lt]
  rw [meetsAppend,← trailing,Option.some_inj,guarded]
  by_cases none : h.ihProtectTlvSize = 0
  · rw [if_pos none]
    constructor
    · rintro ⟨enough,magic,fits,_,last⟩
      exact ⟨⟨passed.mpr ⟨enough,magic,fits⟩,.inl none⟩,last,by simp [Meets]⟩
    · rintro ⟨header,last,_⟩
      obtain ⟨enough,magic,fits⟩ := passed.mp header.passed
      exact ⟨enough,magic,fits,.inl none,last⟩
  · rw [if_neg none]
    constructor
    · rintro ⟨enough,magic,fits,protected',last⟩
      have info := protected'.resolve_left none
      exact ⟨⟨passed.mpr ⟨enough,magic,fits⟩,.inr info.1⟩,last,info.2⟩
    · rintro ⟨header,last,meets⟩
      obtain ⟨enough,magic,fits⟩ := passed.mp header.passed
      exact ⟨enough,magic,fits,.inr ⟨header.sized.resolve_left none,meets⟩,last⟩

theorem demandsDistinct {h : ImageHeader} {size : UInt32} (header : HeaderAccepted h size)
    (data : Nat) : (demands h data).Pairwise (fun x y => x.1 ≠ y.1) := by
  have bound := h.ihProtectTlvSize.toNat_lt
  unfold demands fullSize tlvInfoOffset demand16 u32
  split
  · simp
    omega
  · rename_i present
    have sized := header.sized.resolve_left present
    simp only [imageTlvInfoSize] at sized
    simp
    omega

theorem headerKept {f g : Bytes} {data size : UInt32} (enough : imageHeaderSize ≤ size.toNat)
    (agree : AgreeAt (InRange data size) f g) : headerIn g data.toNat = headerIn f data.toNat := by
  apply headerCongr
  intro i small
  exact agree _ ⟨0 + i,by omega,rfl⟩

theorem acceptsSettled (f : Bytes) (data size : UInt32) :
    (∀ g, AgreeAt (InRange data size) f g →
      (Accepts g (some (infoIn g (data.toNat + tlvInfoOffset (headerIn g data.toNat)))) data size ↔
        Accepts f (some (infoIn f (data.toNat + tlvInfoOffset (headerIn f data.toNat)))) data size)) ↔
      ¬ Undecided f data size := by
  have twoBytes : Nontrivial UInt8 := ⟨0,1,by decide⟩
  simp only [acceptsDemands]
  by_cases header : HeaderAccepted (headerIn f data.toNat) size
  · have enough : imageHeaderSize ≤ size.toNat := by
      have passed := header.passed
      simp only [HeaderRejected,not_or,Nat.not_lt] at passed
      exact passed.1
    have open' : Undecided f data size ↔
        (∀ x ∈ demands (headerIn f data.toNat) data.toNat, InRange data size x.1 → f x.1 = x.2) ∧
        ∃ x ∈ demands (headerIn f data.toNat) data.toNat, ¬ InRange data size x.1 :=
      ⟨fun h => ⟨h.kept,h.beyond⟩,fun h => ⟨header,h.1,h.2⟩⟩
    rw [open',← settledIff (demandsDistinct header data.toNat)]
    constructor
    · intro settled g agree
      have same := settled g agree
      rw [headerKept enough agree] at same
      simpa only [header,true_and] using same
    · intro settled g agree
      rw [headerKept enough agree]
      simpa only [header,true_and] using settled g agree
  · constructor
    · intro _ h
      exact header h.header
    · intro _ g agree
      have header' : ¬ HeaderAccepted (headerIn g data.toNat) size := by
        intro h
        have passed := h.passed
        simp only [HeaderRejected,not_or,Nat.not_lt] at passed
        rw [headerKept passed.1 agree] at h
        exact header h
      simp only [header,header',false_and]

theorem verdictSettled {E : Env} (faultless : E.Faultless) (d : Device) (data size : UInt32) :
    (∃ v, ∀ d', AgreeAt (InRange data size) d.flash d'.flash →
      Returns (blVerifyImage E data size) d' v) ↔ ¬ Undecided d.flash data size := by
  have run := verdictFaultless faultless data size
  rw [← acceptsSettled]
  constructor
  · rintro ⟨v,same⟩ g agree
    have here := decidesValue (run d) (same d (fun _ _ => rfl))
    have there := decidesValue (run {d with flash := g}) (same {d with flash := g} agree)
    rcases here with ⟨yes,one⟩ | ⟨no,zero⟩
    · rcases there with ⟨yes',_⟩ | ⟨_,zero⟩
      · exact iff_of_true yes' yes
      · rw [one] at zero
        contradiction
    · rcases there with ⟨_,one⟩ | ⟨no',_⟩
      · rw [zero] at one
        contradiction
      · exact iff_of_false no' no
  · intro settled
    rcases run d with ⟨yes,_⟩ | ⟨no,_⟩
    · refine ⟨1,?_⟩
      intro d' agree
      rcases run d' with ⟨_,one⟩ | ⟨no,_⟩
      · exact one
      · exact absurd ((settled d'.flash agree).mpr yes) no
    · refine ⟨0,?_⟩
      intro d' agree
      rcases run d' with ⟨yes,_⟩ | ⟨_,zero⟩
      · exact absurd ((settled d'.flash agree).mp yes) no
      · exact zero

end Range

def bareHeader : Device := holding 2359296 (headerBytes 32 0 0)
def staleTlvInfo : Device := holding 2359296 (headerBytes 32 0 0 ++ [0x07,0x69,4,0])

theorem staleTlvInfoAgrees :
    AgreeAt (InRange 2359296 32) bareHeader.flash staleTlvInfo.flash := by
  have same : ∀ i, i < 32 →
      staleTlvInfo.flash (u32 (2359296 + i)) = bareHeader.flash (u32 (2359296 + i)) := by decide
  rintro a ⟨i,inside,rfl⟩
  exact same i inside

theorem verdictUnsettled : ∃ E : Env, E.Faultless ∧ ∃ d d' : Device, ∃ data size : UInt32,
    AgreeAt (InRange data size) d.flash d'.flash ∧
    Returns (blVerifyImage E data size) d 0 ∧ Returns (blVerifyImage E data size) d' 1 := by
  have faultless := benchFaultless Build.shipped
  refine ⟨_,faultless,bareHeader,staleTlvInfo,2359296,32,staleTlvInfoAgrees,?_,?_⟩
  · rcases verdictFaultless faultless 2359296 32 bareHeader with ⟨yes,_⟩ | ⟨_,zero⟩
    · exact absurd yes (by decide)
    · exact zero
  · rcases verdictFaultless faultless 2359296 32 staleTlvInfo with ⟨_,one⟩ | ⟨no,_⟩
    · exact one
    · exact absurd (by decide) no

theorem verdictSettledOnSmall :
    (∃ v, ∀ d', AgreeAt (InRange 2359296 44) smallImage.flash d'.flash →
      Returns (blVerifyImage (bench Build.shipped allDone) 2359296 44) d' v) ↔
      ¬ Undecided smallImage.flash 2359296 44 :=
  verdictSettled (benchFaultless Build.shipped) smallImage 2359296 44

end AkNano.ImageExtent
