import AkNano.VerifyImage

/-! The verdict of `bl_verify_image` as a condition on flash bytes. Only the protected
TLV info can be fetched from outside the range that the size check covers, so the
verdict takes it as `flash_read` delivered it. -/
namespace AkNano.ImageVerdict
open Memory Interrupted Platform FlashRead VerifyImage

def deliveredInfo (E : Env) (addr : UInt32) (buffer : Bytes) (d : Device) : Option ImageTlvInfo :=
  match flashRead E addr.toNat E.buf buffer imageTlvInfoSize d with
  | .ok r _ => if r.1 = kStatusSuccess then some (tlvInfoAt r.2 E.buf) else none
  | .error _ _ => none

def protectedInfo (E : Env) (data : UInt32) (d : Device) : Option ImageTlvInfo :=
  match flashRead E data.toNat E.buf E.stack imageHeaderSize d with
  | .ok r t => deliveredInfo E (tlvStart (headerAt r.2 E.buf) data) r.2 t
  | .error _ _ => none

def ProtectedAccepted (h : ImageHeader) (delivered : Option ImageTlvInfo) : Prop :=
  h.ihProtectTlvSize = 0 ∨ (imageTlvInfoSize ≤ h.ihProtectTlvSize.toNat ∧
    delivered = some ⟨imageTlvProtInfoMagic,h.ihProtectTlvSize⟩)

def Accepts (f : Bytes) (delivered : Option ImageTlvInfo) (data size : UInt32) : Prop :=
  imageHeaderSize ≤ size.toNat ∧ (headerIn f data.toNat).ihMagic = imageMagic ∧
  u32 (fullSize (headerIn f data.toNat)) ≤ size.toNat ∧
  ProtectedAccepted (headerIn f data.toNat) delivered ∧
  (infoIn f (data.toNat + fullSize (headerIn f data.toNat))).itMagic = imageTlvInfoMagic

instance (h o) : Decidable (ProtectedAccepted h o) := by unfold ProtectedAccepted; infer_instance
instance (f o data size) : Decidable (Accepts f o data size) := by unfold Accepts; infer_instance

def Returns (p : Fw Int) (d : Device) (v : Int) : Prop := ∃ t, p d = .ok v t

def Decides (p : Fw Int) (d : Device) (accepted : Prop) : Prop :=
  accepted ∧ Returns p d 1 ∨ ¬ accepted ∧ Returns p d 0

theorem decidesCongr {p : Fw Int} {d : Device} {a b : Prop} (same : a ↔ b) (h : Decides p d a) :
    Decides p d b := by
  rcases h with ⟨yes,one⟩ | ⟨no,zero⟩
  · exact .inl ⟨same.mp yes,one⟩
  · exact .inr ⟨fun h => no (same.mpr h),zero⟩

theorem decidesValue {p : Fw Int} {d : Device} {a : Prop} {v : Int} (h : Decides p d a)
    (returned : Returns p d v) : a ∧ v = 1 ∨ ¬ a ∧ v = 0 := by
  obtain ⟨t,run⟩ := returned
  rcases h with ⟨yes,u,one⟩ | ⟨no,u,zero⟩
  · rw [one] at run
    cases run
    exact .inl ⟨yes,rfl⟩
  · rw [zero] at run
    cases run
    exact .inr ⟨no,rfl⟩

theorem decidesReturns {p : Fw Int} {d : Device} {a : Prop} (h : Decides p d a) (v : Int) :
    Returns p d v ↔ a ∧ v = 1 ∨ ¬ a ∧ v = 0 := by
  constructor
  · exact decidesValue h
  · rcases h with ⟨yes,one⟩ | ⟨no,zero⟩
    · rintro (⟨_,rfl⟩ | ⟨no,_⟩)
      · exact one
      · exact absurd yes no
    · rintro (⟨yes,_⟩ | ⟨_,rfl⟩)
      · exact absurd yes no
      · exact zero

theorem decidesUnique {p : Fw Int} {d : Device} {a b : Prop} (first : Decides p d a)
    (second : Decides p d b) : a ↔ b := by
  rcases second with ⟨yes,one⟩ | ⟨no,zero⟩
  · rcases decidesValue first one with ⟨yes',_⟩ | ⟨_,bad⟩
    · exact iff_of_true yes' yes
    · contradiction
  · rcases decidesValue first zero with ⟨_,bad⟩ | ⟨no',_⟩
    · contradiction
    · exact iff_of_false no' no

theorem infoDiffers {it : ImageTlvInfo} {magic tot : UInt16} :
    it.itMagic ≠ magic ∨ it.itTlvTot ≠ tot ↔ it ≠ ⟨magic,tot⟩ := by
  obtain ⟨itMagic,itTlvTot⟩ := it
  simp only [ne_eq,ImageTlvInfo.mk.injEq,not_and_or]

section Verdict

variable (E : Env)

theorem checkProtectedQuiet (data : UInt32) (buffer : Bytes) (d : Device) :
    Ended (checkProtectedTlvs E data buffer) d (fun _ t => Quiet d t) := by
  unfold checkProtectedTlvs
  dsimp only
  split
  case isFalse absent => exact endsPure (quietRefl d)
  case isTrue present =>
    split
    case isTrue short => exact endsPure (quietRefl d)
    case isFalse sized =>
      refine endsThen (flashReadConfined E buffer d (UInt32.toNat_lt _)) ?_ (fun _ h => h.quiet)
      intro r t h
      split
      · exact endsPure h.1
      · split
        · exact endsPure h.1
        · exact endsPure h.1

theorem checkTlvsQuiet (data : UInt32) (ih : ImageHeader) (buffer : Bytes) (d : Device) :
    Ended (checkTlvs E data ih buffer) d (fun _ t => Quiet d t) := by
  unfold checkTlvs
  refine endedThen (checkProtectedQuiet E data buffer d) ?_ (fun _ h => h)
  intro o t quiet
  cases o with
  | none => exact endsPure quiet
  | some buffer =>
    refine endsThen (flashReadConfined E buffer t (UInt32.toNat_lt _)) ?_
      (fun _ h => quietTrans quiet h.quiet)
    intro r u h
    have after := quietTrans quiet h.1
    split
    · exact endsPure after
    · split
      · exact endsPure after
      · exact endsPure after

theorem verifyImageQuiet (data size : UInt32) (d : Device) :
    Ended (blVerifyImage E data size) d (fun _ t => Quiet d t) := by
  unfold blVerifyImage
  refine endsThen (flashReadConfined E E.stack d (UInt32.toNat_lt _)) ?_ (fun _ h => h.quiet)
  intro r t h
  split
  · exact endsPure h.1
  · dsimp only
    split
    · exact endsPure h.1
    · split
      · exact endsPure h.1
      · split
        · exact endsPure h.1
        · exact endedMono (checkTlvsQuiet E data _ r.2 t) (fun _ _ later => quietTrans h.1 later)

variable {E}

theorem checkProtectedExact (power : E.NoCut) (data : UInt32) (buffer : Bytes) (d : Device) :
    ∃ o t, Quiet d t ∧ checkProtectedTlvs E data buffer d = .ok o t ∧
      (o.isSome = true ↔ ProtectedAccepted (headerAt buffer E.buf)
        (deliveredInfo E (tlvStart (headerAt buffer E.buf) data) buffer d)) := by
  unfold checkProtectedTlvs ProtectedAccepted
  generalize hih : headerAt buffer E.buf = ih
  dsimp only
  split
  case isFalse absent =>
    have none : ih.ihProtectTlvSize = 0 := by
      have zero := UInt16.not_lt.mp absent
      exact UInt16.le_zero_iff.mp zero
    exact ⟨some buffer,d,quietRefl d,rfl,by simp [none]⟩
  case isTrue present =>
    have some' : ih.ihProtectTlvSize ≠ 0 := UInt16.pos_iff_ne_zero.mp present
    split
    case isTrue short =>
      refine ⟨none,d,quietRefl d,rfl,?_⟩
      simp [some',Nat.not_le.mpr short]
    case isFalse sized =>
      have enough : imageTlvInfoSize ≤ ih.ihProtectTlvSize.toNat := Nat.not_lt.mp sized
      obtain ⟨r,t,run,quiet,off⟩ := flashReadReturns E power buffer d
        (UInt32.toNat_lt (tlvStart ih data)) E.buf imageTlvInfoSize
      have size : (headerAt r.2 E.buf).ihProtectTlvSize = ih.ihProtectTlvSize := by
        rw [protectSizeKept off,hih]
      rw [returnedThen run,deliveredInfo,run]
      dsimp only
      split
      case isTrue failed =>
        refine ⟨none,t,quiet,rfl,?_⟩
        simp [some']
      case isFalse done =>
        rw [if_pos (not_not.mp done),size]
        split
        case isTrue wrong =>
          refine ⟨none,t,quiet,rfl,?_⟩
          simp [some',infoDiffers.mp wrong]
        case isFalse right =>
          refine ⟨some r.2,t,quiet,rfl,?_⟩
          simp [enough,not_not.mp (infoDiffers.not.mp right)]

section Reads

variable {limit : Nat} (aligned : limit % 4 = 0) (bounded : limit ≤ 4294967296)
variable (reads : E.ReadsSucceed limit)

include aligned bounded reads

theorem headerRead (data : UInt32) (d : Device)
    (inside : ∀ i, i < imageHeaderSize → u32 (data.toNat + i) < limit) :
    ∃ buffer t, Quiet d t ∧ flashRead E data.toNat E.buf E.stack imageHeaderSize d =
      .ok (kStatusSuccess,buffer) t ∧ headerAt buffer E.buf = headerIn d.flash data.toNat := by
  obtain ⟨t,quiet,run⟩ :=
    flashReadExact E aligned bounded reads E.stack d data.toNat_lt inside E.buf
  exact ⟨_,t,quiet,run,headerDelivered d.flash E.stack data.toNat E.buf⟩

theorem infoRead {addr : UInt32} {place : Nat} (wraps : addr.toNat = u32 place) (mem : Bytes)
    (d : Device) (inside : ∀ i, i < imageTlvInfoSize → u32 (place + i) < limit) :
    ∃ buffer t, Quiet d t ∧ flashRead E addr.toNat E.buf mem imageTlvInfoSize d =
      .ok (kStatusSuccess,buffer) t ∧ tlvInfoAt buffer E.buf = infoIn d.flash place := by
  have inside' : ∀ i, i < imageTlvInfoSize → u32 (addr.toNat + i) < limit := by
    intro i small
    rw [wraps,u32Add]
    exact inside i small
  obtain ⟨t,quiet,run⟩ := flashReadExact E aligned bounded reads mem d addr.toNat_lt inside' E.buf
  have delivered := infoDelivered d.flash mem addr.toNat E.buf
  have same : infoIn d.flash addr.toNat = infoIn d.flash place := by
    rw [infoIn,infoIn,wraps,flashAtWraps]
  exact ⟨_,t,quiet,run,delivered.trans same⟩

theorem checkTlvsExact (power : E.NoCut) (data : UInt32) (buffer : Bytes) (d : Device)
    (reach : ∀ i, i < imageTlvInfoSize →
      u32 (data.toNat + fullSize (headerAt buffer E.buf) + i) < limit) :
    Decides (checkTlvs E data (headerAt buffer E.buf) buffer) d
      (ProtectedAccepted (headerAt buffer E.buf)
          (deliveredInfo E (tlvStart (headerAt buffer E.buf) data) buffer d) ∧
        (infoIn d.flash (data.toNat + fullSize (headerAt buffer E.buf))).itMagic =
          imageTlvInfoMagic) := by
  obtain ⟨o,t,quiet,run,accepted⟩ := checkProtectedExact power data buffer d
  generalize headerAt buffer E.buf = ih at reach accepted ⊢
  unfold Decides Returns
  rw [checkTlvs,returnedThen run,← accepted]
  cases o with
  | none => exact .inr ⟨by simp,t,rfl⟩
  | some next =>
    have wraps : (data + declSize ih).toNat = u32 (data.toNat + fullSize ih) := by
      rw [UInt32.toNat_add,declSizeWraps]
      unfold u32
      omega
    obtain ⟨last,u,_,fetched,read⟩ := infoRead aligned bounded reads wraps next t reach
    rw [quiet.flash] at read
    dsimp only
    rw [returnedThen fetched,if_neg (by simp),read]
    split
    case isTrue wrong => exact .inr ⟨fun h => wrong h.2,u,rfl⟩
    case isFalse right => exact .inl ⟨⟨rfl,not_not.mp right⟩,u,rfl⟩

end Reads

def HeaderRejected (ih : ImageHeader) (size : UInt32) : Prop :=
  size.toNat < imageHeaderSize ∨ ih.ihMagic ≠ imageMagic ∨ size.toNat < u32 (fullSize ih)

instance (ih size) : Decidable (HeaderRejected ih size) := by unfold HeaderRejected; infer_instance

theorem verifyAfterHeader {data size : UInt32} {d t : Device} {r : Status × Bytes}
    (run : flashRead E data.toNat E.buf E.stack imageHeaderSize d = .ok r t)
    (ok : r.1 = kStatusSuccess) : blVerifyImage E data size d =
      if HeaderRejected (headerAt r.2 E.buf) size then .ok 0 t
      else checkTlvs E data (headerAt r.2 E.buf) r.2 t := by
  have fits : size < declSize (headerAt r.2 E.buf) ↔
      size.toNat < u32 (fullSize (headerAt r.2 E.buf)) := by
    rw [UInt32.lt_iff_toNat_lt,declSizeWraps]
  rw [blVerifyImage,returnedThen run,if_neg (by simp [ok])]
  generalize headerAt r.2 E.buf = ih at fits ⊢
  split
  case isTrue short =>
    have rejected : HeaderRejected ih size := .inl short
    rw [if_pos rejected]
    rfl
  case isFalse long =>
    split
    case isTrue magic =>
      have rejected : HeaderRejected ih size := .inr (.inl magic)
      rw [if_pos rejected]
      rfl
    case isFalse magic =>
      split
      case isTrue big =>
        have rejected : HeaderRejected ih size := .inr (.inr (fits.mp big))
        rw [if_pos rejected]
        rfl
      case isFalse room =>
        have kept : ¬ HeaderRejected ih size := by
          rintro (h | h | h)
          · exact long h
          · exact magic h
          · exact room (fits.mpr h)
        rw [if_neg kept]

theorem shortRejected (power : E.NoCut) {data size : UInt32} (d : Device)
    (short : size.toNat < imageHeaderSize) : Returns (blVerifyImage E data size) d 0 := by
  obtain ⟨r,t,run,_,_⟩ := flashReadReturns E power E.stack d data.toNat_lt E.buf imageHeaderSize
  refine ⟨t,?_⟩
  by_cases ok : r.1 = kStatusSuccess
  · rw [verifyAfterHeader run ok,if_pos (.inl short)]
  · rw [blVerifyImage,returnedThen run,if_pos ok]
    rfl

def tlvInfoOffset (ih : ImageHeader) : Nat := ih.ihHdrSize.toNat + ih.ihImgSize.toNat

section Exact

variable {limit : Nat} (aligned : limit % 4 = 0) (bounded : limit ≤ 4294967296)
variable (reads : E.ReadsSucceed limit)

include aligned bounded reads

theorem verdictExact (power : E.NoCut) (data size : UInt32) (d : Device)
    (reach : ∀ i, i < size.toNat + imageTlvInfoSize → u32 (data.toNat + i) < limit) :
    Decides (blVerifyImage E data size) d (Accepts d.flash (protectedInfo E data d) data size) := by
  simp only [imageTlvInfoSize] at reach
  by_cases short : size.toNat < imageHeaderSize
  · exact .inr ⟨fun h => absurd h.1 (Nat.not_le.mpr short),shortRejected power d short⟩
  · have long : imageHeaderSize ≤ size.toNat := Nat.not_lt.mp short
    obtain ⟨buffer,t,quiet,run,header⟩ :=
      headerRead aligned bounded reads data d (fun i small => reach i (by omega))
    have info : protectedInfo E data d =
        deliveredInfo E (tlvStart (headerAt buffer E.buf) data) buffer t := by
      rw [protectedInfo,run]
    unfold Decides Returns
    rw [verifyAfterHeader run rfl,info]
    unfold Accepts
    rw [← header]
    dsimp only
    split
    case isTrue rejected =>
      refine .inr ⟨?_,t,rfl⟩
      rintro ⟨_,magic,fits,_⟩
      rcases rejected with h | h | h
      · exact short h
      · exact h magic
      · exact absurd fits (Nat.not_le.mpr h)
    case isFalse kept =>
      simp only [HeaderRejected,not_or,not_not,Nat.not_lt] at kept
      obtain ⟨_,magic,room⟩ := kept
      have tail : ∀ i, i < imageTlvInfoSize →
          u32 (data.toNat + fullSize (headerAt buffer E.buf) + i) < limit := by
        intro i four
        have within := reach (u32 (fullSize (headerAt buffer E.buf)) + i)
          (by simp only [imageTlvInfoSize] at four; omega)
        unfold u32 at within ⊢
        omega
      have rest := checkTlvsExact aligned bounded reads power data buffer t tail
      rw [quiet.flash] at rest
      simp only [long,magic,room,true_and]
      exact rest

theorem protectedInfoExact (data : UInt32) (d : Device)
    (header : ∀ i, i < imageHeaderSize → u32 (data.toNat + i) < limit)
    (info : ∀ i, i < imageTlvInfoSize →
      u32 (data.toNat + tlvInfoOffset (headerIn d.flash data.toNat) + i) < limit) :
    protectedInfo E data d =
      some (infoIn d.flash (data.toNat + tlvInfoOffset (headerIn d.flash data.toNat))) := by
  obtain ⟨buffer,t,quiet,run,delivered⟩ := headerRead aligned bounded reads data d header
  have wraps : (tlvStart (headerIn d.flash data.toNat) data).toNat =
      u32 (data.toNat + tlvInfoOffset (headerIn d.flash data.toNat)) := by
    rw [tlvStartWraps,tlvInfoOffset,Nat.add_assoc]
  obtain ⟨last,u,_,fetched,read⟩ := infoRead aligned bounded reads wraps buffer t info
  rw [quiet.flash] at read
  rw [protectedInfo,run]
  dsimp only
  rw [delivered,deliveredInfo,fetched]
  dsimp only
  rw [if_pos rfl,read]

end Exact

theorem verdictFaultless (faultless : E.Faultless) (data size : UInt32) (d : Device) :
    Decides (blVerifyImage E data size) d (Accepts d.flash
      (some (infoIn d.flash (data.toNat + tlvInfoOffset (headerIn d.flash data.toNat)))) data size) := by
  have reads := faultless.reads 4294967296
  have exact' := verdictExact (by decide) (Nat.le_refl _) reads faultless.noCut data size d
    (fun i _ => u32Bound _)
  rwa [protectedInfoExact (by decide) (Nat.le_refl _) reads data d (fun i _ => u32Bound _)
    (fun i _ => u32Bound _)] at exact'

end Verdict

end AkNano.ImageVerdict
