import AkNano.SwapState

/-! The two slots as flash windows, their trailers, and the three ways the update code
rewrites them: a wiped last sector, a slot marked for test, a confirmed slot. All
results here are about flash contents; no driver call is involved. -/
namespace AkNano.SlotLayout
open Memory Platform SwapState

inductive Slot where
  | primary | secondary
  deriving DecidableEq, Repr

def Slot.other : Slot → Slot
  | .primary => .secondary
  | .secondary => .primary

def Slot.start : Slot → Nat
  | .primary => 262144
  | .secondary => 2359296

def Slot.stop : Slot → Nat
  | .primary => 2359296
  | .secondary => 4456448

def slotSize : Nat := 2097152
def slotsEnd : Nat := 4456448

def activeSlot (E : Env) (d : Device) : Slot :=
  if getActiveImage E d = primarySlotActive then .primary else .secondary

theorem otherOther (s : Slot) : s.other.other = s := by cases s <;> rfl

theorem stopEq (s : Slot) : s.stop = s.start + 2097152 := by cases s <;> rfl

theorem startCases (s : Slot) : s.start = 262144 ∧ s.other.start = 2359296 ∨
    s.start = 2359296 ∧ s.other.start = 262144 := by cases s <;> decide

theorem areaOffsets (b : BoardModel) :
    flashAreaImage1Offset b = Slot.primary.start ∧ flashAreaImage2Offset b = Slot.secondary.start ∧
    flashAreaImage1Offset b + flashAreaImage1Size b = Slot.primary.stop ∧
    flashAreaImage2Offset b + flashAreaImage2Size b = Slot.secondary.stop := by cases b <;> decide

def Candidate (t : ImageTrailer) : Prop := t.magic = bootImgMagicBytes ∧ t.copyDone = 1
def Confirmed (t : ImageTrailer) : Prop := Candidate t ∧ t.imageOk = 1
def Pending (t : ImageTrailer) : Prop := Candidate t ∧ t.imageOk ≠ 1
def Awaiting (t : ImageTrailer) : Prop := Candidate t ∧ t.imageOk = 0xff

instance (t) : Decidable (Candidate t) := by unfold Candidate; infer_instance
instance (t) : Decidable (Confirmed t) := by unfold Confirmed; infer_instance
instance (t) : Decidable (Pending t) := by unfold Pending; infer_instance
instance (t) : Decidable (Awaiting t) := by unfold Awaiting; infer_instance

theorem awaitingPending {t} (h : Awaiting t) : Pending t :=
  ⟨h.1,by rw [h.2]; decide⟩

theorem pendingNotConfirmed {t} (h : Pending t) : ¬ Confirmed t := fun c => h.2 c.2

theorem confirmedNotAwaiting {t} (h : Confirmed t) : ¬ Awaiting t :=
  fun awaiting => pendingNotConfirmed (awaitingPending awaiting) h

def erasedTrailer : ImageTrailer := trailerAt (fun _ => 0xff) 0
def markedTrailer : ImageTrailer := {erasedTrailer with magic := bootImgMagicBytes}
def confirmedTrailer (t : ImageTrailer) : ImageTrailer := {t with imageOk := 1}

theorem erasedNotCandidate : ¬ Candidate erasedTrailer := by decide

theorem confirmedOfPending {t} (h : Pending t) : Confirmed (confirmedTrailer t) := ⟨h.1,rfl⟩

def trailerBytes (copyDone imageOk : UInt8) : List UInt8 :=
  List.replicate 8 0xff ++ copyDone :: List.replicate 7 0xff ++ imageOk :: List.replicate 7 0xff ++
    bootImgMagicBytes

def trailerOf (f : Bytes) (s : Slot) : ImageTrailer := trailerAt f (s.stop - imageTrailerSize)

def wiped (f : Bytes) (s : Slot) : Bytes := erase f (s.stop - mflashSectorSize) mflashSectorSize 0xff

def rewritten (f : Bytes) (s : Slot) (page : Bytes) : Bytes :=
  overlay (wiped f s) (s.stop - mflashPageSize) mflashPageSize page

def markedPage : Bytes := fun i =>
  if i < trailerInPage + magicOffset then 0xff
  else bootImgMagicBytes.getD (i - (trailerInPage + magicOffset)) 0

def confirmedPage (f : Bytes) (s : Slot) : Bytes := fun i =>
  if i = trailerInPage + imageOkOffset then 1 else f (s.stop - mflashPageSize + i)

def marked (f : Bytes) (s : Slot) : Bytes := rewritten f s markedPage
def confirmed (f : Bytes) (s : Slot) : Bytes := rewritten f s (confirmedPage f s)
def headerErased (f : Bytes) (s : Slot) : Bytes := erase f s.start mflashSectorSize 0xff

theorem trailerSetOk {m n : Bytes} {p q : Nat} {v : UInt8}
    (same : ∀ i, i < 40 → i ≠ 16 → m (p + i) = n (q + i)) (ok : m (p + 16) = v) :
    trailerAt m p = {trailerAt n q with imageOk := v} := by
  have run : ∀ a len, a + len ≤ 40 → (16 < a ∨ a + len ≤ 16) →
      cells m (p + a) len = cells n (q + a) len := by
    intro a len fits apart
    apply cellsEq.mpr
    intro i inside
    rw [Nat.add_assoc,Nat.add_assoc]
    exact same (a + i) (by omega) (by omega)
  have first : m p = n q := same 0 (by decide) (by decide)
  simp only [trailerAt,imageOkOffset,magicOffset,first,ok,same 8 (by decide) (by decide),
    run 1 7 (by decide) (by decide),run 9 7 (by decide) (by decide),run 17 7 (by decide) (by decide),
    run 24 16 (by decide) (by decide)]

theorem trailerCongr {m n : Bytes} {p q : Nat} (same : ∀ i, i < 40 → m (p + i) = n (q + i)) :
    trailerAt m p = trailerAt n q :=
  trailerSetOk (fun i small _ => same i small) (same 16 (by decide))

theorem trailerKept {f g : Bytes} {p len : Nat} {s : Slot} (h : AgreeOff p len f g)
    (apart : s.stop ≤ p ∨ p + len + imageTrailerSize ≤ s.stop) : trailerOf g s = trailerOf f s := by
  apply trailerCongr
  intro i small
  have layout := startCases s
  simp only [stopEq,imageTrailerSize] at apart ⊢
  exact h _ (by omega)

theorem wipedAgreeOff (f : Bytes) (s : Slot) :
    AgreeOff (s.stop - mflashSectorSize) mflashSectorSize f (wiped f s) := eraseAgreeOff _ _ _ _

theorem rewrittenAgreeOff (f : Bytes) (s : Slot) (page : Bytes) :
    AgreeOff (s.stop - mflashSectorSize) mflashSectorSize f (rewritten f s page) := by
  have layout := startCases s
  refine agreeOffTrans (wipedAgreeOff f s) (agreeOffWiden (agreeOffOverlay _ _ _ page) ?_ ?_)
  all_goals simp only [stopEq,mflashSectorSize,mflashPageSize]; omega

theorem headerErasedAgreeOff (f : Bytes) (s : Slot) :
    AgreeOff s.start mflashSectorSize f (headerErased f s) := eraseAgreeOff _ _ _ _

theorem wipedTrailer (f : Bytes) (s : Slot) : trailerOf (wiped f s) s = erasedTrailer := by
  apply trailerCongr
  intro i small
  have layout := startCases s
  have lower : s.stop - mflashSectorSize ≤ s.stop - imageTrailerSize + i := by
    simp only [stopEq,mflashSectorSize,imageTrailerSize]; omega
  have upper : s.stop - imageTrailerSize + i < s.stop - mflashSectorSize + mflashSectorSize := by
    simp only [stopEq,mflashSectorSize,imageTrailerSize]; omega
  exact eraseAt f _ _ 0xff lower upper

theorem rewrittenAt (f : Bytes) (s : Slot) (page : Bytes) {i : Nat} (small : i < 40) :
    rewritten f s page (s.stop - imageTrailerSize + i) = page (trailerInPage + i) := by
  have layout := startCases s
  have index : s.stop - imageTrailerSize + i = s.stop - mflashPageSize + (trailerInPage + i) := by
    simp only [stopEq,imageTrailerSize,mflashPageSize,trailerInPage]; omega
  rw [index]
  exact overlayIn _ _ _ _ (by simp only [mflashPageSize,trailerInPage,imageTrailerSize]; omega)

theorem markedTrailerOf (f : Bytes) (s : Slot) : trailerOf (marked f s) s = markedTrailer := by
  have page : trailerAt markedPage trailerInPage = markedTrailer := by decide
  rw [← page]
  exact trailerCongr (fun i small => rewrittenAt f s markedPage small)

theorem confirmedTrailerOf (f : Bytes) (s : Slot) :
    trailerOf (confirmed f s) s = confirmedTrailer (trailerOf f s) := by
  have layout := startCases s
  apply trailerSetOk
  · intro i small different
    have outside : ¬ trailerInPage + i = trailerInPage + imageOkOffset := by
      simp only [imageOkOffset]; omega
    have index : s.stop - mflashPageSize + (trailerInPage + i) = s.stop - imageTrailerSize + i := by
      simp only [stopEq,imageTrailerSize,mflashPageSize,trailerInPage]; omega
    rw [confirmed,rewrittenAt f s _ small,confirmedPage,if_neg outside,index]
  · rw [confirmed,rewrittenAt f s _ (by decide),confirmedPage]
    exact if_pos rfl

theorem otherTrailerKept {f g : Bytes} {s : Slot}
    (h : AgreeOff (s.stop - mflashSectorSize) mflashSectorSize f g) :
    trailerOf g s.other = trailerOf f s.other := by
  have layout := startCases s
  apply trailerKept h
  simp only [stopEq,mflashSectorSize,imageTrailerSize]
  omega

theorem otherTrailer {s : Slot} {f g : Bytes}
    (h : AgreeOff (s.other.stop - mflashSectorSize) mflashSectorSize f g) :
    trailerOf g s = trailerOf f s := by
  have kept := otherTrailerKept h
  rwa [otherOther] at kept

theorem headerTrailerKept (f : Bytes) (s r : Slot) :
    trailerOf (headerErased f s) r = trailerOf f r := by
  have layout := startCases s
  have layout' := startCases r
  apply trailerKept (headerErasedAgreeOff f s)
  simp only [stopEq,mflashSectorSize,imageTrailerSize]
  omega

theorem otherSlotKept {a : Slot} {p len : Nat} {f g : Bytes} (h : AgreeOff p len f g)
    (lower : a.other.start ≤ p) (upper : p + len ≤ a.other.start + slotSize) :
    AgreeOn a.start slotSize f g := by
  have layout := startCases a
  apply agreeOnOfAgreeOff h
  simp only [slotSize] at upper ⊢
  omega

theorem lastSectorInside (a : Slot) : a.start ≤ a.stop - mflashSectorSize ∧
    a.stop - mflashSectorSize + mflashSectorSize ≤ a.start + slotSize := by
  simp only [stopEq,mflashSectorSize,slotSize]
  omega

/-- The primary slot awaits confirmation; behind its trailer lies the secondary's header. -/
def awaitingBoard : Device := holding 2359256 (trailerBytes 1 0xff ++ [0x3d,0xb8,0xf3,0x96])

theorem boardAwaiting : Awaiting (trailerOf awaitingBoard.flash .primary) := by decide

end AkNano.SlotLayout
