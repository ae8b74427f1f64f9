import AkNano.SlotLayout

/-! What the update-state functions can do, one inductive list of ends per function:
every return and every interruption, with the state it leaves and the driver fault
behind it. Later results use these lists and unfold no function again. -/
namespace AkNano.SwapEffects
open Memory Interrupted Platform FlashRead SwapState SlotLayout

theorem magicLoopExact {p q : List UInt8} (lengths : p.length = q.length) :
    magicLoop p q = true ↔ p = q := by
  induction p generalizing q with
  | nil =>
    have none : q = [] := List.length_eq_zero_iff.mp lengths.symm
    simp [none,magicLoop]
  | cons b bs ih =>
    cases q with
    | nil => simp at lengths
    | cons c cs =>
      have tails := ih (Nat.succ.inj lengths)
      by_cases same : b = c
      · simp [magicLoop,same,tails]
      · simp [magicLoop,same]

theorem magicCheckExact (m : Bytes) (p : Nat) :
    bootImgMagicCheck (trailerAt m p).magic = true ↔ (trailerAt m p).magic = bootImgMagicBytes :=
  magicLoopExact (by simp only [trailerAt,cellsLength]; decide)

theorem underTestExact (m : Bytes) (p : Nat) :
    underTest (trailerAt m p) = true ↔ Awaiting (trailerAt m p) := by
  simp only [underTest,Bool.and_eq_true,magicCheckExact,decide_eq_true_eq,Awaiting,Candidate]
  constructor
  · intro h; exact ⟨⟨h.1.1,h.2⟩,h.1.2⟩
  · intro h; exact ⟨⟨h.1.1,h.2⟩,h.1.2⟩

theorem activeSlotQuiet {E : Env} {d t : Device} (remap : t.remap = d.remap) :
    activeSlot E t = activeSlot E d := by
  unfold activeSlot getActiveImage
  rw [remap]

theorem remapSlot {E : Env} (remapped : E.build.flashRemapEnable = true) (d : Device) :
    activeSlot E d = if d.remap > 0 then .secondary else .primary := by
  unfold activeSlot getActiveImage
  rw [if_pos remapped]
  split
  · rfl
  · rfl

theorem activeStop (E : Env) (d : Device) :
    (if getActiveImage E d = primarySlotActive then
      flashAreaImage1Offset E.board + flashAreaImage1Size E.board
    else flashAreaImage2Offset E.board + flashAreaImage2Size E.board) = (activeSlot E d).stop := by
  have areas := areaOffsets E.board
  unfold activeSlot
  split
  · exact areas.2.2.1
  · exact areas.2.2.2

theorem inactiveStop (E : Env) (d : Device) :
    (if getActiveImage E d = primarySlotActive then
      flashAreaImage2Offset E.board + flashAreaImage2Size E.board
    else flashAreaImage1Offset E.board + flashAreaImage1Size E.board) =
      (activeSlot E d).other.stop := by
  have areas := areaOffsets E.board
  unfold activeSlot
  split
  · exact areas.2.2.2
  · exact areas.2.2.1

theorem inactiveStart (E : Env) (d : Device) :
    (if getActiveImage E d = primarySlotActive then flashAreaImage2Offset E.board
    else flashAreaImage1Offset E.board) = (activeSlot E d).other.start := by
  have areas := areaOffsets E.board
  unfold activeSlot
  split
  · exact areas.2.1
  · exact areas.1

section Buffers

variable (E : Env)

theorem magicPageBytes {i : Nat} (inside : i < mflashPageSize) :
    magicPage E (E.buf + i) = markedPage i := by
  have width : trailerInPage + magicOffset + 16 = mflashPageSize := rfl
  unfold magicPage markedPage
  by_cases before : i < trailerInPage + magicOffset
  · rw [if_pos before,overlayOut _ _ _ _ (by omega),overlayIn _ _ _ _ inside]
  · have index : E.buf + i - (E.buf + trailerInPage + magicOffset) =
        i - (trailerInPage + magicOffset) := by omega
    rw [if_neg before,overlayAt _ _ _ _ (by omega) (by omega),index]

theorem setImageOkBytes (mem : Bytes) (i : Nat) :
    setImageOk mem (E.buf + trailerInPage) (E.buf + i) =
      if i = trailerInPage + imageOkOffset then 1 else mem (E.buf + i) := by
  unfold setImageOk
  split
  · rename_i same
    rw [overlayAt _ _ _ _ (by omega) (by omega)]
    rfl
  · exact overlayOut _ _ _ _ (by omega)

end Buffers

def eraseTrailer (s : Slot) : Call := .sectorErase (s.stop - mflashSectorSize)
def programTrailer (s : Slot) : Call := .pageProgram (s.stop - mflashPageSize)

inductive RewriteEnd (E : Env) (d : Device) (s : Slot) (page : Bytes) : Option Status → Device → Prop where
  | done (erased : E.outcome d.calls (eraseTrailer s) = .done)
      (programmed : E.outcome (eraseTrailer s :: d.calls) (programTrailer s) = .done) :
      RewriteEnd E d s page (some kStatusSuccess)
        (d.wrote [programTrailer s,eraseTrailer s] (rewritten d.flash s page))
  | eraseFailed {st f} (bad : st ≠ kStatusSuccess)
      (fault : E.outcome d.calls (eraseTrailer s) ≠ .done)
      (torn : Torn E (s.stop - mflashSectorSize) mflashSectorSize d.flash f) :
      RewriteEnd E d s page (some st) (d.wrote [eraseTrailer s] f)
  | eraseCut (fault : E.outcome d.calls (eraseTrailer s) = .powerCut) :
      RewriteEnd E d s page none (d.wrote [eraseTrailer s] d.flash)
  | programFailed {st f} (bad : st ≠ kStatusSuccess)
      (fault : E.outcome (eraseTrailer s :: d.calls) (programTrailer s) ≠ .done)
      (torn : Torn E (s.stop - mflashPageSize) mflashPageSize (wiped d.flash s) f) :
      RewriteEnd E d s page (some st) (d.wrote [programTrailer s,eraseTrailer s] f)
  | programCut (fault : E.outcome (eraseTrailer s :: d.calls) (programTrailer s) = .powerCut) :
      RewriteEnd E d s page none (d.wrote [programTrailer s,eraseTrailer s] (wiped d.flash s))

theorem erasedNeutral (x : UInt8) : 0xff &&& x = x := by
  have all : BitVec.allOnes 8 &&& x.toBitVec = x.toBitVec := BitVec.allOnes_and
  exact UInt8.toBitVec_inj.mp all

theorem rewriteTrailerEnds (E : Env) (d : Device) (s : Slot) {mem page : Bytes} {buf : Nat}
    (data : ∀ i, i < mflashPageSize → mem (buf + i) = page i) :
    Ended (rewriteTrailer E s.stop mem buf) d (RewriteEnd E d s page) := by
  have sector : (s.stop - mflashSectorSize) % mflashSectorSize = 0 := by cases s <;> decide
  have aligned : (s.stop - mflashPageSize) % mflashPageSize = 0 := by cases s <;> decide
  unfold rewriteTrailer
  refine endedThen (sectorEraseEnds E sector d) ?_ ?_
  · intro st t h
    cases h with
    | failed bad fault torn =>
      rw [if_pos bad]
      exact endsPure (.eraseFailed bad fault torn)
    | done erased =>
      rw [if_neg (by simp),pageProgramCongr E _ data]
      refine endedMono (pageProgramEnds E aligned page _) ?_
      intro o u h
      change ProgramEnd E (d.wrote [_] (wiped d.flash s)) _ page o u at h
      cases h with
      | done programmed =>
        rw [wroteTwice,wroteFlash]
        have whole : program (wiped d.flash s)
            (s.stop - mflashPageSize) mflashPageSize page = rewritten d.flash s page := by
          have layout := startCases s
          exact programErased d.flash 0xff page erasedNeutral
            (by simp only [stopEq,mflashSectorSize,mflashPageSize]; omega)
            (by simp only [stopEq,mflashSectorSize,mflashPageSize]; omega)
        rw [whole]
        exact .done erased programmed
      | failed bad fault torn =>
        rw [wroteFlash] at torn
        rw [wroteTwice]
        exact .programFailed bad fault torn
      | cut fault =>
        rw [wroteTwice,wroteFlash]
        exact .programCut fault
  · intro t h
    cases h with
    | cut fault => exact .eraseCut fault

theorem bootSwapTestEnds (E : Env) (d : Device) :
    Ended (bootSwapTest E) d (RewriteEnd E d (activeSlot E d).other markedPage) := by
  unfold bootSwapTest
  apply endsGet
  rw [inactiveStop]
  exact rewriteTrailerEnds E d _ (fun i inside => magicPageBytes E inside)

theorem eraseInactiveHeaderEnds (E : Env) (d : Device) :
    Ended (eraseInactiveHeader E) d (EraseEnd E d (activeSlot E d).other.start) := by
  unfold eraseInactiveHeader
  apply endsGet
  rw [inactiveStart]
  exact sectorEraseEnds E (by cases (activeSlot E d) <;> decide) d

structure ReadBack (E : Env) (d : Device) (s : Slot) (t : ImageTrailer) : Prop where
  shown : t = trailerOf d.flash s ∨
    (t = erasedTrailer ∧ E.build.pageIntegrityChecks = true ∧ E.ReadFault slotsEnd)

inductive SwapOkEnd (E : Env) (d : Device) : Option Status → Device → Prop where
  | readFailed {st t} (bad : st ≠ kStatusSuccess) (quiet : Quiet d t) (fault : E.ReadFault slotsEnd) :
      SwapOkEnd E d (some st) t
  | readCut {t} (quiet : Quiet d t) (fault : E.ReadFault slotsEnd) : SwapOkEnd E d none t
  | noData {t shown} (quiet : Quiet d t) (read : ReadBack E d (activeSlot E d) shown)
      (absent : ¬ Candidate shown) : SwapOkEnd E d (some kStatusNoData) t
  | already {t} (quiet : Quiet d t) (was : Confirmed (trailerOf d.flash (activeSlot E d))) :
      SwapOkEnd E d (some kStatusSuccess) t
  | rewriting {o t u} (quiet : Quiet d t) (was : Pending (trailerOf d.flash (activeSlot E d)))
      (part : RewriteEnd E t (activeSlot E d) (confirmedPage d.flash (activeSlot E d)) o u)
      (failed : o ≠ some kStatusSuccess) : SwapOkEnd E d o u
  | finished {t u} (quiet : Quiet d t) (was : Pending (trailerOf d.flash (activeSlot E d)))
      (part : RewriteEnd E t (activeSlot E d) (confirmedPage d.flash (activeSlot E d))
        (some kStatusSuccess) u)
      (support : E.build.flashRemapDowngradeSupport = false) : SwapOkEnd E d (some kStatusSuccess) u
  | header {o t u v} (quiet : Quiet d t) (was : Pending (trailerOf d.flash (activeSlot E d)))
      (part : RewriteEnd E t (activeSlot E d) (confirmedPage d.flash (activeSlot E d))
        (some kStatusSuccess) u)
      (support : E.build.flashRemapDowngradeSupport = true)
      (last : EraseEnd E u (activeSlot E d).other.start o v) : SwapOkEnd E d o v

theorem rewriteRemap {E d s page o t} (h : RewriteEnd E d s page o t) : t.remap = d.remap := by
  cases h <;> exact wroteRemap _ _ _

structure PageShown (E : Env) (d : Device) (s : Slot) (mem : Bytes) : Prop where
  trailer : ReadBack E d s (trailerAt mem (E.buf + trailerInPage))
  page : Candidate (trailerAt mem (E.buf + trailerInPage)) →
    ∀ i, i < mflashPageSize → mem (E.buf + i) = d.flash (s.stop - mflashPageSize + i)

section Page

variable {E : Env} {d : Device} {s : Slot} {mem : Bytes}

theorem inTrailerPage {i : Nat} (small : i < 40) : trailerInPage + i < mflashPageSize := by
  simp only [trailerInPage,mflashPageSize,imageTrailerSize]
  omega

theorem ownPage
    (same : ∀ i, i < mflashPageSize → mem (E.buf + i) = d.flash (s.stop - mflashPageSize + i)) :
    PageShown E d s mem := by
  refine ⟨⟨.inl (trailerCongr ?_)⟩,fun _ => same⟩
  intro i small
  have layout := startCases s
  have index : s.stop - imageTrailerSize + i = s.stop - mflashPageSize + (trailerInPage + i) := by
    simp only [stopEq,imageTrailerSize,mflashPageSize,trailerInPage]; omega
  rw [index,Nat.add_assoc]
  exact same _ (inTrailerPage small)

theorem blankPage (checks : E.build.pageIntegrityChecks = true) (fault : E.ReadFault slotsEnd)
    (blank : ∀ i, i < mflashPageSize → mem (E.buf + i) = 0xff) : PageShown E d s mem := by
  have erased : trailerAt mem (E.buf + trailerInPage) = erasedTrailer := by
    apply trailerCongr
    intro i small
    rw [Nat.add_assoc]
    exact blank _ (inTrailerPage small)
  refine ⟨⟨.inr ⟨erased,checks,fault⟩⟩,?_⟩
  intro candidate
  rw [erased] at candidate
  exact absurd candidate erasedNotCandidate

theorem readBackOwn {shown : ImageTrailer} (h : ReadBack E d s shown) (candidate : Candidate shown) :
    shown = trailerOf d.flash s := by
  rcases h.shown with own | ⟨erased,_⟩
  · exact own
  · rw [erased] at candidate
    exact absurd candidate erasedNotCandidate

variable (E d s)

theorem trailerPageRead :
    Ends (flashRead E (s.stop - mflashPageSize) E.buf E.stack mflashPageSize) d
      (fun r t => Quiet d t ∧ ((r.1 = kStatusSuccess ∧ PageShown E d s r.2) ∨
        (r.1 ≠ kStatusSuccess ∧ E.ReadFault slotsEnd)))
      (Stopped E slotsEnd d) := by
  refine endsMono (onePageEnds E (by decide) (by decide) E.stack d (by cases s <;> decide)
    (by cases s <;> decide)) ?_ (fun _ h => h)
  rintro r t ⟨quiet,⟨ok,same | ⟨checks,fault,blank⟩⟩ | failed⟩
  · exact ⟨quiet,.inl ⟨ok,ownPage same⟩⟩
  · exact ⟨quiet,.inl ⟨ok,blankPage checks fault blank⟩⟩
  · exact ⟨quiet,.inr failed⟩

end Page

theorem confirmRewriteEnds {E : Env} {d t : Device} {mem : Bytes} (quiet : Quiet d t)
    (was : Pending (trailerOf d.flash (activeSlot E d)))
    (data : ∀ i, i < mflashPageSize →
      mem (E.buf + i) = confirmedPage d.flash (activeSlot E d) i) :
    Ended (do
      let status ← rewriteTrailer E (activeSlot E d).stop mem E.buf
      if status ≠ kStatusSuccess then pure status
      else if E.build.flashRemapDowngradeSupport then eraseInactiveHeader E
      else pure status) t (SwapOkEnd E d) := by
  refine endedThen (rewriteTrailerEnds E t (activeSlot E d) data) ?_ ?_
  · intro st u part
    split
    case isTrue bad => exact endsPure (.rewriting quiet was part (fun h => bad (Option.some.inj h)))
    case isFalse good =>
      have success : st = kStatusSuccess := not_not.mp good
      subst success
      split
      case isFalse off => exact endsPure (.finished quiet was part (by simpa using off))
      case isTrue on =>
        refine endedMono (eraseInactiveHeaderEnds E u) ?_
        intro o v last
        rw [activeSlotQuiet ((rewriteRemap part).trans quiet.remap)] at last
        exact .header quiet was part on last
  · intro u part
    exact .rewriting quiet was part (by simp)

theorem bootSwapOkEnds (E : Env) (d : Device) : Ended (bootSwapOk E) d (SwapOkEnd E d) := by
  unfold bootSwapOk
  apply endsGet
  rw [activeStop]
  refine endsThen (trailerPageRead E d (activeSlot E d)) ?_ (fun t h => .readCut h.quiet h.fault)
  rintro r t ⟨quiet,⟨ok,shown⟩ | ⟨bad,fault⟩⟩
  case inr => rw [if_pos bad]; exact endsPure (.readFailed bad quiet fault)
  rw [if_neg (by simp [ok])]
  have magic := magicCheckExact r.2 (E.buf + trailerInPage)
  dsimp only
  split
  case isTrue absent =>
    refine endsPure (.noData quiet shown.trailer ?_)
    rintro ⟨magic',copyDone⟩
    rcases absent with noMagic | noCopy
    · rw [magic.mpr magic'] at noMagic
      contradiction
    · exact noCopy copyDone
  case isFalse present =>
    simp only [not_or,Bool.not_eq_false,not_not] at present
    have found : Candidate (trailerAt r.2 (E.buf + trailerInPage)) :=
      ⟨magic.mp present.1,present.2⟩
    have own := readBackOwn shown.trailer found
    have candidate : Candidate (trailerOf d.flash (activeSlot E d)) := by rw [← own]; exact found
    rw [own]
    split
    case isTrue ok1 =>
      rw [ok]
      exact endsPure (.already quiet ⟨candidate,ok1⟩)
    case isFalse notOk =>
      refine confirmRewriteEnds quiet ⟨candidate,notOk⟩ ?_
      intro i inside
      rw [setImageOkBytes,confirmedPage,shown.page found i inside]

inductive UpdateEnd (E : Env) (d : Device) (state : UInt32) : Option Status → Device → Prop where
  | test {o t} (asked : state = SwapType.readyForTest.code)
      (part : RewriteEnd E d (activeSlot E d).other markedPage o t) : UpdateEnd E d state o t
  | confirm {o t} (asked : state = SwapType.permanent.code) (part : SwapOkEnd E d o t) :
      UpdateEnd E d state o t
  | invalid (other : state ≠ SwapType.readyForTest.code ∧ state ≠ SwapType.permanent.code) :
      UpdateEnd E d state (some kStatusInvalidArgument) d

theorem blUpdateImageStateEnds (E : Env) (d : Device) (state : UInt32) :
    Ended (blUpdateImageState E state) d (UpdateEnd E d state) := by
  unfold blUpdateImageState
  split
  · exact endedMono (bootSwapTestEnds E d) (fun _ _ => .test ‹_›)
  · split
    · exact endedMono (bootSwapOkEnds E d) (fun _ _ => .confirm ‹_›)
    · exact endsPure (.invalid ⟨‹_›,‹_›⟩)

theorem trailerRead (E : Env) (d : Device) (s : Slot) (p : Nat) :
    Ends (flashRead E (s.stop - imageTrailerSize) p E.stack imageTrailerSize) d
      (fun r t => Quiet d t ∧ ((r.1 = kStatusSuccess ∧ ReadBack E d s (trailerAt r.2 p)) ∨
        (r.1 ≠ kStatusSuccess ∧ E.ReadFault slotsEnd)))
      (Stopped E slotsEnd d) := by
  refine endsMono (onePageEnds E (by decide) (by decide) E.stack d (by cases s <;> decide)
    (by cases s <;> decide)) ?_ (fun _ h => h)
  intro r t h
  obtain ⟨quiet,result⟩ := h
  refine ⟨quiet,?_⟩
  rcases result with ⟨ok,same | ⟨checks,fault,blank⟩⟩ | failed
  · exact .inl ⟨ok,⟨.inl (trailerCongr same)⟩⟩
  · exact .inl ⟨ok,⟨.inr ⟨trailerCongr blank,checks,fault⟩⟩⟩
  · exact .inr failed

theorem readBackQuiet {E d t s shown} (quiet : Quiet d t) (h : ReadBack E t s shown) :
    ReadBack E d s shown := ⟨by rw [← quiet.flash]; exact h.shown⟩

inductive StateEnd (E : Env) (d : Device) : Option (Status × Option SwapType) → Device → Prop where
  | failed {st t} (bad : st ≠ kStatusSuccess) (quiet : Quiet d t) (fault : E.ReadFault slotsEnd) :
      StateEnd E d (some (st,none)) t
  | cut {t} (quiet : Quiet d t) (fault : E.ReadFault slotsEnd) : StateEnd E d none t
  | state {t a b} (quiet : Quiet d t) (active : ReadBack E d (activeSlot E d) a)
      (dormant : ReadBack E d (activeSlot E d).other b) :
      StateEnd E d (some (kStatusSuccess,some (stateOf E.build a b))) t

theorem blGetImageStateEnds (E : Env) (d : Device) : Ended (blGetImageState E) d (StateEnd E d) := by
  have areas := areaOffsets E.board
  unfold blGetImageState
  rw [areas.2.2.1,areas.2.2.2]
  refine endsThen (trailerRead E d .primary E.imageTrailer1) ?_ (fun t h => .cut h.quiet h.fault)
  intro r1 t h
  obtain ⟨quiet1,⟨ok1,first⟩ | ⟨bad,fault⟩⟩ := h
  case inr => rw [if_pos bad]; exact endsPure (.failed bad quiet1 fault)
  rw [if_neg (by simp [ok1])]
  refine endsThen (trailerRead E t .secondary E.imageTrailer2) ?_
    (fun u h => .cut (quietTrans quiet1 h.quiet) h.fault)
  intro r2 u h
  obtain ⟨quiet2,⟨ok2,second⟩ | ⟨bad,fault⟩⟩ := h
  case inr => rw [if_pos bad]; exact endsPure (.failed bad (quietTrans quiet1 quiet2) fault)
  rw [if_neg (by simp [ok2])]
  apply endsGet
  have quiet := quietTrans quiet1 quiet2
  have second' := readBackQuiet quiet1 second
  have same : activeSlot E u = activeSlot E d := activeSlotQuiet quiet.remap
  unfold activeSlot at same
  split
  case isTrue primary =>
    have active : activeSlot E d = .primary := by rw [if_pos primary] at same; exact same.symm
    exact endsPure (.state quiet (by rw [active]; exact first) (by rw [active]; exact second'))
  case isFalse secondary =>
    have active : activeSlot E d = .secondary := by rw [if_neg secondary] at same; exact same.symm
    exact endsPure (.state quiet (by rw [active]; exact second') (by rw [active]; exact first))

def slotPartition (s : Slot) : Partition := ⟨s.start,slotSize⟩

inductive PartitionEnd (E : Env) (d : Device) : Option (Status × Partition) → Device → Prop where
  | failed {t} (quiet : Quiet d t) (fault : E.ReadFault slotsEnd) :
      PartitionEnd E d (some (kStatusFail,⟨0,0⟩)) t
  | cut {t} (quiet : Quiet d t) (fault : E.ReadFault slotsEnd) : PartitionEnd E d none t
  | refused {t a b} (quiet : Quiet d t) (active : ReadBack E d (activeSlot E d) a)
      (dormant : ReadBack E d (activeSlot E d).other b)
      (busy : stateOf E.build a b = .readyForTest ∨ stateOf E.build a b = .testing) :
      PartitionEnd E d (some (kStatusFail,⟨0,0⟩)) t
  | granted {t a b} (quiet : Quiet d t) (active : ReadBack E d (activeSlot E d) a)
      (dormant : ReadBack E d (activeSlot E d).other b)
      (free : stateOf E.build a b ≠ .readyForTest ∧ stateOf E.build a b ≠ .testing) :
      PartitionEnd E d (some (kStatusSuccess,slotPartition (activeSlot E d).other)) t

theorem inactivePartition (E : Env) (d : Device) :
    (if getActiveImage E d = primarySlotActive then
      (pure (kStatusSuccess,⟨bootFlashCandApp E.board - bootFlashBase E.board,
        bootFlashCandApp E.board - bootFlashActApp E.board⟩) : Fw (Status × Partition))
    else pure (kStatusSuccess,⟨bootFlashActApp E.board - bootFlashBase E.board,
        bootFlashCandApp E.board - bootFlashActApp E.board⟩)) =
      pure (kStatusSuccess,slotPartition (activeSlot E d).other) := by
  unfold activeSlot
  split <;> cases E.board <;> rfl

theorem blGetUpdatePartitionInfoEnds (E : Env) (d : Device) :
    Ended (blGetUpdatePartitionInfo E) d (PartitionEnd E d) := by
  unfold blGetUpdatePartitionInfo
  refine endedThen (blGetImageStateEnds E d) ?_ ?_
  · intro r t h
    cases h with
    | failed bad quiet fault => rw [if_pos bad]; exact endsPure (.failed quiet fault)
    | state quiet active dormant =>
      rw [if_neg (by simp)]
      split
      case isTrue busy => exact endsPure (.refused quiet active dormant (by simpa using busy))
      case isFalse free =>
        apply endsGet
        rw [inactivePartition,activeSlotQuiet quiet.remap]
        exact endsPure (.granted quiet active dormant (by simpa using free))
  · intro t h
    cases h with
    | cut quiet fault => exact .cut quiet fault

end AkNano.SwapEffects
