import AkNano.Confirmation

/-! Calling an update function again until it succeeds. Marking for test rewrites the
same sector from scratch each time. Confirming erases the inactive header last: if that
erase alone fails, the retry finds the trailer confirmed and returns before it. -/
namespace AkNano.Retries
open Memory Interrupted Platform FlashRead SwapState SlotLayout SwapEffects Session SwapRuns
open Confirmation

structure Failed (E : Env) (state : UInt32) (d : Device) (st : Status) (t : Device) : Prop where
  returned : blUpdateImageState E state d = .ok st t
  error : st ≠ kStatusSuccess

/-- An attempt from `F` got as far as the confirmed trailer of `G`, but not past a written header. -/
structure HeaderSkipped (E : Env) (state : UInt32) (F G : Device) : Prop where
  confirming : state = SwapType.permanent.code
  before : ¬ Confirmed (trailerOf F.flash (activeSlot E F))
  after : Confirmed (trailerOf G.flash (activeSlot E F))
  written : ∃ i, i < mflashSectorSize ∧ F.flash ((activeSlot E F).other.start + i) ≠ 0xff

section Retry

variable {E : Env} {F G H : Device} {es : List Status}

structure TestTried (E : Env) (F G : Device) : Prop where
  remap : G.remap = F.remap
  elsewhere : AgreeOff ((activeSlot E F).other.stop - mflashSectorSize) mflashSectorSize F.flash G.flash

theorem testTried (run : Steps (Failed E SwapType.readyForTest.code) F es G) : TestTried E F G := by
  refine stepsInvariant (TestTried E F) ?_ run ⟨rfl,agreeOffRefl _ _ _⟩
  intro d st t h step
  have same : activeSlot E d = activeSlot E F := activeSlotQuiet h.remap
  have ends := endedReturned (blUpdateImageStateEnds E d _) step.returned
  cases ends with
  | test asked part =>
    rw [same] at part
    exact ⟨(rewriteRemap part).trans h.remap,agreeOffTrans h.elsewhere (rewriteFrame part)⟩
  | confirm asked part => exact absurd asked (by decide)
  | invalid other => exact h

theorem markedForgets {f g : Bytes} {s : Slot}
    (h : AgreeOff (s.stop - mflashSectorSize) mflashSectorSize f g) : marked g s = marked f s := by
  have same : wiped g s = wiped f s := by
    unfold wiped erase
    exact overlayForgets _ h (Nat.le_refl _) (Nat.le_refl _)
  rw [marked,marked,rewritten,rewritten,same]

theorem freeFlash {state : UInt32} {d t : Device}
    (run : blUpdateImageState E.withoutFaults state d = .ok kStatusSuccess t) :
    (leaves (blUpdateImageState E.withoutFaults state) d).flash = t.flash := by
  rw [leavesReturned run]

theorem testRetries (run : Steps (Failed E SwapType.readyForTest.code) F es G)
    (last : blUpdateImageState E SwapType.readyForTest.code G = .ok kStatusSuccess H) :
    H.flash = (leaves (blUpdateImageState E.withoutFaults SwapType.readyForTest.code) F).flash := by
  have tried := testTried run
  have same : activeSlot E G = activeSlot E F := activeSlotQuiet tried.remap
  have done := (testSucceeded (endedReturned (blUpdateImageStateEnds E G _) last)).2
  obtain ⟨t,free,ends⟩ := testRuns F (withoutFaultsFaultless E)
  have slot : activeSlot E.withoutFaults F = activeSlot E F := rfl
  rw [freeFlash free,(testSucceeded ends).2,done,same,slot]
  exact markedForgets tried.elsewhere

inductive ConfirmTried (E : Env) (F G : Device) : Prop where
  | untouched (remap : G.remap = F.remap) (same : G.flash = F.flash)
  | lost (remap : G.remap = F.remap) (blank : G.flash = wiped F.flash (activeSlot E F))
  | written (remap : G.remap = F.remap) (was : Pending (trailerOf F.flash (activeSlot E F)))
      (done : G.flash = confirmed F.flash (activeSlot E F))

theorem triedRemap (h : ConfirmTried E F G) : G.remap = F.remap := by
  cases h with
  | untouched remap same => exact remap
  | lost remap blank => exact remap
  | written remap was done => exact remap

theorem confirmTried (clean : E.Clean)
    (run : Steps (Failed E SwapType.permanent.code) F es G) : ConfirmTried E F G := by
  refine stepsInvariant (ConfirmTried E F) ?_ run (.untouched rfl rfl)
  intro d st t h step
  have slot : activeSlot E d = activeSlot E F := activeSlotQuiet (triedRemap h)
  have ends := confirmEnd d (endedReturned (blUpdateImageStateEnds E d _) step.returned)
  have remap : t.remap = F.remap := (swapOkConfined ends).remap.trans (triedRemap h)
  have left := swapOkUnfinished clean ends (fun done => step.error (Option.some.inj done))
  rw [slot] at left
  cases h with
  | untouched _ same =>
    rw [same] at left
    rcases left with kept | ⟨was,blank | done⟩
    · exact .untouched remap kept
    · exact .lost remap blank
    · exact .written remap was done
  | lost _ blank =>
    rcases left with kept | ⟨was,_⟩
    · exact .lost remap (kept.trans blank)
    · rw [blank,wipedTrailer] at was
      exact absurd was.1 erasedNotCandidate
  | written _ was done =>
    rcases left with kept | ⟨again,_⟩
    · exact .written remap was (kept.trans done)
    · rw [done,confirmedTrailerOf] at again
      exact absurd (confirmedOfPending was) (pendingNotConfirmed again)

theorem freeConfirm (candidate : Candidate (trailerOf F.flash (activeSlot E F))) :
    (leaves (blUpdateImageState E.withoutFaults SwapType.permanent.code) F).flash =
      if Confirmed (trailerOf F.flash (activeSlot E F)) then F.flash else confirmedFlash E F := by
  obtain ⟨t,free,ends⟩ := confirmRuns F (withoutFaultsFaultless E) candidate
  have slot : activeSlot E.withoutFaults F = activeSlot E F := rfl
  have build : confirmedFlash E.withoutFaults F = confirmedFlash E F := rfl
  have done := (confirmSucceeded ends).2
  rw [slot,build] at done
  rw [freeFlash free]
  rcases done with ⟨was,same⟩ | ⟨was,wrote⟩
  · rw [if_pos was,same]
  · rw [if_neg (pendingNotConfirmed was),wrote]

theorem confirmedHeader (f : Bytes) (s : Slot) :
    AgreeOn s.other.start mflashSectorSize f (confirmed f s) := by
  have layout := startCases s
  refine agreeOnOfAgreeOff (rewrittenAgreeOff f s _) ?_
  simp only [stopEq,mflashSectorSize]
  omega

theorem wholeWhenBlank (support : E.build.flashRemapDowngradeSupport = true)
    (was : Pending (trailerOf F.flash (activeSlot E F))) : confirmed F.flash (activeSlot E F) =
      (leaves (blUpdateImageState E.withoutFaults SwapType.permanent.code) F).flash ↔
    ∀ i, i < mflashSectorSize → F.flash ((activeSlot E F).other.start + i) = 0xff := by
  have header := confirmedHeader F.flash (activeSlot E F)
  rw [freeConfirm was.1,if_neg (pendingNotConfirmed was),confirmedFlash,if_pos support,eq_comm,
    headerErased,eraseFixes]
  constructor
  · intro blank i inside
    rw [← header i inside]
    exact blank i inside
  · intro blank i inside
    rw [header i inside]
    exact blank i inside

theorem confirmRetries (support : E.build.flashRemapDowngradeSupport = true) (clean : E.Clean)
    (run : Steps (Failed E SwapType.permanent.code) F es G)
    (last : blUpdateImageState E SwapType.permanent.code G = .ok kStatusSuccess H) :
    H.flash = (leaves (blUpdateImageState E.withoutFaults SwapType.permanent.code) F).flash ↔
      ¬ HeaderSkipped E SwapType.permanent.code F G := by
  have tried := confirmTried clean run
  have slot : activeSlot E G = activeSlot E F := activeSlotQuiet (triedRemap tried)
  have done := (confirmSucceeded (endedReturned (blUpdateImageStateEnds E G _) last)).2
  rw [slot] at done
  cases tried with
  | untouched remap same =>
    have whole : confirmedFlash E G = confirmedFlash E F := by
      rw [confirmedFlash,confirmedFlash,slot,same]
    rw [same,whole] at done
    have kept : ¬ HeaderSkipped E SwapType.permanent.code F G := by
      intro skipped
      have after := skipped.after
      rw [same] at after
      exact skipped.before after
    refine iff_of_true ?_ kept
    rcases done with ⟨was,unchanged⟩ | ⟨was,wrote⟩
    · rw [freeConfirm was.1,if_pos was,unchanged]
    · rw [freeConfirm was.1,if_neg (pendingNotConfirmed was),wrote]
  | lost remap blank =>
    rw [blank,wipedTrailer] at done
    rcases done with ⟨was,_⟩ | ⟨was,_⟩
    · exact absurd was.1 erasedNotCandidate
    · exact absurd was.1 erasedNotCandidate
  | written remap was done' =>
    have after : Confirmed (trailerOf G.flash (activeSlot E F)) := by
      rw [done',confirmedTrailerOf]
      exact confirmedOfPending was
    have unchanged : H.flash = confirmed F.flash (activeSlot E F) := by
      rcases done with ⟨_,same⟩ | ⟨again,_⟩
      · rw [same,done']
      · exact absurd after (pendingNotConfirmed again)
    rw [unchanged,wholeWhenBlank support was]
    constructor
    · intro blank skipped
      obtain ⟨i,inside,written⟩ := skipped.written
      exact written (blank i inside)
    · intro kept i inside
      apply not_not.mp
      intro written
      exact kept ⟨rfl,pendingNotConfirmed was,after,i,inside,written⟩

theorem retriesConverge (support : E.build.flashRemapDowngradeSupport = true) (clean : E.Clean)
    {state : UInt32} (known : state = SwapType.readyForTest.code ∨ state = SwapType.permanent.code)
    (failures : Steps (Failed E state) F es G)
    (last : blUpdateImageState E state G = .ok kStatusSuccess H) :
    H.flash = (leaves (blUpdateImageState E.withoutFaults state) F).flash ↔
      ¬ HeaderSkipped E state F G := by
  rcases known with test | confirm
  · subst test
    refine iff_of_true (testRetries failures last) ?_
    intro skipped
    exact absurd skipped.confirming (by decide)
  · subst confirm
    exact confirmRetries support clean failures last

theorem alreadyRuns {d : Device} (reads : E.ReadsSucceed slotsEnd)
    (was : Confirmed (trailerOf d.flash (activeSlot E d))) :
    ∃ t, blUpdateImageState E SwapType.permanent.code d = .ok kStatusSuccess t ∧ Quiet d t := by
  have always : ∀ o t, SwapOkEnd E d o t → o = some kStatusSuccess ∧ Quiet d t := by
    intro o t h
    cases swapOkRead reads h with
    | absent quiet no => exact absurd was.1 no
    | already quiet _ => exact ⟨rfl,quiet⟩
    | rewriting quiet pending part failed => exact absurd was (pendingNotConfirmed pending)
    | finished quiet pending part support => exact absurd was (pendingNotConfirmed pending)
    | header quiet pending part support last => exact absurd was (pendingNotConfirmed pending)
  obtain ⟨t,run,h⟩ := endedAlways (blUpdateImageStateEnds E d SwapType.permanent.code)
    (fun o t h => (always o t (confirmEnd d h)).1)
  exact ⟨t,run,(always _ _ (confirmEnd d h)).2⟩

end Retry

def headerFailsOnce : List Call → Call → Outcome :=
  failsOnce (.sectorErase Slot.secondary.start) none

abbrev flakyBench : Env := bench Build.shipped headerFailsOnce

theorem flakyOutcome (calls : List Call) (c : Call) : flakyBench.outcome calls c = .done ∨
    c = .sectorErase Slot.secondary.start ∧ c ∉ calls ∧
      flakyBench.outcome calls c = .failed ⟨kStatusFail,failIsError⟩ none := by
  change failsOnce _ none calls c = .done ∨ _ ∧ _ ∧ failsOnce _ none calls c = _
  unfold failsOnce
  split
  case isTrue first => exact .inr ⟨first.1,first.2,rfl⟩
  case isFalse => exact .inl rfl

theorem flakyDone {calls : List Call} {c : Call} (other : c ≠ .sectorErase Slot.secondary.start) :
    flakyBench.outcome calls c = .done := by
  rcases flakyOutcome calls c with done | ⟨header,_⟩
  · exact done
  · exact absurd header other

theorem flakyFails {calls : List Call} (fresh : Call.sectorErase Slot.secondary.start ∉ calls) :
    flakyBench.outcome calls (.sectorErase Slot.secondary.start) =
      .failed ⟨kStatusFail,failIsError⟩ none := if_pos ⟨rfl,fresh⟩

theorem flakyReads : flakyBench.ReadsSucceed slotsEnd := by
  intro calls c reads _
  apply flakyDone
  intro header
  rw [header] at reads
  simp [Call.reads] at reads

theorem flakyClean : flakyBench.Clean := failsOnceClean _ _

theorem flakyRewrites {d s page o t} (h : RewriteEnd flakyBench d s page o t) :
    o = some kStatusSuccess := by
  have erases : flakyBench.outcome d.calls (eraseTrailer s) = .done := by
    apply flakyDone
    cases s <;> decide
  have programs : flakyBench.outcome (eraseTrailer s :: d.calls) (programTrailer s) = .done := by
    apply flakyDone
    simp [programTrailer]
  cases h with
  | done erased programmed => rfl
  | eraseFailed bad fault torn => exact absurd erases fault
  | eraseCut fault => rw [erases] at fault; cases fault
  | programFailed bad fault torn => exact absurd programs fault
  | programCut fault => rw [programs] at fault; cases fault

theorem flakyFirst : ∃ st t, Failed flakyBench SwapType.permanent.code awaitingBoard st t ∧
    t.remap = awaitingBoard.remap ∧ t.flash = confirmed awaitingBoard.flash .primary := by
  have pending : Pending (trailerOf awaitingBoard.flash .primary) := by decide
  have slot : activeSlot flakyBench awaitingBoard = .primary := by decide
  have ends := endedLeaves (blUpdateImageStateEnds flakyBench awaitingBoard SwapType.permanent.code)
  have part := confirmEnd _ ends
  have left : ∀ {o t}, SwapOkEnd flakyBench awaitingBoard o t → ∃ st, o = some st ∧
      st ≠ kStatusSuccess ∧ t.flash = confirmed awaitingBoard.flash .primary := by
    intro o t h
    cases swapOkRead flakyReads h with
    | absent quiet no => exact absurd pending.1 no
    | already quiet was => exact absurd was (pendingNotConfirmed pending)
    | rewriting quiet was part failed => exact absurd (flakyRewrites part) failed
    | finished quiet was part support => simp [Build.shipped,bench] at support
    | @header _ u v _ quiet was part support last =>
      have wrote := (rewriteSucceeded part).2
      rw [quiet.flash] at wrote
      -- no header erase is in the log before this one
      have fresh : Call.sectorErase Slot.secondary.start ∉ v.calls := by
        obtain ⟨rs,calls,reads⟩ := quiet.calls
        rw [rewriteIssued part,calls,slot]
        intro mem
        rcases List.mem_cons.mp mem with program | mem
        · simp [programTrailer] at program
        · rcases List.mem_cons.mp mem with trailer | mem
          · exact absurd trailer (by decide)
          · rcases List.mem_append.mp mem with read | old
            · simpa [Call.reads] using reads _ read
            · exact absurd old List.not_mem_nil
      have failed := flakyFails fresh
      have other : Slot.primary.other = .secondary := rfl
      rw [slot,other] at last
      rw [slot] at wrote
      cases last with
      | done ok => rw [failed] at ok; cases ok
      | failed bad fault torn =>
        exact ⟨_,rfl,bad,(wroteFlash _ _ _).trans ((torn.clean flakyClean).trans wrote)⟩
      | cut fault => rw [failed] at fault; cases fault
  obtain ⟨st,returned,error,flash⟩ := left part
  exact ⟨st,_,⟨endingReturned returned,error⟩,(updateConfined ends).remap,flash⟩

theorem retriesDiverge : ∃ E : Env, E.build = Build.shipped ∧ E.Clean ∧ ∃ F G H es,
    Awaiting (trailerOf F.flash (activeSlot E F)) ∧
    Steps (Failed E SwapType.permanent.code) F es G ∧
    blUpdateImageState E SwapType.permanent.code G = .ok kStatusSuccess H ∧
    H.flash ≠ (leaves (blUpdateImageState E.withoutFaults SwapType.permanent.code) F).flash := by
  obtain ⟨st,G,failed,remap,flash⟩ := flakyFirst
  have run := Steps.snoc (Steps.nil awaitingBoard) failed
  have slot : activeSlot flakyBench G = activeSlot flakyBench awaitingBoard := activeSlotQuiet remap
  have awaiting : Awaiting (trailerOf awaitingBoard.flash .primary) := by decide
  have after : Confirmed (trailerOf G.flash (activeSlot flakyBench awaitingBoard)) := by
    rw [flash]
    exact (confirmedTrailerOf _ _).symm ▸ confirmedOfPending (awaitingPending awaiting)
  have again : Confirmed (trailerOf G.flash (activeSlot flakyBench G)) := by rw [slot]; exact after
  obtain ⟨H,last,_⟩ := alreadyRuns flakyReads again
  refine ⟨flakyBench,rfl,flakyClean,awaitingBoard,G,H,_,awaiting,run,last,?_⟩
  intro same
  refine (confirmRetries rfl flakyClean run last).mp same ⟨rfl,?_,after,0,by decide,by decide⟩
  exact pendingNotConfirmed (awaitingPending awaiting)

abbrev trailerBench : Env := bench Build.shipped (failsOnce (eraseTrailer .primary) none)

theorem retriesConvergeOnBoard : ∃ st G H, Failed trailerBench SwapType.permanent.code awaitingBoard st G ∧
    blUpdateImageState trailerBench SwapType.permanent.code G = .ok kStatusSuccess H ∧
    ¬ HeaderSkipped trailerBench SwapType.permanent.code awaitingBoard G ∧
    (H.flash = (leaves (blUpdateImageState trailerBench.withoutFaults SwapType.permanent.code)
        awaitingBoard).flash ↔
      ¬ HeaderSkipped trailerBench SwapType.permanent.code awaitingBoard G) := by
  have first : Failed trailerBench SwapType.permanent.code awaitingBoard kStatusFail
      (leaves (blUpdateImageState trailerBench SwapType.permanent.code) awaitingBoard) :=
    ⟨endingReturned (by decide +kernel),failIsError⟩
  have second : blUpdateImageState trailerBench SwapType.permanent.code
      (leaves (blUpdateImageState trailerBench SwapType.permanent.code) awaitingBoard) =
      .ok kStatusSuccess _ := endingReturned (by decide +kernel)
  refine ⟨_,_,_,first,second,?_,retriesConverge rfl (failsOnceClean _ _) (.inr rfl)
    ((Steps.nil _).snoc first) second⟩
  intro skipped
  exact absurd skipped.after (by decide +kernel)

end AkNano.Retries
