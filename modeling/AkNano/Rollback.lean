import AkNano.Confirmation

/-! The previous image while the running one is under test. Nobody is granted its slot as
long as the active trailer awaits confirmation, and nothing in it changes but its own
trailer sector, which a request for test rewrites without a look at the state. -/
namespace AkNano.Rollback
open Memory Interrupted Platform FlashRead SwapState SlotLayout SwapEffects Session SwapRuns
open Confirmation

def TestState (state : SwapType) : Prop := state = .testing ∨ state = .readyForTest

section UnderTest

variable {E : Env} {d : Device}

theorem swapOkLeft (clean : E.Clean) {t o} (h : SwapOkEnd E d o t) : t.flash = d.flash ∨
    Pending (trailerOf d.flash (activeSlot E d)) ∧ (t.flash = wiped d.flash (activeSlot E d) ∨
      Confirmed (trailerOf t.flash (activeSlot E d))) := by
  by_cases success : o = some kStatusSuccess
  · subst success
    rcases (swapOkSucceeded h).2 with ⟨_,same⟩ | ⟨pending,done⟩
    · exact .inl same
    · rw [done,confirmedFlashTrailer]
      exact .inr ⟨pending,.inr (confirmedOfPending pending)⟩
  · rcases swapOkUnfinished clean h success with same | ⟨pending,blank | done⟩
    · exact .inl same
    · exact .inr ⟨pending,.inl blank⟩
    · rw [done,confirmedTrailerOf]
      exact .inr ⟨pending,.inr (confirmedOfPending pending)⟩

theorem swapOkStillAwaiting (clean : E.Clean) {t o} (h : SwapOkEnd E d o t)
    (awaiting : Awaiting (trailerOf t.flash (activeSlot E d))) : t.flash = d.flash := by
  rcases swapOkLeft clean h with same | ⟨_,blank | done⟩
  · exact same
  · rw [blank,wipedTrailer] at awaiting
    exact absurd awaiting.1 erasedNotCandidate
  · exact absurd awaiting (confirmedNotAwaiting done)

theorem readBackPlain (plain : E.build.pageIntegrityChecks = false) {s t}
    (h : ReadBack E d s t) : t = trailerOf d.flash s := by
  rcases h.shown with own | ⟨_,checks,_⟩
  · exact own
  · rw [plain] at checks
    contradiction

theorem grantsNothing (plain : E.build.pageIntegrityChecks = false)
    (state : TestState (stateIn E d)) :
    grantedBy (ending (blGetUpdatePartitionInfo E) d) = [] := by
  have h := endedLeaves (blGetUpdatePartitionInfoEnds E d)
  have failed : kStatusFail ≠ kStatusSuccess := by decide
  generalize ending (blGetUpdatePartitionInfo E) d = o at h
  cases h with
  | failed quiet fault => rw [grantedBy,if_neg failed]
  | cut quiet fault => rfl
  | refused quiet active dormant busy => rw [grantedBy,if_neg failed]
  | granted quiet active dormant free =>
    rw [readBackPlain plain active,readBackPlain plain dormant] at free
    rcases state with testing | ready
    · exact absurd testing free.2
    · exact absurd ready free.1

theorem dormantState {b : Build} {active dormant : ImageTrailer}
    (rewritten : dormant = erasedTrailer ∨ dormant = markedTrailer)
    (awaiting : underTest active = true) : TestState (stateOf b active dormant) := by
  have testing : activeState active = .testing := if_pos awaiting
  rcases rewritten with blank | mark
  · rw [blank,erasedState]
    exact .inl testing
  · rw [mark,markedState]
    split
    · exact .inl testing
    · exact .inr rfl

theorem testingAwaits {t : Device}
    (reports : blGetImageState E.withoutFaults d = .ok (kStatusSuccess,some .testing) t) :
    stateIn E d = .testing ∧ Awaiting (trailerOf d.flash (activeSlot E d)) := by
  have reads := (withoutFaultsFaultless E).reads slotsEnd
  have state : stateIn E d = .testing := stateReported d reads reports
  refine ⟨state,(underTestExact _ _).mp ?_⟩
  unfold stateIn stateOf activeState at state
  split at state
  · split at state
    · assumption
    · contradiction
  · split at state
    · split at state
      · contradiction
      · split at state
        · contradiction
        · contradiction
    · split at state
      · split at state
        · assumption
        · contradiction
      · contradiction

structure Protected (E : Env) (d : Device) (s : Boot) : Prop where
  grants : s.granted = []
  body : AgreeOn (activeSlot E d).other.start (slotSize - mflashSectorSize) d.flash s.dev.flash
  state : TestState (stateIn E s.dev)

structure UnderTest (E : Env) (d : Device) (s : Boot) : Prop where
  within : WithinSlots E d s
  held : Awaiting (trailerOf s.dev.flash (activeSlot E d)) → Protected E d s

theorem protectedSame {s : Boot} {t : Device} (remap : t.remap = s.dev.remap)
    (flash : t.flash = s.dev.flash) (h : Protected E d s) : Protected E d {s with dev := t} := by
  have same : activeSlot E t = activeSlot E s.dev := activeSlotQuiet remap
  refine ⟨h.grants,?_,?_⟩
  · change AgreeOn _ _ d.flash t.flash
    rw [flash]
    exact h.body
  · have state := h.state
    unfold stateIn at state ⊢
    rw [same,flash]
    exact state

theorem protectedQuiet {s : Boot} {t : Device} (quiet : Quiet s.dev t)
    (held : Awaiting (trailerOf s.dev.flash (activeSlot E d)) → Protected E d s)
    (awaiting : Awaiting (trailerOf t.flash (activeSlot E d))) :
    Protected E d {s with dev := t} := by
  rw [quiet.flash] at awaiting
  exact protectedSame quiet.remap quiet.flash (held awaiting)

theorem sectorOutsideBody {s : Slot} {f g : Bytes}
    (h : AgreeOff (s.stop - mflashSectorSize) mflashSectorSize f g) :
    AgreeOn s.start (slotSize - mflashSectorSize) f g := by
  apply agreeOnOfAgreeOff h
  simp only [stopEq,slotSize,mflashSectorSize]
  omega

theorem protectedTest (clean : E.Clean) {s : Boot} {o : Option Status} {t : Device}
    (slot : activeSlot E s.dev = activeSlot E d)
    (ends : UpdateEnd E s.dev SwapType.readyForTest.code o t)
    (held : Awaiting (trailerOf s.dev.flash (activeSlot E d)) → Protected E d s)
    (awaiting : Awaiting (trailerOf t.flash (activeSlot E d))) :
    Protected E d {s with dev := t} := by
  have remap : t.remap = s.dev.remap := (updateConfined ends).remap
  have same : activeSlot E t = activeSlot E d := (activeSlotQuiet remap).trans slot
  have left := testLeft clean ends
  rw [slot] at left
  have sector : AgreeOff ((activeSlot E d).other.stop - mflashSectorSize) mflashSectorSize
      s.dev.flash t.flash := by
    rcases left with same | blank | mark
    · rw [same]
      exact agreeOffRefl _ _ _
    · rw [blank]
      exact wipedAgreeOff _ _
    · rw [mark]
      exact rewrittenAgreeOff _ _ _
  have before := awaiting
  rw [otherTrailer sector] at before
  have protected' := held before
  refine ⟨protected'.grants,?_,?_⟩
  · intro i inside
    exact (sectorOutsideBody sector i inside).trans (protected'.body i inside)
  · have testing : underTest (trailerOf t.flash (activeSlot E t)) = true := by
      rw [same]
      exact (underTestExact _ _).mpr awaiting
    rcases left with kept | blank | mark
    · exact (protectedSame remap kept protected').state
    · have dormant : trailerOf t.flash (activeSlot E t).other = erasedTrailer := by
        rw [blank,same,wipedTrailer]
      exact dormantState (.inl dormant) testing
    · have dormant : trailerOf t.flash (activeSlot E t).other = markedTrailer := by
        rw [mark,same,markedTrailerOf]
      exact dormantState (.inr dormant) testing

theorem writerConfirmed {s : Boot} {p : Partition} {f : Bytes} (h : UnderTest E d s)
    (granted : p ∈ s.granted) (inside : AgreeOff p.start p.size s.dev.flash f) :
    ¬ Awaiting (trailerOf f (activeSlot E d)) := by
  intro awaiting
  rw [h.within.grants p granted] at inside
  have layout := startCases (activeSlot E d)
  have kept := trailerKept (s := activeSlot E d) inside
    (by simp only [slotPartition,slotSize,stopEq,imageTrailerSize]; omega)
  rw [kept] at awaiting
  rw [(h.held awaiting).grants] at granted
  exact absurd granted List.not_mem_nil

theorem stepUnderTest (clean : E.Clean) (plain : E.build.pageIntegrityChecks = false) {s t : Boot}
    {e : Event} (h : UnderTest E d s) (step : Step E s e t) : UnderTest E d t := by
  have slot : activeSlot E s.dev = activeSlot E d := activeSlotQuiet h.within.confined.remap
  refine ⟨stepKeepsSlots h.within step,?_⟩
  intro awaiting
  cases step with
  | getImageState => exact protectedQuiet stateQuiet h.held awaiting
  | getUpdatePartitionInfo =>
    have quiet : Quiet s.dev (leaves (blGetUpdatePartitionInfo E) s.dev) := partitionQuiet
    have kept := protectedQuiet quiet h.held awaiting
    rw [quiet.flash] at awaiting
    have none := grantsNothing plain (h.held awaiting).state
    refine ⟨?_,kept.body,kept.state⟩
    rw [none]
    exact kept.grants
  | verifyImage data size => exact protectedQuiet verifyQuiet h.held awaiting
  | updateImageState state =>
    have ends := endedLeaves (blUpdateImageStateEnds E s.dev state)
    change Awaiting (trailerOf (leaves (blUpdateImageState E state) s.dev).flash _) at awaiting
    generalize leaves (blUpdateImageState E state) s.dev = t at ends awaiting
    generalize ending (blUpdateImageState E state) s.dev = o at ends
    have remap : t.remap = s.dev.remap := (updateConfined ends).remap
    cases ends with
    | test asked part => exact protectedTest clean slot (.test rfl part) h.held awaiting
    | confirm asked part =>
      rw [← slot] at awaiting
      have same := swapOkStillAwaiting clean part awaiting
      rw [same,slot] at awaiting
      exact protectedSame remap same (h.held awaiting)
    | invalid other => exact h.held awaiting
  | otaWrite granted inside =>
    exact absurd awaiting (writerConfirmed h granted inside)

theorem underTestStart {t : Device}
    (reports : blGetImageState E.withoutFaults d = .ok (kStatusSuccess,some .testing) t) :
    UnderTest E d ⟨d,[]⟩ :=
  ⟨⟨confinedQuiet (quietRefl d),by simp⟩,
    fun _ => ⟨rfl,agreeOnRefl _ _ _,.inl (testingAwaits reports).1⟩⟩

structure Untouched (E : Env) (d : Device) (s : Boot) : Prop where
  underTest : UnderTest E d s
  same : Awaiting (trailerOf s.dev.flash (activeSlot E d)) → s.dev.flash = d.flash

theorem stepUntouched (clean : E.Clean) (plain : E.build.pageIntegrityChecks = false) {s t : Boot}
    {e : Event} (other : e ≠ .updateImageState SwapType.readyForTest.code) (h : Untouched E d s)
    (step : Step E s e t) : Untouched E d t := by
  refine ⟨stepUnderTest clean plain h.underTest step,?_⟩
  have slot : activeSlot E s.dev = activeSlot E d :=
    activeSlotQuiet h.underTest.within.confined.remap
  have still : ∀ {u : Device}, u.flash = s.dev.flash →
      Awaiting (trailerOf u.flash (activeSlot E d)) → u.flash = d.flash := by
    intro u same awaiting
    rw [same] at awaiting ⊢
    exact h.same awaiting
  intro awaiting
  cases step with
  | getImageState => exact still stateQuiet.flash awaiting
  | getUpdatePartitionInfo => exact still partitionQuiet.flash awaiting
  | verifyImage data size => exact still verifyQuiet.flash awaiting
  | updateImageState state =>
    have ends := endedLeaves (blUpdateImageStateEnds E s.dev state)
    change Awaiting (trailerOf (leaves (blUpdateImageState E state) s.dev).flash _) at awaiting
    change (leaves (blUpdateImageState E state) s.dev).flash = d.flash
    generalize leaves (blUpdateImageState E state) s.dev = t at ends awaiting ⊢
    generalize ending (blUpdateImageState E state) s.dev = o at ends
    cases ends with
    | test asked part => exact absurd (congrArg Event.updateImageState asked) other
    | confirm asked part =>
      have here := awaiting
      rw [← slot] at here
      exact still (swapOkStillAwaiting clean part here) awaiting
    | invalid _ => exact still rfl awaiting
  | otaWrite granted inside => exact absurd awaiting (writerConfirmed h.underTest granted inside)

/-! Short of a confirmed trailer the calls leave the dormant slot alone, but for the sector
that a request for test rewrites, whatever is read and whoever is granted what. -/

theorem swapOkOpen (clean : E.Clean) {t o} (h : SwapOkEnd E d o t)
    (unconfirmed : ¬ Confirmed (trailerOf t.flash (activeSlot E d))) :
    ¬ Confirmed (trailerOf d.flash (activeSlot E d)) ∧
    AgreeOn (activeSlot E d).other.start slotSize d.flash t.flash := by
  rcases swapOkLeft clean h with same | ⟨pending,blank | done⟩
  · rw [same] at unconfirmed ⊢
    exact ⟨unconfirmed,agreeOnRefl _ _ _⟩
  · refine ⟨pendingNotConfirmed pending,?_⟩
    have inside := lastSectorInside (activeSlot E d)
    rw [blank]
    apply otherSlotKept (wipedAgreeOff _ _)
    all_goals rw [otherOther]
    · exact inside.1
    · exact inside.2
  · exact absurd done unconfirmed

structure Spares (E : Env) (d : Device) (len : Nat) (s : Boot) : Prop where
  remap : s.dev.remap = d.remap
  kept : ¬ Confirmed (trailerOf s.dev.flash (activeSlot E d)) →
    AgreeOn (activeSlot E d).other.start len d.flash s.dev.flash

def Leaves (len : Nat) (e : Event) : Prop :=
  (∀ p, e ≠ .otaWrite p) ∧
  (e = .updateImageState SwapType.readyForTest.code → len ≤ slotSize - mflashSectorSize)

theorem sparesQuiet {len : Nat} {s : Boot} {t : Device} {ps : List Partition} (h : Spares E d len s)
    (quiet : Quiet s.dev t) : Spares E d len ⟨t,ps⟩ := by
  refine ⟨quiet.remap.trans h.remap,?_⟩
  rw [quiet.flash]
  exact h.kept

theorem stepSpares (clean : E.Clean) {len : Nat} (fits : len ≤ slotSize) {s t : Boot} {e : Event}
    (leaves' : Leaves len e) (h : Spares E d len s) (step : Step E s e t) : Spares E d len t := by
  have slot : activeSlot E s.dev = activeSlot E d := activeSlotQuiet h.remap
  cases step with
  | getImageState => exact sparesQuiet h stateQuiet
  | getUpdatePartitionInfo => exact sparesQuiet h partitionQuiet
  | verifyImage data size => exact sparesQuiet h verifyQuiet
  | updateImageState state =>
    have ends := endedLeaves (blUpdateImageStateEnds E s.dev state)
    refine ⟨(updateConfined ends).remap.trans h.remap,?_⟩
    intro unconfirmed
    change ¬ Confirmed (trailerOf (leaves (blUpdateImageState E state) s.dev).flash _) at unconfirmed
    change AgreeOn _ _ _ (leaves (blUpdateImageState E state) s.dev).flash
    generalize leaves (blUpdateImageState E state) s.dev = t at ends unconfirmed ⊢
    generalize ending (blUpdateImageState E state) s.dev = o at ends
    cases ends with
    | test asked part =>
      have sector := rewriteFrame part
      rw [slot] at sector
      rw [otherTrailer sector] at unconfirmed
      have before := h.kept unconfirmed
      have small := leaves'.2 (congrArg Event.updateImageState asked)
      intro i inside
      exact (sectorOutsideBody sector i (by omega)).trans (before i inside)
    | confirm asked part =>
      rw [← slot] at unconfirmed
      obtain ⟨before,same⟩ := swapOkOpen clean part unconfirmed
      rw [slot] at before same
      intro i inside
      exact (same i (by omega)).trans (h.kept before i inside)
    | invalid other => exact h.kept unconfirmed
  | otaWrite granted inside => exact absurd rfl (leaves'.1 _)

theorem runSpares (clean : E.Clean) {len : Nat} (fits : len ≤ slotSize) {t : Boot} {es : List Event}
    (run : Steps (Step E) ⟨d,[]⟩ es t) (leaves' : ∀ e ∈ es, Leaves len e)
    (unconfirmed : ¬ Confirmed (trailerOf t.dev.flash (activeSlot E d))) :
    AgreeOn (activeSlot E d).other.start len d.flash t.dev.flash :=
  (stepsInvariantAmong (Leaves len) (Spares E d len)
    (fun _ _ _ leaves' h step => stepSpares clean fits leaves' h step) run leaves'
    ⟨rfl,fun _ => agreeOnRefl _ _ _⟩).kept unconfirmed

/-! A trailer that awaited confirmation awaits it still, or is confirmed, or has been lost. -/

structure Fate (E : Env) (d : Device) (s : Boot) : Prop where
  within : WithinSlots E d s
  trailer : Awaiting (trailerOf s.dev.flash (activeSlot E d)) ∨
    Confirmed (trailerOf s.dev.flash (activeSlot E d)) ∨
    trailerOf s.dev.flash (activeSlot E d) = erasedTrailer

theorem fateUpdate (clean : E.Clean) {s : Boot} {state : UInt32} {o : Option Status} {t : Device}
    (h : Fate E d s) (ends : UpdateEnd E s.dev state o t) :
    Awaiting (trailerOf t.flash (activeSlot E d)) ∨ Confirmed (trailerOf t.flash (activeSlot E d)) ∨
      trailerOf t.flash (activeSlot E d) = erasedTrailer := by
  have slot : activeSlot E s.dev = activeSlot E d := activeSlotQuiet h.within.confined.remap
  cases ends with
  | test asked part =>
    have sector := rewriteFrame part
    rw [slot] at sector
    rw [otherTrailer sector]
    exact h.trailer
  | confirm asked part =>
    have left := swapOkLeft clean part
    rw [slot] at left
    rcases left with same | ⟨_,blank | done⟩
    · rw [same]
      exact h.trailer
    · rw [blank,wipedTrailer]
      exact .inr (.inr rfl)
    · exact .inr (.inl done)
  | invalid other => exact h.trailer

theorem stepFate (clean : E.Clean) {s t : Boot} {e : Event} (h : Fate E d s) (step : Step E s e t) :
    Fate E d t := by
  refine ⟨stepKeepsSlots h.within step,?_⟩
  have trailer := h.trailer
  cases step with
  | getImageState => rwa [← stateQuiet.flash] at trailer
  | getUpdatePartitionInfo => rwa [← partitionQuiet.flash] at trailer
  | verifyImage data size => rwa [← verifyQuiet.flash] at trailer
  | updateImageState state =>
    exact fateUpdate clean h (endedLeaves (blUpdateImageStateEnds E s.dev state))
  | otaWrite granted inside =>
    rw [h.within.grants _ granted] at inside
    have layout := startCases (activeSlot E d)
    have kept := trailerKept (s := activeSlot E d) inside
      (by simp only [slotPartition,slotSize,stopEq,imageTrailerSize]; omega)
    rwa [← kept] at trailer

end UnderTest

theorem boardTesting {E : Env} (remapped : E.build.flashRemapEnable = true) :
    ∃ u, blGetImageState E.withoutFaults awaitingBoard = .ok (kStatusSuccess,some .testing) u := by
  obtain ⟨u,_,run⟩ := stateRuns awaitingBoard ((withoutFaultsFaultless E).reads slotsEnd)
  have slot : activeSlot E.withoutFaults awaitingBoard = .primary := remapSlot remapped awaitingBoard
  have state : stateIn E.withoutFaults awaitingBoard = .testing := by
    rw [remapState (E := E.withoutFaults) remapped,slot]
    exact if_pos ((underTestExact _ _).mpr boardAwaiting)
  rw [state] at run
  exact ⟨u,run⟩

theorem requestRewrites : ∃ t,
    Steps (Step (bench Build.shipped allDone)) ⟨awaitingBoard,[]⟩
      [.updateImageState SwapType.readyForTest.code] t ∧
    ¬ Confirmed (trailerOf t.dev.flash .primary) ∧
    ¬ AgreeOn Slot.secondary.start slotSize awaitingBoard.flash t.dev.flash := by
  obtain ⟨t,run,ends⟩ := testRuns awaitingBoard (benchFaultless Build.shipped)
  have wrote : t.flash = marked awaitingBoard.flash .secondary := (testSucceeded ends).2
  have steps := Steps.snoc (Steps.nil (Boot.mk awaitingBoard []))
    (Step.updateImageState (E := bench Build.shipped allDone) _ SwapType.readyForTest.code)
  rw [leavesReturned run] at steps
  refine ⟨_,steps,?_,?_⟩
  · have kept : trailerOf t.flash .primary = trailerOf awaitingBoard.flash .primary := by
      rw [wrote]
      exact otherTrailer (rewrittenAgreeOff _ _ _)
    change ¬ Confirmed (trailerOf t.flash .primary)
    rw [kept]
    decide
  · intro same
    have last := same 2097151 (by decide)
    change t.flash (Slot.secondary.start + 2097151) = _ at last
    rw [wrote] at last
    revert last
    decide

theorem grantedEnding {E : Env} {d t : Device} {p : Partition}
    (run : blGetUpdatePartitionInfo E d = .ok (kStatusSuccess,p) t) :
    grantedBy (ending (blGetUpdatePartitionInfo E) d) = [p] := by
  rw [endingOk run]
  rfl

theorem lostTrailerGrants : ∃ t,
    Steps (Step (bench Build.shipped programFails)) ⟨awaitingBoard,[]⟩
      [.updateImageState SwapType.permanent.code,.getUpdatePartitionInfo] t ∧
    ¬ Confirmed (trailerOf t.dev.flash .primary) ∧ t.granted ≠ [] := by
  have first := Steps.snoc (Steps.nil (Boot.mk awaitingBoard []))
    (Step.updateImageState (E := bench Build.shipped programFails) _ SwapType.permanent.code)
  have lost := boardLost
  have slot : activeSlot (bench Build.shipped programFails) (leaves (blUpdateImageState
      (bench Build.shipped programFails) SwapType.permanent.code) awaitingBoard) = .primary :=
    slotAfterUpdate.trans (remapSlot rfl awaitingBoard)
  generalize leaves (blUpdateImageState (bench Build.shipped programFails) SwapType.permanent.code)
    awaitingBoard = d at first lost slot
  have blank : trailerOf d.flash .primary = erasedTrailer := by rw [lost,wipedTrailer]
  have state : stateIn (bench Build.shipped programFails) d = .none := by
    rw [remapState rfl,slot,blank]
    decide
  obtain ⟨u,quiet,run⟩ := partitionRuns d (programFailsReads Build.shipped slotsEnd)
  rw [state] at run
  have second := Steps.snoc first (Step.getUpdatePartitionInfo _)
  rw [leavesReturned run,grantedEnding run] at second
  refine ⟨_,second,?_,by simp⟩
  change ¬ Confirmed (trailerOf u.flash .primary)
  rw [quiet.flash,blank]
  exact fun confirmed => erasedNotCandidate confirmed.1

def blindBench : Env := bench ⟨true,true,true⟩ fun
  | _, .isReadable _ => .failed ⟨kStatusFail,failIsError⟩ none
  | _, _ => .done

theorem blindClean : blindBench.Clean := by
  intro calls c status garbage h
  cases c with
  | isReadable addr => cases h; rfl
  | read addr dst len => cases h
  | phys2log addr len => cases h
  | sectorErase addr => cases h
  | pageProgram addr => cases h

theorem blindTrailer (p : Nat) (d : Device) (s : Slot) : ∃ mem t, Quiet d t ∧
    flashRead blindBench (s.stop - imageTrailerSize) p blindBench.stack imageTrailerSize d =
      .ok (kStatusSuccess,mem) t ∧ trailerAt mem p = erasedTrailer := by
  have page : readPage blindBench (s.stop - imageTrailerSize) p blindBench.stack imageTrailerSize d =
      .ok (kStatusSuccess,overlay blindBench.stack p imageTrailerSize (fun _ => 0xff))
        (d.log (.isReadable (s.stop - imageTrailerSize))) := by
    have checks : blindBench.build.pageIntegrityChecks = true := rfl
    rw [readPage,if_pos checks]
    rfl
  have inPage : (s.stop - imageTrailerSize) % mflashPageSize + imageTrailerSize ≤ mflashPageSize := by
    cases s <;> decide
  refine ⟨_,_,quietLog d rfl,onePageRead inPage (by decide) page,?_⟩
  apply trailerCongr
  intro i small
  exact overlayIn _ _ _ _ (show i < imageTrailerSize from small)

theorem blindState (d : Device) :
    ∃ t, blGetImageState blindBench d = .ok (kStatusSuccess,some .none) t := by
  have areas := areaOffsets blindBench.board
  obtain ⟨m1,t1,_,first,unset1⟩ := blindTrailer blindBench.imageTrailer1 d .primary
  obtain ⟨m2,t2,_,second,unset2⟩ := blindTrailer blindBench.imageTrailer2 t1 .secondary
  have none : stateOf blindBench.build erasedTrailer erasedTrailer = .none := by decide
  refine ⟨t2,?_⟩
  rw [blGetImageState,areas.2.2.1,areas.2.2.2,returnedThen first,if_neg (by simp),
    returnedThen second,if_neg (by simp)]
  change (if getActiveImage blindBench t2 = primarySlotActive then _ else _ : Fw _) t2 = _
  rw [unset1,unset2,none,ite_self]
  rfl

theorem blindGrants : ∃ t,
    Steps (Step blindBench) ⟨awaitingBoard,[]⟩ [.getUpdatePartitionInfo] t ∧
    Awaiting (trailerOf t.dev.flash .primary) ∧ t.granted ≠ [] := by
  obtain ⟨u,state⟩ := blindState awaitingBoard
  have run : blGetUpdatePartitionInfo blindBench awaitingBoard =
      .ok (kStatusSuccess,slotPartition (activeSlot blindBench u).other) u := by
    rw [blGetUpdatePartitionInfo,returnedThen state,if_neg (by simp),if_neg (by simp)]
    change (if getActiveImage blindBench u = primarySlotActive then _ else _ : Fw _) u = _
    rw [inactivePartition]
    rfl
  have steps := Steps.snoc (Steps.nil (Boot.mk awaitingBoard []))
    (Step.getUpdatePartitionInfo (E := blindBench) _)
  have quiet : Quiet awaitingBoard (leaves (blGetUpdatePartitionInfo blindBench) awaitingBoard) :=
    partitionQuiet
  rw [leavesReturned run] at quiet
  rw [leavesReturned run,grantedEnding run] at steps
  refine ⟨_,steps,?_,by simp⟩
  change Awaiting (trailerOf u.flash .primary)
  rw [quiet.flash]
  exact boardAwaiting

abbrev stubbornBench : Env := bench Build.shipped (failsOnce (eraseTrailer .primary) none)

def trying : List Event :=
  [.getUpdatePartitionInfo,.updateImageState SwapType.permanent.code,
    .updateImageState SwapType.readyForTest.code,.getImageState,.getUpdatePartitionInfo]

end AkNano.Rollback
