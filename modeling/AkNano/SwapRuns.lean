import AkNano.Session

/-! The ends of the update calls sorted by what the caller is told: what a success has
done, what an unfinished call may have left behind when failing operations change
nothing, and the calls that succeed because the driver does. -/
namespace AkNano.SwapRuns
open Memory Interrupted Platform FlashRead SwapState SlotLayout SwapEffects Session

def confirmedFlash (E : Env) (d : Device) : Bytes :=
  if E.build.flashRemapDowngradeSupport then
    headerErased (confirmed d.flash (activeSlot E d)) (activeSlot E d).other
  else confirmed d.flash (activeSlot E d)

def stateIn (E : Env) (d : Device) : SwapType :=
  stateOf E.build (trailerOf d.flash (activeSlot E d)) (trailerOf d.flash (activeSlot E d).other)

theorem remapState {E : Env} (remapped : E.build.flashRemapEnable = true) (d : Device) :
    stateIn E d = activeState (trailerOf d.flash (activeSlot E d)) := if_pos remapped

theorem erasedState (b : Build) (active : ImageTrailer) :
    stateOf b active erasedTrailer = activeState active := by
  have magic : bootImgMagicCheck erasedTrailer.magic = false := by decide
  have unset : checkUnset erasedTrailer.magic = true := by decide
  unfold stateOf
  rw [magic,unset]
  simp

theorem markedState (b : Build) (active : ImageTrailer) : stateOf b active markedTrailer =
    if b.flashRemapEnable then activeState active else .readyForTest := by
  have magic : bootImgMagicCheck markedTrailer.magic = true := by decide
  have unset : checkUnset [markedTrailer.imageOk] = true := by decide
  unfold stateOf
  rw [magic,unset]
  simp

def partitionFor (s : Slot) (state : SwapType) : Status × Partition :=
  if state = .readyForTest ∨ state = .testing then (kStatusFail,⟨0,0⟩)
  else (kStatusSuccess,slotPartition s.other)

theorem confirmedFlashTrailer (E : Env) (d : Device) :
    trailerOf (confirmedFlash E d) (activeSlot E d) =
      confirmedTrailer (trailerOf d.flash (activeSlot E d)) := by
  unfold confirmedFlash
  split
  · rw [headerTrailerKept,confirmedTrailerOf]
  · exact confirmedTrailerOf _ _

section Succeeded

variable {E : Env} {d t : Device}

theorem rewriteSucceeded {s page} (h : RewriteEnd E d s page (some kStatusSuccess) t) :
    t.remap = d.remap ∧ t.flash = rewritten d.flash s page := by
  refine ⟨rewriteRemap h,?_⟩
  cases h with
  | done erased programmed => exact wroteFlash _ _ _
  | eraseFailed bad fault torn => exact absurd rfl bad
  | programFailed bad fault torn => exact absurd rfl bad

theorem testSucceeded (h : UpdateEnd E d SwapType.readyForTest.code (some kStatusSuccess) t) :
    t.remap = d.remap ∧ t.flash = marked d.flash (activeSlot E d).other := by
  cases h with
  | test asked part => exact rewriteSucceeded part
  | confirm asked part => exact absurd asked (by decide)

theorem swapOkSucceeded (h : SwapOkEnd E d (some kStatusSuccess) t) : t.remap = d.remap ∧
    (Confirmed (trailerOf d.flash (activeSlot E d)) ∧ t.flash = d.flash ∨
      Pending (trailerOf d.flash (activeSlot E d)) ∧ t.flash = confirmedFlash E d) := by
  refine ⟨(swapOkConfined h).remap,?_⟩
  unfold confirmedFlash
  cases h with
  | readFailed bad quiet fault => exact absurd rfl bad
  | already quiet was => exact .inl ⟨was,quiet.flash⟩
  | rewriting quiet was part failed => exact absurd rfl failed
  | finished quiet was part support =>
    have flash := (rewriteSucceeded part).2
    rw [quiet.flash] at flash
    exact .inr ⟨was,by rw [flash,if_neg (by simp [support])]; rfl⟩
  | header quiet was part support last =>
    have flash := (rewriteSucceeded part).2
    rw [quiet.flash] at flash
    refine .inr ⟨was,?_⟩
    rw [if_pos support]
    cases last with
    | done ok =>
      rw [wroteFlash,flash]
      rfl
    | failed bad fault torn => exact absurd rfl bad

theorem confirmSucceeded (h : UpdateEnd E d SwapType.permanent.code (some kStatusSuccess) t) :
    t.remap = d.remap ∧
    (Confirmed (trailerOf d.flash (activeSlot E d)) ∧ t.flash = d.flash ∨
      Pending (trailerOf d.flash (activeSlot E d)) ∧ t.flash = confirmedFlash E d) := by
  cases h with
  | test asked part => exact absurd asked (by decide)
  | confirm asked part => exact swapOkSucceeded part

end Succeeded

section Unfinished

variable {E : Env} {d t : Device} (clean : E.Clean)

include clean

theorem rewriteUnfinished {s page o} (h : RewriteEnd E d s page o t) (open' : o ≠ some kStatusSuccess) :
    t.flash = d.flash ∨ t.flash = wiped d.flash s := by
  cases h with
  | done erased programmed => exact absurd rfl open'
  | eraseFailed bad fault torn => exact .inl ((wroteFlash _ _ _).trans (torn.clean clean))
  | eraseCut fault => exact .inl (wroteFlash _ _ _)
  | programFailed bad fault torn => exact .inr ((wroteFlash _ _ _).trans (torn.clean clean))
  | programCut fault => exact .inr (wroteFlash _ _ _)

theorem testLeft {o} (h : UpdateEnd E d SwapType.readyForTest.code o t) :
    t.flash = d.flash ∨ t.flash = wiped d.flash (activeSlot E d).other ∨
      t.flash = marked d.flash (activeSlot E d).other := by
  by_cases success : o = some kStatusSuccess
  · subst success
    exact .inr (.inr (testSucceeded h).2)
  · cases h with
    | test asked part =>
      rcases rewriteUnfinished clean part success with same | blank
      · exact .inl same
      · exact .inr (.inl blank)
    | confirm asked part => exact absurd asked (by decide)
    | invalid other => exact .inl rfl

theorem swapOkUnfinished {o} (h : SwapOkEnd E d o t) (open' : o ≠ some kStatusSuccess) :
    t.flash = d.flash ∨ Pending (trailerOf d.flash (activeSlot E d)) ∧
      (t.flash = wiped d.flash (activeSlot E d) ∨ t.flash = confirmed d.flash (activeSlot E d)) := by
  cases h with
  | readFailed bad quiet fault => exact .inl quiet.flash
  | readCut quiet fault => exact .inl quiet.flash
  | noData quiet read absent => exact .inl quiet.flash
  | already quiet was => exact absurd rfl open'
  | rewriting quiet was part failed =>
    have left := rewriteUnfinished clean part open'
    rw [quiet.flash] at left
    rcases left with same | lost
    · exact .inl same
    · exact .inr ⟨was,.inl lost⟩
  | finished quiet was part support => exact absurd rfl open'
  | header quiet was part support last =>
    have flash := (rewriteSucceeded part).2
    rw [quiet.flash] at flash
    refine .inr ⟨was,.inr ?_⟩
    cases last with
    | done ok => exact absurd rfl open'
    | failed bad fault torn => exact (wroteFlash _ _ _).trans ((torn.clean clean).trans flash)
    | cut fault => exact (wroteFlash _ _ _).trans flash

end Unfinished

section Faultless

variable {E : Env} (d : Device)

theorem readBackExact {s t} (reads : E.ReadsSucceed slotsEnd) (h : ReadBack E d s t) :
    t = trailerOf d.flash s := by
  rcases h.shown with own | ⟨_,_,fault⟩
  · exact own
  · exact absurd fault reads.noFault

inductive SwapOkRead (E : Env) (d : Device) : Option Status → Device → Prop where
  | absent {t} (quiet : Quiet d t) (no : ¬ Candidate (trailerOf d.flash (activeSlot E d))) :
      SwapOkRead E d (some kStatusNoData) t
  | already {t} (quiet : Quiet d t) (was : Confirmed (trailerOf d.flash (activeSlot E d))) :
      SwapOkRead E d (some kStatusSuccess) t
  | rewriting {o t u} (quiet : Quiet d t) (was : Pending (trailerOf d.flash (activeSlot E d)))
      (part : RewriteEnd E t (activeSlot E d) (confirmedPage d.flash (activeSlot E d)) o u)
      (failed : o ≠ some kStatusSuccess) : SwapOkRead E d o u
  | finished {t u} (quiet : Quiet d t) (was : Pending (trailerOf d.flash (activeSlot E d)))
      (part : RewriteEnd E t (activeSlot E d) (confirmedPage d.flash (activeSlot E d))
        (some kStatusSuccess) u)
      (support : E.build.flashRemapDowngradeSupport = false) : SwapOkRead E d (some kStatusSuccess) u
  | header {o t u v} (quiet : Quiet d t) (was : Pending (trailerOf d.flash (activeSlot E d)))
      (part : RewriteEnd E t (activeSlot E d) (confirmedPage d.flash (activeSlot E d))
        (some kStatusSuccess) u)
      (support : E.build.flashRemapDowngradeSupport = true)
      (last : EraseEnd E u (activeSlot E d).other.start o v) : SwapOkRead E d o v

theorem swapOkRead {d : Device} (reads : E.ReadsSucceed slotsEnd) {o t} (h : SwapOkEnd E d o t) :
    SwapOkRead E d o t := by
  cases h with
  | readFailed bad quiet fault => exact absurd fault reads.noFault
  | readCut quiet fault => exact absurd fault reads.noFault
  | noData quiet read absent =>
    rw [readBackExact d reads read] at absent
    exact .absent quiet absent
  | already quiet was => exact .already quiet was
  | rewriting quiet was part failed => exact .rewriting quiet was part failed
  | finished quiet was part support => exact .finished quiet was part support
  | header quiet was part support last => exact .header quiet was part support last

theorem rewriteFaultless (faultless : E.Faultless) {d s page o t} (h : RewriteEnd E d s page o t) :
    o = some kStatusSuccess := by
  cases h with
  | done erased programmed => rfl
  | eraseFailed bad fault torn => exact absurd (faultless _ _) fault
  | eraseCut fault => rw [faultless] at fault; contradiction
  | programFailed bad fault torn => exact absurd (faultless _ _) fault
  | programCut fault => rw [faultless] at fault; contradiction

theorem testEndFaultless (faultless : E.Faultless) {o t}
    (h : UpdateEnd E d SwapType.readyForTest.code o t) : o = some kStatusSuccess := by
  cases h with
  | test asked part => exact rewriteFaultless faultless part
  | confirm asked part => exact absurd asked (by decide)
  | invalid other => exact absurd rfl other.1

theorem testRuns (faultless : E.Faultless) :
    ∃ t, blUpdateImageState E SwapType.readyForTest.code d = .ok kStatusSuccess t ∧
      UpdateEnd E d SwapType.readyForTest.code (some kStatusSuccess) t :=
  endedAlways (blUpdateImageStateEnds E d _) (fun _ _ => testEndFaultless d faultless)

theorem candidateEndFaultless (faultless : E.Faultless)
    (candidate : Candidate (trailerOf d.flash (activeSlot E d))) {o t} (h : SwapOkEnd E d o t) :
    o = some kStatusSuccess := by
  cases swapOkRead (faultless.reads slotsEnd) h with
  | absent quiet no => exact absurd candidate no
  | already quiet was => rfl
  | rewriting quiet was part failed => exact absurd (rewriteFaultless faultless part) failed
  | finished quiet was part support => rfl
  | header quiet was part support last =>
    cases last with
    | done ok => rfl
    | failed bad fault torn => exact absurd (faultless _ _) fault
    | cut fault => rw [faultless] at fault; contradiction

theorem absentEndFaultless (faultless : E.Faultless)
    (absent : ¬ Candidate (trailerOf d.flash (activeSlot E d))) {o t} (h : SwapOkEnd E d o t) :
    o = some kStatusNoData ∧ Quiet d t := by
  cases swapOkRead (faultless.reads slotsEnd) h with
  | absent quiet no => exact ⟨rfl,quiet⟩
  | already quiet was => exact absurd was.1 absent
  | rewriting quiet was part failed => exact absurd was.1 absent
  | finished quiet was part support => exact absurd was.1 absent
  | header quiet was part support last => exact absurd was.1 absent

theorem confirmEnd {o t} (h : UpdateEnd E d SwapType.permanent.code o t) : SwapOkEnd E d o t := by
  cases h with
  | test asked part => exact absurd asked (by decide)
  | confirm asked part => exact part
  | invalid other => exact absurd rfl other.2

theorem confirmRuns (faultless : E.Faultless)
    (candidate : Candidate (trailerOf d.flash (activeSlot E d))) :
    ∃ t, blUpdateImageState E SwapType.permanent.code d = .ok kStatusSuccess t ∧
      UpdateEnd E d SwapType.permanent.code (some kStatusSuccess) t :=
  endedAlways (blUpdateImageStateEnds E d _)
    (fun _ _ h => candidateEndFaultless d faultless candidate (confirmEnd d h))

theorem confirmAbsent (faultless : E.Faultless)
    (absent : ¬ Candidate (trailerOf d.flash (activeSlot E d))) :
    ∃ t, blUpdateImageState E SwapType.permanent.code d = .ok kStatusNoData t ∧ Quiet d t := by
  obtain ⟨t,run,h⟩ := endedAlways (blUpdateImageStateEnds E d SwapType.permanent.code)
    (fun _ _ h => (absentEndFaultless d faultless absent (confirmEnd d h)).1)
  exact ⟨t,run,(absentEndFaultless d faultless absent (confirmEnd d h)).2⟩

theorem stateEndExact (reads : E.ReadsSucceed slotsEnd) {o t} (h : StateEnd E d o t) :
    o = some (kStatusSuccess,some (stateIn E d)) := by
  cases h with
  | failed bad quiet fault => exact absurd fault reads.noFault
  | cut quiet fault => exact absurd fault reads.noFault
  | state quiet active dormant =>
    rw [readBackExact d reads active,readBackExact d reads dormant]
    rfl

theorem stateReported (reads : E.ReadsSucceed slotsEnd) {state : SwapType} {t : Device}
    (reports : blGetImageState E d = .ok (kStatusSuccess,some state) t) : stateIn E d = state := by
  have h := stateEndExact d reads (endedReturned (blGetImageStateEnds E d) reports)
  exact (Option.some.inj (Prod.mk.inj (Option.some.inj h)).2).symm

theorem stateRuns (reads : E.ReadsSucceed slotsEnd) :
    ∃ t, Quiet d t ∧ blGetImageState E d = .ok (kStatusSuccess,some (stateIn E d)) t := by
  obtain ⟨t,run,_⟩ := endedAlways (blGetImageStateEnds E d) (fun _ _ => stateEndExact d reads)
  have quiet : Quiet d (leaves (blGetImageState E) d) := stateQuiet
  rw [leavesReturned run] at quiet
  exact ⟨t,quiet,run⟩

theorem partitionEndExact (reads : E.ReadsSucceed slotsEnd) {o t} (h : PartitionEnd E d o t) :
    o = some (partitionFor (activeSlot E d) (stateIn E d)) := by
  unfold partitionFor
  cases h with
  | failed quiet fault => exact absurd fault reads.noFault
  | cut quiet fault => exact absurd fault reads.noFault
  | refused quiet active dormant busy =>
    rw [readBackExact d reads active,readBackExact d reads dormant] at busy
    have testing : stateIn E d = .readyForTest ∨ stateIn E d = .testing := busy
    rw [if_pos testing]
  | granted quiet active dormant free =>
    rw [readBackExact d reads active,readBackExact d reads dormant] at free
    have idle : ¬ (stateIn E d = .readyForTest ∨ stateIn E d = .testing) := not_or.mpr free
    rw [if_neg idle]

theorem partitionRuns (reads : E.ReadsSucceed slotsEnd) :
    ∃ t, Quiet d t ∧ blGetUpdatePartitionInfo E d =
      .ok (partitionFor (activeSlot E d) (stateIn E d)) t := by
  obtain ⟨t,run,_⟩ :=
    endedAlways (blGetUpdatePartitionInfoEnds E d) (fun _ _ => partitionEndExact d reads)
  have quiet : Quiet d (leaves (blGetUpdatePartitionInfo E) d) := partitionQuiet
  rw [leavesReturned run] at quiet
  exact ⟨t,quiet,run⟩

end Faultless

theorem blankState : stateIn (bench Build.shipped allDone) (holding 0 []) = .none := by
  rw [remapState rfl]
  decide

end AkNano.SwapRuns
