import AkNano.SwapRuns

/-! What the reader says once a request for test has been written. The swap build looks
for the request in the dormant slot's trailer; the remap build is compiled without that
half of the reader and goes on reporting what it reported before. -/
namespace AkNano.Readback
open Memory Interrupted Platform FlashRead SwapState SlotLayout SwapEffects Session SwapRuns

def Reader : Event → Prop
  | .getImageState | .getUpdatePartitionInfo | .verifyImage .. => True
  | .updateImageState _ | .otaWrite _ => False

def requestedState (E : Env) (d : Device) : SwapType :=
  if E.build.flashRemapEnable then stateIn E d else .readyForTest

section Readers

variable {E : Env} {d t : Device}

theorem readersQuiet {s : Boot} {es : List Event} (run : Steps (Step E) ⟨t,[]⟩ es s)
    (readers : ∀ e ∈ es, Reader e) : Quiet t s.dev := by
  refine stepsInvariantAmong Reader (fun s => Quiet t s.dev) ?_ run readers (quietRefl t)
  intro s e u reader quiet step
  cases step with
  | getImageState => exact quietTrans quiet stateQuiet
  | getUpdatePartitionInfo => exact quietTrans quiet partitionQuiet
  | verifyImage data size => exact quietTrans quiet verifyQuiet
  | updateImageState state => exact absurd reader id
  | otaWrite granted inside => exact absurd reader id

theorem stateAfterRequest (remap : t.remap = d.remap)
    (flash : t.flash = marked d.flash (activeSlot E d).other) :
    stateIn E t = requestedState E d := by
  have same : activeSlot E t = activeSlot E d := activeSlotQuiet remap
  have active : trailerOf t.flash (activeSlot E d) = trailerOf d.flash (activeSlot E d) := by
    rw [flash]
    exact otherTrailer (rewrittenAgreeOff _ _ _)
  have dormant : trailerOf t.flash (activeSlot E d).other = markedTrailer := by
    rw [flash,markedTrailerOf]
  unfold stateIn requestedState
  rw [same,active,dormant,markedState]
  split
  case isTrue remapped => exact (remapState remapped d).symm
  case isFalse swapping => rfl

theorem requestRead (reads : E.ReadsSucceed slotsEnd)
    (request : blUpdateImageState E SwapType.readyForTest.code d = .ok kStatusSuccess t)
    {s : Boot} {es : List Event} (run : Steps (Step E) ⟨t,[]⟩ es s)
    (readers : ∀ e ∈ es, Reader e) :
    (∃ u, blGetImageState E s.dev = .ok (kStatusSuccess,some (requestedState E d)) u) ∧
    ∃ u, blGetUpdatePartitionInfo E s.dev =
      .ok (partitionFor (activeSlot E d) (requestedState E d)) u := by
  have done := testSucceeded (endedReturned (blUpdateImageStateEnds E d _) request)
  have quiet := readersQuiet run readers
  have remap : s.dev.remap = d.remap := quiet.remap.trans done.1
  have state : stateIn E s.dev = requestedState E d :=
    stateAfterRequest remap (quiet.flash.trans done.2)
  obtain ⟨u,_,reported⟩ := stateRuns s.dev reads
  obtain ⟨v,_,answered⟩ := partitionRuns s.dev reads
  rw [state] at reported answered
  rw [activeSlotQuiet remap] at answered
  exact ⟨⟨u,reported⟩,v,answered⟩

end Readers

theorem requestOverlooked : ∃ E : Env, E.build = Build.shipped ∧ E.Faultless ∧ ∃ d t,
    blUpdateImageState E SwapType.readyForTest.code d = .ok kStatusSuccess t ∧
    (∃ u, blGetImageState E t = .ok (kStatusSuccess,some .none) u) ∧
    ∃ u, blGetUpdatePartitionInfo E t =
      .ok (kStatusSuccess,slotPartition (activeSlot E d).other) u := by
  have faultless := benchFaultless Build.shipped
  obtain ⟨t,request,ends⟩ := testRuns (holding 0 []) faultless
  obtain ⟨remap,flash⟩ := testSucceeded ends
  have state : stateIn (bench Build.shipped allDone) t = .none :=
    (stateAfterRequest remap flash).trans blankState
  obtain ⟨u,_,reported⟩ := stateRuns t (faultless.reads slotsEnd)
  obtain ⟨v,_,answered⟩ := partitionRuns t (faultless.reads slotsEnd)
  rw [state] at reported answered
  rw [activeSlotQuiet remap] at answered
  exact ⟨_,rfl,faultless,holding 0 [],t,request,⟨u,reported⟩,v,answered⟩

def readBack : List Event :=
  [.getImageState,.verifyImage 2359296 64,.getUpdatePartitionInfo,.getImageState]

def ReadBack (E : Env) (state : SwapType) : Prop := ∃ t s,
  blUpdateImageState E SwapType.readyForTest.code awaitingBoard = .ok kStatusSuccess t ∧
  Steps (Step E) ⟨t,[]⟩ readBack s ∧
  (∃ u, blGetImageState E s.dev = .ok (kStatusSuccess,some state) u) ∧
  ∃ u, blGetUpdatePartitionInfo E s.dev = .ok (partitionFor .primary state) u

theorem requestReadOnBoard : ReadBack shippedBench .testing ∧ ReadBack swapBench .readyForTest := by
  have reading : ∀ build, activeSlot (bench build allDone) awaitingBoard = .primary →
      ReadBack (bench build allDone) (requestedState (bench build allDone) awaitingBoard) := by
    intro build here
    have faultless := benchFaultless build
    obtain ⟨t,request,_⟩ := testRuns awaitingBoard faultless
    have run : Steps (Step (bench build allDone)) ⟨t,[]⟩ readBack _ :=
      (Steps.nil _).snoc (.getImageState _) |>.snoc (.verifyImage _ 2359296 64)
        |>.snoc (.getUpdatePartitionInfo _) |>.snoc (.getImageState _)
    have read := requestRead (faultless.reads _) request run (by simp [readBack,Reader])
    rw [here] at read
    exact ⟨t,_,request,run,read⟩
  exact ⟨reading Build.shipped rfl,reading ⟨false,true,false⟩ rfl⟩

end AkNano.Readback
