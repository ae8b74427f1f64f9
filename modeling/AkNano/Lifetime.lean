import AkNano.SwapRuns
import AkNano.TrialProtocol

/-! Boot after boot of the remap build, seen as trial updates of two copies. The
bootloader is not part of the repository: a reboot after a slot was marked is taken to
make that slot the active one, to program `copy_done` in its trailer and to change
nothing else in flash; a restart without it starts the same slot and changes nothing. -/
namespace AkNano.Lifetime
open Memory Interrupted Platform FlashRead SwapState SlotLayout SwapEffects Session SwapRuns
open TrialProtocol

def copyDoneOffset : Nat := 8

structure Reboot (E : Env) (s : Slot) (d t : Device) : Prop where
  active : activeSlot E t = s
  flash : t.flash = program d.flash (s.stop - imageTrailerSize + copyDoneOffset) 1 (fun _ => 0x01)

/-- A trailer that has the bootloader try its slot: unconfirmed, tried before or not. -/
structure Requested (t : ImageTrailer) : Prop where
  magic : t.magic = bootImgMagicBytes
  copyDone : t.copyDone = 0xff ∨ t.copyDone = 1
  imageOk : t.imageOk = 0xff

theorem markedRequested : Requested markedTrailer := ⟨rfl,.inl rfl,rfl⟩

inductive Life where
  | call (e : Event)
  | restart
  | reboot
  deriving DecidableEq, Repr

inductive LifeStep (E : Env) : Boot → Life → Boot → Prop where
  | call {s t : Boot} {e : Event} (step : Step E s e t) : LifeStep E s (.call e) t
  | restart {s : Boot} {d : Device} (same : activeSlot E d = activeSlot E s.dev)
      (flash : d.flash = s.dev.flash) : LifeStep E s .restart ⟨d,[]⟩
  | reboot {s : Boot} {d : Device}
      (marked : trailerOf s.dev.flash (activeSlot E s.dev).other = markedTrailer)
      (again : Reboot E (activeSlot E s.dev).other s.dev d) : LifeStep E s .reboot ⟨d,[]⟩

def copiesOf (E : Env) (d : Device) (invited : Bool) : Copies Slot where
  running := activeSlot E d
  onTrial := decide (Awaiting (trailerOf d.flash (activeSlot E d)))
  asked := decide (trailerOf d.flash (activeSlot E d).other = markedTrailer)
  invited := invited

def view (E : Env) (s : Boot) : Copies Slot := copiesOf E s.dev (!s.granted.isEmpty)

def callMove : Event → Move
  | .getImageState | .verifyImage .. => .look
  | .getUpdatePartitionInfo => .invite
  | .otaWrite _ => .write
  | .updateImageState state =>
    if state = SwapType.readyForTest.code then .ask
    else if state = SwapType.permanent.code then .confirm
    else .look

def moveOf : Life → Move
  | .call e => callMove e
  | .restart => .resume
  | .reboot => .restart

theorem moveConfirm (e : Life) :
    moveOf e = .confirm ↔ e = .call (.updateImageState SwapType.permanent.code) := by
  have apart : SwapType.readyForTest.code ≠ SwapType.permanent.code := by decide
  rcases e with ⟨_ | _ | _ | ⟨state⟩ | _⟩ | _ | _
  case call.updateImageState =>
    simp only [moveOf,callMove,Life.call.injEq,Event.updateImageState.injEq]
    split
    case isTrue test => simp [test,apart]
    case isFalse noTest =>
      split
      case isTrue confirm => simp [confirm]
      case isFalse noConfirm => simp [noConfirm]
  all_goals simp [moveOf,callMove]

def GrantsInactive (E : Env) (s : Boot) : Prop :=
  ∀ p ∈ s.granted, p = slotPartition (activeSlot E s.dev).other

theorem markedReboots {E : Env} (remapped : E.build.flashRemapEnable = true) (s : Slot) (d : Device) :
    ∃ t, Reboot E s d t := by
  refine ⟨⟨program d.flash (s.stop - imageTrailerSize + copyDoneOffset) 1 (fun _ => 0x01),
    if s = .secondary then 1 else 0,d.tmpBuf,[]⟩,?_,rfl⟩
  rw [remapSlot remapped]
  cases s <;> rfl

section Trailers

variable {E : Env} {d t : Device}

theorem requestedAwaits {s : Slot} (requested : Requested (trailerOf d.flash s))
    (again : Reboot E s d t) : Awaiting (trailerOf t.flash s) := by
  have outside : ∀ i, i ≠ copyDoneOffset → t.flash (s.stop - imageTrailerSize + i) =
      d.flash (s.stop - imageTrailerSize + i) := by
    intro i different
    rw [again.flash]
    exact overlayOut _ _ _ _ (by omega)
  have magic : (trailerOf t.flash s).magic = (trailerOf d.flash s).magic := by
    apply cellsEq.mpr
    intro i inside
    rw [Nat.add_assoc]
    exact outside _ (by simp only [magicOffset,copyDoneOffset]; omega)
  have imageOk : (trailerOf t.flash s).imageOk = (trailerOf d.flash s).imageOk :=
    outside imageOkOffset (by decide)
  have copyDone : (trailerOf t.flash s).copyDone = (trailerOf d.flash s).copyDone &&& 1 := by
    change t.flash (s.stop - imageTrailerSize + copyDoneOffset) = _
    rw [again.flash]
    exact overlayIn _ _ _ _ Nat.zero_lt_one
  have done : (trailerOf d.flash s).copyDone &&& 1 = 1 := by
    rcases requested.copyDone with unset | set
    · rw [unset]; decide
    · rw [set]; decide
  exact ⟨⟨magic.trans requested.magic,copyDone.trans done⟩,imageOk.trans requested.imageOk⟩

theorem rebootAwaits {s : Slot} (marked : trailerOf d.flash s = markedTrailer)
    (again : Reboot E s d t) : Awaiting (trailerOf t.flash s) :=
  requestedAwaits (by rw [marked]; exact markedRequested) again

theorem remapReports (remapped : E.build.flashRemapEnable = true) (d : Device) : stateIn E d =
    if Awaiting (trailerOf d.flash (activeSlot E d)) then .testing else .none := by
  have tested : underTest (trailerOf d.flash (activeSlot E d)) = true ↔
      Awaiting (trailerOf d.flash (activeSlot E d)) := underTestExact _ _
  rw [remapState remapped]
  unfold activeState
  by_cases awaiting : Awaiting (trailerOf d.flash (activeSlot E d))
  · rw [if_pos awaiting,if_pos (tested.mpr awaiting)]
  · rw [if_neg awaiting,if_neg (fun h => awaiting (tested.mp h))]

theorem copiesQuiet (quiet : Quiet d t) (invited : Bool) :
    copiesOf E t invited = copiesOf E d invited := by
  unfold copiesOf
  rw [activeSlotQuiet quiet.remap,quiet.flash]

end Trailers

section Simulation

variable {E : Env} {d t : Device}

theorem stepGrants {s t : Boot} {e : Event} (grants : GrantsInactive E s) (step : Step E s e t) :
    GrantsInactive E t := by
  have within : WithinSlots E s.dev s := ⟨confinedQuiet (quietRefl _),grants⟩
  have after := stepKeepsSlots within step
  unfold GrantsInactive
  rw [activeSlotQuiet after.confined.remap]
  exact after.grants

theorem lifeGrants {s t : Boot} {e : Life} (grants : GrantsInactive E s) (step : LifeStep E s e t) :
    GrantsInactive E t := by
  cases step with
  | call step => exact stepGrants grants step
  | restart same flash => exact fun p mem => absurd mem List.not_mem_nil
  | reboot marked again => exact fun p mem => absurd mem List.not_mem_nil

theorem confirmedFlashDormant (E : Env) (d : Device) :
    trailerOf (confirmedFlash E d) (activeSlot E d).other =
      trailerOf d.flash (activeSlot E d).other := by
  have kept := otherTrailerKept (rewrittenAgreeOff d.flash (activeSlot E d)
    (confirmedPage d.flash (activeSlot E d)))
  unfold confirmedFlash
  split
  · rw [headerTrailerKept]
    exact kept
  · exact kept

theorem settledMoves (invited : Bool) (remap : t.remap = d.remap)
    (settled : ¬ Awaiting (trailerOf t.flash (activeSlot E d)))
    (dormant : trailerOf t.flash (activeSlot E d).other = trailerOf d.flash (activeSlot E d).other) :
    Moves Slot.other (copiesOf E d invited) .confirm (copiesOf E t invited) := by
  have same : copiesOf E t invited = {copiesOf E d invited with onTrial := false} := by
    unfold copiesOf
    rw [activeSlotQuiet remap,dormant,decide_eq_false settled]
  rw [same]
  exact .confirm _

variable (faultless : E.Faultless)

include faultless

theorem askSimulated {o} (invited : Bool)
    (h : UpdateEnd E d SwapType.readyForTest.code o t) :
    Moves Slot.other (copiesOf E d invited) .ask (copiesOf E t invited) := by
  have success := testEndFaultless d faultless h
  subst success
  obtain ⟨remap,flash⟩ := testSucceeded h
  have active : trailerOf t.flash (activeSlot E d) = trailerOf d.flash (activeSlot E d) := by
    rw [flash]
    exact otherTrailer (rewrittenAgreeOff _ _ _)
  have asked : trailerOf t.flash (activeSlot E d).other = markedTrailer := by
    rw [flash,markedTrailerOf]
  have same : copiesOf E t invited = {copiesOf E d invited with asked := true} := by
    unfold copiesOf
    rw [activeSlotQuiet remap,active,asked,decide_eq_true rfl]
  rw [same]
  exact .ask _

theorem confirmSimulated {o} (invited : Bool)
    (h : UpdateEnd E d SwapType.permanent.code o t) :
    Moves Slot.other (copiesOf E d invited) .confirm (copiesOf E t invited) := by
  by_cases candidate : Candidate (trailerOf d.flash (activeSlot E d))
  · have success := candidateEndFaultless d faultless candidate (confirmEnd d h)
    subst success
    obtain ⟨remap,⟨was,flash⟩ | ⟨was,flash⟩⟩ := confirmSucceeded h
    · exact settledMoves invited remap (by rw [flash]; exact confirmedNotAwaiting was) (by rw [flash])
    · apply settledMoves invited remap
      · rw [flash,confirmedFlashTrailer]
        exact confirmedNotAwaiting (confirmedOfPending was)
      · rw [flash,confirmedFlashDormant]
  · have quiet := (absentEndFaultless d faultless candidate (confirmEnd d h)).2
    apply settledMoves invited quiet.remap
    · rw [quiet.flash]
      exact fun awaiting => candidate awaiting.1
    · rw [quiet.flash]

theorem updateSimulated (invited : Bool) {state : UInt32} {o} (h : UpdateEnd E d state o t) :
    Moves Slot.other (copiesOf E d invited) (callMove (.updateImageState state))
      (copiesOf E t invited) := by
  simp only [callMove]
  split
  case isTrue test =>
    subst test
    exact askSimulated faultless invited h
  case isFalse noTest =>
    split
    case isTrue confirm =>
      subst confirm
      exact confirmSimulated faultless invited h
    case isFalse noConfirm =>
      cases h with
      | test asked part => exact absurd asked noTest
      | confirm asked part => exact absurd asked noConfirm
      | invalid other => exact .look _

variable (remapped : E.build.flashRemapEnable = true)

include remapped

theorem inviteSimulated (d : Device) (granted : List Partition) :
    Moves Slot.other (view E ⟨d,granted⟩) .invite (view E ⟨leaves (blGetUpdatePartitionInfo E) d,
      grantedBy (ending (blGetUpdatePartitionInfo E) d) ++ granted⟩) := by
  obtain ⟨t,quiet,run⟩ := partitionRuns d (faultless.reads slotsEnd)
  have invited : (!(grantedBy (some (partitionFor (activeSlot E d) (stateIn E d))) ++
        granted).isEmpty) =
      (!granted.isEmpty || !decide (Awaiting (trailerOf d.flash (activeSlot E d)))) := by
    rw [remapReports remapped]
    by_cases awaiting : Awaiting (trailerOf d.flash (activeSlot E d))
    · have failed : kStatusFail ≠ kStatusSuccess := by decide
      simp [awaiting,partitionFor,grantedBy,failed]
    · simp [awaiting,partitionFor,grantedBy]
  rw [leavesReturned run,endingOk run]
  unfold view
  rw [copiesQuiet quiet,invited]
  exact .invite _

theorem callSimulated {s t : Boot} {e : Event} (grants : GrantsInactive E s) (step : Step E s e t) :
    Moves Slot.other (view E s) (callMove e) (view E t) := by
  cases step with
  | getImageState =>
    unfold view
    rw [copiesQuiet stateQuiet]
    exact .look _
  | getUpdatePartitionInfo => exact inviteSimulated faultless remapped s.dev s.granted
  | verifyImage data size =>
    unfold view
    rw [copiesQuiet verifyQuiet]
    exact .look _
  | updateImageState state =>
    exact updateSimulated faultless _ (endedLeaves (blUpdateImageStateEnds E s.dev state))
  | @otaWrite p f granted inside =>
    have invited : (!s.granted.isEmpty) = true := by
      cases h : s.granted with
      | nil => rw [h] at granted; exact absurd granted List.not_mem_nil
      | cons => rfl
    rw [grants p granted] at inside
    have active : trailerOf f (activeSlot E s.dev) = trailerOf s.dev.flash (activeSlot E s.dev) := by
      have layout := startCases (activeSlot E s.dev)
      apply trailerKept inside
      simp only [slotPartition,stopEq,slotSize,imageTrailerSize]
      omega
    have same : view E {s with dev := {s.dev with flash := f}} = {view E s with
        asked := decide (trailerOf f (activeSlot E s.dev).other = markedTrailer)} := by
      have slot : activeSlot E {s.dev with flash := f} = activeSlot E s.dev := activeSlotQuiet rfl
      unfold view copiesOf
      rw [slot,active]
    rw [same]
    exact .write invited _

theorem lifeSimulated {s t : Boot} {e : Life} (grants : GrantsInactive E s)
    (step : LifeStep E s e t) : Moves Slot.other (view E s) (moveOf e) (view E t) := by
  cases step with
  | call step => exact callSimulated faultless remapped grants step
  | @restart d same flash =>
    have resumed : view E ⟨d,[]⟩ = {view E s with invited := false} := by
      unfold view copiesOf
      rw [same,flash]
      rfl
    rw [resumed]
    exact .resume _
  | @reboot d marked again =>
    have awaiting := rebootAwaits marked again
    have same : view E ⟨d,[]⟩ = ⟨(activeSlot E s.dev).other,true,
        decide (trailerOf d.flash (activeSlot E s.dev).other.other = markedTrailer),false⟩ := by
      unfold view copiesOf
      rw [again.active,decide_eq_true awaiting]
      rfl
    rw [same]
    exact .restart (c := view E s) (decide_eq_true marked) _

theorem lifetimeSimulated {s t : Boot} {es : List Life} (grants : GrantsInactive E s)
    (run : Steps (LifeStep E) s es t) :
    Steps (Moves Slot.other) (view E s) (es.map moveOf) (view E t) :=
  stepsSimulated (view E) moveOf (fun _ _ _ kept step => lifeGrants kept step)
    (fun _ _ _ kept step => lifeSimulated faultless remapped kept step) run grants

theorem trialKeepsWriterOut {d : Device} {t : Boot} {es : List Life}
    (run : Steps (LifeStep E) ⟨d,[]⟩ es t) (trial : stateIn E d = .testing)
    (unconfirmed : .call (.updateImageState SwapType.permanent.code) ∉ es) :
    ∀ p, .call (.otaWrite p) ∉ es := by
  have grants : GrantsInactive E ⟨d,[]⟩ := fun p mem => absurd mem List.not_mem_nil
  have awaiting : Awaiting (trailerOf d.flash (activeSlot E d)) := by
    rw [remapReports remapped] at trial
    split at trial
    · assumption
    · contradiction
  have moves := lifetimeSimulated faultless remapped grants run
  have noConfirm : .confirm ∉ es.map moveOf := by
    intro mem
    obtain ⟨e,listed,move⟩ := List.mem_map.mp mem
    rw [(moveConfirm e).mp move] at listed
    exact unconfirmed listed
  intro p mem
  exact noWriteOnTrial moves (fun _ => rfl) (decide_eq_true awaiting) noConfirm
    (List.mem_map.mpr ⟨_,mem,rfl⟩)

end Simulation

def retrying : List Life :=
  [.call .getUpdatePartitionInfo,.call (.updateImageState SwapType.readyForTest.code),.reboot,
    .call .getUpdatePartitionInfo,.restart,.call .getUpdatePartitionInfo]

def askedBoard : Device := leaves (blUpdateImageState shippedBench SwapType.readyForTest.code)
  (leaves (blGetUpdatePartitionInfo shippedBench) awaitingBoard)

theorem askedBoardMarks : activeSlot shippedBench askedBoard = .primary ∧
    trailerOf askedBoard.flash .secondary = markedTrailer := by decide +kernel

theorem trialKeepsWriterOutOnBoard : ∃ t, activeSlot shippedBench t.dev = .secondary ∧
    Steps (LifeStep shippedBench) ⟨awaitingBoard,[]⟩ retrying t ∧
    ∀ p, .call (.otaWrite p) ∉ retrying := by
  have trial : stateIn shippedBench awaitingBoard = .testing := by decide +kernel
  have asked : LifeStep shippedBench ⟨awaitingBoard,[]⟩ (.call .getUpdatePartitionInfo) _ :=
    .call (.getUpdatePartitionInfo _)
  have requested : Steps (LifeStep shippedBench) _ _ ⟨askedBoard,_⟩ := (Steps.nil _).snoc asked |>.snoc
    (.call (.updateImageState _ SwapType.readyForTest.code))
  obtain ⟨active,mark⟩ := askedBoardMarks
  generalize askedBoard = v at requested active mark
  obtain ⟨w,again⟩ := markedReboots (E := shippedBench) rfl .secondary v
  have started := requested.snoc (.reboot (by rw [active]; exact mark) (by rw [active]; exact again))
  have resumed := started.snoc (.call (.getUpdatePartitionInfo _)) |>.snoc (.restart rfl rfl)
  have run := resumed.snoc (.call (.getUpdatePartitionInfo _))
  refine ⟨_,?_,run,trialKeepsWriterOut (benchFaultless _) rfl run trial (by decide)⟩
  exact (activeSlotQuiet (partitionQuiet.remap.trans partitionQuiet.remap)).trans again.active

end AkNano.Lifetime
