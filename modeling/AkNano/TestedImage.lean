import AkNano.Lifetime
import AkNano.Marking
import AkNano.Retries

/-! The image under test: what confirming it leaves in flash, and whether the function that
reports it and the function that confirms it mean the same image. The report wants
`image_ok` erased, the confirmation only wants it different from `BOOT_FLAG_SET`. -/
namespace AkNano.TestedImage
open Memory Interrupted Platform FlashRead SwapState SlotLayout SwapEffects Session SwapRuns
open VerifyImage ImageVerdict Marking Confirmation Retries

def Outside (p len x : Nat) : Prop := x < p ∨ p + len ≤ x

structure TrialEnded (E : Env) (d t : Device) : Prop where
  page : ∀ i, i < mflashPageSize → t.flash ((activeSlot E d).stop - mflashPageSize + i) =
    if i = trailerInPage + imageOkOffset then 1
    else d.flash ((activeSlot E d).stop - mflashPageSize + i)
  state : ∃ u, blGetImageState E t = .ok (kStatusSuccess,some .none) u
  rejected : ∀ size, Returns (blVerifyImage E (slotBase (activeSlot E d).other) size) t 0
  elsewhere : ∀ x, Outside ((activeSlot E d).stop - mflashSectorSize) mflashSectorSize x →
    Outside (activeSlot E d).other.start mflashSectorSize x → t.flash x = d.flash x

section Rejected

variable (f : Bytes) (s : Slot)

theorem erasedMagic : (headerIn (headerErased f s) s.start).ihMagic = 0xffffffff := by
  have blank : ∀ i, i < 4 → flashAt (headerErased f s) s.start (0 + i) = 0xff := by
    intro i small
    have layout := startCases s
    rw [flashAt,u32Small (by omega)]
    exact eraseAt _ _ _ _ (by omega) (by simp only [mflashSectorSize]; omega)
  have word : le32 (flashAt (headerErased f s) s.start) 0 = le32 (fun _ => 0xff) 0 := le32Congr blank
  exact word.trans (by decide)

theorem erasedRejected {E : Env} (faultless : E.Faultless) {t : Device}
    (erased : t.flash = headerErased f s) (size : UInt32) :
    Returns (blVerifyImage E (slotBase s) size) t 0 := by
  have verdict := verdictFaultless faultless (slotBase s) size t
  refine (decidesReturns verdict 0).mpr (.inr ⟨?_,rfl⟩)
  intro accepted
  have magic := accepted.2.1
  rw [baseToNat,erased,erasedMagic] at magic
  exact absurd magic (by decide)

end Rejected

section Confirmed

variable {E : Env} {d t : Device}

theorem confirmedFlashPage {i : Nat} (inside : i < mflashPageSize) :
    confirmedFlash E d ((activeSlot E d).stop - mflashPageSize + i) =
      confirmedPage d.flash (activeSlot E d) i := by
  have layout := startCases (activeSlot E d)
  have index : (activeSlot E d).stop - mflashPageSize + i =
      (activeSlot E d).start + (slotSize - mflashPageSize + i) := by
    simp only [stopEq,slotSize,mflashPageSize]
    omega
  have last : slotSize - mflashPageSize + i < slotSize := by
    simp only [slotSize,mflashPageSize] at *
    omega
  rw [index,confirmedFlashInside last,confirmed,rewrittenPage _ _ _ (Nat.le_add_right _ _) last,
    Nat.add_sub_cancel_left]

theorem confirmedFlashElsewhere {x : Nat}
    (trailer : Outside ((activeSlot E d).stop - mflashSectorSize) mflashSectorSize x)
    (header : Outside (activeSlot E d).other.start mflashSectorSize x) :
    confirmedFlash E d x = d.flash x := by
  have kept : confirmed d.flash (activeSlot E d) x = d.flash x :=
    rewrittenAgreeOff d.flash _ _ x trailer
  unfold confirmedFlash
  split
  · exact (headerErasedAgreeOff _ _ x header).trans kept
  · exact kept

theorem confirmedState (faultless : E.Faultless) (remapped : E.build.flashRemapEnable = true)
    (remap : t.remap = d.remap) (flash : t.flash = confirmedFlash E d)
    (pending : Pending (trailerOf d.flash (activeSlot E d))) :
    ∃ u, blGetImageState E t = .ok (kStatusSuccess,some .none) u := by
  obtain ⟨u,_,run⟩ := stateRuns t (faultless.reads slotsEnd)
  have trailer : trailerOf t.flash (activeSlot E t) =
      confirmedTrailer (trailerOf d.flash (activeSlot E d)) := by
    rw [activeSlotQuiet remap,flash,confirmedFlashTrailer]
  have settled : ¬ Awaiting (trailerOf t.flash (activeSlot E t)) := by
    rw [trailer]
    exact confirmedNotAwaiting (confirmedOfPending pending)
  rw [Lifetime.remapReports remapped,if_neg settled] at run
  exact ⟨u,run⟩

end Confirmed

theorem trialConfirmed {E : Env} (faultless : E.Faultless) (remapped : E.build.flashRemapEnable = true)
    (downgrades : E.build.flashRemapDowngradeSupport = true) {d : Device}
    (pending : Pending (trailerOf d.flash (activeSlot E d))) :
    ∃ t, blUpdateImageState E SwapType.permanent.code d = .ok kStatusSuccess t ∧ TrialEnded E d t := by
  obtain ⟨t,run,ends⟩ := confirmRuns d faultless pending.1
  obtain ⟨remap,⟨was,_⟩ | ⟨_,flash⟩⟩ := confirmSucceeded ends
  · exact absurd was (pendingNotConfirmed pending)
  · have erased : t.flash =
        headerErased (confirmed d.flash (activeSlot E d)) (activeSlot E d).other := by
      rw [flash,confirmedFlash,if_pos downgrades]
    refine ⟨t,run,?_,?_,?_,?_⟩
    · intro i inside
      rw [flash]
      exact confirmedFlashPage inside
    · exact confirmedState faultless remapped remap flash pending
    · exact erasedRejected _ _ faultless erased
    · intro x trailer header
      rw [flash]
      exact confirmedFlashElsewhere trailer header

theorem trialConfirmedOnBoard : ∃ t,
    blUpdateImageState (bench Build.shipped allDone) SwapType.permanent.code awaitingBoard =
      .ok kStatusSuccess t ∧ TrialEnded (bench Build.shipped allDone) awaitingBoard t := by
  have slot : activeSlot (bench Build.shipped allDone) awaitingBoard = .primary :=
    remapSlot rfl awaitingBoard
  exact trialConfirmed (benchFaultless Build.shipped) rfl rfl
    (by rw [slot]; exact awaitingPending boardAwaiting)

def Writes (d t : Device) : Prop := ∃ cs c, t.calls = cs ++ d.calls ∧ c ∈ cs ∧ c.reads = false

structure SameMeaning (E : Env) (d t : Device) (state : SwapType) : Prop where
  writes : Writes d t ↔ state = .testing
  untouched : state ≠ .testing → t.flash = d.flash

def ReadersAgree (E : Env) (d : Device) : Prop := ∃ state u st t,
  blGetImageState E d = .ok (kStatusSuccess,some state) u ∧
  blUpdateImageState E SwapType.permanent.code u = .ok st t ∧ SameMeaning E u t state

def HalfSet (t : ImageTrailer) : Prop := Candidate t ∧ t.imageOk ≠ 0xff ∧ t.imageOk ≠ 1

instance (t) : Decidable (HalfSet t) := by unfold HalfSet; infer_instance

section Meaning

variable {E : Env} {d t : Device}

theorem quietWritesNothing (quiet : Quiet d t) : ¬ Writes d t := by
  obtain ⟨rs,calls,reads⟩ := quiet.calls
  rintro ⟨cs,c,same,mem,write⟩
  rw [calls] at same
  have reading := reads c (by rw [List.append_cancel_right same]; exact mem)
  rw [write] at reading
  contradiction

theorem lastCallWrites {c : Call} (cs : List Call) (calls : t.calls = c :: (cs ++ d.calls))
    (write : c.reads = false) : Writes d t := ⟨c :: cs,c,calls,List.mem_cons_self,write⟩

theorem pendingWrites (h : SwapOkEnd E d (some kStatusSuccess) t)
    (pending : Pending (trailerOf d.flash (activeSlot E d))) : Writes d t := by
  have programmed : ∀ {u v page}, Quiet d u → RewriteEnd E u (activeSlot E d) page
      (some kStatusSuccess) v → ∃ cs, v.calls = programTrailer (activeSlot E d) :: (cs ++ d.calls) := by
    intro u v page quiet part
    obtain ⟨rs,calls,_⟩ := quiet.calls
    exact ⟨eraseTrailer _ :: rs,(rewriteIssued part).trans (by rw [calls,List.cons_append])⟩
  cases h with
  | readFailed bad quiet fault => exact absurd rfl bad
  | already quiet was => exact absurd was (pendingNotConfirmed pending)
  | rewriting quiet was part failed => exact absurd rfl failed
  | finished quiet was part support =>
    obtain ⟨cs,calls⟩ := programmed quiet part
    exact lastCallWrites cs calls rfl
  | header quiet was part support last =>
    obtain ⟨cs,calls⟩ := programmed quiet part
    have final := (eraseIssued last).trans (congrArg _ calls)
    exact lastCallWrites (programTrailer (activeSlot E d) :: cs) final rfl

theorem confirmTakesPending (faultless : E.Faultless) (d : Device) : ∃ st t,
    blUpdateImageState E SwapType.permanent.code d = .ok st t ∧
    (Writes d t ↔ Pending (trailerOf d.flash (activeSlot E d))) ∧
    (¬ Pending (trailerOf d.flash (activeSlot E d)) → t.flash = d.flash) := by
  by_cases pending : Pending (trailerOf d.flash (activeSlot E d))
  · obtain ⟨t,run,ends⟩ := confirmRuns d faultless pending.1
    exact ⟨_,t,run,iff_of_true (pendingWrites (confirmEnd d ends) pending) pending,
      fun settled => absurd pending settled⟩
  · have untouched : ∃ st t, blUpdateImageState E SwapType.permanent.code d = .ok st t ∧ Quiet d t := by
      by_cases candidate : Candidate (trailerOf d.flash (activeSlot E d))
      · have was : Confirmed (trailerOf d.flash (activeSlot E d)) :=
          ⟨candidate,not_not.mp (fun unset => pending ⟨candidate,unset⟩)⟩
        exact ⟨_,alreadyRuns (faultless.reads slotsEnd) was⟩
      · exact ⟨_,confirmAbsent d faultless candidate⟩
    obtain ⟨st,t,run,quiet⟩ := untouched
    exact ⟨st,t,run,iff_of_false (quietWritesNothing quiet) pending,fun _ => quiet.flash⟩

theorem halfSetPending {t : ImageTrailer} : ¬ HalfSet t ↔ (Pending t ↔ Awaiting t) := by
  have apart : (0xff : UInt8) ≠ 1 := by decide
  by_cases candidate : Candidate t
  · by_cases set : t.imageOk = 1
    · simp [HalfSet,Pending,Awaiting,candidate,set]
    · simp [HalfSet,Pending,Awaiting,candidate,set]
  · simp [HalfSet,Pending,Awaiting,candidate]

variable (faultless : E.Faultless) (remapped : E.build.flashRemapEnable = true)

include faultless remapped

theorem reportThenConfirm (d : Device) : ∃ state u st t,
    blGetImageState E d = .ok (kStatusSuccess,some state) u ∧
    blUpdateImageState E SwapType.permanent.code u = .ok st t ∧
    (state = .testing ↔ Awaiting (trailerOf d.flash (activeSlot E d))) ∧
    (Writes u t ↔ Pending (trailerOf d.flash (activeSlot E d))) ∧
    (¬ Pending (trailerOf d.flash (activeSlot E d)) → t.flash = u.flash) := by
  obtain ⟨u,quiet,report⟩ := stateRuns d (faultless.reads slotsEnd)
  obtain ⟨st,t,confirm,writes,untouched⟩ := confirmTakesPending faultless u
  have same : trailerOf u.flash (activeSlot E u) = trailerOf d.flash (activeSlot E d) := by
    rw [quiet.flash,activeSlotQuiet quiet.remap]
  rw [same] at writes untouched
  refine ⟨_,u,st,t,report,confirm,?_,writes,untouched⟩
  rw [Lifetime.remapReports remapped]
  split
  case isTrue awaiting => exact iff_of_true rfl awaiting
  case isFalse settled => exact iff_of_false (by decide) settled

theorem agreedMeaning {d : Device} (agree : ReadersAgree E d) :
    ¬ HalfSet (trailerOf d.flash (activeSlot E d)) := by
  obtain ⟨state,u,st,t,report,confirm,testing,writes,_⟩ := reportThenConfirm faultless remapped d
  obtain ⟨state',u',st',t',report',confirm',meaning⟩ := agree
  rw [report] at report'
  cases report'
  rw [confirm] at confirm'
  cases confirm'
  rw [halfSetPending,← writes,← testing]
  exact meaning.writes

end Meaning

theorem readersAgreeWhen {E : Env} (faultless : E.Faultless)
    (remapped : E.build.flashRemapEnable = true) (d : Device) :
    ReadersAgree E d ↔ ¬ HalfSet (trailerOf d.flash (activeSlot E d)) := by
  constructor
  · exact agreedMeaning faultless remapped
  · intro whole
    have same := halfSetPending.mp whole
    obtain ⟨state,u,st,t,report,confirm,testing,writes,untouched⟩ :=
      reportThenConfirm faultless remapped d
    refine ⟨state,u,st,t,report,confirm,?_,?_⟩
    · rw [writes,same,testing]
    · intro other
      exact untouched (fun pending => other (testing.mpr (same.mp pending)))

def halfSetBoard : Device := holding 2359256 (trailerBytes 1 0x55)

theorem readersDisagree : ∃ E : Env, E.Faultless ∧ E.build = Build.shipped ∧
    ∃ d, ¬ ReadersAgree E d := by
  have slot : activeSlot (bench Build.shipped allDone) halfSetBoard = .primary :=
    remapSlot rfl halfSetBoard
  have half : HalfSet (trailerOf halfSetBoard.flash .primary) := by decide
  refine ⟨bench Build.shipped allDone,benchFaultless _,rfl,halfSetBoard,?_⟩
  intro agree
  have whole := agreedMeaning (benchFaultless _) rfl agree
  rw [slot] at whole
  exact whole half

theorem readersAgreeWhenOnBoard : ReadersAgree (bench Build.shipped allDone) awaitingBoard ↔
    ¬ HalfSet (trailerOf awaitingBoard.flash
      (activeSlot (bench Build.shipped allDone) awaitingBoard)) :=
  readersAgreeWhen (benchFaultless Build.shipped) rfl awaitingBoard

end AkNano.TestedImage
