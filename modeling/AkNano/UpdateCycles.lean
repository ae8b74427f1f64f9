import AkNano.Lifetime

/-! Update cycles one after the other: ask for the partition, write it, mark it, reboot,
confirm. `next` is what has to hold of the device the cycle leaves; the writer and the
bootloader may do anything their part of the cycle allows. -/
namespace AkNano.UpdateCycles
open Memory Interrupted Platform FlashRead SwapState SlotLayout SwapEffects Session SwapRuns
open Lifetime

structure Settled (E : Env) (s : Slot) (next : Device → Prop) (d : Device) : Prop where
  active : activeSlot E d = s
  trailer : Confirmed (trailerOf d.flash s)
  reports : ∃ t, blGetImageState E d = .ok (kStatusSuccess,some .none) t
  opened : ∃ t, blGetUpdatePartitionInfo E d = .ok (kStatusSuccess,slotPartition s.other) t
  next : next d

structure OnTrial (E : Env) (s : Slot) (next : Device → Prop) (d : Device) : Prop where
  reports : ∃ t, blGetImageState E d = .ok (kStatusSuccess,some .testing) t
  refuses : ∃ t, blGetUpdatePartitionInfo E d = .ok (kStatusFail,⟨0,0⟩) t
  confirms : ∃ t, blUpdateImageState E SwapType.permanent.code d = .ok kStatusSuccess t ∧
    Settled E s next t

def UpdateCycle (E : Env) (s : Slot) (next : Device → Prop) (d : Device) : Prop :=
  ∃ t, blGetUpdatePartitionInfo E d = .ok (kStatusSuccess,slotPartition s.other) t ∧
  ∀ f, AgreeOff (slotPartition s.other).start (slotPartition s.other).size t.flash f →
  ∃ u, blUpdateImageState E SwapType.readyForTest.code {t with flash := f} = .ok kStatusSuccess u ∧
  ∀ v, Reboot E s.other u v → OnTrial E s.other next v

def Cycles (E : Env) : Nat → Slot → Device → Prop
  | 0,_,_ => True
  | n + 1,s,d => UpdateCycle E s (Cycles E n s.other) d

section Cycle

variable {E : Env} {d : Device} {next : Device → Prop}
variable (remapped : E.build.flashRemapEnable = true) (faultless : E.Faultless)

include remapped faultless

theorem awaitingReports (awaiting : Awaiting (trailerOf d.flash (activeSlot E d))) :
    (∃ t, blGetImageState E d = .ok (kStatusSuccess,some .testing) t) ∧
    ∃ t, blGetUpdatePartitionInfo E d = .ok (kStatusFail,⟨0,0⟩) t := by
  have testing : stateIn E d = .testing := (remapReports remapped d).trans (if_pos awaiting)
  obtain ⟨t,_,reported⟩ := stateRuns d (faultless.reads slotsEnd)
  obtain ⟨u,_,answered⟩ := partitionRuns d (faultless.reads slotsEnd)
  rw [testing] at reported answered
  exact ⟨⟨t,reported⟩,u,answered⟩

theorem idleReports (idle : ¬ Awaiting (trailerOf d.flash (activeSlot E d))) :
    (∃ t, blGetImageState E d = .ok (kStatusSuccess,some .none) t) ∧
    ∃ t, Quiet d t ∧ blGetUpdatePartitionInfo E d =
      .ok (kStatusSuccess,slotPartition (activeSlot E d).other) t := by
  have none : stateIn E d = .none := (remapReports remapped d).trans (if_neg idle)
  obtain ⟨t,_,reported⟩ := stateRuns d (faultless.reads slotsEnd)
  obtain ⟨u,quiet,answered⟩ := partitionRuns d (faultless.reads slotsEnd)
  rw [none] at reported answered
  exact ⟨⟨t,reported⟩,u,quiet,answered⟩

theorem confirmSettles (awaiting : Awaiting (trailerOf d.flash (activeSlot E d)))
    (after : ∀ t, activeSlot E t = activeSlot E d →
      ¬ Awaiting (trailerOf t.flash (activeSlot E t)) → next t) :
    ∃ t, blUpdateImageState E SwapType.permanent.code d = .ok kStatusSuccess t ∧
      Settled E (activeSlot E d) next t := by
  have pending := awaitingPending awaiting
  obtain ⟨t,run,ends⟩ := confirmRuns d faultless awaiting.1
  obtain ⟨remap,flash⟩ := confirmSucceeded ends
  have wrote : t.flash = confirmedFlash E d := by
    rcases flash with ⟨was,_⟩ | ⟨_,wrote⟩
    · exact absurd was (pendingNotConfirmed pending)
    · exact wrote
  have same : activeSlot E t = activeSlot E d := activeSlotQuiet remap
  have trailer : Confirmed (trailerOf t.flash (activeSlot E d)) := by
    rw [wrote,confirmedFlashTrailer]
    exact confirmedOfPending pending
  have idle : ¬ Awaiting (trailerOf t.flash (activeSlot E t)) := by
    rw [same]
    exact confirmedNotAwaiting trailer
  obtain ⟨reports,u,_,opened⟩ := idleReports remapped faultless idle
  rw [same] at opened
  exact ⟨t,run,same,trailer,reports,⟨u,opened⟩,after t same idle⟩

theorem trialFollows (awaiting : Awaiting (trailerOf d.flash (activeSlot E d)))
    (after : ∀ t, activeSlot E t = activeSlot E d →
      ¬ Awaiting (trailerOf t.flash (activeSlot E t)) → next t) :
    OnTrial E (activeSlot E d) next d := by
  obtain ⟨reports,refuses⟩ := awaitingReports remapped faultless awaiting
  exact ⟨reports,refuses,confirmSettles remapped faultless awaiting after⟩

theorem cycleFollows (idle : ¬ Awaiting (trailerOf d.flash (activeSlot E d)))
    (after : ∀ t, activeSlot E t = (activeSlot E d).other →
      ¬ Awaiting (trailerOf t.flash (activeSlot E t)) → next t) :
    UpdateCycle E (activeSlot E d) next d := by
  obtain ⟨_,t,quiet,opened⟩ := idleReports remapped faultless idle
  refine ⟨t,opened,?_⟩
  intro f _
  obtain ⟨u,run,ends⟩ := testRuns {t with flash := f} faultless
  refine ⟨u,run,?_⟩
  intro v again
  have same : activeSlot E {t with flash := f} = activeSlot E d := activeSlotQuiet quiet.remap
  -- whatever was written, the request erased the trailer before it set the magic
  have marked : trailerOf u.flash (activeSlot E d).other = markedTrailer := by
    rw [(testSucceeded ends).2,same,markedTrailerOf]
  have awaiting := rebootAwaits marked again
  rw [← again.active] at after awaiting ⊢
  exact trialFollows remapped faultless awaiting after

theorem cyclesRepeat {t : Device}
    (idle : blGetImageState E d = .ok (kStatusSuccess,some .none) t) (n : Nat) :
    Cycles E n (activeSlot E d) d := by
  have none : stateIn E d = .none := stateReported d (faultless.reads slotsEnd) idle
  have start : ¬ Awaiting (trailerOf d.flash (activeSlot E d)) := by
    intro awaiting
    rw [remapReports remapped,if_pos awaiting] at none
    contradiction
  clear idle none
  induction n generalizing d with
  | zero => trivial
  | succ n ih =>
    apply cycleFollows remapped faultless start
    intro u swapped settled
    rw [← swapped]
    exact ih settled

end Cycle

theorem cyclesRepeatOnBench : Cycles (bench Build.shipped allDone) 2 .primary (holding 0 []) := by
  have faultless := benchFaultless Build.shipped
  obtain ⟨t,_,reported⟩ := stateRuns (holding 0 []) (faultless.reads slotsEnd)
  rw [blankState] at reported
  exact cyclesRepeat rfl faultless reported 2

end AkNano.UpdateCycles
