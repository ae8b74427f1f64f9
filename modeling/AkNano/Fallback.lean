import AkNano.Rollback
import AkNano.Lifetime

/-! The image that ran before a trial, over boots that may be cut off anywhere. Beside the
calls, which may all fail, the bootloader acts: it starts a requested slot, starts the same
slot again, or gives up a trial for a confirmed slot and may then erase the slot it leaves.
Until somebody confirms, none of this reaches the body of the image to fall back on. -/
namespace AkNano.Fallback
open Memory Interrupted Platform FlashRead SwapState SlotLayout SwapEffects Session SwapRuns
open Rollback Lifetime

inductive Power where
  | call (e : Event)
  | swap
  | restart
  | revert
  deriving DecidableEq, Repr

inductive PowerStep (E : Env) : Boot → Power → Boot → Prop where
  | call {s t : Boot} {e : Event} (step : Step E s e t) : PowerStep E s (.call e) t
  | swap {s : Boot} {d : Device}
      (requested : Requested (trailerOf s.dev.flash (activeSlot E s.dev).other))
      (again : Reboot E (activeSlot E s.dev).other s.dev d) : PowerStep E s .swap ⟨d,[]⟩
  | restart {s : Boot} {d : Device} (same : activeSlot E d = activeSlot E s.dev)
      (flash : d.flash = s.dev.flash) : PowerStep E s .restart ⟨d,[]⟩
  | revert {s : Boot} {d : Device}
      (trial : Awaiting (trailerOf s.dev.flash (activeSlot E s.dev)))
      (confirmed : Confirmed (trailerOf s.dev.flash (activeSlot E s.dev).other))
      (back : activeSlot E d = (activeSlot E s.dev).other)
      (left : AgreeOff (activeSlot E s.dev).start slotSize s.dev.flash d.flash) :
      PowerStep E s .revert ⟨d,[]⟩

def bodySize : Nat := slotSize - mflashSectorSize

structure OnTrial (E : Env) (s : Boot) : Prop where
  awaiting : Awaiting (trailerOf s.dev.flash (activeSlot E s.dev))
  closed : s.granted = []

section Calls

variable {E : Env} {s t : Boot} {e : Event}

theorem slotTrailer {a : Slot} {f g : Bytes} (h : AgreeOn a.start slotSize f g) :
    trailerOf g a = trailerOf f a := by
  apply trailerCongr
  intro i small
  have index : a.stop - imageTrailerSize + i = a.start + (slotSize - imageTrailerSize + i) := by
    simp only [stopEq,slotSize,imageTrailerSize]
    omega
  rw [index]
  exact h _ (by simp only [slotSize,imageTrailerSize]; omega)

inductive DormantLeft (a : Slot) (f g : Bytes) : Prop where
  | same (kept : g = f)
  | blank (erased : g = wiped f a.other)
  | asked (set : g = marked f a.other)

theorem dormantSector {a : Slot} {f g : Bytes} (h : DormantLeft a f g) :
    AgreeOff (a.other.stop - mflashSectorSize) mflashSectorSize f g := by
  cases h with
  | same kept =>
    rw [kept]
    exact agreeOffRefl _ _ _
  | blank erased =>
    rw [erased]
    exact wipedAgreeOff _ _
  | asked set =>
    rw [set]
    exact rewrittenAgreeOff _ _ _

theorem dormantUnconfirmed {a : Slot} {f g : Bytes} (h : DormantLeft a f g)
    (before : ¬ Confirmed (trailerOf f a.other)) : ¬ Confirmed (trailerOf g a.other) := by
  cases h with
  | same kept => rwa [kept]
  | blank erased =>
    rw [erased,wipedTrailer]
    exact fun confirmed => erasedNotCandidate confirmed.1
  | asked set =>
    rw [set,markedTrailerOf]
    decide

theorem updateLeavesDormant (clean : E.Clean) {d u : Device} {state : UInt32} {o : Option Status}
    (unconfirmed : state ≠ SwapType.permanent.code) (h : UpdateEnd E d state o u) :
    DormantLeft (activeSlot E d) d.flash u.flash := by
  cases h with
  | test asked part =>
    subst asked
    rcases testLeft clean (.test rfl part) with same | blank | asked
    · exact .same same
    · exact .blank blank
    · exact .asked asked
  | confirm asked part => exact absurd asked unconfirmed
  | invalid other => exact .same rfl

section Unconfirmed

variable (unconfirmed : e ≠ .updateImageState SwapType.permanent.code)

include unconfirmed

theorem callSparesActive (grants : GrantsInactive E s) (step : Step E s e t) :
    t.dev.remap = s.dev.remap ∧ AgreeOn (activeSlot E s.dev).start slotSize s.dev.flash t.dev.flash := by
  have quiet : ∀ {u : Device}, Quiet s.dev u → u.remap = s.dev.remap ∧
      AgreeOn (activeSlot E s.dev).start slotSize s.dev.flash u.flash := by
    intro u quiet
    rw [quiet.flash]
    exact ⟨quiet.remap,agreeOnRefl _ _ _⟩
  cases step with
  | getImageState => exact quiet stateQuiet
  | getUpdatePartitionInfo => exact quiet partitionQuiet
  | verifyImage data size => exact quiet verifyQuiet
  | updateImageState state =>
    have ends := endedLeaves (blUpdateImageStateEnds E s.dev state)
    refine ⟨(updateConfined ends).remap,?_⟩
    change AgreeOn _ _ _ (leaves (blUpdateImageState E state) s.dev).flash
    generalize leaves (blUpdateImageState E state) s.dev = u at ends ⊢
    generalize ending (blUpdateImageState E state) s.dev = o at ends
    cases ends with
    | test asked part =>
      have inside := lastSectorInside (activeSlot E s.dev).other
      exact otherSlotKept (rewriteFrame part) inside.1 inside.2
    | confirm asked part => exact absurd (congrArg Event.updateImageState asked) unconfirmed
    | invalid other => exact agreeOnRefl _ _ _
  | otaWrite granted inside =>
    rw [grants _ granted] at inside
    exact ⟨rfl,otherSlotKept inside (Nat.le_refl _) (Nat.le_refl _)⟩

variable (clean : E.Clean)

include clean

theorem trialCall (remapped : E.build.flashRemapEnable = true)
    (plain : E.build.pageIntegrityChecks = false) (trial : OnTrial E s) (step : Step E s e t) :
    OnTrial E t ∧ DormantLeft (activeSlot E s.dev) s.dev.flash t.dev.flash := by
  have grants : GrantsInactive E s := by
    intro p mem
    rw [trial.closed] at mem
    exact absurd mem List.not_mem_nil
  obtain ⟨remap,kept⟩ := callSparesActive unconfirmed grants step
  have awaiting : Awaiting (trailerOf t.dev.flash (activeSlot E t.dev)) := by
    rw [activeSlotQuiet remap,slotTrailer kept]
    exact trial.awaiting
  have state : stateIn E s.dev = .testing := (remapReports remapped _).trans (if_pos trial.awaiting)
  cases step with
  | getImageState => exact ⟨⟨awaiting,trial.closed⟩,.same stateQuiet.flash⟩
  | getUpdatePartitionInfo =>
    have none := grantsNothing plain (d := s.dev) (.inl state)
    refine ⟨⟨awaiting,?_⟩,.same partitionQuiet.flash⟩
    rw [none]
    exact trial.closed
  | verifyImage data size => exact ⟨⟨awaiting,trial.closed⟩,.same verifyQuiet.flash⟩
  | updateImageState state =>
    have ends := endedLeaves (blUpdateImageStateEnds E s.dev state)
    exact ⟨⟨awaiting,trial.closed⟩,updateLeavesDormant clean
      (fun asked => unconfirmed (congrArg Event.updateImageState asked)) ends⟩
  | otaWrite granted inside =>
    rw [trial.closed] at granted
    exact absurd granted List.not_mem_nil

end Unconfirmed

end Calls

/-! The invariant: slot `a` holds its body; whoever runs in its place is on trial; and should
it be on trial itself, then there is no confirmed slot to leave it for. -/

structure Held (E : Env) (a : Slot) (f : Bytes) (s : Boot) : Prop where
  grants : GrantsInactive E s
  body : AgreeOn a.start bodySize f s.dev.flash
  away : activeSlot E s.dev ≠ a → OnTrial E s
  home : activeSlot E s.dev = a → Awaiting (trailerOf s.dev.flash a) →
    OnTrial E s ∧ ¬ Confirmed (trailerOf s.dev.flash a.other)

section Runs

variable {E : Env} {a : Slot} {f : Bytes} {s t : Boot}

theorem awayIsOther {a b : Slot} (h : b ≠ a) : b = a.other := by
  cases a <;> cases b <;> simp_all [Slot.other]

theorem bodyTrans {g h : Bytes} (first : AgreeOn a.start bodySize f g)
    (second : AgreeOn a.start bodySize g h) : AgreeOn a.start bodySize f h :=
  fun i inside => (second i inside).trans (first i inside)

theorem bodyOfSlot {g h : Bytes} (kept : AgreeOn a.start slotSize g h) :
    AgreeOn a.start bodySize g h :=
  fun i inside => kept i (Nat.lt_of_lt_of_le inside (Nat.sub_le _ _))

theorem noGrants (E : Env) (d : Device) : GrantsInactive E ⟨d,[]⟩ :=
  fun _ mem => absurd mem List.not_mem_nil

section Clean

variable (remapped : E.build.flashRemapEnable = true) (plain : E.build.pageIntegrityChecks = false)
variable (clean : E.Clean)

include remapped plain clean

theorem callHolds {e : Event} (unconfirmed : e ≠ .updateImageState SwapType.permanent.code)
    (h : Held E a f s) (step : Step E s e t) : Held E a f t := by
  have grants := stepGrants h.grants step
  obtain ⟨remap,kept⟩ := callSparesActive unconfirmed h.grants step
  have slot : activeSlot E t.dev = activeSlot E s.dev := activeSlotQuiet remap
  by_cases home : activeSlot E s.dev = a
  · rw [home] at kept
    refine ⟨grants,bodyTrans h.body (bodyOfSlot kept),fun away => absurd (slot.trans home) away,?_⟩
    intro _ awaiting
    rw [slotTrailer kept] at awaiting
    obtain ⟨trial,unrivalled⟩ := h.home home awaiting
    obtain ⟨after,left⟩ := trialCall unconfirmed clean remapped plain trial step
    rw [home] at left
    exact ⟨after,dormantUnconfirmed left unrivalled⟩
  · obtain ⟨after,left⟩ := trialCall unconfirmed clean remapped plain (h.away home) step
    have sector := dormantSector left
    rw [awayIsOther home,otherOther] at sector
    exact ⟨grants,bodyTrans h.body (sectorOutsideBody sector),fun _ => after,
      fun here => absurd (slot.symm.trans here) home⟩

end Clean

theorem restartHolds {d : Device} (h : Held E a f s) (same : activeSlot E d = activeSlot E s.dev)
    (flash : d.flash = s.dev.flash) : Held E a f ⟨d,[]⟩ := by
  have again : OnTrial E s → OnTrial E ⟨d,[]⟩ := by
    intro trial
    refine ⟨?_,rfl⟩
    change Awaiting (trailerOf d.flash (activeSlot E d))
    rw [same,flash]
    exact trial.awaiting
  refine ⟨noGrants E d,?_,?_,?_⟩
  · change AgreeOn _ _ f d.flash
    rw [flash]
    exact h.body
  · intro away
    exact again (h.away (fun here => away (same.trans here)))
  · intro here awaiting
    change Awaiting (trailerOf d.flash a) at awaiting
    rw [flash] at awaiting
    obtain ⟨trial,unrivalled⟩ := h.home (same.symm.trans here) awaiting
    refine ⟨again trial,?_⟩
    change ¬ Confirmed (trailerOf d.flash a.other)
    rw [flash]
    exact unrivalled

theorem swapSparesBody {r : Slot} {d u : Device} (again : Reboot E r d u) (a : Slot) :
    AgreeOn a.start bodySize d.flash u.flash := by
  have layout := startCases r
  have layout' := startCases a
  rw [again.flash]
  apply agreeOnOfAgreeOff (agreeOffOverlay _ _ _ _)
  simp only [stopEq,bodySize,slotSize,mflashSectorSize,imageTrailerSize,copyDoneOffset]
  cases r <;> cases a <;> simp only [Slot.start,Slot.other] at layout layout' ⊢ <;> omega

theorem swapSparesOther {r : Slot} {d u : Device} (again : Reboot E r d u) :
    trailerOf u.flash r.other = trailerOf d.flash r.other := by
  have layout := startCases r
  rw [again.flash]
  apply trailerKept (agreeOffOverlay _ _ _ _)
  simp only [stopEq,imageTrailerSize,copyDoneOffset]
  omega

theorem swapHolds {d : Device} (h : Held E a f s)
    (requested : Requested (trailerOf s.dev.flash (activeSlot E s.dev).other))
    (again : Reboot E (activeSlot E s.dev).other s.dev d) : Held E a f ⟨d,[]⟩ := by
  have awaiting := requestedAwaits requested again
  rw [← again.active] at awaiting
  have trial : OnTrial E ⟨d,[]⟩ := ⟨awaiting,rfl⟩
  refine ⟨noGrants E d,bodyTrans h.body (swapSparesBody again a),fun _ => trial,?_⟩
  intro here _
  -- `a` is started, so the slot left behind was on trial itself
  have other : (activeSlot E s.dev).other = a := again.active.symm.trans here
  have left : activeSlot E s.dev = a.other := by rw [← other,otherOther]
  have away : activeSlot E s.dev ≠ a := by
    rw [left]
    cases a <;> decide
  have dormant := swapSparesOther again
  rw [otherOther,left] at dormant
  refine ⟨trial,?_⟩
  change ¬ Confirmed (trailerOf d.flash a.other)
  rw [dormant,← left]
  exact fun confirmed => confirmedNotAwaiting confirmed (h.away away).awaiting

theorem revertHolds {d : Device} (h : Held E a f s)
    (trial : Awaiting (trailerOf s.dev.flash (activeSlot E s.dev)))
    (confirmed : Confirmed (trailerOf s.dev.flash (activeSlot E s.dev).other))
    (back : activeSlot E d = (activeSlot E s.dev).other)
    (left : AgreeOff (activeSlot E s.dev).start slotSize s.dev.flash d.flash) :
    Held E a f ⟨d,[]⟩ := by
  have away : activeSlot E s.dev ≠ a := by
    intro home
    rw [home] at trial confirmed
    exact (h.home home trial).2 confirmed
  have here : activeSlot E s.dev = a.other := awayIsOther away
  rw [here,otherOther] at back confirmed
  rw [here] at left
  have kept : AgreeOn a.start slotSize s.dev.flash d.flash :=
    otherSlotKept left (Nat.le_refl _) (Nat.le_refl _)
  refine ⟨noGrants E d,bodyTrans h.body (bodyOfSlot kept),fun lost => absurd back lost,?_⟩
  intro _ awaiting
  change Awaiting (trailerOf d.flash a) at awaiting
  rw [slotTrailer kept] at awaiting
  exact absurd awaiting (confirmedNotAwaiting confirmed)

variable (remapped : E.build.flashRemapEnable = true) (plain : E.build.pageIntegrityChecks = false)
variable (clean : E.Clean)

include remapped plain clean

theorem powerHolds {e : Power} (unconfirmed : e ≠ .call (.updateImageState SwapType.permanent.code))
    (h : Held E a f s) (step : PowerStep E s e t) : Held E a f t := by
  cases step with
  | call step =>
    exact callHolds remapped plain clean (fun same => unconfirmed (congrArg Power.call same)) h step
  | swap requested again => exact swapHolds h requested again
  | restart same flash => exact restartHolds h same flash
  | revert trial confirmed back left => exact revertHolds h trial confirmed back left

theorem fallbackSurvives {d : Device} {es : List Power}
    (settled : ¬ Awaiting (trailerOf d.flash (activeSlot E d)))
    (run : Steps (PowerStep E) ⟨d,[]⟩ es t)
    (unconfirmed : .call (.updateImageState SwapType.permanent.code) ∉ es) :
    AgreeOn (activeSlot E d).start bodySize d.flash t.dev.flash ∧
    (activeSlot E t.dev ≠ activeSlot E d → stateIn E t.dev = .testing ∧ t.granted = []) := by
  have start : Held E (activeSlot E d) d.flash ⟨d,[]⟩ :=
    ⟨noGrants E d,agreeOnRefl _ _ _,fun away => absurd rfl away,
      fun _ awaiting => absurd awaiting settled⟩
  have held := stepsInvariantAmong (· ≠ .call (.updateImageState SwapType.permanent.code))
    (Held E (activeSlot E d) d.flash)
    (fun _ _ _ allowed h step => powerHolds remapped plain clean allowed h step) run
    (fun e mem same => unconfirmed (same ▸ mem)) start
  refine ⟨held.body,?_⟩
  intro away
  have trial := held.away away
  exact ⟨(remapReports remapped _).trans (if_pos trial.awaiting),trial.closed⟩

end Runs

def fallbackBoard : Device := {holding 2359256 (trailerBytes 1 1) with
  flash := overlay (holding 2359256 (trailerBytes 1 1)).flash Slot.primary.start 4 (fun _ => 0x5a)}

abbrev shakyBench : Env := bench Build.shipped (failsOnce (programTrailer .secondary) none)

def askedTwice : Device := leaves (blUpdateImageState shakyBench SwapType.readyForTest.code)
  (leaves (blUpdateImageState shakyBench SwapType.readyForTest.code) fallbackBoard)

theorem askedTwiceMarks : activeSlot shakyBench askedTwice = .primary ∧
    trailerOf askedTwice.flash .secondary = markedTrailer ∧
    Confirmed (trailerOf askedTwice.flash .primary) := by decide +kernel

def trialGivenUp : List Power :=
  [.call (.updateImageState SwapType.readyForTest.code),
    .call (.updateImageState SwapType.readyForTest.code),.swap,.call .getUpdatePartitionInfo,.revert]

theorem fallbackSurvivesTrial : ∃ t,
    Steps (PowerStep shakyBench) ⟨fallbackBoard,[]⟩ trialGivenUp t ∧
    activeSlot shakyBench t.dev = .primary ∧
    AgreeOn (activeSlot shakyBench fallbackBoard).start bodySize fallbackBoard.flash t.dev.flash ∧
    (activeSlot shakyBench t.dev ≠ activeSlot shakyBench fallbackBoard →
      stateIn shakyBench t.dev = .testing ∧ t.granted = []) := by
  have failed : PowerStep shakyBench ⟨fallbackBoard,[]⟩
      (.call (.updateImageState SwapType.readyForTest.code)) _ := .call (.updateImageState _ _)
  have asked : Steps (PowerStep shakyBench) _ _ ⟨askedTwice,[]⟩ := (Steps.nil _).snoc failed |>.snoc
    (.call (.updateImageState _ SwapType.readyForTest.code))
  obtain ⟨active,mark,confirmed⟩ := askedTwiceMarks
  generalize askedTwice = v at asked active mark confirmed
  obtain ⟨w,again⟩ := markedReboots (E := shakyBench) rfl .secondary v
  have started := asked.snoc (.swap (by rw [active]; exact mark ▸ markedRequested)
    (by rw [active]; exact again))
  have refused := started.snoc (.call (.getUpdatePartitionInfo _))
  have quiet : Quiet w (leaves (blGetUpdatePartitionInfo shakyBench) w) := partitionQuiet
  generalize leaves (blGetUpdatePartitionInfo shakyBench) w = x at refused quiet
  have here : activeSlot shakyBench x = .secondary := (activeSlotQuiet quiet.remap).trans again.active
  have awaits : Awaiting (trailerOf x.flash .secondary) := by
    rw [quiet.flash]
    exact rebootAwaits mark again
  have first : Confirmed (trailerOf x.flash .primary) := by
    have kept : trailerOf w.flash .primary = trailerOf v.flash .primary := swapSparesOther again
    rw [quiet.flash,kept]
    exact confirmed
  -- the bootloader erases the slot it gives up
  obtain ⟨y,back,left⟩ : ∃ y, activeSlot shakyBench y = .primary ∧
      AgreeOff Slot.secondary.start slotSize x.flash y.flash := by
    refine ⟨⟨erase x.flash Slot.secondary.start slotSize 0xff,0,x.tmpBuf,x.calls⟩,?_,
      eraseAgreeOff _ _ _ _⟩
    rw [remapSlot rfl]
    rfl
  have run := refused.snoc (.revert (d := y) (by rw [here]; exact awaits)
    (by rw [here]; exact first) (by rw [here]; exact back) (by rw [here]; exact left))
  exact ⟨_,run,back,fallbackSurvives rfl rfl (failsOnceClean _ _) (by decide) run (by decide)⟩

end AkNano.Fallback
