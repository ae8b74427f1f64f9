import AkNano.Rollback
import AkNano.Fallback

/-! The swap build, whose readers look at both trailers. A request for test that has been
written grants nothing more for the rest of the boot, whatever else is called or fails.
`boot_swap_perm`, which no other file calls, marks the second slot whichever slot runs. -/
namespace AkNano.SwapBuild
open Memory Interrupted Platform FlashRead SwapState SlotLayout SwapEffects Session SwapRuns
open Rollback Fallback

/-! What a request leaves behind: nothing granted but what had been `held` before, and a dormant
slot that is as it was but for the header that a confirmation with downgrade support erases. -/

def keptFrom (E : Env) (s : Slot) : Nat :=
  if E.build.flashRemapDowngradeSupport then s.start + mflashSectorSize else s.start

def DormantKept (E : Env) (s : Slot) (f g : Bytes) : Prop :=
  ∀ x, keptFrom E s ≤ x → x < s.stop → g x = f x

structure Reserved (E : Env) (d : Device) (held : List Partition) (s : Boot) : Prop where
  remap : s.dev.remap = d.remap
  closed : s.granted = held
  dormant : DormantKept E (activeSlot E d).other d.flash s.dev.flash
  marked : trailerOf s.dev.flash (activeSlot E d).other = markedTrailer

section Runs

variable {E : Env} {d : Device} {held : List Partition} {s t : Boot} {e : Event} {es : List Event}

theorem keptRefl (s : Slot) (f : Bytes) : DormantKept E s f f := fun _ _ _ => rfl

theorem keptTrans {s : Slot} {f g h : Bytes} (first : DormantKept E s f g)
    (second : DormantKept E s g h) : DormantKept E s f h :=
  fun x above below => (second x above below).trans (first x above below)

theorem keptTrailer {s : Slot} {f g : Bytes} (h : DormantKept E s f g) :
    trailerOf g s = trailerOf f s := by
  apply trailerCongr
  intro i small
  have stop := stopEq s
  apply h
  · unfold keptFrom
    split <;> simp only [mflashSectorSize,imageTrailerSize] <;> omega
  · simp only [imageTrailerSize]
    omega

theorem keptActive {a : Slot} {f g : Bytes}
    (h : AgreeOff (a.stop - mflashSectorSize) mflashSectorSize f g) : DormantKept E a.other f g := by
  intro x above below
  have layout := startCases a
  have lower : a.other.start ≤ x := by
    unfold keptFrom at above
    split at above
    · exact Nat.le_trans (Nat.le_add_right _ _) above
    · exact above
  apply h
  simp only [stopEq,mflashSectorSize] at below ⊢
  omega

theorem keptHeader (support : E.build.flashRemapDowngradeSupport = true) {s : Slot} {f g : Bytes}
    (h : AgreeOff s.start mflashSectorSize f g) : DormantKept E s f g := by
  intro x above below
  unfold keptFrom at above
  rw [if_pos support] at above
  exact h x (.inr above)

theorem keptQuiet (s : Slot) {t : Device} (quiet : Quiet d t) : DormantKept E s d.flash t.flash := by
  rw [quiet.flash]
  exact keptRefl s d.flash

theorem confirmKeeps {o : Option Status} {t : Device} (h : SwapOkEnd E d o t) :
    DormantKept E (activeSlot E d).other d.flash t.flash := by
  cases h with
  | readFailed bad quiet fault => exact keptQuiet _ quiet
  | readCut quiet fault => exact keptQuiet _ quiet
  | noData quiet read absent => exact keptQuiet _ quiet
  | already quiet was => exact keptQuiet _ quiet
  | rewriting quiet was part failed => exact keptTrans (keptQuiet _ quiet) (keptActive (rewriteFrame part))
  | finished quiet was part support => exact keptTrans (keptQuiet _ quiet) (keptActive (rewriteFrame part))
  | header quiet was part support last =>
    exact keptTrans (keptTrans (keptQuiet _ quiet) (keptActive (rewriteFrame part)))
      (keptHeader support (eraseFrame last).2)

theorem updateKeeps {state : UInt32} {o : Option Status} {t : Device}
    (again : state ≠ SwapType.readyForTest.code) (h : UpdateEnd E d state o t) :
    DormantKept E (activeSlot E d).other d.flash t.flash := by
  cases h with
  | test asked part => exact absurd asked again
  | confirm asked part => exact confirmKeeps part
  | invalid other => exact keptRefl _ _

section Swapping

variable (swapping : E.build.flashRemapEnable = false)

include swapping

theorem reservedState (h : Reserved E d held s) : stateIn E s.dev = .readyForTest := by
  have same : activeSlot E s.dev = activeSlot E d := activeSlotQuiet h.remap
  unfold stateIn
  rw [same,h.marked,markedState,swapping]
  rfl

variable (plain : E.build.pageIntegrityChecks = false)

include plain

theorem stepReserved (again : e ≠ .updateImageState SwapType.readyForTest.code)
    (unwritten : held = [] ∨ ∀ p, e ≠ .otaWrite p) (h : Reserved E d held s) (step : Step E s e t) :
    Reserved E d held t ∧ ∀ p, e ≠ .otaWrite p := by
  have same : activeSlot E s.dev = activeSlot E d := activeSlotQuiet h.remap
  have carried : ∀ {u : Device}, u.remap = s.dev.remap →
      DormantKept E (activeSlot E d).other s.dev.flash u.flash → Reserved E d held ⟨u,held⟩ :=
    fun remap kept => ⟨remap.trans h.remap,rfl,keptTrans h.dormant kept,(keptTrailer kept).trans h.marked⟩
  have quiet : ∀ {u : Device}, Quiet s.dev u → Reserved E d held ⟨u,held⟩ :=
    fun quiet => carried quiet.remap (keptQuiet _ quiet)
  cases step with
  | getImageState =>
    rw [h.closed]
    exact ⟨quiet stateQuiet,fun _ => by simp⟩
  | getUpdatePartitionInfo =>
    rw [grantsNothing plain (.inr (reservedState swapping h)),h.closed]
    exact ⟨quiet partitionQuiet,fun _ => by simp⟩
  | verifyImage data size =>
    rw [h.closed]
    exact ⟨quiet verifyQuiet,fun _ => by simp⟩
  | updateImageState state =>
    have ends := endedLeaves (blUpdateImageStateEnds E s.dev state)
    have kept := updateKeeps (fun asked => again (congrArg Event.updateImageState asked)) ends
    rw [same] at kept
    rw [h.closed]
    exact ⟨carried (updateConfined ends).remap kept,fun _ => by simp⟩
  | otaWrite granted inside =>
    rw [h.closed] at granted
    rcases unwritten with none | silent
    · rw [none] at granted
      exact absurd granted List.not_mem_nil
    · exact absurd rfl (silent _)

theorem runReserved (h : Reserved E d held s) (run : Steps (Step E) s es t)
    (once : .updateImageState SwapType.readyForTest.code ∉ es)
    (unwritten : held = [] ∨ ∀ p, .otaWrite p ∉ es) :
    Reserved E d held t ∧ ∀ p, .otaWrite p ∉ es := by
  induction run with
  | nil => exact ⟨h,fun _ => List.not_mem_nil⟩
  | @snoc u t es e run last ih =>
    rw [List.mem_append,not_or,List.mem_singleton] at once
    have before : held = [] ∨ ∀ p, .otaWrite p ∉ es :=
      unwritten.imp_right (fun silent p mem => silent p (List.mem_append_left _ mem))
    have here : held = [] ∨ ∀ p, e ≠ .otaWrite p := by
      refine unwritten.imp_right (fun silent p same => silent p ?_)
      rw [same]
      exact List.mem_append_right _ List.mem_cons_self
    obtain ⟨reserved,quiet⟩ := ih once.1 before
    obtain ⟨after,still⟩ :=
      stepReserved swapping plain (fun same => once.2 same.symm) here reserved last
    refine ⟨after,?_⟩
    intro p
    rw [List.mem_append,not_or,List.mem_singleton]
    exact ⟨quiet p,fun same => still p same.symm⟩

end Swapping

end Runs

abbrev swappingBench : Env := bench ⟨false,true,false⟩ (failsOnce (eraseTrailer .primary) none)

def waiting : List Event :=
  [.updateImageState SwapType.permanent.code,.getUpdatePartitionInfo,
    .updateImageState SwapType.permanent.code,.getUpdatePartitionInfo]

def permanentPage : Bytes := fun i =>
  if i = trailerInPage + imageOkOffset then 1 else markedPage i

def permanentTrailer : ImageTrailer := {markedTrailer with imageOk := bootFlagSet}

section Permanent

variable {E : Env} {d t : Device}

theorem bootSwapPermEnds (E : Env) (d : Device) :
    Ended (bootSwapPerm E) d (RewriteEnd E d .secondary permanentPage) := by
  have areas := areaOffsets E.board
  unfold bootSwapPerm
  rw [areas.2.2.2]
  apply rewriteTrailerEnds
  intro i inside
  rw [setImageOkBytes,magicPageBytes E inside,permanentPage]

theorem permanentTrailerOf (f : Bytes) (s : Slot) :
    trailerOf (rewritten f s permanentPage) s = permanentTrailer := by
  have page : trailerAt permanentPage trailerInPage = permanentTrailer := by decide
  rw [← page]
  exact trailerCongr (fun i small => rewrittenAt f s permanentPage small)

theorem permanentState (b : Build) (active : ImageTrailer) : stateOf b active permanentTrailer =
    if b.flashRemapEnable then activeState active else .permanent := by
  have magic : bootImgMagicCheck permanentTrailer.magic = true := by decide
  have unset : checkUnset [permanentTrailer.imageOk] = false := by decide
  have set : permanentTrailer.imageOk = 0x01 := rfl
  unfold stateOf
  rw [magic,unset,set]
  simp

theorem permanentSelf (b : Build) (dormant : ImageTrailer) :
    stateOf b permanentTrailer dormant ≠ .testing := by
  have idle : activeState permanentTrailer = .none := by decide
  unfold stateOf
  rw [idle]
  split
  · simp
  · split
    · split
      · simp
      · split <;> simp
    · split <;> simp

/-- What a `boot_swap_perm` that was carried out has written and what the caller then sees. -/
structure Marked (E : Env) (d t : Device) : Prop where
  flash : t.flash = rewritten d.flash .secondary permanentPage
  trailer : trailerOf t.flash .secondary = permanentTrailer
  other : activeSlot E d = .primary → ∃ v, blGetImageState E t = .ok (kStatusSuccess,
    some (if E.build.flashRemapEnable then stateIn E d else .permanent)) v
  itself : activeSlot E d = .secondary →
    (∃ v, blUpdateImageState E SwapType.permanent.code t = .ok kStatusNoData v ∧ Quiet t v) ∧
    ∀ state v, blGetImageState E t = .ok (kStatusSuccess,some state) v → state ≠ .testing

theorem permMarks (faultless : E.Faultless) (d : Device) :
    ∃ t, bootSwapPerm E d = .ok kStatusSuccess t ∧ Marked E d t := by
  obtain ⟨t,run,ends⟩ := endedAlways (bootSwapPermEnds E d) (fun _ _ => rewriteFaultless faultless)
  obtain ⟨remap,flash⟩ := rewriteSucceeded ends
  have reads := faultless.reads slotsEnd
  have same : activeSlot E t = activeSlot E d := activeSlotQuiet remap
  have mark : trailerOf t.flash .secondary = permanentTrailer := by rw [flash,permanentTrailerOf]
  refine ⟨t,run,flash,mark,?_,?_⟩
  · intro primary
    have active : trailerOf t.flash .primary = trailerOf d.flash .primary := by
      rw [flash]
      exact otherTrailer (rewrittenAgreeOff _ _ _)
    obtain ⟨v,_,reported⟩ := stateRuns t reads
    have state : stateIn E t = if E.build.flashRemapEnable then stateIn E d else .permanent := by
      have shown : stateIn E t = stateOf E.build (trailerOf t.flash .primary)
          (trailerOf t.flash .secondary) := by
        unfold stateIn
        rw [same,primary]
        rfl
      rw [shown,active,mark,permanentState]
      split
      case isTrue remapped => rw [remapState remapped,primary]
      case isFalse swapping => rfl
    rw [state] at reported
    exact ⟨v,reported⟩
  · intro secondary
    have active : trailerOf t.flash (activeSlot E t) = permanentTrailer := by rw [same,secondary,mark]
    refine ⟨confirmAbsent t faultless ?_,?_⟩
    · rw [active]
      decide
    · intro state v reports
      rw [← stateReported t reads reports,stateIn,active]
      exact permanentSelf _ _

end Permanent

theorem permMarksOnBoard : ∃ t,
    bootSwapPerm shippedBench {awaitingBoard with remap := 1} = .ok kStatusSuccess t ∧
      Marked shippedBench {awaitingBoard with remap := 1} t :=
  permMarks (benchFaultless Build.shipped) {awaitingBoard with remap := 1}

end AkNano.SwapBuild
