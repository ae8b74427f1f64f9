import AkNano.Retries
import AkNano.Commuting

/-! Requests to the update API in any order and any number. On a device whose driver works
a request has its effect the first time and none later, and the two kinds of request
commute, although both write the dormant slot when the confirmation erases its header. -/
namespace AkNano.UpdateOrder
open Memory Interrupted Platform FlashRead SwapState SlotLayout SwapEffects Session SwapRuns
open Retries Commuting Confirmation

def confirmEffect (E : Env) (a : Slot) (f : Bytes) : Bytes :=
  if Pending (trailerOf f a) then
    if E.build.flashRemapDowngradeSupport then headerErased (confirmed f a) a.other
    else confirmed f a
  else f

def requestEffect (E : Env) (a : Slot) (state : UInt32) (f : Bytes) : Bytes :=
  if state = SwapType.readyForTest.code then marked f a.other
  else if state = SwapType.permanent.code then confirmEffect E a f
  else f

section Effects

variable (f : Bytes) (s : Slot)

theorem sizes : mflashSectorSize = 4096 ∧ mflashPageSize = 256 := ⟨rfl,rfl⟩

theorem wipedOverlay :
    wiped f s = overlay f (s.stop - mflashSectorSize) mflashSectorSize (fun _ => 0xff) := rfl

theorem rewrittenOverlay (page w : Bytes) {p len : Nat}
    (apart : p + len ≤ s.stop - mflashSectorSize ∨ s.stop ≤ p) :
    rewritten (overlay f p len w) s page = overlay (rewritten f s page) p len w := by
  have stop := stopEq s
  have sizes := sizes
  have sector : p + len ≤ s.stop - mflashSectorSize ∨
      s.stop - mflashSectorSize + mflashSectorSize ≤ p := by omega
  have last : p + len ≤ s.stop - mflashPageSize ∨
      s.stop - mflashPageSize + mflashPageSize ≤ p := by omega
  calc rewritten (overlay f p len w) s page
      = overlay (overlay (wiped f s) p len w) (s.stop - mflashPageSize) mflashPageSize page := by
        rw [wipedOverlay,← overlayComm f w _ sector,← wipedOverlay,rewritten]
    _ = overlay (rewritten f s page) p len w := overlayComm _ w page last

theorem rewrittenTwice (page page' : Bytes) :
    rewritten (rewritten f s page) s.other page' = rewritten (rewritten f s.other page') s page := by
  have layout := startCases s
  have stop := stopEq s
  have stop' := stopEq s.other
  have sizes := sizes
  have sector : s.stop - mflashSectorSize + mflashSectorSize ≤ s.other.stop - mflashSectorSize ∨
      s.other.stop ≤ s.stop - mflashSectorSize := by omega
  have last : s.stop - mflashPageSize + mflashPageSize ≤ s.other.stop - mflashSectorSize ∨
      s.other.stop ≤ s.stop - mflashPageSize := by omega
  calc rewritten (rewritten f s page) s.other page'
      = overlay (rewritten (wiped f s) s.other page') (s.stop - mflashPageSize) mflashPageSize page :=
        rewrittenOverlay (wiped f s) s.other page' page last
    _ = rewritten (rewritten f s.other page') s page := by
        rw [wipedOverlay,rewrittenOverlay f s.other page' _ sector,← wipedOverlay,← rewritten]

theorem rewrittenCongr {page page' : Bytes} (same : ∀ i, i < mflashPageSize → page i = page' i) :
    rewritten f s page = rewritten f s page' := overlayCongr _ _ _ same

theorem confirmedPageElsewhere {g : Bytes}
    (h : AgreeOff (s.other.stop - mflashSectorSize) mflashSectorSize f g) :
    ∀ i, i < mflashPageSize → confirmedPage g s i = confirmedPage f s i := by
  intro i inside
  have layout := startCases s
  have same : g (s.stop - mflashPageSize + i) = f (s.stop - mflashPageSize + i) := by
    apply h
    simp only [stopEq,mflashSectorSize,mflashPageSize] at inside ⊢
    omega
  simp only [confirmedPage,same]

theorem confirmedMarked : confirmed (marked f s.other) s = marked (confirmed f s) s.other := by
  have page := confirmedPageElsewhere f s (rewrittenAgreeOff f s.other markedPage)
  calc confirmed (marked f s.other) s
      = rewritten (marked f s.other) s (confirmedPage f s) := rewrittenCongr _ _ page
    _ = marked (confirmed f s) s.other := (rewrittenTwice f s _ _).symm

theorem headerErasedMarked (g : Bytes) :
    headerErased (marked g s) s = marked (headerErased g s) s := by
  have layout := startCases s
  refine (rewrittenOverlay g s markedPage (fun _ => 0xff) (.inl ?_)).symm
  simp only [stopEq,mflashSectorSize]
  omega

theorem markedActive : trailerOf (marked f s.other) s = trailerOf f s :=
  otherTrailer (rewrittenAgreeOff f s.other markedPage)

end Effects

section Requests

variable (E : Env) (a : Slot)

theorem confirmEffectTrailer (f : Bytes) (was : Pending (trailerOf f a)) :
    Confirmed (trailerOf (confirmEffect E a f) a) := by
  have done := confirmedOfPending was
  rw [← confirmedTrailerOf] at done
  rw [confirmEffect,if_pos was]
  split
  · rwa [headerTrailerKept]
  · exact done

theorem confirmTwice (f : Bytes) :
    confirmEffect E a (confirmEffect E a f) = confirmEffect E a f := by
  by_cases was : Pending (trailerOf f a)
  · have settled : ¬ Pending (trailerOf (confirmEffect E a f) a) :=
      fun again => pendingNotConfirmed again (confirmEffectTrailer E a f was)
    rw [confirmEffect.eq_1 E a (confirmEffect E a f),if_neg settled]
  · have none : confirmEffect E a f = f := if_neg was
    rw [none,none]

theorem markTwice (f : Bytes) : marked (marked f a) a = marked f a :=
  markedForgets (rewrittenAgreeOff f a markedPage)

theorem confirmMarked (f : Bytes) :
    confirmEffect E a (marked f a.other) = marked (confirmEffect E a f) a.other := by
  simp only [confirmEffect,markedActive,confirmedMarked]
  split
  · split
    · exact headerErasedMarked a.other _
    · rfl
  · rfl

theorem requestsSettle : Settling (requestEffect E a) := by
  constructor
  case comm =>
    intro i j f
    by_cases first : i = SwapType.readyForTest.code <;>
      by_cases second : j = SwapType.readyForTest.code <;>
      simp only [requestEffect,first,second,if_true,if_false]
    · split
      · exact (confirmMarked E a f).symm
      · rfl
    · split
      · exact confirmMarked E a f
      · rfl
    · split <;> split <;> rfl
  case idem =>
    intro i f
    unfold requestEffect
    split
    · exact markTwice a.other f
    · split
      · exact confirmTwice E a f
      · rfl

end Requests

section Runs

variable {E : Env} (faultless : E.Faultless)

def requestsIn (es : List Event) : List UInt32 :=
  es.filterMap (fun e => match e with
    | .updateImageState state => some state
    | _ => none)

theorem requestMem {es : List Event} {state : UInt32} :
    state ∈ requestsIn es ↔ .updateImageState state ∈ es := by
  unfold requestsIn
  rw [List.mem_filterMap]
  constructor
  · rintro ⟨e,mem,asked⟩
    cases e with
    | updateImageState q =>
      cases Option.some.inj asked
      exact mem
    | getImageState => contradiction
    | getUpdatePartitionInfo => contradiction
    | verifyImage data size => contradiction
    | otaWrite p => contradiction
  · intro mem
    exact ⟨_,mem,rfl⟩

include faultless

theorem requestFlash {d t : Device} {state : UInt32} {o : Option Status} (h : UpdateEnd E d state o t) :
    t.flash = requestEffect E (activeSlot E d) state d.flash := by
  by_cases test : state = SwapType.readyForTest.code
  · subst test
    have success := testEndFaultless d faultless h
    subst success
    rw [(testSucceeded h).2,requestEffect,if_pos rfl]
  · by_cases confirm : state = SwapType.permanent.code
    · subst confirm
      rw [requestEffect,if_neg test,if_pos rfl]
      by_cases candidate : Candidate (trailerOf d.flash (activeSlot E d))
      · have success := candidateEndFaultless d faultless candidate (confirmEnd d h)
        subst success
        rcases (confirmSucceeded h).2 with ⟨was,same⟩ | ⟨was,wrote⟩
        · have idle : ¬ Pending (trailerOf d.flash (activeSlot E d)) :=
            fun pending => pendingNotConfirmed pending was
          rw [same,confirmEffect,if_neg idle]
        · rw [wrote,confirmEffect,if_pos was,confirmedFlash]
      · have quiet := (absentEndFaultless d faultless candidate (confirmEnd d h)).2
        have idle : ¬ Pending (trailerOf d.flash (activeSlot E d)) := fun was => candidate was.1
        rw [quiet.flash,confirmEffect,if_neg idle]
    · rw [requestEffect,if_neg test,if_neg confirm]
      cases h with
      | test asked part => exact absurd asked test
      | confirm asked part => exact absurd asked confirm
      | invalid other => rfl

theorem requestsRun {d : Device} {g : List Partition} {t : Boot} {es : List Event}
    (run : Steps (Step E) ⟨d,g⟩ es t) (unwritten : ∀ p, .otaWrite p ∉ es) :
    t.dev.remap = d.remap ∧
    t.dev.flash = applied (requestEffect E (activeSlot E d)) d.flash (requestsIn es) := by
  induction run with
  | nil => exact ⟨rfl,rfl⟩
  | @snoc u t es e run last ih =>
    obtain ⟨remap,flash⟩ := ih (fun p mem => unwritten p (List.mem_append_left _ mem))
    have slot : activeSlot E u.dev = activeSlot E d := activeSlotQuiet remap
    unfold requestsIn at flash ⊢
    rw [List.filterMap_append,appliedAppend,← flash]
    cases last with
    | getImageState => exact ⟨stateQuiet.remap.trans remap,stateQuiet.flash⟩
    | getUpdatePartitionInfo => exact ⟨partitionQuiet.remap.trans remap,partitionQuiet.flash⟩
    | verifyImage data size => exact ⟨verifyQuiet.remap.trans remap,verifyQuiet.flash⟩
    | updateImageState state =>
      have ends := endedLeaves (blUpdateImageStateEnds E u.dev state)
      have wrote := requestFlash faultless ends
      rw [slot] at wrote
      exact ⟨(updateConfined ends).remap.trans remap,wrote⟩
    | otaWrite granted inside =>
      exact absurd (List.mem_append_right es (List.mem_singleton.mpr rfl)) (unwritten _)

theorem requestsUnordered {d : Device} {g g' : List Partition} {t t' : Boot} {es es' : List Event}
    (run : Steps (Step E) ⟨d,g⟩ es t) (run' : Steps (Step E) ⟨d,g'⟩ es' t')
    (unwritten : ∀ p, .otaWrite p ∉ es ∧ .otaWrite p ∉ es')
    (same : ∀ state, .updateImageState state ∈ es ↔ .updateImageState state ∈ es') :
    t.dev.flash = t'.dev.flash := by
  have first := (requestsRun faultless run (fun p => (unwritten p).1)).2
  have second := (requestsRun faultless run' (fun p => (unwritten p).2)).2
  rw [first,second]
  apply appliedSame (requestsSettle E _)
  intro state
  rw [requestMem,requestMem]
  exact same state

end Runs

theorem requestsUnorderedOnBoard :
    let E := bench Build.shipped allDone
    let test := Event.updateImageState SwapType.readyForTest.code
    let confirm := Event.updateImageState SwapType.permanent.code
    ∃ t t', Steps (Step E) ⟨awaitingBoard,[]⟩ [confirm,test,test] t ∧
      Steps (Step E) ⟨awaitingBoard,[]⟩ [test,confirm] t' ∧ t.dev.flash = t'.dev.flash := by
  intro E test confirm
  have update := fun s state => Step.updateImageState (E := E) s state
  have first := (((Steps.nil ⟨awaitingBoard,[]⟩).snoc (update _ SwapType.permanent.code)).snoc
    (update _ SwapType.readyForTest.code)).snoc (update _ SwapType.readyForTest.code)
  have second := ((Steps.nil ⟨awaitingBoard,[]⟩).snoc (update _ SwapType.readyForTest.code)).snoc
    (update _ SwapType.permanent.code)
  refine ⟨_,_,first,second,?_⟩
  exact requestsUnordered (benchFaultless Build.shipped) first second
    (fun _ => by simp) (fun _ => by simp [or_comm])

end AkNano.UpdateOrder
