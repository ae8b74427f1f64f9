import AkNano.SwapRuns

/-! Confirming the running image. The trailer's sector is erased and its last page
programmed back, so the one call that can lose the trailer is that page program. The
inactive header goes last, after which a retry has nothing left to look at. -/
namespace AkNano.Confirmation
open Memory Interrupted Platform FlashRead SwapState SlotLayout SwapEffects Session SwapRuns

/-- The last driver call since `d` was the program of the trailer's page, and it was not done. -/
def ProgramMissed (E : Env) (d t : Device) : Prop :=
  ∃ cs, t.calls = programTrailer (activeSlot E d) :: (cs ++ d.calls) ∧
    E.outcome (cs ++ d.calls) (programTrailer (activeSlot E d)) ≠ .done

section Trailer

variable {E : Env} {d t : Device}

theorem notMissedOf {c : Call} (cs : List Call) (last : t.calls = c :: (cs ++ d.calls))
    (other : c ≠ programTrailer (activeSlot E d)) : ¬ ProgramMissed E d t := by
  rintro ⟨rest,same,_⟩
  rw [last] at same
  exact other (List.cons.inj same).1

theorem notMissedQuiet (quiet : Quiet d t) : ¬ ProgramMissed E d t := by
  obtain ⟨rs,calls,reads⟩ := quiet.calls
  rintro ⟨cs,same,_⟩
  rw [calls,← List.cons_append] at same
  have head := List.append_cancel_right same
  have program := reads (programTrailer (activeSlot E d)) (by rw [head]; exact List.mem_cons_self)
  simp [programTrailer,Call.reads] at program

theorem missedIff {cs : List Call}
    (last : t.calls = programTrailer (activeSlot E d) :: (cs ++ d.calls)) :
    ProgramMissed E d t ↔ E.outcome (cs ++ d.calls) (programTrailer (activeSlot E d)) ≠ .done := by
  constructor
  · rintro ⟨rest,same,missed⟩
    rw [last] at same
    rwa [(List.cons.inj same).2]
  · intro missed
    exact ⟨cs,last,missed⟩

theorem rewriteIssued {u page s} (h : RewriteEnd E u s page (some kStatusSuccess) t) :
    t.calls = programTrailer s :: eraseTrailer s :: u.calls := by
  cases h with
  | done erased programmed => rfl
  | eraseFailed bad fault torn => exact absurd rfl bad
  | programFailed bad fault torn => rfl

theorem eraseIssued {u addr o} (h : EraseEnd E u addr o t) : t.calls = .sectorErase addr :: u.calls := by
  cases h with
  | done ok => rfl
  | failed bad fault torn => rfl
  | cut fault => rfl

inductive RewriteLeft (E : Env) (d : Device) (page : Bytes) (t : Device) : Prop where
  | before (kept : ¬ ProgramMissed E d t) (same : t.flash = d.flash)
  | missed (missed : ProgramMissed E d t) (lost : t.flash = wiped d.flash (activeSlot E d))
  | whole (kept : ¬ ProgramMissed E d t) (done : t.flash = rewritten d.flash (activeSlot E d) page)

theorem rewriteLeft {u page o} (clean : E.Clean) (quiet : Quiet d u)
    (h : RewriteEnd E u (activeSlot E d) page o t) : RewriteLeft E d page t := by
  obtain ⟨rs,calls,_⟩ := quiet.calls
  generalize hs : activeSlot E d = s at h
  have behind : eraseTrailer s :: u.calls = (eraseTrailer s :: rs) ++ d.calls := by
    rw [calls,List.cons_append]
  have other : eraseTrailer s ≠ programTrailer (activeSlot E d) := by
    simp [eraseTrailer,programTrailer]
  -- both ends that issue the page program log the same calls
  have issued : ∀ f, ProgramMissed E d (u.wrote [programTrailer s,eraseTrailer s] f) ↔
      E.outcome (eraseTrailer s :: u.calls) (programTrailer s) ≠ .done := by
    intro f
    rw [behind,← hs]
    apply missedIff
    rw [wroteCalls,hs,← behind]
    rfl
  cases h with
  | done erased programmed =>
    refine .whole (fun h => (issued _).mp h programmed) ?_
    rw [wroteFlash,quiet.flash,hs]
  | eraseFailed bad fault torn =>
    refine .before (notMissedOf rs (by rw [wroteCalls,calls]; rfl) other) ?_
    rw [wroteFlash,torn.clean clean,quiet.flash]
  | eraseCut fault =>
    refine .before (notMissedOf rs (by rw [wroteCalls,calls]; rfl) other) ?_
    rw [wroteFlash,quiet.flash]
  | programFailed bad fault torn =>
    refine .missed ((issued _).mpr fault) ?_
    rw [wroteFlash,torn.clean clean,quiet.flash,hs]
  | programCut fault =>
    refine .missed ((issued _).mpr (by rw [fault]; simp)) ?_
    rw [wroteFlash,quiet.flash,hs]

inductive TrailerLeft (E : Env) (d t : Device) : Prop where
  | old (kept : ¬ ProgramMissed E d t)
      (same : trailerOf t.flash (activeSlot E d) = trailerOf d.flash (activeSlot E d))
  | confirmed (kept : ¬ ProgramMissed E d t)
      (done : trailerOf t.flash (activeSlot E d) = confirmedTrailer (trailerOf d.flash (activeSlot E d)))
  | lost (missed : ProgramMissed E d t)
      (blank : trailerOf t.flash (activeSlot E d) = erasedTrailer)

theorem trailerOfRewrite
    (h : RewriteLeft E d (confirmedPage d.flash (activeSlot E d)) t) : TrailerLeft E d t := by
  cases h with
  | before kept same => exact .old kept (by rw [same])
  | missed missed lost => exact .lost missed (by rw [lost,wipedTrailer])
  | whole kept done => exact .confirmed kept (by rw [done]; exact confirmedTrailerOf _ _)

theorem confirmTrailer {o} (clean : E.Clean) (h : SwapOkEnd E d o t) : TrailerLeft E d t := by
  cases h with
  | readFailed bad quiet fault => exact .old (notMissedQuiet quiet) (by rw [quiet.flash])
  | readCut quiet fault => exact .old (notMissedQuiet quiet) (by rw [quiet.flash])
  | noData quiet read absent => exact .old (notMissedQuiet quiet) (by rw [quiet.flash])
  | already quiet was => exact .old (notMissedQuiet quiet) (by rw [quiet.flash])
  | rewriting quiet was part failed => exact trailerOfRewrite (rewriteLeft clean quiet part)
  | finished quiet was part support => exact trailerOfRewrite (rewriteLeft clean quiet part)
  | header quiet was part support last =>
    obtain ⟨rs,calls,_⟩ := quiet.calls
    have done := (rewriteSucceeded part).2
    rw [quiet.flash] at done
    have issued := (rewriteIssued part).trans (congrArg _ (congrArg _ calls))
    have final := (eraseIssued last).trans (congrArg _ issued)
    have layout := startCases (activeSlot E d)
    have kept := trailerKept (s := activeSlot E d) (eraseFrame last).2
      (by simp only [stopEq,mflashSectorSize,imageTrailerSize]; omega)
    refine .confirmed (notMissedOf (programTrailer _ :: eraseTrailer _ :: rs) final ?_) ?_
    · simp [programTrailer]
    · rw [kept,done]
      exact confirmedTrailerOf _ _

theorem candidateLeft (h : TrailerLeft E d t)
    (candidate : Candidate (trailerOf d.flash (activeSlot E d))) :
    Candidate (trailerOf t.flash (activeSlot E d)) ↔ ¬ ProgramMissed E d t := by
  cases h with
  | old kept same => rw [same]; exact iff_of_true candidate kept
  | confirmed kept done => rw [done]; exact iff_of_true candidate kept
  | lost missed blank => rw [blank]; exact iff_of_false erasedNotCandidate (not_not.mpr missed)

theorem confirmLeaves (clean : E.Clean) :
    TrailerLeft E d (leaves (blUpdateImageState E SwapType.permanent.code) d) :=
  confirmTrailer clean (confirmEnd d (endedLeaves (blUpdateImageStateEnds E d _)))

theorem slotAfterUpdate {state : UInt32} :
    activeSlot E (leaves (blUpdateImageState E state) d) = activeSlot E d :=
  activeSlotQuiet (updateConfined (endedLeaves (blUpdateImageStateEnds E d state))).remap

theorem noDataIff (candidate : Candidate (trailerOf d.flash (activeSlot E d)))
    (slot : activeSlot E t = activeSlot E d) (h : TrailerLeft E d t) :
    (∃ u, blUpdateImageState E.withoutFaults SwapType.permanent.code t = .ok kStatusNoData u) ↔
      ProgramMissed E d t := by
  have faultless := withoutFaultsFaultless E
  have own : activeSlot E.withoutFaults t = activeSlot E d := slot
  have left := candidateLeft h candidate
  rw [← own] at left
  constructor
  · rintro ⟨u,noData⟩
    apply not_not.mp
    intro kept
    obtain ⟨v,success,_⟩ := confirmRuns t faultless (left.mpr kept)
    rw [noData] at success
    simp only [EStateM.Result.ok.injEq] at success
    exact absurd success.1 (by decide)
  · intro missed
    obtain ⟨u,noData,_⟩ := confirmAbsent t faultless (fun c => left.mp c missed)
    exact ⟨u,noData⟩

theorem confirmationOutcome (clean : E.Clean)
    (awaiting : Awaiting (trailerOf d.flash (activeSlot E d))) :
    TrailerLeft E d (leaves (blUpdateImageState E SwapType.permanent.code) d) ∧
    ((∃ u, blUpdateImageState E.withoutFaults SwapType.permanent.code
        (leaves (blUpdateImageState E SwapType.permanent.code) d) = .ok kStatusNoData u) ↔
      ProgramMissed E d (leaves (blUpdateImageState E SwapType.permanent.code) d)) := by
  have left := confirmLeaves (d := d) clean
  exact ⟨left,noDataIff awaiting.1 slotAfterUpdate left⟩

end Trailer

theorem programlessLoses {E : Env} {d t : Device} {o : Option Status} (clean : E.Clean)
    (reads : E.ReadsSucceed slotsEnd)
    (erases : ∀ calls s, E.outcome calls (eraseTrailer s) = .done)
    (fails : ∀ calls s, E.outcome calls (programTrailer s) ≠ .done)
    (pending : Pending (trailerOf d.flash (activeSlot E d))) (h : SwapOkEnd E d o t) :
    t.flash = wiped d.flash (activeSlot E d) := by
  have lost : ∀ {u page o t}, RewriteEnd E u (activeSlot E d) page o t →
      t.flash = wiped u.flash (activeSlot E d) := by
    intro u page o t part
    cases part with
    | done erased programmed => exact absurd programmed (fails _ _)
    | eraseFailed bad fault torn => exact absurd (erases _ _) fault
    | eraseCut fault => rw [erases] at fault; contradiction
    | programFailed bad fault torn => exact (wroteFlash _ _ _).trans (torn.clean clean)
    | programCut fault => exact wroteFlash _ _ _
  cases swapOkRead reads h with
  | absent quiet no => exact absurd pending.1 no
  | already quiet was => exact absurd was (pendingNotConfirmed pending)
  | rewriting quiet was part failed => rw [lost part,quiet.flash]
  | finished quiet was part support => rw [lost part,quiet.flash]
  | header quiet was part support last =>
    cases part with
    | done erased programmed => exact absurd programmed (fails _ _)
    | eraseFailed bad fault torn => exact absurd rfl bad
    | programFailed bad fault torn => exact absurd rfl bad

def programFails : List Call → Call → Outcome
  | _, .pageProgram _ => .failed ⟨kStatusFail,failIsError⟩ none
  | _, _ => .done

theorem programFailsClean (build : Build) : (bench build programFails).Clean := by
  intro calls c status garbage h
  cases c with
  | pageProgram addr => cases h; rfl
  | read addr dst len => cases h
  | isReadable addr => cases h
  | phys2log addr len => cases h
  | sectorErase addr => cases h

theorem programFailsReads (build : Build) (limit : Nat) :
    (bench build programFails).ReadsSucceed limit := by
  intro calls c reads _
  cases c with
  | pageProgram addr => simp [Call.reads] at reads
  | read addr dst len => rfl
  | isReadable addr => rfl
  | phys2log addr len => rfl
  | sectorErase addr => rfl

theorem boardLost : (leaves (blUpdateImageState (bench Build.shipped programFails)
    SwapType.permanent.code) awaitingBoard).flash = wiped awaitingBoard.flash .primary := by
  have ends := confirmEnd _ (endedLeaves (blUpdateImageStateEnds (bench Build.shipped programFails)
    awaitingBoard SwapType.permanent.code))
  have fails : ∀ calls s,
      (bench Build.shipped programFails).outcome calls (programTrailer s) ≠ .done := by
    intro calls s
    simp [bench,programFails,programTrailer]
  have erases : ∀ calls s,
      (bench Build.shipped programFails).outcome calls (eraseTrailer s) = .done := by
    intro calls s
    simp [bench,programFails,eraseTrailer]
  have slot : activeSlot (bench Build.shipped programFails) awaitingBoard = .primary :=
    remapSlot rfl awaitingBoard
  have lost := programlessLoses (programFailsClean Build.shipped) (programFailsReads _ _) erases
    fails (by rw [slot]; exact awaitingPending boardAwaiting) ends
  rwa [slot] at lost

theorem confirmationLosesTrailer : ∃ E : Env, E.Clean ∧ ∃ d : Device,
    Awaiting (trailerOf d.flash (activeSlot E d)) ∧
    trailerOf (leaves (blUpdateImageState E SwapType.permanent.code) d).flash (activeSlot E d) ≠
      trailerOf d.flash (activeSlot E d) ∧
    trailerOf (leaves (blUpdateImageState E SwapType.permanent.code) d).flash (activeSlot E d) ≠
      confirmedTrailer (trailerOf d.flash (activeSlot E d)) := by
  have slot : activeSlot (bench Build.shipped programFails) awaitingBoard = .primary :=
    remapSlot rfl awaitingBoard
  have candidate := boardAwaiting.1
  have candidate' : Candidate (confirmedTrailer (trailerOf awaitingBoard.flash .primary)) := candidate
  refine ⟨_,programFailsClean Build.shipped,awaitingBoard,?_⟩
  rw [boardLost,slot,wipedTrailer]
  refine ⟨boardAwaiting,?_,?_⟩
  · intro same
    rw [← same] at candidate
    exact erasedNotCandidate candidate
  · intro same
    rw [← same] at candidate'
    exact erasedNotCandidate candidate'

theorem confirmationOutcomeOnBoard :
    TrailerLeft (bench Build.shipped programFails) awaitingBoard
      (leaves (blUpdateImageState (bench Build.shipped programFails) SwapType.permanent.code)
        awaitingBoard) ∧
    ((∃ u, blUpdateImageState (bench Build.shipped programFails).withoutFaults
        SwapType.permanent.code (leaves (blUpdateImageState (bench Build.shipped programFails)
          SwapType.permanent.code) awaitingBoard) = .ok kStatusNoData u) ↔
      ProgramMissed (bench Build.shipped programFails) awaitingBoard
        (leaves (blUpdateImageState (bench Build.shipped programFails) SwapType.permanent.code)
          awaitingBoard)) :=
  confirmationOutcome (programFailsClean Build.shipped) boardAwaiting

end AkNano.Confirmation
