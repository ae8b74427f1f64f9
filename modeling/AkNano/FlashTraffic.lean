import AkNano.Confirmation

/-! What the update API asks of the flash over a whole boot, whatever fails. No page is
programmed but a trailer's, and that only right after the erase of its sector was done, so
no page is programmed twice between two erases. The running image's first sector is never
erased, and the erases are bounded by the requests made. -/
namespace AkNano.FlashTraffic
open Memory Interrupted Platform FlashRead SwapState SlotLayout SwapEffects Session
open ImageVerdict Confirmation

def OwnSector (a : Slot) (addr : Nat) : Prop :=
  addr = a.stop - mflashSectorSize ∨ addr = a.other.stop - mflashSectorSize ∨ addr = a.other.start

inductive Traffic (E : Env) (a : Slot) (log : List Call) : List Call → Prop where
  | nil : Traffic E a log []
  | read {c cs} (reads : c.reads = true) (rest : Traffic E a log cs) : Traffic E a log (c :: cs)
  | erase {addr cs} (own : OwnSector a addr) (rest : Traffic E a log cs) :
      Traffic E a log (.sectorErase addr :: cs)
  | program {s cs} (erased : E.outcome (cs ++ log) (eraseTrailer s) = .done)
      (rest : Traffic E a log (eraseTrailer s :: cs)) :
      Traffic E a log (programTrailer s :: eraseTrailer s :: cs)

def isErase : Call → Bool
  | .sectorErase _ => true
  | .pageProgram _ | .read .. | .isReadable _ | .phys2log .. => false

def isProgram : Call → Bool
  | .pageProgram _ => true
  | .sectorErase _ | .read .. | .isReadable _ | .phys2log .. => false

def isUpdate : Event → Bool
  | .updateImageState _ => true
  | .getImageState | .getUpdatePartitionInfo | .verifyImage .. | .otaWrite _ => false

section Logs

variable {E : Env} {a : Slot} {log cs ds : List Call}

theorem trafficReads (reads : ∀ c ∈ cs, c.reads = true) : Traffic E a log cs := by
  induction cs with
  | nil => exact .nil
  | cons c cs ih =>
    exact .read (reads c List.mem_cons_self) (ih (fun d mem => reads d (List.mem_cons_of_mem c mem)))

theorem trafficAppend (first : Traffic E a log cs) (second : Traffic E a (cs ++ log) ds) :
    Traffic E a log (ds ++ cs) := by
  induction second with
  | nil => exact first
  | read reads rest ih => exact .read reads ih
  | erase own rest ih => exact .erase own ih
  | @program s es erased rest ih =>
    rw [← List.append_assoc] at erased
    exact .program erased ih

theorem trafficPrograms (traffic : Traffic E a log cs) {later earlier : List Call} {addr : Nat}
    (cut : cs = later ++ .pageProgram addr :: earlier) : ∃ s before,
    addr = s.stop - mflashPageSize ∧ earlier = eraseTrailer s :: before ∧
    E.outcome (before ++ log) (eraseTrailer s) = .done := by
  induction traffic generalizing later with
  | nil =>
    rcases later with _ | _
    · contradiction
    · contradiction
  | @read c cs reads rest ih =>
    rcases later with _ | ⟨_,later⟩
    · obtain ⟨head,_⟩ := List.cons.inj cut
      subst head
      contradiction
    · exact ih (List.cons.inj cut).2
  | @erase own' cs own rest ih =>
    rcases later with _ | ⟨_,later⟩
    · obtain ⟨head,_⟩ := List.cons.inj cut
      contradiction
    · exact ih (List.cons.inj cut).2
  | @program s cs erased rest ih =>
    rcases later with _ | ⟨_,later⟩
    · obtain ⟨head,tail⟩ := List.cons.inj cut
      exact ⟨s,cs,(Call.pageProgram.inj head).symm,tail.symm,erased⟩
    · exact ih (List.cons.inj cut).2

theorem trafficErases (traffic : Traffic E a log cs) {addr : Nat}
    (mem : .sectorErase addr ∈ cs) : OwnSector a addr := by
  induction traffic with
  | nil => exact absurd mem List.not_mem_nil
  | read reads rest ih =>
    rcases List.mem_cons.mp mem with head | later
    · subst head
      contradiction
    · exact ih later
  | erase own rest ih =>
    rcases List.mem_cons.mp mem with head | later
    · rwa [Call.sectorErase.inj head]
    · exact ih later
  | program erased rest ih =>
    rcases List.mem_cons.mp mem with head | later
    · exact absurd head (by simp [programTrailer])
    · exact ih later

end Logs

structure Issued (E : Env) (a : Slot) (d t : Device) (m n : Nat) (cs : List Call) : Prop where
  calls : t.calls = cs ++ d.calls
  traffic : Traffic E a d.calls cs
  erases : cs.countP isErase ≤ m
  programs : cs.countP isProgram ≤ n

def Issues (E : Env) (a : Slot) (m n : Nat) (d t : Device) : Prop :=
  t.remap = d.remap ∧ ∃ cs, Issued E a d t m n cs

section Calls

variable {E : Env} {a : Slot} {d t u : Device}

theorem issuesQuiet (quiet : Quiet d t) : Issues E a 0 0 d t := by
  obtain ⟨cs,calls,reads⟩ := quiet.calls
  have none : ∀ c ∈ cs, ¬ isErase c = true ∧ ¬ isProgram c = true := by
    intro c mem
    have read := reads c mem
    cases c <;> simp_all [Call.reads,isErase,isProgram]
  exact ⟨quiet.remap,cs,calls,trafficReads reads,
    Nat.le_of_eq (List.countP_eq_zero.mpr (fun c mem => (none c mem).1)),
    Nat.le_of_eq (List.countP_eq_zero.mpr (fun c mem => (none c mem).2))⟩

theorem issuesTrans {m n m' n' : Nat} (first : Issues E a m n d t)
    (second : Issues E a m' n' t u) : Issues E a (m + m') (n + n') d u := by
  obtain ⟨remap,cs,first⟩ := first
  obtain ⟨remap',ds,second⟩ := second
  have traffic := second.traffic
  rw [first.calls] at traffic
  refine ⟨remap'.trans remap,ds ++ cs,by rw [second.calls,first.calls,List.append_assoc],
    trafficAppend first.traffic traffic,?_,?_⟩
  · rw [List.countP_append,Nat.add_comm m]
    exact Nat.add_le_add second.erases first.erases
  · rw [List.countP_append,Nat.add_comm n]
    exact Nat.add_le_add second.programs first.programs

theorem issuesAfter {m n : Nat} (quiet : Quiet d t) (h : Issues E a m n t u) :
    Issues E a m n d u := by
  have both := issuesTrans (issuesQuiet quiet) h
  rwa [Nat.zero_add,Nat.zero_add] at both

theorem issuesMore {m n m' n' : Nat} (erases : m ≤ m') (programs : n ≤ n')
    (h : Issues E a m n d t) : Issues E a m' n' d t := by
  obtain ⟨remap,cs,issued⟩ := h
  exact ⟨remap,cs,issued.calls,issued.traffic,Nat.le_trans issued.erases erases,
    Nat.le_trans issued.programs programs⟩

theorem eraseIssues {addr : Nat} (own : OwnSector a addr) {o : Option Status}
    (h : EraseEnd E d addr o t) : Issues E a 1 0 d t :=
  ⟨(eraseFrame h).1,[.sectorErase addr],eraseIssued h,.erase own .nil,Nat.le_refl 1,Nat.le_refl 0⟩

theorem programIssues {s : Slot} {data : Bytes} (own : OwnSector a (s.stop - mflashSectorSize))
    {o : Option Status} (erased : EraseEnd E d (s.stop - mflashSectorSize) (some kStatusSuccess) t)
    (h : ProgramEnd E t (s.stop - mflashPageSize) data o u) : Issues E a 1 1 d u := by
  have calls : u.calls = programTrailer s :: eraseTrailer s :: d.calls := by
    calc u.calls = programTrailer s :: t.calls := by cases h <;> rfl
      _ = programTrailer s :: eraseTrailer s :: d.calls := congrArg _ (eraseIssued erased)
  have remap : u.remap = t.remap := by cases h <;> exact wroteRemap _ _ _
  have done : E.outcome ([] ++ d.calls) (eraseTrailer s) = .done := by
    cases erased with
    | done ok => exact ok
    | failed bad fault torn => exact absurd rfl bad
  exact ⟨remap.trans (eraseFrame erased).1,[programTrailer s,eraseTrailer s],calls,
    .program done (.erase own .nil),Nat.le_refl 1,Nat.le_refl 1⟩

theorem rewriteTraffic (E : Env) (d : Device) (s : Slot) (mem : Bytes) (buf : Nat)
    (own : OwnSector a (s.stop - mflashSectorSize)) :
    Ended (rewriteTrailer E s.stop mem buf) d (fun _ t => Issues E a 1 1 d t) := by
  have sector : (s.stop - mflashSectorSize) % mflashSectorSize = 0 := by cases s <;> decide
  have aligned : (s.stop - mflashPageSize) % mflashPageSize = 0 := by cases s <;> decide
  unfold rewriteTrailer
  refine endedThen (sectorEraseEnds E sector d) ?_ ?_
  · intro st t erase
    split
    case isTrue bad => exact endsPure (issuesMore (Nat.le_refl 1) (Nat.zero_le 1) (eraseIssues own erase))
    case isFalse good =>
      rw [not_not.mp good] at erase
      exact endedMono (pageProgramEnds E aligned _ t) (fun _ _ => programIssues own erase)
  · intro t erase
    exact issuesMore (Nat.le_refl 1) (Nat.zero_le 1) (eraseIssues own erase)

theorem testTraffic (E : Env) (d : Device) :
    Ended (bootSwapTest E) d (fun _ t => Issues E (activeSlot E d) 1 1 d t) := by
  unfold bootSwapTest
  apply endsGet
  rw [inactiveStop]
  exact rewriteTraffic E d _ _ _ (.inr (.inl rfl))

theorem confirmTraffic (E : Env) (d : Device) :
    Ended (bootSwapOk E) d (fun _ t => Issues E (activeSlot E d) 2 1 d t) := by
  have few : ∀ {t}, Quiet d t → Issues E (activeSlot E d) 2 1 d t :=
    fun quiet => issuesMore (Nat.zero_le 2) (Nat.zero_le 1) (issuesQuiet quiet)
  unfold bootSwapOk
  apply endsGet
  rw [activeStop]
  refine endsThen (trailerPageRead E d (activeSlot E d)) ?_ (fun _ stopped => few stopped.quiet)
  intro r t read
  have quiet := read.1
  split
  · exact endsPure (few quiet)
  · dsimp only
    split
    · exact endsPure (few quiet)
    · split
      · exact endsPure (few quiet)
      · change Ended _ t (fun _ u => Issues E (activeSlot E d) 2 1 d u)
        refine endedThen (rewriteTraffic E t _ _ _ (.inl rfl)) ?_ ?_
        · intro st u rewrote
          have once := issuesAfter quiet rewrote
          split
          · exact endsPure (issuesMore (Nat.le_succ 1) (Nat.le_refl 1) once)
          · split
            · refine endedMono (eraseInactiveHeaderEnds E u) ?_
              intro o v last
              rw [activeSlotQuiet once.1] at last
              exact issuesTrans once (eraseIssues (.inr (.inr rfl)) last)
            · exact endsPure (issuesMore (Nat.le_succ 1) (Nat.le_refl 1) once)
        · intro u rewrote
          exact issuesMore (Nat.le_succ 1) (Nat.le_refl 1) (issuesAfter quiet rewrote)

theorem updateTraffic (E : Env) (d : Device) (state : UInt32) :
    Ended (blUpdateImageState E state) d (fun _ t => Issues E (activeSlot E d) 2 1 d t) := by
  unfold blUpdateImageState
  split
  · exact endedMono (testTraffic E d) (fun _ _ => issuesMore (Nat.le_succ 1) (Nat.le_refl 1))
  · split
    · exact confirmTraffic E d
    · exact endsPure (issuesMore (Nat.zero_le 2) (Nat.zero_le 1) (issuesQuiet (quietRefl d)))

end Calls

section Runs

variable {E : Env} {d : Device} {t : Boot} {es : List Event}

theorem stepTraffic {s t : Boot} {e : Event} (step : Step E s e t) :
    Issues E (activeSlot E s.dev) (if isUpdate e then 2 else 0) (if isUpdate e then 1 else 0)
      s.dev t.dev := by
  cases step with
  | getImageState => exact issuesQuiet stateQuiet
  | getUpdatePartitionInfo => exact issuesQuiet partitionQuiet
  | verifyImage data size => exact issuesQuiet verifyQuiet
  | updateImageState state => exact endedLeaves (updateTraffic E s.dev state)
  | otaWrite granted inside => exact ⟨rfl,[],rfl,.nil,Nat.le_refl 0,Nat.le_refl 0⟩

theorem runTraffic {s : Boot} (run : Steps (Step E) s es t) :
    Issues E (activeSlot E s.dev) (2 * es.countP isUpdate) (es.countP isUpdate) s.dev t.dev := by
  induction run with
  | nil => exact ⟨rfl,[],rfl,.nil,Nat.le_refl 0,Nat.le_refl 0⟩
  | @snoc u t es e run last ih =>
    have next := stepTraffic last
    rw [activeSlotQuiet ih.1] at next
    have both := issuesTrans ih next
    rw [List.countP_append,List.countP_singleton]
    refine issuesMore (Nat.le_of_eq ?_) (Nat.le_refl _) both
    split <;> rfl

structure Disciplined (E : Env) (a : Slot) (log cs : List Call) (requests : Nat) : Prop where
  programs : ∀ later addr earlier, cs = later ++ .pageProgram addr :: earlier → ∃ s before,
    addr = s.stop - mflashPageSize ∧ earlier = eraseTrailer s :: before ∧
    E.outcome (before ++ log) (eraseTrailer s) = .done
  erases : ∀ addr, .sectorErase addr ∈ cs → OwnSector a addr
  wear : cs.countP isErase ≤ 2 * requests
  pages : cs.countP isProgram ≤ requests

theorem flashTraffic (run : Steps (Step E) ⟨d,[]⟩ es t) : ∃ cs, t.dev.calls = cs ++ d.calls ∧
    Disciplined E (activeSlot E d) d.calls cs (es.countP isUpdate) := by
  obtain ⟨_,cs,issued⟩ := runTraffic run
  exact ⟨cs,issued.calls,fun _ _ _ cut => trafficPrograms issued.traffic cut,
    fun _ mem => trafficErases issued.traffic mem,issued.erases,issued.programs⟩

end Runs

theorem flashTrafficOnBoard :
    let E := bench Build.shipped allDone
    let d := leaves (blUpdateImageState E SwapType.permanent.code) awaitingBoard
    ∃ cs, d.calls = cs ++ [] ∧ Disciplined E (activeSlot E awaitingBoard) [] cs 1 :=
  flashTraffic (.snoc (.nil _) (.updateImageState _ SwapType.permanent.code))

end AkNano.FlashTraffic
