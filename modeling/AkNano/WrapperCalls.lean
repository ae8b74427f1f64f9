import AkNano.FlashRead
import AkNano.Attempts

/-! The driver calls behind `mflash_drv_read_wrapper`. Which reads a call makes is fixed by
address, destination and length: it follows that plan up to the first read that fails and
reports what stopped it. All alignment facts are facts about the plan. -/
namespace AkNano.WrapperCalls
open Memory Interrupted Platform FlashRead Attempts

def isDone : Outcome → Bool
  | .done => true
  | .failed .. | .powerCut => false

def stopStatus : Option Outcome → Option Status
  | none | some .done => some kStatusSuccess
  | some (.failed st _) => some st.val
  | some .powerCut => none

def chunkCall (dstPtr offset cnt chunk : Nat) : Call :=
  .read offset (if dstPtr % 4 = 0 ∧ chunk % 4 = 0 then .buffer (dstPtr + cnt * tmpBufSize)
    else .tmpBuf) (alignUp4 chunk)

def loopPlan (dstPtr offset len cnt : Nat) : List Call :=
  if 0 < len then
    chunkCall dstPtr offset cnt (capped tmpBufSize len) ::
      loopPlan dstPtr (u32 (offset + capped tmpBufSize len)) (len - capped tmpBufSize len) (cnt + 1)
  else []
termination_by len
decreasing_by have := cappedCases tmpBufSize len; simp only [tmpBufSize] at *; omega

def wrapperPlan (addr dst len : Nat) : List Call :=
  if 0 < len ∧ addr % 4 ≠ 0 then
    .read (addr - addr % 4) .tmpBuf 4 ::
      loopPlan (dst + (4 - addr % 4)) (u32 (addr + (4 - addr % 4))) (len - (4 - addr % 4)) 0
  else loopPlan dst addr len 0

section Following

variable (E : Env)

structure Follows (plan : List Call) (d : Device) (o : Option Status) (t : Device) : Prop where
  calls : t.calls = (play E.outcome isDone d.calls plan).1.reverse ++ d.calls
  status : o = stopStatus (play E.outcome isDone d.calls plan).2

variable {E} {c : Call} {plan : List Call} {d t u : Device} {o : Option Status}

theorem followsNothing (d : Device) : Follows E [] d (some kStatusSuccess) d := ⟨rfl,rfl⟩

theorem followsAnswer (calls : t.calls = c :: d.calls)
    (status : o = stopStatus (some (E.outcome d.calls c))) : Follows E [c] d o t := by
  cases done : isDone (E.outcome d.calls c) with
  | false =>
    refine ⟨?_,?_⟩
    · rw [playStopped done,calls]
      rfl
    · rw [playStopped done,status]
  | true =>
    have answer : E.outcome d.calls c = .done := by
      cases h : E.outcome d.calls c with
      | done => rfl
      | failed st g => simp [h,isDone] at done
      | powerCut => simp [h,isDone] at done
    refine ⟨?_,?_⟩
    · rw [playNext done,calls]
      rfl
    · rw [playNext done,status,answer]
      rfl

theorem stoppedNotSuccess {answer : Outcome} (failed : isDone answer = false) :
    stopStatus (some answer) ≠ some kStatusSuccess := by
  cases answer with
  | done => simp [isDone] at failed
  | failed st g => exact fun same => st.property (Option.some.inj same)
  | powerCut => simp [stopStatus]

theorem followsThen (first : Follows E [c] d (some kStatusSuccess) t) (rest : Follows E plan t o u) :
    Follows E (c :: plan) d o u := by
  have calls := first.calls
  have status := first.status
  cases done : isDone (E.outcome d.calls c) with
  | false =>
    rw [playStopped done] at status
    exact absurd status.symm (stoppedNotSuccess done)
  | true =>
    rw [playNext done] at calls
    have log : t.calls = c :: d.calls := calls
    refine ⟨?_,?_⟩
    · rw [playNext done,← log,rest.calls,log,List.reverse_cons,List.append_assoc]
      rfl
    · rw [playNext done,← log,rest.status]

theorem followsStopped (first : Follows E [c] d o t) (failed : o ≠ some kStatusSuccess) :
    Follows E (c :: plan) d o t := by
  cases done : isDone (E.outcome d.calls c) with
  | false =>
    have calls := first.calls
    have status := first.status
    rw [playStopped done] at calls status
    exact ⟨by rw [playStopped done,calls],by rw [playStopped done,status]⟩
  | true =>
    have status := first.status
    rw [playNext done] at status
    exact absurd status failed

variable (E)

theorem drvReadFollows {addr len : Nat} (dst : Dest) (mem : Bytes) (d : Device)
    (word : addr % 4 = 0 ∧ dst.pointer % 4 = 0 ∧ len % 4 = 0) :
    Ended (mflashDrvRead E addr dst mem len) d
      (fun o t => Follows E [.read addr dst len] d (o.map Prod.fst) t) := by
  unfold Ended Ends mflashDrvRead
  simp only [if_pos word]
  cases h : E.outcome d.calls (.read addr dst len) with
  | done => exact followsAnswer rfl (by rw [h]; rfl)
  | failed st g => exact followsAnswer rfl (by rw [h]; rfl)
  | powerCut => exact followsAnswer rfl (by rw [h]; rfl)

theorem readTmpBufFollows {addr len : Nat} (d : Device) (word : addr % 4 = 0 ∧ len % 4 = 0) :
    Ended (readTmpBuf E addr len) d (Follows E [.read addr .tmpBuf len] d) := by
  unfold readTmpBuf
  apply endsGet
  have aligned : addr % 4 = 0 ∧ Dest.tmpBuf.pointer % 4 = 0 ∧ len % 4 = 0 := ⟨word.1,rfl,word.2⟩
  refine endedThen (drvReadFollows E .tmpBuf d.tmpBuf d aligned) ?_ (fun _ h => h)
  intro r t h
  exact endsModify (endsPure ⟨h.calls,h.status⟩)

theorem copyChunkFollows {dstPtr offset cnt chunk : Nat} (mem : Bytes) (d : Device)
    (word : offset % 4 = 0) : Ended (copyChunk E dstPtr offset cnt chunk mem) d
      (fun o t => Follows E [chunkCall dstPtr offset cnt chunk] d (o.map Prod.fst) t) := by
  have whole : alignUp4 chunk % 4 = 0 := by unfold alignUp4; omega
  unfold copyChunk chunkCall
  split
  case isTrue direct =>
    have pointer : (dstPtr + cnt * tmpBufSize) % 4 = 0 := by simp only [tmpBufSize]; omega
    exact drvReadFollows E (.buffer _) mem d ⟨word,pointer,whole⟩
  case isFalse bounced =>
    refine endedThen (readTmpBufFollows E d ⟨word,whole⟩) ?_ (fun _ h => h)
    intro st t h
    exact endsGet (endsPure h)

theorem wrapperLoopFollows (dstPtr len offset cnt : Nat) (mem : Bytes) (d : Device)
    (next : 0 < len → offset % 4 = 0 ∧ offset + len ≤ 4294967296) :
    Ended (wrapperLoop E dstPtr offset len cnt mem) d
      (fun o t => Follows E (loopPlan dstPtr offset len cnt) d (o.map Prod.fst) t) := by
  induction len using Nat.strongRecOn generalizing offset cnt mem d with
  | ind len ih =>
  rw [wrapperLoop,loopPlan]
  split
  case isFalse empty => exact endsPure (followsNothing d)
  case isTrue more =>
    obtain ⟨word,inside⟩ := next more
    have size := cappedCases tmpBufSize len
    have rest := nextChunk (Nat.le_refl _) word inside
    generalize capped tmpBufSize len = chunk at size rest ⊢
    simp only [show tmpBufSize = 64 from rfl] at size
    refine endedThen (copyChunkFollows E mem d word) ?_ (fun _ h => followsStopped h (by simp))
    intro r t h
    split
    case isTrue bad => exact endsPure (followsStopped h (fun same => bad (Option.some.inj same)))
    case isFalse done =>
      have ok : r.1 = kStatusSuccess := not_not.mp done
      have first : Follows E [chunkCall dstPtr offset cnt chunk] d (some kStatusSuccess) t := by
        rw [← ok]
        exact h
      exact endedMono (ih (len - chunk) (by omega) _ (cnt + 1) r.2 t rest)
        (fun _ _ later => followsThen first later)

theorem wrapperFollows {addr len : Nat} (dst : Nat) (mem : Bytes) (d : Device)
    (below : addr + len ≤ 4294967296) : Ended (mflashDrvReadWrapper E addr dst mem len) d
      (fun o t => Follows E (wrapperPlan addr dst len) d (o.map Prod.fst) t) := by
  unfold mflashDrvReadWrapper wrapperPlan
  split
  case isFalse start => exact wrapperLoopFollows E dst len addr 0 mem d (by omega)
  case isTrue start =>
    have left : (if len < 4 - addr % 4 then 0 else len - (4 - addr % 4)) =
        len - (4 - addr % 4) := by split <;> omega
    dsimp only
    rw [left]
    refine endedThen (readTmpBufFollows E d ⟨by omega,rfl⟩) ?_ (fun _ h => followsStopped h (by simp))
    intro st t h
    split
    case isTrue bad => exact endsPure (followsStopped h (fun same => bad (Option.some.inj same)))
    case isFalse done =>
      have ok : st = kStatusSuccess := not_not.mp done
      rw [ok] at h
      apply endsGet
      exact endedMono (wrapperLoopFollows E _ _ _ 0 _ t (afterHead (Nat.le_refl _) below))
        (fun _ _ later => followsThen h later)

end Following

/-! What the driver is asked to do: whole words, at most a bounce buffer of them, in a row. -/
section Shielding

structure WordRead (dst len lo hi a : Nat) (p : Dest) (n : Nat) : Prop where
  words : a % 4 = 0 ∧ p.pointer % 4 = 0 ∧ n % 4 = 0
  size : 4 ≤ n ∧ n ≤ tmpBufSize
  target : p = .tmpBuf ∨ ∃ q, p = .buffer q ∧ dst ≤ q ∧ q + n ≤ dst + len
  source : lo ≤ a ∧ a + n ≤ hi

def InRow : Nat → List Call → Prop
  | _, [] => True
  | a, c :: cs => ∃ p n, c = .read a p n ∧ InRow (a + n) cs

def Shielded (dst len lo hi : Nat) (c : Call) : Prop :=
  ∃ a p n, c = .read a p n ∧ WordRead dst len lo hi a p n

variable {dst len lo hi dst' len' lo' hi' : Nat} {c : Call}

theorem shieldedWiden (h : Shielded dst len lo hi c)
    (target : dst' ≤ dst ∧ dst + len ≤ dst' + len') (source : lo' ≤ lo ∧ hi ≤ hi') :
    Shielded dst' len' lo' hi' c := by
  obtain ⟨a,p,n,call,read⟩ := h
  have inside := read.source
  refine ⟨a,p,n,call,read.words,read.size,?_,by omega⟩
  rcases read.target with bounce | ⟨q,buffer,within⟩
  · exact .inl bounce
  · exact .inr ⟨q,buffer,by omega⟩

theorem inRowPrefix {as bs : List Call} {a : Nat} (first : as <+: bs) (row : InRow a bs) :
    InRow a as := by
  induction as generalizing a bs with
  | nil => trivial
  | cons c as ih =>
    cases bs with
    | nil => exact absurd (List.prefix_nil.mp first) (by simp)
    | cons b bs =>
      obtain ⟨same,rest⟩ := List.cons_prefix_cons.mp first
      obtain ⟨p,n,call,later⟩ := row
      exact ⟨p,n,same.trans call,ih rest later⟩

theorem chunkShielded {dstPtr offset cnt chunk len : Nat} (word : offset % 4 = 0)
    (size : 0 < chunk ∧ chunk ≤ 64 ∧ chunk ≤ len) :
    Shielded (dstPtr + cnt * tmpBufSize) len offset (alignUp4 (offset + len))
      (chunkCall dstPtr offset cnt chunk) := by
  have whole : alignUp4 chunk % 4 = 0 := by unfold alignUp4; omega
  have bounds : 4 ≤ alignUp4 chunk ∧ alignUp4 chunk ≤ tmpBufSize := by
    simp only [alignUp4,tmpBufSize]
    omega
  have hull : offset ≤ offset ∧ offset + alignUp4 chunk ≤ alignUp4 (offset + len) := by
    unfold alignUp4
    omega
  unfold chunkCall
  refine ⟨_,_,_,rfl,?_⟩
  split
  case isTrue direct =>
    have exactSize : alignUp4 chunk = chunk := by unfold alignUp4; omega
    have pointer : (dstPtr + cnt * tmpBufSize) % 4 = 0 := by simp only [tmpBufSize]; omega
    exact ⟨⟨word,pointer,whole⟩,bounds,.inr ⟨_,rfl,by omega⟩,hull⟩
  case isFalse bounced => exact ⟨⟨word,rfl,whole⟩,bounds,.inl rfl,hull⟩

theorem loopPlanShielded (dstPtr len offset cnt : Nat)
    (next : 0 < len → offset % 4 = 0 ∧ offset + len ≤ 4294967296) :
    InRow offset (loopPlan dstPtr offset len cnt) ∧
    ∀ c ∈ loopPlan dstPtr offset len cnt,
      Shielded (dstPtr + cnt * tmpBufSize) len offset (alignUp4 (offset + len)) c := by
  induction len using Nat.strongRecOn generalizing offset cnt with
  | ind len ih =>
  rw [loopPlan]
  split
  case isFalse empty => exact ⟨trivial,by simp⟩
  case isTrue more =>
    obtain ⟨word,inside⟩ := next more
    have size := cappedCases tmpBufSize len
    generalize capped tmpBufSize len = chunk at size ⊢
    simp only [show tmpBufSize = 64 from rfl] at size
    have first : Shielded (dstPtr + cnt * tmpBufSize) len offset (alignUp4 (offset + len))
        (chunkCall dstPtr offset cnt chunk) := chunkShielded word (by omega)
    rcases size with ⟨full,more⟩ | ⟨last,_⟩
    · have address : u32 (offset + chunk) = offset + chunk := u32Small (by omega)
      obtain ⟨row,shielded⟩ := ih (len - chunk) (by omega) (u32 (offset + chunk)) (cnt + 1)
        (fun left => by omega)
      have size64 : alignUp4 chunk = chunk := by unfold alignUp4; omega
      rw [address] at row shielded ⊢
      refine ⟨⟨_,_,rfl,by rw [size64]; exact row⟩,List.forall_mem_cons.mpr ⟨first,?_⟩⟩
      intro c mem
      have target : dstPtr + cnt * tmpBufSize + 64 = dstPtr + (cnt + 1) * tmpBufSize := by
        simp only [tmpBufSize]
        omega
      have rest : offset + chunk + (len - chunk) = offset + len := by omega
      have later := shielded c mem
      rw [rest] at later
      exact shieldedWiden later (by omega) (by omega)
    · have none : len - chunk = 0 := by omega
      rw [none,loopPlan,if_neg (by decide)]
      exact ⟨⟨_,_,rfl,trivial⟩,List.forall_mem_singleton.mpr first⟩

theorem wrapperPlanShielded {addr len : Nat} (dst : Nat) (below : addr + len ≤ 4294967296) :
    InRow (addr / 4 * 4) (wrapperPlan addr dst len) ∧ ∀ c ∈ wrapperPlan addr dst len,
      Shielded dst len (addr / 4 * 4) (alignUp4 (addr + len)) c := by
  unfold wrapperPlan
  split
  case isFalse start =>
    by_cases empty : len = 0
    · subst empty
      rw [loopPlan,if_neg (by decide)]
      exact ⟨trivial,by simp⟩
    · obtain ⟨row,shielded⟩ := loopPlanShielded dst len addr 0 (by omega)
      have word : addr / 4 * 4 = addr := by omega
      rw [word]
      rw [Nat.zero_mul,Nat.add_zero] at shielded
      exact ⟨row,shielded⟩
  case isTrue start =>
    have word : addr - addr % 4 = addr / 4 * 4 := by omega
    have next : addr / 4 * 4 + 4 = addr + (4 - addr % 4) := by omega
    have head : Shielded dst len (addr / 4 * 4) (alignUp4 (addr + len))
        (.read (addr / 4 * 4) .tmpBuf 4) := by
      refine ⟨_,_,_,rfl,⟨by omega,rfl,rfl⟩,by decide,.inl rfl,Nat.le_refl _,?_⟩
      unfold alignUp4
      omega
    rw [word]
    by_cases inWord : len ≤ 4 - addr % 4
    · have none : len - (4 - addr % 4) = 0 := by omega
      rw [none,loopPlan,if_neg (by decide)]
      exact ⟨⟨_,_,rfl,trivial⟩,List.forall_mem_singleton.mpr head⟩
    · have address : u32 (addr + (4 - addr % 4)) = addr + (4 - addr % 4) := u32Small (by omega)
      rw [address]
      obtain ⟨row,shielded⟩ := loopPlanShielded (dst + (4 - addr % 4)) (len - (4 - addr % 4))
        (addr + (4 - addr % 4)) 0 (fun left => by omega)
      refine ⟨⟨_,_,rfl,by rw [next]; exact row⟩,List.forall_mem_cons.mpr ⟨head,?_⟩⟩
      intro c mem
      have rest : addr + (4 - addr % 4) + (len - (4 - addr % 4)) = addr + len := by omega
      have later := shielded c mem
      rw [rest,Nat.zero_mul] at later
      exact shieldedWiden later (by omega) (by omega)

end Shielding

section Wrapper

variable (E : Env) {addr dst len : Nat} (below : addr + len ≤ 4294967296) (mem : Bytes) (d : Device)

include below

theorem wrapperEnding : (ending (mflashDrvReadWrapper E addr dst mem len) d).map Prod.fst =
    stopStatus (play E.outcome isDone d.calls (wrapperPlan addr dst len)).2 :=
  (endedLeaves (wrapperFollows E dst mem d below)).status

theorem wrapperIssues : (leaves (mflashDrvReadWrapper E addr dst mem len) d).calls =
    (play E.outcome isDone d.calls (wrapperPlan addr dst len)).1.reverse ++ d.calls :=
  (endedLeaves (wrapperFollows E dst mem d below)).calls

theorem wrapperReturns {st : Status}
    (status : stopStatus (play E.outcome isDone d.calls (wrapperPlan addr dst len)).2 = some st) :
    ∃ m t, mflashDrvReadWrapper E addr dst mem len d = .ok (st,m) t ∧
      ((st = kStatusSuccess ∧ m = overlay mem dst len (fun i => d.flash (addr + i))) ∨
        (st ≠ kStatusSuccess ∧ AgreeOff dst len mem m)) := by
  have returned : (ending (mflashDrvReadWrapper E addr dst mem len) d).map Prod.fst = some st :=
    (wrapperEnding E below mem d).trans status
  obtain ⟨r,ended,first⟩ := Option.map_eq_some_iff.mp returned
  have run := endingReturned ended
  have reads := endsReturned (wrapperEnds E (by decide) (Nat.le_refl _) mem d below) run
  obtain ⟨st',m⟩ := r
  cases first
  refine ⟨m,_,run,?_⟩
  rcases reads.result with done | ⟨failed,_,off⟩
  · exact .inl done
  · exact .inr ⟨failed,off⟩

theorem wrapperSucceeds
    (finished : (play E.outcome isDone d.calls (wrapperPlan addr dst len)).2 = none) :
    ∃ t, mflashDrvReadWrapper E addr dst mem len d =
      .ok (kStatusSuccess,overlay mem dst len (fun i => d.flash (addr + i))) t := by
  obtain ⟨m,t,run,⟨_,content⟩ | ⟨bad,_⟩⟩ := wrapperReturns E below mem d (by rw [finished]; rfl)
  · rw [content] at run
    exact ⟨t,run⟩
  · exact absurd rfl bad

end Wrapper

theorem doneIff {o : Outcome} : isDone o = true ↔ o = .done := by
  cases o <;> simp [isDone]

theorem wrapperCopiesExactly (E : Env) {addr dst len : Nat} (below : addr + len ≤ 4294967296)
    (mem : Bytes) (d : Device) : ∃ cs,
    (leaves (mflashDrvReadWrapper E addr dst mem len) d).calls = cs.reverse ++ d.calls ∧
    ((∀ a ∈ answers E.outcome d.calls cs, a.2 = .done) → ∀ tmp, ∃ t,
      mflashDrvReadWrapper E addr dst mem len {d with tmpBuf := tmp} =
        .ok (kStatusSuccess,overlay mem dst len (fun i => d.flash (addr + i))) t) ∧
    ∀ a ∈ answers E.outcome d.calls cs, ∀ st g, a.2 = .failed st g → ∃ m t,
      mflashDrvReadWrapper E addr dst mem len d = .ok (st.val,m) t ∧ AgreeOff dst len mem m := by
  refine ⟨_,wrapperIssues E below mem d,?_,?_⟩
  · intro allDone tmp
    have finished := playFinished.mpr (fun a mem => doneIff.mpr (allDone a mem))
    exact wrapperSucceeds E below mem {d with tmpBuf := tmp} finished
  · intro a issued st g failed
    have stop := playFailed issued (by rw [failed]; rfl)
    rw [failed] at stop
    obtain ⟨m,t,run,⟨ok,_⟩ | ⟨_,off⟩⟩ := wrapperReturns E below mem d (by rw [stop]; rfl)
    · exact absurd ok st.property
    · exact ⟨m,t,run,off⟩

def writtenWords : Device := holding 262144 [0x10,0x11,0x12,0x13,0x14,0x15,0x16,0x17]

theorem wrapperCopiesOnBoard : ∃ m t,
    mflashDrvReadWrapper shippedBench 262145 3 (fun _ => 0) 7 writtenWords = .ok (kStatusSuccess,m) t ∧
    cells m 2 9 = [0,0x11,0x12,0x13,0x14,0x15,0x16,0x17,0] := by
  obtain ⟨cs,_,succeeds,_⟩ := @wrapperCopiesExactly shippedBench 262145 3 7 (by decide)
    (fun _ => 0) writtenWords
  have done : ∀ a ∈ answers shippedBench.outcome writtenWords.calls cs, a.2 = .done :=
    answersAll (fun o => o = Outcome.done) (fun _ _ => rfl) cs
  obtain ⟨t,run⟩ := succeeds done writtenWords.tmpBuf
  exact ⟨_,t,run,by decide⟩

theorem wrapperShieldsDriver (E : Env) {addr dst len : Nat} (below : addr + len ≤ 4294967296)
    (mem : Bytes) (d : Device) : ∃ cs,
    (leaves (mflashDrvReadWrapper E addr dst mem len) d).calls = cs.reverse ++ d.calls ∧
    InRow (addr / 4 * 4) cs ∧
    (∀ c ∈ cs, Shielded dst len (addr / 4 * 4) (alignUp4 (addr + len)) c) ∧ (len = 0 → cs = []) := by
  have issued := @playPrefix _ _ E.outcome isDone d.calls (wrapperPlan addr dst len)
  obtain ⟨row,shielded⟩ := wrapperPlanShielded dst below
  refine ⟨_,wrapperIssues E below mem d,inRowPrefix issued row,?_,?_⟩
  · intro c mem
    exact shielded c (issued.subset mem)
  · intro empty
    have none : wrapperPlan addr dst len = [] := by
      rw [empty,wrapperPlan,if_neg (by simp),loopPlan,if_neg (by decide)]
    rw [none] at issued ⊢
    exact List.prefix_nil.mp issued

theorem wrapperShieldsOnBench : ∃ cs,
    (leaves (mflashDrvReadWrapper (shippedBench) 262145 3 (fun _ => 0) 7)
      (holding 0 [])).calls = cs.reverse ++ [] ∧ InRow 262144 cs ∧
    (∀ c ∈ cs, Shielded 3 7 262144 262152 c) ∧ (7 = 0 → cs = []) :=
  wrapperShieldsDriver (shippedBench) (show 262145 + 7 ≤ 4294967296 by decide)
    (fun _ => 0) (holding 0 [])

end AkNano.WrapperCalls
