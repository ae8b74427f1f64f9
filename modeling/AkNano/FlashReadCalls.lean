import AkNano.WrapperCalls

/-! `flash_read` against the driver calls it makes. A run is read off its calls and their
answers: which of them failed, which pages were found unreadable, and that no data call
leaves the page that was checked last. -/
namespace AkNano.FlashReadCalls
open Memory Interrupted Platform FlashRead Attempts WrapperCalls

abbrev Answer := Call × Outcome

def fetches : Call → Bool
  | .read .. | .phys2log .. => true
  | .isReadable _ | .sectorErase _ | .pageProgram _ => false

def callStart : Call → Nat
  | .read addr .. | .isReadable addr | .phys2log addr _ | .sectorErase addr | .pageProgram addr => addr

def InPage (p : Nat) (c : Call) : Prop :=
  p * mflashPageSize ≤ callStart c ∧ c.limit ≤ (p + 1) * mflashPageSize

def Unreadable (as : List Answer) (p : Nat) : Prop :=
  ∃ x o, (Call.isReadable x,o) ∈ as ∧ x / mflashPageSize = p ∧ o ≠ .done

def JustChecked (as : List Answer) (p : Nat) : Prop :=
  ∃ xs x ys, as = xs ++ (Call.isReadable x,.done) :: ys ∧ x / mflashPageSize = p ∧
    ∀ y ∈ ys, fetches y.1 = true

def KeepsToChecked (checks : Bool) (as : List Answer) : Prop :=
  ∀ before c o after, as = before ++ (c,o) :: after → fetches c = true →
    ∃ p, InPage p c ∧ (checks = true → JustChecked before p)

def Answered (E : Env) (d t : Device) (P : List Answer → Prop) : Prop :=
  ∃ cs, t.calls = cs.reverse ++ d.calls ∧ P (answers E.outcome d.calls cs)

structure PieceAnswers (addr : Nat) (st : Status) (as : List Answer) : Prop where
  status : st = kStatusSuccess ∨ st = flashReadFailed
  success : st = kStatusSuccess ↔ ∀ a ∈ as, a.2 = .done
  inside : ∀ a ∈ as, fetches a.1 = true ∧ InPage (addr / mflashPageSize) a.1

inductive PageAnswers (checks : Bool) (addr : Nat) : Bool → Status → List Answer → Prop where
  | unreadable {o} (on : checks = true) (no : o ≠ .done) :
      PageAnswers checks addr true kStatusSuccess [(.isReadable addr,o)]
  | readable {st as} (on : checks = true) (piece : PieceAnswers addr st as) :
      PageAnswers checks addr false st ((.isReadable addr,.done) :: as)
  | unchecked {st as} (off : checks = false) (piece : PieceAnswers addr st as) :
      PageAnswers checks addr false st as

section Pages

variable (E : Env)

theorem followsSuccess {plan : List Call} {d t : Device} {st : Status}
    (h : Follows E plan d (some st) t) : st = kStatusSuccess ↔
      ∀ a ∈ answers E.outcome d.calls (play E.outcome isDone d.calls plan).1, a.2 = .done := by
  have status := h.status
  have all : (play E.outcome isDone d.calls plan).2 = none ↔
      ∀ a ∈ answers E.outcome d.calls (play E.outcome isDone d.calls plan).1, a.2 = .done := by
    simp only [playFinished,doneIff]
  rw [← all]
  cases stop : (play E.outcome isDone d.calls plan).2 with
  | none =>
    rw [stop] at status
    exact iff_of_true (Option.some.inj status) rfl
  | some o =>
    rw [stop] at status
    refine iff_of_false ?_ (by simp)
    intro ok
    rw [ok] at status
    exact stoppedNotSuccess (playGaveUp stop) status.symm

theorem wordReadInPage {addr n dst len : Nat} {c : Call} (page : addr % mflashPageSize + n ≤ mflashPageSize)
    (h : Shielded dst len (addr / 4 * 4) (alignUp4 (addr + n)) c) :
    fetches c = true ∧ InPage (addr / mflashPageSize) c := by
  obtain ⟨a,p,k,rfl,read⟩ := h
  have source := read.source
  refine ⟨rfl,?_⟩
  unfold InPage alignUp4 at *
  simp only [mflashPageSize,callStart,Call.limit] at *
  omega

theorem phys2logAnswer {addr n : Nat} (d : Device) : Ends (mflashDrvPhys2log E addr n) d
    (fun p t => t.calls = .phys2log addr n :: d.calls ∧
      (p = some addr ∧ E.outcome d.calls (.phys2log addr n) = .done ∨
        p = none ∧ E.outcome d.calls (.phys2log addr n) ≠ .done)) (fun _ => True) := by
  unfold Ends mflashDrvPhys2log
  cases h : E.outcome d.calls (.phys2log addr n) with
  | done => simp only [h]; exact ⟨rfl,.inl ⟨trivial,trivial⟩⟩
  | failed st g => simp only [h]; exact ⟨rfl,.inr ⟨trivial,by simp⟩⟩
  | powerCut => simp only [h]

theorem isReadableAnswer {addr : Nat} (d : Device) : Ends (mflashDrvIsReadable E addr) d
    (fun st t => t.calls = .isReadable addr :: d.calls ∧
      (st = kStatusSuccess ↔ E.outcome d.calls (.isReadable addr) = .done)) (fun _ => True) := by
  unfold Ends mflashDrvIsReadable
  cases h : E.outcome d.calls (.isReadable addr) with
  | done => simp only [h]; exact ⟨rfl,trivial⟩
  | failed st g => simp only [h]; exact ⟨rfl,iff_of_false st.property (by simp)⟩
  | powerCut => simp only [h]

theorem readPieceAnswers {addr buffer n : Nat} (mem : Bytes) (d : Device)
    (page : addr % mflashPageSize + n ≤ mflashPageSize) (below : addr + n ≤ 4294967296) :
    Ends (readPiece E addr buffer mem n) d (fun r t => Answered E d t (PieceAnswers addr r.1))
      (fun _ => True) := by
  have error : flashReadFailed ≠ kStatusSuccess := by decide
  unfold readPiece
  split
  case isTrue remapped =>
    have inside : ∀ a ∈ answers E.outcome d.calls
        (play E.outcome isDone d.calls (wrapperPlan addr buffer n)).1,
        fetches a.1 = true ∧ InPage (addr / mflashPageSize) a.1 := by
      intro a mem
      have planned := (playPrefix d.calls (wrapperPlan addr buffer n)).subset (answeredCall mem)
      exact wordReadInPage page ((wrapperPlanShielded buffer below).2 a.1 planned)
    refine endsThen (wrapperFollows E buffer mem d below) ?_ (fun _ _ => trivial)
    intro r t h
    have success := followsSuccess E h
    split
    case isTrue bad =>
      apply endsPure
      exact ⟨_,h.calls,.inr rfl,iff_of_false error (fun all => bad (success.mpr all)),inside⟩
    case isFalse done =>
      apply endsPure
      exact ⟨_,h.calls,.inl rfl,iff_of_true rfl (success.mp (not_not.mp done)),inside⟩
  case isFalse direct =>
    have inside : InPage (addr / mflashPageSize) (.phys2log addr n) := by
      unfold InPage
      simp only [mflashPageSize,callStart,Call.limit] at *
      omega
    refine endsThen (phys2logAnswer E d) ?_ (fun _ h => h)
    rintro p t ⟨calls,⟨rfl,done⟩ | ⟨rfl,failed⟩⟩
    · refine endsGet (endsPure ⟨[.phys2log addr n],calls,.inl rfl,?_,?_⟩)
      · simp [answers,done]
      · exact List.forall_mem_singleton.mpr ⟨rfl,inside⟩
    · refine endsPure ⟨[.phys2log addr n],calls,.inr rfl,?_,?_⟩
      · simp [answers,failed,error]
      · exact List.forall_mem_singleton.mpr ⟨rfl,inside⟩

def PageRun (addr _ : Nat) (bad : Bool) (st : Status) (d t : Device) : Prop :=
  Answered E d t (PageAnswers E.build.pageIntegrityChecks addr bad st)

theorem readPageRun {addr buffer n : Nat} (mem : Bytes) (d : Device)
    (some : 0 < n) (page : addr % mflashPageSize + n ≤ mflashPageSize)
    (below : addr + n ≤ 4294967296) : Ends (readPage E addr buffer mem n) d
      (fun r t => ∃ bad : Bool, PageRun E addr n bad r.1 d t ∧
        Reads E 4294967296 d mem buffer n (fun i => if bad then 0xff else d.flash (addr + i)) r t)
      (fun _ => True) := by
  have piece : ∀ t, Ends (readPiece E addr buffer mem n) t
      (fun r u => Reads E 4294967296 t mem buffer n (fun i => t.flash (addr + i)) r u ∧
        Answered E t u (PieceAnswers addr r.1)) (fun _ => True) := by
    intro t
    refine endsMono (endsBoth (readPieceEnds E (by decide) (Nat.le_refl _) mem t below)
      (readPieceAnswers E mem t page below)) (fun _ _ h => h) (fun _ _ => trivial)
  unfold readPage
  split
  case isFalse off =>
    refine endsMono (piece d) ?_ (fun _ h => h)
    rintro r t ⟨reads,cs,calls,answered⟩
    exact ⟨false,⟨cs,calls,.unchecked (by simpa using off) answered⟩,by simpa using reads⟩
  case isTrue on =>
    have first : addr + 1 ≤ 4294967296 := by omega
    refine endsThen (endsBoth (isReadableEnds E d first) (isReadableAnswer E d)) ?_
      (fun _ _ => trivial)
    rintro st t ⟨⟨quiet,_⟩,calls,readable⟩
    split
    case isTrue unreadable =>
      refine endsPure ⟨true,⟨[.isReadable addr],calls,?_⟩,quiet,.inl ⟨rfl,rfl⟩⟩
      exact .unreadable on (fun done => unreadable (readable.mpr done))
    case isFalse ok =>
      have done := readable.mp (not_not.mp ok)
      refine endsMono (piece t) ?_ (fun _ h => h)
      rintro r u ⟨reads,cs,later,answered⟩
      have result := reads.result
      rw [quiet.flash] at result
      refine ⟨false,⟨.isReadable addr :: cs,?_,?_⟩,quietTrans quiet reads.quiet,by simpa using result⟩
      · rw [later,calls,List.reverse_cons,List.append_assoc]
        rfl
      · rw [answers,done,← calls]
        exact .readable on answered

end Pages

/-! A run's answers, from those of its pages. -/
section Runs

structure RunAnswers (checks : Bool) (addr : Nat) (bad : Nat → Bool) (st : Status)
    (as : List Answer) : Prop where
  status : st = kStatusSuccess ∨ st = flashReadFailed
  success : st = kStatusSuccess ↔ ∀ a ∈ as, fetches a.1 = true → a.2 = .done
  unread : st = kStatusSuccess → ∀ k, bad k = true ↔ Unreadable as (addr / mflashPageSize + k)
  checked : KeepsToChecked checks as
  plain : checks = false → ∀ a ∈ as, fetches a.1 = true
  above : ∀ a ∈ as, addr / mflashPageSize ≤ callStart a.1 / mflashPageSize

def onePage (bad : Bool) : Nat → Bool := notedPage bad (fun _ => false)

variable {checks : Bool} {addr : Nat} {st : Status} {as bs : List Answer}

theorem onePageFlag (bad : Bool) (k : Nat) : onePage bad k = true ↔ bad = true ∧ k = 0 := by
  unfold onePage notedPage
  split
  case isTrue first => simp [first]
  case isFalse later => simp [later]

theorem fetchesReadable {p : Nat} (fetch : ∀ a ∈ as, fetches a.1 = true) : ¬ Unreadable as p := by
  rintro ⟨x,o,mem,_⟩
  exact absurd (fetch _ mem) (by simp [fetches])

theorem pieceKeeps (piece : PieceAnswers addr st as) :
    KeepsToChecked checks ((.isReadable addr,.done) :: as) := by
  intro before c o after split fetch
  cases before with
  | nil =>
    have call := (List.cons.inj split).1
    rw [Prod.mk.injEq] at call
    rw [← call.1] at fetch
    exact absurd fetch (by simp [fetches])
  | cons first before =>
    obtain ⟨rfl,rest⟩ := List.cons.inj split
    have mem : (c,o) ∈ as := by rw [rest]; simp
    refine ⟨_,(piece.inside _ mem).2,fun _ => ⟨[],addr,before,rfl,rfl,?_⟩⟩
    intro y seen
    exact (piece.inside y (by rw [rest]; exact List.mem_append_left _ seen)).1

theorem uncheckedKeeps (piece : PieceAnswers addr st as) : KeepsToChecked false as := by
  intro before c o after split _
  have mem : (c,o) ∈ as := by rw [split]; simp
  exact ⟨_,(piece.inside _ mem).2,fun on => absurd on (by decide)⟩

theorem keepsAppend (first : KeepsToChecked checks as) (second : KeepsToChecked checks bs) :
    KeepsToChecked checks (as ++ bs) := by
  intro before c o after split fetch
  have later : ∀ mid, before = as ++ mid → bs = mid ++ (c,o) :: after →
      ∃ p, InPage p c ∧ (checks = true → JustChecked before p) := by
    rintro mid rfl place
    obtain ⟨p,inside,check⟩ := second mid c o after place fetch
    refine ⟨p,inside,?_⟩
    intro on
    obtain ⟨xs,x,ys,same,page,fetched⟩ := check on
    exact ⟨as ++ xs,x,ys,by rw [same,List.append_assoc],page,fetched⟩
  rcases List.append_eq_append_iff.mp split with ⟨mid,place,rest⟩ | ⟨mid,place,rest⟩
  · exact later mid place rest
  · cases mid with
    | nil => exact later [] (by rw [place,List.append_nil,List.append_nil]) rest.symm
    | cons x mid =>
      obtain ⟨rfl,_⟩ := List.cons.inj rest
      exact first before c o mid place fetch

theorem pageAbove {p : Nat} {c : Call} (inside : InPage p c) : p ≤ callStart c / mflashPageSize := by
  have lower := inside.1
  simp only [mflashPageSize] at *
  omega

theorem oneReadable (fetch : ∀ a ∈ as, fetches a.1 = true) (k : Nat) :
    onePage false k = true ↔ Unreadable as (addr / mflashPageSize + k) :=
  iff_of_false (by simp [onePageFlag]) (fetchesReadable fetch)

theorem runUnchecked (piece : PieceAnswers addr st as) :
    RunAnswers false addr (onePage false) st as := by
  have fetch : ∀ a ∈ as, fetches a.1 = true := fun a mem => (piece.inside a mem).1
  refine ⟨piece.status,?_,fun _ => oneReadable fetch,uncheckedKeeps piece,fun _ => fetch,?_⟩
  · rw [piece.success]
    exact ⟨fun all a mem _ => all a mem,fun all a mem => all a mem (fetch a mem)⟩
  · exact fun a mem => pageAbove (piece.inside a mem).2

theorem runReadable (piece : PieceAnswers addr st as) :
    RunAnswers true addr (onePage false) st ((.isReadable addr,.done) :: as) := by
  have rest := runUnchecked piece
  refine ⟨piece.status,?_,?_,pieceKeeps piece,fun off => absurd off (by decide),
    List.forall_mem_cons.mpr ⟨Nat.le_refl _,rest.above⟩⟩
  · rw [rest.success]
    simp [fetches]
  · intro ok k
    rw [rest.unread ok]
    constructor
    · rintro ⟨x,o,mem,unread⟩
      exact ⟨x,o,List.mem_cons_of_mem _ mem,unread⟩
    · rintro ⟨x,o,mem,page,failed⟩
      rcases List.mem_cons.mp mem with first | later
      · exact absurd (Prod.mk.inj first).2 failed
      · exact ⟨x,o,later,page,failed⟩

theorem runUnreadable {o : Outcome} (no : o ≠ .done) :
    RunAnswers true addr (onePage true) kStatusSuccess [(.isReadable addr,o)] := by
  refine ⟨.inl rfl,?_,?_,?_,fun off => absurd off (by decide),
    List.forall_mem_singleton.mpr (Nat.le_refl _)⟩
  · exact iff_of_true rfl (List.forall_mem_singleton.mpr (by simp [fetches]))
  · intro _ k
    rw [onePageFlag]
    constructor
    · rintro ⟨_,rfl⟩
      exact ⟨addr,o,List.mem_singleton.mpr rfl,rfl,no⟩
    · rintro ⟨x,o',mem,page,_⟩
      have call := (Prod.mk.inj (List.mem_singleton.mp mem)).1
      rw [Call.isReadable.inj call] at page
      exact ⟨rfl,by omega⟩
  · intro before c o' after split fetch
    have mem : (c,o') ∈ [(Call.isReadable addr,o)] := by rw [split]; simp
    rw [(Prod.mk.inj (List.mem_singleton.mp mem)).1] at fetch
    exact absurd fetch (by simp [fetches])

theorem runPage {bad : Bool} (page : PageAnswers checks addr bad st as) :
    RunAnswers checks addr (onePage bad) st as := by
  cases page with
  | unchecked off piece =>
    rw [off]
    exact runUnchecked piece
  | readable on piece =>
    rw [on]
    exact runReadable piece
  | unreadable on no =>
    rw [on]
    exact runUnreadable no

theorem unreadableAppend {p : Nat} :
    Unreadable (as ++ bs) p ↔ Unreadable as p ∨ Unreadable bs p := by
  constructor
  · rintro ⟨x,o,mem,unread⟩
    rcases List.mem_append.mp mem with first | second
    · exact .inl ⟨x,o,first,unread⟩
    · exact .inr ⟨x,o,second,unread⟩
  · rintro (⟨x,o,mem,unread⟩ | ⟨x,o,mem,unread⟩)
    · exact ⟨x,o,List.mem_append_left _ mem,unread⟩
    · exact ⟨x,o,List.mem_append_right _ mem,unread⟩

theorem runAppend {next : Nat} {bad : Bool} {later : Nat → Bool}
    (first : RunAnswers checks addr (onePage bad) kStatusSuccess as)
    (second : RunAnswers checks next later st bs)
    (adjacent : next / mflashPageSize = addr / mflashPageSize + 1) :
    RunAnswers checks addr (notedPage bad later) st (as ++ bs) := by
  have above := second.above
  rw [adjacent] at above
  refine ⟨second.status,?_,?_,keepsAppend first.checked second.checked,?_,?_⟩
  · rw [second.success,List.forall_mem_append]
    exact (and_iff_right (first.success.mp rfl)).symm
  · intro ok k
    rw [unreadableAppend,← first.unread rfl k,onePageFlag]
    cases k with
    | zero =>
      have apart : ¬ Unreadable bs (addr / mflashPageSize) := by
        rintro ⟨x,o,mem,page,_⟩
        have beyond := above _ mem
        simp only [callStart] at beyond
        omega
      simp [notedPage,apart]
    | succ j =>
      have place : addr / mflashPageSize + (j + 1) = next / mflashPageSize + j := by omega
      rw [place,← second.unread ok j]
      simp [notedPage]
  · intro off
    exact List.forall_mem_append.mpr ⟨first.plain off,second.plain off⟩
  · refine List.forall_mem_append.mpr ⟨first.above,?_⟩
    exact fun a mem => Nat.le_trans (Nat.le_succ _) (above a mem)

theorem piecesNothing {Page : Nat → Nat → Bool → Status → Device → Device → Prop}
    {bad : Nat → Bool} {d t : Device} (run : Pieces Page addr 0 bad st d t) :
    bad = (fun _ => false) ∧ st = kStatusSuccess ∧ t = d := by
  cases run with
  | nil => exact ⟨rfl,rfl,rfl⟩
  | failed piece within error => omega
  | next piece within start rest => omega

theorem runOfPieces {E : Env} {len : Nat} {bad : Nat → Bool} {d t : Device}
    (run : Pieces (PageRun E) addr len bad st d t) (inside : addr + len ≤ 4294967296) :
    Answered E d t (RunAnswers E.build.pageIntegrityChecks addr bad st) := by
  induction run with
  | nil addr d =>
    refine ⟨[],rfl,.inl rfl,by simp [answers],?_,?_,by simp [answers],by simp [answers]⟩
    · intro _ k
      exact iff_of_false (by decide) (by simp [Unreadable,answers])
    · intro before c o after split
      simp [answers] at split
  | failed piece within error =>
    obtain ⟨cs,calls,page⟩ := piece
    have whole := runPage page
    exact ⟨cs,calls,whole.status,whole.success,fun ok => absurd ok error,whole.checked,whole.plain,
      whole.above⟩
  | @next addr len n bad later st d t u piece within start rest ih =>
    obtain ⟨cs,calls,page⟩ := piece
    have first := runPage page
    by_cases more : n < len
    · have whole := start more
      have address : u32 (addr + n) = addr + n := u32Small (by omega)
      rw [address] at ih
      obtain ⟨cs',calls',second⟩ := ih (by omega)
      refine ⟨cs ++ cs',?_,?_⟩
      · rw [calls',calls,List.reverse_append,List.append_assoc]
      · rw [answersAppend,← calls]
        refine runAppend first second ?_
        simp only [mflashPageSize] at *
        omega
    · have none : len - n = 0 := by omega
      rw [none] at rest
      obtain ⟨rfl,rfl,rfl⟩ := piecesNothing rest
      exact ⟨cs,calls,first⟩

end Runs

structure ReadFacts (E : Env) (addr buffer : Nat) (mem : Bytes) (len : Nat) (flash : Bytes)
    (r : Status × Bytes) (as : List Answer) : Prop where
  status : r.1 = kStatusSuccess ∨ r.1 = flashReadFailed
  success : r.1 = kStatusSuccess ↔ ∀ a ∈ as, fetches a.1 = true → a.2 = .done
  content : r.1 = kStatusSuccess → ∀ i, i < len →
    (Unreadable as ((addr + i) / mflashPageSize) → r.2 (buffer + i) = 0xff) ∧
    (¬ Unreadable as ((addr + i) / mflashPageSize) → r.2 (buffer + i) = flash (addr + i))
  confined : AgreeOff buffer len mem r.2
  checked : KeepsToChecked E.build.pageIntegrityChecks as
  plain : E.build.pageIntegrityChecks = false → ∀ p, ¬ Unreadable as p

/-- A run that returned `r` after the driver calls and answers `as`. -/
def ReadsAs (E : Env) (addr buffer : Nat) (mem : Bytes) (len : Nat) (d : Device)
    (r : Status × Bytes) (as : List Answer) : Prop :=
  ∃ t cs, flashRead E addr buffer mem len d = .ok r t ∧ t.calls = cs.reverse ++ d.calls ∧
    as = answers E.outcome d.calls cs

section FlashRead

variable {addr len : Nat} (address : addr < 4294967296)

include address

theorem flashReadPieces (E : Env) (buffer : Nat) (mem : Bytes) (d : Device) :
    Ends (flashRead E addr buffer mem len) d
      (fun r t => ∃ bad, Pieces (PageRun E) addr len bad r.1 d t ∧
        Reads E 4294967296 d mem buffer len (readout bad d.flash addr) r t)
      (Stopped E 4294967296 d) := by
  refine flashReadLoopThrough E (Nat.le_refl _) (PageRun E) ?_ len addr buffer mem _ d address
    (fun i _ => u32Bound _) (fun _ => rfl)
  intro addr n buffer mem d some fits page
  exact endsMono (endsBoth (readPageEnds E (by decide) (Nat.le_refl _) mem d some fits)
    (readPageRun E mem d some page fits)) (fun _ _ h => h.2) (fun _ h => h.1)

theorem flashReadRuns {E : Env} (power : E.NoCut) (buffer : Nat) (mem : Bytes) (d : Device) :
    ∃ r as, ReadsAs E addr buffer mem len d r as := by
  obtain ⟨r,t,run,quiet,_⟩ := flashReadReturns E power mem d address buffer len
  obtain ⟨cs,calls,_⟩ := quiet.calls
  exact ⟨r,_,t,cs.reverse,run,by rw [calls,List.reverse_reverse],rfl⟩

theorem flashReadFacts (inside : addr + len ≤ 4294967296) {E : Env} {buffer : Nat} {mem : Bytes}
    {d : Device} {r : Status × Bytes} {as : List Answer}
    (run : ReadsAs E addr buffer mem len d r as) :
    ReadFacts E addr buffer mem len d.flash r as := by
  obtain ⟨t,cs,run,calls,rfl⟩ := run
  obtain ⟨bad,pieces,reads⟩ := endsReturned (flashReadPieces address E buffer mem d) run
  obtain ⟨cs',calls',facts⟩ := runOfPieces pieces inside
  have same : cs' = cs :=
    List.reverse_inj.mp (List.append_cancel_right (calls'.symm.trans calls))
  rw [same] at facts
  refine ⟨facts.status,facts.success,?_,?_,facts.checked,?_⟩
  · intro ok i small
    have content : r.2 = overlay mem buffer len (readout bad d.flash addr) := by
      rcases reads.result with ⟨_,same⟩ | ⟨failed,_⟩
      · exact same
      · exact absurd ok failed
    have page : (addr + i) / mflashPageSize =
        addr / mflashPageSize + (addr % mflashPageSize + i) / mflashPageSize := by
      simp only [mflashPageSize]
      omega
    rw [content,overlayIn _ _ _ _ small,readout,u32Small (by omega),page,← facts.unread ok]
    exact ⟨fun unread => if_pos unread,fun read => if_neg read⟩
  · rcases reads.result with ⟨_,same⟩ | ⟨_,_,off⟩
    · rw [same]
      exact agreeOffOverlay _ _ _ _
    · exact off
  · intro off p
    exact fetchesReadable (facts.plain off)

end FlashRead

theorem factsAgree {E E' : Env} {addr buffer len : Nat} {mem flash : Bytes} {r r' : Status × Bytes}
    {as as' : List Answer} (first : ReadFacts E addr buffer mem len flash r as)
    (second : ReadFacts E' addr buffer mem len flash r' as') (ok : r.1 = kStatusSuccess)
    (ok' : r'.1 = kStatusSuccess) (pages : ∀ p, Unreadable as p ↔ Unreadable as' p) : r' = r := by
  refine Prod.ext (ok'.trans ok.symm) ?_
  funext x
  by_cases window : buffer ≤ x ∧ x < buffer + len
  · obtain ⟨i,rfl⟩ := Nat.exists_eq_add_of_le window.1
    have bytes := first.content ok i (by omega)
    have bytes' := second.content ok' i (by omega)
    by_cases unread : Unreadable as ((addr + i) / mflashPageSize)
    · rw [bytes.1 unread,bytes'.1 ((pages _).mp unread)]
    · rw [bytes.2 unread,bytes'.2 (fun h => unread ((pages _).mpr h))]
  · rw [first.confined x (by omega),second.confined x (by omega)]

theorem flashReadReturnsFlash {addr len : Nat} (address : addr < 4294967296)
    (inside : addr + len ≤ 4294967296) (buffer : Nat) (mem : Bytes) :
    (∀ E d, E.NoCut → ∃ r as, ReadsAs E addr buffer mem len d r as) ∧
    (∀ E d r as, ReadsAs E addr buffer mem len d r as →
      ReadFacts E addr buffer mem len d.flash r as) ∧
    ∀ E E' d d' r r' as as', d'.flash = d.flash → ReadsAs E addr buffer mem len d r as →
      ReadsAs E' addr buffer mem len d' r' as' → r.1 = kStatusSuccess → r'.1 = kStatusSuccess →
      (∀ p, Unreadable as p ↔ Unreadable as' p) → r' = r := by
  refine ⟨?_,?_,?_⟩
  · intro E d power
    exact flashReadRuns address power buffer mem d
  · intro E d r as run
    exact flashReadFacts address inside run
  · intro E E' d d' r r' as as' same run run' ok ok' pages
    have second := flashReadFacts address inside run'
    rw [same] at second
    exact factsAgree (flashReadFacts address inside run) second ok ok' pages

/-- The read starts in a page that is readable and ends in one that is not. -/
def writtenBoard : Device := holding 262080 ((List.range 128).map (fun i => UInt8.ofNat (2 * i + 1)))

def pageUnreadable : List Call → Call → Outcome
  | _,.isReadable 262144 => .failed ⟨kStatusFail,failIsError⟩ none
  | _,_ => .done

abbrev checkedBench : Env := bench ⟨true,true,true⟩ pageUnreadable

theorem flashReadReturnsFlashOnBoard : ∃ r as,
    ReadsAs checkedBench 262100 5 (fun _ => 0) 100 writtenBoard r as ∧
    ReadFacts checkedBench 262100 5 (fun _ => 0) 100 writtenBoard.flash r as ∧
    r.1 = kStatusSuccess ∧ cells r.2 47 4 = [125,127,0xff,0xff] ∧
    cells writtenBoard.flash 262142 4 = [125,127,129,131] := by
  obtain ⟨runs,facts,_⟩ := @flashReadReturnsFlash 262100 100 (by decide) (by decide) 5 (fun _ => 0)
  have power : checkedBench.NoCut := by
    intro calls c
    simp only [checkedBench,bench,pageUnreadable]
    split <;> simp
  obtain ⟨r,as,run⟩ := runs checkedBench writtenBoard power
  have read := facts _ _ r as run
  have ⟨_,_,ended,_⟩ := run
  have values : (ending (flashRead checkedBench 262100 5 (fun _ => 0) 100) writtenBoard).map
      (fun r => (r.1,cells r.2 47 4)) = some (kStatusSuccess,[125,127,0xff,0xff]) := by
    decide +kernel
  rw [endingOk ended] at values
  obtain ⟨status,bytes⟩ := Prod.mk.inj (Option.some.inj values)
  exact ⟨r,as,run,read,status,bytes,by decide +kernel⟩

end AkNano.FlashReadCalls
