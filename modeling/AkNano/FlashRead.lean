import AkNano.Platform
import Mathlib.Tactic.SplitIfs

/-! `flash_read` and `mflash_drv_read_wrapper`. A destination is a pointer into the
caller's memory, so alignment and everything around the buffer stay visible. Local
objects have memories of their own: C objects never overlap. `copyChunk` is one turn
of the wrapper's loop; the bounce buffer is copied out before the status is seen. -/
namespace AkNano.FlashRead
open Memory Interrupted Platform

def tmpBufSize : Nat := 64

/-- The rounding `(chunk + 3) & (~3)`. -/
def alignUp4 (n : Nat) : Nat := (n + 3) / 4 * 4

def readTmpBuf (E : Env) (addr len : Nat) : Fw Status := do
  let d ← get
  let r ← mflashDrvRead E addr .tmpBuf d.tmpBuf len
  modify (fun t => {t with tmpBuf := r.2})
  pure r.1

def copyChunk (E : Env) (dstPtr offset cnt chunk : Nat) (mem : Bytes) : Fw (Status × Bytes) :=
  let target := dstPtr + cnt * tmpBufSize
  if dstPtr % 4 = 0 ∧ chunk % 4 = 0 then
    mflashDrvRead E offset (.buffer target) mem (alignUp4 chunk)
  else do
    let status ← readTmpBuf E offset (alignUp4 chunk)
    let d ← get
    pure (status,overlay mem target chunk d.tmpBuf)

def capped (most len : Nat) : Nat := if most < len then most else len

theorem cappedCases (most len : Nat) : capped most len = most ∧ most < len ∨
    capped most len = len ∧ len ≤ most := by unfold capped; split <;> omega

def wrapperLoop (E : Env) (dstPtr offset len cnt : Nat) (mem : Bytes) : Fw (Status × Bytes) :=
  if 0 < len then do
    let chunk := capped tmpBufSize len
    let r ← copyChunk E dstPtr offset cnt chunk mem
    if r.1 ≠ kStatusSuccess then pure r
    else wrapperLoop E dstPtr (u32 (offset + chunk)) (len - chunk) (cnt + 1) r.2
  else pure (kStatusSuccess,mem)
termination_by len
decreasing_by have := cappedCases tmpBufSize len; simp only [tmpBufSize] at *; omega

def mflashDrvReadWrapper (E : Env) (addr dst : Nat) (mem : Bytes) (len : Nat) :
    Fw (Status × Bytes) :=
  if 0 < len ∧ addr % 4 ≠ 0 then do
    let cor := addr % 4
    let restTo4 := 4 - cor
    let segmentLen := if 4 ≤ len then restTo4 else len
    let status ← readTmpBuf E (addr - cor) 4
    if status ≠ kStatusSuccess then pure (status,mem)
    else do
      let d ← get
      let mem := overlay mem dst segmentLen (fun i => d.tmpBuf (cor + i))
      wrapperLoop E (dst + restTo4) (u32 (addr + restTo4))
        (if len < restTo4 then 0 else len - restTo4) 0 mem
  else wrapperLoop E dst addr len 0 mem

def flashReadFailed : Status := -1

def readPiece (E : Env) (addr buffer : Nat) (mem : Bytes) (readsize : Nat) : Fw (Status × Bytes) :=
  if E.build.flashRemapEnable then do
    let r ← mflashDrvReadWrapper E addr buffer mem readsize
    if r.1 ≠ kStatusSuccess then pure (flashReadFailed,r.2) else pure (kStatusSuccess,r.2)
  else do
    match ← mflashDrvPhys2log E addr readsize with
    | none => pure (flashReadFailed,mem)
    | some flashPtr => do
      let d ← get
      pure (kStatusSuccess,overlay mem buffer readsize (fun i => d.flash (flashPtr + i)))

def readPage (E : Env) (addr buffer : Nat) (mem : Bytes) (readsize : Nat) : Fw (Status × Bytes) :=
  if E.build.pageIntegrityChecks then do
    let status ← mflashDrvIsReadable E addr
    if status ≠ kStatusSuccess then
      pure (kStatusSuccess,overlay mem buffer readsize (fun _ => 0xff))
    else readPiece E addr buffer mem readsize
  else readPiece E addr buffer mem readsize

def flashReadLoop (E : Env) (addr buffer : Nat) (mem : Bytes) (len : Nat)
    (plen : {n : Nat // 0 < n}) : Fw (Status × Bytes) :=
  if 0 < len then do
    let readsize := capped plen len
    let r ← readPage E addr buffer mem readsize
    if r.1 ≠ kStatusSuccess then pure r
    else
      flashReadLoop E (u32 (addr + readsize)) (buffer + readsize) r.2 (len - readsize)
        ⟨mflashPageSize,by decide⟩
  else pure (kStatusSuccess,mem)
termination_by len
decreasing_by have := cappedCases plen len; have := plen.property; omega

def flashRead (E : Env) (addr buffer : Nat) (mem : Bytes) (len : Nat) : Fw (Status × Bytes) :=
  flashReadLoop E addr buffer mem len
    ⟨mflashPageSize - addr % mflashPageSize,by simp only [mflashPageSize]; omega⟩

/-! Contracts. A read leaves flash and remap register alone, issues reading calls only,
and fails, or is cut, only where the environment says so below `limit`. -/

structure Quiet (d t : Device) : Prop where
  flash : t.flash = d.flash
  remap : t.remap = d.remap
  calls : ∃ cs, t.calls = cs ++ d.calls ∧ ∀ c ∈ cs, c.reads = true

theorem quietRefl (d : Device) : Quiet d d := ⟨rfl,rfl,[],rfl,by simp⟩

theorem quietTrans {d t u : Device} (first : Quiet d t) (second : Quiet t u) : Quiet d u := by
  obtain ⟨as,ha,readsA⟩ := first.calls
  obtain ⟨bs,hb,readsB⟩ := second.calls
  refine ⟨second.flash.trans first.flash,second.remap.trans first.remap,bs ++ as,?_,?_⟩
  · rw [hb,ha,List.append_assoc]
  · intro c member
    rcases List.mem_append.mp member with late | early
    · exact readsB c late
    · exact readsA c early

theorem quietLog (d : Device) {c : Call} (reads : c.reads = true) : Quiet d (d.log c) :=
  ⟨rfl,rfl,[c],rfl,by simp [reads]⟩

structure Stopped (E : Env) (limit : Nat) (d t : Device) : Prop where
  quiet : Quiet d t
  fault : E.ReadFault limit
  power : ¬ E.NoCut

structure Reads (E : Env) (limit : Nat) (d : Device) (mem : Bytes) (p len : Nat) (content : Bytes)
    (r : Status × Bytes) (t : Device) : Prop where
  quiet : Quiet d t
  result : (r.1 = kStatusSuccess ∧ r.2 = overlay mem p len content) ∨
    (r.1 ≠ kStatusSuccess ∧ E.ReadFault limit ∧ AgreeOff p len mem r.2)

theorem stoppedAfter {E limit d t u} (first : Quiet d t) (h : Stopped E limit t u) :
    Stopped E limit d u := ⟨quietTrans first h.quiet,h.fault,h.power⟩

theorem readsCongr {E limit d mem p len f g r t} (h : Reads E limit d mem p len f r t)
    (same : ∀ i, i < len → f i = g i) : Reads E limit d mem p len g r t := by
  refine ⟨h.quiet,?_⟩
  rcases h.result with ⟨ok,eq⟩ | bad
  · exact .inl ⟨ok,eq.trans (overlayCongr mem p len same)⟩
  · exact .inr bad

theorem readsNothing {E limit d mem p q f g r t} (h : Reads E limit d mem p 0 f r t) :
    Reads E limit d mem q 0 g r t := by
  refine ⟨h.quiet,?_⟩
  rcases h.result with ⟨ok,eq⟩ | ⟨bad,fault,off⟩
  · exact .inl ⟨ok,by rw [eq,overlayZero,overlayZero]⟩
  · exact .inr ⟨bad,fault,fun x _ => off x (by omega)⟩

def joined (a : Nat) (f g : Bytes) : Bytes := fun i => if i < a then f i else g (i - a)

theorem readsAppend {E limit d t u mem p a b f g r r'} (first : Reads E limit d mem p a f r t)
    (ok : r.1 = kStatusSuccess) (second : Reads E limit t r.2 (p + a) b g r' u) :
    Reads E limit d mem p (a + b) (joined a f g) r' u := by
  have same : r.2 = overlay mem p a f := by
    rcases first.result with ⟨_,same⟩ | ⟨bad,_⟩
    · exact same
    · exact absurd ok bad
  refine ⟨quietTrans first.quiet second.quiet,?_⟩
  rcases second.result with ⟨ok',same'⟩ | ⟨bad',fault,off⟩
  · exact .inl ⟨ok',by rw [same',same,overlayAppend]; rfl⟩
  · refine .inr ⟨bad',fault,?_⟩
    have before : AgreeOff p (a + b) mem r.2 := by
      rw [same]
      exact agreeOffWiden (agreeOffOverlay mem p a f) (by omega) (by omega)
    exact agreeOffTrans before (agreeOffWiden off (by omega) (by omega))

theorem readsForget {E limit d mem mem' p len f r t} (h : Reads E limit d mem' p len f r t)
    (stale : AgreeOff p len mem mem') : Reads E limit d mem p len f r t := by
  refine ⟨h.quiet,?_⟩
  rcases h.result with ⟨ok,eq⟩ | ⟨bad,fault,off⟩
  · exact .inl ⟨ok,eq.trans (overlayForgets f stale (by omega) (by omega))⟩
  · exact .inr ⟨bad,fault,agreeOffTrans stale off⟩

theorem readsFailed {E limit d mem p a b f g r t} (h : Reads E limit d mem p a f r t)
    (bad : r.1 ≠ kStatusSuccess) (fits : a ≤ b) : Reads E limit d mem p b g r t := by
  refine ⟨h.quiet,?_⟩
  rcases h.result with ⟨ok,_⟩ | ⟨_,fault,off⟩
  · exact absurd ok bad
  · exact .inr ⟨bad,fault,agreeOffWiden off (by omega) (by omega)⟩

theorem readsBehind {E limit d t mem p a b len f g h r u} (quiet : Quiet d t)
    (head : a ≤ b ∧ b ≤ len) (same : ∀ i, i < a → g i = f i)
    (rest : Reads E limit t (overlay mem p b g) (p + a) (len - a) h r u) :
    Reads E limit d mem p len (joined a f h) r u := by
  have stale : AgreeOff (p + a) (len - a) (overlay mem p a f) (overlay mem p b g) :=
    agreeOffWiden (overlayLonger mem p head.1 same) (Nat.le_refl _) (by omega)
  have first : Reads E limit d mem p a f (kStatusSuccess,overlay mem p a f) t :=
    ⟨quiet,.inl ⟨rfl,rfl⟩⟩
  have whole := readsAppend first rfl (readsForget rest stale)
  rwa [Nat.add_sub_cancel' (by omega)] at whole

section Wrapper

variable (E : Env) {limit : Nat}

theorem drvReadEnds {addr len : Nat} (dst : Dest) (mem : Bytes) (d : Device)
    (word : addr % 4 = 0 ∧ dst.pointer % 4 = 0 ∧ len % 4 = 0) (below : addr + len ≤ limit) :
    Ends (mflashDrvRead E addr dst mem len) d
      (Reads E limit d mem dst.pointer len (fun i => d.flash (addr + i))) (Stopped E limit d) := by
  unfold Ends mflashDrvRead
  simp only [if_pos word]
  have quiet := quietLog d (c := .read addr dst len) rfl
  have fault : E.outcome d.calls (.read addr dst len) ≠ .done → E.ReadFault limit :=
    fun bad => ⟨d.calls,.read addr dst len,rfl,below,bad⟩
  cases h : E.outcome d.calls (.read addr dst len) with
  | done => exact ⟨quiet,.inl ⟨rfl,rfl⟩⟩
  | failed st g =>
    exact ⟨quiet,.inr ⟨st.property,fault (by rw [h]; simp),scribbleAgreeOff mem _ _ g⟩⟩
  | powerCut => exact ⟨quiet,fault (by rw [h]; simp),fun power => power _ _ h⟩

theorem readTmpBufEnds {addr len : Nat} (d : Device) (word : addr % 4 = 0 ∧ len % 4 = 0)
    (below : addr + len ≤ limit) :
    Ends (readTmpBuf E addr len) d
      (fun st t => Quiet d t ∧ ((st = kStatusSuccess ∧ ∀ i, i < len → t.tmpBuf i = d.flash (addr + i)) ∨
        (st ≠ kStatusSuccess ∧ E.ReadFault limit)))
      (Stopped E limit d) := by
  unfold readTmpBuf
  apply endsGet
  have aligned : addr % 4 = 0 ∧ Dest.tmpBuf.pointer % 4 = 0 ∧ len % 4 = 0 := ⟨word.1,rfl,word.2⟩
  refine endsThen (drvReadEnds E .tmpBuf d.tmpBuf d aligned below) ?_ (fun _ h => h)
  intro r t h
  have stored : Quiet d {t with tmpBuf := r.2} := ⟨h.quiet.flash,h.quiet.remap,h.quiet.calls⟩
  refine endsModify (endsPure ⟨stored,?_⟩)
  rcases h.result with ⟨ok,same⟩ | ⟨bad,fault,_⟩
  · refine .inl ⟨ok,?_⟩
    intro i inside
    have at0 := overlayIn d.tmpBuf 0 len (fun i => d.flash (addr + i)) inside
    simpa only [same,Dest.pointer,Nat.zero_add] using at0
  · exact .inr ⟨bad,fault⟩

theorem copyChunkEnds {dstPtr offset cnt chunk : Nat} (mem : Bytes) (d : Device)
    (word : offset % 4 = 0) (below : offset + alignUp4 chunk ≤ limit) :
    Ends (copyChunk E dstPtr offset cnt chunk mem) d
      (Reads E limit d mem (dstPtr + cnt * tmpBufSize) chunk (fun i => d.flash (offset + i)))
      (Stopped E limit d) := by
  unfold copyChunk
  have whole : alignUp4 chunk % 4 = 0 := by unfold alignUp4; omega
  have covers : chunk ≤ alignUp4 chunk := by unfold alignUp4; omega
  split
  · rename_i direct
    have exactSize : alignUp4 chunk = chunk := by unfold alignUp4; omega
    have pointer : (dstPtr + cnt * tmpBufSize) % 4 = 0 := by simp only [tmpBufSize]; omega
    have h := drvReadEnds E (.buffer (dstPtr + cnt * tmpBufSize)) mem d ⟨word,pointer,whole⟩ below
    simpa only [exactSize,Dest.pointer] using h
  · refine endsThen (readTmpBufEnds E d ⟨word,whole⟩ below) ?_ (fun _ h => h)
    rintro st t ⟨quiet,result⟩
    refine endsGet (endsPure ⟨quiet,?_⟩)
    rcases result with ⟨ok,same⟩ | ⟨bad,fault⟩
    · exact .inl ⟨ok,overlayCongr _ _ _ (fun i inside => same i (by omega))⟩
    · exact .inr ⟨bad,fault,agreeOffOverlay _ _ _ _⟩

theorem nextChunk (bounded : limit ≤ 4294967296) {offset len : Nat} (word : offset % 4 = 0)
    (inside : offset + len ≤ limit) (left : 0 < len - capped tmpBufSize len) :
    u32 (offset + capped tmpBufSize len) % 4 = 0 ∧
    u32 (offset + capped tmpBufSize len) + (len - capped tmpBufSize len) ≤ limit := by
  have size := cappedCases tmpBufSize len
  simp only [show tmpBufSize = 64 from rfl] at *
  rw [u32Small (by omega)]
  omega

theorem afterHead (bounded : limit ≤ 4294967296) {addr len : Nat} (below : addr + len ≤ limit)
    (left : 0 < len - (4 - addr % 4)) : u32 (addr + (4 - addr % 4)) % 4 = 0 ∧
    u32 (addr + (4 - addr % 4)) + (len - (4 - addr % 4)) ≤ limit := by
  rw [u32Small (by omega)]
  omega

theorem wrapperLoopEnds (aligned : limit % 4 = 0) (bounded : limit ≤ 4294967296)
    (dstPtr len offset cnt : Nat) (mem : Bytes) (d : Device)
    (next : 0 < len → offset % 4 = 0 ∧ offset + len ≤ limit) :
    Ends (wrapperLoop E dstPtr offset len cnt mem) d
      (Reads E limit d mem (dstPtr + cnt * tmpBufSize) len (fun i => d.flash (offset + i)))
      (Stopped E limit d) := by
  induction len using Nat.strongRecOn generalizing offset cnt mem d with
  | ind len ih =>
  rw [wrapperLoop]
  split
  case isFalse empty =>
    have zero : len = 0 := by omega
    subst zero
    exact endsPure ⟨quietRefl d,.inl ⟨rfl,(overlayZero _ _ _).symm⟩⟩
  case isTrue more =>
    obtain ⟨word,inside⟩ := next more
    have size := cappedCases tmpBufSize len
    have rest := nextChunk bounded word inside
    generalize capped tmpBufSize len = chunk at size rest ⊢
    simp only [show tmpBufSize = 64 from rfl] at size
    have fits : offset + alignUp4 chunk ≤ limit := by unfold alignUp4; omega
    refine endsThen (copyChunkEnds E mem d word fits) ?_ (fun _ h => h)
    intro r t h
    split
    case isTrue bad => exact endsPure (readsFailed h bad (by omega))
    case isFalse done =>
      have ok : r.1 = kStatusSuccess := not_not.mp done
      refine endsMono (ih (len - chunk) (by omega) _ (cnt + 1) r.2 t rest) ?_
        (fun _ stop => stoppedAfter h.quiet stop)
      intro r' u later
      -- a further chunk follows a full one only, so the two targets are adjacent
      have adjacent : Reads E limit t r.2 (dstPtr + cnt * tmpBufSize + chunk) (len - chunk)
          (fun i => t.flash (u32 (offset + chunk) + i)) r' u := by
        rcases size with ⟨full,_⟩ | ⟨last,_⟩
        · have target : dstPtr + (cnt + 1) * tmpBufSize = dstPtr + cnt * tmpBufSize + chunk := by
            simp only [tmpBufSize]; omega
          rw [← target]
          exact later
        · have none : len - chunk = 0 := by omega
          rw [none] at later ⊢
          exact readsNothing later
      have whole := readsAppend h ok adjacent
      rw [Nat.add_sub_cancel' (by omega)] at whole
      refine readsCongr whole ?_
      intro i inside
      unfold joined
      split
      · rfl
      · have index : offset + chunk + (i - chunk) = offset + i := by omega
        simp only [h.quiet.flash,u32Small (show offset + chunk < 4294967296 by omega),index]

theorem wrapperEnds (aligned : limit % 4 = 0) (bounded : limit ≤ 4294967296) {addr dst len : Nat}
    (mem : Bytes) (d : Device) (below : addr + len ≤ limit) :
    Ends (mflashDrvReadWrapper E addr dst mem len) d
      (Reads E limit d mem dst len (fun i => d.flash (addr + i))) (Stopped E limit d) := by
  unfold mflashDrvReadWrapper
  split
  case isFalse start =>
    have h := wrapperLoopEnds E aligned bounded dst len addr 0 mem d (by omega)
    simpa only [Nat.zero_mul,Nat.add_zero] using h
  case isTrue start =>
    have cor : 0 < addr % 4 ∧ addr % 4 < 4 := by omega
    have next := afterHead bounded below
    dsimp only
    generalize hr : 4 - addr % 4 = restTo4 at next ⊢
    have word : addr - addr % 4 + 4 ≤ limit := by omega
    refine endsThen (readTmpBufEnds E d ⟨by omega,rfl⟩ word) ?_ (fun _ h => h)
    rintro st t ⟨quiet,result⟩
    rcases result with ⟨ok,same⟩ | ⟨bad,fault⟩
    case inr => rw [if_pos bad]; exact endsPure ⟨quiet,.inr ⟨bad,fault,agreeOffRefl dst len mem⟩⟩
    rw [if_neg (by simp [ok])]
    apply endsGet
    have left : (if len < restTo4 then 0 else len - restTo4) = len - restTo4 := by split <;> omega
    rw [left]
    refine endsMono (wrapperLoopEnds E aligned bounded _ (len - restTo4) _ 0 _ t next) ?_
      (fun _ stop => stoppedAfter quiet stop)
    intro r u later
    rw [Nat.zero_mul,Nat.add_zero] at later
    have segment : min restTo4 len ≤ (if 4 ≤ len then restTo4 else len) ∧
        (if 4 ≤ len then restTo4 else len) ≤ len := by split <;> omega
    generalize (if 4 ≤ len then restTo4 else len) = copied at later segment
    have rest : Reads E limit t (overlay mem dst copied (fun i => t.tmpBuf (addr % 4 + i)))
        (dst + min restTo4 len) (len - min restTo4 len)
        (fun i => t.flash (u32 (addr + restTo4) + i)) r u := by
      by_cases short : len ≤ restTo4
      · have none : len - restTo4 = 0 := by omega
        have none' : len - min restTo4 len = 0 := by omega
        rw [none] at later
        rw [none']
        exact readsNothing later
      · rw [Nat.min_eq_left (by omega)]
        exact later
    have head : ∀ i, i < min restTo4 len → t.tmpBuf (addr % 4 + i) = d.flash (addr + i) := by
      intro i inside
      rw [same _ (by omega)]
      congr 1
      omega
    refine readsCongr (readsBehind quiet segment head rest) ?_
    intro i inside
    unfold joined
    split
    · rfl
    · have index : addr + restTo4 + (i - min restTo4 len) = addr + i := by omega
      simp only [quiet.flash,u32Small (show addr + restTo4 < 4294967296 by omega),index]

end Wrapper

/-! A page reported unreadable is delivered as erased bytes with a success status;
`bad k` marks the `k`-th page a read touches as such. -/
section FlashRead

variable (E : Env) {limit : Nat}

theorem phys2logEnds {addr n : Nat} (d : Device) (below : addr + n ≤ limit) :
    Ends (mflashDrvPhys2log E addr n) d
      (fun p t => Quiet d t ∧ (p = some addr ∨ (p = none ∧ E.ReadFault limit))) (Stopped E limit d) := by
  unfold Ends mflashDrvPhys2log
  have quiet := quietLog d (c := .phys2log addr n) rfl
  have fault : E.outcome d.calls (.phys2log addr n) ≠ .done → E.ReadFault limit :=
    fun bad => ⟨d.calls,.phys2log addr n,rfl,below,bad⟩
  cases h : E.outcome d.calls (.phys2log addr n) with
  | done => simp only [h]; exact ⟨quiet,.inl trivial⟩
  | failed st g => simp only [h]; exact ⟨quiet,.inr ⟨trivial,fault (by rw [h]; simp)⟩⟩
  | powerCut => simp only [h]; exact ⟨quiet,fault (by rw [h]; simp),fun power => power _ _ h⟩

theorem isReadableEnds {addr : Nat} (d : Device) (below : addr + 1 ≤ limit) :
    Ends (mflashDrvIsReadable E addr) d
      (fun st t => Quiet d t ∧ (st ≠ kStatusSuccess → E.ReadFault limit)) (Stopped E limit d) := by
  unfold Ends mflashDrvIsReadable
  have quiet := quietLog d (c := .isReadable addr) rfl
  have fault : E.outcome d.calls (.isReadable addr) ≠ .done → E.ReadFault limit :=
    fun bad => ⟨d.calls,.isReadable addr,rfl,below,bad⟩
  cases h : E.outcome d.calls (.isReadable addr) with
  | done => simp only [h]; exact ⟨quiet,fun bad => absurd rfl bad⟩
  | failed st g => simp only [h]; exact ⟨quiet,fun _ => fault (by rw [h]; simp)⟩
  | powerCut => simp only [h]; exact ⟨quiet,fault (by rw [h]; simp),fun power => power _ _ h⟩

theorem readPieceEnds (aligned : limit % 4 = 0) (bounded : limit ≤ 4294967296) {addr buffer n : Nat}
    (mem : Bytes) (d : Device) (below : addr + n ≤ limit) :
    Ends (readPiece E addr buffer mem n) d
      (Reads E limit d mem buffer n (fun i => d.flash (addr + i))) (Stopped E limit d) := by
  have error : flashReadFailed ≠ kStatusSuccess := by decide
  unfold readPiece
  split
  · refine endsThen (wrapperEnds E aligned bounded mem d below) ?_ (fun _ h => h)
    intro r t h
    rcases h.result with ⟨ok,same⟩ | ⟨bad,fault,off⟩
    · rw [if_neg (by simp [ok])]
      exact endsPure ⟨h.quiet,.inl ⟨rfl,same⟩⟩
    · rw [if_pos bad]
      exact endsPure ⟨h.quiet,.inr ⟨error,fault,off⟩⟩
  · refine endsThen (phys2logEnds E d below) ?_ (fun _ h => h)
    rintro p t ⟨quiet,rfl | ⟨rfl,fault⟩⟩
    · exact endsGet (endsPure ⟨quiet,.inl ⟨rfl,by rw [quiet.flash]⟩⟩)
    · exact endsPure ⟨quiet,.inr ⟨error,fault,agreeOffRefl buffer n mem⟩⟩

theorem readPageEnds (aligned : limit % 4 = 0) (bounded : limit ≤ 4294967296) {addr buffer n : Nat}
    (mem : Bytes) (d : Device) (some : 0 < n) (below : addr + n ≤ limit) :
    Ends (readPage E addr buffer mem n) d
      (fun r t => ∃ bad : Bool, (bad = true → E.build.pageIntegrityChecks = true ∧ E.ReadFault limit) ∧
        Reads E limit d mem buffer n (fun i => if bad then 0xff else d.flash (addr + i)) r t)
      (Stopped E limit d) := by
  have piece : ∀ t, Quiet d t → Ends (readPiece E addr buffer mem n) t
      (fun r u => ∃ bad : Bool, (bad = true → E.build.pageIntegrityChecks = true ∧ E.ReadFault limit) ∧
        Reads E limit d mem buffer n (fun i => if bad then 0xff else d.flash (addr + i)) r u)
      (Stopped E limit d) := by
    intro t quiet
    refine endsMono (readPieceEnds E aligned bounded mem t below) ?_ (fun _ h => stoppedAfter quiet h)
    intro r u h
    rw [quiet.flash] at h
    exact ⟨false,by simp,quietTrans quiet h.quiet,h.result⟩
  unfold readPage
  split
  case isFalse off => exact piece d (quietRefl d)
  case isTrue checks =>
    refine endsThen (isReadableEnds E d (show addr + 1 ≤ limit by omega)) ?_ (fun _ h => h)
    rintro st t ⟨quiet,fault⟩
    split
    case isTrue unreadable => exact endsPure ⟨true,fun _ => ⟨checks,fault unreadable⟩,quiet,.inl ⟨rfl,rfl⟩⟩
    case isFalse readable => exact piece t quiet

def readout (bad : Nat → Bool) (flash : Bytes) (addr : Nat) : Bytes := fun i =>
  if bad ((addr % mflashPageSize + i) / mflashPageSize) then 0xff else flash (u32 (addr + i))

def Excused (limit : Nat) (bad : Nat → Bool) : Prop :=
  ∀ k, bad k = true → E.build.pageIntegrityChecks = true ∧ E.ReadFault limit

def notedPage (bad : Bool) (later : Nat → Bool) : Nat → Bool :=
  fun k => if k = 0 then bad else later (k - 1)

theorem excusedPage {bad : Bool} {later : Nat → Bool}
    (first : bad = true → E.build.pageIntegrityChecks = true ∧ E.ReadFault limit)
    (rest : Excused E limit later) : Excused E limit (notedPage bad later) := by
  intro k marked
  unfold notedPage at marked
  by_cases zero : k = 0
  · exact first (by simpa only [if_pos zero] using marked)
  · exact rest (k - 1) (by simpa only [if_neg zero] using marked)

theorem readoutJoined (bad : Bool) (later : Nat → Bool) (flash : Bytes) {addr n i : Nat}
    (address : addr + n ≤ 4294967296) (page : addr % 256 + n ≤ 256)
    (next : n ≤ i → addr % 256 + n = 256 ∧ u32 (addr + n) % 256 = 0) :
    joined n (fun i => if bad then 0xff else flash (addr + i))
      (readout later flash (u32 (addr + n))) i = readout (notedPage bad later) flash addr i := by
  unfold joined readout mflashPageSize notedPage
  split
  · have first : (addr % 256 + i) / 256 = 0 := by omega
    rw [first,u32Small (by omega)]
    simp
  · have zero := next (by omega)
    have ordinal : (addr % 256 + i) / 256 = (i - n) / 256 + 1 := by omega
    have index : u32 (u32 (addr + n) + (i - n)) = u32 (addr + i) := by
      rw [u32Add]
      congr 1
      omega
    simp only [ordinal,zero.2,index,Nat.zero_add,Nat.add_sub_cancel]
    simp

/-- A run of the page loop: `Page` tells what one turn may do, the flags are the pages' in turn. -/
inductive Pieces (Page : Nat → Nat → Bool → Status → Device → Device → Prop) :
    Nat → Nat → (Nat → Bool) → Status → Device → Device → Prop where
  | nil (addr d) : Pieces Page addr 0 (fun _ => false) kStatusSuccess d d
  | failed {addr len n bad st d t} (piece : Page addr n bad st d t)
      (within : 0 < n ∧ n ≤ len ∧ addr % mflashPageSize + n ≤ mflashPageSize)
      (error : st ≠ kStatusSuccess) : Pieces Page addr len (fun _ => false) st d t
  | next {addr len n bad later st d t u} (piece : Page addr n bad kStatusSuccess d t)
      (within : 0 < n ∧ n ≤ len ∧ addr % mflashPageSize + n ≤ mflashPageSize)
      (start : n < len → addr % mflashPageSize + n = mflashPageSize)
      (rest : Pieces Page (u32 (addr + n)) (len - n) later st t u) :
      Pieces Page addr len (notedPage bad later) st d u

section Turn

variable {addr plen len : Nat} (first : plen = mflashPageSize - addr % mflashPageSize)

include first

theorem pieceInPage (positive : 0 < plen) (more : 0 < len) : 0 < capped plen len ∧
    capped plen len ≤ len ∧ addr % mflashPageSize + capped plen len ≤ mflashPageSize := by
  have size := cappedCases plen len
  simp only [mflashPageSize] at *
  omega

theorem pieceEndsPage (left : capped plen len < len) :
    addr % mflashPageSize + capped plen len = mflashPageSize ∧
    u32 (addr + capped plen len) % mflashPageSize = 0 := by
  have size := cappedCases plen len
  simp only [mflashPageSize,u32] at *
  omega

end Turn

theorem pieceBelow {addr n len : Nat} (address : addr < 4294967296)
    (below : ∀ i, i < len → u32 (addr + i) < limit)
    (piece : 0 < n ∧ n ≤ len ∧ addr % mflashPageSize + n ≤ mflashPageSize) : addr + n ≤ limit := by
  have last := below (n - 1) (by omega)
  have width := piece.2.2
  simp only [mflashPageSize] at width
  rw [u32Small (by omega)] at last
  omega

theorem flashReadLoopThrough (bounded : limit ≤ 4294967296)
    (Page : Nat → Nat → Bool → Status → Device → Device → Prop)
    (turn : ∀ addr n buffer mem d, 0 < n → addr + n ≤ limit →
      addr % mflashPageSize + n ≤ mflashPageSize → Ends (readPage E addr buffer mem n) d
        (fun r t => ∃ bad : Bool, Page addr n bad r.1 d t ∧
          Reads E limit d mem buffer n (fun i => if bad then 0xff else d.flash (addr + i)) r t)
        (Stopped E limit d))
    (len addr buffer : Nat) (mem : Bytes) (plen : {n : Nat // 0 < n}) (d : Device)
    (address : addr < 4294967296) (below : ∀ i, i < len → u32 (addr + i) < limit)
    (page : 0 < len → plen.val = mflashPageSize - addr % mflashPageSize) :
    Ends (flashReadLoop E addr buffer mem len plen) d
      (fun r t => ∃ bad, Pieces Page addr len bad r.1 d t ∧
        Reads E limit d mem buffer len (readout bad d.flash addr) r t)
      (Stopped E limit d) := by
  induction len using Nat.strongRecOn generalizing addr buffer mem plen d with
  | ind len ih =>
  rw [flashReadLoop]
  split
  case isFalse empty =>
    have zero : len = 0 := by omega
    subst zero
    exact endsPure ⟨_,.nil addr d,quietRefl d,.inl ⟨rfl,(overlayZero _ _ _).symm⟩⟩
  case isTrue more =>
    have first := page more
    have inPage := pieceInPage first plen.property more
    have next := @pieceEndsPage addr plen.val len first
    generalize capped plen.val len = n at inPage next ⊢
    have fits := pieceBelow address below inPage
    refine endsThen (turn addr n buffer mem d inPage.1 fits inPage.2.2) ?_ (fun _ h => h)
    rintro r t ⟨bad,piece,h⟩
    split
    case isTrue failed =>
      exact endsPure ⟨_,.failed piece inPage failed,readsFailed h failed inPage.2.1⟩
    case isFalse done =>
      have ok : r.1 = kStatusSuccess := not_not.mp done
      have later : ∀ i, i < len - n → u32 (u32 (addr + n) + i) < limit := by
        intro i inside
        have at0 := below (n + i) (by omega)
        rwa [u32Add,Nat.add_assoc]
      refine endsMono (ih (len - n) (by omega) _ (buffer + n) r.2 ⟨mflashPageSize,by decide⟩ t
        (u32Bound _) later (fun left => by rw [(next (by omega)).2,Nat.sub_zero])) ?_
        (fun _ stop => stoppedAfter h.quiet stop)
      rintro r' u ⟨bad',pieces,second⟩
      rw [h.quiet.flash] at second
      rw [ok] at piece
      refine ⟨_,.next piece inPage (fun left => (next left).1) pieces,?_⟩
      have whole := readsAppend h ok second
      rw [Nat.add_sub_cancel' inPage.2.1] at whole
      refine readsCongr whole ?_
      intro i inside
      exact readoutJoined bad bad' d.flash (by omega) inPage.2.2 (fun past => next (by omega))

def ExcusedPiece (limit : Nat) (_ _ : Nat) (bad : Bool) (_ : Status) (_ _ : Device) : Prop :=
  bad = true → E.build.pageIntegrityChecks = true ∧ E.ReadFault limit

theorem piecesExcused {addr len : Nat} {bad : Nat → Bool} {st : Status} {d t : Device}
    (run : Pieces (ExcusedPiece E limit) addr len bad st d t) : Excused E limit bad := by
  induction run with
  | nil addr d => simp [Excused]
  | failed piece within error => simp [Excused]
  | next piece within start rest ih => exact excusedPage E piece ih

theorem flashReadLoopEnds (aligned : limit % 4 = 0) (bounded : limit ≤ 4294967296)
    (len addr buffer : Nat) (mem : Bytes) (plen : {n : Nat // 0 < n}) (d : Device)
    (address : addr < 4294967296) (below : ∀ i, i < len → u32 (addr + i) < limit)
    (page : 0 < len → plen.val = mflashPageSize - addr % mflashPageSize) :
    Ends (flashReadLoop E addr buffer mem len plen) d
      (fun r t => ∃ bad, Excused E limit bad ∧
        Reads E limit d mem buffer len (readout bad d.flash addr) r t)
      (Stopped E limit d) := by
  refine endsMono (flashReadLoopThrough E bounded (ExcusedPiece E limit) ?_ len addr buffer mem plen d
    address below page) ?_ (fun _ h => h)
  · intro addr n buffer mem d some fits _
    exact readPageEnds E aligned bounded mem d some fits
  · rintro r t ⟨bad,pieces,reads⟩
    exact ⟨bad,piecesExcused E pieces,reads⟩

theorem flashReadEnds (aligned : limit % 4 = 0) (bounded : limit ≤ 4294967296)
    {addr buffer len : Nat} (mem : Bytes) (d : Device) (address : addr < 4294967296)
    (below : ∀ i, i < len → u32 (addr + i) < limit) :
    Ends (flashRead E addr buffer mem len) d
      (fun r t => ∃ bad, Excused E limit bad ∧
        Reads E limit d mem buffer len (readout bad d.flash addr) r t)
      (Stopped E limit d) :=
  flashReadLoopEnds E aligned bounded len addr buffer mem _ d address below (fun _ => rfl)

theorem flashReadExact (aligned : limit % 4 = 0) (bounded : limit ≤ 4294967296)
    (reads : E.ReadsSucceed limit) {addr len : Nat} (mem : Bytes) (d : Device)
    (address : addr < 4294967296) (below : ∀ i, i < len → u32 (addr + i) < limit) (buffer : Nat) :
    ∃ t, Quiet d t ∧ flashRead E addr buffer mem len d =
      .ok (kStatusSuccess,overlay mem buffer len (fun i => d.flash (u32 (addr + i)))) t := by
  obtain ⟨r,t,run,h⟩ := endsTotal (p := flashRead E addr buffer mem len)
    (endsMono (flashReadEnds E aligned bounded mem d address below) (fun _ _ h => h)
      (fun _ h => reads.noFault h.fault))
  obtain ⟨bad,excuse,h⟩ := h
  have none : ∀ k, bad k = false := by
    intro k
    cases hb : bad k with
    | false => rfl
    | true => exact absurd (excuse k hb).2 reads.noFault
  rcases h.result with ⟨ok,same⟩ | ⟨_,fault,_⟩
  · refine ⟨t,h.quiet,run.trans ?_⟩
    have content : readout bad d.flash addr = fun i => d.flash (u32 (addr + i)) := by
      funext i
      simp [readout,none]
    rw [← ok,← content,← same]
  · exact absurd fault reads.noFault

theorem flashReadGenuine (genuine : E.Genuine) {addr buffer len : Nat} {mem : Bytes} {d t : Device}
    {r : Status × Bytes} (address : addr < 4294967296)
    (run : flashRead E addr buffer mem len d = .ok r t) (ok : r.1 = kStatusSuccess) :
    r.2 = overlay mem buffer len (fun i => d.flash (u32 (addr + i))) := by
  obtain ⟨bad,excuse,reads⟩ := endsReturned (flashReadEnds E (show 4294967296 % 4 = 0 by decide)
    (by decide) mem d address (fun i _ => u32Bound (addr + i))) run
  rcases reads.result with ⟨_,same⟩ | ⟨failed,_⟩
  · rw [same]
    apply overlayCongr
    intro i _
    unfold readout
    split
    case isTrue marked =>
      obtain ⟨checks,fault⟩ := excuse _ marked
      exact absurd fault ((genuine checks).reads _).noFault
    case isFalse => rfl
  · exact absurd ok failed

theorem flashReadConfined {addr buffer len : Nat} (mem : Bytes) (d : Device)
    (address : addr < 4294967296) :
    Ends (flashRead E addr buffer mem len) d (fun r t => Quiet d t ∧ AgreeOff buffer len mem r.2)
      (Stopped E 4294967296 d) := by
  refine endsMono (flashReadEnds E (by decide) (by decide) mem d address
    (fun i _ => u32Bound (addr + i))) ?_ (fun _ h => h)
  intro r t h
  obtain ⟨bad,_,reads⟩ := h
  refine ⟨reads.quiet,?_⟩
  rcases reads.result with ⟨_,same⟩ | ⟨_,_,off⟩
  · rw [same]
    exact agreeOffOverlay mem buffer len _
  · exact off

theorem flashReadReturns (power : E.NoCut) {addr : Nat} (mem : Bytes) (d : Device)
    (address : addr < 4294967296) (buffer len : Nat) :
    ∃ r t, flashRead E addr buffer mem len d = .ok r t ∧ Quiet d t ∧ AgreeOff buffer len mem r.2 :=
  endsTotal (endsMono (flashReadConfined E mem d address) (fun _ _ h => h)
    (fun _ h => h.power power))

theorem onePageRead {E : Env} {addr buffer len : Nat} {mem : Bytes} {d t : Device}
    {r : Status × Bytes} (page : addr % mflashPageSize + len ≤ mflashPageSize) (some : 0 < len)
    (run : readPage E addr buffer mem len d = .ok r t) :
    flashRead E addr buffer mem len d = .ok r t := by
  have size : capped (mflashPageSize - addr % mflashPageSize) len = len := by
    have cases := cappedCases (mflashPageSize - addr % mflashPageSize) len
    omega
  rw [flashRead,flashReadLoop,if_pos some]
  dsimp only
  rw [size,returnedThen run]
  by_cases ok : r.1 = kStatusSuccess
  · rw [if_neg (not_not.mpr ok),flashReadLoop,if_neg (by omega)]
    obtain ⟨st,mem⟩ := r
    rw [ok.symm]
    rfl
  · rw [if_pos ok]
    rfl

theorem onePageEnds (aligned : limit % 4 = 0) (bounded : limit ≤ 4294967296) {addr buffer len : Nat}
    (mem : Bytes) (d : Device) (page : addr % mflashPageSize + len ≤ mflashPageSize)
    (below : addr + len ≤ limit) :
    Ends (flashRead E addr buffer mem len) d
      (fun r t => Quiet d t ∧ ((r.1 = kStatusSuccess ∧
          ((∀ i, i < len → r.2 (buffer + i) = d.flash (addr + i)) ∨
            (E.build.pageIntegrityChecks = true ∧ E.ReadFault limit ∧
              ∀ i, i < len → r.2 (buffer + i) = 0xff))) ∨
        (r.1 ≠ kStatusSuccess ∧ E.ReadFault limit)))
      (Stopped E limit d) := by
  cases len with
  | zero =>
    rw [flashRead,flashReadLoop,if_neg (by omega)]
    exact endsPure ⟨quietRefl d,.inl ⟨rfl,.inl (by omega)⟩⟩
  | succ n =>
  have inside : ∀ i, i < n + 1 → u32 (addr + i) = addr + i := fun i _ => u32Small (by omega)
  refine endsMono (flashReadEnds E aligned bounded mem d (by omega) ?_) ?_ (fun _ h => h)
  · intro i small
    rw [inside i small]
    omega
  · intro r t h
    obtain ⟨bad,excuse,reads⟩ := h
    refine ⟨reads.quiet,?_⟩
    rcases reads.result with ⟨ok,same⟩ | ⟨failed,fault,_⟩
    · refine .inl ⟨ok,?_⟩
      have value : ∀ i, i < n + 1 → r.2 (buffer + i) = if bad 0 then 0xff else d.flash (addr + i) := by
        intro i small
        have first : (addr % mflashPageSize + i) / mflashPageSize = 0 := by
          simp only [mflashPageSize] at page ⊢
          omega
        rw [same,overlayIn _ _ _ _ small,readout,first,inside i small]
      cases hb : bad 0 with
      | false => exact .inl (fun i small => by simpa [hb] using value i small)
      | true => exact .inr ⟨(excuse 0 hb).1,(excuse 0 hb).2,fun i small => by simpa [hb] using value i small⟩
    · exact .inr ⟨failed,fault⟩

end FlashRead

end AkNano.FlashRead
