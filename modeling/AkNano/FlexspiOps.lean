import Mathlib.Data.Nat.Find
import AkNano.BuildNumber

/-! The flash readers of `flexspi_nor_flash_ops.c`. The FlexSPI driver is SDK code: it
answers each transfer from those before it, latest first. The busy poll has no limit, so its
loop takes a number of rounds it may run and `none` stands for one that still runs then.
Its `readValue` is a local of which every poll sets the lowest byte and nothing else. -/
namespace AkNano.FlexspiOps
open Memory Platform SlotLayout BuildNumber

inductive Seq where
  | readStatusReg | readFastQuad
  deriving DecidableEq, Repr

structure Transfer where
  deviceAddress : UInt32
  seqIndex : Seq
  dataSize : Nat
  deriving DecidableEq, Repr

inductive Reply where
  | done (data : Bytes)
  | failed (status : ErrorStatus) (garbage : Option Bytes)

abbrev Bus := List Transfer → Transfer → Reply

/-- The board's `FLASH_BUSY_STATUS_POL` and `FLASH_BUSY_STATUS_OFFSET`. -/
structure BusyFlag where
  pol : Bool
  offset : UInt32

def boardBusyFlag : BoardModel → BusyFlag
  | .rt1060 => ⟨true,0⟩
  | .rt1170 => ⟨true,0⟩

def setLowByte (readValue : UInt32) (b : UInt8) : UInt32 := (readValue &&& 0xffffff00) ||| b.toUInt32

def isBusy (flag : BusyFlag) (readValue : UInt32) : Bool :=
  if flag.pol then readValue &&& (1 <<< flag.offset) ≠ 0
  else ¬ (readValue &&& (1 <<< flag.offset) ≠ 0)

def statusXfer : Transfer := ⟨0,.readStatusReg,1⟩

def waitBusBusy (bus : Bus) (flag : BusyFlag) : Nat → UInt32 → List Transfer →
    Option (Status × List Transfer)
  | 0,_,_ => none
  | rounds + 1,readValue,log =>
    match bus log statusXfer with
    | .failed st _ => some (st.val,statusXfer :: log)
    | .done data =>
      let readValue := setLowByte readValue (data 0)
      if isBusy flag readValue then waitBusBusy bus flag rounds readValue (statusXfer :: log)
      else some (kStatusSuccess,statusXfer :: log)

def flexspiNorWaitBusBusy (bus : Bus) (board : BoardModel) (rounds : Nat) (stack : UInt32)
    (log : List Transfer) : Option (Status × List Transfer) :=
  waitBusBusy bus (boardBusyFlag board) rounds stack log

def ambaBase (board : BoardModel) : UInt32 := UInt32.ofNat (bootFlashBase board)

def flashXfer (board : BoardModel) (address : UInt32) (length : Nat) : Transfer :=
  ⟨address &&& ~~~ambaBase board,.readFastQuad,length⟩

def sfwFlashReadIpc (bus : Bus) (board : BoardModel) (rounds : Nat) (stack : UInt32)
    (address : UInt32) (mem : Bytes) (buffer length : Nat) (log : List Transfer) :
    Option (Status × Bytes × List Transfer) :=
  let xfer := flashXfer board address length
  match bus log xfer with
  | .failed st g => some (st.val,scribble mem buffer length g,xfer :: log)
  | .done data =>
    match flexspiNorWaitBusBusy bus board rounds stack (xfer :: log) with
    | none => none
    | some (st,log) => some (st,overlay mem buffer length data,log)

def sfwFlashRead (E : Env) (d : Device) (dstAddr : UInt32) (mem : Bytes) (buf len : Nat) :
    Status × Bytes :=
  let addr := dstAddr ||| ambaBase E.board
  (0,overlay mem buf len (fun i => mappedView E d (addr.toNat + i)))

/-! The poll returns at its first answer that is not busy, and what the local held before
does not matter. -/

section Poll

variable {bus : Bus} {flag : BusyFlag}

def poll (bus : Bus) (log : List Transfer) (n : Nat) : Reply :=
  bus (List.replicate n statusXfer ++ log) statusXfer

def Busy (flag : BusyFlag) (reply : Reply) : Prop :=
  ∃ data, reply = .done data ∧ isBusy flag (data 0).toUInt32 = true

inductive Settles (flag : BusyFlag) : Reply → Status → Prop where
  | ready (data) (idle : isBusy flag (data 0).toUInt32 = false) :
      Settles flag (.done data) kStatusSuccess
  | failed (st : ErrorStatus) (g) : Settles flag (.failed st g) st.val

theorem maskedByte {mask : UInt32} (low : 0xffffff00 &&& mask = 0) (v : UInt32) (b : UInt8) :
    setLowByte v b &&& mask = b.toUInt32 &&& mask := by
  have high : v &&& 0xffffff00 &&& mask = 0 := by rw [UInt32.and_assoc,low,UInt32.and_zero]
  have parts : setLowByte v b &&& mask = (v &&& 0xffffff00 &&& mask) ||| (b.toUInt32 &&& mask) :=
    UInt32.toBitVec_inj.mp BitVec.and_or_distrib_right
  rw [parts,high,UInt32.zero_or]

theorem busyByte (board : BoardModel) (v : UInt32) (b : UInt8) :
    isBusy (boardBusyFlag board) (setLowByte v b) = isBusy (boardBusyFlag board) b.toUInt32 := by
  have low : (0xffffff00 : UInt32) &&& (1 <<< (boardBusyFlag board).offset) = 0 := by
    cases board <;> decide
  simp only [isBusy,maskedByte low]

theorem pollNext (log : List Transfer) (n : Nat) :
    poll bus (statusXfer :: log) n = poll bus log (n + 1) := by
  unfold poll
  rw [List.replicate_succ',List.append_assoc]
  rfl

theorem settledIdle {reply : Reply} {st : Status} (h : Settles flag reply st) : ¬ Busy flag reply := by
  rintro ⟨data,same,busy⟩
  cases h with
  | ready other idle =>
    rw [Reply.done.inj same,busy] at idle
    contradiction
  | failed => contradiction

variable (bus flag) in
structure PollEnd (log : List Transfer) (n : Nat) (st : Status) (log' : List Transfer) : Prop where
  before : ∀ k < n, Busy flag (poll bus log k)
  last : Settles flag (poll bus log n) st
  sent : log' = List.replicate (n + 1) statusXfer ++ log

theorem pollEndZero {log log' : List Transfer} {st : Status} :
    PollEnd bus flag log 0 st log' ↔
      Settles flag (poll bus log 0) st ∧ log' = statusXfer :: log := by
  constructor
  · intro h
    exact ⟨h.last,h.sent⟩
  · intro h
    exact ⟨fun k below => absurd below (Nat.not_lt_zero k),h.1,h.2⟩

theorem pollEndSucc {log log' : List Transfer} {n : Nat} {st : Status} :
    PollEnd bus flag log (n + 1) st log' ↔
      Busy flag (poll bus log 0) ∧ PollEnd bus flag (statusXfer :: log) n st log' := by
  have sent : List.replicate (n + 1) statusXfer ++ statusXfer :: log =
      List.replicate (n + 1 + 1) statusXfer ++ log := by
    rw [List.replicate_succ' (n := n + 1),List.append_assoc]
    rfl
  constructor
  · intro h
    refine ⟨h.before 0 (Nat.zero_lt_succ n),⟨?_,?_,h.sent.trans sent.symm⟩⟩
    · intro k below
      rw [pollNext]
      exact h.before (k + 1) (Nat.succ_lt_succ below)
    · rw [pollNext]
      exact h.last
  · rintro ⟨first,rest⟩
    refine ⟨?_,?_,rest.sent.trans sent⟩
    · intro k below
      cases k with
      | zero => exact first
      | succ k =>
        rw [← pollNext]
        exact rest.before k (Nat.lt_of_succ_lt_succ below)
    · rw [← pollNext]
      exact rest.last

theorem pollEndBelow {log log' : List Transfer} {rounds : Nat} {st : Status} :
    (∃ n < rounds + 1, PollEnd bus flag log n st log') ↔
      (Settles flag (poll bus log 0) st ∧ log' = statusXfer :: log) ∨
        Busy flag (poll bus log 0) ∧
          ∃ n < rounds, PollEnd bus flag (statusXfer :: log) n st log' := by
  constructor
  · rintro ⟨n,below,ends⟩
    cases n with
    | zero => exact .inl (pollEndZero.mp ends)
    | succ n =>
      have step := pollEndSucc.mp ends
      exact .inr ⟨step.1,n,Nat.lt_of_succ_lt_succ below,step.2⟩
  · rintro (ends | ⟨first,n,below,ends⟩)
    · exact ⟨0,Nat.zero_lt_succ rounds,pollEndZero.mpr ends⟩
    · exact ⟨n + 1,Nat.succ_lt_succ below,pollEndSucc.mpr ⟨first,ends⟩⟩

theorem settlesOrBusy (flag : BusyFlag) (reply : Reply) :
    Busy flag reply ∨ ∃ st, Settles flag reply st := by
  cases reply with
  | failed st g => exact .inr ⟨_,.failed st g⟩
  | done data =>
    cases idle : isBusy flag (data 0).toUInt32 with
    | true => exact .inl ⟨data,rfl,idle⟩
    | false => exact .inr ⟨_,.ready data idle⟩

theorem settlesOnce {reply : Reply} {st st' : Status} (h : Settles flag reply st)
    (h' : Settles flag reply st') : st = st' := by
  cases h <;> cases h' <;> rfl

section Rounds

variable {board : BoardModel} {rounds : Nat} {stack : UInt32} {log log' : List Transfer} {st : Status}

theorem waitSettled (settled : Settles (boardBusyFlag board) (poll bus log 0) st) :
    waitBusBusy bus (boardBusyFlag board) (rounds + 1) stack log = some (st,statusXfer :: log) := by
  generalize answer : poll bus log 0 = reply at settled
  have first : bus log statusXfer = reply := answer
  cases settled with
  | ready data idle =>
    simp only [waitBusBusy,first,busyByte,idle,Bool.false_eq_true,if_false]
  | failed st g => simp only [waitBusBusy,first]

theorem waitBusy (rounds : Nat) (stack : UInt32)
    (busy : Busy (boardBusyFlag board) (poll bus log 0)) : ∃ readValue,
    waitBusBusy bus (boardBusyFlag board) (rounds + 1) stack log =
      waitBusBusy bus (boardBusyFlag board) rounds readValue (statusXfer :: log) := by
  obtain ⟨data,answer,held⟩ := busy
  have first : bus log statusXfer = .done data := answer
  exact ⟨setLowByte stack (data 0),by simp only [waitBusBusy,first,busyByte,held,if_true]⟩

theorem waitExact : waitBusBusy bus (boardBusyFlag board) rounds stack log = some (st,log') ↔
    ∃ n < rounds, PollEnd bus (boardBusyFlag board) log n st log' := by
  induction rounds generalizing stack log with
  | zero =>
    constructor
    · intro none
      contradiction
    · rintro ⟨n,below,_⟩
      exact absurd below (Nat.not_lt_zero n)
  | succ rounds ih =>
    rw [pollEndBelow]
    rcases settlesOrBusy (boardBusyFlag board) (poll bus log 0) with busy | ⟨first,settled⟩
    · obtain ⟨readValue,continues⟩ := waitBusy rounds stack busy
      rw [continues,ih]
      constructor
      · exact fun rest => .inr ⟨busy,rest⟩
      · rintro (⟨ends,_⟩ | ⟨_,rest⟩)
        · exact absurd busy (settledIdle ends)
        · exact rest
    · rw [waitSettled settled]
      constructor
      · intro same
        cases same
        exact .inl ⟨settled,rfl⟩
      · rintro (⟨ends,sent⟩ | ⟨busy,_⟩)
        · rw [settlesOnce settled ends,sent]
        · exact absurd busy (settledIdle settled)

end Rounds

end Poll

/-! What a read by command leaves, and when a load from the mapped flash agrees with it. -/

section Readers

variable {E : Env} {d : Device} {bus : Bus} {board : BoardModel} {rounds : Nat} {stack : UInt32}
  {address : UInt32} {mem mem' : Bytes} {buffer length : Nat} {log log' : List Transfer} {st : Status}

variable (bus board rounds address mem buffer length log) in
inductive IpcEnd : Status → Bytes → List Transfer → Prop where
  | refused (st : ErrorStatus) (g)
      (answer : bus log (flashXfer board address length) = .failed st g) :
      IpcEnd st.val (scribble mem buffer length g) (flashXfer board address length :: log)
  | read {data n st log'} (answer : bus log (flashXfer board address length) = .done data)
      (early : n < rounds) (ends : PollEnd bus (boardBusyFlag board)
        (flashXfer board address length :: log) n st log') :
      IpcEnd st (overlay mem buffer length data) log'

theorem ipcEnds : sfwFlashReadIpc bus board rounds stack address mem buffer length log =
    some (st,mem',log') ↔ IpcEnd bus board rounds address mem buffer length log st mem' log' := by
  cases answer : bus log (flashXfer board address length) with
  | failed failure g =>
    have stops : sfwFlashReadIpc bus board rounds stack address mem buffer length log =
        some (failure.val,scribble mem buffer length g,flashXfer board address length :: log) := by
      simp only [sfwFlashReadIpc,answer]
    rw [stops]
    constructor
    · intro same
      cases same
      exact .refused failure g answer
    · intro ends
      cases ends with
      | refused failure' g' answer' =>
        rw [answer] at answer'
        cases answer'
        rfl
      | read answer' => exact absurd (answer.symm.trans answer') (by simp)
  | done data =>
    have waits : sfwFlashReadIpc bus board rounds stack address mem buffer length log =
        (waitBusBusy bus (boardBusyFlag board) rounds stack
          (flashXfer board address length :: log)).map
            (fun ended => (ended.1,overlay mem buffer length data,ended.2)) := by
      simp only [sfwFlashReadIpc,flexspiNorWaitBusBusy,answer]
      cases waitBusBusy bus (boardBusyFlag board) rounds stack
        (flashXfer board address length :: log) <;> rfl
    rw [waits,Option.map_eq_some_iff]
    constructor
    · rintro ⟨⟨st',log''⟩,ended,same⟩
      cases same
      obtain ⟨n,early,ends⟩ := waitExact.mp ended
      exact .read answer early ends
    · intro ends
      cases ends with
      | refused failure' g' answer' => exact absurd (answer.symm.trans answer') (by simp)
      | read answer' early ends =>
        rw [answer] at answer'
        cases answer'
        exact ⟨(_,_),waitExact.mpr ⟨_,early,ends⟩,rfl⟩

theorem pollsEnd {flag : BusyFlag} (quiet : ∃ n, ¬ Busy flag (poll bus log n)) :
    ∃ n st log', PollEnd bus flag log n st log' := by
  classical
  have first := Nat.find_spec quiet
  obtain ⟨st,settled⟩ := (settlesOrBusy flag _).resolve_left first
  exact ⟨Nat.find quiet,st,_,⟨fun k below => not_not.mp (Nat.find_min quiet below),settled,rfl⟩⟩

theorem ipcHangs :
    (∀ rounds, sfwFlashReadIpc bus board rounds stack address mem buffer length log = none) ↔
      ∃ data, bus log (flashXfer board address length) = .done data ∧
        ∀ n, Busy (boardBusyFlag board) (poll bus (flashXfer board address length :: log) n) := by
  constructor
  · intro hangs
    have never : ∀ rounds st mem' log',
        ¬ IpcEnd bus board rounds address mem buffer length log st mem' log' := by
      intro rounds st mem' log' ends
      have run : sfwFlashReadIpc bus board rounds stack address mem buffer length log =
        some (st,mem',log') := ipcEnds.mpr ends
      rw [hangs rounds] at run
      contradiction
    cases answer : bus log (flashXfer board address length) with
    | failed st g => exact absurd (.refused st g answer) (never 0 _ _ _)
    | done data =>
      refine ⟨data,rfl,?_⟩
      by_contra quiet
      obtain ⟨n,st,log',ends⟩ := pollsEnd (not_forall.mp quiet)
      exact never (n + 1) _ _ _ (.read answer (Nat.lt_succ_self n) ends)
  · rintro ⟨data,answer,busy⟩ rounds
    cases run : sfwFlashReadIpc bus board rounds stack address mem buffer length log with
    | none => rfl
    | some ended =>
      obtain ⟨st,mem',log'⟩ := ended
      cases ipcEnds.mp run with
      | refused st g answer' => exact absurd (answer.symm.trans answer') (by simp)
      | read answer' early ends => exact absurd (busy _) (settledIdle ends.last)

/-- A read that the driver carries out delivers the flash, whatever was sent before it. -/
def Serves (bus : Bus) (d : Device) : Prop := ∀ log t data, t.seqIndex = .readFastQuad →
  bus log t = .done data → ∀ i, i < t.dataSize → data i = d.flash (t.deviceAddress.toNat + i)

theorem loadAddress (board : BoardModel) (address : UInt32) :
    (address ||| ambaBase board).toNat =
      bootFlashBase board + (address &&& ~~~ambaBase board).toNat := by
  have disjoint : (address &&& ~~~ambaBase board).toBitVec &&& (ambaBase board).toBitVec = 0#32 := by
    have parts : address &&& ~~~ambaBase board &&& ambaBase board = 0 := by
      rw [UInt32.and_assoc,UInt32.not_and_self,UInt32.and_zero]
    exact UInt32.toBitVec_inj.mpr parts
  have joined : address ||| ambaBase board = (address &&& ~~~ambaBase board) ||| ambaBase board := by
    apply UInt32.toBitVec_inj.mp
    ext i
    simp only [UInt32.toBitVec_or,UInt32.toBitVec_and,UInt32.toBitVec_not,BitVec.getElem_or,
      BitVec.getElem_and,BitVec.getElem_not]
    cases (ambaBase board).toBitVec[i] <;> simp
  have base : (ambaBase board).toNat = bootFlashBase board := by cases board <;> decide
  have sum := BitVec.toNat_add_of_and_eq_zero disjoint
  rw [BitVec.add_eq_or_of_and_eq_zero _ _ disjoint] at sum
  rw [joined,← base,Nat.add_comm]
  exact sum

def Twin (d : Device) (offset : Nat) : Prop := Slot.primary.start ≤ offset → offset < Slot.primary.stop →
  d.flash (offset + slotSize) = d.flash offset

theorem loadedByte (E : Env) (d : Device) (offset : Nat) :
    mappedView E d (bootFlashBase E.board + offset) = d.flash offset ↔
      (d.remap > 0 → Twin d offset) := by
  have places : bootFlashActApp E.board = bootFlashBase E.board + Slot.primary.start ∧
      bootFlashCandApp E.board = bootFlashBase E.board + Slot.primary.stop ∧
      flashAreaImage2Offset E.board = Slot.primary.start + slotSize := by
    cases E.board <;> decide
  by_cases inside : d.remap > 0 ∧ Slot.primary.start ≤ offset ∧ offset < Slot.primary.stop
  case pos =>
    have index : bootFlashBase E.board + offset - bootFlashActApp E.board +
        flashAreaImage2Offset E.board = offset + slotSize := by omega
    rw [mappedView,if_pos ⟨inside.1,by omega,by omega⟩,index]
    exact ⟨fun same _ _ _ => same,fun twin => twin inside.1 inside.2.1 inside.2.2⟩
  case neg =>
    have index : bootFlashBase E.board + offset - bootFlashBase E.board = offset := by omega
    rw [mappedView,if_neg (fun h => inside ⟨h.1,by omega,by omega⟩),index]
    exact ⟨fun _ remapped from_ below => absurd ⟨remapped,from_,below⟩ inside,fun _ => rfl⟩

theorem ipcDelivers (serves : Serves bus d)
    (run : sfwFlashReadIpc bus board rounds stack address mem buffer length log =
      some (kStatusSuccess,mem',log')) :
    mem' = overlay mem buffer length
      (fun i => d.flash ((address &&& ~~~ambaBase board).toNat + i)) := by
  have ends := ipcEnds.mp run
  generalize ended : kStatusSuccess = st at ends
  cases ends with
  | refused failure => exact absurd ended.symm failure.property
  | read answer => exact overlayCongr _ _ _ (serves _ (flashXfer board address length) _ rfl answer)

theorem readersAgree (serves : Serves bus d)
    (run : sfwFlashReadIpc bus E.board rounds stack address mem buffer length log =
      some (kStatusSuccess,mem',log')) :
    sfwFlashRead E d address mem buffer length = (kStatusSuccess,mem') ↔
      (d.remap > 0 → ∀ i, i < length →
        Twin d ((address &&& ~~~ambaBase E.board).toNat + i)) := by
  have loaded : sfwFlashRead E d address mem buffer length =
      (kStatusSuccess,overlay mem buffer length (fun i => mappedView E d (bootFlashBase E.board +
        ((address &&& ~~~ambaBase E.board).toNat + i)))) := by
    simp only [sfwFlashRead,loadAddress,Nat.add_assoc]
    rfl
  rw [loaded,ipcDelivers serves run]
  constructor
  · intro same remapped i inside
    have byte := congrFun (congrArg Prod.snd same) (buffer + i)
    simp only [overlayIn _ _ _ _ inside] at byte
    exact (loadedByte E d _).mp byte remapped
  · intro twins
    have bytes := overlayCongr mem buffer length
      (fun i inside => (loadedByte E d _).mpr (fun remapped => twins remapped i inside))
    rw [bytes]

def servingBus (d : Device) : Bus := fun log t =>
  match t.seqIndex with
  | .readFastQuad => .done (fun i => d.flash (t.deviceAddress.toNat + i))
  | .readStatusReg => .done (fun _ => if log.length = 1 then 3 else 2)

theorem servingServes (d : Device) : Serves (servingBus d) d := by
  intro log t data quad answer
  simp only [servingBus,quad,Reply.done.injEq] at answer
  intro i _
  rw [← answer]

theorem readersAgreeRemapped :
    (∃ log', sfwFlashReadIpc (servingBus secondSlotBoard) .rt1060 2 7 0x60040000 (fun _ => 0) 8 4 [] =
        some (kStatusSuccess,
          overlay (fun _ => 0) 8 4 (fun i => secondSlotBoard.flash (262144 + i)),log') ∧
      sfwFlashRead shippedBench secondSlotBoard 0x60040000 (fun _ => 0) 8 4 =
        (kStatusSuccess,overlay (fun _ => 0) 8 4 (fun i => secondSlotBoard.flash (262144 + i)))) ∧
    ∃ log', sfwFlashReadIpc (servingBus secondSlotBoard) .rt1060 2 7 0x60040018 (fun _ => 0) 8 4 [] =
        some (kStatusSuccess,
          overlay (fun _ => 0) 8 4 (fun i => secondSlotBoard.flash (262168 + i)),log') ∧
      sfwFlashRead shippedBench secondSlotBoard 0x60040018 (fun _ => 0) 8 4 ≠
        (kStatusSuccess,overlay (fun _ => 0) 8 4 (fun i => secondSlotBoard.flash (262168 + i))) := by
  have serves := servingServes secondSlotBoard
  constructor
  · have agree := readersAgree (E := shippedBench) serves
      (rfl : sfwFlashReadIpc _ .rt1060 2 7 0x60040000 (fun _ => 0) 8 4 [] = _)
    refine ⟨_,rfl,agree.mpr ?_⟩
    unfold Twin
    decide
  · have agree := readersAgree (E := shippedBench) serves
      (rfl : sfwFlashReadIpc _ .rt1060 2 7 0x60040018 (fun _ => 0) 8 4 [] = _)
    refine ⟨_,rfl,fun same => ?_⟩
    have twins := agree.mp same (by decide)
    exact absurd (twins 0 (by decide) (by decide) (by decide)) (by decide)

end Readers

end AkNano.FlexspiOps
