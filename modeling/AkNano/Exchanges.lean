import AkNano.Deliveries
import AkNano.SwapBuild

/-! Updates in the swap build, whose bootloader exchanges the contents of the two slots and
always starts the same one. It is not part of the repository: a slot marked for test is
exchanged on trial, a trial that nobody confirmed is exchanged back, and the trailers it
leaves are those that the reader of the image state expects. -/
namespace AkNano.Exchanges
open Memory Interrupted Platform FlashRead SwapState SlotLayout SwapEffects Session SwapRuns
open Rollback Lifetime Fallback UpdateCycles ImageFormat Deliveries

def Moved (len p q : Nat) (f g : Bytes) : Prop := ∀ i, i < len → g (q + i) = f (p + i)

/-- An exchange of the first `len` bytes, which are the slots less the sectors that the bootloader
keeps its state in. -/
structure Exchange (E : Env) (len : Nat) (imageOk : UInt8) (d t : Device) : Prop where
  remap : t.remap = d.remap
  brought : Moved len (activeSlot E d).other.start (activeSlot E d).start d.flash t.flash
  kept : Moved len (activeSlot E d).start (activeSlot E d).other.start d.flash t.flash
  candidate : Candidate (trailerOf t.flash (activeSlot E d))
  imageOk : (trailerOf t.flash (activeSlot E d)).imageOk = imageOk
  unset : trailerOf t.flash (activeSlot E d).other = erasedTrailer

section Moves

variable {len p q r : Nat} {f g h : Bytes}

theorem movedTrans (first : Moved len p q f g) (second : Moved len q r g h) : Moved len p r f h :=
  fun i inside => (second i inside).trans (first i inside)

theorem movedBody {s : Slot} (small : len ≤ bodySize) (same : AgreeOn s.start bodySize f g) :
    Moved len s.start s.start f g :=
  fun i inside => same i (Nat.lt_of_lt_of_le inside small)

theorem storedMoved {bs : List UInt8} (moved : Moved len p q f g) (fits : bs.length ≤ len)
    (stored : Stored f p bs) : Stored g q bs := by
  have same : cells g q bs.length = cells f p bs.length :=
    cellsEq.mpr (fun i inside => moved i (Nat.lt_of_lt_of_le inside fits))
  exact same.trans stored

end Moves

section Existence

variable {E : Env} {len : Nat}

def writtenTrailer (imageOk : UInt8) : Bytes := fun i => (trailerBytes 1 imageOk).getD i 0xff

def exchanged (a : Slot) (len : Nat) (imageOk : UInt8) (f : Bytes) : Bytes :=
  overlay (overlay (overlay (overlay f a.start len (fun i => f (a.other.start + i)))
    a.other.start len (fun i => f (a.start + i)))
    (a.other.stop - imageTrailerSize) imageTrailerSize (fun _ => 0xff))
    (a.stop - imageTrailerSize) imageTrailerSize (writtenTrailer imageOk)

variable (a : Slot) (small : len ≤ bodySize) (imageOk : UInt8) (f : Bytes)

include small

theorem exchangedBrought :
    Moved len a.other.start a.start f (exchanged a len imageOk f) := by
  intro i inside
  have layout := startCases a
  simp only [bodySize,slotSize,mflashSectorSize] at small
  unfold exchanged
  rw [overlayOut _ _ _ _ (by simp only [stopEq,imageTrailerSize]; omega),
    overlayOut _ _ _ _ (by simp only [stopEq,imageTrailerSize]; omega),
    overlayOut _ _ _ _ (by omega),overlayIn _ _ _ _ inside]

theorem exchangedKept : Moved len a.start a.other.start f (exchanged a len imageOk f) := by
  intro i inside
  have layout := startCases a
  simp only [bodySize,slotSize,mflashSectorSize] at small
  unfold exchanged
  rw [overlayOut _ _ _ _ (by simp only [stopEq,imageTrailerSize]; omega),
    overlayOut _ _ _ _ (by simp only [stopEq,imageTrailerSize]; omega),overlayIn _ _ _ _ inside]

omit small in
theorem exchangedUnset : trailerOf (exchanged a len imageOk f) a.other = erasedTrailer := by
  apply trailerCongr
  intro i inside
  have layout := startCases a
  unfold exchanged
  rw [overlayOut _ _ _ _ (by simp only [stopEq,imageTrailerSize]; omega)]
  exact overlayIn _ _ _ _ inside

omit small in
theorem exchangedTrailer :
    trailerOf (exchanged a len imageOk f) a = trailerAt (writtenTrailer imageOk) 0 := by
  apply trailerCongr
  intro i inside
  rw [Nat.zero_add]
  exact overlayIn _ _ _ _ inside

theorem exchangeExists (known : imageOk = 1 ∨ imageOk = 0xff) (d : Device) :
    ∃ t, Exchange E len imageOk d t := by
  refine ⟨{d with flash := exchanged (activeSlot E d) len imageOk d.flash},rfl,
    exchangedBrought _ small _ _,exchangedKept _ small _ _,?_,?_,exchangedUnset _ _ _⟩
  all_goals
    simp only [exchangedTrailer]
    rcases known with set | unset
    · rw [set]
      decide
    · rw [unset]
      decide

end Existence

/-! What the API says before and after an exchange. -/

def Reports (E : Env) (state : SwapType) (d : Device) : Prop :=
  ∃ t, blGetImageState E d = .ok (kStatusSuccess,some state) t

def Refuses (E : Env) (d : Device) : Prop :=
  ∃ t, blGetUpdatePartitionInfo E d = .ok (kStatusFail,⟨0,0⟩) t

section Reports

variable {E : Env} {len : Nat} {d t : Device}

theorem exchangeSlot {imageOk : UInt8} (exchange : Exchange E len imageOk d t) :
    activeSlot E t = activeSlot E d := activeSlotQuiet exchange.remap

theorem exchangeState {imageOk : UInt8} (exchange : Exchange E len imageOk d t) :
    stateIn E t = if imageOk = 0xff then .testing else .none := by
  have tested : underTest (trailerOf t.flash (activeSlot E d)) = true ↔ imageOk = 0xff := by
    rw [← exchange.imageOk]
    exact (underTestExact _ _).trans
      ⟨fun awaiting => awaiting.2,fun unset => ⟨exchange.candidate,unset⟩⟩
  unfold stateIn
  rw [exchangeSlot exchange,exchange.unset,erasedState,activeState]
  by_cases unset : imageOk = 0xff
  · rw [if_pos unset,if_pos (tested.mpr unset)]
  · rw [if_neg unset,if_neg (fun h => unset (tested.mp h))]

variable (faultless : E.Faultless)

include faultless

theorem reportsState {state : SwapType} (shown : stateIn E d = state) : Reports E state d := by
  obtain ⟨t,_,run⟩ := stateRuns d (faultless.reads slotsEnd)
  rw [shown] at run
  exact ⟨t,run⟩

theorem refusesTest (state : TestState (stateIn E d)) : Refuses E d := by
  obtain ⟨t,_,run⟩ := partitionRuns d (faultless.reads slotsEnd)
  rw [partitionFor,if_pos (state.symm)] at run
  exact ⟨t,run⟩

theorem grantsIdle (idle : ¬ TestState (stateIn E d)) : ∃ t, Quiet d t ∧
    blGetUpdatePartitionInfo E d = .ok (kStatusSuccess,slotPartition (activeSlot E d).other) t := by
  obtain ⟨t,quiet,run⟩ := partitionRuns d (faultless.reads slotsEnd)
  rw [partitionFor,if_neg (fun busy => idle busy.symm)] at run
  exact ⟨t,quiet,run⟩

theorem confirmedState (unset : trailerOf d.flash (activeSlot E d).other = erasedTrailer)
    (awaiting : Awaiting (trailerOf d.flash (activeSlot E d))) : ∃ t,
    blUpdateImageState E SwapType.permanent.code d = .ok kStatusSuccess t ∧
      t.flash = confirmedFlash E d ∧ activeSlot E t = activeSlot E d ∧ stateIn E t = .none := by
  have pending := awaitingPending awaiting
  obtain ⟨t,run,ends⟩ := confirmRuns d faultless awaiting.1
  obtain ⟨remap,flash⟩ := confirmSucceeded ends
  have wrote : t.flash = confirmedFlash E d := by
    rcases flash with ⟨was,_⟩ | ⟨_,wrote⟩
    · exact absurd was (pendingNotConfirmed pending)
    · exact wrote
  have slot : activeSlot E t = activeSlot E d := activeSlotQuiet remap
  refine ⟨t,run,wrote,slot,?_⟩
  have settled : underTest (trailerOf t.flash (activeSlot E d)) ≠ true := by
    intro tested
    have still : Awaiting (trailerOf t.flash (activeSlot E d)) := (underTestExact _ _).mp tested
    rw [wrote,confirmedFlashTrailer] at still
    exact confirmedNotAwaiting (confirmedOfPending pending) still
  have dormant : trailerOf t.flash (activeSlot E d).other = erasedTrailer := by
    rw [wrote,confirmedFlashDormant,unset]
  unfold stateIn
  rw [slot,dormant,erasedState,activeState,if_neg settled]

end Reports

/-! One delivery: whatever the bootloader brings back, the slot that always runs holds the
new image or what it held before. -/

structure OnExchangedTrial (E : Env) (len : Nat) (image : FirmwareImage) (next : Device → Prop)
    (d v : Device) : Prop where
  lodged : Lodged E image (activeSlot E d) v
  reports : Reports E .testing v
  refuses : Refuses E v
  confirms : ∃ w, blUpdateImageState E SwapType.permanent.code v = .ok kStatusSuccess w ∧
    Lodged E image (activeSlot E d) w ∧ Reports E .none w ∧ next w
  reverts : ∀ w, Exchange E len 1 v w →
    Moved len (activeSlot E d).start (activeSlot E d).start d.flash w.flash ∧
    Reports E .none w ∧ next w

def ExchangeDelivery (E : Env) (len : Nat) (image : FirmwareImage) (next : Device → Prop)
    (d : Device) : Prop :=
  ∃ t, blGetUpdatePartitionInfo E d = .ok (kStatusSuccess,slotPartition (activeSlot E d).other) t ∧
  ∀ f, AgreeOff (slotPartition (activeSlot E d).other).start
      (slotPartition (activeSlot E d).other).size t.flash f →
    Stored f (slotPartition (activeSlot E d).other).start image.bytes →
  Lodged E image (activeSlot E d).other {t with flash := f} ∧
  ∃ u, blUpdateImageState E SwapType.readyForTest.code {t with flash := f} = .ok kStatusSuccess u ∧
  Reports E .readyForTest u ∧ Refuses E u ∧
  ∀ v, Exchange E len 0xff u v → OnExchangedTrial E len image next d v

def EachExchanged (E : Env) (len : Nat) : List FirmwareImage → Device → Prop
  | [],_ => True
  | image :: images,d => ExchangeDelivery E len image (EachExchanged E len images) d

section Deliveries

variable {E : Env} {len : Nat} {image : FirmwareImage} {d u v : Device} {next : Device → Prop}
variable (faultless : E.Faultless) (small : len ≤ bodySize)

include faultless small

theorem exchangedTrial (fits : image.bytes.length ≤ len) (slot : activeSlot E u = activeSlot E d)
    (stored : Stored u.flash (activeSlot E d).other.start image.bytes)
    (body : Moved len (activeSlot E d).start (activeSlot E d).start d.flash u.flash)
    (after : ∀ w, stateIn E w = .none → next w) (exchange : Exchange E len 0xff u v) :
    OnExchangedTrial E len image next d v := by
  have same : activeSlot E v = activeSlot E d := (exchangeSlot exchange).trans slot
  have testing : stateIn E v = .testing := (exchangeState exchange).trans (if_pos rfl)
  have unset := exchange.unset
  have awaiting : Awaiting (trailerOf v.flash (activeSlot E u)) :=
    ⟨exchange.candidate,exchange.imageOk⟩
  have brought := exchange.brought
  have kept := exchange.kept
  rw [slot] at brought kept awaiting unset
  have here : Stored v.flash (activeSlot E d).start image.bytes := storedMoved brought fits stored
  refine ⟨lodgedStored faultless here,reportsState faultless testing,
    refusesTest faultless (.inl testing),?_,?_⟩
  · rw [← same] at awaiting unset
    obtain ⟨w,run,wrote,_,none⟩ := confirmedState faultless unset awaiting
    have confirmed := confirmedBody E v
    rw [← wrote,same] at confirmed
    have still := storedBody (Nat.le_trans fits small) confirmed here
    exact ⟨w,run,lodgedStored faultless still,reportsState faultless none,after w none⟩
  · intro w back
    have none : stateIn E w = .none := (exchangeState back).trans (if_neg (by decide))
    have returned := back.brought
    rw [same] at returned
    exact ⟨movedTrans (movedTrans body kept) returned,reportsState faultless none,after w none⟩

variable (swapping : E.build.flashRemapEnable = false)

include swapping

theorem exchangeDelivers (fits : image.bytes.length ≤ len) (idle : ¬ TestState (stateIn E d))
    (after : ∀ w, stateIn E w = .none → next w) : ExchangeDelivery E len image next d := by
  obtain ⟨t,quiet,granted⟩ := grantsIdle faultless idle
  refine ⟨t,granted,?_⟩
  intro f outside written
  obtain ⟨u,run,ends⟩ := testRuns {t with flash := f} faultless
  have first : activeSlot E {t with flash := f} = activeSlot E d := activeSlotQuiet quiet.remap
  obtain ⟨remap,flash⟩ := testSucceeded ends
  rw [first] at flash
  have slot : activeSlot E u = activeSlot E d := (activeSlotQuiet remap).trans first
  have ready : stateIn E u = .readyForTest := by
    unfold stateIn
    rw [slot,flash,markedTrailerOf,markedState,swapping]
    rfl
  have sector : AgreeOff ((activeSlot E d).other.stop - mflashSectorSize) mflashSectorSize
      f u.flash := by
    rw [flash]
    exact rewrittenAgreeOff _ _ _
  have stored : Stored u.flash (activeSlot E d).other.start image.bytes :=
    storedBody (Nat.le_trans fits small) (sectorOutsideBody sector) written
  have body : Moved len (activeSlot E d).start (activeSlot E d).start d.flash u.flash := by
    have inside := lastSectorInside (activeSlot E d).other
    have marked := otherSlotKept sector inside.1 inside.2
    have unwritten := otherSlotKept outside (Nat.le_refl _) (Nat.le_refl _)
    rw [quiet.flash] at unwritten
    exact movedBody small (bodyTrans (bodyOfSlot unwritten) (bodyOfSlot marked))
  exact ⟨lodgedStored faultless written,u,run,reportsState faultless ready,
    refusesTest faultless (.inr ready),
    fun v exchange => exchangedTrial faultless small fits slot stored body after exchange⟩

theorem exchangesDeliver {images : List FirmwareImage}
    (fits : ∀ image ∈ images, image.bytes.length ≤ len)
    {state : SwapType} {t : Device} (idle : blGetImageState E d = .ok (kStatusSuccess,some state) t)
    (free : ¬ TestState state) : EachExchanged E len images d := by
  have start : ¬ TestState (stateIn E d) := by
    rw [stateReported d (faultless.reads slotsEnd) idle]
    exact free
  clear idle free
  induction images generalizing d with
  | nil => trivial
  | cons image images ih =>
    apply exchangeDelivers faultless small swapping (fits image List.mem_cons_self) start
    intro w none
    apply ih (fun next mem => fits next (List.mem_cons_of_mem image mem))
    rw [none]
    simp [TestState]

end Deliveries

theorem blankIdle : stateIn swapBench (holding 0 []) = .none := by decide

theorem exchangesDeliverOnBench :
    EachExchanged swapBench bodySize [smallFirmware,smallFirmware] (holding 0 []) := by
  have faultless : swapBench.Faultless := benchFaultless ⟨false,true,false⟩
  obtain ⟨t,reported⟩ := reportsState faultless blankIdle
  exact exchangesDeliver faultless (Nat.le_refl _) rfl (by decide) reported (by simp [TestState])

/-! Boot after boot with failures. `settled` is the exchange for good that a trailer with
`image_ok` set asks for. A careful client asks for a test in a boot that was granted the
partition, which no boot on trial is. -/

inductive Turn where
  | call (e : Event)
  | restart
  | tried
  | settled
  | reverted
  deriving DecidableEq, Repr

inductive ExchangeStep (E : Env) (len : Nat) (careful : Bool) : Boot → Turn → Boot → Prop where
  | call {s t : Boot} {e : Event} (step : Step E s e t)
      (asks : careful = true → e = .updateImageState SwapType.readyForTest.code → s.granted ≠ []) :
      ExchangeStep E len careful s (.call e) t
  | restart {s : Boot} {d : Device} (remap : d.remap = s.dev.remap) (flash : d.flash = s.dev.flash) :
      ExchangeStep E len careful s .restart ⟨d,[]⟩
  | tried {s : Boot} {d : Device}
      (magic : (trailerOf s.dev.flash (activeSlot E s.dev).other).magic = bootImgMagicBytes)
      (unset : (trailerOf s.dev.flash (activeSlot E s.dev).other).imageOk = 0xff)
      (exchange : Exchange E len 0xff s.dev d) : ExchangeStep E len careful s .tried ⟨d,[]⟩
  | settled {s : Boot} {d : Device}
      (magic : (trailerOf s.dev.flash (activeSlot E s.dev).other).magic = bootImgMagicBytes)
      (set : (trailerOf s.dev.flash (activeSlot E s.dev).other).imageOk = 1)
      (exchange : Exchange E len 1 s.dev d) : ExchangeStep E len careful s .settled ⟨d,[]⟩
  | reverted {s : Boot} {d : Device} (trial : Awaiting (trailerOf s.dev.flash (activeSlot E s.dev)))
      (unasked : (trailerOf s.dev.flash (activeSlot E s.dev).other).magic ≠ bootImgMagicBytes)
      (exchange : Exchange E len 1 s.dev d) : ExchangeStep E len careful s .reverted ⟨d,[]⟩

structure AtHome (E : Env) (len : Nat) (a : Slot) (f : Bytes) (s : Boot) : Prop where
  slot : activeSlot E s.dev = a
  grants : GrantsInactive E s
  body : Moved len a.start a.start f s.dev.flash
  settled : ¬ Awaiting (trailerOf s.dev.flash a)

structure PutAside (E : Env) (len : Nat) (a : Slot) (f : Bytes) (s : Boot) : Prop where
  slot : activeSlot E s.dev = a
  closed : s.granted = []
  body : Moved len a.start a.other.start f s.dev.flash
  awaiting : Awaiting (trailerOf s.dev.flash a)
  unset : trailerOf s.dev.flash a.other = erasedTrailer

section Histories

variable {E : Env} {len : Nat} {a : Slot} {f : Bytes} {s t : Boot} {e : Event}

theorem asideState (aside : PutAside E len a f s) : stateIn E s.dev = .testing := by
  unfold stateIn
  rw [aside.slot,aside.unset,erasedState]
  exact if_pos ((underTestExact _ _).mpr aside.awaiting)

theorem asideSame (aside : PutAside E len a f s) (remap : t.dev.remap = s.dev.remap)
    (flash : t.dev.flash = s.dev.flash) (closed : t.granted = []) : PutAside E len a f t := by
  obtain ⟨slot,_,body,awaiting,unset⟩ := aside
  refine ⟨(activeSlotQuiet remap).trans slot,closed,?_,?_,?_⟩
  all_goals simpa only [flash]

section Calls

variable (unconfirmed : e ≠ .updateImageState SwapType.permanent.code)

include unconfirmed

theorem homeCall (small : len ≤ bodySize) (home : AtHome E len a f s)
    (step : Step E s e t) : AtHome E len a f t := by
  obtain ⟨remap,kept⟩ := callSparesActive unconfirmed home.grants step
  rw [home.slot] at kept
  refine ⟨(activeSlotQuiet remap).trans home.slot,stepGrants home.grants step,
    movedTrans home.body (movedBody small (bodyOfSlot kept)),?_⟩
  rw [slotTrailer kept]
  exact home.settled

theorem asideCall (plain : E.build.pageIntegrityChecks = false)
    (unasked : e ≠ .updateImageState SwapType.readyForTest.code) (aside : PutAside E len a f s)
    (step : Step E s e t) : PutAside E len a f t := by
  -- nothing is granted and nothing asked, so no call writes at all
  cases step with
  | getImageState => exact asideSame aside stateQuiet.remap stateQuiet.flash aside.closed
  | getUpdatePartitionInfo =>
    have none := grantsNothing plain (d := s.dev) (.inl (asideState aside))
    exact asideSame aside partitionQuiet.remap partitionQuiet.flash (by rw [none]; exact aside.closed)
  | verifyImage data size => exact asideSame aside verifyQuiet.remap verifyQuiet.flash aside.closed
  | updateImageState state =>
    have ends := endedLeaves (blUpdateImageStateEnds E s.dev state)
    generalize ending (blUpdateImageState E state) s.dev = o at ends
    generalize leaves (blUpdateImageState E state) s.dev = u at ends ⊢
    cases ends with
    | test asked part => exact absurd (congrArg Event.updateImageState asked) unasked
    | confirm asked part => exact absurd (congrArg Event.updateImageState asked) unconfirmed
    | invalid other => exact asideSame aside rfl rfl aside.closed
  | otaWrite granted inside =>
    rw [aside.closed] at granted
    exact absurd granted List.not_mem_nil

end Calls

section Turns

variable {imageOk : UInt8} {d : Device}

theorem homeExchanged (home : AtHome E len a f s) (exchange : Exchange E len 0xff s.dev d) :
    PutAside E len a f ⟨d,[]⟩ := by
  obtain ⟨remap,brought,kept,candidate,unset,dormant⟩ := exchange
  rw [home.slot] at kept candidate unset dormant
  exact ⟨(activeSlotQuiet remap).trans home.slot,rfl,movedTrans home.body kept,⟨candidate,unset⟩,
    dormant⟩

theorem asideReverted (aside : PutAside E len a f s) (exchange : Exchange E len 1 s.dev d) :
    AtHome E len a f ⟨d,[]⟩ := by
  obtain ⟨remap,brought,kept,candidate,set,dormant⟩ := exchange
  rw [aside.slot] at brought candidate set
  exact ⟨(activeSlotQuiet remap).trans aside.slot,noGrants E d,movedTrans aside.body brought,
    confirmedNotAwaiting ⟨candidate,set⟩⟩

end Turns

def InPlace (E : Env) (len : Nat) (a : Slot) (f : Bytes) (s : Boot) : Prop :=
  AtHome E len a f s ∨ PutAside E len a f s

variable (small : len ≤ bodySize) (plain : E.build.pageIntegrityChecks = false)

include small plain

theorem turnKeeps {e : Turn} (unconfirmed : e ≠ .call (.updateImageState SwapType.permanent.code))
    (unsettled : e ≠ .settled) (place : InPlace E len a f s) (step : ExchangeStep E len true s e t) :
    InPlace E len a f t := by
  rcases place with home | aside
  · cases step with
    | call step asks =>
      exact .inl (homeCall (fun same => unconfirmed (congrArg Turn.call same)) small home step)
    | restart remap flash =>
      obtain ⟨slot,_,body,settled⟩ := home
      refine .inl ⟨(activeSlotQuiet remap).trans slot,noGrants E _,?_,?_⟩
      all_goals simpa only [flash]
    | tried magic unset exchange => exact .inr (homeExchanged home exchange)
    | settled magic set exchange => exact absurd rfl unsettled
    | reverted trial unasked exchange =>
      rw [home.slot] at trial
      exact absurd trial home.settled
  · cases step with
    | call step asks =>
      have unasked := fun same => asks rfl same aside.closed
      exact .inr (asideCall (fun same => unconfirmed (congrArg Turn.call same)) plain unasked aside step)
    | restart remap flash => exact .inr (asideSame aside remap flash rfl)
    | tried magic unset exchange =>
      rw [aside.slot,aside.unset] at magic
      exact absurd magic (by decide)
    | settled magic set exchange => exact absurd rfl unsettled
    | reverted trial unasked exchange => exact .inl (asideReverted aside exchange)

theorem exchangeFallback {d : Device} {es : List Turn}
    (settled : ¬ Awaiting (trailerOf d.flash (activeSlot E d)))
    (run : Steps (ExchangeStep E len true) ⟨d,[]⟩ es t)
    (unconfirmed : .call (.updateImageState SwapType.permanent.code) ∉ es)
    (unsettled : .settled ∉ es) :
    Moved len (activeSlot E d).start (activeSlot E d).start d.flash t.dev.flash ∨
    Moved len (activeSlot E d).start (activeSlot E d).other.start d.flash t.dev.flash ∧
      stateIn E t.dev = .testing ∧ t.granted = [] := by
  have start : InPlace E len (activeSlot E d) d.flash ⟨d,[]⟩ :=
    .inl ⟨rfl,noGrants E d,fun _ _ => rfl,settled⟩
  have place := stepsInvariantAmong
    (fun e => e ≠ .call (.updateImageState SwapType.permanent.code) ∧ e ≠ .settled)
    (InPlace E len (activeSlot E d) d.flash)
    (fun _ _ _ allowed place step => turnKeeps small plain allowed.1 allowed.2 place step) run
    (fun e mem => ⟨fun same => unconfirmed (same ▸ mem),fun same => unsettled (same ▸ mem)⟩) start
  rcases place with home | aside
  · exact .inl home.body
  · exact .inr ⟨aside.body,asideState aside,aside.closed⟩

end Histories

def askForTest : Turn := .call (.updateImageState SwapType.readyForTest.code)

structure TurnedOver (E : Env) (len : Nat) (d v : Device) : Prop where
  slot : activeSlot E v = activeSlot E d
  brought : Moved len (activeSlot E d).other.start (activeSlot E d).start d.flash v.flash
  kept : Moved len (activeSlot E d).start (activeSlot E d).other.start d.flash v.flash
  awaiting : Awaiting (trailerOf v.flash (activeSlot E v))
  unset : trailerOf v.flash (activeSlot E v).other = erasedTrailer

section Trials

variable {E : Env} {len : Nat} (faultless : E.Faultless) (small : len ≤ bodySize)

include faultless small

theorem askedMarks (d : Device) : ∃ u, blUpdateImageState E SwapType.readyForTest.code d =
      .ok kStatusSuccess u ∧ activeSlot E u = activeSlot E d ∧
    trailerOf u.flash (activeSlot E u).other = markedTrailer ∧
    Moved len (activeSlot E d).start (activeSlot E d).start d.flash u.flash ∧
    Moved len (activeSlot E d).other.start (activeSlot E d).other.start d.flash u.flash := by
  obtain ⟨u,run,ends⟩ := testRuns d faultless
  obtain ⟨remap,flash⟩ := testSucceeded ends
  have slot : activeSlot E u = activeSlot E d := activeSlotQuiet remap
  have sector : AgreeOff ((activeSlot E d).other.stop - mflashSectorSize) mflashSectorSize
      d.flash u.flash := by
    rw [flash]
    exact rewrittenAgreeOff _ _ _
  have inside := lastSectorInside (activeSlot E d).other
  refine ⟨u,run,slot,?_,movedBody small (bodyOfSlot (otherSlotKept sector inside.1 inside.2)),
    movedBody small (sectorOutsideBody sector)⟩
  rw [slot,flash,markedTrailerOf]

theorem turnedOver {careful : Bool} {s t : Boot}
    (run : Steps (ExchangeStep E len careful) s [askForTest,.tried] t) :
    TurnedOver E len s.dev t.dev ∧ t.granted = [] := by
  change Steps _ s ([] ++ [askForTest] ++ [.tried]) t at run
  obtain ⟨v,first,tried⟩ := stepsLast run
  obtain ⟨w,none,asked⟩ := stepsLast first
  have start : w = s := by
    generalize empty : [] = es at none
    cases none with
    | nil => rfl
    | snoc => simp at empty
  subst start
  obtain ⟨u,returned,slot,_,here,there⟩ := askedMarks faultless small w.dev
  cases asked with
  | call step _ =>
    cases step with
    | updateImageState _ =>
      cases tried with
      | tried _ _ exchange =>
        rw [leavesReturned returned] at exchange
        obtain ⟨remap,brought,kept,candidate,imageOk,unset⟩ := exchange
        have slot' : activeSlot E _ = activeSlot E u := activeSlotQuiet remap
        rw [← slot'] at candidate imageOk unset
        rw [slot] at brought kept
        exact ⟨⟨slot'.trans slot,movedTrans there brought,movedTrans here kept,
          ⟨candidate,imageOk⟩,unset⟩,rfl⟩

theorem askedAndTried (careful : Bool) (s : Boot) (cared : careful = true → s.granted ≠ []) :
    ∃ v, Steps (ExchangeStep E len careful) s [askForTest,.tried] ⟨v,[]⟩ := by
  obtain ⟨u,returned,_,marked,_⟩ := askedMarks faultless small s.dev
  have asked : ExchangeStep E len careful s askForTest
      {s with dev := leaves (blUpdateImageState E SwapType.readyForTest.code) s.dev} :=
    .call (.updateImageState s _) (fun careful _ => cared careful)
  rw [leavesReturned returned] at asked
  obtain ⟨v,tried⟩ := exchangeExists (E := E) small 0xff (.inr rfl) u
  exact ⟨v,((Steps.nil _).snoc asked).snoc (.tried (by rw [marked]; rfl) (by rw [marked]; rfl) tried)⟩

theorem grantedAndTried {careful : Bool} {d : Device} (idle : ¬ TestState (stateIn E d)) :
    ∃ v, Steps (ExchangeStep E len careful) ⟨d,[]⟩
      (.call .getUpdatePartitionInfo :: [askForTest,.tried]) ⟨v,[]⟩ := by
  obtain ⟨t,quiet,granted⟩ := grantsIdle faultless idle
  have opened : ExchangeStep E len careful ⟨d,[]⟩ (.call .getUpdatePartitionInfo) _ :=
    .call (.getUpdatePartitionInfo _) (fun _ same => by simp at same)
  rw [leavesReturned granted,endingOk granted] at opened
  obtain ⟨v,steps⟩ := askedAndTried faultless small
    careful ⟨t,grantedBy (some (kStatusSuccess,slotPartition (activeSlot E d).other)) ++ []⟩
    (by simp [grantedBy])
  exact ⟨v,stepsAppend ((Steps.nil _).snoc opened) steps⟩

end Trials

def nextFirmware : FirmwareImage :=
  {smallFirmware with version := ⟨1,0,2,8⟩, body := List.replicate 12 0xaa}

/-- The small firmware runs, the next one lies in the other slot. -/
def twoImages : Device where
  flash := overlay (holding Slot.primary.start smallFirmware.bytes).flash Slot.secondary.start
    nextFirmware.bytes.length (fun i => nextFirmware.bytes.getD i 0xff)
  remap := 0
  tmpBuf := fun _ => 0
  calls := []

theorem twoImagesStored : Stored twoImages.flash Slot.primary.start smallFirmware.bytes ∧
    Stored twoImages.flash Slot.secondary.start nextFirmware.bytes := by
  unfold Stored
  decide +kernel

theorem exchangeFallbackOnBench : ∃ t es,
    Steps (ExchangeStep swapBench bodySize true) ⟨twoImages,[]⟩ es t ∧ .tried ∈ es ∧
    (Moved bodySize (activeSlot swapBench twoImages).start (activeSlot swapBench twoImages).start
        twoImages.flash t.dev.flash ∨
      Moved bodySize (activeSlot swapBench twoImages).start
        (activeSlot swapBench twoImages).other.start twoImages.flash t.dev.flash ∧
      stateIn swapBench t.dev = .testing ∧ t.granted = []) := by
  have faultless : swapBench.Faultless := benchFaultless ⟨false,true,false⟩
  have idle : stateIn swapBench twoImages = .none := by decide +kernel
  obtain ⟨v,steps⟩ := grantedAndTried faultless (Nat.le_refl _) (d := twoImages)
    (by rw [idle]; simp [TestState])
  have apart : SwapType.permanent.code ≠ SwapType.readyForTest.code := by decide
  exact ⟨_,_,steps,by simp,exchangeFallback (Nat.le_refl _) rfl (by decide +kernel) steps
    (by simp [askForTest,apart]) (by simp [askForTest])⟩

/-! Without that care: a test asked for on trial tries the first image, and giving it up then
settles the one that nobody confirmed and opens the slot of the first. -/

def careless : List Turn := [askForTest,.tried,askForTest,.tried,.reverted]

structure ChangedPlaces (E : Env) (len : Nat) (d t : Device) : Prop where
  aside : Moved len (activeSlot E d).start (activeSlot E d).other.start d.flash t.flash
  settled : Moved len (activeSlot E d).other.start (activeSlot E d).start d.flash t.flash
  reports : Reports E .none t
  granted : ∃ u, blGetUpdatePartitionInfo E t =
    .ok (kStatusSuccess,slotPartition (activeSlot E d).other) u

section Careless

variable {E : Env} {len : Nat} (faultless : E.Faultless) (small : len ≤ bodySize)

include faultless small

theorem carelessRuns (d : Device) : ∃ t, Steps (ExchangeStep E len false) ⟨d,[]⟩ careless t := by
  obtain ⟨u,first⟩ := askedAndTried faultless small false ⟨d,[]⟩ (by simp)
  obtain ⟨v,second⟩ := askedAndTried faultless small false ⟨u,[]⟩ (by simp)
  have again := (turnedOver faultless small second).1
  obtain ⟨w,reverted⟩ := exchangeExists (E := E) small 1 (.inl rfl) v
  have unasked : (trailerOf v.flash (activeSlot E v).other).magic ≠ bootImgMagicBytes := by
    rw [again.unset]
    decide
  exact ⟨⟨w,[]⟩,(stepsAppend first second).snoc (.reverted again.awaiting unasked reverted)⟩

theorem carelessLoses (d : Device) : (∃ t, Steps (ExchangeStep E len false) ⟨d,[]⟩ careless t) ∧
    ∀ t, Steps (ExchangeStep E len false) ⟨d,[]⟩ careless t → ChangedPlaces E len d t.dev := by
  refine ⟨carelessRuns faultless small d,?_⟩
  intro t run
  change Steps _ _ ([askForTest,.tried] ++ [askForTest,.tried] ++ [.reverted]) t at run
  obtain ⟨v,trials,last⟩ := stepsLast run
  obtain ⟨u,one,two⟩ := stepsSplit trials
  have first := (turnedOver faultless small one).1
  have second := (turnedOver faultless small two).1
  cases last with
  | reverted trial unasked exchange =>
    have none : stateIn E _ = .none := (exchangeState exchange).trans (if_neg (by decide))
    obtain ⟨x,_,granted⟩ := grantsIdle faultless (by rw [none]; simp [TestState])
    have slot := second.slot.trans first.slot
    have brought := exchange.brought
    have kept := exchange.kept
    have forth := second.kept
    have back := second.brought
    rw [exchangeSlot exchange,slot] at granted
    rw [slot] at brought kept
    rw [first.slot] at forth back
    exact ⟨movedTrans (movedTrans first.kept back) kept,
      movedTrans (movedTrans first.brought forth) brought,reportsState faultless none,x,granted⟩

end Careless

theorem carelessLosesOnBench : ∃ t,
    Steps (ExchangeStep swapBench bodySize false) ⟨twoImages,[]⟩ careless t ∧
    ChangedPlaces swapBench bodySize twoImages t.dev ∧
    Stored t.dev.flash Slot.primary.start nextFirmware.bytes ∧
    Stored t.dev.flash Slot.secondary.start smallFirmware.bytes := by
  obtain ⟨⟨t,run⟩,every⟩ := @carelessLoses swapBench bodySize (benchFaultless ⟨false,true,false⟩)
    (Nat.le_refl _) twoImages
  have changed := every t run
  have slot : activeSlot swapBench twoImages = .primary := by decide
  have aside := changed.aside
  have settled := changed.settled
  rw [slot] at aside settled
  exact ⟨t,run,changed,storedMoved settled (by decide) twoImagesStored.2,
    storedMoved aside (by decide) twoImagesStored.1⟩

end AkNano.Exchanges
