import AkNano.Memory
import AkNano.Interrupted

/-! The platform under `mcuboot_app_support.c`: build switches, flash partitioning,
status codes and the mflash driver. The driver is SDK code, so each of its calls
is an attempt whose outcome the environment decides from the calls made so far,
latest first. A failing call reports an error and may leave garbage in the range it
was to fill: the destination of a read, the sector of an erase, the page of a program.
A power cut comes before the call takes effect. Reads demand word alignment of
address, destination and length; `tmp_buf` is an array of words. An environment also
fixes where the locals lie and what they hold before they are written. -/
namespace AkNano.Platform
open Memory Interrupted

abbrev Bytes := Nat → UInt8

def u32 (n : Nat) : Nat := n % 4294967296

theorem u32Small {n : Nat} (h : n < 4294967296) : u32 n = n := Nat.mod_eq_of_lt h

theorem u32Bound (n : Nat) : u32 n < 4294967296 := Nat.mod_lt _ (by decide)

theorem u32Add (a b : Nat) : u32 (u32 a + b) = u32 (a + b) := by unfold u32; omega

inductive BoardModel where
  | rt1060 | rt1170
  deriving DecidableEq, Repr

def bootFlashBase : BoardModel → Nat
  | .rt1060 => 0x60000000
  | .rt1170 => 0x30000000

def bootFlashActApp : BoardModel → Nat
  | .rt1060 => 0x60040000
  | .rt1170 => 0x30040000

def bootFlashCandApp : BoardModel → Nat
  | .rt1060 => 0x60240000
  | .rt1170 => 0x30240000

def flashAreaImage1Offset (b : BoardModel) : Nat := bootFlashActApp b - bootFlashBase b
def flashAreaImage1Size (b : BoardModel) : Nat := bootFlashCandApp b - bootFlashActApp b
def flashAreaImage2Offset (b : BoardModel) : Nat := flashAreaImage1Offset b + flashAreaImage1Size b
def flashAreaImage2Size (b : BoardModel) : Nat := flashAreaImage1Size b

def mflashSectorSize : Nat := 4096
def mflashPageSize : Nat := 256

abbrev Status := Int
def kStatusSuccess : Status := 0
def kStatusFail : Status := 1
def kStatusInvalidArgument : Status := 4
def kStatusNoData : Status := 8

structure Build where
  flashRemapEnable : Bool
  flashRemapDowngradeSupport : Bool
  pageIntegrityChecks : Bool
  deriving DecidableEq, Repr

/-- The header sets `CONFIG_MCUBOOT_FLASH_REMAP_ENABLE` and `CMakeLists.txt` the
downgrade support; no build file asks for page integrity checks. -/
def Build.shipped : Build := ⟨true,true,false⟩

inductive Dest where
  | tmpBuf
  | buffer (p : Nat)
  deriving DecidableEq, Repr

def Dest.pointer : Dest → Nat
  | .tmpBuf => 0
  | .buffer p => p

inductive Call where
  | read (addr : Nat) (dst : Dest) (len : Nat)
  | isReadable (addr : Nat)
  | phys2log (addr len : Nat)
  | sectorErase (addr : Nat)
  | pageProgram (addr : Nat)
  deriving DecidableEq, Repr

def Call.reads : Call → Bool
  | .read .. | .isReadable _ | .phys2log .. => true
  | .sectorErase _ | .pageProgram _ => false

def Call.limit : Call → Nat
  | .read addr _ len => addr + len
  | .isReadable addr => addr + 1
  | .phys2log addr len => addr + len
  | .sectorErase addr => addr + mflashSectorSize
  | .pageProgram addr => addr + mflashPageSize

abbrev ErrorStatus := {st : Status // st ≠ kStatusSuccess}

theorem failIsError : kStatusFail ≠ kStatusSuccess := by decide

inductive Outcome where
  | done
  | failed (status : ErrorStatus) (garbage : Option Bytes)
  | powerCut

structure Device where
  flash : Bytes
  remap : UInt32
  tmpBuf : Bytes
  calls : List Call

def Device.log (d : Device) (c : Call) : Device := {d with calls := c :: d.calls}

def Device.wrote (d : Device) (cs : List Call) (flash : Bytes) : Device :=
  {d with calls := cs ++ d.calls, flash := flash}

@[simp] theorem wroteFlash (d : Device) (cs : List Call) (f : Bytes) : (d.wrote cs f).flash = f := rfl
@[simp] theorem wroteRemap (d : Device) (cs : List Call) (f : Bytes) :
    (d.wrote cs f).remap = d.remap := rfl
@[simp] theorem wroteCalls (d : Device) (cs : List Call) (f : Bytes) :
    (d.wrote cs f).calls = cs ++ d.calls := rfl

theorem wroteTwice (d : Device) (as bs : List Call) (f g : Bytes) :
    (d.wrote as f).wrote bs g = d.wrote (bs ++ as) g := by
  simp [Device.wrote,List.append_assoc]

structure Env where
  build : Build
  board : BoardModel
  mainAddr : Nat
  stack : Bytes
  buf : Nat
  bufAligned : buf % 4 = 0
  imageTrailer1 : Nat
  imageTrailer2 : Nat
  outcome : List Call → Call → Outcome

inductive PowerCut where
  | mk
  deriving DecidableEq, Repr

abbrev Fw := EStateM PowerCut Device

section Environment

variable (E : Env)

def Env.Faultless : Prop := ∀ calls c, E.outcome calls c = .done

def Env.ReadsSucceed (limit : Nat) : Prop :=
  ∀ calls c, c.reads = true → c.limit ≤ limit → E.outcome calls c = .done

def Env.NoCut : Prop := ∀ calls c, E.outcome calls c ≠ .powerCut

def Env.Clean : Prop := ∀ calls c status garbage,
  E.outcome calls c = .failed status garbage → garbage = none

def Env.Genuine : Prop := E.build.pageIntegrityChecks = true → E.Faultless

def Env.ReadFault (limit : Nat) : Prop :=
  ∃ calls c, c.reads = true ∧ c.limit ≤ limit ∧ E.outcome calls c ≠ .done

def Env.withoutFaults : Env := {E with outcome := fun _ _ => .done}

theorem withoutFaultsFaultless : E.withoutFaults.Faultless := fun _ _ => rfl

variable {E}

theorem Env.Faultless.reads (h : E.Faultless) (limit : Nat) : E.ReadsSucceed limit :=
  fun calls c _ _ => h calls c

theorem Env.Faultless.clean (h : E.Faultless) : E.Clean := by
  intro calls c status garbage bad
  rw [h calls c] at bad
  contradiction

theorem Env.Faultless.noCut (h : E.Faultless) : E.NoCut := by
  intro calls c bad
  rw [h calls c] at bad
  contradiction

theorem Env.ReadsSucceed.noFault {limit : Nat} (h : E.ReadsSucceed limit) : ¬ E.ReadFault limit := by
  rintro ⟨calls,c,read,below,bad⟩
  exact bad (h calls c read below)

end Environment

def scribble (m : Bytes) (p len : Nat) : Option Bytes → Bytes
  | none => m
  | some g => overlay m p len g

theorem scribbleAgreeOff (m : Bytes) (p len : Nat) (g : Option Bytes) :
    AgreeOff p len m (scribble m p len g) := by
  cases g with
  | none => exact agreeOffRefl p len m
  | some g => exact agreeOffOverlay m p len g

def mflashDrvRead (E : Env) (addr : Nat) (dst : Dest) (mem : Bytes) (len : Nat) :
    Fw (Status × Bytes) := fun d =>
  let c := Call.read addr dst len
  if addr % 4 = 0 ∧ dst.pointer % 4 = 0 ∧ len % 4 = 0 then
    match E.outcome d.calls c with
    | .done => .ok (kStatusSuccess,overlay mem dst.pointer len (fun i => d.flash (addr + i))) (d.log c)
    | .failed st g => .ok (st.val,scribble mem dst.pointer len g) (d.log c)
    | .powerCut => .error .mk (d.log c)
  else .ok (kStatusInvalidArgument,mem) (d.log c)

def mflashDrvIsReadable (E : Env) (addr : Nat) : Fw Status := fun d =>
  let c := Call.isReadable addr
  match E.outcome d.calls c with
  | .done => .ok kStatusSuccess (d.log c)
  | .failed st _ => .ok st.val (d.log c)
  | .powerCut => .error .mk (d.log c)

def mflashDrvPhys2log (E : Env) (addr len : Nat) : Fw (Option Nat) := fun d =>
  let c := Call.phys2log addr len
  match E.outcome d.calls c with
  | .done => .ok (some addr) (d.log c)
  | .failed _ _ => .ok none (d.log c)
  | .powerCut => .error .mk (d.log c)

def mflashDrvSectorErase (E : Env) (addr : Nat) : Fw Status := fun d =>
  let c := Call.sectorErase addr
  if addr % mflashSectorSize = 0 then
    match E.outcome d.calls c with
    | .done => .ok kStatusSuccess {d.log c with flash := erase d.flash addr mflashSectorSize 0xff}
    | .failed st g => .ok st.val {d.log c with flash := scribble d.flash addr mflashSectorSize g}
    | .powerCut => .error .mk (d.log c)
  else .ok kStatusInvalidArgument (d.log c)

def mflashDrvPageProgram (E : Env) (addr : Nat) (data : Bytes) : Fw Status := fun d =>
  let c := Call.pageProgram addr
  if addr % mflashPageSize = 0 then
    match E.outcome d.calls c with
    | .done => .ok kStatusSuccess {d.log c with flash := program d.flash addr mflashPageSize data}
    | .failed st g => .ok st.val {d.log c with flash := scribble d.flash addr mflashPageSize g}
    | .powerCut => .error .mk (d.log c)
  else .ok kStatusInvalidArgument (d.log c)

structure Torn (E : Env) (p len : Nat) (m n : Bytes) : Prop where
  confined : AgreeOff p len m n
  clean : E.Clean → n = m

theorem tornScribble {E : Env} {calls : List Call} {c : Call} {st : ErrorStatus} {g : Option Bytes}
    (h : E.outcome calls c = .failed st g) (m : Bytes) (p len : Nat) :
    Torn E p len m (scribble m p len g) := by
  refine ⟨scribbleAgreeOff m p len g,?_⟩
  intro clean
  rw [clean calls c st g h]
  rfl

inductive EraseEnd (E : Env) (d : Device) (addr : Nat) : Option Status → Device → Prop where
  | done (ok : E.outcome d.calls (.sectorErase addr) = .done) :
      EraseEnd E d addr (some kStatusSuccess)
        (d.wrote [.sectorErase addr] (erase d.flash addr mflashSectorSize 0xff))
  | failed {st flash} (bad : st ≠ kStatusSuccess)
      (fault : E.outcome d.calls (.sectorErase addr) ≠ .done)
      (torn : Torn E addr mflashSectorSize d.flash flash) :
      EraseEnd E d addr (some st) (d.wrote [.sectorErase addr] flash)
  | cut (fault : E.outcome d.calls (.sectorErase addr) = .powerCut) :
      EraseEnd E d addr none (d.wrote [.sectorErase addr] d.flash)

theorem sectorEraseEnds (E : Env) {addr : Nat} (aligned : addr % mflashSectorSize = 0) (d : Device) :
    Ended (mflashDrvSectorErase E addr) d (EraseEnd E d addr) := by
  unfold Ended Ends mflashDrvSectorErase
  simp only [aligned,if_true]
  cases h : E.outcome d.calls (.sectorErase addr) with
  | done => exact .done h
  | failed st g => exact .failed st.property (by rw [h]; simp) (tornScribble h _ _ _)
  | powerCut => exact .cut h

inductive ProgramEnd (E : Env) (d : Device) (addr : Nat) (data : Bytes) :
    Option Status → Device → Prop where
  | done (ok : E.outcome d.calls (.pageProgram addr) = .done) :
      ProgramEnd E d addr data (some kStatusSuccess)
        (d.wrote [.pageProgram addr] (program d.flash addr mflashPageSize data))
  | failed {st flash} (bad : st ≠ kStatusSuccess)
      (fault : E.outcome d.calls (.pageProgram addr) ≠ .done)
      (torn : Torn E addr mflashPageSize d.flash flash) :
      ProgramEnd E d addr data (some st) (d.wrote [.pageProgram addr] flash)
  | cut (fault : E.outcome d.calls (.pageProgram addr) = .powerCut) :
      ProgramEnd E d addr data none (d.wrote [.pageProgram addr] d.flash)

theorem pageProgramEnds (E : Env) {addr : Nat} (aligned : addr % mflashPageSize = 0) (data : Bytes)
    (d : Device) : Ended (mflashDrvPageProgram E addr data) d (ProgramEnd E d addr data) := by
  unfold Ended Ends mflashDrvPageProgram
  simp only [aligned,if_true]
  cases h : E.outcome d.calls (.pageProgram addr) with
  | done => exact .done h
  | failed st g => exact .failed st.property (by rw [h]; simp) (tornScribble h _ _ _)
  | powerCut => exact .cut h

theorem pageProgramCongr (E : Env) (addr : Nat) {data data' : Bytes}
    (same : ∀ i, i < mflashPageSize → data i = data' i) :
    mflashDrvPageProgram E addr data = mflashDrvPageProgram E addr data' := by
  have equal : ∀ m, program m addr mflashPageSize data = program m addr mflashPageSize data' :=
    fun m => overlayCongr _ _ _ (fun i inside => by rw [same i inside])
  funext d
  simp only [mflashDrvPageProgram,equal]

/-- A board on the bench: locals at fixed places, a flash erased but for `bytes` at `p`. -/
def bench (build : Build) (outcome : List Call → Call → Outcome) : Env :=
  ⟨build,.rt1060,bootFlashActApp .rt1060 + 1,fun _ => 0,0,rfl,0,40,outcome⟩

def allDone : List Call → Call → Outcome := fun _ _ => .done

theorem benchFaultless (build : Build) : (bench build allDone).Faultless := fun _ _ => rfl

theorem benchGenuine (outcome : List Call → Call → Outcome) :
    (bench Build.shipped outcome).Genuine := fun checks => absurd checks Bool.false_ne_true

abbrev shippedBench : Env := bench Build.shipped allDone

abbrev swapBench : Env := bench ⟨false,true,false⟩ allDone

def failsOnce (first : Call) (garbage : Option Bytes) (calls : List Call) (c : Call) : Outcome :=
  if c = first ∧ c ∉ calls then .failed ⟨kStatusFail,failIsError⟩ garbage else .done

theorem failsOnceClean (build : Build) (first : Call) : (bench build (failsOnce first none)).Clean := by
  intro calls c status garbage failed
  change failsOnce first none calls c = _ at failed
  unfold failsOnce at failed
  split at failed
  case isTrue => cases failed; rfl
  case isFalse => contradiction

def holding (p : Nat) (bytes : List UInt8) : Device :=
  ⟨overlay (fun _ => 0xff) p bytes.length (fun i => bytes.getD i 0xff),0,fun _ => 0,[]⟩

end AkNano.Platform
