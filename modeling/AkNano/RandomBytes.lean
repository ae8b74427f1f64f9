import AkNano.Platform
import AkNano.Attempts

/-! `aknano_cli_gen_random_bytes`, once for each board. The TRNG and CAAM drivers are SDK code:
each call is an attempt that fills its buffer, or fails and may leave garbage in it. Both
bodies are held to one contract, over every sequence of calls since boot. -/
namespace AkNano.RandomBytes
open Memory Interrupted Platform Attempts

inductive SampleMode where
  | vonNeumann | raw | vonNeumannRaw
  deriving DecidableEq, Repr

inductive HwCall where
  | trngGetDefaultConfig
  | trngInit (mode : SampleMode)
  | trngGetRandomData (output size : Nat)
  | caamInit
  | caamRngGetRandomData (output size : Nat)
  deriving DecidableEq, Repr

inductive HwOutcome where
  | done (data : Bytes)
  | failed (status : ErrorStatus) (garbage : Option Bytes)

abbrev Hardware := List HwCall → HwCall → HwOutcome

def HwCall.inits : HwCall → Bool
  | .trngInit _ | .caamInit => true
  | .trngGetDefaultConfig | .trngGetRandomData .. | .caamRngGetRandomData .. => false

def HwCall.generates : HwCall → Option (Nat × Nat)
  | .trngGetRandomData output size | .caamRngGetRandomData output size => some (output,size)
  | .trngGetDefaultConfig | .trngInit _ | .caamInit => none

def HwOutcome.status : HwOutcome → Status
  | .done _ => kStatusSuccess
  | .failed st _ => st.val

def HwOutcome.fill (mem : Bytes) (output size : Nat) : HwOutcome → Bytes
  | .done data => overlay mem output size data
  | .failed _ garbage => scribble mem output size garbage

structure Rng where
  randomInitialized : Bool
  calls : List HwCall

def Rng.boot : Rng := ⟨false,[]⟩

def hwCall (H : Hardware) (c : HwCall) : StateM Rng HwOutcome := fun s =>
  (H s.calls c,{s with calls := c :: s.calls})

def genRandomBytesTrng (H : Hardware) (output size : Nat) (mem : Bytes) :
    StateM Rng (Status × Bytes) := do
  let config ← hwCall H .trngGetDefaultConfig
  if config.status ≠ kStatusSuccess then pure (config.status,mem)
  else do
    let init ← hwCall H (.trngInit .vonNeumann)
    if init.status ≠ kStatusSuccess then pure (init.status,mem)
    else do
      let random ← hwCall H (.trngGetRandomData output size)
      if random.status ≠ kStatusSuccess then pure (random.status,random.fill mem output size)
      else pure (kStatusSuccess,random.fill mem output size)

def rngExampleRandomBytes : Nat := 16

def initRandom (H : Hardware) : StateM Rng PUnit := do
  -- a failed initialisation is only logged
  let _ ← hwCall H .caamInit
  pure ⟨⟩

def genRandomBytesCaam (H : Hardware) (output _size : Nat) (mem : Bytes) :
    StateM Rng (Status × Bytes) := do
  let s ← get
  if s.randomInitialized = false then
    initRandom H
    modify (fun s => {s with randomInitialized := true})
  let random ← hwCall H (.caamRngGetRandomData output rngExampleRandomBytes)
  pure (kStatusSuccess,random.fill mem output rngExampleRandomBytes)

def aknanoCliGenRandomBytes (b : BoardModel) (H : Hardware) (output size : Nat) (mem : Bytes) :
    StateM Rng (Status × Bytes) :=
  match b with
  | .rt1060 => genRandomBytesTrng H output size mem
  | .rt1170 => genRandomBytesCaam H output size mem

structure Request where
  output : Nat
  size : Nat
  mem : Bytes

def serve (b : BoardModel) (H : Hardware) (s : Rng) (q : Request) : (Status × Bytes) × Rng :=
  aknanoCliGenRandomBytes b H q.output q.size q.mem s

inductive Serves (b : BoardModel) (H : Hardware) : Rng → Request → Rng → Prop where
  | mk (s : Rng) (q : Request) : Serves b H s q (serve b H s q).2

/-! The contract. `cs` are the hardware calls made on behalf of the request. -/

def Initialised (H : Hardware) (calls : List HwCall) : Prop :=
  ∃ c data, c.inits = true ∧ (c,.done data) ∈ answers H [] calls.reverse

def Generated (H : Hardware) (log cs : List HwCall) (output size : Nat) (data : Bytes) : Prop :=
  ∃ c, c.generates = some (output,size) ∧ (c,.done data) ∈ answers H log cs

def GenerationFailed (H : Hardware) (log cs : List HwCall) : Prop :=
  ∃ c st garbage, c.generates.isSome = true ∧ (c,.failed st garbage) ∈ answers H log cs

structure Contract (b : BoardModel) (H : Hardware) (s : Rng) (q : Request) (cs : List HwCall) :
    Prop where
  issued : (serve b H s q).2.calls = cs.reverse ++ s.calls
  success : (serve b H s q).1.1 = kStatusSuccess → ∃ data,
    Generated H s.calls cs q.output q.size data ∧
    (serve b H s q).1.2 = overlay q.mem q.output q.size data
  failure : ¬ Initialised H (serve b H s q).2.calls ∨ GenerationFailed H s.calls cs →
    (serve b H s q).1.1 ≠ kStatusSuccess

def KeepsContract (b : BoardModel) (H : Hardware) (s : Rng) (q : Request) : Prop :=
  ∃ cs, Contract b H s q cs

section Boards

variable {H : Hardware} {s : Rng} {q : Request}

theorem doneStatus {o : HwOutcome} (ok : o.status = kStatusSuccess) : ∃ data, o = .done data := by
  cases o with
  | done data => exact ⟨data,rfl⟩
  | failed st garbage => exact absurd ok st.property

theorem hwCallThen {α : Type} (H : Hardware) (c : HwCall) (k : HwOutcome → StateM Rng α) (s : Rng) :
    (hwCall H c >>= k) s = k (H s.calls c) {s with calls := c :: s.calls} := rfl

theorem contractFailed {b : BoardModel} (cs : List HwCall)
    (issued : (serve b H s q).2.calls = cs.reverse ++ s.calls)
    (failed : (serve b H s q).1.1 ≠ kStatusSuccess) : KeepsContract b H s q :=
  ⟨cs,issued,fun ok => absurd ok failed,fun _ => failed⟩

theorem initialisedSince {calls cs : List HwCall} {c : HwCall} {data : Bytes} (inits : c.inits = true)
    (mem : (c,.done data) ∈ answers H calls cs) : Initialised H (cs.reverse ++ calls) := by
  refine ⟨c,data,inits,?_⟩
  rw [List.reverse_append,List.reverse_reverse,answersAppend,List.reverse_reverse,List.append_nil]
  exact List.mem_append_right _ mem

def trngCalls (q : Request) : List HwCall :=
  [.trngGetDefaultConfig,.trngInit .vonNeumann,.trngGetRandomData q.output q.size]

theorem trngDone {seed data : Bytes}
    (answered : answers H s.calls (trngCalls q) =
      [(.trngGetDefaultConfig,H s.calls .trngGetDefaultConfig),(.trngInit .vonNeumann,.done seed),
        (.trngGetRandomData q.output q.size,.done data)])
    (issued : (serve .rt1060 H s q).2.calls = (trngCalls q).reverse ++ s.calls)
    (filled : (serve .rt1060 H s q).1.2 = overlay q.mem q.output q.size data) :
    KeepsContract .rt1060 H s q := by
  refine ⟨trngCalls q,issued,fun _ => ⟨data,⟨.trngGetRandomData q.output q.size,rfl,?_⟩,filled⟩,?_⟩
  · rw [answered]
    simp
  · rintro (uninitialised | ⟨c,st,garbage,generates,mem⟩)
    · have done : (HwCall.trngInit .vonNeumann,HwOutcome.done seed) ∈
          answers H s.calls (trngCalls q) := by rw [answered]; simp
      rw [issued] at uninitialised
      exact absurd (initialisedSince rfl done) uninitialised
    · rw [answered] at mem
      simp only [List.mem_cons,Prod.mk.injEq,reduceCtorEq,and_false,or_false,List.not_mem_nil] at mem
      rw [mem.1] at generates
      exact absurd generates (by simp [HwCall.generates])

theorem trngContract (H : Hardware) (s : Rng) (q : Request) : KeepsContract .rt1060 H s q := by
  have result : serve .rt1060 H s q = genRandomBytesTrng H q.output q.size q.mem s := rfl
  rw [genRandomBytesTrng,hwCallThen] at result
  split at result
  case isTrue bad =>
    exact contractFailed [.trngGetDefaultConfig] (by rw [result]; rfl) (by rw [result]; exact bad)
  case isFalse config =>
    rw [hwCallThen] at result
    split at result
    case isTrue bad =>
      exact contractFailed [.trngGetDefaultConfig,.trngInit .vonNeumann] (by rw [result]; rfl)
        (by rw [result]; exact bad)
    case isFalse init =>
      rw [hwCallThen] at result
      split at result
      case isTrue bad =>
        exact contractFailed (trngCalls q) (by rw [result]; rfl) (by rw [result]; exact bad)
      case isFalse random =>
        obtain ⟨seed,init⟩ := doneStatus (not_not.mp init)
        obtain ⟨data,random⟩ := doneStatus (not_not.mp random)
        have answered : answers H s.calls (trngCalls q) =
            [(.trngGetDefaultConfig,H s.calls .trngGetDefaultConfig),(.trngInit .vonNeumann,.done seed),
              (.trngGetRandomData q.output q.size,.done data)] := by
          rw [← init,← random]
          rfl
        exact trngDone answered (by rw [result]; rfl) (by rw [result,random]; rfl)

def caamLog (s : Rng) : List HwCall := if s.randomInitialized then s.calls else .caamInit :: s.calls

def caamGenerate (q : Request) : HwCall := .caamRngGetRandomData q.output rngExampleRandomBytes

theorem caamResult (H : Hardware) (s : Rng) (q : Request) : serve .rt1170 H s q =
    ((kStatusSuccess,(H (caamLog s) (caamGenerate q)).fill q.mem q.output rngExampleRandomBytes),
      ⟨true,caamGenerate q :: caamLog s⟩) := by
  obtain ⟨initialised,calls⟩ := s
  cases initialised with
  | false => rfl
  | true => rfl

def caamCalls (s : Rng) (q : Request) : List HwCall :=
  if s.randomInitialized then [caamGenerate q] else [.caamInit,caamGenerate q]

theorem caamIssued (H : Hardware) (s : Rng) (q : Request) :
    (serve .rt1170 H s q).2.calls = (caamCalls s q).reverse ++ s.calls := by
  rw [caamResult]
  unfold caamLog caamCalls
  split <;> rfl

theorem caamGenerates (H : Hardware) (s : Rng) (q : Request) :
    (caamGenerate q,H (caamLog s) (caamGenerate q)) ∈ answers H s.calls (caamCalls s q) ∧
    ∀ a ∈ answers H s.calls (caamCalls s q), a.1.generates.isSome = true →
      a = (caamGenerate q,H (caamLog s) (caamGenerate q)) := by
  unfold caamCalls caamLog
  split
  case isTrue => simp [answers]
  case isFalse =>
    simp only [answers,List.mem_cons,List.not_mem_nil,or_false,or_true,true_and]
    rintro a (rfl | same) generates
    · exact absurd generates (by simp [HwCall.generates])
    · exact same

def CaamStarted (H : Hardware) : Prop := ∃ data, H [] .caamInit = .done data

structure CaamLogged (H : Hardware) (s : Rng) : Prop where
  fresh : s.randomInitialized = false → s.calls = []
  started : s.randomInitialized = true → (Initialised H s.calls ↔ CaamStarted H)

theorem initialisedGenerate (H : Hardware) (q : Request) (calls : List HwCall) :
    Initialised H (caamGenerate q :: calls) ↔ Initialised H calls := by
  unfold Initialised
  rw [List.reverse_cons,answersAppend]
  constructor
  · rintro ⟨c,data,inits,mem⟩
    rcases List.mem_append.mp mem with before | last
    · exact ⟨c,data,inits,before⟩
    · have call : c = caamGenerate q := (Prod.mk.inj (List.mem_singleton.mp last)).1
      rw [call] at inits
      exact absurd inits (by simp [caamGenerate,HwCall.inits])
  · rintro ⟨c,data,inits,mem⟩
    exact ⟨c,data,inits,List.mem_append_left _ mem⟩

theorem caamLogInitialised (logged : CaamLogged H s) :
    Initialised H (caamLog s) ↔ CaamStarted H := by
  unfold caamLog
  split
  case isTrue on => exact logged.started on
  case isFalse off =>
    rw [logged.fresh (by simpa using off)]
    constructor
    · rintro ⟨c,data,_,mem⟩
      obtain ⟨rfl,answer⟩ := Prod.mk.inj (List.mem_singleton.mp mem)
      exact ⟨data,answer.symm⟩
    · rintro ⟨data,answer⟩
      refine ⟨.caamInit,data,rfl,?_⟩
      rw [← answer]
      exact List.mem_singleton.mpr rfl

theorem caamKeepsLog {t : Rng} (logged : CaamLogged H s) (step : Serves .rt1170 H s q t) :
    CaamLogged H t := by
  cases step
  rw [caamResult]
  refine ⟨fun off => absurd off (by simp),fun _ => ?_⟩
  rw [initialisedGenerate]
  exact caamLogInitialised logged

theorem caamReachable {qs : List Request} (run : Steps (Serves .rt1170 H) Rng.boot qs s) :
    CaamLogged H s :=
  stepsInvariant (CaamLogged H) (fun _ _ _ logged step => caamKeepsLog logged step) run
    ⟨fun _ => rfl,fun on => absurd on (by decide)⟩

def CaamGenerates (H : Hardware) (s : Rng) (q : Request) : Prop :=
  ∃ data, H (caamLog s) (caamGenerate q) = .done data

theorem caamContract (logged : CaamLogged H s) : KeepsContract .rt1170 H s q ↔
    q.size = rngExampleRandomBytes ∧ CaamStarted H ∧ CaamGenerates H s q := by
  have success : (serve .rt1170 H s q).1.1 = kStatusSuccess := by rw [caamResult]
  have started : Initialised H (serve .rt1170 H s q).2.calls ↔ CaamStarted H := by
    rw [caamResult,initialisedGenerate]
    exact caamLogInitialised logged
  obtain ⟨made,only⟩ := caamGenerates H s q
  constructor
  · rintro ⟨cs,contract⟩
    have calls : cs = caamCalls s q := List.reverse_inj.mp
      (List.append_cancel_right (contract.issued.symm.trans (caamIssued H s q)))
    obtain ⟨data,⟨c,range,mem⟩,_⟩ := contract.success success
    rw [calls] at mem
    have call := only _ mem (by rw [range]; rfl)
    obtain ⟨rfl,answer⟩ := Prod.mk.inj call
    refine ⟨(Prod.mk.inj (Option.some.inj range)).2.symm,?_,data,answer.symm⟩
    exact started.mp (not_not.mp (fun not => contract.failure (.inl not) success))
  · rintro ⟨size,init,data,answer⟩
    refine ⟨caamCalls s q,caamIssued H s q,fun _ => ⟨data,⟨caamGenerate q,?_,?_⟩,?_⟩,?_⟩
    · rw [size]
      rfl
    · rw [← answer]
      exact made
    · rw [caamResult,answer,size]
      rfl
    · rintro (not | ⟨c,st,garbage,generates,mem⟩)
      · exact absurd (started.mpr init) not
      · have call := (Prod.mk.inj (only _ mem generates)).2
        rw [answer] at call
        contradiction

end Boards

theorem randomBytesContract {b : BoardModel} {H : Hardware} {qs : List Request} {s : Rng}
    (run : Steps (Serves b H) Rng.boot qs s) (q : Request) : KeepsContract b H s q ↔
      b = .rt1060 ∨ q.size = rngExampleRandomBytes ∧ CaamStarted H ∧ CaamGenerates H s q := by
  cases b with
  | rt1060 => exact iff_of_true (trngContract H s q) (.inl rfl)
  | rt1170 =>
    rw [caamContract (caamReachable run)]
    simp

def hwWorks : Hardware := fun _ _ => .done (fun _ => 0x5a)

def generatorDead : Hardware
  | _, .caamRngGetRandomData .. => .failed ⟨kStatusFail,failIsError⟩ none
  | _, _ => .done (fun _ => 0)

theorem bootLogged (H : Hardware) : CaamLogged H Rng.boot := caamReachable (.nil _)

theorem caamBreaksContract : ∃ b H qs s q, Steps (Serves b H) Rng.boot qs s ∧
    q.size = rngExampleRandomBytes ∧ ¬ KeepsContract b H s q := by
  refine ⟨.rt1170,generatorDead,_,_,⟨0,16,fun _ => 0⟩,.nil _,rfl,?_⟩
  rw [caamContract (bootLogged _)]
  rintro ⟨_,_,data,answer⟩
  exact absurd answer (by simp [caamGenerate,generatorDead])

theorem randomBytesContractTwice :
    KeepsContract .rt1170 hwWorks (serve .rt1170 hwWorks Rng.boot ⟨0,16,fun _ => 0⟩).2
      ⟨64,16,fun _ => 0⟩ ∧
    ¬ KeepsContract .rt1170 hwWorks (serve .rt1170 hwWorks Rng.boot ⟨0,16,fun _ => 0⟩).2
      ⟨64,32,fun _ => 0⟩ := by
  have first : Steps (Serves .rt1170 hwWorks) Rng.boot [⟨0,16,fun _ => 0⟩] _ :=
    .snoc (.nil _) (.mk Rng.boot ⟨0,16,fun _ => 0⟩)
  constructor
  · exact (randomBytesContract first _).mpr (.inr ⟨rfl,⟨_,rfl⟩,⟨_,rfl⟩⟩)
  · intro kept
    rcases (randomBytesContract first _).mp kept with board | ⟨size,_⟩
    · contradiction
    · exact absurd size (by decide)

end AkNano.RandomBytes
