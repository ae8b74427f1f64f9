import AkNano.WallClock

/-! Start-up: the daemon task's hook brings up the network, waits for SNTP and then creates
the client's thread, while the TCP/IP task may deliver a time at any moment. Time passes
between any two steps. Each access of the thread to the shared epoch is a step of its own,
and C leaves open whether a read loads it before it counts the ticks; the upper word of all
values stored is zero. `server` is the time the callback delivered, `slept` what the hook
asked to sleep since `since`, both kept for the statements only. -/
namespace AkNano.StartUp
open Interrupted WallClock

def pdPASS : Int := 1
def errOk : Int := 0
def initSuccess : Int := 0

/-- Where the hook stands. `hung` is `while (true)`, `i` the counter of `SNTPRequest`. -/
inductive Pc where
  | systemInit
  | netifAdd
  | netifSetDefault
  | netifSetUp
  | waitLinkup
  | dhcpStart
  | waitIpv4
  | hung
  | networkReturned (ret : Int)
  | deleted
  | ended
  | sntpInit
  | polling (i wake : Nat)
  | grace (i wake : Nat)
  | late (i wake : Nat)
  | storage (i : Nat)
  | createThread (i : Nat)
  | started (i : Nat) (thread : Bool)
  deriving DecidableEq, Repr

inductive SntpClient where
  | off
  | polling
  | stopping (wake : Nat)
  | stopped
  deriving DecidableEq, Repr

/-- Where the client's thread stands in `aknano_cli_get_current_epoch`. -/
inductive Reader where
  | idle
  | storing
  | loading
  | loaded (epoch : Int)
  | counted (now : Nat)
  deriving DecidableEq, Repr

structure System where
  clock : Clock
  pc : Pc
  reader : Reader
  client : SntpClient
  server : Option UInt32
  since : Nat
  slept : Nat

def powerOn : System := ⟨boot,.systemInit,.idle,.off,none,0,0⟩

def afterSntp (i now : Nat) : Pc := if i = 10 then .late i (now + 500) else .storage i

/-- What the hook does with the result `r` of the call or the delay it stood at. -/
def hookNext (staticNetwork : Bool) (c : Clock) : Pc → Int → Pc
  | .systemInit,r => if r = pdPASS then .netifAdd else .ended
  | .netifAdd,r => if r ≠ errOk then .hung else .netifSetDefault
  | .netifSetDefault,r => if r ≠ errOk then .hung else .netifSetUp
  | .netifSetUp,r =>
    if r ≠ errOk then .hung
    else if staticNetwork then .networkReturned initSuccess
    else .waitLinkup
  | .waitLinkup,r => if r ≠ errOk then .waitLinkup else .dhcpStart
  | .dhcpStart,r => if r ≠ errOk then .hung else .waitIpv4
  | .waitIpv4,_ => .networkReturned initSuccess
  | .networkReturned ret,_ => if ret ≠ 0 then .deleted else .sntpInit
  | .sntpInit,_ => .polling 0 (c.ticks + 1000)
  | .polling i _,_ =>
    if c.bootUpEpoch ≠ 0 then .grace i (c.ticks + 500)
    else if i + 1 < 20 then .polling (i + 1) (c.ticks + 1000)
    else afterSntp (i + 1) c.ticks
  | .grace i _,_ => afterSntp i c.ticks
  | .late i _,_ => .storage i
  | .storage i,_ => .createThread i
  | .createThread i,r => .started i (r ≠ 0)
  | .hung,_ => .hung
  | .deleted,_ => .deleted
  | .ended,_ => .ended
  | .started i thread,_ => .started i thread

def Pc.asleep : Pc → Option Nat
  | .polling _ wake | .grace _ wake | .late _ wake => some wake
  | _ => none

def Pc.over : Pc → Bool
  | .hung | .deleted | .ended | .started .. => true
  | _ => false

def Pc.threaded : Pc → Bool
  | .started _ thread => thread
  | _ => false

def Pc.sleeps : Pc → Nat
  | .polling .. => 1000
  | .grace .. | .late .. => 500
  | _ => 0

def hook (staticNetwork : Bool) (r : Int) (s : System) : System :=
  let pc := hookNext staticNetwork s.clock s.pc r
  {s with
    pc := pc
    client := if s.pc = .sntpInit then .polling else s.client
    since := if s.pc = .sntpInit then s.clock.ticks else s.since
    slept := s.slept + pc.sleeps}

inductive Act where
  | wait (n : Nat)
  | hook (pc : Pc) (r : Int)
  | sntp (sec : UInt32)
  | sntpStop
  | test
  | store
  | load (epoch : Int)
  | count (now : Nat)
  | read (result : Int)
  deriving DecidableEq, Repr

def reading (epoch : Int) (now : Nat) : Int := epoch + (now % 4294967296 / 1000 : Nat)

inductive ReadStep : System → Act → System → Prop where
  | test {s : System} (runs : s.pc.threaded = true) (at' : s.reader = .idle) :
      ReadStep s .test {s with reader := if s.clock.bootUpEpoch = 0 then .storing else .loading}
  | store {s : System} (at' : s.reader = .storing) :
      ReadStep s .store {s with
        clock := {s.clock with bootUpEpoch := fallbackEpoch}
        reader := .loading}
  | load {s : System} (at' : s.reader = .loading) :
      ReadStep s (.load s.clock.bootUpEpoch) {s with reader := .loaded s.clock.bootUpEpoch}
  | count {s : System} (at' : s.reader = .loading) :
      ReadStep s (.count s.clock.ticks) {s with reader := .counted s.clock.ticks}
  | countLast {s : System} {epoch : Int} (at' : s.reader = .loaded epoch) :
      ReadStep s (.read (reading epoch s.clock.ticks)) {s with reader := .idle}
  | loadLast {s : System} {now : Nat} (at' : s.reader = .counted now) :
      ReadStep s (.read (reading s.clock.bootUpEpoch now)) {s with reader := .idle}

/-- The callback blocks the TCP/IP task until it has stopped the client. -/
inductive StartStep (staticNetwork : Bool) : System → Act → System → Prop where
  | wait (s : System) (n : Nat) :
      StartStep staticNetwork s (.wait n) {s with clock := {s.clock with ticks := s.clock.ticks + n}}
  | hook {s : System} (r : Int) (goes : s.pc.over = false)
      (awake : ∀ wake ∈ s.pc.asleep, wake ≤ s.clock.ticks) :
      StartStep staticNetwork s (.hook s.pc r) (hook staticNetwork r s)
  | sntp {s : System} (sec : UInt32) (on : s.client = .polling) :
      StartStep staticNetwork s (.sntp sec) {s with
        clock := aknanoClientSntpSetSystemTime sec s.clock
        client := .stopping (s.clock.ticks + 50)
        server := some sec}
  | sntpStop {s : System} {wake : Nat} (at' : s.client = .stopping wake)
      (awake : wake ≤ s.clock.ticks) : StartStep staticNetwork s .sntpStop {s with client := .stopped}
  | reader {s t : System} {a : Act} (step : ReadStep s a t) : StartStep staticNetwork s a t

/-! What the hook has asked to sleep, by the counter it left the loop with. -/

def requested (i : Nat) : Nat :=
  if i < 20 then 1000 * (i + 1) + 500 + (if i = 10 then 500 else 0) else 20000

theorem requestedBound (i : Nat) : requested i ≤ 20500 := by
  unfold requested
  split
  · split
    · omega
    · omega
  · decide

def Seen (s : System) : Prop := ∃ sec, s.server = some sec ∧ sec ≠ 0

structure Waited (s : System) (i : Nat) : Prop where
  counter : i ≤ 20
  seen : i < 20 → Seen s
  slept : s.slept = requested i
  elapsed : s.since + s.slept ≤ s.clock.ticks

def Phase (s : System) : Prop :=
  match s.pc with
  | .deleted => False
  | .networkReturned ret => ret = 0 ∧ s.slept = 0
  | .polling i wake => i < 20 ∧ s.slept = 1000 * (i + 1) ∧ s.since + s.slept ≤ wake
  | .grace i wake =>
    i < 20 ∧ Seen s ∧ s.slept = 1000 * (i + 1) + 500 ∧ s.since + s.slept ≤ wake
  | .late i wake => i = 10 ∧ Seen s ∧ s.slept = 12000 ∧ s.since + s.slept ≤ wake
  | .storage i | .createThread i | .started i _ => Waited s i
  | _ => s.slept = 0

def storedEpoch : Option UInt32 → Int
  | none => 0
  | some sec => sec.toNat

def Pc.beforeSntp : Pc → Bool
  | .systemInit | .netifAdd | .netifSetDefault | .netifSetUp | .waitLinkup | .dhcpStart | .waitIpv4
  | .networkReturned _ | .sntpInit => true
  | _ => false

/-- The time server's seconds or the default. -/
def Known (s : System) (e : Int) : Prop :=
  e = fallbackEpoch ∨ ∃ sec, s.server = some sec ∧ e = sec.toNat

def ReaderKnows (s : System) : Prop :=
  match s.reader with
  | .idle | .storing => True
  | .loading => Known s s.clock.bootUpEpoch
  | .loaded epoch => Known s epoch
  | .counted now => Known s s.clock.bootUpEpoch ∧ now ≤ s.clock.ticks

structure Sound (s : System) : Prop where
  phase : Phase s
  idle : s.pc.beforeSntp = true → s.client = .off
  stored : s.clock.bootUpEpoch = storedEpoch s.server ∨ s.clock.bootUpEpoch = fallbackEpoch
  unread : s.pc.threaded = false → s.clock.bootUpEpoch = storedEpoch s.server ∧ s.reader = .idle
  reader : ReaderKnows s
  waiting : s.client = .off ∨ s.client = .polling → s.server = none

section Steps

variable {staticNetwork : Bool} {s t : System}

theorem seenStored (stored : s.clock.bootUpEpoch = storedEpoch s.server)
    (set : s.clock.bootUpEpoch ≠ 0) : Seen s := by
  rw [stored] at set
  cases server : s.server with
  | none =>
    rw [server] at set
    exact absurd rfl set
  | some sec =>
    refine ⟨sec,server,?_⟩
    intro zero
    rw [server,zero] at set
    exact set rfl

structure Aside (s t : System) : Prop where
  pc : t.pc = s.pc
  server : t.server = s.server
  since : t.since = s.since
  slept : t.slept = s.slept
  later : s.clock.ticks ≤ t.clock.ticks

theorem phaseAside (phase : Phase s) (aside : Aside s t) : Phase t := by
  obtain ⟨pc,server,since,slept,later⟩ := aside
  have seen : Seen s → Seen t := by
    unfold Seen
    rw [server]
    exact id
  unfold Phase at phase ⊢
  rw [pc,slept,since]
  cases at' : s.pc <;> simp only [at'] at phase ⊢ <;> first
    | exact phase
    | exact ⟨phase.1,seen phase.2.1,phase.2.2⟩
    | exact ⟨phase.counter,fun early => seen (phase.seen early),slept.trans phase.slept,
        by rw [since,slept]; exact Nat.le_trans phase.elapsed later⟩

theorem knownStored (stored : s.clock.bootUpEpoch = storedEpoch s.server ∨
    s.clock.bootUpEpoch = fallbackEpoch) (set : s.clock.bootUpEpoch ≠ 0) :
    Known s s.clock.bootUpEpoch := by
  rcases stored with stored | fallback
  · obtain ⟨sec,server,_⟩ := seenStored stored set
    exact .inr ⟨sec,server,by rw [stored,server]; rfl⟩
  · exact .inl fallback

theorem soundWait (sound : Sound s) (n : Nat) :
    Sound {s with clock := {s.clock with ticks := s.clock.ticks + n}} := by
  refine ⟨phaseAside sound.phase ⟨rfl,rfl,rfl,rfl,Nat.le_add_right _ _⟩,sound.idle,sound.stored,
    sound.unread,?_,sound.waiting⟩
  have reader := sound.reader
  unfold ReaderKnows at reader ⊢
  cases at' : s.reader <;> simp only [at'] at reader ⊢
  case loading => exact reader
  case loaded epoch => exact reader
  case counted now => exact ⟨reader.1,Nat.le_add_right_of_le reader.2⟩

theorem soundSntp (sound : Sound s) (sec : UInt32) (on : s.client = .polling) :
    Sound {s with
      clock := aknanoClientSntpSetSystemTime sec s.clock
      client := .stopping (s.clock.ticks + 50)
      server := some sec} := by
  have unseen : ¬ Seen s := by
    rintro ⟨sec,known,_⟩
    rw [sound.waiting (.inr on)] at known
    contradiction
  have started : s.pc.beforeSntp ≠ true := by
    intro before
    rw [sound.idle before] at on
    contradiction
  refine ⟨?_,fun before => absurd before started,.inl rfl,
    fun unthreaded => ⟨rfl,(sound.unread unthreaded).2⟩,?_,by simp⟩
  · have phase := sound.phase
    unfold Phase at phase ⊢
    cases at' : s.pc <;> simp only [at'] at phase ⊢ <;> first
      | exact phase
      | exact absurd phase.2.1 unseen
      | exact ⟨phase.counter,fun early => absurd (phase.seen early) unseen,phase.slept,phase.elapsed⟩
  · have reader := sound.reader
    have answered : Known {s with
        clock := aknanoClientSntpSetSystemTime sec s.clock
        client := .stopping (s.clock.ticks + 50)
        server := some sec} sec.toNat := .inr ⟨sec,rfl,rfl⟩
    unfold ReaderKnows at reader ⊢
    cases at' : s.reader <;> simp only [at'] at reader ⊢
    case loading => exact answered
    case counted now => exact ⟨answered,reader.2⟩
    case loaded epoch =>
      rcases reader with fallback | ⟨known,server,_⟩
      · exact .inl fallback
      · rw [sound.waiting (.inr on)] at server
        contradiction

theorem soundStop (sound : Sound s) {wake : Nat} (on : s.client = .stopping wake) :
    Sound {s with client := .stopped} := by
  have started : s.pc.beforeSntp ≠ true := by
    intro before
    rw [sound.idle before] at on
    contradiction
  exact ⟨phaseAside sound.phase ⟨rfl,rfl,rfl,rfl,Nat.le_refl _⟩,fun before => absurd before started,
    sound.stored,sound.unread,sound.reader,by simp⟩

theorem readAside {a : Act} (step : ReadStep s a t) : Aside s t ∧ t.client = s.client := by
  cases step <;> exact ⟨⟨rfl,rfl,rfl,rfl,Nat.le_refl _⟩,rfl⟩

theorem readThreaded {a : Act} (sound : Sound s) (step : ReadStep s a t) : s.pc.threaded = true := by
  have reading : s.reader ≠ .idle → s.pc.threaded = true := by
    intro busy
    cases threaded : s.pc.threaded with
    | true => rfl
    | false => exact absurd (sound.unread threaded).2 busy
  cases step with
  | test runs at' => exact runs
  | store at' | load at' | count at' | countLast at' | loadLast at' =>
    exact reading (by rw [at']; simp)

theorem readClock {a : Act} (step : ReadStep s a t) (kept : a ≠ .store) : t.clock = s.clock := by
  cases step with
  | store at' => exact absurd rfl kept
  | test runs at' | load at' | count at' | countLast at' | loadLast at' => rfl

theorem soundRead {a : Act} (sound : Sound s) (step : ReadStep s a t) : Sound t := by
  obtain ⟨aside,client⟩ := readAside step
  have threaded := readThreaded sound step
  have stored := sound.stored
  have reader := sound.reader
  unfold ReaderKnows at reader
  refine ⟨phaseAside sound.phase aside,?_,?_,?_,?_,?_⟩
  · rw [aside.pc,client]
    exact sound.idle
  · cases step with
    | store at' => exact .inr rfl
    | test runs at' | load at' | count at' | countLast at' | loadLast at' => exact stored
  · intro unthreaded
    rw [aside.pc,threaded] at unthreaded
    contradiction
  · cases step with
    | test runs at' =>
      by_cases unset : s.clock.bootUpEpoch = 0
      · simp only [ReaderKnows,if_pos unset]
      · simp only [ReaderKnows,if_neg unset]
        exact knownStored stored unset
    | store at' => exact .inl rfl
    | load at' =>
      simp only [at'] at reader
      exact reader
    | count at' =>
      simp only [at'] at reader
      exact ⟨reader,Nat.le_refl _⟩
    | countLast at' => trivial
    | loadLast at' => trivial
  · rw [client,aside.server]
    exact sound.waiting

section Hook

theorem afterSntpPhase {i : Nat} (counter : i ≤ 20) (seen : i < 20 → Seen s)
    (slept : s.slept = if i < 20 then 1000 * (i + 1) + 500 else 20000)
    (elapsed : s.since + s.slept ≤ s.clock.ticks) {client : SntpClient} :
    Phase {s with
      pc := afterSntp i s.clock.ticks
      client := client
      slept := s.slept + (afterSntp i s.clock.ticks).sleeps} := by
  unfold afterSntp
  by_cases tenth : i = 10
  · subst tenth
    have slept' : s.slept = 11500 := slept
    rw [if_pos rfl]
    refine ⟨rfl,seen (by decide),?_,?_⟩
    · change s.slept + 500 = 12000
      omega
    · change s.since + (s.slept + 500) ≤ s.clock.ticks + 500
      omega
  · rw [if_neg tenth]
    refine ⟨counter,seen,?_,elapsed⟩
    change s.slept = requested i
    rw [slept,requested,if_neg tenth]

theorem phasePolling (staticNetwork : Bool) (r : Int) (sound : Sound s) {i wake : Nat}
    (polls : s.pc = .polling i wake) (late : wake ≤ s.clock.ticks) : Phase (hook staticNetwork r s) := by
  have phase := sound.phase
  have unread := sound.unread
  obtain ⟨clock,pc,reader,client,server,since,slept⟩ := s
  subst polls
  obtain ⟨small,asked,due⟩ := phase
  unfold hook
  simp only [hookNext]
  split
  case isTrue set =>
    refine ⟨small,seenStored (unread rfl).1 set,congrArg (· + 500) asked,?_⟩
    change since + (slept + 500) ≤ clock.ticks + 500
    simp only at due late
    omega
  case isFalse unset =>
    split
    case isTrue more =>
      refine ⟨more,?_,?_⟩
      · change slept + 1000 = 1000 * (i + 1 + 1)
        simp only at asked
        omega
      · change since + (slept + 1000) ≤ clock.ticks + 1000
        simp only at due late
        omega
    case isFalse last =>
      have whole : i + 1 = 20 := by omega
      rw [whole]
      refine afterSntpPhase (s := ⟨clock,.polling i wake,reader,client,server,since,slept⟩)
        (Nat.le_refl 20) (fun early => absurd early (by decide)) ?_ (Nat.le_trans due late)
      exact asked.trans (by rw [whole,if_neg (by decide)])

theorem phaseHook (staticNetwork : Bool) (r : Int) (sound : Sound s) (goes : s.pc.over = false)
    (awake : ∀ wake ∈ s.pc.asleep, wake ≤ s.clock.ticks) : Phase (hook staticNetwork r s) := by
  have phase := sound.phase
  obtain ⟨clock,pc,reader,client,server,since,slept⟩ := s
  unfold hook
  cases pc with
  | systemInit | netifAdd | netifSetDefault | waitLinkup | dhcpStart =>
    simp only [hookNext]
    split <;> exact phase
  | netifSetUp =>
    simp only [hookNext]
    split
    · exact phase
    · split
      · exact ⟨rfl,phase⟩
      · exact phase
  | waitIpv4 => exact ⟨rfl,phase⟩
  | networkReturned ret =>
    obtain ⟨success,none⟩ := phase
    subst success
    exact none
  | sntpInit =>
    have none : slept = 0 := phase
    subst none
    exact ⟨by decide,rfl,Nat.le_refl _⟩
  | polling i wake => exact phasePolling staticNetwork r sound rfl (awake wake rfl)
  | grace i wake =>
    obtain ⟨small,seen,asked,due⟩ := phase
    refine afterSntpPhase (Nat.le_of_lt small) (fun _ => seen) ?_ (Nat.le_trans due (awake wake rfl))
    rw [if_pos small]
    exact asked
  | late i wake =>
    obtain ⟨tenth,seen,asked,due⟩ := phase
    subst tenth
    exact ⟨by decide,fun _ => seen,asked,Nat.le_trans due (awake wake rfl)⟩
  | storage i => exact ⟨phase.counter,phase.seen,phase.slept,phase.elapsed⟩
  | createThread i => exact ⟨phase.counter,phase.seen,phase.slept,phase.elapsed⟩
  | hung => exact absurd goes (by simp [Pc.over])
  | deleted => exact absurd goes (by simp [Pc.over])
  | ended => exact absurd goes (by simp [Pc.over])
  | started i thread => exact absurd goes (by simp [Pc.over])

theorem stillBefore {staticNetwork : Bool} {c : Clock} {pc : Pc} {r : Int}
    (before : (hookNext staticNetwork c pc r).beforeSntp = true) :
    pc.beforeSntp = true ∧ pc ≠ .sntpInit := by
  have after : ∀ i, (afterSntp i c.ticks).beforeSntp = false := by
    intro i
    unfold afterSntp
    split <;> rfl
  cases pc with
  | systemInit | netifAdd | netifSetDefault | netifSetUp | waitLinkup | dhcpStart | waitIpv4
  | networkReturned ret => exact ⟨rfl,by simp⟩
  | polling i wake =>
    simp only [hookNext] at before
    split at before
    · contradiction
    · split at before
      · contradiction
      · rw [after] at before
        contradiction
  | grace i wake =>
    simp only [hookNext,after] at before
    contradiction
  | sntpInit | hung | deleted | ended | late i wake | storage i | createThread i
  | started i thread => contradiction

theorem soundHook (staticNetwork : Bool) (r : Int) (sound : Sound s) (goes : s.pc.over = false)
    (awake : ∀ wake ∈ s.pc.asleep, wake ≤ s.clock.ticks) : Sound (hook staticNetwork r s) := by
  have unthreaded : s.pc.threaded = false := by
    cases at' : s.pc <;> simp_all [Pc.over,Pc.threaded]
  refine ⟨phaseHook staticNetwork r sound goes awake,?_,sound.stored,
    fun _ => sound.unread unthreaded,sound.reader,?_⟩
  · intro before
    obtain ⟨earlier,notLast⟩ := stillBefore before
    change (if s.pc = .sntpInit then _ else s.client) = _
    rw [if_neg notLast]
    exact sound.idle earlier
  · intro client
    change (if s.pc = .sntpInit then _ else s.client) = _ ∨
      (if s.pc = .sntpInit then _ else s.client) = _ at client
    by_cases last : s.pc = .sntpInit
    · exact sound.waiting (.inl (sound.idle (by rw [last]; rfl)))
    · rw [if_neg last] at client
      exact sound.waiting client

end Hook

theorem soundStep {a : Act} (sound : Sound s) (step : StartStep staticNetwork s a t) : Sound t := by
  cases step with
  | wait n => exact soundWait sound n
  | hook r goes awake => exact soundHook staticNetwork r sound goes awake
  | sntp sec on => exact soundSntp sound sec on
  | sntpStop at' awake => exact soundStop sound at'
  | reader step => exact soundRead sound step

theorem soundRun {es : List Act} (run : Steps (StartStep staticNetwork) powerOn es t) : Sound t :=
  stepsInvariant Sound (fun _ _ _ sound step => soundStep sound step) run
    ⟨rfl,fun _ => rfl,.inl rfl,fun _ => ⟨rfl,rfl⟩,trivial,fun _ => rfl⟩

end Steps

/-! What a whole start-up shows: how long the hook waits for SNTP, and what must have
succeeded before the thread is created. -/

def Act.ofHook : Act → Bool
  | .hook .. => true
  | _ => false

section Wait

variable {staticNetwork : Bool} {s t : System} {es fs : List Act}

def Pc.rank : Pc → Nat
  | .sntpInit => 25
  | .polling i _ => 24 - i
  | .grace .. => 4
  | .late .. => 3
  | .storage _ => 2
  | .createThread _ => 1
  | _ => 0

theorem hookDescends (staticNetwork : Bool) (c : Clock) (r : Int) {pc : Pc} (goes : pc.over = false)
    (after : pc.beforeSntp = true → pc = .sntpInit) (small : ∀ i wake, pc = .polling i wake → i < 20) :
    (hookNext staticNetwork c pc r).rank + 1 ≤ pc.rank := by
  have drop : ∀ i, (afterSntp i c.ticks).rank ≤ 3 := by
    intro i
    unfold afterSntp
    split
    · exact Nat.le_refl 3
    · exact Nat.le_succ 2
  cases pc with
  | systemInit | netifAdd | netifSetDefault | netifSetUp | waitLinkup | dhcpStart | waitIpv4
  | networkReturned ret => exact absurd (after rfl) (by simp)
  | hung | deleted | ended | started i thread => exact absurd goes (by simp [Pc.over])
  | sntpInit => exact Nat.le_refl 25
  | polling i wake =>
    have bound := small i wake rfl
    have last := drop (i + 1)
    simp only [hookNext]
    split
    · simp only [Pc.rank]
      omega
    · split
      · simp only [Pc.rank]
        omega
      · change (afterSntp (i + 1) c.ticks).rank + 1 ≤ 24 - i
        omega
  | grace i wake => exact Nat.succ_le_succ (drop i)
  | late i wake => exact Nat.le_refl 3
  | storage i => exact Nat.le_refl 2
  | createThread i => exact Nat.le_refl 1

structure SinceSntp (n : Nat) (hooks : Nat) (s : System) : Prop where
  sound : Sound s
  rank : hooks + s.pc.rank ≤ 25
  place : s.pc = .sntpInit ∧ n ≤ s.clock.ticks ∨ s.pc.beforeSntp = false ∧ n ≤ s.since

theorem sinceHook {n hooks : Nat} (r : Int) (h : SinceSntp n hooks s) (goes : s.pc.over = false)
    (awake : ∀ wake ∈ s.pc.asleep, wake ≤ s.clock.ticks) :
    SinceSntp n (hooks + 1) (hook staticNetwork r s) := by
  have small : ∀ i wake, s.pc = .polling i wake → i < 20 := by
    intro i wake pc
    have phase := h.sound.phase
    unfold Phase at phase
    simp only [pc] at phase
    exact phase.1
  have after : s.pc.beforeSntp = true → s.pc = .sntpInit := by
    intro before
    rcases h.place with ⟨start,_⟩ | ⟨gone,_⟩
    · exact start
    · rw [gone] at before
      contradiction
  have less := hookDescends staticNetwork s.clock r goes after small
  have rank := h.rank
  refine ⟨soundHook staticNetwork r h.sound goes awake,?_,.inr ⟨?_,?_⟩⟩
  · change hooks + 1 + (hookNext staticNetwork s.clock s.pc r).rank ≤ 25
    omega
  · apply Bool.eq_false_iff.mpr
    intro before
    obtain ⟨earlier,notLast⟩ := stillBefore before
    exact notLast (after earlier)
  · change n ≤ if s.pc = .sntpInit then s.clock.ticks else s.since
    rcases h.place with ⟨start,before⟩ | ⟨gone,before⟩
    · rw [if_pos start]
      exact before
    · have moved : s.pc ≠ .sntpInit := by
        intro start
        rw [start] at gone
        contradiction
      rw [if_neg moved]
      exact before

theorem sinceStep {n hooks : Nat} {a : Act} (h : SinceSntp n hooks s)
    (step : StartStep staticNetwork s a t) :
    SinceSntp n (hooks + if a.ofHook then 1 else 0) t := by
  have sound := soundStep h.sound step
  have aside : ∀ {u : System}, Sound u → u.pc = s.pc → u.since = s.since →
      s.clock.ticks ≤ u.clock.ticks → SinceSntp n hooks u := by
    intro u sound pc since later
    refine ⟨sound,by rw [pc]; exact h.rank,?_⟩
    rw [pc,since]
    rcases h.place with ⟨start,before⟩ | gone
    · exact .inl ⟨start,Nat.le_trans before later⟩
    · exact .inr gone
  cases step with
  | wait m => exact aside sound rfl rfl (Nat.le_add_right _ _)
  | hook r goes awake => exact sinceHook r h goes awake
  | sntp sec on => exact aside sound rfl rfl (Nat.le_refl _)
  | sntpStop at' awake => exact aside sound rfl rfl (Nat.le_refl _)
  | reader step =>
    obtain ⟨same,_⟩ := readAside step
    have own : a.ofHook = false := by cases step <;> rfl
    rw [own]
    exact aside sound same.pc same.since same.later

theorem sntpWaitBounded (boots : Steps (StartStep staticNetwork) powerOn es s)
    (begins : s.pc = .sntpInit) (run : Steps (StartStep staticNetwork) s fs t) :
    fs.countP Act.ofHook ≤ 25 ∧ ∀ i, t.pc = .storage i →
      i ≤ 20 ∧ t.slept = requested i ∧ t.slept ≤ 20500 ∧ s.clock.ticks + t.slept ≤ t.clock.ticks := by
  have start : SinceSntp s.clock.ticks 0 s :=
    ⟨soundRun boots,by rw [begins]; decide,.inl ⟨begins,Nat.le_refl _⟩⟩
  have since : SinceSntp s.clock.ticks (fs.countP Act.ofHook) t := by
    induction run with
    | nil => exact start
    | snoc run last ih =>
      rw [List.countP_append,List.countP_singleton]
      exact sinceStep ih last
  refine ⟨Nat.le_trans (Nat.le_add_right _ _) since.rank,?_⟩
  intro i pc
  have waited := since.sound.phase
  unfold Phase at waited
  simp only [pc] at waited
  have from' : s.clock.ticks ≤ t.since := by
    rcases since.place with ⟨start,_⟩ | ⟨_,before⟩
    · rw [pc] at start
      contradiction
    · exact before
  have elapsed := waited.elapsed
  refine ⟨waited.counter,waited.slept,?_,by omega⟩
  rw [waited.slept]
  exact requestedBound i

end Wait

section Order

variable {staticNetwork : Bool} {s t : System} {es : List Act}

/-- The calls that must have succeeded, in this order, with what they returned. -/
def networkUp (staticNetwork : Bool) : List Act :=
  [.hook .systemInit pdPASS,.hook .netifAdd errOk,.hook .netifSetDefault errOk,
    .hook .netifSetUp errOk] ++
  if staticNetwork then [] else [.hook .waitLinkup errOk,.hook .dhcpStart errOk]

def passed (staticNetwork : Bool) : Pc → List Act
  | .systemInit | .hung | .deleted | .ended => []
  | .netifAdd => (networkUp staticNetwork).take 1
  | .netifSetDefault => (networkUp staticNetwork).take 2
  | .netifSetUp => (networkUp staticNetwork).take 3
  | .waitLinkup => (networkUp staticNetwork).take 4
  | .dhcpStart => (networkUp staticNetwork).take 5
  | _ => networkUp staticNetwork

theorem passedAfterSntp (i now : Nat) :
    passed staticNetwork (afterSntp i now) = networkUp staticNetwork := by
  unfold afterSntp
  split <;> rfl

theorem passedHook (c : Clock) (pc : Pc) (r : Int) :
    (passed staticNetwork (hookNext staticNetwork c pc r)).Sublist
      (passed staticNetwork pc ++ [.hook pc r]) := by
  have none : ([] : List Act).Sublist (passed staticNetwork pc ++ [.hook pc r]) :=
    List.nil_sublist _
  have kept : (passed staticNetwork pc).Sublist (passed staticNetwork pc ++ [.hook pc r]) :=
    List.sublist_append_left _ _
  cases pc with
  | systemInit =>
    simp only [hookNext]
    split
    case isTrue good => rw [good]; exact List.Sublist.refl _
    case isFalse bad => exact none
  | netifAdd | netifSetDefault =>
    simp only [hookNext]
    split
    case isTrue bad => exact none
    case isFalse good => rw [not_not.mp good]; exact List.Sublist.refl _
  | netifSetUp =>
    simp only [hookNext]
    split
    case isTrue bad => exact none
    case isFalse good =>
      rw [not_not.mp good]
      cases staticNetwork with
      | true => exact List.Sublist.refl _
      | false => exact List.Sublist.refl _
  | waitLinkup =>
    simp only [hookNext]
    split
    case isTrue bad => exact kept
    case isFalse good =>
      cases staticNetwork with
      | true => exact kept
      | false => rw [not_not.mp good]; exact List.Sublist.refl _
  | dhcpStart =>
    simp only [hookNext]
    split
    case isTrue bad => exact none
    case isFalse good =>
      cases staticNetwork with
      | true => exact kept
      | false => rw [not_not.mp good]; exact List.Sublist.refl _
  | networkReturned ret =>
    simp only [hookNext]
    split
    · exact none
    · exact kept
  | polling i wake =>
    simp only [hookNext]
    split
    · exact kept
    · split
      · exact kept
      · rw [passedAfterSntp]
        exact kept
  | grace i wake =>
    simp only [hookNext,passedAfterSntp]
    exact kept
  | waitIpv4 | sntpInit | late i wake | storage i | createThread i | started i thread | hung
  | deleted | ended => exact kept

theorem passedRun (run : Steps (StartStep staticNetwork) powerOn es t) :
    (passed staticNetwork t.pc).Sublist es := by
  induction run with
  | nil => exact List.Sublist.refl _
  | snoc run last ih =>
    cases last with
    | wait n => exact ih.trans (List.sublist_append_left _ _)
    | hook r goes awake => exact (passedHook _ _ r).trans (ih.append_right _)
    | sntp sec on => exact ih.trans (List.sublist_append_left _ _)
    | sntpStop at' awake => exact ih.trans (List.sublist_append_left _ _)
    | reader step =>
      rw [(readAside step).1.pc]
      exact ih.trans (List.sublist_append_left _ _)

end Order

section Quick

theorem hookGoes {staticNetwork : Bool} {s t : System} {es : List Act} (r : Int)
    (run : Steps (StartStep staticNetwork) s es t) (goes : t.pc.over = false)
    (awake : t.pc.asleep = none ∨ t.pc.asleep = some t.clock.ticks) :
    Steps (StartStep staticNetwork) s (es ++ [.hook t.pc r]) (hook staticNetwork r t) := by
  refine run.snoc (.hook r goes ?_)
  intro wake mem
  rcases awake with none | now
  · rw [none] at mem
    contradiction
  · rw [now] at mem
    exact Nat.le_of_eq (Option.some.inj mem).symm

def sntpReady : System := {powerOn with pc := .sntpInit}

def answered : System :=
  ⟨⟨1700000000,1500⟩,.storage 0,.idle,.stopping 50,some 1700000000,0,1500⟩

theorem quickBoot : ∃ es, Steps (StartStep true) powerOn es sntpReady := by
  have run : Steps (StartStep true) powerOn [] powerOn := .nil _
  have run := hookGoes 1 run rfl (.inl rfl)
  have run := hookGoes 0 run rfl (.inl rfl)
  have run := hookGoes 0 run rfl (.inl rfl)
  have run := hookGoes 0 run rfl (.inl rfl)
  exact ⟨_,hookGoes 0 run rfl (.inl rfl)⟩

theorem quickWait : ∃ fs, Steps (StartStep true) sntpReady fs answered := by
  have run : Steps (StartStep true) sntpReady [] sntpReady := .nil _
  have run := hookGoes 0 run rfl (.inl rfl)
  have run := run.snoc (.sntp 1700000000 rfl)
  have run := run.snoc (.wait _ 1000)
  have run := hookGoes 0 run rfl (.inr rfl)
  have run := run.snoc (.wait _ 500)
  exact ⟨_,hookGoes 0 run rfl (.inr rfl)⟩

theorem sntpWaitBoundedQuickly : ∃ fs, Steps (StartStep true) sntpReady fs answered ∧
    fs.countP Act.ofHook ≤ 25 ∧ ∀ i, answered.pc = .storage i →
      i ≤ 20 ∧ answered.slept = requested i ∧ answered.slept ≤ 20500 ∧
      sntpReady.clock.ticks + answered.slept ≤ answered.clock.ticks := by
  obtain ⟨es,boots⟩ := quickBoot
  obtain ⟨fs,waits⟩ := quickWait
  exact ⟨fs,waits,sntpWaitBounded boots rfl waits⟩

theorem quickStart : ∃ es, Steps (StartStep true) powerOn es (hook true 1 (hook true 0 answered)) := by
  obtain ⟨es,boots⟩ := quickBoot
  obtain ⟨fs,waits⟩ := quickWait
  have run := hookGoes 0 (stepsAppend boots waits) rfl (.inl rfl)
  exact ⟨_,hookGoes 1 run rfl (.inl rfl)⟩

end Quick

end AkNano.StartUp
