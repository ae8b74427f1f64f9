import AkNano.Interrupted

/-! The button task reads a pin at a period that `UpdateSettingValue` may change from any
other task at any moment. Every access to a shared variable is a step of its own; `callers`
are the values on their way from the comparison to the store. `ticks` counts from boot and
never wraps, the kernel's counter does. `vTaskDelayUntil` is kernel code that is not in the
repository: a kernel is what it answers, and results that depend on it name what is documented. -/
namespace AkNano.ButtonTask
open Interrupted

inductive Pc where
  | created
  | napping (wake : Nat)
  | init
  | compare
  | report
  | adopt
  | delayUntil
  | asleep (wake : Nat)
  | pinRead
  | halted
  deriving DecidableEq, Repr

structure System where
  pc : Pc
  newSleepTimeMs : Int32
  sleepTimeMs : Int32
  lastWakeTime : UInt32
  callers : List Int32
  ticks : Nat
  deriving DecidableEq

def powerOn : System := ⟨.created,2000,2000,0,[],0⟩

def xTaskGetTickCount (s : System) : UInt32 := UInt32.ofNat s.ticks

def portTickPeriodMs : UInt32 := 1000 / 1000

def interval (sleepTimeMs : Int32) : UInt32 := sleepTimeMs.toUInt32 / portTickPeriodMs

/-- A delay stops on its assertion, or returns after `blocked` ticks with the wake time updated. -/
inductive Delay where
  | asserted
  | returned (wake : UInt32) (blocked : Nat)
  deriving DecidableEq, Repr

structure Kernel where
  vTaskDelayUntil (increment previous now : UInt32) : Delay

def Kernel.Asserts (K : Kernel) : Prop := ∀ increment previous now,
  K.vTaskDelayUntil increment previous now = .asserted ↔ increment = 0

/-- Documented: the task unblocks `increment` ticks after its previous wake time, at once if they
have passed. Ticks since then are counted on the 32-bit counter. -/
structure Kernel.Delays (K : Kernel) : Prop where
  early {increment previous now : UInt32} (early : (now - previous).toNat < increment.toNat) :
    K.vTaskDelayUntil increment previous now =
      .returned (previous + increment) (increment.toNat - (now - previous).toNat)
  late {increment previous now : UInt32} (some : increment ≠ 0)
    (late : increment.toNat ≤ (now - previous).toNat) :
    K.vTaskDelayUntil increment previous now = .returned (previous + increment) 0

def System.delayed (s : System) : Delay → System
  -- `configASSERT` disables the interrupts for good
  | .asserted => {s with pc := .halted}
  | .returned wake blocked => {s with
      lastWakeTime := wake
      pc := if blocked = 0 then .pinRead else .asleep (s.ticks + blocked)}

def delayUntil (K : Kernel) (increment : UInt32) (s : System) : System :=
  s.delayed (K.vTaskDelayUntil increment s.lastWakeTime (xTaskGetTickCount s))

inductive Act where
  | wait (n : Nat)
  | call (value : Int32)
  | store (value : Int32)
  | begin
  | wake
  | init (now : Nat)
  | compare
  | report (old new : Int32)
  | adopt
  | delay (increment : UInt32) (now : Nat)
  | read (currState : UInt8)
  deriving DecidableEq, Repr

/-- `test` is the self-test build, which lets the task nap first. -/
inductive TaskStep (K : Kernel) (test : Bool) : System → Act → System → Prop where
  | wait {s : System} (n : Nat) (live : s.pc ≠ .halted) :
      TaskStep K test s (.wait n) {s with ticks := s.ticks + n}
  | call {s : System} (value : Int32) (live : s.pc ≠ .halted) :
      TaskStep K test s (.call value) {s with
        callers := if s.newSleepTimeMs = value then s.callers else value :: s.callers}
  | store {s : System} {value : Int32} (calling : value ∈ s.callers) (live : s.pc ≠ .halted) :
      TaskStep K test s (.store value) {s with
        newSleepTimeMs := value
        callers := s.callers.erase value}
  | begin {s : System} (at' : s.pc = .created) :
      TaskStep K test s .begin {s with pc := if test then .napping (s.ticks + 5000) else .init}
  | napped {s : System} {wake : Nat} (at' : s.pc = .napping wake) (awake : wake ≤ s.ticks) :
      TaskStep K test s .wake {s with pc := .init}
  | init {s : System} (at' : s.pc = .init) :
      TaskStep K test s (.init s.ticks) {s with pc := .compare, lastWakeTime := xTaskGetTickCount s}
  | compare {s : System} (at' : s.pc = .compare) :
      TaskStep K test s .compare {s with
        pc := if s.newSleepTimeMs ≠ s.sleepTimeMs then .report else .delayUntil}
  | report {s : System} (at' : s.pc = .report) :
      TaskStep K test s (.report s.sleepTimeMs s.newSleepTimeMs) {s with pc := .adopt}
  | adopt {s : System} (at' : s.pc = .adopt) :
      TaskStep K test s .adopt {s with pc := .delayUntil, sleepTimeMs := s.newSleepTimeMs}
  | delay {s : System} (at' : s.pc = .delayUntil) :
      TaskStep K test s (.delay (interval s.sleepTimeMs) s.ticks)
        (delayUntil K (interval s.sleepTimeMs) s)
  | woken {s : System} {wake : Nat} (at' : s.pc = .asleep wake) (awake : wake ≤ s.ticks) :
      TaskStep K test s .wake {s with pc := .pinRead}
  | read {s : System} (at' : s.pc = .pinRead) (currState : UInt8) :
      TaskStep K test s (.read currState) {s with pc := .compare}

/-! Settings. A delay takes a value that was the latest one stored at some moment since the
delay before it, so the last value stored holds from the second delay on at the latest. -/

def Act.stored (v : Int32) : Act → Int32
  | .store value => value
  | _ => v

def latest (es : List Act) : Int32 := es.foldl Act.stored 2000

def Act.delayed : Act → Option UInt32
  | .delay increment _ => some increment
  | _ => none

def delaysIn (es : List Act) : List UInt32 := es.filterMap Act.delayed

structure TakenAt (before since : List Act) (es : List Act) (v : Int32) : Prop where
  whole : es = before ++ since
  value : v = latest before
  undelayed : ∀ a ∈ since, a.delayed = none

def Taken (es : List Act) (v : Int32) : Prop := ∃ before since, TakenAt before since es v

section Settings

variable {K : Kernel} {test : Bool} {s t : System} {a : Act} {es : List Act} {v : Int32}

theorem latestSnoc (es : List Act) (a : Act) : latest (es ++ [a]) = a.stored (latest es) := by
  unfold latest
  rw [List.foldl_append]
  rfl

theorem latestKept {post : List Act} (none : ∀ w, .store w ∉ post) (pre : List Act) :
    latest (pre ++ .store v :: post) = v := by
  induction post using List.reverseRecOn with
  | nil => exact latestSnoc pre (.store v)
  | append_singleton post a ih =>
    have before := ih (fun w mem => none w (List.mem_append_left _ mem))
    rw [← List.cons_append,← List.append_assoc,latestSnoc,before]
    cases a with
    | store w => exact absurd (List.mem_append_right _ List.mem_cons_self) (none w)
    | _ => rfl

theorem latestStored (set : latest es ≠ 2000) : .store (latest es) ∈ es := by
  induction es using List.reverseRecOn with
  | nil => exact absurd rfl set
  | append_singleton es a ih =>
    rw [latestSnoc] at set ⊢
    cases a with
    | store w => exact List.mem_append_right _ List.mem_cons_self
    | _ => exact List.mem_append_left _ (ih set)

theorem takenNow (es : List Act) : Taken es (latest es) :=
  ⟨es,[],(List.append_nil es).symm,rfl,fun _ mem => absurd mem List.not_mem_nil⟩

theorem takenLater (taken : Taken es v) (undelayed : a.delayed = none) : Taken (es ++ [a]) v := by
  obtain ⟨before,since,whole,value,others⟩ := taken
  refine ⟨before,since ++ [a],?_,value,?_⟩
  · rw [whole,List.append_assoc]
  · intro b mem
    rcases List.mem_append.mp mem with old | new
    · exact others b old
    · rw [List.mem_singleton.mp new]
      exact undelayed

structure Follows (K : Kernel) (es : List Act) (s : System) : Prop where
  stored : s.newSleepTimeMs = latest es
  taken : s.pc = .delayUntil → Taken es s.sleepTimeMs
  halted : s.pc = .halted → ∃ pre n now previous tick, es = pre ++ [.delay n now] ∧
    K.vTaskDelayUntil n previous tick = .asserted

theorem followsMoved (follows : Follows K es s) (kept : a.stored (latest es) = latest es)
    (new : t.newSleepTimeMs = s.newSleepTimeMs) (place : t.pc ≠ .delayUntil ∧ t.pc ≠ .halted) :
    Follows K (es ++ [a]) t :=
  ⟨by rw [latestSnoc,kept,new,follows.stored],fun at' => absurd at' place.1,
    fun at' => absurd at' place.2⟩

theorem followsDelay (follows : Follows K es s) (n : UInt32) (now : Nat) :
    Follows K (es ++ [.delay n now]) (delayUntil K n s) := by
  unfold delayUntil
  cases answer : K.vTaskDelayUntil n s.lastWakeTime (xTaskGetTickCount s) with
  | asserted =>
    exact ⟨by rw [latestSnoc]; exact follows.stored,fun at' => by contradiction,
      fun _ => ⟨es,n,now,_,_,rfl,answer⟩⟩
  | returned wake blocked =>
    refine followsMoved follows rfl rfl ?_
    simp only [System.delayed]
    split <;> simp

theorem followsStep (follows : Follows K es s) (step : TaskStep K test s a t) :
    Follows K (es ++ [a]) t := by
  cases step with
  | wait n live =>
    exact ⟨by rw [latestSnoc]; exact follows.stored,fun at' => takenLater (follows.taken at') rfl,
      fun at' => absurd at' live⟩
  | call value live =>
    exact ⟨by rw [latestSnoc]; exact follows.stored,fun at' => takenLater (follows.taken at') rfl,
      fun at' => absurd at' live⟩
  | store calling live =>
    exact ⟨by rw [latestSnoc]; rfl,fun at' => takenLater (follows.taken at') rfl,
      fun at' => absurd at' live⟩
  | begin at' =>
    refine followsMoved follows rfl rfl ?_
    simp only
    split <;> simp
  | napped at' awake => exact followsMoved follows rfl rfl (by simp)
  | init at' => exact followsMoved follows rfl rfl (by simp)
  | compare at' =>
    have stored := follows.stored
    by_cases same : s.newSleepTimeMs ≠ s.sleepTimeMs
    · rw [if_pos same]
      exact followsMoved follows rfl rfl (by simp)
    · rw [if_neg same]
      refine ⟨by rw [latestSnoc]; exact stored,fun _ => ?_,fun at' => by contradiction⟩
      apply takenLater _ rfl
      change Taken es s.sleepTimeMs
      rw [← not_not.mp same,stored]
      exact takenNow es
  | report at' => exact followsMoved follows rfl rfl (by simp)
  | adopt at' =>
    have stored := follows.stored
    refine ⟨by rw [latestSnoc]; exact stored,fun _ => ?_,fun at' => by contradiction⟩
    apply takenLater _ rfl
    change Taken es s.newSleepTimeMs
    rw [stored]
    exact takenNow es
  | delay at' => exact followsDelay follows _ _
  | woken at' awake => exact followsMoved follows rfl rfl (by simp)
  | read at' currState => exact followsMoved follows rfl rfl (by simp)

theorem followsRun (run : Steps (TaskStep K test) powerOn es t) : Follows K es t := by
  induction run with
  | nil => exact ⟨rfl,fun at' => by contradiction,fun at' => by contradiction⟩
  | snoc run last ih => exact followsStep ih last

theorem haltedLast (run : Steps (TaskStep K test) s es t) (halted : s.pc = .halted) :
    es = [] ∧ t = s := by
  induction run with
  | nil => exact ⟨rfl,rfl⟩
  | snoc run last ih =>
    have still := ih.2
    subst still
    cases last <;> simp_all

theorem intervalZero (v : Int32) : interval v = 0 ↔ v = 0 := by
  have whole : interval v = v.toUInt32 := by
    unfold interval portTickPeriodMs
    exact UInt32.div_one
  rw [whole]
  exact ⟨fun zero => congrArg Int32.ofUInt32 zero,fun zero => by rw [zero]; rfl⟩

end Settings

section Delays

variable {K : Kernel} {test : Bool} {t : System} {a : Act} {es pre post : List Act} {v : Int32}
variable {n : UInt32}

theorem delayTaken {now : Nat} (run : Steps (TaskStep K test) powerOn (pre ++ .delay n now :: post) t) :
    ∃ v, n = interval v ∧ Taken pre v := by
  obtain ⟨u,w,before,step,_⟩ := stepsCut run
  cases step with
  | delay at' => exact ⟨_,rfl,(followsRun before).taken at'⟩

theorem beforeLater {since before : List Act} (delayed : a.delayed ≠ none)
    (whole : pre ++ a :: post = before ++ since) (undelayed : ∀ b ∈ since, b.delayed = none) :
    ∃ rest, before = pre ++ a :: rest ∧ post = rest ++ since := by
  have outside : a ∉ since := fun mem => delayed (undelayed a mem)
  rcases List.append_eq_append_iff.mp whole with ⟨cut,more,tail⟩ | ⟨cut,less,tail⟩
  · cases cut with
    | nil => exact absurd (by rw [← List.nil_append since,← tail]; exact List.mem_cons_self) outside
    | cons b rest =>
      obtain ⟨head,last⟩ := List.cons.inj tail
      exact ⟨rest,by rw [more,head],last⟩
  · exact absurd (by rw [tail]; exact List.mem_append_right _ List.mem_cons_self) outside

theorem secondDelay (mem : n ∈ (delaysIn post).tail) : ∃ first m at' between now rest,
    post = first ++ .delay m at' :: (between ++ .delay n now :: rest) := by
  have named : ∀ {b : Act} {k : UInt32}, b.delayed = some k → ∃ now, b = .delay k now := by
    intro b k delayed
    cases b with
    | delay increment now => exact ⟨now,by rw [Option.some.inj delayed]⟩
    | _ => contradiction
  cases delays : delaysIn post with
  | nil =>
    rw [delays] at mem
    contradiction
  | cons m later =>
    rw [delays] at mem
    obtain ⟨first,b,rest,whole,_,delayed,others⟩ := List.filterMap_eq_cons_iff.mp delays
    rw [← others,List.tail_cons] at mem
    obtain ⟨c,inside,taken⟩ := List.mem_filterMap.mp mem
    obtain ⟨between,rest',split⟩ := List.append_of_mem inside
    obtain ⟨at',at''⟩ := named delayed
    obtain ⟨now,now'⟩ := named taken
    exact ⟨first,m,at',between,now,rest',by rw [whole,split,at'',now']⟩

theorem laterDelay (run : Steps (TaskStep K test) powerOn (pre ++ .store v :: post) t)
    (last : ∀ w, .store w ∉ post) (later : n ∈ (delaysIn post).tail) : n = interval v := by
  obtain ⟨first,m,at',between,now,rest,whole⟩ := secondDelay later
  have shape : pre ++ .store v :: post =
      (pre ++ .store v :: first) ++ .delay m at' :: between ++ .delay n now :: rest := by
    rw [whole]
    simp only [List.append_assoc,List.cons_append]
  rw [shape] at run
  obtain ⟨value,increment,before,since,cut,latest',undelayed⟩ := delayTaken run
  obtain ⟨between',same,tail⟩ := beforeLater (by simp [Act.delayed]) cut undelayed
  have kept : ∀ w, .store w ∉ first ++ .delay m at' :: between' := by
    intro w mem
    apply last w
    rw [whole,tail]
    simp only [List.mem_append,List.mem_cons] at mem ⊢
    rcases mem with early | new | middle
    · exact .inl early
    · exact .inr (.inl new)
    · exact .inr (.inr (.inl (.inl middle)))
  have stored : latest before = v := by
    have kept' := latestKept (v := v) kept pre
    rw [same]
    simpa only [List.append_assoc,List.cons_append] using kept'
  rw [increment,latest',stored]

theorem zeroStops (asserts : K.Asserts) {now : Nat}
    (run : Steps (TaskStep K test) powerOn (pre ++ .delay 0 now :: post) t) :
    t.pc = .halted ∧ post = [] ∧ .store 0 ∈ pre := by
  obtain ⟨u,w,before,step,rest⟩ := stepsCut run
  obtain ⟨value,increment,earlier,since,whole,latest',_⟩ := delayTaken run
  have halted : w.pc = .halted := by
    generalize zero : (0 : UInt32) = k at step
    cases step with
    | delay at' =>
      unfold delayUntil
      rw [(asserts _ _ _).mpr zero.symm]
      rfl
  obtain ⟨nothing,same⟩ := haltedLast rest halted
  refine ⟨by rw [same]; exact halted,nothing,?_⟩
  have zero : latest earlier = 0 := by
    rw [← latest']
    exact (intervalZero value).mp increment.symm
  have stored : .store (latest earlier) ∈ earlier := latestStored (by rw [zero]; decide)
  rw [zero] at stored
  rw [whole]
  exact List.mem_append_left _ stored

end Delays

/-! Time. The schedule is the first tick plus all the increments; a task that does not fall
behind by a whole turn of the kernel's counter keeps it, so lateness does not add up. -/

def Act.due (d : Nat) : Act → Nat
  | .init now => now
  | .delay increment _ => d + increment.toNat
  | _ => d

def schedule (es : List Act) : Nat := es.foldl Act.due 0

def Timely (es : List Act) : Prop :=
  ∀ pre n now post, es = pre ++ .delay n now :: post → now < schedule pre + 4294967296

def Pc.between : Pc → Bool
  | .compare | .report | .adopt | .delayUntil | .pinRead => true
  | .created | .napping _ | .init | .asleep _ | .halted => false

def Phase (d : Nat) (s : System) : Prop :=
  match s.pc with
  | .compare | .report | .adopt | .delayUntil | .pinRead =>
    s.lastWakeTime = UInt32.ofNat d ∧ d ≤ s.ticks
  | .asleep wake => s.lastWakeTime = UInt32.ofNat d ∧ wake = d
  | .created | .napping _ | .init | .halted => True

section Schedule

variable {K : Kernel} {test : Bool} {s t : System} {a : Act} {es : List Act} {d now : Nat}

theorem scheduleSnoc (es : List Act) (a : Act) : schedule (es ++ [a]) = a.due (schedule es) := by
  unfold schedule
  rw [List.foldl_append]
  rfl

theorem sinceExact (due : d ≤ now) (timely : now < d + 4294967296) :
    (UInt32.ofNat now - UInt32.ofNat d).toNat = now - d := by
  simp only [UInt32.toNat_sub,UInt32.toNat_ofNat']
  omega

section Documented

variable (asserts : K.Asserts) (delays : K.Delays)

include delays

theorem delayPlace {n : UInt32} (positive : n ≠ 0) (last : s.lastWakeTime = UInt32.ofNat d)
    (due : d ≤ s.ticks) (timely : s.ticks < d + 4294967296) : delayUntil K n s = {s with
      lastWakeTime := UInt32.ofNat (d + n.toNat)
      pc := if s.ticks < d + n.toNat then .asleep (d + n.toNat) else .pinRead} := by
  have since := sinceExact due timely
  have wake : UInt32.ofNat d + n = UInt32.ofNat (d + n.toNat) := by
    rw [UInt32.ofNat_add,UInt32.ofNat_toNat]
  unfold delayUntil
  rw [last,xTaskGetTickCount,← wake]
  by_cases early : s.ticks < d + n.toNat
  · have rest : n.toNat - (s.ticks - d) ≠ 0 := by omega
    have target : s.ticks + (n.toNat - (s.ticks - d)) = d + n.toNat := by omega
    rw [delays.early (by omega),since,System.delayed,if_neg rest,target,if_pos early]
  · rw [delays.late positive (by omega),System.delayed,if_pos rfl,if_neg early]

include asserts

theorem phaseDelay (n : UInt32) (last : s.lastWakeTime = UInt32.ofNat d) (due : d ≤ s.ticks)
    (timely : s.ticks < d + 4294967296) : Phase (d + n.toNat) (delayUntil K n s) := by
  by_cases zero : n = 0
  · unfold delayUntil
    rw [(asserts _ _ _).mpr zero]
    trivial
  · rw [delayPlace delays zero last due timely]
    by_cases early : s.ticks < d + n.toNat
    · rw [if_pos early]
      exact ⟨rfl,rfl⟩
    · rw [if_neg early]
      exact ⟨rfl,Nat.le_of_not_lt early⟩

end Documented

theorem phaseLater {n : Nat} (phase : Phase d s) : Phase d {s with ticks := s.ticks + n} := by
  unfold Phase at phase ⊢
  cases at' : s.pc <;> simp only [at'] at phase ⊢ <;> first
    | exact ⟨phase.1,Nat.le_trans phase.2 (Nat.le_add_right _ _)⟩
    | exact phase

theorem phaseBetween (place : s.pc.between = true) :
    Phase d s ↔ s.lastWakeTime = UInt32.ofNat d ∧ d ≤ s.ticks := by
  unfold Phase
  cases at' : s.pc <;> simp only [at'] at place ⊢ <;> contradiction

theorem phaseMoved (phase : Phase d s) (place : s.pc.between = true) (next : t.pc.between = true)
    (last : t.lastWakeTime = s.lastWakeTime) (ticks : t.ticks = s.ticks) : Phase d t := by
  rw [phaseBetween next,last,ticks]
  exact (phaseBetween place).mp phase

theorem phaseStep (asserts : K.Asserts) (delays : K.Delays) (phase : Phase d s) (step : TaskStep K test s a t)
    (timely : ∀ n now, a = .delay n now → now < d + 4294967296) : Phase (a.due d) t := by
  cases step with
  | wait n live => exact phaseLater phase
  | call value live => exact phase
  | store calling live => exact phase
  | begin at' => cases test <;> trivial
  | napped at' awake => trivial
  | init at' => exact ⟨rfl,Nat.le_refl _⟩
  | compare at' =>
    refine phaseMoved phase (by rw [at']; rfl) ?_ rfl rfl
    simp only
    split <;> rfl
  | report at' => exact phaseMoved phase (by rw [at']; rfl) rfl rfl rfl
  | adopt at' => exact phaseMoved phase (by rw [at']; rfl) rfl rfl rfl
  | delay at' =>
    obtain ⟨last,due⟩ := (phaseBetween (by rw [at']; rfl)).mp phase
    exact phaseDelay asserts delays _ last due (timely _ _ rfl)
  | @woken wake at' awake =>
    unfold Phase at phase
    simp only [at'] at phase
    obtain ⟨last,on⟩ := phase
    exact ⟨last,by rw [← on]; exact awake⟩
  | read at' currState => exact phaseMoved phase (by rw [at']; rfl) rfl rfl rfl

theorem timelyBefore {gs : List Act} (timely : Timely (es ++ gs)) : Timely es := by
  intro pre n now post whole
  apply timely pre n now (post ++ gs)
  rw [whole,List.append_assoc,List.cons_append]

theorem phaseRun (asserts : K.Asserts) (delays : K.Delays)
    (run : Steps (TaskStep K test) powerOn es t) (timely : Timely es) :
    Phase (schedule es) t := by
  induction run with
  | nil => trivial
  | snoc run last ih =>
    rw [scheduleSnoc]
    apply phaseStep asserts delays (ih (timelyBefore timely)) last
    intro n now delayed
    exact timely _ n now [] (by rw [delayed])

end Schedule

section Results

variable {K : Kernel} {test : Bool} {a : Act} {es : List Act} {s t : System}

theorem timelySnoc (timely : Timely es)
    (late : ∀ n now, a = .delay n now → now < schedule es + 4294967296) : Timely (es ++ [a]) := by
  intro pre n now post whole
  rcases List.eq_nil_or_concat post with none | ⟨before,last,more⟩
  · subst none
    obtain ⟨same,one⟩ := List.append_inj' whole rfl
    rw [← same]
    exact late n now (List.singleton_inj.mp one)
  · subst more
    rw [List.concat_eq_append,← List.cons_append,← List.append_assoc] at whole
    exact timely pre n now before (List.append_inj' whole rfl).1

/-! FreeRTOS's own test for a delay, which compares the wake time with the last one. -/

def shouldDelay (now previous wake : UInt32) : Bool :=
  if now < previous then wake < previous && wake > now
  else wake < previous || wake > now

def freeRtos : Kernel where
  vTaskDelayUntil increment previous now :=
    if increment = 0 then .asserted
    else .returned (previous + increment) (if shouldDelay now previous (previous + increment) then
      (previous + increment - now).toNat else 0)

theorem freeRtosAsserts : freeRtos.Asserts := by
  intro increment previous now
  simp only [freeRtos]
  split
  case isTrue zero => simp [zero]
  case isFalse some => simp [some]

theorem shouldDelayExact (increment previous now : UInt32) :
    shouldDelay now previous (previous + increment) = true ↔
      (now - previous).toNat < increment.toNat := by
  have a := increment.toNat_lt
  have b := previous.toNat_lt
  have c := now.toNat_lt
  unfold shouldDelay
  split
  case isTrue turned =>
    simp only [UInt32.lt_iff_toNat_lt,UInt32.toNat_add,UInt32.toNat_sub,Bool.and_eq_true,
      decide_eq_true_eq,gt_iff_lt] at turned ⊢
    omega
  case isFalse unturned =>
    simp only [UInt32.lt_iff_toNat_lt,UInt32.toNat_add,UInt32.toNat_sub,Bool.or_eq_true,
      decide_eq_true_eq,gt_iff_lt] at unturned ⊢
    omega

theorem freeRtosDelays : freeRtos.Delays := by
  constructor
  · intro increment previous now early
    have some : increment ≠ 0 := by
      intro zero
      rw [zero] at early
      exact absurd early (Nat.not_lt_zero _)
    have length : (previous + increment - now).toNat =
        increment.toNat - (now - previous).toNat := by
      have a := increment.toNat_lt
      have b := previous.toNat_lt
      have c := now.toNat_lt
      simp only [UInt32.toNat_add,UInt32.toNat_sub] at early ⊢
      omega
    have sleeps := (shouldDelayExact increment previous now).mpr early
    simp only [freeRtos,if_neg some,sleeps,if_true,length]
  · intro increment previous now some late
    have wakes := mt (shouldDelayExact increment previous now).mp (Nat.not_lt.mpr late)
    simp only [freeRtos,if_neg some,wakes,Bool.false_eq_true,if_false]

structure Goes (es : List Act) (t : System) : Prop where
  run : Steps (TaskStep freeRtos false) powerOn es t
  timely : Timely es

theorem goesOn (goes : Goes es s) (step : TaskStep freeRtos false s a t) (soon : s.ticks < 4294967296) :
    Goes (es ++ [a]) t := by
  refine ⟨goes.run.snoc step,timelySnoc goes.timely ?_⟩
  intro n now delayed
  rw [delayed] at step
  cases step
  omega

def changing : List Act :=
  [.begin,.init 0,.compare,.delay 2000 0,.call 100,.store 100,.wait 2500,.wake,.read 1,.compare,
    .report 2000 100,.adopt,.delay 100 2500]

def changed : System := ⟨.pinRead,100,100,2100,[],2500⟩

theorem goesStart : Goes [] powerOn := ⟨.nil _,fun pre n now post whole => by simp at whole⟩

theorem goesChanging : Goes changing changed := by
  have goes := goesOn goesStart (.begin rfl) (by decide)
  have goes := goesOn goes (.init rfl) (by decide)
  have goes := goesOn goes (.compare rfl) (by decide)
  have goes := goesOn goes (.delay rfl) (by decide)
  have goes := goesOn goes (.call 100 (by decide)) (by decide)
  have goes := goesOn goes (.store (List.mem_singleton_self (100 : Int32)) (by decide)) (by decide)
  have goes := goesOn goes (.wait 2500 (by decide)) (by decide)
  have goes := goesOn goes (.woken (rfl : _ = Pc.asleep 2000) (by decide)) (by decide)
  have goes := goesOn goes (.read rfl 1) (by decide)
  have goes := goesOn goes (.compare rfl) (by decide)
  have goes := goesOn goes (.report rfl) (by decide)
  have goes := goesOn goes (.adopt rfl) (by decide)
  have goes := goesOn goes (.delay rfl) (by decide)
  exact goes

def stopping : List Act :=
  [.call 0,.store 0,.begin,.init 0,.compare,.report 2000 0,.adopt,.delay 0 0]

def stopped : System := ⟨.halted,0,0,0,[],0⟩

theorem goesStopping : Goes stopping stopped := by
  have goes := goesOn goesStart (.call 0 (by decide)) (by decide)
  have goes := goesOn goes (.store (List.mem_singleton_self (0 : Int32)) (by decide)) (by decide)
  have goes := goesOn goes (.begin rfl) (by decide)
  have goes := goesOn goes (.init rfl) (by decide)
  have goes := goesOn goes (.compare rfl) (by decide)
  have goes := goesOn goes (.report rfl) (by decide)
  have goes := goesOn goes (.adopt rfl) (by decide)
  have goes := goesOn goes (.delay rfl) (by decide)
  exact goes

theorem settingsTakeEffect (run : Steps (TaskStep K test) powerOn es t) :
    (∀ pre n now post, es = pre ++ .delay n now :: post → ∃ v, n = interval v ∧ Taken pre v) ∧
    ∀ pre v post, es = pre ++ .store v :: post → (∀ w, .store w ∉ post) →
      ∀ n ∈ (delaysIn post).tail, n = interval v := by
  constructor
  · intro pre n now post whole
    rw [whole] at run
    exact delayTaken run
  · intro pre v post whole last n later
    rw [whole] at run
    exact laterDelay run last later

theorem settingsTakeEffectSoon :
    (∀ pre n now post, changing = pre ++ .delay n now :: post → ∃ v, n = interval v ∧ Taken pre v) ∧
    ∀ pre v post, changing = pre ++ .store v :: post → (∀ w, .store w ∉ post) →
      ∀ n ∈ (delaysIn post).tail, n = interval v := settingsTakeEffect goesChanging.run

theorem zeroHalts (asserts : K.Asserts) (run : Steps (TaskStep K test) powerOn es t) :
    (t.pc = .halted ↔ ∃ now, .delay 0 now ∈ es) ∧ (t.pc = .halted → .store 0 ∈ es) ∧
    ∀ pre post, es = pre ++ .store 0 :: post → (∀ w, .store w ∉ post) →
      2 ≤ (delaysIn post).length → t.pc = .halted := by
  have stopped : ∀ now, .delay 0 now ∈ es → t.pc = .halted ∧ .store 0 ∈ es := by
    intro now mem
    obtain ⟨pre,post,whole⟩ := List.append_of_mem mem
    rw [whole] at run
    obtain ⟨halted,_,stored⟩ := zeroStops asserts run
    exact ⟨halted,by rw [whole]; exact List.mem_append_left _ stored⟩
  have delayed : t.pc = .halted → ∃ now, .delay 0 now ∈ es := by
    intro halted
    obtain ⟨pre,n,now,previous,tick,whole,stops⟩ := (followsRun run).halted halted
    rw [(asserts n previous tick).mp stops] at whole
    exact ⟨now,by rw [whole]; exact List.mem_append_right _ List.mem_cons_self⟩
  refine ⟨⟨delayed,fun ⟨now,mem⟩ => (stopped now mem).1⟩,?_,?_⟩
  · intro halted
    obtain ⟨now,mem⟩ := delayed halted
    exact (stopped now mem).2
  · intro pre post whole last two
    obtain ⟨n,later⟩ := List.exists_mem_of_length_pos (l := (delaysIn post).tail)
      (by rw [List.length_tail]; omega)
    obtain ⟨first,m,at',between,now,rest,split⟩ := secondDelay later
    rw [whole] at run
    have zero : n = 0 := (laterDelay run last later).trans ((intervalZero 0).mpr rfl)
    have mem : .delay 0 now ∈ es := by
      rw [whole,split,zero]
      simp
    exact (stopped now mem).1

theorem zeroHaltsAtOnce :
    (stopped.pc = .halted ↔ ∃ now, .delay 0 now ∈ stopping) ∧
    (stopped.pc = .halted → .store 0 ∈ stopping) ∧
    ∀ pre post, stopping = pre ++ .store 0 :: post → (∀ w, .store w ∉ post) →
      2 ≤ (delaysIn post).length → stopped.pc = .halted := zeroHalts freeRtosAsserts goesStopping.run

theorem readingsOnSchedule (asserts : K.Asserts) (delays : K.Delays)
    (run : Steps (TaskStep K test) powerOn es t) (timely : Timely es) :
    (t.pc = .pinRead → schedule es ≤ t.ticks) ∧
    (∀ wake, t.pc = .asleep wake → wake = schedule es) ∧
    ∀ pre n now, es = pre ++ [.delay n now] → n ≠ 0 →
      t.pc = if now < schedule es then .asleep (schedule es) else .pinRead := by
  have phase := phaseRun asserts delays run timely
  refine ⟨?_,?_,?_⟩
  · intro reads
    exact ((phaseBetween (by rw [reads]; rfl)).mp phase).2
  · intro wake sleeps
    unfold Phase at phase
    simp only [sleeps] at phase
    exact phase.2
  · intro pre n now whole positive
    rw [whole,scheduleSnoc]
    rw [whole] at run timely
    obtain ⟨u,before,step⟩ := stepsLast run
    have earlier := phaseRun asserts delays before (timelyBefore timely)
    have late := timely pre n now [] rfl
    cases step with
    | delay at' =>
      obtain ⟨last,due⟩ := (phaseBetween (by rw [at']; rfl)).mp earlier
      rw [delayPlace delays positive last due late]
      rfl

theorem readingsOnScheduleLate :
    (changed.pc = .pinRead → schedule changing ≤ changed.ticks) ∧
    (∀ wake, changed.pc = .asleep wake → wake = schedule changing) ∧
    ∀ pre n now, changing = pre ++ [.delay n now] → n ≠ 0 →
      changed.pc = if now < schedule changing then .asleep (schedule changing) else .pinRead :=
  readingsOnSchedule freeRtosAsserts freeRtosDelays goesChanging.run goesChanging.timely

end Results

end AkNano.ButtonTask
