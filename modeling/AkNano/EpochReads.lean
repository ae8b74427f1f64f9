import AkNano.StartUp

/-! The epoch that the client's readings add to. The zero test and the store of the default
are two steps, so the server's answer may come between them and be lost. An epoch other than
0 that is in place once the server has answered stays, except for a store under way. -/
namespace AkNano.EpochReads
open Interrupted WallClock StartUp

def sync : Act → Option UInt32
  | .sntp sec => some sec
  | _ => none

def syncsIn (es : List Act) : List UInt32 := es.filterMap sync

def ofReader : Act → Bool
  | .test | .store | .load _ | .count _ | .read _ => true
  | _ => false

section Reads

variable {staticNetwork : Bool} {s t u : System} {es : List Act}

theorem syncsRun (run : Steps (StartStep staticNetwork) powerOn es t) :
    syncsIn es = t.server.toList := by
  induction run with
  | nil => rfl
  | snoc run last ih =>
    unfold syncsIn at ih ⊢
    rw [List.filterMap_append,ih]
    cases last with
    | wait n => exact List.append_nil _
    | hook r goes awake => exact List.append_nil _
    | sntp sec on =>
      rw [(soundRun run).waiting (.inr on)]
      rfl
    | sntpStop at' awake => exact List.append_nil _
    | reader step => cases step <;> exact List.append_nil _

theorem seenLater {i : Nat} (sound : Sound t) {thread : Bool} (pc : t.pc = .started i thread)
    (early : i < 20) : Seen t := by
  have phase := sound.phase
  unfold Phase at phase
  simp only [pc] at phase
  exact phase.seen early

structure Held (e : Int) (s : System) : Prop where
  sound : Sound s
  answered : s.server ≠ none
  epoch : s.clock.bootUpEpoch = e

structure Settled (e : Int) (s : System) : Prop extends Held e s where
  calm : s.reader ≠ .storing
  loaded : ∀ x, s.reader = .loaded x → x = e

theorem answeredStep {a : Act} (answered : s.server ≠ none) (step : StartStep staticNetwork s a t) :
    t.server ≠ none := by
  cases step with
  | wait n => exact answered
  | hook r goes awake => exact answered
  | sntp sec on => exact Option.some_ne_none sec
  | sntpStop at' awake => exact answered
  | reader step =>
    rw [(readAside step).1.server]
    exact answered

theorem heldStep {e : Int} {a : Act} (held : Held e s) (step : StartStep staticNetwork s a t)
    (kept : a ≠ .store) : Held e t := by
  refine ⟨soundStep held.sound step,answeredStep held.answered step,?_⟩
  cases step with
  | wait n => exact held.epoch
  | hook r goes awake => exact held.epoch
  | sntp sec on => exact absurd (held.sound.waiting (.inr on)) held.answered
  | sntpStop at' awake => exact held.epoch
  | reader step =>
    rw [readClock step kept]
    exact held.epoch

theorem calmStep {e : Int} {a : Act} (set : e ≠ 0) (held : Held e s) (calm : s.reader ≠ .storing)
    (step : StartStep staticNetwork s a t) : a ≠ .store ∧ t.reader ≠ .storing := by
  cases step with
  | wait n => exact ⟨by simp,calm⟩
  | hook r goes awake => exact ⟨by simp,calm⟩
  | sntp sec on => exact ⟨by simp,calm⟩
  | sntpStop at' awake => exact ⟨by simp,calm⟩
  | reader step =>
    cases step with
    | store at' => exact absurd at' calm
    | test runs at' =>
      -- the epoch is set, so the test goes straight to the load
      refine ⟨by simp,?_⟩
      rw [if_neg (by rw [held.epoch]; exact set)]
      simp
    | load at' | count at' | countLast at' | loadLast at' => exact ⟨by simp,by simp⟩

theorem settledStep {e : Int} {a : Act} (set : e ≠ 0) (settled : Settled e s)
    (step : StartStep staticNetwork s a t) : Settled e t := by
  obtain ⟨kept,calm⟩ := calmStep set settled.toHeld settled.calm step
  refine ⟨heldStep settled.toHeld step kept,calm,?_⟩
  intro x loaded
  cases step with
  | wait n => exact settled.loaded x loaded
  | hook r goes awake => exact settled.loaded x loaded
  | sntp sec on => exact settled.loaded x loaded
  | sntpStop at' awake => exact settled.loaded x loaded
  | reader step =>
    cases step with
    | store at' => exact absurd rfl kept
    | test runs at' =>
      simp only at loaded
      split at loaded <;> contradiction
    | load at' =>
      cases loaded
      exact settled.epoch
    | count at' | countLast at' | loadLast at' => contradiction

theorem settledRun {e : Int} (set : e ≠ 0) (run : Steps (StartStep staticNetwork) s es t)
    (settled : Settled e s) : Settled e t :=
  stepsInvariant (Settled e) (fun _ _ _ settled step => settledStep set settled step) run settled

theorem calmRun {e : Int} (set : e ≠ 0) (run : Steps (StartStep staticNetwork) s es t)
    (held : Held e s) (calm : s.reader ≠ .storing) :
    .store ∉ es ∧ Held e t ∧ t.reader ≠ .storing := by
  induction run with
  | nil => exact ⟨List.not_mem_nil,held,calm⟩
  | snoc run last ih =>
    obtain ⟨none,before,still⟩ := ih
    obtain ⟨kept,calm⟩ := calmStep set before still last
    exact ⟨by simp [none,kept.symm],heldStep before last kept,calm⟩

theorem testSettles {e : Int} (set : e ≠ 0) (held : Held e s)
    (step : StartStep staticNetwork s .test t) : Settled e t := by
  have after := heldStep held step (by simp)
  cases step with
  | reader step =>
    cases step with
    | test runs at' =>
      have loading : s.clock.bootUpEpoch ≠ 0 := by rwa [held.epoch]
      refine ⟨after,?_,?_⟩
      · rw [if_neg loading]
        simp
      · intro x loaded
        rw [if_neg loading] at loaded
        contradiction

theorem testedRun {e : Int} (set : e ≠ 0) (run : Steps (StartStep staticNetwork) s es t)
    (held : Held e s) (kept : .store ∉ es) : Held e t ∧ (.test ∈ es → Settled e t) := by
  induction run with
  | nil => exact ⟨held,fun tested => absurd tested List.not_mem_nil⟩
  | @snoc u t es a run last ih =>
    obtain ⟨before,settled⟩ := ih (fun stored => kept (by simp [stored]))
    have other : a ≠ .store := fun same => kept (by simp [same])
    refine ⟨heldStep before last other,?_⟩
    intro tested
    rcases List.mem_append.mp tested with earlier | now
    · exact settledStep set (settled earlier) last
    · rw [← List.mem_singleton.mp now] at last
      exact testSettles set before last

theorem storeSettles (sound : Sound s) (answered : s.server ≠ none)
    (step : StartStep staticNetwork s .store t) : Settled fallbackEpoch t := by
  have after := soundStep sound step
  cases step with
  | reader step =>
    cases step with
    | store at' => exact ⟨⟨after,answered,rfl⟩,by simp,by simp⟩

theorem secondsSet {sec : UInt32} (set : sec ≠ 0) : (sec.toNat : Int) ≠ 0 := by
  intro zero
  exact set (UInt32.toNat_inj.mp (Int.ofNat.inj zero))

theorem startedSettled (run : Steps (StartStep staticNetwork) powerOn es t) {i : Nat}
    (pc : t.pc = .started i true) (early : i < 20) :
    ∃ sec, sec ≠ 0 ∧ t.server = some sec ∧ Settled sec.toNat t := by
  induction run with
  | nil => contradiction
  | @snoc u t es a run last ih =>
    have sound := soundRun run
    have after := soundStep sound last
    have still : t.pc = u.pc → t.server = u.server → ∃ sec, sec ≠ 0 ∧ t.server = some sec ∧
        Settled sec.toNat t := by
      intro samePc sameServer
      obtain ⟨sec,set,server,settled⟩ := ih (by rwa [samePc] at pc)
      exact ⟨sec,set,sameServer.trans server,settledStep (secondsSet set) settled last⟩
    cases last with
    | wait n => exact still rfl rfl
    | sntp sec on =>
      obtain ⟨earlier,_,server,_⟩ := ih pc
      rw [sound.waiting (.inr on)] at server
      contradiction
    | sntpStop at' awake => exact still rfl rfl
    | reader step =>
      obtain ⟨aside,_⟩ := readAside step
      exact still aside.pc aside.server
    | hook r goes awake =>
      -- the thread is new: nobody has read the clock yet
      obtain ⟨sec,server,set⟩ := seenLater after pc early
      have unthreaded : u.pc.threaded = false := by
        cases at' : u.pc <;> simp_all [Pc.over,Pc.threaded]
      obtain ⟨stored,idle⟩ := sound.unread unthreaded
      change u.server = some sec at server
      rw [server] at stored
      refine ⟨sec,set,server,⟨after,by simp [hook,server],stored⟩,?_,?_⟩
      · change u.reader ≠ .storing
        simp [idle]
      · intro x loaded
        change u.reader = .loaded x at loaded
        rw [idle] at loaded
        contradiction

theorem readingBegun (run : Steps (StartStep staticNetwork) powerOn es t) (busy : t.reader ≠ .idle) :
    ∃ before mid v, es = before ++ .test :: mid ∧ .test ∉ mid ∧
    Steps (StartStep staticNetwork) powerOn before v ∧ v.clock.ticks ≤ t.clock.ticks ∧
    (t.reader = .storing → ∀ a ∈ mid, ofReader a = false) ∧
    ∀ now, t.reader = .counted now → v.clock.ticks ≤ now := by
  induction run with
  | nil => exact absurd rfl busy
  | @snoc u t es a run last ih =>
    have goesOn : u.reader ≠ .idle → a ≠ .test → u.clock.ticks ≤ t.clock.ticks →
        (t.reader = .storing → u.reader = .storing ∧ ofReader a = false) →
        (∀ now, t.reader = .counted now → u.reader = .counted now ∨ now = u.clock.ticks) →
        ∃ before mid v, es ++ [a] = before ++ .test :: mid ∧ .test ∉ mid ∧
        Steps (StartStep staticNetwork) powerOn before v ∧ v.clock.ticks ≤ t.clock.ticks ∧
        (t.reader = .storing → ∀ a ∈ mid, ofReader a = false) ∧
        ∀ now, t.reader = .counted now → v.clock.ticks ≤ now := by
      intro busy other later storing counted
      obtain ⟨before,mid,v,whole,once,begins,older,quiet,count⟩ := ih busy
      refine ⟨before,mid ++ [a],v,by simp [whole],by simp [once,other.symm],begins,
        Nat.le_trans older later,?_,?_⟩
      · intro now
        obtain ⟨was,aside⟩ := storing now
        intro b mem
        rcases List.mem_append.mp mem with earlier | last
        · exact quiet was b earlier
        · rw [List.mem_singleton.mp last]
          exact aside
      · intro now at'
        rcases counted now at' with was | same
        · exact count now was
        · rw [same]
          exact older
    cases last with
    | wait n =>
      exact goesOn busy (by simp) (Nat.le_add_right _ _) (fun at' => ⟨at',rfl⟩) (fun _ => .inl)
    | hook r goes awake | sntp sec on | sntpStop at' awake =>
      exact goesOn busy (by simp) (Nat.le_refl _) (fun at' => ⟨at',rfl⟩) (fun _ => .inl)
    | reader step =>
      cases step with
      | test runs at' =>
        refine ⟨es,[],u,rfl,List.not_mem_nil,run,Nat.le_refl _,by simp,?_⟩
        intro now counted
        simp only at counted
        split at counted <;> contradiction
      | store at' | load at' =>
        exact goesOn (by simp [at']) (by simp) (Nat.le_refl _) (by simp) (by simp)
      | count at' =>
        refine goesOn (by simp [at']) (by simp) (Nat.le_refl _) (by simp) ?_
        intro now same
        cases same
        exact .inr rfl
      | countLast at' | loadLast at' => exact absurd rfl busy

theorem readEnds (sound : Sound s) {r : Int} (step : StartStep staticNetwork s (.read r) t) :
    ∃ e now, r = reading e now ∧ s.reader ≠ .idle ∧ Known s e ∧ (∀ x, Settled x s → e = x) ∧
    (now = s.clock.ticks ∨ s.reader = .counted now ∧ now ≤ s.clock.ticks) := by
  have knows := sound.reader
  unfold ReaderKnows at knows
  generalize act : Act.read r = a at step
  cases step with
  | wait n | hook r goes awake | sntp sec on | sntpStop at' awake => contradiction
  | reader step =>
    cases step with
    | test runs at' | store at' | load at' | count at' => contradiction
    | @countLast epoch at' =>
      cases act
      simp only [at'] at knows
      exact ⟨epoch,_,rfl,by simp [at'],knows,fun x settled => settled.loaded epoch at',.inl rfl⟩
    | @loadLast now at' =>
      cases act
      simp only [at'] at knows
      exact ⟨_,now,rfl,by simp [at'],knows.1,fun x settled => settled.epoch,.inr ⟨at',knows.2⟩⟩

theorem readAlone (runs : s.pc.threaded = true) (idle : s.reader = .idle) :
    ∃ es, Steps (StartStep staticNetwork) s (es ++ [.read (aknanoCliGetCurrentEpoch s.clock).1])
      {s with clock := (aknanoCliGetCurrentEpoch s.clock).2} := by
  obtain ⟨c,pc,reader,client,server,since,slept⟩ := s
  subst idle
  have run : Steps (StartStep staticNetwork) _ [.test] _ :=
    (Steps.nil _).snoc (.reader (.test runs rfl))
  rw [readExact]
  unfold orFallback
  by_cases unset : c.bootUpEpoch = 0
  · rw [if_pos unset] at run ⊢
    have run := run.snoc (.reader (.store rfl))
    have run := run.snoc (.reader (.load rfl))
    exact ⟨_,run.snoc (.reader (.countLast rfl))⟩
  · rw [if_neg unset] at run ⊢
    have run := run.snoc (.reader (.load rfl))
    exact ⟨_,run.snoc (.reader (.countLast rfl))⟩

/-- The epoch `e` of a reading that ends the run `es`; the hook left its loop with `i`. -/
structure Follows (es : List Act) (i : Nat) (e : Int) : Prop where
  once : (syncsIn es).length ≤ 1
  known : e = fallbackEpoch ∨ ∃ sec, syncsIn es = [sec] ∧ e = sec.toNat
  waited : i < 20 → ∃ sec, sec ≠ 0 ∧ syncsIn es = [sec] ∧ e = sec.toNat
  answered : ∀ pre sec post, es = pre ++ .sntp sec :: post → sec ≠ 0 → .test ∈ post →
    .store ∉ post → e = sec.toNat
  overtaken : ∀ pre sec post, es = pre ++ .sntp sec :: post → sec ≠ 0 → .store ∈ post →
    e = fallbackEpoch ∧ ∃ before mid, pre = before ++ .test :: mid ∧ ∀ a ∈ mid, ofReader a = false

theorem heldAnswer {sec : UInt32} (sound : Sound s) (step : StartStep staticNetwork s (.sntp sec) t) :
    Held sec.toNat t ∧ t.reader = s.reader := by
  have after := soundStep sound step
  cases step with
  | sntp sec on => exact ⟨⟨after,Option.some_ne_none sec,rfl⟩,rfl⟩
  | reader step => cases step

theorem overtakenRun {pre post : List Act} {sec : UInt32} (set : sec ≠ 0)
    (run : Steps (StartStep staticNetwork) powerOn (pre ++ .sntp sec :: post) t)
    (stored : .store ∈ post) : Settled fallbackEpoch t ∧
    ∃ before mid, pre = before ++ .test :: mid ∧ ∀ a ∈ mid, ofReader a = false := by
  obtain ⟨u,v,first,answer,rest⟩ := stepsCut run
  obtain ⟨held,reader⟩ := heldAnswer (soundRun first) answer
  constructor
  · obtain ⟨as,bs,rfl⟩ := List.append_of_mem stored
    obtain ⟨w,x,early,store,late⟩ := stepsCut rest
    have sound : Sound w := stepsInvariant Sound (fun _ _ _ => soundStep) early held.sound
    have answered : w.server ≠ none :=
      stepsInvariant (·.server ≠ none) (fun _ _ _ => answeredStep) early held.answered
    exact settledRun (by decide) late (storeSettles sound answered store)
  · -- a reading that is not past its test never stores over the answer
    have storing : u.reader = .storing := by
      by_contra calm
      exact (calmRun (secondsSet set) rest held (by rwa [reader])).1 stored
    obtain ⟨before,mid,_,whole,_,_,_,quiet,_⟩ := readingBegun first (by simp [storing])
    exact ⟨before,mid,whole,quiet storing⟩

theorem followsRun (run : Steps (StartStep staticNetwork) powerOn es t) {i : Nat}
    (pc : t.pc = .started i true) {e : Int} (known : Known t e) (settled : ∀ x, Settled x t → e = x) :
    Follows es i e := by
  have syncs := syncsRun run
  refine ⟨?_,?_,?_,?_,?_⟩
  · rw [syncs]
    cases t.server with
    | none => exact Nat.zero_le 1
    | some sec => exact Nat.le_refl 1
  · rcases known with fallback | ⟨sec,server,value⟩
    · exact .inl fallback
    · exact .inr ⟨sec,by rw [syncs,server]; rfl,value⟩
  · intro early
    obtain ⟨sec,set,server,kept⟩ := startedSettled run pc early
    exact ⟨sec,set,by rw [syncs,server]; rfl,settled _ kept⟩
  · intro pre sec post whole set tested kept
    rw [whole] at run
    obtain ⟨u,v,first,answer,rest⟩ := stepsCut run
    obtain ⟨held,_⟩ := heldAnswer (soundRun first) answer
    exact settled _ ((testedRun (secondsSet set) rest held kept).2 tested)
  · intro pre sec post whole set stored
    rw [whole] at run
    obtain ⟨kept,overtook⟩ := overtakenRun set run stored
    exact ⟨settled _ kept,overtook⟩

theorem readsFollowServer (run : Steps (StartStep staticNetwork) powerOn es t) {r : Int}
    (last : StartStep staticNetwork t (.read r) u) : ∃ i e now before mid v,
    t.pc = .started i true ∧ r = reading e now ∧ Follows es i e ∧
    es = before ++ .test :: mid ∧ .test ∉ mid ∧ Steps (StartStep staticNetwork) powerOn before v ∧
    v.clock.ticks ≤ now ∧ now ≤ t.clock.ticks := by
  have sound := soundRun run
  obtain ⟨e,now,value,busy,known,settled,count⟩ := readEnds sound last
  obtain ⟨before,mid,v,whole,once,begins,older,_,counted⟩ := readingBegun run busy
  have threaded : t.pc.threaded = true := by
    by_contra unthreaded
    exact busy (sound.unread (Bool.eq_false_iff.mpr unthreaded)).2
  have started : ∃ i, t.pc = .started i true := by
    cases pc : t.pc with
    | started i thread =>
      rw [pc] at threaded
      exact ⟨i,by rw [show thread = true from threaded]⟩
    | _ => simp [pc,Pc.threaded] at threaded
  obtain ⟨i,pc⟩ := started
  refine ⟨i,e,now,before,mid,v,pc,value,followsRun run pc known settled,whole,once,begins,?_⟩
  rcases count with same | ⟨at',bound⟩
  · rw [same]
    exact ⟨older,Nat.le_refl _⟩
  · exact ⟨counted now at',bound⟩

end Reads

section Late

def unanswered (i : Nat) : System :=
  ⟨⟨0,1000 * i⟩,.polling i (1000 * i + 1000),.idle,.polling,none,0,1000 * i + 1000⟩

theorem silentPolls (i : Nat) (more : i < 20) :
    ∃ es, Steps (StartStep true) sntpReady es (unanswered i) := by
  induction i with
  | zero => exact ⟨_,hookGoes 0 (.nil sntpReady) rfl (.inl rfl)⟩
  | succ i ih =>
    obtain ⟨es,run⟩ := ih (by omega)
    have run := hookGoes 0 (run.snoc (.wait _ 1000)) rfl (.inr rfl)
    have next : hook true 0 {unanswered i with
        clock := {(unanswered i).clock with ticks := (unanswered i).clock.ticks + 1000}} =
        unanswered (i + 1) := by
      simp [hook,hookNext,unanswered,more,Pc.sleeps,Nat.mul_add]
    rw [next] at run
    exact ⟨_,run⟩

def startedUnanswered : System := ⟨⟨0,20000⟩,.started 20 true,.idle,.polling,none,0,20000⟩

def overtaken : System :=
  ⟨⟨fallbackEpoch,20000⟩,.started 20 true,.counted 20000,.stopping 20050,some 1700000000,0,20000⟩

theorem silentStart : ∃ es, Steps (StartStep true) powerOn es startedUnanswered := by
  obtain ⟨es,boots⟩ := quickBoot
  obtain ⟨fs,polls⟩ := silentPolls 19 (by decide)
  have run := hookGoes 0 ((stepsAppend boots polls).snoc (.wait _ 1000)) rfl (.inr rfl)
  have run := hookGoes 0 run rfl (.inl rfl)
  exact ⟨_,hookGoes 1 run rfl (.inl rfl)⟩

theorem overtakenStart : ∃ es, Steps (StartStep true) powerOn es overtaken := by
  obtain ⟨es,run⟩ := silentStart
  have run := run.snoc (.reader (.test rfl rfl))
  have run := run.snoc (.sntp 1700000000 rfl)
  have run := run.snoc (.reader (.store rfl))
  exact ⟨_,run.snoc (.reader (.count rfl))⟩

theorem readsFollowServerLate : ∃ es t r u, Steps (StartStep true) powerOn es t ∧
    StartStep true t (.read r) u ∧ r = reading fallbackEpoch 20000 ∧
    syncsIn (es ++ [.read r]) = [1700000000] ∧ ∃ i e now before mid v,
    t.pc = .started i true ∧ r = reading e now ∧ Follows es i e ∧
    es = before ++ .test :: mid ∧ .test ∉ mid ∧ Steps (StartStep true) powerOn before v ∧
    v.clock.ticks ≤ now ∧ now ≤ t.clock.ticks := by
  obtain ⟨es,run⟩ := overtakenStart
  have run := run.snoc (.reader (.loadLast rfl))
  obtain ⟨fs,again⟩ : ∃ fs, Steps (StartStep true) {overtaken with reader := .idle} (fs ++ _) _ :=
    readAlone rfl rfl
  have whole := stepsAppend run again
  have syncs := syncsRun whole
  rw [← List.append_assoc] at whole syncs
  obtain ⟨t,run,last⟩ := stepsLast whole
  exact ⟨_,t,_,_,run,last,rfl,syncs,readsFollowServer run last⟩

end Late

end AkNano.EpochReads
