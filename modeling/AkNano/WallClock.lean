import AkNano.Interrupted

/-! The client's wall clock: an epoch stored by the SNTP callback, or by the first read when
there is none yet, plus the seconds on the 32-bit tick counter. `ticks` counts from boot
and never wraps. Callbacks and reads are taken as atomic, in any order and at any time. -/
namespace AkNano.WallClock
open Interrupted

structure Clock where
  bootUpEpoch : Int
  ticks : Nat

def boot : Clock := ⟨0,0⟩

def xTaskGetTickCount (c : Clock) : Nat := c.ticks % 4294967296

def fallbackEpoch : Int := 1637778974

def aknanoClientSntpSetSystemTime (sec : UInt32) (c : Clock) : Clock :=
  {c with bootUpEpoch := sec.toNat}

def installFallback (c : Clock) : Clock :=
  if c.bootUpEpoch = 0 then {c with bootUpEpoch := fallbackEpoch} else c

def aknanoCliGetCurrentEpoch (c : Clock) : Int × Clock :=
  let c := installFallback c
  (c.bootUpEpoch + (xTaskGetTickCount c / 1000 : Nat),c)

inductive ClockEvent where
  | wait (n : Nat)
  | sntp (sec : UInt32)
  | read (result : Int)
  deriving DecidableEq, Repr

def ClockEvent.syncs : ClockEvent → Bool
  | .sntp _ => true
  | .wait _ | .read _ => false

inductive ClockStep : Clock → ClockEvent → Clock → Prop where
  | wait (c : Clock) (n : Nat) : ClockStep c (.wait n) {c with ticks := c.ticks + n}
  | sntp (c : Clock) (sec : UInt32) : ClockStep c (.sntp sec) (aknanoClientSntpSetSystemTime sec c)
  | read (c : Clock) :
      ClockStep c (.read (aknanoCliGetCurrentEpoch c).1) (aknanoCliGetCurrentEpoch c).2

def orFallback (e : Int) : Int := if e = 0 then fallbackEpoch else e

structure Since (e : Int) (n : Nat) (c : Clock) : Prop where
  epoch : orFallback c.bootUpEpoch = e
  later : n ≤ c.ticks

section Runs

variable {s t : Clock}

theorem fallbackOnce (e : Int) : orFallback (orFallback e) = orFallback e := by
  by_cases unset : e = 0
  · rw [unset]
    rfl
  · have set : orFallback e = e := if_neg unset
    rw [set,set]

theorem readExact (c : Clock) : aknanoCliGetCurrentEpoch c =
    (orFallback c.bootUpEpoch + ((c.ticks % 4294967296 / 1000 : Nat) : Int),
      ⟨orFallback c.bootUpEpoch,c.ticks⟩) := by
  have installed : installFallback c = ⟨orFallback c.bootUpEpoch,c.ticks⟩ := by
    unfold installFallback orFallback
    split <;> rfl
  simp only [aknanoCliGetCurrentEpoch,xTaskGetTickCount,installed]

theorem readStep (e : Int) (n : Nat) : ClockStep ⟨e,n⟩
    (.read (orFallback e + ((n % 4294967296 / 1000 : Nat) : Int))) ⟨orFallback e,n⟩ := by
  have step := ClockStep.read ⟨e,n⟩
  rwa [readExact] at step

theorem sinceSynced {sec : UInt32} (sync : ClockStep s (.sntp sec) t) :
    Since (orFallback sec.toNat) s.ticks t := by
  cases sync
  exact ⟨rfl,Nat.le_refl _⟩

theorem sinceRead {r : Int} (reading : ClockStep s (.read r) t) :
    Since (orFallback s.bootUpEpoch) s.ticks t := by
  cases reading
  rw [readExact]
  exact ⟨fallbackOnce _,Nat.le_refl _⟩

theorem readValue {r : Int} (reading : ClockStep s (.read r) t) :
    r = orFallback s.bootUpEpoch + ((s.ticks % 4294967296 / 1000 : Nat) : Int) := by
  cases reading
  rw [readExact]

theorem sinceStep {e : Int} {n : Nat} {ev : ClockEvent} (quiet : ev.syncs = false)
    (since : Since e n s) (step : ClockStep s ev t) : Since e n t := by
  cases ev with
  | wait m =>
    cases step
    exact ⟨since.epoch,Nat.le_add_right_of_le since.later⟩
  | sntp sec => exact absurd quiet (by simp [ClockEvent.syncs])
  | read r =>
    have after := sinceRead step
    exact ⟨after.epoch.trans since.epoch,Nat.le_trans since.later after.later⟩

theorem sinceRun {e : Int} {n : Nat} {es : List ClockEvent} (run : Steps ClockStep s es t)
    (quiet : ∀ ev ∈ es, ev.syncs = false) (since : Since e n s) : Since e n t :=
  stepsInvariantAmong (fun ev => ev.syncs = false) (Since e n)
    (fun _ _ _ quiet since step => sinceStep quiet since step) run quiet since

theorem readSince {e r : Int} {n : Nat} {es : List ClockEvent} {u : Clock}
    (run : Steps ClockStep s es t) (quiet : ∀ ev ∈ es, ev.syncs = false) (since : Since e n s)
    (reading : ClockStep t (.read r) u) :
    n ≤ t.ticks ∧ r = e + ((t.ticks % 4294967296 / 1000 : Nat) : Int) := by
  have before := sinceRun run quiet since
  exact ⟨before.later,(readValue reading).trans (by rw [before.epoch])⟩

end Runs

/-- A read at `t` that has its epoch from the callback at `t0`, in a run from boot. -/
structure SyncedRead (sec : UInt32) (t0 t : Nat) (r : Int) : Prop where
  run : ∃ es fs s a u v, Steps ClockStep boot es s ∧ ClockStep s (.sntp sec) a ∧
    Steps ClockStep a fs u ∧ (∀ ev ∈ fs, ev.syncs = false) ∧ ClockStep u (.read r) v ∧
    s.ticks = t0 ∧ u.ticks = t

def Accurate (sec : UInt32) (t0 t : Nat) (r : Int) : Prop :=
  (r - (sec.toNat + ((t - t0) / 1000 : Nat))).natAbs ≤ 1

structure ReadsBetween (t1 : Nat) (r1 : Int) (t2 : Nat) (r2 : Int) : Prop where
  run : ∃ es fs s a u v, Steps ClockStep boot es s ∧ ClockStep s (.read r1) a ∧
    Steps ClockStep a fs u ∧ (∀ ev ∈ fs, ev.syncs = false) ∧ ClockStep u (.read r2) v ∧
    s.ticks = t1 ∧ u.ticks = t2

theorem syncedReadValue {sec : UInt32} {t0 t : Nat} {r : Int} (h : SyncedRead sec t0 t r) :
    t0 ≤ t ∧ r = orFallback sec.toNat + ((t % 4294967296 / 1000 : Nat) : Int) := by
  obtain ⟨es,fs,s,a,u,v,_,sync,run,quiet,reading,rfl,rfl⟩ := h.run
  exact readSince run quiet (sinceSynced sync) reading

theorem readsBetweenValues {t1 t2 : Nat} {r1 r2 : Int} (h : ReadsBetween t1 r1 t2 r2) :
    t1 ≤ t2 ∧ ∃ e : Int, r1 = e + ((t1 % 4294967296 / 1000 : Nat) : Int) ∧
      r2 = e + ((t2 % 4294967296 / 1000 : Nat) : Int) := by
  obtain ⟨es,fs,s,a,u,v,_,first,run,quiet,second,rfl,rfl⟩ := h.run
  obtain ⟨later,value⟩ := readSince run quiet (sinceRead first) second
  exact ⟨later,_,readValue first,value⟩

/-- The callback came within a second of boot, but for rounding. -/
def SyncedAtBoot (sec : UInt32) (t0 t : Nat) : Prop :=
  sec ≠ 0 ∧ (t0 < 1000 ∨ t0 < 2000 ∧ t0 % 1000 ≤ t % 1000)

theorem accurateWhenSyncedAtBoot {sec : UInt32} {t0 t : Nat} {r : Int} (unwrapped : t < 4294967296)
    (h : SyncedRead sec t0 t r) : Accurate sec t0 t r ↔ SyncedAtBoot sec t0 t := by
  obtain ⟨later,value⟩ := syncedReadValue h
  have bound := sec.toNat_lt
  rw [Nat.mod_eq_of_lt unwrapped] at value
  have unset : sec.toNat = 0 ↔ sec = 0 := by
    rw [← UInt32.toNat_inj]
    rfl
  unfold Accurate SyncedAtBoot
  rw [value,ne_eq,← unset]
  unfold orFallback fallbackEpoch
  split
  case isTrue zero => omega
  case isFalse set => omega

theorem syncedReadAfter (sec : UInt32) (t0 wait : Nat) : SyncedRead sec t0 (t0 + wait)
    (orFallback sec.toNat + (((t0 + wait) % 4294967296 / 1000 : Nat) : Int)) := by
  have start : Steps ClockStep boot [.wait t0] ⟨0,0 + t0⟩ := .snoc (.nil _) (.wait boot t0)
  rw [Nat.zero_add] at start
  have waits : Steps ClockStep ⟨sec.toNat,t0⟩ [.wait wait] ⟨sec.toNat,t0 + wait⟩ :=
    .snoc (.nil _) (.wait _ wait)
  exact ⟨_,_,_,_,_,_,start,.sntp _ sec,waits,by simp [ClockEvent.syncs],readStep _ _,rfl,rfl⟩

theorem clockFastAfterLateSync : ∃ sec t0 t r, t < 4294967296 ∧ SyncedRead sec t0 t r ∧
    ¬ Accurate sec t0 t r :=
  ⟨1700000000,5000,_,_,by decide,syncedReadAfter 1700000000 5000 0,by simp [Accurate,orFallback]⟩

theorem accurateWhenSyncedAtOnce : Accurate 1700000000 300 5300 1700000005 ↔
    SyncedAtBoot 1700000000 300 5300 :=
  accurateWhenSyncedAtBoot (by decide) (syncedReadAfter 1700000000 300 5000)

theorem epochMonotoneWhen {t1 t2 : Nat} {r1 r2 : Int} (h : ReadsBetween t1 r1 t2 r2) :
    r1 ≤ r2 ↔ t1 / 4294967296 = t2 / 4294967296 ∨
      t1 % 4294967296 / 1000 ≤ t2 % 4294967296 / 1000 := by
  obtain ⟨later,e,first,second⟩ := readsBetweenValues h
  omega

theorem readsBetweenAfter (sec : UInt32) (t1 wait : Nat) : ReadsBetween t1
    (orFallback sec.toNat + ((t1 % 4294967296 / 1000 : Nat) : Int)) (t1 + wait)
    (orFallback sec.toNat + (((t1 + wait) % 4294967296 / 1000 : Nat) : Int)) := by
  have synced : Steps ClockStep boot ([.sntp sec] ++ [.wait t1]) ⟨sec.toNat,0 + t1⟩ :=
    .snoc (.snoc (.nil _) (.sntp boot sec)) (.wait ⟨sec.toNat,0⟩ t1)
  rw [Nat.zero_add] at synced
  have waits : Steps ClockStep ⟨orFallback sec.toNat,t1⟩ [.wait wait]
      ⟨orFallback sec.toNat,t1 + wait⟩ := .snoc (.nil _) (.wait _ wait)
  have second := readStep (orFallback sec.toNat) (t1 + wait)
  rw [fallbackOnce] at second
  exact ⟨_,_,_,_,_,_,synced,readStep _ _,waits,by simp [ClockEvent.syncs],second,rfl,rfl⟩

theorem epochFallsAtWrap : ∃ t1 r1 t2 r2, ReadsBetween t1 r1 t2 r2 ∧ ¬ r1 ≤ r2 :=
  ⟨4294967000,_,_,_,readsBetweenAfter 1700000000 4294967000 1000,by simp [orFallback]⟩

theorem epochMonotoneForAnHour : (1700000001 : Int) ≤ 1700003601 ↔
    1500 / 4294967296 = 3601500 / 4294967296 ∨
      1500 % 4294967296 / 1000 ≤ 3601500 % 4294967296 / 1000 :=
  epochMonotoneWhen (readsBetweenAfter 1700000000 1500 3600000)

end AkNano.WallClock
