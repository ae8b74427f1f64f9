import AkNano.Priority
import AkNano.Platform
import Mathlib.Data.Nat.Log

/-! `BOARD_ConfigMPU` of both boards: the regions it writes in order, the loop that finds the
size of the non-cacheable block, and what the processor then lets a privileged access do. A
region's block is as large as its size field says, and the highest region that holds an address
decides, except on the private peripheral bus. Linker scripts place the block; `assert` is
there unless `NDEBUG` is set. -/
namespace AkNano.BoardMpu
open Priority Platform

inductive AccessPermission where
  | none | full | ro
  deriving DecidableEq, Repr

structure Region where
  number : Nat
  base : Nat
  disableExec : Bool
  accessPermission : AccessPermission
  typeExtField : Nat
  isShareable : Bool
  isCacheable : Bool
  isBufferable : Bool
  size : Nat
  deriving DecidableEq, Repr

def Region.holds (r : Region) (a : Nat) : Bool := a >>> (r.size + 1) = r.base >>> (r.size + 1)

inductive Access where
  | load | store | fetch
  deriving DecidableEq, Repr

def Region.permits (r : Region) : Access → Bool
  | .load => r.accessPermission ≠ .none
  | .store => r.accessPermission = .full
  | .fetch => r.accessPermission ≠ .none && !r.disableExec

abbrev Mpu := Nat → Option Region

def regionAt (mpu : Mpu) (a : Nat) : Option Region := deciding (fun r => r.holds a) mpu 16

/-- Accesses to the private peripheral bus are not checked against the regions. -/
def privatePeripheral (a : Nat) : Bool := 0xe0000000 ≤ a && a < 0xe0100000

def systemSpace (a : Nat) : Bool := 0xe0000000 ≤ a

def defaultNormal (a : Nat) : Bool := a < 0x40000000 || 0x60000000 ≤ a && a < 0xa0000000

/-- What the processor lets a privileged access do. It never executes the system space, and the
default map holds where no region does (`MPU_CTRL_PRIVDEFENA_Msk`). -/
def permitted (mpu : Mpu) (a : Nat) (access : Access) : Bool :=
  if privatePeripheral a then access ≠ .fetch
  else
    match regionAt mpu a with
    | some r => r.permits access && !(access = .fetch && systemSpace a)
    | none => access ≠ .fetch || defaultNormal a

def cacheable (mpu : Mpu) (a : Nat) : Bool :=
  if privatePeripheral a then false
  else
    match regionAt mpu a with
    | some r => r.isCacheable
    | none => defaultNormal a

structure Switches where
  xipExternalFlash : Bool
  useSdram : Bool
  cacheModeWriteThrough : Bool
  asserts : Bool
  deriving DecidableEq, Repr

def size4GB : Nat := 0x1f
def size1GB : Nat := 0x1d
def size512MB : Nat := 0x1c
def size64MB : Nat := 0x19
def size32MB : Nat := 0x18
def size16MB : Nat := 0x17
def size8MB : Nat := 0x16
def size4MB : Nat := 0x15
def size2MB : Nat := 0x14
def size1MB : Nat := 0x13
def size512KB : Nat := 0x12
def size256KB : Nat := 0x11
def size128KB : Nat := 0x10

/-- Both `ARM_MPU_RBAR` and `ARM_MPU_RASR`, as the rows of the tables use them. -/
def region (number base : Nat) (disableExec : Bool) (ap : AccessPermission) (typeExtField : Nat)
    (isShareable isCacheable isBufferable : Bool) (size : Nat) : Region :=
  ⟨number,base / 32 * 32,disableExec,ap,typeExtField,isShareable,isCacheable,isBufferable,size⟩

def denyAll : Region := region 0 0x00000000 true .none 0 false false false size4GB
def device (number base size : Nat) : Region := region number base false .full 2 false false false size
def cached (buffered : Bool) (number base size : Nat) : Region :=
  region number base false .full 0 false true buffered size
def flashRegion (number base size : Nat) : Region := region number base false .ro 0 false true true size

def firstRegions : BoardModel → Switches → List Region
  | .rt1060,sw =>
    [denyAll,device 1 0x80000000 size512MB,device 2 0x60000000 size512MB] ++
    (if sw.xipExternalFlash then [flashRegion 3 0x60000000 size8MB] else []) ++
    [device 4 0x00000000 size1GB,cached true 5 0x00000000 size128KB,
      cached true 6 0x20000000 size128KB,cached true 7 0x20200000 size512KB,
      cached true 8 0x20280000 size256KB,cached true 9 0x80000000 size32MB]
  | .rt1170,sw =>
    [denyAll,device 1 0x80000000 size512MB,device 2 0x60000000 size512MB,
      device 3 0x00000000 size1GB,cached true 4 0x00000000 size256KB,
      cached true 5 0x20000000 size256KB,
      cached (!sw.cacheModeWriteThrough) 6 0x20200000 size1MB,
      cached (!sw.cacheModeWriteThrough) 7 0x20300000 size512KB] ++
    (if sw.xipExternalFlash then [flashRegion 8 0x30000000 size16MB] else []) ++
    (if sw.useSdram then [cached (!sw.cacheModeWriteThrough) 9 0x80000000 size64MB] else [])

def lastRegions : BoardModel → List Region
  | .rt1060 => [device 11 0x40000000 size4MB,device 12 0x42000000 size1MB]
  | .rt1170 =>
    [device 11 0x40000000 size16MB,device 12 0x41000000 size2MB,device 13 0x41400000 size1MB,
      device 14 0x41800000 size2MB,device 15 0x42000000 size1MB]

/-- The loop `while ((size >> i) > 0x1U) i++;` from `i` on. -/
def sizeBits (size i : Nat) : Nat := if size >>> i > 1 then sizeBits size (i + 1) else i
  termination_by size >>> i
  decreasing_by
    rw [Nat.shiftRight_succ]
    omega

def ncacheRegions (asserts : Bool) (nonCacheStart size : Nat) : Option (List Region) :=
  let i := sizeBits size 0
  if i ≠ 0 then
    if asserts ∧ ¬ (nonCacheStart % size = 0 ∧ size = 1 <<< i ∧ 5 ≤ i) then none
    else some [region 10 nonCacheStart false .full 1 false false false (i - 1)]
  else some []

def boardConfigMpu (board : BoardModel) (sw : Switches) (nonCacheStart size : Nat) (mpu : Mpu) :
    Option Mpu :=
  (ncacheRegions sw.asserts nonCacheStart size).map fun ncache =>
    (firstRegions board sw ++ ncache ++ lastRegions board).foldl (written Region.number) mpu

/-! The loop finds the highest set bit, so the assertions say that the block is a power of
two from 32 bytes on, placed at a multiple of its size. -/

section Block

variable {nonCacheStart size : Nat}

theorem sizeBitsFrom (size i : Nat) : sizeBits size i = i + (size >>> i).log2 := by
  fun_induction sizeBits size i with
  | case1 i more ih =>
    rw [ih,Nat.log2_def (size >>> i),if_pos (by omega),Nat.shiftRight_succ]
    omega
  | case2 i last => rw [Nat.log2_def (size >>> i),if_neg (by omega),Nat.add_zero]

theorem sizeBitsLog (size : Nat) : sizeBits size 0 = size.log2 := by
  rw [sizeBitsFrom,Nat.zero_add,Nat.shiftRight_zero]

theorem sizeBitsPower (i : Nat) : sizeBits (1 <<< i) 0 = i := by
  rw [sizeBitsLog,Nat.one_shiftLeft,Nat.log2_two_pow]

theorem sizeBitsNone : sizeBits size 0 = 0 ↔ size ≤ 1 := by
  rw [sizeBitsLog,Nat.log2_def]
  split <;> omega

def WellPlaced (nonCacheStart size : Nat) : Prop :=
  size ≤ 1 ∨ ∃ i, 5 ≤ i ∧ size = 1 <<< i ∧ nonCacheStart % size = 0

theorem placedExact : WellPlaced nonCacheStart size ↔ (sizeBits size 0 ≠ 0 →
    nonCacheStart % size = 0 ∧ size = 1 <<< sizeBits size 0 ∧ 5 ≤ sizeBits size 0) := by
  constructor
  · rintro (none | ⟨i,least,power,multiple⟩) some
    · exact absurd (sizeBitsNone.mpr none) some
    · have bits : sizeBits size 0 = i := by rw [power,sizeBitsPower]
      rw [bits]
      exact ⟨multiple,power,least⟩
  · intro checks
    by_cases none : sizeBits size 0 = 0
    · exact .inl (sizeBitsNone.mp none)
    · obtain ⟨multiple,power,least⟩ := checks none
      exact .inr ⟨_,least,power,multiple⟩

theorem assertsExact (board : BoardModel) (sw : Switches) (mpu : Mpu) :
    boardConfigMpu board sw nonCacheStart size mpu = none ↔
      sw.asserts = true ∧ ¬ WellPlaced nonCacheStart size := by
  rw [placedExact,boardConfigMpu,Option.map_eq_none_iff,ncacheRegions]
  by_cases none : sizeBits size 0 = 0
  · simp [none]
  · simp [none]

def ncacheRegion (nonCacheStart size : Nat) : Region :=
  region 10 nonCacheStart false .full 1 false false false (sizeBits size 0 - 1)

theorem holdsExact {r : Region} (aligned : r.base % 1 <<< (r.size + 1) = 0) (a : Nat) :
    r.holds a = true ↔ r.base ≤ a ∧ a < r.base + 1 <<< (r.size + 1) := by
  have positive : 0 < 1 <<< (r.size + 1) := by
    rw [Nat.one_shiftLeft]
    exact Nat.two_pow_pos _
  have shifted : ∀ n : Nat, n >>> (r.size + 1) = n / 1 <<< (r.size + 1) := by
    intro n
    rw [Nat.one_shiftLeft,Nat.shiftRight_eq_div_pow]
  have multiple := Nat.div_mul_cancel (Nat.dvd_of_mod_eq_zero aligned)
  rw [Region.holds,decide_eq_true_eq,shifted,shifted,Nat.div_eq_iff positive,multiple]
  omega

theorem ncacheHolds (placed : WellPlaced nonCacheStart size) (present : 1 < size) (a : Nat) :
    (ncacheRegion nonCacheStart size).holds a = true ↔
      nonCacheStart ≤ a ∧ a < nonCacheStart + size := by
  rcases placed with none | ⟨i,least,power,multiple⟩
  · exact absurd present (Nat.not_lt.mpr none)
  · have bits : (ncacheRegion nonCacheStart size).size + 1 = i := by
      have found : sizeBits size 0 = i := by rw [power,sizeBitsPower]
      simp only [ncacheRegion,region,found]
      omega
    have words : (ncacheRegion nonCacheStart size).base = nonCacheStart := by
      have pages : 1 <<< i = 32 * 1 <<< (i - 5) := by
        rw [Nat.one_shiftLeft,Nat.one_shiftLeft,← Nat.pow_add 2 5,Nat.add_sub_cancel' least]
      have whole : 32 ∣ nonCacheStart :=
        Nat.dvd_trans ⟨_,power.trans pages⟩ (Nat.dvd_of_mod_eq_zero multiple)
      exact Nat.div_mul_cancel whole
    have aligned : (ncacheRegion nonCacheStart size).base %
        1 <<< ((ncacheRegion nonCacheStart size).size + 1) = 0 := by
      rw [bits,words,← power,multiple]
    rw [holdsExact aligned,bits,words,← power]

end Block

/-! The tables. A row is found from the last one backwards, since the numbers ascend. -/

def ncacheRows (nonCacheStart size : Nat) : List Region :=
  if size ≤ 1 then [] else [ncacheRegion nonCacheStart size]

def rows (board : BoardModel) (sw : Switches) (nonCacheStart size : Nat) : List Region :=
  firstRegions board sw ++ ncacheRows nonCacheStart size ++ lastRegions board

/-- Region registers that are not written are off, as they are after a reset. -/
def Idle (board : BoardModel) (sw : Switches) (nonCacheStart size : Nat) (mpu : Mpu) : Prop :=
  ∀ n, n < 16 → n ∉ (rows board sw nonCacheStart size).map Region.number → mpu n = none

section Tables

variable {board : BoardModel} {sw : Switches} {nonCacheStart size : Nat} {mpu : Mpu}

theorem configRows (placed : WellPlaced nonCacheStart size) :
    boardConfigMpu board sw nonCacheStart size mpu =
      some ((rows board sw nonCacheStart size).foldl (written Region.number) mpu) := by
  have ncache : ncacheRegions sw.asserts nonCacheStart size = some (ncacheRows nonCacheStart size) := by
    rw [ncacheRegions,ncacheRows]
    by_cases none : sizeBits size 0 = 0
    · simp [none,sizeBitsNone.mp none]
    · have checks := placedExact.mp placed none
      have more : ¬ size ≤ 1 := fun few => none (sizeBitsNone.mpr few)
      rw [if_pos none,if_neg (fun stop => stop.2 checks),if_neg more]
      rfl
  rw [boardConfigMpu,ncache]
  rfl

theorem firstNumbers (board : BoardModel) (sw : Switches) :
    ((firstRegions board sw).map Region.number).Sublist [0,1,2,3,4,5,6,7,8,9] := by
  obtain ⟨xip,sdram,through,asserts⟩ := sw
  cases board <;> decide +revert

theorem lastNumbers (board : BoardModel) :
    ((lastRegions board).map Region.number).Sublist [11,12,13,14,15] := by cases board <;> decide

theorem rowNumbers (board : BoardModel) (sw : Switches) (nonCacheStart size : Nat) :
    ((rows board sw nonCacheStart size).map Region.number).Sublist
      ([0,1,2,3,4,5,6,7,8,9] ++ [10] ++ [11,12,13,14,15]) := by
  have middle : ((ncacheRows nonCacheStart size).map Region.number).Sublist [10] := by
    unfold ncacheRows
    split
    · exact List.nil_sublist _
    · exact List.Sublist.refl _
  rw [rows,List.map_append,List.map_append]
  exact ((firstNumbers board sw).append middle).append (lastNumbers board)

theorem regionFound (placed : WellPlaced nonCacheStart size)
    (idle : Idle board sw nonCacheStart size mpu) :
    ∃ t, boardConfigMpu board sw nonCacheStart size mpu = some t ∧
      ∀ a, regionAt t a = (rows board sw nonCacheStart size).reverse.find? (fun r => r.holds a) := by
  have numbers := rowNumbers board sw nonCacheStart size
  have ascending := List.Pairwise.sublist numbers (by decide : List.Pairwise (· < ·) _)
  have below : ∀ r ∈ rows board sw nonCacheStart size, r.number < 16 := by
    intro r inside
    have known := numbers.subset (List.mem_map_of_mem inside)
    exact (by decide : ∀ n ∈ [0,1,2,3,4,5,6,7,8,9] ++ [10] ++ [11,12,13,14,15], n < 16) _ known
  exact ⟨_,configRows placed,fun a => decidingWritten ascending below idle⟩

end Tables

def flashWindow : BoardModel → Nat
  | .rt1060 => 0x800000
  | .rt1170 => 0x1000000

def InFlash (board : BoardModel) (a : Nat) : Prop :=
  bootFlashBase board ≤ a ∧ a < bootFlashBase board + flashWindow board

def Peripheral : BoardModel → Nat → Prop
  | .rt1060,a => 0x40000000 ≤ a ∧ a < 0x40400000 ∨ 0x42000000 ≤ a ∧ a < 0x42100000
  | .rt1170,a => 0x40000000 ≤ a ∧ a < 0x41200000 ∨ 0x41400000 ≤ a ∧ a < 0x41500000 ∨
    0x41800000 ≤ a ∧ a < 0x41a00000 ∨ 0x42000000 ≤ a ∧ a < 0x42100000

def FirstMapped (a : Nat) : Prop := a < 0x40000000 ∨ 0x60000000 ≤ a ∧ a < 0xa0000000

def Mapped (board : BoardModel) (a : Nat) : Prop := Peripheral board a ∨ FirstMapped a

def InNcache (nonCacheStart size a : Nat) : Prop :=
  1 < size ∧ nonCacheStart ≤ a ∧ a < nonCacheStart + size

structure Grants (r : Region) (writable mapped : Prop) : Prop where
  store : r.permits .store = true ↔ writable
  load : r.permits .load = true ↔ mapped
  fetch : r.permits .fetch = true ↔ mapped

section Rows

variable {board : BoardModel} {sw : Switches} {a : Nat}

theorem findSplit {α : Type} (p : α → Bool) (xs ys : List α) :
    (xs ++ ys).reverse.find? p = (ys.reverse.find? p).or (xs.reverse.find? p) := by
  rw [List.reverse_append,List.find?_append]

section Fields

variable (buffered : Bool) (number base size : Nat)

@[simp] theorem deviceBase : (device number base size).base = base / 32 * 32 := rfl
@[simp] theorem deviceSize : (device number base size).size = size := rfl
@[simp] theorem cachedBase : (cached buffered number base size).base = base / 32 * 32 := rfl
@[simp] theorem cachedSize : (cached buffered number base size).size = size := rfl

end Fields

theorem deviceGrants (number base size : Nat) : Grants (device number base size) True True := by
  constructor <;> simp [Region.permits,device,region]

theorem cachedGrants (buffered : Bool) (number base size : Nat) :
    Grants (cached buffered number base size) True True := by
  constructor <;> simp [Region.permits,cached,region]

theorem flashGrants (number base size : Nat) : Grants (flashRegion number base size) False True := by
  constructor <;> simp [Region.permits,flashRegion,region]

theorem denyGrants : Grants denyAll False False := by
  constructor <;> simp [Region.permits,denyAll,region]

def Region.Aligned (r : Region) : Prop := r.base % 1 <<< (r.size + 1) = 0

instance (r : Region) : Decidable r.Aligned := by unfold Region.Aligned; infer_instance

theorem heldWithin {rs : List Region} (aligned : ∀ r ∈ rs, r.Aligned) :
    (∃ r ∈ rs, r.holds a = true) ↔
      ∃ r ∈ rs, r.base ≤ a ∧ a < r.base + 1 <<< (r.size + 1) := by
  constructor
  · rintro ⟨r,inside,held⟩
    exact ⟨r,inside,(holdsExact (aligned r inside) a).mp held⟩
  · rintro ⟨r,inside,within⟩
    exact ⟨r,inside,(holdsExact (aligned r inside) a).mpr within⟩

theorem findCases (rs : List Region) :
    (∃ r ∈ rs, r.holds a = true ∧ rs.reverse.find? (fun r => r.holds a) = some r) ∨
    (∀ r ∈ rs, r.holds a = false) ∧ rs.reverse.find? (fun r => r.holds a) = none := by
  cases found : rs.reverse.find? (fun r => r.holds a) with
  | none =>
    refine .inr ⟨?_,rfl⟩
    intro r inside
    simpa using List.find?_eq_none.mp found r (List.mem_reverse.mpr inside)
  | some r =>
    have held := List.find?_some (p := fun r : Region => r.holds a) found
    exact .inl ⟨r,List.mem_reverse.mp (List.mem_of_find?_eq_some found),held,rfl⟩

theorem lastFull : ∀ r ∈ lastRegions board, Grants r True True ∧ r.isCacheable = false := by
  cases board <;> simp [lastRegions,deviceGrants] <;> simp [device,region]

theorem lastHeld : (∃ r ∈ lastRegions board, r.holds a = true) ↔ Peripheral board a := by
  rw [heldWithin (by cases board <;> decide)]
  cases board
  case rt1060 => simp [lastRegions,size4MB,size1MB,Peripheral]
  case rt1170 =>
    simp [lastRegions,size16MB,size2MB,size1MB,Peripheral]
    omega

def flashRow : BoardModel → Region
  | .rt1060 => flashRegion 3 0x60000000 size8MB
  | .rt1170 => flashRegion 8 0x30000000 size16MB

theorem flashHeld : (flashRow board).holds a = true ↔ InFlash board a := by
  rw [holdsExact (by cases board <;> decide)]
  cases board <;> simp [flashRow,flashRegion,region,size8MB,size16MB,InFlash,bootFlashBase,flashWindow]

structure Around (board : BoardModel) (sw : Switches) (low high : List Region) : Prop where
  rows : firstRegions board sw = [denyAll] ++ low ++ ([flashRow board] ++ high)
  full : ∀ r ∈ low ++ high, Grants r True True
  held : ∀ a, (∃ r ∈ low ++ high, r.holds a = true) ↔ FirstMapped a
  apart : ∀ a, InFlash board a → ∀ r ∈ high, r.holds a = false

theorem apartRows {rs : List Region} (outside : ∀ r ∈ rs, r.Aligned ∧
      (r.base + 1 <<< (r.size + 1) ≤ bootFlashBase board ∨
        bootFlashBase board + flashWindow board ≤ r.base))
    (inside : InFlash board a) : ∀ r ∈ rs, r.holds a = false := by
  intro r member
  obtain ⟨aligned,apart⟩ := outside r member
  have missed : ¬ r.holds a = true := by
    rw [holdsExact aligned]
    unfold InFlash at inside
    omega
  exact Bool.eq_false_iff.mpr missed

theorem firstAround (board : BoardModel) (xip : sw.xipExternalFlash = true) :
    ∃ low high, Around board sw low high := by
  cases board
  case rt1060 =>
    refine ⟨[device 1 0x80000000 size512MB,device 2 0x60000000 size512MB],
      [device 4 0x00000000 size1GB,cached true 5 0x00000000 size128KB,
      cached true 6 0x20000000 size128KB,cached true 7 0x20200000 size512KB,
      cached true 8 0x20280000 size256KB,cached true 9 0x80000000 size32MB],?_⟩
    constructor
    case rows => simp [firstRegions,xip,flashRow]
    case full => simp [deviceGrants,cachedGrants]
    case held =>
      intro a
      rw [heldWithin (by decide),FirstMapped]
      simp only [List.cons_append,List.nil_append,List.mem_cons,List.not_mem_nil,or_false,
        exists_eq_or_imp,exists_eq_left,deviceBase,deviceSize,cachedBase,cachedSize,size512MB,
        size1GB,size128KB,size512KB,size256KB,size32MB,Nat.reduceAdd,Nat.reduceShiftLeft]
      omega
    case apart => exact fun a => apartRows (by decide)
  case rt1170 =>
    obtain ⟨_,sdram,through,_⟩ := sw
    generalize buffering : (!through) = buffered
    refine ⟨[device 1 0x80000000 size512MB,device 2 0x60000000 size512MB,
      device 3 0x00000000 size1GB,cached true 4 0x00000000 size256KB,
      cached true 5 0x20000000 size256KB,cached buffered 6 0x20200000 size1MB,
      cached buffered 7 0x20300000 size512KB],
      if sdram then [cached buffered 9 0x80000000 size64MB] else [],?_⟩
    constructor
    case rows => simp_all [firstRegions,flashRow]
    case full => cases sdram <;> simp [deviceGrants,cachedGrants]
    case held =>
      intro a
      clear buffering
      rw [heldWithin (by decide +revert),FirstMapped]
      cases sdram <;>
        simp only [List.cons_append,List.nil_append,List.mem_cons,List.not_mem_nil,or_false,
          exists_eq_or_imp,exists_eq_left,deviceBase,deviceSize,cachedBase,cachedSize,size512MB,
          size1GB,size1MB,size512KB,size256KB,size64MB,Nat.reduceAdd,Nat.reduceShiftLeft,if_true,
          Bool.false_eq_true,if_false] <;> omega
    case apart =>
      clear buffering
      exact fun a => apartRows (by decide +revert)

theorem grantsFull {r : Region} (full : Grants r True True) {writable mapped : Prop}
    (yes : writable) (shown : mapped) : Grants r writable mapped :=
  ⟨full.store.trans (iff_of_true trivial yes),full.load.trans (iff_of_true trivial shown),
    full.fetch.trans (iff_of_true trivial shown)⟩

theorem denyHolds (address : a < 4294967296) : denyAll.holds a = true := by
  rw [holdsExact (by decide)]
  exact ⟨Nat.zero_le a,address⟩

theorem flashMapped (inside : InFlash board a) : FirstMapped a ∧ ¬ Peripheral board a := by
  cases board <;> simp only [InFlash,bootFlashBase,flashWindow,FirstMapped,Peripheral] at * <;> omega

theorem findSingle (r : Region) :
    [r].reverse.find? (fun r => r.holds a) = if r.holds a = true then some r else none := by
  cases held : r.holds a <;> simp [held]

theorem firstFound (board : BoardModel) (xip : sw.xipExternalFlash = true) (address : a < 4294967296) :
    ∃ r, (firstRegions board sw).reverse.find? (fun r => r.holds a) = some r ∧
      Grants r (FirstMapped a ∧ ¬ InFlash board a) (FirstMapped a) := by
  obtain ⟨low,high,around⟩ := firstAround board xip
  have held := around.held a
  rw [around.rows,findSplit,findSplit,findSplit,findSingle,findSingle]
  rcases findCases (a := a) high with ⟨r,inside,holds,found⟩ | ⟨noneHigh,found⟩
  case inl =>
    have mapped := held.mp ⟨r,List.mem_append_right low inside,holds⟩
    have apart : ¬ InFlash board a := by
      intro flash
      rw [around.apart a flash r inside] at holds
      contradiction
    have full := around.full r (List.mem_append_right low inside)
    rw [found]
    exact ⟨r,rfl,grantsFull full ⟨mapped,apart⟩ mapped⟩
  case inr =>
    rw [found,Option.none_or]
    by_cases flash : InFlash board a
    case pos =>
      have mapped := (flashMapped flash).1
      have grants : Grants (flashRow board) False True := by cases board <;> exact flashGrants _ _ _
      rw [if_pos (flashHeld.mpr flash)]
      refine ⟨_,rfl,?_⟩
      simpa only [mapped,flash,not_true_eq_false,and_false] using grants
    case neg =>
      rw [if_neg (fun h => flash (flashHeld.mp h)),Option.none_or]
      rcases findCases (a := a) low with ⟨r,inside,holds,found⟩ | ⟨noneLow,found⟩
      · have mapped := held.mp ⟨r,List.mem_append_left high inside,holds⟩
        have full := around.full r (List.mem_append_left high inside)
        rw [found]
        exact ⟨r,rfl,grantsFull full ⟨mapped,flash⟩ mapped⟩
      · have unmapped : ¬ FirstMapped a := by
          intro mapped
          obtain ⟨r,inside,holds⟩ := held.mpr mapped
          rcases List.mem_append.mp inside with left | right
          · rw [noneLow r left] at holds
            contradiction
          · rw [noneHigh r right] at holds
            contradiction
        rw [found,if_pos (denyHolds address)]
        refine ⟨_,rfl,?_⟩
        simpa only [unmapped,false_and] using denyGrants

end Rows

section Whole

variable {board : BoardModel} {sw : Switches} {nonCacheStart size a : Nat} {mpu : Mpu}

structure Decides (board : BoardModel) (nonCacheStart size : Nat) (mpu : Mpu) (a : Nat) (r : Region) :
    Prop where
  decides : regionAt mpu a = some r
  grants : Grants r (InNcache nonCacheStart size a ∨ Mapped board a ∧ ¬ InFlash board a)
    (InNcache nonCacheStart size a ∨ Mapped board a)
  uncached : InNcache nonCacheStart size a → r.isCacheable = false

structure Shown (board : BoardModel) (nonCacheStart size : Nat) (mpu : Mpu) (a : Nat) : Prop where
  store : permitted mpu a .store = true ↔ privatePeripheral a = true ∨
    InNcache nonCacheStart size a ∨ Mapped board a ∧ ¬ InFlash board a
  load : permitted mpu a .load = true ↔ privatePeripheral a = true ∨
    InNcache nonCacheStart size a ∨ Mapped board a
  fetch : permitted mpu a .fetch = true ↔ a < 0xe0000000 ∧
    (InNcache nonCacheStart size a ∨ Mapped board a)
  uncached : InNcache nonCacheStart size a → cacheable mpu a = false

theorem ncacheGrants (nonCacheStart size : Nat) :
    Grants (ncacheRegion nonCacheStart size) True True := by
  constructor <;> simp [Region.permits,ncacheRegion,region]

theorem ncacheFound (placed : WellPlaced nonCacheStart size) (a : Nat) :
    (ncacheRows nonCacheStart size).reverse.find? (fun r => r.holds a) =
      some (ncacheRegion nonCacheStart size) ∧ InNcache nonCacheStart size a ∨
    (ncacheRows nonCacheStart size).reverse.find? (fun r => r.holds a) = none ∧
      ¬ InNcache nonCacheStart size a := by
  rw [ncacheRows]
  by_cases few : size ≤ 1
  case pos =>
    rw [if_pos few]
    exact .inr ⟨rfl,fun inside => Nat.not_lt.mpr few inside.1⟩
  case neg =>
    have more := Nat.lt_of_not_le few
    have holds := ncacheHolds placed more a
    rw [if_neg few,findSingle]
    split
    case isTrue held => exact .inl ⟨rfl,more,holds.mp held⟩
    case isFalse missed => exact .inr ⟨rfl,fun inside => missed (holds.mpr inside.2)⟩

theorem regionDecides (xip : sw.xipExternalFlash = true) (placed : WellPlaced nonCacheStart size)
    (idle : Idle board sw nonCacheStart size mpu) :
    ∃ t, boardConfigMpu board sw nonCacheStart size mpu = some t ∧
      ∀ a, a < 4294967296 → ∃ r, Decides board nonCacheStart size t a r := by
  obtain ⟨t,run,found⟩ := regionFound placed idle
  refine ⟨t,run,?_⟩
  intro a address
  have decided := found a
  rw [rows,findSplit,findSplit] at decided
  rcases findCases (a := a) (lastRegions board) with ⟨r,inside,holds,last⟩ | ⟨none,last⟩
  case inl =>
    have peripheral := lastHeld.mp ⟨r,inside,holds⟩
    have full := lastFull r inside
    rw [last,Option.some_or] at decided
    exact ⟨r,decided,grantsFull full.1
      (.inr ⟨.inl peripheral,fun flash => (flashMapped flash).2 peripheral⟩)
      (.inr (.inl peripheral)),fun _ => full.2⟩
  case inr =>
    have plain : ¬ Peripheral board a := by
      intro peripheral
      obtain ⟨r,inside,holds⟩ := lastHeld.mpr peripheral
      rw [none r inside] at holds
      contradiction
    rw [last,Option.none_or] at decided
    rcases ncacheFound placed a with ⟨block,inside⟩ | ⟨missed,outside⟩
    · rw [block,Option.some_or] at decided
      exact ⟨_,decided,grantsFull (ncacheGrants _ _) (.inl inside) (.inl inside),fun _ => rfl⟩
    · obtain ⟨r,first,grants⟩ := firstFound board xip address
      rw [missed,Option.none_or,first] at decided
      refine ⟨r,decided,?_,fun inside => absurd inside outside⟩
      simpa only [Mapped,plain,outside,false_or] using grants

theorem decidesShown {r : Region} (decided : Decides board nonCacheStart size mpu a r) :
    Shown board nonCacheStart size mpu a := by
  obtain ⟨decides,⟨store,load,fetch⟩,uncached⟩ := decided
  cases bus : privatePeripheral a with
  | true =>
    have above : 0xe0000000 ≤ a := of_decide_eq_true (Bool.and_eq_true_iff.mp bus).1
    constructor
    case store => simp [permitted,bus]
    case load => simp [permitted,bus]
    case fetch => simp [permitted,bus,Nat.not_lt.mpr above]
    case uncached => simp [cacheable,bus]
  | false =>
    constructor
    case store => simpa [permitted,bus,decides] using store
    case load => simpa [permitted,bus,decides] using load
    case fetch => simp [permitted,bus,decides,systemSpace,fetch,and_comm]
    case uncached => simpa [cacheable,bus,decides] using uncached

def scriptSwitches : Switches := ⟨true,false,true,false⟩

theorem scriptPlaced : WellPlaced 0x202c0000 0x2000 := .inr ⟨13,by decide,by decide,by decide⟩

end Whole

end AkNano.BoardMpu
