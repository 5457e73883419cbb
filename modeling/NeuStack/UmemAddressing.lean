import NeuStack.LinuxAFXDPDevice
import Mathlib.Data.Nat.Find
import Mathlib.Data.Nat.ModEq
import Mathlib.Data.List.Nodup

/-! # The addresses of the UMEM

`Umem::create` maps a buffer of `frame_count * frame_size` bytes, a product of 64 bits.  The
allocator computes the addresses of the frames with 32 bits, so those of a buffer beyond 4 GiB
wrap around.  What is handed out always lies in the buffer, and what was not handed out is left
(`Kept`); but addresses repeat as soon as there are more frames than multiples of the frame size
modulo `2 ^ 32` (`addressing_iff`), and where they do not repeat a wrapped one is still no
frame's.
-/
namespace NeuStack

namespace UmemFrameAllocator

/-- `alloc_batch`: the addresses it stores, as many as it returns. -/
def allocBatch (count : BitVec 32) (a : UmemFrameAllocator) :
    List (BitVec 64) × UmemFrameAllocator :=
  let n := if a.available < count then a.available else count
  (a.freeList.take n.toNat, ⟨a.freeList.drop n.toNat⟩)

/-- `free_batch` -/
def freeBatch (addrs : List (BitVec 64)) (a : UmemFrameAllocator) : UmemFrameAllocator :=
  addrs.foldl (fun a addr => a.free addr) a

end UmemFrameAllocator

/-! ## The UMEM -/

/-- `Umem::Config`, but for what is passed on to the kernel. -/
structure UmemConfig where
  frameCount : BitVec 32 := 4096
  frameSize : BitVec 32 := 4096

/-- `class Umem`.  The buffer is known by where it is mapped. -/
structure Umem where
  config : UmemConfig
  buffer : Option (BitVec 64) := none
  bufferSize : BitVec 64 := 0
  allocator : UmemFrameAllocator

namespace Umem

/-- `Umem(config)` -/
def new (config : UmemConfig) : Umem where
  config
  allocator := .init config.frameCount config.frameSize

/-- `create`; `mmap` maps as many bytes, if it can. -/
def create (mmap : BitVec 64 → Option (BitVec 64)) (u : Umem) : Int × Umem :=
  let bufferSize := u.config.frameCount.setWidth 64 * u.config.frameSize.setWidth 64
  match mmap bufferSize with
  | none => (-1, { u with bufferSize, buffer := none })
  | some buffer => (0, { u with bufferSize, buffer := some buffer })

end Umem

/-! ## Runs -/

/-- A UMEM, and the addresses that are allocated. -/
structure UmemRun where
  umem : Umem
  allocated : List (BitVec 64) := []

inductive UmemCall
  | alloc
  | allocBatch (count : BitVec 32)
  | free (addr : BitVec 64)
  | freeBatch (addrs : List (BitVec 64))

namespace UmemRun

def step (r : UmemRun) : UmemCall → UmemRun
  | .alloc =>
    let (addr, allocator) := r.umem.allocator.alloc
    { umem := { r.umem with allocator }
      allocated := if addr = UmemFrameAllocator.invalidAddr then r.allocated
        else addr :: r.allocated }
  | .allocBatch count =>
    let (addrs, allocator) := r.umem.allocator.allocBatch count
    { umem := { r.umem with allocator }, allocated := addrs ++ r.allocated }
  | .free addr =>
    { umem := { r.umem with allocator := r.umem.allocator.free addr }
      allocated := r.allocated.erase addr }
  | .freeBatch addrs =>
    { umem := { r.umem with allocator := r.umem.allocator.freeBatch addrs }
      allocated := r.allocated.diff addrs }

/-- Only allocated addresses are freed, each once. -/
def Permitted (r : UmemRun) : UmemCall → Prop
  | .free addr => addr ∈ r.allocated
  | .freeBatch addrs => addrs.Subperm r.allocated
  | .alloc | .allocBatch _ => True

/-- What the addresses are to satisfy. -/
structure Sound (r : UmemRun) : Prop where
  /-- Those that are allocated are distinct. -/
  distinct : r.allocated.Nodup
  /-- Each leaves room for a frame in the buffer. -/
  inside : ∀ addr ∈ r.allocated,
    addr.toNat + r.umem.config.frameSize.toNat ≤ r.umem.bufferSize.toNat
  /-- Only when all frames are allocated there is none. -/
  failed : r.umem.allocator.alloc.1 = UmemFrameAllocator.invalidAddr →
    r.allocated.length = r.umem.config.frameCount.toNat
  /-- Only as many as are left there are fewer than asked for. -/
  short : ∀ count : BitVec 32, (r.umem.allocator.allocBatch count).1.length < count.toNat →
    (r.umem.allocator.allocBatch count).1.length + r.allocated.length =
      r.umem.config.frameCount.toNat

/-- The allocated addresses are where frames start. -/
def Aligned (r : UmemRun) : Prop :=
  ∀ addr ∈ r.allocated, ∃ i < r.umem.config.frameCount.toNat,
    addr.toNat = i * r.umem.config.frameSize.toNat

end UmemRun

/-! ## Multiples that wrap around -/

/-- The first multiples of `s` are distinct modulo `m` as long as they do not come round. -/
theorem wrapped_injective_iff {m s n : Nat} (hm : 0 < m) :
    (∀ i < n, ∀ j < n, i * s % m = j * s % m → i = j) ↔ n * s.gcd m ≤ m := by
  have hpos : 0 < s.gcd m := Nat.gcd_pos_of_pos_right _ hm
  have hround : m / s.gcd m * s.gcd m = m := Nat.div_mul_cancel (Nat.gcd_dvd_right ..)
  constructor
  · intro hinj
    by_contra hlt
    have hlt : m / s.gcd m < n := (Nat.div_lt_iff_lt_mul hpos).mpr (Nat.not_le.mp hlt)
    have hquot : 0 < m / s.gcd m := Nat.div_pos (Nat.gcd_le_right _ hm) hpos
    have hzero : m / s.gcd m * s % m = 0 := by
      refine Nat.mod_eq_zero_of_dvd ?_
      calc m = m / s.gcd m * s.gcd m := hround.symm
        _ ∣ m / s.gcd m * s := Nat.mul_dvd_mul_left _ (Nat.gcd_dvd_left ..)
    have heq := hinj _ hlt 0 (hquot.trans hlt) (by rw [hzero, Nat.zero_mul, Nat.zero_mod])
    omega
  · intro hle i hi j hj heq
    have hmod : i ≡ j [MOD m / s.gcd m] := by
      rw [Nat.gcd_comm]
      exact Nat.ModEq.cancel_right_div_gcd hm heq
    have hn : n ≤ m / s.gcd m := (Nat.le_div_iff_mul_le hpos).mpr hle
    exact hmod.eq_of_lt_of_lt (hi.trans_le hn) (hj.trans_le hn)

/-- Distinct ones are multiples again as long as none wraps around. -/
theorem wrapped_multiple_iff {m s n : Nat} (hm : 0 < m)
    (hinj : ∀ i < n, ∀ j < n, i * s % m = j * s % m → i = j) :
    (∀ i < n, ∃ j < n, i * s % m = j * s) ↔ (n - 1) * s < m := by
  constructor
  · intro hmultiple
    by_contra hlt
    -- the first multiple that wraps around is less than `s` then
    have hwraps : ∃ i, m ≤ i * s := ⟨n - 1, Nat.not_lt.mp hlt⟩
    have hle : m ≤ Nat.find hwraps * s := Nat.find_spec hwraps
    have hi : Nat.find hwraps ≤ n - 1 := Nat.find_min' hwraps (Nat.not_lt.mp hlt)
    have hbefore : ∀ k < Nat.find hwraps, k * s < m := fun k hk =>
      Nat.not_le.mp (Nat.find_min hwraps hk)
    generalize Nat.find hwraps = i at hle hi hbefore
    obtain ⟨k, rfl⟩ : ∃ k, i = k + 1 := by
      refine ⟨i - 1, (Nat.sub_add_cancel (Nat.pos_of_ne_zero ?_)).symm⟩
      rintro rfl
      omega
    have hsmall : (k + 1) * s % m < s := by
      have hk := hbefore k (Nat.lt_succ_self k)
      rw [Nat.mod_eq_sub_mod hle]
      refine (Nat.mod_le _ _).trans_lt ?_
      rw [Nat.succ_mul] at hle ⊢
      omega
    obtain ⟨j, hj, heq⟩ := hmultiple (k + 1) (by omega)
    obtain rfl : j = 0 := by
      by_contra hne
      have hs : s ≤ j * s := Nat.le_mul_of_pos_left s (Nat.pos_of_ne_zero hne)
      omega
    have hzero := hinj (k + 1) (by omega) 0 hj (by rw [heq, Nat.zero_mul, Nat.zero_mod])
    cases hzero
  · intro hlt i hi
    refine ⟨i, hi, Nat.mod_eq_of_lt (lt_of_le_of_lt (Nat.mul_le_mul_right s ?_) hlt)⟩
    omega

/-! ## The addresses of an allocator -/

namespace UmemFrameAllocator
variable {frameCount frameSize : BitVec 32} {addr : BitVec 64}

theorem toNat_address (i : Nat) (frameSize : BitVec 32) :
    ((BitVec.ofNat 32 i * frameSize).setWidth 64).toNat = i * frameSize.toNat % 2 ^ 32 := by
  rw [BitVec.toNat_setWidth, BitVec.toNat_mul, BitVec.toNat_ofNat, Nat.mod_mul_mod,
    Nat.mod_eq_of_lt ((Nat.mod_lt _ (by decide)).trans (by decide))]

theorem mem_init : addr ∈ (init frameCount frameSize).freeList ↔
    ∃ i < frameCount.toNat, addr.toNat = i * frameSize.toNat % 2 ^ 32 := by
  rw [init, List.mem_map]
  constructor
  · rintro ⟨i, hi, rfl⟩
    exact ⟨i, List.mem_range.mp (List.mem_reverse.mp hi), toNat_address i frameSize⟩
  · rintro ⟨i, hi, heq⟩
    refine ⟨i, List.mem_reverse.mpr (List.mem_range.mpr hi), BitVec.eq_of_toNat_eq ?_⟩
    rw [toNat_address, heq]

theorem length_init (frameCount frameSize : BitVec 32) :
    (init frameCount frameSize).freeList.length = frameCount.toNat := by
  rw [init, List.length_map, List.length_reverse, List.length_range]

theorem nodup_init_iff : (init frameCount frameSize).freeList.Nodup ↔
    ∀ i < frameCount.toNat, ∀ j < frameCount.toNat,
      i * frameSize.toNat % 2 ^ 32 = j * frameSize.toNat % 2 ^ 32 → i = j := by
  rw [init, List.nodup_map_iff_inj_on (List.nodup_reverse.mpr List.nodup_range)]
  simp only [List.mem_reverse, List.mem_range]
  refine forall₄_congr fun i _ j _ => ?_
  rw [← BitVec.toNat_inj, toNat_address, toNat_address]

/-- An address leaves room for its frame, also where it wrapped around. -/
theorem init_inside (h : addr ∈ (init frameCount frameSize).freeList) :
    addr.toNat + frameSize.toNat ≤ frameCount.toNat * frameSize.toNat := by
  obtain ⟨i, hi, heq⟩ := mem_init.mp h
  calc addr.toNat + frameSize.toNat ≤ i * frameSize.toNat + frameSize.toNat := by
        rw [heq]
        exact Nat.add_le_add_right (Nat.mod_le _ _) _
    _ = (i + 1) * frameSize.toNat := (Nat.succ_mul _ _).symm
    _ ≤ frameCount.toNat * frameSize.toNat := Nat.mul_le_mul_right _ hi

theorem init_ne_invalid (h : addr ∈ (init frameCount frameSize).freeList) :
    addr ≠ invalidAddr := by
  rintro rfl
  obtain ⟨i, -, heq⟩ := mem_init.mp h
  have hlt := Nat.mod_lt (i * frameSize.toNat) (show 0 < 2 ^ 32 by decide)
  rw [← heq] at hlt
  exact absurd hlt (by decide)

theorem freeBatch_perm (addrs : List (BitVec 64)) (a : UmemFrameAllocator) :
    (a.freeBatch addrs).freeList.Perm (addrs ++ a.freeList) := by
  rw [freeBatch]
  induction addrs generalizing a with
  | nil => exact .refl _
  | cons addr addrs ih => exact (ih (a.free addr)).trans List.perm_middle

end UmemFrameAllocator

/-! ## What a run keeps -/

namespace UmemRun
variable {u : Umem} {r : UmemRun}

/-- The UMEM with which the calls start. -/
structure Created (u : Umem) : Prop where
  allocator : u.allocator = .init u.config.frameCount u.config.frameSize
  bufferSize : u.bufferSize.toNat = u.config.frameCount.toNat * u.config.frameSize.toNat

/-- The frames are allocated or free, and the buffer is the same. -/
structure Kept (u : Umem) (r : UmemRun) : Prop where
  config : r.umem.config = u.config
  bufferSize : r.umem.bufferSize = u.bufferSize
  conserved : (r.allocated ++ r.umem.allocator.freeList).Perm u.allocator.freeList

theorem create_created (mmap : BitVec 64 → Option (BitVec 64)) (config : UmemConfig) :
    Created ((Umem.new config).create mmap).2 := by
  have hproduct : (config.frameCount.setWidth 64 * config.frameSize.setWidth 64).toNat =
      config.frameCount.toNat * config.frameSize.toNat := by
    have hlt : config.frameCount.toNat * config.frameSize.toNat < 2 ^ 64 :=
      calc config.frameCount.toNat * config.frameSize.toNat < 2 ^ 32 * 2 ^ 32 :=
            Nat.mul_lt_mul'' config.frameCount.isLt config.frameSize.isLt
        _ = 2 ^ 64 := (Nat.pow_add 2 32 32).symm
    rw [BitVec.toNat_mul, BitVec.toNat_setWidth_of_le (by decide),
      BitVec.toNat_setWidth_of_le (by decide), Nat.mod_eq_of_lt hlt]
  rw [Umem.create]
  split
  · exact ⟨rfl, hproduct⟩
  · exact ⟨rfl, hproduct⟩

theorem create_config (mmap : BitVec 64 → Option (BitVec 64)) (config : UmemConfig) :
    ((Umem.new config).create mmap).2.config = config := by
  rw [Umem.create]
  split <;> rfl

theorem Kept.start (u : Umem) : Kept u { umem := u } := ⟨rfl, rfl, .refl _⟩

/-- Free addresses are those of the allocator. -/
theorem Kept.mem_free (hu : Created u) (h : Kept u r) {addr : BitVec 64}
    (haddr : addr ∈ r.umem.allocator.freeList) :
    addr ∈ (UmemFrameAllocator.init u.config.frameCount u.config.frameSize).freeList := by
  rw [← hu.allocator]
  exact h.conserved.subset (List.mem_append_right _ haddr)

theorem Kept.step (hu : Created u) (h : Kept u r) (x : UmemCall) (hx : r.Permitted x) :
    Kept u (r.step x) := by
  cases x with
  | alloc =>
    refine ⟨h.config, h.bufferSize, .trans ?_ h.conserved⟩
    rw [UmemRun.step, UmemFrameAllocator.alloc]
    cases hfree : r.umem.allocator.freeList with
    | nil =>
      dsimp only
      rw [if_pos rfl, hfree]
    | cons addr rest =>
      have hvalid : addr ≠ UmemFrameAllocator.invalidAddr :=
        UmemFrameAllocator.init_ne_invalid
          (h.mem_free hu (by rw [hfree]; exact List.mem_cons_self ..))
      dsimp only
      rw [if_neg hvalid]
      exact List.perm_middle.symm
  | allocBatch count =>
    refine ⟨h.config, h.bufferSize, .trans ?_ h.conserved⟩
    rw [UmemRun.step, UmemFrameAllocator.allocBatch]
    dsimp only
    generalize BitVec.toNat _ = n
    conv_rhs => rw [← List.take_append_drop n r.umem.allocator.freeList, ← List.append_assoc]
    exact List.perm_append_comm.append_right _
  | free addr =>
    refine ⟨h.config, h.bufferSize, .trans ?_ h.conserved⟩
    exact List.perm_middle.trans ((List.perm_cons_erase hx).symm.append_right _)
  | freeBatch addrs =>
    refine ⟨h.config, h.bufferSize, .trans ?_ h.conserved⟩
    have hdiff : (addrs ++ r.allocated.diff addrs).Perm r.allocated :=
      List.subperm_append_diff_self_of_count_le (List.subperm_ext_iff.mp hx)
    have hfreed := (UmemFrameAllocator.freeBatch_perm addrs r.umem.allocator).append_left
      (r.allocated.diff addrs)
    rw [← List.append_assoc] at hfreed
    exact hfreed.trans ((List.perm_append_comm.trans hdiff).append_right _)

theorem Kept.length (hu : Created u) (h : Kept u r) :
    r.allocated.length + r.umem.allocator.freeList.length = r.umem.config.frameCount.toNat := by
  rw [← List.length_append, h.conserved.length_eq, hu.allocator, UmemFrameAllocator.length_init,
    h.config]

theorem Kept.mem_allocated (hu : Created u) (h : Kept u r) {addr : BitVec 64}
    (haddr : addr ∈ r.allocated) :
    addr ∈ (UmemFrameAllocator.init u.config.frameCount u.config.frameSize).freeList := by
  rw [← hu.allocator]
  exact h.conserved.subset (List.mem_append_left _ haddr)

theorem Kept.toNat_available (hu : Created u) (h : Kept u r) :
    r.umem.allocator.available.toNat = r.umem.allocator.freeList.length := by
  have hlength := h.length hu
  have hlt := r.umem.config.frameCount.isLt
  rw [UmemFrameAllocator.available, BitVec.toNat_ofNat, Nat.mod_eq_of_lt (by omega)]

/-- **All but the distinctness** holds of every run. -/
theorem Kept.sound_iff_nodup (hu : Created u) (h : Kept u r) : r.Sound ↔ r.allocated.Nodup := by
  have hlength := h.length hu
  refine ⟨fun hsound => hsound.distinct, fun hdistinct => ⟨hdistinct, ?_, ?_, ?_⟩⟩
  · intro addr haddr
    rw [h.config, h.bufferSize, hu.bufferSize]
    exact UmemFrameAllocator.init_inside (h.mem_allocated hu haddr)
  · intro hfailed
    rw [UmemFrameAllocator.alloc] at hfailed
    cases hfree : r.umem.allocator.freeList with
    | nil =>
      rw [hfree] at hlength
      exact hlength
    | cons addr rest =>
      rw [hfree] at hfailed
      refine absurd hfailed (UmemFrameAllocator.init_ne_invalid (h.mem_free hu ?_))
      rw [hfree]
      exact List.mem_cons_self ..
  · intro count hshort
    have havailable := h.toNat_available hu
    rw [UmemFrameAllocator.allocBatch] at hshort ⊢
    dsimp only at hshort ⊢
    rw [List.length_take] at hshort ⊢
    split at hshort
    · rename_i hfew
      rw [if_pos hfew, havailable, Nat.min_self, Nat.add_comm]
      exact hlength
    · rename_i hmany
      rw [BitVec.lt_def, havailable] at hmany
      omega

/-- All frames can be allocated. -/
theorem allocated_all (hu : Created u) :
    (step { umem := u } (.allocBatch u.config.frameCount)).allocated = u.allocator.freeList := by
  have havailable := (Kept.start u).toNat_available hu
  have hlength := (Kept.start u).length hu
  rw [step, UmemFrameAllocator.allocBatch]
  dsimp only at havailable hlength ⊢
  rw [List.length_nil, Nat.zero_add] at hlength
  have hall : (if u.allocator.available < u.config.frameCount then u.allocator.available
      else u.config.frameCount).toNat = u.allocator.freeList.length := by
    split
    · exact havailable
    · exact hlength.symm
  rw [hall, List.take_length, List.append_nil]

theorem kept_run (hu : Created u) {xs : List UmemCall}
    (hxs : GuardedRun.Meets step Permitted { umem := u } xs) :
    Kept u (GuardedRun.run step { umem := u } xs) :=
  hxs.invariant (P := Kept u) (fun _ x h hx => h.step hu x hx) (.start u)

/-- What can be allocated are the addresses of the allocator: a property that some addresses
inherit from more holds of the allocated ones in all runs just when it holds of these. -/
theorem allocated_always_iff (hu : Created u) {P : List (BitVec 64) → Prop}
    (hperm : ∀ xs ys, xs.Perm ys → P xs → P ys) (happend : ∀ xs ys, P (xs ++ ys) → P xs) :
    (∀ xs, GuardedRun.Meets step Permitted { umem := u } xs →
      P (GuardedRun.run step { umem := u } xs).allocated) ↔
      P (UmemFrameAllocator.init u.config.frameCount u.config.frameSize).freeList := by
  rw [← hu.allocator]
  constructor
  · intro h
    rw [← allocated_all hu]
    exact h [.allocBatch u.config.frameCount] ⟨trivial, trivial⟩
  · intro hall xs hxs
    exact happend _ _ (hperm _ _ (kept_run hu hxs).conserved.symm hall)

/-- The allocated addresses of all runs are distinct just when there are no more frames than
multiples of the frame size modulo `2 ^ 32`. -/
theorem nodup_always_iff (hu : Created u) :
    (∀ xs, GuardedRun.Meets step Permitted { umem := u } xs →
      (GuardedRun.run step { umem := u } xs).allocated.Nodup) ↔
      u.config.frameCount.toNat * u.config.frameSize.toNat.gcd (2 ^ 32) ≤ 2 ^ 32 := by
  rw [allocated_always_iff hu (P := List.Nodup) (fun _ _ h => h.nodup_iff.mp)
    fun _ _ h => h.of_append_left, UmemFrameAllocator.nodup_init_iff,
    wrapped_injective_iff (Nat.two_pow_pos 32)]

theorem aligned_always_iff (hu : Created u)
    (hdistinct : u.config.frameCount.toNat * u.config.frameSize.toNat.gcd (2 ^ 32) ≤ 2 ^ 32) :
    (∀ xs, GuardedRun.Meets step Permitted { umem := u } xs →
      (GuardedRun.run step { umem := u } xs).Aligned) ↔
      (u.config.frameCount.toNat - 1) * u.config.frameSize.toNat < 2 ^ 32 := by
  have hinj := (wrapped_injective_iff (Nat.two_pow_pos 32)).mpr hdistinct
  rw [← wrapped_multiple_iff (Nat.two_pow_pos 32) hinj]
  have hconfig : (∀ xs, GuardedRun.Meets step Permitted { umem := u } xs →
      (GuardedRun.run step { umem := u } xs).Aligned) ↔
      ∀ xs, GuardedRun.Meets step Permitted { umem := u } xs →
        ∀ addr ∈ (GuardedRun.run step { umem := u } xs).allocated,
          ∃ i < u.config.frameCount.toNat, addr.toNat = i * u.config.frameSize.toNat := by
    refine forall₂_congr fun xs hxs => ?_
    rw [Aligned, (kept_run hu hxs).config]
  rw [hconfig, allocated_always_iff hu
    (P := fun addrs => ∀ addr ∈ addrs, ∃ i < u.config.frameCount.toNat,
      addr.toNat = i * u.config.frameSize.toNat)
    (fun _ _ h hall addr haddr => hall addr (h.mem_iff.mpr haddr))
    (fun _ _ hall addr haddr => hall addr (List.mem_append_left _ haddr))]
  constructor
  · intro hall i hi
    obtain ⟨j, hj, heq⟩ := hall _ (UmemFrameAllocator.mem_init.mpr
      ⟨i, hi, UmemFrameAllocator.toNat_address i u.config.frameSize⟩)
    exact ⟨j, hj, (UmemFrameAllocator.toNat_address ..).symm.trans heq⟩
  · intro hall addr haddr
    obtain ⟨i, hi, heq⟩ := UmemFrameAllocator.mem_init.mp haddr
    obtain ⟨j, hj, hmultiple⟩ := hall i hi
    exact ⟨j, hj, heq.trans hmultiple⟩

/-- **When the addresses are sound**: just when there are no more frames than multiples of the
frame size modulo `2 ^ 32`; and they are where frames start just when, besides, no offset of a
frame wraps around.  Whatever `mmap` does. -/
theorem addressing_iff (mmap : BitVec 64 → Option (BitVec 64)) (config : UmemConfig) :
    let start : UmemRun := { umem := ((Umem.new config).create mmap).2 }
    ((∀ xs, GuardedRun.Meets step Permitted start xs → (GuardedRun.run step start xs).Sound) ↔
        config.frameCount.toNat * config.frameSize.toNat.gcd (2 ^ 32) ≤ 2 ^ 32) ∧
      ((∀ xs, GuardedRun.Meets step Permitted start xs →
          (GuardedRun.run step start xs).Sound ∧ (GuardedRun.run step start xs).Aligned) ↔
        config.frameCount.toNat * config.frameSize.toNat.gcd (2 ^ 32) ≤ 2 ^ 32 ∧
          (config.frameCount.toNat - 1) * config.frameSize.toNat < 2 ^ 32) := by
  have hu := create_created mmap config
  have hconfig := create_config mmap config
  generalize ((Umem.new config).create mmap).2 = u at hu hconfig
  subst hconfig
  have hsound : (∀ xs, GuardedRun.Meets step Permitted { umem := u } xs →
      (GuardedRun.run step { umem := u } xs).Sound) ↔
      u.config.frameCount.toNat * u.config.frameSize.toNat.gcd (2 ^ 32) ≤ 2 ^ 32 := by
    rw [← nodup_always_iff hu]
    exact forall₂_congr fun xs hxs => (kept_run hu hxs).sound_iff_nodup hu
  refine ⟨hsound, ?_⟩
  constructor
  · intro h
    have hdistinct := hsound.mp fun xs hxs => (h xs hxs).1
    exact ⟨hdistinct, (aligned_always_iff hu hdistinct).mp fun xs hxs => (h xs hxs).2⟩
  · rintro ⟨hdistinct, haligned⟩ xs hxs
    exact ⟨hsound.mpr hdistinct xs hxs, (aligned_always_iff hu hdistinct).mpr haligned xs hxs⟩

/-- Three frames of 2 GiB: the first and the last have the same address. -/
theorem frames_alias :
    let mmap : BitVec 64 → Option (BitVec 64) := fun n => if n = 0 then none else some 0x10000
    let created := (Umem.new { frameCount := 3, frameSize := 0x80000000 }).create mmap
    created.1 = 0 ∧ GuardedRun.Meets step Permitted { umem := created.2 } [.allocBatch 3] ∧
      ¬ (GuardedRun.run step { umem := created.2 } [.allocBatch 3]).Sound := by
  refine ⟨by decide, ⟨trivial, trivial⟩, fun h => ?_⟩
  exact absurd h.distinct (by decide)

end UmemRun
end NeuStack
