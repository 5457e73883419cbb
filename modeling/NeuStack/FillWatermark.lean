import NeuStack.LinuxAFXDPDevice

/-! # The watermarks of the fill ring

`refill_fill_ring` is to add frames only when fewer than a quarter of the slots of the fill
ring are in use, and to fill no more than half of them (`FollowsWatermarks`).  It measures
with `reserve(0)`, and what that returns is no more than it was asked for: 0.  So every refill
finds the ring below the low watermark, and asks for as many frames as make up half of it.

The refills of a run follow the watermarks just when this does no harm (`Spare`).  What the
kernel takes from the fill ring during a refill is in the schedule: it is caught up with before
the probe, before the frames are reserved, and before they are submitted.
-/
namespace NeuStack

/-- How many frames can be taken before `INVALID_ADDR`. -/
def UmemFrameAllocator.usable (a : UmemFrameAllocator) : Nat :=
  (a.freeList.takeWhile (· ≠ invalidAddr)).length

def KernelStep.isTakeFill : KernelStep → Bool
  | .takeFill => true
  | _ => false

namespace LinuxAFXDPDevice
variable {c : AFXDPSettings} {d d' : LinuxAFXDPDevice c}

/-! ## The policy -/

/-- What a refill from this state is to keep to. -/
structure FollowsWatermarks (d : LinuxAFXDPDevice c) : Prop where
  /-- Frames are added only below the low watermark. -/
  added : d.refillFillRing.fillRing.producer ≠ d.fillRing.producer →
    d.kernel.fillRing.used < 2 ^ c.fillBits.val / 4
  /-- Frames are taken from the allocator only below the low watermark. -/
  taken : d.refillFillRing.umem ≠ d.umem → d.kernel.fillRing.used < 2 ^ c.fillBits.val / 4
  /-- The ring is not filled beyond the high watermark. -/
  high : d.refillFillRing.fillRing.producer ≠ d.fillRing.producer →
    d.refillFillRing.fillRing.used ≤ 2 ^ c.fillBits.val / 2

/-- The entries of the fill ring that the kernel has left when it has been caught up with `n`
times. -/
def entriesAfter (n : Nat) (d : LinuxAFXDPDevice c) : Nat :=
  d.fillRing.used - (d.schedule.take n).flatten.countP KernelStep.isTakeFill

/-- When a refill does no harm: there is no frame to take, or no slot to fill, or the ring is
below the low watermark, and half of the slots, or the frames there are, fit in below the high
one. -/
def Spare (d : LinuxAFXDPDevice c) : Prop :=
  d.umem.available = 0 ∨ d.entriesAfter 2 = 2 ^ c.fillBits.val ∨
    d.entriesAfter 1 < 2 ^ c.fillBits.val / 4 ∧
      d.entriesAfter 3 + min (2 ^ c.fillBits.val / 2) d.umem.usable ≤ 2 ^ c.fillBits.val / 2

/-- `release_rx` up to the refill. -/
def releaseFrames (descs : List PacketDesc) (d : LinuxAFXDPDevice c) : LinuxAFXDPDevice c :=
  let d := d.kernel
  let (n, fillRing) := d.fillRing.reserve (BitVec.ofNat 32 descs.length)
  let d := { d with fillRing := releaseLoop 0 (descs.take n.toNat) fillRing }
  let d := d.kernel
  let d := { d with fillRing := d.fillRing.submit n, held := d.held.diff descs }
  let umem := (descs.drop n.toNat).foldl (fun a p => a.free (p.addr.setWidth 64)) d.umem
  { d with umem }

/-- The state in which an operation calls `refill_fill_ring`, if it does. -/
def refillFrom (d : LinuxAFXDPDevice c) : Op → Option (LinuxAFXDPDevice c)
  | .recvBatch _ => some d.reclaimCompletionRing
  | .releaseRx descs => some (d.releaseFrames descs)
  | .refillFillRing => some d
  | .sendBatch _ | .populateFillRing | .reclaimCompletionRing | .kernel => none

/-- The refill of a step, if there is one, follows the watermarks. -/
def RefillsBetween (d : LinuxAFXDPDevice c) (x : Input) : Prop :=
  ∀ e ∈ { d with schedule := x.schedule }.refillFrom x.op, e.FollowsWatermarks

/-- The refill of a step, if there is one, does no harm. -/
def RefillsSpare (d : LinuxAFXDPDevice c) (x : Input) : Prop :=
  ∀ e ∈ { d with schedule := x.schedule }.refillFrom x.op, e.Spare

/-! ## What the kernel leaves -/

/-- The kernel has taken `n` entries from the fill ring, or all. -/
structure Took (n : Nat) (d d' : LinuxAFXDPDevice c) : Prop where
  used : d'.fillRing.used = d.fillRing.used - n
  producer : d'.fillRing.producer = d.fillRing.producer
  cachedProd : d'.fillRing.cachedProd = d.fillRing.cachedProd
  umem : d'.umem = d.umem

theorem Took.refl (d : LinuxAFXDPDevice c) : Took 0 d d := ⟨rfl, rfl, rfl, rfl⟩

theorem Took.trans {m n : Nat} {d'' : LinuxAFXDPDevice c} (h : Took m d d') (h' : Took n d' d'') :
    Took (m + n) d d'' :=
  ⟨by rw [h'.used, h.used, Nat.sub_sub], h'.producer.trans h.producer,
    h'.cachedProd.trans h.cachedProd, h'.umem.trans h.umem⟩

theorem used_of_take_none {α : Type} {k : Fin 32} {r : XdpRing α k} (h : r.take = none) :
    r.used = 0 := by
  unfold XdpRing.take at h
  dsimp only at h
  split at h
  · rename_i hzero
    have hlook : (if r.producer - r.consumer < 1 then r.producer - r.consumer
        else (1 : BitVec 32)) = 0 := hzero
    split at hlook
    · rw [XdpRing.used, hlook]
      rfl
    · cases hlook
  · cases h

theorem kernelStep_took (d : LinuxAFXDPDevice c) (x : KernelStep) :
    Took (if x.isTakeFill then 1 else 0) d (d.kernelStep x) := by
  cases x with
  | takeFill =>
    show Took 1 d _
    rw [kernelStep]
    split
    · rename_i addr fillRing htake
      obtain ⟨hdrained, hentries⟩ := XdpRing.take_eq htake
      refine ⟨?_, hdrained.producer, hdrained.cachedProd, rfl⟩
      have hlength := congrArg List.length hentries
      rw [List.length_cons, XdpRing.length_unconsumed, XdpRing.length_unconsumed] at hlength
      rw [hlength]
      rfl
    · rename_i htake
      refine ⟨?_, rfl, rfl, rfl⟩
      rw [used_of_take_none htake, Nat.zero_sub]
  | deliver i desc =>
    show Took 0 d _
    rw [kernelStep]
    split
    · split <;> exact ⟨rfl, rfl, rfl, rfl⟩
    · exact .refl d
  | takeTx =>
    show Took 0 d _
    rw [kernelStep]
    split <;> exact ⟨rfl, rfl, rfl, rfl⟩
  | complete i addr =>
    show Took 0 d _
    rw [kernelStep]
    split
    · split <;> exact ⟨rfl, rfl, rfl, rfl⟩
    · exact .refl d
  | dma memory => exact ⟨rfl, rfl, rfl, rfl⟩

theorem kernelSteps_took (d : LinuxAFXDPDevice c) (xs : List KernelStep) :
    Took (xs.countP KernelStep.isTakeFill) d (xs.foldl kernelStep d) := by
  induction xs generalizing d with
  | nil => exact .refl d
  | cons x xs ih =>
    rw [List.countP_cons, Nat.add_comm]
    exact (d.kernelStep_took x).trans (ih _)

theorem kernel_took (d : LinuxAFXDPDevice c) :
    Took (d.schedule.headD [] |>.countP KernelStep.isTakeFill) d d.kernel := by
  rw [kernel]
  cases hschedule : d.schedule with
  | nil => exact .refl d
  | cons steps schedule =>
    obtain ⟨hused, hproducer, hcached, humem⟩ := kernelSteps_took { d with schedule } steps
    exact ⟨hused, hproducer, hcached, humem⟩

theorem kernelSteps_schedule (d : LinuxAFXDPDevice c) (xs : List KernelStep) :
    (xs.foldl kernelStep d).schedule = d.schedule := by
  induction xs generalizing d with
  | nil => rfl
  | cons x xs ih =>
    refine (ih _).trans ?_
    cases x <;> rw [kernelStep]
    all_goals repeat (first | rfl | split)

theorem kernel_schedule (d : LinuxAFXDPDevice c) : d.kernel.schedule = d.schedule.tail := by
  rw [kernel]
  cases hschedule : d.schedule with
  | nil => exact hschedule
  | cons steps schedule => exact kernelSteps_schedule _ steps

theorem entriesAfter_kernel (n : Nat) (d : LinuxAFXDPDevice c) :
    d.kernel.entriesAfter n = d.entriesAfter (n + 1) := by
  rw [entriesAfter, entriesAfter, d.kernel_took.used, d.kernel_schedule]
  cases d.schedule with
  | nil => rw [List.tail_nil, List.take_nil, List.take_nil]; rfl
  | cons steps schedule =>
    rw [List.take_succ_cons, List.flatten_cons, List.countP_append, List.tail_cons, List.headD_cons,
      Nat.sub_sub]

/-! ## Filling -/

/-- What the loop of a refill leaves. -/
structure Filled (n : Nat) (d d' : LinuxAFXDPDevice c) : Prop where
  producer : d'.fillRing.producer = d.fillRing.producer
  consumer : d'.fillRing.consumer = d.fillRing.consumer
  cachedProd : d'.fillRing.cachedProd = d.fillRing.cachedProd
  schedule : d'.schedule = d.schedule
  /-- An invalid address that stops the loop is gone, too. -/
  umem : d'.umem.freeList = d.umem.freeList.drop (min n (d.umem.usable + 1))

theorem usable_invalid {a : UmemFrameAllocator} {rest : List (BitVec 64)}
    (h : a.freeList = UmemFrameAllocator.invalidAddr :: rest) : a.usable = 0 := by
  rw [UmemFrameAllocator.usable, h]
  rfl

theorem usable_valid {a : UmemFrameAllocator} {addr : BitVec 64} {rest : List (BitVec 64)}
    (h : a.freeList = addr :: rest) (hvalid : addr ≠ UmemFrameAllocator.invalidAddr) :
    a.usable = UmemFrameAllocator.usable ⟨rest⟩ + 1 := by
  rw [UmemFrameAllocator.usable, h, List.takeWhile_cons_of_pos (by exact decide_eq_true hvalid)]
  rfl

theorem fillLoop_filled (i n : Nat) (d : LinuxAFXDPDevice c) :
    (fillLoop i n d).1 = i + min n d.umem.usable ∧ Filled n d (fillLoop i n d).2 := by
  induction n generalizing i d with
  | zero =>
    rw [fillLoop, Nat.zero_min, Nat.add_zero]
    exact ⟨rfl, rfl, rfl, rfl, rfl, by rw [Nat.zero_min]; rfl⟩
  | succ n ih =>
    rw [fillLoop]
    cases hfree : d.umem.freeList with
    | nil =>
      have halloc : d.umem.alloc = (UmemFrameAllocator.invalidAddr, d.umem) := by
        rw [UmemFrameAllocator.alloc, hfree]
      rw [halloc, UmemFrameAllocator.usable, hfree]
      simp only [if_true]
      refine ⟨rfl, rfl, rfl, rfl, rfl, ?_⟩
      rw [hfree, List.drop_nil]
    | cons addr rest =>
      have halloc : d.umem.alloc = (addr, ⟨rest⟩) := by
        rw [UmemFrameAllocator.alloc, hfree]
      rw [halloc]
      dsimp only
      split
      · rename_i hinvalid
        have husable := usable_invalid (hinvalid ▸ hfree)
        refine ⟨by rw [husable, Nat.min_zero, Nat.add_zero], rfl, rfl, rfl, rfl, ?_⟩
        rw [husable, hfree, Nat.min_eq_right (Nat.succ_pos n)]
        rfl
      · rename_i hvalid
        have husable := usable_valid hfree hvalid
        obtain ⟨hcount, hproducer, hconsumer, hcached, hschedule, humem⟩ := ih (i + 1)
          { d with umem := ⟨rest⟩, fillRing := d.fillRing.setRingAt (BitVec.ofNat 32 i) addr }
        refine ⟨?_, hproducer, hconsumer, hcached, hschedule, ?_⟩
        · rw [hcount, husable]
          dsimp only
          omega
        · rw [humem, husable, hfree, Nat.succ_min_succ, List.drop_succ_cons]

/-- **What `fill` does**: it takes as many frames as were asked for, as far as there are slots
and frames. -/
structure Fills (count : Nat) (d d' : LinuxAFXDPDevice c) : Prop where
  used : d'.fillRing.used = d.entriesAfter 2 +
    min (min count (2 ^ c.fillBits.val - d.entriesAfter 1)) d.umem.usable
  producer : d'.fillRing.producer = d.fillRing.producer +
    BitVec.ofNat 32 (min (min count (2 ^ c.fillBits.val - d.entriesAfter 1)) d.umem.usable)
  umem : d'.umem.freeList = d.umem.freeList.drop
    (min (min count (2 ^ c.fillBits.val - d.entriesAfter 1)) (d.umem.usable + 1))

theorem entriesAfter_le (n : Nat) (d : LinuxAFXDPDevice c) :
    d.entriesAfter (n + 1) ≤ d.entriesAfter n := by
  rw [entriesAfter, List.take_add_one, List.flatten_append, List.countP_append]
  exact Nat.sub_le_sub_left (Nat.le_add_right ..) _

theorem reserve_toNat {α : Type} {k : Fin 32} {r : XdpRing α k} (h : r.used ≤ 2 ^ k.val)
    (count : BitVec 32) :
    (r.reserve count).1.toNat = min count.toNat (2 ^ k.val - r.used) := by
  have hfree : (r.size - (r.producer - r.consumer)).toNat = 2 ^ k.val - r.used := by
    rw [BitVec.toNat_sub_of_le, XdpRing.toNat_size]
    · rfl
    · rw [BitVec.le_def, XdpRing.toNat_size]
      exact h
  show BitVec.toNat (if _ < count then _ else count) = _
  split
  · rename_i hlt
    rw [BitVec.lt_def, hfree] at hlt
    rw [hfree, Nat.min_eq_right hlt.le]
  · rename_i hle
    rw [BitVec.not_lt, BitVec.le_def, hfree] at hle
    exact (Nat.min_eq_left hle).symm

theorem fill_fills (h : d.fillRing.used ≤ 2 ^ c.fillBits.val) (count : BitVec 32) :
    Fills count.toNat d (d.fill count) := by
  have hkernel := d.kernel_took
  have hused : d.kernel.fillRing.used = d.entriesAfter 1 := d.entriesAfter_kernel 0
  have hafter := d.entriesAfter_kernel 1
  have hle : d.entriesAfter 1 ≤ 2 ^ c.fillBits.val := (d.entriesAfter_le 0).trans h
  rw [fill]
  generalize d.kernel = e at hkernel hused hafter
  have hreserve := reserve_toNat (r := e.fillRing) (hused.trans_le hle) count
  rw [hused] at hreserve
  dsimp only
  rw [hreserve]
  generalize hn : min count.toNat (2 ^ c.fillBits.val - d.entriesAfter 1) = n
  have hslots : n ≤ 2 ^ c.fillBits.val - d.entriesAfter 1 := hn ▸ Nat.min_le_right ..
  obtain ⟨hcount, hfilled⟩ :=
    fillLoop_filled 0 n { e with fillRing := (e.fillRing.reserve count).2 }
  generalize fillLoop 0 n _ = p at hcount hfilled
  obtain ⟨filled, f⟩ := p
  dsimp only at hcount hfilled ⊢
  have humem : e.umem = d.umem := hkernel.umem
  rw [Nat.zero_add, humem] at hcount
  -- what the kernel takes before the frames are submitted
  have hfused : f.fillRing.used = e.fillRing.used := by
    rw [XdpRing.used, hfilled.producer, hfilled.consumer]
    rfl
  have hlast : f.kernel.fillRing.used = d.entriesAfter 2 := by
    rw [← hafter, entriesAfter, ← hfused, ← show f.schedule = e.schedule from hfilled.schedule]
    exact f.entriesAfter_kernel 0
  have htook := f.kernel_took
  have hcached : f.kernel.fillRing.cachedProd = d.fillRing.producer :=
    htook.cachedProd.trans (hfilled.cachedProd.trans hkernel.producer)
  have hproducer : f.kernel.fillRing.producer = d.fillRing.producer :=
    htook.producer.trans (hfilled.producer.trans hkernel.producer)
  have hroom : d.entriesAfter 2 + min n d.umem.usable ≤ 2 ^ c.fillBits.val := by
    have hle : d.entriesAfter 2 ≤ d.entriesAfter 1 := d.entriesAfter_le 1
    omega
  have htoNat : (BitVec.ofNat 32 filled).toNat = min n d.umem.usable := by
    rw [hcount]
    exact XdpRing.toNat_ofNat _ (le_trans (Nat.le_add_left ..) hroom)
  refine ⟨?_, ?_, ?_⟩
  · show (f.kernel.fillRing.submit (BitVec.ofNat 32 filled)).used = _
    rw [XdpRing.used_submit (hcached.trans hproducer.symm) _ (by rw [hlast, htoNat]; exact hroom),
      hlast, htoNat, hn]
  · show f.kernel.fillRing.cachedProd + BitVec.ofNat 32 filled = _
    rw [hcached, hcount, hn]
  · show f.kernel.umem.freeList = _
    rw [htook.umem, hfilled.umem, hn]
    show e.umem.freeList.drop (min n (e.umem.usable + 1)) = _
    rw [humem]

/-! ## Refilling -/

/-- The state after the probe. -/
def probed (d : LinuxAFXDPDevice c) : LinuxAFXDPDevice c :=
  { d.kernel with fillRing := (d.kernel.fillRing.reserve 0).2 }

theorem probed_entriesAfter (n : Nat) (d : LinuxAFXDPDevice c) :
    d.probed.entriesAfter n = d.entriesAfter (n + 1) := d.entriesAfter_kernel n

/-- `reserve(0)` grants nothing, whatever is free. -/
theorem reserve_zero {α : Type} {k : Fin 32} (r : XdpRing α k) : (r.reserve 0).1 = 0 := by
  show (if r.size - (r.producer - r.consumer) < 0 then r.size - (r.producer - r.consumer)
    else 0) = _
  exact if_neg BitVec.not_lt_zero

theorem toNat_fillRingSize_div (c : AFXDPSettings) (n : Nat) (hn : n < 2 ^ 32) :
    (c.fillRingSize / BitVec.ofNat 32 n).toNat = 2 ^ c.fillBits.val / n := by
  rw [AFXDPSettings.fillRingSize, BitVec.toNat_udiv, BitVec.toNat_ofNat, BitVec.toNat_ofNat,
    Nat.mod_eq_of_lt (XdpRing.pow_lt _), Nat.mod_eq_of_lt hn]

theorem refillFillRing_eq (hsize : 2 ≤ c.fillBits.val) (d : LinuxAFXDPDevice c) :
    d.refillFillRing =
      if d.umem.available = 0 then d.probed else d.probed.fill (c.fillRingSize / 2) := by
  have hquarter : ¬ c.fillRingSize / 4 ≤ 0 := by
    have htoNat := toNat_fillRingSize_div c 4 (by decide)
    have hpow : 2 ^ 2 ≤ 2 ^ c.fillBits.val := Nat.pow_le_pow_right (by decide) hsize
    rw [BitVec.le_def]
    show ¬ (c.fillRingSize / BitVec.ofNat 32 4).toNat ≤ 0
    omega
  have havailable : d.kernel.umem.available = d.umem.available := by rw [d.kernel_took.umem]
  rw [refillFillRing]
  dsimp only
  rw [reserve_zero, havailable,
    show c.fillRingSize / 2 - 0 = c.fillRingSize / 2 from BitVec.sub_zero _]
  by_cases hnone : d.umem.available = 0
  · rw [if_pos (Or.inr hnone), if_pos hnone]
    rfl
  · rw [if_neg (fun h => h.elim hquarter hnone), if_neg hnone]
    rfl

theorem add_ofNat_ne {x : BitVec 32} {n : Nat} (hn : n < 2 ^ 32) :
    x + BitVec.ofNat 32 n ≠ x ↔ 0 < n := by
  rw [Nat.pos_iff_ne_zero, ne_eq, not_iff_not, BitVec.add_right_eq_self]
  constructor
  · intro h
    have htoNat := congrArg BitVec.toNat h
    rwa [BitVec.toNat_ofNat, Nat.mod_eq_of_lt hn] at htoNat
  · rintro rfl
    rfl

theorem umem_ne_iff {a a' : UmemFrameAllocator} {n : Nat}
    (h : a'.freeList = a.freeList.drop n) : a' ≠ a ↔ 0 < min n a.freeList.length := by
  obtain ⟨xs⟩ := a
  obtain ⟨ys⟩ := a'
  dsimp only at h ⊢
  subst h
  have hlength : (xs.drop n).length = xs.length - n := List.length_drop
  constructor
  · intro hne
    by_contra hzero
    apply hne
    rcases Nat.eq_zero_or_pos n with rfl | hpos
    · rfl
    · have hempty : xs = [] := List.length_eq_zero_iff.mp (by omega)
      rw [hempty, List.drop_nil]
  · intro hpos heq
    have heq := congrArg (fun a => a.freeList.length) heq
    dsimp only at heq
    omega

theorem length_of_available {a : UmemFrameAllocator} (h : a.available ≠ 0) :
    0 < a.freeList.length := by
  rw [List.length_pos_iff]
  rintro hempty
  apply h
  rw [UmemFrameAllocator.available, hempty]
  rfl

/-- **When a refill follows the watermarks.** -/
theorem followsWatermarks_iff (hsize : 2 ≤ c.fillBits.val)
    (h : d.fillRing.used ≤ 2 ^ c.fillBits.val) : d.FollowsWatermarks ↔ d.Spare := by
  have hlow : d.kernel.fillRing.used = d.entriesAfter 1 := d.entriesAfter_kernel 0
  have hone : d.entriesAfter 1 ≤ 2 ^ c.fillBits.val := (d.entriesAfter_le 0).trans h
  have htwo : d.entriesAfter 2 ≤ d.entriesAfter 1 := d.entriesAfter_le 1
  have hthree : d.entriesAfter 3 ≤ d.entriesAfter 2 := d.entriesAfter_le 2
  have hprobed : d.probed.fillRing.used ≤ 2 ^ c.fillBits.val := hlow.trans_le hone
  have hproducer : d.probed.fillRing.producer = d.fillRing.producer := d.kernel_took.producer
  have humem : d.probed.umem = d.umem := d.kernel_took.umem
  have heq := d.refillFillRing_eq hsize
  by_cases hnone : d.umem.available = 0
  · refine iff_of_true ?_ (.inl hnone)
    rw [if_pos hnone] at heq
    refine ⟨fun hne => ?_, fun hne => ?_, fun hne => ?_⟩
    · rw [heq] at hne
      exact absurd hproducer hne
    · rw [heq] at hne
      exact absurd humem hne
    · rw [heq] at hne
      exact absurd hproducer hne
  rw [if_neg hnone] at heq
  obtain ⟨hused, hadded, htaken⟩ := d.probed.fill_fills hprobed (c.fillRingSize / 2)
  rw [← heq] at hused hadded htaken
  have htwice : (c.fillRingSize / 2).toNat = 2 ^ c.fillBits.val / 2 :=
    toNat_fillRingSize_div c 2 (by decide)
  have hreserved : d.probed.entriesAfter 1 = d.entriesAfter 2 := d.probed_entriesAfter 1
  have hsubmitted : d.probed.entriesAfter 2 = d.entriesAfter 3 := d.probed_entriesAfter 2
  rw [hreserved, hsubmitted, humem, htwice] at hused
  rw [hreserved, humem, htwice, hproducer] at hadded
  rw [hreserved, humem, htwice] at htaken
  have hpow : 2 ^ 2 ≤ 2 ^ c.fillBits.val := Nat.pow_le_pow_right (by decide) hsize
  have hlt : 2 ^ c.fillBits.val < 2 ^ 32 := XdpRing.pow_lt _
  -- frames are added if there are slots and frames, and taken if there are slots
  have hadds : d.refillFillRing.fillRing.producer ≠ d.fillRing.producer ↔
      0 < min (min (2 ^ c.fillBits.val / 2) (2 ^ c.fillBits.val - d.entriesAfter 2))
        d.umem.usable := by
    rw [hadded]
    exact add_ofNat_ne (by omega)
  have htakes : d.refillFillRing.umem ≠ d.umem ↔
      0 < min (2 ^ c.fillBits.val / 2) (2 ^ c.fillBits.val - d.entriesAfter 2) := by
    rw [umem_ne_iff htaken]
    have hsome := length_of_available hnone
    omega
  rw [Spare]
  constructor
  · rintro ⟨hadd, htake, hhigh⟩
    rw [hadds] at hadd hhigh
    rw [htakes] at htake
    rw [hused] at hhigh
    omega
  · rintro (hempty | hfull | ⟨hbelow, hfits⟩)
    · exact absurd hempty hnone
    · exact ⟨fun h => by rw [hadds] at h; omega, fun h => by rw [htakes] at h; omega,
        fun h => by rw [hadds] at h; omega⟩
    · exact ⟨fun _ => hlow.trans_lt hbelow, fun _ => hlow.trans_lt hbelow,
        fun _ => by rw [hused]; omega⟩

/-! ## Runs -/

/-- No more entries than slots. -/
def FillBounded (d : LinuxAFXDPDevice c) : Prop := d.fillRing.used ≤ 2 ^ c.fillBits.val

/-- Nothing but the positions of the fill ring matters. -/
theorem FillBounded.of_used (h : d'.FillBounded) (heq : d.fillRing.used = d'.fillRing.used) :
    d.FillBounded := heq.trans_le h

theorem FillBounded.kernel (h : d.FillBounded) : d.kernel.FillBounded :=
  (d.kernel_took.used.trans_le (Nat.sub_le ..)).trans h

theorem FillBounded.fill (h : d.FillBounded) (count : BitVec 32) : (d.fill count).FillBounded := by
  have hone : d.entriesAfter 1 ≤ 2 ^ c.fillBits.val := (d.entriesAfter_le 0).trans h
  have htwo : d.entriesAfter 2 ≤ d.entriesAfter 1 := d.entriesAfter_le 1
  rw [FillBounded, (fill_fills h count).used]
  omega

theorem FillBounded.refill (h : d.FillBounded) : d.refillFillRing.FillBounded := by
  have hkernel := h.kernel
  rw [refillFillRing]
  generalize d.kernel = e at hkernel
  have hprobed : ({ e with fillRing := (e.fillRing.reserve 0).2 } :
    LinuxAFXDPDevice c).FillBounded := hkernel.of_used rfl
  dsimp only
  split
  · exact hprobed
  · exact hprobed.fill _

theorem FillBounded.reclaim (h : d.FillBounded) : d.reclaimCompletionRing.FillBounded := by
  have hkernel := h.kernel
  rw [reclaimCompletionRing]
  generalize d.kernel = e at hkernel
  have hlast : ∀ umem compRing,
      ({ e with umem, compRing } : LinuxAFXDPDevice c).kernel.FillBounded :=
    fun _ _ => FillBounded.kernel (hkernel.of_used rfl)
  dsimp only
  split
  · exact hkernel.of_used rfl
  · exact (hlast _ _).of_used rfl

theorem FillBounded.recv (h : d.FillBounded) (maxCount : BitVec 32) :
    (d.recvBatch maxCount).2.FillBounded := by
  have hkernel := h.reclaim.refill.kernel
  rw [recvBatch]
  generalize d.reclaimCompletionRing.refillFillRing.kernel = e at hkernel
  have hlast : ∀ umem rxRing held,
      ({ e with umem, rxRing, held } : LinuxAFXDPDevice c).kernel.FillBounded :=
    fun _ _ _ => FillBounded.kernel (hkernel.of_used rfl)
  dsimp only
  split
  · exact hkernel.of_used rfl
  · split
    · refine FillBounded.fill ?_ _
      exact (hlast _ _ _).of_used rfl
    · exact (hlast _ _ _).of_used rfl

theorem sendLoop_fillRing (i : Nat) (descs : List PacketDesc) (d : LinuxAFXDPDevice c) :
    (sendLoop i descs d).2.fillRing = d.fillRing := by
  induction descs generalizing i d with
  | nil => rfl
  | cons p ps ih =>
    rw [sendLoop]
    split
    · exact ih ..
    · dsimp only
      split
      · rfl
      · exact ih ..

theorem FillBounded.send (h : d.FillBounded) (descs : List PacketDesc) :
    (d.sendBatch descs).2.FillBounded := by
  have hkernel := h.kernel
  rw [sendBatch]
  generalize d.kernel = e at hkernel
  dsimp only
  split
  · exact hkernel.of_used rfl
  · refine (FillBounded.kernel (d := (sendLoop 0 _ _).2) ?_).of_used rfl
    rw [FillBounded, sendLoop_fillRing]
    exact hkernel

/-- Writing to the slots moves no position. -/
theorem releaseLoop_positions (i : Nat) (descs : List PacketDesc)
    (r : XdpRing (BitVec 64) c.fillBits) : (releaseLoop i descs r).used = r.used ∧
      (releaseLoop i descs r).producer = r.producer ∧
      (releaseLoop i descs r).cachedProd = r.cachedProd := by
  induction descs generalizing i r with
  | nil => exact ⟨rfl, rfl, rfl⟩
  | cons p ps ih => exact ih (i + 1) (r.setRingAt (BitVec.ofNat 32 i) (p.addr.setWidth 64))

theorem FillBounded.release (h : d.FillBounded) (descs : List PacketDesc) :
    (d.releaseFrames descs).FillBounded := by
  have hkernel : d.kernel.fillRing.used ≤ _ := h.kernel
  rw [releaseFrames]
  generalize d.kernel = e at hkernel
  have hreserve := reserve_toNat hkernel (BitVec.ofNat 32 descs.length)
  dsimp only
  generalize hn : (e.fillRing.reserve (BitVec.ofNat 32 descs.length)).1 = n at hreserve
  obtain ⟨hused, hproducer, hcached⟩ := releaseLoop_positions (c := c) 0 (descs.take n.toNat)
    (e.fillRing.reserve (BitVec.ofNat 32 descs.length)).2
  generalize releaseLoop 0 _ _ = ring at hused hproducer hcached
  have htook := kernel_took { e with fillRing := ring }
  generalize LinuxAFXDPDevice.kernel _ = f at htook
  have hle : f.fillRing.used ≤ e.fillRing.used :=
    htook.used.trans_le ((Nat.sub_le ..).trans_eq hused)
  have hsame : f.fillRing.cachedProd = f.fillRing.producer :=
    (htook.cachedProd.trans hcached).trans (htook.producer.trans hproducer).symm
  have hsubmit := XdpRing.used_submit hsame n (by omega)
  show (f.fillRing.submit n).used ≤ _
  omega

theorem FillBounded.refillFrom {e : LinuxAFXDPDevice c} (h : d.FillBounded) {op : Op}
    (he : e ∈ d.refillFrom op) : e.FillBounded := by
  cases op with
  | recvBatch maxCount =>
    cases he
    exact h.reclaim
  | releaseRx descs =>
    cases he
    exact h.release descs
  | refillFillRing =>
    cases he
    exact h
  | sendBatch descs => cases he
  | populateFillRing => cases he
  | reclaimCompletionRing => cases he
  | kernel => cases he

theorem FillBounded.step (h : d.FillBounded) (x : Input) : (d.step x).FillBounded := by
  obtain ⟨op, schedule⟩ := x
  have hstart : ({ d with schedule } : LinuxAFXDPDevice c).FillBounded := h.of_used rfl
  cases op with
  | recvBatch maxCount => exact hstart.recv maxCount
  | sendBatch descs => exact hstart.send descs
  | releaseRx descs => exact (hstart.release descs).refill
  | populateFillRing => exact hstart.fill _
  | refillFillRing => exact hstart.refill
  | reclaimCompletionRing => exact hstart.reclaim
  | kernel => exact hstart.kernel

/-- **The refills of a run follow the watermarks just when each of them does no harm**, for a
ring of four slots or more. -/
theorem refillsBetween_iff (c : AFXDPSettings) (hsize : 2 ≤ c.fillBits.val) (xs : List Input) :
    GuardedRun.Meets step RefillsBetween (init c) xs ↔
      GuardedRun.Meets step RefillsSpare (init c) xs := by
  have hempty : (init c).fillRing.used = 0 := show ((0 : BitVec 32) - 0).toNat = 0 by decide
  have hinit : (init c).FillBounded := hempty.trans_le (Nat.zero_le _)
  refine GuardedRun.meets_congr (Q := FillBounded) (fun _ x h => h.step x) (fun d x h => ?_)
    hinit xs
  have hstart : ({ d with schedule := x.schedule } : LinuxAFXDPDevice c).FillBounded :=
    h.of_used rfl
  exact forall₂_congr fun e he => followsWatermarks_iff hsize (hstart.refillFrom he)

instance (d : LinuxAFXDPDevice c) : Decidable d.Spare := inferInstanceAs (Decidable (_ ∨ _))

instance (d : LinuxAFXDPDevice c) (x : Input) : Decidable (d.RefillsSpare x) :=
  inferInstanceAs
    (Decidable (∀ e ∈ ({ d with schedule := x.schedule } : LinuxAFXDPDevice c).refillFrom x.op,
      e.Spare))

/-- Rings of four slots. -/
def smallRings : AFXDPSettings where
  frameCount := 8
  frameSize := 2048
  fillBits := 2
  compBits := 2
  rxBits := 2
  txBits := 2

/-- A refill of the empty ring, and one after the kernel has taken the two frames. -/
theorem refillsBetween_emptied :
    GuardedRun.Meets step RefillsBetween (init smallRings)
      [⟨.refillFillRing, []⟩, ⟨.recvBatch 1, [[.takeFill, .takeFill]]⟩] :=
  (refillsBetween_iff smallRings (by decide) _).mpr (by decide +kernel)

/-- The ring is populated, and the kernel takes one of the four frames: the next `recv_batch`
adds one, although three slots are in use. -/
theorem refill_above_watermark :
    ¬ GuardedRun.Meets step RefillsBetween (init smallRings)
      [⟨.populateFillRing, []⟩, ⟨.kernel, [[.takeFill]]⟩, ⟨.recvBatch 1, []⟩] := by
  rintro ⟨-, -, hrefill, -⟩
  exact absurd ((hrefill _ rfl).added (by decide +kernel)) (by decide +kernel)

end LinuxAFXDPDevice
end NeuStack
