import NeuStack.LinuxAFXDPDevice
import Mathlib.Data.Multiset.Range
import Mathlib.Algebra.Order.Group.Multiset
import Mathlib.Tactic.Abel

/-! # Frames are conserved

The frames of all places, counted with their multiplicity, make up the `ledger` of a
device.  The invariant is that the ledger is the frames of the UMEM, and that no ring
has more entries than slots.

Each loop moves frames between the allocator and slots that the kernel does not see
yet, or has shown and not got back.  While these are under way they are counted apart:
what was written to the reserved slots is `reserved`, what is read is `peeked`, and
neither changes when the kernel works on the ring (`Served`).
-/
namespace NeuStack
namespace LinuxAFXDPDevice
variable {c : AFXDPConfig} {d d' : LinuxAFXDPDevice c}

/-! ## The ledger -/

/-- The frames of some addresses. -/
def frames (c : AFXDPConfig) (addrs : List (BitVec 64)) : Multiset Nat := ↑(addrs.map c.frame)

@[simp] theorem frames_nil : frames c [] = 0 := rfl

@[simp] theorem frames_cons (addr : BitVec 64) (addrs : List (BitVec 64)) :
    frames c (addr :: addrs) = {c.frame addr} + frames c addrs := rfl

@[simp] theorem frames_append (xs ys : List (BitVec 64)) :
    frames c (xs ++ ys) = frames c xs + frames c ys := by
  rw [frames, List.map_append, ← Multiset.coe_add]
  rfl

theorem frames_perm {xs ys : List (BitVec 64)} (h : xs.Perm ys) : frames c xs = frames c ys :=
  Multiset.coe_eq_coe.mpr (h.map _)

/-- The address `release_rx` makes of a descriptor. -/
def heldAddr (p : PacketDesc) : BitVec 64 := p.addr.setWidth 64

/-- The frames in all places. -/
def ledger (d : LinuxAFXDPDevice c) : Multiset Nat :=
  frames c d.umem.freeList + frames c d.fillRing.unconsumed + frames c d.kernelRx +
    frames c d.kernelTx + frames c (d.rxRing.unconsumed.map XdpDesc.addr) +
    frames c (d.held.map heldAddr) + frames c (d.txRing.unconsumed.map XdpDesc.addr) +
    frames c d.compRing.unconsumed

theorem conserved_iff : d.Conserved ↔ d.ledger = Multiset.range c.frameCount.toNat := by
  have hplaces : (↑d.places.flatten : Multiset Nat) = d.ledger := by
    simp only [places, ledger, frames, List.flatten_cons, List.flatten_nil, List.append_nil,
      List.map_append, ← Multiset.coe_add, List.map_map, add_assoc]
    rfl
  rw [Conserved, ← hplaces]
  exact Multiset.coe_eq_coe.symm

/-- No ring has more entries than slots. -/
structure Bounded (d : LinuxAFXDPDevice c) : Prop where
  fill : d.fillRing.used ≤ 2 ^ c.fillBits.val
  comp : d.compRing.used ≤ 2 ^ c.compBits.val
  rx : d.rxRing.used ≤ 2 ^ c.rxBits.val
  tx : d.txRing.used ≤ 2 ^ c.txBits.val

/-- The invariant, with some frames under way. -/
structure Inv (d : LinuxAFXDPDevice c) (away : Multiset Nat) : Prop where
  bounded : d.Bounded
  ledger : d.ledger + away = Multiset.range c.frameCount.toNat

/-- Addresses that are accounted for lie in the UMEM. -/
theorem lt_of_frame {addr : BitVec 64} (h : c.frame addr < c.frameCount.toNat) :
    addr.toNat < 2 ^ 32 := by
  have hlt := (Nat.div_lt_iff_lt_mul c.frameSize_pos).mp h
  exact hlt.trans_le c.umem_le

theorem Inv.lt {away : Multiset Nat} (h : d.Inv away) {addr : BitVec 64}
    (hmem : c.frame addr ∈ d.ledger) : addr.toNat < 2 ^ 32 := by
  apply lt_of_frame
  rw [← Multiset.mem_range, ← h.ledger]
  exact Multiset.mem_add.mpr (Or.inl hmem)

theorem mem_frames {addr : BitVec 64} {addrs : List (BitVec 64)} (h : addr ∈ addrs) :
    c.frame addr ∈ frames c addrs :=
  Multiset.mem_coe.mpr (List.mem_map_of_mem h)

/-- What the allocator hands out is no invalid address. -/
theorem Inv.ne_invalid {away : Multiset Nat} (h : d.Inv away) {addr : BitVec 64}
    (hmem : addr ∈ d.umem.freeList) : addr ≠ UmemFrameAllocator.invalidAddr := by
  rintro rfl
  have hin := mem_frames (c := c) hmem
  have hledger : c.frame UmemFrameAllocator.invalidAddr ∈ d.ledger := by
    simp only [LinuxAFXDPDevice.ledger, Multiset.mem_add]
    simp only [hin, true_or]
  have hlt := h.lt hledger
  exact absurd hlt (by decide)

/-! ## The kernel -/

/-- What the kernel may have done. -/
structure Served (d d' : LinuxAFXDPDevice c) : Prop where
  umem : d'.umem = d.umem
  held : d'.held = d.held
  fill : XdpRing.Drained d.fillRing d'.fillRing
  tx : XdpRing.Drained d.txRing d'.txRing
  rx : XdpRing.Fed d.rxRing d'.rxRing
  comp : XdpRing.Fed d.compRing d'.compRing
  ledger : d'.ledger = d.ledger

theorem Served.refl (d : LinuxAFXDPDevice c) : Served d d :=
  ⟨rfl, rfl, .refl _, .refl _, .refl _, .refl _, rfl⟩

theorem Served.trans {d'' : LinuxAFXDPDevice c} (h : Served d d') (h' : Served d' d'') :
    Served d d'' :=
  ⟨h'.umem.trans h.umem, h'.held.trans h.held, h.fill.trans h'.fill, h.tx.trans h'.tx,
    h.rx.trans h'.rx, h.comp.trans h'.comp, h'.ledger.trans h.ledger⟩

/-- A frame is taken out of a list. -/
theorem frames_eraseIdx {addrs : List (BitVec 64)} {i : Nat} {addr : BitVec 64}
    (h : addrs[i]? = some addr) :
    frames c addrs = {c.frame addr} + frames c (addrs.eraseIdx i) := by
  obtain ⟨hlt, rfl⟩ := List.getElem?_eq_some_iff.mp h
  rw [← frames_cons]
  exact frames_perm (List.getElem_cons_eraseIdx_perm hlt).symm

theorem kernelStep_served (h : d.Bounded) (x : KernelStep) :
    Served d (d.kernelStep x) ∧ (d.kernelStep x).Bounded := by
  unfold kernelStep
  cases x with
  | takeFill =>
    dsimp only
    split
    · rename_i addr fillRing htake
      obtain ⟨hdrained, hentries⟩ := XdpRing.take_eq htake
      refine ⟨⟨rfl, rfl, hdrained, .refl _, .refl _, .refl _, ?_⟩,
        ⟨hdrained.used_le.trans h.fill, h.comp, h.rx, h.tx⟩⟩
      simp only [ledger, hentries, frames_append, frames_cons, frames_nil]
      abel
    · exact ⟨.refl d, h⟩
  | deliver i desc =>
    dsimp only
    split
    · rename_i addr rxRing htaken hput
      obtain ⟨hfed, hused, hentries⟩ := XdpRing.put_eq h.rx hput
      split
      · rename_i hframe
        refine ⟨⟨rfl, rfl, .refl _, .refl _, hfed, .refl _, ?_⟩, ⟨h.fill, h.comp, hused, h.tx⟩⟩
        simp only [ledger, hentries, frames_eraseIdx htaken, List.map_append, List.map_cons,
          List.map_nil, frames_append, frames_cons, frames_nil, hframe]
        abel
      · exact ⟨.refl d, h⟩
    · exact ⟨.refl d, h⟩
  | takeTx =>
    dsimp only
    split
    · rename_i desc txRing htake
      obtain ⟨hdrained, hentries⟩ := XdpRing.take_eq htake
      refine ⟨⟨rfl, rfl, .refl _, hdrained, .refl _, .refl _, ?_⟩,
        ⟨h.fill, h.comp, h.rx, hdrained.used_le.trans h.tx⟩⟩
      simp only [ledger, hentries, List.map_cons, frames_append, frames_cons, frames_nil]
      abel
    · exact ⟨.refl d, h⟩
  | complete i addr =>
    dsimp only
    split
    · rename_i sent compRing htaken hput
      obtain ⟨hfed, hused, hentries⟩ := XdpRing.put_eq h.comp hput
      split
      · rename_i hframe
        refine ⟨⟨rfl, rfl, .refl _, .refl _, .refl _, hfed, ?_⟩, ⟨h.fill, hused, h.rx, h.tx⟩⟩
        simp only [ledger, hentries, frames_eraseIdx htaken, frames_append, frames_cons,
          frames_nil, hframe]
        abel
      · exact ⟨.refl d, h⟩
    · exact ⟨.refl d, h⟩
  | dma memory =>
    exact ⟨⟨rfl, rfl, .refl _, .refl _, .refl _, .refl _, rfl⟩, ⟨h.1, h.2, h.3, h.4⟩⟩

theorem kernelSteps_served (h : d.Bounded) (xs : List KernelStep) :
    Served d (xs.foldl kernelStep d) ∧ (xs.foldl kernelStep d).Bounded := by
  induction xs generalizing d with
  | nil => exact ⟨.refl d, h⟩
  | cons x xs ih =>
    obtain ⟨hserved, hbounded⟩ := kernelStep_served h x
    obtain ⟨hrest, hlast⟩ := ih hbounded
    exact ⟨hserved.trans hrest, hlast⟩

theorem kernel_served (h : d.Bounded) : Served d d.kernel ∧ d.kernel.Bounded := by
  unfold kernel
  split
  · exact ⟨.refl d, h⟩
  · rename_i steps schedule _
    have hbounded : ({ d with schedule } : LinuxAFXDPDevice c).Bounded := ⟨h.1, h.2, h.3, h.4⟩
    obtain ⟨hserved, hlast⟩ := kernelSteps_served hbounded steps
    exact ⟨⟨hserved.1, hserved.2, hserved.3, hserved.4, hserved.5, hserved.6, hserved.7⟩, hlast⟩

theorem Inv.kernel {away : Multiset Nat} (h : d.Inv away) : d.kernel.Inv away := by
  obtain ⟨hserved, hbounded⟩ := kernel_served h.bounded
  exact ⟨hbounded, by rw [hserved.ledger, h.ledger]⟩

/-! ## Filling the fill ring -/

/-- The frames that were written to the reserved slots, `m` of them, are away. -/
theorem fillLoop_spec {n : Nat} {i : Nat} (h : d.Inv (frames c (d.fillRing.reserved i)))
    (hgranted : d.fillRing.Granted (i + n)) :
    i ≤ (fillLoop i n d).1 ∧ (fillLoop i n d).1 ≤ i + n ∧
      (fillLoop i n d).2.Inv (frames c ((fillLoop i n d).2.fillRing.reserved (fillLoop i n d).1)) ∧
      (fillLoop i n d).2.fillRing.Granted (i + n) := by
  induction n generalizing i d with
  | zero => exact ⟨Nat.le_refl _, Nat.le_refl _, h, hgranted⟩
  | succ n ih =>
    unfold fillLoop
    cases hfree : d.umem.freeList with
    | nil =>
      have halloc : d.umem.alloc = (UmemFrameAllocator.invalidAddr, d.umem) := by
        rw [UmemFrameAllocator.alloc, hfree]
      rw [halloc]
      simp only [if_true]
      exact ⟨Nat.le_refl _, Nat.le_add_right .., h, hgranted⟩
    | cons addr rest =>
      have halloc : d.umem.alloc = (addr, ⟨rest⟩) := by
        rw [UmemFrameAllocator.alloc, hfree]
      have hne : addr ≠ UmemFrameAllocator.invalidAddr :=
        h.ne_invalid (by rw [hfree]; exact List.mem_cons_self ..)
      rw [halloc]
      simp only [hne, if_false]
      obtain ⟨hwritten, hsame, hreserved⟩ := hgranted.write (m := i) (by omega) addr
      have hledger := h.ledger
      rw [show i + (n + 1) = i + 1 + n by omega] at hwritten ⊢
      obtain ⟨hle, hlt, hinv, hlast⟩ := ih (d := { d with
          umem := ⟨rest⟩, fillRing := d.fillRing.setRingAt (BitVec.ofNat 32 i) addr })
        ⟨⟨h.bounded.fill, h.bounded.comp, h.bounded.rx, h.bounded.tx⟩, by
          simp only [ledger, hfree, frames_cons] at hledger
          simp only [ledger, hsame, hreserved, frames_append, frames_cons, frames_nil]
          rw [← hledger]
          abel⟩ hwritten
      exact ⟨by omega, hlt, hinv, hlast⟩

theorem Inv.fill (h : d.Inv 0) (count : BitVec 32) : (d.fill count).Inv 0 := by
  unfold LinuxAFXDPDevice.fill
  have hkernel := h.kernel
  generalize d.kernel = d at hkernel
  have hgranted := XdpRing.reserve_granted count hkernel.bounded.fill
  have hledger := hkernel.ledger
  obtain ⟨-, hle, hfilled, hgranted⟩ := fillLoop_spec (i := 0)
    (n := (d.fillRing.reserve count).1.toNat)
    (d := { d with fillRing := (d.fillRing.reserve count).2 })
    ⟨⟨hkernel.bounded.fill, hkernel.bounded.comp, hkernel.bounded.rx, hkernel.bounded.tx⟩, hledger⟩
    (by rw [Nat.zero_add]; exact hgranted)
  dsimp only
  generalize fillLoop 0 _ _ = p at hle hfilled hgranted
  obtain ⟨filled, d⟩ := p
  dsimp only at hle hfilled hgranted ⊢
  obtain ⟨hserved, -⟩ := kernel_served hfilled.bounded
  have hlast := hfilled.kernel
  rw [← hserved.fill.reserved] at hlast
  obtain ⟨hused, hentries⟩ := (hgranted.drained hserved.fill).submit hle
  refine ⟨⟨hused, hlast.bounded.comp, hlast.bounded.rx, hlast.bounded.tx⟩, ?_⟩
  rw [← hlast.ledger]
  simp only [LinuxAFXDPDevice.ledger, hentries, frames_append]
  abel

theorem Inv.refill (h : d.Inv 0) : d.refillFillRing.Inv 0 := by
  unfold refillFillRing
  have hkernel := h.kernel
  generalize d.kernel = d at hkernel
  have hprobe : ({ d with fillRing := (d.fillRing.reserve 0).2 } : LinuxAFXDPDevice c).Inv 0 :=
    ⟨⟨hkernel.bounded.fill, hkernel.bounded.comp, hkernel.bounded.rx, hkernel.bounded.tx⟩,
      hkernel.ledger⟩
  dsimp only
  split
  · exact hprobe
  · exact hprobe.fill _

/-! ## The completion ring -/

theorem frames_freed (addrs : List (BitVec 64)) (a : UmemFrameAllocator) :
    frames c (addrs.foldl (fun a addr => a.free addr) a).freeList =
      frames c addrs + frames c a.freeList := by
  induction addrs generalizing a with
  | nil => rw [frames_nil, zero_add]; rfl
  | cons addr addrs ih =>
    rw [List.foldl_cons, ih]
    simp only [UmemFrameAllocator.free, frames_cons]
    abel

theorem Inv.reclaim (h : d.Inv 0) : d.reclaimCompletionRing.Inv 0 := by
  unfold reclaimCompletionRing
  have hkernel := h.kernel
  generalize d.kernel = d at hkernel
  obtain ⟨hbounded, hledger⟩ := hkernel
  dsimp only
  split
  · exact ⟨⟨hbounded.fill, hbounded.comp, hbounded.rx, hbounded.tx⟩, hledger⟩
  · rw [XdpRing.map_ringAtConsumer]
    have hseen := d.compRing.peek_seen c.batchSize
    generalize hn : (d.compRing.peek c.batchSize).1 = n at hseen ⊢
    generalize hring : (d.compRing.peek c.batchSize).2 = ring at hseen ⊢
    have hsame : ring.unconsumed = d.compRing.unconsumed := by rw [← hring]; rfl
    have hused : ring.used = d.compRing.used := by rw [← hring]; rfl
    generalize hmid : ({ d with
      umem := (ring.peeked n.toNat).foldl (fun a addr => a.free addr) d.umem
      compRing := ring } : LinuxAFXDPDevice c) = e
    have hebounded : e.Bounded := by
      subst hmid
      exact ⟨hbounded.fill, hused.trans_le hbounded.comp, hbounded.rx, hbounded.tx⟩
    have heseen : e.compRing.Seen n.toNat := by
      subst hmid
      exact hseen
    have heledger : e.ledger = d.ledger + frames c (e.compRing.peeked n.toNat) := by
      subst hmid
      simp only [LinuxAFXDPDevice.ledger, frames_freed, hsame]
      abel
    obtain ⟨hserved, hlast⟩ := kernel_served hebounded
    obtain ⟨hseen', hpeeked⟩ := heseen.fed hserved.comp
    obtain ⟨hle, hentries⟩ := hseen'.release
    refine ⟨⟨hlast.fill, hle.trans hlast.comp, hlast.rx, hlast.tx⟩, ?_⟩
    have htotal := hserved.ledger
    rw [heledger, ← hpeeked] at htotal
    rw [← hledger]
    apply add_right_cancel (b := frames c (e.kernel.compRing.peeked n.toNat))
    rw [add_right_comm d.ledger, ← htotal]
    simp only [LinuxAFXDPDevice.ledger, hentries, frames_append]
    abel

/-! ## Receiving -/

theorem setWidth_setWidth {addr : BitVec 64} (h : addr.toNat < 2 ^ 32) :
    (addr.setWidth 32).setWidth 64 = addr := by
  apply BitVec.eq_of_toNat_eq
  rw [BitVec.toNat_setWidth, BitVec.toNat_setWidth, Nat.mod_eq_of_lt h,
    Nat.mod_eq_of_lt (h.trans (by decide))]

theorem frames_recvLoop (m : UmemMemory) {descs : List XdpDesc} (a : UmemFrameAllocator)
    (h : ∀ desc ∈ descs, desc.addr.toNat < 2 ^ 32) :
    frames c (recvLoop m descs a).2.freeList +
        frames c ((recvLoop m descs a).1.map heldAddr) =
      frames c a.freeList + frames c (descs.map XdpDesc.addr) := by
  induction descs generalizing a with
  | nil => rfl
  | cons desc descs ih =>
    have hrest := fun a => ih a fun x hx => h x (List.mem_cons_of_mem _ hx)
    rw [recvLoop]
    split
    · -- filtered out
      rw [hrest]
      simp only [UmemFrameAllocator.free, List.map_cons, frames_cons]
      abel
    · have haddr := setWidth_setWidth (h desc (List.mem_cons_self ..))
      simp only [List.map_cons, frames_cons, heldAddr, haddr]
      rw [add_left_comm, hrest a]
      abel

theorem mem_peeked {n : Nat} (h : d.rxRing.Seen n) {desc : XdpDesc}
    (hmem : desc ∈ d.rxRing.peeked n) : c.frame desc.addr ∈ d.ledger := by
  rw [h.take] at hmem
  have hin := mem_frames (c := c)
    (List.mem_map_of_mem (f := XdpDesc.addr) (List.mem_of_mem_take hmem))
  rw [ledger]
  simp only [Multiset.mem_add, hin, or_true, true_or]

theorem Inv.recv (h : d.Inv 0) (maxCount : BitVec 32) : (d.recvBatch maxCount).2.Inv 0 := by
  unfold recvBatch
  dsimp only
  have hkernel := h.reclaim.refill.kernel
  generalize d.reclaimCompletionRing.refillFillRing.kernel = d at hkernel ⊢
  obtain ⟨hbounded, hledger⟩ := hkernel
  split
  · exact ⟨⟨hbounded.fill, hbounded.comp, hbounded.rx, hbounded.tx⟩, hledger⟩
  · rw [XdpRing.map_ringAtConsumer]
    have hseen := d.rxRing.peek_seen maxCount
    generalize hn : (d.rxRing.peek maxCount).1 = n at hseen ⊢
    generalize hring : (d.rxRing.peek maxCount).2 = ring at hseen ⊢
    have hsame : ring.unconsumed = d.rxRing.unconsumed := by rw [← hring]; rfl
    have hused : ring.used = d.rxRing.used := by rw [← hring]; rfl
    -- every address that is read is in the UMEM
    have hlt : ∀ desc ∈ ring.peeked n.toNat, desc.addr.toNat < 2 ^ 32 := by
      intro desc hmem
      have hpeek : ({ d with rxRing := ring } : LinuxAFXDPDevice c).Inv 0 :=
        ⟨⟨hbounded.fill, hbounded.comp, hused.trans_le hbounded.rx, hbounded.tx⟩, by
          rw [← hledger]
          simp only [LinuxAFXDPDevice.ledger, hsame]⟩
      exact hpeek.lt (mem_peeked hseen hmem)
    have hloop := frames_recvLoop (c := c) d.memory d.umem hlt
    generalize recvLoop d.memory (ring.peeked n.toNat) d.umem = p at hloop ⊢
    obtain ⟨out, umem⟩ := p
    dsimp only at hloop ⊢
    generalize hmid : ({ d with
      umem, rxRing := ring, held := d.held ++ out } : LinuxAFXDPDevice c) = e
    have hebounded : e.Bounded := by
      subst hmid
      exact ⟨hbounded.fill, hbounded.comp, hused.trans_le hbounded.rx, hbounded.tx⟩
    have heseen : e.rxRing.Seen n.toNat := by
      subst hmid
      exact hseen
    have heledger :
        e.ledger = d.ledger + frames c ((e.rxRing.peeked n.toNat).map XdpDesc.addr) := by
      subst hmid
      simp only [LinuxAFXDPDevice.ledger, hsame, List.map_append, frames_append]
      ext f
      have hcount := congrArg (Multiset.count f) hloop
      simp only [Multiset.count_add] at hcount ⊢
      omega
    obtain ⟨hserved, hlast⟩ := kernel_served hebounded
    obtain ⟨hseen', hpeeked⟩ := heseen.fed hserved.rx
    obtain ⟨hle, hentries⟩ := hseen'.release
    have hreleased : ({ e.kernel with
        rxRing := e.kernel.rxRing.release n } : LinuxAFXDPDevice c).Inv 0 := by
      refine ⟨⟨hlast.fill, hlast.comp, hle.trans hlast.rx, hlast.tx⟩, ?_⟩
      have htotal := hserved.ledger
      rw [heledger, ← hpeeked] at htotal
      rw [← hledger]
      apply add_right_cancel (b := frames c ((e.kernel.rxRing.peeked n.toNat).map XdpDesc.addr))
      rw [add_right_comm d.ledger, ← htotal]
      simp only [LinuxAFXDPDevice.ledger, hentries, List.map_append, frames_append]
      abel
    split
    · exact hreleased.fill _
    · exact hreleased

/-! ## Sending -/

/-- The frames of the descriptors that were written, `m` of them, are away. -/
theorem sendLoop_spec (ps : List PacketDesc) {i : Nat}
    (h : d.Inv (frames c ((d.txRing.reserved i).map XdpDesc.addr)))
    (hgranted : d.txRing.Granted (i + ps.length)) (hps : ∀ p ∈ ps, p.isZerocopy = false) :
    (sendLoop i ps d).1 ≤ i + ps.length ∧
      (sendLoop i ps d).2.Inv
        (frames c (((sendLoop i ps d).2.txRing.reserved (sendLoop i ps d).1).map XdpDesc.addr)) ∧
      (sendLoop i ps d).2.txRing.Granted (i + ps.length) := by
  induction ps generalizing i d with
  | nil => exact ⟨Nat.le_refl _, h, hgranted⟩
  | cons p ps ih =>
    unfold sendLoop
    simp only [hps p (List.mem_cons_self ..), Bool.false_eq_true, if_false]
    cases hfree : d.umem.freeList with
    | nil =>
      have halloc : d.umem.alloc = (UmemFrameAllocator.invalidAddr, d.umem) := by
        rw [UmemFrameAllocator.alloc, hfree]
      rw [halloc]
      simp only [if_true]
      exact ⟨Nat.le_add_right .., h, hgranted⟩
    | cons addr rest =>
      have halloc : d.umem.alloc = (addr, ⟨rest⟩) := by
        rw [UmemFrameAllocator.alloc, hfree]
      have hne : addr ≠ UmemFrameAllocator.invalidAddr :=
        h.ne_invalid (by rw [hfree]; exact List.mem_cons_self ..)
      rw [halloc]
      simp only [hne, if_false]
      generalize hdesc : ({ addr, len := p.len + BitVec.ofNat 32 ethHlen } : XdpDesc) = desc
      have haddr : desc.addr = addr := by rw [← hdesc]
      rw [List.length_cons] at hgranted ⊢
      obtain ⟨hwritten, hsame, hreserved⟩ := hgranted.write (m := i) (by omega) desc
      have hledger := h.ledger
      rw [show i + (ps.length + 1) = i + 1 + ps.length by omega] at hwritten ⊢
      refine ih ⟨⟨h.bounded.fill, h.bounded.comp, h.bounded.rx, h.bounded.tx⟩, ?_⟩ hwritten
        fun q hq => hps q (List.mem_cons_of_mem _ hq)
      simp only [ledger, hfree, frames_cons] at hledger
      simp only [ledger, hsame, hreserved, List.map_append, List.map_cons, List.map_nil,
        frames_append, frames_cons, frames_nil, haddr]
      rw [← hledger]
      abel

theorem Inv.send (h : d.Inv 0) {descs : List PacketDesc}
    (hdescs : ∀ p ∈ descs, p.isZerocopy = false) : (d.sendBatch descs).2.Inv 0 := by
  unfold sendBatch
  dsimp only
  have hkernel := h.kernel
  generalize d.kernel = d at hkernel ⊢
  obtain ⟨hbounded, hledger⟩ := hkernel
  have hgranted := XdpRing.reserve_granted (BitVec.ofNat 32 descs.length) hbounded.tx
  have hlength : (d.txRing.reserve (BitVec.ofNat 32 descs.length)).1.toNat ≤ descs.length :=
    (XdpRing.grant_le _ _ _).trans ((BitVec.toNat_ofNat ..).trans_le (Nat.mod_le ..))
  split
  · exact ⟨⟨hbounded.fill, hbounded.comp, hbounded.rx, hbounded.tx⟩, hledger⟩
  · obtain ⟨hle, hsent, hgranted⟩ := sendLoop_spec
      (descs.take (d.txRing.reserve (BitVec.ofNat 32 descs.length)).1.toNat) (i := 0)
      (d := { d with txRing := (d.txRing.reserve (BitVec.ofNat 32 descs.length)).2 })
      ⟨⟨hbounded.fill, hbounded.comp, hbounded.rx, hbounded.tx⟩, hledger⟩
      (by rw [Nat.zero_add, List.length_take_of_le hlength]; exact hgranted)
      fun p hp => hdescs p (List.mem_of_mem_take hp)
    generalize sendLoop 0 _ _ = p at hle hsent hgranted ⊢
    obtain ⟨sent, d⟩ := p
    dsimp only at hle hsent hgranted ⊢
    obtain ⟨hserved, -⟩ := kernel_served hsent.bounded
    have hlast := hsent.kernel
    rw [← hserved.tx.reserved] at hlast
    obtain ⟨hused, hentries⟩ := (hgranted.drained hserved.tx).submit hle
    refine ⟨⟨hlast.bounded.fill, hlast.bounded.comp, hlast.bounded.rx, hused⟩, ?_⟩
    rw [← hlast.ledger]
    simp only [LinuxAFXDPDevice.ledger, hentries, List.map_append, frames_append]
    abel

/-! ## Releasing -/

theorem releaseLoop_spec (ps : List PacketDesc) {i : Nat}
    {r : XdpRing (BitVec 64) c.fillBits} (hgranted : r.Granted (i + ps.length)) :
    (releaseLoop i ps r).Granted (i + ps.length) ∧
      (releaseLoop i ps r).unconsumed = r.unconsumed ∧
      (releaseLoop i ps r).reserved (i + ps.length) = r.reserved i ++ ps.map heldAddr := by
  induction ps generalizing i r with
  | nil => exact ⟨hgranted, rfl, (List.append_nil _).symm⟩
  | cons p ps ih =>
    rw [List.length_cons] at hgranted ⊢
    obtain ⟨hwritten, hsame, hreserved⟩ := hgranted.write (m := i) (by omega) (heldAddr p)
    rw [show i + (ps.length + 1) = i + 1 + ps.length by omega] at hwritten ⊢
    obtain ⟨hlast, hentries, hwrote⟩ := ih hwritten
    refine ⟨hlast, hentries.trans hsame, hwrote.trans ?_⟩
    rw [hreserved, List.append_assoc]
    rfl

theorem frames_diff {descs held : List PacketDesc} (h : descs.Subperm held) :
    frames c (held.map heldAddr) =
      frames c (descs.map heldAddr) + frames c ((held.diff descs).map heldAddr) := by
  rw [← frames_append, ← List.map_append]
  exact frames_perm ((List.subperm_append_diff_self_of_count_le
    (List.subperm_ext_iff.mp h)).symm.map _)

theorem Inv.releaseRx (h : d.Inv 0) {descs : List PacketDesc} (hdescs : descs.Subperm d.held) :
    (d.releaseRx descs).Inv 0 := by
  unfold LinuxAFXDPDevice.releaseRx
  dsimp only
  obtain ⟨hserved, -⟩ := kernel_served h.bounded
  have hkernel := h.kernel
  rw [← hserved.held] at hdescs
  generalize d.kernel = d at hkernel hdescs ⊢
  obtain ⟨hbounded, hledger⟩ := hkernel
  have hgranted := XdpRing.reserve_granted (BitVec.ofNat 32 descs.length) hbounded.fill
  have hlength : (d.fillRing.reserve (BitVec.ofNat 32 descs.length)).1.toNat ≤ descs.length :=
    (XdpRing.grant_le _ _ _).trans ((BitVec.toNat_ofNat ..).trans_le (Nat.mod_le ..))
  have hsame : (d.fillRing.reserve (BitVec.ofNat 32 descs.length)).2.unconsumed =
    d.fillRing.unconsumed := rfl
  have hempty : (d.fillRing.reserve (BitVec.ofNat 32 descs.length)).2.reserved 0 = [] := rfl
  generalize d.fillRing.reserve (BitVec.ofNat 32 descs.length) = p at *
  obtain ⟨n, ring⟩ := p
  dsimp only at *
  obtain ⟨hwritten, hentries, hreserved⟩ := releaseLoop_spec (c := c)
    (descs.take n.toNat) (i := 0) (r := ring)
    (by rw [Nat.zero_add, List.length_take_of_le hlength]; exact hgranted)
  rw [Nat.zero_add, List.length_take_of_le hlength] at hwritten hreserved
  rw [hsame] at hentries
  rw [hempty, List.nil_append] at hreserved
  generalize releaseLoop 0 (descs.take n.toNat) ring = ring at *
  generalize hmid : ({ d with fillRing := ring } : LinuxAFXDPDevice c) = e
  have hinv : e.Inv 0 := by
    subst hmid
    refine ⟨⟨(Nat.le_add_right ..).trans hwritten.2, hbounded.comp, hbounded.rx, hbounded.tx⟩, ?_⟩
    rw [← hledger]
    simp only [LinuxAFXDPDevice.ledger, hentries]
  have hering : e.fillRing = ring := by rw [← hmid]
  have heheld : e.held = d.held := by rw [← hmid]
  obtain ⟨hserved, -⟩ := kernel_served hinv.bounded
  have hlast := hinv.kernel
  rw [← hering] at hwritten hreserved
  have hdrained := hwritten.drained hserved.fill
  rw [← heheld, ← hserved.held] at hdescs
  rw [← hserved.fill.reserved] at hreserved
  generalize e.kernel = e at hlast hdrained hdescs hreserved ⊢
  obtain ⟨hused, hentries⟩ := hdrained.submit (Nat.le_refl _)
  rw [BitVec.ofNat_toNat, BitVec.setWidth_eq, hreserved] at hentries
  rw [BitVec.ofNat_toNat, BitVec.setWidth_eq] at hused
  -- the frames of `descs` go to the fill ring and, past its room, to the allocator
  have hfreed : ∀ a, frames c ((descs.drop n.toNat).foldl
      (fun a p => UmemFrameAllocator.free (heldAddr p) a) a).freeList =
        frames c ((descs.drop n.toNat).map heldAddr) + frames c a.freeList := by
    intro a
    rw [← frames_freed, List.foldl_map]
  have hsplit : frames c (descs.map heldAddr) = frames c ((descs.take n.toNat).map heldAddr) +
      frames c ((descs.drop n.toNat).map heldAddr) := by
    rw [← frames_append, ← List.map_append, List.take_append_drop]
  refine Inv.refill ⟨⟨hused, hlast.bounded.comp, hlast.bounded.rx, hlast.bounded.tx⟩, ?_⟩
  rw [← hlast.ledger]
  have hdiff := frames_diff (c := c) hdescs
  rw [hsplit] at hdiff
  have hfreed := hfreed e.umem
  simp only [heldAddr] at hfreed
  simp only [LinuxAFXDPDevice.ledger, hentries, frames_append, hdiff, hfreed]
  abel

/-! ## Runs -/

/-- The allocator starts with every frame of the UMEM. -/
theorem init_inv (c : AFXDPConfig) : (init c).Inv 0 := by
  have hempty : ((0 : BitVec 32) - 0).toNat = 0 := by decide
  have hused : ∀ n : Nat, ((0 : BitVec 32) - 0).toNat ≤ n := fun n => hempty.trans_le n.zero_le
  refine ⟨⟨hused _, hused _, hused _, hused _⟩, ?_⟩
  have hframes : ∀ i < c.frameCount.toNat,
      c.frame ((BitVec.ofNat 32 i * c.frameSize).setWidth 64) = i := by
    intro i hi
    have hpos := c.frameSize_pos
    have hmul : i * c.frameSize.toNat < 2 ^ 32 :=
      (Nat.mul_lt_mul_of_pos_right hi hpos).trans_le c.umem_le
    have hlt : i < 2 ^ 32 := hi.trans c.frameCount.isLt
    rw [AFXDPSettings.frame, BitVec.toNat_setWidth, BitVec.toNat_mul, BitVec.toNat_ofNat,
      Nat.mod_eq_of_lt hlt, Nat.mod_eq_of_lt hmul, Nat.mod_eq_of_lt (hmul.trans (by decide)),
      Nat.mul_div_cancel _ hpos]
  have hfree : frames c (UmemFrameAllocator.init c.frameCount c.frameSize).freeList =
      Multiset.range c.frameCount.toNat := by
    rw [frames, UmemFrameAllocator.init, List.map_map]
    have hid : ((List.range c.frameCount.toNat).reverse.map
        (c.frame ∘ fun i => (BitVec.ofNat 32 i * c.frameSize).setWidth 64)) =
        (List.range c.frameCount.toNat).reverse := by
      refine (List.map_congr_left fun i hi => ?_).trans (List.map_id _)
      exact hframes i (List.mem_range.mp (List.mem_reverse.mp hi))
    rw [hid]
    exact Multiset.coe_reverse _
  have hring : ∀ {α : Type} {k : Fin 32} (descs : Nat → α),
      XdpRing.unconsumed (k := k) { producer := 0, consumer := 0, descs } = [] := fun _ =>
    List.length_eq_zero_iff.mp ((XdpRing.length_unconsumed _).trans hempty)
  rw [← hfree]
  simp only [LinuxAFXDPDevice.ledger, init, hring, List.map_nil, frames_nil, add_zero]

theorem Inv.step (h : d.Inv 0) (x : Input) (hx : d.Permitted x) : (d.step x).Inv 0 := by
  obtain ⟨op, schedule⟩ := x
  have hstart : ({ d with schedule } : LinuxAFXDPDevice c).Inv 0 :=
    ⟨⟨h.bounded.fill, h.bounded.comp, h.bounded.rx, h.bounded.tx⟩, h.ledger⟩
  cases op with
  | recvBatch maxCount => exact hstart.recv maxCount
  | sendBatch descs => exact hstart.send hx
  | releaseRx descs => exact hstart.releaseRx hx
  | populateFillRing => exact hstart.fill _
  | refillFillRing => exact hstart.refill
  | reclaimCompletionRing => exact hstart.reclaim
  | kernel => exact hstart.kernel

/-- **No frame is lost or duplicated**: for every UMEM and every size of the rings, after
every run of the device's operations, whatever the kernel does between them and during
them. -/
theorem framesConserved (c : AFXDPConfig) (xs : List Input)
    (h : GuardedRun.Meets step Permitted (init c) xs) :
    (GuardedRun.run step (init c) xs).Conserved := by
  rw [conserved_iff]
  have hinv := h.invariant (P := fun d => d.Inv 0) (fun _ x hd hx => hd.step x hx) (init_inv c)
  exact (add_zero _).symm.trans hinv.ledger

/-- A UMEM of eight frames, and small rings. -/
def smallUmem : AFXDPConfig where
  frameCount := 8
  frameSize := 2048
  fillBits := ⟨2, by decide⟩
  compBits := ⟨1, by decide⟩
  rxBits := ⟨1, by decide⟩
  txBits := ⟨1, by decide⟩
  frameSize_pos := by decide
  umem_le := by decide

/-- Of two packets one is filtered out, the other held while two of three are sent, and its
frame goes to the allocator, as the fill ring is full. -/
def smallRun : List Input :=
  let packet : PacketDesc := ⟨.external [0x45], 1, 0, 0, 0⟩
  let received : PacketDesc :=
    ⟨.umem (7 * 2048 + 270), 46, BitVec.ofNat 32 (7 * 2048 + 256), 0, 3⟩
  let memory : UmemMemory := fun addr => if addr = 7 * 2048 + 268 then 8 else 0
  [⟨.populateFillRing, []⟩,
    ⟨.kernel, [[.takeFill, .takeFill, .dma memory, .deliver 0 ⟨7 * 2048 + 256, 60, 0⟩,
      .deliver 0 ⟨6 * 2048 + 256, 60, 0⟩]]⟩,
    ⟨.recvBatch 4, [[], [.takeFill]]⟩, ⟨.sendBatch [packet, packet, packet], []⟩,
    ⟨.kernel, [[.takeTx, .complete 0 (1 * 2048 + 5)]]⟩, ⟨.releaseRx [received], []⟩,
    ⟨.reclaimCompletionRing, []⟩]

theorem framesConserved_small :
    (GuardedRun.run step (init smallUmem) smallRun).places =
        [[1, 7], [4, 3, 2, 6], [5], [], [], [0], []] ∧
      (GuardedRun.run step (init smallUmem) smallRun).Conserved := by
  refine ⟨by decide +kernel, ?_⟩
  apply framesConserved
  exact ⟨trivial, trivial, trivial, by decide, trivial, by decide +kernel, trivial, trivial⟩

end LinuxAFXDPDevice
end NeuStack
