import NeuStack.XdpRing
import Mathlib.Data.List.Perm.Subperm

/-! # The AF_XDP device

The frames of a UMEM go round between the allocator's free list, the four rings the
device shares with the kernel, the kernel, and the user of the device.  A frame is
known by an address in it, which need not be its first.

The device runs on one thread, and the kernel at the same time.  What the device sees
of the kernel are the positions of the rings, so what the kernel has done is caught up
with before each load or store of a shared position (`LinuxAFXDPDevice.kernel`): the
`schedule` says what that is.

Statistics, logging and the system calls that wake the kernel are left out.
-/
namespace NeuStack

/-- The fields of `AFXDPConfig`.  The rings' sizes are powers of two. -/
structure AFXDPSettings where
  localMac : Vector (BitVec 8) 6 := .replicate 6 0
  gatewayMac : Vector (BitVec 8) 6 := .replicate 6 0
  frameCount : BitVec 32 := 4096
  frameSize : BitVec 32 := 4096
  fillBits : Fin 32 := 11
  compBits : Fin 32 := 11
  rxBits : Fin 32 := 11
  txBits : Fin 32 := 11
  batchSize : BitVec 32 := 64

namespace AFXDPSettings

def fillRingSize (c : AFXDPSettings) : BitVec 32 := BitVec.ofNat 32 (2 ^ c.fillBits.val)

/-- The number of the frame an address is in. -/
def frame (c : AFXDPSettings) (addr : BitVec 64) : Nat := addr.toNat / c.frameSize.toNat

end AFXDPSettings

/-- `AFXDPConfig`, where an address of 32 bits tells the frames apart. -/
structure AFXDPConfig extends AFXDPSettings where
  /-- The kernel registers no UMEM of empty frames. -/
  frameSize_pos : 0 < frameSize.toNat
  umem_le : frameCount.toNat * frameSize.toNat ≤ 2 ^ 32

instance : Coe AFXDPConfig AFXDPSettings := ⟨AFXDPConfig.toAFXDPSettings⟩

/-! ## Frames -/

/-- `UmemFrameAllocator`: its `_free_list`, the back first. -/
structure UmemFrameAllocator where
  freeList : List (BitVec 64)

namespace UmemFrameAllocator

def init (frameCount frameSize : BitVec 32) : UmemFrameAllocator where
  freeList := (List.range frameCount.toNat).reverse.map fun i =>
    (BitVec.ofNat 32 i * frameSize).setWidth 64

/-- `INVALID_ADDR`. -/
def invalidAddr : BitVec 64 := BitVec.allOnes 64

def alloc (a : UmemFrameAllocator) : BitVec 64 × UmemFrameAllocator :=
  match a.freeList with
  | [] => (invalidAddr, a)
  | addr :: rest => (addr, ⟨rest⟩)

def free (addr : BitVec 64) (a : UmemFrameAllocator) : UmemFrameAllocator :=
  ⟨addr :: a.freeList⟩

def available (a : UmemFrameAllocator) : BitVec 32 := BitVec.ofNat 32 a.freeList.length

end UmemFrameAllocator

/-- The bytes of the UMEM. -/
abbrev UmemMemory := BitVec 64 → BitVec 8

namespace UmemMemory

/-- `memcpy` into the UMEM. -/
def store (addr : BitVec 64) : List (BitVec 8) → UmemMemory → UmemMemory
  | [], m => m
  | b :: bs, m => store (addr + 1) bs (Function.update m addr b)

def load (addr : BitVec 64) (len : Nat) (m : UmemMemory) : List (BitVec 8) :=
  (List.range len).map fun i => m (addr + BitVec.ofNat 64 i)

end UmemMemory

/-! ## Descriptors -/

structure XdpDesc where
  addr : BitVec 64
  len : BitVec 32
  options : BitVec 32 := 0

/-- What `PacketDesc::data` points at. -/
inductive PacketData where
  | external (bytes : List (BitVec 8))
  | umem (addr : BitVec 64)
  deriving DecidableEq

structure PacketDesc where
  data : PacketData
  len : BitVec 32
  addr : BitVec 32
  portId : BitVec 16
  flags : BitVec 16
  deriving DecidableEq

namespace PacketDesc

def flagZerocopy : BitVec 16 := 0x0001

def flagNeedFree : BitVec 16 := 0x0002

def isZerocopy (p : PacketDesc) : Bool := p.flags &&& flagZerocopy != 0

/-- The bytes that `memcpy` copies out of `data`. -/
def bytes (p : PacketDesc) (m : UmemMemory) : List (BitVec 8) :=
  match p.data with
  | .external bs => bs.take p.len.toNat
  | .umem addr => m.load addr p.len.toNat

end PacketDesc

def ethHlen : Nat := 14

def ethPIp : BitVec 16 := 0x0800

/-- `parse_ethernet`: the EtherType, or 0 for a frame that is too short. -/
def parseEthernet (frame : BitVec 64) (frameLen : BitVec 32) (m : UmemMemory) : BitVec 16 :=
  if frameLen.toNat < ethHlen then 0 else m (frame + 12) ++ m (frame + 13)

/-- The header that `build_ethernet` writes. -/
def buildEthernet (dstMac srcMac : Vector (BitVec 8) 6) (ethertype : BitVec 16) :
    List (BitVec 8) :=
  dstMac.toList ++ srcMac.toList ++ [ethertype.extractLsb' 8 8, ethertype.extractLsb' 0 8]

/-! ## The device -/

/-- What the kernel does. -/
inductive KernelStep where
  /-- It takes a frame from the fill ring. -/
  | takeFill
  /-- It puts a packet in one of these frames and on the RX ring. -/
  | deliver (i : Nat) (desc : XdpDesc)
  /-- It takes a packet from the TX ring. -/
  | takeTx
  /-- It has sent one of these, and puts its frame on the completion ring. -/
  | complete (i : Nat) (addr : BitVec 64)
  /-- It writes to the UMEM. -/
  | dma (memory : UmemMemory)

/-- The device, the kernel's and the user's frames, and what the kernel does next. -/
structure LinuxAFXDPDevice (c : AFXDPSettings) where
  umem : UmemFrameAllocator
  memory : UmemMemory
  fillRing : XdpRing (BitVec 64) c.fillBits
  compRing : XdpRing (BitVec 64) c.compBits
  rxRing : XdpRing XdpDesc c.rxBits
  txRing : XdpRing XdpDesc c.txBits
  /-- Frames the kernel has taken from the fill ring. -/
  kernelRx : List (BitVec 64) := []
  /-- Frames it has taken from the TX ring. -/
  kernelTx : List (BitVec 64) := []
  /-- What the user has received and not released. -/
  held : List PacketDesc := []
  schedule : List (List KernelStep) := []

namespace LinuxAFXDPDevice
variable {c : AFXDPSettings}

/-- One step of the kernel.  It keeps to the frames it has, and to the room there is. -/
def kernelStep (d : LinuxAFXDPDevice c) : KernelStep → LinuxAFXDPDevice c
  | .takeFill =>
    match d.fillRing.take with
    | some (addr, fillRing) => { d with fillRing, kernelRx := d.kernelRx ++ [addr] }
    | none => d
  | .deliver i desc =>
    match d.kernelRx[i]?, d.rxRing.put desc with
    | some addr, some rxRing =>
      if c.frame desc.addr = c.frame addr then
        { d with rxRing, kernelRx := d.kernelRx.eraseIdx i }
      else d
    | _, _ => d
  | .takeTx =>
    match d.txRing.take with
    | some (desc, txRing) => { d with txRing, kernelTx := d.kernelTx ++ [desc.addr] }
    | none => d
  | .complete i addr =>
    match d.kernelTx[i]?, d.compRing.put addr with
    | some sent, some compRing =>
      if c.frame addr = c.frame sent then
        { d with compRing, kernelTx := d.kernelTx.eraseIdx i }
      else d
    | _, _ => d
  | .dma memory => { d with memory }

/-- Catch up with the kernel. -/
def kernel (d : LinuxAFXDPDevice c) : LinuxAFXDPDevice c :=
  match d.schedule with
  | [] => d
  | steps :: schedule => steps.foldl kernelStep { d with schedule }

/-- Take frames from the allocator to the `n` slots from the `i`-th on, until it runs
dry.  Returns how many slots have been filled. -/
def fillLoop (i : Nat) : Nat → LinuxAFXDPDevice c → Nat × LinuxAFXDPDevice c
  | 0, d => (i, d)
  | n + 1, d =>
    let (addr, umem) := d.umem.alloc
    if addr = UmemFrameAllocator.invalidAddr then (i, { d with umem })
    else
      let fillRing := d.fillRing.setRingAt (BitVec.ofNat 32 i) addr
      fillLoop (i + 1) n { d with umem, fillRing }

/-- Reserve, fill, and submit as many as were filled. -/
def fill (count : BitVec 32) (d : LinuxAFXDPDevice c) : LinuxAFXDPDevice c :=
  let d := d.kernel
  let (n, fillRing) := d.fillRing.reserve count
  let (filled, d) := fillLoop 0 n.toNat { d with fillRing }
  let d := d.kernel
  { d with fillRing := d.fillRing.submit (BitVec.ofNat 32 filled) }

def populateFillRing (d : LinuxAFXDPDevice c) : LinuxAFXDPDevice c := d.fill (c.frameCount / 2)

def refillFillRing (d : LinuxAFXDPDevice c) : LinuxAFXDPDevice c :=
  let d := d.kernel
  let (avail, fillRing) := d.fillRing.reserve 0
  let d := { d with fillRing }
  let threshold := c.fillRingSize / 4
  if threshold ≤ avail ∨ d.umem.available = 0 then d
  else
    let target := c.fillRingSize / 2
    d.fill (target - avail)

def reclaimCompletionRing (d : LinuxAFXDPDevice c) : LinuxAFXDPDevice c :=
  let d := d.kernel
  let (n, compRing) := d.compRing.peek c.batchSize
  let d := { d with compRing }
  if n = 0 then d
  else
    let addrs := (List.range n.toNat).map fun i => compRing.ringAtConsumer (BitVec.ofNat 32 i)
    let d := { d with umem := addrs.foldl (fun a addr => a.free addr) d.umem }
    let d := d.kernel
    { d with compRing := d.compRing.release n }

/-- The descriptors of the IPv4 packets; the frames of the others are freed. -/
def recvLoop (m : UmemMemory) : List XdpDesc → UmemFrameAllocator →
    List PacketDesc × UmemFrameAllocator
  | [], a => ([], a)
  | desc :: descs, a =>
    if parseEthernet desc.addr desc.len m ≠ ethPIp then recvLoop m descs (a.free desc.addr)
    else
      let out : PacketDesc :=
        { data := .umem (desc.addr + BitVec.ofNat 64 ethHlen)
          len := desc.len - BitVec.ofNat 32 ethHlen
          addr := desc.addr.setWidth 32
          portId := 0
          flags := PacketDesc.flagZerocopy ||| PacketDesc.flagNeedFree }
      let (outs, a) := recvLoop m descs a
      (out :: outs, a)

def recvBatch (maxCount : BitVec 32) (d : LinuxAFXDPDevice c) :
    List PacketDesc × LinuxAFXDPDevice c :=
  let d := d.reclaimCompletionRing
  let d := d.refillFillRing
  let d := d.kernel
  let (n, rxRing) := d.rxRing.peek maxCount
  let d := { d with rxRing }
  if n = 0 then ([], d)
  else
    let descs := (List.range n.toNat).map fun i => rxRing.ringAtConsumer (BitVec.ofNat 32 i)
    let (out, umem) := recvLoop d.memory descs d.umem
    let d := { d with umem, held := d.held ++ out }
    let d := d.kernel
    let d := { d with rxRing := d.rxRing.release n }
    -- the frames of the packets that were filtered out go back to the kernel
    if out.length < n.toNat then (out, d.fill (BitVec.ofNat 32 (n.toNat - out.length)))
    else (out, d)

/-- Fill the slots from the `i`-th on with descriptors, until the allocator runs dry.
Returns how many slots have been filled. -/
def sendLoop (i : Nat) : List PacketDesc → LinuxAFXDPDevice c → Nat × LinuxAFXDPDevice c
  | [], d => (i, d)
  | p :: ps, d =>
    if p.isZerocopy then
      let desc : XdpDesc := { addr := p.addr.setWidth 64, len := p.len }
      sendLoop (i + 1) ps { d with txRing := d.txRing.setRingAt (BitVec.ofNat 32 i) desc }
    else
      let (frame, umem) := d.umem.alloc
      if frame = UmemFrameAllocator.invalidAddr then (i, { d with umem })
      else
        let header := buildEthernet c.gatewayMac c.localMac ethPIp
        let memory := d.memory.store frame header
        let memory := memory.store (frame + BitVec.ofNat 64 ethHlen) (p.bytes memory)
        let desc : XdpDesc := { addr := frame, len := p.len + BitVec.ofNat 32 ethHlen }
        let txRing := d.txRing.setRingAt (BitVec.ofNat 32 i) desc
        sendLoop (i + 1) ps { d with umem, memory, txRing }

def sendBatch (descs : List PacketDesc) (d : LinuxAFXDPDevice c) : Nat × LinuxAFXDPDevice c :=
  let d := d.kernel
  let (n, txRing) := d.txRing.reserve (BitVec.ofNat 32 descs.length)
  let d := { d with txRing }
  if n = 0 then (0, d)
  else
    let (n, d) := sendLoop 0 (descs.take n.toNat) d
    let d := d.kernel
    (n, { d with txRing := d.txRing.submit (BitVec.ofNat 32 n) })

/-- Write the descriptors' frames to the slots from the `i`-th on. -/
def releaseLoop (i : Nat) : List PacketDesc → XdpRing (BitVec 64) c.fillBits →
    XdpRing (BitVec 64) c.fillBits
  | [], r => r
  | p :: ps, r => releaseLoop (i + 1) ps (r.setRingAt (BitVec.ofNat 32 i) (p.addr.setWidth 64))

def releaseRx (descs : List PacketDesc) (d : LinuxAFXDPDevice c) : LinuxAFXDPDevice c :=
  let d := d.kernel
  let (n, fillRing) := d.fillRing.reserve (BitVec.ofNat 32 descs.length)
  let d := { d with fillRing := releaseLoop 0 (descs.take n.toNat) fillRing }
  let d := d.kernel
  let d := { d with fillRing := d.fillRing.submit n, held := d.held.diff descs }
  -- what the fill ring has no room for
  let umem := (descs.drop n.toNat).foldl (fun a p => a.free (p.addr.setWidth 64)) d.umem
  { d with umem }.refillFillRing

/-! ## Runs -/

/-- A device that has been opened, before its fill ring is populated. -/
def init (c : AFXDPSettings) : LinuxAFXDPDevice c where
  umem := .init c.frameCount c.frameSize
  memory _ := 0
  fillRing := { producer := 0, consumer := 0, descs := fun _ => 0 }
  compRing := { producer := 0, consumer := 0, descs := fun _ => 0 }
  rxRing := { producer := 0, consumer := 0, descs := fun _ => ⟨0, 0, 0⟩ }
  txRing := { producer := 0, consumer := 0, descs := fun _ => ⟨0, 0, 0⟩ }

inductive Op where
  | recvBatch (maxCount : BitVec 32)
  | sendBatch (descs : List PacketDesc)
  | releaseRx (descs : List PacketDesc)
  | populateFillRing
  | refillFillRing
  | reclaimCompletionRing
  /-- Only the kernel runs. -/
  | kernel

/-- An operation, and what the kernel does during it. -/
structure Input where
  op : Op
  schedule : List (List KernelStep) := []

def apply (d : LinuxAFXDPDevice c) : Op → LinuxAFXDPDevice c
  | .recvBatch maxCount => (d.recvBatch maxCount).2
  | .sendBatch descs => (d.sendBatch descs).2
  | .releaseRx descs => d.releaseRx descs
  | .populateFillRing => d.populateFillRing
  | .refillFillRing => d.refillFillRing
  | .reclaimCompletionRing => d.reclaimCompletionRing
  | .kernel => d.kernel

def step (d : LinuxAFXDPDevice c) (x : Input) : LinuxAFXDPDevice c :=
  { d with schedule := x.schedule }.apply x.op

/-- Only packets outside of the UMEM are sent, and each received packet is released once. -/
def Permitted (d : LinuxAFXDPDevice c) (x : Input) : Prop :=
  match x.op with
  | .sendBatch descs => ∀ p ∈ descs, p.isZerocopy = false
  | .releaseRx descs => descs.Subperm d.held
  | _ => True

instance (d : LinuxAFXDPDevice c) (x : Input) : Decidable (d.Permitted x) :=
  match x with
  | ⟨.sendBatch descs, _⟩ => inferInstanceAs (Decidable (∀ p ∈ descs, p.isZerocopy = false))
  | ⟨.releaseRx descs, _⟩ => inferInstanceAs (Decidable (descs.Subperm d.held))
  | ⟨.recvBatch _, _⟩ | ⟨.populateFillRing, _⟩ | ⟨.refillFillRing, _⟩
  | ⟨.reclaimCompletionRing, _⟩ | ⟨.kernel, _⟩ => .isTrue trivial

/-- The frames in each place: the allocator's free list, the fill ring, the kernel, the RX
ring, the user, the TX ring, and the completion ring. -/
def places (d : LinuxAFXDPDevice c) : List (List Nat) :=
  [d.umem.freeList.map c.frame,
    d.fillRing.unconsumed.map c.frame,
    (d.kernelRx ++ d.kernelTx).map c.frame,
    d.rxRing.unconsumed.map fun desc => c.frame desc.addr,
    d.held.map fun p => c.frame (p.addr.setWidth 64),
    d.txRing.unconsumed.map fun desc => c.frame desc.addr,
    d.compRing.unconsumed.map c.frame]

/-- **Every frame is in one place, once.** -/
def Conserved (d : LinuxAFXDPDevice c) : Prop :=
  d.places.flatten.Perm (List.range c.frameCount.toNat)

end LinuxAFXDPDevice
end NeuStack
