import NeuStack.Scan

/-! # Byte order

How numbers lie in memory.  The host is little-endian, so a number in network
order is its bytes swapped, which is what `ntohs` and its like do.  A header is
read by loading a field as the host does and swapping it; it is written the other
way round (`net16_store`, `net32_store`).
-/

namespace NetworkOrder

/-- The bytes of a 16-bit number as the host stores it. -/
def store16 (x : UInt16) : List UInt8 := [UInt8.ofNat x.toNat, UInt8.ofNat (x.toNat / 256)]

/-- The 16-bit number the host loads from two bytes. -/
def load16 (a b : UInt8) : UInt16 := UInt16.ofNat (a.toNat + 256 * b.toNat)

def store32 (x : UInt32) : List UInt8 :=
  [UInt8.ofNat x.toNat, UInt8.ofNat (x.toNat / 256), UInt8.ofNat (x.toNat / 65536),
    UInt8.ofNat (x.toNat / 16777216)]

def load32 (a b c d : UInt8) : UInt32 :=
  UInt32.ofNat (a.toNat + 256 * b.toNat + 65536 * c.toNat + 16777216 * d.toNat)

/-- `ntohs`: swap the two bytes. -/
def ntohs (x : UInt16) : UInt16 := UInt16.ofNat (256 * (x.toNat % 256) + x.toNat / 256)

/-- `htons` -/
def htons (x : UInt16) : UInt16 := ntohs x

/-- `ntohl`: reverse the four bytes. -/
def ntohl (x : UInt32) : UInt32 :=
  UInt32.ofNat (16777216 * (x.toNat % 256) + 65536 * (x.toNat / 256 % 256) +
    256 * (x.toNat / 65536 % 256) + x.toNat / 16777216)

/-- `htonl` -/
def htonl (x : UInt32) : UInt32 := ntohl x

/-! ## Values -/

theorem toNat_load16 (a b : UInt8) : (load16 a b).toNat = a.toNat + 256 * b.toNat := by
  have ha := a.toNat_lt
  have hb := b.toNat_lt
  rw [load16, UInt16.toNat_ofNat', Nat.mod_eq_of_lt (by omega)]

theorem toNat_load32 (a b c d : UInt8) : (load32 a b c d).toNat =
    a.toNat + 256 * b.toNat + 65536 * c.toNat + 16777216 * d.toNat := by
  have ha := a.toNat_lt
  have hb := b.toNat_lt
  have hc := c.toNat_lt
  have hd := d.toNat_lt
  rw [load32, UInt32.toNat_ofNat', Nat.mod_eq_of_lt (by omega)]

theorem toNat_ntohs (x : UInt16) : (ntohs x).toNat = 256 * (x.toNat % 256) + x.toNat / 256 := by
  have hx := x.toNat_lt
  rw [ntohs, UInt16.toNat_ofNat', Nat.mod_eq_of_lt (by omega)]

theorem toNat_ntohl (x : UInt32) : (ntohl x).toNat =
    16777216 * (x.toNat % 256) + 65536 * (x.toNat / 256 % 256) +
      256 * (x.toNat / 65536 % 256) + x.toNat / 16777216 := by
  have hx := x.toNat_lt
  rw [ntohl, UInt32.toNat_ofNat', Nat.mod_eq_of_lt (by omega)]

/-- The number two bytes spell in network order. -/
theorem toNat_ntohs_load16 (a b : UInt8) :
    (ntohs (load16 a b)).toNat = 256 * a.toNat + b.toNat := by
  have ha := a.toNat_lt
  have hb := b.toNat_lt
  rw [toNat_ntohs, toNat_load16]
  omega

/-! ## Round trips -/

theorem ntohs_htons (x : UInt16) : ntohs (htons x) = x := by
  have hx := x.toNat_lt
  rw [← UInt16.toNat_inj, toNat_ntohs, htons, toNat_ntohs]
  omega

theorem htons_ntohs (x : UInt16) : htons (ntohs x) = x := ntohs_htons x

theorem load16_store16 (x : UInt16) :
    load16 (UInt8.ofNat x.toNat) (UInt8.ofNat (x.toNat / 256)) = x := by
  have hx := x.toNat_lt
  rw [← UInt16.toNat_inj, toNat_load16, UInt8.toNat_ofNat', UInt8.toNat_ofNat']
  omega

theorem load32_store32 (x : UInt32) :
    load32 (UInt8.ofNat x.toNat) (UInt8.ofNat (x.toNat / 256)) (UInt8.ofNat (x.toNat / 65536))
      (UInt8.ofNat (x.toNat / 16777216)) = x := by
  have hx := x.toNat_lt
  rw [← UInt32.toNat_inj, toNat_load32, UInt8.toNat_ofNat', UInt8.toNat_ofNat', UInt8.toNat_ofNat',
    UInt8.toNat_ofNat']
  omega

/-- Swapping reverses the bytes. -/
theorem ntohl_load32 (a b c d : UInt8) : ntohl (load32 a b c d) = load32 d c b a := by
  have ha := a.toNat_lt
  have hb := b.toNat_lt
  have hc := c.toNat_lt
  have hd := d.toNat_lt
  rw [← UInt32.toNat_inj, toNat_ntohl, toNat_load32, toNat_load32]
  omega

theorem ntohl_htonl (x : UInt32) : ntohl (htonl x) = x := by
  rw [← load32_store32 x, htonl, ntohl_load32, ntohl_load32]

theorem htonl_ntohl (x : UInt32) : htonl (ntohl x) = x := ntohl_htonl x

@[simp] theorem length_store16 (x : UInt16) : (store16 x).length = 2 := rfl
@[simp] theorem length_store32 (x : UInt32) : (store32 x).length = 4 := rfl

/-! ## Fields of a header -/

/-- Load the 16-bit field at `i` as it lies there. -/
def raw16 (mem : Memory) (i : Nat) : Scan UInt16 := do
  let a ← Scan.read mem i
  let b ← Scan.read mem (i + 1)
  pure (load16 a b)

def raw32 (mem : Memory) (i : Nat) : Scan UInt32 := do
  let a ← Scan.read mem i
  let b ← Scan.read mem (i + 1)
  let c ← Scan.read mem (i + 2)
  let d ← Scan.read mem (i + 3)
  pure (load32 a b c d)

/-- The number in the 16-bit field at `i`. -/
def net16 (mem : Memory) (i : Nat) : Scan UInt16 := ntohs <$> raw16 mem i

def net32 (mem : Memory) (i : Nat) : Scan UInt32 := ntohl <$> raw32 mem i

section Fields
variable {mem : Memory} {n i : Nat}

theorem within_raw16 : (raw16 mem i).Within n ↔ i + 1 < n := by
  simp only [raw16, Scan.within_bind, Scan.within_read, Scan.within_pure, and_true]
  omega

theorem within_raw32 : (raw32 mem i).Within n ↔ i + 3 < n := by
  simp only [raw32, Scan.within_bind, Scan.within_read, Scan.within_pure, and_true]
  omega

@[simp] theorem within_net16 : (net16 mem i).Within n ↔ i + 1 < n := by
  rw [net16, Scan.within_map, within_raw16]

@[simp] theorem within_net32 : (net32 mem i).Within n ↔ i + 3 < n := by
  rw [net32, Scan.within_map, within_raw32]

theorem toNat_net16 (mem : Memory) (i : Nat) :
    (net16 mem i).value.toNat = 256 * (mem i).toNat + (mem (i + 1)).toNat :=
  toNat_ntohs_load16 _ _

/-- What was stored in network order is the number read. -/
theorem net16_store {x : UInt16} (h : mem.Holds i (store16 (htons x))) :
    (net16 mem i).value = x := by
  have h0 := congrArg (·[0]?) h
  have h1 := congrArg (·[1]?) h
  simp only [Memory.getElem?_slice, store16, List.length_cons, List.length_nil] at h0 h1
  have h0 : mem i = UInt8.ofNat (htons x).toNat := Option.some.inj h0
  have h1 : mem (i + 1) = UInt8.ofNat ((htons x).toNat / 256) := Option.some.inj h1
  show ntohs (load16 (mem i) (mem (i + 1))) = x
  rw [h0, h1, load16_store16, ntohs_htons]

/-- A field stored as it is. -/
theorem net16_stored {x : UInt16} (h : mem.Holds i (store16 x)) : (net16 mem i).value = ntohs x := by
  rw [← htons_ntohs x] at h
  exact net16_store h

theorem net32_store {x : UInt32} (h : mem.Holds i (store32 (htonl x))) :
    (net32 mem i).value = x := by
  have h0 := congrArg (·[0]?) h
  have h1 := congrArg (·[1]?) h
  have h2 := congrArg (·[2]?) h
  have h3 := congrArg (·[3]?) h
  simp only [Memory.getElem?_slice, store32, List.length_cons, List.length_nil] at h0 h1 h2 h3
  have h0 : mem i = UInt8.ofNat (htonl x).toNat := Option.some.inj h0
  have h1 : mem (i + 1) = UInt8.ofNat ((htonl x).toNat / 256) := Option.some.inj h1
  have h2 : mem (i + 2) = UInt8.ofNat ((htonl x).toNat / 65536) := Option.some.inj h2
  have h3 : mem (i + 3) = UInt8.ofNat ((htonl x).toNat / 16777216) := Option.some.inj h3
  show ntohl (load32 (mem i) (mem (i + 1)) (mem (i + 2)) (mem (i + 3))) = x
  rw [h0, h1, h2, h3, load32_store32, ntohl_htonl]

end Fields

end NetworkOrder
