import NeuStack.NetworkOrder

/-! # DNS messages

`build_query` and `parse_response` of `dns_client.cpp`, with the names they encode and
decode.  A name in a message is a sequence of labels, which a pointer may continue
elsewhere in the message; after ten pointers the decoder gives up.
-/
namespace NeuStack
open NetworkOrder

namespace DNSType

def a : UInt16 := 1
def ns : UInt16 := 2
def cname : UInt16 := 5

end DNSType

/-- `DNSRecord::data` -/
inductive DNSData where
  | ipv4 (ip : UInt32)
  | name (name : List UInt8)
  | raw (bytes : List UInt8)
  deriving DecidableEq, Repr

structure DNSRecord where
  name : List UInt8
  type : UInt16
  cls : UInt16
  ttl : UInt32
  data : DNSData
  deriving DecidableEq, Repr

/-- `DNSResponse`, without the two sections that are never parsed. -/
structure DNSResponse where
  id : UInt16
  rcode : UInt8
  answers : List DNSRecord
  deriving DecidableEq, Repr

namespace DNSMessages

/-- `sizeof(DNSHeader)` -/
def headerSize : Nat := 12

/-- The dot between labels. -/
def dot : UInt8 := 46

/-! ## Names -/

/-- The labels of `encode_name`, from what is left of the name.  A label's length is
written as at most 63, and the label in full. -/
def encodeLabels : Nat → List UInt8 → List UInt8
  | 0, _ => []
  | fuel + 1, rest =>
    if rest = [] then []
    else
      let label := rest.takeWhile (· ≠ dot)
      let len := min label.length 63
      UInt8.ofNat len :: label ++ encodeLabels fuel (rest.drop (label.length + 1))

/-- `encode_name` -/
def encodeName (name : List UInt8) : List UInt8 := encodeLabels name.length name ++ [0]

/-- Where `decode_name` is: its `offset`, the number of pointers it has followed, the
offset behind the first of them, and the name so far. -/
structure NameCursor where
  offset : Nat
  jumps : Nat := 0
  resume : Option Nat := none
  first : Bool := true
  result : List UInt8 := []

/-- The loop of `decode_name`. -/
def decodeLoop (mem : Memory) (len : Nat) : Nat → NameCursor → Scan NameCursor
  | 0, c => pure c
  | fuel + 1, c =>
    if len ≤ c.offset then pure c else do
    let labelLen ← Scan.read mem c.offset
    if labelLen &&& 0xC0 = 0xC0 then
      if len ≤ c.offset + 1 then pure c else do
      let low ← Scan.read mem (c.offset + 1)
      let ptr := (labelLen &&& 0x3F).toNat * 256 + low.toNat
      let c := { c with
        offset := ptr, jumps := c.jumps + 1, resume := c.resume.getD (c.offset + 2) }
      if 10 < c.jumps then pure c else decodeLoop mem len fuel c
    else if labelLen = 0 then pure { c with offset := c.offset + 1 }
    else
      let c := { c with offset := c.offset + 1 }
      if len < c.offset + labelLen.toNat then pure c else do
      let label ← Scan.readRange mem c.offset labelLen.toNat
      decodeLoop mem len fuel { c with
        offset := c.offset + labelLen.toNat
        first := false
        result := c.result ++ (if c.first then [] else [dot]) ++ label }

/-- `decode_name`: the name, and the offset behind it.  Between two pointers the offset
only grows, so that `11 * (len + 1)` rounds are enough. -/
def decodeName (mem : Memory) (len offset : Nat) : Scan (List UInt8 × Nat) := do
  let c ← decodeLoop mem len (11 * (len + 1)) { offset }
  pure (c.result, c.resume.getD c.offset)

/-! ## Queries -/

/-- `build_query` -/
def buildQuery (id : UInt16) (hostname : List UInt8) (type : UInt16) : List UInt8 :=
  store16 (htons id) ++ store16 (htons 0x0100) ++ store16 (htons 1) ++ store16 0 ++ store16 0 ++
    store16 0 ++ encodeName hostname ++ store16 (htons type) ++ store16 (htons 1)

/-! ## Responses -/

/-- Skip the questions. -/
def skipQuestions (mem : Memory) (len : Nat) : Nat → Nat → Scan Nat
  | 0, offset => pure offset
  | n + 1, offset =>
    if len ≤ offset then pure offset else do
    let (_, offset) ← decodeName mem len offset
    skipQuestions mem len n (offset + 4)

/-- The data of a record. -/
def recordData (mem : Memory) (len offset : Nat) (type : UInt16) (rdlength : Nat) :
    Scan DNSData :=
  if type = DNSType.a ∧ rdlength = 4 then DNSData.ipv4 <$> net32 mem offset
  else if type = DNSType.cname ∨ type = DNSType.ns then do
    let (name, _) ← decodeName mem len offset
    pure (.name name)
  else DNSData.raw <$> Scan.readRange mem offset rdlength

/-- The answers; a record that does not fit ends them. -/
def answers (mem : Memory) (len : Nat) : Nat → Nat → Scan (List DNSRecord)
  | 0, _ => pure []
  | n + 1, offset =>
    if len ≤ offset then pure [] else do
    let (name, offset) ← decodeName mem len offset
    if len < offset + 10 then pure [] else do
    let type ← net16 mem offset
    let cls ← net16 mem (offset + 2)
    let ttl ← net32 mem (offset + 4)
    let rdlength ← net16 mem (offset + 8)
    let offset := offset + 10
    if len < offset + rdlength.toNat then pure [] else do
    let data ← recordData mem len offset type rdlength.toNat
    let rest ← answers mem len n (offset + rdlength.toNat)
    pure ({ name, type, cls, ttl, data } :: rest)

/-- `parse_response` -/
def parseResponse (mem : Memory) (len : Nat) : Scan (Option DNSResponse) :=
  if len < headerSize then pure none else do
  let id ← net16 mem 0
  let flags ← net16 mem 2
  if flags &&& 0x8000 = 0 then pure none else do
  let qdcount ← net16 mem 4
  let ancount ← net16 mem 6
  let offset ← skipQuestions mem len qdcount.toNat headerSize
  let records ← answers mem len ancount.toNat offset
  pure (some { id, rcode := UInt8.ofNat (flags &&& 0x0f).toNat, answers := records })

end DNSMessages
end NeuStack
