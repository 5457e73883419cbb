import NeuStack.Decimal
import NeuStack.MetricsRegistry

/-! # The JSON builder

`json_builder.hpp` and `json_builder.cpp`.  The builder appends to `buf` and counts in
`depth` the objects that are open; the caller places the commas.

`Writes f v` says that `f`, at any depth and in either form, appends a text of the value
`v` and leaves the rest of the builder as it was, and `WritesMembers f ms` that it appends
the text of members.  They have one rule for each operation, so that a writer which is put
together from the operations is followed in its own order.
-/
namespace NeuStack

structure JsonBuilder where
  buf : Bytes := []
  pretty : Bool
  depth : Int := 0

/-! ## Texts -/

/-- `%x`, one digit -/
def hexDigit (n : Nat) : UInt8 := UInt8.ofNat (if n < 10 then 48 + n else 87 + n)

/-- `%04x` of a number below `2 ^ 16` -/
def hex4 (n : Nat) : Bytes :=
  [hexDigit (n / 4096 % 16), hexDigit (n / 256 % 16), hexDigit (n / 16 % 16), hexDigit (n % 16)]

/-- One round of `escape_string`. -/
def escapeByte (c : UInt8) : Bytes :=
  if c = 34 then [92, 34]
  else if c = 92 then [92, 92]
  else if c = 10 then [92, 110]
  else if c = 13 then [92, 114]
  else if c = 9 then [92, 116]
  else if c = 8 then [92, 98]
  else if c = 12 then [92, 102]
  else if c < 0x20 then 92 :: 117 :: hex4 c.toNat
  else [c]

def escapeString (s : Bytes) : Bytes := s.flatMap escapeByte

variable {D : Type} (fl : Floating D)

def formatDouble (v : D) : Bytes :=
  if fl.isNan v then ascii "null"
  else if fl.isInf v then if fl.lt (fl.ofNat 0) v then ascii "1e308" else ascii "-1e308"
  else if fl.isWhole v && fl.lt (fl.fabs v) (fl.ofNat (10 ^ 15)) then fl.print0f v
  else fl.print6g v

namespace JsonBuilder

/-! ## Operations -/

/-- `buf.append` -/
def append (t : Bytes) (b : JsonBuilder) : JsonBuilder := { b with buf := b.buf ++ t }

/-- `_indent` -/
def indent (b : JsonBuilder) : JsonBuilder :=
  if b.pretty then b.append (List.replicate b.depth.toNat [32, 32]).flatten else b

/-- `_newline` -/
def newline (b : JsonBuilder) : JsonBuilder := if b.pretty then b.append [10] else b

/-- `_write_quoted` -/
def writeQuoted (s : Bytes) (b : JsonBuilder) : JsonBuilder :=
  ((b.append [34]).append (escapeString s)).append [34]

def beginObject (b : JsonBuilder) : JsonBuilder :=
  let b := (b.append [123]).newline
  { b with depth := b.depth + 1 }

def endObject (b : JsonBuilder) : JsonBuilder :=
  ({ b with depth := b.depth - 1 }.newline.indent).append [125]

def key (k : Bytes) (b : JsonBuilder) : JsonBuilder :=
  let b := (b.indent.writeQuoted k).append [58]
  if b.pretty then b.append [32] else b

def comma (b : JsonBuilder) : JsonBuilder := (b.append [44]).newline

def writeString (s : Bytes) (b : JsonBuilder) : JsonBuilder := b.writeQuoted s

def writeUInt64 (v : UInt64) (b : JsonBuilder) : JsonBuilder := b.append (decimal v.toNat)

def writeDouble (v : D) (b : JsonBuilder) : JsonBuilder := b.append (formatDouble fl v)

end JsonBuilder

/-! ## Strings come back -/

theorem unicode_control :
    ∀ n < 32, Json.unicode (hexDigit (n / 4096 % 16)) (hexDigit (n / 256 % 16))
      (hexDigit (n / 16 % 16)) (hexDigit (n % 16)) = some [UInt8.ofNat n] := by decide

theorem parseString_escapeByte (c : UInt8) (s : Bytes) :
    Json.parseString (escapeByte c ++ s) =
      (Json.parseString s).map fun (body, rest) => (c :: body, rest) := by
  rw [escapeByte]
  split
  · subst c; exact Json.parseString_simple (by decide) s
  rename_i hquote
  split
  · subst c; exact Json.parseString_simple (by decide) s
  rename_i hbackslash
  split
  · subst c; exact Json.parseString_simple (by decide) s
  split
  · subst c; exact Json.parseString_simple (by decide) s
  split
  · subst c; exact Json.parseString_simple (by decide) s
  split
  · subst c; exact Json.parseString_simple (by decide) s
  split
  · subst c; exact Json.parseString_simple (by decide) s
  split
  · rename_i hcontrol
    have hcode := unicode_control c.toNat hcontrol
    rw [UInt8.ofNat_toNat] at hcode
    exact Json.parseString_unicode hcode s
  · rename_i hplain
    exact Json.parseString_char hquote hbackslash hplain s

/-- **What is written of a string is read back.** -/
theorem quotes_escapeString (s : Bytes) : Json.Quotes (escapeString s) s := by
  intro rest
  induction s with
  | nil => exact Json.parseString_quote rest
  | cons c s ih =>
    rw [escapeString, List.flatMap_cons, List.append_assoc, parseString_escapeByte]
    rw [escapeString] at ih
    rw [ih]
    rfl

example : escapeString [0x22, 0x01, 0xC3] = ascii "\\\"\\u0001" ++ [0xC3] := by decide

/-! ## Numbers -/

/-- The laws of the formats can be met: whole numbers in place of doubles. -/
example : Nonempty (Floating Nat) :=
  ⟨{ ofNat := id
     ofScientific := fun m k => m / 10 ^ k
     add := (· + ·)
     sub := (· - ·)
     mul := (· * ·)
     div := (· / ·)
     lt := fun a b => a < b
     le := fun a b => a ≤ b
     isNan := fun _ => false
     isInf := fun _ => false
     isWhole := fun _ => true
     fabs := id
     print0f := decimal
     print6g := decimal
     print0f_number := fun v _ _ => isNumber_decimal v
     print6g_number := fun v _ _ => isNumber_decimal v }⟩

/-! ## Writers -/

/-- **`f` writes `v`**: it appends a text of it. -/
def Writes (f : JsonBuilder → JsonBuilder) (v : Json) : Prop :=
  ∀ b, ∃ t, f b = b.append t ∧ v.Parses t

/-- **`f` writes members** of an object that is open. -/
def WritesMembers (f : JsonBuilder → JsonBuilder) (members : List (Bytes × Json)) : Prop :=
  ∀ b, ∃ t, f b = b.append t ∧ Json.MembersText members t

namespace JsonBuilder

theorem append_append (b : JsonBuilder) (t u : Bytes) :
    (b.append t).append u = b.append (t ++ u) := by
  rw [append, append, append, List.append_assoc]

theorem append_nil (b : JsonBuilder) : b.append [] = b := by
  rw [append, List.append_nil]

/-- What stands before a key, or before a closing brace. -/
theorem indent_eq (b : JsonBuilder) : ∃ w, b.indent = b.append w ∧ Json.Blank w := by
  rw [indent]
  split
  · refine ⟨_, rfl, fun c hc => ?_⟩
    obtain ⟨l, hl, hc⟩ := List.mem_flatten.mp hc
    rw [List.eq_of_mem_replicate hl] at hc
    exact (show Json.Blank [32, 32] by decide) c hc
  · exact ⟨[], b.append_nil.symm, Json.Blank.nil⟩

theorem newline_eq (b : JsonBuilder) : ∃ w, b.newline = b.append w ∧ Json.Blank w := by
  rw [newline]
  split
  · exact ⟨[10], rfl, by decide⟩
  · exact ⟨[], b.append_nil.symm, Json.Blank.nil⟩

theorem writeQuoted_eq (s : Bytes) (b : JsonBuilder) :
    b.writeQuoted s = b.append (34 :: (escapeString s ++ [34])) := by
  rw [writeQuoted, append_append, append_append]
  rfl

theorem comma_eq (b : JsonBuilder) : ∃ w, b.comma = b.append (44 :: w) ∧ Json.Blank w := by
  obtain ⟨w, hw, hblank⟩ := newline_eq (b.append [44])
  exact ⟨w, by rw [comma, hw, append_append]; rfl, hblank⟩

theorem key_eq (k : Bytes) (b : JsonBuilder) : ∃ w w',
    b.key k = b.append (w ++ 34 :: (escapeString k ++ 34 :: 58 :: w')) ∧
      Json.Blank w ∧ Json.Blank w' := by
  obtain ⟨w, hw, hblank⟩ := b.indent_eq
  have hkey : (b.indent.writeQuoted k).append [58] =
      b.append (w ++ 34 :: (escapeString k ++ 34 :: [58])) := by
    rw [hw, writeQuoted_eq, append_append, append_append]
    simp only [List.cons_append, List.append_assoc, List.nil_append]
  rw [key, hkey]
  split
  · refine ⟨w, [32], ?_, hblank, by decide⟩
    rw [append_append]
    simp only [List.cons_append, List.append_assoc, List.nil_append]
  · exact ⟨w, [], rfl, hblank, Json.Blank.nil⟩

theorem beginObject_eq (b : JsonBuilder) : ∃ w,
    b.beginObject = { b.append (123 :: w) with depth := b.depth + 1 } ∧ Json.Blank w := by
  obtain ⟨w, hw, hblank⟩ := newline_eq (b.append [123])
  refine ⟨w, ?_, hblank⟩
  rw [beginObject, hw, append_append]
  rfl

theorem endObject_eq (b : JsonBuilder) : ∃ w,
    b.endObject = { b.append (w ++ [125]) with depth := b.depth - 1 } ∧ Json.Blank w := by
  obtain ⟨w, hw, hblank⟩ := newline_eq { b with depth := b.depth - 1 }
  obtain ⟨w', hw', hblank'⟩ := indent_eq ({ b with depth := b.depth - 1 }.append w)
  refine ⟨w ++ w', ?_, hblank.append hblank'⟩
  rw [endObject, hw, hw', append_append, append_append, List.append_assoc]
  rfl

end JsonBuilder

variable {f g : JsonBuilder → JsonBuilder} {v : Json} {members members' : List (Bytes × Json)}

/-! ### Values -/

theorem Writes.string (s : Bytes) : Writes (JsonBuilder.writeString s) (.str s) :=
  fun b => ⟨_, b.writeQuoted_eq s, .string (quotes_escapeString s)⟩

theorem Writes.uint64 (n : UInt64) : Writes (JsonBuilder.writeUInt64 n) (.num (decimal n.toNat)) :=
  fun _ => ⟨_, rfl, .number (isNumber_decimal _)⟩

variable {fl}

/-- What a number is written as; not a number is `null`. -/
def doubleJson (fl : Floating D) (v : D) : Json :=
  if fl.isNan v then .null else .num (formatDouble fl v)

theorem Writes.double (v : D) : Writes (JsonBuilder.writeDouble fl v) (doubleJson fl v) := by
  refine fun b => ⟨_, rfl, ?_⟩
  rw [doubleJson, formatDouble]
  split
  · exact Json.parses_null
  · rename_i hnan
    rw [Bool.not_eq_true] at hnan
    refine .number ?_
    split
    · split <;> decide
    · rename_i hinf
      rw [Bool.not_eq_true] at hinf
      split
      · exact fl.print0f_number v hnan hinf
      · exact fl.print6g_number v hnan hinf

/-! ### Objects -/

theorem Writes.member (h : Writes f v) (k : Bytes) :
    WritesMembers (fun b => f (b.key k)) [(k, v)] := by
  intro b
  obtain ⟨w, w', hkey, hw, hw'⟩ := b.key_eq k
  obtain ⟨t, ht, hparses⟩ := h (b.key k)
  refine ⟨_, ?_, .one hw (quotes_escapeString k) hw' hparses⟩
  dsimp only
  rw [ht, hkey, JsonBuilder.append_append]
  simp only [List.cons_append, List.append_assoc]

theorem WritesMembers.comma (h : WritesMembers f members) (h' : WritesMembers g members') :
    WritesMembers (fun b => g (f b).comma) (members ++ members') := by
  intro b
  obtain ⟨t, ht, htext⟩ := h b
  obtain ⟨w, hcomma, hw⟩ := (f b).comma_eq
  obtain ⟨t', ht', htext'⟩ := h' (f b).comma
  refine ⟨_, ?_, htext.append (htext'.blank hw)⟩
  dsimp only
  rw [ht', hcomma, ht, JsonBuilder.append_append, JsonBuilder.append_append]
  simp only [List.cons_append]

/-- A loop over members, with a comma before each. -/
theorem WritesMembers.foldl {α : Type} {write : α → JsonBuilder → JsonBuilder}
    {member : α → Bytes × Json} (l : List α) (h : WritesMembers f members)
    (hwrite : ∀ a ∈ l, WritesMembers (write a) [member a]) :
    WritesMembers (fun b => l.foldl (fun b a => write a b.comma) (f b))
      (members ++ l.map member) := by
  induction l generalizing f members with
  | nil => rwa [List.map_nil, List.append_nil]
  | cons a l ih =>
    have hnext := h.comma (hwrite a (List.mem_cons_self ..))
    have hrest := ih hnext fun a' ha' => hwrite a' (List.mem_cons_of_mem _ ha')
    rwa [List.append_assoc, List.singleton_append] at hrest

/-- What stands between `begin_object` and `end_object`: members, or nothing at all. -/
theorem Writes.object
    (h : ∀ b, ∃ t, f b = b.append t ∧ (Json.MembersText members t ∨ t = [] ∧ members = [])) :
    Writes (fun b => (f b.beginObject).endObject) (.obj members) := by
  intro b
  obtain ⟨w, hbegin, hw⟩ := b.beginObject_eq
  obtain ⟨t, ht, htext⟩ := h b.beginObject
  obtain ⟨w', hend, hw'⟩ := (f b.beginObject).endObject_eq
  refine ⟨123 :: (w ++ (t ++ (w' ++ [125]))), ?_, ?_⟩
  · dsimp only
    rw [hend, ht, hbegin]
    simp only [JsonBuilder.append, List.cons_append, List.append_assoc, Int.add_sub_cancel]
  · rcases htext with htext | ⟨rfl, rfl⟩
    · exact .object htext hw hw'
    · rw [List.nil_append, ← List.append_assoc]
      exact .noMembers (hw.append hw')

theorem WritesMembers.object (h : WritesMembers f members) :
    Writes (fun b => (f b.beginObject).endObject) (.obj members) := by
  refine Writes.object fun b => ?_
  obtain ⟨t, ht, htext⟩ := h b
  exact ⟨t, ht, Or.inl htext⟩

end NeuStack
