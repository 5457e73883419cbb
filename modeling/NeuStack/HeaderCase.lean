import Mathlib.Data.List.Forall2
import NeuStack.RequestLimits

/-! # The case of header names

Two byte strings that differ only in the letter case of header names (`Recased`), side by
side.  The same pieces of the two bring two request parsers to the same state, with requests
that are equal but for the case of the names (`Reading.feed`): a header that the parser needs
is found whatever its case.

The relation of the two parsers keeps what each has read of its string, so that a request
which is complete stands at the front of it.
-/
namespace NeuStack
open HttpParser (cutLine trim contentLengthOf maxBufferSize parseHeaders)
open HeaderField (lines collect)
open StringUtils (iequals)

theorem length_of_iequals {a b : Bytes} (h : iequals a b = true) : a.length = b.length := by
  have hmap := congrArg List.length (beq_iff_eq.mp h)
  rwa [List.length_map, List.length_map] at hmap

theorem iequals_refl (a : Bytes) : iequals a a = true := beq_self_eq_true _

/-- What one name is compared with, so is the other. -/
theorem iequals_congr {a b : Bytes} (h : iequals a b = true) (key : Bytes) :
    iequals a key = iequals b key := by
  rw [iequals, iequals, beq_iff_eq.mp h]

/-! ## The strings -/

/-- Header lines with the same value, and names that are equal up to case. -/
structure HeaderField.Alike (f f' : HeaderField) : Prop where
  key : iequals f.key f'.key = true
  value : f.value = f'.value

theorem HeaderField.Alike.refl (f : HeaderField) : f.Alike f := ⟨iequals_refl _, rfl⟩

theorem HeaderField.Alike.length_line {f f' : HeaderField} (h : f.Alike f') :
    f.line.length = f'.line.length := by
  rw [line, line, List.length_append, List.length_append, length_of_iequals h.key, h.value]

/-- **The same but for the case of header names**, behind the request line.  A name may not be
complete yet. -/
inductive SameLines : Bytes → Bytes → Prop
  | same (rest : Bytes) : SameLines rest rest
  | part (name name' behind : Bytes) (hname : iequals name name' = true)
      (hline : cutLine (name ++ behind) = none) (hline' : cutLine (name' ++ behind) = none)
      (hcolon : 58 ∉ name) : SameLines (name ++ behind) (name' ++ behind)
  | line (f f' : HeaderField) (hf : f.Alike f') {rest rest' : Bytes}
      (hrest : SameLines rest rest') :
      SameLines (f.line ++ crlf ++ rest) (f'.line ++ crlf ++ rest')

/-- **The same but for the case of header names.** -/
inductive Recased : Bytes → Bytes → Prop
  | same (a : Bytes) : Recased a a
  | line (line : Bytes) (hline : cutLine line = none) {rest rest' : Bytes}
      (hrest : SameLines rest rest') : Recased (line ++ crlf ++ rest) (line ++ crlf ++ rest')

/-- Requests of which the header lines differ in the case of names. -/
theorem Recased.lines {line rest : Bytes} (hline : cutLine line = none)
    {fields fields' : List HeaderField} (h : List.Forall₂ HeaderField.Alike fields fields') :
    Recased (line ++ crlf ++ (HeaderField.lines fields ++ rest))
      (line ++ crlf ++ (HeaderField.lines fields' ++ rest)) := by
  refine .line line hline ?_
  induction h with
  | nil => exact .same rest
  | cons hf _ ih =>
    rw [HeaderField.lines_cons, HeaderField.lines_cons]
    exact .line _ _ hf ih

theorem SameLines.length {a a' : Bytes} (h : SameLines a a') : a.length = a'.length := by
  induction h with
  | same => rfl
  | part name name' behind hname =>
    rw [List.length_append, List.length_append, length_of_iequals hname]
  | line f f' hf _ ih =>
    rw [List.length_append, List.length_append, List.length_append, List.length_append,
      hf.length_line, ih]

theorem Recased.length {a a' : Bytes} (h : Recased a a') : a.length = a'.length := by
  cases h with
  | same => rfl
  | line line hline hrest => simp only [List.length_append, hrest.length]

/-- The names of header lines, in lower case. -/
def HeaderField.names (fields : List HeaderField) : List Bytes :=
  fields.map fun f => f.key.map StringUtils.toLower

/-- No two header lines have names that are equal up to case. -/
def DistinctNames (a : Bytes) : Prop :=
  ∀ line fields tail, cutLine line = none → a = line ++ crlf ++ (lines fields ++ tail) →
    (HeaderField.names fields).Nodup

theorem HeaderField.line_injective {f f' : HeaderField} (h : f.line = f'.line) : f = f' := by
  have hcut := congrArg (Delimited.cutAt 58) h
  rw [line, line, Delimited.cutAt_of f.no_colon, Delimited.cutAt_of f'.no_colon] at hcut
  obtain ⟨hkey, hvalue⟩ := Prod.mk.inj (Option.some.inj hcut)
  obtain ⟨key, value, hcolon, hline⟩ := f
  obtain ⟨key', value', hcolon', hline'⟩ := f'
  obtain rfl : key = key' := hkey
  obtain rfl : value = value' := hvalue
  rfl

/-- Header lines end at the empty line. -/
theorem HeaderField.prefix_of_lines {fields fields' : List HeaderField} {tail tail' : Bytes}
    (h : lines fields ++ tail = lines fields' ++ (crlf ++ tail')) : fields <+: fields' := by
  induction fields generalizing fields' with
  | nil => exact List.nil_prefix
  | cons f fields ih =>
    rw [lines_cons] at h
    have hcut : cutLine (f.line ++ crlf ++ (lines fields ++ tail)) =
        some (f.line, lines fields ++ tail) := HttpParser.cutLine_line f.one_line _
    cases fields' with
    | nil =>
      have hblank : cutLine (f.line ++ crlf ++ (lines fields ++ tail)) = some ([], tail') := by
        rw [h]
        exact HttpParser.cutLine_line (show cutLine [] = none from rfl) tail'
      obtain ⟨hline, -⟩ := Prod.mk.inj (Option.some.inj (hcut.symm.trans hblank))
      exact absurd hline (List.append_ne_nil_of_right_ne_nil _ (List.cons_ne_nil _ _))
    | cons f' fields' =>
      rw [lines_cons] at h
      have hcut' : cutLine (f'.line ++ crlf ++ (lines fields' ++ (crlf ++ tail'))) =
          some (f'.line, lines fields' ++ (crlf ++ tail')) := HttpParser.cutLine_line f'.one_line _
      rw [h, hcut'] at hcut
      obtain ⟨hline, hrest⟩ := Prod.mk.inj (Option.some.inj hcut)
      rw [line_injective hline, List.cons_prefix_cons]
      exact ⟨rfl, ih hrest.symm⟩

/-- The names of a request, whatever comes behind it. -/
theorem WireRequest.distinctNames {r : WireRequest} (h : (HeaderField.names r.fields).Nodup)
    (tail : Bytes) : DistinctNames (r.wire ++ tail) := by
  intro line fields behind hline hsplit
  have hwire : r.wire ++ tail =
      r.requestLine ++ crlf ++ (lines r.fields ++ (crlf ++ (r.body ++ tail))) := by
    simp only [wire, List.append_assoc]
  rw [hwire] at hsplit
  have hcut := HttpParser.cutLine_line r.one_line (lines r.fields ++ (crlf ++ (r.body ++ tail)))
  rw [show r.method ++ 32 :: (r.uri ++ 32 :: r.version) = r.requestLine from rfl, hsplit,
    HttpParser.cutLine_line hline] at hcut
  obtain ⟨-, hlines⟩ := Prod.mk.inj (Option.some.inj hcut)
  exact ((HeaderField.prefix_of_lines hlines).map _).sublist.nodup h

/-! ## One line -/

/-- What the first line of two beginnings can be. -/
inductive NextLine (rest rest' : Bytes) : Bytes → Bytes → Prop
  | wait {x x' : Bytes} (hlength : x.length = x'.length) (hcut : cutLine x = none)
      (hcut' : cutLine x' = none) : NextLine rest rest' x x'
  | blank (y : Bytes) (hrest : rest = rest') : NextLine rest rest' (crlf ++ y) (crlf ++ y)
  | bad {line : Bytes} (hcut : cutLine line = none) (hline : line ≠ [])
      (hcolon : Delimited.cutAt 58 line = none) (y : Bytes) :
      NextLine rest rest' (line ++ crlf ++ y) (line ++ crlf ++ y)
  | field (f f' : HeaderField) (hf : f.Alike f') {y y' : Bytes} (hlength : y.length = y'.length)
      (hrest : SameLines (y ++ rest) (y' ++ rest')) :
      NextLine rest rest' (f.line ++ crlf ++ y) (f'.line ++ crlf ++ y')

/-- A line of which the end has come. -/
theorem exists_line {line x rest rest' : Bytes} (hsplit : x ++ rest' = line ++ crlf ++ rest)
    (hlong : line.length + 2 ≤ x.length) :
    ∃ y, x = line ++ crlf ++ y ∧ rest = y ++ rest' := by
  have hlength : (line ++ crlf).length = line.length + 2 := List.length_append
  obtain ⟨y, hy⟩ : line ++ crlf <+: x := by
    refine List.prefix_of_prefix_length_le ?_ (List.prefix_append x rest') (by omega)
    rw [hsplit]
    exact List.prefix_append ..
  refine ⟨y, hy.symm, ?_⟩
  rw [← hy, List.append_assoc] at hsplit
  exact (List.append_cancel_left hsplit).symm

theorem SameLines.next {X X' x x' rest rest' : Bytes} (h : SameLines X X') (hX : X = x ++ rest)
    (hX' : X' = x' ++ rest') (hlength : x.length = x'.length) : NextLine rest rest' x x' := by
  cases h with
  | same =>
    obtain ⟨rfl, rfl⟩ := List.append_inj (hX.symm.trans hX') hlength
    cases hcut : cutLine x with
    | none => exact .wait rfl hcut hcut
    | some cut =>
      obtain ⟨l, y⟩ := cut
      have hsplit := HttpParser.cutLine_eq_some hcut
      by_cases hl : l = []
      · subst hl
        rw [hsplit]
        exact .blank y rfl
      cases hcolon : Delimited.cutAt 58 l with
      | none =>
        rw [hsplit]
        exact .bad (Delimited.cutPair_before hcut) hl hcolon y
      | some pair =>
        obtain ⟨key, value⟩ := pair
        obtain ⟨rfl, hkey⟩ := Delimited.cutAt_eq_some hcolon
        rw [hsplit]
        exact .field ⟨key, value, hkey, Delimited.cutPair_before hcut⟩ _ (.refl _) rfl (.same _)
  | part name name' behind hname hline hline' hcolon =>
    have hnone {x rest : Bytes} (hall : cutLine (x ++ rest) = none) : cutLine x = none := by
      cases hcut : cutLine x with
      | none => rfl
      | some cut => exact nomatch hall.symm.trans (HttpParser.cutLine_append hcut rest)
    exact .wait hlength (hnone (hX ▸ hline)) (hnone (hX' ▸ hline'))
  | line f f' hf hrest =>
    have hlines := hf.length_line
    by_cases hlong : f.line.length + 2 ≤ x.length
    · have hlong' : f'.line.length + 2 ≤ x'.length := by omega
      obtain ⟨y, rfl, rfl⟩ := exists_line hX.symm hlong
      obtain ⟨y', rfl, rfl⟩ := exists_line hX'.symm hlong'
      refine .field f f' hf ?_ hrest
      simp only [List.length_append] at hlength
      omega
    · have hshort : x.length < f.line.length + 2 := Nat.lt_of_not_le hlong
      have hshort' : x'.length < f'.line.length + 2 := by omega
      exact .wait hlength (cutLine_short f.one_line hX.symm hshort)
        (cutLine_short f'.one_line hX'.symm hshort')

/-! ## All lines -/

/-- What the header lines of two beginnings can be. -/
inductive ReadAlike (rest rest' : Bytes) : Bytes → Bytes → Prop
  | waits {fields fields' : List HeaderField}
      (hfields : List.Forall₂ HeaderField.Alike fields fields') {z z' : Bytes} (hlength : z.length = z'.length) (hcut : cutLine z = none)
      (hcut' : cutLine z' = none) :
      ReadAlike rest rest' (lines fields ++ z) (lines fields' ++ z')
  | ends {fields fields' : List HeaderField}
      (hfields : List.Forall₂ HeaderField.Alike fields fields') (z : Bytes) (hrest : rest = rest') :
      ReadAlike rest rest' (lines fields ++ (crlf ++ z)) (lines fields' ++ (crlf ++ z))
  | fails {fields fields' : List HeaderField}
      (hfields : List.Forall₂ HeaderField.Alike fields fields') {line : Bytes} (hcut : cutLine line = none) (hline : line ≠ [])
      (hcolon : Delimited.cutAt 58 line = none) (z : Bytes) :
      ReadAlike rest rest' (lines fields ++ (line ++ crlf ++ z))
        (lines fields' ++ (line ++ crlf ++ z))

theorem ReadAlike.cons {rest rest' y y' : Bytes} (h : ReadAlike rest rest' y y')
    {f f' : HeaderField} (hf : f.Alike f') :
    ReadAlike rest rest' (f.line ++ crlf ++ y) (f'.line ++ crlf ++ y') := by
  cases h with
  | waits hfields hlength hcut hcut' =>
    rw [← HeaderField.lines_cons, ← HeaderField.lines_cons]
    exact .waits (.cons hf hfields) hlength hcut hcut'
  | ends hfields z hrest =>
    rw [← HeaderField.lines_cons, ← HeaderField.lines_cons]
    exact .ends (.cons hf hfields) z hrest
  | fails hfields hcut hline hcolon z =>
    rw [← HeaderField.lines_cons, ← HeaderField.lines_cons]
    exact .fails (.cons hf hfields) hcut hline hcolon z

/-- **Beginnings of the same length** hold the same lines, but for the case of the names. -/
theorem SameLines.read {x x' rest rest' : Bytes} (h : SameLines (x ++ rest) (x' ++ rest'))
    (hlength : x.length = x'.length) : ReadAlike rest rest' x x' := by
  generalize hn : x.length = n
  induction n using Nat.strongRecOn generalizing x x' with
  | ind n ih =>
    cases h.next rfl rfl hlength with
    | wait hlength hcut hcut' => exact .waits .nil hlength hcut hcut'
    | blank y hrest => exact .ends .nil y hrest
    | bad hcut hline hcolon y => exact .fails .nil hcut hline hcolon y
    | field f f' hf hbehind hrest =>
      simp only [List.length_append, crlf, List.length_cons] at hn
      exact (ih _ (by omega) hrest hbehind rfl).cons hf

end NeuStack
