import NeuStack.ByteStrings
import NeuStack.Json
import NeuStack.SixDigits
import Mathlib.Order.WithBot

/-! # The Prometheus text format

A text is a sequence of lines, each ended by a newline: `HELP` and `TYPE` lines, samples,
and empty lines.  `parse` reads a text, and `Line.render` is a line as it is written;
what is rendered of lines is read back (`parse_render`), whatever bytes a help text has.
-/
namespace Exposition
open NeuStack

inductive Family where
  | counter | gauge | histogram
  deriving DecidableEq, Repr

/-- A line; `le` is the label of a bucket. -/
inductive Line where
  | blank
  | help (name text : Bytes)
  | type (name : Bytes) (family : Family)
  | sample (name : Bytes) (le : Option Bytes) (value : Bytes)
  deriving DecidableEq, Repr

/-! ## Names and values -/

def isNameStart (b : UInt8) : Bool :=
  (65 ≤ b ∧ b ≤ 90) ∨ (97 ≤ b ∧ b ≤ 122) ∨ b = 95 ∨ b = 58

def isNameChar (b : UInt8) : Bool := isNameStart b ∨ Json.isDigit b

/-- `[a-zA-Z_:][a-zA-Z0-9_:]*` -/
def isName : Bytes → Bool
  | [] => false
  | b :: s => isNameStart b && s.all isNameChar

def isValue (s : Bytes) : Bool :=
  s = ascii "NaN" ∨ s = ascii "+Inf" ∨ s = ascii "-Inf" ∨ Json.isNumber s

/-! ## Writing -/

/-- A backslash and a newline are escaped in a help text. -/
def escapeByte (c : UInt8) : Bytes :=
  if c = 92 then [92, 92] else if c = 10 then [92, 110] else [c]

def escape (s : Bytes) : Bytes := s.flatMap escapeByte

def Family.name : Family → Bytes
  | .counter => ascii "counter"
  | .gauge => ascii "gauge"
  | .histogram => ascii "histogram"

/-- A line without its newline. -/
def Line.render : Line → Bytes
  | .blank => []
  | .help name text => ascii "# HELP " ++ (name ++ 32 :: escape text)
  | .type name family => ascii "# TYPE " ++ (name ++ 32 :: family.name)
  | .sample name none value => name ++ 32 :: value
  | .sample name (some le) value =>
    name ++ (ascii "\x7ble=\"" ++ (le ++ (ascii "\"\x7d " ++ value)))

def render (ls : List Line) : Bytes := ls.flatMap fun l => l.render ++ [10]

/-! ## Reading -/

def unescape : Bytes → Option Bytes
  | [] => some []
  | 92 :: 92 :: s => (unescape s).map (92 :: ·)
  | 92 :: 110 :: s => (unescape s).map (10 :: ·)
  | 92 :: _ => none
  | c :: s => (unescape s).map (c :: ·)

def parseFamily (s : Bytes) : Option Family :=
  if s = ascii "counter" then some .counter
  else if s = ascii "gauge" then some .gauge
  else if s = ascii "histogram" then some .histogram
  else none

/-- A name and a space, and what is behind them. -/
def parseName (s : Bytes) : Option (Bytes × Bytes) :=
  let name := s.takeWhile isNameChar
  match s.dropWhile isNameChar with
  | 32 :: rest => if isName name then some (name, rest) else none
  | _ => none

def parseValue (name : Bytes) (le : Option Bytes) (value : Bytes) : Option Line :=
  if isName name && isValue value then some (.sample name le value) else none

/-- A sample; the only label there is, is `le`. -/
def parseSample (s : Bytes) : Option Line :=
  let name := s.takeWhile isNameChar
  match s.dropWhile isNameChar with
  | 32 :: value => parseValue name none value
  | 123 :: 108 :: 101 :: 61 :: 34 :: rest =>
    match rest.dropWhile (· != 34) with
    | 34 :: 125 :: 32 :: value => parseValue name (some (rest.takeWhile (· != 34))) value
    | _ => none
  | _ => none

def parseLine (s : Bytes) : Option Line :=
  if s = [] then some .blank
  else if (ascii "# HELP ").isPrefixOf s then do
    let (name, rest) ← parseName (s.drop 7)
    let text ← unescape rest
    some (.help name text)
  else if (ascii "# TYPE ").isPrefixOf s then do
    let (name, rest) ← parseName (s.drop 7)
    let family ← parseFamily rest
    some (.type name family)
  else parseSample s

/-- The lines of a text, the first of which `acc` starts; the last has to be complete. -/
def splitLines (acc : Bytes) : Bytes → Option (List Bytes)
  | [] => if acc = [] then some [] else none
  | b :: s => if b = 10 then (splitLines [] s).map (acc :: ·) else splitLines (acc ++ [b]) s

/-- **The lines of a text**, if it consists of complete lines. -/
def parse (s : Bytes) : Option (List Line) := (splitLines [] s).bind (·.mapM parseLine)

example : parse (ascii "# HELP a b\\nc\n# TYPE a histogram\na_bucket\x7ble=\"1\"\x7d 2\n\n") = some
    [.help (ascii "a") (ascii "b\nc"), .type (ascii "a") .histogram,
      .sample (ascii "a_bucket") (some (ascii "1")) (ascii "2"), .blank] := by
  decide +kernel

/-! ## What is written is read back -/

/-- A line that can be written. -/
def Line.Valid : Line → Prop
  | .blank => True
  | .help name _ | .type name _ => isName name = true
  | .sample name none value => isName name = true ∧ isValue value = true
  | .sample name (some le) value =>
    isName name = true ∧ isValue value = true ∧ ∀ b ∈ le, b ≠ 34 ∧ b ≠ 10

variable {name rest : Bytes}

theorem takeWhile_until {p : UInt8 → Bool} {b : UInt8} (hs : ∀ c ∈ name, p c = true)
    (hb : p b = false) (rest : Bytes) :
    (name ++ b :: rest).takeWhile p = name ∧ (name ++ b :: rest).dropWhile p = b :: rest := by
  have hb : ¬ p b = true := by
    rw [hb]
    exact Bool.false_ne_true
  rw [List.takeWhile_append_of_pos hs, List.dropWhile_append_of_pos hs,
    List.takeWhile_cons_of_neg hb, List.dropWhile_cons_of_neg hb, List.append_nil]
  exact ⟨rfl, rfl⟩

theorem isNameChar_of_isName (h : isName name = true) : ∀ c ∈ name, isNameChar c = true := by
  cases name with
  | nil => nofun
  | cons b s =>
    rw [isName, Bool.and_eq_true] at h
    intro c hc
    rcases List.mem_cons.mp hc with rfl | hc
    · rw [isNameChar, h.1]
      simp
    · exact List.all_eq_true.mp h.2 c hc

theorem isName_head (h : isName name = true) : ∃ b s, name = b :: s ∧ b ≠ 35 := by
  cases name with
  | nil => cases h
  | cons b s =>
    rw [isName, Bool.and_eq_true] at h
    refine ⟨b, s, rfl, ?_⟩
    rintro rfl
    exact absurd h.1 (by decide)

theorem parseName_append (h : isName name = true) :
    parseName (name ++ 32 :: rest) = some (name, rest) := by
  obtain ⟨htake, hdrop⟩ := takeWhile_until (isNameChar_of_isName h)
    (show isNameChar 32 = false by decide) rest
  rw [parseName, htake, hdrop]
  exact if_pos h

theorem unescape_escape (s : Bytes) : unescape (escape s) = some s := by
  induction s with
  | nil => rfl
  | cons c s ih =>
    rw [escape, List.flatMap_cons, escapeByte]
    rw [escape] at ih
    split
    · subst c
      show (unescape (s.flatMap escapeByte)).map _ = _
      rw [ih]
      rfl
    · split
      · subst c
        show (unescape (s.flatMap escapeByte)).map _ = _
        rw [ih]
        rfl
      · rename_i hbackslash _
        rw [List.singleton_append, unescape.eq_def]
        split
        · rename_i heq
          cases heq
        · rename_i heq
          exact absurd (List.cons.inj heq).1 hbackslash
        · rename_i heq
          exact absurd (List.cons.inj heq).1 hbackslash
        · rename_i heq
          exact absurd (List.cons.inj heq).1 hbackslash
        · rename_i heq
          obtain ⟨rfl, rfl⟩ := List.cons.inj heq
          rw [ih]
          rfl

theorem parseFamily_name (family : Family) : parseFamily family.name = some family := by
  cases family <;> decide

/-- A line that starts with a name is a sample. -/
theorem parseLine_sample (h : isName name = true) :
    parseLine (name ++ rest) = parseSample (name ++ rest) := by
  obtain ⟨b, s, rfl, hb⟩ := isName_head h
  have hkeyword (t : Bytes) : (35 :: t).isPrefixOf (b :: s ++ rest) = false := by
    rw [List.cons_append, List.isPrefixOf_cons_cons, beq_false_of_ne hb.symm, Bool.false_and]
  rw [parseLine, List.cons_append, if_neg (List.cons_ne_nil _ _), ← List.cons_append,
    show ascii "# HELP " = 35 :: ascii " HELP " by decide, hkeyword, if_neg Bool.false_ne_true,
    show ascii "# TYPE " = 35 :: ascii " TYPE " by decide, hkeyword, if_neg Bool.false_ne_true]

theorem parseLine_help (h : isName name = true) (text : Bytes) :
    parseLine (Line.help name text).render = some (.help name text) := by
  have hdrop : (ascii "# HELP " ++ (name ++ 32 :: escape text)).drop 7 =
      name ++ 32 :: escape text := List.drop_left' (by decide)
  have hprefix : (ascii "# HELP ").isPrefixOf (ascii "# HELP " ++ (name ++ 32 :: escape text)) =
      true := List.isPrefixOf_iff_prefix.mpr (List.prefix_append _ _)
  rw [Line.render, parseLine, if_neg (List.append_ne_nil_of_left_ne_nil (by decide) _), hprefix,
    if_pos rfl, hdrop, parseName_append h]
  show (unescape (escape text)).bind _ = _
  rw [unescape_escape]
  rfl

theorem parseLine_type (h : isName name = true) (family : Family) :
    parseLine (Line.type name family).render = some (.type name family) := by
  have hdrop : (ascii "# TYPE " ++ (name ++ 32 :: family.name)).drop 7 =
      name ++ 32 :: family.name := List.drop_left' (by decide)
  have hprefix : (ascii "# TYPE ").isPrefixOf (ascii "# TYPE " ++ (name ++ 32 :: family.name)) =
      true := List.isPrefixOf_iff_prefix.mpr (List.prefix_append _ _)
  have hother : (ascii "# HELP ").isPrefixOf (ascii "# TYPE " ++ (name ++ 32 :: family.name)) =
      false := rfl
  rw [Line.render, parseLine, if_neg (List.append_ne_nil_of_left_ne_nil (by decide) _), hother,
    if_neg Bool.false_ne_true, hprefix, if_pos rfl, hdrop, parseName_append h]
  show (parseFamily family.name).bind _ = _
  rw [parseFamily_name]
  rfl

theorem parseValue_valid {le : Option Bytes} {value : Bytes} (h : isName name = true)
    (hv : isValue value = true) : parseValue name le value = some (.sample name le value) := by
  rw [parseValue, h, hv]
  rfl

/-- **A line is read as it was written.** -/
theorem parseLine_render {l : Line} (h : l.Valid) : parseLine l.render = some l := by
  cases l with
  | blank => rfl
  | help name text => exact parseLine_help h text
  | type name family => exact parseLine_type h family
  | sample name le value =>
    cases le with
    | none =>
      obtain ⟨hname, hvalue⟩ := h
      obtain ⟨htake, hdrop⟩ := takeWhile_until (isNameChar_of_isName hname)
        (show isNameChar 32 = false by decide) value
      rw [Line.render, parseLine_sample hname, parseSample, htake, hdrop]
      exact parseValue_valid hname hvalue
    | some le =>
      obtain ⟨hname, hvalue, hle⟩ := h
      have htext : ascii "\x7ble=\"" ++ (le ++ (ascii "\"\x7d " ++ value)) =
        123 :: 108 :: 101 :: 61 :: 34 :: (le ++ 34 :: 125 :: 32 :: value) := rfl
      obtain ⟨htake, hdrop⟩ := takeWhile_until (isNameChar_of_isName hname)
        (show isNameChar 123 = false by decide)
        (108 :: 101 :: 61 :: 34 :: (le ++ 34 :: 125 :: 32 :: value))
      obtain ⟨hlabel, hend⟩ := takeWhile_until (p := (· != 34)) (b := 34)
        (fun b hb => bne_iff_ne.mpr (hle b hb).1) rfl (125 :: 32 :: value)
      rw [Line.render, parseLine_sample hname, htext, parseSample, htake, hdrop]
      show (match (le ++ 34 :: 125 :: 32 :: value).dropWhile (· != 34) with
        | 34 :: 125 :: 32 :: value => parseValue name (some _) value
        | _ => none) = _
      rw [hlabel, hend]
      exact parseValue_valid hname hvalue

/-! ### Lines -/

theorem not_mem_of_all {p : UInt8 → Bool} {s : Bytes} (hs : ∀ b ∈ s, p b = true)
    (hp : p 10 = false) : 10 ∉ s := by
  intro hmem
  rw [hs 10 hmem] at hp
  cases hp

theorem newline_not_mem_escape (s : Bytes) : 10 ∉ escape s := by
  rw [escape, List.mem_flatMap]
  rintro ⟨c, -, hc⟩
  rw [escapeByte] at hc
  split at hc
  · exact absurd hc (by decide)
  · split at hc
    · exact absurd hc (by decide)
    · rename_i hnewline
      exact hnewline (List.mem_singleton.mp hc).symm

theorem newline_not_mem_value {s : Bytes} (h : isValue s = true) : 10 ∉ s := by
  rw [isValue, decide_eq_true_eq] at h
  rcases h with rfl | rfl | rfl | h
  · decide
  · decide
  · decide
  · exact not_mem_of_all (Json.all_of_isNumber h) (by decide)

/-- No line is more than one. -/
theorem newline_not_mem_render {l : Line} (h : l.Valid) : 10 ∉ l.render := by
  have hname {name : Bytes} (h : isName name = true) : 10 ∉ name :=
    not_mem_of_all (isNameChar_of_isName h) (by decide)
  cases l with
  | blank => exact List.not_mem_nil
  | help name text =>
    simp only [Line.render, List.mem_append, List.mem_cons, not_or]
    exact ⟨by decide, hname h, by decide, newline_not_mem_escape text⟩
  | type name family =>
    simp only [Line.render, List.mem_append, List.mem_cons, not_or]
    exact ⟨by decide, hname h, by decide, by cases family <;> decide⟩
  | sample name le value =>
    cases le with
    | none =>
      simp only [Line.render, List.mem_append, List.mem_cons, not_or]
      exact ⟨hname h.1, by decide, newline_not_mem_value h.2⟩
    | some le =>
      simp only [Line.render, List.mem_append, not_or]
      exact ⟨hname h.1, by decide, fun hmem => (h.2.2 10 hmem).2 rfl, by decide,
        newline_not_mem_value h.2.1⟩

theorem splitLines_append {line : Bytes} (h : 10 ∉ line) (acc s : Bytes) :
    splitLines acc (line ++ 10 :: s) = (splitLines [] s).map ((acc ++ line) :: ·) := by
  induction line generalizing acc with
  | nil => rw [List.nil_append, List.append_nil, splitLines, if_pos rfl]
  | cons b line ih =>
    rw [List.mem_cons, not_or] at h
    rw [List.cons_append, splitLines, if_neg (Ne.symm h.1), ih h.2, List.append_assoc]
    rfl

theorem splitLines_render {ls : List Line} (h : ∀ l ∈ ls, l.Valid) :
    splitLines [] (render ls) = some (ls.map Line.render) := by
  induction ls with
  | nil => rfl
  | cons l ls ih =>
    obtain ⟨hl, hls⟩ := List.forall_mem_cons.mp h
    rw [render, List.flatMap_cons, List.append_assoc, List.singleton_append,
      splitLines_append (newline_not_mem_render hl)]
    rw [render] at ih
    rw [ih hls]
    rfl

theorem mapM_parseLine {ls : List Line} (h : ∀ l ∈ ls, l.Valid) :
    (ls.map Line.render).mapM parseLine = some ls := by
  induction ls with
  | nil => rfl
  | cons l ls ih =>
    obtain ⟨hl, hls⟩ := List.forall_mem_cons.mp h
    rw [List.map_cons, List.mapM_cons, parseLine_render hl, ih hls]
    rfl

/-- **A text is read as it was written.** -/
theorem parse_render {ls : List Line} (h : ∀ l ∈ ls, l.Valid) : parse (render ls) = some ls := by
  rw [parse, splitLines_render h]
  exact mapM_parseLine h

/-! ## What a page has to satisfy -/

def Line.isSample : Line → Bool
  | .sample .. => true
  | _ => false

/-- A `TYPE` line of the metric. -/
def Line.isTypeOf (name : Bytes) : Line → Bool
  | .type n _ => n = name
  | _ => false

/-- The samples of a histogram: those behind its `TYPE` line. -/
def samplesOf (name : Bytes) (ls : List Line) : List Line :=
  ((ls.dropWhile (· ≠ .type name .histogram)).drop 1).takeWhile Line.isSample

/-- The label and the value of a bucket. -/
def Line.bucket (name : Bytes) : Line → Option (Bytes × Bytes)
  | .sample n (some le) value => if n = name ++ ascii "_bucket" then some (le, value) else none
  | _ => none

/-- The value of the sample `_count`. -/
def Line.count (name : Bytes) : Line → Option Bytes
  | .sample n none value => if n = name ++ ascii "_count" then some value else none
  | _ => none

def buckets (name : Bytes) (ls : List Line) : List (Bytes × Bytes) :=
  (samplesOf name ls).filterMap (Line.bucket name)

theorem samplesOf_append {before samples rest : List Line}
    (hbefore : ∀ l ∈ before, l ≠ .type name .histogram)
    (hsamples : ∀ l ∈ samples, l.isSample = true) :
    samplesOf name (before ++ .type name .histogram :: (samples ++ .blank :: rest)) = samples := by
  rw [samplesOf, List.dropWhile_append_of_pos fun l hl => decide_eq_true (hbefore l hl),
    List.dropWhile_cons_of_neg (by simp), List.drop_succ_cons, List.drop_zero,
    List.takeWhile_append_of_pos hsamples, List.takeWhile_cons_of_neg Bool.false_ne_true,
    List.append_nil]

/-- The bound a label stands for. -/
def readLabel (le : Bytes) : Option (WithTop ℚ) :=
  if le = ascii "+Inf" then some ⊤ else (SixDigits.read le).map fun x => (x : WithTop ℚ)

/-- **The buckets of a histogram**: the labels are distinct, increase and end with `+Inf`,
whose sample is the count. -/
structure Bucketed (name : Bytes) (ls : List Line) : Prop where
  distinct : ((buckets name ls).map (·.1)).Nodup
  increasing : ∃ bounds : List (WithTop ℚ),
    (buckets name ls).map (readLabel ·.1) = bounds.map some ∧ bounds.Pairwise (· < ·)
  last : ∃ value, (buckets name ls).getLast? = some (ascii "+Inf", value) ∧
    (samplesOf name ls).filterMap (Line.count name) = [value]

end Exposition
