import Mathlib.Data.List.TakeWhile

/-! # JSON texts

A parser of JSON texts over bytes, where bytes of `0x80` and above are characters of a
string like any other.  An object is the list of its members, in their order; a number
is its text.

`Json.Parses v t` says that the parser reads `t` as `v` wherever it stands, and
`Json.MembersText ms t` the same of members between braces.  They are closed under the
rules of the grammar (`Parses.object`, `MembersText.append`), so that what a writer
writes can be followed rule by rule.
-/

inductive Json where
  | null
  | bool (b : Bool)
  | num (text : List UInt8)
  | str (s : List UInt8)
  | arr (elements : List Json)
  | obj (members : List (List UInt8 × Json))

namespace Json

/-! ## Characters -/

def isWs (b : UInt8) : Bool := b = 32 ∨ b = 9 ∨ b = 10 ∨ b = 13

def skipWs (s : List UInt8) : List UInt8 := s.dropWhile isWs

def isDigit (b : UInt8) : Bool := 48 ≤ b ∧ b ≤ 57

/-- The characters of numbers. -/
def isNumberChar (b : UInt8) : Bool :=
  isDigit b ∨ b = 43 ∨ b = 45 ∨ b = 46 ∨ b = 101 ∨ b = 69

/-! ## Numbers -/

/-- Digits, at least one. -/
def isDigits (s : List UInt8) : Bool := s ≠ [] ∧ s.all isDigit

/-- The end of a number behind its fraction. -/
@[grind =] def isExponent : List UInt8 → Bool
  | [] => true
  | b :: rest =>
    (b == 101 || b == 69) &&
      match rest with
      | 43 :: rest | 45 :: rest => isDigits rest
      | rest => isDigits rest

/-- The end of a number behind its integer part. -/
@[grind =] def isFraction : List UInt8 → Bool
  | 46 :: rest => isDigits (rest.takeWhile isDigit) && isExponent (rest.dropWhile isDigit)
  | s => isExponent s

/-- A number without its sign; no digit stands behind a leading zero. -/
@[grind =] def isUnsigned : List UInt8 → Bool
  | 48 :: rest => isFraction rest
  | s => isDigits (s.takeWhile isDigit) && isFraction (s.dropWhile isDigit)

@[grind =] def isNumber : List UInt8 → Bool
  | 45 :: rest => isUnsigned rest
  | s => isUnsigned s

/-! ## Strings -/

def hexValue (b : UInt8) : Option Nat :=
  if isDigit b then some (b.toNat - 48)
  else if 97 ≤ b ∧ b ≤ 102 then some (b.toNat - 87)
  else if 65 ≤ b ∧ b ≤ 70 then some (b.toNat - 55)
  else none

/-- The UTF-8 bytes of a character of the basic plane; a surrogate has none. -/
def utf8 (code : Nat) : Option (List UInt8) :=
  if code < 0x80 then some [UInt8.ofNat code]
  else if code < 0x800 then
    some [UInt8.ofNat (0xC0 + code / 64), UInt8.ofNat (0x80 + code % 64)]
  else if 0xD800 ≤ code ∧ code < 0xE000 then none
  else
    some [UInt8.ofNat (0xE0 + code / 4096), UInt8.ofNat (0x80 + code / 64 % 64),
      UInt8.ofNat (0x80 + code % 64)]

/-- What four hexadecimal digits stand for. -/
def unicode (a b c d : UInt8) : Option (List UInt8) := do
  let a ← hexValue a
  let b ← hexValue b
  let c ← hexValue c
  let d ← hexValue d
  utf8 (((a * 16 + b) * 16 + c) * 16 + d)

/-- What a character behind a backslash stands for. -/
def simpleEscape (b : UInt8) : Option UInt8 :=
  if b = 34 ∨ b = 92 ∨ b = 47 then some b
  else if b = 98 then some 8
  else if b = 102 then some 12
  else if b = 110 then some 10
  else if b = 114 then some 13
  else if b = 116 then some 9
  else none

/-- A string behind its opening quote: its bytes, and what stands behind it. -/
@[grind =] def parseString : List UInt8 → Option (List UInt8 × List UInt8)
  | [] => none
  | b :: rest =>
    if b = 34 then some ([], rest)
    else if b = 92 then
      match rest with
      | [] => none
      | e :: rest =>
        if e = 117 then
          match rest with
          | a :: b :: c :: d :: rest =>
            match unicode a b c d with
            | some bytes => (parseString rest).map fun (s, rest) => (bytes ++ s, rest)
            | none => none
          | _ => none
        else
          match simpleEscape e with
          | some x => (parseString rest).map fun (s, rest) => (x :: s, rest)
          | none => none
    else if b < 32 then none
    else (parseString rest).map fun (s, rest) => (b :: s, rest)

/-! ## Values -/

/-- A literal or a number. -/
def parseScalar (s : List UInt8) : Option (Json × List UInt8) :=
  if [116, 114, 117, 101].isPrefixOf s then some (.bool true, s.drop 4)
  else if [102, 97, 108, 115, 101].isPrefixOf s then some (.bool false, s.drop 5)
  else if [110, 117, 108, 108].isPrefixOf s then some (.null, s.drop 4)
  else if isNumber (s.takeWhile isNumberChar) then
    some (.num (s.takeWhile isNumberChar), s.dropWhile isNumberChar)
  else none

mutual

/-- A value, and what stands behind it.  The fuel bounds the depth of the recursion. -/
@[grind =] def parseValue : Nat → List UInt8 → Option (Json × List UInt8)
  | 0, _ => none
  | n + 1, s =>
    match skipWs s with
    | 123 :: rest =>
      match skipWs rest with
      | 125 :: rest => some (.obj [], rest)
      | _ => (parseMembers n rest).map fun (members, rest) => (.obj members, rest)
    | 91 :: rest =>
      match skipWs rest with
      | 93 :: rest => some (.arr [], rest)
      | _ => (parseElements n rest).map fun (elements, rest) => (.arr elements, rest)
    | 34 :: rest => (parseString rest).map fun (s, rest) => (.str s, rest)
    | s => parseScalar s

/-- The members of an object, and what stands behind its closing brace. -/
@[grind =]
def parseMembers : Nat → List UInt8 → Option (List (List UInt8 × Json) × List UInt8)
  | 0, _ => none
  | n + 1, s =>
    match skipWs s with
    | 34 :: rest =>
      match parseString rest with
      | none => none
      | some (key, rest) =>
        match skipWs rest with
        | 58 :: rest =>
          match parseValue n rest with
          | none => none
          | some (v, rest) =>
            match skipWs rest with
            | 125 :: rest => some ([(key, v)], rest)
            | 44 :: rest =>
              (parseMembers n rest).map fun (members, rest) => ((key, v) :: members, rest)
            | _ => none
        | _ => none
    | _ => none

/-- The elements of an array, and what stands behind its closing bracket. -/
@[grind =] def parseElements : Nat → List UInt8 → Option (List Json × List UInt8)
  | 0, _ => none
  | n + 1, s =>
    match parseValue n s with
    | none => none
    | some (v, rest) =>
      match skipWs rest with
      | 93 :: rest => some ([v], rest)
      | 44 :: rest => (parseElements n rest).map fun (elements, rest) => (v :: elements, rest)
      | _ => none

end

/-- **The value of a JSON text**, if it is one. -/
def parse (s : List UInt8) : Option Json :=
  match parseValue (s.length + 1) s with
  | some (v, rest) => if skipWs rest = [] then some v else none
  | none => none

/-! ## Blanks -/

/-- White space. -/
def Blank (w : List UInt8) : Prop := ∀ b ∈ w, isWs b = true

instance (w : List UInt8) : Decidable (Blank w) :=
  List.decidableBAll (fun b => isWs b = true) w

variable {s t w w' body key : List UInt8} {b : UInt8} {v : Json} {n : Nat}

theorem Blank.nil : Blank [] := nofun

theorem Blank.append (h : Blank w) (h' : Blank w') : Blank (w ++ w') := by
  intro b hb
  rcases List.mem_append.mp hb with hb | hb
  · exact h b hb
  · exact h' b hb

theorem skipWs_blank (h : Blank w) (s : List UInt8) : skipWs (w ++ s) = skipWs s := by
  induction w with
  | nil => rfl
  | cons b w ih =>
    rw [List.cons_append, skipWs, List.dropWhile_cons_of_pos (h b (List.mem_cons_self ..))]
    exact ih fun c hc => h c (List.mem_cons_of_mem _ hc)

theorem skipWs_cons (h : isWs b = false) (s : List UInt8) : skipWs (b :: s) = b :: s := by
  rw [skipWs, List.dropWhile_cons_of_neg (by rw [h]; exact Bool.false_ne_true)]

/-- Blanks before a character that is none. -/
theorem skipWs_to (hw : Blank w) (hb : isWs b = false) (s : List UInt8) :
    skipWs (w ++ b :: s) = b :: s := by
  rw [skipWs_blank hw, skipWs_cons hb]

/-! ## Texts of values -/

/-- No number goes on into `s`. -/
def Stops (s : List UInt8) : Prop := ∀ b ∈ s.head?, isNumberChar b = false

theorem stops_nil : Stops [] := nofun

theorem stops_cons (h : isNumberChar b = false) (s : List UInt8) : Stops (b :: s) := by
  rintro _ ⟨⟩
  exact h

theorem Blank.stops (hw : Blank w) (hs : Stops s) : Stops (w ++ s) := by
  cases w with
  | nil => exact hs
  | cons b w =>
    have hb := hw b (List.mem_cons_self ..)
    refine stops_cons ?_ _
    simp only [isWs, decide_eq_true_eq] at hb
    rcases hb with rfl | rfl | rfl | rfl <;> decide

/-- **The parser reads `t` as `v`**, wherever it stands. -/
def Parses (v : Json) (t : List UInt8) : Prop :=
  ∀ n s, t.length < n → Stops s → parseValue n (t ++ s) = some (v, s)

/-- `body` is what stands for `s` between quotes. -/
def Quotes (body s : List UInt8) : Prop :=
  ∀ rest, parseString (body ++ 34 :: rest) = some (s, rest)

theorem parse_of_parses (h : Parses v t) : parse t = some v := by
  have hvalue := h (t.length + 1) [] (Nat.lt_succ_self _) stops_nil
  rw [List.append_nil] at hvalue
  rw [parse, hvalue]
  rfl

/-! ### One round of the parser -/

theorem parseValue_string (h : skipWs s = 34 :: t) :
    parseValue (n + 1) s = (parseString t).map fun (s, rest) => (.str s, rest) := by
  rw [parseValue, h]
  rfl

theorem parseValue_empty (h : skipWs s = 123 :: t) (ht : skipWs t = 125 :: w) :
    parseValue (n + 1) s = some (.obj [], w) := by
  rw [parseValue, h]
  show (match skipWs t with
    | 125 :: rest => some (Json.obj [], rest)
    | _ => _) = _
  rw [ht]
  rfl

theorem parseValue_object (h : skipWs s = 123 :: t) (ht : skipWs t = b :: w) (hb : b ≠ 125) :
    parseValue (n + 1) s =
      (parseMembers n t).map fun (members, rest) => (.obj members, rest) := by
  rw [parseValue, h]
  show (match skipWs t with
    | 125 :: rest => some (Json.obj [], rest)
    | _ => _) = _
  rw [ht]
  split
  · rename_i heq
    exact absurd (List.cons.inj heq).1 hb
  · rfl

theorem parseValue_scalar (h : skipWs s = b :: t) (hb : b ≠ 123 ∧ b ≠ 91 ∧ b ≠ 34) :
    parseValue (n + 1) s = parseScalar (b :: t) := by
  rw [parseValue, h]
  split
  · rename_i heq
    exact absurd (List.cons.inj heq).1 hb.1
  · rename_i heq
    exact absurd (List.cons.inj heq).1 hb.2.1
  · rename_i heq
    exact absurd (List.cons.inj heq).1 hb.2.2
  · rfl

/-! ### Scalars -/

theorem parseString_quote (s : List UInt8) : parseString (34 :: s) = some ([], s) := by
  rw [parseString.eq_def]
  rfl

/-- A backslash and a character that stands for `x`. -/
theorem parseString_simple {e x : UInt8} (h : simpleEscape e = some x) (s : List UInt8) :
    parseString (92 :: e :: s) = (parseString s).map fun (t, rest) => (x :: t, rest) := by
  have he : e ≠ 117 := by
    rintro rfl
    cases h
  rw [parseString.eq_def]
  dsimp only
  rw [if_neg (by decide), if_pos rfl]
  rw [if_neg he, h]

/-- A backslash, a `u` and four digits that stand for `bytes`. -/
theorem parseString_unicode {a b c d : UInt8} {bytes : List UInt8}
    (h : unicode a b c d = some bytes) (s : List UInt8) :
    parseString (92 :: 117 :: a :: b :: c :: d :: s) =
      (parseString s).map fun (t, rest) => (bytes ++ t, rest) := by
  rw [parseString.eq_def]
  dsimp only
  rw [if_neg (by decide), if_pos rfl]
  rw [if_pos rfl, h]

/-- Any other character stands for itself. -/
theorem parseString_char {c : UInt8} (hquote : c ≠ 34) (hbackslash : c ≠ 92) (hplain : ¬ c < 32)
    (s : List UInt8) :
    parseString (c :: s) = (parseString s).map fun (t, rest) => (c :: t, rest) := by
  rw [parseString.eq_def]
  dsimp only
  rw [if_neg hquote, if_neg hbackslash, if_neg hplain]

theorem Parses.string (h : Quotes body s) : Parses (.str s) (34 :: (body ++ [34])) := by
  intro n rest hn _
  obtain ⟨m, rfl⟩ := Nat.exists_eq_add_of_lt hn
  have hhead : skipWs (34 :: (body ++ [34]) ++ rest) = 34 :: (body ++ 34 :: rest) := by
    rw [List.cons_append, skipWs_cons (by decide), List.append_assoc]
    rfl
  rw [parseValue_string hhead, h rest]
  rfl

theorem isNumberChar_of_isDigit (h : isDigit b = true) : isNumberChar b = true := by
  rw [isNumberChar, h]
  rfl

theorem all_of_isDigits (h : isDigits s = true) : ∀ b ∈ s, isNumberChar b = true := by
  simp only [isDigits, decide_eq_true_eq] at h
  exact fun b hb => isNumberChar_of_isDigit (List.all_eq_true.mp h.2 b hb)

theorem all_of_isExponent (h : isExponent s = true) : ∀ b ∈ s, isNumberChar b = true := by
  cases s with
  | nil => nofun
  | cons e rest =>
    rw [isExponent.eq_def] at h
    dsimp only at h
    rw [Bool.and_eq_true, Bool.or_eq_true, beq_iff_eq, beq_iff_eq] at h
    obtain ⟨he, hrest⟩ := h
    intro b hb
    rcases List.mem_cons.mp hb with rfl | hb
    · rcases he with rfl | rfl <;> decide
    · split at hrest
      · rcases List.mem_cons.mp hb with rfl | hb
        · decide
        · exact all_of_isDigits hrest b hb
      · rcases List.mem_cons.mp hb with rfl | hb
        · decide
        · exact all_of_isDigits hrest b hb
      · exact all_of_isDigits hrest b hb

/-- Digits, and what stands behind them. -/
theorem all_of_digits {p : List UInt8 → Bool}
    (hp : ∀ s, p s = true → ∀ b ∈ s, isNumberChar b = true)
    (h : (isDigits (s.takeWhile isDigit) && p (s.dropWhile isDigit)) = true) :
    ∀ b ∈ s, isNumberChar b = true := by
  rw [Bool.and_eq_true] at h
  intro b hb
  rw [← List.takeWhile_append_dropWhile (p := isDigit) (l := s)] at hb
  rcases List.mem_append.mp hb with hb | hb
  · exact all_of_isDigits h.1 b hb
  · exact hp _ h.2 b hb

theorem all_of_isFraction (h : isFraction s = true) : ∀ b ∈ s, isNumberChar b = true := by
  rw [isFraction.eq_def] at h
  split at h
  · intro b hb
    rcases List.mem_cons.mp hb with rfl | hb
    · decide
    · exact all_of_digits (fun _ => all_of_isExponent) h b hb
  · exact all_of_isExponent h

theorem all_of_isUnsigned (h : isUnsigned s = true) : ∀ b ∈ s, isNumberChar b = true := by
  rw [isUnsigned.eq_def] at h
  split at h
  · intro b hb
    rcases List.mem_cons.mp hb with rfl | hb
    · decide
    · exact all_of_isFraction h b hb
  · exact all_of_digits (fun _ => all_of_isFraction) h

theorem all_of_isNumber (h : isNumber s = true) : ∀ b ∈ s, isNumberChar b = true := by
  rw [isNumber.eq_def] at h
  split at h
  · intro b hb
    rcases List.mem_cons.mp hb with rfl | hb
    · decide
    · exact all_of_isUnsigned h b hb
  · exact all_of_isUnsigned h

/-- Digits that do not start with a zero are a number. -/
theorem isNumber_digits (hb : isDigit b = true) (hzero : b ≠ 48) (hs : ∀ c ∈ s, isDigit c = true) :
    isNumber (b :: s) = true := by
  have hall : ∀ c ∈ b :: s, isDigit c = true := by
    intro c hc
    rcases List.mem_cons.mp hc with rfl | hc
    · exact hb
    · exact hs c hc
  have htake : (b :: s).takeWhile isDigit = b :: s := List.takeWhile_eq_self_iff.mpr hall
  have hdrop : (b :: s).dropWhile isDigit = [] := List.dropWhile_eq_nil_iff.mpr hall
  have hunsigned : isUnsigned (b :: s) = true := by
    rw [isUnsigned.eq_def]
    split
    · rename_i heq
      exact absurd (List.cons.inj heq).1 hzero
    · rw [htake, hdrop]
      simpa [isDigits, isFraction, isExponent] using hall
  rw [isNumber.eq_def]
  split
  · rename_i heq
    rw [(List.cons.inj heq).1] at hb
    exact absurd hb (by decide)
  · exact hunsigned

/-- **A number is read to its end.** -/
theorem Parses.number (h : isNumber t = true) : Parses (.num t) t := by
  intro n s hn hs
  obtain ⟨m, rfl⟩ := Nat.exists_eq_add_of_lt hn
  have hall := all_of_isNumber h
  have htake : (t ++ s).takeWhile isNumberChar = t := by
    rw [List.takeWhile_append_of_pos hall]
    cases s with
    | nil => exact List.append_nil t
    | cons b s => rw [List.takeWhile_cons_of_neg (by rw [hs b rfl]; nofun), List.append_nil]
  have hdrop : (t ++ s).dropWhile isNumberChar = s := by
    rw [List.dropWhile_append_of_pos hall]
    cases s with
    | nil => rfl
    | cons b s => rw [List.dropWhile_cons_of_neg (by rw [hs b rfl]; nofun)]
  cases t with
  | nil => cases h
  | cons b t =>
    have hb := hall b (List.mem_cons_self ..)
    have hne : isWs b = false ∧ (b ≠ 123 ∧ b ≠ 91 ∧ b ≠ 34) ∧ b ≠ 116 ∧ b ≠ 102 ∧ b ≠ 110 := by
      refine ⟨?_, ⟨?_, ?_, ?_⟩, ?_, ?_, ?_⟩
      · rw [← Bool.not_eq_true]
        intro hws
        simp only [isWs, decide_eq_true_eq] at hws
        rcases hws with rfl | rfl | rfl | rfl <;> exact absurd hb (by decide)
      all_goals
        rintro rfl
        exact absurd hb (by decide)
    obtain ⟨hws, hstart, htrue, hfalse, hnull⟩ := hne
    rw [List.cons_append] at htake hdrop ⊢
    rw [parseValue_scalar (skipWs_cons hws _) hstart, parseScalar, htake, hdrop, h]
    simp [List.isPrefixOf, Ne.symm htrue, Ne.symm hfalse, Ne.symm hnull]

theorem parses_null : Parses .null [110, 117, 108, 108] := by
  intro n s hn _
  obtain ⟨m, rfl⟩ := Nat.exists_eq_add_of_lt hn
  rw [List.cons_append, parseValue_scalar (skipWs_cons (by decide) _) (by decide)]
  rfl

/-! ### Objects -/

/-- The text of members, without the braces. -/
inductive MembersText : List (List UInt8 × Json) → List UInt8 → Prop
  | one {w body key w' t : List UInt8} {v : Json} (blank : Blank w) (quotes : Quotes body key)
      (space : Blank w') (value : Parses v t) :
      MembersText [(key, v)] (w ++ 34 :: (body ++ 34 :: 58 :: (w' ++ t)))
  | cons {w body key w' t text : List UInt8} {v : Json} {members : List (List UInt8 × Json)}
      (blank : Blank w) (quotes : Quotes body key) (space : Blank w') (value : Parses v t)
      (rest : MembersText members text) :
      MembersText ((key, v) :: members)
        (w ++ 34 :: (body ++ 34 :: 58 :: (w' ++ (t ++ 44 :: text))))

theorem MembersText.append {members members' : List (List UInt8 × Json)}
    (h : MembersText members t) (h' : MembersText members' w) :
    MembersText (members ++ members') (t ++ 44 :: w) := by
  induction h with
  | one blank quotes space value =>
    simp only [List.append_assoc, List.cons_append, List.nil_append]
    exact .cons blank quotes space value h'
  | cons blank quotes space value rest ih =>
    simp only [List.append_assoc, List.cons_append] at ih ⊢
    exact .cons blank quotes space value ih

theorem MembersText.blank {members : List (List UInt8 × Json)} (h : MembersText members t)
    (hw : Blank w) : MembersText members (w ++ t) := by
  cases h with
  | one blank quotes space value =>
    rw [← List.append_assoc]
    exact .one (hw.append blank) quotes space value
  | cons blank quotes space value rest =>
    rw [← List.append_assoc]
    exact .cons (hw.append blank) quotes space value rest

/-- A member, up to its value. -/
theorem parseMembers_key (hw : Blank w) (hkey : Quotes body key) :
    parseMembers (n + 1) (w ++ 34 :: (body ++ 34 :: 58 :: s)) =
      match parseValue n s with
      | none => none
      | some (v, rest) =>
        match skipWs rest with
        | 125 :: rest => some ([(key, v)], rest)
        | 44 :: rest =>
          (parseMembers n rest).map fun (members, rest) => ((key, v) :: members, rest)
        | _ => none := by
  rw [parseMembers, skipWs_to hw (by decide)]
  show (match parseString (body ++ 34 :: 58 :: s) with
    | none => none
    | some (key, rest) => _) = _
  rw [hkey]
  show (match skipWs (58 :: s) with
    | 58 :: rest => _
    | _ => none) = _
  rw [skipWs_cons (by decide)]
  rfl

theorem parseValue_blank (hw : Blank w) (n : Nat) (s : List UInt8) :
    parseValue n (w ++ s) = parseValue n s := by
  cases n with
  | zero => rfl
  | succ n => rw [parseValue, parseValue, skipWs_blank hw]

theorem parseMembers_text {members : List (List UInt8 × Json)} (h : MembersText members t)
    (hn : t.length < n) (hw : Blank w) (s : List UInt8) :
    parseMembers n (t ++ (w ++ 125 :: s)) = some (members, s) := by
  induction h generalizing n with
  | one blank quotes space value =>
    obtain ⟨m, rfl⟩ := Nat.exists_eq_add_of_lt hn
    simp only [List.append_assoc, List.cons_append, List.length_append, List.length_cons]
    rw [parseMembers_key blank quotes, parseValue_blank space,
      value _ _ (by omega) (hw.stops (stops_cons (by decide) s))]
    dsimp only
    rw [skipWs_to hw (by decide)]
    rfl
  | cons blank quotes space value rest ih =>
    obtain ⟨m, rfl⟩ := Nat.exists_eq_add_of_lt hn
    simp only [List.append_assoc, List.cons_append, List.length_append, List.length_cons]
    rw [parseMembers_key blank quotes, parseValue_blank space,
      value _ _ (by omega) (stops_cons (by decide) _)]
    dsimp only
    rw [skipWs_cons (by decide)]
    show (parseMembers _ _).map _ = _
    rw [ih (by omega)]
    rfl

theorem MembersText.head {members : List (List UInt8 × Json)} (h : MembersText members t)
    (s : List UInt8) : ∃ rest, skipWs (t ++ s) = 34 :: rest := by
  cases h with
  | one blank quotes space value =>
    rw [List.append_assoc, List.cons_append, skipWs_to blank (by decide)]
    exact ⟨_, rfl⟩
  | cons blank quotes space value rest =>
    rw [List.append_assoc, List.cons_append, skipWs_to blank (by decide)]
    exact ⟨_, rfl⟩

/-- **Members between braces are an object.** -/
theorem Parses.object {members : List (List UInt8 × Json)} (h : MembersText members t)
    (hw : Blank w) (hw' : Blank w') : Parses (.obj members) (123 :: (w ++ (t ++ (w' ++ [125])))) := by
  intro n s hn _
  obtain ⟨m, rfl⟩ := Nat.exists_eq_add_of_lt hn
  have hbody := h.blank hw
  obtain ⟨rest, hhead⟩ := hbody.head (w' ++ 125 :: s)
  have hsplit : 123 :: (w ++ (t ++ (w' ++ [125]))) ++ s =
      123 :: (w ++ t ++ (w' ++ 125 :: s)) := by
    simp only [List.append_assoc, List.cons_append, List.nil_append]
  rw [hsplit, parseValue_object (skipWs_cons (by decide) _) hhead (by decide),
    parseMembers_text hbody _ hw']
  · rfl
  · simp only [List.length_append, List.length_cons]
    omega

theorem Parses.noMembers (hw : Blank w) : Parses (.obj []) (123 :: (w ++ [125])) := by
  intro n s hn _
  obtain ⟨m, rfl⟩ := Nat.exists_eq_add_of_lt hn
  rw [List.cons_append, List.append_assoc, List.singleton_append,
    parseValue_empty (skipWs_cons (by decide) _) (skipWs_to hw (by decide) s)]

end Json
