import Mathlib.Data.List.Basic

/-! # Chunked coding

A body of unknown length goes out in chunks, each behind a line with its size, and ends with a chunk
of size zero (`ChunkedBody`).  Any data can be sent so (`exists_body`), and takes more bytes than it
has (`ChunkedBody.length_lt`).
-/
namespace ChunkedCoding

/-- The value of a hexadecimal digit. -/
def hexDigit (b : UInt8) : Option Nat :=
  if 48 ≤ b ∧ b ≤ 57 then some (b.toNat - 48)
  else if 97 ≤ b ∧ b ≤ 102 then some (b.toNat - 87)
  else if 65 ≤ b ∧ b ≤ 70 then some (b.toNat - 55)
  else none

/-- The value of digits. -/
def hexValue (digits : List UInt8) : Option Nat :=
  digits.foldlM (fun n b => (hexDigit b).map (16 * n + ·)) 0

/-- There is no end of a line. -/
def WithinLine (text : List UInt8) : Prop := 13 ∉ text ∧ 10 ∉ text

/-- **A line with a size**: digits, and maybe an extension behind a semicolon. -/
structure SizeLine (line : List UInt8) (size : Nat) : Prop where
  split : ∃ digits extension, line = digits ++ extension ∧ digits ≠ [] ∧
    hexValue digits = some size ∧ WithinLine extension ∧
    (extension = [] ∨ extension.head? = some 59)

/-- **A chunked body**, and the data that it carries: chunks, the last chunk, trailers. -/
inductive ChunkedBody : List UInt8 → List UInt8 → Prop
  | last {line : List UInt8} {trailers : List (List UInt8)} (hsize : SizeLine line 0)
      (htrailers : ∀ field ∈ trailers, field ≠ [] ∧ WithinLine field) :
      ChunkedBody (line ++ [13, 10] ++ trailers.flatMap (· ++ [13, 10]) ++ [13, 10]) []
  | chunk {line data rest body : List UInt8} (hsize : SizeLine line data.length)
      (hdata : data ≠ []) (hrest : ChunkedBody body rest) :
      ChunkedBody (line ++ [13, 10] ++ data ++ [13, 10] ++ body) (data ++ rest)

/-- A body is longer than its data. -/
theorem ChunkedBody.length_lt {body data : List UInt8} (h : ChunkedBody body data) :
    data.length < body.length := by
  induction h with
  | last =>
    rw [List.length_append, List.length_nil]
    exact Nat.lt_add_left _ (Nat.zero_lt_two)
  | chunk _ _ _ ih =>
    simp only [List.length_append]
    omega

/-! ## Writing -/

def digit (n : Nat) : UInt8 := UInt8.ofNat (if n < 10 then 48 + n else 87 + n)

/-- The digits of a size. -/
def hexDigits (n : Nat) : List UInt8 :=
  if n < 16 then [digit n] else hexDigits (n / 16) ++ [digit (n % 16)]

theorem hexDigit_digit : ∀ n < 16, hexDigit (digit n) = some n := by decide

theorem hexValue_hexDigits (n : Nat) : hexValue (hexDigits n) = some n := by
  induction n using Nat.strongRecOn with
  | ind n ih =>
    rw [hexDigits]
    split
    · rename_i h
      rw [hexValue, List.foldlM_cons, hexDigit_digit n h]
      exact congrArg some (Nat.zero_add n)
    · have hlast := hexDigit_digit (n % 16) (Nat.mod_lt _ (by decide))
      rw [hexValue, List.foldlM_append, ← hexValue, ih (n / 16) (by omega), Option.bind_eq_bind,
        Option.bind_some, List.foldlM_cons, hlast]
      exact congrArg some (Nat.div_add_mod n 16)

theorem hexDigits_ne_nil (n : Nat) : hexDigits n ≠ [] := by
  rw [hexDigits]
  split
  · exact List.cons_ne_nil _ _
  · exact List.append_ne_nil_of_right_ne_nil _ (List.cons_ne_nil _ _)

theorem sizeLine_hexDigits (n : Nat) : SizeLine (hexDigits n) n :=
  ⟨hexDigits n, [], (List.append_nil _).symm, hexDigits_ne_nil n, hexValue_hexDigits n,
    ⟨List.not_mem_nil, List.not_mem_nil⟩, .inl rfl⟩

/-- **Any chunks can be sent.** -/
theorem exists_body (chunks : List (List UInt8)) : ∃ body, ChunkedBody body chunks.flatten := by
  induction chunks with
  | nil => exact ⟨_, .last (sizeLine_hexDigits 0) (List.forall_mem_nil _)⟩
  | cons data chunks ih =>
    obtain ⟨body, hbody⟩ := ih
    rw [List.flatten_cons]
    by_cases hdata : data = []
    · rw [hdata]
      exact ⟨body, hbody⟩
    · exact ⟨_, .chunk (sizeLine_hexDigits data.length) hdata hbody⟩

end ChunkedCoding
