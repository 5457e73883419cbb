import Mathlib.Data.List.DropRight
import Mathlib.Data.List.Nodup
import NeuStack.HttpFraming

/-! # Headers that are written and read

Headers that a parser has collected are `HttpHeaders.Valid`: a name comes once, and each value can
stand in a header line.  Such headers come back from the lines that `serialize` writes
(`HttpHeaders.Valid.exists_fields`).
-/
namespace NeuStack
open HttpParser (cutLine trim)

/-- A name and a value that a header line can be made of. -/
structure Writable (key value : Bytes) : Prop where
  no_colon : 58 ∉ key
  one_line : cutLine (key ++ 58 :: 32 :: value) = none
  trimmed : trim value = value

/-- **Headers that can be read back**: no name comes twice, and there are values to each. -/
structure HttpHeaders.Valid (headers : HttpHeaders) : Prop where
  names : (headers.map Prod.fst).Nodup
  values : ∀ e ∈ headers, e.2 ≠ [] ∧ ∀ value ∈ e.2, Writable e.1 value

namespace Writable
variable {key value : Bytes}

/-- The line that is written. -/
def field (h : Writable key value) : HeaderField := ⟨key, 32 :: value, h.no_colon, h.one_line⟩

theorem trim_field (h : Writable key value) : trim h.field.value = value := by
  rw [field, trim, List.dropWhile_cons_of_pos (by rfl)]
  exact h.trimmed

theorem lines_field (h : Writable key value) :
    HeaderField.lines [h.field] = key ++ ascii ": " ++ value ++ crlf := by
  rw [HeaderField.lines, List.flatMap_singleton, HeaderField.line, List.append_assoc key]
  rfl

theorem of_field (f : HeaderField) : Writable f.key (trim f.value) where
  no_colon := f.no_colon
  one_line := by
    obtain ⟨hkey, hvalue⟩ := (Delimited.cutPair_append_cons (by decide) (by decide)).mp f.one_line
    refine (Delimited.cutPair_append_cons (by decide) (by decide)).mpr ⟨hkey, ?_⟩
    refine (Delimited.cutPair_cons_of_ne (by decide) _).mpr ?_
    exact Delimited.cutPair_of_suffix hvalue (List.dropWhile_suffix _)
  trimmed := List.dropWhile_idempotent ..

end Writable

namespace HttpHeaders
variable {headers : HttpHeaders} {key value : Bytes} {values : List Bytes}

theorem add_new (h : key ∉ headers.map Prod.fst) (value : Bytes) :
    headers.add key value = headers ++ [(key, [value])] := by
  induction headers with
  | nil => rfl
  | cons e headers ih =>
    obtain ⟨k, values⟩ := e
    rw [List.map_cons, List.mem_cons, not_or] at h
    rw [add, if_neg (Ne.symm h.1), ih h.2, List.cons_append]

theorem add_last (h : key ∉ headers.map Prod.fst) (values : List Bytes) (value : Bytes) :
    (headers ++ [(key, values)]).add key value = headers ++ [(key, values ++ [value])] := by
  induction headers with
  | nil => rw [List.nil_append, add, if_pos rfl]; rfl
  | cons e headers ih =>
    obtain ⟨k, values'⟩ := e
    rw [List.map_cons, List.mem_cons, not_or] at h
    rw [List.cons_append, add, if_neg (Ne.symm h.1), ih h.2, List.cons_append]

theorem names_add (key value : Bytes) (headers : HttpHeaders) :
    (headers.add key value).map Prod.fst =
      if key ∈ headers.map Prod.fst then headers.map Prod.fst
      else headers.map Prod.fst ++ [key] := by
  induction headers with
  | nil => rfl
  | cons e headers ih =>
    obtain ⟨k, values⟩ := e
    rw [add]
    by_cases hk : k = key
    · rw [if_pos hk, List.map_cons, List.map_cons, hk, if_pos List.mem_cons_self]
    · rw [if_neg hk, List.map_cons, ih, List.map_cons]
      by_cases hmem : key ∈ headers.map Prod.fst
      · rw [if_pos hmem, if_pos (List.mem_cons_of_mem _ hmem)]
      · rw [if_neg hmem, if_neg fun h => ?_, List.cons_append]
        rcases List.mem_cons.mp h with h | h
        · exact hk h.symm
        · exact hmem h

theorem mem_add {e : Bytes × List Bytes} (h : e ∈ headers.add key value) :
    e ∈ headers ∨ e = (key, [value]) ∨ ∃ values, (key, values) ∈ headers ∧
      e = (key, values ++ [value]) := by
  induction headers with
  | nil => exact .inr (.inl (List.mem_singleton.mp h))
  | cons e' headers ih =>
    obtain ⟨k, values⟩ := e'
    rw [add] at h
    split at h
    · rename_i hk
      rcases List.mem_cons.mp h with rfl | h
      · exact .inr (.inr ⟨values, hk ▸ List.mem_cons_self, by rw [hk]⟩)
      · exact .inl (List.mem_cons_of_mem _ h)
    · rcases List.mem_cons.mp h with rfl | h
      · exact .inl List.mem_cons_self
      · rcases ih h with h | h | ⟨values', hmem, heq⟩
        · exact .inl (List.mem_cons_of_mem _ h)
        · exact .inr (.inl h)
        · exact .inr (.inr ⟨values', List.mem_cons_of_mem _ hmem, heq⟩)

namespace Valid

theorem nil : Valid [] := ⟨List.nodup_nil, List.forall_mem_nil _⟩

theorem add (h : headers.Valid) (hwritable : Writable key value) :
    (headers.add key value).Valid where
  names := by
    rw [names_add]
    split
    · exact h.names
    · rename_i hnew
      exact List.nodup_append.mpr ⟨h.names, List.nodup_singleton key, fun a ha b hb hab =>
        hnew (List.mem_singleton.mp hb ▸ hab ▸ ha)⟩
  values e he := by
    rcases mem_add he with he | rfl | ⟨values, hmem, rfl⟩
    · exact h.values e he
    · exact ⟨List.cons_ne_nil _ _, fun v hv => List.mem_singleton.mp hv ▸ hwritable⟩
    · refine ⟨List.append_ne_nil_of_right_ne_nil _ (List.cons_ne_nil _ _), fun v hv => ?_⟩
      rcases List.mem_append.mp hv with hv | hv
      · exact (h.values _ hmem).2 v hv
      · exact List.mem_singleton.mp hv ▸ hwritable

/-- The headers that a parser collects. -/
theorem collect (fields : List HeaderField) (h : headers.Valid) :
    Valid (HeaderField.collect headers fields) := by
  induction fields generalizing headers with
  | nil => exact h
  | cons f fields ih => exact ih (h.add (.of_field f))

theorem perm {headers' : HttpHeaders} (h : headers.Valid) (hperm : headers'.Perm headers) :
    headers'.Valid :=
  ⟨(hperm.map Prod.fst).nodup_iff.mpr h.names, fun e he => h.values e (hperm.mem_iff.mp he)⟩

end Valid

/-- The lines of the values to one name. -/
theorem exists_lines {key : Bytes} {values : List Bytes} (hne : values ≠ [])
    (h : ∀ value ∈ values, Writable key value) {before : HttpHeaders}
    (hnew : key ∉ before.map Prod.fst) : ∃ fields,
      HeaderField.lines fields =
        values.flatMap (fun value => key ++ ascii ": " ++ value ++ crlf) ∧
      HeaderField.collect before fields = before ++ [(key, values)] := by
  induction values using List.reverseRecOn with
  | nil => exact absurd rfl hne
  | append_singleton values value ih =>
    have hlast : Writable key value := h value (List.mem_append_right _ (List.mem_singleton_self _))
    have hline := hlast.lines_field
    have hcollect (headers : HttpHeaders) :
        HeaderField.collect headers [hlast.field] = headers.add key value :=
      congrArg (headers.add key ·) hlast.trim_field
    by_cases hvalues : values = []
    · rw [hvalues]
      exact ⟨[hlast.field], hline.trans (List.flatMap_singleton ..).symm,
        (hcollect before).trans (add_new hnew value)⟩
    · obtain ⟨fields, hlines, hfields⟩ :=
        ih hvalues fun v hv => h v (List.mem_append_left _ hv)
      refine ⟨fields ++ [hlast.field], ?_, ?_⟩
      · rw [HeaderField.lines, List.flatMap_append, ← HeaderField.lines, ← HeaderField.lines,
          hlines, hline, List.flatMap_append, List.flatMap_singleton]
      · rw [HeaderField.collect, List.foldl_append, ← HeaderField.collect, ← HeaderField.collect,
          hfields, hcollect, add_last hnew]

/-- **Valid headers come back** from the lines that `serialize` writes. -/
theorem Valid.exists_fields (h : headers.Valid) : ∃ fields,
    HeaderField.lines fields = headers.serialize ∧ HeaderField.collect [] fields = headers := by
  induction headers using List.reverseRecOn with
  | nil => exact ⟨[], rfl, rfl⟩
  | append_singleton headers e ih =>
    obtain ⟨key, values⟩ := e
    have hnames := h.names
    rw [List.map_append, List.nodup_append] at hnames
    obtain ⟨hbefore, -, hdisjoint⟩ := hnames
    obtain ⟨fields, hlines, hfields⟩ :=
      ih ⟨hbefore, fun e he => h.values e (List.mem_append_left _ he)⟩
    obtain ⟨hne, hwritable⟩ := h.values _ (List.mem_append_right _ (List.mem_singleton_self _))
    have hnew : key ∉ headers.map Prod.fst := fun hmem =>
      hdisjoint key hmem key (List.mem_singleton_self _) rfl
    obtain ⟨last, hlast, hcollect⟩ := exists_lines hne hwritable hnew
    refine ⟨fields ++ last, ?_, ?_⟩
    · rw [HeaderField.lines, List.flatMap_append, ← HeaderField.lines, ← HeaderField.lines, hlines,
        hlast, serialize, serialize, List.flatMap_append, List.flatMap_singleton]
    · rw [HeaderField.collect, List.foldl_append, ← HeaderField.collect, ← HeaderField.collect,
        hfields, hcollect]

end HttpHeaders
end NeuStack
