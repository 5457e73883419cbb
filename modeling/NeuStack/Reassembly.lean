import Mathlib.Data.List.Infix
import Mathlib.Data.List.Sort
import Mathlib.Algebra.Order.Ring.Nat

/-! # Reassembling a stream

A stream arrives in pieces, in any order, with overlaps and repetitions.  An
assembler gives out what continues the part given out so far, and keeps what lies
ahead of it, sorted by position, as far as there is room.

`Ok` is its invariant: the output is a part of the stream from its beginning.
`Held` is what it has, given out or kept; with that, the output is the longest
that the pieces allow, if none was dropped (`next_eq_of_held`).
-/
namespace Reassembly
variable {α : Type*}

/-- What stands in a stream from a position on. -/
structure Piece (α : Type*) where
  start : Nat
  data : List α

namespace Piece

def stop (pc : Piece α) : Nat := pc.start + pc.data.length

/-- The piece is cut from the stream. -/
def Of (S : List α) (pc : Piece α) : Prop := pc.data <+: S.drop pc.start

/-- The piece has the item at position `i`. -/
def Covers (pc : Piece α) (i : Nat) : Prop := pc.start ≤ i ∧ i < pc.stop

variable {S : List α} {pc : Piece α} {n : Nat}

theorem Of.stop_le (h : pc.Of S) (hdata : pc.data.length ≠ 0) : pc.stop ≤ S.length := by
  have hlen := h.length_le
  rw [List.length_drop] at hlen
  rw [stop]
  omega

/-- What the piece adds to the part of the stream before `n`. -/
theorem Of.take_append (h : pc.Of S) (hstart : pc.start ≤ n) (hstop : n ≤ pc.stop) :
    S.take n ++ pc.data.drop (n - pc.start) = S.take pc.stop := by
  obtain ⟨k, rfl⟩ := Nat.exists_eq_add_of_le hstart
  rw [stop] at hstop
  have hdrop : pc.data.drop k = ((S.drop (pc.start + k)).take (pc.data.length - k)) := by
    rw [List.prefix_iff_eq_take.mp h, List.drop_take, List.drop_drop, List.length_take,
      Nat.min_eq_left h.length_le]
  rw [Nat.add_sub_cancel_left, hdrop, ← List.take_add, stop]
  congr 1
  omega

end Piece

/-- The items of the pieces together. -/
def size (ps : List (Piece α)) : Nat := (ps.map (·.data.length)).sum

/-- One of the pieces has the item at position `i`. -/
def Covered (ps : List (Piece α)) (i : Nat) : Prop := ∃ pc ∈ ps, pc.Covers i

structure Assembler (α : Type*) where
  next : Nat := 0
  output : List α := []
  pending : List (Piece α) := []

/-- Give out what the pending pieces continue. -/
def drain : List (Piece α) → Nat → List α → Assembler α
  | [], next, output => { next, output }
  | pc :: rest, next, output =>
    if next < pc.start then { next, output, pending := pc :: rest }
    else if pc.stop ≤ next then drain rest next output
    else drain rest pc.stop (output ++ pc.data.drop (next - pc.start))

namespace Assembler

/-- The piece lies ahead, and there is no room for it. -/
def Drops (room : Nat) (a : Assembler α) (pc : Piece α) : Prop :=
  pc.data.length ≠ 0 ∧ a.next < pc.start ∧ room < size a.pending + pc.data.length

/-- Take in one piece. -/
def offer (room : Nat) (a : Assembler α) (pc : Piece α) : Assembler α :=
  if pc.data.length = 0 ∨ pc.stop ≤ a.next then a
  else if pc.start ≤ a.next then
    drain a.pending pc.stop (a.output ++ pc.data.drop (a.next - pc.start))
  else if room < size a.pending + pc.data.length then a
  else { a with pending := a.pending.orderedInsert (·.start ≤ ·.start) pc }

/-- **What holds between two pieces.** -/
structure Ok (S : List α) (room : Nat) (a : Assembler α) : Prop where
  output : a.output = S.take a.next
  next_le : a.next ≤ S.length
  sorted : a.pending.Pairwise (·.start ≤ ·.start)
  ahead : ∀ pc ∈ a.pending, a.next < pc.start
  cut : ∀ pc ∈ a.pending, pc.Of S ∧ pc.data.length ≠ 0
  size_le : size a.pending ≤ room

/-- The assembler has the item at position `i`. -/
def Held (a : Assembler α) (i : Nat) : Prop := i < a.next ∨ Covered a.pending i

variable {S : List α} {room n : Nat} {a : Assembler α} {pc : Piece α} {ps rest : List (Piece α)}

theorem Ok.init (S : List α) (room : Nat) : Ok S room {} where
  output := rfl
  next_le := Nat.zero_le _
  sorted := .nil
  ahead := nofun
  cut := nofun
  size_le := Nat.zero_le _

/-- What is pending starts behind a gap, so the output ends where the first item
is missing. -/
theorem Ok.not_held_next (h : a.Ok S room) : ¬ a.Held a.next := by
  rintro (hlt | ⟨pc, hpc, hcov⟩)
  · exact Nat.lt_irrefl _ hlt
  · exact Nat.not_le.mpr (h.ahead pc hpc) hcov.1

/-! ## Draining -/

theorem drain_next_le (ps : List (Piece α)) (n : Nat) (output : List α) :
    n ≤ (drain ps n output).next := by
  fun_induction drain ps n output with
  | case1 => exact Nat.le_refl _
  | case2 => exact Nat.le_refl _
  | case3 pc rest n output hstart hstop ih => exact ih
  | case4 pc rest n output hstart hstop ih => exact Nat.le_trans (by omega) ih

theorem size_cons (pc : Piece α) (ps : List (Piece α)) :
    size (pc :: ps) = pc.data.length + size ps := by
  rw [size, size, List.map_cons, List.sum_cons]

theorem covered_cons {i : Nat} : Covered (pc :: ps) i ↔ pc.Covers i ∨ Covered ps i := by
  simp only [Covered, List.mem_cons, exists_eq_or_imp]

/-- **Draining sorted pieces of the stream.** -/
theorem drain_ok (hsorted : ps.Pairwise (·.start ≤ ·.start))
    (hcut : ∀ pc ∈ ps, pc.Of S ∧ pc.data.length ≠ 0) (hsize : size ps ≤ room)
    (hn : n ≤ S.length) : (drain ps n (S.take n)).Ok S room := by
  induction ps generalizing n with
  | nil =>
    exact { output := rfl, next_le := hn, sorted := .nil, ahead := nofun, cut := nofun,
            size_le := Nat.zero_le _ }
  | cons pc rest ih =>
    obtain ⟨hfirst, hrest⟩ := List.pairwise_cons.mp hsorted
    obtain ⟨⟨hof, hdata⟩, hcut'⟩ := List.forall_mem_cons.mp hcut
    have hroom : size rest ≤ room := by
      rw [size_cons] at hsize
      omega
    rw [drain]
    split
    · rename_i hstart
      refine { output := rfl, next_le := hn, sorted := hsorted, ahead := ?_, cut := hcut,
               size_le := hsize }
      intro q hq
      rcases List.mem_cons.mp hq with rfl | hq
      · exact hstart
      · exact Nat.lt_of_lt_of_le hstart (hfirst q hq)
    split
    · exact ih hrest hcut' hroom hn
    · rename_i hstart hstop
      rw [hof.take_append (Nat.not_lt.mp hstart) (Nat.le_of_not_le hstop)]
      exact ih hrest hcut' hroom (hof.stop_le hdata)

theorem held_drain (ps : List (Piece α)) (n : Nat) (output : List α) (i : Nat) :
    (drain ps n output).Held i ↔ i < n ∨ Covered ps i := by
  fun_induction drain ps n output with
  | case1 => exact Iff.rfl
  | case2 => exact Iff.rfl
  | case3 pc rest n output hstart hstop ih =>
    rw [ih, covered_cons, Piece.Covers]
    have : i < pc.stop → i < n := fun h => Nat.lt_of_lt_of_le h hstop
    tauto
  | case4 pc rest n output hstart hstop ih =>
    rw [ih, covered_cons, Piece.Covers]
    have : i < n → i < pc.stop := fun h => by omega
    have : i < n ∨ pc.start ≤ i := by omega
    tauto

/-! ## Taking in a piece -/

theorem size_orderedInsert (pc : Piece α) (ps : List (Piece α)) :
    size (ps.orderedInsert (·.start ≤ ·.start) pc) = size ps + pc.data.length := by
  rw [size, ((ps.perm_orderedInsert _ pc).map _).sum_nat, List.map_cons, List.sum_cons, size,
    Nat.add_comm]

theorem pairwise_orderedInsert (h : ps.Pairwise (·.start ≤ ·.start)) (pc : Piece α) :
    (ps.orderedInsert (·.start ≤ ·.start) pc).Pairwise (·.start ≤ ·.start) := by
  induction ps with
  | nil => exact List.pairwise_singleton _ _
  | cons q rest ih =>
    obtain ⟨hfirst, hrest⟩ := List.pairwise_cons.mp h
    rw [List.orderedInsert_cons]
    split
    · rename_i hle
      refine List.pairwise_cons.mpr ⟨fun r hr => ?_, h⟩
      rcases List.mem_cons.mp hr with rfl | hr
      · exact hle
      · exact Nat.le_trans hle (hfirst r hr)
    · rename_i hle
      refine List.pairwise_cons.mpr ⟨fun r hr => ?_, ih hrest⟩
      rcases (List.mem_orderedInsert _).mp hr with rfl | hr
      · exact Nat.le_of_not_le hle
      · exact hfirst r hr

/-- **One piece of the stream.** -/
theorem Ok.offer (h : a.Ok S room) (hof : pc.Of S) : (a.offer room pc).Ok S room := by
  rw [Assembler.offer]
  split
  · exact h
  rename_i hnew
  rw [not_or] at hnew
  split
  · rename_i hstart
    rw [h.output, hof.take_append hstart (by omega)]
    exact drain_ok h.sorted h.cut h.size_le (hof.stop_le hnew.1)
  split
  · exact h
  · rename_i hstart hroom
    refine { h with sorted := pairwise_orderedInsert h.sorted pc, ahead := ?_, cut := ?_,
                    size_le := ?_ }
    · intro q hq
      rcases (List.mem_orderedInsert _).mp hq with rfl | hq
      · exact Nat.not_le.mp hstart
      · exact h.ahead q hq
    · intro q hq
      rcases (List.mem_orderedInsert _).mp hq with rfl | hq
      · exact ⟨hof, hnew.1⟩
      · exact h.cut q hq
    · rw [size_orderedInsert]
      exact Nat.not_lt.mp hroom

theorem offer_next_le (room : Nat) (a : Assembler α) (pc : Piece α) :
    a.next ≤ (a.offer room pc).next := by
  rw [Assembler.offer]
  split
  · exact Nat.le_refl _
  split
  · exact Nat.le_trans (by omega) (drain_next_le _ _ _)
  split <;> exact Nat.le_refl _

/-- A piece that is not dropped is held, with all that was. -/
theorem held_offer (hroom : ¬ a.Drops room pc) (i : Nat) :
    (a.offer room pc).Held i ↔ a.Held i ∨ pc.Covers i := by
  rw [Assembler.offer]
  split
  · rename_i hold
    rw [Held, Piece.Covers, Piece.stop]
    rw [Piece.stop] at hold
    have : pc.start ≤ i ∧ i < pc.start + pc.data.length → i < a.next := by omega
    tauto
  rename_i hnew
  rw [not_or] at hnew
  split
  · rw [held_drain, Held, Piece.Covers]
    have : i < a.next → i < pc.stop := fun h => by omega
    have : i < a.next ∨ pc.start ≤ i := by omega
    tauto
  split
  · rename_i hstart hfull
    exact absurd ⟨hnew.1, Nat.not_le.mp hstart, hfull⟩ hroom
  · rw [Held, Held, Covered, Covered]
    simp only [List.mem_orderedInsert, exists_eq_or_imp]
    rw [or_assoc]
    exact or_congr_right or_comm

/-! ## Any sequence of pieces -/

/-- No piece of the sequence is dropped. -/
def Roomy (room : Nat) : Assembler α → List (Piece α) → Prop
  | _, [] => True
  | a, pc :: ps => ¬ a.Drops room pc ∧ Roomy room (a.offer room pc) ps

theorem Ok.offers (h : a.Ok S room) (hof : ∀ pc ∈ ps, pc.Of S) :
    (ps.foldl (Assembler.offer room) a).Ok S room := by
  induction ps generalizing a with
  | nil => exact h
  | cons pc ps ih =>
    obtain ⟨hfirst, hrest⟩ := List.forall_mem_cons.mp hof
    exact ih (h.offer hfirst) hrest

theorem offers_next_le (room : Nat) (a : Assembler α) (ps : List (Piece α)) :
    a.next ≤ (ps.foldl (Assembler.offer room) a).next := by
  induction ps generalizing a with
  | nil => exact Nat.le_refl _
  | cons pc ps ih => exact Nat.le_trans (offer_next_le room a pc) (ih _)

theorem held_offers (hroom : Roomy room a ps) (i : Nat) :
    (ps.foldl (Assembler.offer room) a).Held i ↔ a.Held i ∨ Covered ps i := by
  induction ps generalizing a with
  | nil => simp [Covered]
  | cons pc ps ih => rw [List.foldl_cons, ih hroom.2, held_offer hroom.1, covered_cons, or_assoc]

/-- **The output ends where the pieces leave the first gap**, if none was dropped. -/
theorem offers_next (hof : ∀ pc ∈ ps, pc.Of S) (hroom : Roomy room {} ps) :
    (∀ i < (ps.foldl (Assembler.offer room) {}).next, Covered ps i) ∧
      ¬ Covered ps (ps.foldl (Assembler.offer room) {}).next := by
  have hheld (i : Nat) : (ps.foldl (Assembler.offer room) {}).Held i ↔ Covered ps i := by
    rw [held_offers hroom]
    simp [Held, Covered]
  refine ⟨fun i hi => (hheld i).mp (Or.inl hi), fun hcov => ?_⟩
  exact ((Ok.init S room).offers hof).not_held_next ((hheld _).mpr hcov)

/-! ## Longer streams -/

theorem Ok.extend {S' : List α} (h : a.Ok S room) (hle : S <+: S') : a.Ok S' room := by
  refine { h with output := ?_, next_le := h.next_le.trans hle.length_le, cut := ?_ }
  · rw [h.output]
    obtain ⟨rest, rfl⟩ := hle
    exact (List.take_append_of_le_length h.next_le).symm
  · exact fun q hq => ⟨(h.cut q hq).1.trans (hle.drop _), (h.cut q hq).2⟩

end Assembler

/-! ## Streams of other items -/

section Map
variable {β : Type*} (f : α → β)

/-- The piece, item by item. -/
def Piece.map (pc : Piece α) : Piece β := ⟨pc.start, pc.data.map f⟩

@[simp] theorem Piece.map_start (pc : Piece α) : (pc.map f).start = pc.start := rfl

@[simp] theorem Piece.map_data (pc : Piece α) : (pc.map f).data = pc.data.map f := rfl

@[simp] theorem Piece.map_stop (pc : Piece α) : (pc.map f).stop = pc.stop := by
  rw [stop, stop, map_start, map_data, List.length_map]

theorem Piece.Of.map {S : List α} {pc : Piece α} (h : pc.Of S) : (pc.map f).Of (S.map f) := by
  rw [Of, map_data, map_start, ← List.map_drop]
  exact List.IsPrefix.map f h

/-- What is undone again. -/
theorem Piece.map_map_of_leftInverse {g : β → α} (hfg : Function.LeftInverse g f) (pc : Piece α) :
    (pc.map f).map g = pc := by
  show Piece.mk pc.start ((pc.data.map f).map g) = pc
  rw [List.map_map, hfg.comp_eq_id, List.map_id]

theorem size_map (ps : List (Piece α)) : size (ps.map (Piece.map f)) = size ps := by
  rw [size, size, List.map_map]
  refine congrArg List.sum (List.map_congr_left fun pc _ => ?_)
  exact List.length_map f

namespace Assembler

/-- The assembler, item by item. -/
def map (a : Assembler α) : Assembler β :=
  ⟨a.next, a.output.map f, a.pending.map (Piece.map f)⟩

theorem drain_map (ps : List (Piece α)) (n : Nat) (output : List α) :
    drain (ps.map (Piece.map f)) n (output.map f) = (drain ps n output).map f := by
  induction ps generalizing n output with
  | nil => rfl
  | cons pc rest ih =>
    rw [List.map_cons, drain, drain, Piece.map_start, Piece.map_stop, Piece.map_data]
    split
    · rfl
    split
    · exact ih n output
    · rw [← List.map_drop, ← List.map_append]
      exact ih pc.stop _

/-- **What is made of the items does not matter to the assembler.** -/
theorem offer_map (room : Nat) (a : Assembler α) (pc : Piece α) :
    (a.map f).offer room (pc.map f) = (a.offer room pc).map f := by
  rw [offer, offer, Piece.map_stop, Piece.map_data, Piece.map_start, List.length_map]
  show (if _ then _ else if _ then drain (a.pending.map (Piece.map f)) _ (a.output.map f ++ _)
    else if room < size (a.pending.map (Piece.map f)) + _ then _ else _) = _
  rw [size_map]
  show (if pc.data.length = 0 ∨ pc.stop ≤ a.next then _ else if pc.start ≤ a.next then _
    else if _ then _ else _) = _
  split
  · rfl
  split
  · rw [show (a.map f).next = a.next from rfl, ← List.map_drop, ← List.map_append]
    exact drain_map f _ _ _
  split
  · rfl
  · show Assembler.mk a.next (a.output.map f) _ = Assembler.mk a.next (a.output.map f) _
    congr 1
    exact (List.map_orderedInsert (·.start ≤ ·.start) (·.start ≤ ·.start) (Piece.map f) _ _
      (fun _ _ => Iff.rfl) fun _ _ => Iff.rfl).symm

theorem Ok.map {S : List α} {room : Nat} {a : Assembler α} (h : a.Ok S room) :
    (a.map f).Ok (S.map f) room := by
  refine { output := ?_, next_le := ?_, sorted := ?_, ahead := ?_, cut := ?_, size_le := ?_ }
  · show a.output.map f = _
    rw [h.output, List.map_take]
    rfl
  · rw [List.length_map]
    exact h.next_le
  · exact List.pairwise_map.mpr h.sorted
  · exact List.forall_mem_map.mpr h.ahead
  · refine List.forall_mem_map.mpr fun pc hpc => ⟨(h.cut pc hpc).1.map f, ?_⟩
    rw [Piece.map_data, List.length_map]
    exact (h.cut pc hpc).2
  · rw [show (a.map f).pending = a.pending.map (Piece.map f) from rfl, size_map]
    exact h.size_le

theorem map_map_of_leftInverse {g : β → α} (hfg : Function.LeftInverse g f) (a : Assembler α) :
    (a.map f).map g = a := by
  have hpieces : (a.pending.map (Piece.map f)).map (Piece.map g) = a.pending := by
    rw [List.map_map]
    refine (List.map_congr_left fun pc _ => ?_).trans (List.map_id _)
    exact Piece.map_map_of_leftInverse f hfg pc
  show Assembler.mk a.next ((a.output.map f).map g) ((a.pending.map (Piece.map f)).map _) = a
  rw [List.map_map, hfg.comp_eq_id, List.map_id, hpieces]

end Assembler
end Map

end Reassembly
