import Mathlib.Data.List.GetD
import Undelete.Bytes

/-!
Reading back what was put together. A slice of a concatenation lies in one of its parts, equal
pieces come apart again where they were joined, and numbers of two bytes are read as they were
written.
-/

namespace Undelete.Bytes

section

variable {first second data : Bytes} {offset count size : Nat}

theorem slice_append_left (inside : offset + count ≤ first.length) :
    slice (first ++ second) offset count = slice first offset count := by
  rw [slice, slice, List.drop_append_of_le_length (by omega),
    List.take_append_of_le_length (by rw [List.length_drop]; omega)]

theorem slice_append_right (behind : first.length ≤ offset) :
    slice (first ++ second) offset count = slice second (offset - first.length) count := by
  rw [slice, slice, List.drop_append, List.drop_eq_nil_of_le behind, List.nil_append]

theorem slice_of_length (whole : data.length = count) : slice data 0 count = data := by
  rw [slice, List.drop_zero, List.take_of_length_le (by omega)]

/-- The part in front is read whole. -/
theorem slice_append_of_length (whole : first.length = count) :
    slice (first ++ second) 0 count = first := by
  rw [slice_append_left (by omega), slice_of_length whole]

theorem slice_add (data : Bytes) (offset count more : Nat) :
    slice data offset (count + more) =
      slice data offset count ++ slice data (offset + count) more := by
  rw [slice, List.take_add, List.drop_drop]
  rfl

theorem byteAt_append_right (behind : first.length ≤ offset) :
    byteAt (first ++ second) offset = byteAt second (offset - first.length) := by
  rw [byteAt, byteAt, List.getD_append_right _ _ _ _ behind]

/-- A number is read back when it fits. -/
theorem littleEndian_ofNat_of_lt {width value : Nat} (fits : value < limit width) :
    littleEndian (ofNat width value) = value := by
  rw [littleEndian_ofNat, Nat.mod_eq_of_lt fits]

theorem pieces_flatten {parts : List Bytes} (equal : ∀ part ∈ parts, part.length = size)
    (rest : Bytes) : pieces size parts.length (parts.flatten ++ rest) = parts := by
  induction parts with
  | nil => rfl
  | cons part parts ih =>
    have long := equal part List.mem_cons_self
    rw [List.flatten_cons, List.append_assoc, List.length_cons, pieces,
      List.take_left' long, List.drop_left' long,
      ih fun other member => equal other (List.mem_cons_of_mem _ member)]

theorem length_flatten {parts : List Bytes} (equal : ∀ part ∈ parts, part.length = size) :
    parts.flatten.length = size * parts.length := by
  induction parts with
  | nil => rfl
  | cons part parts ih =>
    rw [List.flatten_cons, List.length_append, equal part List.mem_cons_self,
      ih fun other member => equal other (List.mem_cons_of_mem _ member), List.length_cons,
      Nat.mul_succ, Nat.add_comm]

theorem length_pieces (size count : Nat) (data : Bytes) :
    (pieces size count data).length = count := by
  induction count generalizing data with
  | zero => rfl
  | succ count ih => rw [pieces, List.length_cons, ih]

/-- Data that is cut without a remainder is the concatenation of its pieces. -/
theorem flatten_pieces (whole : data.length = size * count) :
    (pieces size count data).flatten = data := by
  induction count generalizing data with
  | zero => exact (List.length_eq_zero_iff.mp whole).symm
  | succ count ih =>
    rw [Nat.mul_succ] at whole
    have rest : (data.drop size).length = size * count := by rw [List.length_drop]; omega
    rw [pieces, List.flatten_cons, ih rest, List.take_append_drop]

theorem length_of_mem_pieces {piece : Bytes} (whole : data.length = size * count)
    (member : piece ∈ pieces size count data) : piece.length = size := by
  induction count generalizing data with
  | zero => cases member
  | succ count ih =>
    rw [Nat.mul_succ] at whole
    have rest : (data.drop size).length = size * count := by rw [List.length_drop]; omega
    rcases List.mem_cons.mp member with rfl | later
    · rw [List.length_take]
      omega
    · exact ih rest later

theorem pieces_append (long : size * count ≤ first.length) :
    pieces size count (first ++ second) = pieces size count first := by
  induction count generalizing first with
  | zero => rfl
  | succ count ih =>
    rw [Nat.mul_succ] at long
    have rest : size * count ≤ (first.drop size).length := by rw [List.length_drop]; omega
    rw [pieces, pieces, List.take_append_of_le_length (by omega),
      List.drop_append_of_le_length (by omega), ih rest]

theorem pieces_add (size count more : Nat) (data : Bytes) :
    pieces size (count + more) data =
      pieces size count data ++ pieces size more (data.drop (size * count)) := by
  induction count generalizing data with
  | zero => simp [pieces]
  | succ count ih =>
    rw [Nat.succ_add, pieces, pieces, ih, List.drop_drop, Nat.mul_succ, Nat.add_comm size,
      List.cons_append]

theorem take_pieces {whole : Nat} (inside : count ≤ whole) (data : Bytes) :
    (pieces size whole data).take count = pieces size count data := by
  obtain ⟨more, rfl⟩ := Nat.exists_eq_add_of_le inside
  rw [pieces_add, List.take_left' (length_pieces size count data)]

/-- Parts cut one by one give the pieces of what they make together. -/
theorem flatMap_pieces {parts : List Bytes} (full : ∀ part ∈ parts, part.length = size * count) :
    parts.flatMap (pieces size count) = pieces size (count * parts.length) parts.flatten := by
  induction parts with
  | nil => rfl
  | cons part parts ih =>
    have here := full part List.mem_cons_self
    have later := ih fun other member => full other (List.mem_cons_of_mem _ member)
    rw [List.flatMap_cons, later, List.length_cons, Nat.mul_succ, Nat.add_comm, pieces_add,
      List.flatten_cons, pieces_append (Nat.le_of_eq here.symm), List.drop_left' here]

/-- Consecutive slices of one width make one slice. -/
theorem flatten_slices (data : Bytes) (offset width count : Nat) :
    ((List.range count).map fun index => slice data (offset + index * width) width).flatten =
      slice data offset (count * width) := by
  induction count with
  | zero => simp [slice]
  | succ count ih =>
    rw [List.range_succ, List.map_append, List.flatten_append, ih, Nat.succ_mul, slice_add]
    simp

end

/-- The units of a list of numbers below 65536, with other bytes behind it. -/
theorem units_flatMap_append {numbers : List Nat} (small : ∀ number ∈ numbers, number < 0x10000)
    (rest : Bytes) : units (numbers.flatMap (ofNat 2) ++ rest) = numbers ++ units rest := by
  induction numbers with
  | nil => rfl
  | cons number numbers ih =>
    have here := small number List.mem_cons_self
    have value : number % 256 + 256 * (number / 256 % 256) = number := by omega
    have later := ih fun other member => small other (List.mem_cons_of_mem _ member)
    calc units ((number :: numbers).flatMap (ofNat 2) ++ rest)
        = units (UInt8.ofNat number :: UInt8.ofNat (number / 256) ::
            (numbers.flatMap (ofNat 2) ++ rest)) := rfl
      _ = number :: numbers ++ units rest := by
          simp only [units, UInt8.toNat_ofNat', value, later, List.cons_append]

theorem units_flatMap_ofNat {numbers : List Nat} (small : ∀ number ∈ numbers, number < 0x10000) :
    units (numbers.flatMap (ofNat 2)) = numbers := by
  have whole := units_flatMap_append small []
  have nothing : units [] = [] := rfl
  rwa [nothing, List.append_nil, List.append_nil] at whole

theorem units_take (data : Bytes) (count : Nat) :
    units (data.take (2 * count)) = (units data).take count := by
  induction data using units.induct generalizing count with
  | case1 low high rest ih =>
    cases count with
    | zero => rfl
    | succ count =>
      rw [Nat.mul_succ, List.take_succ_cons, List.take_succ_cons, units, units, ih,
        List.take_succ_cons]
  | case2 data short =>
    have shorter : ∀ low high rest, data.take (2 * count) ≠ low :: high :: rest := by
      intro low high rest same
      match data, short with
      | [], _ => simp at same
      | [_], _ =>
        have longer := congrArg List.length same
        simp only [List.length_take, List.length_cons, List.length_nil] at longer
        omega
      | low :: high :: rest, short => exact short low high rest rfl
    rw [units.eq_2 _ short, units.eq_2 _ shorter, List.take_nil]

theorem length_flatMap_ofNat (width : Nat) (numbers : List Nat) :
    (numbers.flatMap (ofNat width)).length = width * numbers.length := by
  have equal : ∀ part ∈ numbers.map (ofNat width), part.length = width := by
    intro part member
    obtain ⟨number, -, rfl⟩ := List.mem_map.mp member
    exact length_ofNat width number
  rw [List.flatMap_def, length_flatten equal, List.length_map]

end Undelete.Bytes
