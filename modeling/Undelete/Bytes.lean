/-!
Byte strings are lists. A field of a record is the little-endian number in a slice of it, and
`Bytes.ofNat` writes such a number back.
-/

namespace Undelete

abbrev Bytes := List UInt8

namespace Bytes

/-- At most `count` bytes from `offset` on. -/
def slice (data : Bytes) (offset count : Nat) : Bytes := (data.drop offset).take count

theorem length_slice (data : Bytes) (offset count : Nat) :
    (slice data offset count).length = min count (data.length - offset) := by
  simp [slice]

def littleEndian : Bytes → Nat
  | [] => 0
  | byte :: rest => byte.toNat + 256 * littleEndian rest

/-- How many numbers fit in `width` bytes. -/
def limit (width : Nat) : Nat := 1 <<< (8 * width)

theorem limit_succ (width : Nat) : limit (width + 1) = 256 * limit width := by
  simp only [limit, Nat.shiftLeft_eq, Nat.mul_add, Nat.pow_add]
  omega

theorem limit_le_limit {short long : Nat} (shorter : short ≤ long) : limit short ≤ limit long := by
  simp only [limit, Nat.shiftLeft_eq, Nat.one_mul]
  exact Nat.pow_le_pow_right (by decide) (by omega)

theorem littleEndian_lt (data : Bytes) : littleEndian data < limit data.length := by
  induction data with
  | nil => decide
  | cons byte rest ih =>
    have := byte.toNat_lt
    rw [littleEndian, List.length_cons, limit_succ]
    omega

/-- The number stored in `width` bytes at `offset`. -/
def field (data : Bytes) (offset width : Nat) : Nat := littleEndian (slice data offset width)

theorem field_lt (data : Bytes) (offset width : Nat) : field data offset width < limit width := by
  have stored := littleEndian_lt (slice data offset width)
  have short : (slice data offset width).length ≤ width := by rw [length_slice]; omega
  exact Nat.lt_of_lt_of_le stored (limit_le_limit short)

def byteAt (data : Bytes) (offset : Nat) : UInt8 := data.getD offset 0

/-- The `width` low bytes of a number, least significant first. -/
def ofNat : Nat → Nat → Bytes
  | 0, _ => []
  | width + 1, value => UInt8.ofNat value :: ofNat width (value / 256)

theorem length_ofNat (width value : Nat) : (ofNat width value).length = width := by
  induction width generalizing value with
  | zero => rfl
  | succ width ih => simp [ofNat, ih]

theorem littleEndian_ofNat (width value : Nat) :
    littleEndian (ofNat width value) = value % limit width := by
  induction width generalizing value with
  | zero => simp [ofNat, littleEndian, limit, Nat.mod_one]
  | succ width ih =>
    rw [ofNat, littleEndian, ih, UInt8.toNat_ofNat', limit_succ, Nat.mod_mul]

theorem ofNat_littleEndian (data : Bytes) : ofNat data.length (littleEndian data) = data := by
  induction data with
  | nil => rfl
  | cons byte rest ih =>
    have small := byte.toNat_lt
    have low : UInt8.ofNat (byte.toNat + 256 * littleEndian rest) = byte := by
      apply UInt8.toNat_inj.mp
      simp only [UInt8.toNat_ofNat']
      omega
    have high : (byte.toNat + 256 * littleEndian rest) / 256 = littleEndian rest := by omega
    simp only [List.length_cons, littleEndian, ofNat, low, high, ih]

/-- The first `count` pieces of `size` bytes each. -/
def pieces (size : Nat) : Nat → Bytes → List Bytes
  | 0, _ => []
  | count + 1, data => data.take size :: pieces size count (data.drop size)

/-- All whole pieces of `size` bytes; a shorter remainder is left out. -/
def chunks (size : Nat) (data : Bytes) : List Bytes := pieces size (data.length / size) data

/-- The unsigned 16-bit numbers of which the data consists; an odd last byte is left out. -/
def units : Bytes → List Nat
  | low :: high :: rest => (low.toNat + 256 * high.toNat) :: units rest
  | _ => []

def hexDigit (value : Nat) : Char := "0123456789abcdef".toList.getD value '0'

def hexByte (byte : UInt8) : List Char := [hexDigit (byte.toNat / 16), hexDigit (byte.toNat % 16)]

def hex (data : Bytes) : String := String.ofList (data.flatMap hexByte)

end Bytes

end Undelete
