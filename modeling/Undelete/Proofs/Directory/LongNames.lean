import Undelete.Proofs.Directory.Encoding
import Undelete.Proofs.Text.Marked

/-!
Long names as they are read back from their slots. A name comes back unless its bytes begin like a
byte-order mark, and with such bytes none does.
-/

namespace Undelete.NameFragment

open Text

theorem dropEndWhile_prefix (p : Char → Bool) (text : List Char) :
    dropEndWhile p text <+: text := by
  rw [← List.reverse_suffix, dropEndWhile, List.reverse_reverse]
  exact List.dropWhile_suffix _

/-- The slots of a name hold its fragments. -/
theorem map_decode_encode (checksum : UInt8) {name : List Char}
    (short : (Utf16.encode name).length ≤ 255) :
    (split checksum name).map (fun fragment => decode fragment.encode) = split checksum name := by
  conv_rhs => rw [← List.map_id (split checksum name)]
  refine List.map_congr_left fun fragment member => ?_
  exact decode_encode (of_mem_split (needed_le short) member).2.1

/-- The slots of a name give it back exactly if its bytes do not begin like a byte-order mark. -/
theorem assemble_slots_iff (checksum : UInt8) {name : List Char}
    (filled : 1 ≤ (Utf16.encode name).length) (short : (Utf16.encode name).length ≤ 255)
    (terminated : '\x00' ∉ name) (unpadded : '\uFFFF' ∉ name) :
    assemble ((split checksum name).map fun fragment => decode fragment.encode) =
        some (String.ofList name) ↔ ¬ Utf16.IsMarked (Utf16.bytes name) := by
  have named : name ≠ [] := by
    rintro rfl
    exact absurd filled (by decide)
  rw [map_decode_encode checksum short]
  constructor
  · intro same marked
    rw [assemble, flatMap_text_split, decodeTerminated_paddedName terminated] at same
    split at same
    · cases same
    · have shown := String.ofList_inj.mp (Option.some.inj same)
      have whole := dropEndWhile_prefix (· = '\uFFFF') (Utf16.decode (Utf16.bytes name))
      rw [shown] at whole
      exact Utf16.not_prefix_of_isMarked marked whole
  · intro unmarked
    exact assemble_split checksum ⟨named, short, terminated, unpadded, unmarked⟩

/-- A name of fourteen units whose last character lies half in one slot and half in another. -/
def halved : List Char := List.replicate 12 'a' ++ ['😀']

theorem assemble_slots_halved :
    1 ≤ (Utf16.encode halved).length ∧ (Utf16.encode halved).length ≤ 255 ∧
      '\x00' ∉ halved ∧ '\uFFFF' ∉ halved ∧ ¬ Utf16.IsMarked (Utf16.bytes halved) ∧
      assemble ((split 0x5A halved).map fun fragment => decode fragment.encode) =
        some (String.ofList halved) := by
  have filled : 1 ≤ (Utf16.encode halved).length := by decide
  have short : (Utf16.encode halved).length ≤ 255 := by decide
  have terminated : '\x00' ∉ halved := by decide
  have unpadded : '\uFFFF' ∉ halved := by decide
  have unmarked : ¬ Utf16.IsMarked (Utf16.bytes halved) := by decide +kernel
  exact ⟨filled, short, terminated, unpadded, unmarked,
    (assemble_slots_iff 0x5A filled short terminated unpadded).mpr unmarked⟩

/-- Two Hangul syllables. Three of their four bytes announce UTF-8, and the fourth is none. -/
def syllables : List Char := ['\uBBEF', '\uACBF']

theorem assemble_slots_syllables :
    (Utf16.encode syllables).length = 2 ∧ '\x00' ∉ syllables ∧ '\uFFFF' ∉ syllables ∧
      assemble ((split 0 syllables).map fun fragment => decode fragment.encode) =
        some (String.ofList ['\uFFFD']) ∧
      String.ofList ['\uFFFD'] ≠ String.ofList syllables := by
  refine ⟨by decide, by decide, by decide, ?_, ?_⟩
  · decide +kernel
  · rw [ne_eq, String.ofList_inj]
    decide

end Undelete.NameFragment
