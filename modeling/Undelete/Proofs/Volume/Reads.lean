import Mathlib.Algebra.Ring.Nat
import Undelete.Proofs.History
import Undelete.Proofs.Volume.Cache

/-!
A source in use. It may be closed, opened again and moved in any order. A read depends on no more
of that than whether the source was opened since it was last closed, and where it was moved last.
The checks on 64-bit numbers refuse nothing that lies on the medium.
-/

namespace Undelete

/-- A call on a source. A read comes with the buffer that it fills. -/
inductive SourceCall where
  | close
  | reopen
  | setStart (lba : Nat)
  | read (sector : Nat) (buffer : Bytes)

namespace SourceCall

def start? : SourceCall → Option Nat
  | setStart lba => some lba
  | close | reopen | read .. => none

/-- Where sector 0 lies after some calls. -/
def lastStart (calls : List SourceCall) : Nat := (calls.filterMap start?).getLast?.getD 0

/-- Whether a source that was open is open after some calls. -/
def Opened (calls : List SourceCall) : Prop := Followed (· = .close) .reopen calls

theorem lastStart_append_setStart (calls : List SourceCall) (lba : Nat) :
    lastStart (calls ++ [.setStart lba]) = lba := by
  simp [lastStart, List.filterMap_append, start?]

end SourceCall

open SourceCall

/-- Whether a medium has these bytes and can be opened. -/
def Medium.Holds (image : Array UInt8) : Medium → Prop
  | memory bytes => bytes = image
  | file _ _ stored => stored = .ok image ∧ image.size ≠ 0

namespace Source

/-- What a call leaves of a source. One that cannot be opened again stays as it is. -/
def apply (source : Source) : SourceCall → Source
  | .close => source.close
  | .reopen => source.reopen.toOption.getD source
  | .setStart lba => source.setStart lba
  | .read .. => source

def after (source : Source) (calls : List SourceCall) : Source := calls.foldl apply source

/-- Whether a source reads an image while it is open. -/
structure Over (image : Array UInt8) (source : Source) : Prop where
  holds : source.medium.Holds image
  contents : ∀ bytes, source.contents = some bytes → bytes = image

variable {image : Array UInt8} {source : Source} {call : SourceCall} {calls : List SourceCall}
  {sector count : Nat}

theorem reopen_of_holds (holds : source.medium.Holds image) :
    source.reopen = .ok { source with contents := some image } := by
  obtain ⟨medium, size, start, contents⟩ := source
  cases medium with
  | memory bytes =>
    cases holds
    rfl
  | file path category stored =>
    obtain ⟨rfl, filled⟩ := holds
    exact if_neg filled

theorem apply_reopen (reads : source.Over image) :
    source.apply .reopen = { source with contents := some image } := by
  rw [apply, reopen_of_holds reads.holds]
  rfl

theorem Over.apply (reads : source.Over image) (call : SourceCall) :
    (source.apply call).Over image := by
  cases call with
  | close => exact ⟨reads.holds, nofun⟩
  | reopen =>
    rw [apply_reopen reads]
    exact ⟨reads.holds, fun _ same => (Option.some.inj same).symm⟩
  | setStart lba => exact ⟨reads.holds, reads.contents⟩
  | read sector buffer => exact reads

theorem Over.after (reads : source.Over image) (calls : List SourceCall) :
    (source.after calls).Over image := by
  induction calls generalizing source with
  | nil => exact reads
  | cons call rest ih => exact ih (reads.apply call)

theorem sectorSize_after (reads : source.Over image) (calls : List SourceCall) :
    (source.after calls).sectorSize = source.sectorSize := by
  induction calls generalizing source with
  | nil => rfl
  | cons call rest ih =>
    refine (ih (reads.apply call)).trans ?_
    cases call with
    | reopen => rw [apply_reopen reads]
    | close | setStart | read => rfl

theorem startLba_after (reads : source.Over image) (calls : List SourceCall) :
    (source.after calls).startLba =
      (calls.filterMap start?).getLast?.getD source.startLba := by
  induction calls generalizing source with
  | nil => rfl
  | cons call rest ih =>
    refine (ih (reads.apply call)).trans ?_
    cases call with
    | reopen => rw [apply_reopen reads]; rfl
    | close | read => rfl
    | setStart lba =>
      have first : start? (.setStart lba) = some lba := rfl
      rw [List.filterMap_cons_some first, List.getLast?_cons]
      rfl

theorem isOpen_after_iff (reads : source.Over image) (calls : List SourceCall) :
    (source.after calls).isOpen = true ↔
      (source.isOpen = true ∨ .reopen ∈ calls) ∧ Opened calls := by
  induction calls generalizing source with
  | nil => simp [after, Opened, followed_nil]
  | cons call rest ih =>
    refine (ih (reads.apply call)).trans ?_
    rw [Opened, Opened, followed_cons_iff]
    cases call with
    | close => simp +contextual [Source.apply, isOpen, close]
    | reopen => simp [apply_reopen reads, isOpen]
    | setStart | read => simp [Source.apply, isOpen, setStart]

/-- With sectors that are not empty, the checks come down to one sum over unbounded numbers. -/
theorem inRange_iff (positive : 1 ≤ source.sectorSize) (size sector count : Nat) :
    source.inRange size sector count = true ↔
      (source.startLba + sector) * source.sectorSize + count < 2 ^ 64 ∧
        (source.startLba + sector) * source.sectorSize + count ≤ size := by
  have position : source.startLba + sector ≤ (source.startLba + sector) * source.sectorSize :=
    Nat.le_mul_of_pos_right _ positive
  have limit : addressLimit = 2 ^ 64 := rfl
  simp only [inRange, Bool.and_eq_true, decide_eq_true_eq, limit]
  omega

theorem fill_ok {data buffer : Bytes} (answered : source.read sector buffer.length = .ok data) :
    source.fill sector buffer = (.ok (), data) := by
  change ((do set (← source.read sector buffer.length)) : ExceptT Failure (StateM Bytes) Unit)
    buffer = _
  rw [answered]
  rfl

theorem fill_error {failure : Failure} {buffer : Bytes}
    (failed : source.read sector buffer.length = .error failure) :
    source.fill sector buffer = (.error failure, buffer) := by
  change ((do set (← source.read sector buffer.length)) : ExceptT Failure (StateM Bytes) Unit)
    buffer = _
  rw [failed]
  rfl

/-- Where the bytes of a sector begin on the medium after some calls. -/
def offsetAfter (sectorSize : Nat) (calls : List SourceCall) (sector : Nat) : Nat :=
  (lastStart calls + sector) * sectorSize

/-- Whether a read can be answered after some calls, with unbounded numbers. -/
def Readable (image : Array UInt8) (sectorSize : Nat) (calls : List SourceCall)
    (sector count : Nat) : Prop :=
  Opened calls ∧ offsetAfter sectorSize calls sector + count < 2 ^ 64 ∧
    offsetAfter sectorSize calls sector + count ≤ image.size

/-- Whether a source over an image has just been opened. -/
structure New (image : Array UInt8) (sectorSize : Nat) (source : Source) : Prop where
  reads : source.Over image
  opened : source.isOpen = true
  startLba : source.startLba = 0
  sectorSize : source.sectorSize = sectorSize

theorem new_ofImage (image : Array UInt8) (sectorSize : Nat) :
    (ofImage image sectorSize).New image sectorSize :=
  ⟨⟨rfl, fun _ same => (Option.some.inj same).symm⟩, rfl, rfl, rfl⟩

theorem exists_new_openFile (drive : Drive) (filled : image.size ≠ 0) (sectorSize : Nat) :
    ∃ source, openFile drive (.ok image) sectorSize = .ok source ∧
      source.New image sectorSize := by
  let closed : Source := ⟨.file drive.path drive.category (.ok image), sectorSize, 0, none⟩
  have holds : closed.medium.Holds image := ⟨rfl, filled⟩
  refine ⟨_, reopen_of_holds holds, ⟨holds, ?_⟩, rfl, rfl, rfl⟩
  exact fun _ same => (Option.some.inj same).symm

variable {sectorSize : Nat}

theorem offset_after (new : source.New image sectorSize) (calls : List SourceCall) (sector : Nat) :
    ((source.after calls).startLba + sector) * (source.after calls).sectorSize =
      offsetAfter sectorSize calls sector := by
  rw [sectorSize_after new.reads, startLba_after new.reads, new.startLba, new.sectorSize]
  rfl

theorem isOpen_after_new_iff (new : source.New image sectorSize) (calls : List SourceCall) :
    (source.after calls).isOpen = true ↔ Opened calls := by
  rw [isOpen_after_iff new.reads]
  exact and_iff_right (.inl new.opened)

/-- After some calls a read gives the bytes where it was moved to, or names its sector. -/
theorem read_after (new : source.New image sectorSize) (positive : 1 ≤ sectorSize)
    (calls : List SourceCall) (sector count : Nat) :
    (Readable image sectorSize calls sector count ∧ (source.after calls).read sector count =
      .ok (Bytes.slice image.toList (offsetAfter sectorSize calls sector) count)) ∨
    (¬ Readable image sectorSize calls sector count ∧
      (source.after calls).read sector count = .error (.unreadableSector sector)) := by
  rw [read_eq_slice, offset_after new]
  have opened := isOpen_after_new_iff new calls
  cases contents : (source.after calls).contents with
  | none =>
    rw [isOpen, contents] at opened
    exact .inr ⟨fun readable => Bool.false_ne_true (opened.mpr readable.1), rfl⟩
  | some bytes =>
    cases (new.reads.after calls).contents bytes contents
    rw [isOpen, contents] at opened
    have size : 1 ≤ (source.after calls).sectorSize := by
      rw [sectorSize_after new.reads, new.sectorSize]
      exact positive
    have range := inRange_iff size image.size sector count
    rw [offset_after new] at range
    dsimp only
    split
    next inside => exact .inl ⟨⟨opened.mp rfl, range.mp inside⟩, rfl⟩
    next outside => exact .inr ⟨fun readable => outside (range.mpr readable.2), rfl⟩

theorem offsetAfter_setStart (sectorSize : Nat) (calls : List SourceCall) (base sector : Nat) :
    offsetAfter sectorSize (calls ++ [.setStart base]) sector = (base + sector) * sectorSize := by
  rw [offsetAfter, lastStart_append_setStart]

theorem readable_setStart_iff (image : Array UInt8) (sectorSize : Nat) (calls : List SourceCall)
    (base sector count : Nat) :
    Readable image sectorSize (calls ++ [.setStart base]) sector count ↔
      Readable image sectorSize (calls ++ [.setStart 0]) (base + sector) count := by
  have opened (lba : Nat) : Opened (calls ++ [.setStart lba]) ↔ Opened calls :=
    followed_concat_iff nofun nofun
  simp only [Readable, opened, offsetAfter_setStart, Nat.zero_add]

/-- Reads of a source over an image, whatever was done with it before. -/
structure Exact (image : Array UInt8) (sectorSize : Nat) (source : Source) : Prop where
  isOpen_iff : ∀ calls, (source.after calls).isOpen = true ↔ Opened calls
  ok_iff : ∀ calls sector buffer, ((source.after calls).fill sector buffer).1 = .ok () ↔
    Readable image sectorSize calls sector buffer.length
  answered : ∀ calls sector buffer, Readable image sectorSize calls sector buffer.length →
    ((source.after calls).fill sector buffer).2 =
      Bytes.slice image.toList (offsetAfter sectorSize calls sector) buffer.length
  /-- A read that fails names its sector and leaves the buffer alone. -/
  refused : ∀ calls sector buffer, ¬ Readable image sectorSize calls sector buffer.length →
    (source.after calls).fill sector buffer = (.error (.unreadableSector sector), buffer)
  /-- Sectors count from where the source was moved last. -/
  moved : ∀ calls base sector buffer,
    let relative := (source.after (calls ++ [.setStart base])).fill sector buffer
    let absolute := (source.after (calls ++ [.setStart 0])).fill (base + sector) buffer
    relative.1.isOk = absolute.1.isOk ∧ relative.2 = absolute.2

theorem exact_of_new (new : source.New image sectorSize) (positive : 1 ≤ sectorSize) :
    source.Exact image sectorSize where
  isOpen_iff calls := isOpen_after_new_iff new calls
  ok_iff calls sector buffer := by
    rcases read_after new positive calls sector buffer.length with ⟨readable, read⟩ | ⟨not, read⟩
    · rw [fill_ok read]
      exact iff_of_true rfl readable
    · rw [fill_error read]
      exact iff_of_false nofun not
  answered calls sector buffer readable := by
    rcases read_after new positive calls sector buffer.length with ⟨-, read⟩ | ⟨not, -⟩
    · rw [fill_ok read]
    · exact absurd readable not
  refused calls sector buffer unreadable := by
    rcases read_after new positive calls sector buffer.length with ⟨readable, -⟩ | ⟨-, read⟩
    · exact absurd readable unreadable
    · exact fill_error read
  moved calls base sector buffer := by
    have same := readable_setStart_iff image sectorSize calls base sector buffer.length
    rcases read_after new positive (calls ++ [.setStart base]) sector buffer.length with
      ⟨readable, read⟩ | ⟨unreadable, read⟩
    · rcases read_after new positive (calls ++ [.setStart 0]) (base + sector) buffer.length with
        ⟨-, other⟩ | ⟨not, -⟩
      · rw [offsetAfter_setStart] at read other
        rw [fill_ok read, fill_ok other, Nat.zero_add]
        exact ⟨rfl, rfl⟩
      · exact absurd (same.mp readable) not
    · rcases read_after new positive (calls ++ [.setStart 0]) (base + sector) buffer.length with
        ⟨also, -⟩ | ⟨-, other⟩
      · exact absurd (same.mpr also) unreadable
      · rw [fill_error read, fill_error other]
        exact ⟨rfl, rfl⟩

/-- Reads are exact over any history, for memory and for a file that is not empty and stays as it
is. -/
theorem reads_exact (image : Array UInt8) {sectorSize : Nat} (positive : 1 ≤ sectorSize) :
    (ofImage image sectorSize).Exact image sectorSize ∧
      (image.size ≠ 0 → ∀ drive, ∃ source, openFile drive (.ok image) sectorSize = .ok source ∧
        source.Exact image sectorSize) := by
  refine ⟨exact_of_new (new_ofImage image sectorSize) positive, fun filled drive => ?_⟩
  obtain ⟨source, opened, new⟩ := exists_new_openFile drive filled sectorSize
  exact ⟨source, opened, exact_of_new new positive⟩

/-- Four sectors of two bytes. A source that was moved while it was closed reads from there, a file
that is closed refuses, and so does a sector whose place is not a 64-bit number. -/
theorem reads_exact_small :
    let image : Array UInt8 := #[0, 1, 2, 3, 4, 5, 6, 7]
    1 ≤ 2 ∧ image.size ≠ 0 ∧
      ((ofImage image 2).after [.close, .setStart 1, .read 0 [9], .reopen]).fill 2 [9, 9] =
        (.ok (), [6, 7]) ∧
      ((ofImage image 2).after [.setStart (2 ^ 63)]).fill (2 ^ 63) [9] =
        (.error (.unreadableSector (2 ^ 63)), [9]) ∧
      ∃ source, openFile (Drive.image "disk" .logical) (.ok image) 2 = .ok source ∧
        (source.after [.reopen, .setStart 1, .close]).fill 0 [9] =
          (.error (.unreadableSector 0), [9]) := by
  intro image
  obtain ⟨memory, file⟩ := reads_exact image (show 1 ≤ 2 by decide)
  have readable : Readable image 2 [.close, .setStart 1, .read 0 [9], .reopen] 2 2 := by
    refine ⟨?_, by decide, by decide⟩
    simp [Opened, followed_cons_iff, followed_nil]
  refine ⟨by decide, by decide, ?_, ?_, ?_⟩
  · exact Prod.ext ((memory.ok_iff _ 2 [9, 9]).mpr readable) (memory.answered _ 2 [9, 9] readable)
  · refine memory.refused _ _ _ ?_
    rintro ⟨-, addressed, -⟩
    exact absurd addressed (by decide)
  · obtain ⟨source, opened, exact⟩ := file (by decide) (Drive.image "disk" .logical)
    refine ⟨source, opened, exact.refused _ _ _ ?_⟩
    rintro ⟨closed, -⟩
    simp [Opened, followed_cons_iff] at closed

end Source

end Undelete
