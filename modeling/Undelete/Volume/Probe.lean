import Undelete.Volume.Fat

/-!
A probe is a piece of work that needs to look at a volume: it asks for FAT entries and for runs
of sectors, and goes on with the answers. What a probe asks for can be stated for all answers,
and running one against a source with a FAT table gives its result.
-/

namespace Undelete

inductive Probe (α : Type) where
  | done (value : α)
  | lookup (cluster : Nat) (next : Except Failure FatEntry → Probe α)
  | read (sector count : Nat) (next : Except Failure Bytes → Probe α)

namespace Probe

variable {α β : Type}

def bind : Probe α → (α → Probe β) → Probe β
  | done value, f => f value
  | lookup cluster next, f => lookup cluster fun answer => (next answer).bind f
  | read sector count next, f => read sector count fun answer => (next answer).bind f

instance : Monad Probe where
  pure := done
  bind := bind

/-- Ask for the FAT entry of a cluster. -/
def entryOf (cluster : Nat) : Probe (Except Failure FatEntry) := lookup cluster done

/-- Ask for `count` bytes from the start of `sector` on. -/
def bytesAt (sector count : Nat) : Probe (Except Failure Bytes) := read sector count done

/-- The result, the table afterwards, and the sectors read, newest first, before `log`. -/
def run (source : Source) : Probe α → FatTable → List (Nat × Nat) → α × FatTable × List (Nat × Nat)
  | done value, table, log => (value, table, log)
  | lookup cluster next, table, log =>
    let (answer, later, reads) := table.rawEntry source cluster
    run source (next (answer.map FatEntry.ofRaw)) later (reads ++ log)
  | read sector count next, table, log =>
    run source (next (source.read sector count)) table ((sector, count) :: log)

/-- The result when lookups and reads are answered by functions. -/
def eval (fat : Nat → Except Failure FatEntry) (data : Nat → Nat → Except Failure Bytes) :
    Probe α → α
  | done value => value
  | lookup cluster next => eval fat data (next (fat cluster))
  | read sector count next => eval fat data (next (data sector count))

@[simp] theorem eval_pure (fat : Nat → Except Failure FatEntry)
    (data : Nat → Nat → Except Failure Bytes) (value : α) :
    eval fat data (pure value : Probe α) = value := rfl

@[simp] theorem eval_entryOf (fat : Nat → Except Failure FatEntry)
    (data : Nat → Nat → Except Failure Bytes) (cluster : Nat) :
    eval fat data (entryOf cluster) = fat cluster := rfl

@[simp] theorem eval_bytesAt (fat : Nat → Except Failure FatEntry)
    (data : Nat → Nat → Except Failure Bytes) (sector count : Nat) :
    eval fat data (bytesAt sector count) = data sector count := rfl

@[simp] theorem eval_bind (fat : Nat → Except Failure FatEntry)
    (data : Nat → Nat → Except Failure Bytes) (probe : Probe α) (f : α → Probe β) :
    eval fat data (probe >>= f) = eval fat data (f (eval fat data probe)) := by
  induction probe with
  | done value => rfl
  | lookup cluster next ih => exact ih (fat cluster)
  | read sector count next ih => exact ih (data sector count)

end Probe

end Undelete
