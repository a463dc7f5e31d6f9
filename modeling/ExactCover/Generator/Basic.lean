import ExactCover.Bins
import ExactCover.Random.Draw

/-!
# Random instances

A generated family has a number of random subsets for each element of the ground set. Each is the
first part, of random size, of the elements in random order; the order is shuffled anew for each
subset from where the last shuffle left it. On request the blocks of a random partition of the
ground set are put in at random places, so that the family has an exact cover.
-/

namespace ExactCover.Generator

open ExactCover.Random

/-- What to generate. -/
structure Config where
  /-- The number of elements. -/
  groundSize : Nat := 5
  /-- How many random subsets there are for each element. -/
  multiplier : Nat := 1
  /-- Whether to put in a partition. -/
  guaranteed : Bool := false
  deriving DecidableEq, Repr

/-- A generated family; the elements of a subset are numbered from zero and ascend. -/
structure Generated where
  groundSize : Nat
  subsets : List (List Nat)
  deriving DecidableEq, Repr

/-- Why nothing is generated. -/
inductive Error where
  | emptyGroundSet
  /-- The number of subsets is no 64-bit number. -/
  | countOverflow
  /-- The elements or the subsets do not fit into the address space. -/
  | tooLarge
  /-- The elements or the subsets do not fit into the memory of the machine. -/
  | outOfMemory
  /-- A draw ran out of patience. -/
  | drawsExhausted
  deriving DecidableEq, Repr

/-- The error in words. -/
def Error.message : Error → String
  | emptyGroundSet => "the ground set needs at least one element"
  | countOverflow => "the number of subsets exceeds 64 bits"
  | tooLarge => "the instance does not fit into the address space"
  | outOfMemory => "the instance does not fit into memory"
  | drawsExhausted => "the random numbers were rejected too often"

/-- The greatest number of subsets that can be counted. -/
def maxCount : Nat := 18446744073709551615

/-- The number of random subsets. -/
def Config.count (c : Config) : Nat :=
  c.groundSize * c.multiplier

variable {σ : Type} [WordSource σ] (patience : Nat)

/-- The size of a random subset of `n` elements: at least one and, if possible, not all. -/
def subsetSize (n : Nat) : Draw σ Nat :=
  if n > 1 then do return (← below64 patience (n - 1)) + 1 else pure 1

/-- Adds random subsets to those drawn so far. -/
def randomSubsets : (count : Nat) → (elements : Array Nat) → (drawn : Array (List Nat)) →
    Draw σ (List (List Nat))
  | 0, _, drawn => pure drawn.toList
  | count + 1, elements, drawn => do
    let elements ← shuffle patience elements
    let size ← subsetSize patience elements.size
    let subset := (elements.toList.take size).mergeSort fun a b => decide (a ≤ b)
    randomSubsets count elements (drawn.push subset)

/-- The non-empty blocks of a random partition of `n` elements. -/
def randomPartition (n : Nat) : Draw σ (List (List Nat)) := do
  let assigned ← (List.range n).mapM fun e => do return (← below64 patience n, e)
  return ((Bins.collect n assigned).toList.map Array.toList).filter (!·.isEmpty)

/-- Puts each block at a random place among the subsets. -/
def insertBlocks (subsets : List (List Nat)) : List (List Nat) → Draw σ (List (List Nat))
  | [] => pure subsets
  | block :: blocks => do
    let gap ← below64 patience (subsets.length + 1)
    insertBlocks (subsets.insertIdx gap block) blocks

/-- The family of a configuration with a countable number of subsets. -/
def randomFamily (c : Config) : Draw σ (List (List Nat)) := do
  let subsets ← randomSubsets patience c.count (Array.range c.groundSize) #[]
  if c.guaranteed then
    insertBlocks patience subsets (← randomPartition patience c.groundSize)
  else
    return subsets

/-- Generates a family, and tells the state of the source after it. Nothing is drawn when the
configuration is refused. -/
def generate (c : Config) (s : σ) : Except Error (Generated × σ) :=
  if c.groundSize = 0 then .error .emptyGroundSet
  else if maxCount < c.count then .error .countOverflow
  else
    match (randomFamily patience c).run s with
    | some (subsets, s') => .ok (⟨c.groundSize, subsets⟩, s')
    | none => .error .drawsExhausted

/-- The bytes that a machine can spare for the elements or for the subsets. -/
def memory : Nat := 1 <<< 32

/-- Sets bytes aside. A block is refused that would take up half of the 64-bit address space, and
the process ends at once when the machine has too little memory. -/
def reserve (bytes : Nat) : Except Error Unit :=
  if 1 <<< 63 ≤ bytes then .error .tooLarge
  else if memory < bytes then .error .outOfMemory
  else .ok ()

/-- Generates a family within the memory of a machine. Each element takes 8 bytes, and then each
subset 24. -/
def generateInMemory (c : Config) (s : σ) : Except Error (Generated × σ) := do
  reserve (8 * c.groundSize)
  if c.count ≤ maxCount then
    reserve (24 * c.count)
  generate patience c s

end ExactCover.Generator
