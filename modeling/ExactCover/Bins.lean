/-!
# Bins

Values sorted into numbered bins. Each bin keeps its values in the order in which they came
(`getElem?_collect`), and sorting moves every value for which there is a bin to one place
(`flatMap_valuesFor_perm`).
-/

namespace ExactCover.Bins

variable {α : Type}

/-- The bins with the pairs of a list put in; a pair holds the number of its bin and its value. A
pair whose bin does not exist is left out. -/
def putAll (bins : Array (Array α)) (xs : List (Nat × α)) : Array (Array α) :=
  xs.foldl (fun bins (b, x) => bins.modify b (·.push x)) bins

/-- The values of the pairs, sorted into `n` bins. -/
def collect (n : Nat) (xs : List (Nat × α)) : Array (Array α) :=
  putAll (Array.replicate n #[]) xs

/-- The values that a list of pairs sends to a bin, in order. -/
def valuesFor (b : Nat) (xs : List (Nat × α)) : List α :=
  (xs.filter (·.1 == b)).map (·.2)

/-- Putting values in makes no new bins. -/
theorem size_putAll (bins : Array (Array α)) (xs : List (Nat × α)) :
    (putAll bins xs).size = bins.size := by
  induction xs generalizing bins with
  | nil => rfl
  | cons x xs ih => exact (ih (bins.modify x.1 (·.push x.2))).trans (by simp)

/-- A bin gets the values sent to it behind those that it has. -/
theorem getElem?_putAll (bins : Array (Array α)) (xs : List (Nat × α)) (b : Nat) :
    (putAll bins xs)[b]? = bins[b]?.map (· ++ (valuesFor b xs).toArray) := by
  induction xs generalizing bins with
  | nil => cases h : bins[b]? <;> simp [putAll, valuesFor, h]
  | cons x xs ih =>
    refine (ih (bins.modify x.1 (·.push x.2))).trans ?_
    rw [Array.getElem?_modify]
    by_cases hx : x.1 = b
    · cases bins[b]? <;> simp [valuesFor, hx]
    · simp [valuesFor, hx]

/-- There are as many bins as asked for, used or not. -/
theorem size_collect (n : Nat) (xs : List (Nat × α)) : (collect n xs).size = n := by
  simp [collect, size_putAll]

/-- A bin holds the values sent to it, in order. -/
theorem getElem?_collect {n b : Nat} (h : b < n) (xs : List (Nat × α)) :
    (collect n xs)[b]? = some (valuesFor b xs).toArray := by
  simp [collect, getElem?_putAll, h]

/-- The bins in order, each with the values sent to it. -/
theorem toList_collect (n : Nat) (xs : List (Nat × α)) :
    (collect n xs).toList = (List.range n).map fun b => (valuesFor b xs).toArray := by
  apply List.ext_getElem
  · simp [size_collect]
  · intro b hb _
    have hb : b < n := by simpa [size_collect] using hb
    obtain ⟨_, values⟩ := Array.getElem?_eq_some_iff.mp (getElem?_collect hb xs)
    simp [values]

/-- Sorting into bins loses and repeats nothing that there is a bin for. -/
theorem flatMap_valuesFor_perm (xs : List (Nat × α)) (n : Nat) :
    ((List.range n).flatMap fun b => valuesFor b xs).Perm
      ((xs.filter (·.1 < n)).map Prod.snd) := by
  induction n with
  | zero => simp
  | succ n ih =>
    have before : ∀ x : Nat × α, (decide (x.1 < n) && decide (x.1 < n + 1)) = decide (x.1 < n) := by
      intro x
      rw [← Bool.decide_and, decide_eq_decide]
      omega
    have last : ∀ x : Nat × α, (!decide (x.1 < n) && decide (x.1 < n + 1)) = (x.1 == n) := by
      intro x
      rw [← decide_not, ← Bool.decide_and, Bool.beq_eq_decide_eq, decide_eq_decide]
      omega
    have split := List.filter_append_perm (·.1 < n) (xs.filter (·.1 < n + 1))
    simp only [List.filter_filter, before, last] at split
    rw [List.range_succ, List.flatMap_append, List.flatMap_singleton]
    refine (ih.append_right _).trans ?_
    rw [valuesFor, ← List.map_append]
    exact split.map Prod.snd

end ExactCover.Bins
