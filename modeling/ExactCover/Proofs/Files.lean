import ExactCover.Proofs.Traversal
import ExactCover.System.FileTree

/-!
# Writing to a file tree

What a write does to the files. It puts the bytes at the end of the path, or hands them to a device
and leaves the tree alone (`write_cases`). A file that is put there does not lie on the way to itself,
so the same path still leads to it (`resolve_put`): unless a device took the bytes there is a file
(`isFile_of_write`), and reading gives the bytes back (`read_of_write`), while every other location is
as before (`exists_frame_of_write`).
-/

namespace ExactCover.FileTree

variable {t t' : FileTree} {path : String} {bytes : ByteArray} {target : Target}

/-! ## Paths -/

/-- What is put at a location lies there. -/
@[simp]
lemma node?_put (t : FileTree) (l : Location) (n : Node) : (t.put l n).node? l = some n :=
  if_pos rfl

/-- A walk does not pass the place where it ends, unless a directory is there. -/
lemma walk_put {names : List String} {l l' : Location} (h : t.walk l names = .ok l')
    (leaf : t.node? l' ≠ some .directory) (n : Node) : (t.put l' n).walk l names = .ok l' := by
  induction names generalizing l with
  | nil => exact h
  | cons name names ih =>
    rw [walk] at h
    split at h
    · cases h
    · cases h
    · cases h
    · rename_i here
      -- the walk stands in a directory, so this is not the place where it ends
      have apart : l ≠ l' := fun e => leaf (e ▸ here)
      have same : (t.put l' n).node? l = some .directory := (if_neg apart).trans here
      rw [walk, same]
      dsimp only
      split at h
      · cases h
      · rename_i short
        rw [if_neg short]
        exact ih h

/-- A path leads to the same place after something is put there, unless that was a directory. -/
lemma follow_put {names : List String} {l : Location} (h : t.follow path names = .ok l)
    (leaf : t.node? l ≠ some .directory) (n : Node) : (t.put l n).follow path names = .ok l := by
  unfold follow at h ⊢
  split at h
  · cases h
  · split at h
    · cases h
    · rename_i written short
      rw [if_neg written, if_neg short]
      exact walk_put h leaf n

/-- What is put where a path leads is found there. -/
lemma resolve_put (h : t.resolve path = .ok target)
    (leaf : t.node? target.location ≠ some .directory) (n : Node) :
    (t.put target.location n).resolve path = .ok target := by
  unfold resolve at h ⊢
  cases found : t.follow path (names path) with
  | error e =>
    rw [found] at h
    cases h
  | ok l =>
    rw [found] at h
    cases h
    rw [follow_put found leaf n]
    rfl

/-! ## Writing -/

/-- Where a path leads keeps in mind whether it ends in a slash. -/
lemma slash_of_resolve (h : t.resolve path = .ok target) : target.slash = endsInSlash path := by
  obtain ⟨l, _, rfl⟩ := Traversal.map_eq_ok_iff.mp h
  rfl

/-- Nothing is written to a path that ends in a slash. -/
lemma endsInSlash_of_write (h : t.write path bytes = .ok t') : endsInSlash path = false := by
  by_contra slash
  rw [Bool.not_eq_false] at slash
  rw [write, if_pos slash] at h
  obtain ⟨l, _, refused⟩ := Traversal.bind_eq_ok_iff.mp h
  cases refused

/-- A write that succeeds puts a file with the bytes where the path leads, unless a device is there,
which takes them. -/
lemma write_cases (h : t.write path bytes = .ok t') :
    ∃ target, t.resolve path = .ok target ∧
      ((∃ executable, target.slash = false ∧ t.node? target.location ≠ some .directory ∧
          (∀ kind, t.node? target.location ≠ some (.device kind)) ∧
          t' = t.put target.location (.file bytes executable)) ∨
        ∃ kind, t.node? target.location = some (.device kind) ∧ t' = t) := by
  have bare := endsInSlash_of_write h
  rw [write, if_neg (by rw [bare]; exact Bool.false_ne_true)] at h
  obtain ⟨target, resolved, rest⟩ := Traversal.bind_eq_ok_iff.mp h
  refine ⟨target, resolved, ?_⟩
  rw [← slash_of_resolve resolved] at bare
  cases node : t.node? target.location with
  | none =>
    rw [node] at rest
    cases rest
    exact .inl ⟨false, bare, nofun, nofun, rfl⟩
  | some n =>
    rw [node] at rest
    cases n with
    | directory => cases rest
    | file old executable =>
      cases rest
      exact .inl ⟨executable, bare, nofun, nofun, rfl⟩
    | device kind =>
      have kept : t' = t := by
        cases kind with
        | full => cases rest
        | disconnected => cases rest
        | swallows => cases rest; rfl
        | output => cases rest; rfl
        | errors => cases rest; rfl
      exact .inr ⟨kind, rfl, kept⟩

/-! ## What is there after a write -/

/-- If a path leads to a file after a write, no device took the bytes. -/
lemma put_of_isFile (h : t.write path bytes = .ok t') (isFile : t'.isFile path = true) :
    ∃ target executable, t.resolve path = .ok target ∧ t'.resolve path = .ok target ∧
      target.slash = false ∧ (∀ kind, t.node? target.location ≠ some (.device kind)) ∧
      t' = t.put target.location (.file bytes executable) := by
  obtain ⟨target, resolved, ⟨executable, bare, leaf, noDevice, rfl⟩ | ⟨kind, device, rfl⟩⟩ :=
    write_cases h
  · exact ⟨target, executable, resolved, resolve_put resolved leaf _, bare, noDevice, rfl⟩
  · rw [FileTree.isFile, resolved] at isFile
    dsimp only at isFile
    rw [device] at isFile
    cases isFile

/-- A write that succeeds leaves a file at the path, unless a device took the bytes. -/
lemma isFile_of_write (h : t.write path bytes = .ok t') (noDevice : t.device? path = none) :
    t'.isFile path = true := by
  obtain ⟨target, resolved, ⟨executable, bare, leaf, _, rfl⟩ | ⟨kind, device, rfl⟩⟩ := write_cases h
  · rw [FileTree.isFile, resolve_put resolved leaf]
    dsimp only
    rw [node?_put, bare]
    rfl
  · rw [device?, resolved] at noDevice
    dsimp only at noDevice
    rw [device] at noDevice
    cases noDevice

/-- A file that was written holds the bytes, whatever was there before. -/
lemma read_of_write (h : t.write path bytes = .ok t') (isFile : t'.isFile path = true) :
    t'.read path = .ok bytes := by
  obtain ⟨target, executable, _, resolved, bare, _, rfl⟩ := put_of_isFile h isFile
  rw [FileTree.read]
  refine Traversal.bind_eq_ok_iff.mpr ⟨target, resolved, ?_⟩
  rw [node?_put, bare]
  rfl

/-- A write changes nothing but what lies at the end of the path. -/
lemma exists_frame_of_write (h : t.write path bytes = .ok t') :
    ∃ target, t.resolve path = .ok target ∧
      ∀ l, l ≠ target.location → t'.node? l = t.node? l := by
  obtain ⟨target, resolved, ⟨executable, _, _, _, rfl⟩ | ⟨_, _, rfl⟩⟩ := write_cases h
  · exact ⟨target, resolved, fun l apart => if_neg apart⟩
  · exact ⟨target, resolved, fun l _ => rfl⟩

/-- Where a file is found after a write there was no device. -/
lemma device?_of_isFile (h : t.write path bytes = .ok t') (isFile : t'.isFile path = true) :
    t.device? path = none := by
  obtain ⟨target, _, resolved, _, _, noDevice, _⟩ := put_of_isFile h isFile
  rw [device?, resolved]
  dsimp only
  split
  · rename_i kind node
    exact absurd node (noDevice kind)
  · rfl

end ExactCover.FileTree
