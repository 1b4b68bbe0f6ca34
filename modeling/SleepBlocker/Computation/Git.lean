import Mathlib.Logic.Function.Basic
import Mathlib.Logic.Relation

/-!
# A git repository

Commits with their trees, tags, the index and the working tree, and the commands `add`,
`commit`, `tag`, `tag -d` and `reset --hard` where they succeed. Paths, contents and names
are arbitrary. `unwind_commit` says what is left of a commit and its tag that are taken back.
A `Lineage` is a history without merges, in which no commit comes twice.
-/

set_option autoImplicit false

namespace SleepBlocker.Computation.Git

/-- The files by path. -/
abbrev Tree (π α : Type) := π → Option α

/-- A commit: its parents, the tree it records, and its message. -/
inductive Commit (π α ν : Type) where
  | mk (parents : List (Commit π α ν)) (tree : Tree π α) (message : ν)

namespace Commit

variable {π α ν : Type}

/-- The parents of a commit. -/
def parents : Commit π α ν → List (Commit π α ν)
  | .mk parents _ _ => parents

/-- The tree that a commit records. -/
def tree : Commit π α ν → Tree π α
  | .mk _ tree _ => tree

/-- A commit is reached from a descendant by going from a commit to one of its parents. -/
def Ancestor : Commit π α ν → Commit π α ν → Prop := Relation.ReflTransGen fun p c => p ∈ c.parents

/-- Every commit is an ancestor of itself. -/
theorem Ancestor.refl (c : Commit π α ν) : Ancestor c c := Relation.ReflTransGen.refl

/-- Ancestors of ancestors are ancestors. -/
theorem Ancestor.trans {b c d : Commit π α ν} (h : Ancestor b c) (h' : Ancestor c d) :
    Ancestor b d := Relation.ReflTransGen.trans h h'

/-- A commit has its parent for an ancestor. -/
theorem ancestor_mk (c : Commit π α ν) (t : Tree π α) (message : ν) :
    Ancestor c (mk [c] t message) := Relation.ReflTransGen.single List.mem_cons_self

end Commit

/-- A repository: the commit that is checked out, the tags, the index and the working tree. -/
structure Repo (π α ν : Type) where
  head : Commit π α ν
  tags : ν → Option (Commit π α ν)
  index : Tree π α
  worktree : Tree π α

namespace Repo

variable {π α ν : Type}

/-- `git add`: the index takes these paths from the working tree. -/
def add [DecidableEq π] (r : Repo π α ν) (paths : List π) : Repo π α ν :=
  { r with index := fun p => if p ∈ paths then r.worktree p else r.index p }

/-- `git commit -m`: a child of `HEAD` with the index for its tree. -/
def commit (r : Repo π α ν) (message : ν) : Repo π α ν :=
  { r with head := .mk [r.head] r.index message }

/-- `git tag`. -/
def tag [DecidableEq ν] (r : Repo π α ν) (name : ν) : Repo π α ν :=
  { r with tags := Function.update r.tags name (some r.head) }

/-- `git tag -d`. -/
def deleteTag [DecidableEq ν] (r : Repo π α ν) (name : ν) : Repo π α ν :=
  { r with tags := Function.update r.tags name none }

/-- `git reset --hard`: the files that are tracked become those of the commit, and the others
stay unless one of the commit's takes their place. -/
def resetHard (r : Repo π α ν) (c : Commit π α ν) : Repo π α ν :=
  { r with
    head := c
    index := c.tree
    worktree := fun p =>
      match c.tree p with
      | some file => some file
      | none => if (r.index p).isSome then none else r.worktree p }

/-- `git reset --hard HEAD^`. -/
def resetParent (r : Repo π α ν) : Repo π α ν :=
  match r.head.parents with
  | [] => r
  | parent :: _ => r.resetHard parent

/-- A path that is added is in the index as it is in the working tree. -/
theorem add_index_of_mem [DecidableEq π] {r : Repo π α ν} {paths : List π} {p : π}
    (h : p ∈ paths) : (r.add paths).index p = r.worktree p :=
  if_pos h

/-- A path that is not added stays in the index as it was. -/
theorem add_index_of_notMem [DecidableEq π] {r : Repo π α ν} {paths : List π} {p : π}
    (h : p ∉ paths) : (r.add paths).index p = r.index p :=
  if_neg h

/-- A hard reset writes every file of the commit. -/
theorem resetHard_worktree {r : Repo π α ν} {c : Commit π α ν} {p : π} {file : α}
    (h : c.tree p = some file) : (r.resetHard c).worktree p = some file := by
  simp [resetHard, h]

/-- A commit and its new tag are taken back, after any changes of the working tree: the head
and the tags are as before, and the index and all that the old head tracks are those of the
old head. -/
theorem unwind_commit [DecidableEq ν] (r : Repo π α ν) (message name : ν) (w : Tree π α)
    (hname : r.tags name = none) :
    let r' := (({ ((r.commit message).tag name) with worktree := w } : Repo π α ν).deleteTag
      name).resetParent
    r'.head = r.head ∧ r'.tags = r.tags ∧ r'.index = r.head.tree ∧
      ∀ p file, r.head.tree p = some file → r'.worktree p = some file := by
  intro r'
  refine ⟨rfl, ?_, rfl, fun p file h => resetHard_worktree h⟩
  show Function.update (Function.update r.tags name _) name none = r.tags
  rw [Function.update_idem, ← hname, Function.update_eq_self]

end Repo

end SleepBlocker.Computation.Git
