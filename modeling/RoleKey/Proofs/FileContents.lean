import Mathlib.Tactic.SplitIfs
import RoleKey.Files.Directory

/-!
States of the files that differ in the content of one file.

Paths may lead to one file in many ways, so that a file with another content changes what is behind
all of them and behind no other (`DifferOnlyAt`). In a directory a name leads to the same place
whatever the content of a file, or to that file (`Directory.step_put`), and so do names one after
the other (`Directory.foldlM_put`). `Directory.differOnlyAt_put` says so of the directory with one
content of a file and with another.
-/

set_option autoImplicit false
set_option relaxedAutoImplicit false

namespace RoleKey

namespace Files

/-- States of the files that differ in what is behind one path at most: any other path leads to the
same in both, or to that very file. -/
def DifferOnlyAt (path : String) (files files' : Files) : Prop :=
  ∀ other, files other = files' other ∨ (files other = files path ∧ files' other = files' path)

namespace Directory

/-- A location has the same entry whatever the content of a file, or it is that of the file. -/
theorem entry?_put (d : Directory) (path : String) (content content' : Bytes)
    (location : Location) :
    entry? (d.put path content) location = entry? (d.put path content') location ∨
      ( entry? (d.put path content) location = some (.file content) ∧
        entry? (d.put path content') location = some (.file content')) := by
  by_cases hlocation : Location.ofPath path = location
  · have hfile (content : Bytes) :
        entry? (d.put path content) location = some (.file content) := by
      have hfound : (Location.ofPath path == location) = true := beq_iff_eq.mpr hlocation
      simp only [put, insert, entry?, List.find?_cons, hfound]
    exact Or.inr ⟨hfile content, hfile content'⟩
  · -- Whether an entry lies behind the location does not depend on the content either.
    have hother : (Location.ofPath path == location) = false := beq_eq_false_iff_ne.mpr hlocation
    refine Or.inl ?_
    simp only [put, insert, entry?, List.find?_cons, hother, List.any_cons]
    rfl

/-- The outcomes of following a path are the same, or files of the two contents. -/
def SameOrFile (content content' : Bytes) (outcome outcome' : Except ReadFault Place) : Prop :=
  outcome = outcome' ∨ (outcome = .ok (.atFile content) ∧ outcome' = .ok (.atFile content'))

/-- A name leads to the same place in both states, or to the file, or is refused in both. -/
theorem step_put (d : Directory) (path : String) (content content' : Bytes) (place : Place)
    (name : String) :
    SameOrFile content content' ((d.put path content).step place name)
      ((d.put path content').step place name) := by
  cases place with
  | atFile other => exact Or.inl rfl
  | above => exact Or.inl rfl
  | within location =>
    unfold step
    split_ifs
    · exact Or.inl rfl
    · exact Or.inl rfl
    · exact Or.inl rfl
    · dsimp only
      rcases entry?_put d path content content' (location ++ [name]) with hsame | ⟨h, h'⟩
      · rw [hsame]
        exact Or.inl rfl
      · rw [h, h']
        exact Or.inr ⟨rfl, rfl⟩

/-- Names one after the other lead to the same place in both states, or to the file, or are refused
in both. -/
theorem foldlM_put (d : Directory) (path : String) (content content' : Bytes)
    (names : List String) :
    ∀ place, SameOrFile content content' (names.foldlM (d.put path content).step place)
      (names.foldlM (d.put path content').step place) := by
  induction names with
  | nil => exact fun place ↦ Or.inl rfl
  | cons name names ih =>
    intro place
    rw [List.foldlM_cons, List.foldlM_cons]
    rcases step_put d path content content' place name with hsame | ⟨h, h'⟩
    · rw [hsame]
      cases (d.put path content').step place name with
      | error fault => exact Or.inl rfl
      | ok next => exact ih next
    · rw [h, h']
      -- Behind the file nothing goes on, whatever its content.
      cases names with
      | nil => exact Or.inr ⟨rfl, rfl⟩
      | cons next names => exact Or.inl rfl

theorem resolve_put (d : Directory) (path : String) (content content' : Bytes) (other : String) :
    SameOrFile content content' ((d.put path content).resolve other)
      ((d.put path content').resolve other) := by
  unfold resolve
  split_ifs
  · exact Or.inl rfl
  · exact Or.inl rfl
  · cases other.toList with
    | nil => exact Or.inl rfl
    | cons first rest => exact foldlM_put d path content content' _ _

/-- Two contents of one file, for a path that leads to it, make states that differ only there. -/
theorem differOnlyAt_put {d : Directory} {path : String} {content content' : Bytes}
    (h : (d.put path content).files path = ⟨true, .ok content⟩)
    (h' : (d.put path content').files path = ⟨true, .ok content'⟩) :
    DifferOnlyAt path (d.put path content).files (d.put path content').files := by
  intro other
  rw [h, h', files, files]
  rcases resolve_put d path content content' other with hsame | ⟨hfile, hfile'⟩
  · rw [hsame]
    exact Or.inl rfl
  · rw [hfile, hfile']
    exact Or.inr ⟨rfl, rfl⟩

end Directory

end Files

end RoleKey
