/-
This file proves how the first name of a path relates to the path.
-/

import Mathlib.Data.List.TakeWhile
import Statute.Rule.Path

namespace Statute

theorem splitDots_snd_eq_nil {chars : List Char} : (splitDots chars).2 = [] ↔ '.' ∉ chars := by
  induction chars with
  | nil => simp [splitDots]
  | cons char rest inductionHypothesis =>
      by_cases dot : char = '.'
      · simp [splitDots, dot]
      · simp [splitDots, dot, inductionHypothesis, Ne.symm dot]

/-- Only a path with dots has further names. -/
theorem pathTail_eq_nil {path : String} : pathTail path = [] ↔ '.' ∉ path.toList := by
  rw [pathTail, List.map_eq_nil_iff, splitDots_snd_eq_nil]

/-- A path without dots is its first name. -/
theorem pathRoot_eq_self {path : String} (undotted : pathTail path = []) : pathRoot path = path := by
  have whole : (path.toList.takeWhile fun char => char != '.') = path.toList := by
    apply List.takeWhile_eq_self_iff.mpr
    intro char member
    have other : char ≠ '.' := fun dot => pathTail_eq_nil.mp undotted (dot ▸ member)
    simpa using other
  rw [pathRoot, whole, String.ofList_toList]

theorem pathTail_pathRoot (path : String) : pathTail (pathRoot path) = [] := by
  apply pathTail_eq_nil.mpr
  rw [pathRoot, String.toList_ofList]
  intro member
  simpa using List.mem_takeWhile_imp member

@[simp]
theorem pathRoot_pathRoot (path : String) : pathRoot (pathRoot path) = pathRoot path :=
  pathRoot_eq_self (pathTail_pathRoot path)

/-- A path is its first name, or goes on behind it. -/
theorem eq_pathRoot_or (path : String) :
    path = pathRoot path ∨ ∃ rest, path = pathRoot path ++ "." ++ rest := by
  have parts : (pathRoot path).toList ++ (path.toList.dropWhile fun char => char != '.') =
      path.toList := by
    rw [pathRoot, String.toList_ofList, List.takeWhile_append_dropWhile]
  cases others : path.toList.dropWhile fun char => char != '.' with
  | nil =>
      left
      rw [others, List.append_nil] at parts
      exact String.toList_inj.mp parts.symm
  | cons char rest =>
      right
      have dot : char = '.' := by
        have ends := List.head_dropWhile_not (fun char => char != '.') (l := path.toList)
          (others ▸ List.cons_ne_nil char rest)
        simpa [others] using ends
      refine ⟨String.ofList rest, String.toList_inj.mp ?_⟩
      rw [← parts, others, dot]
      simp

end Statute
