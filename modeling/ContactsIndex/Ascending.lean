import Std.Data.TreeMap
import Std.Data.TreeSet

/-!
# Values in ascending order

A list of values stands for the set of them: each once, the smallest first.
Text is ordered by its code points, which is also the order of its bytes in
UTF-8, and a list of bytes as a word in a dictionary.
-/

namespace ContactsIndex

variable {α : Type} [Ord α]

def ascending (values : List α) : List α :=
  (Std.TreeSet.ofList values compare).toList

theorem pairwise_ascending [Std.TransOrd α] (values : List α) :
    (ascending values).Pairwise (compare · · = .lt) :=
  Std.TreeSet.ordered_toList

theorem mem_ascending [DecidableEq α] [Std.TransOrd α] [Std.LawfulEqOrd α] {values : List α} {x : α} :
    x ∈ ascending values ↔ x ∈ values := by
  rw [ascending, Std.TreeSet.mem_toList, Std.TreeSet.mem_ofList]
  exact List.contains_iff_mem

theorem ascending_eq_iff [DecidableEq α] [Std.TransOrd α] [Std.LawfulEqOrd α] {values values' : List α} :
    ascending values = ascending values' ↔ ∀ x, x ∈ values ↔ x ∈ values' := by
  constructor
  · intro h x
    rw [← mem_ascending, h, mem_ascending]
  · intro h
    apply Std.TreeSet.Equiv.toList_eq
    apply Std.TreeSet.Equiv.of_forall_mem_iff
    intro x
    rw [← Std.TreeSet.mem_toList, ← Std.TreeSet.mem_toList]
    exact mem_ascending.trans ((h x).trans mem_ascending.symm)

theorem eq_ascending [DecidableEq α] [Std.TransOrd α] [Std.LawfulEqOrd α] {xs values : List α}
    (hxs : xs.Pairwise (compare · · = .lt)) (hmem : ∀ x, x ∈ xs ↔ x ∈ values) : xs = ascending values := by
  have hnodup : ∀ {ys : List α}, ys.Pairwise (compare · · = .lt) → ys.Nodup := fun hys =>
    hys.imp fun hlt hsame => by simp [hsame] at hlt
  have hperm : xs.Perm (ascending values) :=
    (List.perm_ext_iff_of_nodup (hnodup hxs) (hnodup (pairwise_ascending values))).mpr fun x =>
      (hmem x).trans mem_ascending.symm
  refine hperm.eq_of_pairwise (fun x y _ _ hlt hgt => ?_) hxs (pairwise_ascending values)
  have hnot : ¬ compare y x = .lt := Std.OrientedCmp.not_lt_of_lt hlt
  exact absurd hgt hnot

theorem values_eq {β : Type} (table : Std.TreeMap String β) : table.values = table.toList.map Prod.snd := by
  have hfold : table.values = table.foldr (fun _ value values => value :: values) [] := rfl
  rw [hfold, Std.TreeMap.foldr_eq_foldr_toList]
  induction table.toList with
  | nil => rfl
  | cons entry entries ih => simp [ih]

end ContactsIndex
