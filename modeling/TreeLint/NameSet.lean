/-
Finite sets of names, kept as strictly ascending lists, so that two sets with the same members are
the same value. Main statements: `mem_insert`, `mem_union`, `mem_ofList` and `ext`.
-/
namespace TreeLint

/-- A set of names. -/
structure NameSet where
  toList : List String
  ascending : toList.Pairwise (· < ·) := by simp
deriving DecidableEq

namespace NameSet

instance : Membership String NameSet := ⟨fun s x => x ∈ s.toList⟩

instance : EmptyCollection NameSet := ⟨{ toList := [] }⟩

instance : Inhabited NameSet := ⟨∅⟩

/-- Membership as a test. -/
def contains (s : NameSet) (x : String) : Bool := s.toList.contains x

/-- Whether the set has no member. -/
def isEmpty (s : NameSet) : Bool := s.toList.isEmpty

/-! ## Placing a name -/

/-- Puts a name in front of the first greater one, unless the list holds it. -/
def place (x : String) : List String → List String
  | [] => [x]
  | y :: ys => if x < y then x :: y :: ys else if x = y then y :: ys else y :: place x ys

theorem mem_place {x z : String} {l : List String} : z ∈ place x l ↔ z = x ∨ z ∈ l := by
  induction l with
  | nil => simp [place]
  | cons y ys ih =>
    unfold place
    split
    · simp
    · split
      · rename_i h; subst h; simp
      · simp only [List.mem_cons, ih, or_left_comm]

theorem place_ascending {x : String} {l : List String} (h : l.Pairwise (· < ·)) :
    (place x l).Pairwise (· < ·) := by
  induction l with
  | nil => simp [place]
  | cons y ys ih =>
    have ⟨hy, hys⟩ := List.pairwise_cons.1 h
    unfold place
    split
    · rename_i hxy
      refine List.pairwise_cons.2 ⟨fun z hz => ?_, h⟩
      rcases List.mem_cons.1 hz with rfl | hz
      · exact hxy
      · exact String.lt_trans hxy (hy z hz)
    · rename_i hxy
      split
      · exact h
      · rename_i hne
        refine List.pairwise_cons.2 ⟨fun z hz => ?_, ih hys⟩
        rcases mem_place.1 hz with rfl | hz
        · have hle : y ≤ z := String.not_lt.1 hxy
          exact Classical.byContradiction fun hn =>
            hne (String.le_antisymm (String.not_lt.1 hn) hle)
        · exact hy z hz

/-! ## Sets -/

/-- The set with one more name. -/
def insert (s : NameSet) (x : String) : NameSet :=
  ⟨place x s.toList, place_ascending s.ascending⟩

/-- The set of the names in a list. -/
def ofList (xs : List String) : NameSet :=
  xs.foldl insert ∅

/-- The names in either set. -/
def union (s t : NameSet) : NameSet :=
  t.toList.foldl insert s

instance : Union NameSet := ⟨union⟩

/-! ## Members -/

theorem mem_def {s : NameSet} {x : String} : x ∈ s ↔ x ∈ s.toList := Iff.rfl

theorem contains_iff {s : NameSet} {x : String} : s.contains x = true ↔ x ∈ s := by
  simp [contains, mem_def]

theorem not_mem_empty (x : String) : x ∉ (∅ : NameSet) := List.not_mem_nil

theorem mem_insert {s : NameSet} {x z : String} : z ∈ s.insert x ↔ z = x ∨ z ∈ s := mem_place

theorem mem_foldl_insert {xs : List String} {s : NameSet} {z : String} :
    z ∈ xs.foldl insert s ↔ z ∈ s ∨ z ∈ xs := by
  induction xs generalizing s with
  | nil => simp
  | cons x xs ih => simp only [List.foldl_cons, ih, mem_insert, List.mem_cons, or_left_comm, or_assoc]

theorem mem_ofList {xs : List String} {z : String} : z ∈ ofList xs ↔ z ∈ xs := by
  simp [ofList, mem_foldl_insert, not_mem_empty]

theorem mem_union {s t : NameSet} {z : String} : z ∈ s ∪ t ↔ z ∈ s ∨ z ∈ t := mem_foldl_insert

/-- Sets with the same members are equal. -/
theorem ext {s t : NameSet} (h : ∀ z, z ∈ s ↔ z ∈ t) : s = t := by
  have nodup {l : List String} (hl : l.Pairwise (· < ·)) : l.Nodup := by
    refine List.Pairwise.imp ?_ hl
    rintro a b hab rfl
    exact String.lt_irrefl a hab
  have hp : s.toList.Perm t.toList :=
    (List.perm_ext_iff_of_nodup (nodup s.ascending) (nodup t.ascending)).2 h
  have : s.toList = t.toList :=
    hp.eq_of_pairwise (fun a b _ _ hab hba => absurd hba (String.lt_asymm hab)) s.ascending t.ascending
  cases s; cases t; simp_all

end NameSet

end TreeLint
