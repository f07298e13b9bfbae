/-
Where names lead. A place that is followed to is `Reached`: everything on the way to it is a
directory, and none of its names leads back or is too long. Following its names once more leads to it
again, and so does the way to any place that it lies in. Main statement: `find_of_reached`.
-/
import Mathlib.Algebra.GroupWithZero.Nat
import TreeLint.Proofs.Files.Tree

namespace TreeLint

/-! ## Places that a place lies in -/

@[simp] theorem Place.outwards_nil : Place.outwards [] = [[]] := rfl

theorem Place.outwards_concat (place : Place) (name : String) :
    Place.outwards (place ++ [name]) = (place ++ [name]) :: Place.outwards place := by
  unfold Place.outwards
  rw [List.length_append, List.length_singleton, List.range_succ, List.reverse_concat, List.map_cons,
    List.take_of_length_le (by simp)]
  congr 1
  apply List.map_congr_left
  intro n hn
  have hle : n ≤ place.length := by
    simp only [List.mem_reverse, List.mem_range] at hn
    omega
  exact List.take_append_of_le_length hle

/-! ## The size of a path -/

namespace FilePath

/-- The bytes of a path from the working directory on: each name but the last goes with a slash. -/
theorem size_text_concat (names : List String) (last : String) :
    ({ parts := names ++ [last] } : FilePath).text.utf8ByteSize =
      (names.map (·.utf8ByteSize + 1)).sum + last.utf8ByteSize := by
  have htext : ({ parts := names ++ [last] } : FilePath).text = "/".intercalate (names ++ [last]) := by
    simp [text, isAbsolute]
  rw [htext]
  induction names with
  | nil => simp
  | cons name rest ih =>
    have hne : rest ++ [last] ≠ [] := by simp
    rw [List.cons_append, String.intercalate_cons_of_ne_nil hne, String.utf8ByteSize_append,
      String.utf8ByteSize_append, ih (by simp [text, isAbsolute])]
    have hslash : ("/" : String).utf8ByteSize = 1 := rfl
    simp only [List.map_cons, List.sum_cons, hslash]
    omega

theorem size_text_le {outer place : Place} (h : outer <+: place) (last : String) :
    ({ parts := outer ++ [last] } : FilePath).text.utf8ByteSize ≤
      ({ parts := place ++ [last] } : FilePath).text.utf8ByteSize := by
  obtain ⟨rest, rfl⟩ := h
  simp only [size_text_concat, List.map_append, List.sum_append]
  omega

end FilePath

namespace FileTree

variable {t : FileTree} {place : Place} {name : String}

/-! ## Places that are followed to -/

/-- A place that names lead to, one directory after the other. -/
inductive Reached (t : FileTree) : Place → Prop
  | here : t.Reached []
  | step {place : Place} {name : String} : t.Reached place → t.at? place = some .directory → name ≠ ".." →
      name.utf8ByteSize ≤ longestName → t.Reached (place ++ [name])

theorem Reached.dropLast (h : t.Reached place) : t.Reached place.dropLast := by
  cases h with
  | here => exact .here
  | step h _ _ _ =>
    rw [List.dropLast_concat]
    exact h

/-- A name that is followed is followed from a directory: back out of it, or further in. -/
theorem follow_cons_cases {names : List String} {place' : Place}
    (h : t.follow place (name :: names) = .ok place') :
    t.at? place = some .directory ∧
      (name = ".." ∧ place ≠ [] ∧ t.follow place.dropLast names = .ok place' ∨
        name ≠ ".." ∧ name.utf8ByteSize ≤ longestName ∧ t.follow (place ++ [name]) names = .ok place') := by
  unfold follow at h
  split at h
  · cases h
  · cases h
  · rename_i hdir
    refine ⟨hdir, ?_⟩
    split at h
    · rename_i hup
      split at h
      · cases h
      · rename_i hin
        exact .inl ⟨hup, by simpa using hin, h⟩
    · rename_i hdown
      split at h
      · cases h
      · rename_i hsize
        exact .inr ⟨hdown, by omega, h⟩

theorem reached_of_follow {names : List String} (h : t.Reached place) {place' : Place}
    (hfollow : t.follow place names = .ok place') : t.Reached place' := by
  induction names generalizing place with
  | nil =>
    cases hfollow
    exact h
  | cons name rest ih =>
    obtain ⟨hdir, ⟨-, -, hrest⟩ | ⟨hname, hsize, hrest⟩⟩ := follow_cons_cases hfollow
    · exact ih h.dropLast hrest
    · exact ih (.step h hdir hname hsize) hrest

theorem follow_concat (hdir : t.at? place = some .directory) (hname : name ≠ "..")
    (hsize : name.utf8ByteSize ≤ longestName) (names : List String) :
    t.follow place (name :: names) = t.follow (place ++ [name]) names := by
  rw [follow, hdir]
  simp only [hname, if_false, Nat.not_lt.2 hsize]

/-- The names of a place that is reached lead to it. -/
theorem Reached.follow_append (h : t.Reached place) (names : List String) :
    t.follow [] (place ++ names) = t.follow place names := by
  induction h generalizing names with
  | here => rfl
  | step _ hdir hname hsize ih =>
    rw [List.append_assoc, List.singleton_append, ih, follow_concat hdir hname hsize]

/-! ## Looking something up in a directory -/

theorem find_of_reached (h : t.Reached place) (hdir : t.at? place = some .directory) (hname : name ≠ "..")
    (hsize : name.utf8ByteSize ≤ longestName)
    (hlong : ({ parts := place ++ [name] } : FilePath).text.utf8ByteSize ≤ longestPath) :
    t.find { parts := place ++ [name] } = match t.at? (place ++ [name]) with
      | some e => .ok (place ++ [name], e)
      | none => .error .missing := by
  have hfollow : t.follow [] (place ++ [name]) = .ok (place ++ [name]) := by
    rw [h.follow_append, follow_concat hdir hname hsize, follow]
  rw [find_eq, if_neg (Nat.not_lt.2 hlong), if_neg (by simp [FilePath.isAbsolute])]
  cases hat : t.at? (place ++ [name]) <;> simp only [hfollow, hat]

theorem find_of_long {path : FilePath} (h : longestPath < path.text.utf8ByteSize) :
    t.find path = .error .nameTooLong := by
  rw [find_eq, if_pos h]

theorem find_of_directory? {path : FilePath} (h : t.directory? path = some place) :
    t.find path = .ok (place, .directory) := by
  unfold directory? at h
  rcases hfind : t.find path with _ | ⟨p, _ | _⟩ <;> rw [hfind] at h <;> cases h
  rfl

end FileTree

end TreeLint
