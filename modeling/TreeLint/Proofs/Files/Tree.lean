/-
Files that are written. A new content for a file changes what is read at its place and nothing else: no
path leads elsewhere, and no file comes or goes. That holds of a write that is refused, too. Main
statements: `openFile_write` and `tryOpen_save`.
-/
import TreeLint.Files.Tree

namespace TreeLint

/-- A file has a text, unless its bytes are no UTF-8. -/
theorem Content.decode_cases (content : Content) :
    (∃ b, content = .bytes b ∧ String.fromUTF8? b = none ∧ content.decode = .error .undecodable) ∨
      ∃ source, content.decode = .ok source := by
  rcases content with s | b
  · exact .inr ⟨s, rfl⟩
  · cases hb : String.fromUTF8? b with
    | none => exact .inl ⟨b, rfl, hb, by simp [decode, hb]⟩
    | some s => exact .inr ⟨s, by simp [decode, hb]⟩

namespace FileTree

variable {t : FileTree} {place : Place} {content new : Content} {s : String} {path : FilePath}

/-- There is a file at a place. -/
def HasFile (t : FileTree) (place : Place) : Prop := ∃ content, t.at? place = some (.file content)

/-- What is read at a place once the file at another has been written. -/
def rewritten (place : Place) (new : Content) (p : Place) (e : Entry) : Entry :=
  if p = place then .file new else e

theorem rewritten_of_ne {p : Place} {e : Entry} (h : p ≠ place) : rewritten place new p e = e :=
  if_neg h

/-! ## What is at a place -/

theorem lookup_write (p : Place) :
    (t.write place new).entries.lookup p = (t.entries.lookup p).map (rewritten place new p) := by
  unfold write
  induction t.entries with
  | nil => rfl
  | cons entry rest ih =>
    rcases entry with ⟨q, e⟩
    simp only [List.map_cons, List.lookup_cons]
    cases hpq : p == q with
    | true =>
      obtain rfl : p = q := eq_of_beq hpq
      rfl
    | false => exact ih

theorem any_write (place : Place) (new : Content) (f : Place → Bool) :
    (t.write place new).entries.any (f ·.1) = t.entries.any (f ·.1) := by
  simp [write, Function.comp_def]

theorem at?_write (h : t.HasFile place) (p : Place) :
    (t.write place new).at? p = (t.at? p).map (rewritten place new p) := by
  unfold at?
  rw [lookup_write, any_write place new p.isPrefixOf]
  cases hp : t.entries.lookup p with
  | some e => rfl
  | none =>
    -- nothing is listed here, so that this is not the place of the file
    have hne : p ≠ place := by
      rintro rfl
      obtain ⟨content, hfile⟩ := h
      simp only [at?, hp] at hfile
      split at hfile <;> cases hfile
    simp only [Option.map_none]
    split
    · rw [Option.map_some, rewritten_of_ne hne]
    · rfl

theorem at?_write_self (h : t.HasFile place) : (t.write place new).at? place = some (.file new) := by
  rw [at?_write h]
  obtain ⟨content, hfile⟩ := h
  simp [hfile, rewritten]

theorem at?_write_of_ne (h : t.HasFile place) {p : Place} (hne : p ≠ place) :
    (t.write place new).at? p = t.at? p := by
  rw [at?_write h]
  cases t.at? p with
  | none => rfl
  | some e => rw [Option.map_some, rewritten_of_ne hne]

/-! ## Where a path leads -/

theorem follow_write (h : t.HasFile place) (names : List String) (p : Place) :
    (t.write place new).follow p names = t.follow p names := by
  induction names generalizing p with
  | nil => rfl
  | cons name rest ih =>
    unfold follow
    rw [at?_write h]
    -- only whether a file, a directory or nothing is there matters
    rcases hp : t.at? p with _ | _ | content
    · rfl
    · have hne : p ≠ place := by
        rintro rfl
        obtain ⟨content, hfile⟩ := h
        rw [hp] at hfile
        cases hfile
      simp only [Option.map_some, rewritten_of_ne hne, ih]
    · unfold rewritten
      by_cases hne : p = place <;> simp [hne]

/-- `find` as a choice of cases. -/
theorem find_eq (t : FileTree) (path : FilePath) :
    t.find path =
      if longestPath < path.text.utf8ByteSize then .error .nameTooLong
      else if path.isAbsolute then .error .missing
      else match t.follow [] path.parts with
        | .error f => .error f
        | .ok p => match t.at? p with
          | some e => .ok (p, e)
          | none => .error .missing := by
  unfold find
  by_cases hlong : longestPath < path.text.utf8ByteSize
  · simp only [hlong, if_true]
    rfl
  · by_cases habs : path.isAbsolute
    · simp only [hlong, habs, if_false, if_true]
      rfl
    · simp only [hlong, habs, if_false]
      rcases t.follow [] path.parts with _ | p
      · rfl
      · simp only [pure, Except.pure, bind, Except.bind]
        cases t.at? p <;> rfl

theorem find_write (h : t.HasFile place) (path : FilePath) :
    (t.write place new).find path = (t.find path).map fun (p, e) => (p, rewritten place new p e) := by
  simp only [find_eq, follow_write h]
  split
  · rfl
  · split
    · rfl
    · rcases t.follow [] path.parts with _ | p
      · rfl
      · simp only [at?_write h]
        cases t.at? p <;> rfl

/-- What is found is at the place that the path leads to. -/
theorem of_find {e : Entry} (h : t.find path = .ok (place, e)) :
    path.isAbsolute = false ∧ t.follow [] path.parts = .ok place ∧ t.at? place = some e := by
  rw [find_eq] at h
  split at h
  · cases h
  · split at h
    · cases h
    · rename_i habs
      rcases hfollow : t.follow [] path.parts with _ | p <;> rw [hfollow] at h
      · cases h
      · simp only at h
        cases hp : t.at? p <;> rw [hp] at h <;> cases h
        exact ⟨by simpa using habs, rfl, hp⟩

theorem at?_of_find {e : Entry} (h : t.find path = .ok (place, e)) : t.at? place = some e :=
  (of_find h).2.2

/-! ## Opening -/

theorem openFile_eq (t : FileTree) (path : FilePath) :
    t.openFile path = match t.find path with
      | .error f => .error f
      | .ok (p, .file content) => .ok (p, content)
      | .ok (_, .directory) => .error .isADirectory := by
  unfold openFile
  rcases t.find path with _ | ⟨p, _ | content⟩ <;> rfl

theorem at?_of_openFile (h : t.openFile path = .ok (place, content)) : t.at? place = some (.file content) := by
  rw [openFile_eq] at h
  rcases hfind : t.find path with _ | ⟨p, _ | content⟩ <;> rw [hfind] at h <;> cases h
  exact at?_of_find hfind

/-- What a path opens once a file has been written: the new content if it leads to that file, and what
it opened before if not. -/
theorem openFile_write (h : t.HasFile place) (path : FilePath) :
    (t.write place new).openFile path =
      (t.openFile path).map fun (p, content) => (p, if p = place then new else content) := by
  rw [openFile_eq, openFile_eq, find_write h]
  rcases hfind : t.find path with _ | ⟨p, e⟩
  · rfl
  · simp only [Except.map, rewritten]
    by_cases hp : p = place
    · -- a file was found there before, too
      subst hp
      obtain ⟨content, hfile⟩ := h
      obtain rfl : e = .file content := Option.some.inj ((at?_of_find hfind).symm.trans hfile)
      simp
    · cases e <;> simp [hp]

theorem tryOpen_write (h : t.HasFile place) (path : FilePath) :
    (t.write place new).tryOpen path = (t.tryOpen path).map
      (Except.map fun (p, content) => (p, if p = place then new else content)) := by
  unfold tryOpen
  rw [openFile_write h]
  cases path.hasNull <;> rfl

theorem tryOpen_eq_ok_iff : t.tryOpen path = .ok (.ok (place, content)) ↔
    path.hasNull = false ∧ t.openFile path = .ok (place, content) := by
  unfold tryOpen
  cases path.hasNull <;> simp

theorem tryOpen_eq_error_iff {f : Fault} : t.tryOpen path = .error f ↔ path.hasNull = true ∧ f = .nullInPath := by
  unfold tryOpen
  cases path.hasNull <;> simp [eq_comm]

theorem hasFile_of_tryOpen (h : t.tryOpen path = .ok (.ok (place, content))) : t.HasFile place :=
  ⟨content, at?_of_openFile (tryOpen_eq_ok_iff.1 h).2⟩

/-! ## Writes that may be refused -/

@[simp] theorem refuses_write : (t.write place new).refuses = t.refuses := rfl

theorem left?_of_accepted (h : t.refuses place s = none) : t.left? place s = some (.text s) := by
  rw [left?, h]

theorem save_of_accepted (h : t.refuses place s = none) : t.save place s = t.write place (.text s) := by
  rw [save, left?_of_accepted h]
  rfl

theorem save_cases (t : FileTree) (place : Place) (s : String) :
    t.save place s = t ∨ ∃ new, t.save place s = t.write place new := by
  unfold save
  cases t.left? place s with
  | none => exact .inl rfl
  | some new => exact .inr ⟨new, rfl⟩

/-- What a path opens once a text was to be written. -/
theorem tryOpen_save (h : t.HasFile place) (path : FilePath) :
    (t.save place s).tryOpen path = (t.tryOpen path).map
      (Except.map fun (p, content) => (p, if p = place then (t.left? place s).getD content else content)) := by
  unfold save
  cases t.left? place s with
  | some new => exact tryOpen_write h path
  | none =>
    change t.tryOpen path = _
    rcases t.tryOpen path with f | f | ⟨p, content⟩
    · rfl
    · rfl
    · simp [Except.map]

end FileTree

end TreeLint
