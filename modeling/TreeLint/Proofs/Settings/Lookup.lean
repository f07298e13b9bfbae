/-
The settings in force in a directory are those of the nearest project file at or above it, and no file
farther off matters. A project file that cannot be read, or that has no table of this program, gives
none; three kinds of files make the lookup fail: one whose bytes are no text, one whose text cannot be
read for another reason than that it is malformed, and one in which `tool` is given without being a
table. Main statement: `load_inForce`.
-/
import TreeLint.Proofs.Files.Places
import TreeLint.Settings.Lookup

namespace TreeLint.Settings

variable {t t' : FileTree} {place d d' : Place} {name : String} {e e' : Entry} {start : FilePath} {f : Fault}

/-! ## The project file in force -/

/-- The project file in force at a place: the one in the nearest directory that the place lies in. -/
structure InForce (t : FileTree) (place d : Place) (e : Entry) : Prop where
  outer : d <+: place
  found : t.at? (d ++ [projectFile]) = some e
  nearer : ∀ d', d <+: d' → d' <+: place → d' ≠ d → t.at? (d' ++ [projectFile]) = none

theorem InForce.eq_of_prefix (h : InForce t place d e) (h' : InForce t place d' e') (hin : d <+: d') : d' = d := by
  by_cases hd : d' = d
  · exact hd
  · -- then the file in the inner directory would be nearer
    have hnone := h.nearer d' hin h'.outer hd
    rw [h'.found] at hnone
    cases hnone

theorem InForce.unique (h : InForce t place d e) (h' : InForce t place d' e') : d = d' ∧ e = e' := by
  have hd : d = d' := by
    rcases List.prefix_or_prefix_of_prefix h.outer h'.outer with hin | hin
    · exact (h.eq_of_prefix h' hin).symm
    · exact h'.eq_of_prefix h hin
  subst hd
  exact ⟨rfl, Option.some.inj (h.found.symm.trans h'.found)⟩

/-- There is at most one file to speak of. -/
theorem InForce.exists_iff {P : Entry → Prop} (h : InForce t place d e) :
    (∃ d e, InForce t place d e ∧ P e) ↔ P e := by
  constructor
  · rintro ⟨d', e', h', hP⟩
    rwa [(h.unique h').2]
  · exact fun hP => ⟨d, e, h, hP⟩

theorem InForce.not_forall (h : InForce t place d e) : ¬∀ d e, ¬InForce t place d e :=
  fun hnone => hnone d e h

theorem inForce_self (h : t.at? (place ++ [projectFile]) = some e) : InForce t place place e where
  outer := List.prefix_rfl
  found := h
  nearer := fun _ hin hout hne => absurd (hout.eq_of_length_le hin.length_le) hne

theorem inForce_nil_iff : InForce t [] d e ↔ d = [] ∧ t.at? [projectFile] = some e := by
  constructor
  · intro h
    obtain rfl : d = [] := List.prefix_nil.1 h.outer
    exact ⟨rfl, h.found⟩
  · rintro ⟨rfl, h⟩
    exact inForce_self h

/-- A directory without a project file has that of the directory it is in. -/
theorem inForce_concat_iff (h : t.at? (place ++ [name] ++ [projectFile]) = none) :
    InForce t (place ++ [name]) d e ↔ InForce t place d e := by
  constructor
  · intro hin
    rcases List.prefix_concat_iff.1 hin.outer with rfl | hout
    · have hfound := hin.found
      rw [h] at hfound
      cases hfound
    · exact ⟨hout, hin.found, fun d' hd hp hne => hin.nearer d' hd (hp.trans (List.prefix_append _ _)) hne⟩
  · intro hin
    refine ⟨hin.outer.trans (List.prefix_append _ _), hin.found, fun d' hd hp hne => ?_⟩
    rcases List.prefix_concat_iff.1 hp with rfl | hp
    · exact h
    · exact hin.nearer d' hd hp hne

/-- What is nearer than the project file in force, and that file itself, decide that it is in force. -/
theorem InForce.congr (h : InForce t place d e)
    (hsame : ∀ d', d <+: d' → d' <+: place → t'.at? (d' ++ [projectFile]) = t.at? (d' ++ [projectFile])) :
    InForce t' place d e where
  outer := h.outer
  found := (hsame d List.prefix_rfl h.outer).trans h.found
  nearer := fun d' hin hout hne => (hsame d' hin hout).trans (h.nearer d' hin hout hne)

/-! ## The way up -/

/-- The path of a project file at a place is longer than paths may be. -/
def Overlong (place : Place) : Prop :=
  FileTree.longestPath < ({ parts := place ++ [projectFile] } : FilePath).text.utf8ByteSize

theorem Overlong.of_outer (h : Overlong d) (hout : d <+: place) : Overlong place :=
  Nat.lt_of_lt_of_le h (FilePath.size_text_le hout projectFile)

theorem find_projectFile (h : t.Reached place) (hdir : t.at? place = some .directory) (hlong : ¬Overlong place) :
    t.find { parts := place ++ [projectFile] } = match t.at? (place ++ [projectFile]) with
      | some e => .ok (place ++ [projectFile], e)
      | none => .error .missing :=
  FileTree.find_of_reached h hdir (by decide) (by decide) (Nat.not_lt.1 hlong)

theorem nearestFrom_of_overlong (h : Overlong place) :
    nearestFrom t place.outwards =
      .error (.system (AccessFault.nameTooLong.message (shown t (place ++ [projectFile])))) := by
  obtain ⟨outer, houtwards⟩ : ∃ outer, place.outwards = place :: outer := by
    rcases List.eq_nil_or_concat place with rfl | ⟨front, last, rfl⟩
    · exact ⟨_, rfl⟩
    · rw [List.concat_eq_append]
      exact ⟨_, Place.outwards_concat front last⟩
  rw [houtwards, nearestFrom, FileTree.find_of_long h]

/-- The project file found on the way up is the one in force. -/
theorem nearestFrom_outwards (h : t.Reached place) (hdir : t.at? place = some .directory) (hlong : ¬Overlong place) :
    (∃ d e, InForce t place d e ∧ nearestFrom t place.outwards = .ok (some (d ++ [projectFile], e))) ∨
      (∀ d e, ¬InForce t place d e) ∧ nearestFrom t place.outwards = .ok none := by
  -- the way up from a place is the place itself, and then the way up from the directory it is in
  induction h with
  | here =>
    have hfind := find_projectFile .here hdir hlong
    rw [Place.outwards_nil, nearestFrom]
    cases hfile : t.at? ([] ++ [projectFile]) with
    | some e =>
      rw [hfile] at hfind
      exact .inl ⟨[], e, inForce_self hfile, by rw [hfind]⟩
    | none =>
      rw [hfile] at hfind
      refine .inr ⟨fun d e hin => ?_, by rw [hfind]; rfl⟩
      have hfound := (inForce_nil_iff.1 hin).2
      rw [List.nil_append] at hfile
      rw [hfile] at hfound
      cases hfound
  | @step outer name hreached houter hname hsize ih =>
    have hfind := find_projectFile (.step hreached houter hname hsize) hdir hlong
    rw [Place.outwards_concat, nearestFrom]
    cases hfile : t.at? (outer ++ [name] ++ [projectFile]) with
    | some e =>
      rw [hfile] at hfind
      exact .inl ⟨_, e, inForce_self hfile, by rw [hfind]⟩
    | none =>
      rw [hfile] at hfind
      simp only [hfind, inForce_concat_iff hfile]
      exact ih houter fun hlong' => hlong (hlong'.of_outer (List.prefix_append _ _))

/-! ## Where the way starts -/

theorem placeOf_concat (names : List String) (name : String) :
    placeOf (names ++ [name]) = (placeOf names).bind fun place =>
      if name = ".." then if place.isEmpty then none else some place.dropLast else some (place ++ [name]) := by
  unfold placeOf
  rw [List.foldl_append]
  rfl

/-- Names that can be followed lead where they lead without a look at what is there. -/
theorem placeOf_of_follow {names done : List String} (hdone : placeOf done = some place)
    (hfollow : t.follow place names = .ok d) : placeOf (done ++ names) = some d := by
  induction names generalizing done place with
  | nil =>
    cases hfollow
    rwa [List.append_nil]
  | cons name rest ih =>
    have hnext := placeOf_concat done name
    rw [hdone, Option.bind_some] at hnext
    rw [List.append_cons]
    obtain ⟨-, ⟨hup, hin, hrest⟩ | ⟨hdown, -, hrest⟩⟩ := FileTree.follow_cons_cases hfollow
    · rw [if_pos hup, if_neg (by simpa using hin)] at hnext
      exact ih hnext hrest
    · rw [if_neg hdown] at hnext
      exact ih hnext hrest

theorem nearest_of_directory? (h : t.directory? start = some place) (hnull : start.hasNull = false) :
    nearest t start = nearestFrom t place.outwards := by
  obtain ⟨habs, hfollow, -⟩ := FileTree.of_find (FileTree.find_of_directory? h)
  unfold nearest
  rw [hnull, habs, ← List.nil_append start.parts, placeOf_of_follow rfl hfollow]
  rfl

theorem nearest_cases (h : t.directory? start = some place) (hnull : start.hasNull = false)
    (hlong : ¬Overlong place) :
    (∃ d e, InForce t place d e ∧ nearest t start = .ok (some (d ++ [projectFile], e))) ∨
      (∀ d e, ¬InForce t place d e) ∧ nearest t start = .ok none := by
  obtain ⟨-, hfollow, hdir⟩ := FileTree.of_find (FileTree.find_of_directory? h)
  rw [nearest_of_directory? h hnull]
  exact nearestFrom_outwards (FileTree.reached_of_follow .here hfollow) hdir hlong

theorem nearest_of_inForce (h : t.directory? start = some place) (hnull : start.hasNull = false)
    (hlong : ¬Overlong place) (hin : InForce t place d e) :
    nearest t start = .ok (some (d ++ [projectFile], e)) := by
  obtain ⟨d', e', hin', hnear⟩ | ⟨hnone, -⟩ := nearest_cases h hnull hlong
  · obtain ⟨rfl, rfl⟩ := hin.unique hin'
    exact hnear
  · exact absurd hin (hnone d e)

/-! ## What a project file gives -/

variable {read : DocumentReader} {content : Content} {source : String} {document : Table}

/-- The project files that the lookup fails on. -/
inductive Spoils (read : DocumentReader) : Entry → Fault → Prop
  | undecodable {b : ByteArray} : String.fromUTF8? b = none → Spoils read (.file (.bytes b)) .undecodable
  /-- The text cannot be read, for another reason than that it is malformed. -/
  | unread {content : Content} {source : String} {f : Fault} : content.decode = .ok source → read source = .error f →
      (∀ reason, f ≠ .malformedDocument reason) → Spoils read (.file content) f
  | notATable {content : Content} {source : String} {document : Table} {v : Value} : content.decode = .ok source →
      read source = .ok document → document.get? "tool" = some v → v.isGiven = true → (∀ tools, v ≠ .table tools) →
      Spoils read (.file content) .notATable

/-- The table of this program in a document; the empty one where there is none. -/
def tableOfDocument (document : Table) : Table := section? ⟨section? ⟨document⟩ "tool"⟩ sectionName

/-- The table of this program in a project file; the empty one where there is none. -/
def ownTable (read : DocumentReader) : Entry → Table
  | .directory => []
  | .file content =>
    match content.decode >>= read with
    | .ok document => tableOfDocument document
    | .error _ => []

theorem entryOf_of_isGiven {table : Table} {key : String} {v : Value} (h : table.get? key = some v)
    (hgiven : v.isGiven = true) : entryOf table key = v := by
  simp [entryOf, h, Option.filter, hgiven]

theorem entryOf_of_not_isGiven {table : Table} {key : String}
    (h : ∀ v, table.get? key = some v → v.isGiven = false) : entryOf table key = .table [] := by
  unfold entryOf
  cases hv : table.get? key with
  | none => rfl
  | some v => simp [Option.filter, h v hv]

/-- The table under a key, by the value that counts there. -/
theorem section?_eq (table : Table) (key : String) :
    Settings.section? ⟨table⟩ key = match entryOf table key with
      | .table entries => entries
      | _ => [] := by
  unfold section?
  by_cases hgiven : ∃ v, table.get? key = some v ∧ v.isGiven = true
  · obtain ⟨v, hv, hgiven⟩ := hgiven
    rw [entryOf_of_isGiven hv hgiven, hv]
    cases v <;> rfl
  · have hnot : ∀ v, table.get? key = some v → v.isGiven = false := by simpa using hgiven
    rw [entryOf_of_not_isGiven hnot]
    cases hv : table.get? key with
    | none => rfl
    | some v =>
      -- of the tables, the empty one alone counts as not given
      cases v with
      | table entries => simpa [Value.isGiven] using hnot _ hv
      | _ => rfl

theorem tableIn_of_table {tools : Table} (h : entryOf document "tool" = .table tools) :
    tableIn document = .ok (tableOfDocument document) := by
  unfold tableIn tableOfDocument
  rw [section?_eq document, h, section?_eq]
  simp only
  cases entryOf tools sectionName <;> rfl

theorem tableIn_of_not_table (h : ∀ tools, entryOf document "tool" ≠ .table tools) :
    tableIn document = .error .notATable := by
  unfold tableIn
  cases htool : entryOf document "tool" with
  | table tools => exact absurd htool (h tools)
  | _ => rfl

/-- A value that counts under a key and is no table is given there. -/
theorem exists_of_not_table {key : String} (h : ∀ entries, entryOf document key ≠ .table entries) :
    ∃ v, document.get? key = some v ∧ v.isGiven = true ∧ ∀ entries, v ≠ .table entries := by
  by_cases hgiven : ∃ v, document.get? key = some v ∧ v.isGiven = true
  · obtain ⟨v, hv, hgiven⟩ := hgiven
    rw [entryOf_of_isGiven hv hgiven] at h
    exact ⟨v, hv, hgiven, h⟩
  · exact absurd (entryOf_of_not_isGiven (by simpa using hgiven)) (h [])

/-- A file with a text spoils the lookup by what reading the text comes to. -/
theorem spoils_of_decode (h : content.decode = .ok source) :
    Spoils read (.file content) f ↔
      match read source with
      | .ok document => f = .notATable ∧ ∀ tools, entryOf document "tool" ≠ .table tools
      | .error f' => f = f' ∧ ∀ reason, f ≠ .malformedDocument reason := by
  constructor
  · rintro (hnone | ⟨hdecode, hread, hother⟩ | ⟨hdecode, hread, hv, hgiven, hne⟩)
    · simp [Content.decode, hnone] at h
    · obtain rfl := Except.ok.inj (h.symm.trans hdecode)
      rw [hread]
      exact ⟨rfl, hother⟩
    · obtain rfl := Except.ok.inj (h.symm.trans hdecode)
      simp only [hread, entryOf_of_isGiven hv hgiven]
      exact ⟨trivial, hne⟩
  · cases hread : read source with
    | ok document =>
      rintro ⟨rfl, hne⟩
      obtain ⟨v, hv, hgiven, hne⟩ := exists_of_not_table hne
      exact .notATable h hread hv hgiven hne
    | error f' =>
      rintro ⟨rfl, hother⟩
      exact .unread h hread hother

/-- What the lookup makes of a project file with a text. -/
theorem tableOf_of_decode (file : String) (h : content.decode = .ok source) :
    (∃ f, tableOf read file (.file content) = .error f ∧ ∀ f', Spoils read (.file content) f' ↔ f' = f) ∨
      (∀ f, ¬Spoils read (.file content) f) ∧
        (tableOf read file (.file content) = .ok (.ok (ownTable read (.file content))) ∨
          ∃ reason, tableOf read file (.file content) = .ok (.error reason) ∧ ownTable read (.file content) = []) := by
  simp only [spoils_of_decode h, tableOf, ownTable, h, bind, Except.bind]
  cases hread : read source with
  | ok document =>
    by_cases htool : ∃ tools, entryOf document "tool" = .table tools
    · obtain ⟨tools, htool⟩ := htool
      exact .inr ⟨fun f hf => hf.2 tools htool, .inl (by simp only [tableIn_of_table htool]; rfl)⟩
    · have hne : ∀ tools, entryOf document "tool" ≠ .table tools := fun tools h => htool ⟨tools, h⟩
      exact .inl ⟨.notATable, by simp only [tableIn_of_not_table hne]; rfl, fun f' => and_iff_left hne⟩
  | error f =>
    by_cases hmalformed : ∃ reason, f = .malformedDocument reason
    · obtain ⟨reason, rfl⟩ := hmalformed
      exact .inr ⟨fun f' hf => hf.2 reason hf.1, .inr ⟨reason, rfl, rfl⟩⟩
    · have hother : ∀ reason, f ≠ .malformedDocument reason := fun reason h => hmalformed ⟨reason, h⟩
      refine .inl ⟨f, ?_, fun f' => ⟨fun hf => hf.1, fun hf => ⟨hf, hf ▸ hother⟩⟩⟩
      cases f <;> first | rfl | exact absurd rfl (hother _)

/-- What the lookup makes of a project file: it fails, or it has the table of this program, or it cannot
read the file. -/
theorem tableOf_cases (read : DocumentReader) (file : String) (e : Entry) :
    (∃ f, tableOf read file e = .error f ∧ ∀ f', Spoils read e f' ↔ f' = f) ∨
      (∀ f, ¬Spoils read e f) ∧
        (tableOf read file e = .ok (.ok (ownTable read e)) ∨
          ∃ reason, tableOf read file e = .ok (.error reason) ∧ ownTable read e = []) := by
  rcases e with _ | content
  · exact .inr ⟨nofun, .inr ⟨_, rfl, rfl⟩⟩
  · obtain ⟨b, rfl, hb, hdecode⟩ | ⟨source, hdecode⟩ := content.decode_cases
    · refine .inl ⟨.undecodable, by rw [tableOf, hdecode]; rfl, fun f' => ⟨?_, ?_⟩⟩
      · rintro (_ | ⟨hsome, -, -⟩ | ⟨hsome, -, -, -, -⟩)
        · rfl
        all_goals cases hdecode.symm.trans hsome
      · rintro rfl
        exact .undecodable hb
    · exact tableOf_of_decode file hdecode

/-! ## The lookup -/

/-- The lookup reads the file that it finds, and the name of the working directory for its messages. -/
theorem load_congr (hroot : t'.root = t.root) (h : nearest t' start = nearest t start) (log : Log) :
    load read t' start log = load read t start log := by
  simp only [load, h, shown, hroot]

/-- All that can come of a lookup. -/
theorem load_cases (read : DocumentReader) (h : t.directory? start = some place) (hnull : start.hasNull = false)
    (log : Log) :
    (Overlong place ∧ (load read t start log).1 =
      .error (.system (AccessFault.nameTooLong.message (shown t (place ++ [projectFile]))))) ∨
    ¬Overlong place ∧
      ((∃ d e f, InForce t place d e ∧ (∀ f', Spoils read e f' ↔ f' = f) ∧ (load read t start log).1 = .error f) ∨
        (∃ d e, InForce t place d e ∧ (∀ f, ¬Spoils read e f) ∧
          (load read t start log).1 = .ok (ownTable read e)) ∨
        (∀ d e, ¬InForce t place d e) ∧ (load read t start log).1 = .ok []) := by
  by_cases hlong : Overlong place
  · refine .inl ⟨hlong, ?_⟩
    simp [load, nearest_of_directory? h hnull, nearestFrom_of_overlong hlong, Attempt.bind_apply]
  · refine .inr ⟨hlong, ?_⟩
    obtain ⟨d, e, hin, hnear⟩ | ⟨hnone, hnear⟩ := nearest_cases h hnull hlong <;>
      simp only [load, hnear, Attempt.bind_apply, Attempt.lift_apply]
    · obtain ⟨f, hf, hspoils⟩ | ⟨hgood, hown | ⟨reason, hreason, hempty⟩⟩ :=
        tableOf_cases read (shown t (d ++ [projectFile])) e
      · exact .inl ⟨d, e, f, hin, hspoils, by rw [hf]⟩
      · exact .inr (.inl ⟨d, e, hin, hgood, by rw [hown]; rfl⟩)
      · exact .inr (.inl ⟨d, e, hin, hgood, by rw [hreason, hempty]; rfl⟩)
    · exact .inr (.inr ⟨hnone, rfl⟩)

/-- The lookup of settings from a directory on. It fails just if the path of the project file there would be
longer than paths may be, or if the project file in force is one of those that spoil it. Else it gives the
table of this program in that file, and nothing where no file is in force. What lies farther off than the
file in force does not matter. All this holds of any way to read documents. -/
theorem load_inForce (read : DocumentReader) (h : t.directory? start = some place) (hnull : start.hasNull = false)
    (log : Log) :
    (∀ f, (load read t start log).1 = .error f ↔
      Overlong place ∧ f = .system (AccessFault.nameTooLong.message (shown t (place ++ [projectFile]))) ∨
        ¬Overlong place ∧ ∃ d e, InForce t place d e ∧ Spoils read e f) ∧
    (∀ table, (load read t start log).1 = .ok table ↔
      ¬Overlong place ∧
        ((∃ d e, InForce t place d e ∧ (∀ f, ¬Spoils read e f) ∧ table = ownTable read e) ∨
          (∀ d e, ¬InForce t place d e) ∧ table = [])) ∧
    ∀ d e, InForce t place d e → ∀ t' : FileTree, t'.root = t.root → t'.directory? start = some place →
      (∀ d', d <+: d' → d' <+: place → t'.at? (d' ++ [projectFile]) = t.at? (d' ++ [projectFile])) →
        load read t' start log = load read t start log := by
  refine ⟨fun f => ?_, fun table => ?_, fun d e hin t' hroot h' hsame => ?_⟩
  · obtain ⟨hlong, hload⟩ | ⟨hlong, ⟨d, e, f', hin, hspoils, hload⟩ | ⟨d, e, hin, hgood, hload⟩ | ⟨hnone, hload⟩⟩ :=
      load_cases read h hnull log
    · simp [hload, hlong, eq_comm]
    · simp [hload, hlong, hin.exists_iff, hspoils, eq_comm]
    · simp [hload, hlong, hin.exists_iff, hgood]
    · simp [hload, hlong, hnone]
  · obtain ⟨hlong, hload⟩ | ⟨hlong, ⟨d, e, f', hin, hspoils, hload⟩ | ⟨d, e, hin, hgood, hload⟩ | ⟨hnone, hload⟩⟩ :=
      load_cases read h hnull log
    · simp [hload, hlong]
    · simp [hload, hin.exists_iff, hin.not_forall, hspoils]
    · simp [hload, hlong, hin.exists_iff, hin.not_forall, hgood, eq_comm]
    · simp [hload, hlong, hnone, eq_comm]
  · refine load_congr hroot ?_ log
    by_cases hlong : Overlong place
    · rw [nearest_of_directory? h hnull, nearest_of_directory? h' hnull, nearestFrom_of_overlong hlong,
        nearestFrom_of_overlong hlong, shown, shown, hroot]
    · rw [nearest_of_inForce h hnull hlong hin, nearest_of_inForce h' hnull hlong (hin.congr hsame)]

/-- Reads some texts as the documents beside them, and calls all others malformed. -/
def reading (known : List (String × Table)) : DocumentReader :=
  fun s => (known.lookup s).elim (.error (.malformedDocument "Invalid statement (at line 1, column 1)")) .ok

/-- Two directories down, the settings are those of the project file at the top. -/
theorem load_inForce_above :
    let settings : Table := [("max_workers", .int 2)]
    let source := "[tool.bugscope]\nmax_workers = 2\n"
    let read := reading [(source, [("tool", .table [("bugscope", .table settings)])])]
    let t : FileTree := { entries := [(["src", "pkg"], .directory), (["pyproject.toml"], .file (.text source))] }
    t.directory? (.ofText "src/pkg") = some ["src", "pkg"] ∧ (FilePath.ofText "src/pkg").hasNull = false ∧
      InForce t ["src", "pkg"] [] (.file (.text source)) ∧
      (load read t (.ofText "src/pkg") []).1 = .ok settings := by
  intro settings source read t
  have hdir : t.directory? (.ofText "src/pkg") = some ["src", "pkg"] := by decide
  have hnull : (FilePath.ofText "src/pkg").hasNull = false := by decide
  have hlong : ¬Overlong ["src", "pkg"] := by
    unfold Overlong
    decide
  have hin : InForce t ["src", "pkg"] [] (.file (.text source)) := by
    refine ⟨List.nil_prefix, rfl, fun d' _ hd hne => ?_⟩
    obtain ⟨below, rfl, rfl | rfl⟩ : ∃ below, d' = "src" :: below ∧ (below = [] ∨ below = ["pkg"]) := by
      simpa [List.prefix_cons_iff, hne] using hd
    · rfl
    · rfl
  have hread : read source = .ok [("tool", .table [("bugscope", .table settings)])] := rfl
  have hdecode : (Content.text source).decode = .ok source := rfl
  have hgood : ∀ f, ¬Spoils read (.file (.text source)) f := fun f hf => by
    have hspoils := (spoils_of_decode hdecode).1 hf
    rw [hread] at hspoils
    exact hspoils.2 _ rfl
  exact ⟨hdir, hnull, hin,
    ((load_inForce read hdir hnull []).2.1 settings).2 ⟨hlong, .inl ⟨[], _, hin, hgood, rfl⟩⟩⟩

/-- A project file that is no text, and one whose `tool` is a text, end the lookup. -/
theorem load_spoiled :
    let holding (content : Content) : FileTree := { entries := [([projectFile], .file content)] }
    let source := "tool = \"x\"\n"
    let read := reading [(source, [("tool", .str "x")])]
    (load read (holding (.bytes ⟨#[0xff]⟩)) {} []).1 = .error .undecodable ∧
      (load read (holding (.text source)) {} []).1 = .error .notATable :=
  ⟨rfl, rfl⟩

end TreeLint.Settings
