/-
The files that some paths stand for. In a proper tree, what is collected covers the files that the paths lead to and
everything that is named as source files are below the directories that they lead to; nothing else is collected. One
thing is collected twice just if it is covered under two spellings, and a directory is collected, too, if it is named
as source files are. Main statement: `collect_covers`.
-/
import TreeLint.Files.Targets
import TreeLint.Proofs.Files.Places
import TreeLint.Proofs.Files.Spelling

namespace TreeLint.FileTree

open FilePath (IsPlain IsPart isSourceName)

variable {t : FileTree} {place place' : Place} {way names : List String} {p q : FilePath} {paths : List String}

/-! ## Proper trees -/

/-- A name that something in a directory can go by. -/
structure IsName (name : String) : Prop extends IsPart name where
  ne_up : name ≠ ".."
  null : '\x00' ∉ name.toList
  size : name.utf8ByteSize ≤ longestName

/-- A tree of such names, in which everything lies in directories. -/
structure IsProper (t : FileTree) : Prop where
  names : ∀ x ∈ t.entries, ∀ name ∈ x.1, IsName name
  around : ∀ x ∈ t.entries, ∀ place, place <+: x.1 → place ≠ x.1 → t.at? place = some .directory

instance (name : String) : Decidable (IsName name) :=
  decidable_of_iff ((name ≠ "" ∧ name ≠ "." ∧ '/' ∉ name.toList) ∧ name ≠ ".." ∧ '\x00' ∉ name.toList ∧
      name.utf8ByteSize ≤ longestName)
    ⟨fun ⟨⟨hempty, hdot, hslash⟩, hup, hnull, hsize⟩ => ⟨⟨hempty, hdot, hslash⟩, hup, hnull, hsize⟩,
      fun h => ⟨⟨h.ne_empty, h.ne_dot, h.slash⟩, h.ne_up, h.null, h.size⟩⟩

instance (t : FileTree) (place : Place) : Decidable (t.at? place = some .directory) :=
  match t.at? place with
  | some .directory => isTrue rfl
  | some (.file _) => isFalse nofun
  | none => isFalse nofun

theorem mem_outwards : place' ∈ Place.outwards place ↔ place' <+: place := by
  unfold Place.outwards
  simp only [List.mem_map, List.mem_reverse, List.mem_range]
  constructor
  · rintro ⟨n, -, rfl⟩
    exact List.take_prefix n place
  · intro h
    exact ⟨place'.length, Nat.lt_succ_of_le h.length_le, (List.prefix_iff_eq_take.1 h).symm⟩

instance (t : FileTree) : Decidable t.IsProper :=
  decidable_of_iff ((∀ x ∈ t.entries, ∀ name ∈ x.1, IsName name) ∧
      ∀ x ∈ t.entries, ∀ place ∈ Place.outwards x.1, place ≠ x.1 → t.at? place = some .directory)
    ⟨fun ⟨hnames, haround⟩ => ⟨hnames, fun x hx place hin => haround x hx place (mem_outwards.2 hin)⟩,
      fun h => ⟨h.names, fun x hx place hin => h.around x hx place (mem_outwards.1 hin)⟩⟩

theorem isSome_at?_iff : (t.at? place).isSome ↔ place = [] ∨ ∃ x ∈ t.entries, place <+: x.1 := by
  unfold at?
  cases h : t.entries.lookup place with
  | some e =>
    obtain ⟨before, after, heq, -⟩ := List.lookup_eq_some_iff.1 h
    refine iff_of_true rfl (.inr ⟨(place, e), ?_, List.prefix_rfl⟩)
    rw [heq]
    exact List.mem_append_right before List.mem_cons_self
  | none =>
    simp only [Bool.or_eq_true, List.isEmpty_iff, List.any_eq_true, List.isPrefixOf_iff_prefix]
    split
    · exact iff_of_true rfl ‹_›
    · exact iff_of_false Bool.false_ne_true ‹_›

theorem IsProper.isName (ht : t.IsProper) (h : (t.at? place).isSome) : ∀ name ∈ place, IsName name := by
  intro name hname
  rcases isSome_at?_iff.1 h with rfl | ⟨x, hx, hplace⟩
  · cases hname
  · exact ht.names x hx name (hplace.subset hname)

theorem IsProper.directory (ht : t.IsProper) (h : (t.at? place).isSome) (hin : place' <+: place)
    (hne : place' ≠ place) : t.at? place' = some .directory := by
  rcases isSome_at?_iff.1 h with rfl | ⟨x, hx, hplace⟩
  · exact absurd (List.prefix_nil.1 hin) hne
  · refine ht.around x hx place' (hin.trans hplace) fun heq => hne ?_
    exact hin.eq_of_length (Nat.le_antisymm hin.length_le (heq ▸ hplace.length_le))

/-! ## Ways -/

/-- The ways from a directory are those to what is there. -/
theorem mem_below_iff : way ∈ t.below place ↔ way ≠ [] ∧ (t.at? (place ++ way)).isSome := by
  have hcut (x : Place) : place <+: x ∧ way <+: x.drop place.length ↔ place ++ way <+: x := by
    constructor
    · rintro ⟨⟨rest, rfl⟩, hway⟩
      rw [List.drop_left] at hway
      exact (List.prefix_append_right_inj place).2 hway
    · rintro ⟨rest, rfl⟩
      rw [List.append_assoc, List.drop_left]
      exact ⟨List.prefix_append _ _, List.prefix_append _ _⟩
  unfold below
  simp only [List.mem_flatMap, List.mem_filter, List.isPrefixOf_iff_prefix, mem_outwards, decide_not,
    Bool.not_eq_true', decide_eq_false_iff_not, isSome_at?_iff, List.append_eq_nil_iff, ne_eq]
  constructor
  · rintro ⟨x, ⟨hx, hplace⟩, hway, hne⟩
    exact ⟨hne, .inr ⟨x, hx, (hcut x.1).1 ⟨hplace, hway⟩⟩⟩
  · rintro ⟨hne, ⟨-, hempty⟩ | ⟨x, hx, hin⟩⟩
    · exact absurd hempty hne
    · obtain ⟨hplace, hway⟩ := (hcut x.1).2 hin
      exact ⟨x, ⟨hx, hplace⟩, hway, hne⟩

theorem follow_append (h : t.follow place names = .ok place') (more : List String) :
    t.follow place (names ++ more) = t.follow place' more := by
  induction names generalizing place with
  | nil =>
    cases h
    rfl
  | cons name rest ih =>
    obtain ⟨hdir, ⟨rfl, hin, hrest⟩ | ⟨hname, hsize, hrest⟩⟩ := follow_cons_cases h
    · rw [List.cons_append, follow, hdir]
      simpa [hin] using ih hrest
    · rw [List.cons_append, follow_concat hdir hname hsize]
      exact ih hrest

/-- Ways to what is there lead there. -/
theorem IsProper.follow_way (ht : t.IsProper) (h : (t.at? (place ++ way)).isSome) :
    t.follow place way = .ok (place ++ way) := by
  induction way generalizing place with
  | nil => rw [follow, List.append_nil]
  | cons name rest ih =>
    have hname := ht.isName h name (by simp)
    have hdir : t.at? place = some .directory := ht.directory h (List.prefix_append _ _) (by simp)
    rw [List.append_cons] at h
    rw [follow_concat hdir hname.ne_up hname.size, ih h, List.append_cons place name rest]

/-- Names that lead to something are double dots or names in the tree. -/
theorem IsProper.isName_of_follow (ht : t.IsProper) (h : t.follow place names = .ok place')
    (hend : (t.at? place').isSome) : ∀ name ∈ names, name = ".." ∨ IsName name := by
  have hstart {place : Place} {names : List String} (h : t.follow place names = .ok place') : (t.at? place).isSome := by
    cases names with
    | nil =>
      cases h
      exact hend
    | cons name rest => rw [(follow_cons_cases h).1, Option.isSome_some]
  induction names generalizing place with
  | nil => exact List.forall_mem_nil _
  | cons name rest ih =>
    obtain ⟨-, ⟨hup, -, hrest⟩ | ⟨-, -, hrest⟩⟩ := follow_cons_cases h
    · exact List.forall_mem_cons.2 ⟨.inl hup, ih hrest⟩
    · exact List.forall_mem_cons.2 ⟨.inr (ht.isName (hstart hrest) name (by simp)), ih hrest⟩

/-- Without a double dot, names lead further in. -/
theorem place_of_follow (h : t.follow place names = .ok place') (hup : ".." ∉ names) : place' = place ++ names := by
  induction names generalizing place with
  | nil =>
    cases h
    exact (List.append_nil _).symm
  | cons name rest ih =>
    obtain ⟨-, ⟨rfl, -, -⟩ | ⟨-, -, hrest⟩⟩ := follow_cons_cases h
    · exact absurd List.mem_cons_self hup
    · rw [ih hrest (mt (List.mem_cons_of_mem name) hup), ← List.append_cons]

/-! ## What a path stands for -/

/-- What a path stands for, with the spelling that it is collected under and the place that it is at. -/
inductive Spells (t : FileTree) (p : FilePath) : FilePath → Place → Prop
  | file {place : Place} {content : Content} : t.find p = .ok (place, .file content) → Spells t p p place
  | below {place : Place} {way : List String} : t.find p = .ok (place, .directory) → way ≠ [] →
    isSourceName (way.getLastD "") = true → (t.at? (place ++ way)).isSome → Spells t p (p.below way) (place ++ way)

/-- A path leads to a place. -/
def Denotes (t : FileTree) (path : String) (place : Place) : Prop :=
  t.follow [] (FilePath.ofText path).parts = .ok place

namespace Spells

theorem isPlain (ht : t.IsProper) (hp : p.IsPlain) (h : t.Spells p q place) : q.IsPlain := by
  cases h with
  | file => exact hp
  | below hfind hne hsource hat =>
    exact hp.below fun name hname => (ht.isName hat name (List.mem_append_right _ hname)).toIsPart

theorem follow (ht : t.IsProper) (h : t.Spells p q place) : t.follow [] q.parts = .ok place := by
  cases h with
  | file hfind => exact (of_find hfind).2.1
  | below hfind _ _ hat =>
    rw [FilePath.below, follow_append (of_find hfind).2.1]
    exact ht.follow_way hat

theorem isSome (h : t.Spells p q place) : (t.at? place).isSome := by
  cases h with
  | file hfind => rw [at?_of_find hfind, Option.isSome_some]
  | below _ _ _ hat => exact hat

/-- The spelling leads to the place. -/
theorem denotes (ht : t.IsProper) (hp : p.IsPlain) (h : t.Spells p q place) : t.Denotes q.text place := by
  rw [Denotes, (h.isPlain ht hp).ofText_text]
  exact h.follow ht

/-- Without a double dot, the place tells the spelling. -/
theorem eq_of_not_up (ht : t.IsProper) (hp : p.IsPlain) (hup : ".." ∉ p.parts) (h : t.Spells p q place) :
    q = { parts := place } := by
  have hparts : ".." ∉ q.parts := by
    cases h with
    | file => exact hup
    | below _ _ _ hat =>
      rw [FilePath.below, List.mem_append, not_or]
      exact ⟨hup, fun hway => (ht.isName hat _ (List.mem_append_right _ hway)).ne_up rfl⟩
  have hplace := place_of_follow (h.follow ht) hparts
  obtain ⟨lead, parts⟩ := q
  obtain rfl : lead = "" := (h.isPlain ht hp).lead
  rw [hplace, List.nil_append]

end Spells

theorem isPlain_of_find {s : String} {x : Place × Entry} (h : t.find (.ofText s) = .ok x) :
    (FilePath.ofText s).IsPlain :=
  FilePath.ofText_isPlain (of_find h).1

theorem IsProper.hasNull_eq_false (ht : t.IsProper) (hp : p.IsPlain) (h : t.follow [] p.parts = .ok place)
    (hat : (t.at? place).isSome) : p.hasNull = false :=
  hp.hasNull_eq_false fun name hname => by
    rcases ht.isName_of_follow h hat name hname with rfl | hname
    · decide +kernel
    · exact hname.null

/-- A path that leads to something stands for what it spells. -/
theorem expand_of_find (ht : t.IsProper) (hp : p.IsPlain) {x : Place × Entry} (h : t.find p = .ok x) :
    ∃ texts, t.expand p = .ok texts ∧ ∀ text, text ∈ texts ↔ ∃ q place, t.Spells p q place ∧ q.text = text := by
  obtain ⟨place, e⟩ := x
  have hnull : p.hasNull = false := ht.hasNull_eq_false hp (of_find h).2.1 (by rw [at?_of_find h, Option.isSome_some])
  unfold expand
  rw [hnull, if_neg Bool.false_ne_true, h]
  cases e with
  | file content =>
    refine ⟨[p.text], rfl, fun text => ?_⟩
    rw [List.mem_singleton]
    constructor
    · rintro rfl
      exact ⟨p, place, .file h, rfl⟩
    · rintro ⟨q, _, hspells, rfl⟩
      cases hspells with
      | file => rfl
      | below hfind => cases h.symm.trans hfind
  | directory =>
    refine ⟨_, rfl, fun text => ?_⟩
    simp only [sourcesBelow, List.mem_map, List.mem_filter, mem_below_iff]
    constructor
    · rintro ⟨way, ⟨⟨hne, hat⟩, hsource⟩, rfl⟩
      exact ⟨_, _, .below h hne hsource hat, rfl⟩
    · rintro ⟨q, _, hspells, rfl⟩
      cases hspells with
      | file hfind => cases h.symm.trans hfind
      | below hfind hne hsource hat =>
        cases h.symm.trans hfind
        exact ⟨_, ⟨⟨hne, hat⟩, hsource⟩, rfl⟩

/-! ## Collecting -/

section MapM

variable {α β ε : Type} {as : List α}

theorem mapM_holds {f : α → Except ε (List β)} {holds : α → β → Prop}
    (h : ∀ a ∈ as, ∃ bs, f a = .ok bs ∧ ∀ b, b ∈ bs ↔ holds a b) :
    ∃ bss, as.mapM f = .ok bss ∧ ∀ b, b ∈ bss.flatten ↔ ∃ a ∈ as, holds a b := by
  induction as with
  | nil => exact ⟨[], rfl, by simp⟩
  | cons a as ih =>
    obtain ⟨bs, hbs, hfirst⟩ := h a List.mem_cons_self
    obtain ⟨bss, hbss, hrest⟩ := ih fun a' ha => h a' (List.mem_cons_of_mem a ha)
    refine ⟨bs :: bss, ?_, fun b => ?_⟩
    · rw [List.mapM_cons, hbs, hbss]
      rfl
    · rw [List.flatten_cons, List.mem_append, hfirst, hrest, List.exists_mem_cons_iff]

theorem ok_of_mapM {f : α → Except ε β} {bs : List β} (h : as.mapM f = .ok bs) : ∀ a ∈ as, ∃ b, f a = .ok b := by
  induction as generalizing bs with
  | nil => exact List.forall_mem_nil _
  | cons a as ih =>
    rw [List.mapM_cons] at h
    cases ha : f a with
    | error e =>
      rw [ha] at h
      cases h
    | ok b =>
      cases has : as.mapM f with
      | error e =>
        rw [ha, has] at h
        cases h
      | ok bs => exact List.forall_mem_cons.2 ⟨⟨b, ha⟩, ih has⟩

end MapM

theorem collect_eq (t : FileTree) (hne : paths ≠ []) :
    t.collect paths =
      (paths.mapM fun s => t.expand (.ofText s)).map fun texts => (NameSet.ofList texts.flatten).toList := by
  unfold collect
  rw [if_neg (mt List.isEmpty_iff.1 hne)]
  dsimp only
  cases paths.mapM fun s => t.expand (.ofText s) <;> rfl

/-- Some paths, and all that they stand for, as it is spelled. -/
structure Covers (t : FileTree) (paths : List String) (found : NameSet) : Prop where
  isPlain : ∀ s ∈ paths, (FilePath.ofText s).IsPlain
  mem_iff : ∀ text, text ∈ found ↔ ∃ s ∈ paths, ∃ q place, t.Spells (.ofText s) q place ∧ q.text = text

/-- Of paths that lead to something, what they stand for is collected. -/
theorem collect_of_found (ht : t.IsProper) (hne : paths ≠ [])
    (hfound : ∀ s ∈ paths, ∃ x, t.find (.ofText s) = .ok x) :
    ∃ found : NameSet, t.collect paths = .ok found.toList ∧ t.Covers paths found := by
  obtain ⟨texts, htexts, hmem⟩ := mapM_holds fun s hs => by
    obtain ⟨x, hx⟩ := hfound s hs
    exact expand_of_find ht (isPlain_of_find hx) hx
  refine ⟨.ofList texts.flatten, ?_, fun s hs => ?_, fun text => NameSet.mem_ofList.trans (hmem text)⟩
  · rw [collect_eq t hne, htexts]
    rfl
  · obtain ⟨x, hx⟩ := hfound s hs
    exact isPlain_of_find hx

namespace Covers

variable {found found' : NameSet} {s text : String}

/-- Neither the order of the paths nor a repetition matters. -/
theorem congr {paths' : List String} (h : t.Covers paths found) (h' : t.Covers paths' found')
    (hsame : ∀ s, s ∈ paths' ↔ s ∈ paths) : found' = found :=
  NameSet.ext fun text => by simp only [h'.mem_iff, h.mem_iff, hsame]

/-- Each path that is collected is spelled so by a given one, for the one place that it leads to. -/
theorem spells (ht : t.IsProper) (h : t.Covers paths found) (htext : text ∈ found) (hplace : t.Denotes text place) :
    ∃ s ∈ paths, ∃ q, t.Spells (.ofText s) q place ∧ q.text = text := by
  obtain ⟨s, hs, q, place', hspells, rfl⟩ := (h.mem_iff text).1 htext
  cases (hspells.denotes ht (h.isPlain s hs)).symm.trans hplace
  exact ⟨s, hs, q, hspells, rfl⟩

theorem collects (ht : t.IsProper) (h : t.Covers paths found) (hs : s ∈ paths) (hq : t.Spells (.ofText s) q place) :
    q.text ∈ found ∧ t.Denotes q.text place :=
  ⟨(h.mem_iff q.text).2 ⟨s, hs, q, place, hq, rfl⟩, hq.denotes ht (h.isPlain s hs)⟩

theorem denotes_iff (ht : t.IsProper) (h : t.Covers paths found) (place : Place) :
    (∃ text ∈ found, t.Denotes text place) ↔ ∃ s ∈ paths, ∃ q, t.Spells (.ofText s) q place := by
  constructor
  · rintro ⟨text, htext, hplace⟩
    obtain ⟨s, hs, q, hq, -⟩ := h.spells ht htext hplace
    exact ⟨s, hs, q, hq⟩
  · rintro ⟨s, hs, q, hq⟩
    exact ⟨q.text, h.collects ht hs hq⟩

/-- A place is led to once just if it is spelled in one way. -/
theorem once_iff (ht : t.IsProper) (h : t.Covers paths found) (place : Place) :
    (∀ text ∈ found, ∀ text' ∈ found, t.Denotes text place → t.Denotes text' place → text = text') ↔
      ∀ s ∈ paths, ∀ s' ∈ paths, ∀ q q', t.Spells (.ofText s) q place → t.Spells (.ofText s') q' place → q = q' := by
  constructor
  · intro honce s hs s' hs' q q' hq hq'
    obtain ⟨htext, hplace⟩ := h.collects ht hs hq
    obtain ⟨htext', hplace'⟩ := h.collects ht hs' hq'
    have hsame : q.text = q'.text := honce _ htext _ htext' hplace hplace'
    exact (hq.isPlain ht (h.isPlain s hs)).text_inj (hq'.isPlain ht (h.isPlain s' hs')) hsame
  · intro halike text htext text' htext' hplace hplace'
    obtain ⟨s, hs, q, hq, rfl⟩ := h.spells ht htext hplace
    obtain ⟨s', hs', q', hq', rfl⟩ := h.spells ht htext' hplace'
    rw [halike s hs s' hs' q q' hq hq']

/-- Without a double dot, every place is spelled in one way. -/
theorem once_of_not_up (ht : t.IsProper) (h : t.Covers paths found)
    (hup : ∀ s ∈ paths, ".." ∉ (FilePath.ofText s).parts) (place : Place) :
    ∀ text ∈ found, ∀ text' ∈ found, t.Denotes text place → t.Denotes text' place → text = text' :=
  (h.once_iff ht place).2 fun s hs s' hs' _ _ hq hq' => by
    rw [hq.eq_of_not_up ht (h.isPlain s hs) (hup s hs), hq'.eq_of_not_up ht (h.isPlain s' hs') (hup s' hs')]

/-- A directory is led to just if one below a given directory is named as source files are. -/
theorem directory_iff (ht : t.IsProper) (h : t.Covers paths found) :
    (∃ text ∈ found, ∃ place, t.Denotes text place ∧ t.at? place = some .directory) ↔
      ∃ s ∈ paths, ∃ place way, t.find (.ofText s) = .ok (place, .directory) ∧ way ≠ [] ∧
        isSourceName (way.getLastD "") = true ∧ t.at? (place ++ way) = some .directory := by
  constructor
  · rintro ⟨text, htext, place, hplace, hdir⟩
    obtain ⟨s, hs, q, hq, -⟩ := h.spells ht htext hplace
    cases hq with
    | file hfind => cases hdir.symm.trans (at?_of_find hfind)
    | below hfind hway hsource => exact ⟨s, hs, _, _, hfind, hway, hsource, hdir⟩
  · rintro ⟨s, hs, place, way, hfind, hway, hsource, hdir⟩
    have hq := Spells.below hfind hway hsource (by rw [hdir, Option.isSome_some])
    obtain ⟨htext, hplace⟩ := h.collects ht hs hq
    exact ⟨_, htext, _, hplace, hdir⟩

end Covers

/-! ## Collecting again -/

/-- A path that is spelled out, and that leads to something. -/
structure IsSpelled (t : FileTree) (text : String) : Prop where
  isPlain : (FilePath.ofText text).IsPlain
  text_ofText : (FilePath.ofText text).text = text
  leads : ∃ place, t.Denotes text place ∧ (t.at? place).isSome

theorem Spells.isSpelled (ht : t.IsProper) (hp : p.IsPlain) (h : t.Spells p q place) : t.IsSpelled q.text := by
  have hq := h.isPlain ht hp
  rw [← hq.ofText_text] at hq
  exact ⟨hq, by rw [(h.isPlain ht hp).ofText_text], place, h.denotes ht hp, h.isSome⟩

/-- What is not even looked up has too long a path. -/
theorem IsSpelled.find_of_expand (ht : t.IsProper) {text : String} (h : t.IsSpelled text) {texts : List String}
    (hexpand : t.expand (.ofText text) = .ok texts) : ∃ x, t.find (.ofText text) = .ok x := by
  obtain ⟨place, hdenotes, hat⟩ := h.leads
  have hnull := ht.hasNull_eq_false h.isPlain hdenotes hat
  obtain ⟨e, he⟩ := Option.isSome_iff_exists.1 hat
  have hshort : ¬ longestPath < (FilePath.ofText text).text.utf8ByteSize := fun hlong => by
    rw [expand, hnull, if_neg Bool.false_ne_true, find_of_long hlong] at hexpand
    cases hexpand
  refine ⟨(place, e), ?_⟩
  rw [find_eq, if_neg hshort, if_neg (by simp [FilePath.isAbsolute, h.isPlain.lead]), hdenotes]
  dsimp only
  rw [he]

/-- Where all that is covered is given, no directory is given: of those, only what is below them is covered. -/
theorem Covers.not_directory (ht : t.IsProper) {found : NameSet} (h : t.Covers found.toList found) :
    ∀ text ∈ found, ∀ place, t.find (.ofText text) ≠ .ok (place, .directory) := by
  have hdepth (n : Nat) : ∀ text ∈ found, (FilePath.ofText text).parts.length = n →
      ∀ place, t.find (.ofText text) ≠ .ok (place, .directory) := by
    -- on the depth: what spells it is a directory less deep
    induction n using Nat.strongRecOn with
    | ind n ih =>
      intro text htext hlength place hdir
      obtain ⟨s, hs, q, place', hspells, rfl⟩ := (h.mem_iff text).1 htext
      have hq := (hspells.isPlain ht (h.isPlain s hs)).ofText_text
      rw [hq] at hlength hdir
      cases hspells with
      | file hfind => cases hdir.symm.trans hfind
      | @below _ way hfind hne _ _ =>
        refine ih _ ?_ s hs rfl _ hfind
        rw [← hlength, FilePath.below, List.length_append]
        exact Nat.lt_add_of_pos_right (List.length_pos_iff.2 hne)
  exact fun text htext => hdepth _ text htext rfl

theorem openFile_isOk_iff :
    (∃ x, t.openFile p = .ok x) ↔ ∃ place content, t.find p = .ok (place, .file content) := by
  rw [openFile_eq]
  rcases t.find p with e | ⟨place, _ | content⟩ <;> simp

theorem collect_again (ht : t.IsProper) {found : NameSet} (hne : found.toList ≠ [])
    (hspelled : ∀ text ∈ found, t.IsSpelled text) :
    t.collect found.toList = .ok found.toList ↔ ∀ text ∈ found, ∃ x, t.openFile (.ofText text) = .ok x := by
  simp only [openFile_isOk_iff]
  constructor
  · intro h
    have hfind : ∀ s ∈ found.toList, ∃ x, t.find (.ofText s) = .ok x := fun s hs => by
      rw [collect_eq t hne] at h
      cases hall : found.toList.mapM fun s => t.expand (.ofText s) with
      | error e =>
        rw [hall] at h
        cases h
      | ok texts =>
        obtain ⟨texts, htexts⟩ := ok_of_mapM hall s hs
        exact (hspelled s hs).find_of_expand ht htexts
    obtain ⟨again, hagain, hcovers⟩ := collect_of_found ht hne hfind
    have heq : again.toList = found.toList := Except.ok.inj (hagain.symm.trans h)
    obtain rfl : again = found := NameSet.ext fun text => by rw [NameSet.mem_def, heq, NameSet.mem_def]
    intro text htext
    obtain ⟨⟨place, e⟩, hx⟩ := hfind text htext
    cases e with
    | directory => exact absurd hx (hcovers.not_directory ht text htext place)
    | file content => exact ⟨place, content, hx⟩
  · intro hfile
    obtain ⟨again, hagain, hcovers⟩ := collect_of_found ht hne fun s hs => by
      obtain ⟨place, content, hfind⟩ := hfile s hs
      exact ⟨_, hfind⟩
    have heq : again = found := NameSet.ext fun text => by
      rw [hcovers.mem_iff]
      constructor
      · rintro ⟨s, hs, q, place, hspells, rfl⟩
        obtain ⟨place', content, hfind⟩ := hfile s hs
        cases hspells with
        | file => rwa [(hspelled s hs).text_ofText]
        | below hdir => cases hfind.symm.trans hdir
      · intro htext
        obtain ⟨place, content, hfind⟩ := hfile text htext
        exact ⟨text, htext, _, place, .file hfind, (hspelled text htext).text_ofText⟩
    rw [hagain, heq]

/-! ## What is collected -/

/-- From paths that each lead to something in a proper tree, a strictly ascending list of paths is collected, which
depends neither on their order nor on repetitions. It leads to the files that the paths lead to and to what is named as
source files are below the directories that they lead to, and nowhere else. One place is led to once if it is spelled
in one way, as it is where no path leads back by a double dot. A directory is among the places if one below a given
directory is named as source files are. From what was collected, the same is collected again just if all of it can be
opened as files. -/
theorem collect_covers (ht : t.IsProper) (hne : paths ≠ []) (hfound : ∀ s ∈ paths, ∃ x, t.find (.ofText s) = .ok x) :
    ∃ found, t.collect paths = .ok found ∧ found.Pairwise (· < ·) ∧
      (∀ paths', (∀ s, s ∈ paths' ↔ s ∈ paths) → t.collect paths' = .ok found) ∧
      (∀ place, (∃ text ∈ found, t.Denotes text place) ↔ ∃ s ∈ paths, ∃ q, t.Spells (.ofText s) q place) ∧
      (∀ place, (∀ text ∈ found, ∀ text' ∈ found, t.Denotes text place → t.Denotes text' place → text = text') ↔
        ∀ s ∈ paths, ∀ s' ∈ paths, ∀ q q', t.Spells (.ofText s) q place → t.Spells (.ofText s') q' place → q = q') ∧
      ((∀ s ∈ paths, ".." ∉ (FilePath.ofText s).parts) → ∀ text ∈ found, ∀ text' ∈ found, ∀ place,
        t.Denotes text place → t.Denotes text' place → text = text') ∧
      ((∃ text ∈ found, ∃ place, t.Denotes text place ∧ t.at? place = some .directory) ↔
        ∃ s ∈ paths, ∃ place way, t.find (.ofText s) = .ok (place, .directory) ∧ way ≠ [] ∧
          isSourceName (way.getLastD "") = true ∧ t.at? (place ++ way) = some .directory) ∧
      (found ≠ [] → (t.collect found = .ok found ↔ ∀ text ∈ found, ∃ x, t.openFile (.ofText text) = .ok x)) := by
  obtain ⟨found, hcollect, hcovers⟩ := collect_of_found ht hne hfound
  refine ⟨found.toList, hcollect, found.ascending, fun paths' hsame => ?_, hcovers.denotes_iff ht, hcovers.once_iff ht,
    fun hup text htext text' htext' place => ?_, hcovers.directory_iff ht, fun hsome => ?_⟩
  · have hne' : paths' ≠ [] := fun hnil => by
      obtain ⟨s, hs⟩ := List.exists_mem_of_ne_nil paths hne
      rw [← hsame, hnil] at hs
      cases hs
    obtain ⟨found', hcollect', hcovers'⟩ := collect_of_found ht hne' fun s hs => hfound s ((hsame s).1 hs)
    rw [hcollect', hcovers.congr hcovers' hsame]
  · exact hcovers.once_of_not_up ht hup place text htext text' htext'
  · refine collect_again ht hsome fun text htext => ?_
    obtain ⟨s, hs, q, place, hq, rfl⟩ := (hcovers.mem_iff text).1 htext
    exact hq.isSpelled ht (hcovers.isPlain s hs)

/-- A package with a module and some notes, and a module beside it. -/
def packaged : FileTree where
  entries :=
    [(["pkg", "a.py"], .file (.text "")), (["pkg", "notes.txt"], .file (.text "")), (["b.py"], .file (.text ""))]

theorem collect_covers_packaged :
    let paths := ["pkg", "b.py", "b.py"]
    packaged.IsProper ∧ (∀ s ∈ paths, ∃ x, packaged.find (.ofText s) = .ok x) ∧
    packaged.collect paths = .ok ["b.py", "pkg/a.py"] ∧ packaged.collect ["b.py", "pkg"] = .ok ["b.py", "pkg/a.py"] ∧
    packaged.collect ["b.py", "pkg/a.py"] = .ok ["b.py", "pkg/a.py"] := by
  intro paths
  have hproper : packaged.IsProper := by decide +kernel
  have hfound : ∀ s ∈ paths, ∃ x, packaged.find (.ofText s) = .ok x := by
    simp only [paths, List.forall_mem_cons]
    exact ⟨⟨_, by rfl⟩, ⟨_, by rfl⟩, ⟨_, by rfl⟩, List.forall_mem_nil _⟩
  obtain ⟨found, hcollect, -, hsame, -, -, -, -, hagain⟩ := collect_covers hproper (List.cons_ne_nil _ _) hfound
  obtain rfl : found = ["b.py", "pkg/a.py"] := Except.ok.inj (hcollect.symm.trans (by rfl))
  have hagain := (hagain (List.cons_ne_nil _ _)).2
  refine ⟨hproper, hfound, hcollect, hsame ["b.py", "pkg"] (by simp [or_comm]), hagain ?_⟩
  simp only [List.forall_mem_cons]
  exact ⟨⟨_, by rfl⟩, ⟨_, by rfl⟩, List.forall_mem_nil _⟩

/-- A directory that is named as source files are is collected, and a file that is covered under two spellings is
collected twice. -/
theorem collect_twice :
    let t : FileTree := { entries := [(["pkg", "a.py"], .file (.text "")), (["pkg", "mod.py"], .directory)] }
    t.IsProper ∧ t.collect ["pkg"] = .ok ["pkg/a.py", "pkg/mod.py"] ∧
    t.Denotes "pkg/mod.py" ["pkg", "mod.py"] ∧ t.at? ["pkg", "mod.py"] = some .directory ∧
    t.collect ["pkg/a.py", "pkg/mod.py"] = .ok ["pkg/a.py"] ∧
    t.collect ["pkg/a.py", "pkg/../pkg/a.py"] = .ok ["pkg/../pkg/a.py", "pkg/a.py"] ∧
    t.Denotes "pkg/a.py" ["pkg", "a.py"] ∧ t.Denotes "pkg/../pkg/a.py" ["pkg", "a.py"] := by
  intro t
  exact ⟨by decide +kernel, by rfl, by rfl, by rfl, by rfl, by rfl, by rfl, by rfl⟩

end TreeLint.FileTree
