/-
The types of classes, asked for one after another. The graph of the classes may go round in circles, classes may share
a name, and the search for the ancestors of a class may fail. Each question comes to an end, since a name is built
within itself never: with every step down there is one name less that is not under construction. What is remembered
goes by steps of the graph, and where names are unique and the graph has no circles no type is cut off, so that every
type has all ancestors, whatever was asked before. Main statement: `typeOf_ancestry`.
-/
import TreeLint.Proofs.Attempt
import TreeLint.Proofs.Facts.Types
import TreeLint.Proofs.Resolver.Subtypes

namespace TreeLint

/-! ## Types above a type -/

namespace TypeRef

open Relation

variable {P : TypeRef → Prop} {R : String → String → Prop} {t s : TypeRef} {name : String}

/-- One type is a direct or indirect supertype of another. -/
def Inherits : TypeRef → TypeRef → Prop :=
  TransGen fun t s => s ∈ t.supertypes

/-- A type and all types above it have a property. -/
def Throughout (P : TypeRef → Prop) (t : TypeRef) : Prop :=
  ∀ s, t.Reaches s → P s

theorem Throughout.of_supertypes (h : P t) (hsupertypes : ∀ s ∈ t.supertypes, s.Throughout P) : t.Throughout P := by
  intro s hs
  rcases ReflTransGen.cases_head hs with rfl | ⟨u, hu, hs⟩
  · exact h
  · exact hsupertypes u hu s hs

/-- Where each step up goes by a relation of names, the types above are reached by it. -/
theorem Inherits.transGen (hR : t.Throughout fun s => ∀ u ∈ s.supertypes, R s.qualifiedName u.qualifiedName)
    (h : t.Inherits s) : TransGen R t.qualifiedName s.qualifiedName := by
  induction h with
  | single hs => exact .single (hR t .refl _ hs)
  | tail hu hs ih => exact ih.tail (hR _ hu.to_reflTransGen _ hs)

/-- Where each step of a relation of names is one up, what is reached by it is the name of a type above. -/
theorem exists_inherits
    (hR : t.Throughout fun s => ∀ name, R s.qualifiedName name → ∃ u ∈ s.supertypes, u.qualifiedName = name)
    (h : TransGen R t.qualifiedName name) : ∃ s, t.Inherits s ∧ s.qualifiedName = name := by
  induction h with
  | single hstep =>
    obtain ⟨s, hs, hname⟩ := hR t .refl _ hstep
    exact ⟨s, .single hs, hname⟩
  | tail _ hstep ih =>
    obtain ⟨u, hu, rfl⟩ := ih
    obtain ⟨s, hs, hname⟩ := hR u hu.to_reflTransGen _ hstep
    exact ⟨s, hu.tail hs, hname⟩

end TypeRef

namespace Facts

open Relation

variable {facts : Facts} {position ancestor : Nat} {c : ClassFacts} {name : String} {k : Known}

/-! ## The graph of classes -/

/-- The qualified name of the class of a row. -/
def nameAt (facts : Facts) (position : Nat) : Option String :=
  match facts.form position with
  | .classDef c => c.qualifiedName
  | _ => none

theorem nameAt_eq (hform : facts.form position = .classDef c) : facts.nameAt position = c.qualifiedName := by
  rw [nameAt, hform]

/-- The rows that the search for the ancestors of a class yields, up to where it fails. -/
def yielded : List Step → List Nat
  | .row position :: rest => position :: yielded rest
  | _ => []

/-- The search for the ancestors of a class does not fail. -/
def ClassFacts.IsEnumerated (c : ClassFacts) : Prop :=
  ∀ t, Step.trouble t ∉ c.ancestors

/-- The search for the ancestors of one class yields another, whether or not it fails afterwards. -/
def YieldsRow (facts : Facts) (position ancestor : Nat) : Prop :=
  ∃ c, facts.form position = .classDef c ∧ ancestor ∈ yielded c.ancestors

/-- One class is a direct ancestor of another. A class has none if the search for them fails. -/
def IsAncestor (facts : Facts) (position ancestor : Nat) : Prop :=
  ∃ c, facts.form position = .classDef c ∧ c.IsEnumerated ∧ .row ancestor ∈ c.ancestors

/-- Some class with one name has a direct ancestor with another. -/
def NameStep (facts : Facts) (name above : String) : Prop :=
  ∃ position ancestor, facts.nameAt position = some name ∧ facts.nameAt ancestor = some above ∧
    facts.IsAncestor position ancestor

/-- No two classes have one qualified name. -/
def HasUniqueNames (facts : Facts) : Prop :=
  ∀ p q name, facts.nameAt p = some name → facts.nameAt q = some name → p = q

/-- No class comes back to itself among what the searches for ancestors yield. -/
def IsAcyclic (facts : Facts) : Prop :=
  ∀ position, ¬ TransGen facts.YieldsRow position position

/-- A reason why asking for the type of a class comes to a fault. -/
inductive Flaw (facts : Facts) : Fault → Prop
  | unnamed {position : Nat} {c : ClassFacts} : facts.form position = .classDef c → c.qualifiedName = none →
      Flaw facts Trouble.unanswerable.toFault
  | noClass {position ancestor : Nat} {c : ClassFacts} : facts.form position = .classDef c →
      ancestor ∈ yielded c.ancestors → (∀ d, facts.form ancestor ≠ .classDef d) →
      Flaw facts Trouble.unanswerable.toFault
  | trouble {position : Nat} {c : ClassFacts} {t : Trouble} : facts.form position = .classDef c →
      .trouble t ∈ c.ancestors → t ≠ .unresolved → Flaw facts t.toFault

/-- Facts that are no more than a graph: each class has a name, and each step to an ancestor leads to a class or fails
because nothing is found. -/
structure IsClassGraph (facts : Facts) : Prop where
  named : ∀ position c, facts.form position = .classDef c → c.qualifiedName ≠ none
  steps : ∀ position c, facts.form position = .classDef c → ∀ step ∈ c.ancestors,
    (∃ ancestor d, step = .row ancestor ∧ facts.form ancestor = .classDef d) ∨ step = .trouble .unresolved

theorem row_mem_of_yielded {steps : List Step} (h : ancestor ∈ yielded steps) : Step.row ancestor ∈ steps := by
  fun_induction yielded steps with
  | case1 position rest ih =>
    rcases List.mem_cons.1 h with rfl | h
    · exact List.mem_cons_self
    · exact List.mem_cons_of_mem _ (ih h)
  | case2 => cases h

theorem IsClassGraph.not_flaw (h : facts.IsClassGraph) (f : Fault) : ¬ facts.Flaw f := by
  rintro (⟨hform, hname⟩ | ⟨hform, hancestor, hno⟩ | ⟨hform, htrouble, ht⟩)
  · exact h.named _ _ hform hname
  · rcases h.steps _ _ hform _ (row_mem_of_yielded hancestor) with ⟨ancestor, d, heq, hd⟩ | heq
    · cases heq
      exact hno d hd
    · cases heq
  · rcases h.steps _ _ hform _ htrouble with ⟨ancestor, d, heq, hd⟩ | heq
    · cases heq
    · cases heq
      exact ht rfl

/-! ## Names not under construction -/

/-- The names of the classes. -/
def classNames (facts : Facts) : List String :=
  (List.range facts.rows.size).filterMap facts.nameAt

/-- How many names of classes are not under construction. -/
def room (facts : Facts) (building : List String) : Nat :=
  (facts.classNames.filter (· ∉ building)).length

theorem mem_classNames (h : facts.nameAt position = some name) : name ∈ facts.classNames := by
  refine List.mem_filterMap.2 ⟨position, List.mem_range.2 ?_, h⟩
  refine Nat.lt_of_not_le fun hsize => ?_
  rw [nameAt, form, Array.getElem?_eq_none hsize] at h
  cases h

theorem room_lt_depth (facts : Facts) (building : List String) : facts.room building < facts.depth := by
  have hnames : facts.classNames.length ≤ (List.range facts.rows.size).length := List.length_filterMap_le _ _
  rw [List.length_range] at hnames
  exact Nat.lt_succ_of_le (Nat.le_trans (List.length_filter_le _ _) hnames)

/-- A name that comes under construction leaves less room. -/
theorem room_cons_lt {building : List String} (h : name ∈ facts.classNames) (hname : name ∉ building) :
    facts.room (name :: building) < facts.room building := by
  have hfilter : facts.classNames.filter (· ∉ name :: building) =
      (facts.classNames.filter (· ∉ building)).filter (· ≠ name) := by
    rw [List.filter_filter]
    refine List.filter_congr fun other _ => ?_
    simp
  rw [room, room, hfilter]
  refine List.length_filter_lt_length_iff_exists.2 ⟨name, List.mem_filter.2 ⟨h, by simpa using hname⟩, by simp⟩

/-! ## Questions come to an end -/

theorem ancestorTypes_congr {f g : Nat → Attempt Known TypeRef} {building : List String}
    (hf : ∀ position, Advances (f position))
    (h : ∀ position k, k.building = building → f position k = g position k) :
    ∀ (steps : List Step) (k : Known), k.building = building → ancestorTypes f steps k = ancestorTypes g steps k
  | [], _, _ => rfl
  | .trouble .unresolved :: _, _, _ => rfl
  | .trouble .unanswerable :: _, _, _ => rfl
  | .trouble (.fault _) :: _, _, _ => rfl
  | .row position :: rest, k, hk => by
    have hback := (hf position k).building
    unfold ancestorTypes
    rw [Attempt.bind_apply, Attempt.bind_apply, ← h position k hk]
    rcases hres : f position k with ⟨e | t, k'⟩
    · rfl
    · rw [hres] at hback
      have hrest := ancestorTypes_congr hf h rest k' (hback.trans hk)
      dsimp only
      rw [Attempt.bind_apply, Attempt.bind_apply, hrest]

/-- To build a type, its ancestors are asked for with one more name under construction. -/
theorem buildType_congr {f g : Nat → Attempt Known TypeRef} (hf : ∀ position, Advances (f position))
    (hname : c.qualifiedName = some name)
    (h : name ∉ k.building → ∀ position k', k'.building = name :: k.building → f position k' = g position k') :
    buildType f c k = buildType g c k := by
  rw [buildType_apply f hname, buildType_apply g hname]
  cases k.types.lookup name with
  | some t => rfl
  | none =>
    dsimp only
    split
    · rfl
    · rename_i hfresh
      have hfresh' : name ∉ k.building := by simpa using hfresh
      have hinner := ancestorTypes_congr hf (h hfresh') c.ancestors { k with building := name :: k.building } rfl
      unfold construct
      rw [Attempt.bind_apply, Attempt.bind_apply, Attempt.caught_apply, Attempt.caught_apply, hinner]

/-- With more depth than there are names left to build, the depth makes no difference. -/
theorem typeWithin_stable (facts : Facts) : ∀ (depth depth' position : Nat) (k : Known), facts.room k.building < depth →
    facts.room k.building < depth' → facts.typeWithin depth position k = facts.typeWithin depth' position k
  | 0, _, _, _, h, _ => absurd h (Nat.not_lt_zero _)
  | _, 0, _, _, _, h => absurd h (Nat.not_lt_zero _)
  | depth + 1, depth' + 1, position, k, h, h' => by
    unfold typeWithin
    cases hform : facts.form position with
    | classDef c =>
      dsimp only
      cases hname : c.qualifiedName with
      | none => rw [buildType_unnamed _ hname, buildType_unnamed _ hname]
      | some name =>
        refine buildType_congr (typeWithin_advances facts depth) hname fun hfresh ancestor k' hk' => ?_
        have hless := room_cons_lt (mem_classNames ((nameAt_eq hform).trans hname)) hfresh
        rw [← hk'] at hless
        exact typeWithin_stable facts depth depth' ancestor k' (by omega) (by omega)
    | _ => rfl

/-! ## What a question comes to -/

variable {α β : Type} {I : Known → Prop} {E : Fault → Prop}

/-- A computation that, from certain states, comes to such a state again, to faults of one sort only and to results of
one sort only. -/
structure Serves (I : Known → Prop) (E : Fault → Prop) (Q : α → Prop) (x : Attempt Known α) : Prop where
  state : ∀ k, I k → I (x k).2
  fault : ∀ k, I k → FailsOnly E (x k).1
  result : ∀ k, I k → ∀ a, (x k).1 = .ok a → Q a

theorem Serves.pure {Q : α → Prop} {a : α} (h : Q a) : Serves I E Q (pure a) where
  state _ hk := hk
  fault _ _ := .ok a
  result _ _ b hb := by
    cases hb
    exact h

theorem Serves.fail {Q : α → Prop} {f : Fault} (h : E f) : Serves I E Q (Attempt.fail f) :=
  ⟨fun _ hk => hk, fun _ _ => .error h, nofun⟩

theorem Serves.bind {Q : α → Prop} {Q' : β → Prop} {x : Attempt Known α} {f : α → Attempt Known β} (hx : Serves I E Q x)
    (hf : ∀ a, Q a → Serves I E Q' (f a)) : Serves I E Q' (x >>= f) := by
  suffices h : ∀ k, I k → I ((x >>= f) k).2 ∧ FailsOnly E ((x >>= f) k).1 ∧ ∀ b, ((x >>= f) k).1 = .ok b → Q' b from
    ⟨fun k hk => (h k hk).1, fun k hk => (h k hk).2.1, fun k hk => (h k hk).2.2⟩
  intro k hk
  have hstate := hx.state k hk
  have hfault := hx.fault k hk
  have hresult := hx.result k hk
  rw [Attempt.bind_apply]
  rcases h : x k with ⟨e | a, k'⟩ <;> rw [h] at hstate hfault hresult
  · exact ⟨hstate, .error (hfault e rfl), nofun⟩
  · have hrest := hf a (hresult a rfl)
    exact ⟨hrest.state k' hstate, hrest.fault k' hstate, hrest.result k' hstate⟩

/-- Types that a search for ancestors which does not fail comes to: one for each step, and no others. -/
structure Enumerates (Q : Nat → TypeRef → Prop) (steps : List Step) (ts : List TypeRef) : Prop where
  untroubled : ∀ t, .trouble t ∉ steps
  row : ∀ t ∈ ts, ∃ position, .row position ∈ steps ∧ Q position t
  all : ∀ position, .row position ∈ steps → ∃ t ∈ ts, Q position t

theorem Enumerates.nil {Q : Nat → TypeRef → Prop} : Enumerates Q [] [] := ⟨nofun, nofun, nofun⟩

theorem Enumerates.cons {Q : Nat → TypeRef → Prop} {steps : List Step} {ts : List TypeRef} {t : TypeRef}
    (ht : Q position t) (h : Enumerates Q steps ts) : Enumerates Q (.row position :: steps) (t :: ts) where
  untroubled trouble htrouble := by
    rcases List.mem_cons.1 htrouble with heq | htrouble
    · cases heq
    · exact h.untroubled trouble htrouble
  row u hu := by
    rcases List.mem_cons.1 hu with rfl | hu
    · exact ⟨position, List.mem_cons_self, ht⟩
    · obtain ⟨q, hq, hQ⟩ := h.row u hu
      exact ⟨q, List.mem_cons_of_mem _ hq, hQ⟩
  all q hq := by
    rcases List.mem_cons.1 hq with heq | hq
    · cases heq
      exact ⟨t, List.mem_cons_self, ht⟩
    · obtain ⟨u, hu, hQ⟩ := h.all q hq
      exact ⟨u, List.mem_cons_of_mem t hu, hQ⟩

/-- What a search for ancestors comes to: their types, or nothing where it fails. -/
def Searches (Q : Nat → TypeRef → Prop) (steps : List Step) : Option (List TypeRef) → Prop
  | some ts => Enumerates Q steps ts
  | none => ∃ t, .trouble t ∈ steps

theorem ancestorTypes_serves {Q : Nat → TypeRef → Prop} {typeAt : Nat → Attempt Known TypeRef} : ∀ {steps : List Step},
    (∀ position ∈ yielded steps, Serves I E (Q position) (typeAt position)) →
    (∀ t, .trouble t ∈ steps → t ≠ .unresolved → E t.toFault) →
    Serves I E (Searches Q steps) (ancestorTypes typeAt steps)
  | [], _, _ => .pure .nil
  | .trouble .unresolved :: _, _, _ => .pure ⟨_, List.mem_cons_self⟩
  | .trouble .unanswerable :: _, _, ht => .fail (ht _ List.mem_cons_self nofun)
  | .trouble (.fault _) :: _, _, ht => .fail (ht _ List.mem_cons_self nofun)
  | .row position :: rest, h, ht => by
    have hrest := ancestorTypes_serves (fun q hq => h q (List.mem_cons_of_mem _ hq))
      fun t htrouble => ht t (List.mem_cons_of_mem _ htrouble)
    refine (h position List.mem_cons_self).bind fun t hfirst => hrest.bind fun ts hts => .pure ?_
    cases ts with
    | none =>
      obtain ⟨trouble, htrouble⟩ := hts
      exact ⟨trouble, List.mem_cons_of_mem _ htrouble⟩
    | some ts => exact Enumerates.cons hfirst hts

/-- Types remembered under their own names, each of which has a property, as have all above it. -/
def Known.Keeps (P : TypeRef → Prop) (k : Known) : Prop :=
  ∀ entry ∈ k.types, entry.2.qualifiedName = entry.1 ∧ entry.2.Throughout P

/-- The answer to a question about the type of a row. -/
structure IsAnswer (facts : Facts) (P : TypeRef → Prop) (position : Nat) (t : TypeRef) : Prop where
  name : facts.nameAt position = some t.qualifiedName
  throughout : t.Throughout P

/-- A property of all types that come up, where a row is only asked for with certain names under construction. -/
structure ComesUp (facts : Facts) (askedWith : Nat → List String → Prop) (P : TypeRef → Prop) : Prop where
  below : ∀ position c name building, facts.form position = .classDef c → c.qualifiedName = some name →
    askedWith position building → ∀ ancestor ∈ yielded c.ancestors, askedWith ancestor (name :: building)
  cut : ∀ position name building, facts.nameAt position = some name → askedWith position building → name ∈ building →
    P { qualifiedName := name }
  built : ∀ position c name supertypes, facts.form position = .classDef c → c.qualifiedName = some name →
    Searches (facts.IsAnswer P) c.ancestors supertypes → P { qualifiedName := name, supertypes := supertypes.getD [] }

section ComesUp

variable {askedWith : Nat → List String → Prop} {P : TypeRef → Prop} {building : List String}

/-- A type that is built goes by the answers about the ancestors, and is remembered. -/
theorem construct_serves (hP : facts.ComesUp askedWith P) (hform : facts.form position = .classDef c)
    (hname : c.qualifiedName = some name) {typeAt : Nat → Attempt Known TypeRef} {I : Known → Prop}
    (hI : ∀ k, I k → k.Keeps P)
    (hancestors : Serves I facts.Flaw (Searches (facts.IsAnswer P) c.ancestors) (ancestorTypes typeAt c.ancestors)) :
    ∀ k, I k → (construct typeAt c name k).2.Keeps P ∧ FailsOnly facts.Flaw (construct typeAt c name k).1 ∧
      ∀ t, (construct typeAt c name k).1 = .ok t → facts.IsAnswer P position t := by
  intro k hk
  have hkeeps := hI _ (hancestors.state k hk)
  have hfault := hancestors.fault k hk
  have hresult := hancestors.result k hk
  obtain ⟨-, hbuilt⟩ := construct_apply typeAt c name k
  rcases hinner : (ancestorTypes typeAt c.ancestors k).1 with f | supertypes <;>
    rw [hinner] at hbuilt hfault hresult <;> obtain ⟨hres, htypes⟩ := hbuilt
  · rw [Known.Keeps, htypes, hres]
    exact ⟨hkeeps, .error (hfault f rfl), nofun⟩
  · have hsearch := hresult supertypes rfl
    have ht : TypeRef.Throughout P { qualifiedName := name, supertypes := supertypes.getD [] } := by
      refine .of_supertypes (hP.built position c name supertypes hform hname hsearch) fun s hs => ?_
      cases supertypes with
      | none => cases hs
      | some ts =>
        obtain ⟨ancestor, -, hanswer⟩ := hsearch.row s hs
        exact hanswer.throughout
    rw [Known.Keeps, htypes, hres]
    refine ⟨fun entry hentry => ?_, .ok _, fun t hok => ?_⟩
    · rcases List.mem_append.1 hentry with hentry | hentry
      · exact hkeeps entry hentry
      · rcases List.mem_singleton.1 hentry with rfl
        exact ⟨rfl, ht⟩
    · cases hok
      exact ⟨(nameAt_eq hform).trans hname, ht⟩

theorem buildType_serves (hP : facts.ComesUp askedWith P) (hform : facts.form position = .classDef c)
    (hasked : askedWith position building) {typeAt : Nat → Attempt Known TypeRef}
    (hadvances : ∀ position, Advances (typeAt position))
    (hbelow : ∀ name, c.qualifiedName = some name → name ∉ building → ∀ ancestor ∈ yielded c.ancestors,
      Serves (fun k => k.building = name :: building ∧ k.Keeps P) facts.Flaw (facts.IsAnswer P ancestor)
        (typeAt ancestor)) :
    Serves (fun k => k.building = building ∧ k.Keeps P) facts.Flaw (facts.IsAnswer P position)
      (buildType typeAt c) := by
  suffices h : ∀ k : Known, k.building = building → k.Keeps P → (buildType typeAt c k).2.Keeps P ∧
      FailsOnly facts.Flaw (buildType typeAt c k).1 ∧
      ∀ t, (buildType typeAt c k).1 = .ok t → facts.IsAnswer P position t from
    ⟨fun k ⟨hk, hkeeps⟩ => ⟨(buildType_spec hadvances c k).1.building.trans hk, (h k hk hkeeps).1⟩,
      fun k ⟨hk, hkeeps⟩ => (h k hk hkeeps).2.1, fun k ⟨hk, hkeeps⟩ => (h k hk hkeeps).2.2⟩
  intro k hk hkeeps
  have hat := nameAt_eq hform
  cases hname : c.qualifiedName with
  | none =>
    rw [buildType_unnamed typeAt hname]
    exact ⟨hkeeps, .error (.unnamed hform hname), nofun⟩
  | some name =>
    rw [hname] at hat
    rw [buildType_apply typeAt hname]
    cases hlookup : k.types.lookup name with
    | some t =>
      obtain ⟨front, back, htypes, -⟩ := List.lookup_eq_some_iff.1 hlookup
      obtain ⟨hown, ht⟩ := hkeeps (name, t) (htypes ▸ List.mem_append_right front List.mem_cons_self)
      refine ⟨hkeeps, .ok t, fun u hu => ?_⟩
      cases hu
      exact ⟨hat.trans (congrArg some hown.symm), ht⟩
    | none =>
      dsimp only
      split
      · rename_i hcut
        rw [hk] at hcut
        refine ⟨hkeeps, .ok _, fun u hu => ?_⟩
        cases hu
        exact ⟨hat, .of_supertypes (hP.cut position name building hat hasked (by simpa using hcut)) nofun⟩
      · rename_i hfresh
        rw [hk] at hfresh
        have hancestors := ancestorTypes_serves (hbelow name hname (by simpa using hfresh))
          fun t ht hne => .trouble hform ht hne
        exact construct_serves hP hform hname (fun _ hI => hI.2) hancestors { k with building := name :: k.building }
          ⟨congrArg (name :: ·) hk, hkeeps⟩

/-- With more depth than there are names left to build, the type of a row goes by the rows above it. -/
theorem typeWithin_serves (hP : facts.ComesUp askedWith P) : ∀ (depth position : Nat) (building : List String),
    ((∀ d, facts.form position ≠ .classDef d) → facts.Flaw Trouble.unanswerable.toFault) →
    askedWith position building → facts.room building < depth →
    Serves (fun k => k.building = building ∧ k.Keeps P) facts.Flaw (facts.IsAnswer P position)
      (facts.typeWithin depth position)
  | 0, _, _, _, _, hroom => absurd hroom (Nat.not_lt_zero _)
  | depth + 1, position, building, hflaw, hasked, hroom => by
    unfold typeWithin
    cases hform : facts.form position with
    | classDef c =>
      refine buildType_serves hP hform hasked (typeWithin_advances facts depth) ?_
      intro name hname hfresh ancestor hancestor
      have hless := room_cons_lt (mem_classNames ((nameAt_eq hform).trans hname)) hfresh
      exact typeWithin_serves hP depth ancestor (name :: building) (.noClass hform hancestor)
        (hP.below position c name building hform hname hasked ancestor hancestor) (by omega)
    | _ => exact .fail (hflaw fun d hd => by rw [hform] at hd; cases hd)

end ComesUp

/-! ## Steps of the graph -/

/-- Each supertype of a type that comes up is a step of the graph away. -/
theorem comesUp_nameStep (facts : Facts) : facts.ComesUp (fun _ _ => True) fun s =>
    ∀ u ∈ s.supertypes, facts.NameStep s.qualifiedName u.qualifiedName where
  below _ _ _ _ _ _ _ _ _ := trivial
  cut _ _ _ _ _ _ := nofun
  built position c name supertypes hform hname hsearch u hu := by
    cases supertypes with
    | none => cases hu
    | some ts =>
      obtain ⟨ancestor, hrow, hanswer⟩ := hsearch.row u hu
      exact ⟨position, ancestor, (nameAt_eq hform).trans hname, hanswer.name, c, hform, hsearch.untroubled, hrow⟩

/-- Where names are unique and nothing goes round in circles, only names below a class are under construction when it
is asked for. So nothing is cut off, and each step of the graph from a type that comes up leads to a supertype. -/
theorem comesUp_complete (hunique : facts.HasUniqueNames) (hacyclic : facts.IsAcyclic) :
    facts.ComesUp (fun position building => ∀ name ∈ building, ∃ below, facts.nameAt below = some name ∧
      TransGen facts.YieldsRow below position) fun s =>
    ∀ above, facts.NameStep s.qualifiedName above → ∃ u ∈ s.supertypes, u.qualifiedName = above where
  below position c name building hform hname hasked ancestor hancestor other hother := by
    have hstep : facts.YieldsRow position ancestor := ⟨c, hform, hancestor⟩
    rcases List.mem_cons.1 hother with rfl | hother
    · exact ⟨position, (nameAt_eq hform).trans hname, .single hstep⟩
    · obtain ⟨below, hbelow, hpath⟩ := hasked other hother
      exact ⟨below, hbelow, hpath.tail hstep⟩
  cut position name building hat hasked hname := by
    obtain ⟨below, hbelow, hpath⟩ := hasked name hname
    obtain rfl := hunique below position name hbelow hat
    exact absurd hpath (hacyclic below)
  built position c name supertypes hform hname hsearch above hstep := by
    obtain ⟨position', ancestor, hat, habove, c', hform', henumerated, hrow⟩ := hstep
    obtain rfl := hunique position' position name hat ((nameAt_eq hform).trans hname)
    obtain rfl : c' = c := by
      rw [hform] at hform'
      cases hform'
      rfl
    cases supertypes with
    | none =>
      obtain ⟨t, ht⟩ := hsearch
      exact absurd ht (henumerated t)
    | some ts =>
      obtain ⟨t, ht, hanswer⟩ := hsearch.all ancestor hrow
      rw [hanswer.name] at habove
      exact ⟨t, ht, Option.some.inj habove⟩

/-- Where names are unique, steps of names are those of the classes. -/
theorem transGen_nameStep (hgraph : facts.IsClassGraph) (hunique : facts.HasUniqueNames) {above : String}
    (hname : facts.nameAt position = some name) :
    TransGen facts.NameStep name above ↔
      ∃ ancestor, TransGen facts.IsAncestor position ancestor ∧ facts.nameAt ancestor = some above := by
  constructor
  · intro h
    induction h with
    | single hstep =>
      obtain ⟨position', ancestor, hat, habove, hancestor⟩ := hstep
      obtain rfl := hunique position' position name hat hname
      exact ⟨ancestor, .single hancestor, habove⟩
    | tail _ hstep ih =>
      obtain ⟨ancestor, hpath, hmiddle⟩ := ih
      obtain ⟨ancestor', next, hat, habove, hancestor⟩ := hstep
      obtain rfl := hunique ancestor' ancestor _ hat hmiddle
      exact ⟨next, hpath.tail hancestor, habove⟩
  · rintro ⟨ancestor, hpath, habove⟩
    induction hpath generalizing above with
    | single hancestor => exact .single ⟨position, _, hname, habove, hancestor⟩
    | @tail middle ancestor _ hancestor ih =>
      obtain ⟨c, hform, -⟩ := id hancestor
      obtain ⟨between, hbetween⟩ := Option.ne_none_iff_exists'.1 (hgraph.named middle c hform)
      have hmiddle := (nameAt_eq hform).trans hbetween
      exact (ih hmiddle).tail ⟨middle, ancestor, hmiddle, habove, hancestor⟩

/-! ## Questions one after another -/

/-- What is known after questions about the types of some classes, asked one after another from the start. -/
inductive Asked (facts : Facts) : Known → Prop
  | start (log : Log) : Asked facts { log }
  | ask {k : Known} {position : Nat} {c : ClassFacts} : Asked facts k → facts.form position = .classDef c →
      Asked facts (facts.typeOf c k).2

theorem typeOf_eq (hform : facts.form position = .classDef c) :
    facts.typeOf c = facts.typeWithin (facts.depth + 1) position := by
  rw [typeWithin, hform, typeOf]

theorem typeOf_serves {askedWith : Nat → List String → Prop} {P : TypeRef → Prop} (hP : facts.ComesUp askedWith P)
    (hform : facts.form position = .classDef c) (building : List String) (hasked : askedWith position building) :
    Serves (fun k => k.building = building ∧ k.Keeps P) facts.Flaw (facts.IsAnswer P position) (facts.typeOf c) := by
  rw [typeOf_eq hform]
  exact typeWithin_serves hP _ position building (fun h => absurd hform (h c)) hasked
    (Nat.lt_succ_of_lt (room_lt_depth facts building))

/-- After any questions, nothing is under construction and all types remembered are such as come up. -/
theorem Asked.keeps {askedWith : Nat → List String → Prop} {P : TypeRef → Prop} (hP : facts.ComesUp askedWith P)
    (hasked : ∀ position, askedWith position []) (hk : facts.Asked k) : k.building = [] ∧ k.Keeps P := by
  induction hk with
  | start log => exact ⟨rfl, nofun⟩
  | ask _ hform ih => exact (typeOf_serves hP hform [] (hasked _)).state _ ih

/-- A question about the type of a class comes to an end, whatever is known: more depth makes no difference, and a fault
is one that the facts tell of. It leaves the names under construction as they were. The types above the answer have
names that are reached in the graph. Where the facts are a graph with unique names and without circles, they have the
names of all classes above, whatever was asked before. -/
theorem typeOf_ancestry (facts : Facts) {position : Nat} {c : ClassFacts} (hform : facts.form position = .classDef c) :
    (∀ depth, facts.depth < depth → ∀ k, facts.typeWithin depth position k = facts.typeOf c k) ∧
    (∀ k, (facts.typeOf c k).2.building = k.building) ∧
    ∀ k, facts.Asked k →
      (∀ f, (facts.typeOf c k).1 = .error f → facts.Flaw f) ∧
      (facts.IsClassGraph → ∃ t, (facts.typeOf c k).1 = .ok t) ∧
      ∀ t, (facts.typeOf c k).1 = .ok t → c.qualifiedName = some t.qualifiedName ∧
        (∀ s, t.Inherits s → TransGen facts.NameStep t.qualifiedName s.qualifiedName) ∧
        (facts.IsClassGraph → facts.HasUniqueNames → facts.IsAcyclic → ∀ name,
          (∃ s, t.Inherits s ∧ s.qualifiedName = name) ↔
            ∃ ancestor, TransGen facts.IsAncestor position ancestor ∧ facts.nameAt ancestor = some name) := by
  refine ⟨fun depth hdepth k => ?_, fun k => (typeOf_remembered facts c k).1.building, fun k hk => ?_⟩
  · rw [typeOf_eq hform]
    have hroom := room_lt_depth facts k.building
    exact typeWithin_stable facts depth (facts.depth + 1) position k (by omega) (by omega)
  have hserves := typeOf_serves (comesUp_nameStep facts) hform [] trivial
  have hkeeps := hk.keeps (comesUp_nameStep facts) fun _ => trivial
  have hfault := hserves.fault k hkeeps
  refine ⟨hfault, fun hgraph => ?_, fun t ht => ?_⟩
  · rcases hres : (facts.typeOf c k).1 with f | t
    · exact absurd (hfault f hres) (hgraph.not_flaw f)
    · exact ⟨t, rfl⟩
  · obtain ⟨hname, hsteps⟩ := hserves.result k hkeeps t ht
    refine ⟨(nameAt_eq hform).symm.trans hname, fun s hs => hs.transGen hsteps, fun hgraph hunique hacyclic name => ?_⟩
    have hcomplete := comesUp_complete hunique hacyclic
    have hkeeps' := hk.keeps hcomplete fun _ => nofun
    obtain ⟨-, hall⟩ := (typeOf_serves hcomplete hform [] nofun).result k hkeeps' t ht
    rw [← transGen_nameStep hgraph hunique hname]
    refine ⟨fun ⟨s, hs, hsname⟩ => hsname ▸ hs.transGen hsteps, TypeRef.exists_inherits hall⟩

/-! ## Graphs given by a list -/

/-- A class in some facts, given by its name and the steps to its ancestors. -/
def classRow (name : String) (ancestors : List Step) : ClassFacts :=
  { name := some name, qualifiedName := some name, frame := none, decorators := [], ancestors, bases := [], body := [] }

/-- Facts with nothing in them but classes, each given by its name and the steps to its ancestors. -/
def ofClasses (classes : List (String × List Step)) : Facts where
  rows := (classes.map fun entry => ⟨.classDef (classRow entry.1 entry.2), {}⟩).toArray
  root := 0

/-- Whether a step leads to one of so many rows, or fails because nothing is found. -/
def Step.isWithin (rows : Nat) : Step → Bool
  | .row position => position < rows
  | .trouble t => t matches .unresolved

variable {classes : List (String × List Step)}

theorem form_ofClasses : (ofClasses classes).form position = .classDef c ↔
    ∃ name ancestors, classes[position]? = some (name, ancestors) ∧ c = classRow name ancestors := by
  have hform : (ofClasses classes).form position =
      (classes[position]?.map fun entry => Form.classDef (classRow entry.1 entry.2)).getD (.plain .other []) := by
    simp [form, ofClasses, Function.comp_def]
  rw [hform]
  cases classes[position]? with
  | none => simp
  | some entry =>
    obtain ⟨name, ancestors⟩ := entry
    simp [eq_comm]

theorem nameAt_ofClasses (position : Nat) :
    (ofClasses classes).nameAt position = (classes.map Prod.fst)[position]? := by
  rw [List.getElem?_map]
  unfold nameAt form ofClasses
  simp only [List.getElem?_toArray, List.getElem?_map, Option.map_map]
  cases classes[position]? <;> rfl

theorem hasUniqueNames_ofClasses (h : (classes.map Prod.fst).Nodup) : (ofClasses classes).HasUniqueNames := by
  intro p q name hp hq
  rw [nameAt_ofClasses] at hp hq
  obtain ⟨hlength, -⟩ := List.getElem?_eq_some_iff.1 hp
  exact (List.getElem?_inj hlength h).1 (hp.trans hq.symm)

theorem isClassGraph_ofClasses (h : ∀ entry ∈ classes, ∀ step ∈ entry.2, step.isWithin classes.length = true) :
    (ofClasses classes).IsClassGraph where
  named position c hform := by
    obtain ⟨name, ancestors, -, rfl⟩ := form_ofClasses.1 hform
    exact Option.some_ne_none name
  steps position c hform step hstep := by
    obtain ⟨name, ancestors, hentry, rfl⟩ := form_ofClasses.1 hform
    have hwithin := h _ (List.mem_of_getElem? hentry) step hstep
    match step with
    | .row ancestor =>
      have hlt : ancestor < classes.length := of_decide_eq_true hwithin
      exact .inl ⟨ancestor, _, rfl, form_ofClasses.2 ⟨_, _, List.getElem?_eq_getElem hlt, rfl⟩⟩
    | .trouble .unresolved => exact .inr rfl

/-- A relation along which a rank falls does not come back. -/
theorem not_transGen_of_rank {R : Nat → Nat → Prop} (rank : Nat → Nat) (h : ∀ p q, R p q → rank q < rank p) (p : Nat) :
    ¬ TransGen R p p := by
  suffices hlt : ∀ q, TransGen R p q → rank q < rank p from fun hp => Nat.lt_irrefl _ (hlt p hp)
  intro q hpath
  induction hpath with
  | single hstep => exact h p _ hstep
  | tail _ hstep ih => exact Nat.lt_trans (h _ _ hstep) ih

/-- Two classes with one ancestor and a class below both, where the search from one of the two fails in the end. -/
def diamond : Facts :=
  ofClasses [("object", []), ("Kept", [.row 0]), ("Lost", [.row 0, .trouble .unresolved]), ("Both", [.row 1, .row 2])]

/-- Each of the four classes stands after its ancestors. -/
theorem diamond_lt_of_yieldsRow (h : diamond.YieldsRow position ancestor) : ancestor < position := by
  obtain ⟨c, hform, hancestor⟩ := h
  obtain ⟨name, ancestors, hentry, rfl⟩ := form_ofClasses.1 hform
  match position, hentry with
  | 0, hentry | 1, hentry | 2, hentry | 3, hentry =>
    cases hentry
    simp [classRow, yielded] at hancestor
    try omega

theorem diamond_isClassGraph : diamond.IsClassGraph :=
  isClassGraph_ofClasses (by decide)

theorem diamond_hasUniqueNames : diamond.HasUniqueNames :=
  hasUniqueNames_ofClasses (by decide)

theorem diamond_isAcyclic : diamond.IsAcyclic :=
  not_transGen_of_rank id fun _ _ => diamond_lt_of_yieldsRow

/-- Asked for after one of the classes above it, the class below has all others above it: one of them is found through
the class for which the search goes through only. -/
theorem typeOf_ancestry_diamond : ∃ t, (diamond.typeOf (classRow "Both" [.row 1, .row 2])
      (diamond.typeOf (classRow "Lost" [.row 0, .trouble .unresolved]) {}).2).1 = .ok t ∧
    ∀ name, (∃ s, t.Inherits s ∧ s.qualifiedName = name) ↔
      ∃ ancestor, TransGen diamond.IsAncestor 3 ancestor ∧ diamond.nameAt ancestor = some name := by
  have hasked : diamond.Asked (diamond.typeOf (classRow "Lost" [.row 0, .trouble .unresolved]) {}).2 :=
    .ask (.start []) (show diamond.form 2 = _ from rfl)
  obtain ⟨-, hok, hall⟩ := (typeOf_ancestry diamond (show diamond.form 3 = _ from rfl)).2.2 _ hasked
  obtain ⟨t, ht⟩ := hok diamond_isClassGraph
  exact ⟨t, ht, (hall t ht).2.2 diamond_isClassGraph diamond_hasUniqueNames diamond_isAcyclic⟩

/-- A class below another whose search fails in the end, but not before it has come to a third class, which is below the
first. -/
def detour : Facts :=
  ofClasses [("Whole", [.row 1]), ("Lost", [.row 2, .trouble .unresolved]), ("Part", [.row 0])]

theorem detour_isAncestor (h : detour.IsAncestor position ancestor) :
    position = 0 ∧ ancestor = 1 ∨ position = 2 ∧ ancestor = 0 := by
  obtain ⟨c, hform, henumerated, hancestor⟩ := h
  obtain ⟨name, ancestors, hentry, rfl⟩ := form_ofClasses.1 hform
  match position, hentry with
  | 0, hentry | 2, hentry =>
    cases hentry
    simpa [classRow] using hancestor
  | 1, hentry =>
    cases hentry
    exact absurd (List.mem_cons_of_mem _ List.mem_cons_self) (henumerated .unresolved)

/-- Without the ancestors that a failing search comes to, the graph does not go round in a circle, but the search does.
Asked for after the first class, the third lacks an ancestor: its type is remembered from when the first was under
construction and so was cut off. -/
theorem typeOf_detour : detour.IsClassGraph ∧ detour.HasUniqueNames ∧
    (∀ position, ¬ TransGen detour.IsAncestor position position) ∧
    ∃ k t, detour.Asked k ∧ detour.form 2 = .classDef (classRow "Part" [.row 0]) ∧
      (detour.typeOf (classRow "Part" [.row 0]) k).1 = .ok t ∧
      ¬ ∀ name, (∃ s, t.Inherits s ∧ s.qualifiedName = name) ↔
        ∃ ancestor, TransGen detour.IsAncestor 2 ancestor ∧ detour.nameAt ancestor = some name := by
  refine ⟨isClassGraph_ofClasses (by decide), hasUniqueNames_ofClasses (by decide), ?acyclic,
    (detour.typeOf (classRow "Whole" [.row 1]) {}).2,
    { qualifiedName := "Part", supertypes := [{ qualifiedName := "Whole" }] },
    .ask (.start []) (show detour.form 0 = _ from rfl), rfl, rfl, fun hall => ?missing⟩
  case acyclic =>
    refine not_transGen_of_rank (fun position => [1, 0, 2].getD position 0) fun p q hstep => ?_
    rcases detour_isAncestor hstep with ⟨rfl, rfl⟩ | ⟨rfl, rfl⟩ <;> decide
  case missing =>
    have hlast : detour.IsAncestor 0 1 := ⟨_, rfl, by simp [ClassFacts.IsEnumerated, classRow], List.mem_cons_self⟩
    have hfirst : detour.IsAncestor 2 0 := ⟨_, rfl, by simp [ClassFacts.IsEnumerated, classRow], List.mem_cons_self⟩
    obtain ⟨s, hs, hname⟩ := (hall "Lost").2 ⟨1, .tail (.single hfirst) hlast, rfl⟩
    have hcut : s = { qualifiedName := "Whole" } := by
      clear hname
      induction hs with
      | single hs => exact List.mem_singleton.1 hs
      | tail _ hs ih =>
        subst ih
        cases hs
    subst hcut
    exact absurd hname (by decide)

end Facts

end TreeLint
