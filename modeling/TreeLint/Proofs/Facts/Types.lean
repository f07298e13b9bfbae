/-
The types that are remembered while a tree is built. None is ever forgotten or replaced, and where no
type is under construction the type of a class is the one remembered under its name. Main statement:
`typeOf_remembered`.
-/
import TreeLint.Facts.Types

namespace TreeLint.Facts

/-! ## What is known later -/

namespace Known

/-- What is known later on: some types more, each under its own name and none of them under
construction, while those under construction are the same. -/
structure Later (k k' : Known) : Prop where
  types : ∃ more, k'.types = k.types ++ more ∧
    ∀ entry ∈ more, entry.2.qualifiedName = entry.1 ∧ entry.1 ∉ k.building
  building : k'.building = k.building

theorem Later.refl (k : Known) : k.Later k :=
  ⟨⟨[], (List.append_nil _).symm, List.forall_mem_nil _⟩, rfl⟩

theorem Later.trans {k k' k'' : Known} (h : k.Later k') (h' : k'.Later k'') : k.Later k'' := by
  obtain ⟨⟨more, htypes, hmore⟩, hbuilding⟩ := h
  obtain ⟨⟨more', htypes', hmore'⟩, hbuilding'⟩ := h'
  have hboth : k''.types = k.types ++ (more ++ more') := by rw [htypes', htypes, List.append_assoc]
  refine ⟨⟨more ++ more', hboth, fun entry hentry => ?_⟩, hbuilding'.trans hbuilding⟩
  rcases List.mem_append.1 hentry with hentry | hentry
  · exact hmore entry hentry
  · rw [← hbuilding]
    exact hmore' entry hentry

/-- A type that is remembered. -/
def Remembers (k : Known) (t : TypeRef) : Prop :=
  ∃ name, k.types.lookup name = some t

theorem lookup_later {k k' : Known} (h : k.Later k') {name : String} {t : TypeRef}
    (ht : k.types.lookup name = some t) : k'.types.lookup name = some t := by
  obtain ⟨⟨more, htypes, -⟩, -⟩ := h
  rw [htypes, List.lookup_append, ht]
  rfl

theorem Remembers.later {k k' : Known} {t : TypeRef} (ht : k.Remembers t) (h : k.Later k') : k'.Remembers t := by
  obtain ⟨name, ht⟩ := ht
  exact ⟨name, lookup_later h ht⟩

/-- A name under construction gets no type meanwhile. -/
theorem lookup_building {k k' : Known} (h : k.Later k') {name : String} (hname : name ∈ k.building) :
    k'.types.lookup name = k.types.lookup name := by
  obtain ⟨⟨more, htypes, hmore⟩, -⟩ := h
  have hnone : more.lookup name = none := by
    rw [List.lookup_eq_none_iff]
    intro entry hentry
    have hne : name ≠ entry.1 := fun heq => (hmore entry hentry).2 (heq ▸ hname)
    simpa using hne
  rw [htypes, List.lookup_append, hnone, Option.or_none]

end Known

/-! ## Computations that only add -/

/-- A computation that leaves behind what is known later. -/
def Advances {α : Type} (x : Attempt Known α) : Prop :=
  ∀ k : Known, k.Later (x k).2

variable {α β : Type}

theorem Advances.pure (a : α) : Advances (pure a) := fun k => Known.Later.refl k

theorem Advances.fail (f : Fault) : Advances (Attempt.fail f : Attempt Known α) := fun k => Known.Later.refl k

theorem Advances.bind {x : Attempt Known α} {f : α → Attempt Known β} (hx : Advances x) (hf : ∀ a, Advances (f a)) :
    Advances (x >>= f) := by
  intro k
  have hk := hx k
  rw [Attempt.bind_apply]
  rcases h : x k with ⟨_ | a, k'⟩ <;> rw [h] at hk
  · exact hk
  · exact hk.trans (hf a k')

/-! ## Building a type -/

theorem ancestorTypes_advances {typeAt : Nat → Attempt Known TypeRef} (h : ∀ position, Advances (typeAt position)) :
    ∀ steps : List Step, Advances (ancestorTypes typeAt steps)
  | [] => .pure _
  | .row position :: rest =>
    (h position).bind fun _ => (ancestorTypes_advances h rest).bind fun _ => .pure _
  | .trouble .unresolved :: _ => .pure _
  | .trouble .unanswerable :: _ => .fail _
  | .trouble (.fault _) :: _ => .fail _

/-- Builds a type once it is noted as under construction. -/
def construct (typeAt : Nat → Attempt Known TypeRef) (c : ClassFacts) (name : String) : Attempt Known TypeRef := do
  let outcome ← Attempt.caught (ancestorTypes typeAt c.ancestors)
  if outcome matches .ok none then
    Known.tell .debug s!"Could not resolve bases of {name}"
  endType name
  let supertypes ← Attempt.lift outcome
  let t : TypeRef := { qualifiedName := name, supertypes := supertypes.getD [] }
  rememberType name t
  return t

/-- A class without a name has no type. -/
theorem buildType_unnamed (typeAt : Nat → Attempt Known TypeRef) {c : ClassFacts} (hname : c.qualifiedName = none) :
    buildType typeAt c = Attempt.fail Trouble.unanswerable.toFault := by
  unfold buildType
  rw [hname]
  rfl

/-- A type is looked up, cut off where it comes back to itself, or built. -/
theorem buildType_apply (typeAt : Nat → Attempt Known TypeRef) {c : ClassFacts} {name : String}
    (hname : c.qualifiedName = some name) (k : Known) :
    buildType typeAt c k = match k.types.lookup name with
      | some t => (.ok t, k)
      | none =>
        if k.building.contains name then (.ok { qualifiedName := name }, k)
        else construct typeAt c name { k with building := name :: k.building } := by
  unfold buildType
  rw [hname, needed_some, Attempt.bind_apply, Attempt.lift_apply]
  dsimp only
  rw [Attempt.bind_apply, Attempt.state_apply]
  dsimp only
  cases k.types.lookup name with
  | some t => rfl
  | none => cases k.building.contains name <;> rfl

/-- What is left when a type is built: it is no longer under construction, and remembered unless the
search for its ancestors failed. -/
theorem construct_apply (typeAt : Nat → Attempt Known TypeRef) (c : ClassFacts) (name : String) (k : Known) :
    let inner := ancestorTypes typeAt c.ancestors k
    (construct typeAt c name k).2.building = inner.2.building.erase name ∧
    match inner.1 with
    | .error f => (construct typeAt c name k).1 = .error f ∧ (construct typeAt c name k).2.types = inner.2.types
    | .ok supertypes =>
      (construct typeAt c name k).1 = .ok { qualifiedName := name, supertypes := supertypes.getD [] } ∧
      (construct typeAt c name k).2.types =
        inner.2.types ++ [(name, { qualifiedName := name, supertypes := supertypes.getD [] })] := by
  intro inner
  unfold construct
  rw [Attempt.bind_apply, Attempt.caught_apply,
    show ancestorTypes typeAt c.ancestors k = (inner.1, inner.2) from rfl]
  rcases inner with ⟨_ | _ | supertypes, k'⟩ <;> exact ⟨rfl, rfl, rfl⟩

/-- While a type is built nothing is forgotten, and where no other one is under construction the type is
remembered afterwards. -/
theorem buildType_spec {typeAt : Nat → Attempt Known TypeRef} (h : ∀ position, Advances (typeAt position))
    (c : ClassFacts) (k : Known) :
    k.Later (buildType typeAt c k).2 ∧
    (k.building = [] → ∀ t, (buildType typeAt c k).1 = .ok t → (buildType typeAt c k).2.Remembers t) := by
  cases hname : c.qualifiedName with
  | none =>
    rw [buildType_unnamed typeAt hname]
    exact ⟨.refl k, fun _ t ht => nomatch ht⟩
  | some name =>
    rw [buildType_apply typeAt hname]
    cases hlookup : k.types.lookup name with
    | some t =>
      refine ⟨.refl k, fun _ t' ht' => ?_⟩
      cases ht'
      exact ⟨name, hlookup⟩
    | none =>
      dsimp only
      split
      · rename_i hcut
        refine ⟨.refl k, fun hnone => ?_⟩
        rw [hnone] at hcut
        cases hcut
      · rename_i hfresh
        have hbuilding : name ∉ k.building := by simpa using hfresh
        -- the ancestors are built while the name is noted as under construction
        obtain ⟨hback, hbuilt⟩ := construct_apply typeAt c name { k with building := name :: k.building }
        have hinner := ancestorTypes_advances h c.ancestors { k with building := name :: k.building }
        have hend : (construct typeAt c name { k with building := name :: k.building }).2.building = k.building := by
          rw [hback, hinner.building]
          exact List.erase_cons_head name k.building
        -- so none of them can have remembered a type under that name
        have hfree := Known.lookup_building hinner List.mem_cons_self
        obtain ⟨more, htypes, hmore⟩ := hinner.types
        have hmore' : ∀ entry ∈ more, entry.2.qualifiedName = entry.1 ∧ entry.1 ∉ k.building := fun entry hentry =>
          ⟨(hmore entry hentry).1, fun hmem => (hmore entry hentry).2 (List.mem_cons_of_mem name hmem)⟩
        rcases hres : (ancestorTypes typeAt c.ancestors { k with building := name :: k.building }).1 with
          f | supertypes <;> rw [hres] at hbuilt <;> obtain ⟨hres', htypes'⟩ := hbuilt
        · refine ⟨⟨⟨more, htypes'.trans htypes, hmore'⟩, hend⟩, fun _ t ht => ?_⟩
          rw [hres'] at ht
          cases ht
        · refine ⟨⟨⟨more ++ [(name, { qualifiedName := name, supertypes := supertypes.getD [] })], ?_, ?_⟩, hend⟩, ?_⟩
          · rw [htypes', htypes, List.append_assoc]
          · intro entry hentry
            rcases List.mem_append.1 hentry with hentry | hentry
            · exact hmore' entry hentry
            · rcases List.mem_singleton.1 hentry with rfl
              exact ⟨rfl, hbuilding⟩
          · intro _ t ht
            rw [hres'] at ht
            cases ht
            refine ⟨name, ?_⟩
            rw [htypes', List.lookup_append, hfree, hlookup]
            simp

theorem typeWithin_advances (facts : Facts) : ∀ depth position, Advances (facts.typeWithin depth position)
  | 0, _ => .fail _
  | depth + 1, position => by
    unfold typeWithin
    split
    · exact fun k => (buildType_spec (typeWithin_advances facts depth) _ k).1
    · exact .fail _

/-- Where no type is under construction, the type of a class is remembered from then on. -/
theorem typeOf_remembered (facts : Facts) (c : ClassFacts) (k : Known) :
    k.Later (facts.typeOf c k).2 ∧
    (k.building = [] → ∀ t, (facts.typeOf c k).1 = .ok t → (facts.typeOf c k).2.Remembers t) :=
  buildType_spec (typeWithin_advances facts facts.depth) c k

end TreeLint.Facts
