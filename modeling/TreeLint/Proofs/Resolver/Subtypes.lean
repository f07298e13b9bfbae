/-
Subtypes, after any questions. The search through the supertypes of a type goes by names alone, and what
it finds is remembered for all types of one identity. In a family of types where those of one name have
supertypes of the same names this does no harm: the search finds the names of all types that are reached
by steps to a direct supertype, whatever the type arguments and whatever was asked before. Main statement:
`isSubtype_reaches`.
-/
import Mathlib.Logic.Relation
import TreeLint.Proofs.Resolver.Closure
import TreeLint.Proofs.Resolver.Memory

namespace TreeLint

/-- One type is reached from another by steps to a direct supertype. -/
def TypeRef.Reaches : TypeRef → TypeRef → Prop :=
  Relation.ReflTransGen fun t s => s ∈ t.supertypes

/-- Types together with their supertypes, where those of one name have supertypes of the same names. -/
structure IsTypeFamily (family : TypeRef → Prop) : Prop where
  supertypes : ∀ t, family t → ∀ s ∈ t.supertypes, family s
  names : ∀ t u, family t → family u → t.qualifiedName = u.qualifiedName →
    ∀ s ∈ t.supertypes, ∃ s' ∈ u.supertypes, s'.qualifiedName = s.qualifiedName

variable {family : TypeRef → Prop} {met : NameSet} {queue : List TypeRef} {t u s : TypeRef} {name : String}

/-! ## The search -/

theorem reaches_of_mem_closure (h : name ∈ supertypeClosure met queue) :
    name ∈ met ∨ ∃ t ∈ queue, ∃ s, t.Reaches s ∧ s.erasure = name := by
  fun_induction supertypeClosure met queue with
  | case1 => exact .inl h
  | case2 met t queue hmet ih =>
    rcases ih h with h | ⟨u, hu, hs⟩
    · exact .inl h
    · exact .inr ⟨u, List.mem_cons_of_mem t hu, hs⟩
  | case3 met t queue hmet ih =>
    rcases ih h with h | ⟨u, hu, s, hs, rfl⟩
    · rcases NameSet.mem_insert.1 h with rfl | h
      · exact .inr ⟨t, List.mem_cons_self, t, .refl, rfl⟩
      · exact .inl h
    · rcases List.mem_append.1 hu with hu | hu
      · exact .inr ⟨u, List.mem_cons_of_mem t hu, s, hs, rfl⟩
      · exact .inr ⟨t, List.mem_cons_self, s, .head hu hs, rfl⟩

/-- Of each type whose name was met, the names of the supertypes were met too or are those of types that
wait in the queue. -/
def Searched (family : TypeRef → Prop) (met : NameSet) (queue : List TypeRef) : Prop :=
  ∀ t, family t → t.erasure ∈ met → ∀ s ∈ t.supertypes, s.erasure ∈ met ∨ ∃ q ∈ queue, q.erasure = s.erasure

/-- The search leaves nothing behind, though it goes through one type of each name only. -/
theorem closure_searched (hf : IsTypeFamily family) (hqueue : ∀ q ∈ queue, family q) (h : Searched family met queue) :
    Searched family (supertypeClosure met queue) [] := by
  fun_induction supertypeClosure met queue with
  | case1 => exact h
  | case2 met u queue hmet ih =>
    refine ih (fun q hq => hqueue q (List.mem_cons_of_mem u hq)) ?_
    intro t ht hname s hs
    rcases h t ht hname s hs with hs | ⟨q, hq, heq⟩
    · exact .inl hs
    · rcases List.mem_cons.1 hq with rfl | hq
      · exact .inl (heq ▸ NameSet.contains_iff.1 hmet)
      · exact .inr ⟨q, hq, heq⟩
  | case3 met u queue hmet ih =>
    have hu : family u := hqueue u List.mem_cons_self
    refine ih ?_ ?_
    · intro q hq
      rcases List.mem_append.1 hq with hq | hq
      · exact hqueue q (List.mem_cons_of_mem u hq)
      · exact hf.supertypes u hu q hq
    · intro t ht hname s hs
      rcases NameSet.mem_insert.1 hname with hname | hname
      -- `t` itself need not be in the queue, but `u` has a supertype for each of its supertypes
      · obtain ⟨s', hs', heq⟩ := hf.names t u ht hu hname s hs
        exact .inr ⟨s', List.mem_append_right queue hs', heq⟩
      · rcases h t ht hname s hs with hs | ⟨q, hq, heq⟩
        · exact .inl (NameSet.mem_insert.2 (.inr hs))
        · rcases List.mem_cons.1 hq with rfl | hq
          · exact .inl (NameSet.mem_insert.2 (.inl heq.symm))
          · exact .inr ⟨q, List.mem_append_left _ hq, heq⟩

namespace IsTypeFamily

theorem reaches (hf : IsTypeFamily family) (ht : family t) (h : t.Reaches s) : family s := by
  induction h with
  | refl => exact ht
  | tail _ hstep ih => exact hf.supertypes _ ih _ hstep

theorem mem_of_searched (hf : IsTypeFamily family) (hmet : Searched family met []) (ht : family t)
    (hname : t.erasure ∈ met) (h : t.Reaches s) : s.erasure ∈ met := by
  induction h with
  | refl => exact hname
  | tail hreach hstep ih =>
    rcases hmet _ (hf.reaches ht hreach) ih _ hstep with hs | ⟨q, hq, -⟩
    · exact hs
    · cases hq

theorem searched (hf : IsTypeFamily family) (ht : family t) : Searched family (supertypeClosure ∅ [t]) [] := by
  refine closure_searched hf (List.forall_mem_singleton.2 ht) ?_
  intro u _ hname
  exact absurd hname (NameSet.not_mem_empty u.erasure)

theorem mem_closure_iff (hf : IsTypeFamily family) (ht : family t) :
    name ∈ supertypeClosure ∅ [t] ↔ ∃ s, t.Reaches s ∧ s.erasure = name := by
  constructor
  · intro h
    rcases reaches_of_mem_closure h with h | ⟨u, hu, hs⟩
    · exact absurd h (NameSet.not_mem_empty name)
    · exact List.mem_singleton.1 hu ▸ hs
  · rintro ⟨s, hs, rfl⟩
    exact hf.mem_of_searched (hf.searched ht) ht (mem_closure_of_queue List.mem_cons_self) hs

/-- Whose name is found among the supertypes of a type has no supertypes besides. -/
theorem closure_subset (hf : IsTypeFamily family) (ht : family t) (hu : family u)
    (h : u.erasure ∈ supertypeClosure ∅ [t]) : name ∈ supertypeClosure ∅ [u] → name ∈ supertypeClosure ∅ [t] := by
  rw [hf.mem_closure_iff hu]
  rintro ⟨s, hs, rfl⟩
  exact hf.mem_of_searched (hf.searched ht) hu h hs

theorem closure_congr (hf : IsTypeFamily family) (ht : family t) (hu : family u) (h : t.erasure = u.erasure) :
    supertypeClosure ∅ [t] = supertypeClosure ∅ [u] := by
  have htu : t.erasure ∈ supertypeClosure ∅ [u] := h ▸ mem_closure_of_queue List.mem_cons_self
  have hut : u.erasure ∈ supertypeClosure ∅ [t] := h ▸ mem_closure_of_queue List.mem_cons_self
  exact NameSet.ext fun name => ⟨hf.closure_subset hu ht htu, hf.closure_subset ht hu hut⟩

end IsTypeFamily

/-! ## After other questions -/

namespace Resolver

/-- A resolver after any questions about the types of a family, and any about symbols. -/
inductive AskedWithin (family : TypeRef → Prop) : Resolver → Prop
  | fresh (provenance : Provenance) : AskedWithin family { provenance }
  | supertypeNames {r : Resolver} {t : TypeRef} :
    AskedWithin family r → family t → AskedWithin family (supertypeNames t r).2
  | isSubtype {r : Resolver} {t s : Option TypeRef} :
    AskedWithin family r → (∀ x ∈ t, family x) → AskedWithin family (isSubtype t s r).2
  | isSubtypeOfName {r : Resolver} {t : Option TypeRef} {name : String} :
    AskedWithin family r → (∀ x ∈ t, family x) → AskedWithin family (isSubtypeOfName t name r).2
  | generatedBy {r : Resolver} {s : Option Symbol} :
    AskedWithin family r → AskedWithin family (generatedBy s r).2

/-- A resolver that tells about the types of a family what it would tell afresh. -/
def Recalls (family : TypeRef → Prop) (r : Resolver) : Prop :=
  ∀ t, family t → r.closureOf t = supertypeClosure ∅ [t]

variable {r : Resolver}

theorem Recalls.ask (h : r.Recalls family) (ht : family t)
    (hsame : ∀ u, family u → t.key = u.key → supertypeClosure ∅ [t] = supertypeClosure ∅ [u]) :
    (Resolver.supertypeNames t r).2.Recalls family := by
  intro u hu
  rw [closureOf_supertypeNames]
  split
  · rename_i hkey
    rw [h t ht]
    exact hsame u hu hkey
  · exact h u hu

theorem Recalls.supertypeNames (hf : IsTypeFamily family) (h : r.Recalls family) (ht : family t) :
    (supertypeNames t r).2.Recalls family :=
  h.ask ht fun _ hu hkey => hf.closure_congr ht hu (erasure_eq_of_key hkey)

theorem Recalls.generatedBy (h : r.Recalls family) (s : Symbol) : (generatedBy (some s) r).2.Recalls family := by
  intro t ht
  rw [closureOf_generatedBy]
  exact h t ht

theorem isSubtypeOfName_apply (t : TypeRef) (name : String) (r : Resolver) :
    isSubtypeOfName (some t) name r = ((r.closureOf t).contains name, (supertypeNames t r).2) := by
  rw [← supertypeNames_answer]
  rfl

theorem AskedWithin.recalls (hf : IsTypeFamily family) (h : AskedWithin family r) : r.Recalls family := by
  induction h with
  | fresh => exact fun _ _ => rfl
  | supertypeNames _ ht ih => exact ih.supertypeNames hf ht
  | @isSubtype r t s _ ht ih =>
    cases s with
    | none => exact ih
    | some s =>
      cases t with
      | none => exact ih
      | some t => exact ih.supertypeNames hf (ht t rfl)
  | @isSubtypeOfName r t name _ ht ih =>
    cases t with
    | none => exact ih
    | some t => exact ih.supertypeNames hf (ht t rfl)
  | @generatedBy r s _ ih =>
    cases s with
    | none => exact ih
    | some s => exact ih.generatedBy s

theorem isSubtypeOfName_iff (hf : IsTypeFamily family) (h : AskedWithin family r) (ht : family t) :
    (isSubtypeOfName (some t) name r).1 = true ↔ ∃ s, t.Reaches s ∧ s.erasure = name := by
  rw [isSubtypeOfName_apply, h.recalls hf t ht, NameSet.contains_iff, hf.mem_closure_iff ht]

/-- In a family of types, and after any questions, the names told for a type are those of the types that
are reached from it. A type is a subtype of itself, and a subtype of a subtype is one; it makes no
difference what the type arguments on either side are, nor whether a type or its name is asked about. -/
theorem isSubtype_reaches (hf : IsTypeFamily family) :
    (∀ r, AskedWithin family r → ∀ t, family t → ∀ name,
      name ∈ (supertypeNames t r).1 ↔ ∃ s, t.Reaches s ∧ s.qualifiedName = name) ∧
    (∀ r, AskedWithin family r → ∀ t, family t → (isSubtype (some t) (some t) r).1 = true) ∧
    (∀ r r' r'', AskedWithin family r → AskedWithin family r' → AskedWithin family r'' →
      ∀ a b c, family a → family b → (isSubtype (some a) (some b) r).1 = true →
        (isSubtype (some b) (some c) r').1 = true → (isSubtype (some a) (some c) r'').1 = true) ∧
    ∀ r r', AskedWithin family r → AskedWithin family r' → ∀ t t' s s', family t → family t' →
      t.qualifiedName = t'.qualifiedName → s.qualifiedName = s'.qualifiedName →
        (isSubtype (some t) (some s) r).1 = (isSubtype (some t') (some s') r').1 ∧
        (isSubtype (some t) (some s) r).1 = (isSubtypeOfName (some t') s'.qualifiedName r').1 := by
  refine ⟨fun r hr t ht name => ?_, fun r hr t ht => ?_, fun r r' r'' hr hr' hr'' a b c ha hb hab hbc => ?_,
    fun r r' hr hr' t t' s s' ht ht' hname hname' => ?_⟩
  · rw [supertypeNames_answer, hr.recalls hf t ht]
    exact hf.mem_closure_iff ht
  · exact (isSubtypeOfName_iff hf hr ht).2 ⟨t, .refl, rfl⟩
  · change (isSubtypeOfName (some a) b.erasure r).1 = true at hab
    change (isSubtypeOfName (some b) c.erasure r').1 = true at hbc
    change (isSubtypeOfName (some a) c.erasure r'').1 = true
    rw [isSubtypeOfName_iff hf hr ha, ← hf.mem_closure_iff ha] at hab
    rw [isSubtypeOfName_iff hf hr' hb, ← hf.mem_closure_iff hb] at hbc
    rw [isSubtypeOfName_iff hf hr'' ha, ← hf.mem_closure_iff ha]
    exact hf.closure_subset ha hb hab hbc
  · have hsame : (isSubtypeOfName (some t) s.qualifiedName r).1 = (isSubtypeOfName (some t') s'.qualifiedName r').1 := by
      rw [isSubtypeOfName_apply, isSubtypeOfName_apply, hr.recalls hf t ht, hr'.recalls hf t' ht',
        hf.closure_congr ht ht' hname, hname']
    exact ⟨hsame, hsame⟩

end Resolver

/-! ## Sequences -/

namespace TypeRef

def sized : TypeRef := { qualifiedName := "Sized" }

def iterable : TypeRef := { qualifiedName := "Iterable" }

def collection (item : TypeRef) : TypeRef :=
  { qualifiedName := "Collection", arguments := [item], supertypes := [sized, iterable] }

/-- Sequences are sized on their own account and as collections. -/
def sequence (item : TypeRef) : TypeRef :=
  { qualifiedName := "Sequence", arguments := [item], supertypes := [collection item, sized] }

/-- Sequences of two sorts of items, with their supertypes. -/
def sequences : List TypeRef :=
  let int : TypeRef := { qualifiedName := "int" }
  let text : TypeRef := { qualifiedName := "str" }
  [sequence int, sequence text, collection int, collection text, sized, iterable]

theorem sequences_family : IsTypeFamily (· ∈ sequences) where
  supertypes t ht := by
    simp only [sequences, List.mem_cons, List.not_mem_nil, or_false] at ht
    rcases ht with rfl | rfl | rfl | rfl | rfl | rfl <;> simp [sequences, sequence, collection, sized, iterable]
  names t u ht hu hname := by
    simp only [sequences, List.mem_cons, List.not_mem_nil, or_false] at ht hu
    rcases ht with rfl | rfl | rfl | rfl | rfl | rfl <;> rcases hu with rfl | rfl | rfl | rfl | rfl | rfl <;>
      revert hname <;> simp [sequence, collection, sized, iterable]

end TypeRef

namespace Resolver

/-- What was asked about a sequence of one sort of items does no harm to the other sort. -/
theorem isSubtype_sequences :
    let int : TypeRef := { qualifiedName := "int" }
    let text : TypeRef := { qualifiedName := "str" }
    let asked := (isSubtype (some (.collection text)) (some .sized) (supertypeNames (.sequence int) {}).2).2
    IsTypeFamily (· ∈ TypeRef.sequences) ∧ AskedWithin (· ∈ TypeRef.sequences) asked ∧
      "Iterable" ∈ (supertypeNames (.sequence text) asked).1 ∧
      (isSubtype (some (.sequence text)) (some (.collection int)) asked).1 = true ∧
      (isSubtype (some (.sequence text)) (some .iterable) asked).1 = true := by
  intro int text asked
  have hf := TypeRef.sequences_family
  have hint : TypeRef.sequence int ∈ TypeRef.sequences := by simp [TypeRef.sequences, int]
  have htext : TypeRef.sequence text ∈ TypeRef.sequences := by simp [TypeRef.sequences, text]
  have hcollection : TypeRef.collection text ∈ TypeRef.sequences := by simp [TypeRef.sequences, text]
  have hasked : AskedWithin (· ∈ TypeRef.sequences) asked :=
    ((AskedWithin.fresh declaredProvenance).supertypeNames hint).isSubtype fun x hx => Option.some.inj hx ▸ hcollection
  obtain ⟨hnames, -, htrans, hsame⟩ := isSubtype_reaches hf
  have found (t s : TypeRef) (ht : t ∈ TypeRef.sequences) (hs : t.Reaches s) :
      (isSubtype (some t) (some s) asked).1 = true :=
    NameSet.contains_iff.2 ((hnames asked hasked t ht s.qualifiedName).2 ⟨s, hs, rfl⟩)
  have hfirst : TypeRef.collection text ∈ (TypeRef.sequence text).supertypes := List.mem_cons_self
  have hsecond (item : TypeRef) : TypeRef.iterable ∈ (TypeRef.collection item).supertypes :=
    List.mem_cons_of_mem _ List.mem_cons_self
  have hother : (isSubtype (some (.sequence text)) (some (.collection int)) asked).1 = true := by
    rw [(hsame asked asked hasked hasked _ _ (.collection int) (.collection text) htext htext rfl rfl).1]
    exact found _ _ htext (.single hfirst)
  refine ⟨hf, hasked, ?_, hother, ?_⟩
  · exact (hnames asked hasked _ htext _).2 ⟨.iterable, .head hfirst (.single (hsecond text)), rfl⟩
  · have hint' : TypeRef.collection int ∈ TypeRef.sequences := by simp [TypeRef.sequences, int]
    exact htrans _ _ _ hasked hasked hasked _ _ _ htext hint' hother (found _ _ hint' (.single (hsecond int)))

end Resolver

end TreeLint
