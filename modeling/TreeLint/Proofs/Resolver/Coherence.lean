/-
Units in which an identity stands for one type or symbol only: equal types have equal supertypes, and
equal symbols the same provenance. There it makes no difference in what order the resolver is asked
about the types and symbols of the unit. Main statement: `Query.Lawful.settled`.
-/
import TreeLint.Proofs.Resolver.Closure
import TreeLint.Proofs.Resolver.Memory
import TreeLint.Proofs.Resolver.Steady
import TreeLint.Proofs.Tree.Forest
import TreeLint.Tree.Unit

namespace TreeLint

theorem Symbol.head?_key (s : Symbol) : s.key.head? = some s.head := by
  obtain ⟨_, _, owner, _, _, _, _, _⟩ := s
  cases owner <;> rfl

theorem Symbol.head_eq_of_key {s t : Symbol} (h : s.key = t.key) : s.head = t.head := by
  have hheads := congrArg List.head? h
  rw [s.head?_key, t.head?_key] at hheads
  exact Option.some.inj hheads

/-! ## What is in a unit -/

namespace CompilationUnit

/-- A node of the tree or of the pool, at any depth. -/
def HasNode (u : CompilationUnit) (n : Node) : Prop :=
  n ∈ u.tree.preorder ∨ ∃ m ∈ u.pool, n ∈ m.preorder

/-- A symbol of a node, or one of its owners. -/
inductive HasSymbol (u : CompilationUnit) : Symbol → Prop
  | ofNode {n : Node} {s : Symbol} : u.HasNode n → n.symbol = some s → HasSymbol u s
  | owner {s o : Symbol} : HasSymbol u s → s.owner = some o → HasSymbol u o

/-- A type of a node or a symbol, or one that such a type is made from. -/
inductive HasType (u : CompilationUnit) : TypeRef → Prop
  | ofNode {n : Node} {t : TypeRef} : u.HasNode n → n.type = some t → HasType u t
  | ofSymbol {s : Symbol} {t : TypeRef} : u.HasSymbol s → s.type = some t → HasType u t
  | argument {t a : TypeRef} : HasType u t → a ∈ t.arguments → HasType u a
  | supertype {t a : TypeRef} : HasType u t → a ∈ t.supertypes → HasType u a

/-- Equal types carry the same supertypes, and equal symbols have the same provenance. -/
structure IsCoherent (u : CompilationUnit) (provenance : Provenance) : Prop where
  supertypes : ∀ s t, u.HasType s → u.HasType t → s.key = t.key →
    s.supertypes.map TypeRef.key = t.supertypes.map TypeRef.key
  mechanisms : ∀ a b, u.HasSymbol a → u.HasSymbol b → a.key = b.key → provenance a = provenance b

variable {u : CompilationUnit} {provenance : Provenance}

theorem hasNode_tree (u : CompilationUnit) : u.HasNode u.tree :=
  .inl (Node.mem_preorder_self u.tree)

theorem HasType.ofResolved {n : Node} (hn : u.HasNode n) {t : TypeRef} (h : n.resolvedType = some t) : u.HasType t := by
  unfold Node.resolvedType at h
  rcases Option.or_eq_some_iff.1 h with h | ⟨-, h⟩
  · exact .ofNode hn h
  · obtain ⟨s, hs, ht⟩ := Option.bind_eq_some_iff.1 h
    exact .ofSymbol (.ofNode hn hs) ht

theorem HasSymbol.chain {s : Symbol} (hs : u.HasSymbol s) : ∀ o ∈ s.chain, u.HasSymbol o := by
  fun_induction Symbol.chain s with
  | case1 =>
    intro o ho
    rcases List.mem_singleton.1 ho with rfl
    exact hs
  | case2 _ _ o _ _ _ _ _ ih =>
    intro o' ho'
    rcases List.mem_cons.1 ho' with rfl | ho'
    · exact hs
    · exact ih (.owner hs rfl) o' ho'

/-- In a unit without a pool, what holds of the nodes of the tree holds of all nodes. -/
theorem HasNode.all (hpool : u.pool = #[]) {q : Node → Bool} (h : u.tree.preorder.all q = true) {n : Node}
    (hn : u.HasNode n) : q n = true := by
  rcases hn with hn | ⟨m, hm, -⟩
  · exact List.all_eq_true.1 h n hn
  · rw [hpool] at hm
    exact absurd hm (Array.not_mem_empty m)

/-- A node whose type and symbol tell nothing that their identities do not. -/
def isPlain (n : Node) : Bool :=
  n.type.all (fun t => t.arguments.isEmpty && t.supertypes.isEmpty) &&
    n.symbol.all fun s => s.owner.isNone && s.type.isNone && s.generatedBy.isEmpty

theorem isCoherent_of_plain (h : ∀ n, u.HasNode n → isPlain n = true) : u.IsCoherent declaredProvenance := by
  have htype {n : Node} (hn : u.HasNode n) : ∀ t ∈ n.type, t.arguments = [] ∧ t.supertypes = [] := by
    intro t ht
    have hplain := h n hn
    rw [isPlain, show n.type = some t from ht] at hplain
    simp only [Option.all_some, Bool.and_eq_true, List.isEmpty_iff] at hplain
    exact hplain.1
  have hsymbol {n : Node} (hn : u.HasNode n) :
      ∀ s ∈ n.symbol, s.owner = none ∧ s.type = none ∧ s.generatedBy.toList = [] := by
    intro s hs
    have hplain := h n hn
    rw [isPlain, show n.symbol = some s from hs] at hplain
    simp only [Option.all_some, Bool.and_eq_true, Option.isNone_iff_eq_none, NameSet.isEmpty, List.isEmpty_iff] at hplain
    exact ⟨hplain.2.1.1, hplain.2.1.2, hplain.2.2⟩
  have hall : ∀ s, u.HasSymbol s → s.owner = none ∧ s.type = none ∧ s.generatedBy.toList = [] := by
    intro s hs
    induction hs with
    | ofNode hn hs => exact hsymbol hn _ hs
    | owner _ ho ih => exact nomatch ih.1.symm.trans ho
  have hbare : ∀ t, u.HasType t → t.arguments = [] ∧ t.supertypes = [] := by
    intro t ht
    induction ht with
    | ofNode hn ht => exact htype hn _ ht
    | ofSymbol hs ht => exact nomatch (hall _ hs).2.1.symm.trans ht
    | argument _ ha ih =>
      rw [ih.1] at ha
      cases ha
    | supertype _ ha ih =>
      rw [ih.2] at ha
      cases ha
  refine ⟨fun s t hs ht _ => ?_, fun a b ha hb _ => NameSet.ext fun z => ?_⟩
  · rw [(hbare s hs).2, (hbare t ht).2]
  · rw [declaredProvenance, declaredProvenance, NameSet.mem_def, NameSet.mem_def, (hall a ha).2.2, (hall b hb).2.2]

/-! ## One closure for one identity -/

/-- Searches that start from the same identities meet the same names. -/
theorem IsCoherent.closure_eq (h : u.IsCoherent provenance) (met : NameSet) (queue queue' : List TypeRef)
    (hq : ∀ t ∈ queue, u.HasType t) (hq' : ∀ t ∈ queue', u.HasType t)
    (hkeys : queue.map TypeRef.key = queue'.map TypeRef.key) :
    supertypeClosure met queue = supertypeClosure met queue' := by
  -- on the steps of the search from the first queue, which the other one keeps up with
  fun_induction supertypeClosure met queue generalizing queue' with
  | case1 met =>
    cases queue' with
    | nil => rw [supertypeClosure]
    | cons => cases hkeys
  | case2 met t queue hmet ih =>
    cases queue' with
    | nil => cases hkeys
    | cons t' queue' =>
      obtain ⟨hkey, hrest⟩ := List.cons.inj hkeys
      rw [supertypeClosure, ← erasure_eq_of_key hkey, if_pos hmet]
      exact ih queue' (fun s hs => hq s (List.mem_cons_of_mem t hs))
        (fun s hs => hq' s (List.mem_cons_of_mem t' hs)) hrest
  | case3 met t queue hmet ih =>
    cases queue' with
    | nil => cases hkeys
    | cons t' queue' =>
      obtain ⟨hkey, hrest⟩ := List.cons.inj hkeys
      have ht := hq t List.mem_cons_self
      have ht' := hq' t' List.mem_cons_self
      rw [supertypeClosure, ← erasure_eq_of_key hkey, if_neg hmet]
      refine ih _ (fun s hs => ?_) (fun s hs => ?_) ?_
      · rcases List.mem_append.1 hs with hs | hs
        · exact hq s (List.mem_cons_of_mem t hs)
        · exact .supertype ht hs
      · rcases List.mem_append.1 hs with hs | hs
        · exact hq' s (List.mem_cons_of_mem t' hs)
        · exact .supertype ht' hs
      · rw [List.map_append, List.map_append, h.supertypes t t' ht ht' hkey]
        exact congrArg (· ++ _) hrest

/-! ## Truthful resolvers -/

/-- A resolver that tells nothing but what it would tell afresh, as far as the unit goes. -/
structure Truthful (u : CompilationUnit) (provenance : Provenance) (r : Resolver) : Prop where
  closures : ∀ t, u.HasType t → r.closureOf t = supertypeClosure ∅ [t]
  mechanisms : ∀ s, u.HasSymbol s → r.mechanismsOf s = provenance s
  provenance : r.provenance = provenance

theorem truthful_fresh (u : CompilationUnit) (provenance : Provenance) : u.Truthful provenance { provenance } :=
  ⟨fun _ _ => rfl, fun _ _ => rfl, rfl⟩

theorem IsCoherent.supertypeNames_settled (h : u.IsCoherent provenance) {t : TypeRef} (ht : u.HasType t) :
    Query.Settled (u.Truthful provenance) (Resolver.supertypeNames t) := by
  refine ⟨supertypeClosure ∅ [t], fun r hr => ⟨?_, fun s hs => ?_, fun s hs => ?_, ?_⟩⟩
  · rw [Resolver.supertypeNames_answer]
    exact hr.closures t ht
  · rw [Resolver.closureOf_supertypeNames]
    split
    · rename_i hkey
      rw [hr.closures t ht]
      exact h.closure_eq ∅ [t] [s] (by simpa using ht) (by simpa using hs) (by simpa using hkey)
    · exact hr.closures s hs
  · rw [Resolver.mechanismsOf_supertypeNames]
    exact hr.mechanisms s hs
  · rw [Resolver.provenance_supertypeNames]
    exact hr.provenance

theorem IsCoherent.generatedBy_settled (h : u.IsCoherent provenance) {s : Symbol} (hs : u.HasSymbol s) :
    Query.Settled (u.Truthful provenance) (Resolver.generatedBy (some s)) := by
  refine ⟨provenance s, fun r hr => ⟨?_, fun t ht => ?_, fun t ht => ?_, ?_⟩⟩
  · rw [Resolver.generatedBy_answer]
    exact hr.mechanisms s hs
  · rw [Resolver.closureOf_generatedBy]
    exact hr.closures t ht
  · rw [Resolver.mechanismsOf_generatedBy]
    split
    · rename_i hkey
      rw [hr.mechanisms s hs]
      exact h.mechanisms s t hs ht hkey
    · exact hr.mechanisms t ht
  · rw [Resolver.provenance_generatedBy]
    exact hr.provenance

end CompilationUnit

/-! ## Lawful questions -/

namespace Query

/-- A question that is put together from questions about the types and symbols of a unit. -/
inductive Lawful (u : CompilationUnit) : {α : Type} → Query α → Prop
  | pure {α : Type} (a : α) : Lawful u (pure a)
  | bind {α β : Type} {q : Query α} {f : α → Query β} : Lawful u q → (∀ a, Lawful u (f a)) → Lawful u (q >>= f)
  | supertypeNames {t : TypeRef} : u.HasType t → Lawful u (Resolver.supertypeNames t)
  | generatedBy {s : Symbol} : u.HasSymbol s → Lawful u (Resolver.generatedBy (some s))

variable {u : CompilationUnit} {α β : Type}

/-- In a coherent unit, the answer to a lawful question does not depend on what was asked before. -/
theorem Lawful.settled {provenance : Provenance} (h : u.IsCoherent provenance) {q : Query α} (hq : Lawful u q) :
    q.Settled (u.Truthful provenance) := by
  induction hq with
  | pure a => exact .of_pure a
  | bind _ _ ihq ihf => exact ihq.bind ihf
  | supertypeNames ht => exact h.supertypeNames_settled ht
  | generatedBy hs => exact h.generatedBy_settled hs

/-- A question that is only asked where its answer is not known yet. -/
theorem Lawful.orElse {c : Prop} [Decidable c] {q : Query α} (a : α) (hq : Lawful u q) :
    Lawful u (if c then Pure.pure a else q) := by
  split
  · exact .pure a
  · exact hq

theorem Lawful.map {q : Query α} (hq : Lawful u q) (f : α → β) : Lawful u (f <$> q) := by
  rw [← bind_pure_comp]
  exact hq.bind fun a => .pure (f a)

theorem Lawful.anyM {ι : Type} {f : ι → Query Bool} :
    ∀ {xs : List ι}, (∀ x ∈ xs, Lawful u (f x)) → Lawful u (xs.anyM f)
  | [], _ => .pure false
  | x :: xs, h => by
    rw [List.anyM]
    refine (h x List.mem_cons_self).bind fun found => ?_
    cases found
    · exact Lawful.anyM fun y hy => h y (List.mem_cons_of_mem x hy)
    · exact .pure true

theorem Lawful.isSubtypeOfName {t : Option TypeRef} (ht : ∀ s ∈ t, u.HasType s) (name : String) :
    Lawful u (Resolver.isSubtypeOfName t name) := by
  cases t with
  | none => exact .pure false
  | some t => exact (supertypeNames (ht t rfl)).bind fun names => .pure (names.contains name)

theorem Lawful.isSubtype {t : Option TypeRef} (ht : ∀ s ∈ t, u.HasType s) (s : Option TypeRef) :
    Lawful u (Resolver.isSubtype t s) := by
  cases s with
  | none => exact .pure false
  | some s => exact .isSubtypeOfName ht s.erasure

theorem Lawful.isGenerated {s : Option Symbol} (hs : ∀ t ∈ s, u.HasSymbol t) : Lawful u (Resolver.isGenerated s) := by
  cases s with
  | none => exact .bind (.pure ∅) fun names => .pure (!names.isEmpty)
  | some s => exact .bind (.generatedBy (hs s rfl)) fun names => .pure (!names.isEmpty)

end Query

end TreeLint
