/-
Histories of questions about the nodes of a tree, put to one resolver one after the other. Each is
answered as if nothing had been asked before just if nodes whose types or symbols share an identity are
told the same about. Main statement: `history_fresh_iff`.
-/
import TreeLint.Proofs.Resolver.Memory

namespace TreeLint

/-! ## Questions -/

/-- A question about a node. -/
inductive Question
  /-- Whether its symbol was produced by a generator. -/
  | generated (n : Node)
  /-- Whether its type is another one or a subtype of it. -/
  | subtype (n : Node) (t : Option TypeRef)

namespace Question

/-- The node that is asked about. -/
def node : Question → Node
  | generated n | subtype n _ => n

/-- Puts a question. -/
def ask : Question → Query Bool
  | generated n => Resolver.isGenerated n.symbol
  | subtype n t => Resolver.isSubtype n.resolvedType t

/-- The answer where nothing was asked before. -/
def freshAnswer (q : Question) : Bool := (q.ask {}).1

theorem ask_generated {n : Node} {s : Symbol} (hs : n.symbol = some s) (r : Resolver) :
    (generated n).ask r = (!(r.mechanismsOf s).isEmpty, (Resolver.generatedBy (some s) r).2) := by
  rw [← Resolver.generatedBy_answer]
  dsimp only [ask]
  rw [hs]
  rfl

theorem ask_subtype {n : Node} {t : TypeRef} (ht : n.resolvedType = some t) (u : TypeRef) (r : Resolver) :
    (subtype n (some u)).ask r = ((r.closureOf t).contains u.erasure, (Resolver.supertypeNames t r).2) := by
  rw [← Resolver.supertypeNames_answer]
  dsimp only [ask]
  rw [ht]
  rfl

theorem freshAnswer_generated {n : Node} {s : Symbol} (hs : n.symbol = some s) :
    (generated n).freshAnswer = !s.generatedBy.isEmpty :=
  congrArg Prod.fst (ask_generated hs {})

theorem freshAnswer_subtype {n : Node} {t : TypeRef} (ht : n.resolvedType = some t) (u : TypeRef) :
    (subtype n (some u)).freshAnswer = (supertypeClosure ∅ [t]).contains u.erasure :=
  congrArg Prod.fst (ask_subtype ht u {})

end Question

/-! ## One answer for one identity -/

namespace Node

/-- A tree where nodes whose types share an identity have the same names among their supertypes, and
those whose symbols do are generated or not alike. -/
structure Agrees (tree : Node) : Prop where
  closures : ∀ n ∈ tree.preorder, ∀ m ∈ tree.preorder, ∀ t ∈ n.resolvedType, ∀ u ∈ m.resolvedType, t.key = u.key →
    supertypeClosure ∅ [t] = supertypeClosure ∅ [u]
  mechanisms : ∀ n ∈ tree.preorder, ∀ m ∈ tree.preorder, ∀ a ∈ n.symbol, ∀ b ∈ m.symbol, a.key = b.key →
    a.generatedBy.isEmpty = b.generatedBy.isEmpty

/-- A resolver that tells about the nodes of a tree what it would tell afresh. -/
structure Recalled (tree : Node) (r : Resolver) : Prop where
  closures : ∀ n ∈ tree.preorder, ∀ t ∈ n.resolvedType, r.closureOf t = supertypeClosure ∅ [t]
  mechanisms : ∀ n ∈ tree.preorder, ∀ s ∈ n.symbol, (r.mechanismsOf s).isEmpty = s.generatedBy.isEmpty

variable {tree : Node}

theorem recalled_fresh (tree : Node) : tree.Recalled {} :=
  ⟨fun _ _ _ _ => rfl, fun _ _ _ _ => rfl⟩

/-- One question more, answered as afresh, and the next one will be too. -/
theorem Agrees.ask (h : tree.Agrees) {q : Question} (hq : q.node ∈ tree.preorder) {r : Resolver}
    (hr : tree.Recalled r) : (q.ask r).1 = q.freshAnswer ∧ tree.Recalled (q.ask r).2 := by
  cases q with
  | generated n =>
    cases hs : n.symbol with
    | none =>
      dsimp only [Question.freshAnswer, Question.ask]
      rw [hs]
      exact ⟨rfl, hr⟩
    | some s =>
      rw [Question.ask_generated hs, Question.freshAnswer_generated hs]
      refine ⟨congrArg Bool.not (hr.mechanisms n hq s hs), fun m hm t ht => ?_, fun m hm u hu => ?_⟩
      · rw [Resolver.closureOf_generatedBy]
        exact hr.closures m hm t ht
      · rw [Resolver.mechanismsOf_generatedBy]
        split
        · rename_i hkey
          rw [hr.mechanisms n hq s hs]
          exact h.mechanisms n hq m hm s hs u hu hkey
        · exact hr.mechanisms m hm u hu
  | subtype n u =>
    cases u with
    | none => exact ⟨rfl, hr⟩
    | some u =>
      cases ht : n.resolvedType with
      | none =>
        dsimp only [Question.freshAnswer, Question.ask]
        rw [ht]
        exact ⟨rfl, hr⟩
      | some t =>
        rw [Question.ask_subtype ht, Question.freshAnswer_subtype ht]
        refine ⟨congrArg (NameSet.contains · _) (hr.closures n hq t ht), fun m hm v hv => ?_, fun m hm s hs => ?_⟩
        · rw [Resolver.closureOf_supertypeNames]
          split
          · rename_i hkey
            rw [hr.closures n hq t ht]
            exact h.closures n hq m hm t ht v hv hkey
          · exact hr.closures m hm v hv
        · rw [Resolver.mechanismsOf_supertypeNames]
          exact hr.mechanisms m hm s hs

theorem Agrees.history (h : tree.Agrees) :
    ∀ (questions : List Question), (∀ q ∈ questions, q.node ∈ tree.preorder) → ∀ r, tree.Recalled r →
      (questions.mapM Question.ask r).1 = questions.map Question.freshAnswer
  | [], _, _, _ => rfl
  | q :: rest, hnodes, r, hr => by
    obtain ⟨hanswer, hr'⟩ := h.ask (hnodes q List.mem_cons_self) hr
    have hrest := h.history rest (fun p hp => hnodes p (List.mem_cons_of_mem q hp)) _ hr'
    rw [List.mapM_cons, List.map_cons, ← hanswer, ← hrest]
    rfl

/-- Every history of questions about the nodes of a tree is answered as afresh just if nodes of one
identity are told the same about. -/
theorem history_fresh_iff (tree : Node) :
    (∀ questions : List Question, (∀ q ∈ questions, q.node ∈ tree.preorder) →
      (questions.mapM Question.ask {}).1 = questions.map Question.freshAnswer) ↔ tree.Agrees := by
  refine ⟨fun h => ?_, fun h questions hnodes => h.history questions hnodes {} (recalled_fresh tree)⟩
  -- histories of two questions already tell the nodes apart
  have second {p q : Question} (hp : p.node ∈ tree.preorder) (hq : q.node ∈ tree.preorder) :
      (q.ask (p.ask {}).2).1 = q.freshAnswer := by
    have hboth := h [p, q] (List.forall_mem_cons.2 ⟨hp, List.forall_mem_singleton.2 hq⟩)
    exact (List.cons.inj (List.cons.inj hboth).2).1
  refine ⟨fun n hn m hm t ht u hu hkey => NameSet.ext fun name => ?_, fun n hn m hm a ha b hb hkey => ?_⟩
  · let other : TypeRef := { qualifiedName := name }
    have hagain := second (p := .subtype n (some other)) (q := .subtype m (some other)) hn hm
    rw [Question.ask_subtype ht, Question.ask_subtype hu, Question.freshAnswer_subtype hu,
      Resolver.closureOf_supertypeNames, if_pos hkey] at hagain
    rw [← NameSet.contains_iff, ← NameSet.contains_iff]
    exact iff_of_eq (congrArg (· = true) hagain)
  · have hagain := second (p := .generated n) (q := .generated m) hn hm
    rw [Question.ask_generated ha, Question.ask_generated hb, Question.freshAnswer_generated hb,
      Resolver.mechanismsOf_generatedBy, if_pos hkey] at hagain
    exact Bool.not_inj hagain

end Node

end TreeLint
