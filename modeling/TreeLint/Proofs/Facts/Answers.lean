/-
What is answered about a unit made from facts. Whether a class or a function is generated is told by its
own decorators where nothing else was asked before. What was asked before makes no difference just if
redeclared things are marked alike and no literal is of a type that another expression gives a
supertype. Main statement: `unitOf_answers`.
-/
import TreeLint.Facts.Unit
import TreeLint.Proofs.Facts.Tree
import TreeLint.Proofs.Resolver.Closure
import TreeLint.Proofs.Resolver.History

namespace TreeLint

namespace Node

/-! ## Where answers could differ -/

/-- Symbols of one identity are all marked as generated, or none is. -/
def MarksAgree (markers : List String) (tree : Node) : Prop :=
  ∀ n ∈ tree.preorder, ∀ m ∈ tree.preorder, ∀ a ∈ n.symbol, ∀ b ∈ m.symbol, a.key = b.key →
    Facts.isMarked markers a.annotations = Facts.isMarked markers b.annotations

/-- A type that a literal has is given no supertype of another name by what is no literal. -/
def LiteralsAgree (tree : Node) : Prop :=
  ∀ n ∈ tree.preorder, n.kind = .literal → ∀ m ∈ tree.preorder, m.kind ≠ .literal → ∀ t ∈ n.resolvedType,
    ∀ u ∈ m.resolvedType, t.key = u.key → ∀ s ∈ u.supertypes, s.erasure = u.erasure

end Node

namespace Facts

variable {k : Known} {r : Reading}

/-! ## One type for one name -/

/-- Types that are remembered under their own names. -/
def Known.Named (k : Known) : Prop :=
  ∀ entry ∈ k.types, entry.2.qualifiedName = entry.1

theorem Known.Named.later {k' : Known} (h : k.Named) (hk : k.Later k') : k'.Named := by
  obtain ⟨more, htypes, hmore⟩ := hk.types
  intro entry hentry
  rw [htypes] at hentry
  rcases List.mem_append.1 hentry with hentry | hentry
  · exact h entry hentry
  · exact (hmore entry hentry).1

theorem Known.Named.lookup (h : k.Named) {t : TypeRef} (ht : k.Remembers t) :
    k.types.lookup t.qualifiedName = some t := by
  obtain ⟨name, hname⟩ := ht
  obtain ⟨front, back, htypes, -⟩ := List.lookup_eq_some_iff.1 hname
  have hown : t.qualifiedName = name := h (name, t) (htypes ▸ List.mem_append_right front List.mem_cons_self)
  rw [hown]
  exact hname

/-- Remembered types of one identity are one. -/
theorem Known.Named.unique (h : k.Named) {t u : TypeRef} (ht : k.Remembers t) (hu : k.Remembers u)
    (hkey : t.key = u.key) : t = u := by
  have hname : t.qualifiedName = u.qualifiedName := erasure_eq_of_key hkey
  have hlookup := h.lookup ht
  rw [hname, h.lookup hu] at hlookup
  exact (Option.some.inj hlookup).symm

namespace Reading

theorem Lowered.resolvedType {n : Node} (h : r.Lowered k n) (hn : n.kind ≠ .literal) :
    ∀ t ∈ n.resolvedType, k.Remembers t := by
  intro t ht
  rcases Option.or_eq_some_iff.1 ht with ht | ⟨-, ht⟩
  · exact h.type hn t ht
  · obtain ⟨s, hs, ht⟩ := Option.bind_eq_some_iff.1 ht
    exact (h.symbol s hs).type t ht

theorem Lowered.literalType {n : Node} (h : r.Lowered k n) (hn : n.kind = .literal) :
    ∀ t ∈ n.resolvedType, t = { qualifiedName := t.erasure } := by
  obtain ⟨hsymbol, htype⟩ := h.literal hn
  intro t ht
  unfold Node.resolvedType at ht
  rw [hsymbol, Option.bind_none, Option.or_none] at ht
  obtain ⟨name, rfl⟩ := htype t ht
  rfl

/-- A literal and what is no literal are told alike just if the type of the latter has no supertype of
another name. -/
theorem Lowered.literal_iff {n : Node} (h : r.Lowered k n) (hn : n.kind = .literal) {t u : TypeRef}
    (ht : t ∈ n.resolvedType) (hkey : t.key = u.key) :
    supertypeClosure ∅ [u] = supertypeClosure ∅ [t] ↔ ∀ s ∈ u.supertypes, s.erasure = u.erasure := by
  rw [h.literalType hn t ht, erasure_eq_of_key hkey]
  exact closure_eq_bare_iff u

theorem Told.agrees_iff {tree : Node} (h : r.Told k tree) (hk : k.Named) :
    tree.Agrees ↔ tree.MarksAgree r.markers ∧ tree.LiteralsAgree := by
  refine ⟨fun hagrees => ⟨fun n hn m hm a ha b hb hkey => ?_, fun n hn hliteral m hm _ t ht u hu hkey => ?_⟩,
    fun ⟨hmarks, hliterals⟩ => ⟨fun n hn m hm t ht u hu hkey => ?_, fun n hn m hm a ha b hb hkey => ?_⟩⟩
  · have hempty := hagrees.mechanisms n hn m hm a ha b hb hkey
    rw [((h n hn).symbol a ha).marked, ((h m hm).symbol b hb).marked] at hempty
    exact Bool.not_inj hempty
  · exact ((h n hn).literal_iff hliteral ht hkey).1 (hagrees.closures n hn m hm t ht u hu hkey).symm
  · -- two literals tell their names alone, and two other types of one name are one
    by_cases hn' : n.kind = .literal <;> by_cases hm' : m.kind = .literal
    · rw [(h n hn).literalType hn' t ht, (h m hm).literalType hm' u hu, erasure_eq_of_key hkey]
    · exact (((h n hn).literal_iff hn' ht hkey).2 (hliterals n hn hn' m hm hm' t ht u hu hkey)).symm
    · exact ((h m hm).literal_iff hm' hu hkey.symm).2 (hliterals m hm hm' n hn hn' u hu t ht hkey.symm)
    · rw [hk.unique ((h n hn).resolvedType hn' t ht) ((h m hm).resolvedType hm' u hu) hkey]
  · rw [((h n hn).symbol a ha).marked, ((h m hm).symbol b hb).marked, hmarks n hn m hm a ha b hb hkey]

end Reading

end Facts

/-! ## Units -/

namespace FrontEnd

/-- The tree of a unit is the one that the facts tell. -/
theorem unitOf_tree {fe : FrontEnd} {path source : String} {facts : Facts} {u : CompilationUnit} {log log' : Log}
    (hparse : fe.parse path source = .facts facts) (hunit : fe.unitOf path source log = (.ok u, log')) :
    ∃ k, ({ facts, source, markers := fe.markers } : Facts.Reading).tree { log } = (.ok u.tree, k) := by
  unfold unitOf at hunit
  rw [hparse] at hunit
  dsimp only at hunit
  rcases h : ({ facts, source, markers := fe.markers } : Facts.Reading).tree { log } with ⟨f | t, k⟩ <;>
    rw [h] at hunit
  · cases hunit
  · obtain ⟨hmake, -⟩ := Prod.mk.inj hunit
    obtain ⟨-, -, hroot, -⟩ := CompilationUnit.parts_of_make hmake
    exact ⟨k, by rw [hroot]⟩

/-- Asked first, whether a class or a function of a unit is generated is told by its own decorators. All
questions about the nodes of the unit are answered so, whatever was asked before, just if redeclared
things are marked alike and literals agree with the other expressions of their types. -/
theorem unitOf_answers (fe : FrontEnd) (path source : String) (log : Log) {facts : Facts} {u : CompilationUnit}
    {log' : Log} (hparse : fe.parse path source = .facts facts) (hunit : fe.unitOf path source log = (.ok u, log')) :
    (∀ n ∈ u.tree.preorder, ∀ position, n.id = 2 * position → ∀ decorators ∈ (facts.form position).decoratorRows,
      ∃ annotations, facts.annotations decorators = .ok annotations ∧
        (Question.generated n).freshAnswer = Facts.isMarked fe.markers annotations) ∧
    ((∀ questions : List Question, (∀ q ∈ questions, q.node ∈ u.tree.preorder) →
      (questions.mapM Question.ask {}).1 = questions.map Question.freshAnswer) ↔
        u.tree.MarksAgree fe.markers ∧ u.tree.LiteralsAgree) := by
  obtain ⟨k, htree⟩ := unitOf_tree hparse hunit
  -- nothing is remembered or under construction when the tree is begun
  have hend := Facts.Reading.nodeWithin_ends { facts, source, markers := fe.markers } facts.depth facts.root { log } rfl
  rw [show Facts.Reading.nodeWithin _ facts.depth facts.root { log } = _ from htree] at hend
  obtain ⟨hlater, htold⟩ := hend
  have htold := htold u.tree rfl
  have hfresh : ({ log } : Facts.Known).Named := fun _ h => nomatch h
  have hagrees := htold.agrees_iff (hfresh.later hlater)
  refine ⟨fun n hn position hid decorators hdecorators => ?_, (Node.history_fresh_iff u.tree).trans hagrees⟩
  obtain ⟨s, hs, hannotations⟩ := (htold n hn).annotated position hid decorators hdecorators
  refine ⟨s.annotations, hannotations, ?_⟩
  rw [Question.freshAnswer_generated hs, ((htold n hn).symbol s hs).marked]
  exact Bool.not_not _

/-- A front end that reads, whatever the text, a function marked as generated and one that is not, and a
literal beside a name for an instance of `int`. -/
def reading (marked unmarked literal : String) : FrontEnd where
  markers := ["generated"]
  parse _ _ :=
    let function (name : String) (decorators : List Nat) : Facts.FunctionFacts :=
      { name, binding := .free, frame := some 0, decorators, parameters := [], keywordParameters := []
        arguments := [], body := [] }
    let type (name : String) (ancestors : List Facts.Step) : Facts.ClassFacts :=
      { name, qualifiedName := name, frame := none, decorators := [], ancestors, bases := [], body := [] }
    .facts {
      rows := #[
        ⟨.moduleDef "m" [1, 2, 3, 4], {}⟩,
        ⟨.function (function marked [5]), {}⟩,
        ⟨.function (function unmarked []), {}⟩,
        ⟨.constant literal none, {}⟩,
        ⟨.name "x" [.instanceOf 6] none, {}⟩,
        ⟨.name "generated" [] none, {}⟩,
        ⟨.classDef (type "int" [.row 7]), {}⟩,
        ⟨.classDef (type "object" []), {}⟩]
      root := 0
    }

/-- Functions of two names, and a literal of another type. -/
theorem unitOf_answers_distinct : ∃ u log, (reading "f" "g" "str").unitOf "m.py" "" [] = (.ok u, log) ∧
    (∀ n ∈ u.tree.preorder, n.id = 2 → (Question.generated n).freshAnswer = true) ∧
    ∀ questions : List Question, (∀ q ∈ questions, q.node ∈ u.tree.preorder) →
      (questions.mapM Question.ask {}).1 = questions.map Question.freshAnswer := by
  have hanswers := (reading "f" "g" "str").unitOf_answers "m.py" "" [] rfl rfl
  refine ⟨_, _, rfl, fun n hn hid => ?_, hanswers.2.2 ⟨?_, ?_⟩⟩
  · obtain ⟨annotations, hannotations, hanswer⟩ := hanswers.1 n hn 1 hid [5] rfl
    cases hannotations
    exact hanswer
  · unfold Node.MarksAgree
    decide +kernel
  · unfold Node.LiteralsAgree
    decide +kernel

/-- Functions of one name, and a literal of the type of the name: what was asked about the first function
decides about the second, and what was asked about the literal about the name. -/
theorem unitOf_redeclared : ∃ u log first second literal name p q,
    (reading "f" "f" "int").unitOf "m.py" "" [] = (.ok u, log) ∧
    u.tree.preorder = [u.tree, first, p, second, q, literal, name] ∧
    (List.mapM Question.ask [.generated second] {}).1 = [false] ∧
    (List.mapM Question.ask [.generated first, .generated second] {}).1 = [true, true] ∧
    (List.mapM Question.ask [.subtype name (some { qualifiedName := "object" })] {}).1 = [true] ∧
    (List.mapM Question.ask [.subtype literal (some { qualifiedName := "object" }),
      .subtype name (some { qualifiedName := "object" })] {}).1 = [false, false] := by
  refine ⟨_, _, _, _, _, _, _, _, rfl, rfl, rfl, rfl, ?_, ?_⟩
  · decide +kernel
  · decide +kernel

end FrontEnd

end TreeLint
