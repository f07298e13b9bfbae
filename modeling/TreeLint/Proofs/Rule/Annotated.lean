/-
The rules that come with the program look at no annotation but the marker. They make the same of a tree in
which some nodes carry one more annotation of another name. Main statements: `markedTypes_mark` and
`found_mark`.
-/
import TreeLint.Proofs.Rule.Builtin
import TreeLint.Proofs.Tree.Annotated

namespace TreeLint.Marking

variable {m : Marking}

/-! ## Questions -/

theorem carries_mark {name : String} (h : m.annotation.isNamed name = false) (n : Node) :
    (m.mark n).carries name = n.carries name := by
  have hnamed (x : Annotation) (hx : x.isNamed name = true) :
      x ∈ (m.mark n).allAnnotations ↔ x ∈ n.allAnnotations := by
    have hne : x ≠ m.annotation := fun heq => by
      rw [heq, h] at hx
      cases hx
    rw [Node.allAnnotations, Node.allAnnotations, annotations_mark, symbol_mark, List.mem_append, List.mem_append,
      mem_among]
    simp [hne]
  rw [Bool.eq_iff_iff]
  unfold Node.carries annotationNamed?
  rw [List.find?_isSome, List.find?_isSome]
  exact ⟨fun ⟨x, hmem, hx⟩ => ⟨x, (hnamed x hx).1 hmem, hx⟩, fun ⟨x, hmem, hx⟩ => ⟨x, (hnamed x hx).2 hmem, hx⟩⟩

theorem markedTypes_mark {marker : String} (h : m.annotation.isNamed marker = false) (root : Node) :
    LeakedSubclass.markedTypes marker (m.mark root) = LeakedSubclass.markedTypes marker root := by
  have htype : LeakedSubclass.markedType? marker ∘ m.mark = LeakedSubclass.markedType? marker := by
    funext n
    rw [Function.comp, LeakedSubclass.markedType?, LeakedSubclass.markedType?, kind_mark, carries_mark h,
      resolvedType_mark]
  unfold LeakedSubclass.markedTypes
  rw [m.preorder_mark.1, List.filterMap_map, htype]

theorem isLeaked_mark (generatedStart : String) (owned : List TypeRef) (n : Node) :
    LeakedSubclass.isLeaked generatedStart owned (m.mark n) = LeakedSubclass.isLeaked generatedStart owned n := by
  unfold LeakedSubclass.isLeaked
  rw [symbol_mark, resolvedType_mark]

theorem callee_mark (n : Node) : (m.mark n).callee = n.callee.map m.mark := by
  unfold Node.callee
  rw [kind_mark, children_mark, List.head?_map]
  split <;> rfl

theorem arguments_mark (n : Node) : (m.mark n).arguments = n.arguments.map m.mark := by
  unfold Node.arguments
  rw [kind_mark, children_mark, ← List.map_tail]
  split <;> rfl

theorem isMatch_call_mark (c : CallPattern) (n : Node) : c.isMatch (m.mark n) = c.isMatch n := by
  have hmethod : CallPattern.method? (m.mark n) = CallPattern.method? n := by
    have hcallee : (n.callee.map m.mark).bind (·.symbol) = n.callee.bind (·.symbol) := by
      cases n.callee with
      | none => rfl
      | some k => exact symbol_mark m k
    rw [CallPattern.method?, CallPattern.method?, symbol_mark, callee_mark, hcallee]
  have hreceiver : (m.mark n).receiver.bind (·.resolvedType) = n.receiver.bind (·.resolvedType) := by
    rw [m.receiver_mark.1]
    cases n.receiver with
    | none => rfl
    | some k => exact resolvedType_mark m k
  unfold CallPattern.isMatch
  rw [kind_mark, hmethod, arguments_mark, List.length_map, hreceiver]

theorem isMatch_remainder_mark (names : RandomRemainder.Names) (n : Node) :
    (RandomRemainder.rule names).pattern.isMatch (m.mark n) = (RandomRemainder.rule names).pattern.isMatch n := by
  have hleft : Pattern.operand? (m.mark n) 0 = (Pattern.operand? n 0).map m.mark := by
    unfold Pattern.operand?
    rw [kind_mark, children_mark, List.getElem?_map]
    split <;> rfl
  show Pattern.allMatch [.binary "%", .left (.call (RandomRemainder.draw names))] (m.mark n) =
    Pattern.allMatch [.binary "%", .left (.call (RandomRemainder.draw names))] n
  simp only [Pattern.allMatch, Pattern.isMatch, kind_mark, operator_mark, hleft]
  cases Pattern.operand? n 0 with
  | none => rfl
  | some k => simp only [Option.map_some, isMatch_call_mark]

/-! ## Findings -/

theorem spanOf_mark (source : String) (n : Node) : Source.spanOf source (m.mark n) = Source.spanOf source n := by
  unfold Source.spanOf Source.span?
  rw [span_mark, kind_mark]

theorem textOf_mark (source : String) (n : Node) : Source.textOf source (m.mark n) = Source.textOf source n := by
  rw [Source.textOf, Source.textOf, spanOf_mark]

theorem boundedDraw_mark (source method : String) (remainder modulus : Node) (receiver : Option Node) :
    RandomRemainder.boundedDraw source method (m.mark remainder) (m.mark modulus) (receiver.map m.mark) =
      RandomRemainder.boundedDraw source method remainder modulus receiver := by
  have hbuild (text : String) :
      Fix.build source [.replace (m.mark remainder) text] = Fix.build source [.replace remainder text] := by
    rw [Fix.build_replace, Fix.build_replace, spanOf_mark]
  unfold RandomRemainder.boundedDraw
  rw [textOf_mark]
  cases receiver with
  | none => simp only [Option.map_none, hbuild]
  | some k => simp only [Option.map_some, RandomRemainder.receiverText, textOf_mark, kind_mark, hbuild]

/-- A scene and a walk in a unit, and the same in the unit with the marking. -/
structure SameScene (m : Marking) (scene scene' : Scene) (walk walk' : Walk) : Prop where
  unit : scene'.unit = m.markUnit scene.unit
  rule : scene'.rule = scene.rule
  path : walk'.path = walk.path.map m.mark

variable {scene scene' : Scene} {walk walk' : Walk}

theorem finding_mark (h : m.SameScene scene scene' walk walk') (n : Node) (fix : Option Fix) :
    RuleM.finding scene' walk' (m.mark n) fix = RuleM.finding scene walk n fix := by
  have hspan (around : List Node) (source : String) :
      Source.enclosingSpan source (m.mark n) (around.map m.mark) = Source.enclosingSpan source n around := by
    unfold Source.enclosingSpan
    rw [← List.map_cons, List.findSome?_map]
    refine congrArg (List.findSome? · _) (funext fun k => ?_)
    rw [Function.comp, Source.span?, Source.span?, span_mark]
  have hcurrent : walk'.current.any (·.is (m.mark n)) = walk.current.any (·.is n) := by
    unfold Walk.current Node.is
    rw [h.path]
    cases walk.path with
    | nil => rfl
    | cons k rest => simp
  have haround : (if walk.current.any (·.is n) then walk'.ancestors else walk'.path) =
      (if walk.current.any (·.is n) then walk.ancestors else walk.path).map m.mark := by
    unfold Walk.ancestors
    rw [h.path]
    split
    · exact (List.map_tail ..).symm
    · rfl
  unfold RuleM.finding
  rw [h.unit, h.rule, hcurrent, haround]
  simp only [hspan]
  rfl

theorem found_mark (h : m.SameScene scene scene' walk walk') (names : RandomRemainder.Names) (n : Node) :
    RandomRemainder.found names scene' walk' (m.mark n) = RandomRemainder.found names scene walk n := by
  unfold RandomRemainder.found
  rw [children_mark, List.getElem?_map, List.getElem?_map]
  rcases n.children[0]? with _ | invocation
  · rfl
  rcases n.children[1]? with _ | modulus
  · rfl
  have hname : (m.mark invocation).callee.bind (·.name) = invocation.callee.bind (·.name) := by
    rw [callee_mark]
    cases invocation.callee with
    | none => rfl
    | some k => exact name_mark m k
  have hsource : scene'.unit.source = scene.unit.source := by rw [h.unit]; rfl
  simp only [Option.map_some, Option.bind_eq_bind, Option.bind_some, hname, hsource, m.receiver_mark.1, boundedDraw_mark,
    finding_mark h]

end TreeLint.Marking
