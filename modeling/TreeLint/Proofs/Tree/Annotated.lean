/-
Trees in which some nodes carry one more annotation. Nothing else changes: the same nodes are at the same
spots, with the same symbols and types. Main statements: `spots_mark` and `isCoherent_mark`.
-/
import TreeLint.Proofs.Pattern.Lawful
import TreeLint.Proofs.Walk.Steps

namespace TreeLint

/-- An annotation to be put on the nodes with an id, at some position among those they carry. -/
structure Marking where
  target : Nat
  position : Nat
  annotation : Annotation

namespace Marking

variable (m : Marking)

/-! ## Nodes -/

/-- The annotations of a node with the marking. -/
def among (id : Nat) (annotations : List Annotation) : List Annotation :=
  if id = m.target then annotations.take m.position ++ m.annotation :: annotations.drop m.position
  else annotations

mutual

/-- The tree with the marking. -/
def mark : Node → Node
  | ⟨id, kind, symbol, type, span, name, operator, annotations, children⟩ =>
    ⟨id, kind, symbol, type, span, name, operator, m.among id annotations, markAll children⟩

/-- Several trees with the marking. -/
def markAll : List Node → List Node
  | [] => []
  | n :: ns => mark n :: markAll ns

end

theorem markAll_eq (ns : List Node) : m.markAll ns = ns.map m.mark := by
  induction ns with
  | nil => rfl
  | cons n ns ih => rw [markAll, ih, List.map_cons]

@[simp] theorem id_mark (n : Node) : (m.mark n).id = n.id := by cases n; rfl

@[simp] theorem kind_mark (n : Node) : (m.mark n).kind = n.kind := by cases n; rfl

@[simp] theorem symbol_mark (n : Node) : (m.mark n).symbol = n.symbol := by cases n; rfl

@[simp] theorem type_mark (n : Node) : (m.mark n).type = n.type := by cases n; rfl

@[simp] theorem span_mark (n : Node) : (m.mark n).span = n.span := by cases n; rfl

@[simp] theorem name_mark (n : Node) : (m.mark n).name = n.name := by cases n; rfl

@[simp] theorem operator_mark (n : Node) : (m.mark n).operator = n.operator := by cases n; rfl

@[simp] theorem annotations_mark (n : Node) : (m.mark n).annotations = m.among n.id n.annotations := by cases n; rfl

@[simp] theorem children_mark (n : Node) : (m.mark n).children = n.children.map m.mark := by
  cases n
  exact m.markAll_eq _

@[simp] theorem resolvedType_mark (n : Node) : (m.mark n).resolvedType = n.resolvedType := by
  rw [Node.resolvedType, Node.resolvedType, type_mark, symbol_mark]

theorem mem_among {id : Nat} {annotations : List Annotation} {x : Annotation} :
    x ∈ m.among id annotations ↔ x ∈ annotations ∨ id = m.target ∧ x = m.annotation := by
  have hcut : x ∈ annotations ↔ x ∈ annotations.take m.position ∨ x ∈ annotations.drop m.position := by
    rw [← List.mem_append, List.take_append_drop]
  unfold among
  split
  · rw [List.mem_append, List.mem_cons, hcut]
    grind
  · grind

theorem preorder_mark :
    (∀ n : Node, (m.mark n).preorder = n.preorder.map m.mark) ∧
    ∀ ns : List Node, Node.preorderAll (ns.map m.mark) = (Node.preorderAll ns).map m.mark := by
  refine Node.forest_induction (fun n ih => ?_) rfl fun n ns ihn ihns => ?_
  · rw [Node.preorder_eq, Node.preorder_eq, children_mark, ih, List.map_cons]
  · rw [List.map_cons, Node.preorderAll, Node.preorderAll, ihn, ihns, List.map_append]

theorem receiver_mark :
    (∀ n : Node, (m.mark n).receiver = n.receiver.map m.mark) ∧
    ∀ ns : List Node, Node.receiverOfFirst (ns.map m.mark) = (Node.receiverOfFirst ns).map m.mark := by
  refine Node.forest_induction (fun n ih => ?_) rfl fun n ns ihn _ => ihn
  obtain ⟨id, kind, symbol, type, span, name, operator, annotations, children⟩ := n
  cases kind with
  | invocation =>
    show Node.receiverOfFirst (m.markAll children) = _
    rw [markAll_eq]
    exact ih
  | memberAccess =>
    show (m.markAll children).head? = _
    rw [markAll_eq, List.head?_map]
    rfl
  | _ => rfl

/-! ## Spots -/

/-- The spot in the tree with the marking. -/
def markSpot (q : Spot) : Spot := ⟨q.around.map m.mark, m.mark q.node⟩

theorem chain_markSpot (q : Spot) : (m.markSpot q).chain = q.chain.map m.mark := by
  unfold Spot.chain markSpot
  rw [List.map_append]
  rfl

/-- The marking leaves all spots in place, if the same subtrees are cut off. -/
theorem spots_mark {cut cut' : Node → Bool} (hcut : ∀ n, cut' (m.mark n) = cut n) :
    (∀ (n : Node) (around : List Node),
      (m.mark n).spots cut' (around.map m.mark) = (n.spots cut around).map m.markSpot) ∧
    ∀ (ns : List Node) (around : List Node),
      Node.spotsAll cut' (around.map m.mark) (ns.map m.mark) = (Node.spotsAll cut around ns).map m.markSpot := by
  refine Node.forest_induction (fun n ih around => ?_) (fun around => rfl) fun n ns ihn ihns around => ?_
  · have hdeeper : around.map m.mark ++ [m.mark n] = (around ++ [n]).map m.mark := by
      rw [List.map_append]
      rfl
    rw [Node.spots_eq, Node.spots_eq, hcut, children_mark, hdeeper, ih]
    cases cut n <;> rfl
  · rw [List.map_cons, Node.spotsAll, Node.spotsAll, ihn, ihns, List.map_append]

/-! ## Units -/

/-- The unit with the marking, in its tree and in its pool. -/
def markUnit (u : CompilationUnit) : CompilationUnit :=
  { u with tree := m.mark u.tree, pool := u.pool.map m.mark, kind_tree := (m.kind_mark u.tree).trans u.kind_tree }

variable {m} {u : CompilationUnit} {provenance : Provenance}

theorem hasNode_markUnit {n : Node} : (m.markUnit u).HasNode n ↔ ∃ k, u.HasNode k ∧ n = m.mark k := by
  unfold CompilationUnit.HasNode markUnit
  simp only [m.preorder_mark.1, List.mem_map, Array.mem_map]
  grind [m.preorder_mark.1]

theorem hasSymbol_markUnit {s : Symbol} (h : (m.markUnit u).HasSymbol s) : u.HasSymbol s := by
  induction h with
  | ofNode hn hs =>
    obtain ⟨k, hk, rfl⟩ := hasNode_markUnit.1 hn
    exact .ofNode hk ((m.symbol_mark k).symm.trans hs)
  | owner _ ho ih => exact .owner ih ho

theorem hasType_markUnit {t : TypeRef} (h : (m.markUnit u).HasType t) : u.HasType t := by
  induction h with
  | ofNode hn ht =>
    obtain ⟨k, hk, rfl⟩ := hasNode_markUnit.1 hn
    exact .ofNode hk ((m.type_mark k).symm.trans ht)
  | ofSymbol hs ht => exact .ofSymbol (hasSymbol_markUnit hs) ht
  | argument _ ha ih => exact .argument ih ha
  | supertype _ ha ih => exact .supertype ih ha

theorem isCoherent_mark (h : u.IsCoherent provenance) : (m.markUnit u).IsCoherent provenance :=
  ⟨fun s t hs ht => h.supertypes s t (hasType_markUnit hs) (hasType_markUnit ht),
    fun a b ha hb => h.mechanisms a b (hasSymbol_markUnit ha) (hasSymbol_markUnit hb)⟩

end Marking

end TreeLint
