/-
Induction on a tree together with the lists of its subtrees, and what is below a node.
-/
import TreeLint.Tree.Node

namespace TreeLint.Node

/-- What holds of a node if it holds of its subtrees, and of a list of subtrees if it holds of each,
holds of all nodes and of all lists of them. -/
theorem forest_induction {P : Node → Prop} {Q : List Node → Prop} (node : ∀ n, Q n.children → P n) (nil : Q [])
    (cons : ∀ n ns, P n → Q ns → Q (n :: ns)) : (∀ n, P n) ∧ ∀ ns, Q ns := by
  have tree (n : Node) : P n :=
    @Node.rec P Q (fun _ _ _ _ _ _ _ _ _ ih => node _ ih) nil (fun _ _ hn hns => cons _ _ hn hns) n
  refine ⟨tree, fun ns => ?_⟩
  induction ns with
  | nil => exact nil
  | cons n ns ih => exact cons n ns (tree n) ih

/-! ## Below a node -/

theorem mem_preorderAll {ns : List Node} {m : Node} : m ∈ preorderAll ns ↔ ∃ n ∈ ns, m ∈ n.preorder := by
  induction ns with
  | nil => simp [preorderAll]
  | cons n ns ih => simp [preorderAll, ih]

theorem mem_preorder_self (n : Node) : n ∈ n.preorder := by
  rw [preorder_eq]
  exact List.mem_cons_self

theorem mem_preorder_child {n m : Node} (h : m ∈ n.children) : m ∈ n.preorder := by
  rw [preorder_eq]
  exact List.mem_cons_of_mem n (mem_preorderAll.2 ⟨m, h, mem_preorder_self m⟩)

/-- What is below a node below another is below that other. -/
theorem mem_preorder_trans {m k : Node} (hm : m ∈ k.preorder) :
    (∀ n : Node, k ∈ n.preorder → m ∈ n.preorder) ∧
    ∀ ns : List Node, k ∈ preorderAll ns → m ∈ preorderAll ns := by
  refine forest_induction (fun n ih hk => ?_) (fun hk => nomatch hk) fun n ns ihn ihns hk => ?_
  · rw [preorder_eq] at hk
    rcases List.mem_cons.1 hk with rfl | hk
    · exact hm
    · rw [preorder_eq]
      exact List.mem_cons_of_mem n (ih hk)
  · rw [preorderAll] at hk ⊢
    rcases List.mem_append.1 hk with hk | hk
    · exact List.mem_append_left _ (ihn hk)
    · exact List.mem_append_right _ (ihns hk)

theorem mem_preorder_of_child {k n m : Node} (hn : n ∈ k.preorder) (hm : m ∈ n.children) : m ∈ k.preorder :=
  (mem_preorder_trans (mem_preorder_child hm)).1 k hn

theorem forall_mem_preorder {P : Node → Prop} {n : Node} :
    (∀ m ∈ n.preorder, P m) ↔ P n ∧ ∀ c ∈ n.children, ∀ m ∈ c.preorder, P m := by
  rw [preorder_eq, List.forall_mem_cons]
  refine and_congr_right fun _ => ⟨fun h c hc m hm => h m (mem_preorderAll.2 ⟨c, hc, hm⟩), fun h m hm => ?_⟩
  obtain ⟨c, hc, hm⟩ := mem_preorderAll.1 hm
  exact h c hc m hm

/-- The receiver is a node below. -/
theorem receiver_mem_preorder :
    (∀ n : Node, ∀ m ∈ n.receiver, m ∈ n.preorder) ∧
    ∀ ns : List Node, ∀ m ∈ receiverOfFirst ns, m ∈ preorderAll ns := by
  refine forest_induction (fun n ih m hm => ?_) (fun m hm => nomatch hm) fun n ns ihn _ m hm => ?_
  · rw [preorder_eq]
    refine List.mem_cons_of_mem n ?_
    unfold receiver at hm
    split at hm
    · exact ih m hm
    · exact mem_preorderAll.2 ⟨m, List.mem_of_mem_head? hm, mem_preorder_self m⟩
    · cases hm
  · exact List.mem_append_left _ (ihn m hm)

end TreeLint.Node
