/-
The spots of a tree at and below one of them. In pre-order they follow it without a gap, and they are the
spots of the subtree of its node, seen from outside. Main statement: `spots_below`.
-/
import Mathlib.Data.List.TakeWhile
import TreeLint.Proofs.Walk.Steps

namespace TreeLint

namespace Spot

/-- How many nodes are around the spot. -/
def depth (q : Spot) : Nat := q.around.length

/-- The spot with more nodes around it. -/
def inside (around : List Node) (q : Spot) : Spot := ⟨around ++ q.around, q.node⟩

theorem chain_inside (around : List Node) (q : Spot) : (q.inside around).chain = around ++ q.chain :=
  List.append_assoc ..

/-- The nodes of the chain from that of another spot down. -/
def chainBelow (p q : Spot) : List Node := q.chain.drop p.depth

theorem chainBelow_inside (p q : Spot) : p.chainBelow (q.inside p.around) = q.chain := by
  rw [chainBelow, chain_inside]
  exact List.drop_left

end Spot

namespace Node

variable {cut : Node → Bool}

/-! ## Seen from outside -/

theorem spots_inside (cut : Node → Bool) (outer : List Node) :
    (∀ (n : Node) (around : List Node), n.spots cut (outer ++ around) = (n.spots cut around).map (Spot.inside outer)) ∧
    ∀ (ns : List Node) (around : List Node),
      spotsAll cut (outer ++ around) ns = (spotsAll cut around ns).map (Spot.inside outer) := by
  refine forest_induction (fun n ih around => ?_) (fun around => rfl) fun n ns ihn ihns around => ?_
  · rw [spots_eq, spots_eq]
    cases cut n
    · rw [if_neg Bool.false_ne_true, if_neg Bool.false_ne_true, List.append_assoc, ih, List.map_cons]
      rfl
    · rfl
  · rw [spotsAll, spotsAll, ihn, ihns, List.map_append]

/-- The spots of a subtree in its tree are those of the subtree alone, with the nodes around it. -/
theorem spots_eq_map (cut : Node → Bool) (around : List Node) (n : Node) :
    n.spots cut around = (n.spots cut []).map (Spot.inside around) := by
  rw [← (spots_inside cut around).1 n [], List.append_nil]

/-- The root of a subtree is on the way to each of its spots. -/
theorem prefix_chain (cut : Node → Bool) :
    (∀ (n : Node) (around : List Node), ∀ q ∈ n.spots cut around, (around ++ [n]) <+: q.chain) ∧
    ∀ (ns : List Node) (around : List Node), ∀ q ∈ spotsAll cut around ns, around <+: q.chain := by
  refine forest_induction (fun n ih around q hq => ?_) (fun around q hq => ?_) fun n ns ihn ihns around q hq => ?_
  · rw [spots_eq] at hq
    split at hq
    · cases hq
    · rcases List.mem_cons.1 hq with rfl | hq
      · exact List.prefix_refl _
      · exact ih _ q hq
  · cases hq
  · rcases List.mem_append.1 hq with hq | hq
    · exact (List.prefix_append around [n]).trans (ihn around q hq)
    · exact ihns around q hq

/-- Nothing is cut off on the way to a spot. -/
theorem open_of_mem_chain (cut : Node → Bool) :
    (∀ (n : Node) (around : List Node), (∀ k ∈ around, cut k = false) →
      ∀ q ∈ n.spots cut around, ∀ k ∈ q.chain, cut k = false) ∧
    ∀ (ns : List Node) (around : List Node), (∀ k ∈ around, cut k = false) →
      ∀ q ∈ spotsAll cut around ns, ∀ k ∈ q.chain, cut k = false := by
  refine forest_induction (fun n ih around h q hq => ?_) (fun around h q hq => ?_)
    fun n ns ihn ihns around h q hq => ?_
  · rw [spots_eq] at hq
    split at hq
    · cases hq
    · rename_i hcut
      have hchain : ∀ k ∈ around ++ [n], cut k = false := by
        intro k hk
        rcases List.mem_append.1 hk with hk | hk
        · exact h k hk
        · rcases List.mem_singleton.1 hk with rfl
          exact Bool.eq_false_iff.2 hcut
      rcases List.mem_cons.1 hq with rfl | hq
      · exact hchain
      · exact ih _ hchain q hq
  · cases hq
  · rcases List.mem_append.1 hq with hq | hq
    · exact ihn around h q hq
    · exact ihns around h q hq

theorem around_le_depth (cut : Node → Bool) :
    (∀ (n : Node) (around : List Node), ∀ q ∈ n.spots cut around, around.length ≤ q.depth) ∧
    ∀ (ns : List Node) (around : List Node), ∀ q ∈ spotsAll cut around ns, around.length ≤ q.depth := by
  refine forest_induction (fun n ih around q hq => ?_) (fun around q hq => ?_) fun n ns ihn ihns around q hq => ?_
  · rw [spots_eq] at hq
    split at hq
    · cases hq
    · rcases List.mem_cons.1 hq with rfl | hq
      · exact Nat.le_refl _
      · have := ih _ q hq
        rw [List.length_append] at this
        exact Nat.le_of_succ_le this
  · cases hq
  · rcases List.mem_append.1 hq with hq | hq
    · exact ihn around q hq
    · exact ihns around q hq

/-! ## The spots below a spot -/

/-- The spots that follow one and have more nodes around them, up to the first that has not. -/
def deeper (p : Spot) (after : List Spot) : List Spot := after.takeWhile fun q => p.depth < q.depth

/-- Next to a subtree the first spot is not deeper than it. -/
theorem deeper_spotsAll {p : Spot} (ns : List Node) {around : List Node} (h : around.length ≤ p.depth) :
    deeper p (spotsAll cut around ns) = [] := by
  induction ns with
  | nil => rfl
  | cons n ns ih =>
    rw [spotsAll, spots_eq]
    split
    · exact ih
    · exact List.takeWhile_cons_of_neg fun hlt => Nat.not_lt.2 h (of_decide_eq_true hlt)

theorem deeper_append {p : Spot} (after : List Spot) {rest : List Spot} (h : deeper p rest = []) :
    deeper p (after ++ rest) = deeper p after := by
  unfold deeper at h ⊢
  rw [List.takeWhile_append, h]
  split
  · rename_i hlen
    rw [List.append_nil]
    exact ((List.takeWhile_prefix _).eq_of_length hlen).symm
  · rfl

/-- In pre-order, the spots of the subtree at a spot are that spot and the deeper ones that follow it. -/
theorem spots_below (cut : Node → Bool) :
    (∀ (n : Node) (around : List Node) (before after : List Spot) (p : Spot),
      n.spots cut around = before ++ p :: after → p.node.spots cut p.around = p :: deeper p after) ∧
    ∀ (ns : List Node) (around : List Node) (before after : List Spot) (p : Spot),
      spotsAll cut around ns = before ++ p :: after → p.node.spots cut p.around = p :: deeper p after := by
  refine forest_induction (fun n ih around before after p h => ?_) (fun around before after p h => ?_)
    fun n ns ihn ihns around before after p h => ?_
  · rw [spots_eq] at h
    cases hcut : cut n
    · rw [hcut, if_neg Bool.false_ne_true] at h
      cases before with
      | nil =>
        obtain ⟨rfl, rfl⟩ := List.cons.inj h
        -- all of the subtree is deeper than its root
        have hall : deeper ⟨around, n⟩ (spotsAll cut (around ++ [n]) n.children) =
            spotsAll cut (around ++ [n]) n.children := by
          refine List.takeWhile_eq_self_iff.2 fun q hq => decide_eq_true ?_
          have := (around_le_depth cut).2 n.children (around ++ [n]) q hq
          rw [List.length_append] at this
          exact this
        rw [hall, spots_eq, hcut]
        rfl
      | cons first before => exact ih _ before after p (List.cons.inj h).2
    · rw [hcut, if_pos rfl] at h
      simp at h
  · simp [spotsAll] at h
  · rw [spotsAll] at h
    rcases List.append_eq_append_iff.1 h with ⟨before', rfl, hrest⟩ | ⟨front, hfirst, hrest⟩
    · exact ihns around before' after p hrest
    · cases front with
      | nil => exact ihns around [] after p hrest.symm
      | cons q front =>
        obtain ⟨rfl, hafter⟩ := List.cons.inj hrest
        have hdepth := (around_le_depth cut).1 n around p (by rw [hfirst]; simp)
        rw [show after = front ++ spotsAll cut around ns from hafter,
          deeper_append front (deeper_spotsAll ns hdepth)]
        exact ihn around before front p hfirst

end Node

/-! ## Places below a place -/

/-- What is suppressed below a place is the same whether one comes from the root of the tree or starts at
the place with what is suppressed there. -/
theorem Walk.suppressed_below (answer : Node → Suppression) (w : Walk) (p q : Spot)
    (h : p.chain <+: q.chain) :
    (({ suppressed := (w.along answer p.chain).suppressed } : Walk).along answer (p.chainBelow q)).suppressed =
      (w.along answer q.chain).suppressed := by
  obtain ⟨rest, hrest⟩ := h
  have hbelow : p.chainBelow q = p.node :: rest := by
    rw [Spot.chainBelow, ← hrest, Spot.chain, List.append_assoc]
    exact List.drop_left
  refine NameSet.ext fun rule => ?_
  rw [mem_suppressed_along, mem_suppressed_along, mem_suppressed_along, hbelow, ← hrest]
  simp only [Spot.chain, List.mem_append, List.mem_cons, List.not_mem_nil, or_false]
  grind

end TreeLint
