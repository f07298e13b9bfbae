/-
What the nodes of a tree built from facts have in common. A class or a function carries the decorators
that are written on it, and the type of an expression is a remembered one, but that of a literal is made
for it alone. Main statement: `nodeWithin_ends`.
-/
import TreeLint.Facts.Tree
import TreeLint.Proofs.Facts.Symbols
import TreeLint.Proofs.Tree.Forest

namespace TreeLint.Facts.Reading

variable {k : Known} {r : Reading}

/-! ## A node and its row -/

/-- A node as it is told by its row, once so much is known. -/
structure Lowered (r : Reading) (k : Known) (n : Node) : Prop where
  symbol : ∀ s ∈ n.symbol, Faithful r.markers k s
  annotated : ∀ position, n.id = 2 * position → ∀ rows ∈ (r.facts.form position).decoratorRows,
    ∃ s ∈ n.symbol, r.facts.annotations rows = .ok s.annotations
  type : n.kind ≠ .literal → ∀ t ∈ n.type, k.Remembers t
  literal : n.kind = .literal → n.symbol = none ∧ ∀ t ∈ n.type, ∃ name, t = { qualifiedName := name }

/-- A tree all of whose nodes are as they are told. -/
def Told (r : Reading) (k : Known) (n : Node) : Prop :=
  ∀ m ∈ n.preorder, r.Lowered k m

theorem Lowered.later {k' : Known} {n : Node} (h : r.Lowered k n) (hk : k.Later k') : r.Lowered k' n where
  symbol s hs := (h.symbol s hs).later hk
  annotated := h.annotated
  type hn t ht := (h.type hn t ht).later hk
  literal := h.literal

theorem Told.later {k' : Known} {n : Node} (h : r.Told k n) (hk : k.Later k') : r.Told k' n :=
  fun m hm => (h m hm).later hk

theorem Told.of {n : Node} (h : r.Lowered k n) (hchildren : ∀ c ∈ n.children, r.Told k c) : r.Told k n :=
  Node.forall_mem_preorder.2 ⟨h, hchildren⟩

/-- The node of a row that is neither a class nor a function, and no literal. -/
theorem Lowered.undecorated {n : Node} {position : Nat} (hid : n.id = 2 * position)
    (hform : (r.facts.form position).decoratorRows = none) (hkind : n.kind ≠ .literal)
    (hsymbol : ∀ s ∈ n.symbol, Faithful r.markers k s) (htype : ∀ t ∈ n.type, k.Remembers t) : r.Lowered k n where
  symbol := hsymbol
  annotated p hp rows hrows := by
    have : p = position := by omega
    rw [this, hform] at hrows
    cases hrows
  type _ := htype
  literal h := absurd h hkind

/-- The node of a row of which no more is told than its parts. -/
theorem Lowered.bare {n : Node} (hodd : ∀ position, n.id = 2 * position → (r.facts.form position).decoratorRows = none)
    (hsymbol : n.symbol = none) (htype : n.type = none) : r.Lowered k n where
  symbol s hs := by rw [hsymbol] at hs; cases hs
  annotated p hp rows hrows := by rw [hodd p hp] at hrows; cases hrows
  type _ t ht := by rw [htype] at ht; cases ht
  literal _ := ⟨hsymbol, fun t ht => by rw [htype] at ht; cases ht⟩

/-- The node of a class or a function. -/
theorem Lowered.declared {n : Node} {position : Nat} (hid : n.id = 2 * position) (hkind : n.kind ≠ .literal)
    (h : r.facts.Declares r.markers (some position) k n.symbol) (htype : ∀ t ∈ n.type, ∃ s ∈ n.symbol, t ∈ s.type) :
    r.Lowered k n where
  symbol := h.faithful
  annotated p hp rows hrows := by
    have : p = position := by omega
    rw [this] at hrows
    exact h.annotated position rfl rows hrows
  type _ t ht := by
    obtain ⟨s, hs, ht⟩ := htype t ht
    exact (h.faithful s hs).type t ht
  literal h := absurd h hkind

/-! ## Building -/

variable {nodeAt : Nat → Attempt Known Node}

theorem nodes_ends (h : ∀ position (k : Known), Ends k r.Told (nodeAt position)) (positions : List Nat) :
    Ends k (fun k' ns => ∀ n ∈ ns, r.Told k' n) (r.nodes nodeAt positions) := by
  unfold nodes
  induction positions.filter r.isNode generalizing k with
  | nil => exact .pure (List.forall_mem_nil _)
  | cons position rest ih =>
    rw [List.mapM_cons]
    refine (h position k).bind fun n k₁ _ hn => ih.bind fun ns k₂ hk₂ hns => .pure ?_
    exact List.forall_mem_cons.2 ⟨hn.later hk₂, hns⟩

theorem node_ends (h : ∀ position (k : Known), Ends k r.Told (nodeAt position)) (position : Option Nat) :
    Ends k r.Told (node nodeAt position) :=
  (Ends.lift (needed position)).bind fun position k' _ _ => h position k'

theorem meaning_ends (r : Reading) (position : Nat) (inferred : List Inferred) :
    Ends k (Meaning.Faithful r.markers) (r.meaning position inferred) :=
  Facts.meaning_ends r.facts r.markers (r.facts.form position) inferred

/-- The node of a row is as told if those of its parts are. -/
theorem build_ends (h : ∀ position (k : Known), Ends k r.Told (nodeAt position)) (position : Nat) :
    Ends k r.Told (r.build nodeAt position) := by
  unfold build
  cases hform : r.facts.form position with
  | moduleDef name body =>
    refine (nodes_ends h body).bind fun children k' _ hchildren => .pure (.of ?_ hchildren)
    refine .undecorated rfl (by rw [hform]; rfl) nofun (fun s hs => ?_) fun _ ht => nomatch ht
    cases hs
    exact moduleSymbol_faithful r.markers k' name
  | classDef c =>
    refine (scopeSymbol_ends r.facts r.markers (some position)).bind fun symbol _ _ hsymbol => ?_
    refine (nodes_ends h (c.bases ++ c.body)).bind fun children _ hk hchildren => .pure (.of ?_ hchildren)
    exact .declared rfl nofun (hsymbol.later hk) fun t ht => Option.bind_eq_some_iff.1 ht
  | function f =>
    refine (scopeSymbol_ends r.facts r.markers (some position)).bind fun symbol k₁ hk₁ hsymbol => ?_
    refine (nodes_ends h f.arguments).bind fun parameters k₂ hk₂ hparameters => ?_
    refine (nodes_ends h f.body).bind fun body k₃ hk₃ hbody => .pure (.of ?_ ?_)
    · exact .declared rfl nofun (hsymbol.later (hk₂.trans hk₃)) fun _ ht => nomatch ht
    · -- the number of the parameter list is odd, so it is told by no row
      refine List.forall_mem_cons.2 ⟨.of (.bare (fun p hp => ?_) rfl rfl) fun n hn => ?_, hbody⟩
      · have : 2 * position + 1 = 2 * p := hp
        omega
      · exact (hparameters n hn).later hk₃
  | name name inferred lookup =>
    refine (meaning_ends r position inferred).bind fun m k' _ hm => .pure (.of ?_ (List.forall_mem_nil _))
    exact .undecorated rfl (by rw [hform]; rfl) nofun hm.symbol hm.type
  | assignedName name =>
    exact .pure (.of (.undecorated rfl (by rw [hform]; rfl) nofun nofun nofun) (List.forall_mem_nil _))
  | memberAccess name expression inferred =>
    refine (meaning_ends r position inferred).bind fun m k₁ _ hm => ?_
    refine (node_ends h expression).bind fun receiver k₂ hk₂ hreceiver => .pure (.of ?_ ?_)
    · exact .later (.undecorated rfl (by rw [hform]; rfl) nofun hm.symbol hm.type) hk₂
    · exact List.forall_mem_singleton.2 hreceiver
  | call callee arguments keywords inferred =>
    refine (node_ends h callee).bind fun callee k₁ _ hcallee => ?_
    refine (meaning_ends r position inferred).bind fun m k₂ hk₂ hm => ?_
    refine (nodes_ends h (arguments ++ keywords)).bind fun arguments k₃ hk₃ harguments => .pure (.of ?_ ?_)
    · refine .undecorated rfl (by rw [hform]; rfl) nofun (fun s hs => ?_) fun t ht => (hm.type t ht).later hk₃
      have hs' : s ∈ callee.symbol := (Option.mem_filter_iff.1 hs).1
      exact ((hcallee callee callee.mem_preorder_self).symbol s hs').later (hk₂.trans hk₃)
    · exact List.forall_mem_cons.2 ⟨hcallee.later (hk₂.trans hk₃), harguments⟩
  | binary operator left right inferred =>
    refine (meaning_ends r position inferred).bind fun m k₁ _ hm => ?_
    refine (node_ends h left).bind fun left k₂ hk₂ hleft => ?_
    refine (node_ends h right).bind fun right k₃ hk₃ hright => .pure (.of ?_ ?_)
    · exact .later (.undecorated rfl (by rw [hform]; rfl) nofun nofun hm.type) (hk₂.trans hk₃)
    · exact List.forall_mem_cons.2 ⟨hleft.later hk₃, List.forall_mem_singleton.2 hright⟩
  | unary operator operand =>
    refine (node_ends h operand).bind fun operand k' _ hoperand => .pure (.of ?_ ?_)
    · exact .undecorated rfl (by rw [hform]; rfl) nofun nofun nofun
    · exact List.forall_mem_singleton.2 hoperand
  | constant type text =>
    refine (Ends.lift (needed type)).bind fun name k' _ _ => .pure (.of ?_ (List.forall_mem_nil _))
    refine ⟨nofun, fun p hp rows hrows => ?_, fun hn => (hn rfl).elim, fun _ => ⟨rfl, fun t ht => ⟨name, ?_⟩⟩⟩
    · have : p = position := (Nat.eq_of_mul_eq_mul_left Nat.two_pos hp).symm
      rw [this, hform] at hrows
      cases hrows
    · exact (Option.some.inj ht).symm
  | decorators children =>
    refine (nodes_ends h children).bind fun children _ _ hchildren => .pure (.of ?_ hchildren)
    exact .undecorated rfl (by rw [hform]; rfl) nofun nofun nofun
  | plain kind children =>
    refine (nodes_ends h children).bind fun children _ _ hchildren => .pure (.of ?_ hchildren)
    refine .bare (fun p hp => ?_) rfl rfl
    have : p = position := (Nat.eq_of_mul_eq_mul_left Nat.two_pos hp).symm
    rw [this, hform]
    rfl

/-- All nodes of a tree are as their rows tell. -/
theorem nodeWithin_ends (r : Reading) : ∀ depth position (k : Known), Ends k r.Told (r.nodeWithin depth position)
  | 0, _, _ => .fail _
  | depth + 1, position, _ => build_ends (nodeWithin_ends r depth) position

end TreeLint.Facts.Reading
