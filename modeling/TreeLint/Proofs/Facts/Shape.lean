/-
The shape of a tree built from facts: which kind of node, how many children and what sort of symbol a row
makes, and that spans lie in the text. Main statement: `unitOf_regular`.
-/
import TreeLint.Proofs.Facts.Answers
import TreeLint.Proofs.Facts.Denotes
import TreeLint.Proofs.Facts.Log
import TreeLint.Proofs.Facts.Position
import TreeLint.Source

namespace TreeLint

/-! ## Nodes -/

namespace Node

/-- What goes with the kind of a node: how many children it has, and which sort of symbol. -/
def FitsKind (source : String) (n : Node) : Prop :=
  match n.kind with
  | .compilationUnit => n.span = some { start := 0, stop := source.length }
  | .classDecl => ∃ s ∈ n.symbol, s.kind = .classDecl
  | .method => ∃ s ∈ n.symbol, s.kind = .method
  | .invocation => n.children ≠ [] ∧ ∀ s ∈ n.symbol, s.kind = .method
  | .memberAccess | .unary => n.children.length = 1
  | .binary => n.children.length = 2
  | .identifier | .variableDecl | .literal => n.children = []
  | _ => True

/-- A node that fits its kind and lies in the source, if it has a place at all. -/
structure IsRegular (source : String) (n : Node) : Prop where
  span : ∀ s ∈ n.span, s.start ≤ s.stop ∧ s.stop ≤ source.length
  kind : n.FitsKind source

/-- Every place of a regular node is one in the source. -/
theorem IsRegular.hasSpan {source : String} {n : Node} (h : n.IsRegular source) :
    Source.hasSpan source n = n.span.isSome := by
  unfold Source.hasSpan Source.span?
  cases hspan : n.span with
  | none => rfl
  | some s => simp [(h.span s hspan).2]

end Node

/-- The bounds of a span bound it. -/
theorem Span.ofBounds_self (s : Span) : Span.ofBounds s.start s.stop = .ok s := by
  have hbounds : 0 ≤ (s.start : Int) ∧ (s.start : Int) ≤ s.stop := ⟨by omega, Int.ofNat_le.2 s.start_le_stop⟩
  simp [ofBounds, ofBounds?, hbounds.2]

namespace Facts.Reading

open Attempt (Comes)

variable {r : Reading}

/-- A node made of the facts: regular, made of a call if it is an invocation, and with the symbol of what its row denotes. -/
structure Formed (r : Reading) (n : Node) : Prop where
  regular : n.IsRegular r.source
  call : n.kind = .invocation → ∃ position callee arguments keywords inferred first rest, n.id = 2 * position ∧
    r.facts.form position = .call (some callee) arguments keywords inferred ∧
    n.children = first :: rest ∧ first.id = 2 * callee
  kind : ∀ s ∈ n.symbol, s.kind ≠ .constructor
  symbol : ∀ position, n.id = 2 * position → Stands (r.facts.Denotes position) n.symbol

/-- The tree of a row, all of whose nodes are formed. -/
structure FormedTree (r : Reading) (position : Nat) (n : Node) : Prop where
  id : n.id = 2 * position
  nodes : ∀ m ∈ n.preorder, r.Formed m

theorem span_within (r : Reading) (position : Nat) :
    ∀ s ∈ (r.facts.positionOf position).span? (Text.lines r.source.toList), s.start ≤ s.stop ∧ s.stop ≤ r.source.length :=
  fun s hs => ⟨s.start_le_stop, String.length_toList ▸ Position.stop_le_of_span? hs⟩

theorem Formed.of {n : Node} {position : Nat} (hid : n.id = 2 * position) (hregular : n.IsRegular r.source)
    (hcall : n.kind ≠ .invocation) (hsymbol : Stands (r.facts.Denotes position) n.symbol) : r.Formed n where
  regular := hregular
  call h := absurd h hcall
  kind := hsymbol.kind
  symbol p hp := by
    obtain rfl : position = p := by omega
    exact hsymbol

theorem FormedTree.of {n : Node} {position : Nat} (hid : n.id = 2 * position) (h : r.Formed n)
    (hchildren : ∀ c ∈ n.children, ∀ m ∈ c.preorder, r.Formed m) : r.FormedTree position n :=
  ⟨hid, Node.forall_mem_preorder.2 ⟨h, hchildren⟩⟩

/-- The tree of a row that denotes no function, with no symbol. -/
theorem FormedTree.of_bare {n : Node} {position : Nat} (hid : n.id = 2 * position) (hregular : n.IsRegular r.source)
    (hcall : n.kind ≠ .invocation) (hsymbol : n.symbol = none) (hnone : ∀ f, r.facts.Denotes position f ↔ False)
    (hchildren : ∀ c ∈ n.children, ∀ m ∈ c.preorder, r.Formed m) : r.FormedTree position n := by
  refine .of hid (.of hid hregular hcall ?_) hchildren
  rw [hsymbol]
  exact .of_none (fun f => (hnone f).1) nofun

/-- The tree of a call goes by the symbol of what is called. -/
theorem FormedTree.of_call {n first : Node} {position callee : Nat} {arguments keywords : List Nat} {inferred : List Inferred}
    {rest : List Node} (hform : r.facts.form position = .call (some callee) arguments keywords inferred)
    (hid : n.id = 2 * position) (hspan : ∀ s ∈ n.span, s.start ≤ s.stop ∧ s.stop ≤ r.source.length)
    (hkind : n.kind = .invocation) (hsymbol : n.symbol = first.symbol.filter (·.kind = .method))
    (hchildren : n.children = first :: rest) (hfirst : r.FormedTree callee first)
    (hrest : ∀ c ∈ rest, ∀ m ∈ c.preorder, r.Formed m) : r.FormedTree position n := by
  have hcalled : Stands (r.facts.Denotes callee) n.symbol :=
    hsymbol ▸ ((hfirst.nodes first first.mem_preorder_self).symbol callee hfirst.id).called
  refine .of hid ⟨⟨hspan, ?_⟩, fun _ => ?_, hcalled.kind, fun p hp => ?_⟩ ?_
  · rw [Node.FitsKind, hkind, hchildren, hsymbol]
    exact ⟨nofun, fun s hs => by simpa using (Option.mem_filter_iff.1 hs).2⟩
  · exact ⟨position, callee, arguments, keywords, inferred, first, rest, hid, hform, hchildren, hfirst.id⟩
  · obtain rfl : position = p := by omega
    refine hcalled.congr fun f => ?_
    rw [@denotes_iff r.facts position, hform]
  · rw [hchildren]
    exact List.forall_mem_cons.2 ⟨hfirst.nodes, hrest⟩

/-- The number of a parameter list is odd, so that no row tells of it. -/
theorem Formed.of_list {position : Nat} {parameters : List Node} (h : ∀ c ∈ parameters, ∀ m ∈ c.preorder, r.Formed m) :
    ∀ m ∈ ({ id := 2 * position + 1, kind := .other, children := parameters } : Node).preorder, r.Formed m := by
  refine Node.forall_mem_preorder.2 ⟨⟨⟨nofun, trivial⟩, nofun, nofun, fun p hp => ?_⟩, h⟩
  have : 2 * position + 1 = 2 * p := hp
  omega

variable {nodeAt : Nat → Attempt Known Node}

theorem nodes_comes (h : ∀ position, Asks (r.FormedTree position) (nodeAt position)) (positions : List Nat) :
    Asks (fun ns => ∀ n ∈ ns, ∀ m ∈ n.preorder, r.Formed m) (r.nodes nodeAt positions) :=
  Comes.mapM (fun position => (h position).imp fun _ hn => hn.nodes) _

theorem node_comes (h : ∀ position, Asks (r.FormedTree position) (nodeAt position)) (position : Option Nat) :
    Asks (fun n => ∃ p, position = some p ∧ r.FormedTree p n) (node nodeAt position) :=
  (Comes.lift (needed_fails position)).bind fun p hp => (h p).imp fun _ hn => ⟨p, eq_some_of_needed hp, hn⟩

theorem meaning_comes (hfacts : r.facts.IsRead) (position : Nat) {inferred : List Inferred}
    (hinferred : ∀ f ∈ inferred.filterMap Inferred.fault?, IsNamed f) :
    Asks (fun m => Stands (r.facts.Resolves inferred) m.symbol) (r.meaning position inferred) :=
  Facts.meaning_comes hfacts r.markers (hfacts position) hinferred

theorem build_comes (hfacts : r.facts.IsRead) (h : ∀ position, Asks (r.FormedTree position) (nodeAt position))
    (position : Nat) : Asks (r.FormedTree position) (r.build nodeAt position) := by
  have hspan := span_within r position
  have hfaults := (hfacts position).faults
  have hdenotes (f : FunctionFacts) := @denotes_iff r.facts position f
  unfold build
  cases hform : r.facts.form position with
  | moduleDef name body =>
    rw [hform] at hdenotes
    refine (nodes_comes h body).bind fun children hchildren => .pure (.of rfl (.of rfl ⟨?_, rfl⟩ nofun ?_) hchildren)
    · rintro s hs
      cases hs
      exact ⟨Nat.zero_le _, Nat.le_refl _⟩
    · exact .of_kind (fun f => (hdenotes f).1) ⟨_, rfl, rfl⟩ (k := .moduleDecl) ⟨nofun, nofun⟩
  | classDef c =>
    rw [hform] at hdenotes
    refine (scopeSymbol_comes hfacts r.markers (some position)).bind fun symbol hsymbol => ?_
    have hdeclared := hsymbol position rfl
    rw [hform] at hdeclared
    refine (nodes_comes h (c.bases ++ c.body)).bind fun children hchildren => .pure ?_
    exact .of rfl (.of rfl ⟨hspan, hdeclared⟩ nofun (.of_kind (fun f => (hdenotes f).1) hdeclared ⟨nofun, nofun⟩)) hchildren
  | function f =>
    rw [hform] at hdenotes
    refine (scopeSymbol_comes hfacts r.markers (some position)).bind fun symbol hsymbol => ?_
    have hdeclared := hsymbol position rfl
    rw [hform] at hdeclared
    refine (nodes_comes h f.arguments).bind fun parameters hparameters => ?_
    refine (nodes_comes h f.body).bind fun body hbody => .pure (.of rfl (.of rfl ⟨hspan, ?_⟩ nofun ?_) ?_)
    · obtain ⟨s, hs, hf⟩ := hdeclared
      exact ⟨s, hs, hf.kind⟩
    · exact .of_function hdenotes hdeclared
    · exact List.forall_mem_cons.2 ⟨.of_list hparameters, hbody⟩
  | name name inferred lookup =>
    rw [hform] at hdenotes hfaults
    have hinferred : ∀ f ∈ inferred.filterMap Inferred.fault?, IsNamed f :=
      fun f hf => hfaults f (List.mem_append_left _ hf)
    refine (meaning_comes hfacts position hinferred).bind fun m hm => .pure ?_
    exact .of rfl (.of rfl ⟨hspan, rfl⟩ nofun (hm.congr fun f => (hdenotes f).symm)) (List.forall_mem_nil _)
  | assignedName name =>
    rw [hform] at hdenotes
    exact .pure (.of_bare rfl ⟨hspan, rfl⟩ nofun rfl hdenotes (List.forall_mem_nil _))
  | memberAccess name expression inferred =>
    rw [hform] at hdenotes hfaults
    refine (meaning_comes hfacts position hfaults).bind fun m hm => ?_
    refine (node_comes h expression).bind fun receiver ⟨p, _, hreceiver⟩ => .pure ?_
    exact .of rfl (.of rfl ⟨hspan, rfl⟩ nofun (hm.congr fun f => (hdenotes f).symm))
      (List.forall_mem_singleton.2 hreceiver.nodes)
  | call callee arguments keywords inferred =>
    rw [hform] at hfaults
    refine (node_comes h callee).bind fun first hfirst => ?_
    obtain ⟨q, rfl, hfirst⟩ := hfirst
    refine (meaning_comes hfacts position hfaults).bind fun m _ => ?_
    refine (nodes_comes h (arguments ++ keywords)).bind fun rest hrest => .pure ?_
    exact .of_call hform rfl hspan rfl rfl rfl hfirst hrest
  | binary operator left right inferred =>
    rw [hform] at hdenotes hfaults
    refine (meaning_comes hfacts position hfaults).bind fun m _ => ?_
    refine (node_comes h left).bind fun left ⟨_, _, hleft⟩ => ?_
    refine (node_comes h right).bind fun right ⟨_, _, hright⟩ => .pure ?_
    exact .of_bare rfl ⟨hspan, rfl⟩ nofun rfl hdenotes
      (List.forall_mem_cons.2 ⟨hleft.nodes, List.forall_mem_singleton.2 hright.nodes⟩)
  | unary operator operand =>
    rw [hform] at hdenotes
    refine (node_comes h operand).bind fun operand ⟨_, _, hoperand⟩ => .pure ?_
    exact .of_bare rfl ⟨hspan, rfl⟩ nofun rfl hdenotes (List.forall_mem_singleton.2 hoperand.nodes)
  | constant type text =>
    rw [hform] at hdenotes
    refine (Comes.lift (needed_fails type)).bind fun name _ => .pure ?_
    exact .of_bare rfl ⟨hspan, rfl⟩ nofun rfl hdenotes (List.forall_mem_nil _)
  | decorators children =>
    rw [hform] at hdenotes
    refine (nodes_comes h children).bind fun children hchildren => .pure ?_
    exact .of_bare rfl ⟨hspan, trivial⟩ nofun rfl hdenotes hchildren
  | plain kind children =>
    rw [hform] at hdenotes
    have hkind := (hfacts position).kind kind children hform
    refine (nodes_comes h children).bind fun children hchildren => .pure (.of_bare rfl ⟨hspan, ?_⟩ ?_ rfl hdenotes hchildren)
    · simp only [plainKinds, List.mem_cons, List.not_mem_nil, or_false] at hkind
      rcases hkind with rfl | rfl | rfl | rfl <;> trivial
    · rintro rfl
      exact absurd hkind (by decide)

theorem nodeWithin_comes (hfacts : r.facts.IsRead) : ∀ depth position, Asks (r.FormedTree position) (r.nodeWithin depth position)
  | 0, _ => .fail (.inl rfl)
  | depth + 1, position => build_comes hfacts (nodeWithin_comes hfacts depth) position

end Facts.Reading

/-! ## Units -/

namespace FrontEnd

variable {fe : FrontEnd} {path source : String} {log log' : Log} {v : Value} {facts : Facts} {u : CompilationUnit}

/-- The tree of a unit whose facts are told by a document is formed. -/
theorem unitOf_formed (hread : (Facts.ofValue v).run = .ok (some facts)) (hparse : fe.parse path source = .facts facts)
    (hunit : fe.unitOf path source log = (.ok u, log')) :
    ∀ n ∈ u.tree.preorder, ({ facts, source, markers := fe.markers } : Facts.Reading).Formed n := by
  obtain ⟨k, htree⟩ := unitOf_tree hparse hunit
  have hcomes := Facts.Reading.nodeWithin_comes (r := { facts, source, markers := fe.markers })
    (Facts.ofValue_isRead hread) facts.depth facts.root
  exact (hcomes.result { log } u.tree (congrArg Prod.fst htree)).nodes

/-- What ends the work on a unit: a fault that facts can come to, or a root that is no module. -/
theorem unitOf_fails (hread : (Facts.ofValue v).run = .ok (some facts)) (hparse : fe.parse path source = .facts facts) :
    FailsOnly (fun f => Facts.IsOfFacts f ∨ ∃ kind, f = .rootKind kind) (fe.unitOf path source log).1 := by
  have hcomes := Facts.Reading.nodeWithin_comes (r := { facts, source, markers := fe.markers })
    (Facts.ofValue_isRead hread) facts.depth facts.root
  unfold unitOf
  rw [hparse]
  refine ((hcomes.fault { log }).mono fun f hf => .inl hf).bind fun tree => ?_
  unfold CompilationUnit.make
  split
  · exact .ok _
  · exact .error (.inr ⟨_, rfl⟩)

theorem ofLabel_ne_invalidSpan (label text : String) (start stop : Int) : Fault.ofLabel label text ≠ .invalidSpan start stop := by
  unfold Fault.ofLabel
  split <;> exact nofun

/-- Every tree made of facts is regular, whatever integers its positions are: a node lies in the source or has no place,
and has the children and the sort of symbol that go with its kind. No span is asked for between integers that bound none. -/
theorem unitOf_regular (fe : FrontEnd) (path source : String) (log : Log) {v : Value} {facts : Facts}
    (hread : (Facts.ofValue v).run = .ok (some facts)) (hparse : fe.parse path source = .facts facts) :
    (∀ start stop, (fe.unitOf path source log).1 ≠ .error (.invalidSpan start stop)) ∧
    ∀ u, (fe.unitOf path source log).1 = .ok u →
      u.source = source ∧ u.tree.kind = .compilationUnit ∧ u.tree.span = some { start := 0, stop := source.length } ∧
      ∀ n ∈ u.tree.preorder, n.IsRegular source ∧ Source.hasSpan source n = n.span.isSome ∧
        ∀ s ∈ n.span, Span.ofBounds s.start s.stop = .ok s := by
  refine ⟨fun start stop hspan => ?_, fun u hunit => ?_⟩
  · rcases unitOf_fails hread hparse _ hspan with (hf | ⟨label, hf⟩) | ⟨kind, hf⟩
    · cases hf
    · exact ofLabel_ne_invalidSpan label "facts" start stop hf.symm
    · cases hf
  · have hformed := unitOf_formed hread hparse (Prod.ext hunit rfl)
    have hroot := (hformed u.tree u.tree.mem_preorder_self).regular.kind
    unfold Node.FitsKind at hroot
    rw [u.kind_tree] at hroot
    refine ⟨source_of_unitOf hunit, u.kind_tree, hroot, fun n hn => ?_⟩
    have hregular := (hformed n hn).regular
    exact ⟨hregular, hregular.hasSpan, fun s _ => Span.ofBounds_self s⟩

/-- A front end that tells the same facts of every text. -/
def telling (v : Value) : FrontEnd where
  markers := []
  parse _ _ := match (Facts.ofValue v).run with
    | .ok (some facts) => .facts facts
    | _ => .malformed ""

/-- Columns past the end of a line, from its end and inside a character, positions out of order, and lines that the text
does not have. -/
def strayPositions : Value :=
  let row (cls : String) (pos : List Int) (parts : Table) : Value :=
    .table ([("cls", .str cls), ("pos", .list (pos.map .int))] ++ parts)
  let rows (positions : List Int) : Value := .list (positions.map .int)
  .table [
    ("nodes", .list [
      row "Module" [] [("name", .str "m"), ("body", rows [1])],
      row "Assign" [1, 0, 1, 99] [("children", rows [2, 3])],
      row "AssignName" [1, 0, 1, 1] [("name", .str "é")],
      row "BinOp" [1, 5, 1, -1] [("op", .str "%"), ("left", .int 4), ("right", .int 7)],
      row "UnaryOp" [1, 9, 1, 5] [("op", .str "-"), ("operand", .int 5)],
      row "Call" [9, 0, 9, 1] [("func", .int 6), ("args", rows [8])],
      row "Name" [1, 6, 1, 7] [("name", .str "f")],
      row "Const" [0, 0, 1, 2] [("pytype", .str "int")],
      row "Name" [-1, 0, 1, 2] [("name", .str "x")]]),
    ("root", .int 0)]

theorem unitOf_strayPositions : ∃ facts u log, (Facts.ofValue strayPositions).run = .ok (some facts) ∧
    (telling strayPositions).unitOf "m.py" "é = -f(x) % 2" [] = (.ok u, log) ∧
    (u.tree.preorder.map fun n => (n.kind, n.span.map fun s => (s.start, s.stop))) = [
      (.compilationUnit, some (0, 13)), (.assignment, some (0, 13)), (.variableDecl, some (0, 0)),
      (.binary, some (4, 12)), (.unary, none), (.invocation, none), (.identifier, some (5, 6)), (.identifier, none),
      (.literal, none)] ∧
    ∀ n ∈ u.tree.preorder, n.IsRegular "é = -f(x) % 2" := by
  refine ⟨_, _, _, rfl, rfl, ?_, ?_⟩
  · decide +kernel
  · obtain ⟨-, hunit⟩ := unitOf_regular (telling strayPositions) "m.py" "é = -f(x) % 2" [] (v := strayPositions) rfl rfl
    exact fun n hn => ((hunit _ rfl).2.2.2 n hn).1

end FrontEnd

end TreeLint
