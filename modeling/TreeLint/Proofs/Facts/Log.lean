/-
What is logged plays no part in a tree: from facts and what is known of types, building it comes to the
same whatever has been logged before. Main statements: `tree_unlogged` and `read_fst`.
-/
import TreeLint.Facts.Unit
import TreeLint.Proofs.Attempt
import TreeLint.Proofs.Facts.Types

namespace TreeLint

namespace Facts

variable {α : Type}

/-- The same types are known and under construction, whatever was logged. -/
structure Known.Same (k k' : Known) : Prop where
  types : k.types = k'.types
  building : k.building = k'.building

/-- A computation that comes to the same whatever was logged before. -/
abbrev Unlogged (x : Attempt Known α) : Prop := Attempt.Alike Known.Same x x

/-! ## Types and symbols -/

variable {typeAt : Nat → Attempt Known TypeRef}

theorem ancestorTypes_unlogged (h : ∀ position, Unlogged (typeAt position)) :
    ∀ steps : List Step, Unlogged (ancestorTypes typeAt steps)
  | [] => .pure _
  | .row position :: rest =>
    (h position).bind fun _ => (ancestorTypes_unlogged h rest).bind fun _ => .pure _
  | .trouble .unresolved :: _ => .pure _
  | .trouble .unanswerable :: _ => .fail _
  | .trouble (.fault _) :: _ => .fail _

theorem tell_unlogged (level : LogLevel) (message : String) : Unlogged (Known.tell level message) :=
  fun _ _ h => ⟨rfl, h.types, h.building⟩

theorem construct_unlogged (h : ∀ position, Unlogged (typeAt position)) (c : ClassFacts) (name : String) :
    Unlogged (construct typeAt c name) := by
  have hend : Unlogged (endType name) := fun _ _ h => ⟨rfl, h.types, congrArg (List.erase · name) h.building⟩
  have hremember (t : TypeRef) : Unlogged (rememberType name t) :=
    fun _ _ h => ⟨rfl, congrArg (· ++ [(name, t)]) h.types, h.building⟩
  -- what is done once the supertypes are there or have failed, with an entry in the log before it or without
  have hrest (outcome : Except Fault (Option (List TypeRef))) : Unlogged (do
      endType name
      let supertypes ← Attempt.lift outcome
      let t : TypeRef := { qualifiedName := name, supertypes := supertypes.getD [] }
      rememberType name t
      return t) :=
    hend.bind fun _ => (Attempt.Alike.lift outcome).bind fun _ => (hremember _).bind fun _ => .pure _
  unfold construct
  refine (ancestorTypes_unlogged h c.ancestors).caught.bind fun outcome => ?_
  dsimp only
  split
  · exact (tell_unlogged _ _).bind fun _ => hrest _
  · exact hrest _

theorem buildType_unlogged (h : ∀ position, Unlogged (typeAt position)) (c : ClassFacts) :
    Unlogged (buildType typeAt c) := by
  cases hname : c.qualifiedName with
  | none =>
    unfold buildType
    rw [hname]
    exact fun _ _ h => ⟨rfl, h⟩
  | some name =>
    intro k k' hk
    rw [buildType_apply typeAt hname, buildType_apply typeAt hname, ← hk.types]
    cases k.types.lookup name with
    | some t => exact ⟨rfl, hk⟩
    | none =>
      -- whether the type is under construction is known alike, too
      dsimp only
      rw [← congrArg (List.contains · name) hk.building]
      split
      · exact ⟨rfl, hk⟩
      · exact construct_unlogged h c name _ _ ⟨rfl, congrArg (List.cons name) hk.building⟩

theorem typeWithin_unlogged (facts : Facts) : ∀ depth position, Unlogged (facts.typeWithin depth position)
  | 0, _ => .fail _
  | depth + 1, position => by
    unfold typeWithin
    split
    · exact buildType_unlogged (typeWithin_unlogged facts depth) _
    · exact .fail _

theorem typeOf_unlogged (facts : Facts) (c : ClassFacts) : Unlogged (facts.typeOf c) :=
  buildType_unlogged (typeWithin_unlogged facts facts.depth) c

theorem scopeSymbolWithin_unlogged (facts : Facts) (markers : List String) :
    ∀ (depth : Nat) (position : Option Nat), Unlogged (facts.scopeSymbolWithin markers depth position)
  | 0, none | _ + 1, none => .pure _
  | 0, some _ => .fail _
  | depth + 1, some position => by
    unfold scopeSymbolWithin
    split
    · exact .pure _
    · rename_i c _
      refine (Attempt.Alike.lift _).bind fun annotations => (Attempt.Alike.lift _).bind fun name => ?_
      refine (scopeSymbolWithin_unlogged facts markers depth c.frame).bind fun owner => Attempt.Alike.map ?_ some
      exact (typeOf_unlogged facts c).bind fun _ => .pure _
    · rename_i f _
      refine (Attempt.Alike.lift _).bind fun annotations => (Attempt.Alike.lift _).bind fun name => ?_
      exact (scopeSymbolWithin_unlogged facts markers depth f.frame).bind fun owner => .pure _
    · exact .pure _

theorem scopeSymbol_unlogged (facts : Facts) (markers : List String) (position : Option Nat) :
    Unlogged (facts.scopeSymbol markers position) :=
  scopeSymbolWithin_unlogged facts markers (facts.depth + 1) position

/-! ## Expressions -/

theorem valueSymbol_unlogged (facts : Facts) (markers : List String) (expression : Form) (type : Option TypeRef) :
    Unlogged (facts.valueSymbol markers expression type) := by
  unfold valueSymbol
  cases expression with
  | name name inferred lookup =>
    refine (Attempt.Alike.lift (needed name)).bind fun name => ?_
    have owned (scope : Option Nat) : Unlogged (do
        let owner ← facts.scopeSymbol markers scope
        return some { name, kind := .variableDecl, owner, type : Symbol }) :=
      (scopeSymbol_unlogged facts markers scope).bind fun _ => .pure _
    dsimp only
    split
    · exact owned (some _)
    · exact owned none
    · exact owned none
    · exact (Attempt.Alike.fail _).bind fun scope => owned scope
  | memberAccess name of inferred => exact (Attempt.Alike.lift (needed name)).bind fun _ => .pure _
  | _ => exact .pure none

theorem valueMeaning_unlogged (facts : Facts) (markers : List String) (expression : Form) (type : Option TypeRef) :
    Unlogged (facts.valueMeaning markers expression type) :=
  (valueSymbol_unlogged facts markers expression type).bind fun _ => .pure _

theorem instanceType_unlogged (facts : Facts) (position : Nat) : Unlogged (facts.instanceType position) := by
  unfold instanceType
  split
  · exact (typeOf_unlogged facts _).map some
  · exact .pure none

theorem unboundMeaning_unlogged (facts : Facts) (markers : List String) (expression : Form) (i : Inferred) :
    Unlogged (facts.unboundMeaning markers expression i) := by
  have untyped := valueMeaning_unlogged facts markers expression none
  cases i with
  | declaration position =>
    have scope : Unlogged (do return { symbol := ← facts.scopeSymbol markers (some position) : Meaning }) :=
      (scopeSymbol_unlogged facts markers (some position)).bind fun _ => .pure _
    dsimp only [unboundMeaning]
    split
    · exact scope
    · exact scope
    · exact untyped
  | instanceOf position =>
    exact (instanceType_unlogged facts position).bind fun type => valueMeaning_unlogged facts markers expression type
  | _ => exact untyped

theorem meaning_unlogged (facts : Facts) (markers : List String) (expression : Form) (inferred : List Inferred) :
    Unlogged (facts.meaning markers expression inferred) := by
  unfold meaning
  refine (Attempt.Alike.lift (firstKnown inferred)).bind fun known => ?_
  cases known with
  | none => exact .pure _
  | some i =>
    have unbound := unboundMeaning_unlogged facts markers expression i.unbound
    dsimp only
    split
    · split
      · exact (scopeSymbol_unlogged facts markers _).bind fun _ => .pure _
      · exact unbound
    · exact unbound

/-! ## Nodes -/

namespace Reading

variable {nodeAt : Nat → Attempt Known Node}

theorem nodes_unlogged (r : Reading) (h : ∀ position, Unlogged (nodeAt position)) (positions : List Nat) :
    Unlogged (r.nodes nodeAt positions) :=
  .mapM fun position _ => h position

theorem node_unlogged (h : ∀ position, Unlogged (nodeAt position)) (position : Option Nat) :
    Unlogged (node nodeAt position) :=
  (Attempt.Alike.lift (needed position)).bind h

theorem build_unlogged (r : Reading) (h : ∀ position, Unlogged (nodeAt position)) (position : Nat) :
    Unlogged (r.build nodeAt position) := by
  have hmeaning (inferred : List Inferred) : Unlogged (r.meaning position inferred) :=
    meaning_unlogged r.facts r.markers _ inferred
  unfold build
  cases r.facts.form position with
  | moduleDef name body => exact (nodes_unlogged r h body).bind fun _ => .pure _
  | classDef c =>
    exact (scopeSymbol_unlogged r.facts r.markers _).bind fun _ => (nodes_unlogged r h _).bind fun _ => .pure _
  | function f =>
    refine (scopeSymbol_unlogged r.facts r.markers _).bind fun _ => ?_
    exact (nodes_unlogged r h f.arguments).bind fun _ => (nodes_unlogged r h f.body).bind fun _ => .pure _
  | name name inferred lookup => exact (hmeaning inferred).bind fun _ => .pure _
  | assignedName name => exact .pure _
  | memberAccess name expression inferred =>
    exact (hmeaning inferred).bind fun _ => (node_unlogged h expression).bind fun _ => .pure _
  | call callee arguments keywords inferred =>
    refine (node_unlogged h callee).bind fun _ => (hmeaning inferred).bind fun _ => ?_
    exact (nodes_unlogged r h _).bind fun _ => .pure _
  | binary operator left right inferred =>
    refine (hmeaning inferred).bind fun _ => ?_
    exact (node_unlogged h left).bind fun _ => (node_unlogged h right).bind fun _ => .pure _
  | unary operator operand => exact (node_unlogged h operand).bind fun _ => .pure _
  | constant type text => exact (Attempt.Alike.lift (needed type)).bind fun _ => .pure _
  | decorators children => exact (nodes_unlogged r h children).bind fun _ => .pure _
  | plain kind children => exact (nodes_unlogged r h children).bind fun _ => .pure _

theorem nodeWithin_unlogged (r : Reading) : ∀ depth position, Unlogged (r.nodeWithin depth position)
  | 0, _ => .fail _
  | depth + 1, position => build_unlogged r (nodeWithin_unlogged r depth) position

theorem tree_unlogged (r : Reading) : Unlogged r.tree :=
  nodeWithin_unlogged r r.facts.depth r.facts.root

end Reading

end Facts

/-! ## Units -/

namespace FrontEnd

theorem unitOf_fst (fe : FrontEnd) (path source : String) (log log' : Log) :
    (fe.unitOf path source log).1 = (fe.unitOf path source log').1 := by
  unfold unitOf
  cases fe.parse path source with
  | malformed message => rfl
  | failed f => rfl
  | facts facts =>
    obtain ⟨hres, -⟩ := Facts.Reading.tree_unlogged ⟨facts, source, fe.markers⟩ { log } { log := log' } ⟨rfl, rfl⟩
    dsimp only
    rw [hres]

theorem source_of_unitOf {fe : FrontEnd} {path source : String} {log : Log} {u : CompilationUnit}
    (hunit : (fe.unitOf path source log).1 = .ok u) : u.source = source := by
  unfold unitOf at hunit
  cases hparse : fe.parse path source with
  | malformed message => rw [hparse] at hunit; cases hunit
  | failed f => rw [hparse] at hunit; cases hunit
  | facts facts =>
    rw [hparse] at hunit
    dsimp only at hunit
    rcases h : ({ facts, source, markers := fe.markers } : Facts.Reading).tree { log } with ⟨f | t, k⟩ <;>
      rw [h] at hunit
    · cases hunit
    · exact (CompilationUnit.parts_of_make hunit).2.1

/-- The unit of what a path opens, aside from what is logged about it. -/
def unit (fe : FrontEnd) (path : String) : Except AccessFault (Place × Content) → Except Fault CompilationUnit
  | .error f => .error (.frontEnd s!"Cannot read {path}: {f.message (FilePath.ofText path).text}")
  | .ok (_, content) => content.read >>= fun source => (fe.unitOf (FilePath.ofText path).text source []).1

/-- The unit of a file depends on what its path opens, and on nothing else in the files. -/
theorem read_fst (fe : FrontEnd) (files : FileTree) (path : String) (log : Log) :
    (fe.read files path log).1 = files.tryOpen (.ofText path) >>= fe.unit path := by
  unfold read
  rw [Attempt.bind_apply, Attempt.lift_apply]
  rcases files.tryOpen (.ofText path) with f | f | ⟨place, content⟩
  · rfl
  · rfl
  · dsimp only
    rw [Attempt.bind_apply, Attempt.lift_apply]
    change _ = content.read >>= fun source => (fe.unitOf (FilePath.ofText path).text source []).1
    rcases content.read with f | source
    · rfl
    · exact unitOf_fst fe _ source log []

end FrontEnd

end TreeLint
