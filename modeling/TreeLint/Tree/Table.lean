/-
Units as tables: rows for types, symbols and nodes, each of which refers to earlier rows by their
position; a negative position counts from the end of the rows so far. The rows are built in order,
and the first fault met is the fault of the table.
-/
import TreeLint.Tree.Unit

namespace TreeLint

/-- A row for a type. -/
structure TypeRow where
  name : String
  arguments : List Int
  supertypes : List Int

/-- A row for a symbol. -/
structure SymbolRow where
  name : String
  kind : String
  owner : Option Int
  parameters : List String
  isStatic : Bool
  type : Option Int
  generatedBy : List String
  annotations : List Annotation

/-- A row for a node. -/
structure NodeRow where
  kind : String
  children : List Int
  symbol : Option Int
  type : Option Int
  span : Option (Int × Int)
  name : Option String
  operator : Option String
  annotations : List Annotation

/-- A unit as a table. -/
structure UnitTable where
  path : String
  source : String
  types : List TypeRow
  symbols : List SymbolRow
  nodes : List NodeRow
  root : Int

/-! ## Building -/

/-- The things that the rows of a table stand for. -/
structure UnitRows where
  types : Array TypeRef := #[]
  symbols : Array Symbol := #[]
  nodes : Array Node := #[]

namespace UnitRows

/-- The type of a row. -/
def typeOf (rows : UnitRows) (r : TypeRow) : Except Fault TypeRef := do
  let arguments ← r.arguments.mapM (entryAt rows.types)
  let supertypes ← r.supertypes.mapM (entryAt rows.types)
  return { qualifiedName := r.name, arguments, supertypes }

/-- The symbol of a row. -/
def symbolOf (rows : UnitRows) (r : SymbolRow) : Except Fault Symbol := do
  let kind ← SymbolKind.ofName r.kind
  let owner ← r.owner.mapM (entryAt rows.symbols)
  let type ← r.type.mapM (entryAt rows.types)
  return {
    name := r.name
    kind
    owner
    parameters := r.parameters
    isStatic := r.isStatic
    type
    generatedBy := .ofList r.generatedBy
    annotations := r.annotations
  }

/-- The node of a row; its position is its `id`. -/
def nodeOf (rows : UnitRows) (r : NodeRow) : Except Fault Node := do
  let kind ← NodeKind.ofName r.kind
  let children ← r.children.mapM (entryAt rows.nodes)
  let symbol ← r.symbol.mapM (entryAt rows.symbols)
  let type ← r.type.mapM (entryAt rows.types)
  let span ← r.span.mapM fun (start, stop) => Span.ofBounds start stop
  return {
    id := rows.nodes.size
    kind
    symbol
    type
    span
    name := r.name
    operator := r.operator
    annotations := r.annotations
    children
  }

/-- Adds a type. -/
def addType (rows : UnitRows) (t : TypeRef) : UnitRows := { rows with types := rows.types.push t }

/-- Adds a symbol. -/
def addSymbol (rows : UnitRows) (s : Symbol) : UnitRows := { rows with symbols := rows.symbols.push s }

/-- Adds a node. -/
def addNode (rows : UnitRows) (n : Node) : UnitRows := { rows with nodes := rows.nodes.push n }

end UnitRows

namespace UnitTable

/-- What the rows of the table stand for. -/
def rows (t : UnitTable) : Except Fault UnitRows := do
  let rows ← t.types.foldlM (fun rows r => rows.addType <$> rows.typeOf r) {}
  let rows ← t.symbols.foldlM (fun rows r => rows.addSymbol <$> rows.symbolOf r) rows
  t.nodes.foldlM (fun rows r => rows.addNode <$> rows.nodeOf r) rows

/-- The unit of a table, with the rows it was built from. -/
def build (t : UnitTable) : Except Fault (CompilationUnit × UnitRows) := do
  let rows ← t.rows
  let root ← entryAt rows.nodes t.root
  let unit ← CompilationUnit.make t.path t.source root rows.nodes
  return (unit, rows)

end UnitTable

end TreeLint
