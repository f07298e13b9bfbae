/-
What the parts of a module denote: the symbols of what is declared and of expressions, and which faults asking for
them can come to. The symbol of an expression is that of a method just if the first thing that the inference comes up
with is that method. Main statements: `scopeSymbolWithin_comes` and `meaning_comes`.
-/
import TreeLint.Facts.Meaning
import TreeLint.Proofs.Attempt
import TreeLint.Proofs.Facts.Document

namespace TreeLint.Facts

variable {α : Type} {facts : Facts} {markers : List String}

/-! ## Faults -/

/-- A fault that asking for facts can come to. -/
def IsOfFacts (f : Fault) : Prop := f = .endless ∨ IsNamed f

theorem Trouble.isOfFacts {t : Trouble} (h : ∀ f ∈ t.fault?, IsNamed f) : IsOfFacts t.toFault := by
  cases t with
  | unresolved => exact .inr ⟨"InferenceError", rfl⟩
  | unanswerable => exact .inr ⟨"AttributeError", rfl⟩
  | fault f => exact .inr (h f rfl)

theorem needed_fails (part : Option α) : FailsOnly IsOfFacts (needed part) := by
  cases part with
  | none => exact .error (Trouble.isOfFacts (t := .unanswerable) nofun)
  | some a => exact .ok a

theorem eq_some_of_needed {part : Option α} {a : α} (h : needed part = .ok a) : part = some a := by
  cases part with
  | none => cases h
  | some b =>
    cases h
    rfl

theorem firstKnown_fails {inferred : List Inferred} (h : ∀ f ∈ inferred.filterMap Inferred.fault?, IsNamed f) :
    FailsOnly IsOfFacts (firstKnown inferred) := by
  fun_induction firstKnown inferred with
  | case1 => exact .ok none
  | case2 rest ih => exact ih h
  | case3 => exact .ok none
  | case4 => exact .ok none
  | case5 f rest => exact .error (.inr (h f List.mem_cons_self))
  | case6 known rest => exact .ok _

/-! ## Annotations -/

theorem optionBindM_fails {f : Nat → Except Fault (Option α)} (h : ∀ position, FailsOnly IsOfFacts (f position))
    (position : Option Nat) : FailsOnly IsOfFacts (position.bindM f) := by
  cases position with
  | none => exact .ok none
  | some position => exact h position

theorem dottedName_fails (facts : Facts) : ∀ depth position, FailsOnly IsOfFacts (facts.dottedName depth position)
  | 0, _ => .error (.inl rfl)
  | depth + 1, position => by
    unfold dottedName
    cases facts.form position with
    | name name => exact .ok name
    | memberAccess name expression =>
      refine (optionBindM_fails (dottedName_fails facts depth) expression).bind fun path => ?_
      split
      · exact (needed_fails name).bind fun _ => .ok _
      · exact .ok name
    | _ => exact .ok none

theorem annotationOf_fails (facts : Facts) (decorator : Nat) : FailsOnly IsOfFacts (facts.annotationOf decorator) :=
  (optionBindM_fails (dottedName_fails facts facts.depth) _).bind fun _ => .ok _

theorem annotations_fails (facts : Facts) (decorators : List Nat) : FailsOnly IsOfFacts (facts.annotations decorators) :=
  (FailsOnly.mapM (annotationOf_fails facts) decorators).bind fun _ => .ok _

/-! ## Types -/

open Attempt (Comes)

/-- A computation that can come to no other faults than facts can. -/
abbrev Asks (P : α → Prop) (x : Attempt Known α) : Prop := Comes IsOfFacts P x

theorem ancestorTypes_comes {typeAt : Nat → Attempt Known TypeRef} (htype : ∀ position, Asks (fun _ => True) (typeAt position)) :
    ∀ {steps : List Step}, (∀ f ∈ steps.filterMap Step.fault?, IsNamed f) → Asks (fun _ => True) (ancestorTypes typeAt steps)
  | [], _ => .pure trivial
  | .row position :: rest, h => by
    have hrest : ∀ f ∈ rest.filterMap Step.fault?, IsNamed f := h
    exact (htype position).bind fun _ _ => (ancestorTypes_comes htype hrest).bind fun _ _ => .pure trivial
  | .trouble t :: rest, h => by
    cases t with
    | unresolved => exact .pure trivial
    | unanswerable => exact .fail (Trouble.isOfFacts (t := .unanswerable) nofun)
    | fault f => exact .fail (.inr (h f List.mem_cons_self))

theorem buildType_comes {typeAt : Nat → Attempt Known TypeRef} (htype : ∀ position, Asks (fun _ => True) (typeAt position))
    {c : ClassFacts} (h : ∀ f ∈ c.ancestors.filterMap Step.fault?, IsNamed f) :
    Asks (fun _ => True) (buildType typeAt c) := by
  unfold buildType
  refine (Comes.lift (needed_fails c.qualifiedName)).bind fun name _ => Comes.state.bind fun known _ => ?_
  split
  · exact .pure trivial
  · split
    · exact .pure trivial
    · refine (Comes.update _).bind fun _ _ => (ancestorTypes_comes htype h).caught.bind fun outcome houtcome => ?_
      have hrest : Asks (fun _ => True) (do
          endType name
          let supertypes ← Attempt.lift outcome
          let t : TypeRef := { qualifiedName := name, supertypes := supertypes.getD [] }
          rememberType name t
          return t) :=
        (Comes.update _).bind fun _ _ => (Comes.lift houtcome).bind fun _ _ => (Comes.update _).bind fun _ _ => .pure trivial
      split
      · exact (Comes.update _).bind fun _ _ => hrest
      · exact hrest

theorem ancestors_named (hfacts : facts.IsRead) {position : Nat} {c : ClassFacts} (hform : facts.form position = .classDef c) :
    ∀ f ∈ c.ancestors.filterMap Step.fault?, IsNamed f := by
  have := (hfacts position).faults
  rwa [hform] at this

theorem typeWithin_comes (hfacts : facts.IsRead) : ∀ depth position, Asks (fun _ => True) (facts.typeWithin depth position)
  | 0, _ => .fail (.inl rfl)
  | depth + 1, position => by
    unfold typeWithin
    split
    · rename_i c hform
      exact buildType_comes (typeWithin_comes hfacts depth) (ancestors_named hfacts hform)
    · exact .fail (Trouble.isOfFacts (t := .unanswerable) nofun)

theorem typeOf_comes (hfacts : facts.IsRead) {position : Nat} {c : ClassFacts} (hform : facts.form position = .classDef c) :
    Asks (fun _ => True) (facts.typeOf c) :=
  buildType_comes (typeWithin_comes hfacts facts.depth) (ancestors_named hfacts hform)

/-! ## Symbols -/

end TreeLint.Facts

namespace TreeLint

/-- The symbol is that of a function, as far as its facts tell. -/
structure Symbol.IsMethodOf (s : Symbol) (f : Facts.FunctionFacts) : Prop where
  kind : s.kind = .method
  name : f.name = some s.name
  parameters : s.parameters = f.givenParameters
  isStatic : s.isStatic = decide (f.binding ≠ .method)

namespace Facts

variable {facts : Facts}

open Attempt (Comes)

/-- The symbol of what a row declares: modules, classes and functions have one, and nothing else has. -/
def Form.Declared : Form → Option Symbol → Prop
  | moduleDef .., symbol => ∃ s ∈ symbol, s.kind = .moduleDecl
  | classDef _, symbol => ∃ s ∈ symbol, s.kind = .classDecl
  | function f, symbol => ∃ s ∈ symbol, s.IsMethodOf f
  | _, symbol => symbol = none

theorem scopeSymbolWithin_comes (hfacts : facts.IsRead) (markers : List String) : ∀ (depth : Nat) (position : Option Nat),
    Asks (fun symbol => ∀ p ∈ position, (facts.form p).Declared symbol) (facts.scopeSymbolWithin markers depth position)
  | 0, none | _ + 1, none => .pure nofun
  | 0, some _ => .fail (.inl rfl)
  | depth + 1, some position => by
    suffices h : Asks (facts.form position).Declared (facts.scopeSymbolWithin markers (depth + 1) (some position)) by
      refine h.imp fun symbol hsymbol p hp => ?_
      cases hp
      exact hsymbol
    unfold scopeSymbolWithin
    cases hform : facts.form position with
    | moduleDef name => exact .pure ⟨_, rfl, rfl⟩
    | classDef c =>
      refine (Comes.lift (annotations_fails facts c.decorators)).bind fun annotations _ => ?_
      refine (Comes.lift (needed_fails c.name)).bind fun name _ => ?_
      refine (scopeSymbolWithin_comes hfacts markers depth c.frame).bind fun owner _ => ?_
      refine Comes.map (P := fun s : Symbol => s.kind = .classDecl) ?_ fun s hs => ⟨s, rfl, hs⟩
      exact (typeOf_comes hfacts hform).bind fun _ _ => .pure rfl
    | function f =>
      refine (Comes.lift (annotations_fails facts f.decorators)).bind fun annotations _ => ?_
      refine (Comes.lift (needed_fails f.name)).bind fun name hname => ?_
      refine (scopeSymbolWithin_comes hfacts markers depth f.frame).bind fun owner _ => .pure ?_
      exact ⟨_, rfl, rfl, eq_some_of_needed hname, rfl, rfl⟩
    | _ => exact .pure rfl

theorem scopeSymbol_comes (hfacts : facts.IsRead) (markers : List String) (position : Option Nat) :
    Asks (fun symbol => ∀ p ∈ position, (facts.form p).Declared symbol) (facts.scopeSymbol markers position) :=
  scopeSymbolWithin_comes hfacts markers (facts.depth + 1) position

/-! ## Expressions -/

/-- The first thing that the inference comes up with is a function, seen as a method or not. -/
def Resolves (facts : Facts) (inferred : List Inferred) (f : FunctionFacts) : Prop :=
  ∃ i position, firstKnown inferred = .ok (some i) ∧ i.unbound = .declaration position ∧
    facts.form position = .function f

/-- The symbol of something that denotes some functions: it is that of a method just if there is one. -/
structure Stands (denotes : FunctionFacts → Prop) (symbol : Option Symbol) : Prop where
  kind : ∀ s ∈ symbol, s.kind ≠ .constructor
  method : ∀ s ∈ symbol, s.kind = .method → ∃ f, denotes f ∧ s.IsMethodOf f
  denoted : ∀ f, denotes f → ∃ s ∈ symbol, s.IsMethodOf f

/-- The symbol of something that denotes no function. -/
theorem Stands.of_none {denotes : FunctionFacts → Prop} {symbol : Option Symbol} (hnone : ∀ f, ¬ denotes f)
    (h : ∀ s ∈ symbol, s.kind ≠ .constructor ∧ s.kind ≠ .method) : Stands denotes symbol where
  kind s hs := (h s hs).1
  method s hs hkind := absurd hkind (h s hs).2
  denoted f hf := absurd hf (hnone f)

/-- The symbol of a declaration that is no function. -/
theorem Stands.of_kind {denotes : FunctionFacts → Prop} {symbol : Option Symbol} {k : SymbolKind}
    (hnone : ∀ f, ¬ denotes f) (h : ∃ s ∈ symbol, s.kind = k) (hk : k ≠ .constructor ∧ k ≠ .method) :
    Stands denotes symbol := by
  obtain ⟨s, hs, rfl⟩ := h
  refine .of_none hnone fun s' hs' => ?_
  cases Option.mem_unique hs hs'
  exact hk

theorem Stands.congr {denotes denotes' : FunctionFacts → Prop} {symbol : Option Symbol} (h : Stands denotes symbol)
    (hiff : ∀ f, denotes f ↔ denotes' f) : Stands denotes' symbol := by
  obtain rfl : denotes = denotes' := funext fun f => propext (hiff f)
  exact h

/-- The symbol of a function denotes it alone. -/
theorem Stands.of_function {denotes : FunctionFacts → Prop} {symbol : Option Symbol} {f : FunctionFacts}
    (hiff : ∀ f', denotes f' ↔ f' = f) (h : ∃ s ∈ symbol, s.IsMethodOf f) : Stands denotes symbol := by
  obtain ⟨s, hs, hf⟩ := h
  refine ⟨fun s' hs' hkind => ?_, fun s' hs' _ => ⟨f, (hiff f).2 rfl, ?_⟩, fun f' hf' => ⟨s, hs, ?_⟩⟩
  · cases Option.mem_unique hs hs'
    rw [hf.kind] at hkind
    cases hkind
  · cases Option.mem_unique hs hs'
    exact hf
  · cases (hiff f').1 hf'
    exact hf

/-- Of a symbol, a call keeps that of a method. -/
theorem Stands.called {denotes : FunctionFacts → Prop} {symbol : Option Symbol} (h : Stands denotes symbol) :
    Stands denotes (symbol.filter (·.kind = .method)) where
  kind s hs := h.kind s (Option.mem_filter_iff.1 hs).1
  method s hs := h.method s (Option.mem_filter_iff.1 hs).1
  denoted f hf := by
    obtain ⟨s, hs, hsf⟩ := h.denoted f hf
    exact ⟨s, Option.mem_filter_iff.2 ⟨hs, by simpa using hsf.kind⟩, hsf⟩

/-- The symbol of a value, if it has one: a variable or a field. -/
def IsValue (symbol : Option Symbol) : Prop := ∀ s ∈ symbol, s.kind = .variableDecl ∨ s.kind = .field

theorem IsValue.stands {denotes : FunctionFacts → Prop} {symbol : Option Symbol} (h : IsValue symbol)
    (hnone : ∀ f, ¬ denotes f) : Stands denotes symbol := by
  refine .of_none hnone fun s hs => ?_
  rcases h s hs with hkind | hkind <;> rw [hkind] <;> exact ⟨nofun, nofun⟩

theorem instanceType_comes (hfacts : facts.IsRead) (position : Nat) : Asks (fun _ => True) (facts.instanceType position) := by
  unfold instanceType
  split
  · rename_i c hform
    exact (typeOf_comes hfacts hform).map fun _ _ => trivial
  · exact .pure trivial

theorem valueSymbol_comes (hfacts : facts.IsRead) (markers : List String) {expression : Form} (hexpression : expression.IsRead)
    (type : Option TypeRef) : Asks IsValue (facts.valueSymbol markers expression type) := by
  unfold valueSymbol
  cases expression with
  | name name inferred lookup =>
    refine (Comes.lift (needed_fails name)).bind fun name _ => ?_
    have owned (scope : Option Nat) : Asks IsValue (do
        let owner ← facts.scopeSymbol markers scope
        return some { name, kind := .variableDecl, owner, type }) := by
      refine (scopeSymbol_comes hfacts markers scope).bind fun owner _ => .pure fun s hs => ?_
      cases hs
      exact .inl rfl
    dsimp only
    split
    · exact owned (some _)
    · exact owned none
    · exact owned none
    · refine .fail (Trouble.isOfFacts fun f hf => hexpression.faults f ?_)
      exact List.mem_append_right _ (Option.mem_toList.2 hf)
  | memberAccess name =>
    refine (Comes.lift (needed_fails name)).bind fun name _ => .pure fun s hs => ?_
    cases hs
    exact .inr rfl
  | _ => exact .pure nofun

theorem valueMeaning_comes (hfacts : facts.IsRead) (markers : List String) {expression : Form} (hexpression : expression.IsRead)
    (type : Option TypeRef) : Asks (fun m => IsValue m.symbol) (facts.valueMeaning markers expression type) :=
  (valueSymbol_comes hfacts markers hexpression type).bind fun _ h => .pure h

theorem unboundMeaning_comes (hfacts : facts.IsRead) (markers : List String) {expression : Form}
    (hexpression : expression.IsRead) (i : Inferred) :
    Asks (fun m => Stands (fun f => ∃ position, i = .declaration position ∧ facts.form position = .function f) m.symbol)
      (facts.unboundMeaning markers expression i) := by
  have value {denotes : FunctionFacts → Prop} (hnone : ∀ f, ¬ denotes f) (type : Option TypeRef) :
      Asks (fun m => Stands denotes m.symbol) (facts.valueMeaning markers expression type) :=
    (valueMeaning_comes hfacts markers hexpression type).imp fun m hm => hm.stands hnone
  cases i with
  | declaration position =>
    have scope : Asks (fun m : Meaning => (facts.form position).Declared m.symbol) (do
        return { symbol := ← facts.scopeSymbol markers (some position) }) :=
      (scopeSymbol_comes hfacts markers (some position)).bind fun symbol h => .pure (h position rfl)
    have hiff (f : FunctionFacts) : (∃ p, Inferred.declaration position = .declaration p ∧ facts.form p = .function f) ↔
        facts.form position = .function f := by simp
    simp only [hiff]
    dsimp only [unboundMeaning]
    split
    · rename_i f hform
      rw [hform] at scope ⊢
      refine scope.imp fun m hm => Stands.of_function (fun f' => ?_) hm
      rw [Form.function.injEq, eq_comm]
    · rename_i name body hform
      rw [hform] at scope ⊢
      exact scope.imp fun m hm => Stands.of_kind nofun hm ⟨nofun, nofun⟩
    · rename_i hfunction _
      exact value hfunction none
  | instanceOf position => exact (instanceType_comes hfacts position).bind fun type _ => value nofun type
  | _ => exact value nofun none

/-- What an expression stands for is told by the first thing that the inference comes up with. -/
theorem meaning_comes (hfacts : facts.IsRead) (markers : List String) {expression : Form} (hexpression : expression.IsRead)
    {inferred : List Inferred} (hinferred : ∀ f ∈ inferred.filterMap Inferred.fault?, IsNamed f) :
    Asks (fun m => Stands (facts.Resolves inferred) m.symbol) (facts.meaning markers expression inferred) := by
  unfold meaning
  refine (Comes.lift (firstKnown_fails hinferred)).bind fun known hknown => ?_
  cases known with
  | none =>
    refine .pure (.of_none ?_ nofun)
    rintro f ⟨i, position, hi, -⟩
    rw [hknown] at hi
    cases hi
  | some i =>
    have hiff (f : FunctionFacts) : (∃ position, i.unbound = .declaration position ∧ facts.form position = .function f) ↔
        facts.Resolves inferred f := by
      unfold Resolves
      simp [hknown]
    have unbound : Asks (fun m => Stands (facts.Resolves inferred) m.symbol) (facts.unboundMeaning markers expression i.unbound) :=
      (unboundMeaning_comes hfacts markers hexpression i.unbound).imp fun m hm => hm.congr hiff
    dsimp only
    split
    · rename_i position
      split
      · rename_i c hform
        refine (scopeSymbol_comes hfacts markers (some position)).bind fun symbol hsymbol => .pure ?_
        have hdeclared := hsymbol position rfl
        rw [hform] at hdeclared
        refine .of_kind (fun f hf => ?_) hdeclared ⟨nofun, nofun⟩
        obtain ⟨p, hp, hfunction⟩ := (hiff f).2 hf
        cases hp
        rw [hform] at hfunction
        cases hfunction
      · exact unbound
    · exact unbound

/-- A row denotes a function if it declares it, or if it is an expression that resolves to it. A call denotes what
its callee denotes, whatever the inference comes up with for the call itself. -/
inductive Denotes (facts : Facts) : Nat → FunctionFacts → Prop
  | function {position : Nat} {f : FunctionFacts} (hform : facts.form position = .function f) : Denotes facts position f
  | name {position : Nat} {name : Option String} {inferred : List Inferred} {lookup : Option Step} {f : FunctionFacts}
    (hform : facts.form position = .name name inferred lookup) (h : facts.Resolves inferred f) : Denotes facts position f
  | memberAccess {position : Nat} {name : Option String} {expression : Option Nat} {inferred : List Inferred}
    {f : FunctionFacts} (hform : facts.form position = .memberAccess name expression inferred)
    (h : facts.Resolves inferred f) : Denotes facts position f
  | call {position callee : Nat} {arguments keywords : List Nat} {inferred : List Inferred} {f : FunctionFacts}
    (hform : facts.form position = .call (some callee) arguments keywords inferred) (h : Denotes facts callee f) :
    Denotes facts position f

/-- `Denotes`, by what the row is. -/
theorem denotes_iff {position : Nat} {f : FunctionFacts} : facts.Denotes position f ↔ match facts.form position with
    | .function f' => f = f'
    | .name _ inferred _ | .memberAccess _ _ inferred => facts.Resolves inferred f
    | .call (some callee) .. => facts.Denotes callee f
    | _ => False := by
  constructor
  · intro h
    cases h with
    | function hform => rw [hform]
    | name hform h | memberAccess hform h | call hform h =>
      rw [hform]
      exact h
  · intro h
    split at h
    · rename_i hform
      exact .function (h ▸ hform)
    · rename_i hform
      exact .name hform h
    · rename_i hform
      exact .memberAccess hform h
    · rename_i hform
      exact .call hform h
    · cases h

end Facts

end TreeLint
