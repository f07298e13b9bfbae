/-
What the symbols and the types of expressions have in common while a tree is built: a symbol counts as
generated just if its own annotations hold a marker, and types are remembered ones. Main statements:
`scopeSymbol_ends` and `meaning_ends`.
-/
import TreeLint.Facts.Meaning
import TreeLint.Proofs.Facts.Types

namespace TreeLint.Facts

variable {α β : Type} {k : Known}

/-! ## Where a computation ends -/

/-- A computation that, where no type is under construction, forgets nothing and has a result as it
should be once it ends. -/
def Ends (k : Known) (P : Known → α → Prop) (x : Attempt Known α) : Prop :=
  k.building = [] → k.Later (x k).2 ∧ ∀ a, (x k).1 = .ok a → P (x k).2 a

theorem Ends.pure {P : Known → α → Prop} {a : α} (h : P k a) : Ends k P (pure a) := by
  refine fun _ => ⟨.refl k, fun b hb => ?_⟩
  cases hb
  exact h

theorem Ends.lift (x : Except Fault α) : Ends k (fun _ a => x = .ok a) (Attempt.lift x) :=
  fun _ => ⟨.refl k, fun _ h => h⟩

theorem Ends.fail {P : Known → α → Prop} (f : Fault) : Ends k P (Attempt.fail f) :=
  fun _ => ⟨.refl k, fun _ h => nomatch h⟩

theorem Ends.bind {P : Known → α → Prop} {Q : Known → β → Prop} {x : Attempt Known α} {f : α → Attempt Known β}
    (hx : Ends k P x) (hf : ∀ a k', k.Later k' → P k' a → Ends k' Q (f a)) : Ends k Q (x >>= f) := by
  intro hk
  obtain ⟨hlater, hres⟩ := hx hk
  rw [Attempt.bind_apply]
  rcases h : x k with ⟨_ | a, k'⟩ <;> rw [h] at hlater hres
  · exact ⟨hlater, fun _ hb => nomatch hb⟩
  · obtain ⟨hlater', hres'⟩ := hf a k' hlater (hres a rfl) (hlater.building.trans hk)
    exact ⟨hlater.trans hlater', hres'⟩

theorem Ends.map {P : Known → α → Prop} {Q : Known → β → Prop} {x : Attempt Known α} {f : α → β} (h : Ends k P x)
    (hPQ : ∀ k' a, k.Later k' → P k' a → Q k' (f a)) : Ends k Q (f <$> x) := by
  rw [← bind_pure_comp]
  exact h.bind fun a k' hk' ha => .pure (hPQ k' a hk' ha)

/-! ## Markers -/

/-- Whether one of some annotations is a marker of generated declarations. -/
def isMarked (markers : List String) (annotations : List Annotation) : Bool :=
  annotations.any fun a => markers.any a.isNamed

theorem isEmpty_ofList (xs : List String) : (NameSet.ofList xs).isEmpty = xs.isEmpty := by
  cases xs with
  | nil => rfl
  | cons x xs =>
    have hx : x ∈ NameSet.ofList (x :: xs) := NameSet.mem_ofList.2 List.mem_cons_self
    exact List.isEmpty_eq_false_iff_exists_mem.2 ⟨x, NameSet.mem_def.1 hx⟩

/-- A marker always tells of some mechanism. -/
theorem isEmpty_mechanisms (markers : List String) (annotations : List Annotation) :
    (mechanisms markers annotations).isEmpty = !isMarked markers annotations := by
  unfold mechanisms isMarked
  rw [isEmpty_ofList]
  induction annotations with
  | nil => rfl
  | cons a rest ih =>
    rw [List.filter_cons, List.any_cons]
    cases markers.any a.isNamed with
    | false => exact ih
    | true =>
      -- without arguments a marker still tells its own name
      rw [if_pos rfl, List.flatMap_cons]
      cases h : a.arguments <;> rfl

/-! ## Symbols -/

/-- A symbol that counts as generated just if it is annotated with a marker, and whose type is
remembered. -/
structure Faithful (markers : List String) (k : Known) (s : Symbol) : Prop where
  marked : s.generatedBy.isEmpty = !isMarked markers s.annotations
  type : ∀ t ∈ s.type, k.Remembers t

theorem Faithful.later {markers : List String} {k k' : Known} {s : Symbol} (h : Faithful markers k s)
    (hk : k.Later k') : Faithful markers k' s :=
  ⟨h.marked, fun t ht => (h.type t ht).later hk⟩

theorem typeOf_ends (facts : Facts) (c : ClassFacts) : Ends k (fun k' t => k'.Remembers t) (facts.typeOf c) :=
  fun hk => ⟨(facts.typeOf_remembered c k).1, (facts.typeOf_remembered c k).2 hk⟩

theorem moduleSymbol_faithful (markers : List String) (k : Known) (name : Option String) :
    Faithful markers k (moduleSymbol name) :=
  ⟨rfl, fun _ h => nomatch h⟩

theorem methodSymbol_faithful (markers : List String) (k : Known) (annotations : List Annotation) (name : String)
    (owner : Option Symbol) (f : FunctionFacts) :
    Faithful markers k (methodSymbol markers annotations name owner f) :=
  ⟨isEmpty_mechanisms markers annotations, fun _ h => nomatch h⟩

theorem classSymbol_ends (facts : Facts) (markers : List String) (annotations : List Annotation) (name : String)
    (owner : Option Symbol) (c : ClassFacts) :
    Ends k (fun k' s => Faithful markers k' s ∧ s.annotations = annotations)
      (facts.classSymbol markers annotations name owner c) := by
  refine (typeOf_ends facts c).bind fun t k' _ ht => .pure ⟨⟨isEmpty_mechanisms markers annotations, ?_⟩, rfl⟩
  intro t' ht'
  cases ht'
  exact ht

/-- The decorators of a class or a function. -/
def Form.decoratorRows : Form → Option (List Nat)
  | .classDef c => some c.decorators
  | .function f => some f.decorators
  | _ => none

/-- A symbol for what is declared at a position: a faithful one, annotated with the decorators that are
written there. -/
structure Declares (facts : Facts) (markers : List String) (position : Option Nat) (k : Known)
    (symbol : Option Symbol) : Prop where
  faithful : ∀ s ∈ symbol, Faithful markers k s
  annotated : ∀ p ∈ position, ∀ rows ∈ (facts.form p).decoratorRows,
    ∃ s ∈ symbol, facts.annotations rows = .ok s.annotations

theorem Declares.later {facts : Facts} {markers : List String} {position : Option Nat} {symbol : Option Symbol}
    {k' : Known} (h : facts.Declares markers position k symbol) (hk : k.Later k') :
    facts.Declares markers position k' symbol :=
  ⟨fun s hs => (h.faithful s hs).later hk, h.annotated⟩

/-- A row without decorators of its own. -/
theorem Declares.undecorated {facts : Facts} {markers : List String} {position : Nat} {symbol : Option Symbol}
    (hform : (facts.form position).decoratorRows = none) (h : ∀ s ∈ symbol, Faithful markers k s) :
    facts.Declares markers (some position) k symbol := by
  refine ⟨h, fun p hp rows hrows => ?_⟩
  cases hp
  rw [hform] at hrows
  cases hrows

/-- A class or a function whose symbol is put together from its decorators. -/
theorem Declares.decorated {facts : Facts} {markers : List String} {position : Nat} {rows : List Nat} {s : Symbol}
    (hform : (facts.form position).decoratorRows = some rows) (h : Faithful markers k s)
    (hann : facts.annotations rows = .ok s.annotations) : facts.Declares markers (some position) k (some s) := by
  refine ⟨fun s' hs' => ?_, fun p hp rows' hrows => ⟨s, rfl, ?_⟩⟩
  · cases hs'
    exact h
  · cases hp
    rw [hform] at hrows
    cases hrows
    exact hann

theorem scopeSymbolWithin_ends (facts : Facts) (markers : List String) :
    ∀ (depth : Nat) (position : Option Nat) {k : Known},
      Ends k (facts.Declares markers position) (facts.scopeSymbolWithin markers depth position)
  | 0, none, k | _ + 1, none, k => .pure ⟨fun _ h => (nomatch h), fun _ h => (nomatch h)⟩
  | 0, some _, _ => .fail _
  | depth + 1, some position, k => by
    unfold scopeSymbolWithin
    cases hform : facts.form position with
    | moduleDef name body =>
      refine .pure (.undecorated (by rw [hform]; rfl) fun s hs => ?_)
      cases hs
      exact moduleSymbol_faithful markers k name
    | classDef c =>
      refine (Ends.lift (facts.annotations c.decorators)).bind fun annotations _ _ hann => ?_
      refine (Ends.lift (needed c.name)).bind fun name _ _ _ => ?_
      refine (scopeSymbolWithin_ends facts markers depth c.frame).bind fun owner _ _ _ => ?_
      refine (classSymbol_ends facts markers annotations name owner c).map fun k' s _ ⟨hs, hsann⟩ => ?_
      exact .decorated (by rw [hform]; rfl) hs (by rw [hsann]; exact hann)
    | function f =>
      refine (Ends.lift (facts.annotations f.decorators)).bind fun annotations _ _ hann => ?_
      refine (Ends.lift (needed f.name)).bind fun name _ _ _ => ?_
      refine (scopeSymbolWithin_ends facts markers depth f.frame).bind fun owner k' _ _ => .pure ?_
      exact .decorated (by rw [hform]; rfl) (methodSymbol_faithful markers k' annotations name owner f) hann
    | _ => exact .pure (.undecorated (by rw [hform]; rfl) fun _ h => nomatch h)

theorem scopeSymbol_ends (facts : Facts) (markers : List String) (position : Option Nat) :
    Ends k (facts.Declares markers position) (facts.scopeSymbol markers position) :=
  scopeSymbolWithin_ends facts markers (facts.depth + 1) position

/-! ## Expressions -/

/-- A meaning with a faithful symbol and a remembered type. -/
structure Meaning.Faithful (markers : List String) (k : Known) (m : Meaning) : Prop where
  symbol : ∀ s ∈ m.symbol, Facts.Faithful markers k s
  type : ∀ t ∈ m.type, k.Remembers t

theorem instanceType_ends (facts : Facts) (position : Nat) :
    Ends k (fun k' type => ∀ t ∈ type, k'.Remembers t) (facts.instanceType position) := by
  unfold instanceType
  cases facts.form position with
  | classDef c =>
    refine (typeOf_ends facts c).map fun k' t _ ht t' ht' => ?_
    cases ht'
    exact ht
  | _ => exact .pure fun _ h => nomatch h

/-- The symbol of a name or an attribute is not a generated one. -/
theorem valueSymbol_ends (facts : Facts) (markers : List String) (expression : Form) {type : Option TypeRef}
    (htype : ∀ t ∈ type, k.Remembers t) :
    Ends k (fun k' symbol => ∀ s ∈ symbol, Faithful markers k' s) (facts.valueSymbol markers expression type) := by
  have value {k' : Known} (hk : k.Later k') (s : Symbol) (hempty : s.generatedBy = ∅) (hnone : s.annotations = [])
      (hs : s.type = type) : ∀ s' ∈ some s, Faithful markers k' s' := by
    intro s' hs'
    cases hs'
    refine ⟨by rw [hempty, hnone]; rfl, fun t ht => ?_⟩
    rw [hs] at ht
    exact (htype t ht).later hk
  unfold valueSymbol
  cases expression with
  | name name inferred lookup =>
    refine (Ends.lift (needed name)).bind fun name k₁ hk₁ _ => ?_
    -- whatever scope the look-up comes to, the name is owned by what is declared there
    have owned (scope : Option Nat) : Ends k₁ (fun k' symbol => ∀ s ∈ symbol, Faithful markers k' s) (do
        let owner ← facts.scopeSymbol markers scope
        return some { name, kind := .variableDecl, owner, type }) :=
      (scopeSymbol_ends facts markers scope).bind fun owner k₂ hk₂ _ =>
        .pure (value (hk₁.trans hk₂) { name, kind := .variableDecl, owner, type } rfl rfl rfl)
    dsimp only
    split
    · exact owned (some _)
    · exact owned none
    · exact owned none
    · exact .fail _
  | memberAccess name of inferred =>
    refine (Ends.lift (needed name)).bind fun name k₁ hk₁ _ => .pure ?_
    exact value hk₁ _ rfl rfl rfl
  | _ => exact .pure fun _ h => nomatch h

theorem valueMeaning_ends (facts : Facts) (markers : List String) (expression : Form) {type : Option TypeRef}
    (htype : ∀ t ∈ type, k.Remembers t) :
    Ends k (Meaning.Faithful markers) (facts.valueMeaning markers expression type) :=
  (valueSymbol_ends facts markers expression htype).bind fun _ _ hk' hsymbol =>
    .pure ⟨hsymbol, fun t ht => (htype t ht).later hk'⟩

theorem unboundMeaning_ends (facts : Facts) (markers : List String) (expression : Form) (i : Inferred) :
    Ends k (Meaning.Faithful markers) (facts.unboundMeaning markers expression i) := by
  have untyped : Ends k (Meaning.Faithful markers) (facts.valueMeaning markers expression none) :=
    valueMeaning_ends facts markers expression fun _ h => nomatch h
  have scope (position : Nat) : Ends k (Meaning.Faithful markers) (do
      return { symbol := ← facts.scopeSymbol markers (some position) }) :=
    (scopeSymbol_ends facts markers (some position)).bind fun _ _ _ h => .pure ⟨h.faithful, fun _ h => nomatch h⟩
  cases i with
  | declaration position =>
    dsimp only [unboundMeaning]
    split
    · exact scope position
    · exact scope position
    · exact untyped
  | instanceOf position =>
    exact (instanceType_ends facts position).bind fun _ _ _ htype => valueMeaning_ends facts markers expression htype
  | _ => exact untyped

/-- What an expression stands for is told by a faithful symbol and a remembered type. -/
theorem meaning_ends (facts : Facts) (markers : List String) (expression : Form) (inferred : List Inferred) :
    Ends k (Meaning.Faithful markers) (facts.meaning markers expression inferred) := by
  unfold meaning
  refine (Ends.lift (firstKnown inferred)).bind fun known k' _ _ => ?_
  cases known with
  | none => exact .pure ⟨fun _ h => (nomatch h), fun _ h => (nomatch h)⟩
  | some i =>
    have unbound := unboundMeaning_ends facts markers expression i.unbound (k := k')
    dsimp only
    split
    · rename_i position _
      split
      · refine (scopeSymbol_ends facts markers (some position)).bind fun symbol _ _ h => .pure ⟨h.faithful, ?_⟩
        intro t ht
        obtain ⟨s, hs, ht⟩ := Option.bind_eq_some_iff.1 ht
        exact (h.faithful s hs).type t ht
      · exact unbound
    · exact unbound

end TreeLint.Facts
