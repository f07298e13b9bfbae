/-
What a document can tell. A row of which no more is told than its parts is a statement of one of three kinds or
something else, and the faults of a search go by the names of the document. Main statement: `ofValue_isRead`.
-/
import TreeLint.Facts.Document

namespace TreeLint

/-! ## Reading -/

namespace Facts.Read

variable {α β : Type} {P : α → Prop} {Q : β → Prop}

/-- A part of a document that reads, where it can be read, as something of a sort. -/
def Yields (P : α → Prop) (x : Read α) : Prop := ∀ a, x.run = .ok (some a) → P a

theorem Yields.pure {a : α} (h : P a) : Yields P (pure a) := by
  intro b hb
  cases hb
  exact h

theorem Yields.any (x : Read α) : Yields (fun _ => True) x := fun _ _ => trivial

theorem Yields.failure : Yields P (failure : Read α) := nofun

theorem Yields.bind {x : Read α} {f : α → Read β} (hx : Yields P x) (hf : ∀ a, P a → Yields Q (f a)) :
    Yields Q (x >>= f) := by
  intro b hb
  rw [OptionT.run_bind] at hb
  rcases h : x.run with e | _ | a <;> rw [h] at hb
  · cases hb
  · cases hb
  · exact hf a (hx a h) b hb

/-- What is read before does not matter. -/
theorem Yields.after {x : Read α} {f : α → Read β} (hf : ∀ a, Yields Q (f a)) : Yields Q (x >>= f) :=
  (Yields.any x).bind fun a _ => hf a

theorem Yields.map {x : Read α} {f : α → β} (hx : Yields P x) (hf : ∀ a, P a → Q (f a)) : Yields Q (f <$> x) := by
  rw [← bind_pure_comp]
  exact hx.bind fun a ha => .pure (hf a ha)

theorem Yields.optionMapM {f : β → Read α} (hf : ∀ b, Yields P (f b)) (b : Option β) :
    Yields (fun a => ∀ a' ∈ a, P a') (b.mapM f) := by
  cases b with
  | none => exact .pure nofun
  | some b =>
    refine (hf b).map fun a ha a' ha' => ?_
    cases ha'
    exact ha

theorem Yields.mapM {f : β → Read α} (hf : ∀ b, Yields P (f b)) (bs : List β) :
    Yields (fun as => ∀ a ∈ as, P a) (bs.mapM f) := by
  induction bs with
  | nil => exact .pure (List.forall_mem_nil _)
  | cons b bs ih =>
    rw [List.mapM_cons]
    exact (hf b).bind fun a ha => ih.bind fun as has => .pure (List.forall_mem_cons.2 ⟨ha, has⟩)

end Facts.Read

namespace Facts

open Read (Yields)

/-! ## Faults of a search -/

/-- The fault of a search that goes by a name in the document. -/
def IsNamed (f : Fault) : Prop := ∃ name, f = Fault.ofLabel name "facts"

/-- The fault that a trouble is, unless it means that nothing was found. -/
def Trouble.fault? : Trouble → Option Fault
  | fault f => some f
  | _ => none

def Step.fault? : Step → Option Fault
  | trouble t => t.fault?
  | _ => none

def Inferred.fault? : Inferred → Option Fault
  | trouble t => t.fault?
  | _ => none

/-- The faults of the searches that start from a row. -/
def Form.faults : Form → List Fault
  | classDef c => c.ancestors.filterMap Step.fault?
  | name _ inferred lookup => inferred.filterMap Inferred.fault? ++ (lookup.bind Step.fault?).toList
  | memberAccess _ _ inferred | call _ _ _ inferred | binary _ _ _ inferred => inferred.filterMap Inferred.fault?
  | _ => []

/-- The kinds of rows of which no more is told than their parts. -/
def plainKinds : List NodeKind := [.assignment, .returnStatement, .expressionStatement, .other]

/-- A row as a document can tell it. -/
structure Form.IsRead (form : Form) : Prop where
  kind : ∀ kind children, form = .plain kind children → kind ∈ plainKinds
  faults : ∀ f ∈ form.faults, IsNamed f

end Facts

/-- Facts as a document can tell them. -/
def Facts.IsRead (facts : Facts) : Prop := ∀ position, (facts.form position).IsRead

namespace Facts

open Read (Yields)

theorem Trouble.fault?_ofName (name : String) : ∀ f ∈ (Trouble.ofName name).fault?, IsNamed f := by
  unfold Trouble.ofName
  split
  · exact nofun
  · exact nofun
  · exact nofun
  · intro f hf
    cases hf
    exact ⟨name, rfl⟩

theorem Step.ofValue_named (rows : Nat) (v : Value) :
    Yields (fun step => ∀ f ∈ step.fault?, IsNamed f) (Step.ofValue rows v) := by
  unfold Step.ofValue
  split
  · exact .pure (Trouble.fault?_ofName _)
  · exact .after fun _ => .after fun _ => .pure nofun

theorem Inferred.ofValue_named (rows : Nat) (v : Value) :
    Yields (fun i => ∀ f ∈ i.fault?, IsNamed f) (Inferred.ofValue rows v) := by
  unfold Inferred.ofValue
  split
  · exact .pure nofun
  · exact .pure nofun
  · exact .after fun _ => .after fun _ => .pure nofun
  · exact .after fun _ => .after fun _ => .pure nofun
  · exact (Yields.any _).map fun _ _ => nofun
  · exact .after fun _ => .pure (Trouble.fault?_ofName _)
  · exact .failure

theorem forall_mem_filterMap {α β : Type} {P : β → Prop} {g : α → Option β} {as : List α} (h : ∀ a ∈ as, ∀ b ∈ g a, P b) :
    ∀ b ∈ as.filterMap g, P b := by
  intro b hb
  obtain ⟨a, ha, hab⟩ := List.mem_filterMap.1 hb
  exact h a ha b hab

theorem inferredUnder_named (rows : Nat) (v : Value) (key : String) :
    Yields (fun inferred => ∀ f ∈ inferred.filterMap Inferred.fault?, IsNamed f) (inferredUnder rows v key) := by
  unfold inferredUnder
  refine .after fun values => ?_
  intro inferred h
  exact forall_mem_filterMap (Yields.mapM (Inferred.ofValue_named rows) values inferred h)

theorem stepsUnder_named (rows : Nat) (v : Value) (key : String) :
    Yields (fun steps => ∀ f ∈ steps.filterMap Step.fault?, IsNamed f) (stepsUnder rows v key) := by
  unfold stepsUnder
  split
  · refine (Step.ofValue_named rows _).bind fun step hstep => .pure (forall_mem_filterMap fun s hs => ?_)
    rcases List.mem_singleton.1 hs with rfl
    exact hstep
  · refine .after fun values => ?_
    intro steps h
    exact forall_mem_filterMap (Yields.mapM (Step.ofValue_named rows) values steps h)

theorem ClassFacts.ofValue_named (rows : Nat) (v : Value) :
    Yields (fun c => ∀ f ∈ c.ancestors.filterMap Step.fault?, IsNamed f) (ClassFacts.ofValue rows v) := by
  unfold ClassFacts.ofValue
  refine .after fun name => .after fun qualifiedName => .after fun frame => .after fun decorators => ?_
  exact (stepsUnder_named rows v "ancestors").bind fun ancestors h => .after fun bases => .after fun body => .pure h

/-- A row of which more is told than its parts. -/
theorem Form.IsRead.of {form : Form} (hkind : ∀ kind children, form ≠ .plain kind children)
    (hfaults : ∀ f ∈ form.faults, IsNamed f) : form.IsRead :=
  ⟨fun kind children hform => absurd hform (hkind kind children), hfaults⟩

theorem Form.IsRead.plain {kind : NodeKind} (children : List Nat) (h : kind ∈ plainKinds) : (Form.plain kind children).IsRead where
  kind _ _ hform := by
    cases hform
    exact h
  faults := nofun

theorem Form.ofValue_isRead (rows : Nat) (v : Value) : Yields Form.IsRead (Form.ofValue rows v) := by
  have hinferred := inferredUnder_named rows v "infer"
  have plain {kind : NodeKind} (h : kind ∈ plainKinds) :
      Yields Form.IsRead (do return .plain kind (← rowsUnder rows v "children")) :=
    .after fun children => .pure (.plain children h)
  unfold Form.ofValue
  refine .after fun under => .after fun cls => ?_
  split
  · exact .after fun name => .after fun body => .pure (.of nofun nofun)
  · exact (ClassFacts.ofValue_named rows v).bind fun c hc => .pure (.of nofun hc)
  · exact .after fun f => .pure (.of nofun nofun)
  · exact .after fun f => .pure (.of nofun nofun)
  · refine (Yields.optionMapM (Step.ofValue_named rows) (v.field? "lookup")).bind fun lookup hlookup => ?_
    refine .after fun name => hinferred.bind fun inferred h => .pure (.of nofun fun f hf => ?_)
    rcases List.mem_append.1 hf with hf | hf
    · exact h f hf
    · obtain ⟨step, hstep, hf⟩ := Option.bind_eq_some_iff.1 (Option.mem_toList.1 hf)
      exact hlookup step hstep f hf
  · exact .after fun name => .pure (.of nofun nofun)
  · exact .after fun name => .after fun expression => hinferred.bind fun inferred h => .pure (.of nofun h)
  · refine .after fun callee => .after fun arguments => .after fun keywords => ?_
    exact hinferred.bind fun inferred h => .pure (.of nofun h)
  · refine .after fun operator => .after fun left => .after fun right => ?_
    exact hinferred.bind fun inferred h => .pure (.of nofun h)
  · exact .after fun operator => .after fun operand => .pure (.of nofun nofun)
  · exact .after fun type => .after fun text => .pure (.of nofun nofun)
  · exact .after fun children => .pure (.of nofun nofun)
  · exact plain (by decide)
  · exact plain (by decide)
  · exact plain (by decide)
  · exact plain (by decide)
  · exact plain (by decide)
  · exact plain (by decide)

theorem Row.ofValue_isRead (rows : Nat) (v : Value) : Yields (fun row => row.form.IsRead) (Row.ofValue rows v) :=
  (Form.ofValue_isRead rows v).bind fun _ h => .after fun _ => .pure h

/-- What is read from a document is what a document can tell. -/
theorem ofValue_isRead {v : Value} {facts : Facts} (h : (ofValue v).run = .ok (some facts)) : facts.IsRead := by
  have hread : Yields Facts.IsRead (ofValue v) := by
    unfold ofValue
    refine .after fun under => .after fun values => ?_
    refine (Yields.mapM (Row.ofValue_isRead values.length) values).bind fun rows hrows => .after fun root => .pure fun position => ?_
    unfold form
    dsimp only
    rcases hrow : rows.toArray[position]? with _ | row
    · exact .plain [] (by decide)
    · exact hrows row (by simpa using Array.mem_of_getElem? hrow)
  exact hread facts h

end Facts

end TreeLint
