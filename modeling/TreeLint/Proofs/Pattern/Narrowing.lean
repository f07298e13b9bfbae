/-
Chains of constraints on calls. Of the constraints on one aspect the last stands, so what a chain comes to is
known from the last one on the owner, on the name and on either count; constraints on different aspects do not
meddle with each other, and one on a new aspect can only take matches away. Main statement: `isMatch_narrowAll`.
-/
import TreeLint.Proofs.Pattern.Match
import TreeLint.Proofs.Resolver.Subtypes

namespace TreeLint

variable {α : Type} {n : Node} {s : Symbol} {r : Resolver} {c : CallPattern}

/-! ## Aspects -/

namespace CallConstraint

/-- What a constraint is on. -/
inductive Aspect
  | owner | name | parameterCount | argumentCount

/-- What a constraint is on. -/
def aspect : CallConstraint → Aspect
  | onDescendantOf _ | onExactClass _ => .owner
  | named _ => .name
  | withParameterCount _ => .parameterCount
  | withArgumentCount _ => .argumentCount

/-- The owner that a constraint asks for. -/
def owner? : CallConstraint → Option OwnerConstraint
  | onDescendantOf type => some ⟨type, false⟩
  | onExactClass type => some ⟨type, true⟩
  | _ => none

/-- The name that a constraint asks for. -/
def name? : CallConstraint → Option String
  | named name => some name
  | _ => none

/-- The number of parameters that a constraint asks for. -/
def parameterCount? : CallConstraint → Option Int
  | withParameterCount count => some count
  | _ => none

/-- The number of arguments that a constraint asks for. -/
def argumentCount? : CallConstraint → Option Int
  | withArgumentCount count => some count
  | _ => none

/-- Only methods without parameters. -/
def withNoParameters : CallConstraint := .withParameterCount 0

/-- Only calls without arguments. -/
def withNoArguments : CallConstraint := .withArgumentCount 0

variable {k : CallConstraint}

theorem owner?_of_aspect (h : k.aspect ≠ .owner) : owner? k = none := by
  cases k <;> first | rfl | exact absurd rfl h

theorem name?_of_aspect (h : k.aspect ≠ .name) : name? k = none := by
  cases k <;> first | rfl | exact absurd rfl h

theorem parameterCount?_of_aspect (h : k.aspect ≠ .parameterCount) : parameterCount? k = none := by
  cases k <;> first | rfl | exact absurd rfl h

theorem argumentCount?_of_aspect (h : k.aspect ≠ .argumentCount) : argumentCount? k = none := by
  cases k <;> first | rfl | exact absurd rfl h

/-- What the constraints of a chain ask for last, of one aspect. -/
def last (what : CallConstraint → Option α) (chain : List CallConstraint) : Option α :=
  (chain.filterMap what).getLast?

end CallConstraint

open CallConstraint

namespace CallPattern

/-- A chain puts in each place what was put there last. -/
theorem foldl_narrow (field : CallPattern → Option α) (what : CallConstraint → Option α)
    (hfield : ∀ c k, field (narrow c k) = (what k).or (field c)) (chain : List CallConstraint) (c : CallPattern) :
    field (c.narrowAll chain) = (last what chain).or (field c) := by
  unfold narrowAll last
  induction chain generalizing c with
  | nil => rfl
  | cons k rest ih =>
    rw [List.foldl_cons, ih, hfield]
    cases hk : what k with
    | none => rw [List.filterMap_cons_none hk, Option.none_or]
    | some a =>
      rw [List.filterMap_cons_some hk, List.getLast?_cons]
      cases (rest.filterMap what).getLast? <;> rfl

theorem isStatic_narrowAll (chain : List CallConstraint) (c : CallPattern) :
    (c.narrowAll chain).isStatic = c.isStatic := by
  unfold narrowAll
  induction chain generalizing c with
  | nil => rfl
  | cons k rest ih =>
    rw [List.foldl_cons, ih]
    cases k <;> rfl

theorem narrowAll_eq (chain : List CallConstraint) (isStatic : Bool) :
    narrowAll { isStatic } chain =
      { isStatic, owner := last owner? chain, name := last name? chain, parameterCount := last parameterCount? chain,
        argumentCount := last argumentCount? chain } := by
  have howner := foldl_narrow owner owner? (fun c k => by cases k <;> rfl) chain { isStatic }
  have hname := foldl_narrow name name? (fun c k => by cases k <;> rfl) chain { isStatic }
  have hparameters := foldl_narrow parameterCount parameterCount? (fun c k => by cases k <;> rfl) chain { isStatic }
  have harguments := foldl_narrow argumentCount argumentCount? (fun c k => by cases k <;> rfl) chain { isStatic }
  have hstatic := isStatic_narrowAll chain { isStatic }
  simp only [Option.or_none] at howner hname hparameters harguments
  rcases h : narrowAll { isStatic } chain with ⟨_, _, _, _, _⟩
  rw [h] at howner hname hparameters harguments hstatic
  subst howner hname hparameters harguments hstatic
  rfl

theorem narrow_comm (c : CallPattern) {k l : CallConstraint} (h : k.aspect ≠ l.aspect) :
    (c.narrow k).narrow l = (c.narrow l).narrow k := by
  cases k <;> cases l <;> first | rfl | exact absurd rfl h

theorem narrowAll_swap (c : CallPattern) (before after : List CallConstraint) {k l : CallConstraint}
    (h : k.aspect ≠ l.aspect) : c.narrowAll (before ++ k :: l :: after) = c.narrowAll (before ++ l :: k :: after) := by
  unfold narrowAll
  rw [List.foldl_append, List.foldl_append, List.foldl_cons, List.foldl_cons, List.foldl_cons, List.foldl_cons,
    narrow_comm _ h]

/-! ## Owners -/

/-- The types that a call of a method can be owned by: that of the receiver, and that of the declaring class. -/
def owners (n : Node) (s : Symbol) : List TypeRef :=
  (n.receiver.bind (·.resolvedType)).toList ++ (s.enclosingClass.bind (·.type)).toList

end CallPattern

open CallPattern

/-- A call of a method is owned as a constraint asks for: by a type of just that name, or by one that is told to
be a descendant. The type of the receiver is asked about first. -/
def OwnerConstraint.Owns (r : Resolver) (n : Node) (s : Symbol) : OwnerConstraint → Prop
  | ⟨type, true⟩ => ∃ t ∈ owners n s, t.erasure = type
  | ⟨type, false⟩ =>
    let receiver := Resolver.isSubtypeOfName (n.receiver.bind (·.resolvedType)) type r
    receiver.1 = true ∨ (Resolver.isSubtypeOfName (s.enclosingClass.bind (·.type)) type receiver.2).1 = true

namespace OwnerConstraint

variable {family : TypeRef → Prop} {type : String}

/-- In a family of types, the descendants are those that the type is reached from. -/
theorem owns_iff_reaches (hf : IsTypeFamily family) (hr : r.AskedWithin family) (h : ∀ t ∈ owners n s, family t) :
    Owns r n s ⟨type, false⟩ ↔ ∃ t ∈ owners n s, ∃ u, t.Reaches u ∧ u.erasure = type := by
  have htold (t : Option TypeRef) (ht : ∀ x ∈ t, family x) {r : Resolver} (hr : r.AskedWithin family) :
      (Resolver.isSubtypeOfName t type r).1 = true ↔ ∃ x ∈ t.toList, ∃ u, x.Reaches u ∧ u.erasure = type := by
    cases t with
    | none => exact iff_of_false Bool.false_ne_true (by simp)
    | some t => simpa using Resolver.isSubtypeOfName_iff hf hr (ht t rfl)
  have hreceiver : ∀ t ∈ n.receiver.bind (·.resolvedType), family t := fun t ht =>
    h t (List.mem_append_left _ (Option.mem_toList.2 ht))
  have hdeclaring : ∀ t ∈ s.enclosingClass.bind (·.type), family t := fun t ht =>
    h t (List.mem_append_right _ (Option.mem_toList.2 ht))
  unfold Owns owners
  simp only [htold _ hreceiver hr, htold _ hdeclaring (hr.isSubtypeOfName hreceiver), List.mem_append, or_and_right,
    exists_or]

/-- Whatever was asked before, a type is told to go by its own name. -/
theorem mem_closureOf_self (hr : r.AskedWithin fun _ => True) (t : TypeRef) : t.erasure ∈ r.closureOf t := by
  have hstep {r : Resolver} (ih : ∀ t : TypeRef, t.erasure ∈ r.closureOf t) (u t : TypeRef) :
      t.erasure ∈ (Resolver.supertypeNames u r).2.closureOf t := by
    rw [Resolver.closureOf_supertypeNames]
    split
    · rename_i hkey
      rw [← erasure_eq_of_key hkey]
      exact ih u
    · exact ih t
  induction hr generalizing t with
  | fresh => exact mem_closure_of_queue List.mem_cons_self
  | @supertypeNames r u _ _ ih => exact hstep ih u t
  | @isSubtype r u v _ _ ih =>
    cases v with
    | none => exact ih t
    | some v =>
      cases u with
      | none => exact ih t
      | some u => exact hstep ih u t
  | @isSubtypeOfName r u name _ _ ih =>
    cases u with
    | none => exact ih t
    | some u => exact hstep ih u t
  | @generatedBy r a _ ih =>
    cases a with
    | none => exact ih t
    | some a =>
      rw [Resolver.closureOf_generatedBy]
      exact ih t

/-- Who is of just the type is told to descend from it. -/
theorem Owns.descends {r' : Resolver} (hr : r'.AskedWithin fun _ => True) (h : Owns r n s ⟨type, true⟩) :
    Owns r' n s ⟨type, false⟩ := by
  have htold (t : TypeRef) {r : Resolver} (hr : r.AskedWithin fun _ => True) :
      (Resolver.isSubtypeOfName (some t) t.erasure r).1 = true := by
    rw [Resolver.isSubtypeOfName_apply]
    exact NameSet.contains_iff.2 (mem_closureOf_self hr t)
  obtain ⟨t, ht, rfl⟩ := h
  rcases List.mem_append.1 ht with ht | ht <;> rw [Option.mem_toList] at ht <;> unfold Owns <;> rw [ht]
  · exact .inl (htold t hr)
  · exact .inr (htold t (hr.isSubtypeOfName fun _ _ => trivial))

end OwnerConstraint

/-! ## Matches -/

namespace CallPattern

/-- The declaring class is asked about only if the receiver does not fit. -/
theorem ownedBy_orElse (o : OwnerConstraint) (n : Node) (s : Symbol) (r : Resolver) :
    ((do
      if ← ownedBy o (n.receiver.bind (·.resolvedType)) then return true
      ownedBy o (s.enclosingClass.bind (·.type)) : Query Bool) r).1 = true ↔ o.Owns r n s := by
  have hbind (q p : Query Bool) : ((do
      if ← q then return true
      p : Query Bool) r).1 = true ↔ (q r).1 = true ∨ (p (q r).2).1 = true := by
    change ((if (q r).1 = true then pure true else p : Query Bool) (q r).2).1 = true ↔ _
    split
    · exact iff_of_true rfl (.inl ‹_›)
    · exact (or_iff_right ‹_›).symm
  obtain ⟨type, _ | _⟩ := o
  · exact hbind _ _
  · have hexactly (t : Option TypeRef) (r : Resolver) :
        (ownedBy ⟨type, true⟩ t r).1 = true ↔ ∃ u ∈ t.toList, u.erasure = type := by
      change t.any (fun u => decide (u.erasure = type)) = true ↔ _
      cases t <;> simp
    rw [hbind, hexactly, hexactly]
    simp only [OwnerConstraint.Owns, owners, List.mem_append, or_and_right, exists_or]

/-- A call that a pattern admits but for the owner is a match just if the owner is the one asked for. -/
theorem isMatch_of_admits (h : c.Admits n s) (r : Resolver) :
    (c.isMatch n r).1 = true ↔ ∀ o ∈ c.owner, o.Owns r n s := by
  have hany {β : Type} [DecidableEq β] {o : Option β} {b : β} (heq : ∀ a ∈ o, b = a) : ¬ o.any (· ≠ b) = true := by
    cases o with
    | none => exact Bool.false_ne_true
    | some a => simp [heq a rfl]
  unfold isMatch
  rw [if_neg (not_not.2 h.kind), h.method]
  dsimp only
  rw [if_neg (not_not.2 h.isStatic), if_neg (hany h.name), if_neg (hany h.parameters), if_neg (hany h.arguments)]
  cases c.owner with
  | none => exact iff_of_true rfl nofun
  | some o =>
    refine (ownedBy_orElse o n s r).trans ⟨fun howns _ ho => ?_, fun howns => howns o rfl⟩
    cases ho
    exact howns

theorem isMatch_iff (c : CallPattern) (n : Node) (r : Resolver) :
    (c.isMatch n r).1 = true ↔ ∃ s, c.Admits n s ∧ ∀ o ∈ c.owner, o.Owns r n s := by
  constructor
  · intro h
    obtain ⟨s, hadmits⟩ := admits_of_isMatch h
    exact ⟨s, hadmits, (isMatch_of_admits hadmits r).1 h⟩
  · rintro ⟨s, hadmits, howner⟩
    exact (isMatch_of_admits hadmits r).2 howner

/-- A call of the method is what a chain of constraints asks for. -/
structure Meets (chain : List CallConstraint) (r : Resolver) (n : Node) (s : Symbol) : Prop where
  owner : ∀ o ∈ last owner? chain, o.Owns r n s
  name : ∀ name ∈ last name? chain, s.name = name
  parameters : ∀ count ∈ last parameterCount? chain, (s.parameters.length : Int) = count
  arguments : ∀ count ∈ last argumentCount? chain, (n.arguments.length : Int) = count

theorem isMatch_narrowAll_iff (isStatic : Bool) (chain : List CallConstraint) (n : Node) (r : Resolver) :
    ((narrowAll { isStatic } chain).isMatch n r).1 = true ↔
      n.kind = .invocation ∧ ∃ s, n.symbol.or (n.callee.bind (·.symbol)) = some s ∧
        (s.kind = .method ∨ s.kind = .constructor) ∧ s.isStatic = isStatic ∧ Meets chain r n s := by
  have hmethod (s : Symbol) : method? n = some s ↔
      n.symbol.or (n.callee.bind (·.symbol)) = some s ∧ (s.kind = .method ∨ s.kind = .constructor) := by
    unfold method?
    rw [Option.filter_eq_some_iff]
    refine and_congr_right fun _ => ?_
    cases s.kind <;> simp [SymbolKind.isMethod]
  rw [isMatch_iff, narrowAll_eq]
  constructor
  · rintro ⟨s, hadmits, howner⟩
    obtain ⟨hs, hkind⟩ := (hmethod s).1 hadmits.method
    exact ⟨hadmits.kind, s, hs, hkind, hadmits.isStatic,
      ⟨howner, hadmits.name, hadmits.parameters, hadmits.arguments⟩⟩
  · rintro ⟨hinvocation, s, hs, hkind, hstatic, hmeets⟩
    exact ⟨s, ⟨hinvocation, (hmethod s).2 ⟨hs, hkind⟩, hstatic, hmeets.name, hmeets.parameters, hmeets.arguments⟩,
      hmeets.owner⟩

/-! ## Chains that differ in one constraint -/

section Differ

variable {before after : List CallConstraint} {k : CallConstraint} {what : CallConstraint → Option α}

theorem last_insert (h : what k = none) : last what (before ++ k :: after) = last what (before ++ after) := by
  unfold last
  rw [List.filterMap_append, List.filterMap_append, List.filterMap_cons_none h]

/-- With a constraint on a new aspect, a chain asks for all that it asks for without. -/
theorem mem_last_insert (a : Aspect) (hwhat : ∀ l : CallConstraint, l.aspect ≠ a → what l = none)
    (hnew : ∀ l ∈ before ++ after, l.aspect ≠ k.aspect) {x : α} (hx : x ∈ last what (before ++ after)) :
    x ∈ last what (before ++ k :: after) := by
  by_cases hk : k.aspect = a
  · -- nothing else in the chain is on this aspect
    have hnone : (before ++ after).filterMap what = [] :=
      List.filterMap_eq_nil_iff.2 fun l hl => hwhat l (hk ▸ hnew l hl)
    rw [last, hnone] at hx
    cases hx
  · rwa [last_insert (hwhat k hk)]

theorem Meets.of_insert (hnew : ∀ l ∈ before ++ after, l.aspect ≠ k.aspect) (h : Meets (before ++ k :: after) r n s) :
    Meets (before ++ after) r n s where
  owner o ho := h.owner o (mem_last_insert .owner (fun _ => owner?_of_aspect) hnew ho)
  name x hx := h.name x (mem_last_insert .name (fun _ => name?_of_aspect) hnew hx)
  parameters x hx := h.parameters x (mem_last_insert .parameterCount (fun _ => parameterCount?_of_aspect) hnew hx)
  arguments x hx := h.arguments x (mem_last_insert .argumentCount (fun _ => argumentCount?_of_aspect) hnew hx)

theorem last_of_last {x : α} (hk : what k = some x) (hafter : ∀ l ∈ after, what l = none) :
    last what (before ++ k :: after) = some x := by
  unfold last
  rw [List.filterMap_append, List.filterMap_cons_some hk, List.filterMap_eq_nil_iff.2 hafter, List.getLast?_concat]

/-- A chain with the last owner given as an exact class asks for no less than the chain with its descendants. -/
theorem Meets.of_exact {type : String} {r' : Resolver} (hr : r'.AskedWithin fun _ => True)
    (hafter : ∀ l ∈ after, owner? l = none) (h : Meets (before ++ onExactClass type :: after) r n s) :
    Meets (before ++ onDescendantOf type :: after) r' n s where
  owner o ho := by
    have hlast : last owner? (before ++ onDescendantOf type :: after) = some ⟨type, false⟩ := last_of_last rfl hafter
    rw [hlast] at ho
    cases ho
    exact (h.owner ⟨type, true⟩ (last_of_last rfl hafter)).descends hr
  name x hx := h.name x (by rwa [last_insert rfl] at hx ⊢)
  parameters x hx := h.parameters x (by rwa [last_insert rfl] at hx ⊢)
  arguments x hx := h.arguments x (by rwa [last_insert rfl] at hx ⊢)

end Differ

/-- A call pattern that was built by a chain of constraints matches a node just if it is an invocation whose own
symbol, or else that of its callee, is a method or constructor of the staticness chosen, and the last constraint on
the owner, on the name, on the number of parameters and on the number of arguments holds. Constraints on different
aspects may change places, and one on a new aspect takes matches away at most. With the descendants of a type in
place of just the type, as the last owner asked for, no match is lost, whatever was asked before; and in a family of
types those are descendants from which the type is reached. -/
theorem isMatch_narrowAll (isStatic : Bool) :
    (∀ chain n r, ((narrowAll { isStatic } chain).isMatch n r).1 = true ↔
      n.kind = .invocation ∧ ∃ s, n.symbol.or (n.callee.bind (·.symbol)) = some s ∧
        (s.kind = .method ∨ s.kind = .constructor) ∧ s.isStatic = isStatic ∧
        (∀ o ∈ last owner? chain, o.Owns r n s) ∧ (∀ name ∈ last name? chain, s.name = name) ∧
        (∀ count ∈ last parameterCount? chain, (s.parameters.length : Int) = count) ∧
        ∀ count ∈ last argumentCount? chain, (n.arguments.length : Int) = count) ∧
    (∀ before after k l, aspect k ≠ aspect l → narrowAll { isStatic } (before ++ k :: l :: after) =
      narrowAll { isStatic } (before ++ l :: k :: after)) ∧
    (∀ before after k, (∀ l ∈ before ++ after, aspect l ≠ aspect k) → ∀ n r,
      ((narrowAll { isStatic } (before ++ k :: after)).isMatch n r).1 = true →
        ((narrowAll { isStatic } (before ++ after)).isMatch n r).1 = true) ∧
    (∀ before after type, (∀ l ∈ after, aspect l ≠ .owner) → ∀ n r r', r'.AskedWithin (fun _ => True) →
      ((narrowAll { isStatic } (before ++ onExactClass type :: after)).isMatch n r).1 = true →
        ((narrowAll { isStatic } (before ++ onDescendantOf type :: after)).isMatch n r').1 = true) ∧
    ∀ family, IsTypeFamily family → ∀ r, r.AskedWithin family → ∀ n s type, (∀ t ∈ owners n s, family t) →
      (OwnerConstraint.Owns r n s ⟨type, false⟩ ↔ ∃ t ∈ owners n s, ∃ u, t.Reaches u ∧ u.erasure = type) := by
  refine ⟨fun chain n r => ?_, fun before after k l h => narrowAll_swap _ before after h,
    fun before after k hnew n r => ?_, fun before after type hafter n r r' hr => ?_,
    fun family hf r hr n s type h => OwnerConstraint.owns_iff_reaches hf hr h⟩
  · rw [isMatch_narrowAll_iff]
    refine and_congr_right fun _ => exists_congr fun s => and_congr_right fun _ => and_congr_right fun _ =>
      and_congr_right fun _ => ?_
    exact ⟨fun h => ⟨h.owner, h.name, h.parameters, h.arguments⟩,
      fun ⟨howner, hname, hparameters, harguments⟩ => ⟨howner, hname, hparameters, harguments⟩⟩
  · rw [isMatch_narrowAll_iff, isMatch_narrowAll_iff]
    rintro ⟨hkind, s, hs, hmethod, hstatic, hmeets⟩
    exact ⟨hkind, s, hs, hmethod, hstatic, hmeets.of_insert hnew⟩
  · rw [isMatch_narrowAll_iff, isMatch_narrowAll_iff]
    rintro ⟨hkind, s, hs, hmethod, hstatic, hmeets⟩
    exact ⟨hkind, s, hs, hmethod, hstatic, hmeets.of_exact hr fun l hl => owner?_of_aspect (hafter l hl)⟩

/-- A method of sized things. -/
def lengthMethod : Symbol :=
  { name := "__len__", kind := .method, owner := some { name := "Sized", kind := .classDecl, type := some .sized } }

/-- A call of it on a sequence of numbers. -/
def lengthCall : Node :=
  let sequence : Node := { id := 2, kind := .identifier, type := some (.sequence { qualifiedName := "int" }) }
  let callee : Node := { id := 1, kind := .memberAccess, symbol := some lengthMethod, children := [sequence] }
  { id := 0, kind := .invocation, children := [callee] }

/-- Two owners are asked for, and the last one stands. After a question about sequences of texts, a call on a
sequence of numbers is still found to be one on something iterable, though not on just that. -/
theorem isMatch_narrowAll_length :
    let chain := [withNoParameters, withNoArguments, onExactClass "Sequence", named "__len__"]
    let asked := (Resolver.supertypeNames (.sequence { qualifiedName := "str" }) {}).2
    asked.AskedWithin (· ∈ TypeRef.sequences) ∧
    ((narrowAll { isStatic := false } (chain ++ [onExactClass "Sized"])).isMatch lengthCall {}).1 = true ∧
    ((narrowAll { isStatic := false } (chain ++ [onDescendantOf "Sized"])).isMatch lengthCall asked).1 = true ∧
    ((narrowAll { isStatic := false } (chain ++ [onExactClass "Iterable"])).isMatch lengthCall {}).1 = false ∧
    ((narrowAll { isStatic := false } (chain ++ [onDescendantOf "Iterable"])).isMatch lengthCall asked).1 = true := by
  intro chain asked
  obtain ⟨hmatch, -, -, hreplace, hfamily⟩ := isMatch_narrowAll false
  have hasked : asked.AskedWithin (· ∈ TypeRef.sequences) := .supertypeNames (.fresh _) (by simp [TypeRef.sequences])
  have hanything : asked.AskedWithin fun _ => True := .supertypeNames (.fresh _) trivial
  -- the call meets all that such a chain asks for besides the owner
  have hmeets (k : CallConstraint) (o : OwnerConstraint) (r : Resolver) (howner : last owner? (chain ++ [k]) = some o)
      (hname : last name? (chain ++ [k]) = some "__len__") (hparameters : last parameterCount? (chain ++ [k]) = some 0)
      (harguments : last argumentCount? (chain ++ [k]) = some 0) :
      ((narrowAll { isStatic := false } (chain ++ [k])).isMatch lengthCall r).1 = true ↔
        o.Owns r lengthCall lengthMethod := by
    rw [hmatch, howner, hname, hparameters, harguments]
    constructor
    · rintro ⟨-, s, hs, -, -, howns, -⟩
      cases hs
      exact howns o rfl
    · intro howns
      refine ⟨rfl, lengthMethod, rfl, .inl rfl, rfl, fun _ ho => ?_, fun _ h => Option.some.inj h,
        fun _ h => Option.some.inj h, fun _ h => Option.some.inj h⟩
      cases ho
      exact howns
  have howners (t : TypeRef) : t ∈ owners lengthCall lengthMethod ↔
      t = .sequence { qualifiedName := "int" } ∨ t = .sized := by
    change t ∈ [TypeRef.sequence { qualifiedName := "int" }, .sized] ↔ _
    simp
  have hexact : ((narrowAll { isStatic := false } (chain ++ [onExactClass "Sized"])).isMatch lengthCall {}).1 = true :=
    (hmeets _ ⟨"Sized", true⟩ {} rfl rfl rfl rfl).2 ⟨.sized, (howners _).2 (.inr rfl), rfl⟩
  refine ⟨hasked, hexact, hreplace chain [] "Sized" (List.forall_mem_nil _) lengthCall {} asked hanything hexact, ?_, ?_⟩
  · rw [← Bool.not_eq_true, hmeets _ ⟨"Iterable", true⟩ {} rfl rfl rfl rfl]
    rintro ⟨t, ht, hname⟩
    rcases (howners t).1 ht with rfl | rfl <;> exact absurd hname (by decide)
  · refine (hmeets _ ⟨"Iterable", false⟩ asked rfl rfl rfl rfl).2 ?_
    rw [hfamily _ TypeRef.sequences_family asked hasked lengthCall lengthMethod "Iterable" fun t ht => by
      rcases (howners t).1 ht with rfl | rfl <;> simp [TypeRef.sequences]]
    have hcollection : TypeRef.collection { qualifiedName := "int" } ∈
      (TypeRef.sequence { qualifiedName := "int" }).supertypes := List.mem_cons_self
    have hiterable : TypeRef.iterable ∈ (TypeRef.collection { qualifiedName := "int" }).supertypes :=
      List.mem_cons_of_mem _ List.mem_cons_self
    exact ⟨_, (howners _).2 (.inl rfl), .iterable, .head hcollection (.single hiterable), rfl⟩

end CallPattern

end TreeLint
