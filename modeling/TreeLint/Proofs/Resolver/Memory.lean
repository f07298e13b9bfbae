/-
What the resolver remembers: a question that was answered is answered from memory, another one afresh,
and its answer is remembered from then on, for all that share the identity of what was asked about.
-/
import TreeLint.Resolver

namespace TreeLint.Resolver

/-- The names that a resolver tells for a type. -/
def closureOf (r : Resolver) (t : TypeRef) : NameSet :=
  (r.closure? t.key).getD (supertypeClosure ∅ [t])

/-- The mechanisms that a resolver tells for a symbol. -/
def mechanismsOf (r : Resolver) (s : Symbol) : NameSet :=
  (r.mechanisms? s.key).getD (r.provenance s)

/-! ## Asking about a type -/

/-- The resolver once the names of a type and its supertypes are remembered. -/
def rememberClosure (r : Resolver) (k : TypeKey) (names : NameSet) : Resolver :=
  { r with closures := (k, names) :: r.closures }

theorem closure?_remember (r : Resolver) (k l : TypeKey) (names : NameSet) :
    (r.rememberClosure k names).closure? l = if k = l then some names else r.closure? l := by
  unfold rememberClosure closure?
  by_cases h : k = l <;> simp [h]

theorem supertypeNames_apply (t : TypeRef) (r : Resolver) :
    supertypeNames t r = match r.closure? t.key with
      | some names => (names, r)
      | none => (supertypeClosure ∅ [t], r.rememberClosure t.key (supertypeClosure ∅ [t])) := by
  show (match r.closure? t.key with
      | some names => pure names
      | none => do
        modify fun r => r.rememberClosure t.key (supertypeClosure ∅ [t])
        return supertypeClosure ∅ [t] : Query NameSet) r = _
  cases r.closure? t.key <;> rfl

theorem supertypeNames_answer (t : TypeRef) (r : Resolver) : (supertypeNames t r).1 = r.closureOf t := by
  rw [supertypeNames_apply]
  unfold closureOf
  cases r.closure? t.key <;> rfl

theorem closureOf_supertypeNames (t u : TypeRef) (r : Resolver) :
    (supertypeNames t r).2.closureOf u = if t.key = u.key then r.closureOf t else r.closureOf u := by
  rw [supertypeNames_apply]
  unfold closureOf
  cases h : r.closure? t.key with
  | some names =>
    dsimp only
    split
    · rename_i hkey
      rw [← hkey, h]
      rfl
    · rfl
  | none =>
    dsimp only
    rw [closure?_remember]
    split <;> rfl

theorem mechanismsOf_supertypeNames (t : TypeRef) (s : Symbol) (r : Resolver) :
    (supertypeNames t r).2.mechanismsOf s = r.mechanismsOf s := by
  rw [supertypeNames_apply]
  cases r.closure? t.key <;> rfl

theorem provenance_supertypeNames (t : TypeRef) (r : Resolver) :
    (supertypeNames t r).2.provenance = r.provenance := by
  rw [supertypeNames_apply]
  cases r.closure? t.key <;> rfl

/-! ## Asking about a symbol -/

/-- The resolver once the mechanisms of a symbol are remembered. -/
def rememberMechanisms (r : Resolver) (k : SymbolKey) (names : NameSet) : Resolver :=
  { r with mechanisms := (k, names) :: r.mechanisms }

theorem mechanisms?_remember (r : Resolver) (k l : SymbolKey) (names : NameSet) :
    (r.rememberMechanisms k names).mechanisms? l = if k = l then some names else r.mechanisms? l := by
  unfold rememberMechanisms mechanisms?
  by_cases h : k = l <;> simp [h]

theorem generatedBy_apply (s : Symbol) (r : Resolver) :
    generatedBy (some s) r = match r.mechanisms? s.key with
      | some names => (names, r)
      | none => (r.provenance s, r.rememberMechanisms s.key (r.provenance s)) := by
  show (match r.mechanisms? s.key with
      | some names => pure names
      | none => do
        let names := (← get).provenance s
        modify fun r => r.rememberMechanisms s.key names
        return names : Query NameSet) r = _
  cases r.mechanisms? s.key <;> rfl

theorem generatedBy_answer (s : Symbol) (r : Resolver) : (generatedBy (some s) r).1 = r.mechanismsOf s := by
  rw [generatedBy_apply]
  unfold mechanismsOf
  cases r.mechanisms? s.key <;> rfl

theorem mechanismsOf_generatedBy (s u : Symbol) (r : Resolver) :
    (generatedBy (some s) r).2.mechanismsOf u = if s.key = u.key then r.mechanismsOf s else r.mechanismsOf u := by
  rw [generatedBy_apply]
  unfold mechanismsOf
  cases h : r.mechanisms? s.key with
  | some names =>
    dsimp only
    split
    · rename_i hkey
      rw [← hkey, h]
      rfl
    · rfl
  | none =>
    dsimp only
    rw [mechanisms?_remember]
    split <;> rfl

theorem closureOf_generatedBy (s : Symbol) (t : TypeRef) (r : Resolver) :
    (generatedBy (some s) r).2.closureOf t = r.closureOf t := by
  rw [generatedBy_apply]
  cases r.mechanisms? s.key <;> rfl

theorem provenance_generatedBy (s : Symbol) (r : Resolver) :
    (generatedBy (some s) r).2.provenance = r.provenance := by
  rw [generatedBy_apply]
  cases r.mechanisms? s.key <;> rfl

end TreeLint.Resolver
