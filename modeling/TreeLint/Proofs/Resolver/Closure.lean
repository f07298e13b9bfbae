/-
The search through the supertypes of a type. It meets the names it starts from, and none besides where
they have all been met.
-/
import TreeLint.Resolver

namespace TreeLint

variable {met : NameSet} {queue : List TypeRef}

theorem erasure_eq_of_key {s t : TypeRef} (h : s.key = t.key) : s.erasure = t.erasure := by
  cases s
  cases t
  exact congrArg TypeKey.name h

theorem mem_closure_of_met {name : String} (h : name ∈ met) : name ∈ supertypeClosure met queue := by
  fun_induction supertypeClosure met queue with
  | case1 => exact h
  | case2 _ _ _ _ ih => exact ih h
  | case3 _ _ _ _ ih => exact ih (NameSet.mem_insert.2 (.inr h))

theorem mem_closure_of_queue {t : TypeRef} (h : t ∈ queue) : t.erasure ∈ supertypeClosure met queue := by
  fun_induction supertypeClosure met queue with
  | case1 => cases h
  | case2 met u queue hmet ih =>
    rcases List.mem_cons.1 h with rfl | h
    · exact mem_closure_of_met (NameSet.contains_iff.1 hmet)
    · exact ih h
  | case3 met u queue hmet ih =>
    rcases List.mem_cons.1 h with rfl | h
    · exact mem_closure_of_met (NameSet.mem_insert.2 (.inl rfl))
    · exact ih (List.mem_append_left _ h)

/-- Where the names that a search starts from have all been met, it ends there. -/
theorem closure_of_met (h : ∀ t ∈ queue, t.erasure ∈ met) : supertypeClosure met queue = met := by
  fun_induction supertypeClosure met queue with
  | case1 => rfl
  | case2 met u queue hmet ih => exact ih fun t ht => h t (List.mem_cons_of_mem u ht)
  | case3 met u queue hmet ih => exact absurd (NameSet.contains_iff.2 (h u List.mem_cons_self)) hmet

/-- A type goes by its own name first, and then by those of its supertypes. -/
theorem closure_singleton (t : TypeRef) :
    supertypeClosure ∅ [t] = supertypeClosure (NameSet.insert ∅ t.erasure) t.supertypes := by
  rw [supertypeClosure]
  exact if_neg Bool.false_ne_true

/-- A type tells as much as its name alone just if its supertypes have no other name. -/
theorem closure_eq_bare_iff (t : TypeRef) :
    supertypeClosure ∅ [t] = supertypeClosure ∅ [{ qualifiedName := t.erasure }] ↔
      ∀ s ∈ t.supertypes, s.erasure = t.erasure := by
  have hbare : supertypeClosure ∅ [{ qualifiedName := t.erasure }] = NameSet.insert ∅ t.erasure := by
    rw [closure_singleton]
    exact closure_of_met (List.forall_mem_nil _)
  rw [hbare, closure_singleton]
  refine ⟨fun h s hs => ?_, fun h => closure_of_met fun s hs => NameSet.mem_insert.2 (.inl (h s hs))⟩
  have hmem : s.erasure ∈ supertypeClosure (NameSet.insert ∅ t.erasure) t.supertypes := mem_closure_of_queue hs
  rw [h, NameSet.mem_insert] at hmem
  exact hmem.resolve_right (NameSet.not_mem_empty s.erasure)

end TreeLint
