/-
Requests to a registry, carried out one after the other and gone on with after each that fails. What was
registered has ids of its own; a registration that fails leaves no trace; and from the first freeze on there is
one set of rules, in which the rules of a kind and the rule with an id are those that were registered. Main
statement: `carryOutAll_history`.
-/
import TreeLint.Proofs.Attempt
import TreeLint.Proofs.Rule.Registry

namespace TreeLint.Registry

/-- What a registry is asked for. Whatever is read is read from the set that a freeze gives. -/
inductive Request
  | register (r : Rule)
  | freeze
  | forKind (kind : NodeKind)
  | find (id : String)
  | ids

/-- What a request comes to. -/
inductive Answer
  | registered
  | set (s : RuleSet)
  | rules (rs : List Rule)
  | rule (r : Option Rule)
  | ids (ids : List String)

/-- Whether a request needs the set of the rules, so that no rule can be registered after it. -/
def Request.freezes : Request → Bool
  | .register _ => false
  | _ => true

/-- Carries out a request. -/
def Request.carryOut : Request → Attempt Registry Answer
  | .register r => (fun _ => .registered) <$> Registry.register r
  | .freeze => .set <$> Registry.freeze
  | .forKind kind => (fun s => .rules (s.forKind kind)) <$> Registry.freeze
  | .find id => (fun s => .rule (s.get? id)) <$> Registry.freeze
  | .ids => (fun s => .ids s.ids) <$> Registry.freeze

/-- Carries out requests in turn, and goes on after each that fails. -/
def carryOutAll : List Request → Registry → List (Except Fault Answer) × Registry
  | [], s => ([], s)
  | q :: rest, s =>
    let (answer, s) := q.carryOut s
    let (answers, s) := carryOutAll rest s
    (answer :: answers, s)

/-- The rules that were registered, told by the answers to the requests. -/
def accepted (requests : List Request) (answers : List (Except Fault Answer)) : List Rule :=
  (requests.zip answers).filterMap fun
    | (.register r, .ok _) => some r
    | _ => none

variable {s : Registry} {r : Rule} {q : Request} {view : RuleSet}

/-! ## One request -/

/-- The set that a freeze gives. -/
def frozenSet (s : Registry) : RuleSet := s.view.getD (.ofRules s.rules)

theorem freeze_apply (s : Registry) : freeze s = (.ok s.frozenSet, { s with view := some s.frozenSet }) := by
  unfold freeze frozenSet
  rw [Attempt.bind_apply, Attempt.state_apply]
  rcases s with ⟨rules, _ | view⟩ <;> rfl

/-- A rule that a registry cannot take. -/
def Refuses (s : Registry) (r : Rule) : Prop :=
  s.view.isSome ∨ r.kinds = [] ∨ r.id ∈ s.rules.map (·.id)

theorem register_refused (h : s.Refuses r) : ∃ f, register r s = (.error f, s) := by
  rcases s with ⟨rules, _ | view⟩
  · rw [register_apply]
    by_cases hkinds : r.kinds = []
    · exact ⟨_, if_pos hkinds⟩
    · have hid : r.id ∈ rules.map (·.id) := by simpa [Refuses, hkinds] using h
      exact ⟨_, by rw [if_neg hkinds, if_pos hid]⟩
  · exact ⟨.registryFrozen r.id, by simp [register, Attempt.bind_apply]⟩

theorem register_taken (h : ¬ s.Refuses r) :
    s.view = none ∧ r.kinds ≠ [] ∧ r.id ∉ s.rules.map (·.id) ∧
      register r s = (.ok (), { s with rules := s.rules ++ [r] }) := by
  rcases s with ⟨rules, _ | view⟩
  · obtain ⟨hkinds, hid⟩ : r.kinds ≠ [] ∧ r.id ∉ rules.map (·.id) := by simpa [Refuses] using h
    exact ⟨rfl, hkinds, hid, by rw [register_apply, if_neg hkinds, if_neg hid]⟩
  · simp [Refuses] at h

theorem register_fails_iff : (∃ f, (register r s).1 = .error f) ↔ s.Refuses r := by
  constructor
  · rintro ⟨f, hf⟩
    by_contra h
    rw [(register_taken h).2.2.2] at hf
    cases hf
  · intro h
    obtain ⟨f, hf⟩ := register_refused h
    exact ⟨f, by rw [hf]⟩

theorem Request.carryOut_register (r : Rule) (s : Registry) :
    (Request.register r).carryOut s = ((Registry.register r s).1.map fun _ => .registered, (Registry.register r s).2) :=
  Attempt.map_apply _ _ s

theorem Request.carryOut_freezes (h : q.freezes) (s : Registry) :
    ∃ a, q.carryOut s = (.ok a, { s with view := some s.frozenSet }) := by
  have hmap (f : RuleSet → Answer) :
      (f <$> Registry.freeze) s = (.ok (f s.frozenSet), { s with view := some s.frozenSet }) := by
    rw [Attempt.map_apply, freeze_apply]
    rfl
  cases q with
  | register r => cases h
  | _ => exact ⟨_, hmap _⟩

/-- All that a request can do: a registration that is refused leaves the registry as it was, one that is taken
adds its rule to a registry that is open, and every other request freezes the registry. -/
theorem Request.carryOut_cases (q : Request) (s : Registry) :
    (∃ r f, q = .register r ∧ q.carryOut s = (.error f, s)) ∨
      (∃ r, q = .register r ∧ ¬ s.Refuses r ∧
        q.carryOut s = (.ok .registered, { s with rules := s.rules ++ [r] })) ∨
      q.freezes ∧ ∃ a, q.carryOut s = (.ok a, { s with view := some s.frozenSet }) := by
  by_cases hq : q.freezes
  · exact .inr (.inr ⟨hq, carryOut_freezes hq s⟩)
  · obtain ⟨r, rfl⟩ : ∃ r, q = .register r := by
      cases q with
      | register r => exact ⟨r, rfl⟩
      | _ => exact absurd rfl hq
    rw [carryOut_register]
    by_cases h : s.Refuses r
    · obtain ⟨f, hf⟩ := register_refused h
      exact .inl ⟨r, f, rfl, by rw [hf]; rfl⟩
    · obtain ⟨-, -, -, htaken⟩ := register_taken h
      exact .inr (.inl ⟨r, rfl, h, by rw [htaken]; rfl⟩)

/-- A frozen registry stays as it is. -/
theorem Request.carryOut_frozen (q : Request) (h : s.view = some view) : (q.carryOut s).2 = s := by
  obtain ⟨r, f, -, hq⟩ | ⟨r, -, htaken, -⟩ | ⟨-, a, hq⟩ := q.carryOut_cases s
  · rw [hq]
  · simp [Refuses, h] at htaken
  · rw [hq, frozenSet, h]
    exact congrArg (Registry.mk s.rules) h.symm

/-- A registry in which the rules can stand together, and whose set is that of its rules. -/
structure Sound (s : Registry) : Prop where
  admissible : Admissible s.rules
  view : ∀ view ∈ s.view, view = .ofRules s.rules

theorem Sound.frozenSet_eq (h : s.Sound) : s.frozenSet = .ofRules s.rules := by
  rcases hview : s.view with _ | view
  · simp [frozenSet, hview]
  · simpa [frozenSet, hview] using h.view view hview

theorem Sound.carryOut (h : s.Sound) (q : Request) : (q.carryOut s).2.Sound := by
  obtain ⟨r, f, -, hq⟩ | ⟨r, -, htaken, hq⟩ | ⟨-, a, hq⟩ := q.carryOut_cases s <;> rw [hq]
  · exact h
  · obtain ⟨hopen, hkinds, hid, -⟩ := register_taken htaken
    exact ⟨(h.admissible.register r).2 ⟨hkinds, hid⟩, by simp [hopen]⟩
  · exact ⟨h.admissible, by simp [h.frozenSet_eq]⟩

theorem Request.rules_carryOut (q : Request) (s : Registry) :
    (q.carryOut s).2.rules = s.rules ++ accepted [q] [(q.carryOut s).1] := by
  obtain ⟨r, f, rfl, hq⟩ | ⟨r, rfl, -, hq⟩ | ⟨hfreezes, a, hq⟩ := q.carryOut_cases s <;> rw [hq]
  · simp [accepted]
  · simp [accepted]
  · cases q <;> simp [accepted, Request.freezes] at hfreezes ⊢

theorem Request.frozen_carryOut (q : Request) (s : Registry) :
    (q.carryOut s).2.view.isSome ↔ s.view.isSome ∨ q.freezes := by
  obtain ⟨r, f, rfl, hq⟩ | ⟨r, rfl, -, hq⟩ | ⟨hfreezes, a, hq⟩ := q.carryOut_cases s <;> rw [hq]
  · simp [Request.freezes]
  · simp [Request.freezes]
  · simp [hfreezes]

/-! ## Requests in turn -/

theorem carryOutAll_append (qs more : List Request) (s : Registry) :
    carryOutAll (qs ++ more) s =
      ((carryOutAll qs s).1 ++ (carryOutAll more (carryOutAll qs s).2).1,
        (carryOutAll more (carryOutAll qs s).2).2) := by
  induction qs generalizing s with
  | nil => rfl
  | cons q qs ih => simp [carryOutAll, ih]

theorem carryOutAll_frozen (qs : List Request) (h : s.view = some view) : (carryOutAll qs s).2 = s := by
  induction qs with
  | nil => rfl
  | cons q qs ih => simpa [carryOutAll, q.carryOut_frozen h] using ih

/-- What has come of requests: the rules are those that were registered before and by the requests, and the
registry is frozen if it was or if some request asked for the set of the rules. -/
theorem Sound.carryOutAll (h : s.Sound) (qs : List Request) :
    (carryOutAll qs s).2.Sound ∧ (carryOutAll qs s).2.rules = s.rules ++ accepted qs (carryOutAll qs s).1 ∧
      ((carryOutAll qs s).2.view.isSome ↔ s.view.isSome ∨ ∃ q ∈ qs, q.freezes) := by
  induction qs generalizing s with
  | nil => exact ⟨h, by simp [Registry.carryOutAll, accepted], by simp [Registry.carryOutAll]⟩
  | cons q qs ih =>
    obtain ⟨hsound, hrules, hfrozen⟩ := ih (h.carryOut q)
    refine ⟨hsound, ?_, ?_⟩
    · have hcons (as : List (Except Fault Answer)) (a : Except Fault Answer) :
          accepted (q :: qs) (a :: as) = accepted [q] [a] ++ accepted qs as :=
        List.filterMap_append (l := [(q, a)])
      simp only [Registry.carryOutAll, hrules, q.rules_carryOut s, hcons, List.append_assoc]
    · simp only [Registry.carryOutAll, hfrozen, q.frozen_carryOut s, List.mem_cons, exists_eq_or_imp, or_assoc]

theorem sound_empty : Sound {} :=
  ⟨⟨fun _ h => (nomatch h), List.nodup_nil⟩, fun _ h => (nomatch h)⟩

/-! ## What is found -/

/-- The rule that is found by its id, among rules that have ids of their own. -/
theorem get?_ofRules {rules : List Rule} (h : Admissible rules) (id : String) (r : Rule) :
    (RuleSet.ofRules rules).get? id = some r ↔ r ∈ rules ∧ r.id = id := by
  constructor
  · intro hfind
    exact ⟨List.mem_of_find?_eq_some hfind, by simpa using List.find?_some hfind⟩
  · rintro ⟨hmem, rfl⟩
    rcases hfind : (RuleSet.ofRules rules).get? r.id with _ | found
    · simpa using List.find?_eq_none.1 hfind r hmem
    · have hid : found.id = r.id := by simpa using List.find?_some hfind
      exact congrArg some (List.inj_on_of_nodup_map h.ids (List.mem_of_find?_eq_some hfind) hmem hid)

/-- Whatever a registry was asked for: the rules it holds are those it took, with ids of their own; it refuses a
rule just if it was frozen, the rule looks at no kind of node or its id is taken, and then it stays as it was and
everything after comes to the same; and the set that a freeze gives is given by every later freeze, and holds for
each kind the rules that look at it and for each id the rule that has it. -/
theorem carryOutAll_history (requests : List Request) :
    let answers := (carryOutAll requests {}).1
    let registry := (carryOutAll requests {}).2
    let rules := accepted requests answers
    (registry.rules = rules ∧ (rules.map (·.id)).Nodup) ∧
      (∀ r, (∃ f, (register r registry).1 = .error f) ↔
        (∃ q ∈ requests, q.freezes) ∨ r.kinds = [] ∨ r.id ∈ rules.map (·.id)) ∧
      (∀ r f, (register r registry).1 = .error f → (register r registry).2 = registry ∧
        ∀ more, ∃ later last,
          carryOutAll (requests ++ more) {} = (answers ++ later, last) ∧
            carryOutAll (requests ++ .register r :: more) {} = (answers ++ .error f :: later, last)) ∧
      ∃ view, freeze registry = (.ok view, { registry with view := some view }) ∧
        (∀ more, (freeze (carryOutAll (requests ++ .freeze :: more) {}).2).1 = .ok view) ∧
        (∀ kind, view.forKind kind = rules.filter (kind ∈ ·.kinds) ∧ (view.forKind kind).Nodup) ∧
        ∀ id r, view.get? id = some r ↔ r ∈ rules ∧ r.id = id := by
  intro answers registry rules
  obtain ⟨hsound, hrules, hfrozen⟩ := sound_empty.carryOutAll requests
  replace hrules : registry.rules = rules := hrules
  have hall : Admissible rules := hrules ▸ hsound.admissible
  refine ⟨⟨hrules, hall.ids⟩, fun r => ?_, fun r f hf => ?_, registry.frozenSet, freeze_apply registry,
    fun more => ?_, fun kind => ?_, fun id r => ?_⟩
  · rw [register_fails_iff, Refuses, hrules, hfrozen]
    simp
  · obtain ⟨g, hg⟩ := register_refused (register_fails_iff.1 ⟨f, hf⟩)
    obtain rfl : g = f := by simpa [hg] using hf
    refine ⟨by rw [hg], fun more => ⟨_, _, carryOutAll_append requests more {}, ?_⟩⟩
    have hcarry : (Request.register r).carryOut registry = (.error g, registry) := by
      rw [Request.carryOut_register, hg]
      rfl
    rw [carryOutAll_append]
    simp only [carryOutAll, registry, answers] at hcarry ⊢
    rw [hcarry]
  · obtain ⟨a, hfreeze⟩ := Request.carryOut_freezes (q := .freeze) rfl registry
    rw [carryOutAll_append]
    simp only [carryOutAll, registry] at hfreeze ⊢
    rw [hfreeze, carryOutAll_frozen more rfl, freeze_apply]
    rfl
  · rw [hsound.frozenSet_eq, hrules, RuleSet.forKind_ofRules]
    exact ⟨rfl, (List.Nodup.of_map _ hall.ids).filter _⟩
  · rw [hsound.frozenSet_eq, hrules, get?_ofRules hall]

end TreeLint.Registry
