/-
What is registered is found again: the index of a set of rules holds, for each kind of node, the rules that
look at it, in the order of their registration. Main statements: `forKind_ofRules` and `ofRules_eq_ok_iff`.
-/
import Mathlib.Data.List.Nodup
import TreeLint.Rule.Registry

namespace TreeLint.RuleSet

/-! ## The rules of a kind -/

/-- The rules that an index holds for a kind. -/
def rulesAt (index : List (NodeKind × List Rule)) (kind : NodeKind) : List Rule :=
  (index.lookup kind).getD []

theorem rulesAt_file (r : Rule) (kind k : NodeKind) : ∀ index : List (NodeKind × List Rule),
    rulesAt (file r index kind) k = if k = kind then rulesAt index k ++ [r] else rulesAt index k
  | [] => by
    unfold file rulesAt
    by_cases hk : k = kind
    · simp [hk]
    · simp [List.lookup_cons, beq_false_of_ne hk, hk]
  | (l, rs) :: rest => by
    have ih := rulesAt_file r kind k rest
    unfold rulesAt at ih ⊢
    unfold file
    by_cases hl : l = kind
    · subst hl
      rw [if_pos rfl]
      by_cases hk : k = l
      · simp [hk]
      · simp [List.lookup_cons, beq_false_of_ne hk, hk]
    · rw [if_neg hl]
      by_cases hk : k = l
      · simp [hk, hl]
      · simpa [List.lookup_cons, beq_false_of_ne hk] using ih

theorem mem_among {kinds : List NodeKind} {kind : NodeKind} : kind ∈ NodeKind.among kinds ↔ kind ∈ kinds := by
  have hall : kind ∈ NodeKind.all := by cases kind <;> decide
  simp [NodeKind.among, hall]

theorem nodup_among (kinds : List NodeKind) : (NodeKind.among kinds).Nodup :=
  List.Nodup.filter _ (by decide)

theorem rulesAt_fileAt (r : Rule) (k : NodeKind) {kinds : List NodeKind} (hkinds : kinds.Nodup)
    (index : List (NodeKind × List Rule)) :
    rulesAt (kinds.foldl (file r) index) k = if k ∈ kinds then rulesAt index k ++ [r] else rulesAt index k := by
  induction kinds generalizing index with
  | nil => rfl
  | cons kind rest ih =>
    obtain ⟨hfirst, hrest⟩ := List.nodup_cons.1 hkinds
    rw [List.foldl_cons, ih hrest, rulesAt_file]
    by_cases hk : k = kind
    · subst hk
      simp [hfirst]
    · simp [hk]

/-- The rules that look at a kind, each once and in the order of their registration. -/
theorem forKind_ofRules (rules : List Rule) (kind : NodeKind) :
    (ofRules rules).forKind kind = rules.filter (kind ∈ ·.kinds) := by
  have hindex (index : List (NodeKind × List Rule)) :
      rulesAt (rules.foldl (fun index r => (NodeKind.among r.kinds).foldl (file r) index) index) kind =
        rulesAt index kind ++ rules.filter (kind ∈ ·.kinds) := by
    induction rules generalizing index with
    | nil => simp
    | cons r rest ih =>
      rw [List.foldl_cons, ih, rulesAt_fileAt r kind (nodup_among r.kinds)]
      by_cases hk : kind ∈ r.kinds
      · rw [if_pos (mem_among.2 hk), List.filter_cons_of_pos (by simpa using hk), List.append_assoc]
        rfl
      · rw [if_neg (fun h => hk (mem_among.1 h)), List.filter_cons_of_neg (by simpa using hk)]
  exact (hindex []).trans (List.nil_append _)

/-- The rules that look at the nodes of a kind are registered. -/
theorem mem_of_mem_forKind {rules : List Rule} {kind : NodeKind} {r : Rule} (h : r ∈ (ofRules rules).forKind kind) :
    r ∈ rules := by
  rw [forKind_ofRules] at h
  exact List.mem_of_mem_filter h

end TreeLint.RuleSet

namespace TreeLint.Registry

/-! ## Registration -/

/-- Rules that can be registered in addition to others: each looks at some kind of node, and no two of
them share an id. -/
structure Admissible (rules : List Rule) : Prop where
  kinds : ∀ r ∈ rules, r.kinds ≠ []
  ids : (rules.map (·.id)).Nodup

theorem register_apply (r : Rule) (rules : List Rule) :
    register r { rules } =
      if r.kinds = [] then (.error (.noKinds r.id), { rules })
      else if r.id ∈ rules.map (·.id) then (.error (.duplicateRule r.id), { rules })
      else (.ok (), { rules := rules ++ [r] }) := by
  have hany : (rules.any fun s => decide (s.id = r.id)) = true ↔ r.id ∈ rules.map (·.id) := by
    simp
  unfold register
  by_cases hkinds : r.kinds = []
  · simp [Attempt.bind_apply, hkinds]
  · by_cases hid : r.id ∈ rules.map (·.id)
    · simp only [Attempt.bind_apply, Attempt.state_apply, List.isEmpty_iff, if_neg hkinds, hany, if_pos hid,
        Option.isSome_none, Bool.false_eq_true, if_false]
      rfl
    · simp only [Attempt.bind_apply, Attempt.state_apply, List.isEmpty_iff, if_neg hkinds, hany, if_neg hid,
        Option.isSome_none, Bool.false_eq_true, if_false]
      rfl

theorem Admissible.register {done : List Rule} (h : Admissible done) (r : Rule) :
    Admissible (done ++ [r]) ↔ r.kinds ≠ [] ∧ r.id ∉ done.map (·.id) := by
  refine ⟨fun hall => ⟨hall.kinds r (by simp), fun hmem => ?_⟩, fun ⟨hkinds, hid⟩ => ⟨fun s hs => ?_, ?_⟩⟩
  · have hids := hall.ids
    rw [List.map_append, List.nodup_append] at hids
    exact hids.2.2 _ hmem _ (by simp) rfl
  · rcases List.mem_append.1 hs with hs | hs
    · exact h.kinds s hs
    · rcases List.mem_singleton.1 hs with rfl
      exact hkinds
  · rw [List.map_append]
    refine List.Nodup.append h.ids (List.nodup_singleton _) fun id hdone hr => ?_
    rcases List.mem_singleton.1 hr with rfl
    exact hid hdone

theorem Admissible.sublist {rules rules' : List Rule} (h : Admissible rules) (hsub : rules'.Sublist rules) :
    Admissible rules' :=
  ⟨fun r hr => h.kinds r (hsub.mem hr), h.ids.sublist (hsub.map _)⟩

theorem Admissible.perm {rules rules' : List Rule} (h : Admissible rules) (hperm : rules'.Perm rules) :
    Admissible rules' :=
  ⟨fun r hr => h.kinds r (hperm.mem_iff.1 hr), (hperm.map _).nodup_iff.2 h.ids⟩

/-- Registering rules one after the other succeeds just if they may stand together with those that are
registered already. -/
theorem forM_register : ∀ (rest : List Rule) {done : List Rule}, Admissible done → ∀ s : Registry,
    (forM rest register : Attempt Registry PUnit) { rules := done } = (.ok (), s) ↔
      Admissible (done ++ rest) ∧ s = { rules := done ++ rest }
  | [], done, h, s => by
    rw [List.append_nil, List.forM_nil, Attempt.pure_apply, Prod.mk.injEq]
    exact ⟨fun hs => ⟨h, hs.2.symm⟩, fun hs => ⟨rfl, hs.2.symm⟩⟩
  | r :: rest, done, h, s => by
    rw [List.forM_cons, Attempt.bind_apply, register_apply, List.append_cons done r rest]
    by_cases hr : Admissible (done ++ [r])
    · obtain ⟨hkinds, hid⟩ := (h.register r).1 hr
      rw [if_neg hkinds, if_neg hid]
      exact forM_register rest hr s
    · have hfail : ¬ Admissible (done ++ [r] ++ rest) := fun hall => hr (hall.sublist (List.sublist_append_left _ _))
      rw [h.register r, not_and_or, not_not, not_not] at hr
      refine ⟨fun hs => ?_, fun hs => absurd hs.1 hfail⟩
      by_cases hkinds : r.kinds = []
      · rw [if_pos hkinds] at hs
        cases hs
      · rw [if_neg hkinds, if_pos (hr.resolve_left hkinds)] at hs
        cases hs

/-- The set of some rules, if they may stand together. -/
theorem ofRules_eq_ok_iff {rules : List Rule} {set : RuleSet} :
    ofRules rules = .ok set ↔ Admissible rules ∧ set = RuleSet.ofRules rules := by
  have hnone : Admissible [] := ⟨fun _ hr => (nomatch hr), List.nodup_nil⟩
  have hregister := forM_register rules hnone
  rw [List.nil_append] at hregister
  unfold ofRules freezeWith
  rw [show rules.forM register = forM rules register from rfl, Attempt.bind_apply]
  rcases hend : (forM rules register : Attempt Registry PUnit) {} with ⟨f | ⟨⟩, s⟩
  · refine ⟨fun hset => (nomatch hset), fun hset => ?_⟩
    have := (hregister _).2 ⟨hset.1, rfl⟩
    rw [hend] at this
    cases this
  · obtain ⟨hall, rfl⟩ := (hregister s).1 hend
    exact ⟨fun hset => ⟨hall, (Except.ok.inj hset).symm⟩, fun hset => congrArg Except.ok hset.2.symm⟩

end TreeLint.Registry
