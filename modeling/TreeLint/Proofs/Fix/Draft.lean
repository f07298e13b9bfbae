/-
Drafts that are gone on with after requests that fail. A request without a place in the source leaves the
draft as it was, and any other one adds one edit that lies in the source. So what a draft comes to is told by
the edits of the requests that have a place, whatever the order they came in, and applying it never fails.
Main statement: `fix_addEach`.
-/
import TreeLint.Fix.Draft
import TreeLint.Proofs.Fault
import TreeLint.Proofs.Fix.Acceptance
import TreeLint.Proofs.Fix.Splice

namespace TreeLint

/-! ## One request -/

/-- What may come of asking for an edit: one that lies in the source, or a fault for want of a place. -/
structure Edit.Placed (source : String) (asked : Except Fault Edit) : Prop where
  inside : ∀ e, asked = .ok e → e.span.stop ≤ source.length
  label : FailsOnly (fun fault => fault.label = "NoSourceSpan" ∨ fault.label = "ValueError") asked

variable {source : String}

theorem Edit.Placed.ok {e : Edit} (h : e.span.stop ≤ source.length) : Placed source (.ok e) :=
  ⟨fun _ he => Except.ok.inj he ▸ h, .ok e⟩

theorem Edit.Placed.error {fault : Fault} (h : fault.label = "NoSourceSpan" ∨ fault.label = "ValueError") :
    Placed source (.error fault) :=
  ⟨nofun, .error h⟩

/-- Edits that are placed by the span of a node end with it, at the latest. -/
theorem Edit.Placed.ofNode (n : Node) {place : Span → Edit} (h : ∀ s, (place s).span.stop ≤ s.stop) :
    Placed source (do return place (← Source.spanOf source n)) := by
  unfold Source.spanOf
  cases hspan : Source.span? source n with
  | none => exact .error (.inl rfl)
  | some s =>
    rw [Source.span?, Option.filter_eq_some_iff] at hspan
    exact .ok (Nat.le_trans (h s) (of_decide_eq_true hspan.2))

theorem EditRequest.edit_placed (r : EditRequest) : Edit.Placed source (r.edit source) := by
  cases r with
  | replace target text => exact .ofNode target fun s => Nat.le_refl s.stop
  | delete target => exact .ofNode target fun s => Nat.le_refl s.stop
  | prefixWith target text => exact .ofNode target Span.start_le_stop
  | postfixWith target text => exact .ofNode target fun s => Nat.le_refl s.stop
  | replaceSpan start stop text =>
    rw [edit, Span.ofBounds]
    cases Span.ofBounds? start stop with
    | none =>
      show Edit.Placed source (.error (.invalidSpan start stop))
      exact .error (.inr rfl)
    | some span =>
      show Edit.Placed source (if source.length < span.stop then .error (.spanOutside span) else .ok ⟨span, text⟩)
      by_cases hout : source.length < span.stop
      · rw [if_pos hout]
        exact .error (.inr rfl)
      · rw [if_neg hout]
        exact .ok (Nat.not_lt.1 hout)

namespace Draft

theorem add_of_error {r : EditRequest} {fault : Fault} (h : r.edit source = .error fault) (d : Draft) :
    add source r d = (.error fault, d) := by
  simp [add, Attempt.bind_apply, h]

theorem add_of_ok {r : EditRequest} {e : Edit} (h : r.edit source = .ok e) (d : Draft) :
    add source r d = (.ok (), { edits := d.edits ++ [e] }) := by
  simp [add, Attempt.bind_apply, h]

/-- A request that fails adds nothing. -/
theorem add_failed {r : EditRequest} {d : Draft} {fault : Fault} (h : (add source r d).1 = .error fault) :
    (add source r d).2 = d ∧ r.edit source = .error fault := by
  cases hr : r.edit source with
  | error fault' =>
    rw [add_of_error hr] at h ⊢
    exact ⟨rfl, Except.error.inj h ▸ rfl⟩
  | ok e =>
    rw [add_of_ok hr] at h
    cases h

/-! ## Requests in turn -/

/-- Adds the edits that some requests ask for, in turn, and goes on after each that fails. -/
def addEach (source : String) (requests : List EditRequest) : Attempt Draft (List (Except Fault Unit)) :=
  requests.mapM fun r => Attempt.caught (add source r)

/-- Whether a request has a place. -/
def succeeds (source : String) (r : EditRequest) : Bool := (r.edit source).isOk

/-- The edits of those requests that have a place. -/
def placedEdits (source : String) (requests : List EditRequest) : List Edit :=
  requests.filterMap fun r => (r.edit source).toOption

theorem placedEdits_filter (requests : List EditRequest) :
    placedEdits source (requests.filter (succeeds source)) = placedEdits source requests := by
  unfold placedEdits
  rw [List.filterMap_filter]
  refine List.filterMap_congr fun r _ => ?_
  cases h : r.edit source <;> simp [succeeds, h, Except.isOk, Except.toBool, Except.toOption]

/-- Of each request, what it comes to on a draft without edits; and after all of them, the edits of those that
have a place. -/
theorem addEach_apply (requests : List EditRequest) (d : Draft) :
    addEach source requests d =
      (.ok (requests.map fun r => (add source r {}).1), { edits := d.edits ++ placedEdits source requests }) := by
  induction requests generalizing d with
  | nil => simp [addEach, placedEdits]
  | cons r requests ih =>
    unfold addEach at ih ⊢
    rw [List.mapM_cons, Attempt.bind_apply, Attempt.caught_apply]
    cases hr : r.edit source with
    | error fault =>
      simp [add_of_error hr, Attempt.bind_apply, ih, placedEdits, hr, Except.toOption]
    | ok e =>
      simp [add_of_ok hr, Attempt.bind_apply, ih, placedEdits, hr, Except.toOption]

theorem stop_le_of_mem_placedEdits {requests : List EditRequest} {e : Edit} (h : e ∈ placedEdits source requests) :
    e.span.stop ≤ source.length := by
  obtain ⟨r, -, hr⟩ := List.mem_filterMap.1 h
  cases hedit : r.edit source with
  | error fault =>
    rw [hedit] at hr
    cases hr
  | ok e' =>
    rw [hedit] at hr
    cases hr
    exact r.edit_placed.inside e hedit

/-- On every unit and for all requests, of whatever nodes and offsets: a request that fails does so for want
of a place and leaves the draft as it was. After requests in turn the draft has the edits of those with a
place. It is refused if and only if two of these conflict, the one asked for somewhere behind the other; else
it is a fix which is well formed, applies to the source of the unit, and is the same for every order of the
requests with a place. -/
theorem fix_addEach (u : CompilationUnit) (calls : List EditRequest) :
    (∀ call d fault, (add u.source call d).1 = .error fault →
      (add u.source call d).2 = d ∧ (fault.label = "NoSourceSpan" ∨ fault.label = "ValueError")) ∧
    ∃ draft : Draft, addEach u.source calls {} = (.ok (calls.map fun call => (add u.source call {}).1), draft) ∧
      draft.edits = placedEdits u.source calls ∧
      ((∃ fault, draft.fix = .error fault) ↔ ∃ a b, [a, b].Sublist draft.edits ∧ a.conflicts b = true) ∧
      (∀ fault, draft.fix = .error fault → fault.label = "OverlappingEditsError") ∧
      ∀ f, draft.fix = .ok f → f.isWellFormed = true ∧ (∃ edited, f.apply u.source = .ok edited) ∧
        ∀ calls', (calls'.filter (succeeds u.source)).Perm (calls.filter (succeeds u.source)) →
          (addEach u.source calls' {}).2.fix = .ok f := by
  refine ⟨fun call d fault h => ?_, ⟨placedEdits u.source calls⟩, addEach_apply calls {}, rfl, ?_, ?_, ?_⟩
  · obtain ⟨hkept, hedit⟩ := add_failed h
    exact ⟨hkept, call.edit_placed.label fault hedit⟩
  · exact Fix.refused_iff.trans Fix.not_free_iff
  · exact fun fault => Fix.label_of_refused
  · intro f hf
    have row := Fix.of_eq_ok_iff.1 hf
    refine ⟨Fix.ascends_iff.2 row.before, ?_, fun calls' hperm => ?_⟩
    · have hin : ∀ e ∈ f.edits, e.span.stop ≤ u.source.toList.length := fun e he => by
        rw [String.length_toList]
        exact stop_le_of_mem_placedEdits (row.perm.mem_iff.1 he)
      rw [Fix.apply, Fix.applyTo_eq_splice row.before hin]
      exact ⟨_, rfl⟩
    · have hplaced : (placedEdits u.source calls').Perm (placedEdits u.source calls) := by
        rw [← placedEdits_filter calls', ← placedEdits_filter calls]
        exact hperm.filterMap _
      rw [addEach_apply]
      exact Fix.of_perm hplaced hf

/-- Of these five requests, three have no place: one is of a node without a span, one of a node that ends
past the source, and one is between offsets that bound no span. -/
example :
    let word : Node := { id := 0, kind := .identifier, span := some ⟨0, 3, by decide⟩ }
    let bare : Node := { id := 1, kind := .identifier }
    let past : Node := { id := 2, kind := .identifier, span := some ⟨2, 9, by decide⟩ }
    (addEach "one" [.delete bare, .prefixWith word "(", .replace past "x", .postfixWith word ")", .replaceSpan 2 1 ""]
      {}).2.edits = [⟨.point 0, "("⟩, ⟨.point 3, ")"⟩] := by decide

end Draft

end TreeLint
