/-
Control sequences of terminals: an escape character and an opening bracket, then digits, semicolons
and question marks, then a letter. `plain` is a text without them. Main statement: a text without
escape characters is left as it is.
-/
namespace TreeLint.Text

/-- The character that begins a control sequence. -/
def escape : Char := '\x1b'

/-- Whether a character may stand between the bracket and the letter of a control sequence. -/
def isParameter (c : Char) : Bool := c.isDigit || c = ';' || c = '?'

/-- What stands behind the parameters and the letter that a text begins with. -/
def afterLetter? : List Char → Option (List Char)
  | [] => none
  | c :: cs => if isParameter c then afterLetter? cs else if c.isAlpha then some cs else none

/-- What stands behind the control sequence that a text begins with. -/
def afterControl? : List Char → Option (List Char)
  | c :: '[' :: cs => if c = escape then afterLetter? cs else none
  | _ => none

theorem length_of_afterLetter? {cs rest : List Char} (h : afterLetter? cs = some rest) :
    rest.length < cs.length := by
  induction cs with
  | nil => simp [afterLetter?] at h
  | cons c cs ih =>
    unfold afterLetter? at h
    split at h
    · exact Nat.lt_succ_of_lt (ih h)
    · split at h
      · cases h; simp
      · cases h

theorem length_of_afterControl? {cs rest : List Char} (h : afterControl? cs = some rest) :
    rest.length < cs.length := by
  unfold afterControl? at h
  split at h
  · split at h
    · have := length_of_afterLetter? h
      simp only [List.length_cons]
      omega
    · cases h
  · cases h

theorem afterControl?_cons_of_ne {c : Char} (h : c ≠ escape) (cs : List Char) :
    afterControl? (c :: cs) = none := by
  unfold afterControl?
  split
  case h_1 heq => rw [List.cons.injEq] at heq; simp [← heq.1, h]
  case h_2 => rfl

/-- A text without its control sequences. -/
def plain : List Char → List Char
  | [] => []
  | c :: cs =>
    match _h : afterControl? (c :: cs) with
    | some rest => plain rest
    | none => c :: plain cs
termination_by cs => cs.length
decreasing_by
  · exact length_of_afterControl? _h
  · simp

theorem plain_eq_self {cs : List Char} (h : escape ∉ cs) : plain cs = cs := by
  induction cs with
  | nil => simp [plain]
  | cons c cs ih =>
    rw [List.mem_cons, not_or] at h
    have hc := afterControl?_cons_of_ne (Ne.symm h.1) cs
    unfold plain
    split
    case h_1 heq => rw [hc] at heq; cases heq
    case h_2 => rw [ih h.2]

end TreeLint.Text
