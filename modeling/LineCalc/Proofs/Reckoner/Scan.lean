import LineCalc.Proofs.Reckoner.Feed
/-!
# LineCalc — one scan tells what is wrong

Whether tokens are an expression, and which error they make, does not depend on any value. A `Scan`
goes over them once, left to right, and keeps only whether it needs an operand and how many
parentheses are open; at the first token out of place it stops. The reckoner's verdict is the scan's
(`map_evaluate`): forgetting the values and the levels turns each of its steps into a step of the
scan (`scan_step`).
-/

namespace LineCalc

/-- A scan between two tokens. -/
structure Scan where
  needed : Bool
  depth : Nat
deriving DecidableEq

namespace Scan

/-- Before the first token. -/
def initial : Scan := ⟨true, 0⟩

/-- Takes a token where an operand is needed. -/
def stepOperand (limit : Int) (bound : String → Bool) (depth : Nat) (t : Token) :
    Except ExprError Scan :=
  if t = Token.ofChar '+' ∨ t = Token.ofChar '-' then .ok ⟨true, depth⟩
  else if t = Token.ofChar '(' then
    if limit < (depth : Int) + 1 then .error (.tooDeep limit) else .ok ⟨true, depth + 1⟩
  else if t.literal?.isSome then .ok ⟨false, depth⟩
  else if t.isLetter then
    if bound t.text then .ok ⟨false, depth⟩ else .error (.unknownVariable t.text)
  else .error (.unexpected t.text)

/-- Takes a token after an operand. -/
def stepOperator (depth : Nat) (t : Token) : Except ExprError Scan :=
  if t ∈ ['+', '-', '*', '/', '^'].map Token.ofChar then .ok ⟨true, depth⟩
  else if t = Token.ofChar ')' ∧ 0 < depth then .ok ⟨false, depth - 1⟩
  else .error (.unexpected t.text)

/-- Takes one token. -/
def step (limit : Int) (bound : String → Bool) (s : Scan) (t : Token) : Except ExprError Scan :=
  if s.needed then stepOperand limit bound s.depth t else stepOperator s.depth t

/-- Whether the tokens may end here. -/
def finish (s : Scan) : Except ExprError Unit :=
  if 0 < s.depth then .error .unmatchedParen
  else if s.needed then .error .unexpectedEnd
  else .ok ()

/-- **What is wrong with tokens**, if anything. -/
def verdict (limit : Int) (bound : String → Bool) (tokens : List Token) : Except ExprError Unit :=
  match tokens with
  | [] => .error .empty
  | _ => (tokens.foldlM (step limit bound) initial).bind finish

/-! ## Steps, by the kind of the token -/

variable {limit : Int} {bound : String → Bool} {depth : Nat} {t : Token}

theorem verdict_cons {ts : List Token} : verdict limit bound (t :: ts)
    = ((t :: ts).foldlM (step limit bound) initial).bind finish := rfl

theorem step_needed : step limit bound ⟨true, depth⟩ t = stepOperand limit bound depth t := rfl

theorem step_not_needed : step limit bound ⟨false, depth⟩ t = stepOperator depth t := rfl

theorem stepOperand_eq : stepOperand limit bound depth t =
    match t.kind with
    | .operator .add => .ok ⟨true, depth⟩
    | .operator .sub => .ok ⟨true, depth⟩
    | .opening =>
      if limit < (depth : Int) + 1 then .error (.tooDeep limit) else .ok ⟨true, depth + 1⟩
    | .numeral _ => .ok ⟨false, depth⟩
    | .letter => if bound t.text then .ok ⟨false, depth⟩ else .error (.unknownVariable t.text)
    | _ => .error (.unexpected t.text) := by
  have hplus : t = Token.ofChar '+' ↔ t.kind = .operator .add := by
    rw [Token.kind_eq_operator_iff]
    rfl
  have hminus : t = Token.ofChar '-' ↔ t.kind = .operator .sub := by
    rw [Token.kind_eq_operator_iff]
    rfl
  rw [stepOperand]
  simp only [hplus, hminus, ← Token.kind_eq_opening_iff, Token.isSome_literal?_eq,
    Token.isLetter_iff]
  cases t.kind with
  | operator op => cases op <;> simp
  | opening => simp
  | closing => simp
  | assign => simp
  | numeral n => simp
  | letter => simp
  | other => simp

theorem mem_operators_iff :
    t ∈ ['+', '-', '*', '/', '^'].map Token.ofChar ↔ t.operator?.isSome := by
  constructor
  · intro h
    simp only [List.map_cons, List.map_nil, List.mem_cons, List.not_mem_nil, or_false] at h
    rcases h with rfl | rfl | rfl | rfl | rfl <;> rfl
  · intro h
    obtain ⟨op, hop⟩ := Option.isSome_iff_exists.1 h
    unfold Token.operator? at hop
    split at hop
    · next op' hk =>
      rw [Token.kind_eq_operator_iff.1 hk]
      cases op' <;> simp [Token.ofOperator, Operator.char]
    · cases hop

theorem stepOperator_eq : stepOperator depth t =
    match t.kind with
    | .operator _ => .ok ⟨true, depth⟩
    | .closing => if 0 < depth then .ok ⟨false, depth - 1⟩ else .error (.unexpected t.text)
    | _ => .error (.unexpected t.text) := by
  rw [stepOperator]
  simp only [mem_operators_iff, ← Token.kind_eq_closing_iff, Token.operator?]
  cases t.kind <;> simp

end Scan

/-! ## The reckoner follows the scan -/

namespace Reckoner

variable {V : Type} [Arithmetic V] {limit : Int} {scope : String → Option V}

/-- What a scan would keep of a reckoner. -/
def scan (r : Reckoner V) : Scan :=
  ⟨r.operand.isNone, r.outer.length⟩

/-- **A step of the reckoner is a step of the scan.** -/
theorem scan_step (r : Reckoner V) (t : Token) :
    (r.step limit scope t).map scan
      = r.scan.step limit (fun name => (scope name).isSome) t := by
  obtain ⟨operand, l, outer⟩ := r
  cases operand with
  | none =>
    have hscan : (⟨none, l, outer⟩ : Reckoner V).scan = ⟨true, outer.length⟩ := rfl
    rw [hscan, Scan.step_needed, Scan.stepOperand_eq, step, stepOperand]
    cases t.kind with
    | operator op => cases op <;> rfl
    | opening =>
      simp only
      split <;> rfl
    | letter =>
      simp only
      cases scope t.text <;> rfl
    | closing => rfl
    | assign => rfl
    | numeral n => rfl
    | other => rfl
  | some v =>
    have hscan : (⟨some v, l, outer⟩ : Reckoner V).scan = ⟨false, outer.length⟩ := rfl
    rw [hscan, Scan.step_not_needed, Scan.stepOperator_eq, step]
    unfold stepOperator
    cases t.kind with
    | closing => cases outer <;> rfl
    | _ => rfl

/-- So is a whole run. -/
theorem scan_feed (r : Reckoner V) (ts : List Token) :
    (feed limit scope r ts).map scan
      = ts.foldlM (Scan.step limit fun name => (scope name).isSome) r.scan := by
  induction ts generalizing r with
  | nil => rfl
  | cons t ts ih =>
    rw [feed_cons, List.foldlM_cons, ← scan_step]
    cases r.step limit scope t with
    | ok r' => exact ih r'
    | error e => rfl

/-- And both end alike. -/
theorem scan_finish (r : Reckoner V) : r.finish.map (fun _ => ()) = r.scan.finish := by
  obtain ⟨operand, l, outer⟩ := r
  cases operand <;> cases outer <;> rfl

/-- **Forgetting the value, reading is scanning.** -/
theorem map_evaluate (limit : Int) (scope : String → Option V) (tokens : List Token) :
    (evaluate limit scope tokens).map (fun _ => ())
      = Scan.verdict limit (fun name => (scope name).isSome) tokens := by
  cases tokens with
  | nil => rfl
  | cons t ts =>
    have hfeed : (feed limit scope initial (t :: ts)).map scan = _ := scan_feed initial (t :: ts)
    rw [evaluate_eq_feed (List.cons_ne_nil t ts), Scan.verdict_cons]
    change _ = ((t :: ts).foldlM (Scan.step limit _) (initial : Reckoner V).scan).bind Scan.finish
    rw [← hfeed]
    cases feed limit scope initial (t :: ts) with
    | ok r => exact scan_finish r
    | error e => rfl

/-! ## How far a reading looks -/

/-- A run looks at most one place past the end. -/
theorem position_run_le (r : Reckoner V) (n : Nat) (ts : List Token) :
    (run limit scope r n ts).position ≤ n + ts.length + 1 := by
  induction ts generalizing r n with
  | nil =>
    rw [run]
    simp only
    split <;> simp
  | cons t ts ih =>
    rw [run]
    cases r.step limit scope t with
    | ok r' =>
      have := ih r' (n + 1)
      simp only [List.length_cons]
      omega
    | error e =>
      simp only [List.length_cons]
      split <;> omega

/-- A run with a value has looked at every token, and closed every parenthesis. -/
theorem position_run_of_eq_ok {r : Reckoner V} {n : Nat} {ts : List Token} {v : V}
    (h : (run limit scope r n ts).result = .ok v) :
    (run limit scope r n ts).position = n + ts.length ∧ (run limit scope r n ts).depth = 0 := by
  induction ts generalizing r n with
  | nil =>
    obtain ⟨w, l, rfl, -⟩ := finish_eq_ok_iff.1 h
    exact ⟨rfl, rfl⟩
  | cons t ts ih =>
    rw [run] at h ⊢
    cases hs : r.step limit scope t with
    | ok r' =>
      simp only [hs] at h
      obtain ⟨hposition, hdepth⟩ := ih h
      simp only [List.length_cons]
      exact ⟨by omega, hdepth⟩
    | error e =>
      simp only [hs] at h
      cases h

/-- **A reading comes out as one scan does.** It has a value exactly if the scan finds nothing
wrong, else the scan's error with what it names. It looks at most one place past the last token, and
a reading with a value ends right behind it with no parenthesis open. -/
theorem result_read_eq_verdict (limit : Int) (scope : String → Option V) (tokens : List Token) :
    (read limit scope tokens).result.map (fun _ => ())
        = Scan.verdict limit (fun name => (scope name).isSome) tokens ∧
      (read limit scope tokens).position ≤ tokens.length + 1 ∧
      ∀ v, (read limit scope tokens).result = .ok v →
        (read limit scope tokens).position = tokens.length ∧
          (read limit scope tokens).depth = 0 := by
  refine ⟨map_evaluate limit scope tokens, ?_⟩
  cases tokens with
  | nil =>
    -- no token is looked at, and there is no value
    refine ⟨Nat.zero_le _, ?_⟩
    intro v h
    cases h
  | cons t ts =>
    have hle : (run limit scope initial 0 (t :: ts)).position ≤ _ :=
      position_run_le initial 0 (t :: ts)
    rw [read]
    · refine ⟨by omega, ?_⟩
      intro v h
      obtain ⟨hposition, hdepth⟩ := position_run_of_eq_ok h
      exact ⟨by omega, hdepth⟩
    · exact List.cons_ne_nil t ts

end Reckoner

end LineCalc
