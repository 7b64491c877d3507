import LineCalc.Proofs.Token.Kind
import LineCalc.Token.Lexer
/-!
# LineCalc — what the lexer gives out

The lexer is taken apart once, by what it does at one character (`start_cases`, `step_eq_start`).
From that follow what its tokens can be (`forall_mem_scan`), and that it is never out of step with
an expression: what it remembers of the last token is what that token is to an expression
(`sideAfter`), and so no name and no parenthesis is given out behind an operand
(`spaced_ofText`).
-/

namespace LineCalc

/-! ## Characters -/

namespace Text

theorem isAsciiDigit_iff {c : Char} : isAsciiDigit c ↔ 48 ≤ c.toNat ∧ c.toNat ≤ 57 := by
  simp only [isAsciiDigit, Bool.and_eq_true, decide_eq_true_eq, Char.le_def,
    UInt32.le_iff_toNat_le]
  rfl

theorem digitValue?_of_isAsciiDigit {c : Char} (h : isAsciiDigit c) :
    digitValue? c = some (c.toNat - 48) := by
  obtain ⟨h0, h9⟩ := isAsciiDigit_iff.1 h
  rw [digitValue?, if_pos (by omega), digitAmong, if_neg (by omega), if_pos (by omega)]

theorem not_isAsciiDigit_of_isAsciiLetter {c : Char} (h : isAsciiLetter c) :
    isAsciiDigit c = false := by
  cases hd : isAsciiDigit c with
  | false => rfl
  | true =>
    have hv := digitValue?_of_isAsciiDigit hd
    rw [Token.digitValue?_of_isAsciiLetter h] at hv
    cases hv

end Text

namespace Lexer

/-! ## Runs -/

/-- The characters of a number being read: digits and at most one point, one of them at least. -/
structure IsRun (run : List Char) : Prop where
  nonempty : run ≠ []
  digit_or_point : ∀ c ∈ run, Text.isAsciiDigit c ∨ c = '.'
  count_point_le : run.count '.' ≤ 1

theorem isRun_singleton {c : Char} (h : Text.isAsciiDigit c ∨ c = '.') : IsRun [c] where
  nonempty := List.cons_ne_nil c []
  digit_or_point d hd := by
    rw [List.mem_singleton.1 hd]
    exact h
  count_point_le := List.count_le_length

theorem isRun_cons {run : List Char} {c : Char} (h : IsRun run) (hc : continues run c) :
    IsRun (c :: run) := by
  simp only [continues, Bool.or_eq_true, Bool.and_eq_true, beq_iff_eq, Bool.not_eq_true',
    List.contains_eq_mem, decide_eq_false_iff_not] at hc
  refine ⟨List.cons_ne_nil c run, ?_, ?_⟩
  · intro d hd
    rcases List.mem_cons.1 hd with rfl | hd
    · exact hc.imp_right And.left
    · exact h.digit_or_point d hd
  · rcases hc with hd | ⟨rfl, hp⟩
    · have hne : c ≠ '.' := by
        rintro rfl
        cases hd
      rw [List.count_cons_of_ne hne]
      exact h.count_point_le
    · have hzero := List.count_eq_zero.2 hp
      rw [List.count_cons_self]
      omega

/-- Only a digit or a point continues a number. -/
theorem not_continues {run : List Char} {c : Char} (hd : Text.isAsciiDigit c = false)
    (hp : c ≠ '.') : continues run c = false := by
  simp [continues, hd, hp]

end Lexer

namespace Literal

variable {any : Bool} {places : Option Nat} {coefficient : Nat} {c : Char} {cs : List Char}

theorem readFrom_digit (h : Text.isAsciiDigit c) : readFrom any places coefficient (c :: cs)
    = readFrom true (places.map (· + 1)) (10 * coefficient + (c.toNat - 48)) cs := by
  have hline : ¬ (c = '\n' ∧ cs = []) := by
    rintro ⟨rfl, -⟩
    cases h
  have hpoint : c ≠ '.' := by
    rintro rfl
    cases h
  rw [readFrom.eq_def]
  simp only [if_neg hline, if_neg hpoint, Text.digitValue?_of_isAsciiDigit h]

theorem readFrom_point : readFrom any none coefficient ('.' :: cs)
    = readFrom any (some 0) coefficient cs := by
  have hline : ¬ ('.' = '\n' ∧ cs = []) := fun hc => absurd hc.1 (by decide)
  rw [readFrom.eq_def]
  simp only [if_neg hline, if_pos]

/-- Digits with at most one point are a literal as soon as there is a digit. -/
theorem isSome_readFrom (h : ∀ c ∈ cs, Text.isAsciiDigit c ∨ c = '.')
    (hp : cs.count '.' + (if places.isSome then 1 else 0) ≤ 1) :
    (readFrom any places coefficient cs).isSome = (any || cs.any Text.isAsciiDigit) := by
  induction cs generalizing any places coefficient with
  | nil => cases any <;> rfl
  | cons c cs ih =>
    have hcs : ∀ d ∈ cs, Text.isAsciiDigit d ∨ d = '.' := fun d hd => h d (.tail c hd)
    rw [List.any_cons]
    rcases h c (.head cs) with hd | rfl
    · have hpoint : c ≠ '.' := by
        rintro rfl
        cases hd
      rw [List.count_cons_of_ne hpoint] at hp
      rw [readFrom_digit hd, ih hcs (by rwa [Option.isSome_map]), hd]
      simp
    -- a point is the first one, or the count is exceeded
    · rw [List.count_cons_self] at hp
      cases places with
      | none =>
        rw [readFrom_point, ih hcs (by simpa using hp)]
        rfl
      | some n => simp at hp

end Literal

/-! ## What a token leaves on its right -/

/-- What a token leaves on the left of the next one. -/
def Token.sideAfter (t : Token) : LeftSide :=
  match t.kind with
  | .letter => .operand
  | .closing => .operand
  | .numeral _ => .number
  | _ => .bare

/-- Whether a token may stand right after what a token has left: a name and an opening parenthesis
after no operand, and a number or a lone point not after a name or a closing parenthesis. -/
def Token.MayFollow (left : LeftSide) (t : Token) : Prop :=
  match t.kind with
  | .letter => left = .bare
  | .opening => left = .bare
  | .numeral _ => left ≠ .operand
  | .other => left ≠ .operand
  | _ => True

theorem Token.mayFollow_bare (t : Token) : t.MayFollow .bare := by
  unfold MayFollow
  split <;> simp

/-- No operand is followed by a name or an opening parenthesis, where the tokens `ts` come after
what has left `left`. -/
def Spaced : LeftSide → List Token → Prop
  | _, [] => True
  | left, t :: ts => t.MayFollow left ∧ Spaced t.sideAfter ts

namespace Lexer

variable {l : Lexer} {left : LeftSide} {run : List Char} {c : Char} {cs ds : List Char}

theorem literal?_runToken (h : IsRun run) :
    (runToken run).literal?.isSome = run.any Text.isAsciiDigit := by
  have hcs : ∀ c ∈ run.reverse, Text.isAsciiDigit c ∨ c = '.' :=
    fun c hc => h.digit_or_point c (List.mem_reverse.1 hc)
  have hp : run.reverse.count '.' + (if (none : Option Nat).isSome then 1 else 0) ≤ 1 := by
    have := h.count_point_le
    simpa using this
  rw [Token.literal?, runToken, String.toList_ofList, Literal.read?, Literal.isSome_readFrom hcs hp,
    List.any_reverse]
  rfl

/-- A number without a digit is the lone point. -/
theorem eq_point_of_not_any (h : IsRun run) (hd : run.any Text.isAsciiDigit = false) :
    run = ['.'] := by
  have hall : ∀ c ∈ run, c = '.' := by
    intro c hc
    rcases h.digit_or_point c hc with hdigit | rfl
    · rw [List.any_eq_false] at hd
      exact absurd hdigit (hd c hc)
    · rfl
  have hlen : run.length ≤ 1 := by
    have := h.count_point_le
    rwa [List.count_eq_length.2 fun c hc => (hall c hc).symm] at this
  match run, h.nonempty, hlen with
  | [c], _, _ => rw [hall c (.head [])]

/-- **What a number is to an expression is what the lexer takes it for.** -/
theorem kind_runToken (h : IsRun run) :
    (∃ n, (runToken run).kind = .numeral n ∧ sideOfRun run = .number) ∨
      ((runToken run).kind = .other ∧ sideOfRun run = .bare) := by
  cases hd : run.any Text.isAsciiDigit with
  | true =>
    rw [← literal?_runToken h] at hd
    obtain ⟨n, hn⟩ := Option.isSome_iff_exists.1 hd
    rw [literal?_runToken h] at hd
    exact .inl ⟨n, Token.kind_eq_numeral_iff.2 hn, by rw [sideOfRun, if_pos hd]⟩
  | false =>
    obtain rfl := eq_point_of_not_any h hd
    exact .inr ⟨rfl, rfl⟩

theorem sideAfter_runToken (h : IsRun run) : (runToken run).sideAfter = sideOfRun run := by
  rcases kind_runToken h with ⟨n, hk, hs⟩ | ⟨hk, hs⟩ <;> rw [Token.sideAfter, hk, hs]

theorem mayFollow_runToken (h : IsRun run) (hleft : left ≠ .operand) :
    (runToken run).MayFollow left := by
  rcases kind_runToken h with ⟨n, hk, -⟩ | ⟨hk, -⟩ <;> rw [Token.MayFollow, hk] <;> exact hleft

/-! ## One character -/

/-- A character that is a token of its own. -/
def IsMark (c : Char) : Prop :=
  Text.isAsciiLetter c ∨ c ∈ ['+', '-', '*', '/', '^', '=', '(', ')']

/-- **What a character does outside a number.** It begins a number, is a name or an opening
parenthesis, is another mark, or is dropped. -/
theorem start_cases (left : LeftSide) (c : Char) :
    ((Text.isAsciiDigit c ∨ c = '.') ∧ start left c = (⟨some [c], left⟩, starBeforeNumber left)) ∨
    ((Text.isAsciiLetter c ∨ c = '(') ∧ start left c
      = (⟨none, (Token.ofChar c).sideAfter⟩, starBeforeName left ++ [Token.ofChar c])) ∨
    (c ∈ ['+', '-', '*', '/', '^', '=', ')'] ∧
      start left c = (⟨none, (Token.ofChar c).sideAfter⟩, [Token.ofChar c])) ∨
    (¬ IsMark c ∧ start left c = (⟨none, left⟩, [])) := by
  rw [start]
  by_cases h1 : Text.isAsciiDigit c ∨ c = '.'
  · exact .inl ⟨h1, if_pos h1⟩
  rw [if_neg h1]
  by_cases h2 : Text.isAsciiLetter c
  · refine .inr (.inl ⟨.inl h2, ?_⟩)
    rw [if_pos h2, Token.sideAfter, Token.kind_of_isAsciiLetter h2]
  rw [if_neg h2]
  by_cases h3 : c = '('
  · refine .inr (.inl ⟨.inr h3, ?_⟩)
    rw [if_pos h3, h3]
    rfl
  rw [if_neg h3]
  by_cases h4 : c = ')'
  · refine .inr (.inr (.inl ⟨by simp [h4], ?_⟩))
    rw [if_pos h4, h4]
    rfl
  rw [if_neg h4]
  by_cases h5 : (Operator.ofChar? c).isSome ∨ c = '='
  · refine .inr (.inr (.inl ?_))
    rw [if_pos h5]
    rcases h5 with h5 | rfl
    · obtain ⟨op, hop⟩ := Option.isSome_iff_exists.1 h5
      rw [Operator.ofChar?_eq_some_iff.1 hop]
      cases op <;> exact ⟨by simp [Operator.char], rfl⟩
    · exact ⟨by simp, rfl⟩
  · refine .inr (.inr (.inr ⟨?_, if_neg h5⟩))
    rintro (h | h)
    · exact h2 h
    · simp only [List.mem_cons, List.not_mem_nil, or_false] at h
      rcases h with rfl | rfl | rfl | rfl | rfl | rfl | rfl | rfl
      all_goals first | exact h3 rfl | exact h4 rfl | exact h5 (by decide)

/-- The token of the number being read, if one is. -/
def pending (l : Lexer) : List Token :=
  match l.run with
  | none => []
  | some run => [runToken run]

/-- What stands on the left of the next character, once the number being read is closed. -/
def side (l : Lexer) : LeftSide :=
  match l.run with
  | none => l.left
  | some run => sideOfRun run

/-- A lexer that is in no number, or in a well-formed one. -/
def WellFormed (l : Lexer) : Prop :=
  ∀ run, l.run = some run → IsRun run

theorem wellFormed_of_run_eq_none (h : l.run = none) : l.WellFormed := by
  intro run hr
  rw [h] at hr
  cases hr

theorem scan_nil (l : Lexer) : scan l [] = l.pending := by
  obtain ⟨run, left⟩ := l
  cases run <;> rfl

theorem scan_cons (l : Lexer) (c : Char) (cs : List Char) :
    scan l (c :: cs) = (l.step c).2 ++ scan (l.step c).1 cs := rfl

/-- **A character that continues no number closes the one being read** and starts afresh. -/
theorem step_eq_start (h : ∀ run, l.run = some run → continues run c = false) :
    l.step c = ((start l.side c).1, l.pending ++ (start l.side c).2) := by
  obtain ⟨run, left⟩ := l
  cases run with
  | none => rfl
  | some run =>
    rw [step]
    simp only [h run rfl]
    rfl

/-- A step either takes one more character into the number being read, or starts afresh. -/
theorem step_cases (l : Lexer) (c : Char) :
    (∃ run, l.run = some run ∧ continues run c ∧ l.step c = (⟨some (c :: run), l.left⟩, [])) ∨
      l.step c = ((start l.side c).1, l.pending ++ (start l.side c).2) := by
  obtain ⟨run, left⟩ := l
  cases run with
  | none => exact .inr rfl
  | some run =>
    cases hc : continues run c with
    | false =>
      refine .inr (step_eq_start fun run' hr => ?_)
      cases hr
      exact hc
    | true =>
      refine .inl ⟨run, rfl, hc, ?_⟩
      rw [step]
      simp [hc]

theorem wellFormed_start (left : LeftSide) (c : Char) : (start left c).1.WellFormed := by
  rcases start_cases left c with ⟨hc, hs⟩ | ⟨-, hs⟩ | ⟨-, hs⟩ | ⟨-, hs⟩
  · rw [hs]
    intro run hr
    cases hr
    exact isRun_singleton hc
  all_goals
    rw [hs]
    exact wellFormed_of_run_eq_none rfl

/-- **A number being read stays well formed.** -/
theorem wellFormed_step (h : l.WellFormed) (c : Char) : (l.step c).1.WellFormed := by
  rcases step_cases l c with ⟨run, hr, hc, hs⟩ | hs
  · rw [hs]
    intro run' hr'
    cases hr'
    exact isRun_cons (h run hr) hc
  · rw [hs]
    exact wellFormed_start l.side c

/-! ## Whole texts -/

theorem mem_pending (h : l.WellFormed) {t : Token} (ht : t ∈ l.pending) :
    ∃ run, IsRun run ∧ t = runToken run := by
  unfold pending at ht
  split at ht
  · cases ht
  · next run hr => exact ⟨run, h run hr, List.mem_singleton.1 ht⟩

/-- A token given out where no number is read on is a star or the character's own. -/
theorem mem_start {t : Token} (ht : t ∈ (start left c).2) :
    t = star ∨ (IsMark c ∧ t = Token.ofChar c) := by
  have hname : t ∈ starBeforeName left → t = star := by
    intro h
    unfold starBeforeName at h
    split at h
    · cases h
    · exact List.mem_singleton.1 h
  have hnumber : t ∈ starBeforeNumber left → t = star := by
    intro h
    unfold starBeforeNumber at h
    split at h
    · exact List.mem_singleton.1 h
    · cases h
  rcases start_cases left c with ⟨-, hs⟩ | ⟨hc, hs⟩ | ⟨hc, hs⟩ | ⟨-, hs⟩ <;> rw [hs] at ht
  · exact .inl (hnumber ht)
  · rcases List.mem_append.1 ht with h | h
    · exact .inl (hname h)
    · refine .inr ⟨hc.imp_right ?_, List.mem_singleton.1 h⟩
      rintro rfl
      simp
  · have hmarks : ∀ d ∈ ['+', '-', '*', '/', '^', '=', ')'],
        d ∈ ['+', '-', '*', '/', '^', '=', '(', ')'] := by simp
    exact .inr ⟨.inr (hmarks c hc), List.mem_singleton.1 ht⟩
  · cases ht

/-- **What the tokens of a text can be**: numbers, marks of the text, and stars put in between. -/
theorem forall_mem_scan {P : Token → Prop} (hstar : P star)
    (hrun : ∀ run, IsRun run → P (runToken run))
    (hmark : ∀ c ∈ cs, IsMark c → P (Token.ofChar c)) (hl : l.WellFormed) :
    ∀ t ∈ scan l cs, P t := by
  have hpending : ∀ {l : Lexer}, l.WellFormed → ∀ t ∈ l.pending, P t := by
    intro l hl t ht
    obtain ⟨run, h, rfl⟩ := mem_pending hl ht
    exact hrun run h
  induction cs generalizing l with
  | nil =>
    rw [scan_nil]
    exact hpending hl
  | cons c cs ih =>
    intro t ht
    rw [scan_cons] at ht
    rcases List.mem_append.1 ht with ht | ht
    · rcases step_cases l c with ⟨run, -, -, hs⟩ | hs <;> rw [hs] at ht
      · cases ht
      · rcases List.mem_append.1 ht with ht | ht
        · exact hpending hl t ht
        · rcases mem_start ht with rfl | ⟨hc, rfl⟩
          · exact hstar
          · exact hmark c (.head cs) hc
    · exact ih (fun d hd => hmark d (.tail c hd)) (wellFormed_step hl c) t ht

/-- A star takes every operand off the left. -/
theorem spaced_star_cons {ts : List Token} (h : Spaced .bare ts) : Spaced left (star :: ts) :=
  ⟨trivial, h⟩

theorem spaced_pending_append (hl : l.WellFormed) (hnone : l.run = none → left = l.left)
    (hsome : ∀ run, l.run = some run → left ≠ .operand) {ts : List Token} (h : Spaced l.side ts) :
    Spaced left (l.pending ++ ts) := by
  obtain ⟨run, left'⟩ := l
  cases run with
  | none =>
    rw [hnone rfl]
    exact h
  | some run =>
    have hrun := hl run rfl
    refine ⟨mayFollow_runToken hrun (hsome run rfl), ?_⟩
    rw [sideAfter_runToken hrun]
    exact h

/-- **The tokens of the rest of a text keep their distance.** In a number the star before it has
been given out, so that only what follows counts. -/
theorem spaced_scan (hl : l.WellFormed) (hnone : l.run = none → left = l.left)
    (hsome : ∀ run, l.run = some run → left ≠ .operand) : Spaced left (scan l cs) := by
  induction cs generalizing l left with
  | nil =>
    rw [scan_nil, ← List.append_nil l.pending]
    exact spaced_pending_append hl hnone hsome trivial
  | cons c cs ih =>
    have hwf := wellFormed_step hl c
    rw [scan_cons]
    rcases step_cases l c with ⟨run, hr, -, hs⟩ | hs
    · rw [hs] at hwf ⊢
      refine ih hwf (fun h => by cases h) fun _ _ => hsome run hr
    rw [hs] at hwf ⊢
    rw [List.append_assoc]
    refine spaced_pending_append hl hnone hsome ?_
    rcases start_cases l.side c with ⟨-, hst⟩ | ⟨-, hst⟩ | ⟨hc, hst⟩ | ⟨-, hst⟩ <;>
      rw [hst] at hwf ⊢
    -- a number begins: a star before it is given out now, and the number itself later
    · unfold starBeforeNumber
      split
      · exact spaced_star_cons (ih hwf (fun h => by cases h) fun _ _ h => by cases h)
      · next hside => exact ih hwf (fun h => by cases h) fun _ _ => hside
    -- a name or a parenthesis: behind an operand it gets its star
    · have hrest : Spaced (Token.ofChar c).sideAfter
          (scan ⟨none, (Token.ofChar c).sideAfter⟩ cs) :=
        ih hwf (fun _ => rfl) fun _ h => by cases h
      unfold starBeforeName
      split
      · next hside =>
        rw [hside]
        exact ⟨Token.mayFollow_bare _, hrest⟩
      · exact spaced_star_cons ⟨Token.mayFollow_bare _, hrest⟩
    -- any other mark may stand anywhere
    · refine ⟨?_, ih hwf (fun _ => rfl) fun _ h => by cases h⟩
      simp only [List.mem_cons, List.not_mem_nil, or_false] at hc
      rcases hc with rfl | rfl | rfl | rfl | rfl | rfl | rfl <;> exact trivial
    · exact ih hwf (fun _ => rfl) fun _ h => by cases h

/-- A mark that calls for no star is given out as it is. -/
theorem step_mark (hc : c ∈ ['+', '-', '*', '/', '^', '=', ')']) :
    l.step c = (⟨none, (Token.ofChar c).sideAfter⟩, l.pending ++ [Token.ofChar c]) := by
  have hstart : start l.side c = (⟨none, (Token.ofChar c).sideAfter⟩, [Token.ofChar c]) ∧
      Text.isAsciiDigit c = false ∧ c ≠ '.' := by
    simp only [List.mem_cons, List.not_mem_nil, or_false] at hc
    rcases hc with rfl | rfl | rfl | rfl | rfl | rfl | rfl <;> exact ⟨rfl, rfl, by decide⟩
  obtain ⟨hs, hd, hp⟩ := hstart
  rw [step_eq_start fun run _ => not_continues hd hp, hs]

/-- **Up to such a mark a text is cut as if it ended there.** -/
theorem scan_append_mark (l : Lexer) (cs ds : List Char)
    (hc : c ∈ ['+', '-', '*', '/', '^', '=', ')']) : scan l (cs ++ c :: ds)
      = scan l cs ++ Token.ofChar c :: scan ⟨none, (Token.ofChar c).sideAfter⟩ ds := by
  induction cs generalizing l with
  | nil =>
    rw [List.nil_append, scan_cons, step_mark hc, scan_nil, List.append_assoc]
    rfl
  | cons d cs ih => rw [List.cons_append, scan_cons, scan_cons, ih, List.append_assoc]

end Lexer

namespace Token

/-- **The tokens of a line keep their distance**: no name and no opening parenthesis right behind an
operand, and no number right behind a name or a closing parenthesis. -/
theorem spaced_ofText (text : String) : Spaced .bare (ofText text) :=
  Lexer.spaced_scan (Lexer.wellFormed_of_run_eq_none rfl) (fun _ => rfl) fun _ h => by cases h

/-- What the tokens of a line can be. -/
theorem forall_mem_ofText {P : Token → Prop} {text : String} (hstar : P Lexer.star)
    (hrun : ∀ run, Lexer.IsRun run → P (Lexer.runToken run))
    (hmark : ∀ c ∈ text.toList, Lexer.IsMark c → P (ofChar c)) : ∀ t ∈ ofText text, P t :=
  Lexer.forall_mem_scan hstar hrun hmark (Lexer.wellFormed_of_run_eq_none rfl)

end Token

end LineCalc
