import LineCalc.Proofs.Token.Lexer
/-!
# LineCalc — lexemes first, stars after

The lexer cuts a line and puts stars in, both in one pass. Here the two are apart. `Cuts` says what
the lexemes of a text are: runs of digits with at most one point, as long as they can be, and
single marks; all else separates. `withStars` puts a star between two neighbours wherever
`CallsForStar` says so, and looks at nothing but the two. The one pass gives the same tokens
(`scan_eq_of_cuts`), and a text has one way of being cut (`exists_cuts`, `Cuts.unique`).
-/

namespace LineCalc

namespace Lexer

/-! ## Runs, as they stand in the text -/

instance : DecidablePred IsRun := fun run =>
  decidable_of_iff
    (run ≠ [] ∧ run.all (fun c => Text.isAsciiDigit c || c == '.') = true ∧ run.count '.' ≤ 1)
    ⟨fun h => ⟨h.1, by simpa using h.2.1, h.2.2⟩,
      fun h => ⟨h.nonempty, by simpa using h.digit_or_point, h.count_point_le⟩⟩

theorem IsRun.of_sublist {a b : List Char} (h : IsRun b) (hs : a.Sublist b) (hne : a ≠ []) :
    IsRun a where
  nonempty := hne
  digit_or_point c hc := h.digit_or_point c (hs.subset hc)
  count_point_le := Nat.le_trans (hs.count_le '.') h.count_point_le

theorem isRun_reverse {run : List Char} (h : IsRun run) : IsRun run.reverse where
  nonempty := mt List.reverse_eq_nil_iff.1 h.nonempty
  digit_or_point c hc := h.digit_or_point c (List.mem_reverse.1 hc)
  count_point_le := by
    rw [List.count_reverse]
    exact h.count_point_le

/-- What makes a longer run continues the shorter one. -/
theorem continues_of_isRun_cons {run : List Char} {c : Char} (h : IsRun (c :: run)) :
    continues run c := by
  rcases h.digit_or_point c (.head run) with hd | rfl
  · simp [continues, hd]
  · have hcount := h.count_point_le
    rw [List.count_cons_self] at hcount
    have hnot : '.' ∉ run := List.count_eq_zero.1 (by omega)
    simp [continues, hnot]

/-- No mark is in a run. -/
theorem not_digit_or_point_of_isMark {c : Char} (h : IsMark c) :
    ¬ (Text.isAsciiDigit c ∨ c = '.') := by
  rintro (hd | rfl)
  · rcases h with hl | hm
    · rw [Text.not_isAsciiDigit_of_isAsciiLetter hl] at hd
      cases hd
    · have hall : ['+', '-', '*', '/', '^', '=', '(', ')'].all (! Text.isAsciiDigit ·) = true := by
        decide
      have hnot := List.all_eq_true.1 hall c hm
      rw [hd] at hnot
      cases hnot
  · rcases h with hl | hm
    · cases hl
    · simp at hm

theorem isMark_of_name_or_opening {c : Char} (h : Text.isAsciiLetter c ∨ c = '(') : IsMark c := by
  rcases h with h | rfl
  · exact .inl h
  · exact .inr (by decide)

theorem isMark_of_mem {c : Char} (h : c ∈ ['+', '-', '*', '/', '^', '=', ')']) : IsMark c := by
  have hsub : ['+', '-', '*', '/', '^', '=', ')'].Sublist
      ['+', '-', '*', '/', '^', '=', '(', ')'] := by decide
  exact .inr (hsub.subset h)

end Lexer

open Lexer

/-! ## Lexemes -/

/-- Whether a character belongs to the notation. -/
def IsNotation (c : Char) : Prop :=
  IsMark c ∨ Text.isAsciiDigit c ∨ c = '.'

instance : DecidablePred IsNotation := fun c =>
  inferInstanceAs (Decidable ((Text.isAsciiLetter c ∨ c ∈ ['+', '-', '*', '/', '^', '=', '(', ')'])
    ∨ Text.isAsciiDigit c ∨ c = '.'))

/-- **The lexemes of a text**, from left to right. A run of digits and at most one point is one
lexeme and ends only where it cannot be continued. -/
inductive Cuts : List Char → List (List Char) → Prop where
  | nil : Cuts [] []
  | separator {c : Char} {cs : List Char} {pieces : List (List Char)} (hc : ¬ IsNotation c)
      (h : Cuts cs pieces) : Cuts (c :: cs) pieces
  | mark {c : Char} {cs : List Char} {pieces : List (List Char)} (hc : IsMark c)
      (h : Cuts cs pieces) : Cuts (c :: cs) ([c] :: pieces)
  | run {run cs : List Char} {pieces : List (List Char)} (hrun : IsRun run)
      (hmax : ∀ c ∈ cs.head?, ¬ IsRun (run ++ [c])) (h : Cuts cs pieces) :
      Cuts (run ++ cs) (run :: pieces)

/-- A lexeme that is a name. -/
def IsName (a : List Char) : Prop :=
  a.length = 1 ∧ ∀ c ∈ a, Text.isAsciiLetter c

/-- A lexeme that is a literal: the lone point is none. -/
def IsNumeral (a : List Char) : Prop :=
  IsRun a ∧ a ≠ ['.']

/-- **Where a star is put in**: before a name or an opening parenthesis that follows an operand, and
before a number that follows a name or a closing parenthesis. -/
def CallsForStar (a b : List Char) : Prop :=
  ((IsName b ∨ b = ['(']) ∧ (IsName a ∨ a = [')'] ∨ IsNumeral a)) ∨
    (IsRun b ∧ (IsName a ∨ a = [')']))

instance : DecidablePred IsName := fun a =>
  decidable_of_iff (a.length = 1 ∧ a.all Text.isAsciiLetter = true) (by simp [IsName])

instance (a b : List Char) : Decidable (CallsForStar a b) :=
  inferInstanceAs (Decidable (((IsName b ∨ b = ['(']) ∧
    (IsName a ∨ a = [')'] ∨ (IsRun a ∧ a ≠ ['.']))) ∨ (IsRun b ∧ (IsName a ∨ a = [')']))))

/-- The token of a lexeme. -/
def Token.ofLexeme (a : List Char) : Token :=
  ⟨String.ofList a⟩

/-- **Lexemes with the stars put in** between neighbours. -/
def withStars : List (List Char) → List Token
  | [] => []
  | [a] => [Token.ofLexeme a]
  | a :: b :: rest =>
    if CallsForStar a b then Token.ofLexeme a :: star :: withStars (b :: rest)
    else Token.ofLexeme a :: withStars (b :: rest)

/-! ## A text has its lexemes -/

/-- A text can be cut, also where a run has begun before it. -/
theorem exists_cuts_aux (cs : List Char) : (∃ pieces, Cuts cs pieces) ∧
    ∀ run, IsRun run → ∃ pieces, Cuts (run.reverse ++ cs) pieces := by
  induction cs with
  | nil =>
    refine ⟨⟨[], .nil⟩, fun run hrun => ⟨[run.reverse], ?_⟩⟩
    exact .run (isRun_reverse hrun) (fun c hc => by cases hc) .nil
  | cons c cs ih =>
    obtain ⟨⟨pieces, hpieces⟩, hbegun⟩ := ih
    -- afresh, the character decides; a run needs the second half of the hypothesis
    have hfresh : ∃ pieces, Cuts (c :: cs) pieces := by
      by_cases hd : Text.isAsciiDigit c ∨ c = '.'
      · exact hbegun [c] (isRun_singleton hd)
      · by_cases hm : IsMark c
        · exact ⟨[c] :: pieces, .mark hm hpieces⟩
        · exact ⟨pieces, .separator (not_or.2 ⟨hm, hd⟩) hpieces⟩
    refine ⟨hfresh, fun run hrun => ?_⟩
    by_cases hc : continues run c
    · have := hbegun (c :: run) (isRun_cons hrun hc)
      rwa [List.reverse_cons, List.append_assoc] at this
    · obtain ⟨rest, hrest⟩ := hfresh
      refine ⟨run.reverse :: rest, .run (isRun_reverse hrun) ?_ hrest⟩
      rintro d hd hlonger
      cases hd
      have := isRun_reverse hlonger
      rw [List.reverse_append, List.reverse_reverse] at this
      exact hc (continues_of_isRun_cons this)

theorem exists_cuts (cs : List Char) : ∃ pieces, Cuts cs pieces :=
  (exists_cuts_aux cs).1

/-- Two runs that a text starts with, both as long as can be, are the same. -/
theorem run_unique {r r' cs cs' : List Char} (h : r ++ cs = r' ++ cs') (hr : IsRun r)
    (hr' : IsRun r') (hmax : ∀ c ∈ cs.head?, ¬ IsRun (r ++ [c]))
    (hmax' : ∀ c ∈ cs'.head?, ¬ IsRun (r' ++ [c])) : r = r' := by
  have hlonger : ∀ {a b rest : List Char} {d : Char}, IsRun b → b = a ++ d :: rest →
      IsRun (a ++ [d]) := by
    rintro a b rest d hb rfl
    refine hb.of_sublist ?_ (by simp)
    exact List.Sublist.append_left (List.singleton_sublist.2 (.head rest)) a
  -- one starts the other, and the next character would have made the shorter one longer
  rcases List.append_eq_append_iff.1 h with ⟨x, hx, hcs⟩ | ⟨x, hx, hcs⟩
  · cases x with
    | nil => simpa using hx.symm
    | cons d x => exact absurd (hlonger hr' hx) (hmax d (by simp [hcs]))
  · cases x with
    | nil => simpa using hx
    | cons d x => exact absurd (hlonger hr hx) (hmax' d (by simp [hcs]))

/-- What a cut starts with, by the first character of the text. -/
theorem cuts_cases {cs : List Char} {pieces : List (List Char)} (h : Cuts cs pieces) :
    (cs = [] ∧ pieces = []) ∨
    (∃ c rest, cs = c :: rest ∧ ¬ IsNotation c ∧ Cuts rest pieces) ∨
    (∃ c rest pieces', cs = c :: rest ∧ IsMark c ∧ pieces = [c] :: pieces' ∧ Cuts rest pieces') ∨
    (∃ c tail rest pieces', cs = (c :: tail) ++ rest ∧ (Text.isAsciiDigit c ∨ c = '.') ∧
      IsRun (c :: tail) ∧ (∀ d ∈ rest.head?, ¬ IsRun ((c :: tail) ++ [d])) ∧
      pieces = (c :: tail) :: pieces' ∧ Cuts rest pieces') := by
  cases h with
  | nil => exact .inl ⟨rfl, rfl⟩
  | separator hc h => exact .inr (.inl ⟨_, _, rfl, hc, h⟩)
  | mark hc h => exact .inr (.inr (.inl ⟨_, _, _, rfl, hc, rfl, h⟩))
  | @run run rest pieces hrun hmax h =>
    cases run with
    | nil => exact absurd rfl hrun.nonempty
    | cons c tail =>
      exact .inr (.inr (.inr ⟨c, tail, rest, pieces, rfl, hrun.digit_or_point c (.head tail), hrun,
        hmax, rfl, h⟩))

/-- **A text is cut in one way only.** -/
theorem Cuts.unique {cs : List Char} {pieces others : List (List Char)} (h : Cuts cs pieces)
    (h' : Cuts cs others) : pieces = others := by
  induction h generalizing others with
  | nil =>
    rcases cuts_cases h' with ⟨-, rfl⟩ | ⟨c, rest, hcs, -⟩ | ⟨c, rest, -, hcs, -⟩ |
      ⟨c, tail, rest, -, hcs, -⟩
    · rfl
    all_goals simp at hcs
  | separator hc h ih =>
    rcases cuts_cases h' with ⟨hcs, -⟩ | ⟨c, rest, hcs, -, hrest⟩ | ⟨c, rest, _, hcs, hm, -⟩ |
      ⟨c, tail, rest, _, hcs, hd, -⟩ <;> cases hcs
    · exact ih hrest
    · exact absurd (.inl hm) hc
    · exact absurd (.inr hd) hc
  | mark hm h ih =>
    rcases cuts_cases h' with ⟨hcs, -⟩ | ⟨c, rest, hcs, hc, -⟩ | ⟨c, rest, ps, hcs, -, rfl, hrest⟩ |
      ⟨c, tail, rest, _, hcs, hd, -⟩ <;> cases hcs
    · exact absurd (.inl hm) hc
    · rw [ih hrest]
    · exact absurd hd (not_digit_or_point_of_isMark hm)
  | run hrun hmax h ih =>
    obtain ⟨d, tail, rfl⟩ := List.exists_cons_of_ne_nil hrun.nonempty
    have hd := hrun.digit_or_point d (.head tail)
    rcases cuts_cases h' with ⟨hcs, -⟩ | ⟨c, rest, hcs, hc, -⟩ | ⟨c, rest, ps, hcs, hm, -⟩ |
      ⟨c, tail', rest, ps, hcs, -, hrun', hmax', rfl, hrest⟩
    · simp at hcs
    · cases hcs
      exact absurd (.inr hd) hc
    · cases hcs
      exact absurd hd (not_digit_or_point_of_isMark hm)
    · have heq := run_unique hcs hrun hrun' hmax hmax'
      rw [heq] at hcs ⊢
      rw [ih (List.append_cancel_left hcs ▸ hrest)]

/-- **What is kept of a text in its lexemes**: every character of the notation, in its order. -/
theorem Cuts.flatten {cs : List Char} {pieces : List (List Char)} (h : Cuts cs pieces) :
    pieces.flatten = cs.filter fun c => IsNotation c := by
  induction h with
  | nil => rfl
  | separator hc h ih =>
    rw [ih, List.filter_cons_of_neg]
    exact mt of_decide_eq_true hc
  | mark hm h ih =>
    have hc : IsNotation _ := .inl hm
    rw [List.flatten_cons, ih, List.filter_cons_of_pos (by exact decide_eq_true hc)]
    rfl
  | run hrun hmax h ih =>
    have hall : ∀ c ∈ _, decide (IsNotation c) :=
      fun c hc => decide_eq_true (Or.inr (hrun.digit_or_point c hc))
    rw [List.flatten_cons, ih, List.filter_append, List.filter_eq_self.2 hall]

/-! ## Stars by what is on the left -/

/-- A lexeme: a run, or a mark by itself. -/
def IsLexeme (a : List Char) : Prop :=
  IsRun a ∨ ∃ c, IsMark c ∧ a = [c]

theorem isName_singleton_iff {c : Char} : IsName [c] ↔ Text.isAsciiLetter c := by
  simp [IsName]

theorem not_isRun_singleton_of_isMark {c : Char} (h : IsMark c) : ¬ IsRun [c] :=
  fun hr => not_digit_or_point_of_isMark h (hr.digit_or_point c (.head []))

theorem not_isName_of_isRun {a : List Char} (h : IsRun a) : ¬ IsName a := by
  rintro ⟨hlength, hletter⟩
  obtain ⟨c, rfl⟩ := List.length_eq_one_iff.1 hlength
  exact not_isRun_singleton_of_isMark (.inl (hletter c (.head []))) h

theorem ne_closing_of_isRun {a : List Char} (h : IsRun a) : a ≠ [')'] := by
  rintro rfl
  exact absurd h (by decide)

theorem ofLexeme_eq_runToken (run : List Char) : Token.ofLexeme run = runToken run.reverse := by
  rw [runToken, List.reverse_reverse, Token.ofLexeme]

theorem ofLexeme_singleton (c : Char) : Token.ofLexeme [c] = Token.ofChar c :=
  Token.eq_ofChar_iff.2 String.toList_ofList

/-- What a run leaves on its right. -/
theorem sideAfter_ofLexeme_of_isRun {a : List Char} (h : IsRun a) :
    (Token.ofLexeme a).sideAfter = if a = ['.'] then .bare else .number := by
  rw [ofLexeme_eq_runToken, sideAfter_runToken (isRun_reverse h), sideOfRun, List.any_reverse]
  cases hd : a.any Text.isAsciiDigit with
  | true =>
    have hne : a ≠ ['.'] := by
      rintro rfl
      cases hd
    rw [if_pos rfl, if_neg hne]
  | false => rw [eq_point_of_not_any h hd, if_pos rfl, if_neg (by simp)]

/-- What a mark leaves on its right. -/
theorem sideAfter_ofLexeme_of_isMark {c : Char} (h : IsMark c) :
    (Token.ofLexeme [c]).sideAfter
      = if Text.isAsciiLetter c ∨ c = ')' then .operand else .bare := by
  rw [ofLexeme_singleton]
  rcases h with hl | hm
  · rw [if_pos (.inl hl), Token.sideAfter, Token.kind_of_isAsciiLetter hl]
  · simp only [List.mem_cons, List.not_mem_nil, or_false] at hm
    rcases hm with rfl | rfl | rfl | rfl | rfl | rfl | rfl | rfl <;> decide

/-- A name and a closing parenthesis are what is remembered as an operand that is no number. -/
theorem sideAfter_eq_operand_iff {a : List Char} (h : IsLexeme a) :
    (Token.ofLexeme a).sideAfter = .operand ↔ IsName a ∨ a = [')'] := by
  rcases h with hr | ⟨c, hc, rfl⟩
  · have hnot : ¬ (IsName a ∨ a = [')']) :=
      not_or.2 ⟨not_isName_of_isRun hr, ne_closing_of_isRun hr⟩
    rw [sideAfter_ofLexeme_of_isRun hr]
    split <;> simp [hnot]
  · rw [sideAfter_ofLexeme_of_isMark hc]
    split <;> simp_all [isName_singleton_iff]

/-- A literal is remembered too, and nothing else is. -/
theorem sideAfter_ne_bare_iff {a : List Char} (h : IsLexeme a) :
    (Token.ofLexeme a).sideAfter ≠ .bare ↔ IsName a ∨ a = [')'] ∨ IsNumeral a := by
  rcases h with hr | ⟨c, hc, rfl⟩
  · rw [sideAfter_ofLexeme_of_isRun hr]
    simp [IsNumeral, hr, not_isName_of_isRun hr, ne_closing_of_isRun hr]
  · rw [sideAfter_ofLexeme_of_isMark hc]
    have hnumeral : ¬ IsNumeral [c] := fun h => not_isRun_singleton_of_isMark hc h.1
    split <;> simp_all [isName_singleton_iff]

/-- The star before the first of the lexemes to come, by what is on the left. -/
def starBefore (left : LeftSide) : List (List Char) → List Token
  | [] => []
  | b :: _ =>
    if IsName b ∨ b = ['('] then starBeforeName left
    else if IsRun b then starBeforeNumber left else []

theorem starBefore_bare (pieces : List (List Char)) : starBefore .bare pieces = [] := by
  cases pieces with
  | nil => rfl
  | cons b rest => simp [starBefore, starBeforeName, starBeforeNumber]

/-- **What the lexer remembers of a lexeme is enough** to know the star behind it. -/
theorem starBefore_sideAfter {a b : List Char} {rest : List (List Char)} (ha : IsLexeme a) :
    starBefore (Token.ofLexeme a).sideAfter (b :: rest) = if CallsForStar a b then [star] else [] := by
  have hoperand := sideAfter_eq_operand_iff ha
  have hbare := sideAfter_ne_bare_iff ha
  rw [starBefore, starBeforeName, starBeforeNumber]
  by_cases hb : IsName b ∨ b = ['(']
  · have hr : ¬ IsRun b := by
      rintro hr
      rcases hb with hb | rfl
      · exact not_isName_of_isRun hr hb
      · exact absurd hr (by decide)
    have hcalls : CallsForStar a b ↔ (Token.ofLexeme a).sideAfter ≠ .bare := by
      simp only [CallsForStar, hb, hr, hbare, true_and, false_and, or_false]
    simp only [hcalls, if_pos hb, ite_not]
  · have hcalls : CallsForStar a b ↔ IsRun b ∧ (Token.ofLexeme a).sideAfter = .operand := by
      simp only [CallsForStar, hb, hoperand, false_and, false_or]
    by_cases hr : IsRun b <;> simp only [hcalls, if_neg hb, hr, true_and, false_and, if_true, if_false]

theorem withStars_cons {a : List Char} {pieces : List (List Char)} (ha : IsLexeme a) :
    withStars (a :: pieces) =
      Token.ofLexeme a :: (starBefore (Token.ofLexeme a).sideAfter pieces ++ withStars pieces) := by
  cases pieces with
  | nil => rfl
  | cons b rest =>
    rw [withStars, starBefore_sideAfter ha]
    split <;> rfl

/-! ## One pass -/

/-- The characters of a run are read into it one by one. -/
theorem scan_append_run {left : LeftSide} {run : List Char} (tail cs : List Char)
    (h : IsRun (tail.reverse ++ run)) (hne : run ≠ []) :
    scan ⟨some run, left⟩ (tail ++ cs) = scan ⟨some (tail.reverse ++ run), left⟩ cs := by
  induction tail generalizing run with
  | nil => rfl
  | cons c tail ih =>
    rw [List.reverse_cons, List.append_assoc] at h ⊢
    have hc : continues run c := by
      refine continues_of_isRun_cons (h.of_sublist ?_ (List.cons_ne_nil c run))
      exact List.sublist_append_right _ _
    have hstep : step ⟨some run, left⟩ c = (⟨some (c :: run), left⟩, []) := by
      simp only [step, hc, if_true]
    rw [List.cons_append, scan_cons, hstep]
    exact ih h (List.cons_ne_nil c run)

/-- A run that cannot be continued is given out, and the lexer starts afresh behind it. -/
theorem scan_of_maximal {left : LeftSide} {run cs : List Char}
    (h : ∀ c ∈ cs.head?, continues run c = false) :
    scan ⟨some run, left⟩ cs = runToken run :: scan ⟨none, sideOfRun run⟩ cs := by
  cases cs with
  | nil => rfl
  | cons c cs =>
    have hc := h c rfl
    rw [scan_cons, scan_cons, step_eq_start (l := ⟨some run, left⟩) fun run' hr => by cases hr; exact hc]
    rfl

/-- What only separates is dropped. -/
theorem start_of_not_isNotation {left : LeftSide} {c : Char} (hc : ¬ IsNotation c) :
    start left c = (⟨none, left⟩, []) := by
  rcases start_cases left c with ⟨hd, -⟩ | ⟨hm, -⟩ | ⟨hm, -⟩ | ⟨-, hs⟩
  · exact absurd (.inr hd) hc
  · exact absurd (.inl (isMark_of_name_or_opening hm)) hc
  · exact absurd (.inl (isMark_of_mem hm)) hc
  · exact hs

/-- A mark is given out at once, behind the star that it calls for. -/
theorem start_of_isMark {left : LeftSide} {c : Char} (hm : IsMark c) (pieces : List (List Char)) :
    start left c
      = (⟨none, (Token.ofChar c).sideAfter⟩, starBefore left ([c] :: pieces) ++ [Token.ofChar c]) := by
  rcases start_cases left c with ⟨hd, -⟩ | ⟨hname, hs⟩ | ⟨hother, hs⟩ | ⟨hnot, -⟩
  · exact absurd hd (not_digit_or_point_of_isMark hm)
  · have hb : IsName [c] ∨ [c] = ['('] := hname.imp isName_singleton_iff.2 (congrArg ([·]))
    rw [hs, starBefore, if_pos hb]
  · have hb : ¬ (IsName [c] ∨ [c] = ['(']) := by
      rw [isName_singleton_iff, List.cons_eq_cons]
      have hall : ['+', '-', '*', '/', '^', '=', ')'].all
          (fun d => ! (Text.isAsciiLetter d || d == '(')) = true := by decide
      simpa using List.all_eq_true.1 hall c hother
    rw [hs, starBefore, if_neg hb, if_neg (not_isRun_singleton_of_isMark hm)]
    rfl
  · exact absurd hm hnot

/-- A run as long as can be is read to its end and given out as one token. The star before it has
been given out with its first character. -/
theorem scan_run_append {left : LeftSide} {run cs : List Char} (hrun : IsRun run)
    (hmax : ∀ c ∈ cs.head?, ¬ IsRun (run ++ [c])) (pieces : List (List Char)) :
    scan ⟨none, left⟩ (run ++ cs) = starBefore left (run :: pieces)
      ++ Token.ofLexeme run :: scan ⟨none, (Token.ofLexeme run).sideAfter⟩ cs := by
  obtain ⟨c, tail, rfl⟩ := List.exists_cons_of_ne_nil hrun.nonempty
  have hd := hrun.digit_or_point c (.head tail)
  -- the lexer keeps the run last character first
  have hreversed : IsRun (tail.reverse ++ [c]) := by
    rw [← List.reverse_cons]
    exact isRun_reverse hrun
  have hmaximal : ∀ d ∈ cs.head?, continues (tail.reverse ++ [c]) d = false := by
    intro d hdmem
    cases hcont : continues (tail.reverse ++ [c]) d with
    | false => rfl
    | true =>
      have hlonger := isRun_reverse (isRun_cons hreversed hcont)
      simp only [List.reverse_cons, List.reverse_append, List.reverse_reverse] at hlonger
      exact absurd hlonger (hmax d hdmem)
  have hname : ¬ (IsName (c :: tail) ∨ c :: tail = ['(']) := by
    rintro (hn | heq)
    · exact not_isName_of_isRun hrun hn
    · rw [heq] at hrun
      exact absurd hrun (by decide)
  have hside : sideOfRun (tail.reverse ++ [c]) = (Token.ofLexeme (c :: tail)).sideAfter := by
    rw [← sideAfter_runToken hreversed, ofLexeme_eq_runToken, List.reverse_cons]
  rw [List.cons_append, scan_cons, step, start, if_pos hd,
    scan_append_run tail cs hreversed (List.cons_ne_nil c []), scan_of_maximal hmaximal, hside,
    starBefore, if_neg hname, if_pos hrun, ofLexeme_eq_runToken, List.reverse_cons]

/-- **The one pass gives the lexemes with their stars**, and before them the star that what is on
the left calls for. -/
theorem scan_eq_of_cuts {left : LeftSide} {cs : List Char} {pieces : List (List Char)}
    (h : Cuts cs pieces) : scan ⟨none, left⟩ cs = starBefore left pieces ++ withStars pieces := by
  induction h generalizing left with
  | nil => rfl
  | separator hc h ih =>
    rw [scan_cons, step, start_of_not_isNotation hc]
    exact ih
  | @mark c cs pieces hm h ih =>
    rw [scan_cons, step, start_of_isMark hm pieces, ih, withStars_cons (.inr ⟨c, hm, rfl⟩),
      ofLexeme_singleton, List.append_assoc]
    rfl
  | @run run cs pieces hrun hmax h ih =>
    rw [scan_run_append hrun hmax pieces, ih, withStars_cons (.inl hrun)]

/-- A line has the tokens of its lexemes, with no star before the first. -/
theorem Token.ofText_of_cuts {text : String} {pieces : List (List Char)}
    (h : Cuts text.toList pieces) : ofText text = withStars pieces := by
  rw [ofText, scan_eq_of_cuts h, starBefore_bare, List.nil_append]

/-- **The tokens of a line are its lexemes with stars put in.** A line is cut in one way, every
character of the notation is kept in its lexemes and in its order, and nothing but a star between
two neighbours that call for it is added. -/
theorem Token.ofText_eq_withStars (text : String) :
    ∃ pieces, Cuts text.toList pieces ∧ (∀ others, Cuts text.toList others → others = pieces) ∧
      Token.ofText text = withStars pieces ∧
      pieces.flatten = text.toList.filter fun c => IsNotation c := by
  obtain ⟨pieces, hcuts⟩ := exists_cuts text.toList
  refine ⟨pieces, hcuts, fun _ h => h.unique hcuts, ?_, hcuts.flatten⟩
  rw [Token.ofText, scan_eq_of_cuts hcuts, starBefore_bare, List.nil_append]

/-- Two numbers side by side, a name, and a lone point that is no operand. -/
example : withStars [['1', '.', '2'], ['.', '3'], ['x'], ['('], ['.'], [')'], ['4']]
    = Token.ofText "1.2.3 x(.)4" := by
  decide

end LineCalc
