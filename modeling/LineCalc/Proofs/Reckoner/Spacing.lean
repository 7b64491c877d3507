import LineCalc.Proofs.Assignment
import LineCalc.Proofs.Reckoner.Refusal
import LineCalc.Proofs.Reckoner.Substitution
import LineCalc.Proofs.Token.Lexeme
/-!
# LineCalc — the stars that are needed, and no others

The lexer puts a star in by the token on the left alone; the reckoner goes by all that it has taken.
As long as tokens are taken the two are in step: a reckoner has an operand exactly if the last token
is one that the lexer takes for the end of an operand (`isSome_operand_iff`). So the reckoner never
wants for a star before a name or a parenthesis (`Spaced.mayFollow`), and never stumbles over a star
that was put in: either there is an operand before a star, or the star was written
(`written_or_backed`).
-/

namespace LineCalc

open Lexer

/-! ## What is on the left -/

/-- What tokens leave on their right, behind what has left `left`. -/
def sideBehind (left : LeftSide) (ts : List Token) : LeftSide :=
  ts.foldl (fun _ t => t.sideAfter) left

section

variable {left : LeftSide} {t : Token} {ts us : List Token}

theorem sideBehind_cons : sideBehind left (t :: ts) = sideBehind t.sideAfter ts := rfl

theorem sideBehind_append : sideBehind left (ts ++ us) = sideBehind (sideBehind left ts) us :=
  List.foldl_append

/-- **Every token finds on its left what it may follow.** -/
theorem Spaced.mayFollow (h : Spaced left (ts ++ t :: us)) : t.MayFollow (sideBehind left ts) := by
  induction ts generalizing left with
  | nil => exact h.1
  | cons u ts ih => exact ih h.2

/-- A name and an opening parenthesis have no operand on their left. -/
theorem Token.MayFollow.eq_bare (h : t.MayFollow left) (ht : t.isLetter ∨ t = Token.ofChar '(') :
    left = .bare := by
  rcases ht with hletter | rfl
  · rwa [Token.MayFollow, Token.isLetter_iff.1 hletter] at h
  · exact h

end

/-! ## Written stars -/

theorem Cuts.isLexeme {cs : List Char} {pieces : List (List Char)} (h : Cuts cs pieces) :
    ∀ a ∈ pieces, IsLexeme a := by
  induction h with
  | nil => exact List.forall_mem_nil _
  | separator hc h ih => exact ih
  | mark hm h ih => exact List.forall_mem_cons.2 ⟨.inr ⟨_, hm, rfl⟩, ih⟩
  | run hrun hmax h ih => exact List.forall_mem_cons.2 ⟨.inl hrun, ih⟩

/-- A lexeme stands in its text. -/
theorem Cuts.mem_of_mem {cs : List Char} {pieces : List (List Char)} (h : Cuts cs pieces)
    {a : List Char} (ha : a ∈ pieces) {c : Char} (hc : c ∈ a) : c ∈ cs := by
  have hmem : c ∈ pieces.flatten := List.mem_flatten.2 ⟨a, ha, hc⟩
  rw [h.flatten] at hmem
  exact (List.mem_filter.1 hmem).1

theorem ofLexeme_eq_star_iff {a : List Char} : Token.ofLexeme a = Lexer.star ↔ a = ['*'] := by
  rw [Lexer.star, Token.eq_ofChar_iff, Token.ofLexeme, String.toList_ofList]

variable {left : LeftSide} {pieces : List (List Char)} {before after : List Token}

/-- A star that is put in has an operand on its left. -/
theorem starBefore_cases (left : LeftSide) (pieces : List (List Char)) :
    starBefore left pieces = [] ∨ (starBefore left pieces = [Lexer.star] ∧ left ≠ .bare) := by
  cases pieces with
  | nil => exact .inl rfl
  | cons b rest =>
    cases left with
    | bare => exact .inl (starBefore_bare _)
    | number | operand =>
      simp only [starBefore, starBeforeName, starBeforeNumber]
      split
      · exact .inr ⟨rfl, LeftSide.noConfusion⟩
      · split <;> simp

/-- No star is put in before a written one. -/
theorem starBefore_append_star (left : LeftSide) (front back : List (List Char)) :
    starBefore left (front ++ ['*'] :: back) = starBefore left front := by
  cases front with
  | nil =>
    have hname : ¬ (IsName ['*'] ∨ ['*'] = ['(']) := by decide
    have hrun : ¬ IsRun ['*'] := by decide
    simp only [List.nil_append, starBefore, hname, hrun, if_false]
  | cons a front => rfl

/-- **A star among the tokens was written, or it stands behind an operand.** A written one is a
lexeme of its own, and the tokens before it are those of the lexemes before it. -/
theorem written_or_backed (hlex : ∀ a ∈ pieces, IsLexeme a)
    (h : withStars pieces = before ++ Lexer.star :: after) :
    sideBehind left before ≠ .bare ∨
      ∃ front back, pieces = front ++ ['*'] :: back ∧ withStars front = before := by
  induction pieces generalizing left before with
  | nil => simp [withStars] at h
  | cons a pieces ih =>
    obtain ⟨ha, hpieces⟩ := List.forall_mem_cons.1 hlex
    rw [withStars_cons ha] at h
    cases before with
    | nil =>
      obtain ⟨hstar, -⟩ := List.cons.inj h
      exact .inr ⟨[], pieces, by rw [ofLexeme_eq_star_iff.1 hstar, List.nil_append], rfl⟩
    | cons u before =>
      obtain ⟨rfl, hrest⟩ := List.cons.inj h
      rw [sideBehind_cons]
      -- a written star further on is preceded by the lexemes up to it, with their stars
      have hwritten : ∀ front back, pieces = front ++ ['*'] :: back →
          before = starBefore (Token.ofLexeme a).sideAfter pieces ++ withStars front →
          ∃ front back, a :: pieces = front ++ ['*'] :: back ∧
            withStars front = Token.ofLexeme a :: before := by
        rintro front back rfl rfl
        refine ⟨a :: front, back, rfl, ?_⟩
        rw [withStars_cons ha, starBefore_append_star]
      rcases starBefore_cases (Token.ofLexeme a).sideAfter pieces with hnone | ⟨hone, hside⟩
      · rw [hnone] at hrest hwritten
        refine (ih hpieces hrest).imp_right ?_
        rintro ⟨front, back, hpieces, hfront⟩
        exact hwritten front back hpieces hfront.symm
      · rw [hone] at hrest hwritten
        cases before with
        | nil => exact .inl hside
        | cons u before =>
          obtain ⟨rfl, hbehind⟩ := List.cons.inj hrest
          refine (ih hpieces hbehind).imp_right ?_
          rintro ⟨front, back, hpieces, rfl⟩
          exact hwritten front back hpieces rfl

/-! ## In step -/

namespace Reckoner

variable {V : Type} [Arithmetic V] {limit : Int} {scope : String → Option V}
variable {r r' : Reckoner V} {t : Token} {ts : List Token} {name : String}

theorem isSome_operand_iff_of_takes (h : Takes limit scope r t r') :
    r'.operand.isSome ↔ t.sideAfter ≠ .bare := by
  refine ⟨sideAfter_of_takes h, fun hside => ?_⟩
  cases h with
  | plus | minus | opening => exact absurd rfl hside
  | literal | name | closing => rfl
  | operator v l outer op => simp [Token.sideAfter] at hside

/-- **Lexer and reckoner are in step.** Where tokens are taken, an operand is there exactly if the
lexer takes the last of them for the end of one. -/
theorem isSome_operand_iff (h : feed limit scope r ts = .ok r')
    (hr : r.operand.isSome ↔ left ≠ .bare) :
    r'.operand.isSome ↔ sideBehind left ts ≠ .bare := by
  induction ts generalizing r left with
  | nil =>
    cases h
    exact hr
  | cons t ts ih =>
    obtain ⟨r₁, htakes, hrest⟩ := exists_takes_of_feed_cons h
    exact ih hrest (isSome_operand_iff_of_takes htakes)

/-- **What is refused as unexpected**: no name and no parenthesis where no operand is on the left,
and no operator where one is. -/
theorem unexpected_cases (h : evaluate limit scope ts = .error (.unexpected name)) :
    ∃ before t after r, ts = before ++ t :: after ∧ feed limit scope initial before = .ok r ∧
      t.text = name ∧
      ((sideBehind .bare before = .bare ∧ ¬ t.isLetter ∧ t ≠ Token.ofChar '(') ∨
        (sideBehind .bare before ≠ .bare ∧ ∀ op, t ≠ Token.ofOperator op)) := by
  rcases evaluate_eq_error_cases h with ⟨-, he⟩ | ⟨before, t, after, r, hts, hbefore, hrefuses⟩ |
    ⟨r, -, he | he⟩
  · cases he
  · have hstep : r.operand.isSome ↔ sideBehind .bare before ≠ .bare :=
      isSome_operand_iff hbefore (by simp [initial])
    cases hrefuses with
    | noOperand l outer hplus hminus hopening hliteral hletter =>
      refine ⟨before, t, after, _, hts, hbefore, rfl, .inl ⟨?_, hletter, hopening⟩⟩
      by_contra hside
      exact absurd (hstep.2 hside) Bool.false_ne_true
    | noOperator v l outer hop hclosing =>
      exact ⟨before, t, after, _, hts, hbefore, rfl, .inr ⟨hstep.1 rfl, hop⟩⟩
  · cases he
  · cases he

/-! ## Lines -/

section

variable {text : String} {target tokens before after : List Token}

/-- Behind the sign of an assignment there is as little as at the start. -/
theorem sideBehind_target (h : target = [] ∨ ∃ name, target = name ++ [Assignment.sign])
    (before : List Token) : sideBehind .bare (target ++ before) = sideBehind .bare before := by
  have htarget : sideBehind .bare target = .bare := by
    rcases h with rfl | ⟨name, rfl⟩
    · rfl
    · rw [sideBehind_append]
      rfl
  rw [sideBehind_append, htarget]

/-- **No star is wanting**: a name or an opening parenthesis is never unexpected. -/
theorem evaluate_ne_unexpected (htarget : target = [] ∨ ∃ name, target = name ++ [Assignment.sign])
    (htokens : Token.ofText text = target ++ tokens) (ht : t.isLetter ∨ t = Token.ofChar '(') :
    evaluate limit scope tokens ≠ .error (.unexpected t.text) := by
  intro h
  obtain ⟨before, u, after, r, rfl, -, htext, hcases⟩ := unexpected_cases h
  obtain rfl := Token.text_injective htext
  rcases hcases with ⟨-, hletter, hopening⟩ | ⟨hoperand, -⟩
  · exact ht.elim hletter hopening
  · have hspaced := Token.spaced_ofText text
    rw [htokens, ← List.append_assoc] at hspaced
    exact hoperand ((sideBehind_target htarget before).symm.trans (hspaced.mayFollow.eq_bare ht))

/-- **No star is too many**: one that has no operand before it was written. -/
theorem exists_cuts_of_bare (htarget : target = [] ∨ ∃ name, target = name ++ [Assignment.sign])
    (htokens : Token.ofText text = target ++ (before ++ Lexer.star :: after))
    (hbare : sideBehind .bare before = .bare) :
    ∃ front back, Cuts text.toList (front ++ ['*'] :: back) ∧
      withStars front = target ++ before := by
  obtain ⟨pieces, hcuts⟩ := exists_cuts text.toList
  have hpieces : withStars pieces = (target ++ before) ++ Lexer.star :: after := by
    rw [List.append_assoc, ← htokens, Token.ofText_of_cuts hcuts]
  rcases written_or_backed hcuts.isLexeme hpieces with hbacked | ⟨front, back, rfl, hfront⟩
  · exact absurd ((sideBehind_target htarget before).trans hbare) hbacked
  · exact ⟨front, back, hcuts, hfront⟩

end

/-- **The stars of a line are those that its reading needs.** The tokens are all those of a line, or
those behind the sign of an assignment, and the names have any values. No name and no opening
parenthesis is unexpected, as it would be without the star before it. If a star is, it was written:
it is a lexeme of the line, and what was taken before it comes of the lexemes before it. -/
theorem unexpected_ofText (limit : Int) (scope : String → Option V) (text : String)
    {target tokens : List Token}
    (htarget : target = [] ∨ ∃ name, target = name ++ [Assignment.sign])
    (htokens : Token.ofText text = target ++ tokens) :
    (∀ t : Token, t.isLetter → evaluate limit scope tokens ≠ .error (.unexpected t.text)) ∧
      evaluate limit scope tokens ≠ .error (.unexpected "(") ∧
      (evaluate limit scope tokens = .error (.unexpected "*") → '*' ∈ text.toList ∧
        ∃ before after front back, tokens = before ++ Lexer.star :: after ∧
          (∃ r, feed limit scope initial before = .ok r) ∧
          Cuts text.toList (front ++ ['*'] :: back) ∧ withStars front = target ++ before) := by
  refine ⟨?_, ?_, fun h => ?_⟩
  · intro t ht
    exact evaluate_ne_unexpected htarget htokens (.inl ht)
  · exact evaluate_ne_unexpected (t := Token.ofChar '(') htarget htokens (.inr rfl)
  · obtain ⟨before, u, after, r, rfl, hbefore, htext, hcases⟩ := unexpected_cases h
    obtain rfl : u = Lexer.star := Token.text_injective htext
    rcases hcases with ⟨hbare, -, -⟩ | ⟨-, hop⟩
    · obtain ⟨front, back, hcuts, hfront⟩ := exists_cuts_of_bare htarget htokens hbare
      have hmem : '*' ∈ text.toList := hcuts.mem_of_mem (by simp) (List.mem_singleton.2 rfl)
      exact ⟨hmem, before, after, front, back, rfl, ⟨r, hbefore⟩, hcuts, hfront⟩
    -- an operand takes a star behind it
    · exact absurd rfl (hop .mul)

/-- The tokens behind the sign in `f=2(*x)y`. -/
def misplaced : List Token :=
  [⟨"2"⟩, ⟨"*"⟩, ⟨"("⟩, ⟨"*"⟩, ⟨"x"⟩, ⟨")"⟩, ⟨"*"⟩, ⟨"y"⟩]

/-- Two stars are put in there, and the third one, which is written, is unexpected. -/
theorem unexpected_misplaced :
    (∃ name, [⟨"f"⟩, Assignment.sign] = name ++ [Assignment.sign]) ∧
      Token.ofText "f=2(*x)y" = [⟨"f"⟩, Assignment.sign] ++ misplaced ∧
      evaluate 9 (fun _ => some (3 : Int)) misplaced = .error (.unexpected "*") ∧
      '*' ∈ "f=2(*x)y".toList := by
  have htarget : ∃ name, [⟨"f"⟩, Assignment.sign] = name ++ [Assignment.sign] := ⟨[⟨"f"⟩], rfl⟩
  have htokens : Token.ofText "f=2(*x)y" = [⟨"f"⟩, Assignment.sign] ++ misplaced := by decide
  have hunexpected : evaluate 9 (fun _ => some (3 : Int)) misplaced = .error (.unexpected "*") :=
    rfl
  obtain ⟨-, -, hwritten⟩ := unexpected_ofText 9 (fun _ => some (3 : Int)) "f=2(*x)y"
    (.inr htarget) htokens
  exact ⟨htarget, htokens, hunexpected, (hwritten hunexpected).1⟩

end Reckoner

end LineCalc
