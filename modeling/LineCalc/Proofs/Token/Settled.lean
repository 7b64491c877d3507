import LineCalc.Proofs.Assignment
import LineCalc.Proofs.Token.Lexeme
import Mathlib.Data.List.Chain
/-!
# LineCalc — tokens written out and read again

A list of tokens is `Settled` if each is a lexeme and no two neighbours call for a star. The tokens
of a line are (`settled_ofText`), since a star that was put in calls for no other; and whatever is
settled is the tokens of a line, namely of the one that is written with a space between each two
(`ofText_toLine`). A space ends every run, and where nothing calls for a star none is put in. So a
line that is written out again from its tokens is the same to everything that looks at the tokens.
-/

namespace LineCalc

open Lexer

/-! ## Settled tokens -/

/-- **Tokens that need nothing more**: lexemes, of which no two neighbours call for a star. -/
structure Settled (ts : List Token) : Prop where
  lexeme : ∀ t ∈ ts, IsLexeme t.text.toList
  apart : ts.IsChain fun a b => ¬ CallsForStar a.text.toList b.text.toList

/-- Tokens with a space between each two. -/
def Token.toLine (ts : List Token) : String :=
  " ".intercalate (ts.map (·.text))

instance : DecidablePred IsMark := fun c =>
  inferInstanceAs (Decidable (Text.isAsciiLetter c ∨ c ∈ ['+', '-', '*', '/', '^', '=', '(', ')']))

instance : DecidablePred IsLexeme := fun a =>
  decidable_of_iff (IsRun a ∨ a.length = 1 ∧ a.all (fun c => decide (IsMark c)) = true) (by
    refine or_congr_right ⟨?_, ?_⟩
    · rintro ⟨hlength, hmark⟩
      obtain ⟨c, rfl⟩ := List.length_eq_one_iff.1 hlength
      exact ⟨c, by simpa using hmark, rfl⟩
    · rintro ⟨c, hc, rfl⟩
      exact ⟨rfl, by simpa using hc⟩)

instance : DecidablePred Settled := fun ts =>
  decidable_of_iff ((∀ t ∈ ts, IsLexeme t.text.toList) ∧
      ts.IsChain fun a b => ¬ CallsForStar a.text.toList b.text.toList)
    ⟨fun h => ⟨h.1, h.2⟩, fun h => ⟨h.lexeme, h.apart⟩⟩

variable {a b : List Char} {pieces : List (List Char)} {ts : List Token}

/-! ## The tokens of a line are settled -/

/-- Nothing is put in before a star. -/
theorem not_callsForStar_star (a : List Char) : ¬ CallsForStar a ['*'] := by
  have hname : ¬ (IsName ['*'] ∨ ['*'] = ['(']) := by decide
  have hrun : ¬ IsRun ['*'] := by decide
  simp only [CallsForStar, hname, hrun, false_and, or_false, not_false_eq_true]

/-- Nor behind one. -/
theorem not_star_callsForStar (b : List Char) : ¬ CallsForStar ['*'] b := by
  have hname : ¬ (IsName ['*'] ∨ ['*'] = [')']) := by decide
  have hoperand : ¬ (IsName ['*'] ∨ ['*'] = [')'] ∨ (IsRun ['*'] ∧ ['*'] ≠ ['.'])) := by decide
  simp only [CallsForStar, IsNumeral, hname, hoperand, and_false, or_false, not_false_eq_true]

@[simp] theorem toList_text_ofLexeme (a : List Char) : (Token.ofLexeme a).text.toList = a :=
  String.toList_ofList

/-- Stars put in leave the first lexeme the first. -/
theorem exists_withStars_cons (b : List Char) (rest : List (List Char)) :
    ∃ us, withStars (b :: rest) = Token.ofLexeme b :: us := by
  cases rest with
  | nil => exact ⟨[], rfl⟩
  | cons c rest =>
    rw [withStars]
    split <;> exact ⟨_, rfl⟩

/-- **Once the stars are put in, none is called for.** -/
theorem isChain_withStars (pieces : List (List Char)) :
    (withStars pieces).IsChain fun a b => ¬ CallsForStar a.text.toList b.text.toList := by
  induction pieces with
  | nil => exact .nil
  | cons a rest ih =>
    cases rest with
    | nil => exact .singleton _
    | cons b rest =>
      have hstar : star.text.toList = ['*'] := Token.toList_text_ofChar '*'
      obtain ⟨us, hus⟩ := exists_withStars_cons b rest
      rw [hus] at ih
      rw [withStars, hus]
      split
      -- the star that is put in takes the place of the one that was called for
      · refine .cons_cons ?_ (.cons_cons ?_ ih)
        · rw [hstar]
          exact not_callsForStar_star _
        · rw [hstar]
          exact not_star_callsForStar _
      · next hcalls =>
        refine .cons_cons ?_ ih
        rwa [toList_text_ofLexeme, toList_text_ofLexeme]

/-- **The tokens of a line are settled.** -/
theorem Token.settled_ofText (text : String) : Settled (ofText text) where
  lexeme := by
    refine forall_mem_ofText (by decide) (fun run hrun => .inl ?_) fun c _ hc => .inr ⟨c, hc, ?_⟩
    · rw [runToken, String.toList_ofList]
      exact isRun_reverse hrun
    · exact toList_text_ofChar c
  apart := by
    obtain ⟨pieces, hcuts⟩ := exists_cuts text.toList
    rw [ofText_of_cuts hcuts]
    exact isChain_withStars pieces

/-! ## Settled tokens are those of a line -/

/-- A lexeme is cut off where neither a digit nor a point follows. -/
theorem Cuts.lexeme {cs : List Char} (ha : IsLexeme a)
    (hend : ∀ c ∈ cs.head?, ¬ (Text.isAsciiDigit c ∨ c = '.')) (h : Cuts cs pieces) :
    Cuts (a ++ cs) (a :: pieces) := by
  rcases ha with hrun | ⟨c, hc, rfl⟩
  · refine .run hrun (fun c hc hlonger => hend c hc ?_) h
    exact hlonger.digit_or_point c (List.mem_append_right a (.head []))
  · exact .mark hc h

/-- **Lexemes with spaces between them are cut apart there.** -/
theorem cuts_intercalate (h : ∀ a ∈ pieces, IsLexeme a) :
    Cuts ([' '].intercalate pieces) pieces := by
  induction pieces with
  | nil => exact .nil
  | cons a rest ih =>
    obtain ⟨ha, hrest⟩ := List.forall_mem_cons.1 h
    cases rest with
    | nil =>
      have hend : ∀ c ∈ ([] : List Char).head?, ¬ (Text.isAsciiDigit c ∨ c = '.') := by
        intro c hc
        cases hc
      simpa using Cuts.nil.lexeme ha hend
    | cons b rest =>
      have hspace : ¬ IsNotation ' ' := by decide
      have hend : ∀ c ∈ (' ' :: [' '].intercalate (b :: rest)).head?,
          ¬ (Text.isAsciiDigit c ∨ c = '.') := by
        rintro c hc
        cases hc
        decide
      have hcuts : Cuts (a ++ ' ' :: [' '].intercalate (b :: rest)) (a :: b :: rest) :=
        (Cuts.separator hspace (ih hrest)).lexeme ha hend
      rwa [List.intercalate_cons_cons, List.append_assoc]

/-- Where nothing calls for a star, none is put in. -/
theorem withStars_eq_map (h : pieces.IsChain fun a b => ¬ CallsForStar a b) :
    withStars pieces = pieces.map Token.ofLexeme := by
  induction pieces with
  | nil => rfl
  | cons a rest ih =>
    cases rest with
    | nil => rfl
    | cons b rest =>
      obtain ⟨hab, hrest⟩ := List.isChain_cons_cons.1 h
      rw [withStars, if_neg hab, ih hrest]
      rfl

/-- **Settled tokens are read back from the line that they are written on.** -/
theorem Settled.ofText_toLine (h : Settled ts) : Token.ofText (Token.toLine ts) = ts := by
  have hlexeme : ∀ a ∈ ts.map (·.text.toList), IsLexeme a := by
    intro a ha
    obtain ⟨t, ht, rfl⟩ := List.mem_map.1 ha
    exact h.lexeme t ht
  have hline : (Token.toLine ts).toList = [' '].intercalate (ts.map (·.text.toList)) := by
    rw [Token.toLine, String.toList_intercalate, List.map_map]
    rfl
  have hcuts : Cuts (Token.toLine ts).toList (ts.map (·.text.toList)) := by
    rw [hline]
    exact cuts_intercalate hlexeme
  have hsame : ∀ t : Token, Token.ofLexeme t.text.toList = t := fun t =>
    Token.text_injective String.ofList_toList
  rw [Token.ofText_of_cuts hcuts, withStars_eq_map ((List.isChain_map _).2 h.apart), List.map_map]
  exact (List.map_congr_left fun t _ => hsame t).trans (List.map_id ts)

namespace Outcome

variable {V : Type} [Arithmetic V]

/-- A line comes to what its tokens come to. -/
theorem ofLine_eq_of_ofText_eq (limit : Int) (env : Environment V) (domain : List V)
    {text text' : String} (h : Token.ofText text = Token.ofText text') :
    ofLine limit env domain text = ofLine limit env domain text' := by
  rw [ofLine, ofLine, h]

end Outcome

/-- **Tokens and lines correspond.** The tokens of a line are lexemes of which no two neighbours
call for a star; every such list is read back from the line that it is written on with spaces; and
so a line that is written out from its tokens has the same tokens and comes to the same. -/
theorem Token.ofText_toLine_ofText {V : Type} [Arithmetic V] :
    (∀ text, Settled (ofText text)) ∧
      (∀ ts, Settled ts → ofText (toLine ts) = ts) ∧
      ∀ text, ofText (toLine (ofText text)) = ofText text ∧
        ∀ (limit : Int) (env : Environment V) (domain : List V),
          Outcome.ofLine limit env domain (toLine (ofText text))
            = Outcome.ofLine limit env domain text := by
  have hagain : ∀ text, ofText (toLine (ofText text)) = ofText text :=
    fun text => (settled_ofText text).ofText_toLine
  refine ⟨settled_ofText, fun ts h => h.ofText_toLine, fun text => ⟨hagain text, ?_⟩⟩
  intro limit env domain
  exact Outcome.ofLine_eq_of_ofText_eq limit env domain (hagain text)

/-- Two numbers side by side, and a lone point on either side of an operand. -/
def Token.pointed : List Token :=
  [⟨"1."⟩, ⟨".2"⟩, ⟨"="⟩, ⟨"."⟩, ⟨"x"⟩, ⟨"*"⟩, ⟨"."⟩, ⟨"("⟩, ⟨"3"⟩, ⟨")"⟩]

/-- They are settled, and read back. -/
theorem Token.ofText_toLine_pointed :
    Settled pointed ∧ ofText (toLine pointed) = pointed := by
  have hsettled : Settled pointed := by decide
  exact ⟨hsettled, (ofText_toLine_ofText (V := Float)).2.1 pointed hsettled⟩

end LineCalc
