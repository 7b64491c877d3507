import LineCalc.Proofs.Outcome.Dispatch
import LineCalc.Proofs.Reckoner.Spacing
/-!
# LineCalc — the free variables of a line

Free variables are what a line lists of its tokens as neither known nor bound, and they are to be
names: single letters of the text (`AreVariables`). The letters that are listed are, in the order of
the text and each once. But one token is taken for a free variable that is no name: the lone point,
which the lexer gives out as a number and which no literal is. Where it stands in a line and is not
bound it is listed with the names, and so it is reported as an unknown variable, or plotted over
(`not_forall_isAsciiLetter`). Every line that does not list it lists variables
(`unknowns_ofLine`).
-/

namespace LineCalc

open Lexer

variable {bound : String → Bool} {cs : List Char} {pieces : List (List Char)} {name : String}
variable {c d : Char}

/-- **Names that are variables of a text**: letters of it that are not bound, each once and in the
order in which they first come up. -/
structure AreVariables (bound : String → Bool) (cs : List Char) (names : List String) : Prop where
  letter : ∀ name ∈ names, ∃ c ∈ cs, Text.isAsciiLetter c ∧ name = String.singleton c
  unbound : ∀ name ∈ names, bound name = false
  nodup : names.Nodup
  ordered : names.Pairwise fun a b => ∀ c d,
    a = String.singleton c → b = String.singleton d → cs.idxOf c < cs.idxOf d

/-! ## Letters and points in a text -/

/-- A lexeme with a letter in it is that letter. -/
theorem IsLexeme.eq_singleton {a : List Char} (h : IsLexeme a) (hletter : Text.isAsciiLetter c)
    (hc : c ∈ a) : a = [c] := by
  rcases h with hrun | ⟨d, -, rfl⟩
  · exact absurd (hrun.digit_or_point c hc) (not_digit_or_point_of_isMark (.inl hletter))
  · rw [List.mem_singleton.1 hc]

/-- A letter of the text is a lexeme of it. -/
theorem Cuts.singleton_mem_iff (h : Cuts cs pieces) (hletter : Text.isAsciiLetter c) :
    [c] ∈ pieces ↔ c ∈ cs := by
  refine ⟨fun hmem => h.mem_of_mem hmem (.head []), fun hc => ?_⟩
  have hkept : c ∈ pieces.flatten := by
    rw [h.flatten]
    exact List.mem_filter.2 ⟨hc, decide_eq_true (.inl (.inl hletter))⟩
  obtain ⟨a, ha, hca⟩ := List.mem_flatten.1 hkept
  rwa [← (h.isLexeme a ha).eq_singleton hletter hca]

/-- **Letters come up in a text as they do among its lexemes.** -/
theorem Cuts.idxOf_lt (h : Cuts cs pieces) (hd : Text.isAsciiLetter d)
    (hlt : (pieces.map String.ofList).idxOf (String.singleton c)
      < (pieces.map String.ofList).idxOf (String.singleton d)) : cs.idxOf c < cs.idxOf d := by
  obtain ⟨front, back, hsplit, hfront, hnot⟩ := idxOf_lt_idxOf_iff.1 hlt
  obtain ⟨front, back, rfl, rfl, rfl⟩ := List.map_eq_append_iff.1 hsplit
  -- the characters of the lexemes in front are kept of a beginning of the text
  have hflatten := h.flatten.symm
  rw [List.flatten_append] at hflatten
  obtain ⟨before, behind, rfl, hbefore, -⟩ := List.filter_eq_append_iff.1 hflatten
  obtain ⟨a, ha, hac⟩ := List.mem_map.1 hfront
  obtain rfl : a = [c] := by
    rw [← String.toList_ofList (l := a), hac, String.toList_singleton]
  refine idxOf_lt_idxOf_iff.2 ⟨before, behind, rfl, ?_, fun hmem => hnot ?_⟩
  · have hkept : c ∈ front.flatten := List.mem_flatten.2 ⟨[c], ha, .head []⟩
    rw [← hbefore] at hkept
    exact List.mem_of_mem_filter hkept
  · have hkept : d ∈ front.flatten := by
      rw [← hbefore]
      exact List.mem_filter.2 ⟨hmem, decide_eq_true (.inl (.inl hd))⟩
    obtain ⟨b, hb, hdb⟩ := List.mem_flatten.1 hkept
    obtain rfl := (h.isLexeme b (List.mem_append_left back hb)).eq_singleton hd hdb
    exact List.mem_map.2 ⟨[d], hb, rfl⟩

/-! ## Free lexemes -/

theorem kind_ofLexeme_eq_letter_iff {a : List Char} :
    (Token.ofLexeme a).kind = .letter ↔ IsName a := by
  rw [Token.kind_eq_letter_iff]
  constructor
  · rintro ⟨c, hc, htoken⟩
    have htext := Token.eq_ofChar_iff.1 htoken
    rw [Token.ofLexeme, String.toList_ofList] at htext
    subst htext
    exact isName_singleton_iff.2 hc
  · rintro ⟨hlength, hletter⟩
    obtain ⟨c, rfl⟩ := List.length_eq_one_iff.1 hlength
    exact ⟨c, hletter c (.head []), ofLexeme_singleton c⟩

/-- **The one lexeme that no expression has is the lone point.** -/
theorem kind_ofLexeme_eq_other_iff {a : List Char} (h : IsLexeme a) :
    (Token.ofLexeme a).kind = .other ↔ a = ['.'] := by
  refine ⟨fun hkind => ?_, fun hpoint => hpoint ▸ rfl⟩
  rcases h with hrun | ⟨c, hc | hc, rfl⟩
  · by_contra hpoint
    have hside := sideAfter_ofLexeme_of_isRun hrun
    rw [Token.sideAfter, hkind, if_neg hpoint] at hside
    cases hside
  · rw [kind_ofLexeme_eq_letter_iff.2 (isName_singleton_iff.2 hc)] at hkind
    cases hkind
  · simp only [List.mem_cons, List.not_mem_nil, or_false] at hc
    rcases hc with rfl | rfl | rfl | rfl | rfl | rfl | rfl | rfl <;> cases hkind

/-- **What is free is a name or the lone point.** -/
theorem isFree_ofLexeme_iff {a : List Char} (h : IsLexeme a) :
    (Token.ofLexeme a).isFree bound ↔
      (IsName a ∨ a = ['.']) ∧ bound (String.ofList a) = false := by
  have htext : (Token.ofLexeme a).text = String.ofList a := rfl
  rw [← kind_ofLexeme_eq_letter_iff, ← kind_ofLexeme_eq_other_iff h, Token.isFree, htext]
  split
  · next hkind => simp only [hkind, true_or, true_and, Bool.not_eq_true']
  · next hkind => simp only [hkind, or_true, true_and, Bool.not_eq_true']
  · next hletter hother =>
    simp only [Bool.false_eq_true, false_iff]
    exact fun hfree => hfree.1.elim hletter hother

/-- The stars that are put in are of no account. -/
theorem unknowns_withStars (bound : String → Bool) (pieces : List (List Char)) :
    unknowns bound (withStars pieces) = unknowns bound (pieces.map Token.ofLexeme) := by
  have hstar : star.isFree bound = false := rfl
  have hfilter : (withStars pieces).filter (·.isFree bound)
      = (pieces.map Token.ofLexeme).filter (·.isFree bound) := by
    induction pieces with
    | nil => rfl
    | cons a rest ih =>
      cases rest with
      | nil => rfl
      | cons b rest =>
        rw [withStars, List.map_cons]
        split
        · rw [List.filter_cons, List.filter_cons_of_neg (by rw [hstar]; exact Bool.false_ne_true),
            List.filter_cons, ih]
        · rw [List.filter_cons, List.filter_cons, ih]
  rw [unknowns, unknowns, hfilter]

/-- **Which names the tokens of a text list.** -/
theorem Cuts.mem_unknowns_iff (h : Cuts cs pieces) :
    name ∈ unknowns bound (withStars pieces) ↔ bound name = false ∧
      ((∃ c ∈ cs, Text.isAsciiLetter c ∧ name = String.singleton c) ∨
        (name = "." ∧ ['.'] ∈ pieces)) := by
  rw [unknowns_withStars, LineCalc.mem_unknowns_iff]
  constructor
  · rintro ⟨t, ht, hfree, rfl⟩
    obtain ⟨a, ha, rfl⟩ := List.mem_map.1 ht
    obtain ⟨hname | rfl, hbound⟩ := (isFree_ofLexeme_iff (h.isLexeme a ha)).1 hfree
    · obtain ⟨c, rfl⟩ := List.length_eq_one_iff.1 hname.1
      have hletter := isName_singleton_iff.1 hname
      exact ⟨hbound, .inl ⟨c, (h.singleton_mem_iff hletter).1 ha, hletter, rfl⟩⟩
    · exact ⟨hbound, .inr ⟨rfl, ha⟩⟩
  · have hlisted : ∀ a ∈ pieces, (IsName a ∨ a = ['.']) → bound (String.ofList a) = false →
        ∃ t ∈ pieces.map Token.ofLexeme, t.isFree bound ∧ t.text = String.ofList a :=
      fun a ha hname hbound => ⟨Token.ofLexeme a, List.mem_map_of_mem ha,
        (isFree_ofLexeme_iff (h.isLexeme a ha)).2 ⟨hname, hbound⟩, rfl⟩
    rintro ⟨hbound, ⟨c, hc, hletter, rfl⟩ | ⟨rfl, hpoint⟩⟩
    · exact hlisted [c] ((h.singleton_mem_iff hletter).2 hc) (.inl (isName_singleton_iff.2 hletter))
        hbound
    · exact hlisted ['.'] hpoint (.inr rfl) hbound

/-- The names come up in their order among the lexemes. -/
theorem pairwise_unknowns_withStars (bound : String → Bool) (pieces : List (List Char)) :
    (unknowns bound (withStars pieces)).Pairwise fun a b =>
      (pieces.map String.ofList).idxOf a < (pieces.map String.ofList).idxOf b := by
  have htexts : pieces.map String.ofList = (pieces.map Token.ofLexeme).map (·.text) := by
    rw [List.map_map]
    rfl
  rw [unknowns_withStars, htexts]
  exact pairwise_unknowns

/-- **Where the lone point is not listed, variables are.** -/
theorem Cuts.areVariables_iff (h : Cuts cs pieces) :
    AreVariables bound cs (unknowns bound (withStars pieces)) ↔
      "." ∉ unknowns bound (withStars pieces) := by
  constructor
  · rintro hvariables hpoint
    obtain ⟨c, -, hletter, hc⟩ := hvariables.letter "." hpoint
    obtain rfl : c = '.' := by simpa using congrArg String.toList hc.symm
    cases hletter
  · intro hpoint
    have hletter : ∀ name ∈ unknowns bound (withStars pieces),
        ∃ c ∈ cs, Text.isAsciiLetter c ∧ name = String.singleton c := by
      intro name hname
      rcases (h.mem_unknowns_iff.1 hname).2 with hc | ⟨rfl, -⟩
      · exact hc
      · exact absurd hname hpoint
    refine ⟨hletter, fun name hname => (h.mem_unknowns_iff.1 hname).1, nodup_unknowns, ?_⟩
    refine (pairwise_unknowns_withStars bound pieces).imp_of_mem fun ha hb hab => ?_
    obtain ⟨c, -, -, rfl⟩ := hletter _ ha
    obtain ⟨d, -, hd, rfl⟩ := hletter _ hb
    intro c' d' hc' hd'
    obtain rfl : c = c' := by simpa using congrArg String.toList hc'
    obtain rfl : d = d' := by simpa using congrArg String.toList hd'
    exact h.idxOf_lt hd hab

/-! ## What a line lists -/

namespace Outcome

variable {V : Type} [Arithmetic V] {limit : Int} {scope : String → Option V} {ts : List Token}
variable {env : Environment V} {domain : List V} {text : String} {names others : List String}

omit [Arithmetic V] in
/-- The free variables that an outcome lists. -/
def listed : Outcome V → List String
  | value _ => []
  | assigned _ _ => []
  | plotted name _ => [name]
  | failed _ names => names

theorem listed_ofExpression :
    (ofExpression limit scope ts domain).listed = unknowns (fun n => (scope n).isSome) ts := by
  unfold ofExpression
  split
  · next hu =>
    rw [hu, ofTokens]
    split <;> rfl
  · next name hu =>
    rw [hu, ofPlot]
    split <;> rfl
  · rfl

/-- A value that is found has no free variable that would have to be listed. -/
theorem listed_ofAssignment (a : Assignment) :
    (ofAssignment limit scope a).listed = unknowns (fun n => (scope n).isSome) a.value := by
  unfold ofAssignment
  split
  · next hu => exact hu.symm
  · cases he : Reckoner.evaluate limit scope a.value with
    | ok v =>
      obtain ⟨hexpr, hnone⟩ := Reckoner.exists_evaluate_eq_ok_iff.1 ⟨v, he⟩
      exact ((unknowns_eq_nil_iff_unbound hexpr).2 hnone).symm
    | error e => rfl

/-- **A line lists the free variables of its value**, unless it is refused for what stands before
the equals sign. -/
theorem listed_ofLine_cases (limit : Int) (env : Environment V) (domain : List V) (text : String) :
    ('=' ∈ text.toList ∧ ∃ e, Assignment.ofTokens (Token.ofText text) = .error e ∧
        ofLine limit env domain text = .failed (.assignment e) []) ∨
      (ofLine limit env domain text).listed = unknowns (fun n => (env.value? n).isSome)
        (Token.ofText (Assignment.valueText text)) := by
  by_cases hsign : '=' ∈ text.toList
  · rw [ofLine_of_sign_mem (Assignment.sign_mem_ofText_iff.2 hsign)]
    cases ha : Assignment.ofTokens (Token.ofText text) with
    | error e => exact .inl ⟨hsign, e, rfl, rfl⟩
    | ok a =>
      rw [← Assignment.value_of_ofTokens ha]
      exact .inr (listed_ofAssignment a)
  · rw [Assignment.valueText_eq_self hsign,
      ofLine_eq_ofExpression (mt Assignment.sign_mem_ofText_iff.1 hsign)]
    exact .inr listed_ofExpression

/-! An error that names unknown variables names those that are listed. -/

theorem names_eq_of_ofExpression
    (h : ofExpression limit scope ts domain = .failed (.unknownVariables names) others) :
    others = names := by
  unfold ofExpression at h
  split at h
  · rw [ofTokens] at h
    split at h <;> cases h
  · rw [ofPlot] at h
    split at h <;> cases h
  · cases h
    rfl

theorem names_eq_of_ofAssignment {a : Assignment}
    (h : ofAssignment limit scope a = .failed (.unknownVariables names) others) :
    others = names := by
  unfold ofAssignment at h
  split at h
  · cases h
    rfl
  · split at h <;> cases h

theorem names_eq_of_ofLine
    (h : ofLine limit env domain text = .failed (.unknownVariables names) others) :
    others = names := by
  by_cases hsign : Assignment.sign ∈ Token.ofText text
  · rw [ofLine_of_sign_mem hsign] at h
    split at h
    · exact names_eq_of_ofAssignment h
    · cases h
  · rw [ofLine_eq_ofExpression hsign] at h
    exact names_eq_of_ofExpression h

end Outcome

namespace Answer

theorem unknowns_ofOutcome (outcome : Outcome Float) :
    (ofOutcome outcome).unknowns = outcome.listed := by
  cases outcome <;> rfl

/-- **What a line lists as its free variables.** They are of the part of the line that is to have a
value, which is all of it, or what stands behind the equals sign. A name is listed if it is not
bound and is a letter of that part, or the lone point if that is among the lexemes; the names come
in the order in which they first come up, each once. So they are variables unless the lone point is
among them. An error that names unknown variables names all of these, and a plot is over the only
one. Nothing is listed of a line that is refused for what stands before the sign. -/
theorem unknowns_ofLine (limit : Int) (env : Environment Float) (domain : List Float)
    (text : String) :
    let outcome := Outcome.ofLine limit env domain text
    let answer := ofOutcome outcome
    let line := (Assignment.valueText text).toList
    line <:+ text.toList ∧
      (∃ pieces, Cuts line pieces ∧
        (('=' ∈ text.toList ∧ ∃ e, Assignment.ofTokens (Token.ofText text) = .error e ∧
            outcome = .failed (.assignment e) []) ∨
          ∀ name, name ∈ answer.unknowns ↔ env.value? name = none ∧
            ((∃ c ∈ line, Text.isAsciiLetter c ∧ name = String.singleton c) ∨
              (name = "." ∧ ['.'] ∈ pieces))) ∧
        answer.unknowns.Pairwise fun a b =>
          (pieces.map String.ofList).idxOf a < (pieces.map String.ofList).idxOf b) ∧
      (AreVariables (fun name => (env.value? name).isSome) line answer.unknowns ↔
        "." ∉ answer.unknowns) ∧
      (∀ names others, outcome = .failed (.unknownVariables names) others →
        answer.unknowns = names ∧
          answer.error = some ("Unknown variables: " ++ ", ".intercalate names)) ∧
      ∀ name samples, outcome = .plotted name samples → answer.unknowns = [name] := by
  dsimp only
  rw [unknowns_ofOutcome]
  obtain ⟨pieces, hcuts⟩ := exists_cuts (Assignment.valueText text).toList
  have hlisted := Outcome.listed_ofLine_cases limit env domain text
  rw [Token.ofText_of_cuts hcuts] at hlisted
  refine ⟨Assignment.valueText_suffix text, ⟨pieces, hcuts, ?_, ?_⟩, ?_, ?_, ?_⟩
  · refine hlisted.imp_right fun hlisted name => ?_
    rw [hlisted, hcuts.mem_unknowns_iff, Option.isSome_eq_false_iff, Option.isNone_iff_eq_none]
  · rcases hlisted with ⟨-, e, -, he⟩ | hlisted
    · rw [he]
      exact .nil
    · rw [hlisted]
      exact pairwise_unknowns_withStars _ pieces
  · rcases hlisted with ⟨-, e, -, he⟩ | hlisted
    · rw [he]
      exact iff_of_true ⟨nofun, nofun, .nil, .nil⟩ List.not_mem_nil
    · rw [hlisted]
      exact hcuts.areVariables_iff
  · intro names others h
    rw [h, Outcome.names_eq_of_ofLine h]
    exact ⟨rfl, rfl⟩
  · intro name samples h
    rw [h]
    rfl

/-- **Not all that is listed is a letter of the line**: of `.+x` the lone point is listed, too. -/
theorem not_forall_isAsciiLetter :
    ¬ ∀ (limit : Int) (env : Environment Float) (domain : List Float) (text : String),
      ∀ name ∈ (ofOutcome (Outcome.ofLine limit env domain text)).unknowns,
        ∃ c ∈ text.toList, Text.isAsciiLetter c ∧ name = String.singleton c := by
  intro h
  have hlisted : (ofOutcome (Outcome.ofLine 9 Environment.empty [] ".+x")).unknowns = [".", "x"] :=
    rfl
  obtain ⟨c, hc, hletter, hname⟩ := h 9 Environment.empty [] ".+x" "." (by rw [hlisted]; decide)
  obtain rfl : c = '.' := by simpa using congrArg String.toList hname.symm
  cases hletter

end Answer

end LineCalc
