import LineCalc.Proofs.Token.Lexer
/-!
# LineCalc — a definition put in for a name

In a text, each letter `v` is replaced by a definition in parentheses; among tokens, each token `v`
by the tokens of the definition between parentheses. The two commute with cutting a text into tokens
(`ofText_substitute`): to its left a parenthesis calls for the stars that a name calls for, to its
right it leaves what a name leaves, and in between the definition is cut as if it stood alone.
-/

namespace LineCalc

/-- A text with `(definition)` for every `v`. -/
def Text.substitute (v : Char) (definition text : String) : String :=
  String.ofList (text.toList.flatMap fun c =>
    if c = v then '(' :: definition.toList ++ [')'] else [c])

namespace Token

/-- A token, or the tokens of a definition in parentheses for the name `v`. -/
def substitute (v : Char) (definition : List Token) (t : Token) : List Token :=
  if t = ofChar v then ofChar '(' :: definition ++ [ofChar ')'] else [t]

theorem flatMap_substitute_eq_self {v : Char} {definition ts : List Token}
    (h : ∀ t ∈ ts, t ≠ ofChar v) : ts.flatMap (substitute v definition) = ts := by
  induction ts with
  | nil => rfl
  | cons t ts ih =>
    rw [List.flatMap_cons, substitute, if_neg (h t (.head ts)), ih fun u hu => h u (.tail t hu)]
    rfl

end Token

namespace Lexer

variable {v : Char} {l : Lexer}

/-- A number is no name. -/
theorem runToken_ne (hv : Text.isAsciiLetter v) {run : List Char} (h : IsRun run) :
    runToken run ≠ Token.ofChar v := by
  intro heq
  have hk := Token.kind_of_isAsciiLetter hv
  rcases kind_runToken h with ⟨n, hn, -⟩ | ⟨hn, -⟩ <;> rw [← heq, hn] at hk <;> cases hk

theorem flatMap_pending (hv : Text.isAsciiLetter v) (hl : l.WellFormed) (definition : List Token) :
    l.pending.flatMap (Token.substitute v definition) = l.pending := by
  refine Token.flatMap_substitute_eq_self fun t ht => ?_
  obtain ⟨run, hrun, rfl⟩ := mem_pending hl ht
  exact runToken_ne hv hrun

theorem star_ne (hv : Text.isAsciiLetter v) : star ≠ Token.ofChar v := by
  intro heq
  rw [← Token.ofChar_injective heq] at hv
  cases hv

theorem starBeforeName_flatMap (hv : Text.isAsciiLetter v) (left : LeftSide)
    (definition : List Token) : (starBeforeName left).flatMap (Token.substitute v definition)
      = starBeforeName left := by
  refine Token.flatMap_substitute_eq_self fun t ht => ?_
  unfold starBeforeName at ht
  split at ht
  · cases ht
  · rw [List.mem_singleton.1 ht]
    exact star_ne hv

/-- Another character gives out the same tokens as before. -/
theorem flatMap_step (hv : Text.isAsciiLetter v) (hl : l.WellFormed) {c : Char} (hc : c ≠ v)
    (definition : List Token) :
    (l.step c).2.flatMap (Token.substitute v definition) = (l.step c).2 := by
  refine Token.flatMap_substitute_eq_self fun t ht => ?_
  rcases step_cases l c with ⟨run, -, -, hs⟩ | hs <;> rw [hs] at ht
  · cases ht
  rcases List.mem_append.1 ht with ht | ht
  · obtain ⟨run, hrun, rfl⟩ := mem_pending hl ht
    exact runToken_ne hv hrun
  · rcases mem_start ht with rfl | ⟨-, rfl⟩
    · exact star_ne hv
    · exact fun heq => hc (Token.ofChar_injective heq)

/-- A name after what has been read. -/
theorem step_letter (hv : Text.isAsciiLetter v) : l.step v
    = (⟨none, .operand⟩, l.pending ++ (starBeforeName l.side ++ [Token.ofChar v])) := by
  have hd := Text.not_isAsciiDigit_of_isAsciiLetter hv
  have hp : v ≠ '.' := by
    rintro rfl
    cases hv
  rw [step_eq_start fun run _ => not_continues hd hp, start, if_neg (by simp [hd, hp]), if_pos hv]

/-- An opening parenthesis after what has been read. -/
theorem step_opening : l.step '('
    = (⟨none, .bare⟩, l.pending ++ (starBeforeName l.side ++ [Token.ofChar '('])) := by
  rw [step_eq_start fun run _ => not_continues rfl (by decide)]
  rfl

/-- **Cutting and putting in commute**, from any lexer on. -/
theorem scan_substitute (hv : Text.isAsciiLetter v) (definition : String) (hl : l.WellFormed)
    (cs : List Char) :
    scan l (cs.flatMap fun c => if c = v then '(' :: definition.toList ++ [')'] else [c])
      = (scan l cs).flatMap (Token.substitute v (Token.ofText definition)) := by
  induction cs generalizing l with
  | nil => rw [List.flatMap_nil, scan_nil, flatMap_pending hv hl]
  | cons c cs ih =>
    rw [List.flatMap_cons, scan_cons, List.flatMap_append, ← ih (wellFormed_step hl c)]
    by_cases hc : c = v
    -- the parenthesis calls for the stars of the name, and its counterpart leaves an operand too
    · subst hc
      rw [if_pos rfl, step_letter hv]
      simp only [List.flatMap_append, List.flatMap_singleton]
      rw [flatMap_pending hv hl, starBeforeName_flatMap hv, Token.substitute, if_pos rfl]
      simp only [List.cons_append, List.append_assoc, List.nil_append]
      have hside : (Token.ofChar ')').sideAfter = .operand := rfl
      rw [scan_cons, step_opening, scan_append_mark _ _ _ (by decide), hside]
      simp only [Token.ofText, List.append_assoc, List.cons_append, List.nil_append]
    · rw [if_neg hc, flatMap_step hv hl hc]
      rfl

end Lexer

/-- **The tokens of a text with a definition put in** are its tokens with the definition's put
in. -/
theorem Token.ofText_substitute {v : Char} (hv : Text.isAsciiLetter v) (definition text : String) :
    ofText (Text.substitute v definition text)
      = (ofText text).flatMap (substitute v (ofText definition)) := by
  rw [ofText, Text.substitute, String.toList_ofList]
  exact Lexer.scan_substitute hv definition (Lexer.wellFormed_of_run_eq_none rfl) text.toList

end LineCalc
