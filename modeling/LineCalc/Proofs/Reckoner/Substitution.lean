import LineCalc.Outcome
import LineCalc.Proofs.Reckoner.Feed
import LineCalc.Proofs.Token.Substitution
/-!
# LineCalc — a definition put in for a name, reckoned

A name whose value is that of a definition can be replaced by the definition in parentheses
(`evaluate_substitute`). Two facts carry this. What a reckoner does with the tokens of an expression
does not depend on the levels around it (`feed_within`), so that the definition in parentheses does
to any level what its value would. And the tokens of a line never put a name behind an operand
(`Spaced`), so that where the name stands an operand is wanted.

The one difference is depth. The definition may open more parentheses than there is room for, and so
every statement here is up to the error of the nesting limit (`OrTooDeep`).
-/

namespace LineCalc

/-- The two results are the same, unless the first is the error of the nesting limit. -/
def OrTooDeep {α : Type} (limit : Int) (x y : Except ExprError α) : Prop :=
  x = .error (.tooDeep limit) ∨ x = y

namespace OrTooDeep

variable {α β : Type} {limit : Int} {x y : Except ExprError α}

theorem refl (x : Except ExprError α) : OrTooDeep limit x x := .inr rfl

/-- It is enough to go on alike from where both have got to. -/
theorem bind (h : OrTooDeep limit x y) {f g : α → Except ExprError β}
    (hfg : ∀ a, y = .ok a → OrTooDeep limit (f a) (g a)) :
    OrTooDeep limit (x.bind f) (y.bind g) := by
  rcases h with rfl | rfl
  · exact .inl rfl
  · cases x with
    | ok a => exact hfg a rfl
    | error e => exact .inr rfl

end OrTooDeep

namespace Reckoner

variable {V : Type} [Arithmetic V] {limit : Int} {scope : String → Option V}
variable {r r' : Reckoner V} {t : Token} {ts es : List Token} {x : V}

/-- A reckoner with further levels around its own. -/
def within (r : Reckoner V) (around : List (Level V)) : Reckoner V :=
  { r with outer := r.outer ++ around }

/-- **The levels around stay out of it**, but for the room that they take. -/
theorem step_within (h : Takes limit scope r t r') (around : List (Level V)) :
    OrTooDeep limit ((r.within around).step limit scope t) (.ok (r'.within around)) := by
  cases h with
  | plus l outer => exact .inr (step_eq_ok_of_takes (.plus l (outer ++ around)))
  | minus l outer => exact .inr (step_eq_ok_of_takes (.minus l (outer ++ around)))
  | opening l outer h =>
    by_cases hroom : ((outer ++ around).length : Int) + 1 ≤ limit
    · exact .inr (step_eq_ok_of_takes (.opening l (outer ++ around) hroom))
    · refine .inl ?_
      rw [within, step, stepOperand]
      simp only [Token.kind_opening]
      rw [if_pos (by omega)]
  | literal l outer h => exact .inr (step_eq_ok_of_takes (.literal l (outer ++ around) h))
  | name l outer h hv => exact .inr (step_eq_ok_of_takes (.name l (outer ++ around) h hv))
  | operator v l outer op => exact .inr (step_eq_ok_of_takes (.operator v l (outer ++ around) op))
  | closing v l l' outer => exact .inr (step_eq_ok_of_takes (.closing v l l' (outer ++ around)))

theorem feed_within (h : feed limit scope r ts = .ok r') (around : List (Level V)) :
    OrTooDeep limit (feed limit scope (r.within around) ts) (.ok (r'.within around)) := by
  induction ts generalizing r with
  | nil =>
    cases h
    exact .refl _
  | cons t ts ih =>
    obtain ⟨r₁, htakes, hrest⟩ := exists_takes_of_feed_cons h
    rw [feed_cons]
    refine (step_within htakes around).bind (g := fun _ => _) fun a ha => ?_
    cases ha
    exact ih hrest

/-! ## A definition in parentheses -/

/-- **A definition in parentheses is its value**, at any level. -/
theorem feed_group (h : evaluate limit scope es = .ok x) (l : Level V) (outer : List (Level V)) :
    OrTooDeep limit
      (feed limit scope ⟨none, l, outer⟩ (Token.ofChar '(' :: es ++ [Token.ofChar ')']))
      (.ok ⟨some x, l, outer⟩) := by
  obtain ⟨r, hf, hv⟩ := evaluate_eq_ok_iff.1 h
  obtain ⟨w, l', rfl, rfl⟩ := finish_eq_ok_iff.1 hv
  rw [List.cons_append, feed_cons]
  by_cases hroom : (outer.length : Int) + 1 ≤ limit
  -- the definition is read as it was alone, with `l` and what is outside around it
  · rw [step_eq_ok_of_takes (.opening l outer hroom)]
    change OrTooDeep limit (feed limit scope (initial.within (l :: outer)) _) _
    rw [feed_append]
    refine (feed_within hf (l :: outer)).bind (g := fun _ => _) fun a ha => ?_
    cases ha
    exact .inr (feed_singleton_of_takes (.closing w l' l outer))
  · refine .inl ?_
    rw [step, stepOperand]
    simp only [Token.kind_opening]
    rw [if_pos (by omega)]
    rfl

/-- An operand is there only after a name, a number or a closing parenthesis. -/
theorem sideAfter_of_takes (h : Takes limit scope r t r') (hr : r'.operand.isSome) :
    t.sideAfter ≠ .bare := by
  cases h with
  | plus l outer => cases hr
  | minus l outer => cases hr
  | opening l outer h => cases hr
  | literal l outer h => simp [Token.sideAfter, Token.kind_eq_numeral_iff.2 h]
  | name l outer h hv => simp [Token.sideAfter, Token.isLetter_iff.1 h]
  | operator v l outer op => cases hr
  | closing v l l' outer => simp [Token.sideAfter]

variable {v : Char}

/-- **Putting a definition in for a name changes no run**, where the tokens keep their distance. -/
theorem feed_substitute (hv : Text.isAsciiLetter v) (h : evaluate limit scope es = .ok x)
    {left : LeftSide} (hts : Spaced left ts) (hr : r.operand.isSome → left ≠ .bare) :
    OrTooDeep limit (feed limit scope r (ts.flatMap (Token.substitute v es)))
      (feed limit (Plot.bind scope (Token.ofChar v).text x) r ts) := by
  induction ts generalizing r left with
  | nil => exact .refl _
  | cons t ts ih =>
    obtain ⟨ht, hts⟩ := hts
    rw [List.flatMap_cons, Token.substitute]
    by_cases hname : t = Token.ofChar v
    · subst hname
      have hk := Token.kind_of_isAsciiLetter hv
      rw [Token.MayFollow, hk] at ht
      obtain ⟨operand, l, outer⟩ := r
      cases operand with
      -- no name stands behind an operand
      | some w => exact absurd ht (hr rfl)
      | none =>
        have hx : Plot.bind scope (Token.ofChar v).text x (Token.ofChar v).text = some x :=
          if_pos rfl
        have htakes : Takes limit _ ⟨none, l, outer⟩ (Token.ofChar v) ⟨some x, l, outer⟩ :=
          .name l outer (Token.isLetter_iff.2 hk) hx
        rw [if_pos rfl, feed_append, feed_cons_of_takes htakes]
        refine (feed_group h l outer).bind (g := fun r => feed limit _ r ts) fun a ha => ?_
        cases ha
        exact ih hts fun _ => sideAfter_of_takes htakes rfl
    · have htext : t.text ≠ (Token.ofChar v).text :=
        fun htext => hname (Token.text_injective htext)
      have hstep : r.step limit (Plot.bind scope (Token.ofChar v).text x) t
          = r.step limit scope t :=
        step_congr r fun _ => if_neg htext
      rw [if_neg hname, List.singleton_append, feed_cons, feed_cons, hstep]
      refine OrTooDeep.bind (.refl _) fun a ha => ih hts fun hsome => ?_
      exact sideAfter_of_takes (step_eq_ok_iff.1 ha) hsome

theorem flatMap_substitute_eq_nil_iff : ts.flatMap (Token.substitute v es) = [] ↔ ts = [] := by
  cases ts with
  | nil => simp
  | cons t ts =>
    rw [List.flatMap_cons, Token.substitute]
    split <;> simp

/-- **Putting a definition in for a name changes no value**, and no error but that of the limit. -/
theorem evaluate_substitute (hv : Text.isAsciiLetter v) (h : evaluate limit scope es = .ok x)
    (hts : Spaced .bare ts) :
    OrTooDeep limit (evaluate limit scope (ts.flatMap (Token.substitute v es)))
      (evaluate limit (Plot.bind scope (Token.ofChar v).text x) ts) := by
  by_cases hnil : ts = []
  · rw [hnil]
    exact .refl _
  · rw [evaluate_eq_feed hnil, evaluate_eq_feed (mt flatMap_substitute_eq_nil_iff.1 hnil)]
    exact (feed_substitute hv h hts fun h => by cases h).bind fun a _ => .refl _

end Reckoner

end LineCalc
