import LineCalc.Proofs.Assignment
import LineCalc.Proofs.Reckoner.Grammar
import LineCalc.Proofs.Unknowns
/-!
# LineCalc — what a line depends on

Of the variables a line asks for the values of its own tokens and for nothing else. The inspector
asks which of them are bound, the reckoner which values its names have, and a plot hides one name
more from them at each point. So two environments that agree on the tokens of a line give it one
outcome (`Outcome.ofLine_congr`): the order of the definitions, the lines that made them, and all
names that the line does not mention are of no account, whether the line is a value, an assignment,
a plot or an error of whatever kind.
-/

namespace LineCalc

variable {V : Type} {limit : Int} {scope scope' : String → Option V}
variable {ts : List Token} {name : String}

/-- **Free variables depend on which tokens are bound.** -/
theorem unknowns_congr (h : ∀ t ∈ ts, (scope t.text).isSome = (scope' t.text).isSome) :
    unknowns (fun n => (scope n).isSome) ts = unknowns (fun n => (scope' n).isSome) ts := by
  have hfree : ∀ t ∈ ts,
      t.isFree (fun n => (scope n).isSome) = t.isFree fun n => (scope' n).isSome :=
    fun t ht => Token.isFree_congr (h t ht)
  rw [unknowns, unknowns, List.filter_congr hfree]

variable [Arithmetic V] {domain : List V}

/-- The points hide the name that samples are taken over. -/
theorem Plot.samples_congr (h : ∀ t ∈ ts, t.text ≠ name → scope t.text = scope' t.text) :
    samples limit scope name ts domain = samples limit scope' name ts domain := by
  have hbind : ∀ x, ∀ t ∈ ts, bind scope name x t.text = bind scope' name x t.text := by
    intro x t ht
    by_cases hname : t.text = name
    · rw [bind, bind, if_pos hname, if_pos hname]
    · rw [bind, bind, if_neg hname, if_neg hname, h t ht hname]
  have hsample : sample limit scope name ts = sample limit scope' name ts := by
    funext x
    rw [sample, sample, Reckoner.evaluate_congr fun t ht _ => hbind x t ht]
  rw [samples, samples, hsample]

namespace Outcome

/-- An expression depends on its tokens, with whatever is wrong with it. -/
theorem ofExpression_congr (h : ∀ t ∈ ts, scope t.text = scope' t.text) :
    ofExpression limit scope ts domain = ofExpression limit scope' ts domain := by
  have hunknowns := unknowns_congr fun t ht => congrArg Option.isSome (h t ht)
  have hvalue : Reckoner.evaluate limit scope ts = Reckoner.evaluate limit scope' ts :=
    Reckoner.evaluate_congr fun t ht _ => h t ht
  have hplot : ∀ name, ofPlot limit scope name ts domain = ofPlot limit scope' name ts domain := by
    intro name
    rw [ofPlot, ofPlot, Plot.samples_congr fun t ht _ => h t ht]
  unfold ofExpression
  rw [hunknowns]
  split
  · rw [ofTokens, ofTokens, hvalue]
  · exact hplot _
  · rfl

/-- An assignment depends on the tokens of its value. -/
theorem ofAssignment_congr {a : Assignment} (h : ∀ t ∈ a.value, scope t.text = scope' t.text) :
    ofAssignment limit scope a = ofAssignment limit scope' a := by
  have hunknowns := unknowns_congr fun t ht => congrArg Option.isSome (h t ht)
  have hvalue : Reckoner.evaluate limit scope a.value = Reckoner.evaluate limit scope' a.value :=
    Reckoner.evaluate_congr fun t ht _ => h t ht
  rw [ofAssignment, ofAssignment, hunknowns, hvalue]

/-- **A line depends on the names that it mentions.** Two environments in which every token of a
line is unbound, or bound to one value, give the same outcome: the same value, target and samples,
and the same error with the same free variables. -/
theorem ofLine_congr (limit : Int) {env env' : Environment V} (domain : List V) {text : String}
    (h : ∀ t ∈ Token.ofText text, env.value? t.text = env'.value? t.text) :
    ofLine limit env domain text = ofLine limit env' domain text := by
  by_cases hsign : Assignment.sign ∈ Token.ofText text
  · rw [ofLine_of_sign_mem hsign, ofLine_of_sign_mem hsign]
    cases ha : Assignment.ofTokens (Token.ofText text) with
    | error e => rfl
    | ok a =>
      obtain ⟨t, -, -, hts⟩ := Assignment.ofTokens_eq_ok_iff.1 ha
      refine ofAssignment_congr fun u hu => h u ?_
      rw [hts]
      exact .tail _ (.tail _ hu)
  · rw [ofLine_eq_ofExpression hsign, ofLine_eq_ofExpression hsign]
    exact ofExpression_congr h

/-- One value of `x`, defined in one way and first. -/
def ordered : Environment Int :=
  Environment.ofList [("x", ⟨"x=2", 2⟩), ("q", ⟨"q=x", 2⟩)]

/-- The same value, defined in another way and last. -/
def reordered : Environment Int :=
  Environment.ofList [("y", ⟨"y=7", 7⟩), ("x", ⟨"x=y-5", 2⟩)]

/-- A plot over `z` asks for `x` alone. -/
theorem ofLine_reordered :
    (∀ t ∈ Token.ofText "3x^z", ordered.value? t.text = reordered.value? t.text) ∧
      ofLine 9 ordered [1, 5] "3x^z" = ofLine 9 reordered [1, 5] "3x^z" := by
  have hagree : ∀ t ∈ Token.ofText "3x^z", ordered.value? t.text = reordered.value? t.text := by
    decide
  exact ⟨hagree, ofLine_congr 9 [1, 5] hagree⟩

end Outcome

end LineCalc
