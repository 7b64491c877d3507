import LineCalc.Proofs.Outcome.Substitution
import LineCalc.Proofs.Reckoner.Scan
import LineCalc.Proofs.Results
/-!
# LineCalc — what points have to do with a verdict

An expression in one name is looked at while its samples are taken, and only then. Which points
they are taken at is no matter, since a reading goes wrong by the form of its tokens and never by a
value (`Plot.forget_sample`): over any points the line is accepted, or has the same error
(`Outcome.error?_ofLine`). But there has to be a point. Over none, nothing is looked at, and every
line with one free variable is accepted as a plot without samples, be it an expression or not
(`Outcome.not_forall_ok_ofLine`).
-/

namespace LineCalc

variable {V : Type} [Arithmetic V] {limit : Int} {scope : String → Option V} {name : String}
variable {ts : List Token} {domain : List V}

/-! ## Samples -/

namespace Plot

/-- **A sample goes wrong by the form alone**, with the name that it is taken over bound. -/
theorem forget_sample (limit : Int) (scope : String → Option V) (name : String) (ts : List Token)
    (x : V) : (sample limit scope name ts x).map (fun _ => ())
      = Scan.verdict limit (fun n => decide (n = name) || (scope n).isSome) ts := by
  rw [← isSome_bind scope name x, ← Reckoner.map_evaluate, sample]
  cases Reckoner.evaluate limit (bind scope name x) ts <;> rfl

/-- **So do all of them**, wherever they are taken, as long as there is a point. -/
theorem forget_samples (hdomain : domain ≠ []) :
    (samples limit scope name ts domain).map (fun _ => ())
      = Scan.verdict limit (fun n => decide (n = name) || (scope n).isSome) ts :=
  forget_mapM (forget_sample limit scope name ts) hdomain

end Plot

/-! ## Lines -/

/-- What is wrong with tokens, as an error of their line. -/
def Scan.flaw? (limit : Int) (bound : String → Bool) (ts : List Token) : Option LineError :=
  match verdict limit bound ts with
  | .ok _ => none
  | .error e => some (.expr e)

/-- Whether a line is to be plotted over a name: it has no sign of an assignment, and the name is
its one free variable. Its form is not asked for. -/
def IsPlotLine (env : Environment V) (text name : String) : Prop :=
  Assignment.sign ∉ Token.ofText text ∧
    unknowns (fun n => (env.value? n).isSome) (Token.ofText text) = [name]

namespace Outcome

/-- What was wrong with a line, if it was not accepted. -/
def error? : Outcome V → Option LineError
  | failed e _ => some e
  | _ => none

omit [Arithmetic V] in
/-- A line is accepted exactly if nothing was wrong with it. -/
theorem ok_eq_isNone_error? (o : Outcome V) : o.ok = o.error?.isNone := by
  cases o <;> rfl

variable {env : Environment V} {text : String}

theorem error?_ofPlot (hdomain : domain ≠ []) : (ofPlot limit scope name ts domain).error?
    = Scan.flaw? limit (fun n => decide (n = name) || (scope n).isSome) ts := by
  rw [Scan.flaw?, ← Plot.forget_samples hdomain, ofPlot]
  cases Plot.samples limit scope name ts domain <;> rfl

theorem ofLine_of_isPlotLine (h : IsPlotLine env text name) :
    ofLine limit env domain text = ofPlot limit env.value? name (Token.ofText text) domain := by
  rw [ofLine_eq_ofExpression h.1, ofExpression, h.2]

/-- An assignment is no plot. -/
theorem ofAssignment_ne_plotted {a : Assignment} {pairs : List (V × V)} :
    ofAssignment limit scope a ≠ .plotted name pairs := by
  intro h
  unfold ofAssignment at h
  split at h
  · cases h
  · split at h <;> cases h

/-- **The lines that are plotted**, each over its one free variable and with the samples of its
tokens. -/
theorem ofLine_eq_plotted_iff {pairs : List (V × V)} :
    ofLine limit env domain text = .plotted name pairs ↔ IsPlotLine env text name ∧
      Plot.samples limit env.value? name (Token.ofText text) domain = .ok pairs := by
  constructor
  · intro h
    by_cases hsign : Assignment.sign ∈ Token.ofText text
    · rw [ofLine_of_sign_mem hsign] at h
      split at h
      · exact absurd h ofAssignment_ne_plotted
      · cases h
    · rw [ofLine_eq_ofExpression hsign] at h
      unfold ofExpression at h
      split at h
      · unfold ofTokens at h
        split at h <;> cases h
      · next first hunknowns =>
        unfold ofPlot at h
        split at h
        · next samples hsamples =>
          cases h
          exact ⟨⟨hsign, hunknowns⟩, hsamples⟩
        · cases h
      · cases h
  · rintro ⟨hline, hsamples⟩
    rw [ofLine_of_isPlotLine hline, ofPlot, hsamples]

/-- **Only a plot asks for points.** -/
theorem ofLine_eq_of_not_isPlotLine (h : ∀ name, ¬ IsPlotLine env text name)
    (domain domain' : List V) :
    ofLine limit env domain text = ofLine limit env domain' text := by
  by_cases hsign : Assignment.sign ∈ Token.ofText text
  · rw [ofLine_of_sign_mem hsign, ofLine_of_sign_mem hsign]
  · rw [ofLine_eq_ofExpression hsign, ofLine_eq_ofExpression hsign]
    unfold ofExpression
    split
    · rfl
    · next name hname => exact absurd ⟨hsign, hname⟩ (h name)
    · rfl

/-- **What the points of a domain have to do with the verdict on a line.** It is the same over any
two domains with points, as it is over two without. A line that is not to be plotted comes to the
same over all domains. And one that is comes, over no points, to a plot without samples; over points
it has the error that its tokens make with the name bound, if they make one. -/
theorem error?_ofLine (limit : Int) (env : Environment V) (text : String) :
    (∀ domain domain' : List V, (domain = [] ↔ domain' = []) →
      (ofLine limit env domain text).ok = (ofLine limit env domain' text).ok ∧
        (ofLine limit env domain text).error? = (ofLine limit env domain' text).error?) ∧
    ((∀ name, ¬ IsPlotLine env text name) →
      ∀ domain domain' : List V,
        ofLine limit env domain text = ofLine limit env domain' text) ∧
    ∀ name, IsPlotLine env text name →
      ofLine limit env [] text = .plotted name [] ∧
        ∀ domain : List V, domain ≠ [] → (ofLine limit env domain text).error?
          = Scan.flaw? limit (fun n => decide (n = name) || (env.value? n).isSome)
              (Token.ofText text) := by
  have hplot : ∀ name, IsPlotLine env text name → ∀ domain : List V, domain ≠ [] →
      (ofLine limit env domain text).error?
        = Scan.flaw? limit (fun n => decide (n = name) || (env.value? n).isSome)
            (Token.ofText text) := by
    intro name h domain hdomain
    rw [ofLine_of_isPlotLine h, error?_ofPlot hdomain]
  refine ⟨fun domain domain' hempty => ?_, ofLine_eq_of_not_isPlotLine, fun name h => ?_⟩
  · suffices herror : (ofLine limit env domain text).error?
        = (ofLine limit env domain' text).error? by
      exact ⟨by rw [ok_eq_isNone_error?, ok_eq_isNone_error?, herror], herror⟩
    by_cases hline : ∃ name, IsPlotLine env text name
    · obtain ⟨name, h⟩ := hline
      by_cases hnil : domain = []
      · rw [hnil, hempty.1 hnil]
      · rw [hplot name h domain hnil, hplot name h domain' (mt hempty.2 hnil)]
    · rw [ofLine_eq_of_not_isPlotLine (not_exists.1 hline) domain domain']
  · refine ⟨?_, hplot name h⟩
    rw [ofLine_of_isPlotLine h]
    rfl

/-- The line `2x+` is to be plotted over `x`. Without points it is, and at a point it has an error.
-/
theorem error?_ofLine_unfinished :
    IsPlotLine (Environment.empty : Environment Float) "2x+" "x" ∧
      ofLine 100 (Environment.empty : Environment Float) [] "2x+" = .plotted "x" [] ∧
      (ofLine 100 Environment.empty [(0 : Float)] "2x+").error?
        = some (.expr .unexpectedEnd) := by
  have hline : IsPlotLine (Environment.empty : Environment Float) "2x+" "x" :=
    ⟨by decide, rfl⟩
  obtain ⟨-, -, hplot⟩ := error?_ofLine 100 (Environment.empty : Environment Float) "2x+"
  obtain ⟨hnone, hsome⟩ := hplot "x" hline
  exact ⟨hline, hnone, hsome [0] (List.cons_ne_nil 0 [])⟩

/-- **Not every line has one verdict over all domains**: the line `x+` is accepted over no points.
-/
theorem not_forall_ok_ofLine :
    ¬ ∀ (limit : Int) (env : Environment Float) (domain domain' : List Float) (text : String),
      (ofLine limit env domain text).ok = (ofLine limit env domain' text).ok := by
  intro h
  have hsame := h 100 Environment.empty [] [0] "x+"
  have hnone : (ofLine 100 Environment.empty ([] : List Float) "x+").ok = true := rfl
  have hsome : (ofLine 100 Environment.empty [(0 : Float)] "x+").ok = false := rfl
  rw [hnone, hsome] at hsame
  cases hsame

end Outcome

end LineCalc
