import LineCalc.Proofs.Assignment
import LineCalc.Proofs.Reckoner.Grammar
import LineCalc.Proofs.Reckoner.Substitution
import LineCalc.Proofs.Unknowns
/-!
# LineCalc — a variable means its definition in parentheses

A line in which a name is replaced by a definition in parentheses has the outcome that the line has
once the name is bound to the definition's value (`ofLine_substitute`). Cutting into tokens, listing
free variables, reckoning and sampling each commute with the replacement; the only outcome that can
come in between is the nesting limit.
-/

namespace LineCalc

namespace Plot

variable {V : Type} {scope : String → Option V} {name other : String} {x y : V}

theorem isSome_bind (scope : String → Option V) (name : String) (x : V) :
    (fun n => (bind scope name x n).isSome)
      = fun n => decide (n = name) || (scope n).isSome := by
  funext n
  unfold bind
  by_cases h : n = name <;> simp [h]

/-- Bindings of two names can be made in either order. -/
theorem bind_comm (h : name ≠ other) :
    bind (bind scope name x) other y = bind (bind scope other y) name x := by
  funext n
  unfold bind
  by_cases hn : n = name
  · rw [if_neg (hn ▸ h), if_pos hn, if_pos hn]
  · rw [if_neg hn, if_neg hn]

end Plot

theorem Environment.value?_set {V : Type} (env : Environment V) (name : String)
    (d : Definition V) : (env.set name d).value? = Plot.bind env.value? name d.value := by
  funext other
  rw [value?, find?_set, Plot.bind]
  split <;> rfl

namespace OrTooDeep

variable {α β : Type} {limit : Int} {x y : Except ExprError α}

theorem map (h : OrTooDeep limit x y) (f : α → β) : OrTooDeep limit (x.map f) (y.map f) := by
  rcases h with rfl | rfl
  · exact .inl rfl
  · exact .inr rfl

/-- Results taken one after the other stop at the first error alike. -/
theorem mapM {f g : α → Except ExprError β} (h : ∀ a, OrTooDeep limit (f a) (g a)) (as : List α) :
    OrTooDeep limit (as.mapM f) (as.mapM g) := by
  induction as with
  | nil => exact .refl _
  | cons a as ih =>
    rw [List.mapM_cons, List.mapM_cons]
    exact (h a).bind fun b _ => ih.bind fun bs _ => .refl _

end OrTooDeep

section

variable {V : Type} [Arithmetic V] {limit : Int} {scope : String → Option V} {v : Char} {x : V}
variable {ts es : List Token} {domain : List V}

/-- **Sampling commutes with putting a definition in.** The definition has no free variables, and so
none of its names is hidden by the name that is sampled over. -/
theorem Plot.samples_substitute (hv : Text.isAsciiLetter v)
    (hes : unknowns (fun name => (scope name).isSome) es = [])
    (h : Reckoner.evaluate limit scope es = .ok x) (hts : Spaced .bare ts) {name : String}
    (hname : Plot.bind scope (Token.ofChar v).text x name = none) (domain : List V) :
    OrTooDeep limit (Plot.samples limit scope name (ts.flatMap (Token.substitute v es)) domain)
      (Plot.samples limit (Plot.bind scope (Token.ofChar v).text x) name ts domain) := by
  have hne : (Token.ofChar v).text ≠ name := by
    rintro rfl
    rw [Plot.bind, if_pos rfl] at hname
    cases hname
  rw [Plot.bind, if_neg hne.symm] at hname
  refine OrTooDeep.mapM (fun p => ?_) domain
  -- at each point the definition keeps its value: none of its names is the one sampled over
  have hp : Reckoner.evaluate limit (Plot.bind scope name p) es = .ok x := by
    rw [← h]
    refine Reckoner.evaluate_congr fun t ht hletter => ?_
    have hfree := unknowns_eq_nil_iff.1 hes t ht
    rw [Token.isFree_eq_of_isLetter hletter, Bool.not_eq_false'] at hfree
    have htext : t.text ≠ name := by
      rintro rfl
      rw [hname] at hfree
      cases hfree
    exact if_neg htext
  have := Reckoner.evaluate_substitute hv hp hts
  rw [← Plot.bind_comm hne] at this
  exact this.map _

namespace Outcome

/-- An expression is plain only if it has no free variables and a value. -/
theorem ofExpression_eq_value (h : ofExpression limit scope es domain = .value x) :
    unknowns (fun name => (scope name).isSome) es = [] ∧
      Reckoner.evaluate limit scope es = .ok x := by
  unfold ofExpression at h
  split at h
  · next hu =>
    unfold ofTokens at h
    split at h
    · next y hy =>
      cases h
      exact ⟨hu, hy⟩
    · cases h
  · unfold ofPlot at h
    split at h <;> cases h
  · cases h

theorem ofExpression_substitute (hv : Text.isAsciiLetter v)
    (hes : unknowns (fun name => (scope name).isSome) es = [])
    (h : Reckoner.evaluate limit scope es = .ok x) (hts : Spaced .bare ts) :
    (∃ names, ofExpression limit scope (ts.flatMap (Token.substitute v es)) domain
        = .failed (.expr (.tooDeep limit)) names) ∨
      ofExpression limit scope (ts.flatMap (Token.substitute v es)) domain
        = ofExpression limit (Plot.bind scope (Token.ofChar v).text x) ts domain := by
  unfold ofExpression
  rw [unknowns_substitute hv hes, Plot.isSome_bind]
  cases hu : unknowns
      (fun name => decide (name = (Token.ofChar v).text) || (scope name).isSome) ts with
  | nil =>
    simp only
    unfold ofTokens
    rcases Reckoner.evaluate_substitute hv h hts with hdeep | heq
    · rw [hdeep]
      exact .inl ⟨[], rfl⟩
    · rw [heq]
      exact .inr rfl
  | cons name rest =>
    cases rest with
    | cons second rest => exact .inr rfl
    | nil =>
      simp only
      unfold ofPlot
      have hname : Plot.bind scope (Token.ofChar v).text x name = none := by
        have hmem : name ∈ [name] := .head []
        rw [← hu, ← Plot.isSome_bind (x := x)] at hmem
        obtain ⟨t, -, hfree, rfl⟩ := mem_unknowns_iff.1 hmem
        simpa using Token.bound_eq_false_of_isFree hfree
      rcases Plot.samples_substitute hv hes h hts hname domain with hdeep | heq
      · rw [hdeep]
        exact .inl ⟨[name], rfl⟩
      · rw [heq]
        exact .inr rfl

/-- A line with a plain value is an expression. -/
theorem sign_notMem_of_ofLine_eq_value {env : Environment V} {text : String}
    (h : ofLine limit env domain text = .value x) : Assignment.sign ∉ Token.ofText text := by
  intro hsign
  rw [ofLine_of_sign_mem hsign] at h
  split at h
  · unfold ofAssignment at h
    split at h
    · cases h
    · split at h <;> cases h
  · cases h

/-- Putting a definition in puts no sign of an assignment in. -/
theorem sign_notMem_substitute {definition : List Token} (hts : Assignment.sign ∉ ts)
    (hdef : Assignment.sign ∉ definition) :
    Assignment.sign ∉ ts.flatMap (Token.substitute v definition) := by
  intro hmem
  obtain ⟨u, hu, hsign⟩ := List.mem_flatMap.1 hmem
  unfold Token.substitute at hsign
  split at hsign
  · simp only [List.cons_append, List.mem_cons, List.mem_append, List.not_mem_nil,
      or_false] at hsign
    rcases hsign with h | h | h
    · exact absurd h (by decide)
    · exact hdef h
    · exact absurd h (by decide)
  · rw [List.mem_singleton.1 hsign] at hts
    exact hts hu

/-- **A variable means its parenthesised definition.** Let a line without free variables have the
plain value `x`. Put in parentheses for every letter `v` of an expression, it gives the outcome that
the expression has with `v` bound to `x`: the same value, the same samples or the same error, with
the same free variables. The one thing that can come in between is the nesting limit. -/
theorem ofLine_substitute (limit : Int) (env : Environment V) (domain : List V) {v : Char}
    (hv : Text.isAsciiLetter v) {definition text : String} (htext : '=' ∉ text.toList) {x : V}
    (hdef : ofLine limit env domain definition = .value x) (line : String) :
    (∃ names, ofLine limit env domain (Text.substitute v definition text)
        = .failed (.expr (.tooDeep limit)) names) ∨
      ofLine limit env domain (Text.substitute v definition text)
        = ofLine limit (env.set (String.singleton v) ⟨line, x⟩) domain text := by
  have hsigns := sign_notMem_of_ofLine_eq_value hdef
  rw [ofLine_eq_ofExpression hsigns] at hdef
  obtain ⟨hes, hx⟩ := ofExpression_eq_value hdef
  have htextSigns := Assignment.sign_notMem_ofText htext
  rw [ofLine_eq_ofExpression htextSigns, Environment.value?_set, ofLine_eq_ofExpression (by
    rw [Token.ofText_substitute hv]
    exact sign_notMem_substitute htextSigns hsigns), Token.ofText_substitute hv]
  exact ofExpression_substitute hv hes hx (Token.spaced_ofText text)

/-- With `1+2` for `x`, the line `2x^2.5y-x` keeps its samples over `y`. -/
theorem ofLine_substitute_sum :
    Text.isAsciiLetter 'x' ∧ '=' ∉ "2x^2.5y-x".toList ∧
      ofLine 9 Environment.empty [1, 5] "1+2" = .value (3 : Int) ∧
      ((∃ names, ofLine 9 Environment.empty [(1 : Int), 5] (Text.substitute 'x' "1+2" "2x^2.5y-x")
          = .failed (.expr (.tooDeep 9)) names) ∨
        ofLine 9 Environment.empty [(1 : Int), 5] (Text.substitute 'x' "1+2" "2x^2.5y-x")
          = ofLine 9 (Environment.empty.set "x" ⟨"x=1+2", 3⟩) [1, 5] "2x^2.5y-x") :=
  ⟨by decide, by decide, rfl,
    ofLine_substitute 9 Environment.empty [1, 5] (by decide) (by decide) rfl "x=1+2"⟩

end Outcome

end

end LineCalc
