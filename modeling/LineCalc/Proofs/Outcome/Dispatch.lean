import LineCalc.Answer
import LineCalc.Proofs.Assignment
import LineCalc.Proofs.Reckoner.Form
import LineCalc.Proofs.Results
import LineCalc.Proofs.Unknowns
/-!
# LineCalc — which line is what

Three parts of the program look at a line's tokens, each for itself: the splitter for the sign of an
assignment, the inspector for free variables, the reckoner for the form. Here their verdicts are put
together. A line is an expression or an assignment by the grammar alone (`IsExpressionLine`,
`IsAssignmentLine`), it is accepted exactly if it is one of the two, and what comes of it is told by
the names that are not bound (`ofLine_cases`).
-/

namespace LineCalc

open Grammar

variable {V : Type} {limit : Int} {scope : String → Option V} {ts : List Token} {name : String}

/-! ## Lines, by the grammar -/

/-- A line that is an expression, with one unbound name at most. -/
def IsExpressionLine (limit : Int) (scope : String → Option V) (ts : List Token) : Prop :=
  Assignment.sign ∉ ts ∧ IsExpression limit ts ∧
    ∀ m n, Unbound scope ts m → Unbound scope ts n → m = n

/-- A line that gives `name` the value of an expression without unbound names. -/
def IsAssignmentLine (limit : Int) (scope : String → Option V) (ts : List Token) (name : String) :
    Prop :=
  ∃ t rest, ts = t :: Assignment.sign :: rest ∧ t.isLetter ∧ t.text = name ∧
    IsExpression limit rest ∧ ∀ n, ¬ Unbound scope rest n

/-- A line is an assignment if it splits into one whose value is an expression. -/
theorem isAssignmentLine_iff : IsAssignmentLine limit scope ts name ↔
    ∃ a, Assignment.ofTokens ts = .ok a ∧ a.name = name ∧
      IsExpression limit a.value ∧ ∀ n, ¬ Unbound scope a.value n := by
  simp only [Assignment.ofTokens_eq_ok_iff]
  constructor
  · rintro ⟨t, rest, hts, hletter, hname, hform⟩
    exact ⟨⟨name, rest⟩, ⟨t, hletter, hname, hts⟩, rfl, hform⟩
  · rintro ⟨a, ⟨t, hletter, hname, hts⟩, rfl, hform⟩
    exact ⟨t, a.value, hts, hletter, hname, hform⟩

/-- No line is both. -/
theorem IsAssignmentLine.not_isExpressionLine (h : IsAssignmentLine limit scope ts name) :
    ¬ IsExpressionLine limit scope ts := by
  rintro ⟨hsign, -⟩
  obtain ⟨t, rest, rfl, -⟩ := h
  exact hsign (.tail _ (.head _))

/-- A line gives a value to one name. -/
theorem IsAssignmentLine.name_eq {other : String} (h : IsAssignmentLine limit scope ts name)
    (h' : IsAssignmentLine limit scope ts other) : name = other := by
  obtain ⟨t, rest, rfl, -, rfl, -⟩ := h
  obtain ⟨u, rest', hts, -, rfl, -⟩ := h'
  cases hts
  rfl

/-! ## Free variables of an expression -/

/-- **In an expression the free variables are the unbound names.** Elsewhere tokens that no
expression has would be among them. -/
theorem mem_unknowns_iff_unbound (h : IsExpression limit ts) :
    name ∈ unknowns (fun n => (scope n).isSome) ts ↔ Unbound scope ts name := by
  obtain ⟨e, rfl, -⟩ := h
  rw [mem_unknowns_iff]
  constructor
  · rintro ⟨t, ht, hfree, rfl⟩
    have hunbound := Token.bound_eq_false_of_isFree hfree
    have hletter : t.isLetter := by
      have hother := (e.kind_ne t ht).1
      unfold Token.isFree at hfree
      split at hfree
      · next hk => exact Token.isLetter_iff.2 hk
      · next hk => exact absurd hk hother
      · cases hfree
    exact ⟨t, ht, hletter, rfl, by simpa using hunbound⟩
  · rintro ⟨t, ht, hletter, rfl, hnone⟩
    refine ⟨t, ht, ?_, rfl⟩
    rw [Token.isFree_eq_of_isLetter hletter, hnone]
    rfl

theorem unknowns_eq_nil_iff_unbound (h : IsExpression limit ts) :
    unknowns (fun n => (scope n).isSome) ts = [] ↔ ∀ n, ¬ Unbound scope ts n := by
  rw [List.eq_nil_iff_forall_not_mem]
  exact forall_congr' fun n => not_congr (mem_unknowns_iff_unbound h)

section

variable [Arithmetic V] {domain : List V} {v : V} {samples : List (V × V)}

/-! ## Samples -/

omit [Arithmetic V] in
/-- A name that samples are taken over is bound, and the other names are as they were. -/
theorem unbound_bind_iff {x : V} {n : String} :
    Unbound (Plot.bind scope name x) ts n ↔ Unbound scope ts n ∧ n ≠ name := by
  unfold Unbound Plot.bind
  by_cases h : n = name
  · simp [h]
  · simp [h]

/-- **Samples are taken exactly of the expressions without other unbound names**, whatever the
points, as long as there is one. -/
theorem Plot.exists_samples_eq_ok_iff (hdomain : domain ≠ []) :
    (∃ samples, Plot.samples limit scope name ts domain = .ok samples) ↔
      IsExpression limit ts ∧ ∀ n, Unbound scope ts n → n = name := by
  have hsample : ∀ x, (∃ s, Plot.sample limit scope name ts x = .ok s) ↔
      IsExpression limit ts ∧ ∀ n, Unbound scope ts n → n = name := by
    intro x
    have hvalue : (∃ s, Plot.sample limit scope name ts x = .ok s) ↔
        ∃ y, Reckoner.evaluate limit (Plot.bind scope name x) ts = .ok y := by
      unfold Plot.sample
      cases Reckoner.evaluate limit (Plot.bind scope name x) ts <;> simp [Except.map]
    rw [hvalue, Reckoner.exists_evaluate_eq_ok_iff]
    simp only [unbound_bind_iff, not_and, ne_eq, not_not]
  unfold Plot.samples
  rw [exists_mapM_eq_ok_iff]
  obtain ⟨x, hx⟩ := List.exists_mem_of_ne_nil domain hdomain
  exact ⟨fun h => (hsample x).1 (h x hx), fun h y _ => (hsample y).2 h⟩

/-! ## What comes of a line -/

namespace Outcome

/-- **An expression has a value, samples, or an error**, by its unbound names. -/
theorem ofExpression_cases (limit : Int) (scope : String → Option V) (ts : List Token)
    (hdomain : domain ≠ []) :
    (IsExpression limit ts ∧ (∀ n, ¬ Unbound scope ts n) ∧
        ∃ v, ofExpression limit scope ts domain = .value v) ∨
      (∃ name, IsExpression limit ts ∧ Unbound scope ts name ∧
        (∀ n, Unbound scope ts n → n = name) ∧
        ∃ samples, ofExpression limit scope ts domain = .plotted name samples) ∨
      (¬ (IsExpression limit ts ∧ ∀ m n, Unbound scope ts m → Unbound scope ts n → m = n) ∧
        ∃ e names, ofExpression limit scope ts domain = .failed e names) := by
  have hmem : IsExpression limit ts → ∀ n,
      (n ∈ unknowns (fun n => (scope n).isSome) ts ↔ Unbound scope ts n) :=
    fun h n => mem_unknowns_iff_unbound h
  have hnodup : (unknowns (fun n => (scope n).isSome) ts).Nodup := nodup_unknowns
  unfold ofExpression
  rcases hu : unknowns (fun n => (scope n).isSome) ts with _ | ⟨first, _ | ⟨second, rest⟩⟩
  -- no free variable: a plain value, unless the form is wrong
  · cases he : Reckoner.evaluate limit scope ts with
    | ok v =>
      obtain ⟨hexpr, hnone⟩ := Reckoner.exists_evaluate_eq_ok_iff.1 ⟨v, he⟩
      exact .inl ⟨hexpr, hnone, v, by simp only [ofTokens, he]⟩
    | error e =>
      refine .inr (.inr ⟨?_, .expr e, [], by simp only [ofTokens, he]⟩)
      rintro ⟨hexpr, -⟩
      have hnone := (unknowns_eq_nil_iff_unbound hexpr).1 hu
      obtain ⟨v, hv⟩ := Reckoner.exists_evaluate_eq_ok_iff.2 ⟨hexpr, hnone⟩
      rw [he] at hv
      cases hv
  -- one: samples, unless it is a token that no expression has
  · cases hs : Plot.samples limit scope first ts domain with
    | ok samples =>
      obtain ⟨hexpr, honly⟩ := (Plot.exists_samples_eq_ok_iff hdomain).1 ⟨samples, hs⟩
      have hfirst : Unbound scope ts first := by
        rw [← hmem hexpr, hu]
        exact .head []
      exact .inr (.inl ⟨first, hexpr, hfirst, honly, samples, by simp only [ofPlot, hs]⟩)
    | error e =>
      refine .inr (.inr ⟨?_, .expr e, [first], by simp only [ofPlot, hs]⟩)
      rintro ⟨hexpr, -⟩
      have honly : ∀ n, Unbound scope ts n → n = first := by
        intro n hn
        have hn := (hmem hexpr n).2 hn
        rw [hu] at hn
        exact List.mem_singleton.1 hn
      obtain ⟨samples, hsamples⟩ := (Plot.exists_samples_eq_ok_iff hdomain).2 ⟨hexpr, honly⟩
      rw [hs] at hsamples
      cases hsamples
  -- two at least: in an expression they would be two unbound names
  · refine .inr (.inr ⟨?_, _, _, rfl⟩)
    rintro ⟨hexpr, hone⟩
    have hne : first ≠ second := by
      rintro rfl
      rw [hu] at hnodup
      exact (List.nodup_cons.1 hnodup).1 (.head rest)
    refine hne (hone first second ?_ ?_)
    · rw [← hmem hexpr, hu]
      exact .head _
    · rw [← hmem hexpr, hu]
      exact .tail _ (.head _)

/-- **An assignment gives its name a value, or is an error**, by the form of the value. -/
theorem ofAssignment_cases (limit : Int) (scope : String → Option V) (a : Assignment) :
    (IsExpression limit a.value ∧ (∀ n, ¬ Unbound scope a.value n) ∧
        ∃ v, ofAssignment limit scope a = .assigned a.name v) ∨
      (¬ (IsExpression limit a.value ∧ ∀ n, ¬ Unbound scope a.value n) ∧
        ∃ e names, ofAssignment limit scope a = .failed e names) := by
  unfold ofAssignment
  split
  · next first second rest hu =>
    -- refused before it is read, rightly: the value has an unbound name or is no expression
    refine .inr ⟨?_, _, _, rfl⟩
    rintro ⟨hexpr, hnone⟩
    have hfirst : first ∈ unknowns (fun n => (scope n).isSome) a.value := by
      rw [hu]
      exact .head _
    exact hnone first ((mem_unknowns_iff_unbound hexpr).1 hfirst)
  · cases he : Reckoner.evaluate limit scope a.value with
    | ok v =>
      obtain ⟨hexpr, hnone⟩ := Reckoner.exists_evaluate_eq_ok_iff.1 ⟨v, he⟩
      exact .inl ⟨hexpr, hnone, v, rfl⟩
    | error e =>
      refine .inr ⟨?_, _, _, rfl⟩
      intro hform
      obtain ⟨v, hv⟩ := Reckoner.exists_evaluate_eq_ok_iff.2 hform
      rw [he] at hv
      cases hv

/-- **The cases of a line.** It is an expression with a value, an expression in one name that has
samples, an assignment, or an error, each by its form and its unbound names. -/
theorem ofLine_cases (limit : Int) (env : Environment V) (hdomain : domain ≠ []) (text : String) :
    (IsExpressionLine limit env.value? (Token.ofText text) ∧
        (∀ n, ¬ Unbound env.value? (Token.ofText text) n) ∧
        ∃ v, ofLine limit env domain text = .value v) ∨
      (∃ name, IsExpressionLine limit env.value? (Token.ofText text) ∧
        Unbound env.value? (Token.ofText text) name ∧
        ∃ samples, ofLine limit env domain text = .plotted name samples) ∨
      (∃ name, IsAssignmentLine limit env.value? (Token.ofText text) name ∧
        ∃ v, ofLine limit env domain text = .assigned name v) ∨
      (¬ IsExpressionLine limit env.value? (Token.ofText text) ∧
        (∀ name, ¬ IsAssignmentLine limit env.value? (Token.ofText text) name) ∧
        ∃ e names, ofLine limit env domain text = .failed e names) := by
  by_cases hsign : Assignment.sign ∈ Token.ofText text
  · have hline : ¬ IsExpressionLine limit env.value? (Token.ofText text) := fun h => h.1 hsign
    rw [ofLine_of_sign_mem hsign]
    cases ha : Assignment.ofTokens (Token.ofText text) with
    | error e =>
      refine .inr (.inr (.inr ⟨hline, ?_, _, _, rfl⟩))
      intro name h
      obtain ⟨a, hok, -⟩ := isAssignmentLine_iff.1 h
      rw [ha] at hok
      cases hok
    | ok a =>
      rcases ofAssignment_cases limit env.value? a with ⟨hexpr, hnone, hv⟩ | ⟨hno, he⟩
      · have hassign := isAssignmentLine_iff.2 ⟨a, ha, rfl, hexpr, hnone⟩
        exact .inr (.inr (.inl ⟨a.name, hassign, hv⟩))
      · refine .inr (.inr (.inr ⟨hline, ?_, he⟩))
        intro name h
        obtain ⟨b, hok, -, hform⟩ := isAssignmentLine_iff.1 h
        rw [ha] at hok
        cases hok
        exact hno hform
  · rw [ofLine_eq_ofExpression hsign]
    have hline : ∀ name, ¬ IsAssignmentLine limit env.value? (Token.ofText text) name := by
      rintro name ⟨t, rest, hts, -⟩
      rw [hts] at hsign
      exact hsign (.tail _ (.head _))
    rcases ofExpression_cases limit env.value? (Token.ofText text) hdomain with
      ⟨hexpr, hnone, hv⟩ | ⟨name, hexpr, hname, honly, hs⟩ | ⟨hno, he⟩
    · have hone : IsExpressionLine limit env.value? (Token.ofText text) :=
        ⟨hsign, hexpr, fun m n hm _ => absurd hm (hnone m)⟩
      exact .inl ⟨hone, hnone, hv⟩
    · have hone : IsExpressionLine limit env.value? (Token.ofText text) :=
        ⟨hsign, hexpr, fun m n hm hn => (honly m hm).trans (honly n hn).symm⟩
      exact .inr (.inl ⟨name, hone, hname, hs⟩)
    · exact .inr (.inr (.inr ⟨fun h => hno h.2, hline, he⟩))

end Outcome

end

/-! ## The shape of an answer -/

namespace Answer

/-- **Which line is accepted, and as what.** A line is accepted exactly if it is an expression with
one unbound name at most, or gives a name the value of an expression without unbound names. A plain
answer has a result alone, a plot has its name and samples and no result, an assignment has its name
and a result, and each comes of its own lines only. A refused line has an error text and none of
these. -/
theorem shape_ofLine (limit : Int) (env : Environment Float) {domain : List Float}
    (hdomain : domain ≠ []) (text : String) :
    let ts := Token.ofText text
    let answer := ofOutcome (Outcome.ofLine limit env domain text)
    (answer.ok ↔ IsExpressionLine limit env.value? ts ∨
        ∃ name, IsAssignmentLine limit env.value? ts name) ∧
      ((∃ v, answer = ⟨true, some v, none, none, [], none⟩) ↔
        IsExpressionLine limit env.value? ts ∧ ∀ n, ¬ Unbound env.value? ts n) ∧
      (∀ name, (∃ samples, answer = ⟨true, none, none, none, [name], some samples⟩) ↔
        IsExpressionLine limit env.value? ts ∧ Unbound env.value? ts name) ∧
      (∀ name, (∃ v, answer = ⟨true, some v, none, some name, [], none⟩) ↔
        IsAssignmentLine limit env.value? ts name) ∧
      (answer.ok = false →
        ∃ message names, answer = ⟨false, none, some message, none, names, none⟩) := by
  dsimp only
  rcases Outcome.ofLine_cases limit env hdomain text with
    ⟨hline, hnone, v, h⟩ | ⟨name, hline, hname, samples, h⟩ | ⟨name, hline, v, h⟩ |
      ⟨hexpr, hassign, e, names, h⟩
  · have hassign : ∀ n, ¬ IsAssignmentLine limit env.value? (Token.ofText text) n :=
      fun n hn => hn.not_isExpressionLine hline
    rw [h, ofOutcome]
    simp [hline, hnone, hassign]
  · have hassign : ∀ n, ¬ IsAssignmentLine limit env.value? (Token.ofText text) n :=
      fun n hn => hn.not_isExpressionLine hline
    have hname' : ∀ n, Unbound env.value? (Token.ofText text) n ↔ name = n := by
      intro n
      refine ⟨hline.2.2 name n hname, ?_⟩
      rintro rfl
      exact hname
    rw [h, ofOutcome]
    simp [hline, hname', hassign]
  · have hexpr := hline.not_isExpressionLine
    have hname : ∀ n, IsAssignmentLine limit env.value? (Token.ofText text) n ↔ name = n := by
      intro n
      refine ⟨hline.name_eq, ?_⟩
      rintro rfl
      exact hline
    rw [h, ofOutcome]
    simp [hexpr, hname]
  · rw [h, ofOutcome]
    simp [hexpr, hassign]

/-- The line `2x` is plotted, at a single point and without room for a parenthesis. -/
theorem shape_ofLine_double : [(0 : Float)] ≠ [] ∧
    ∃ samples, ofOutcome (Outcome.ofLine 0 Environment.empty [0] "2x")
      = ⟨true, none, none, none, ["x"], some samples⟩ := by
  have hdomain : [(0 : Float)] ≠ [] := List.cons_ne_nil 0 []
  have hexpr : IsExpression 0 (Token.ofText "2x") := by
    let two : Tree .primary := .literal ⟨"2"⟩ ⟨2, 0⟩ rfl
    let x : Tree .primary := .name ⟨"x"⟩ rfl
    let double : Tree .product :=
      .product (.ofUnary (.ofPower (.ofPrimary two))) .mul rfl (.ofPower (.ofPrimary x))
    exact ⟨.ofProduct double, rfl, Nat.le_refl 0⟩
  have hunbound : ∀ n, Unbound (V := Float) Environment.empty.value? (Token.ofText "2x") n ↔
      n = "x" := by
    have htokens : Token.ofText "2x" = [⟨"2"⟩, ⟨"*"⟩, ⟨"x"⟩] := rfl
    intro n
    rw [htokens]
    constructor
    · rintro ⟨t, ht, hletter, rfl, -⟩
      simp only [List.mem_cons, List.not_mem_nil, or_false] at ht
      rcases ht with rfl | rfl | rfl
      · exact absurd hletter (by decide)
      · exact absurd hletter (by decide)
      · rfl
    · rintro rfl
      exact ⟨⟨"x"⟩, by decide, rfl, rfl, rfl⟩
  have hline : IsExpressionLine 0 (Environment.empty : Environment Float).value?
      (Token.ofText "2x") := by
    refine ⟨by decide, hexpr, ?_⟩
    intro m n hm hn
    rw [(hunbound m).1 hm, (hunbound n).1 hn]
  have hshape := shape_ofLine 0 Environment.empty hdomain "2x"
  exact ⟨hdomain, (hshape.2.2.1 "x").2 ⟨hline, (hunbound "x").2 rfl⟩⟩

end Answer

end LineCalc
