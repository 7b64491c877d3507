import LineCalc.Proofs.Assignment
import LineCalc.Proofs.Reckoner.Refusal
import LineCalc.Proofs.Results
import LineCalc.Proofs.Text.Characters
/-!
# LineCalc — what a line leaves besides itself

An outcome has words of its own: the name that was assigned or plotted, or the message of an error.
They are put together from the program's words and the texts of tokens, and so they can be shown
whatever the line holds (`Outcome.isShown_of_mem_words`).
-/

namespace LineCalc

open Text (HasOnly IsShown isShown_of_all)

/-! ## Errors of expressions -/

namespace ExprError

/-- The texts of tokens that an error names. -/
def texts : ExprError → List String
  | unknownVariable name => [name]
  | unexpected token => [token]
  | _ => []

/-- A message can be shown if the tokens in it can. -/
theorem isShown_message {e : ExprError} (h : ∀ s ∈ e.texts, IsShown s) : IsShown e.message := by
  cases e with
  | empty | unexpectedEnd | unmatchedParen => exact isShown_of_all (by decide)
  | unknownVariable name =>
    exact (isShown_of_all (by decide)).append (h name (List.mem_singleton.2 rfl))
  | unexpected token =>
    exact (isShown_of_all (by decide)).append (h token (List.mem_singleton.2 rfl))
  | tooDeep limit =>
    have hlimit := Text.isShown_toString limit
    exact ((isShown_of_all (by decide)).append hlimit).append (isShown_of_all (by decide))

end ExprError

namespace Reckoner

variable {V : Type} [Arithmetic V] {limit : Int} {scope : String → Option V} {r : Reckoner V}
variable {t : Token} {ts : List Token} {e : ExprError}

omit [Arithmetic V] in
/-- A token that is refused is the only one that the error names. -/
theorem texts_of_refuses (h : Refuses limit scope r t e) : ∀ s ∈ e.texts, t.text = s := by
  intro s hs
  cases h with
  | tooDeep => cases hs
  | unbound | noOperand | noOperator => exact (List.mem_singleton.1 hs).symm

/-- **An error names tokens of the expression only.** -/
theorem texts_of_evaluate (h : evaluate limit scope ts = .error e) :
    ∀ s ∈ e.texts, ∃ t ∈ ts, t.text = s := by
  rcases evaluate_eq_error_cases h with ⟨-, rfl⟩ | ⟨before, t, after, r, rfl, -, hrefuses⟩ |
    ⟨r, -, rfl | rfl⟩
  · exact List.forall_mem_nil _
  · intro s hs
    have hmem : t ∈ before ++ t :: after := List.mem_append_right _ (.head after)
    exact ⟨t, hmem, texts_of_refuses hrefuses s hs⟩
  -- at the end of the tokens there is none to name
  · exact List.forall_mem_nil _
  · exact List.forall_mem_nil _

end Reckoner

section

variable {V : Type} [Arithmetic V] {limit : Int} {scope : String → Option V} {ts : List Token}

/-- An error in a plot is one of the expression at some point. -/
theorem Plot.texts_of_samples {name : String} {domain : List V} {e : ExprError}
    (h : samples limit scope name ts domain = .error e) : ∀ s ∈ e.texts, ∃ t ∈ ts, t.text = s := by
  obtain ⟨x, -, hx⟩ := exists_of_mapM_eq_error h
  cases hvalue : Reckoner.evaluate limit (bind scope name x) ts with
  | error e' =>
    rw [sample, hvalue] at hx
    cases hx
    exact Reckoner.texts_of_evaluate hvalue
  | ok v =>
    rw [sample, hvalue] at hx
    cases hx

end

/-! ## Assignments -/

namespace Assignment

variable {ts : List Token}

/-- **What is wrong with an assignment can be shown**, if its tokens can. -/
theorem isShown_message_of_ofTokens {e : AssignmentError} (hts : ∀ t ∈ ts, IsShown t.text)
    (h : ofTokens ts = .error e) : IsShown e.message := by
  have htarget : ∀ t ∈ ts.takeWhile (! isSign ·), IsShown t.text :=
    fun t ht => hts t ((List.takeWhile_sublist _).subset ht)
  unfold ofTokens at h
  cases hvalue : ts.dropWhile (! isSign ·) with
  | nil =>
    rw [hvalue] at h
    cases h
    exact isShown_of_all (by decide)
  | cons sign value =>
    cases hname : ts.takeWhile (! isSign ·) with
    | nil =>
      rw [hvalue, hname] at h
      cases h
      exact isShown_of_all (by decide)
    | cons t rest =>
      rw [hname] at htarget
      rw [hvalue, hname] at h
      have hjoined : IsShown (String.join ((t :: rest).map (·.text))) := by
        refine Text.hasOnly_join fun s hs => ?_
        obtain ⟨u, hu, rfl⟩ := List.mem_map.1 hs
        exact htarget u hu
      cases rest with
      | nil =>
        simp only at h
        split at h
        · cases h
        · cases h
          exact (isShown_of_all (by decide)).append (htarget t (.head []))
      | cons u us =>
        cases h
        exact (isShown_of_all (by decide)).append hjoined

end Assignment

/-! ## Outcomes -/

namespace Outcome

variable {V : Type}

/-- The words of an outcome: the name that it is about, or the message. -/
def words : Outcome V → List String
  | value _ => []
  | assigned name _ => [name]
  | plotted name _ => [name]
  | failed error _ => [error.message]

variable {ts : List Token}

/-- Names that are free in shown tokens can be shown. -/
theorem isShown_of_mem_unknowns (bound : String → Bool) (hts : ∀ t ∈ ts, IsShown t.text) :
    ∀ name ∈ unknowns bound ts, IsShown name := by
  intro name hname
  obtain ⟨t, ht, -, rfl⟩ := mem_unknowns_iff.1 hname
  exact hts t ht

/-- An error that names tokens of the line. -/
theorem isShown_words_failed {e : ExprError} {names : List String}
    (hts : ∀ t ∈ ts, IsShown t.text) (he : ∀ s ∈ e.texts, ∃ t ∈ ts, t.text = s) :
    ∀ s ∈ (failed (V := V) (.expr e) names).words, IsShown s := by
  intro s hs
  rw [List.mem_singleton.1 hs]
  refine ExprError.isShown_message fun text htext => ?_
  obtain ⟨t, ht, rfl⟩ := he text htext
  exact hts t ht

theorem isShown_words_unknownVariables {names names' : List String}
    (hnames : ∀ name ∈ names, IsShown name) :
    ∀ s ∈ (failed (V := V) (.unknownVariables names) names').words, IsShown s := by
  intro s hs
  rw [List.mem_singleton.1 hs]
  have hlist : IsShown (", ".intercalate names) :=
    Text.hasOnly_intercalate (isShown_of_all (by decide)) hnames
  exact (isShown_of_all (by decide)).append hlist

variable [Arithmetic V] {limit : Int} {scope : String → Option V}

theorem isShown_words_ofExpression {domain : List V} (hts : ∀ t ∈ ts, IsShown t.text) :
    ∀ s ∈ (ofExpression limit scope ts domain).words, IsShown s := by
  have hnames := isShown_of_mem_unknowns (fun name => (scope name).isSome) hts
  unfold ofExpression
  rcases hfree : unknowns (fun name => (scope name).isSome) ts with _ | ⟨first, _ | ⟨second, rest⟩⟩ <;>
    rw [hfree] at hnames
  · simp only [ofTokens]
    cases hvalue : Reckoner.evaluate limit scope ts with
    | ok v => exact List.forall_mem_nil _
    | error e => exact isShown_words_failed hts (Reckoner.texts_of_evaluate hvalue)
  · simp only [ofPlot]
    cases hsamples : Plot.samples limit scope first ts domain with
    | ok samples =>
      intro s hs
      rw [List.mem_singleton.1 hs]
      exact hnames first (.head [])
    | error e => exact isShown_words_failed hts (Plot.texts_of_samples hsamples)
  · exact isShown_words_unknownVariables hnames

theorem isShown_words_ofAssignment {a : Assignment} (hname : IsShown a.name)
    (hvalue : ∀ t ∈ a.value, IsShown t.text) :
    ∀ s ∈ (ofAssignment limit scope a).words, IsShown s := by
  have hnames := isShown_of_mem_unknowns (fun name => (scope name).isSome) hvalue
  unfold ofAssignment
  split
  · next heq =>
    rw [heq] at hnames
    exact isShown_words_unknownVariables hnames
  · cases hresult : Reckoner.evaluate limit scope a.value with
    | ok v =>
      intro s hs
      rw [List.mem_singleton.1 hs]
      exact hname
    | error e => exact isShown_words_failed hvalue (Reckoner.texts_of_evaluate hresult)

/-- **The words of an outcome can be shown**, whatever characters the line holds. -/
theorem isShown_of_mem_words (limit : Int) (env : Environment V) (domain : List V)
    (text : String) : ∀ s ∈ (ofLine limit env domain text).words, IsShown s := by
  have hts : ∀ t ∈ Token.ofText text, IsShown t.text := fun t ht => Token.isShown_ofText ht
  by_cases hsign : Assignment.sign ∈ Token.ofText text
  · rw [ofLine_of_sign_mem hsign]
    cases hassign : Assignment.ofTokens (Token.ofText text) with
    | error e =>
      intro s hs
      rw [List.mem_singleton.1 hs]
      exact Assignment.isShown_message_of_ofTokens hts hassign
    | ok a =>
      obtain ⟨t, -, hname, heq⟩ := Assignment.ofTokens_eq_ok_iff.1 hassign
      rw [heq] at hts
      refine isShown_words_ofAssignment ?_ fun u hu => hts u (.tail t (.tail _ hu))
      rw [← hname]
      exact hts t (.head _)
  · rw [ofLine_eq_ofExpression hsign]
    exact isShown_words_ofExpression hts

end Outcome

end LineCalc
