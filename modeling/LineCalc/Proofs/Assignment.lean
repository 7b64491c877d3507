import LineCalc.Outcome
import LineCalc.Proofs.Token.Lexer
import Mathlib.Data.List.TakeWhile
/-!
# LineCalc — what makes a line an assignment

A line is taken for an assignment as soon as it has an equals sign among its tokens
(`any_isSign_iff`), and it is one if its tokens are a name, the sign, and a value
(`ofTokens_eq_ok_iff`). A sign stands among the tokens exactly if it stands in the text
(`sign_mem_ofText_iff`), and without one the line is an expression
(`Outcome.ofLine_eq_ofExpression`). The value is what is written behind the sign
(`value_of_ofTokens`).
-/

namespace LineCalc

namespace Assignment

variable {t : Token} {ts : List Token} {a : Assignment}

/-- The token that signs an assignment. -/
def sign : Token :=
  Token.ofChar '='

theorem isSign_iff : isSign t ↔ t = sign := by
  rw [isSign, decide_eq_true_eq, Token.kind_eq_assign_iff, sign]

theorem any_isSign_iff : ts.any isSign ↔ sign ∈ ts := by
  simp only [List.any_eq_true, isSign_iff, exists_eq_right]

theorem ne_sign_of_isLetter (h : t.isLetter) : t ≠ sign := by
  rintro rfl
  cases h

/-- A text without an equals sign has no such token. -/
theorem sign_notMem_ofText {text : String} (h : '=' ∉ text.toList) :
    sign ∉ Token.ofText text := by
  suffices hne : ∀ t ∈ Token.ofText text, t ≠ sign from fun hmem => hne sign hmem rfl
  refine Token.forall_mem_ofText (by decide) (fun run hrun => ?_) fun c hc _ => ?_
  · intro heq
    have hkind := Lexer.kind_runToken hrun
    rw [heq] at hkind
    rcases hkind with ⟨n, hk, -⟩ | ⟨hk, -⟩ <;> cases hk
  · intro heq
    rw [Token.ofChar_injective heq] at hc
    exact h hc

/-- **Tokens make an assignment exactly if they are a name, the sign, and a value.** The sign is the
first one, and a second one is left to the value. -/
theorem ofTokens_eq_ok_iff :
    ofTokens ts = .ok a ↔ ∃ t, t.isLetter ∧ t.text = a.name ∧ ts = t :: sign :: a.value := by
  constructor
  · intro h
    have hsplit := List.takeWhile_append_dropWhile (p := (! isSign ·)) (l := ts)
    have hhead := List.head?_dropWhile_not (! isSign ·) ts
    unfold ofTokens at h
    split at h
    · cases h
    · cases h
    · next u value hdrop _ =>
      have hu : u = sign := by
        rw [hdrop] at hhead
        exact isSign_iff.1 (by simpa using hhead)
      split at h
      · next t htake =>
        split at h
        · next hletter =>
          cases h
          rw [hdrop, htake, hu] at hsplit
          exact ⟨t, hletter, rfl, hsplit.symm⟩
        · cases h
      · cases h
  · rintro ⟨t, hletter, hname, rfl⟩
    have ht : isSign t = false := by
      rw [Bool.eq_false_iff, ne_eq, isSign_iff]
      exact ne_sign_of_isLetter hletter
    have hsign : isSign sign = true := rfl
    simp only [ofTokens, List.dropWhile_cons, List.takeWhile_cons, ht, hsign, Bool.not_false,
      Bool.not_true, if_true, Bool.false_eq_true, if_false, hletter, hname]

/-! ## The text of a value -/

/-- The part of a line that is to have a value: what stands behind its first equals sign, or all of
it if there is none. -/
def valueText (text : String) : String :=
  match text.toList.dropWhile (· ≠ '=') with
  | [] => text
  | _ :: cs => String.ofList cs

theorem valueText_suffix (text : String) : (valueText text).toList <:+ text.toList := by
  have hsuffix := List.dropWhile_suffix (l := text.toList) (· ≠ '=')
  unfold valueText
  split
  · exact List.suffix_rfl
  · next c cs hdrop =>
    rw [hdrop] at hsuffix
    rw [String.toList_ofList]
    exact (List.suffix_cons c cs).trans hsuffix

theorem valueText_eq_self {text : String} (h : '=' ∉ text.toList) : valueText text = text := by
  have hdrop : text.toList.dropWhile (· ≠ '=') = [] := by
    refine List.dropWhile_eq_nil_iff.2 fun c hc => decide_eq_true ?_
    rintro rfl
    exact h hc
  rw [valueText, hdrop]

/-- **The first equals sign cuts a line in two**, with nothing left of it on either side. -/
theorem exists_ofText_eq {text : String} (h : '=' ∈ text.toList) :
    ∃ target, sign ∉ target ∧ Token.ofText text = target ++ sign :: Token.ofText (valueText text) := by
  have hsplit := List.takeWhile_append_dropWhile (p := (· ≠ '=')) (l := text.toList)
  have hhead := List.head?_dropWhile_not (fun c => decide (c ≠ '=')) text.toList
  cases hdrop : text.toList.dropWhile (· ≠ '=') with
  | nil =>
    have hall := List.dropWhile_eq_nil_iff.1 hdrop '=' h
    simp at hall
  | cons c cs =>
    rw [hdrop] at hhead hsplit
    obtain rfl : c = '=' := by simpa using hhead
    refine ⟨Token.ofText (String.ofList (text.toList.takeWhile (· ≠ '='))), ?_, ?_⟩
    · refine sign_notMem_ofText fun hmem => ?_
      rw [String.toList_ofList] at hmem
      simpa using List.mem_takeWhile_imp hmem
    · have hscan := Lexer.scan_append_mark ⟨none, .bare⟩ (text.toList.takeWhile (· ≠ '=')) cs
        (c := '=') (by decide)
      rw [hsplit] at hscan
      rw [valueText, hdrop, Token.ofText, Token.ofText, Token.ofText, String.toList_ofList,
        String.toList_ofList]
      exact hscan

/-- The sign is among the tokens wherever it is in the text. -/
theorem sign_mem_ofText_iff {text : String} : sign ∈ Token.ofText text ↔ '=' ∈ text.toList := by
  refine ⟨fun hsign => ?_, fun hmem => ?_⟩
  · by_contra hnot
    exact sign_notMem_ofText hnot hsign
  · obtain ⟨target, -, htokens⟩ := exists_ofText_eq hmem
    rw [htokens]
    exact List.mem_append_right target (.head _)

/-- **The value of an assignment is what stands behind its sign.** -/
theorem value_of_ofTokens {text : String} (h : ofTokens (Token.ofText text) = .ok a) :
    a.value = Token.ofText (valueText text) := by
  obtain ⟨t, hletter, -, htokens⟩ := ofTokens_eq_ok_iff.1 h
  have hmem : sign ∈ Token.ofText text := by
    rw [htokens]
    exact .tail _ (.head _)
  obtain ⟨target, htarget, hcut⟩ := exists_ofText_eq (sign_mem_ofText_iff.1 hmem)
  rw [htokens] at hcut
  -- the sign is behind one token on either side
  cases target with
  | nil => exact absurd (List.cons.inj hcut).1 (ne_sign_of_isLetter hletter)
  | cons u us =>
    have hrest := (List.cons.inj hcut).2
    cases us with
    | nil => exact (List.cons.inj hrest).2
    | cons v vs =>
      rw [← (List.cons.inj hrest).1] at htarget
      exact absurd (.tail u (.head vs)) htarget

end Assignment

namespace Outcome

variable {V : Type} [Arithmetic V] {limit : Int} {env : Environment V} {domain : List V}
variable {text : String}

/-- A line without the sign is an expression. -/
theorem ofLine_eq_ofExpression (h : Assignment.sign ∉ Token.ofText text) :
    ofLine limit env domain text = ofExpression limit env.value? (Token.ofText text) domain := by
  unfold ofLine
  exact if_neg (mt Assignment.any_isSign_iff.1 h)

/-- A line with the sign is an assignment, or no line at all. -/
theorem ofLine_of_sign_mem (h : Assignment.sign ∈ Token.ofText text) :
    ofLine limit env domain text =
      match Assignment.ofTokens (Token.ofText text) with
      | .ok a => ofAssignment limit env.value? a
      | .error e => .failed (.assignment e) [] := by
  unfold ofLine
  exact if_pos (Assignment.any_isSign_iff.2 h)

end Outcome

end LineCalc
