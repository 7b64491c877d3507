import LineCalc.Json.Display
import LineCalc.Proofs.Json.Number
import LineCalc.Proofs.Text.Characters
/-!
# LineCalc — plain text can be shown

The plain text that stands in for a value where text is meant is made of words, digits and marks,
and of strings between quotes, in which what cannot be shown is written by its code. So it can be
shown, whatever the value is (`Json.isShown_displayInner`).
-/

namespace LineCalc

open Text (IsShown isPrintable hasOnly_ofList)

namespace Text

/-! ## Quoted text -/

theorem isPrintable_digitChar {n : Nat} (h : n < 16) : isPrintable (Nat.digitChar n) = true := by
  have hcases : ∀ n < 16, isPrintable (Nat.digitChar n) = true := by decide
  exact hcases n h

theorem isPrintable_of_mem_hexDigits {count n : Nat} {c : Char} (h : c ∈ hexDigits count n) :
    isPrintable c = true := by
  induction count generalizing n with
  | zero => cases h
  | succ count ih =>
    rcases List.mem_append.1 h with hmem | hlast
    · exact ih hmem
    · rw [List.mem_singleton.1 hlast]
      exact isPrintable_digitChar (Nat.mod_lt _ (by decide))

/-- A character between quotes is written with what can be shown. -/
theorem isPrintable_of_mem_quotedChar {quote c d : Char} (hquote : isPrintable quote = true)
    (h : d ∈ quotedChar quote c) : isPrintable d = true := by
  have hescape : ∀ {mark : Char} {rest : List Char}, isPrintable mark = true →
      (∀ e ∈ rest, isPrintable e = true) → d ∈ '\\' :: mark :: rest → isPrintable d = true := by
    intro mark rest hmark hrest hd
    rcases List.mem_cons.1 hd with rfl | hd
    · decide
    · rcases List.mem_cons.1 hd with rfl | hd
      · exact hmark
      · exact hrest d hd
  have hletter : ∀ {mark : Char}, isPrintable mark = true → d ∈ ['\\', mark] →
      isPrintable d = true := fun hmark => hescape hmark (List.forall_mem_nil _)
  have hcode : ∀ {mark : Char} {count n : Nat}, isPrintable mark = true →
      d ∈ '\\' :: mark :: hexDigits count n → isPrintable d = true :=
    fun hmark => hescape hmark fun _ => isPrintable_of_mem_hexDigits
  simp only [quotedChar] at h
  split at h
  · next hself =>
    rcases hself with rfl | rfl
    · exact hletter hquote h
    · exact hletter (by decide) h
  split at h
  · exact hletter (by decide) h
  split at h
  · exact hletter (by decide) h
  split at h
  · exact hletter (by decide) h
  split at h
  · next hprintable =>
    rw [List.mem_singleton.1 h]
    exact hprintable
  split at h
  · exact hcode (by decide) h
  split at h
  · exact hcode (by decide) h
  · exact hcode (by decide) h

/-- **A text between quotes can be shown.** -/
theorem isShown_quoted (s : String) : IsShown (quoted s) := by
  have hquote : ∀ cs : List Char,
      isPrintable (if '\'' ∈ cs ∧ '"' ∉ cs then '"' else '\'') = true := by
    intro cs
    split <;> decide
  refine hasOnly_ofList fun c hc => ?_
  rcases List.mem_cons.1 hc with rfl | hc
  · exact hquote _
  · rcases List.mem_append.1 hc with hc | hc
    · obtain ⟨d, -, hd⟩ := List.mem_flatMap.1 hc
      exact isPrintable_of_mem_quotedChar (hquote _) hd
    · rw [List.mem_singleton.1 hc]
      exact hquote _

end Text

/-! ## Numbers -/

namespace Layout

theorem isPrintable_of_mem_digits {n : Nat} {c : Char} (h : c ∈ digits n) : isPrintable c = true :=
  Text.isPrintable_of_isAsciiDigit (isAsciiDigit_of_mem_digits h)

theorem isPrintable_of_mem_sign {negative : Bool} {c : Char} (h : c ∈ sign negative) :
    isPrintable c = true := by
  cases negative with
  | true =>
    rw [List.mem_singleton.1 h]
    decide
  | false => cases h

theorem isPrintable_of_mem_exponentText {x : Int} {c : Char} (h : c ∈ exponentText x) :
    isPrintable c = true := by
  simp only [exponentText] at h
  rcases List.mem_cons.1 h with rfl | h
  · decide
  · rcases List.mem_cons.1 h with rfl | h
    · split <;> decide
    · split at h
      · rcases List.mem_cons.1 h with rfl | h
        · decide
        · exact isPrintable_of_mem_digits h
      · exact isPrintable_of_mem_digits h

/-- **A number can be shown**, however it is laid out. -/
theorem isPrintable_of_mem_place {l : Layout} (hmark : ∀ c ∈ l.wholeMark, isPrintable c = true)
    (d : Decimal) : ∀ c ∈ l.place d, isPrintable c = true := by
  have hpoint : isPrintable '.' = true := by decide
  have hzeros : ∀ k, ∀ c ∈ List.replicate k '0', isPrintable c = true := by
    intro k c hc
    rw [List.eq_of_mem_replicate hc]
    decide
  have hdigits : ∀ c ∈ digits d.digits, isPrintable c = true := fun _ => isPrintable_of_mem_digits
  have hexponent : ∀ x, ∀ c ∈ exponentText x, isPrintable c = true :=
    fun _ _ => isPrintable_of_mem_exponentText
  simp only [place]
  split
  · cases hds : digits d.digits with
    | nil => exact List.forall_mem_nil _
    | cons first rest =>
      rw [hds] at hdigits
      obtain ⟨hfirst, hrest⟩ := List.forall_mem_cons.1 hdigits
      cases rest with
      | nil => exact List.forall_mem_cons.2 ⟨hfirst, hexponent _⟩
      | cons second rest =>
        exact List.forall_mem_cons.2 ⟨hfirst, List.forall_mem_cons.2 ⟨hpoint,
          List.forall_mem_append.2 ⟨hrest, hexponent _⟩⟩⟩
  split
  · exact List.forall_mem_append.2 ⟨List.forall_mem_append.2 ⟨hdigits, hzeros _⟩, hmark⟩
  split
  · exact List.forall_mem_append.2 ⟨fun c hc => hdigits c (List.mem_of_mem_take hc),
      List.forall_mem_cons.2 ⟨hpoint, fun c hc => hdigits c (List.mem_of_mem_drop hc)⟩⟩
  · exact List.forall_mem_cons.2 ⟨hzeros 1 _ (.head _), List.forall_mem_cons.2 ⟨hpoint,
      List.forall_mem_append.2 ⟨hzeros _, hdigits⟩⟩⟩

end Layout

namespace Json

theorem isShown_intText (n : Int) : IsShown (String.ofList (intText n)) :=
  hasOnly_ofList (List.forall_mem_append.2
    ⟨fun _ => Layout.isPrintable_of_mem_sign, fun _ => Layout.isPrintable_of_mem_digits⟩)

theorem isShown_floatDisplay (x : Float) : IsShown (floatDisplay x) := by
  have hword : ['i', 'n', 'f'].all isPrintable = true := by decide
  have hmark : storedLayout.wholeMark.all isPrintable = true := by decide
  unfold floatDisplay
  split
  · exact Text.isShown_of_all (by decide)
  · exact hasOnly_ofList (List.forall_mem_append.2
      ⟨fun _ => Layout.isPrintable_of_mem_sign, List.all_eq_true.1 hword⟩)
  · exact hasOnly_ofList (List.forall_mem_append.2 ⟨fun _ => Layout.isPrintable_of_mem_sign,
      Layout.isPrintable_of_mem_place (List.all_eq_true.1 hmark) _⟩)

/-! ## Values -/

mutual

/-- **The plain text of a value inside another one can be shown.** -/
theorem isShown_displayInner : ∀ v : Json, IsShown v.displayInner
  | .null => Text.isShown_of_all (by decide)
  | .bool true => Text.isShown_of_all (by decide)
  | .bool false => Text.isShown_of_all (by decide)
  | .int n => isShown_intText n
  | .float x => isShown_floatDisplay x
  | .string s => Text.isShown_quoted s
  | .array items =>
    ((Text.isShown_of_all (by decide)).append (isShown_displayItems items)).append
      (Text.isShown_of_all (by decide))
  | .object members =>
    ((Text.isShown_of_all (by decide)).append (isShown_displayMembers members)).append
      (Text.isShown_of_all (by decide))

/-- So can items. -/
theorem isShown_displayItems : ∀ items : List Json, IsShown (displayItems items)
  | [] => Text.isShown_of_all (by decide)
  | [v] => isShown_displayInner v
  | v :: w :: rest =>
    ((isShown_displayInner v).append (Text.isShown_of_all (by decide))).append
      (isShown_displayItems (w :: rest))

/-- So can members. -/
theorem isShown_displayMembers : ∀ members : List (String × Json), IsShown (displayMembers members)
  | [] => Text.isShown_of_all (by decide)
  | [(name, v)] =>
    ((Text.isShown_quoted name).append (Text.isShown_of_all (by decide))).append
      (isShown_displayInner v)
  | (name, v) :: w :: rest =>
    ((((Text.isShown_quoted name).append (Text.isShown_of_all (by decide))).append
      (isShown_displayInner v)).append (Text.isShown_of_all (by decide))).append
      (isShown_displayMembers (w :: rest))

end

end Json

end LineCalc
