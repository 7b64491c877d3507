import LineCalc.Proofs.Token.Substitution
import LineCalc.Outcome
import Mathlib.Data.List.Basic
/-!
# LineCalc — free variables, read back

The free variables of tokens are the texts of the tokens that are free (`mem_unknowns_iff`), each
once (`nodup_unknowns`) and in the order in which they first come up (`pairwise_unknowns`). A
definition without free variables that is put in for a name takes the name out of them and leaves
the others as they were (`unknowns_substitute`).
-/

namespace LineCalc

variable {bound bound' : String → Bool} {t : Token} {ts es : List Token} {name : String}

theorem Token.isFree_eq_of_isLetter (h : t.isLetter) : t.isFree bound = !bound t.text := by
  rw [isFree, isLetter_iff.1 h]

/-- A free token is not bound. -/
theorem Token.bound_eq_false_of_isFree (h : t.isFree bound) : bound t.text = false := by
  unfold isFree at h
  split at h
  · simpa using h
  · simpa using h
  · cases h

theorem Token.isFree_congr (h : bound t.text = bound' t.text) :
    t.isFree bound = t.isFree bound' := by
  unfold isFree
  split <;> simp [h]

theorem mem_unknowns_iff : name ∈ unknowns bound ts ↔ ∃ t ∈ ts, t.isFree bound ∧ t.text = name := by
  simp only [unknowns, List.mem_eraseDups, List.mem_map, List.mem_filter, and_assoc]

theorem unknowns_eq_nil_iff : unknowns bound ts = [] ↔ ∀ t ∈ ts, t.isFree bound = false := by
  constructor
  · intro h t ht
    cases hf : t.isFree bound with
    | false => rfl
    | true =>
      have hmem : t.text ∈ unknowns bound ts := mem_unknowns_iff.2 ⟨t, ht, hf, rfl⟩
      rw [h] at hmem
      cases hmem
  · intro h
    refine List.eq_nil_iff_forall_not_mem.2 fun name hmem => ?_
    obtain ⟨t, ht, hf, -⟩ := mem_unknowns_iff.1 hmem
    rw [h t ht] at hf
    cases hf

/-! ## Order -/

section

variable {α : Type} [BEq α] [LawfulBEq α] {xs : List α} {a b : α}

/-- One element comes up before another one if a beginning of the list has the one alone. -/
theorem idxOf_lt_idxOf_iff : xs.idxOf a < xs.idxOf b ↔
    ∃ front back, xs = front ++ back ∧ a ∈ front ∧ b ∉ front := by
  constructor
  · intro h
    have ha : a ∈ xs := List.idxOf_lt_length_iff.1 (Nat.lt_of_lt_of_le h List.idxOf_le_length)
    refine ⟨xs.take (xs.idxOf b), xs.drop (xs.idxOf b), (List.take_append_drop _ xs).symm,
      (List.mem_take_iff_idxOf_lt ha).2 h, fun hb => ?_⟩
    exact Nat.lt_irrefl _ ((List.mem_take_iff_idxOf_lt (List.mem_of_mem_take hb)).1 hb)
  · rintro ⟨front, back, rfl, ha, hb⟩
    have hlt := List.idxOf_lt_length_iff.2 ha
    rw [List.idxOf_append_of_mem ha, List.idxOf_append_of_notMem hb]
    omega

/-- What is left of a list comes up in the order of the list. -/
theorem idxOf_lt_of_filter {p : α → Bool} (hb : p b)
    (h : (xs.filter p).idxOf a < (xs.filter p).idxOf b) : xs.idxOf a < xs.idxOf b := by
  obtain ⟨front, back, hxs, ha, hnot⟩ := idxOf_lt_idxOf_iff.1 h
  obtain ⟨front, back, rfl, rfl, rfl⟩ := List.filter_eq_append_iff.1 hxs
  refine idxOf_lt_idxOf_iff.2 ⟨front, back, rfl, List.mem_of_mem_filter ha, fun hmem => ?_⟩
  exact hnot (List.mem_filter.2 ⟨hmem, hb⟩)

/-- **What is taken once each is taken in the order in which it first comes up.** -/
theorem pairwise_eraseDups (xs : List α) :
    xs.eraseDups.Pairwise fun a b => xs.idxOf a < xs.idxOf b := by
  induction hn : xs.length using Nat.strongRecOn generalizing xs with
  | ind n ih =>
    cases xs with
    | nil => exact .nil
    | cons x rest =>
      have hlen := List.length_filter_le (fun y => !y == x) rest
      simp only [List.length_cons] at hn
      -- behind `x` it is taken out
      have hrest : ∀ b ∈ (rest.filter fun y => !y == x).eraseDups, (!b == x) = true :=
        fun b hb => (List.mem_filter.1 (List.mem_eraseDups.1 hb)).2
      have hbehind : ∀ b, (!b == x) = true → (x :: rest).idxOf b = rest.idxOf b + 1 := by
        intro b hb
        refine List.idxOf_cons_ne rest ?_
        rintro rfl
        simp at hb
      rw [List.eraseDups_cons, List.pairwise_cons]
      refine ⟨fun b hb => ?_, (ih _ (by omega) _ rfl).imp_of_mem fun ha hb hab => ?_⟩
      · rw [hbehind b (hrest b hb), List.idxOf_cons_self]
        omega
      · rw [hbehind _ (hrest _ ha), hbehind _ (hrest _ hb)]
        have := idxOf_lt_of_filter (p := fun y => !y == x) (hrest _ hb) hab
        omega

end

/-- **Free variables are listed in the order in which they first come up.** -/
theorem pairwise_unknowns : (unknowns bound ts).Pairwise fun a b =>
    (ts.map (·.text)).idxOf a < (ts.map (·.text)).idxOf b := by
  refine (pairwise_eraseDups _).imp_of_mem fun {a b} _ hb hab => ?_
  obtain ⟨u, hu, rfl⟩ := List.mem_map.1 (List.mem_eraseDups.1 hb)
  obtain ⟨front, back, hxs, ha, hnot⟩ := idxOf_lt_idxOf_iff.1 hab
  obtain ⟨front, back, hts, rfl, rfl⟩ := List.map_eq_append_iff.1 hxs
  obtain ⟨front, back, rfl, rfl, rfl⟩ := List.filter_eq_append_iff.1 hts
  refine idxOf_lt_idxOf_iff.2 ⟨_, _, List.map_append, ?_, fun hmem => ?_⟩
  · exact (List.filter_sublist.map _).subset ha
  -- the token of a listed text is free wherever it stands
  · obtain ⟨t, ht, htext⟩ := List.mem_map.1 hmem
    obtain rfl := Token.text_injective htext
    exact hnot (List.mem_map_of_mem (List.mem_filter.2 ⟨ht, (List.mem_filter.1 hu).2⟩))

/-- **Each free variable is listed once.** -/
theorem nodup_unknowns : (unknowns bound ts).Nodup := by
  refine pairwise_unknowns.imp fun hlt heq => ?_
  rw [heq] at hlt
  exact Nat.lt_irrefl _ hlt

/-! ## Definitions put in -/

/-- A definition in parentheses without free variables adds none. -/
theorem filter_isFree_group (h : unknowns bound es = []) :
    (Token.ofChar '(' :: es ++ [Token.ofChar ')']).filter (·.isFree bound) = [] := by
  rw [List.filter_eq_nil_iff]
  intro t ht
  simp only [List.cons_append, List.mem_cons, List.mem_append, List.not_mem_nil, or_false] at ht
  rcases ht with rfl | ht | rfl
  · exact Bool.false_ne_true
  · rw [unknowns_eq_nil_iff.1 h t ht]
    exact Bool.false_ne_true
  · exact Bool.false_ne_true

/-- **A definition put in for a name binds the name.** -/
theorem unknowns_substitute {v : Char} (hv : Text.isAsciiLetter v) (h : unknowns bound es = []) :
    unknowns bound (ts.flatMap (Token.substitute v es))
      = unknowns (fun name => name = (Token.ofChar v).text || bound name) ts := by
  rw [unknowns, unknowns]
  congr 2
  induction ts with
  | nil => rfl
  | cons t ts ih =>
    rw [List.flatMap_cons, List.filter_append, ih, Token.substitute]
    by_cases ht : t = Token.ofChar v
    · have hfree : t.isFree (fun name => name = (Token.ofChar v).text || bound name) = false := by
        rw [ht, Token.isFree_eq_of_isLetter (Token.isLetter_iff.2 (Token.kind_of_isAsciiLetter hv))]
        simp
      rw [if_pos ht, filter_isFree_group h, List.filter_cons, hfree]
      rfl
    -- any other token has another text, which is bound or not as it was
    · have hfree : t.isFree (fun name => name = (Token.ofChar v).text || bound name)
          = t.isFree bound := by
        refine Token.isFree_congr ?_
        have htext : t.text ≠ (Token.ofChar v).text := fun htext => ht (Token.text_injective htext)
        simp [htext]
      rw [if_neg ht]
      simp only [List.filter_cons, List.filter_nil, hfree]
      split <;> rfl

end LineCalc
