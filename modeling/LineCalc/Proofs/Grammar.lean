import LineCalc.Proofs.Token.Kind
/-!
# LineCalc — the grammar of expressions

Expressions have a grammar of five nonterminals, and `Tree` holds its derivations:

    sum      ::=  product  |  sum (+ | -) product
    product  ::=  unary  |  product (* | /) unary
    unary    ::=  power  |  (+ | -) unary
    power    ::=  primary  |  primary ^ unary
    primary  ::=  literal  |  name  |  ( sum )

Sums and products lean left, powers lean right, and a sign stands above a power. A tree has the
tokens it is read from (`yield`), the depth of its parentheses (`nesting`), and a value reckoned
from the leaves up (`value?`), which is there if every name has one. Nothing here knows of the
reckoner: this is what it is measured against.
-/

namespace LineCalc

namespace Grammar

/-- The nonterminals, from the loosest to the tightest. -/
inductive Symbol where
  | sum
  | product
  | unary
  | power
  | primary

/-- Derivations from each nonterminal. -/
inductive Tree : Symbol → Type where
  | ofProduct (p : Tree .product) : Tree .sum
  | sum (left : Tree .sum) (op : Operator) (h : op.isAdditive) (right : Tree .product) : Tree .sum
  | ofUnary (u : Tree .unary) : Tree .product
  | product (left : Tree .product) (op : Operator) (h : op.isMultiplicative) (right : Tree .unary) :
      Tree .product
  | ofPower (p : Tree .power) : Tree .unary
  | signed (op : Operator) (h : op.isAdditive) (u : Tree .unary) : Tree .unary
  | ofPrimary (p : Tree .primary) : Tree .power
  | raised (base : Tree .primary) (exponent : Tree .unary) : Tree .power
  | literal (t : Token) (n : Literal) (h : t.literal? = some n) : Tree .primary
  | name (t : Token) (h : t.isLetter) : Tree .primary
  | group (e : Tree .sum) : Tree .primary

namespace Tree

/-- The tokens of a tree, left to right. -/
def yield {s : Symbol} : Tree s → List Token
  | ofProduct p => p.yield
  | sum left op _ right => left.yield ++ Token.ofOperator op :: right.yield
  | ofUnary u => u.yield
  | product left op _ right => left.yield ++ Token.ofOperator op :: right.yield
  | ofPower p => p.yield
  | signed op _ u => Token.ofOperator op :: u.yield
  | ofPrimary p => p.yield
  | raised base exponent => base.yield ++ Token.ofOperator .pow :: exponent.yield
  | literal t _ _ => [t]
  | name t _ => [t]
  | group e => Token.ofChar '(' :: e.yield ++ [Token.ofChar ')']

/-- How many parentheses are open at the deepest point. -/
def nesting {s : Symbol} : Tree s → Nat
  | ofProduct p => p.nesting
  | sum left _ _ right => max left.nesting right.nesting
  | ofUnary u => u.nesting
  | product left _ _ right => max left.nesting right.nesting
  | ofPower p => p.nesting
  | signed _ _ u => u.nesting
  | ofPrimary p => p.nesting
  | raised base exponent => max base.nesting exponent.nesting
  | literal _ _ _ => 0
  | name _ _ => 0
  | group e => e.nesting + 1

/-- The value of a tree whose names have their values in `scope`. -/
def value? {V : Type} [Arithmetic V] (scope : String → Option V) {s : Symbol} : Tree s → Option V
  | ofProduct p => p.value? scope
  | sum left op _ right => do
    return Arithmetic.apply op (← left.value? scope) (← right.value? scope)
  | ofUnary u => u.value? scope
  | product left op _ right => do
    return Arithmetic.apply op (← left.value? scope) (← right.value? scope)
  | ofPower p => p.value? scope
  | signed op _ u => do
    let v ← u.value? scope
    return if op = .sub then Arithmetic.neg v else v
  | ofPrimary p => p.value? scope
  | raised base exponent => do
    return Arithmetic.apply .pow (← base.value? scope) (← exponent.value? scope)
  | literal _ n _ => some (Arithmetic.ofLiteral n)
  | name t _ => scope t.text
  | group e => e.value? scope

end Tree

variable {V : Type} [Arithmetic V] {scope : String → Option V} {room : Nat}
variable {ts us : List Token} {v w : V} {op : Operator}

/-- The tokens `ts` have a derivation from `s` with the value `v` and at most `room` parentheses
open. -/
def Derives (scope : String → Option V) (room : Nat) (s : Symbol) (ts : List Token) (v : V) :
    Prop :=
  ∃ t : Tree s, t.yield = ts ∧ t.nesting ≤ room ∧ t.value? scope = some v

/-- What holds of operators, parentheses, literals and names holds of all tokens of a tree. -/
theorem Tree.forall_mem_yield {P : Token → Prop} (hop : ∀ op, P (Token.ofOperator op))
    (hopening : P (Token.ofChar '(')) (hclosing : P (Token.ofChar ')'))
    (hliteral : ∀ t n, t.literal? = some n → P t) (hname : ∀ t, t.isLetter → P t)
    {s : Symbol} (e : Tree s) : ∀ t ∈ e.yield, P t := by
  have hbinary : ∀ {ts us : List Token} (op : Operator), (∀ t ∈ ts, P t) → (∀ t ∈ us, P t) →
      ∀ t ∈ ts ++ Token.ofOperator op :: us, P t := by
    intro ts us op hts hus t ht
    rcases List.mem_append.1 ht with ht | ht
    · exact hts t ht
    · rcases List.mem_cons.1 ht with rfl | ht
      · exact hop op
      · exact hus t ht
  induction e with
  | ofProduct p ih => exact ih
  | sum left op h right ihl ihr => exact hbinary op ihl ihr
  | ofUnary u ih => exact ih
  | product left op h right ihl ihr => exact hbinary op ihl ihr
  | ofPower p ih => exact ih
  | signed op h u ih =>
    rw [← List.nil_append (signed op h u).yield]
    exact hbinary op (fun _ ht => nomatch ht) ih
  | ofPrimary p ih => exact ih
  | raised base exponent ihb ihe => exact hbinary .pow ihb ihe
  | literal t n h =>
    intro u hu
    rw [List.mem_singleton.1 hu]
    exact hliteral t n h
  | name t h =>
    intro u hu
    rw [List.mem_singleton.1 hu]
    exact hname t h
  | group e ih =>
    intro t ht
    rw [yield, List.cons_append, List.mem_cons, List.mem_append, List.mem_singleton] at ht
    rcases ht with rfl | ht | rfl
    · exact hopening
    · exact ih t ht
    · exact hclosing

/-- Every token of an expression has its part in it, and none is the sign of an assignment. -/
theorem Tree.kind_ne {s : Symbol} (e : Tree s) :
    ∀ t ∈ e.yield, t.kind ≠ .other ∧ t.kind ≠ .assign := by
  refine e.forall_mem_yield (fun op => by simp) (by simp) (by simp) (fun t n h => ?_) fun t h => ?_
  · rw [Token.kind_eq_numeral_iff.2 h]
    simp
  · rw [Token.isLetter_iff.1 h]
    simp

/-- The tokens on both sides of an operator have a property if and only if all tokens but the
operator have it. -/
theorem forall_isLetter_append {P : Token → Prop} :
    (∀ t ∈ ts ++ Token.ofOperator op :: us, t.isLetter → P t) ↔
      (∀ t ∈ ts, t.isLetter → P t) ∧ ∀ t ∈ us, t.isLetter → P t := by
  have hop : (Token.ofOperator op).isLetter = false := by simp [Token.isLetter]
  simp [or_imp, forall_and, hop]

/-- **A tree has a value exactly if its names have.** -/
theorem Tree.isSome_value?_iff {s : Symbol} (e : Tree s) : (e.value? scope).isSome ↔
    ∀ t ∈ e.yield, t.isLetter → (scope t.text).isSome := by
  have hbinary : ∀ {a b : Option V} {f : V → V → V},
      (do return f (← a) (← b) : Option V).isSome ↔ a.isSome ∧ b.isSome := by
    intro a b f
    cases a <;> cases b <;> simp
  induction e with
  | ofProduct p ih => exact ih
  | sum left op h right ihl ihr =>
    rw [yield, forall_isLetter_append]
    exact hbinary.trans (and_congr ihl ihr)
  | ofUnary u ih => exact ih
  | product left op h right ihl ihr =>
    rw [yield, forall_isLetter_append]
    exact hbinary.trans (and_congr ihl ihr)
  | ofPower p ih => exact ih
  | signed op h u ih =>
    have hsigned : ((signed op h u).value? scope).isSome ↔ (u.value? scope).isSome := by
      rw [value?]
      cases u.value? scope <;> simp
    rw [← List.nil_append (signed op h u).yield, yield, forall_isLetter_append]
    exact hsigned.trans (ih.trans (by simp))
  | ofPrimary p ih => exact ih
  | raised base exponent ihb ihe =>
    rw [yield, forall_isLetter_append]
    exact hbinary.trans (and_congr ihb ihe)
  | literal t n h =>
    have hletter : ¬ t.isLetter := by simp [Token.isLetter, Token.kind_eq_numeral_iff.2 h]
    simp [value?, yield, hletter]
  | name t h => simp [value?, yield, h]
  | group e ih =>
    refine Iff.trans ih ?_
    simp [yield, or_imp, forall_and, Token.isLetter]

/-! ## The productions, as rules of derivation -/

namespace Derives

theorem ofProduct (h : Derives scope room .product ts v) : Derives scope room .sum ts v := by
  obtain ⟨t, ht, hn, hv⟩ := h
  exact ⟨.ofProduct t, ht, hn, hv⟩

theorem sum (hop : op.isAdditive) (h : Derives scope room .sum ts v)
    (h' : Derives scope room .product us w) :
    Derives scope room .sum (ts ++ Token.ofOperator op :: us) (Arithmetic.apply op v w) := by
  obtain ⟨t, rfl, hn, hv⟩ := h
  obtain ⟨u, rfl, hm, hw⟩ := h'
  exact ⟨.sum t op hop u, rfl, Nat.max_le.2 ⟨hn, hm⟩, by simp [Tree.value?, hv, hw]⟩

theorem ofUnary (h : Derives scope room .unary ts v) : Derives scope room .product ts v := by
  obtain ⟨t, ht, hn, hv⟩ := h
  exact ⟨.ofUnary t, ht, hn, hv⟩

theorem product (hop : op.isMultiplicative) (h : Derives scope room .product ts v)
    (h' : Derives scope room .unary us w) :
    Derives scope room .product (ts ++ Token.ofOperator op :: us) (Arithmetic.apply op v w) := by
  obtain ⟨t, rfl, hn, hv⟩ := h
  obtain ⟨u, rfl, hm, hw⟩ := h'
  exact ⟨.product t op hop u, rfl, Nat.max_le.2 ⟨hn, hm⟩, by simp [Tree.value?, hv, hw]⟩

theorem ofPower (h : Derives scope room .power ts v) : Derives scope room .unary ts v := by
  obtain ⟨t, ht, hn, hv⟩ := h
  exact ⟨.ofPower t, ht, hn, hv⟩

theorem plus (h : Derives scope room .unary ts v) :
    Derives scope room .unary (Token.ofOperator .add :: ts) v := by
  obtain ⟨t, rfl, hn, hv⟩ := h
  exact ⟨.signed .add rfl t, rfl, hn, by simp [Tree.value?, hv]⟩

theorem minus (h : Derives scope room .unary ts v) :
    Derives scope room .unary (Token.ofOperator .sub :: ts) (Arithmetic.neg v) := by
  obtain ⟨t, rfl, hn, hv⟩ := h
  exact ⟨.signed .sub rfl t, rfl, hn, by simp [Tree.value?, hv]⟩

theorem ofPrimary (h : Derives scope room .primary ts v) : Derives scope room .power ts v := by
  obtain ⟨t, ht, hn, hv⟩ := h
  exact ⟨.ofPrimary t, ht, hn, hv⟩

theorem raised (h : Derives scope room .primary ts v) (h' : Derives scope room .unary us w) :
    Derives scope room .power (ts ++ Token.ofOperator .pow :: us) (Arithmetic.apply .pow v w) := by
  obtain ⟨t, rfl, hn, hv⟩ := h
  obtain ⟨u, rfl, hm, hw⟩ := h'
  exact ⟨.raised t u, rfl, Nat.max_le.2 ⟨hn, hm⟩, by simp [Tree.value?, hv, hw]⟩

theorem literal {t : Token} {n : Literal} (h : t.literal? = some n) :
    Derives scope room .primary [t] (Arithmetic.ofLiteral n) :=
  ⟨.literal t n h, rfl, Nat.zero_le _, rfl⟩

theorem name {t : Token} (h : t.isLetter) (hv : scope t.text = some v) :
    Derives scope room .primary [t] v :=
  ⟨.name t h, rfl, Nat.zero_le _, hv⟩

theorem group (h : Derives scope room .sum ts v) :
    Derives scope (room + 1) .primary (Token.ofChar '(' :: ts ++ [Token.ofChar ')']) v := by
  obtain ⟨t, rfl, hn, hv⟩ := h
  exact ⟨.group t, rfl, Nat.succ_le_succ hn, hv⟩

end Derives

end Grammar

end LineCalc
