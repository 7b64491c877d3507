import Mathlib.Logic.Function.Basic
import LineCalc.Proofs.Grammar
import LineCalc.Proofs.Reckoner.Feed
/-!
# LineCalc — what the reckoner reads is the grammar

The reckoner builds no tree: a run of signs is one bit, a chain of powers a list of bases, and what
waits for an operand waits in a `Level`. This file relates it to the derivations of `Grammar`, in
both directions.

A tree is read from any level by feeding its tokens (`feed_yield`), by induction on the tree: what a
piece leaves behind is said by `Level.Absorbs`, one clause for each nonterminal. Conversely the
tokens read at a level make a piece once the missing operand is put behind them (`Level.Holds`),
every token taken keeps this, and so what is left at the end is a derivation
(`derives_of_finish_eq_ok`). The two agree only if changing a sign twice changes nothing, since
signs before an operand are counted and not applied.
-/

namespace LineCalc

open Grammar

variable {V : Type} [Arithmetic V] {limit : Int} {scope : String → Option V} {room : Nat}

namespace Level

variable {l : Level V} {v w : V} {op : Operator}

/-! ## Values of a level -/

@[simp] theorem join_some : join (some (v, op)) w = Arithmetic.apply op v w := rfl

theorem push_of_isAdditive (h : op.isAdditive) :
    l.push v op = ⟨some (l.total v, op), none, [], false⟩ := by
  cases op <;> first | rfl | cases h

theorem push_of_isMultiplicative (h : op.isMultiplicative) :
    l.push v op = ⟨l.sum, some (l.term v, op), [], false⟩ := by
  cases op <;> first | rfl | cases h

/-- A base that waits for its exponent raises it before anything else happens to it. -/
theorem power_push_pow : (l.push v .pow).power w = l.power (Arithmetic.apply .pow v w) := rfl

/-- One more minus sign changes the sign of the operand. -/
theorem power_not_negative (hneg : Function.Involutive (Arithmetic.neg : V → V)) :
    Level.power { l with negative := !l.negative } v = l.power (Arithmetic.neg v) := by
  obtain ⟨sum, product, bases, negative⟩ := l
  cases negative with
  | false => rfl
  | true => simp [power, Arithmetic.signed, hneg v]

/-- What a piece with the value `v` makes of the level `l` where it starts: the level `l'`, with the
operand `w`. -/
def Absorbs : Symbol → Level V → V → Level V → V → Prop
  | .sum, l, v, l', w => l = empty → l'.total w = v
  | .product, l, v, l', w => l.product = none → l.bases = [] → l.negative = false →
      l'.sum = l.sum ∧ l'.term w = v
  | .unary, l, v, l', w => l'.sum = l.sum ∧ l'.product = l.product ∧ l'.power w = l.power v
  | .power, l, v, l', w => l'.sum = l.sum ∧ l'.product = l.product ∧ l'.power w = l.power v
  | .primary, l, v, l', w => l' = l ∧ w = v

end Level

/-! ## Every tree is read -/

namespace Reckoner

/-- **Feeding the tokens of a tree reads the tree**, at whatever level it starts and whatever waits
outside, as long as there is room for its parentheses. -/
theorem feed_yield (hneg : Function.Involutive (Arithmetic.neg : V → V)) {s : Symbol}
    (t : Tree s) {v : V} (hv : t.value? scope = some v) (l : Level V) (outer : List (Level V))
    (hroom : t.nesting + outer.length ≤ limit.toNat) :
    ∃ l' w, feed limit scope ⟨none, l, outer⟩ t.yield = .ok ⟨some w, l', outer⟩ ∧
      Level.Absorbs s l v l' w := by
  induction t generalizing v l outer with
  | ofProduct p ih =>
    obtain ⟨l', w, hf, habs⟩ := ih hv l outer hroom
    refine ⟨l', w, hf, ?_⟩
    rintro rfl
    obtain ⟨hsum, hterm⟩ := habs rfl rfl rfl
    rw [Level.total, hsum, hterm]
    rfl
  | sum left op h right ihl ihr =>
    simp only [Tree.value?, Option.bind_eq_bind, Option.bind_eq_some_iff] at hv
    obtain ⟨vl, hl, vr, hr, hv⟩ := hv
    cases hv
    simp only [Tree.nesting] at hroom
    obtain ⟨l₁, w₁, hf₁, h₁⟩ := ihl hl l outer (by omega)
    obtain ⟨l₂, w₂, hf₂, h₂⟩ := ihr hr (l₁.push w₁ op) outer (by omega)
    refine ⟨l₂, w₂, ?_, ?_⟩
    · rw [Tree.yield, feed_append_of_eq_ok hf₁, feed_cons_of_takes (.operator w₁ l₁ outer op), hf₂]
    · intro hempty
      -- a sum starts its level, so the left side is the level's total and all that waits
      rw [Level.push_of_isAdditive h] at h₂
      obtain ⟨hsum, hterm⟩ := h₂ rfl rfl rfl
      rw [Level.total, hsum, hterm, h₁ hempty]
      rfl
  | ofUnary u ih =>
    obtain ⟨l', w, hf, hsum, hproduct, hpower⟩ := ih hv l outer hroom
    refine ⟨l', w, hf, ?_⟩
    intro hp hb hn
    refine ⟨hsum, ?_⟩
    rw [Level.term, hproduct, hpower, Level.power, hp, hb, hn]
    rfl
  | product left op h right ihl ihr =>
    simp only [Tree.value?, Option.bind_eq_bind, Option.bind_eq_some_iff] at hv
    obtain ⟨vl, hl, vr, hr, hv⟩ := hv
    cases hv
    simp only [Tree.nesting] at hroom
    obtain ⟨l₁, w₁, hf₁, h₁⟩ := ihl hl l outer (by omega)
    obtain ⟨l₂, w₂, hf₂, h₂⟩ := ihr hr (l₁.push w₁ op) outer (by omega)
    refine ⟨l₂, w₂, ?_, ?_⟩
    · rw [Tree.yield, feed_append_of_eq_ok hf₁, feed_cons_of_takes (.operator w₁ l₁ outer op), hf₂]
    · intro hp hb hn
      obtain ⟨hsum₁, hterm₁⟩ := h₁ hp hb hn
      rw [Level.push_of_isMultiplicative h] at h₂
      obtain ⟨hsum₂, hproduct₂, hpower₂⟩ := h₂
      refine ⟨hsum₂.trans hsum₁, ?_⟩
      rw [Level.term, hproduct₂, hpower₂, hterm₁]
      rfl
  | ofPower p ih => exact ih hv l outer hroom
  | signed op h u ih =>
    simp only [Tree.value?, Option.bind_eq_bind, Option.bind_eq_some_iff] at hv
    obtain ⟨vu, hu, hv⟩ := hv
    cases op with
    | add =>
      cases hv
      obtain ⟨l', w, hf, habs⟩ := ih hu l outer hroom
      exact ⟨l', w, by rw [Tree.yield, feed_cons_of_takes (.plus l outer), hf], habs⟩
    | sub =>
      cases hv
      -- the sign is only counted here: `power` takes it along with those before it
      obtain ⟨l', w, hf, hsum, hproduct, hpower⟩ :=
        ih hu { l with negative := !l.negative } outer hroom
      have hfeed : feed limit scope ⟨none, l, outer⟩ (Tree.signed .sub h u).yield
          = .ok ⟨some w, l', outer⟩ := by
        rw [Tree.yield, feed_cons_of_takes (.minus l outer), hf]
      refine ⟨l', w, hfeed, hsum, hproduct, ?_⟩
      rw [hpower, Level.power_not_negative hneg]
      rfl
    | mul => cases h
    | div => cases h
    | pow => cases h
  | ofPrimary p ih =>
    obtain ⟨l', w, hf, rfl, rfl⟩ := ih hv l outer hroom
    exact ⟨l', w, hf, rfl, rfl, rfl⟩
  | raised base exponent ihb ihe =>
    simp only [Tree.value?, Option.bind_eq_bind, Option.bind_eq_some_iff] at hv
    obtain ⟨vb, hb, ve, he, hv⟩ := hv
    cases hv
    simp only [Tree.nesting] at hroom
    -- the base leaves the level as it was, then waits in it for the exponent
    obtain ⟨l₁, w₁, hf₁, rfl, rfl⟩ := ihb hb l outer (by omega)
    obtain ⟨l₂, w₂, hf₂, hsum, hproduct, hpower⟩ := ihe he (l₁.push w₁ .pow) outer (by omega)
    refine ⟨l₂, w₂, ?_, hsum, hproduct, hpower.trans Level.power_push_pow⟩
    rw [Tree.yield, feed_append_of_eq_ok hf₁, feed_cons_of_takes (.operator w₁ l₁ outer .pow), hf₂]
  | literal t n h =>
    cases hv
    exact ⟨l, _, feed_singleton_of_takes (.literal l outer h), rfl, rfl⟩
  | name t h => exact ⟨l, v, feed_singleton_of_takes (.name l outer h hv), rfl, rfl⟩
  | group e ih =>
    simp only [Tree.nesting] at hroom
    obtain ⟨l', w, hf, habs⟩ :=
      ih hv Level.empty (l :: outer) (by simp only [List.length_cons]; omega)
    -- the sum inside is read at a level of its own, whose total is the operand outside
    refine ⟨l, v, ?_, rfl, rfl⟩
    have hopen : (outer.length : Int) + 1 ≤ limit := by omega
    rw [Tree.yield, List.cons_append, feed_cons_of_takes (.opening l outer hopen),
      feed_append_of_eq_ok hf, feed_singleton_of_takes (.closing w l' l outer), habs rfl]

end Reckoner

/-! ## What is read has a tree

The tokens of a level fall into three parts, the sum that waits, the product that waits and the
powers with their signs. Each part is known by what it makes of a piece put behind it, so that a
token is added to a part by composing with one production. -/

namespace Level

variable {l : Level V} {v w : V} {op : Operator} {ts ps : List Token}

/-- The tokens `ts` have brought a level to `l`. -/
def Holds (scope : String → Option V) (room : Nat) (l : Level V) (ts : List Token) : Prop :=
  ∃ as bs cs, ts = as ++ (bs ++ cs) ∧
    (∀ us v, Derives scope room .product us v → Derives scope room .sum (as ++ us) (join l.sum v)) ∧
    (∀ us v, Derives scope room .unary us v →
      Derives scope room .product (bs ++ us) (join l.product v)) ∧
    ∀ us v, Derives scope room .unary us v → Derives scope room .unary (cs ++ us) (l.power v)

namespace Holds

theorem empty : Holds scope room Level.empty [] :=
  ⟨[], [], [], rfl, fun _ _ h => h.ofProduct, fun _ _ h => h.ofUnary, fun _ _ h => h⟩

theorem plus (h : Holds scope room l ts) :
    Holds scope room l (ts ++ [Token.ofOperator .add]) := by
  obtain ⟨as, bs, cs, rfl, hsum, hproduct, hpower⟩ := h
  refine ⟨as, bs, cs ++ [Token.ofOperator .add], by simp, hsum, hproduct, fun us v hu => ?_⟩
  have := hpower _ v hu.plus
  simpa using this

theorem minus (hneg : Function.Involutive (Arithmetic.neg : V → V)) (h : Holds scope room l ts) :
    Holds scope room { l with negative := !l.negative } (ts ++ [Token.ofOperator .sub]) := by
  obtain ⟨as, bs, cs, rfl, hsum, hproduct, hpower⟩ := h
  refine ⟨as, bs, cs ++ [Token.ofOperator .sub], by simp, hsum, hproduct, fun us v hu => ?_⟩
  rw [power_not_negative hneg]
  have := hpower _ _ hu.minus
  simpa using this

/-- With an operand behind them the tokens of a level make a product, with the sum before it. -/
theorem exists_product (h : Holds scope room l ts) (hp : Derives scope room .primary ps v) :
    ∃ as bs, ts = as ++ bs ∧ Derives scope room .product (bs ++ ps) (l.term v) ∧
      ∀ us w, Derives scope room .product us w →
        Derives scope room .sum (as ++ us) (join l.sum w) := by
  obtain ⟨as, bs, cs, rfl, hsum, hproduct, hpower⟩ := h
  refine ⟨as, bs ++ cs, rfl, ?_, hsum⟩
  rw [List.append_assoc]
  exact hproduct _ _ (hpower _ v hp.ofPrimary.ofPower)

/-- **With an operand behind them the tokens of a level make a sum.** -/
theorem total (h : Holds scope room l ts) (hp : Derives scope room .primary ps v) :
    Derives scope room .sum (ts ++ ps) (l.total v) := by
  obtain ⟨as, bs, rfl, hterm, hsum⟩ := h.exists_product hp
  rw [List.append_assoc]
  exact hsum _ _ hterm

theorem push_pow (h : Holds scope room l ts) (hp : Derives scope room .primary ps v) :
    Holds scope room (l.push v .pow) (ts ++ ps ++ [Token.ofOperator .pow]) := by
  obtain ⟨as, bs, cs, rfl, hsum, hproduct, hpower⟩ := h
  refine ⟨as, bs, cs ++ ps ++ [Token.ofOperator .pow], by simp, hsum, hproduct, fun us w hu => ?_⟩
  rw [power_push_pow]
  have := hpower _ _ (hp.raised hu).ofPower
  simpa using this

theorem push_of_isMultiplicative (hop : op.isMultiplicative) (h : Holds scope room l ts)
    (hp : Derives scope room .primary ps v) :
    Holds scope room (l.push v op) (ts ++ ps ++ [Token.ofOperator op]) := by
  obtain ⟨as, bs, rfl, hterm, hsum⟩ := h.exists_product hp
  rw [Level.push_of_isMultiplicative hop]
  refine ⟨as, bs ++ ps ++ [Token.ofOperator op], [], by simp, hsum, fun us w hu => ?_,
    fun _ _ hu => hu⟩
  have := hterm.product hop hu
  simpa using this

theorem push_of_isAdditive (hop : op.isAdditive) (h : Holds scope room l ts)
    (hp : Derives scope room .primary ps v) :
    Holds scope room (l.push v op) (ts ++ ps ++ [Token.ofOperator op]) := by
  have htotal := h.total hp
  rw [Level.push_of_isAdditive hop]
  refine ⟨ts ++ ps ++ [Token.ofOperator op], [], [], by simp, fun us w hu => ?_,
    fun _ _ hu => hu.ofUnary, fun _ _ hu => hu⟩
  have := htotal.sum hop hu
  simpa using this

/-- **An operator after an operand keeps what a level holds**, whatever it binds. -/
theorem push (op : Operator) (h : Holds scope room l ts) (hp : Derives scope room .primary ps v) :
    Holds scope room (l.push v op) (ts ++ ps ++ [Token.ofOperator op]) := by
  cases op with
  | add => exact h.push_of_isAdditive rfl hp
  | sub => exact h.push_of_isAdditive rfl hp
  | mul => exact h.push_of_isMultiplicative rfl hp
  | div => exact h.push_of_isMultiplicative rfl hp
  | pow => exact h.push_pow hp

end Holds

end Level

namespace Reckoner

variable {r r' : Reckoner V} {t : Token} {ts us : List Token} {v : V}

/-- The tokens `ts` have opened the levels `outer`, the nearest first. -/
inductive Opened (limit : Int) (scope : String → Option V) :
    List (Level V) → List Token → Prop where
  | nil : Opened limit scope [] []
  | cons {l : Level V} {outer : List (Level V)} {ts us : List Token}
      (h : Opened limit scope outer ts) (hl : l.Holds scope (limit.toNat - outer.length) us) (hroom : outer.length < limit.toNat) :
      Opened limit scope (l :: outer) (ts ++ us ++ [Token.ofChar '('])

/-- The tokens `ts` have brought the reckoner to `r`: they open its outer levels, then bring its own
level about, and end with its operand, if it has one. -/
def Holds (limit : Int) (scope : String → Option V) (r : Reckoner V) (ts : List Token) : Prop :=
  ∃ as bs cs, ts = as ++ bs ++ cs ∧ Opened limit scope r.outer as ∧
    r.level.Holds scope (limit.toNat - r.outer.length) bs ∧
    match r.operand with
    | none => cs = []
    | some v => Derives scope (limit.toNat - r.outer.length) .primary cs v

theorem holds_initial : Holds limit scope (initial : Reckoner V) [] :=
  ⟨[], [], [], rfl, .nil, .empty, rfl⟩

/-- **A token taken keeps what the reckoner holds.** -/
theorem holds_of_takes (hneg : Function.Involutive (Arithmetic.neg : V → V))
    (h : Holds limit scope r ts) (ht : Takes limit scope r t r') :
    Holds limit scope r' (ts ++ [t]) := by
  obtain ⟨as, bs, cs, rfl, houter, hlevel, hoperand⟩ := h
  cases ht with
  | plus l outer =>
    cases hoperand
    exact ⟨as, bs ++ [_], [], by simp, houter, hlevel.plus, rfl⟩
  | minus l outer =>
    cases hoperand
    exact ⟨as, bs ++ [_], [], by simp, houter, hlevel.minus hneg, rfl⟩
  | opening l outer h =>
    cases hoperand
    have hroom : outer.length < limit.toNat := by omega
    exact ⟨as ++ bs ++ [_], [], [], by simp, houter.cons hlevel hroom, .empty, rfl⟩
  | literal l outer h =>
    cases hoperand
    exact ⟨as, bs, [t], by simp, houter, hlevel, .literal h⟩
  | name l outer h hv =>
    cases hoperand
    exact ⟨as, bs, [t], by simp, houter, hlevel, .name h hv⟩
  | operator v l outer op =>
    exact ⟨as, bs ++ cs ++ [_], [], by simp, houter, hlevel.push op hoperand, rfl⟩
  | closing v l l' outer =>
    -- the level just left was opened by the last parenthesis of `as`
    cases houter with
    | @cons _ _ ts us h hl hroom =>
      refine ⟨ts, us, Token.ofChar '(' :: (bs ++ cs) ++ [Token.ofChar ')'], by simp, h, hl, ?_⟩
      have hgroup := (hlevel.total hoperand).group
      simp only [List.length_cons] at hgroup
      rwa [show limit.toNat - (outer.length + 1) + 1 = limit.toNat - outer.length by omega]
        at hgroup

/-- So the tokens of a whole run are held at its end. -/
theorem holds_of_feed_eq_ok (hneg : Function.Involutive (Arithmetic.neg : V → V))
    (h : Holds limit scope r ts) (hf : feed limit scope r us = .ok r') :
    Holds limit scope r' (ts ++ us) := by
  induction us generalizing r ts with
  | nil =>
    cases hf
    simpa using h
  | cons t us ih =>
    obtain ⟨r₁, htakes, hrest⟩ := exists_takes_of_feed_cons hf
    have := ih (holds_of_takes hneg h htakes) hrest
    simpa using this

/-- **Tokens that end in a value are a sum with that value.** -/
theorem derives_of_finish_eq_ok (h : Holds limit scope r ts) (hv : r.finish = .ok v) :
    Derives scope limit.toNat .sum ts v := by
  obtain ⟨w, l, rfl, rfl⟩ := finish_eq_ok_iff.1 hv
  obtain ⟨as, bs, cs, rfl, houter, hlevel, hoperand⟩ := h
  cases houter
  have := hlevel.total hoperand
  simpa using this

/-! ## The reckoner and the grammar agree -/

/-- What has a value is a sum of the grammar, and has that value there. -/
theorem derives_of_evaluate_eq_ok (hneg : Function.Involutive (Arithmetic.neg : V → V))
    (h : evaluate limit scope ts = .ok v) : Derives scope limit.toNat .sum ts v := by
  obtain ⟨r, hf, hv⟩ := evaluate_eq_ok_iff.1 h
  exact derives_of_finish_eq_ok (holds_of_feed_eq_ok hneg holds_initial hf) hv

/-- And a sum of the grammar has its value. -/
theorem evaluate_eq_ok_of_derives (hneg : Function.Involutive (Arithmetic.neg : V → V))
    (h : Derives scope limit.toNat .sum ts v) : evaluate limit scope ts = .ok v := by
  obtain ⟨t, rfl, hroom, hv⟩ := h
  obtain ⟨l, w, hf, habs⟩ := feed_yield hneg t hv Level.empty [] hroom
  exact evaluate_eq_ok_iff.2 ⟨_, hf, finish_eq_ok_iff.2 ⟨w, l, rfl, habs rfl⟩⟩

/-- **An expression has the value of its derivation.** Tokens have the value `v` exactly if they are
the yield of a sum of the grammar that opens at most `limit` parentheses, all of its names are
bound, and reckoning it from the leaves up gives `v`. A limit below zero is a limit of zero: it
leaves no room for a parenthesis. -/
theorem evaluate_eq_ok_iff_exists_tree (hneg : Function.Involutive (Arithmetic.neg : V → V))
    (limit : Int) (scope : String → Option V) (tokens : List Token) (v : V) :
    evaluate limit scope tokens = .ok v ↔
      ∃ e : Tree .sum, e.yield = tokens ∧ e.nesting ≤ limit.toNat ∧ e.value? scope = some v :=
  ⟨derives_of_evaluate_eq_ok hneg, evaluate_eq_ok_of_derives hneg⟩

/-- The integers as values: a literal is cut off at its point, a quotient rounds down, and an
exponent below zero counts as zero. -/
instance : Arithmetic Int where
  ofLiteral n := (n.coefficient / Power.ten n.places : Nat)
  neg a := -a
  apply
    | .add, a, b => a + b
    | .sub, a, b => a - b
    | .mul, a, b => a * b
    | .div, a, b => a / b
    | .pow, a, b => Int.pow a b.toNat

/-- The tokens of `-2^--(x-1)^2`. -/
def signedPower : List Token :=
  [⟨"-"⟩, ⟨"2"⟩, ⟨"^"⟩, ⟨"-"⟩, ⟨"-"⟩, ⟨"("⟩, ⟨"x"⟩, ⟨"-"⟩, ⟨"1"⟩, ⟨")"⟩, ⟨"^"⟩, ⟨"2"⟩]

theorem exists_tree_signedPower : Function.Involutive (Arithmetic.neg : Int → Int) ∧
    ∃ e : Tree .sum, e.yield = signedPower ∧ e.nesting ≤ (1 : Int).toNat ∧
      e.value? (fun _ => some (3 : Int)) = some (-16) := by
  have hneg : Function.Involutive (Arithmetic.neg : Int → Int) := Int.neg_neg
  refine ⟨hneg, ?_⟩
  exact (evaluate_eq_ok_iff_exists_tree hneg 1 (fun _ => some 3) signedPower (-16)).1 rfl

end Reckoner

end LineCalc
