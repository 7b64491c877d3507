import LineCalc.Json.Reader
import Mathlib.Data.List.TakeWhile
/-!
# LineCalc — what a text brings

The reader of JSON takes one part off the front of a text after the other, or refuses the text. So
what holds of a value that is read comes from the parts of the text: from its strings, and from its
words and numbers. `Brings` says that a property does, for texts of some kind and with refusals of
some kind; and then the reader has it of every value (`Brings.read`).
-/

namespace LineCalc

/-! ## Results of either kind -/

/-- Whether a result has a property, or an error has another one. -/
def Yields {ε α : Type} (E : ε → Prop) (P : α → Prop) : Except ε α → Prop
  | .ok a => P a
  | .error e => E e

namespace Yields

variable {ε α β : Type} {E E' : ε → Prop} {P P' : α → Prop} {Q : β → Prop}

theorem bind {x : Except ε α} {f : α → Except ε β} (hx : Yields E P x)
    (hf : ∀ a, P a → Yields E Q (f a)) : Yields E Q (x >>= f) := by
  cases x with
  | ok a => exact hf a hx
  | error e => exact hx

theorem imp {x : Except ε α} (hx : Yields E P x) (herror : ∀ e, E e → E' e) (h : ∀ a, P a → P' a) :
    Yields E' P' x := by
  cases x with
  | ok a => exact h a hx
  | error e => exact herror e hx

theorem mono {x : Except ε α} (hx : Yields E P x) (h : ∀ a, P a → P' a) : Yields E P' x :=
  hx.imp (fun _ => id) h

theorem map {f : α → β} {x : Except ε α} (hx : Yields E P x) (h : ∀ a, P a → Q (f a)) :
    Yields E Q (f <$> x) := by
  cases x with
  | ok a => exact h a hx
  | error e => exact hx

theorem mapM {f : α → Except ε β} {as : List α} (h : ∀ a ∈ as, Yields E Q (f a)) :
    Yields E (fun bs => ∀ b ∈ bs, Q b) (as.mapM f) := by
  induction as with
  | nil => exact List.forall_mem_nil _
  | cons a as ih =>
    obtain ⟨ha, has⟩ := List.forall_mem_cons.1 h
    rw [List.mapM_cons]
    refine ha.bind fun b hb => (ih has).bind fun bs hbs => ?_
    exact List.forall_mem_cons.2 ⟨hb, hbs⟩

end Yields

/-- What is there after pairs were put in under their names is one of the pairs. -/
theorem Entries.mem_of_mem_ofList {α : Type} {pairs : List (String × α)} {e : String × α}
    (h : e ∈ ofList pairs) : e ∈ pairs := by
  have key : ∀ (pairs entries : List (String × α)),
      e ∈ pairs.foldl (fun entries p => set p.1 p.2 entries) entries →
        e ∈ entries ∨ e ∈ pairs := by
    intro pairs
    induction pairs with
    | nil => exact fun _ h => .inl h
    | cons p pairs ih =>
      intro entries h
      rcases ih _ h with hset | hmem
      · rcases mem_set hset with rfl | hold
        · exact .inr List.mem_cons_self
        · exact .inl hold
      · exact .inr (List.mem_cons_of_mem _ hmem)
  exact (key pairs [] h).resolve_left List.not_mem_nil

namespace Json

variable {cs rest : List Char} {fuel : Nat}

/-! ## What follows the parts of a value

It is always an end of the text. -/

/-- What follows the blanks is an end of the text. -/
theorem skip_suffix (hrest : rest <:+ cs) : skip rest <:+ cs :=
  (List.dropWhile_suffix _).trans hrest

/-- And so is what follows the character behind them. -/
theorem suffix_of_skip_eq {c : Char} {tail : List Char} (hrest : rest <:+ cs)
    (h : skip rest = c :: tail) : tail <:+ cs := by
  have hskip := skip_suffix hrest
  rw [h] at hskip
  exact (List.suffix_cons c tail).trans hskip

theorem pieces?_suffix {ps : List Piece} (h : pieces? cs = some (ps, rest)) : rest <:+ cs := by
  fun_induction pieces? cs generalizing ps with
  | case1 => cases h
  | case2 tail =>
    cases h
    exact List.suffix_cons _ _
  | case3 a b c d tail ih =>
    simp only [bind, Option.bind_eq_some_iff] at h
    obtain ⟨n, -, ⟨ps, rest⟩, hpieces, heq⟩ := h
    cases heq
    exact (ih hpieces).trans ⟨['\\', 'u', a, b, c, d], rfl⟩
  | case4 e tail hu ih =>
    simp only [bind, Option.bind_eq_some_iff] at h
    obtain ⟨c, -, ⟨ps, rest⟩, hpieces, heq⟩ := h
    cases heq
    exact (ih hpieces).trans ⟨['\\', e], rfl⟩
  | case5 => cases h
  | case6 c tail hquote hunit hescape hplain ih =>
    simp only [bind, Option.bind_eq_some_iff] at h
    obtain ⟨⟨ps, rest⟩, hpieces, heq⟩ := h
    cases heq
    exact (ih hpieces).trans (List.suffix_cons _ _)

theorem splitDigits_suffix (cs : List Char) : (Numeral.splitDigits cs).2 <:+ cs :=
  List.dropWhile_suffix _

theorem splitWhole_suffix (cs : List Char) : (splitWhole cs).2 <:+ cs := by
  unfold splitWhole
  split
  · exact List.suffix_cons _ _
  · exact splitDigits_suffix _

theorem isPrefix_splitWhole (cs : List Char) : (splitWhole cs).1 <+: cs := by
  unfold splitWhole
  split
  · next rest => exact ⟨rest, rfl⟩
  · exact List.takeWhile_prefix _

theorem isAsciiDigit_of_mem_splitWhole {c : Char} (h : c ∈ (splitWhole cs).1) :
    Text.isAsciiDigit c = true := by
  unfold splitWhole at h
  split at h
  · rw [List.mem_singleton.1 h]
    rfl
  · exact List.mem_takeWhile_imp h

theorem splitPoint_suffix (cs : List Char) : (splitPoint cs).2 <:+ cs := by
  unfold splitPoint
  split
  · dsimp only
    split
    · exact List.suffix_rfl
    · exact (splitDigits_suffix _).trans (List.suffix_cons _ _)
  · exact List.suffix_rfl

theorem splitSign_suffix (cs : List Char) : (Numeral.splitSign cs).2 <:+ cs := by
  unfold Numeral.splitSign
  split
  · exact List.suffix_cons _ _
  · exact List.suffix_cons _ _
  · exact List.suffix_rfl

theorem splitExponent_suffix {e : Int} (h : Numeral.splitExponent cs = some (e, rest)) :
    rest <:+ cs := by
  unfold Numeral.splitExponent at h
  split at h
  · cases h
    exact List.suffix_rfl
  · next c tail =>
    split at h
    · dsimp only at h
      split at h
      · cases h
      · cases h
        have hdigits := splitDigits_suffix (Numeral.splitSign tail).2
        exact (hdigits.trans (splitSign_suffix tail)).trans (List.suffix_cons _ _)
    · cases h
      exact List.suffix_rfl

theorem splitPower_suffix (cs : List Char) : (splitPower cs).2 <:+ cs := by
  unfold splitPower
  split
  · exact List.suffix_rfl
  · split
    · split
      · next n rest h => exact splitExponent_suffix h
      · exact List.suffix_rfl
    · exact List.suffix_rfl

/-! ## Parts of a value -/

/-- A run of digits in a text. -/
structure IsRun (cs ds : List Char) : Prop where
  part : ds <:+: cs
  digit : ∀ c ∈ ds, Text.isAsciiDigit c = true

theorem IsRun.of_suffix {ds : List Char} (h : IsRun rest ds) (hrest : rest <:+ cs) : IsRun cs ds :=
  ⟨h.part.trans hrest.isInfix, h.digit⟩

/-- The values of words and numbers. An integer is that of a run of digits which is not too long. -/
inductive IsPlainValue (cs : List Char) : Json → Prop where
  | null : IsPlainValue cs null
  | bool (b : Bool) : IsPlainValue cs (bool b)
  | int {n : Int} {ds : List Char} (hrun : IsRun cs ds) (hne : ds ≠ [])
      (hlength : ds.length ≤ Numeral.maxDigits) (hvalue : n.natAbs = Numeral.natOf ds) :
      IsPlainValue cs (int n)
  | float (x : Float) : IsPlainValue cs (float x)

/-- Whether a reader takes a value with a property off the front of a text, or refuses it. -/
def Reads {α : Type} (E : Refusal → Prop) (P : α → Prop) (cs : List Char) :
    Except Refusal (α × List Char) → Prop :=
  Yields E fun p => P p.1 ∧ p.2 <:+ cs

namespace Reads

variable {α β : Type} {E E' : Refusal → Prop} {P P' : α → Prop} {Q : β → Prop}
variable {x : Except Refusal (α × List Char)}

theorem ok {a : α} (ha : P a) (hrest : rest <:+ cs) : Reads E P cs (.ok (a, rest)) :=
  ⟨ha, hrest⟩

/-- What is taken off the end of a text is taken off the text. -/
theorem of_suffix (hx : Reads E P rest x) (hrest : rest <:+ cs) : Reads E P cs x :=
  Yields.mono hx fun _ hp => ⟨hp.1, hp.2.trans hrest⟩

theorem imp (hx : Reads E P cs x) (herror : ∀ e, E e → E' e) (h : ∀ a, P a → P' a) :
    Reads E' P' cs x :=
  Yields.imp hx herror fun _ hp => ⟨h _ hp.1, hp.2⟩

theorem bind {f : α × List Char → Except Refusal (β × List Char)} (hx : Reads E P cs x)
    (hf : ∀ a rest, P a → rest <:+ cs → Reads E Q cs (f (a, rest))) : Reads E Q cs (x >>= f) :=
  Yields.bind hx fun p hp => hf p.1 p.2 hp.1 hp.2

end Reads

/-- Why a word or a number is refused: its form, or a run of digits that is too long. -/
def IsPlainRefusal (cs : List Char) (e : Refusal) : Prop :=
  e = .malformed ∨ ∃ ds, IsRun cs ds ∧ Numeral.maxDigits < ds.length

/-- **A number.** Its whole digits are a run of the text. -/
theorem reads_number (negative : Bool) (cs : List Char) :
    Reads (IsPlainRefusal cs) (IsPlainValue cs) cs (readNumber negative cs) := by
  have hrun : IsRun cs (splitWhole cs).1 :=
    ⟨(isPrefix_splitWhole cs).isInfix, fun c => isAsciiDigit_of_mem_splitWhole⟩
  have hrest : (splitPower (splitPoint (splitWhole cs).2).2).2 <:+ cs :=
    ((splitPower_suffix _).trans (splitPoint_suffix _)).trans (splitWhole_suffix cs)
  unfold readNumber
  dsimp only
  split
  · exact .inl rfl
  · next hne =>
    split
    · split
      · next hlong => exact .inr ⟨_, hrun, hlong⟩
      · next hlong =>
        refine .ok (.int hrun (mt List.isEmpty_iff.2 hne) (Nat.not_lt.1 hlong) ?_) hrest
        cases negative
        · exact Int.natAbs_natCast _
        · exact (Int.natAbs_neg _).trans (Int.natAbs_natCast _)
    · exact .ok (.float _) hrest

/-- **A word or a number.** -/
theorem reads_plain (cs : List Char) :
    Reads (IsPlainRefusal cs) (IsPlainValue cs) cs (readPlain cs) := by
  unfold readPlain
  split
  · exact .ok .null ⟨['n', 'u', 'l', 'l'], rfl⟩
  · exact .ok (.bool true) ⟨['t', 'r', 'u', 'e'], rfl⟩
  · exact .ok (.bool false) ⟨['f', 'a', 'l', 's', 'e'], rfl⟩
  · exact .ok (.float _) ⟨['N', 'a', 'N'], rfl⟩
  · exact .ok (.float _) ⟨['I', 'n', 'f', 'i', 'n', 'i', 't', 'y'], rfl⟩
  · exact .ok (.float _) ⟨['-', 'I', 'n', 'f', 'i', 'n', 'i', 't', 'y'], rfl⟩
  · next rest _ =>
    have hrest : rest <:+ '-' :: rest := List.suffix_cons _ _
    refine ((reads_number true rest).of_suffix hrest).imp (fun e he => ?_) fun v hv => ?_
    · exact he.imp_right fun ⟨ds, hrun, hlong⟩ => ⟨ds, hrun.of_suffix hrest, hlong⟩
    · cases hv with
      | null => exact .null
      | bool b => exact .bool b
      | int hrun hne hlength hvalue => exact .int (hrun.of_suffix hrest) hne hlength hvalue
      | float x => exact .float x
  · exact reads_number false cs

/-! ## Whole values -/

/-- **Whether a property of values comes from texts of some kind**, with refusals of some kind: the
strings in such texts have a property of their own, the words and numbers have this one, and it
passes on to strings, arrays and objects. -/
structure Brings (E : Refusal → Prop) (T : List Char → Prop) (N : String → Prop) (P : Json → Prop) :
    Prop where
  malformed : E .malformed
  suffix : ∀ {cs rest}, T cs → rest <:+ cs → T rest
  name : ∀ {cs s rest}, T cs → readString cs = .ok (s, rest) → N s
  plain : ∀ {cs v}, T cs → IsPlainValue cs v → P v
  refusal : ∀ {cs e}, T cs → IsPlainRefusal cs e → E e
  string : ∀ {s}, N s → P (.string s)
  array : ∀ {items}, (∀ v ∈ items, P v) → P (.array items)
  object : ∀ {members}, (∀ m ∈ members, N m.1 ∧ P m.2) → P (.object (Entries.ofList members))

namespace Brings

variable {E : Refusal → Prop} {T : List Char → Prop} {N : String → Prop} {P : Json → Prop}
variable (h : Brings E T N P)
include h

/-- A reader of such texts reads the end of one. -/
theorem behind {α : Type} {Q : α → Prop} {read : List Char → Except Refusal (α × List Char)}
    (hread : ∀ {cs}, T cs → Reads E Q cs (read cs)) (hcs : T cs) (hrest : rest <:+ cs) :
    Reads E Q cs (read rest) :=
  (hread (h.suffix hcs hrest)).of_suffix hrest

theorem reads_string (hcs : T cs) : Reads E N cs (readString cs) := by
  unfold readString
  cases hpieces : pieces? cs with
  | none => exact h.malformed
  | some p => exact .ok (h.name hcs (by rw [readString, hpieces])) (pieces?_suffix hpieces)

section

variable (hvalue : ∀ {cs}, T cs → Reads E P cs (readValue fuel cs))
variable (hitems : ∀ {cs}, T cs → Reads E (fun vs => ∀ v ∈ vs, P v) cs (readItems fuel cs))
variable (hmembers : ∀ {cs}, T cs →
  Reads E (fun ms => ∀ m ∈ ms, N m.1 ∧ P m.2) cs (readMembers fuel cs))

include hitems hmembers in
/-- A value, as long as the items and the members in it are read so. -/
theorem reads_value_succ (hcs : T cs) : Reads E P cs (readValue (fuel + 1) cs) := by
  rw [readValue.eq_def]
  dsimp only
  split
  · next rest =>
    refine (h.behind h.reads_string hcs (List.suffix_cons _ _)).bind fun s rest hs hrest => ?_
    exact .ok (h.string hs) hrest
  · next rest =>
    have hrest : rest <:+ '[' :: rest := List.suffix_cons _ _
    split
    · next hclosing =>
      exact .ok (h.array (List.forall_mem_nil _)) (suffix_of_skip_eq hrest hclosing)
    · refine (h.behind hitems hcs (skip_suffix hrest)).bind fun vs rest hvs hrest => ?_
      exact .ok (h.array hvs) hrest
  · next rest =>
    have hrest : rest <:+ '\x7b' :: rest := List.suffix_cons _ _
    split
    · next hclosing =>
      exact .ok (h.object (List.forall_mem_nil _)) (suffix_of_skip_eq hrest hclosing)
    · refine (h.behind hmembers hcs (skip_suffix hrest)).bind fun ms rest hms hrest => ?_
      exact .ok (h.object hms) hrest
  · exact (reads_plain cs).imp (fun _ => h.refusal hcs) fun _ => h.plain hcs

include hvalue hitems in
/-- The items of an array. -/
theorem reads_items_succ (hcs : T cs) :
    Reads E (fun vs => ∀ v ∈ vs, P v) cs (readItems (fuel + 1) cs) := by
  rw [readItems]
  refine (hvalue hcs).bind fun v rest hv hrest => ?_
  dsimp only
  split
  · next hclosing =>
    exact .ok (List.forall_mem_singleton.2 hv) (suffix_of_skip_eq hrest hclosing)
  · next hcomma =>
    have hnext := skip_suffix (suffix_of_skip_eq hrest hcomma)
    refine (h.behind hitems hcs hnext).bind fun vs rest hvs hrest => ?_
    exact .ok (List.forall_mem_cons.2 ⟨hv, hvs⟩) hrest
  · exact h.malformed

include hvalue hmembers in
/-- The members of an object. -/
theorem reads_members_succ (hcs : T cs) :
    Reads E (fun ms => ∀ m ∈ ms, N m.1 ∧ P m.2) cs (readMembers (fuel + 1) cs) := by
  rw [readMembers.eq_def]
  dsimp only
  split
  · next rest =>
    refine (h.behind h.reads_string hcs (List.suffix_cons _ _)).bind fun name rest hname hrest => ?_
    dsimp only
    split
    · next hcolon =>
      have hnext := skip_suffix (suffix_of_skip_eq hrest hcolon)
      refine (h.behind hvalue hcs hnext).bind fun v rest hv hrest => ?_
      dsimp only
      split
      · next hclosing =>
        exact .ok (List.forall_mem_singleton.2 ⟨hname, hv⟩) (suffix_of_skip_eq hrest hclosing)
      · next hcomma =>
        have hnext := skip_suffix (suffix_of_skip_eq hrest hcomma)
        refine (h.behind hmembers hcs hnext).bind fun ms rest hms hrest => ?_
        exact .ok (List.forall_mem_cons.2 ⟨⟨hname, hv⟩, hms⟩) hrest
      · exact h.malformed
    · exact h.malformed
  · exact h.malformed

end

/-- **Values, items and members**, with any fuel. -/
theorem reads_all (fuel : Nat) :
    (∀ {cs}, T cs → Reads E P cs (readValue fuel cs)) ∧
      (∀ {cs}, T cs → Reads E (fun vs => ∀ v ∈ vs, P v) cs (readItems fuel cs)) ∧
      (∀ {cs}, T cs → Reads E (fun ms => ∀ m ∈ ms, N m.1 ∧ P m.2) cs (readMembers fuel cs)) := by
  induction fuel with
  | zero =>
    refine ⟨fun _ => ?_, fun _ => ?_, fun _ => ?_⟩
    · rw [readValue]
      exact h.malformed
    · rw [readItems]
      exact h.malformed
    · rw [readMembers]
      exact h.malformed
  | succ fuel ih =>
    obtain ⟨hvalue, hitems, hmembers⟩ := ih
    exact ⟨h.reads_value_succ hitems hmembers, h.reads_items_succ hvalue hitems,
      h.reads_members_succ hvalue hmembers⟩

/-- **What a text brings the value has that it is read as**; and a text that is refused is refused
so. -/
theorem read (hcs : T cs) : Yields E P (Json.read cs) := by
  have hvalue := (h.reads_all (2 * cs.length + 2)).1 (h.suffix hcs (skip_suffix List.suffix_rfl))
  refine Yields.bind hvalue fun p hp => ?_
  dsimp only
  split
  · exact hp.1
  · exact h.malformed

end Brings

end Json

end LineCalc
