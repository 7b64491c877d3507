import LineCalc.Proofs.Json.Reading
import LineCalc.Proofs.Json.RoundTrip
/-!
# LineCalc — which values have a text

A value has a text that can be stored exactly if its doubles are finite and its integers are not too
long (`Json.flaw?_eq_none_iff`). Apart from that there must be room for the arrays and objects that
are open at once. As many places as the value has levels are enough
(`Json.exhausts_eq_false_of_nesting_le`), and for a value with a text fewer are not
(`Json.exhausts_of_lt_nesting`). A value that is written and read again has no more levels than it
had (`Json.nesting_reread_le`), and its doubles are as finite (`Json.isStrict_reread`).
-/

namespace LineCalc

namespace Json

/-! ## Numbers without a text -/

mutual

/-- **Every number in a value has a text exactly if the doubles are finite and no integer is too
long.** -/
theorem flaw?_eq_none_iff (v : Json) : v.flaw? = none ↔ v.isStrict = true ∧ v.IsReadable := by
  match v with
  | .null | .bool _ | .string _ => simp only [flaw?, isStrict, IsReadable, and_self]
  | .int n =>
    simp only [flaw?, isStrict, IsReadable, true_and]
    split
    · next hlong => simpa using hlong
    · next hshort => simpa using hshort
  | .float x =>
    simp only [flaw?, isStrict, IsReadable, and_true]
    cases Double.isFinite x <;> simp
  | .array items =>
    simp only [flaw?, isStrict, IsReadable]
    exact itemsFlaw?_eq_none_iff items
  | .object members =>
    simp only [flaw?, isStrict, IsReadable]
    exact membersFlaw?_eq_none_iff members

theorem itemsFlaw?_eq_none_iff (items : List Json) :
    itemsFlaw? items = none ↔ itemsStrict items = true ∧ ItemsReadable items := by
  match items with
  | [] => simp only [itemsFlaw?, itemsStrict, ItemsReadable, and_self]
  | v :: rest =>
    simp only [itemsFlaw?, itemsStrict, ItemsReadable, Option.or_eq_none_iff, flaw?_eq_none_iff v,
      itemsFlaw?_eq_none_iff rest, Bool.and_eq_true]
    exact and_and_and_comm

theorem membersFlaw?_eq_none_iff (members : List (String × Json)) :
    membersFlaw? members = none ↔ membersStrict members = true ∧ MembersReadable members := by
  match members with
  | [] => simp only [membersFlaw?, membersStrict, MembersReadable, and_self]
  | (_, v) :: rest =>
    simp only [membersFlaw?, membersStrict, MembersReadable, Option.or_eq_none_iff,
      flaw?_eq_none_iff v, membersFlaw?_eq_none_iff rest, Bool.and_eq_true]
    exact and_and_and_comm

end

mutual

/-- Where no integer is too long, a number without a text is not finite. -/
theorem flaw?_ne_integerTooLong {v : Json} (h : v.IsReadable) :
    v.flaw? ≠ some .integerTooLong := by
  match v with
  | .null | .bool _ | .string _ => simp only [flaw?, ne_eq, reduceCtorEq, not_false_eq_true]
  | .int n =>
    rw [IsReadable] at h
    rw [flaw?, if_neg (Nat.not_lt.2 h)]
    simp
  | .float x =>
    rw [flaw?]
    split <;> simp
  | .array items =>
    rw [IsReadable] at h
    rw [flaw?]
    exact itemsFlaw?_ne_integerTooLong h
  | .object members =>
    rw [IsReadable] at h
    rw [flaw?]
    exact membersFlaw?_ne_integerTooLong h

theorem itemsFlaw?_ne_integerTooLong {items : List Json} (h : ItemsReadable items) :
    itemsFlaw? items ≠ some .integerTooLong := by
  match items with
  | [] => simp only [itemsFlaw?, ne_eq, reduceCtorEq, not_false_eq_true]
  | v :: rest =>
    rw [ItemsReadable] at h
    have hv := flaw?_ne_integerTooLong h.1
    have hrest := itemsFlaw?_ne_integerTooLong h.2
    rw [itemsFlaw?]
    cases hflaw : v.flaw? with
    | none => exact hrest
    | some flaw => rwa [hflaw] at hv

theorem membersFlaw?_ne_integerTooLong {members : List (String × Json)}
    (h : MembersReadable members) : membersFlaw? members ≠ some .integerTooLong := by
  match members with
  | [] => simp only [membersFlaw?, ne_eq, reduceCtorEq, not_false_eq_true]
  | (_, v) :: rest =>
    rw [MembersReadable] at h
    have hv := flaw?_ne_integerTooLong h.1
    have hrest := membersFlaw?_ne_integerTooLong h.2
    rw [membersFlaw?]
    cases hflaw : v.flaw? with
    | none => exact hrest
    | some flaw => rwa [hflaw] at hv

end

/-- **What a readable value lacks a text for is a number that is not finite.** -/
theorem flaw?_of_isReadable {v : Json} (h : v.IsReadable) :
    v.flaw? = if v.isStrict then none else some .notFinite := by
  split
  · next hstrict => exact v.flaw?_eq_none_iff.2 ⟨hstrict, h⟩
  · next hstrict =>
    have hflawed : v.flaw? ≠ none := fun hnone => hstrict (v.flaw?_eq_none_iff.1 hnone).1
    cases hflaw : v.flaw? with
    | none => exact absurd hflaw hflawed
    | some flaw =>
      cases flaw with
      | notFinite => rfl
      | integerTooLong => exact absurd hflaw (flaw?_ne_integerTooLong h)

/-! ## Room -/

variable {n : Nat}

/-- Items nest as deep as the deepest of them. -/
theorem itemsNesting_le_iff {items : List Json} :
    itemsNesting items ≤ n ↔ ∀ v ∈ items, v.nesting ≤ n := by
  induction items with
  | nil => simp [itemsNesting]
  | cons v rest ih => simp [itemsNesting, ih]

/-- Members nest as deep as the deepest of them. -/
theorem membersNesting_le_iff {members : List (String × Json)} :
    membersNesting members ≤ n ↔ ∀ m ∈ members, m.2.nesting ≤ n := by
  induction members with
  | nil => simp [membersNesting]
  | cons m rest ih => simp [membersNesting, ih]

theorem nesting_array_le_iff {items : List Json} :
    (array items).nesting ≤ n + 1 ↔ ∀ v ∈ items, v.nesting ≤ n := by
  rw [nesting, Nat.succ_le_succ_iff, itemsNesting_le_iff]

theorem nesting_object_le_iff {members : List (String × Json)} :
    (object members).nesting ≤ n + 1 ↔ ∀ m ∈ members, m.2.nesting ≤ n := by
  rw [nesting, Nat.succ_le_succ_iff, membersNesting_le_iff]

mutual

/-- **As many places as there are levels are enough.** -/
theorem exhausts_eq_false_of_nesting_le {v : Json} {room : Nat} (h : v.nesting ≤ room) :
    v.exhausts room = false := by
  match v with
  | .null | .bool _ | .int _ | .float _ | .string _ => rw [exhausts] <;> simp
  | .array items =>
    rw [nesting] at h
    obtain ⟨room, rfl⟩ : ∃ n, room = n + 1 := ⟨room - 1, by omega⟩
    rw [exhausts]
    exact itemsExhaust_eq_false_of_nesting_le (by omega)
  | .object members =>
    rw [nesting] at h
    obtain ⟨room, rfl⟩ : ∃ n, room = n + 1 := ⟨room - 1, by omega⟩
    rw [exhausts]
    exact membersExhaust_eq_false_of_nesting_le (by omega)

theorem itemsExhaust_eq_false_of_nesting_le {items : List Json} {room : Nat}
    (h : itemsNesting items ≤ room) : itemsExhaust room items = false := by
  match items with
  | [] => rw [itemsExhaust]
  | v :: rest =>
    rw [itemsNesting, Nat.max_le] at h
    rw [itemsExhaust, exhausts_eq_false_of_nesting_le h.1, itemsExhaust_eq_false_of_nesting_le h.2,
      Bool.and_false, Bool.or_false]

theorem membersExhaust_eq_false_of_nesting_le {members : List (String × Json)} {room : Nat}
    (h : membersNesting members ≤ room) : membersExhaust room members = false := by
  match members with
  | [] => rw [membersExhaust]
  | (_, v) :: rest =>
    rw [membersNesting, Nat.max_le] at h
    rw [membersExhaust, exhausts_eq_false_of_nesting_le h.1,
      membersExhaust_eq_false_of_nesting_le h.2, Bool.and_false, Bool.or_false]

end

mutual

/-- **For a value with a text fewer are not.** -/
theorem exhausts_of_lt_nesting {v : Json} {room : Nat} (hflaw : v.flaw? = none)
    (h : room < v.nesting) : v.exhausts room = true := by
  match v with
  | .null | .bool _ | .int _ | .float _ | .string _ =>
    rw [nesting] at h
    · exact absurd h (Nat.not_lt_zero room)
    all_goals simp
  | .array items =>
    rw [flaw?] at hflaw
    rw [nesting] at h
    cases room with
    | zero => rw [exhausts]
    | succ room =>
      rw [exhausts]
      exact itemsExhaust_of_lt_nesting hflaw (by omega)
  | .object members =>
    rw [flaw?] at hflaw
    rw [nesting] at h
    cases room with
    | zero => rw [exhausts]
    | succ room =>
      rw [exhausts]
      exact membersExhaust_of_lt_nesting hflaw (by omega)

theorem itemsExhaust_of_lt_nesting {items : List Json} {room : Nat}
    (hflaw : itemsFlaw? items = none) (h : room < itemsNesting items) :
    itemsExhaust room items = true := by
  match items with
  | [] => exact absurd h (Nat.not_lt_zero room)
  | v :: rest =>
    rw [itemsFlaw?, Option.or_eq_none_iff] at hflaw
    rw [itemsNesting] at h
    rw [itemsExhaust, hflaw.1, Option.isNone_none, Bool.true_and, Bool.or_eq_true]
    rcases Nat.lt_or_ge room v.nesting with hv | hv
    · exact .inl (exhausts_of_lt_nesting hflaw.1 hv)
    · exact .inr (itemsExhaust_of_lt_nesting hflaw.2 (by omega))

theorem membersExhaust_of_lt_nesting {members : List (String × Json)} {room : Nat}
    (hflaw : membersFlaw? members = none) (h : room < membersNesting members) :
    membersExhaust room members = true := by
  match members with
  | [] => exact absurd h (Nat.not_lt_zero room)
  | (_, v) :: rest =>
    rw [membersFlaw?, Option.or_eq_none_iff] at hflaw
    rw [membersNesting] at h
    rw [membersExhaust, hflaw.1, Option.isNone_none, Bool.true_and, Bool.or_eq_true]
    rcases Nat.lt_or_ge room v.nesting with hv | hv
    · exact .inl (exhausts_of_lt_nesting hflaw.1 hv)
    · exact .inr (membersExhaust_of_lt_nesting hflaw.2 (by omega))

end

/-- An array in an array, and so on. -/
def nested : Nat → Json
  | 0 => array []
  | n + 1 => array [nested n]

/-- **There are values of any number of levels.** -/
theorem nesting_nested (n : Nat) : (nested n).nesting = n + 1 := by
  induction n with
  | zero => rfl
  | succ n ih => rw [nested, nesting, itemsNesting, itemsNesting, ih, Nat.max_zero]

/-- They have no number in them, so that they have a text. -/
theorem flaw?_nested (n : Nat) : (nested n).flaw? = none := by
  induction n with
  | zero => rfl
  | succ n ih => rw [nested, flaw?, itemsFlaw?, itemsFlaw?, ih, Option.or_none]

/-! ## Values that are written and read -/

/-- Arrays in arrays are read as they are. -/
theorem reread_nested (n : Nat) : (nested n).reread = nested n := by
  induction n with
  | zero => rfl
  | succ n ih => rw [nested, reread, rereadItems, rereadItems, ih]

mutual

/-- **No level comes in by it.** -/
theorem nesting_reread_le (v : Json) : v.reread.nesting ≤ v.nesting := by
  match v with
  | .null | .bool _ | .int _ | .float _ | .string _ => simp [reread, nesting]
  | .array items =>
    rw [reread, nesting, nesting]
    exact Nat.succ_le_succ (itemsNesting_reread_le items)
  | .object members =>
    rw [reread, nesting, nesting]
    refine Nat.succ_le_succ (membersNesting_le_iff.2 fun m hm => ?_)
    have hall := membersNesting_le_iff.1 (membersNesting_reread_le members)
    exact hall m (Entries.mem_of_mem_ofList hm)

theorem itemsNesting_reread_le (items : List Json) :
    itemsNesting (rereadItems items) ≤ itemsNesting items := by
  match items with
  | [] => exact Nat.le_refl 0
  | v :: rest =>
    have hv := nesting_reread_le v
    have hrest := itemsNesting_reread_le rest
    rw [rereadItems, itemsNesting, itemsNesting]
    omega

theorem membersNesting_reread_le (members : List (String × Json)) :
    membersNesting (rereadMembers members) ≤ membersNesting members := by
  match members with
  | [] => exact Nat.le_refl 0
  | (name, v) :: rest =>
    have hv := nesting_reread_le v
    have hrest := membersNesting_reread_le rest
    rw [rereadMembers, membersNesting, membersNesting]
    omega

end

mutual

/-- **Doubles stay as finite as they are.** -/
theorem isStrict_reread {v : Json} (h : v.isStrict = true) : v.reread.isStrict = true := by
  match v with
  | .null | .bool _ | .int _ | .string _ => rfl
  | .float x => exact h
  | .array items =>
    rw [isStrict] at h
    rw [reread, isStrict]
    exact itemsStrict_reread h
  | .object members =>
    rw [isStrict] at h
    rw [reread, isStrict]
    refine membersStrict_iff.2 fun m hm => ?_
    exact membersStrict_iff.1 (membersStrict_reread h) m (Entries.mem_of_mem_ofList hm)

theorem itemsStrict_reread {items : List Json} (h : itemsStrict items = true) :
    itemsStrict (rereadItems items) = true := by
  match items with
  | [] => rfl
  | v :: rest =>
    rw [itemsStrict, Bool.and_eq_true] at h
    rw [rereadItems, itemsStrict, isStrict_reread h.1, itemsStrict_reread h.2, Bool.true_and]

theorem membersStrict_reread {members : List (String × Json)} (h : membersStrict members = true) :
    membersStrict (rereadMembers members) = true := by
  match members with
  | [] => rfl
  | (name, v) :: rest =>
    rw [membersStrict, Bool.and_eq_true] at h
    rw [rereadMembers, membersStrict, isStrict_reread h.1, membersStrict_reread h.2, Bool.true_and]

end

end Json

end LineCalc
