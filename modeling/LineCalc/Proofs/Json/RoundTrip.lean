import LineCalc.Proofs.Json.Number
import LineCalc.Proofs.Json.Strings
/-!
# LineCalc — values written are values read

The reader of JSON inverts the writer (`read_text`), for values of every shape and every number
that can be stored, what is not finite included. Two things may change on the way: of members under
one name the last stays, and halves of a pair side by side become a character. `reread` says what
comes back; it is the value itself where neither occurs.
-/

namespace LineCalc

namespace Json

open Text (joined)

/-! ## What comes back -/

mutual

/-- A value as it is after it was written and read. -/
def reread : Json → Json
  | string s => .string (joined s)
  | array items => .array (rereadItems items)
  | object members => .object (Entries.ofList (rereadMembers members))
  | v => v

/-- Items as they are after they were written and read. -/
def rereadItems : List Json → List Json
  | [] => []
  | v :: rest => v.reread :: rereadItems rest

/-- Members as they are found in the text, before those under one name are put together. -/
def rereadMembers : List (String × Json) → List (String × Json)
  | [] => []
  | (name, v) :: rest => (joined name, v.reread) :: rereadMembers rest

end

mutual

/-- Whether no integer in a value has more digits than are read. -/
def IsReadable : Json → Prop
  | int n => (Layout.digits n.natAbs).length ≤ Numeral.maxDigits
  | array items => ItemsReadable items
  | object members => MembersReadable members
  | _ => True

/-- Whether no integer in the items has more digits than are read. -/
def ItemsReadable : List Json → Prop
  | [] => True
  | v :: rest => v.IsReadable ∧ ItemsReadable rest

/-- Whether no integer in the members has more digits than are read. -/
def MembersReadable : List (String × Json) → Prop
  | [] => True
  | (_, v) :: rest => v.IsReadable ∧ MembersReadable rest

end

/-- Items come back one by one. -/
theorem rereadItems_eq_map (items : List Json) : rereadItems items = items.map reread := by
  induction items with
  | nil => rfl
  | cons v rest ih => rw [rereadItems, ih, List.map_cons]

/-- Members are found one by one. -/
theorem rereadMembers_eq_map (members : List (String × Json)) :
    rereadMembers members = members.map fun m => (joined m.1, m.2.reread) := by
  induction members with
  | nil => rfl
  | cons m rest ih => rw [rereadMembers, ih, List.map_cons]

/-- Items are readable one by one. -/
theorem itemsReadable_iff {items : List Json} :
    ItemsReadable items ↔ ∀ v ∈ items, v.IsReadable := by
  induction items with
  | nil => simp [ItemsReadable]
  | cons v rest ih => simp [ItemsReadable, ih]

/-- Members are readable one by one. -/
theorem membersReadable_iff {members : List (String × Json)} :
    MembersReadable members ↔ ∀ m ∈ members, m.2.IsReadable := by
  induction members with
  | nil => simp [MembersReadable]
  | cons m rest ih => simp [MembersReadable, ih]

/-! ## Numbers and words -/

variable {cs rest : List Char} {fuel : Nat}

/-- Whether a text starts with a digit. -/
def StartsWithDigit (cs : List Char) : Prop :=
  ∃ c tail, cs = c :: tail ∧ Text.isAsciiDigit c = true

theorem startsWithDigit_digits (n : Nat) : StartsWithDigit (Layout.digits n) := by
  obtain ⟨c, tail, h⟩ := List.exists_cons_of_ne_nil (Layout.digits_ne_nil n)
  exact ⟨c, tail, h, Layout.isAsciiDigit_of_mem_digits (h ▸ List.mem_cons_self)⟩

theorem StartsWithDigit.append (h : StartsWithDigit cs) (rest : List Char) :
    StartsWithDigit (cs ++ rest) := by
  obtain ⟨c, tail, rfl, hc⟩ := h
  exact ⟨c, tail ++ rest, rfl, hc⟩

/-- A number starts with a digit, however it is laid out. -/
theorem startsWithDigit_place (l : Layout) (d : Decimal) : StartsWithDigit (l.place d) := by
  obtain ⟨c, tail, h, hc⟩ := startsWithDigit_digits d.digits
  simp only [Layout.place, h]
  split
  · split
    · next h => cases h
    · next h =>
      cases h
      exact ⟨_, _, rfl, hc⟩
    · next h =>
      cases h
      exact ⟨_, _, rfl, hc⟩
  split
  · exact ⟨_, _, rfl, hc⟩
  split
  · next hx =>
    obtain ⟨k, hk⟩ : ∃ k, (d.exponent + ((c :: tail).length : Int) - 1 + 1).toNat = k + 1 :=
      ⟨(d.exponent + ((c :: tail).length : Int) - 1).toNat, by omega⟩
    rw [hk]
    exact ⟨_, _, rfl, hc⟩
  · exact ⟨_, _, rfl, rfl⟩

/-- A number is no word, with its sign or without. -/
theorem readPlain_sign (negative : Bool) (h : StartsWithDigit cs) :
    readPlain (Layout.sign negative ++ cs) = readNumber negative cs := by
  obtain ⟨c, tail, rfl, hc⟩ := h
  have hword : c ≠ 'n' ∧ c ≠ 't' ∧ c ≠ 'f' ∧ c ≠ 'N' ∧ c ≠ 'I' ∧ c ≠ '-' := by
    refine ⟨?_, ?_, ?_, ?_, ?_, ?_⟩ <;> (rintro rfl; revert hc; decide)
  cases negative with
  | true => simp [Layout.sign, readPlain, hword]
  | false => simp [Layout.sign, readPlain, hword]

/-! ## Where values start -/

/-- Whether a text starts as a value does: with neither a blank nor a closing bracket. -/
def Opens (cs : List Char) : Prop :=
  ∃ c tail, cs = c :: tail ∧ isSpace c = false ∧ c ≠ ']'

theorem Opens.skip (h : Opens cs) : skip cs = cs := by
  obtain ⟨c, tail, rfl, hc, -⟩ := h
  rw [Json.skip, List.dropWhile_cons_of_neg (by rw [hc]; decide)]

theorem Opens.append (h : Opens cs) (rest : List Char) : Opens (cs ++ rest) := by
  obtain ⟨c, tail, rfl, hc⟩ := h
  exact ⟨c, tail ++ rest, rfl, hc⟩

theorem opens_stringText (s : String) : Opens (stringText s) :=
  ⟨_, _, rfl, by decide, by decide⟩

theorem opens_sign (negative : Bool) (h : StartsWithDigit cs) :
    Opens (Layout.sign negative ++ cs) := by
  obtain ⟨c, tail, rfl, hc⟩ := h
  cases negative with
  | true => exact ⟨_, _, rfl, by decide, by decide⟩
  | false =>
    refine ⟨c, tail, rfl, ?_, ?_⟩
    · simp only [isSpace, Bool.or_eq_false_iff, decide_eq_false_iff_not]
      refine ⟨⟨⟨?_, ?_⟩, ?_⟩, ?_⟩ <;> (rintro rfl; revert hc; decide)
    · rintro rfl
      revert hc
      decide

/-- A value starts as one. -/
theorem opens_text (v : Json) : Opens v.text := by
  cases v with
  | null => exact ⟨_, _, rfl, by decide, by decide⟩
  | bool b => cases b <;> exact ⟨_, _, rfl, by decide, by decide⟩
  | int n => exact opens_sign _ (startsWithDigit_digits _)
  | float x =>
    rw [text, floatText]
    split
    · exact ⟨_, _, rfl, by decide, by decide⟩
    · next negative _ => cases negative <;> exact ⟨_, _, rfl, by decide, by decide⟩
    · exact opens_sign _ (startsWithDigit_place _ _)
  | string s => exact opens_stringText s
  | array items => exact ⟨_, _, rfl, by decide, by decide⟩
  | object members => exact ⟨_, _, rfl, by decide, by decide⟩

theorem opens_itemsText (v : Json) (items : List Json) : Opens (itemsText (v :: items)) := by
  cases items with
  | nil => exact opens_text v
  | cons w items => exact (opens_text v).append _

/-- A string after its opening quote. -/
theorem stringText_append (s : String) (rest : List Char) :
    stringText s ++ rest = '"' :: (s.toList.flatMap charText ++ '"' :: rest) := by
  simp [stringText]

/-- Members start with the quote of a name. -/
theorem head?_membersText (name : String) (v : Json) (members : List (String × Json))
    (rest : List Char) : (membersText ((name, v) :: members) ++ rest).head? = some '"' := by
  cases members <;> rfl

/-! ## The steps of the reader -/

variable {next : List Char} {v : Json} {name : String} {items : List Json}
variable {members : List (String × Json)}

/-- A blank before a value is left out. -/
theorem Opens.skip_space (h : Opens cs) : Json.skip (' ' :: cs) = cs :=
  h.skip

/-- A value that starts as a number is one. -/
theorem readValue_sign (h : StartsWithDigit cs) (negative : Bool) :
    readValue (fuel + 1) (Layout.sign negative ++ cs) = readNumber negative cs := by
  rw [← readPlain_sign negative h]
  obtain ⟨c, tail, rfl, hc⟩ := h
  have hnot : c ≠ '"' ∧ c ≠ '[' ∧ c ≠ '\x7b' := by
    refine ⟨?_, ?_, ?_⟩ <;> (rintro rfl; revert hc; decide)
  cases negative with
  | true => simp [Layout.sign, readValue]
  | false => simp [Layout.sign, readValue, hnot]

/-- An array with something in it. -/
theorem readValue_array (h : Opens cs) (hitems : readItems fuel cs = .ok (items, rest)) :
    readValue (fuel + 1) ('[' :: cs) = .ok (.array items, rest) := by
  rw [readValue, h.skip]
  split
  · obtain ⟨c, tail, hcs, -, hc⟩ := h
    exact absurd (List.cons.inj hcs).1.symm hc
  · rw [hitems]
    rfl

/-- An object with something in it. -/
theorem readValue_object (h : cs.head? = some '"')
    (hmembers : readMembers fuel cs = .ok (members, rest)) :
    readValue (fuel + 1) ('\x7b' :: cs) = .ok (.object (Entries.ofList members), rest) := by
  obtain ⟨tail, rfl⟩ := List.head?_eq_some_iff.1 h
  have hskip : skip ('"' :: tail) = '"' :: tail := rfl
  rw [readValue, hskip]
  split
  · next h => exact absurd (List.cons.inj h).1 (by decide)
  · rw [hmembers]
    rfl

/-- The last item. -/
theorem readItems_last (hv : readValue fuel cs = .ok (v, ']' :: rest)) :
    readItems (fuel + 1) cs = .ok ([v], rest) := by
  have hskip : skip (']' :: rest) = ']' :: rest := rfl
  rw [readItems, hv]
  simp only [bind, Except.bind, hskip]
  rfl

/-- An item before another one. -/
theorem readItems_more (hv : readValue fuel cs = .ok (v, ',' :: ' ' :: next)) (h : Opens next)
    (hitems : readItems fuel next = .ok (items, rest)) :
    readItems (fuel + 1) cs = .ok (v :: items, rest) := by
  have hskip : skip (',' :: ' ' :: next) = ',' :: ' ' :: next := rfl
  rw [readItems, hv]
  simp only [bind, Except.bind, hskip, h.skip_space, hitems]
  rfl

/-- The last member. -/
theorem readMembers_last (h : Opens next) (hv : readValue fuel next = .ok (v, '\x7d' :: rest)) :
    readMembers (fuel + 1) (stringText name ++ ':' :: ' ' :: next)
      = .ok ([(joined name, v)], rest) := by
  have hcolon : skip (':' :: ' ' :: next) = ':' :: ' ' :: next := rfl
  have hbrace : skip ('\x7d' :: rest) = '\x7d' :: rest := rfl
  rw [stringText_append, readMembers]
  simp only [bind, Except.bind, readString_stringText, hcolon, h.skip_space, hv, hbrace]
  rfl

/-- A member before another one. -/
theorem readMembers_more {after : List Char} (h : Opens next)
    (hv : readValue fuel next = .ok (v, ',' :: ' ' :: after)) (hafter : after.head? = some '"')
    (hmembers : readMembers fuel after = .ok (members, rest)) :
    readMembers (fuel + 1) (stringText name ++ ':' :: ' ' :: next)
      = .ok ((joined name, v) :: members, rest) := by
  obtain ⟨tail, rfl⟩ := List.head?_eq_some_iff.1 hafter
  have hcolon : skip (':' :: ' ' :: next) = ':' :: ' ' :: next := rfl
  have hcomma : skip (',' :: ' ' :: '"' :: tail) = ',' :: ' ' :: '"' :: tail := rfl
  have hquote : skip (' ' :: '"' :: tail) = '"' :: tail := rfl
  rw [stringText_append, readMembers]
  simp only [bind, Except.bind, readString_stringText, hcolon, h.skip_space, hv, hcomma, hquote,
    hmembers]
  rfl

/-! ## Whole values -/

/-- A number that is not finite is read as the word that it was written as; a finite one as its
digits. -/
theorem readValue_float (x : Float) (hrest : IsBoundary rest) :
    readValue (fuel + 1) (floatText x ++ rest) = .ok (.float x, rest) := by
  rw [floatText]
  split
  · next h => exact congrArg (fun y => Except.ok (Json.float y, rest)) (Double.eq_nan h)
  · next negative h =>
    rw [← Double.eq_infinity h]
    cases negative <;> rfl
  · next negative m q h =>
    rw [storedDigits, Layout.render, List.append_assoc,
      readValue_sign ((startsWithDigit_place _ _).append rest), readNumber_stored h hrest]

/-- An integer is read as its digits. -/
theorem readValue_int {n : Int} (hn : (int n).IsReadable) (hrest : IsBoundary rest) :
    readValue (fuel + 1) (intText n ++ rest) = .ok (.int n, rest) := by
  have hvalue : (if decide (n < 0) then -(n.natAbs : Int) else (n.natAbs : Int)) = n := by
    split
    · next h =>
      have := of_decide_eq_true h
      omega
    · next h =>
      have := mt decide_eq_true h
      omega
  rw [intText, List.append_assoc, readValue_sign ((startsWithDigit_digits _).append rest),
    readNumber_digits _ hn hrest, hvalue]

/-- A string is read up to its closing quote. -/
theorem readValue_string (s : String) (rest : List Char) :
    readValue (fuel + 1) (stringText s ++ rest) = .ok (.string (joined s), rest) := by
  rw [stringText_append, readValue, readString_stringText]
  rfl

mutual

/-- **A value is read as it was written**, inside whatever else. -/
theorem readValue_text (v : Json) (fuel : Nat) (rest : List Char) (hv : v.IsReadable)
    (hfuel : 2 * v.text.length ≤ fuel) (hrest : IsBoundary rest) :
    readValue fuel (v.text ++ rest) = .ok (v.reread, rest) := by
  -- no text is empty, so there is fuel for a step
  obtain ⟨c, tail, htext, -⟩ := opens_text v
  obtain ⟨fuel, rfl⟩ : ∃ k, fuel = k + 1 := by
    rw [htext, List.length_cons] at hfuel
    exact ⟨fuel - 1, by omega⟩
  match v with
  | .null => rfl
  | .bool true => rfl
  | .bool false => rfl
  | .int n => exact readValue_int hv hrest
  | .float x => exact readValue_float x hrest
  | .string s => exact readValue_string s rest
  | .array [] => rfl
  | .array (v :: items) =>
    have happend : (Json.array (v :: items)).text ++ rest
        = '[' :: (itemsText (v :: items) ++ ']' :: rest) := by
      simp [text]
    have hlength : (Json.array (v :: items)).text.length = (itemsText (v :: items)).length + 2 := by
      simp [text]
    rw [IsReadable] at hv
    rw [happend, readValue_array ((opens_itemsText v items).append _)
      (readItems_text (v :: items) fuel rest (List.cons_ne_nil _ _) hv (by omega)), reread]
  | .object [] => rfl
  | .object ((name, v) :: members) =>
    have happend : (Json.object ((name, v) :: members)).text ++ rest
        = '\x7b' :: (membersText ((name, v) :: members) ++ '\x7d' :: rest) := by
      simp [text]
    have hlength : (Json.object ((name, v) :: members)).text.length
        = (membersText ((name, v) :: members)).length + 2 := by
      simp [text]
    rw [IsReadable] at hv
    rw [happend, readValue_object (head?_membersText name v members _)
      (readMembers_text ((name, v) :: members) fuel rest (List.cons_ne_nil _ _) hv (by omega)),
      reread]

/-- So are items up to the closing bracket. -/
theorem readItems_text (items : List Json) (fuel : Nat) (rest : List Char) (hne : items ≠ [])
    (hitems : ItemsReadable items) (hfuel : 2 * (itemsText items).length + 1 ≤ fuel) :
    readItems fuel (itemsText items ++ ']' :: rest) = .ok (rereadItems items, rest) := by
  obtain ⟨fuel, rfl⟩ : ∃ k, fuel = k + 1 := ⟨fuel - 1, by omega⟩
  match items with
  | [] => exact absurd rfl hne
  | [v] =>
    rw [itemsText] at hfuel ⊢
    exact readItems_last (readValue_text v fuel (']' :: rest) hitems.1 (by omega)
      (isBoundary_cons (by decide)))
  | v :: w :: items =>
    have hlength : (itemsText (v :: w :: items)).length
        = v.text.length + (itemsText (w :: items)).length + 2 := by
      simp [itemsText]
      omega
    rw [itemsText, List.append_assoc]
    exact readItems_more (readValue_text v fuel _ hitems.1 (by omega) (isBoundary_cons (by decide)))
      ((opens_itemsText w items).append _)
      (readItems_text (w :: items) fuel rest (List.cons_ne_nil _ _) hitems.2 (by omega))

/-- So are members up to the closing brace. -/
theorem readMembers_text (members : List (String × Json)) (fuel : Nat) (rest : List Char)
    (hne : members ≠ []) (hmembers : MembersReadable members)
    (hfuel : 2 * (membersText members).length + 1 ≤ fuel) :
    readMembers fuel (membersText members ++ '\x7d' :: rest)
      = .ok (rereadMembers members, rest) := by
  obtain ⟨fuel, rfl⟩ : ∃ k, fuel = k + 1 := ⟨fuel - 1, by omega⟩
  match members with
  | [] => exact absurd rfl hne
  | [(name, v)] =>
    have happend : membersText [(name, v)] ++ '\x7d' :: rest
        = stringText name ++ ':' :: ' ' :: (v.text ++ '\x7d' :: rest) := by
      simp [membersText]
    have hlength : v.text.length ≤ (membersText [(name, v)]).length := by
      simp [membersText]
      omega
    rw [happend]
    exact readMembers_last ((opens_text v).append _)
      (readValue_text v fuel _ hmembers.1 (by omega) (isBoundary_cons (by decide)))
  | (name, v) :: (name', w) :: members =>
    have happend : membersText ((name, v) :: (name', w) :: members) ++ '\x7d' :: rest
        = stringText name ++ ':' :: ' ' :: (v.text ++ ',' :: ' ' ::
          (membersText ((name', w) :: members) ++ '\x7d' :: rest)) := by
      simp [membersText]
    have hlength : v.text.length + (membersText ((name', w) :: members)).length + 2
        ≤ (membersText ((name, v) :: (name', w) :: members)).length := by
      simp [membersText]
      omega
    rw [happend]
    exact readMembers_more ((opens_text v).append _)
      (readValue_text v fuel _ hmembers.1 (by omega) (isBoundary_cons (by decide)))
      (head?_membersText name' w members _)
      (readMembers_text ((name', w) :: members) fuel rest (List.cons_ne_nil _ _) hmembers.2
        (by omega))

end

/-- **The text of a value is read as the value.** -/
theorem read_text {v : Json} (hv : v.IsReadable) : Json.read v.text = .ok v.reread := by
  have hread := readValue_text v (2 * v.text.length + 2) [] hv (by omega) isBoundary_nil
  rw [List.append_nil] at hread
  rw [Json.read, (opens_text v).skip, hread]
  rfl

end Json

end LineCalc
