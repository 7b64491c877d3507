import LineCalc.Proofs.Editor.Keys
import Mathlib.Data.List.Basic
import Mathlib.Data.List.Induction
/-!
# LineCalc — the two sides of the cursor

In insert mode the cursor stands between characters, so the line is what is before it and what is
behind it (`Sides`). Seen so, a key works at the inner ends of two stacks: it types on the left one,
takes off it, or carries one character across (`Sides.press`). The editor does the same with a line
and a number (`press_withSides`), over any row of keys that stays in insert mode
(`pressAll_withSides`).
-/

namespace LineCalc

/-- A line that is cut in two at the cursor. -/
structure Sides where
  before : List Char
  behind : List Char
deriving DecidableEq

namespace Sides

/-- What a key does at the cursor: backspace takes the character before it off, the arrows carry one
character to the other side, and a character that can be shown is put before it. Where there is no
character to take or to carry, and for every other key, nothing changes. -/
def press (s : Sides) : Key → Sides
  | .backspace => ⟨s.before.dropLast, s.behind⟩
  | .left => ⟨s.before.dropLast, s.before.getLast?.toList ++ s.behind⟩
  | .right => ⟨s.before ++ s.behind.head?.toList, s.behind.tail⟩
  | .char c => if Text.isPrintable c then ⟨s.before ++ [c], s.behind⟩ else s
  | _ => s

/-- What keys do, one after the other, by their names. -/
def pressAll (s : Sides) (names : List String) : Sides :=
  names.foldl (fun s name => s.press (Key.ofName name)) s

theorem pressAll_cons (s : Sides) (name : String) (names : List String) :
    s.pressAll (name :: names) = (s.press (Key.ofName name)).pressAll names :=
  rfl

theorem pressAll_append (s : Sides) (first second : List String) :
    s.pressAll (first ++ second) = (s.pressAll first).pressAll second :=
  List.foldl_append

/-- Characters that can be shown are typed in their order. -/
theorem pressAll_typed (s : Sides) {cs : List Char} (hcs : ∀ c ∈ cs, Text.isPrintable c = true) :
    s.pressAll (cs.map String.singleton) = ⟨s.before ++ cs, s.behind⟩ := by
  induction cs generalizing s with
  | nil => rw [List.append_nil]; rfl
  | cons c cs ih =>
    obtain ⟨hc, hcs⟩ := List.forall_mem_cons.1 hcs
    have hstep : s.press (Key.ofName (String.singleton c)) = ⟨s.before ++ [c], s.behind⟩ := by
      rw [Key.ofName_singleton, press, if_pos hc]
    rw [List.map_cons, pressAll_cons, hstep, ih _ hcs, List.append_assoc, List.singleton_append]

/-- As many backspaces take them off again. -/
theorem pressAll_backspaces (before cs behind : List Char) :
    pressAll ⟨before ++ cs, behind⟩ (List.replicate cs.length "<backspace>")
      = ⟨before, behind⟩ := by
  induction cs using List.reverseRecOn with
  | nil => rw [List.append_nil]; rfl
  | append_singleton cs c ih =>
    have hstep : press ⟨before ++ (cs ++ [c]), behind⟩ (Key.ofName "<backspace>")
        = ⟨before ++ cs, behind⟩ := by
      have hkey : Key.ofName "<backspace>" = .backspace := rfl
      rw [hkey, press, ← List.append_assoc, List.dropLast_concat]
    rw [List.length_append, List.length_singleton, List.replicate_succ, pressAll_cons, hstep, ih]

end Sides

namespace Editor

variable {e : Editor} {key : Key} {names : List String}

/-- What is before the cursor and what is from the cursor on. -/
def sides (e : Editor) : Sides :=
  ⟨e.text.take e.position, e.text.drop e.position⟩

/-- The editor with other text on the sides of its cursor. -/
def withSides (e : Editor) (s : Sides) : Editor :=
  { e with text := s.before ++ s.behind, cursor := (s.before.length : Nat) }

theorem sides_withSides (e : Editor) (s : Sides) : (e.withSides s).sides = s := by
  have hposition : (e.withSides s).position = s.before.length := Int.toNat_natCast _
  rw [sides, hposition]
  exact congr (congrArg Sides.mk List.take_left) List.drop_left

/-- An editor in insert mode is made of its sides. -/
theorem WellFormed.withSides_sides (h : e.WellFormed) (hmode : e.mode = .insert) :
    e.withSides e.sides = e := by
  have hnonneg := h.cursor_nonneg
  have hle := h.cursor_le_of_insert hmode
  have hlength : ((e.text.take e.position).length : Int) = e.cursor := by
    have hposition : (e.position : Int) = e.cursor := Int.toNat_of_nonneg hnonneg
    rw [List.length_take_of_le (by omega), hposition]
  rw [withSides, sides, hlength, List.take_append_drop]

/-! ## Edits -/

section

variable (e : Editor) (s : Sides)

/-- The cursor is on the line. -/
theorem min_position_withSides :
    min (e.withSides s).position (e.withSides s).text.length = s.before.length := by
  have hposition : (e.withSides s).position = s.before.length := Int.toNat_natCast _
  have hlength : (e.withSides s).text.length = s.before.length + s.behind.length :=
    List.length_append
  omega

theorem take_withSides : (e.withSides s).text.take s.before.length = s.before :=
  List.take_left

theorem drop_withSides : (e.withSides s).text.drop s.before.length = s.behind :=
  List.drop_left

theorem enter_withSides (c : Char) :
    (e.withSides s).enter [c] = e.withSides ⟨s.before ++ [c], s.behind⟩ := by
  simp only [enter, min_position_withSides, take_withSides, drop_withSides]
  simp [withSides]

theorem backspace_withSides :
    (e.withSides s).backspace = e.withSides ⟨s.before.dropLast, s.behind⟩ := by
  obtain ⟨before, behind⟩ := s
  rcases List.eq_nil_or_concat' before with rfl | ⟨before, c, rfl⟩
  · rfl
  · have hcursor : (e.withSides ⟨before ++ [c], behind⟩).cursor ≠ 0 := by
      simp only [withSides, List.length_append, List.length_singleton]
      omega
    rw [backspace, if_neg hcursor]
    simp only [min_position_withSides]
    simp [withSides]

theorem stepLeft_withSides : (e.withSides s).stepLeft
    = e.withSides ⟨s.before.dropLast, s.before.getLast?.toList ++ s.behind⟩ := by
  obtain ⟨before, behind⟩ := s
  rcases List.eq_nil_or_concat' before with rfl | ⟨before, c, rfl⟩
  · rfl
  · simp [stepLeft, withSides, position]

theorem stepRight_withSides : (e.withSides s).stepRight
    = e.withSides ⟨s.before ++ s.behind.head?.toList, s.behind.tail⟩ := by
  obtain ⟨before, behind⟩ := s
  cases behind <;> simp [stepRight, withSides, position]

end

/-! ## Keys -/

/-- **A key does to the editor what it does to the sides of the cursor**, and only enter asks for
anything. -/
theorem press_withSides (hmode : e.mode = .insert) (hkey : key ≠ .escape) (s : Sides) :
    (e.withSides s).press key
      = (e.withSides (s.press key), if key = .enter then .submit else .none) := by
  have hpress : (e.withSides s).press key = (e.withSides s).pressInsert key := by
    have hinsert : (e.withSides s).mode = .insert := hmode
    rw [press, hinsert]
  rw [hpress]
  cases key with
  | escape => exact absurd rfl hkey
  | enter => rfl
  | backspace => exact congrArg (·, Command.none) (backspace_withSides e s)
  | left => exact congrArg (·, Command.none) (stepLeft_withSides e s)
  | right => exact congrArg (·, Command.none) (stepRight_withSides e s)
  | char c =>
    simp only [pressInsert, Sides.press, reduceCtorEq, if_false]
    split
    · rw [enter_withSides]
    · rfl
  | up | down | tab | backTab | unnamed => rfl

/-- **And so does a row of keys**, as long as none of them leaves insert mode. -/
theorem pressAll_withSides (hmode : e.mode = .insert) (hnames : ∀ name ∈ names, name ≠ "<esc>")
    (s : Sides) : (e.withSides s).pressAll names = e.withSides (s.pressAll names) := by
  induction names generalizing s with
  | nil => rfl
  | cons name names ih =>
    obtain ⟨hname, hnames⟩ := List.forall_mem_cons.1 hnames
    have hkey : Key.ofName name ≠ .escape := mt (Key.ofName_eq_iff (by decide)).1 hname
    rw [pressAll_cons, press_withSides hmode hkey, Sides.pressAll_cons]
    exact ih hnames (s.press (Key.ofName name))

theorem WellFormed.pressAll_eq_withSides (h : e.WellFormed) (hmode : e.mode = .insert)
    (hnames : ∀ name ∈ names, name ≠ "<esc>") :
    e.pressAll names = e.withSides (e.sides.pressAll names) := by
  rw [← pressAll_withSides hmode hnames, h.withSides_sides hmode]

/-- **What is typed is taken off again by as many backspaces.** -/
theorem WellFormed.pressAll_typed_backspaces (h : e.WellFormed) (hmode : e.mode = .insert)
    {cs : List Char} (hcs : ∀ c ∈ cs, Text.isPrintable c = true) :
    e.pressAll (cs.map String.singleton ++ List.replicate cs.length "<backspace>") = e := by
  have htyped : ∀ name ∈ cs.map String.singleton, name ≠ "<esc>" := by
    rintro _ hmem rfl
    obtain ⟨c, -, hc⟩ := List.mem_map.1 hmem
    have hkey := Key.ofName_singleton c
    rw [hc] at hkey
    cases hkey
  have hback : ∀ name ∈ List.replicate cs.length "<backspace>", name ≠ "<esc>" := by
    intro name hmem
    rw [List.eq_of_mem_replicate hmem]
    decide
  rw [h.pressAll_eq_withSides hmode (List.forall_mem_append.2 ⟨htyped, hback⟩),
    Sides.pressAll_append, Sides.pressAll_typed _ hcs, Sides.pressAll_backspaces,
    h.withSides_sides hmode]

/-- **Insert mode works on two stacks.** Whatever row of keys is pressed that does not leave insert
mode, the text before the cursor and the text from the cursor on are what the keys make of them
there, and nothing else of the editor changes. The next key asks for something if it is enter, and
then for the line to be submitted. So characters that are typed are taken off again by as many
backspaces. -/
theorem pressAll_insert (h : e.IsReachable) (hmode : e.mode = .insert)
    (hnames : ∀ name ∈ names, name ≠ "<esc>") :
    let s := e.sides.pressAll names
    (e.pressAll names).sides = s ∧
      e.pressAll names
        = { e with text := s.before ++ s.behind, cursor := (s.before.length : Nat) } ∧
      (∀ name ≠ "<esc>", ((e.pressAll names).press (Key.ofName name)).2
        = if name = "<enter>" then .submit else .none) ∧
      ∀ cs : List Char, (∀ c ∈ cs, Text.isPrintable c = true) →
        e.pressAll (cs.map String.singleton ++ List.replicate cs.length "<backspace>") = e := by
  have hrun := h.wellFormed.pressAll_eq_withSides hmode hnames
  refine ⟨?_, hrun, fun name hname => ?_,
    fun cs hcs => h.wellFormed.pressAll_typed_backspaces hmode hcs⟩
  · rw [hrun, sides_withSides]
  · have hkey : Key.ofName name ≠ .escape := mt (Key.ofName_eq_iff (by decide)).1 hname
    have henter : Key.ofName name = .enter ↔ name = "<enter>" := Key.ofName_eq_iff (by decide)
    rw [hrun, press_withSides hmode hkey]
    simp only [henter]

/-- A sum in insert mode, with the cursor before its last digit. -/
def amid : Editor :=
  (ofText "1+3".toList []).performAll (["<left>"].map .press)

/-- There a digit is typed and taken off again, and another one is put behind; a key without a
meaning changes nothing, and enter submits. -/
theorem pressAll_insert_amid :
    amid.IsReachable ∧ amid.mode = .insert ∧
      (∀ name ∈ ["2", "<backspace>", "<f1>", "<right>", "4", "<left>"], name ≠ "<esc>") ∧
      amid.pressAll ["2", "<backspace>", "<f1>", "<right>", "4", "<left>"]
        = ⟨"1+34".toList, 3, .insert, [], none, none⟩ ∧
      ((amid.pressAll ["2", "<backspace>", "<f1>", "<right>", "4", "<left>"]).press
        (Key.ofName "<enter>")).2 = .submit ∧
      (∀ c ∈ ['é'], Text.isPrintable c = true) ∧ amid.pressAll ["é", "<backspace>"] = amid := by
  have hreachable : amid.IsReachable := ⟨"1+3".toList, _, rfl⟩
  have hmode : amid.mode = .insert := by decide
  have hnames : ∀ name ∈ ["2", "<backspace>", "<f1>", "<right>", "4", "<left>"],
      name ≠ "<esc>" := by decide
  have hshown : ∀ c ∈ ['é'], Text.isPrintable c = true := List.forall_mem_singleton.2 (by decide)
  obtain ⟨-, hpressed, hasked, hback⟩ := pressAll_insert hreachable hmode hnames
  exact ⟨hreachable, hmode, hnames, hpressed.trans (by decide), hasked "<enter>" (by decide),
    hshown, hback ['é'] hshown⟩

end Editor

end LineCalc
