import LineCalc.Proofs.Editor.Register
import LineCalc.Proofs.Screen.Terminal
import LineCalc.Proofs.Selection
/-!
# LineCalc — what the screen shows

What is drawn is looked at cell by cell, with one character to a cell. A text that is put on the
screen shows its characters from its cell on, up to the last column but one (`Screen.shows_put`), and
from that all else is read. The selection is drawn over the line by a text of its own, and shows what
the line shows there. The rows below the headings are those of the history on the left half, and of
the variables and the samples on the right half; the one in reverse is the row that enter fetches
(`Screen.faithful_draw`).

A drawing that breaks off has sent some texts and leaves no frame, and rows of the screen may take no
text; neither makes a difference to what a text that is there shows.
-/

namespace LineCalc

/-! ## Characters in cells -/

namespace Write

/-- The character that a text puts in a cell, if it reaches there. -/
def at? (w : Write) (row column : Nat) : Option Char :=
  if w.row = row ∧ w.column ≤ column then w.text[column - w.column]? else none

theorem at?_eq_some_iff {w : Write} {row column : Nat} {c : Char} : w.at? row column = some c ↔
    w.row = row ∧ w.column ≤ column ∧ w.text[column - w.column]? = some c := by
  unfold at?
  split
  · next hcell => simp only [hcell, true_and]
  · next hcell => simp only [reduceCtorEq, ← and_assoc, hcell, false_and]

end Write

/-! ## What strokes send -/

namespace Stroke

variable {surface : Surface} {strokes strokes' : List Stroke} {k : Stroke} {w : Write}
variable {writes : List Write}

theorem sent_given (surface : Surface) (row column : Nat) (text : List Char) (style : Style)
    (rest : List Stroke) : sent surface (⟨row, column, .ok text, style⟩ :: rest)
      = surface.sound.put row column text style ++ sent surface rest := rfl

/-- Behind texts that can be made up, the others are sent. -/
theorem sent_append (h : ∀ k ∈ strokes, ∃ text, k.text = .ok text) (strokes' : List Stroke) :
    sent surface (strokes ++ strokes') = sent surface strokes ++ sent surface strokes' := by
  induction strokes with
  | nil => rfl
  | cons k rest ih =>
    obtain ⟨⟨text, htext⟩, hrest⟩ := List.forall_mem_cons.1 h
    rw [List.cons_append, sent, sent, htext]
    dsimp only
    rw [ih hrest, List.append_assoc]

/-- **Strokes that are drawn to the end are all drawn.** -/
theorem exists_put_of_drawAll (h : drawAll surface strokes = .ok writes) (hk : k ∈ strokes) :
    ∃ text, k.text = .ok text ∧ ∀ w ∈ surface.put k.row k.column text k.style, w ∈ writes := by
  induction strokes generalizing writes with
  | nil => cases hk
  | cons k' rest ih =>
    rw [drawAll_cons, draw] at h
    obtain ⟨first, hfirst, h⟩ := bind_eq_ok_iff.1 h
    obtain ⟨others, hothers, h⟩ := bind_eq_ok_iff.1 h
    cases h
    rcases List.mem_cons.1 hk with rfl | hk
    · cases htext : k.text with
      | error fault =>
        rw [htext] at hfirst
        cases hfirst
      | ok text =>
        rw [htext] at hfirst
        cases hfirst
        exact ⟨text, rfl, fun w hw => List.mem_append_left _ hw⟩
    · obtain ⟨text, htext, hsubset⟩ := ih hothers hk
      exact ⟨text, htext, fun w hw => List.mem_append_right _ (hsubset w hw)⟩

end Stroke

/-- **Of strokes that are drawn to the end, one that is on the screen is on it.** -/
theorem Stroke.exists_mem_put_of_drawAll {surface : Surface} {strokes : List Stroke} {k : Stroke}
    {writes : List Write} (h : drawAll surface strokes = .ok writes) (hk : k ∈ strokes)
    (hrow : surface.HasRow k.row) (hcolumn : k.column < surface.width) :
    ∃ text, k.text = .ok text ∧
      ∃ w ∈ surface.put k.row k.column text k.style, w ∈ writes := by
  obtain ⟨text, htext, hput⟩ := exists_put_of_drawAll h hk
  have hw : ⟨k.row, k.column, text.take (surface.width - k.column - 1), k.style⟩
      ∈ surface.put k.row k.column text k.style := Surface.mem_put_iff.2 ⟨hrow, hcolumn, rfl⟩
  exact ⟨text, htext, _, hw, hput _ hw⟩

namespace Screen

variable {precision : Int} {surface : Surface} {s : Session} {d : Desk} {writes : List Write}
variable {w : Write} {style style' : Style} {row row' column column' i : Nat} {c : Char}
variable {text : List Char}

/-! ## What is shown -/

/-- Whether a text of a style puts a character in a cell. -/
def Shows (writes : List Write) (style : Style) (row column : Nat) (c : Char) : Prop :=
  ∃ w ∈ writes, w.style = style ∧ w.at? row column = some c

theorem shows_append {writes' : List Write} : Shows (writes ++ writes') style row column c ↔
    Shows writes style row column c ∨ Shows writes' style row column c := by
  simp only [Shows, List.mem_append, or_and_right, exists_or]

/-- **What a text shows**: from its cell on one character in each cell, and none in the last column. -/
theorem shows_put : Shows (surface.put row column text style) style' row' column' c ↔
    surface.HasRow row ∧ style = style' ∧ row = row' ∧ column ≤ column' ∧
      column' + 1 < surface.width ∧ text[column' - column]? = some c := by
  simp only [Shows, Surface.mem_put_iff, Write.at?_eq_some_iff]
  constructor
  · rintro ⟨w, ⟨hrow, hcolumn, rfl⟩, hstyle, hrows, hle, hat⟩
    dsimp only at hat hle
    rw [List.getElem?_take] at hat
    split at hat
    · exact ⟨hrow, hstyle, hrows, hle, by omega, hat⟩
    · cases hat
  · rintro ⟨hrow, hstyle, hrows, hle, hlt, hat⟩
    refine ⟨_, ⟨hrow, by omega, rfl⟩, hstyle, hrows, hle, ?_⟩
    dsimp only
    rw [List.getElem?_take, if_pos (by omega)]
    exact hat

/-- Rows that take no text show nothing, and the others what was sent. -/
theorem shows_filter_takes : Shows (writes.filter surface.takes) style row column c ↔
    row ∉ surface.badRows ∧ Shows writes style row column c := by
  simp only [Shows, List.mem_filter, Surface.takes, decide_eq_true_eq, Write.at?_eq_some_iff]
  constructor
  · rintro ⟨w, ⟨hw, htakes⟩, hstyle, rfl, hat⟩
    exact ⟨htakes, w, hw, hstyle, rfl, hat⟩
  · rintro ⟨htakes, w, hw, hstyle, rfl, hat⟩
    exact ⟨w, ⟨hw, htakes⟩, hstyle, rfl, hat⟩

/-! ## The line and its selection -/

/-- The line, behind the mark that tells whether it has the focus. -/
def markedLine (s : Session) : List Char :=
  (if s.focus = .input then "> " else "< ").toList ++ s.editor.text

/-- Whether a column of the line's row is in the selection. -/
def IsSelected (s : Session) (column : Nat) : Prop :=
  ∃ first last, s.editor.selection = some (first, last) ∧ 2 + first ≤ column ∧ column ≤ 2 + last

/-- The mark takes two columns. -/
theorem markedLine_getElem? (h : 2 ≤ column) :
    (markedLine s)[column]? = s.editor.text[column - 2]? := by
  have hlength : (if s.focus = .input then "> " else "< ").toList.length = 2 := by
    split <;> rfl
  rw [markedLine, List.getElem?_append_right (by omega), hlength]

/-- The strokes for the line and the headings can be made up, and are above the lists. -/
theorem given_of_mem_lineStrokes {k : Stroke} (h : k ∈ lineStrokes surface s) :
    (∃ text, k.text = .ok text) ∧ k.row < 5 := by
  unfold lineStrokes at h
  cases hselection : s.editor.selection with
  | none =>
    simp only [hselection, List.append_nil, List.mem_append, List.mem_cons, List.not_mem_nil,
      or_false] at h
    rcases h with (rfl | rfl | rfl) | rfl | rfl <;> exact ⟨⟨_, rfl⟩, by dsimp only; omega⟩
  | some range =>
    simp only [hselection, List.mem_append, List.mem_cons, List.not_mem_nil, or_false] at h
    rcases h with ((rfl | rfl | rfl) | rfl) | rfl | rfl <;>
      exact ⟨⟨_, rfl⟩, by dsimp only; omega⟩

/-- Below the headings are the history, the variables and the samples. -/
theorem five_le_row_of_mem {k : Stroke} (h : k ∈ historyStrokes precision surface s ++
    (variableStrokes precision surface s ++ sampleStrokes precision surface s)) : 5 ≤ k.row := by
  rcases List.mem_append.1 h with h | h
  · obtain ⟨p, -, rfl⟩ := List.mem_map.1 h
    exact Nat.le_add_right 5 p.2
  · rcases List.mem_append.1 h with h | h
    · obtain ⟨p, -, rfl⟩ := List.mem_map.1 h
      exact Nat.le_add_right 5 p.2
    · unfold sampleStrokes at h
      dsimp only at h
      split at h
      · cases h
      · rcases List.mem_cons.1 h with rfl | h
        · simp only [samplesTop]
          omega
        · obtain ⟨p, -, rfl⟩ := List.mem_map.1 h
          simp only [sampleStroke, samplesTop]
          omega

/-- **Above the lists only the line and the headings show anything.** -/
theorem shows_strokes (hrow : row < 5) :
    Shows (Stroke.sent surface (strokes precision surface s)) style row column c ↔
      Shows (Stroke.sent surface (lineStrokes surface s)) style row column c := by
  have hparts : strokes precision surface s = lineStrokes surface s ++
      (historyStrokes precision surface s ++
        (variableStrokes precision surface s ++ sampleStrokes precision surface s)) := by
    simp only [strokes, List.append_assoc]
  rw [hparts, Stroke.sent_append fun k hk => (given_of_mem_lineStrokes hk).1, shows_append]
  refine or_iff_left ?_
  rintro ⟨w, hw, -, hat⟩
  obtain ⟨k, hk, text, -, hput⟩ := Stroke.exists_put_of_mem_sent hw
  obtain ⟨-, -, rfl⟩ := Surface.mem_put_iff.1 hput
  have hk5 := five_le_row_of_mem hk
  have hkrow : k.row = row := (Write.at?_eq_some_iff.1 hat).1
  omega

/-- **What the line shows**: its characters behind the mark, as far as the screen goes. -/
theorem shows_line : Shows (Stroke.sent surface (lineStrokes surface s)) .plain 2 column c ↔
    surface.sound.HasRow 2 ∧ column + 1 < surface.width ∧ (markedLine s)[column]? = some c := by
  unfold lineStrokes markedLine
  cases s.editor.selection <;>
    simp [Stroke.sent_given, Stroke.sent, shows_append, shows_put, Surface.sound]

/-- Without a selection nothing is drawn over the line. -/
theorem not_shows_over (h : s.editor.selection = none) :
    ¬ Shows (Stroke.sent surface (lineStrokes surface s)) .reverse 2 column c := by
  unfold lineStrokes
  simp [h, Stroke.sent_given, Stroke.sent, shows_append, shows_put]

/-- **What is drawn over the line**: the selected part, from its own column on. -/
theorem shows_over {first last : Nat} (h : s.editor.selection = some (first, last)) :
    Shows (Stroke.sent surface (lineStrokes surface s)) .reverse 2 column c ↔
      surface.sound.HasRow 2 ∧ 2 + first ≤ column ∧ column + 1 < surface.width ∧
        ((s.editor.text.take (last + 1)).drop first)[column - (2 + first)]? = some c := by
  unfold lineStrokes
  simp [h, Stroke.sent_given, Stroke.sent, shows_append, shows_put, Surface.sound]

/-- **The selection shows what the line shows**, in the columns that are selected. -/
theorem shows_selection : Shows (Stroke.sent surface (lineStrokes surface s)) .reverse 2 column c ↔
    IsSelected s column ∧
      Shows (Stroke.sent surface (lineStrokes surface s)) .plain 2 column c := by
  rw [shows_line]
  cases hselection : s.editor.selection with
  | none =>
    refine iff_of_false (not_shows_over hselection) ?_
    rintro ⟨⟨first, last, hrange, -⟩, -⟩
    rw [hselection] at hrange
    cases hrange
  | some range =>
    obtain ⟨first, last⟩ := range
    have hselected : IsSelected s column ↔ 2 + first ≤ column ∧ column ≤ 2 + last := by
      simp [IsSelected, hselection]
    rw [shows_over hselection, hselected, List.getElem?_drop, List.getElem?_take]
    by_cases hfirst : 2 + first ≤ column
    · -- both count from the first character of the line
      have hplace : first + (column - (2 + first)) = column - 2 := by omega
      rw [markedLine_getElem? (by omega), hplace]
      by_cases hlast : column ≤ 2 + last
      · rw [if_pos (by omega)]
        tauto
      · rw [if_neg (by omega)]
        simp [hlast]
    · simp [hfirst]

/-- A selected column is that of a character of the line. -/
theorem exists_markedLine_of_isSelected (h : IsSelected s column) :
    ∃ c, (markedLine s)[column]? = some c := by
  obtain ⟨first, last, hselection, hfirst, hlast⟩ := h
  have hbounds := Editor.selection_bounds hselection
  rw [markedLine_getElem? (by omega)]
  exact ⟨_, List.getElem?_eq_getElem (by omega)⟩

/-! ## The rows of the lists -/

/-- Whether a text is row `i` of a list: at the list's column, it begins what the row stands for, and it
is in reverse exactly if the row is selected. -/
structure IsRow (w : Write) (column room : Nat) (shown : Except Fault String) (i : Nat)
    (selected : Prop) : Prop where
  row : w.row = 5 + i
  column : w.column = column
  text : ∃ text, shown = .ok text ∧ w.text = text.toList.take room
  reverse : w.style = .reverse ↔ selected

theorem styleIf_eq_reverse_iff {p : Prop} [Decidable p] : styleIf p .reverse = .reverse ↔ p := by
  by_cases h : p <;> simp [styleIf, h]

/-- **A row of the history**, counted from its newest entry. It ends on the left half; and if it is in
reverse, its entry is the one whose line enter fetches. -/
structure IsHistoryRow (precision : Int) (surface : Surface) (d : Desk) (w : Write) (i : Nat)
    (e : HistoryEntry) : Prop where
  entry : d.session.newestFirst[i]? = some e
  shown : IsRow w 0 (surface.half - 1) (Report.entry precision e) i
    (d.session.focus = .history ∧ d.session.historySelected = some i)
  apart : ∀ row column c, w.at? row column = some c → column < surface.half
  recalled : w.style = .reverse → d.Recalls e.expression

/-- **A row of the variables**, in the order of their names. It starts where the right half does; and if
it is in reverse, its definition is the one whose line enter fetches. -/
structure IsVariableRow (precision : Int) (surface : Surface) (d : Desk) (w : Write) (i : Nat)
    (name : String) (definition : Definition Float) : Prop where
  listed : d.session.environment.sortedNames[i]? = some name
  found : d.session.environment.find? name = some definition
  shown : IsRow w surface.half (surface.width - surface.half - 1)
    (Report.definition precision name definition.value) i
    (d.session.focus = .definitions ∧ d.session.definitionSelected = some i)
  recalled : w.style = .reverse → d.Recalls definition.expression

/-- Whether a text is in a row that is not in a list: the samples and their heading. -/
structure IsSampleRow (surface : Surface) (w : Write) : Prop where
  column : w.column = surface.half
  style : w.style ≠ .reverse

/-- **What is drawn for an entry is its row.** -/
theorem isHistoryRow_of_mem_put {e : HistoryEntry} (he : d.session.newestFirst[i]? = some e)
    {k : Stroke} (hk : k = historyStroke precision surface d.session (e, i))
    (htext : k.text = .ok text) (hw : w ∈ surface.put k.row k.column text k.style) :
    IsHistoryRow precision surface d w i e := by
  subst hk
  rw [historyStroke, map_eq_pure_bind] at htext
  obtain ⟨shown, hshown, hpure⟩ := bind_eq_ok_iff.1 htext
  cases hpure
  obtain ⟨-, -, rfl⟩ := Surface.mem_put_iff.1 hw
  have hhalf : surface.half ≤ surface.width := Nat.div_le_self _ _
  -- the left half is the narrower of the two bounds
  have hcut : (shown.toList.take (surface.half - 1)).take (surface.width - 0 - 1)
      = shown.toList.take (surface.half - 1) := by
    rw [List.take_take, Nat.min_eq_right (by omega)]
  refine ⟨he, ⟨rfl, rfl, ⟨shown, hshown, hcut⟩, styleIf_eq_reverse_iff⟩, ?_, fun hreverse => ?_⟩
  · intro row column c hat
    obtain ⟨-, -, hat⟩ := Write.at?_eq_some_iff.1 hat
    obtain ⟨hlt, -⟩ := List.getElem?_eq_some_iff.1 hat
    dsimp only [historyStroke] at hlt
    rw [hcut, List.length_take] at hlt
    omega
  · obtain ⟨hfocus, hselected⟩ := styleIf_eq_reverse_iff.1 hreverse
    exact Desk.recalls_of_selectedLine? (Session.selectedLine?_history hfocus hselected he)

/-- **What is drawn for a variable is its row.** -/
theorem isVariableRow_of_mem_put {name : String} {definition : Definition Float}
    (hname : d.session.environment.sortedNames[i]? = some name)
    (hfind : d.session.environment.find? name = some definition) {k : Stroke}
    (hk : k = variableStroke precision surface d.session (name, i))
    (htext : k.text = .ok text) (hw : w ∈ surface.put k.row k.column text k.style) :
    IsVariableRow precision surface d w i name definition := by
  subst hk
  have hvalue : d.session.environment.value? name = some definition.value := by
    rw [Environment.value?, hfind]
    rfl
  rw [variableStroke, map_eq_pure_bind] at htext
  obtain ⟨shown, hshown, hpure⟩ := bind_eq_ok_iff.1 htext
  cases hpure
  simp only [hvalue] at hshown
  obtain ⟨-, -, rfl⟩ := Surface.mem_put_iff.1 hw
  refine ⟨hname, hfind, ⟨rfl, rfl, ⟨shown, hshown, rfl⟩, styleIf_eq_reverse_iff⟩,
    fun hreverse => ?_⟩
  obtain ⟨hfocus, hselected⟩ := styleIf_eq_reverse_iff.1 hreverse
  exact Desk.recalls_of_selectedLine?
    (Session.selectedLine?_definitions hfocus hselected hname hfind)

/-- What is drawn for the samples is in no list. -/
theorem isSampleRow_of_mem_put {k : Stroke} (hk : k ∈ sampleStrokes precision surface s)
    (hw : w ∈ surface.put k.row k.column text k.style) : IsSampleRow surface w := by
  obtain ⟨-, -, rfl⟩ := Surface.mem_put_iff.1 hw
  unfold sampleStrokes at hk
  dsimp only at hk
  split at hk
  · cases hk
  · rcases List.mem_cons.1 hk with rfl | hk
    · exact ⟨rfl, Style.noConfusion⟩
    · obtain ⟨p, -, rfl⟩ := List.mem_map.1 hk
      exact ⟨rfl, Style.noConfusion⟩

theorem mem_historyStrokes_iff {k : Stroke} : k ∈ historyStrokes precision surface s ↔
    ∃ i e, s.newestFirst[i]? = some e ∧ i < surface.height - 6 ∧
      k = historyStroke precision surface s (e, i) := by
  simp only [historyStrokes, List.mem_map, Prod.exists, List.mem_zipIdx_iff_getElem?,
    List.getElem?_take, Option.ite_none_right_eq_some]
  constructor
  · rintro ⟨e, i, ⟨hi, he⟩, rfl⟩
    exact ⟨i, e, he, hi, rfl⟩
  · rintro ⟨i, e, he, hi, rfl⟩
    exact ⟨e, i, ⟨hi, he⟩, rfl⟩

theorem mem_variableStrokes_iff {k : Stroke} : k ∈ variableStrokes precision surface s ↔
    ∃ i name definition, s.environment.sortedNames[i]? = some name ∧
      s.environment.find? name = some definition ∧
      k = variableStroke precision surface s (name, i) := by
  simp only [variableStrokes, List.mem_map, Prod.exists, List.mem_zipIdx_iff_getElem?]
  constructor
  · rintro ⟨name, i, hname, rfl⟩
    obtain ⟨definition, hfind⟩ :=
      Environment.exists_find?_of_mem_sortedNames (List.mem_of_getElem? hname)
    exact ⟨i, name, definition, hname, hfind, rfl⟩
  · rintro ⟨i, name, definition, hname, -, rfl⟩
    exact ⟨name, i, hname, rfl⟩

/-! ## The picture -/

/-- **A faithful picture of a session.** The line shows its characters as far as the screen goes. What is
drawn over it in reverse is in the columns of the selection, in all of them that are on the screen, and
shows the character that the line shows there. Every row below the headings is a row of the history, of
the variables or of the samples.

Each character is taken to fill one cell. A wide character or a tab would push what follows it to the
right; the columns here are counts of characters. -/
structure Faithful (precision : Int) (surface : Surface) (d : Desk) (writes : List Write) : Prop where
  line : ∀ column c, Shows writes .plain 2 column c ↔
    surface.HasRow 2 ∧ column + 1 < surface.width ∧ (markedLine d.session)[column]? = some c
  selection : ∀ column c, Shows writes .reverse 2 column c ↔
    IsSelected d.session column ∧ Shows writes .plain 2 column c
  highlighted : ∀ column, (∃ c, Shows writes .reverse 2 column c) ↔
    surface.HasRow 2 ∧ column + 1 < surface.width ∧ IsSelected d.session column
  rows : ∀ w ∈ writes, 5 ≤ w.row →
    (∃ i e, IsHistoryRow precision surface d w i e) ∨
    (∃ i name definition, IsVariableRow precision surface d w i name definition) ∨
    IsSampleRow surface w

/-- That all of the selection that is on the screen is highlighted follows from the rest: a selected
column is one of the line. -/
theorem Faithful.of_shows
    (hline : ∀ column c, Shows writes .plain 2 column c ↔ surface.HasRow 2 ∧
      column + 1 < surface.width ∧ (markedLine d.session)[column]? = some c)
    (hselection : ∀ column c, Shows writes .reverse 2 column c ↔
      IsSelected d.session column ∧ Shows writes .plain 2 column c)
    (hrows : ∀ w ∈ writes, 5 ≤ w.row →
      (∃ i e, IsHistoryRow precision surface d w i e) ∨
      (∃ i name definition, IsVariableRow precision surface d w i name definition) ∨
      IsSampleRow surface w) : Faithful precision surface d writes where
  line := hline
  selection := hselection
  rows := hrows
  highlighted column := by
    simp only [hselection, hline]
    constructor
    · rintro ⟨c, hselected, hrow, hcolumn, -⟩
      exact ⟨hrow, hcolumn, hselected⟩
    · rintro ⟨hrow, hcolumn, hselected⟩
      obtain ⟨c, hc⟩ := exists_markedLine_of_isSelected hselected
      exact ⟨c, hselected, hrow, hcolumn, hc⟩

/-- **What is sent is a faithful picture**, however far the drawing comes. -/
theorem faithful_sent (precision : Int) (surface : Surface) (d : Desk) :
    Faithful precision surface.sound d
      (Stroke.sent surface (strokes precision surface d.session)) := by
  refine .of_shows (fun column c => ?_) (fun column c => ?_) fun w hw hrow => ?_
  · rw [shows_strokes (by omega), shows_line]
    rfl
  · rw [shows_strokes (by omega), shows_strokes (by omega), shows_selection]
  obtain ⟨k, hk, text, htext, hput⟩ := Stroke.exists_put_of_mem_sent hw
  simp only [strokes, List.mem_append] at hk
  rcases hk with ((hk | hk) | hk) | hk
  · obtain ⟨-, -, rfl⟩ := Surface.mem_put_iff.1 hput
    have habove : k.row < 5 := (given_of_mem_lineStrokes hk).2
    exact absurd hrow (Nat.not_le_of_gt habove)
  · obtain ⟨i, e, he, -, rfl⟩ := mem_historyStrokes_iff.1 hk
    exact .inl ⟨i, e, isHistoryRow_of_mem_put he rfl htext hput⟩
  · obtain ⟨i, name, definition, hname, hfind, rfl⟩ := mem_variableStrokes_iff.1 hk
    exact .inr (.inl ⟨i, name, definition, isVariableRow_of_mem_put hname hfind rfl htext hput⟩)
  · exact .inr (.inr (isSampleRow_of_mem_put hk hput))

/-- Rows that take no text leave a faithful picture of the others. -/
theorem Faithful.filter (h : Faithful precision surface.sound d writes) :
    Faithful precision surface d (writes.filter surface.takes) := by
  refine .of_shows (fun column c => ?_) (fun column c => ?_) fun w hw hrow => ?_
  · rw [shows_filter_takes, h.line, ← and_assoc, ← Surface.hasRow_iff_sound]
    rfl
  · rw [shows_filter_takes, shows_filter_takes, h.selection, and_left_comm]
  rcases h.rows w (List.mem_filter.1 hw).1 hrow with hhistory | hvariable | hsample
  · obtain ⟨i, e, he, hshown, hapart, hrecalled⟩ := hhistory
    exact .inl ⟨i, e, he, hshown, hapart, hrecalled⟩
  · obtain ⟨i, name, definition, hname, hfind, hshown, hrecalled⟩ := hvariable
    exact .inr (.inl ⟨i, name, definition, hname, hfind, hshown, hrecalled⟩)
  · exact .inr (.inr ⟨hsample.column, hsample.style⟩)

/-- A frame is drawn of strokes that are drawn to the end. -/
theorem drawAll_of_draw {frame : Frame} (h : draw precision surface s = .ok frame) :
    Stroke.drawAll surface (strokes precision surface s) = .ok frame.writes := by
  rw [draw_eq, map_eq_pure_bind] at h
  obtain ⟨writes, hwrites, hpure⟩ := bind_eq_ok_iff.1 h
  cases hpure
  exact hwrites

theorem faithful_of_draw {frame : Frame} (h : draw precision surface d.session = .ok frame) :
    Faithful precision surface d frame.writes := by
  rw [← Stroke.filter_sent_of_drawAll (drawAll_of_draw h)]
  exact (faithful_sent precision surface d).filter

/-- **The picture on the screen is faithful**, of every session, on a screen of any size, and with some
rows that take no text. What has been sent shows the line and in reverse the selection, each character
where the line has it; and below, rows of the history that end on the left half, rows of the variables
that start on the right half, and samples, where a row in reverse is the one whose line enter fetches.
So it is with a frame; and there each entry of the history has its row as far as there are rows, and
each variable. There is a frame of every session that has something to show for each entry; and a
terminal of three rows takes it, if there is no null character in the session. -/
theorem faithful_draw (precision : Int) (surface : Surface) (d : Desk) :
    Faithful precision surface.sound d
      (Stroke.sent surface (strokes precision surface d.session)) ∧
    (∀ frame, draw precision surface d.session = .ok frame →
      Faithful precision surface d frame.writes ∧
      (∀ i e, d.session.newestFirst[i]? = some e → i + 6 < surface.height → 0 < surface.width →
        surface.HasRow (5 + i) → ∃ w ∈ frame.writes, IsHistoryRow precision surface d w i e) ∧
      ∀ i name definition, d.session.environment.sortedNames[i]? = some name →
        d.session.environment.find? name = some definition → 0 < surface.width →
        surface.HasRow (5 + i) →
          ∃ w ∈ frame.writes, IsVariableRow precision surface d w i name definition) ∧
    (Report.IsPrecision precision → (∀ e ∈ d.session.history, e.isVoid = false) →
      (∃ frame, draw precision surface d.session = .ok frame) ∧
      ∀ t : Terminal, 3 ≤ t.height → 0 < t.width → d.session.Holds Terminal.Takes →
        ∃ frame, t.draw precision d.session = .ok frame ∧
          Faithful precision t.surface d frame.writes) := by
  refine ⟨faithful_sent precision surface d, fun frame hframe => ?_,
    fun hprecision hfilled => ⟨exists_draw_eq_ok hprecision surface hfilled,
      fun t hheight hwidth hholds => ?_⟩⟩
  · have hwrites := drawAll_of_draw hframe
    refine ⟨faithful_of_draw hframe, fun i e he hi hwidth hrow => ?_,
      fun i name definition hname hfind hwidth hrow => ?_⟩
    · have hk : historyStroke precision surface d.session (e, i)
          ∈ historyStrokes precision surface d.session :=
        mem_historyStrokes_iff.2 ⟨i, e, he, by omega, rfl⟩
      have hmem : historyStroke precision surface d.session (e, i)
          ∈ strokes precision surface d.session := by
        simp only [strokes, List.mem_append, hk, or_true, true_or]
      obtain ⟨text, htext, w, hput, hw⟩ :=
        Stroke.exists_mem_put_of_drawAll hwrites hmem hrow hwidth
      exact ⟨w, hw, isHistoryRow_of_mem_put he rfl htext hput⟩
    · have hk : variableStroke precision surface d.session (name, i)
          ∈ variableStrokes precision surface d.session :=
        mem_variableStrokes_iff.2 ⟨i, name, definition, hname, hfind, rfl⟩
      have hmem : variableStroke precision surface d.session (name, i)
          ∈ strokes precision surface d.session := by
        simp only [strokes, List.mem_append, hk, or_true, true_or]
      have hhalf : surface.half < surface.width := Nat.div_lt_self hwidth (by omega)
      obtain ⟨text, htext, w, hput, hw⟩ :=
        Stroke.exists_mem_put_of_drawAll hwrites hmem hrow hhalf
      exact ⟨w, hw, isVariableRow_of_mem_put hname hfind rfl htext hput⟩
  · obtain ⟨frame, hframe⟩ :=
      (Terminal.exists_draw_eq_ok_iff hprecision hwidth hfilled hholds).2 fun _ => hheight
    exact ⟨frame, hframe, faithful_of_draw (Terminal.draw_eq_ok_iff.1 hframe).1⟩

end Screen

end LineCalc
