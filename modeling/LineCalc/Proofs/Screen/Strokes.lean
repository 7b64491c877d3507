import LineCalc.Proofs.Screen.Conversation
/-!
# LineCalc — what drawing sends to the screen

A session is drawn by `strokes`: texts that are sent to the screen one after the other, each once it
has been made up. A text that cannot be made up ends the drawing: then there is no frame, though
some texts have been sent. `Stroke.sent` is what has been, in any case, and all of it is on the
screen, since every text is cut to it (`Stroke.holds_of_mem_sent`). The cursor need not be: its
column is bounded, and its row is not (`Screen.draw_stays`).
-/

namespace LineCalc

namespace Surface

variable {surface : Surface} {row column : Nat} {text : List Char} {style : Style} {w : Write}

/-- Whether a text is on the screen: it starts in a cell of it and ends before its last column. -/
structure Holds (surface : Surface) (w : Write) : Prop where
  row : w.row < surface.height
  column : w.column < surface.width
  ends : w.column + w.text.length < surface.width

/-- Whether a row takes text. -/
def takes (surface : Surface) (w : Write) : Bool :=
  w.row ∉ surface.badRows

/-- The screen as it would be if each of its rows took text. -/
def sound (surface : Surface) : Surface :=
  { surface with badRows := [] }

/-- Whether a row is there and takes text. -/
def HasRow (surface : Surface) (row : Nat) : Prop :=
  row < surface.height ∧ row ∉ surface.badRows

/-- On a sound screen every row takes text, and on another those that are not bad. -/
theorem hasRow_iff_sound : surface.HasRow row ↔ row ∉ surface.badRows ∧ surface.sound.HasRow row := by
  have hsound : surface.sound.HasRow row ↔ row < surface.height := and_iff_left List.not_mem_nil
  rw [hsound, HasRow, and_comm]

theorem mem_put_iff : w ∈ surface.put row column text style ↔
    surface.HasRow row ∧ column < surface.width ∧
      w = ⟨row, column, text.take (surface.width - column - 1), style⟩ := by
  unfold put HasRow
  split
  · next hleft =>
    refine iff_of_false List.not_mem_nil ?_
    rintro ⟨⟨hrow, htakes⟩, hcolumn, -⟩
    rcases hleft with hleft | hleft | hleft
    · omega
    · omega
    · exact htakes hleft
  · next hthere =>
    rw [not_or, not_or] at hthere
    obtain ⟨hrow, hcolumn, htakes⟩ := hthere
    rw [List.mem_singleton]
    exact ⟨fun h => ⟨⟨by omega, htakes⟩, by omega, h⟩, fun h => h.2.2⟩

/-- **What is put on the screen is on it.** -/
theorem holds_of_mem_put (h : w ∈ surface.put row column text style) : surface.Holds w := by
  unfold put at h
  split at h
  · cases h
  · next hcell =>
    obtain rfl := List.mem_singleton.1 h
    have hlength : (text.take (surface.width - column - 1)).length ≤ surface.width - column - 1 :=
      List.length_take_le _ _
    have hrow : row < surface.height := by omega
    have hcolumn : column < surface.width := by omega
    have hends : column + (text.take (surface.width - column - 1)).length < surface.width := by omega
    exact ⟨hrow, hcolumn, hends⟩

/-- Rows that take no text have no part in what is sent. -/
theorem filter_put_sound (surface : Surface) (row column : Nat) (text : List Char) (style : Style) :
    (surface.sound.put row column text style).filter surface.takes
      = surface.put row column text style := by
  by_cases hcell : surface.height ≤ row ∨ surface.width ≤ column
  · have hleft : surface.height ≤ row ∨ surface.width ≤ column ∨ row ∈ surface.badRows := by
      tauto
    have hsound : surface.sound.height ≤ row ∨ surface.sound.width ≤ column ∨
        row ∈ surface.sound.badRows := hcell.imp_right .inl
    rw [put, put, if_pos hleft, if_pos hsound, List.filter_nil]
  · have hsound : surface.sound.put row column text style
        = [⟨row, column, text.take (surface.width - column - 1), style⟩] :=
      if_neg fun h => hcell (h.imp_right fun h => h.resolve_right List.not_mem_nil)
    rw [hsound, put]
    by_cases hbad : row ∈ surface.badRows
    · simp [takes, hbad]
    · simp [takes, hbad, hcell]

end Surface

/-! ## Strokes -/

/-- A text that is sent to the screen, unless it cannot be made up. -/
structure Stroke where
  row : Nat
  column : Nat
  text : Except Fault (List Char)
  style : Style

namespace Stroke

/-- What a stroke leaves on the screen. -/
def draw (surface : Surface) (k : Stroke) : Except Fault (List Write) :=
  (surface.put k.row k.column · k.style) <$> k.text

/-- What strokes leave on the screen, one after the other. -/
def drawAll (surface : Surface) (strokes : List Stroke) : Except Fault (List Write) :=
  List.flatten <$> strokes.mapM (draw surface)

/-- All that is sent to the screen, whether it is taken or not, up to the first text that cannot be
made up. -/
def sent (surface : Surface) : List Stroke → List Write
  | [] => []
  | k :: rest =>
    match k.text with
    | .ok text => surface.sound.put k.row k.column text k.style ++ sent surface rest
    | .error _ => []

variable {surface : Surface} {strokes : List Stroke} {w : Write} {writes : List Write}

/-- **Strokes stay on the screen**, however far they come. -/
theorem holds_of_mem_sent (h : w ∈ sent surface strokes) : surface.Holds w := by
  induction strokes with
  | nil => cases h
  | cons k rest ih =>
    rw [sent] at h
    split at h
    · rcases List.mem_append.1 h with hk | hrest
      · obtain ⟨hrow, hcolumn, hends⟩ := Surface.holds_of_mem_put hk
        exact ⟨hrow, hcolumn, hends⟩
      · exact ih hrest
    · cases h

/-- **Whatever is sent comes of a stroke** whose text could be made up. -/
theorem exists_put_of_mem_sent (h : w ∈ sent surface strokes) :
    ∃ k ∈ strokes, ∃ text, k.text = .ok text ∧
      w ∈ surface.sound.put k.row k.column text k.style := by
  induction strokes with
  | nil => cases h
  | cons k rest ih =>
    rw [sent] at h
    split at h
    · next text htext =>
      rcases List.mem_append.1 h with hk | hrest
      · exact ⟨k, .head rest, text, htext, hk⟩
      · obtain ⟨k', hmem, hput⟩ := ih hrest
        exact ⟨k', .tail k hmem, hput⟩
    · cases h

theorem drawAll_append (surface : Surface) (strokes strokes' : List Stroke) :
    drawAll surface (strokes ++ strokes') = (do
      let writes ← drawAll surface strokes
      let writes' ← drawAll surface strokes'
      return writes ++ writes') := by
  simp only [drawAll, List.mapM_append, map_bind, bind_map_left, map_pure, List.flatten_append]

theorem drawAll_cons (surface : Surface) (k : Stroke) (rest : List Stroke) :
    drawAll surface (k :: rest) = (do
      let first ← k.draw surface
      let others ← drawAll surface rest
      return first ++ others) := by
  simp only [drawAll, List.mapM_cons, map_bind, bind_map_left, map_pure, List.flatten_cons]

/-- A text that is given is drawn ahead of the others. -/
theorem drawAll_given (surface : Surface) (row column : Nat) (text : List Char) (style : Style)
    (rest : List Stroke) : drawAll surface (⟨row, column, .ok text, style⟩ :: rest)
      = (surface.put row column text style ++ ·) <$> drawAll surface rest := by
  rw [drawAll_cons, map_eq_pure_bind]
  rfl

theorem drawAll_map {α : Type} (surface : Surface) (stroke : α → Stroke) (as : List α) :
    drawAll surface (as.map stroke) = (do
      let rows ← as.mapM fun a => (stroke a).draw surface
      return rows.flatten) := by
  rw [drawAll, List.mapM_map, map_eq_pure_bind]
  rfl

/-- **Strokes that are drawn to the end leave what was sent** and was taken. -/
theorem filter_sent_of_drawAll (h : drawAll surface strokes = .ok writes) :
    (sent surface strokes).filter surface.takes = writes := by
  induction strokes generalizing writes with
  | nil =>
    cases h
    rfl
  | cons k rest ih =>
    rw [drawAll_cons, draw] at h
    obtain ⟨first, hfirst, h⟩ := bind_eq_ok_iff.1 h
    obtain ⟨others, hothers, h⟩ := bind_eq_ok_iff.1 h
    cases h
    cases htext : k.text with
    | error fault =>
      rw [htext] at hfirst
      cases hfirst
    | ok text =>
      rw [htext] at hfirst
      cases hfirst
      simp only [sent, htext, List.filter_append, Surface.filter_put_sound, ih hothers]

end Stroke

namespace Screen

variable {precision : Int} {surface : Surface} {s : Session}

/-- The strokes for the line and the headings. -/
def lineStrokes (surface : Surface) (s : Session) : List Stroke :=
  let caret := if s.focus = .input then "> " else "< "
  [⟨0, 0, .ok "Enter to calculate, Esc for normal mode, Ctrl+C to quit".toList, .plain⟩,
    ⟨1, 0, .ok (modeLabel s.editor.mode).toList, .bold⟩,
    ⟨2, 0, .ok (caret.toList ++ s.editor.text), .plain⟩] ++
  (match s.editor.selection with
    | none => []
    | some (first, last) =>
      [⟨2, 2 + first, .ok ((s.editor.text.take (last + 1)).drop first), .reverse⟩]) ++
  [⟨4, 0, .ok "History".toList, styleIf (s.focus = .history) .underline⟩,
    ⟨4, surface.half, .ok "Variables".toList, styleIf (s.focus = .definitions) .underline⟩]

/-- The stroke for an entry of the history. -/
def historyStroke (precision : Int) (surface : Surface) (s : Session) (p : HistoryEntry × Nat) :
    Stroke :=
  ⟨5 + p.2, 0, (·.toList.take (surface.half - 1)) <$> Report.entry precision p.1,
    styleIf (s.focus = .history ∧ s.historySelected = some p.2) .reverse⟩

/-- The stroke for a variable. -/
def variableStroke (precision : Int) (surface : Surface) (s : Session) (p : String × Nat) : Stroke :=
  ⟨5 + p.2, surface.half,
    String.toList <$> match s.environment.value? p.1 with
      | some x => Report.definition precision p.1 x
      | none => .error .noResult,
    styleIf (s.focus = .definitions ∧ s.definitionSelected = some p.2) .reverse⟩

/-- The row of the heading for samples. -/
def samplesTop (s : Session) : Nat :=
  5 + s.environment.size + 1

/-- The stroke for a sample. -/
def sampleStroke (precision : Int) (surface : Surface) (s : Session) (p : (Float × Float) × Nat) :
    Stroke :=
  ⟨samplesTop s + 1 + p.2, surface.half,
    (fun t : String × String => ("(" ++ t.1 ++ ", " ++ t.2 ++ ")").toList) <$> do
      return (← Report.number precision p.1.1, ← Report.number precision p.1.2), .plain⟩

def historyStrokes (precision : Int) (surface : Surface) (s : Session) : List Stroke :=
  (s.newestFirst.take (surface.height - 6)).zipIdx.map (historyStroke precision surface s)

def variableStrokes (precision : Int) (surface : Surface) (s : Session) : List Stroke :=
  s.environment.sortedNames.zipIdx.map (variableStroke precision surface s)

def sampleStrokes (precision : Int) (surface : Surface) (s : Session) : List Stroke :=
  let samples := s.plot.getD []
  if samples.isEmpty then []
  else
    ⟨samplesTop s, surface.half, .ok "Samples".toList, .underline⟩ ::
      (samples.take (surface.height - samplesTop s - 2)).zipIdx.map
        (sampleStroke precision surface s)

/-- **All strokes of a session**, in the order in which they are sent. -/
def strokes (precision : Int) (surface : Surface) (s : Session) : List Stroke :=
  lineStrokes surface s ++ historyStrokes precision surface s ++
    variableStrokes precision surface s ++ sampleStrokes precision surface s

theorem drawAll_lineStrokes (surface : Surface) (s : Session) :
    Stroke.drawAll surface (lineStrokes surface s)
      = .ok (drawLine surface s ++ drawHeadings surface s) := by
  have hnil : Stroke.drawAll surface [] = .ok [] := rfl
  unfold lineStrokes drawLine drawHeadings
  cases s.editor.selection <;> simp [Stroke.drawAll_given, hnil, Functor.map, Except.map]

theorem drawAll_historyStrokes (precision : Int) (surface : Surface) (s : Session) :
    Stroke.drawAll surface (historyStrokes precision surface s)
      = drawHistory precision surface s := by
  rw [historyStrokes, Stroke.drawAll_map, drawHistory]
  congr 2
  funext ⟨e, i⟩
  simp only [Stroke.draw, historyStroke]
  cases Report.entry precision e <;> rfl

theorem drawAll_variableStrokes (precision : Int) (surface : Surface) (s : Session) :
    Stroke.drawAll surface (variableStrokes precision surface s)
      = drawVariables precision surface s := by
  rw [variableStrokes, Stroke.drawAll_map, drawVariables]
  congr 2
  funext ⟨name, i⟩
  simp only [Stroke.draw, variableStroke]
  cases s.environment.value? name with
  | none => rfl
  | some x =>
    dsimp only
    cases Report.definition precision name x <;> rfl

theorem drawAll_sampleStrokes (precision : Int) (surface : Surface) (s : Session) :
    Stroke.drawAll surface (sampleStrokes precision surface s)
      = drawSamples precision surface s := by
  rw [sampleStrokes, drawSamples]
  dsimp only
  split
  · rfl
  · rw [Stroke.drawAll_cons, Stroke.drawAll_map]
    have hrow : (fun a => (sampleStroke precision surface s a).draw surface) = fun p => do
        let x ← Report.number precision p.1.1
        let y ← Report.number precision p.1.2
        return surface.put (samplesTop s + 1 + p.2) surface.half
          ("(" ++ x ++ ", " ++ y ++ ")").toList .plain := by
      funext p
      simp only [Stroke.draw, sampleStroke]
      cases Report.number precision p.1.1 with
      | error fault => rfl
      | ok x => cases Report.number precision p.1.2 <;> rfl
    rw [hrow]
    simp only [bind_assoc, pure_bind]
    rfl

/-- **Drawing is sending strokes**, and moving the cursor at the end. -/
theorem draw_eq (precision : Int) (surface : Surface) (s : Session) :
    draw precision surface s = (⟨·, cursorCell surface s⟩) <$>
      Stroke.drawAll surface (strokes precision surface s) := by
  simp only [strokes, Stroke.drawAll_append, drawAll_lineStrokes, drawAll_historyStrokes,
    drawAll_variableStrokes, drawAll_sampleStrokes, draw]
  simp only [map_bind, map_pure, bind_assoc, pure_bind]
  rfl

/-- What was sent is in a frame as far as it was taken, and the cursor is in its place. -/
theorem eq_of_draw {frame : Frame} (h : draw precision surface s = .ok frame) :
    frame = ⟨(Stroke.sent surface (strokes precision surface s)).filter surface.takes,
      cursorCell surface s⟩ := by
  rw [draw_eq, map_eq_pure_bind] at h
  obtain ⟨writes, hwrites, h⟩ := bind_eq_ok_iff.1 h
  cases h
  rw [Stroke.filter_sent_of_drawAll hwrites]

/-! ## The cursor -/

/-- There is a cursor exactly while the line has the focus. -/
theorem cursorCell_eq_none_iff : cursorCell surface s = none ↔ s.focus ≠ .input := by
  by_cases h : s.focus = .input <;> simp [cursorCell, h]

/-- The row of the cursor is that of the line, and its column is bounded by the width. -/
theorem cell_of_cursorCell {row column : Nat} (h : cursorCell surface s = some (row, column)) :
    row = 2 ∧ column ≤ surface.width - 1 := by
  unfold cursorCell at h
  split at h
  · cases h
    exact ⟨rfl, Nat.min_le_right _ _⟩
  · cases h

/-- **How far drawing stays on the screen.** Every text that is sent is on it, and ends before the
last column; this holds if drawing comes to an end, and of what has been sent if it does not. A frame
tells of those texts that were taken. The cursor, which there is while the line has the focus, is
moved to a column of the screen; but to a row of it only on a screen of three rows or more. -/
theorem draw_stays (precision : Int) (surface : Surface) (s : Session) :
    (∀ w ∈ Stroke.sent surface (strokes precision surface s), surface.Holds w) ∧
      ∀ frame, draw precision surface s = .ok frame →
        frame.writes = (Stroke.sent surface (strokes precision surface s)).filter surface.takes ∧
        (frame.cursor = none ↔ s.focus ≠ .input) ∧
        ∀ row column, frame.cursor = some (row, column) →
          (1 ≤ surface.width → column < surface.width) ∧
            (row < surface.height ↔ 3 ≤ surface.height) := by
  refine ⟨fun w hw => Stroke.holds_of_mem_sent hw, fun frame hframe => ?_⟩
  obtain rfl := eq_of_draw hframe
  refine ⟨rfl, cursorCell_eq_none_iff, fun row column hcursor => ?_⟩
  obtain ⟨rfl, hcolumn⟩ := cell_of_cursorCell hcursor
  refine ⟨fun hwidth => ?_, Iff.rfl⟩
  omega

/-- On a screen of one row the cursor of a new session is moved to a row that is not there. -/
theorem not_forall_row_lt_height : ¬ ∀ (surface : Surface) (s : Session) (frame : Frame)
    (row column : Nat), 1 ≤ surface.height → 1 ≤ surface.width →
      draw 12 surface s = .ok frame → frame.cursor = some (row, column) → row < surface.height := by
  intro hrow
  obtain ⟨frame, hframe⟩ : ∃ frame, draw 12 ⟨1, 40, []⟩ (Session.ofState .empty) = .ok frame :=
    exists_draw_eq_ok ⟨by decide, by decide⟩ _ (List.forall_mem_nil _)
  have hcursor : frame.cursor = some (2, 2) := congrArg Frame.cursor (eq_of_draw hframe)
  exact absurd (hrow _ _ frame 2 2 (by decide) (by decide) hframe hcursor) (by decide)

end Screen

end LineCalc
