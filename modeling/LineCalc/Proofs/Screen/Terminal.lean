import LineCalc.Proofs.Invariant
import LineCalc.Proofs.Json.Display
import LineCalc.Proofs.Screen.Strokes
/-!
# LineCalc — a conversation on a terminal

A terminal does not take everything: a null character in a text and a cursor outside the screen break a
conversation off. What is drawn of a session is made of its own characters and of some that can be shown
(`Screen.forall_mem_writes`), and no key brings a null character. The cursor is outside on a screen of
less than three rows, as long as the line has the focus, and else nowhere
(`Terminal.exists_draw_eq_ok_iff`). So on a terminal of three rows a conversation comes to its end
(`Terminal.exists_converse_eq_ok`), and on a smaller one it comes to none (`Terminal.converse_ne_ok`).
-/

namespace LineCalc

open Text (HasOnly IsShown isShown_of_all)

/-! ## The characters of what is shown -/

namespace Report

variable {precision : Int} {p : Char → Prop} {s : String}

/-- **A number can be shown**, with whatever count of digits. -/
theorem isShown_of_number {x : Float} (h : number precision x = .ok s) : IsShown s := by
  have hsigned : ∀ (negative : Bool) (cs : List Char), (∀ c ∈ cs, Text.isPrintable c = true) →
      IsShown (String.ofList (Layout.sign negative ++ cs)) := fun _ _ hcs =>
    Text.hasOnly_ofList (List.forall_mem_append.2 ⟨fun _ => Layout.isPrintable_of_mem_sign, hcs⟩)
  unfold number at h
  split at h
  · cases h
    exact isShown_of_all (by decide)
  · cases h
    split <;> exact isShown_of_all (by decide)
  · split at h
    · cases h
      exact hsigned _ _ fun _ => Layout.isPrintable_of_mem_digits
    · split at h
      · cases h
      · cases h
        exact hsigned _ _ (Layout.isPrintable_of_mem_place (List.forall_mem_nil _) _)

variable (hshown : ∀ c, Text.isPrintable c = true → p c)
include hshown

theorem hasOnly_of_definition {name : String} {x : Float} (hname : HasOnly p name)
    (h : definition precision name x = .ok s) : HasOnly p s := by
  obtain ⟨number, hnumber, h⟩ := bind_eq_ok_iff.1 h
  cases h
  exact (hname.append ((isShown_of_all (by decide)).mono hshown)).append
    ((isShown_of_number hnumber).mono hshown)

/-- **An entry is shown with its own characters** and some that can be shown. -/
theorem hasOnly_of_entry {e : HistoryEntry} (he : e.Displays p) (h : entry precision e = .ok s) :
    HasOnly p s := by
  have hwords : ∀ {word : String}, word.toList.all Text.isPrintable = true → HasOnly p word :=
    fun hword => (isShown_of_all hword).mono hshown
  unfold entry at h
  cases herror : e.error with
  | some error =>
    simp only [herror] at h
    cases h
    exact (((hwords (by decide)).append he.expression).append (hwords (by decide))).append
      (he.carried.error error herror)
  | none =>
    cases hname : e.plotName with
    | some name =>
      simp only [herror, hname] at h
      cases h
      exact (he.expression.append (hwords (by decide))).append (he.carried.plotName name hname)
    | none =>
      simp only [herror, hname] at h
      obtain ⟨number, hnumber, h⟩ := bind_eq_ok_iff.1 h
      cases h
      refine (he.expression.append (hwords (by decide))).append ?_
      unfold result at hnumber
      split at hnumber
      · exact (isShown_of_number hnumber).mono hshown
      · cases hnumber

end Report

/-! ## The characters of a frame -/

namespace Screen

variable {precision : Int} {surface : Surface} {s : Session} {p : Char → Prop} {k : Stroke}
variable {text : List Char}

section

variable (hshown : ∀ c, Text.isPrintable c = true → p c)
include hshown

theorem forall_mem_word {word : String} (h : word.toList.all Text.isPrintable = true) :
    ∀ c ∈ word.toList, p c :=
  (isShown_of_all h).mono hshown

theorem forall_mem_of_lineStrokes (h : s.Holds p) (hk : k ∈ lineStrokes surface s)
    (htext : k.text = .ok text) : ∀ c ∈ text, p c := by
  have hline : ∀ c ∈ (if s.focus = .input then "> " else "< ").toList ++ s.editor.text, p c := by
    refine List.forall_mem_append.2 ⟨forall_mem_word hshown ?_, h.editor.text⟩
    split <;> decide
  have hmode : ∀ c ∈ (modeLabel s.editor.mode).toList, p c := by
    refine forall_mem_word hshown ?_
    cases s.editor.mode <;> decide
  simp only [lineStrokes, List.mem_append, List.mem_cons, List.not_mem_nil, or_false] at hk
  rcases hk with ((rfl | rfl | rfl) | hselection) | rfl | rfl
  · cases htext
    exact forall_mem_word hshown (by decide)
  · cases htext
    exact hmode
  · cases htext
    exact hline
  · split at hselection
    · cases hselection
    · rw [List.mem_singleton.1 hselection] at htext
      cases htext
      exact h.editor.slice _ _
  · cases htext
    exact forall_mem_word hshown (by decide)
  · cases htext
    exact forall_mem_word hshown (by decide)

theorem forall_mem_of_historyStrokes (h : s.Holds p) (hk : k ∈ historyStrokes precision surface s)
    (htext : k.text = .ok text) : ∀ c ∈ text, p c := by
  obtain ⟨⟨e, i⟩, hmem, rfl⟩ := List.mem_map.1 hk
  have hnewest : e ∈ s.newestFirst := List.mem_of_mem_take (List.fst_mem_of_mem_zipIdx hmem)
  rw [historyStroke, map_eq_pure_bind] at htext
  obtain ⟨shown, hentry, hpure⟩ := bind_eq_ok_iff.1 htext
  cases hpure
  have hdisplays := h.state.history e (List.mem_reverse.1 hnewest)
  exact fun c hc => Report.hasOnly_of_entry hshown hdisplays hentry c (List.mem_of_mem_take hc)

theorem forall_mem_of_variableStrokes (h : s.Holds p)
    (hk : k ∈ variableStrokes precision surface s) (htext : k.text = .ok text) :
    ∀ c ∈ text, p c := by
  obtain ⟨⟨name, i⟩, hmem, rfl⟩ := List.mem_map.1 hk
  have hname : name ∈ s.environment.sortedNames := List.fst_mem_of_mem_zipIdx hmem
  obtain ⟨definition, hfind⟩ := Environment.exists_find?_of_mem_sortedNames hname
  have hvalue : s.environment.value? name = some definition.value := by
    rw [Environment.value?, hfind]
    rfl
  rw [variableStroke, map_eq_pure_bind] at htext
  obtain ⟨shown, hdefinition, hpure⟩ := bind_eq_ok_iff.1 htext
  cases hpure
  simp only [hvalue] at hdefinition
  exact Report.hasOnly_of_definition hshown (h.state.name _ (Entries.mem_of_find? hfind)) hdefinition

theorem forall_mem_of_sampleStrokes (hk : k ∈ sampleStrokes precision surface s)
    (htext : k.text = .ok text) : ∀ c ∈ text, p c := by
  unfold sampleStrokes at hk
  dsimp only at hk
  split at hk
  · cases hk
  rcases List.mem_cons.1 hk with rfl | hk
  · cases htext
    exact forall_mem_word hshown (by decide)
  · obtain ⟨sample, -, rfl⟩ := List.mem_map.1 hk
    rw [sampleStroke, map_eq_pure_bind] at htext
    obtain ⟨⟨x, y⟩, hnumbers, hpure⟩ := bind_eq_ok_iff.1 htext
    cases hpure
    obtain ⟨x', hx, hnumbers⟩ := bind_eq_ok_iff.1 hnumbers
    obtain ⟨y', hy, hnumbers⟩ := bind_eq_ok_iff.1 hnumbers
    cases hnumbers
    have hwords : ∀ {word : String}, word.toList.all Text.isPrintable = true → IsShown word :=
      isShown_of_all
    have hsample : IsShown ("(" ++ x ++ ", " ++ y ++ ")") :=
      ((((hwords (by decide)).append (Report.isShown_of_number hx)).append
        (hwords (by decide))).append (Report.isShown_of_number hy)).append (hwords (by decide))
    exact hsample.mono hshown

/-- **A frame is made of the characters of the session**, and of some that can be shown. -/
theorem forall_mem_writes (h : s.Holds p) {frame : Frame}
    (hframe : draw precision surface s = .ok frame) : ∀ w ∈ frame.writes, ∀ c ∈ w.text, p c := by
  obtain rfl := eq_of_draw hframe
  intro w hw
  obtain ⟨k, hk, text, htext, hput⟩ := Stroke.exists_put_of_mem_sent (List.mem_filter.1 hw).1
  obtain ⟨-, -, rfl⟩ := Surface.mem_put_iff.1 hput
  have hall : ∀ c ∈ text, p c := by
    simp only [strokes, List.mem_append] at hk
    rcases hk with ((hk | hk) | hk) | hk
    · exact forall_mem_of_lineStrokes hshown h hk htext
    · exact forall_mem_of_historyStrokes hshown h hk htext
    · exact forall_mem_of_variableStrokes hshown h hk htext
    · exact forall_mem_of_sampleStrokes hshown hk htext
  exact fun c hc => hall c (List.mem_of_mem_take hc)

end

theorem holds_react (hshown : ∀ c, Text.isPrintable c = true → p c) {d : Desk}
    (h : d.session.Holds p) (input : TerminalInput) : (react d input).session.Holds p := by
  unfold react
  split
  · exact (Desk.keptByKeys_holds hshown).press h _
  · exact h

end Screen

/-! ## Terminals -/

namespace Terminal

variable {precision : Int} {t : Terminal} {s : Session} {d : Desk} {frame : Frame}

/-- Whether a character is one that a terminal takes. -/
def Takes (c : Char) : Prop :=
  c ≠ '\x00'

theorem takes_of_isPrintable (c : Char) (h : Text.isPrintable c = true) : Takes c := by
  rintro rfl
  have hnull : Text.isPrintable '\x00' = false := by decide
  rw [hnull] at h
  cases h

/-- What is drawn on a terminal is what is drawn on its screen, if it takes that. -/
theorem draw_eq_ok_iff : t.draw precision s = .ok frame ↔
    Screen.draw precision t.surface s = .ok frame ∧ t.refusal? frame = none := by
  unfold draw
  cases hdraw : Screen.draw precision t.surface s with
  | error fault => simp
  | ok drawn =>
    dsimp only
    rw [Except.ok.injEq]
    constructor
    · intro h
      split at h
      · cases h
      · next hrefusal =>
        obtain rfl := Except.ok.inj h
        exact ⟨rfl, hrefusal⟩
    · rintro ⟨rfl, hrefusal⟩
      rw [hrefusal]

theorem refusal?_eq_none_iff : t.refusal? frame = none ↔
    (∀ w ∈ frame.writes, ∀ c ∈ w.text, Takes c) ∧
      ∀ cell, frame.cursor = some cell → t.hasCell cell = true := by
  have hnull : frame.writes.any (fun w => '\x00' ∈ w.text) = false ↔
      ∀ w ∈ frame.writes, ∀ c ∈ w.text, Takes c := by
    simp only [List.any_eq_false, decide_eq_true_eq, Takes]
    exact forall₂_congr fun w _ => ⟨fun h c hc hnull => h (hnull ▸ hc), fun h hc => h _ hc rfl⟩
  have hcell : frame.cursor.any (fun cell => !t.hasCell cell) = false ↔
      ∀ cell, frame.cursor = some cell → t.hasCell cell = true := by
    cases frame.cursor <;> simp
  rw [← hnull, ← hcell, refusal?]
  split
  · next h => simp [h]
  · split
    · next h => simp [h]
    · next hwrites hcursor => simp [hwrites, hcursor]

/-- The cursor is on the screen unless there are less than three rows. -/
theorem hasCell_cursorCell_iff (hwidth : 0 < t.width) :
    (∀ cell, Screen.cursorCell t.surface s = some cell → t.hasCell cell = true) ↔
      (s.focus = .input → 3 ≤ t.height) := by
  have hcolumn : min (2 + s.editor.position) (t.width - 1) < t.width := by omega
  by_cases hfocus : s.focus = .input <;>
    simp [Screen.cursorCell, hfocus, hasCell, surface, hcolumn, Nat.succ_le_iff]

/-- **What can be drawn on a terminal.** A session that can be drawn, and holds no null character, can be
drawn on every terminal of three rows; and on a smaller one as long as the line has no focus. -/
theorem exists_draw_eq_ok_iff (hprecision : Report.IsPrecision precision) (hwidth : 0 < t.width)
    (hfilled : ∀ e ∈ s.history, e.isVoid = false) (hholds : s.Holds Takes) :
    (∃ frame, t.draw precision s = .ok frame) ↔ (s.focus = .input → 3 ≤ t.height) := by
  obtain ⟨frame, hframe⟩ := Screen.exists_draw_eq_ok hprecision t.surface hfilled
  have hwrites := Screen.forall_mem_writes takes_of_isPrintable hholds hframe
  have hcursor : frame.cursor = Screen.cursorCell t.surface s :=
    congrArg Frame.cursor (Screen.eq_of_draw hframe)
  have hrefusal : t.refusal? frame = none ↔ (s.focus = .input → 3 ≤ t.height) := by
    rw [refusal?_eq_none_iff, hcursor, hasCell_cursorCell_iff hwidth]
    exact and_iff_right hwrites
  rw [← hrefusal]
  constructor
  · rintro ⟨drawn, hdrawn⟩
    obtain ⟨hsame, hnone⟩ := draw_eq_ok_iff.1 hdrawn
    obtain rfl := Except.ok.inj (hframe.symm.trans hsame)
    exact hnone
  · exact fun hnone => ⟨frame, draw_eq_ok_iff.2 ⟨hframe, hnone⟩⟩

/-- **A conversation on a terminal of three rows comes to its end**, if it is not interrupted and starts
with something to show for each entry and without null characters. -/
theorem exists_converse_eq_ok (hprecision : Report.IsPrecision precision) (hwidth : 0 < t.width)
    (hheight : 3 ≤ t.height) {inputs : List TerminalInput}
    (hinputs : ∀ input ∈ inputs, input.isInterrupt = false)
    (hfilled : ∀ e ∈ d.session.history, e.isVoid = false) (hholds : d.session.Holds Takes) :
    ∃ frames, t.converse precision d inputs = .ok (frames, inputs.foldl Screen.react d) := by
  refine Screen.exists_talk_eq_ok
    (p := fun d => (∀ e ∈ d.session.history, e.isVoid = false) ∧ d.session.Holds Takes)
    (fun d h => ?_) (fun d input h => ?_) hinputs ⟨hfilled, hholds⟩
  · exact (exists_draw_eq_ok_iff hprecision hwidth h.1 h.2).2 fun _ => hheight
  · exact ⟨Screen.filled_react h.1 input, Screen.holds_react takes_of_isPrintable h.2 input⟩

/-- **On a smaller one nothing is asked for.** It is broken off at the first frame, as the line has the
focus there. -/
theorem converse_ne_ok (hheight : t.height < 3) (hfocus : d.session.focus = .input)
    (inputs : List TerminalInput) (ending : List Frame × Desk) :
    t.converse precision d inputs ≠ .ok ending := by
  have hdraw : ∀ frame, t.draw precision d.session ≠ .ok frame := by
    intro frame hframe
    obtain ⟨hdrawn, hrefusal⟩ := draw_eq_ok_iff.1 hframe
    have hcursor : frame.cursor = Screen.cursorCell t.surface d.session :=
      congrArg Frame.cursor (Screen.eq_of_draw hdrawn)
    have hcell := (refusal?_eq_none_iff.1 hrefusal).2
    simp only [hcursor, Screen.cursorCell, hfocus, if_true, Option.some.injEq, forall_eq', hasCell,
      Bool.and_eq_true, decide_eq_true_eq] at hcell
    omega
  intro h
  cases inputs with
  | nil =>
    obtain ⟨frame, hframe, -⟩ := bind_eq_ok_iff.1 h
    exact hdraw frame hframe
  | cons input rest =>
    obtain ⟨frame, hframe, -⟩ := bind_eq_ok_iff.1 h
    exact hdraw frame hframe

end Terminal

end LineCalc
