import LineCalc.Proofs.Editor.Keys
import LineCalc.Proofs.Invariant
import LineCalc.Proofs.Screen.Terminal
/-!
# LineCalc — typing a line

A line can be handed to a desk at once or typed character by character, with enter behind it, by
keys as they are named or by what a terminal sends. The ways lead to the same desk
(`actAll_typed`): each character finds the editor as if the line so far had just been put there
(`press_char_setLine`), and enter submits it from there.

The start is an empty line in insert mode. It is one that could have been put there as long as the
editor is in a state of its own, and every action leaves it in one (`wellFormed_actAll`).
-/

namespace LineCalc

/-! ## The editor of a session -/

namespace Session

variable {s : Session}

theorem wellFormed_recallSelected (h : s.editor.WellFormed) :
    s.recallSelected.1.editor.WellFormed := by
  unfold recallSelected
  split
  · exact h
  · rw [editor_focusOn]
    exact Editor.wellFormed_ofText _ _

theorem wellFormed_recallLast (h : s.editor.WellFormed) : s.recallLast.1.editor.WellFormed := by
  unfold recallLast
  split
  · exact h
  · exact Editor.wellFormed_ofText _ _

end Session

namespace Desk

variable {d : Desk}

theorem keptByActions_wellFormed : KeptByActions fun s => s.editor.WellFormed where
  editor h key := h.press key
  yanked h _ _ := h
  focusOn {s} h f := by rwa [s.editor_focusOn f]
  moveSelection {s} h rows := by rwa [s.editor_moveSelection rows]
  recallSelected h := Session.wellFormed_recallSelected h
  recallLast h := Session.wellFormed_recallLast h
  recorded _ := by
    rw [Session.refresh, Session.editor_focusOn]
    exact Editor.wellFormed_ofText _ _
  setLine _ _ := Editor.wellFormed_ofText _ _
  clear h := h

/-- **Every action leaves the editor in a state of its own.** -/
theorem wellFormed_actAll (h : d.session.editor.WellFormed) (actions : List Action) :
    (d.actAll actions).session.editor.WellFormed :=
  keptByActions_wellFormed.actAll h actions

end Desk

/-! ## One character -/

namespace Editor

variable {e : Editor} {c : Char}

/-- **A character is put behind the line.** -/
theorem press_char_ofText (hc : Text.isPrintable c = true) (text register : List Char) :
    (ofText text register).press (.char c) = (ofText (text ++ [c]) register, .none) := by
  have hposition : min (ofText text register).position text.length = text.length :=
    Nat.min_self _
  have hlength : ((text ++ [c]).length : Int) = (text.length : Int) + 1 := by
    simp
  simp only [press, ofText, pressInsert, hc, if_true, enter] at hposition ⊢
  rw [hposition, List.take_length, List.drop_length, List.append_nil, hlength]

/-- An empty line in insert mode is as if it had just been put there. -/
theorem WellFormed.eq_setText_nil (h : e.WellFormed) (hmode : e.mode = .insert)
    (htext : e.text = []) : e = e.setText [] := by
  have hanchor := h.anchor_eq_none (by simp [hmode])
  have hpending := h.pending_eq_none (by simp [hmode])
  have hcursor : e.cursor = 0 := by
    have hlow := h.cursor_nonneg
    have hhigh := h.cursor_le_of_insert hmode
    rw [htext, List.length_nil] at hhigh
    omega
  cases e
  simp_all [setText, ofText]

end Editor

namespace Desk

variable {d : Desk} {c : Char}

/-- **A character finds the line so far, and leaves it one longer.** -/
theorem press_char_setLine (hfocus : d.session.focus = .input) (hc : Text.isPrintable c = true)
    (cs : List Char) :
    ((d.update (·.setLine (String.ofList cs))).press (.char c)).1
      = d.update (·.setLine (String.ofList (cs ++ [c]))) := by
  have heditor : (d.update (·.setLine (String.ofList cs))).session.editor
      = Editor.ofText cs d.session.editor.register := by
    simp only [update, Session.setLine, Editor.setText, String.toList_ofList]
  have hline : (d.update (·.setLine (String.ofList cs))).session.focus = .input := hfocus
  simp only [press, hline, heditor, Editor.press_char_ofText hc, obey, reduceCtorEq, if_false]
  simp only [update, Session.setLine, Editor.setText, String.toList_ofList]

/-- Enter submits the line that was put there. -/
theorem press_enter_setLine (hfocus : d.session.focus = .input) (text : String) :
    ((d.update (·.setLine text)).press .enter).1 = (d.submitLine text).1 := by
  have hline : (d.update (·.setLine text)).session.focus = .input := hfocus
  have hsubmits : (d.update (·.setLine text)).session.editor.Submits .enter :=
    ⟨rfl, Mode.noConfusion⟩
  simp only [press, hline, Editor.press_of_submits hsubmits, obey]
  rfl

/-! ## Whole lines -/

/-- The keys of a line by their names, with enter behind it. -/
def typed (text : String) : List Key :=
  text.toList.map (fun c => Key.ofName (String.singleton c)) ++ [Key.ofName "<enter>"]

/-- What a terminal sends for a line, with the line feed behind it. -/
def sent (text : String) : List TerminalInput :=
  text.toList.map .char ++ [.char '\n']

theorem actAll_append (d : Desk) (first second : List Action) :
    d.actAll (first ++ second) = (d.actAll first).actAll second :=
  List.foldl_append

/-- The characters of a line, from the line so far to the whole of it. -/
theorem actAll_chars (hfocus : d.session.focus = .input) {rest : List Char}
    (hrest : ∀ c ∈ rest, Text.isPrintable c = true) (cs : List Char) :
    (d.update (·.setLine (String.ofList cs))).actAll (rest.map fun c => .key (.char c))
      = d.update (·.setLine (String.ofList (cs ++ rest))) := by
  induction rest generalizing cs with
  | nil => rw [List.append_nil]; rfl
  | cons c rest ih =>
    obtain ⟨hc, hrest⟩ := List.forall_mem_cons.1 hrest
    rw [List.map_cons, actAll_cons, act_key, press_char_setLine hfocus hc, ih hrest,
      List.append_assoc, List.singleton_append]

/-- **A line that is typed is submitted.** -/
theorem actAll_typed (hwf : d.session.editor.WellFormed) (hfocus : d.session.focus = .input)
    (hmode : d.session.editor.mode = .insert) (hempty : d.session.editor.text = []) {text : String}
    (htext : Text.IsShown text) :
    d.actAll ((typed text).map .key) = (d.submitLine text).1 := by
  have hline : d.session.setLine (String.ofList []) = d.session := by
    rw [Session.setLine, String.toList_ofList, ← hwf.eq_setText_nil hmode hempty]
  have hstart : d.update (·.setLine (String.ofList [])) = d := by
    rw [update, hline]
  have hkeys : (typed text).map Action.key
      = text.toList.map (fun c => .key (.char c)) ++ [.key .enter] := by
    simp only [typed, List.map_append, List.map_map, Function.comp_def, Key.ofName_singleton]
    rfl
  have hchars := actAll_chars hfocus htext []
  rw [hstart, List.nil_append, String.ofList_toList] at hchars
  rw [hkeys, actAll_append, hchars]
  exact press_enter_setLine hfocus text

/-! ## Terminals -/

/-- What stands for keys does what the keys do. -/
theorem foldl_react {inputs : List TerminalInput} {keys : List Key}
    (h : inputs.map (·.toKey?) = keys.map some) (d : Desk) :
    inputs.foldl Screen.react d = d.actAll (keys.map .key) := by
  induction inputs generalizing keys d with
  | nil =>
    cases keys with
    | nil => rfl
    | cons key keys => cases h
  | cons input inputs ih =>
    cases keys with
    | nil => cases h
    | cons key keys =>
      obtain ⟨hkey, hrest⟩ : input.toKey? = some key ∧ inputs.map (·.toKey?) = keys.map some :=
        List.cons.inj h
      have hreact : Screen.react d input = (d.press key).1 := by
        rw [Screen.react, hkey]
      rw [List.foldl_cons, hreact, ih hrest, List.map_cons, actAll_cons, act_key]

/-- What a terminal sends for a line stands for the keys of the line. -/
theorem map_toKey?_sent {text : String} (htext : Text.IsShown text) :
    (sent text).map (·.toKey?) = (typed text).map some := by
  have hchars : text.toList.map (fun c => (TerminalInput.char c).toKey?)
      = text.toList.map fun c => some (Key.char c) := by
    refine List.map_congr_left fun c hc => ?_
    rw [TerminalInput.toKey?, if_pos (htext c hc)]
  have hfeed : (TerminalInput.char '\n').toKey? = some Key.enter := by decide
  simp only [sent, typed, List.map_append, List.map_map, Function.comp_def, Key.ofName_singleton,
    List.map_cons, List.map_nil, hchars, hfeed]
  rfl

/-- No character of a line ends the conversation. -/
theorem isInterrupt_of_mem_sent {text : String} (htext : Text.IsShown text) :
    ∀ input ∈ sent text, input.isInterrupt = false := by
  have hinterrupt : Text.isPrintable '\x03' = false := by decide
  intro input hmem
  rcases List.mem_append.1 hmem with hchar | hfeed
  · obtain ⟨c, hc, rfl⟩ := List.mem_map.1 hchar
    have hne : c ≠ '\x03' := by
      rintro rfl
      have hshown : Text.isPrintable '\x03' = true := htext '\x03' hc
      rw [hinterrupt] at hshown
      cases hshown
    exact beq_eq_false_iff_ne.2 hne
  · rw [List.mem_singleton.1 hfeed]
    rfl

/-- **To type a line and to submit it is the same.** From an empty line in insert mode, in any state
that actions leave an editor in (`wellFormed_actAll`), the keys of a line and enter lead to the very
desk that submitting the line leads to: the editor, the focus and the selections, what there is to
save and what is in the file. So does a conversation over what is sent for the line, on a screen that
takes down whatever it is sent, and on a terminal, whenever it comes to its end. And it does on every
terminal of three rows, if numbers can be shown, and if the session has something to show for each entry
and holds no null character. -/
theorem typed_eq_submitLine (hwf : d.session.editor.WellFormed)
    (hfocus : d.session.focus = .input) (hmode : d.session.editor.mode = .insert)
    (hempty : d.session.editor.text = []) {text : String} (htext : Text.IsShown text) :
    d.actAll ((typed text).map .key) = (d.submitLine text).1 ∧
      (∀ precision surface frames d',
        Screen.converse precision surface d (sent text) = .ok (frames, d') →
          d' = (d.submitLine text).1) ∧
      (∀ precision (t : Terminal) frames d', t.converse precision d (sent text) = .ok (frames, d') →
        d' = (d.submitLine text).1) ∧
      ∀ precision (t : Terminal), Report.IsPrecision precision → 3 ≤ t.height → 0 < t.width →
        (∀ e ∈ d.session.history, e.isVoid = false) → d.session.Holds Terminal.Takes →
          ∃ frames, t.converse precision d (sent text) = .ok (frames, (d.submitLine text).1) := by
  have htyped := actAll_typed hwf hfocus hmode hempty htext
  have hsent : (sent text).foldl Screen.react d = (d.submitLine text).1 :=
    (foldl_react (map_toKey?_sent htext) d).trans htyped
  have hinputs := isInterrupt_of_mem_sent htext
  refine ⟨htyped, ?_, ?_, ?_⟩
  · intro precision surface frames d' hconverse
    exact (Screen.desk_talk hinputs hconverse).trans hsent
  · intro precision t frames d' hconverse
    exact (Screen.desk_talk hinputs hconverse).trans hsent
  · intro precision t hprecision hheight hwidth hfilled hholds
    obtain ⟨frames, hframes⟩ :=
      Terminal.exists_converse_eq_ok hprecision hwidth hheight hinputs hfilled hholds
    rw [hsent] at hframes
    exact ⟨frames, hframes⟩

/-- A desk as it is at the start. -/
def fresh : Desk :=
  ⟨Session.ofState SavedState.empty, .homeless, true, ⟨100, []⟩⟩

/-- There a definition is typed, and a line of blanks is left as it is. -/
theorem typed_eq_submitLine_fresh :
    fresh.actAll ((typed "x=1").map .key) = (fresh.submitLine "x=1").1 ∧
      (∃ frames, Terminal.converse 12 ⟨24, 80⟩ fresh (sent "x=1")
        = .ok (frames, (fresh.submitLine "x=1").1)) ∧
      (fresh.actAll ((typed "  ").map .key)).session.editor = Editor.ofText [' ', ' '] [] := by
  have hwf : fresh.session.editor.WellFormed := Editor.wellFormed_ofText [] []
  have hline : Text.IsShown "x=1" := Text.isShown_of_all (by decide)
  have hblank : Text.IsShown "  " := Text.isShown_of_all (by decide)
  obtain ⟨htyped, -, -, hdrawn⟩ := typed_eq_submitLine hwf rfl rfl rfl hline
  obtain ⟨hleft, -⟩ := typed_eq_submitLine hwf rfl rfl rfl hblank
  have hprecision : Report.IsPrecision 12 := by
    unfold Report.IsPrecision Report.maxPrecision
    omega
  have hholds : fresh.session.Holds Terminal.Takes :=
    Session.holds_ofState ⟨List.forall_mem_nil _, List.forall_mem_nil _, List.forall_mem_nil _⟩
  refine ⟨htyped, hdrawn 12 ⟨24, 80⟩ hprecision (by decide) (by decide) (List.forall_mem_nil _) hholds,
    ?_⟩
  rw [hleft]
  rfl

end Desk

end LineCalc
