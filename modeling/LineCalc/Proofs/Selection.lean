import LineCalc.Proofs.Invariant
import LineCalc.Proofs.Screen.Conversation
/-!
# LineCalc — the selected rows

Each list keeps the number of its selected row through whatever happens to the session. The number
is always that of a row, and the list that has the focus has a selected row as soon as it has any
row (`Session.Selects`). Two things could spoil that: a list that gets shorter, and a focus that
comes without a selection. But the history and the variables only grow, unless everything is
forgotten and the selections with it; and the focus is turned by one function, which selects a row.

So enter in a list always fetches a line, and it is the line of the selected row
(`Desk.recalls_selected`): the history is counted from its newest entry, the variables in the order
of their names.
-/

namespace LineCalc

/-! ## Names in order -/

namespace Environment

variable {V : Type}

/-- The code points of a name, by which it has its place among the names. -/
def codes (name : String) : List Nat :=
  name.toList.map Text.codePoint

/-- **Names are listed by their code points.** -/
theorem pairwise_sortedNames (env : Environment V) :
    env.sortedNames.Pairwise fun a b => codes a ≤ codes b := by
  have hle : ∀ a b : String,
      (!(codes b).lex (codes a) fun m n => decide (m < n)) = true ↔ codes a ≤ codes b := by
    intro a b
    simp [List.lex_eq_decide_lex]
  have hsorted : env.sortedNames.Pairwise fun a b =>
      (!(codes b).lex (codes a) fun m n => decide (m < n)) = true := by
    refine List.pairwise_mergeSort ?_ ?_ env.names
    · intro a b c hab hbc
      exact (hle a c).2 (le_trans ((hle a b).1 hab) ((hle b c).1 hbc))
    · intro a b
      rw [Bool.or_eq_true]
      exact (le_total (codes a) (codes b)).imp (hle a b).2 (hle b a).2
  exact hsorted.imp fun h => (hle _ _).1 h

theorem length_sortedNames (env : Environment V) : env.sortedNames.length = env.size := by
  rw [env.sortedNames_perm.length_eq]
  exact List.length_map _

/-- **No definition takes a name out.** -/
theorem size_le_set (env : Environment V) (name : String) (d : Definition V) :
    env.size ≤ (env.set name d).size := by
  have hnames : (Entries.names env.entries).length
      ≤ (Entries.names (env.set name d).entries).length := by
    rw [set, Entries.names_set]
    split
    · exact Nat.le_refl _
    · rw [List.length_append]
      exact Nat.le_add_right _ _
  simpa [Entries.names, size] using hnames

end Environment

/-! ## One selection -/

/-- What a selection among so many rows has to be: the number of a row, and there if there are rows
and the focus is on them. -/
structure IsSelection (length : Nat) (focused : Prop) (selected : Option Nat) : Prop where
  lt : ∀ i, selected = some i → i < length
  isSome : focused → 0 < length → selected.isSome

namespace IsSelection

variable {length length' : Nat} {focused : Prop} {selected : Option Nat}

/-- Without rows there is no selection. -/
theorem none_of_empty : IsSelection 0 focused none where
  lt i h := by cases h
  isSome _ h := absurd h (Nat.lt_irrefl 0)

/-- Away from the focus, rows may be added. -/
theorem unfocused (hlt : ∀ i, selected = some i → i < length) (hle : length ≤ length')
    (hfocused : ¬ focused) : IsSelection length' focused selected where
  lt i h := Nat.lt_of_lt_of_le (hlt i h) hle
  isSome h := absurd h hfocused

/-- **A list that gets the focus gets a selection.** -/
theorem select (hlt : ∀ i, selected = some i → i < length) :
    IsSelection length focused (Session.select selected length) := by
  unfold Session.select
  split
  · next i => exact ⟨fun j h => hlt j h, fun _ _ => rfl⟩
  · split
    · next hzero =>
      subst hzero
      exact none_of_empty
    · next hpos =>
      refine ⟨fun i h => ?_, fun _ _ => rfl⟩
      cases h
      omega

/-- **A selection is moved to a row**, by however many rows. -/
theorem moved (selected : Option Nat) (length : Nat) (rows : Int) :
    IsSelection length focused (Session.moved selected length rows) := by
  unfold Session.moved
  split
  · next hzero =>
    subst hzero
    exact none_of_empty
  · next hpos =>
    split
    · refine ⟨fun i h => ?_, fun _ _ => rfl⟩
      cases h
      omega
    · refine ⟨fun i h => ?_, fun _ _ => rfl⟩
      cases h
      omega

end IsSelection

/-! ## The selections of a session -/

namespace Session

variable {s : Session}

/-- Whether both lists have the selections that they have to have. -/
structure Selects (s : Session) : Prop where
  history : IsSelection s.history.length (s.focus = .history) s.historySelected
  definitions : IsSelection s.environment.size (s.focus = .definitions) s.definitionSelected

theorem selects_ofState (saved : SavedState) : (ofState saved).Selects where
  history := .unfocused (fun _ h => by cases h) (Nat.le_refl _) Focus.noConfusion
  definitions := .unfocused (fun _ h => by cases h) (Nat.le_refl _) Focus.noConfusion

namespace Selects

/-- Only the lists, their selections and the focus count. -/
theorem setEditor (h : s.Selects) (editor : Editor) : { s with editor := editor }.Selects :=
  ⟨h.history, h.definitions⟩

theorem focusOn (h : s.Selects) (f : Focus) : (s.focusOn f).Selects := by
  have hhistory := fun focused (hf : ¬ focused) =>
    IsSelection.unfocused h.history.lt (Nat.le_refl _) hf
  have hdefinitions := fun focused (hf : ¬ focused) =>
    IsSelection.unfocused h.definitions.lt (Nat.le_refl _) hf
  cases f with
  | input => exact ⟨hhistory _ Focus.noConfusion, hdefinitions _ Focus.noConfusion⟩
  | history => exact ⟨.select h.history.lt, hdefinitions _ Focus.noConfusion⟩
  | definitions => exact ⟨hhistory _ Focus.noConfusion, .select h.definitions.lt⟩

theorem moveSelection (h : s.Selects) (rows : Int) : (s.moveSelection rows).Selects := by
  unfold Session.moveSelection
  split
  · exact h
  · exact ⟨.moved _ _ rows, h.definitions⟩
  · exact ⟨h.history, .moved _ _ rows⟩

theorem recallSelected (h : s.Selects) : s.recallSelected.1.Selects := by
  unfold Session.recallSelected
  split
  · exact h
  · exact (h.setEditor _).focusOn .input

theorem recallLast (h : s.Selects) : s.recallLast.1.Selects := by
  unfold Session.recallLast
  split
  · exact h
  · exact h.setEditor _

/-- **A recorded line takes no row away**, and the focus is on the line again. -/
theorem record (h : s.Selects) (line : String) (o : Outcome Float) :
    (s.record line o).refresh.Selects := by
  have hhistory : s.history.length ≤ (s.record line o).history.length := by
    cases o with
    | assigned name v => exact Nat.le_refl _
    | _ => exact List.length_append ▸ Nat.le_add_right _ _
  have hdefinitions : s.environment.size ≤ (s.record line o).environment.size := by
    cases o with
    | assigned name v => exact s.environment.size_le_set name _
    | _ => exact Nat.le_refl _
  have hselected : (s.record line o).historySelected = s.historySelected ∧
      (s.record line o).definitionSelected = s.definitionSelected := by
    cases o <;> exact ⟨rfl, rfl⟩
  refine ⟨.unfocused ?_ hhistory Focus.noConfusion, .unfocused ?_ hdefinitions Focus.noConfusion⟩
  · intro i hi
    exact h.history.lt i (hselected.1.symm.trans hi)
  · intro i hi
    exact h.definitions.lt i (hselected.2.symm.trans hi)

/-- Everything forgotten, nothing is selected. -/
theorem clear (s : Session) : s.clear.Selects :=
  ⟨.none_of_empty, .none_of_empty⟩

end Selects

/-! ### The line of the selected row -/

/-- The selected row of the history has the line that is fetched. -/
theorem selectedLine?_history {i : Nat} {e : HistoryEntry}
    (hfocus : s.focus = .history) (hselected : s.historySelected = some i)
    (he : s.newestFirst[i]? = some e) : s.selectedLine? = some e.expression := by
  simp only [selectedLine?, hfocus, hselected, he, bind, Option.bind_some, pure]

/-- So has the selected row of the variables. -/
theorem selectedLine?_definitions {i : Nat} {name : String}
    {definition : Definition Float} (hfocus : s.focus = .definitions)
    (hselected : s.definitionSelected = some i)
    (hname : s.environment.sortedNames[i]? = some name)
    (hfind : s.environment.find? name = some definition) :
    s.selectedLine? = some definition.expression := by
  simp only [selectedLine?, hfocus, hselected, hname, hfind, bind, Option.bind_some, pure]

namespace Selects

/-- **The history is counted from its newest entry.** -/
theorem exists_history (h : s.Selects) (hfocus : s.focus = .history) (hrows : s.history ≠ []) :
    ∃ i e, s.historySelected = some i ∧ s.history[s.history.length - 1 - i]? = some e ∧
      s.selectedLine? = some e.expression := by
  have hsome := h.history.isSome hfocus (List.length_pos_iff.2 hrows)
  obtain ⟨i, hi⟩ := Option.isSome_iff_exists.1 hsome
  have hlt := h.history.lt i hi
  have hrow : s.newestFirst[i]? = s.history[s.history.length - 1 - i]? := List.getElem?_reverse hlt
  have hentry : s.history.length - 1 - i < s.history.length := by omega
  have he := List.getElem?_eq_getElem hentry
  exact ⟨i, _, hi, he, selectedLine?_history hfocus hi (hrow.trans he)⟩

/-- **The variables are counted in the order of their names.** -/
theorem exists_definition (h : s.Selects) (hfocus : s.focus = .definitions)
    (hrows : s.environment.size ≠ 0) :
    ∃ i name definition, s.definitionSelected = some i ∧
      s.environment.sortedNames[i]? = some name ∧
      s.environment.find? name = some definition ∧
      s.selectedLine? = some definition.expression := by
  have hsome := h.definitions.isSome hfocus (Nat.pos_of_ne_zero hrows)
  obtain ⟨i, hi⟩ := Option.isSome_iff_exists.1 hsome
  have hlt : i < s.environment.sortedNames.length := by
    rw [Environment.length_sortedNames]
    exact h.definitions.lt i hi
  have hrow := List.getElem?_eq_getElem hlt
  obtain ⟨definition, hfind⟩ :=
    Environment.exists_find?_of_mem_sortedNames (List.mem_of_getElem? hrow)
  exact ⟨i, _, definition, hi, hrow, hfind, selectedLine?_definitions hfocus hi hrow hfind⟩

end Selects

end Session

/-! ## Runs -/

namespace Desk

variable {d : Desk} {line : String}

/-- **Every action leaves the selections that there have to be.** -/
theorem keptByActions_selects : KeptByActions Session.Selects where
  editor h _ := h.setEditor _
  yanked h _ _ := ⟨h.history, h.definitions⟩
  focusOn h f := h.focusOn f
  moveSelection h rows := h.moveSelection rows
  recallSelected h := h.recallSelected
  recallLast h := h.recallLast
  recorded h := h.record _ _
  setLine h _ := h.setEditor _
  clear _ := .clear _

/-- Whether enter fetches just this line: it is in the editor then, the focus is on it, and nothing
else has changed. What enter does in a list can also be asked for without the key. -/
def Recalls (d : Desk) (line : String) : Prop :=
  ∀ a : Action, a = .key .enter ∨ a = .recallSelected →
    (d.act a).1.session.line = line ∧
      (d.act a).1 = d.update fun s =>
        { s with editor := s.editor.setText line.toList, focus := .input }

/-- **The line of the selected row is fetched.** -/
theorem recalls_of_selectedLine? (h : d.session.selectedLine? = some line) : d.Recalls line := by
  have hfetched : d.session.recallSelected
      = ((d.session.setLine line).focusOn .input, true) := by
    rw [Session.recallSelected, h]
  have hdesk : ∀ a : Action, a = .key .enter ∨ a = .recallSelected →
      (d.act a).1 = d.update fun s =>
        { s with editor := s.editor.setText line.toList, focus := .input } := by
    rintro a (rfl | rfl)
    · rw [act_key]
      cases hfocus : d.session.focus with
      | input =>
        rw [Session.selectedLine?, hfocus] at h
        cases h
      | history | definitions =>
        simp only [press, hfocus, update, Session.pressInList, hfetched]
        rfl
    · simp only [act, hfetched]
      rfl
  intro a ha
  refine ⟨?_, hdesk a ha⟩
  rw [hdesk a ha]
  exact String.ofList_toList

/-- **Selections never dangle, and enter fetches the selected line.** After any run of actions on
any saved state, a selected row is one of its list, and a list with rows that has the focus has one
selected. Enter there fetches its line: of the history, the row is counted from the newest entry; of
the variables, from the first name by code points. -/
theorem recalls_selected (saved : SavedState) (store : Store) (autosave : Bool) (limits : Limits)
    (actions : List Action) :
    let d := actAll ⟨Session.ofState saved, store, autosave, limits⟩ actions
    let s := d.session
    (∀ i, s.historySelected = some i → i < s.history.length) ∧
    (∀ i, s.definitionSelected = some i → i < s.environment.size) ∧
    (s.focus = .history → s.history ≠ [] →
      ∃ i e, s.historySelected = some i ∧ s.history[s.history.length - 1 - i]? = some e ∧
        d.Recalls e.expression) ∧
    (s.focus = .definitions → s.environment.size ≠ 0 →
      ∃ (i : Nat) (names : List String) (name : String) (definition : Definition Float),
        s.definitionSelected = some i ∧
        names.Perm s.environment.names ∧
        names.Pairwise (fun a b => Environment.codes a ≤ Environment.codes b) ∧
        names[i]? = some name ∧ s.environment.find? name = some definition ∧
        d.Recalls definition.expression) := by
  intro d s
  have hselects : s.Selects :=
    keptByActions_selects.actAll (Session.selects_ofState saved) actions
  refine ⟨hselects.history.lt, hselects.definitions.lt, ?_, ?_⟩
  · intro hfocus hrows
    obtain ⟨i, e, hi, he, hline⟩ := hselects.exists_history hfocus hrows
    exact ⟨i, e, hi, he, recalls_of_selectedLine? hline⟩
  · intro hfocus hrows
    obtain ⟨i, name, definition, hi, hname, hfind, hline⟩ :=
      hselects.exists_definition hfocus hrows
    exact ⟨i, _, name, definition, hi, Environment.sortedNames_perm _,
      Environment.pairwise_sortedNames _, hname, hfind, recalls_of_selectedLine? hline⟩

/-- Two lines and two variables, the later name first. -/
def stocked : SavedState where
  history := [.ofError "1+" "Unexpected end of expression", .ofPlot "n+1" "n"]
  environment := .ofList [("b", ⟨"b=2", 2⟩), ("a", ⟨"a=1", 1⟩)]
  plot := none

/-- The second rows are the older line and the later name. -/
theorem recalls_stocked :
    (actAll ⟨Session.ofState stocked, .homeless, true, ⟨100, []⟩⟩
      [.focus .history, .move 1]).Recalls "1+" ∧
    (actAll ⟨Session.ofState stocked, .homeless, true, ⟨100, []⟩⟩
      [.cycle (-1), .move 5]).Recalls "b=2" := by
  constructor
  · obtain ⟨-, -, hhistory, -⟩ := recalls_selected stocked .homeless true ⟨100, []⟩
      [.focus .history, .move 1]
    obtain ⟨i, e, hi, he, hrecalls⟩ := hhistory rfl (List.cons_ne_nil _ _)
    cases hi
    cases he
    exact hrecalls
  · obtain ⟨-, -, -, hdefinitions⟩ := recalls_selected stocked .homeless true ⟨100, []⟩
      [.cycle (-1), .move 5]
    obtain ⟨i, names, name, definition, hi, hperm, hsorted, hname, hfind, hrecalls⟩ :=
      hdefinitions rfl (Nat.succ_ne_zero 1)
    have horder : ∀ x ∈ ["b", "a"], ∀ y ∈ ["a", "b"], Environment.codes x ≤ Environment.codes y →
        Environment.codes y ≤ Environment.codes x → x = y := by decide
    have hnames : names = ["a", "b"] :=
      (hperm.trans (.swap "a" "b" [])).eq_of_pairwise
        (fun x y hx hy => horder x (hperm.mem_iff.1 hx) y hy) hsorted (by decide)
    subst hnames
    cases hi
    cases hname
    cases hfind
    exact hrecalls

end Desk

end LineCalc
