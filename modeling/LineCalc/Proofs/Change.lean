import LineCalc.Proofs.Desk
import LineCalc.Proofs.Outcome.Accepted
/-!
# LineCalc — what one action records

Keys reach the history and the variables by way of the editor, its commands and the focus; lines and
commands reach them directly. Here it is said once what comes of an action for what is saved of a
session: `submission?` is the line that the action submits, if it submits one, and a `Change` is
what that line comes to. Every action but forgetting everything makes the one change that its line
asks for (`toState_act`), and no other change describes what was saved before and after
(`describes_act_iff`).
-/

namespace LineCalc

/-! ## Keys that submit -/

namespace Editor

variable {e : Editor} {key : Key}

/-- Whether a key submits the line: enter does, unless an operator waits for its motion. -/
def Submits (e : Editor) (key : Key) : Prop :=
  key = .enter ∧ (e.mode = .normal → e.pending = none)

instance : Decidable (e.Submits key) :=
  inferInstanceAs (Decidable (_ ∧ _))

/-- **A key that submits leaves the editor as it is.** -/
theorem press_of_submits (h : e.Submits key) : e.press key = (e, .submit) := by
  obtain ⟨rfl, hpending⟩ := h
  unfold press
  cases hmode : e.mode with
  | insert => rfl
  | normal => simp only [pressNormal, hpending hmode, pressFirst]
  | visual => rfl

theorem command_pressMotion (e : Editor) (key : Key) : (e.pressMotion key).2 = .none := by
  unfold pressMotion
  split <;> rfl

/-- A key that completes an operator submits nothing. -/
theorem command_pressPending_ne_submit (e : Editor) (operator : Char) (key : Key) :
    (e.pressPending operator key).2 ≠ .submit := by
  intro h
  simp only [pressPending] at h
  split at h
  · cases h
  · split at h
    · split at h <;> cases h
    · split at h
      · cases h
      · split at h <;> cases h

/-- **No other key has the command to submit.** -/
theorem submits_of_command (h : (e.press key).2 = .submit) : e.Submits key := by
  unfold press at h
  cases hmode : e.mode with
  | insert =>
    rw [hmode] at h
    have hkey : key = .enter := by
      cases key <;> first | rfl | cases h
    exact ⟨hkey, fun hnormal => by cases hmode.symm.trans hnormal⟩
  | normal =>
    rw [hmode] at h
    simp only [pressNormal] at h
    cases hpending : e.pending with
    | some operator =>
      rw [hpending] at h
      exact absurd h (e.command_pressPending_ne_submit operator key)
    | none =>
      rw [hpending] at h
      simp only [pressFirst] at h
      split at h
      case h_2 => exact ⟨rfl, fun _ => hpending⟩
      case h_14 => exact absurd ((e.command_pressMotion _).symm.trans h) Command.noConfusion
      all_goals cases h
  | visual =>
    rw [hmode] at h
    simp only [pressVisual] at h
    split at h
    case h_3 => exact ⟨rfl, fun hnormal => by cases hmode.symm.trans hnormal⟩
    case h_4 => split at h <;> cases h
    case h_7 => exact absurd ((e.command_pressMotion _).symm.trans h) Command.noConfusion
    all_goals cases h

end Editor

/-! ## Changes -/

/-- What a submitted line may come to, and what it comes to that no line was submitted. -/
inductive Change where
  | nothing
  | result (line : String) (v : Float)
  | error (line message : String)
  | plot (line name : String) (samples : List (Float × Float))
  | definition (line name : String) (v : Float)

/-- Whether the tokens of a line give it a name as its target. -/
def HasTarget (line name : String) : Prop :=
  ∃ t rest, Token.ofText line = t :: Assignment.sign :: rest ∧ t.text = name

/-- A line has one target. -/
theorem HasTarget.name_eq {line name other : String} (h : HasTarget line name)
    (h' : HasTarget line other) : name = other := by
  obtain ⟨t, rest, hts, rfl⟩ := h
  obtain ⟨t', rest', hts', rfl⟩ := h'
  cases hts.symm.trans hts'
  rfl

namespace Change

variable {c c' : Change} {submitted : Option String} {s before after : SavedState}

/-- The line that a change is about. -/
def line? : Change → Option String
  | nothing => none
  | result line _ => some line
  | error line _ => some line
  | plot line _ _ => some line
  | definition line _ _ => some line

/-- What a change adds to the history. -/
def entries : Change → List HistoryEntry
  | result line v => [.ofResult line v]
  | error line message => [.ofError line message]
  | plot line name _ => [.ofPlot line name]
  | _ => []

/-- **What is saved after a change.** -/
def apply (c : Change) (s : SavedState) : SavedState where
  history := s.history ++ c.entries
  environment :=
    match c with
    | definition line name v => s.environment.set name ⟨line, v⟩
    | _ => s.environment
  plot :=
    match c with
    | plot _ _ samples => some samples
    | _ => s.plot

@[simp] theorem apply_nothing (s : SavedState) : nothing.apply s = s := by
  simp only [apply, entries, List.append_nil]

/-- What holds of an entry for a result, for an error and for a plot holds of every entry that a
change adds. -/
theorem forall_mem_entries (c : Change) {P : HistoryEntry → Prop}
    (hresult : ∀ line v, P (.ofResult line v)) (herror : ∀ line message, P (.ofError line message))
    (hplot : ∀ line name, P (.ofPlot line name)) : ∀ e ∈ c.entries, P e := by
  cases c with
  | nothing | definition line name v => exact List.forall_mem_nil P
  | result line v => exact List.forall_mem_singleton.2 (hresult line v)
  | error line message => exact List.forall_mem_singleton.2 (herror line message)
  | plot line name samples => exact List.forall_mem_singleton.2 (hplot line name)

/-- Something came of every line that is recorded. -/
theorem isVoid_of_mem_entries (c : Change) : ∀ e ∈ c.entries, e.isVoid = false :=
  c.forall_mem_entries (fun _ _ => rfl) (fun _ _ => rfl) fun _ _ => rfl

/-- What is recorded of a line are texts. -/
theorem hasTexts_of_mem_entries (c : Change) : ∀ e ∈ c.entries, e.HasTexts :=
  c.forall_mem_entries HistoryEntry.hasTexts_ofResult HistoryEntry.hasTexts_ofError
    HistoryEntry.hasTexts_ofPlot

/-- The change that a line comes to. -/
def ofOutcome (line : String) : Outcome Float → Change
  | .value v => result line v
  | .assigned name v => definition line name v
  | .plotted name samples => plot line name samples
  | .failed e _ => error line e.message

@[simp] theorem line?_ofOutcome (line : String) (o : Outcome Float) :
    (ofOutcome line o).line? = some line := by
  cases o <;> rfl

theorem ofOutcome_ne_nothing (line : String) (o : Outcome Float) : ofOutcome line o ≠ nothing := by
  intro h
  have hline := line?_ofOutcome line o
  rw [h] at hline
  cases hline

/-- Only what was plotted is recorded as a plot. -/
theorem ofOutcome_eq_plot_iff {text line name : String} {o : Outcome Float}
    {samples : List (Float × Float)} : ofOutcome text o = .plot line name samples ↔
      text = line ∧ o = .plotted name samples := by
  cases o <;> simp [ofOutcome]

/-- **To record what came of a line is to make its change.** -/
theorem toState_record (s : Session) (line : String) (o : Outcome Float) :
    (s.record line o).toState = (ofOutcome line o).apply s.toState := by
  cases o <;> simp only [Session.record, Session.toState, ofOutcome, apply, entries, List.append_nil]

/-- Whether a change tells what is saved before and after, and which line was submitted. What is
defined is the target of the line. -/
structure Describes (c : Change) (submitted : Option String) (before after : SavedState) : Prop where
  line : c.line? = submitted
  state : after = c.apply before
  target : ∀ line name v, c = definition line name v → HasTarget line name

/-- Two changes that come to the same add the same entries. -/
theorem entries_eq (h : c.apply s = c'.apply s) : c.entries = c'.entries :=
  List.append_cancel_left (congrArg SavedState.history h)

/-- **No two changes tell the same.** Their lines agree, so both are made or none is; the entry they
add shows which of the three it is that adds it; and the target, what a definition defines. -/
theorem Describes.unique (h : c.Describes submitted before after)
    (h' : c'.Describes submitted before after) : c = c' := by
  have hline : c.line? = c'.line? := h.line.trans h'.line.symm
  have hstate : c.apply before = c'.apply before := h.state.symm.trans h'.state
  have hentries := entries_eq hstate
  cases c with
  | nothing =>
    cases c' with
    | nothing => rfl
    | _ => cases hline
  | result line v =>
    cases c' with
    | result line' v' =>
      obtain ⟨rfl, rfl⟩ : line = line' ∧ v = v' := by
        simpa [entries, HistoryEntry.ofResult] using hentries
      rfl
    | _ => cases hentries
  | error line message =>
    cases c' with
    | error line' message' =>
      obtain ⟨rfl, rfl⟩ : line = line' ∧ message = message' := by
        simpa [entries, HistoryEntry.ofError] using hentries
      rfl
    | _ => cases hentries
  | plot line name samples =>
    cases c' with
    | plot line' name' samples' =>
      obtain ⟨rfl, rfl⟩ : line = line' ∧ name = name' := by
        simpa [entries, HistoryEntry.ofPlot] using hentries
      have hsamples : samples = samples' := Option.some.inj (congrArg SavedState.plot hstate)
      rw [hsamples]
    | _ => cases hentries
  | definition line name v =>
    cases c' with
    | definition line' name' v' =>
      cases hline
      obtain rfl : name = name' := (h.target _ _ _ rfl).name_eq (h'.target _ _ _ rfl)
      have hfind := congrArg (fun s => s.environment.find? name) hstate
      have hvalue : v = v' := by
        simpa [apply, Environment.find?_set] using hfind
      rw [hvalue]
    | nothing => cases hline
    | _ => cases hentries

end Change

/-! ## What an action changes -/

/-- A line, unless it is blank. -/
def nonblank? (line : String) : Option String :=
  if Text.isBlankText line then none else some line

theorem nonblank?_eq_none_iff {line : String} :
    nonblank? line = none ↔ Text.isBlankText line = true := by
  unfold nonblank?
  split
  · next hblank => simp only [hblank]
  · next hblank => simp only [hblank, reduceCtorEq]

theorem nonblank?_eq_some_iff {line submitted : String} :
    nonblank? line = some submitted ↔ Text.isBlankText line = false ∧ line = submitted := by
  unfold nonblank?
  split
  · next hblank => simp only [hblank, reduceCtorEq, Bool.true_eq_false, false_and]
  · next hblank => simp only [Bool.eq_false_iff.2 hblank, Option.some.injEq, true_and]

namespace Desk

variable {d : Desk} {a : Action}

/-- The line that an action submits. -/
def submission? (d : Desk) : Action → Option String
  | .line text => nonblank? text
  | .submit => nonblank? d.session.line
  | .key key =>
    if d.session.focus = .input ∧ d.session.editor.Submits key then nonblank? d.session.line
    else none
  | _ => none

/-- The change that a line comes to, if one is submitted. -/
def changeOf (d : Desk) : Option String → Change
  | none => .nothing
  | some line => .ofOutcome line (d.evaluate line)

/-- **The change that an action makes.** -/
def change (d : Desk) (a : Action) : Change :=
  d.changeOf (d.submission? a)

theorem line?_changeOf (d : Desk) (submitted : Option String) :
    (d.changeOf submitted).line? = submitted := by
  cases submitted with
  | none => rfl
  | some line => exact Change.line?_ofOutcome line _

theorem changeOf_update {f : Session → Session}
    (hf : (f d.session).toState = d.session.toState) (submitted : Option String) :
    (d.update f).changeOf submitted = d.changeOf submitted := by
  cases submitted with
  | none => rfl
  | some line => simp only [changeOf, evaluate_update hf]

theorem changeOf_eq_plot_iff {submitted : Option String} {line name : String}
    {samples : List (Float × Float)} : d.changeOf submitted = .plot line name samples ↔
      submitted = some line ∧ d.evaluate line = .plotted name samples := by
  cases submitted with
  | none => simp only [changeOf, reduceCtorEq, false_and]
  | some text =>
    rw [changeOf, Change.ofOutcome_eq_plot_iff, Option.some.injEq]
    exact and_congr_right fun htext => by rw [htext]

/-- **What is defined is the target of the line.** -/
theorem hasTarget_of_changeOf {submitted : Option String} {line name : String} {v : Float}
    (h : d.changeOf submitted = .definition line name v) : HasTarget line name := by
  cases submitted with
  | none => cases h
  | some text =>
    have hline : some text = some line :=
      (Change.line?_ofOutcome text _).symm.trans (congrArg Change.line? h)
    cases hline
    have hassigned : d.evaluate line = .assigned name v := by
      simp only [changeOf] at h
      cases ho : d.evaluate line <;> rw [ho] at h <;> cases h
      rfl
    obtain ⟨t, rest, hts, -, hname, -⟩ := Outcome.exists_ofLine_eq_assigned_iff.1 ⟨v, hassigned⟩
    exact ⟨t, rest, hts, hname⟩

/-! ### One action -/

@[simp] theorem act_key (d : Desk) (key : Key) : (d.act (.key key)).1 = (d.press key).1 := by
  rw [act]

@[simp] theorem act_line (d : Desk) (text : String) :
    (d.act (.line text)).1 = (d.submitLine text).1 := by
  rw [act]

@[simp] theorem act_submit (d : Desk) : (d.act .submit).1 = d.submit.1 := by
  rw [act]

/-- Whether the state is written makes no difference to the session. -/
theorem toState_submit (d : Desk) : d.submit.1.session.toState
    = (d.changeOf (nonblank? d.session.line)).apply d.session.toState := by
  have hsave : ∀ d' : Desk, (if d'.autosave then d'.save else d').session = d'.session := by
    intro d'
    split <;> rfl
  simp only [submit, nonblank?]
  split
  · exact (Change.apply_nothing _).symm
  · rw [hsave]
    simp only [update, changeOf, Session.toState_refresh, Change.toState_record]

theorem toState_submitLine (d : Desk) (line : String) : (d.submitLine line).1.session.toState
    = (d.changeOf (nonblank? line)).apply d.session.toState := by
  have hline : (d.update (·.setLine line)).session.line = line := String.ofList_toList
  have hchange := changeOf_update (d := d) (f := (·.setLine line))
    (d.session.toState_setLine line) (nonblank? line)
  rw [submitLine, toState_submit, hline, hchange]
  rfl

theorem toState_obey {c : Command} (hc : c ≠ .submit) (d : Desk) (key : Key) :
    (d.obey key c).session.toState = d.session.toState := by
  cases c with
  | none =>
    simp only [obey]
    split
    · exact d.session.toState_recallLast
    · rfl
  | submit => exact absurd rfl hc
  | exitInput => exact d.session.toState_focusOn _
  | focusNext => exact d.session.toState_cycle _
  | focusPrevious => exact d.session.toState_cycle _
  | yanked first last => rfl

/-- **A key submits the line, or records nothing.** -/
theorem toState_press (d : Desk) (key : Key) :
    (d.press key).1.session.toState = (d.change (.key key)).apply d.session.toState := by
  by_cases hfocus : d.session.focus = .input
  · by_cases hsubmits : d.session.editor.Submits key
    · simp only [press, hfocus, Editor.press_of_submits hsubmits, change, submission?, hsubmits,
        and_self, if_true]
      exact d.toState_submit
    · have hcommand : (d.session.editor.press key).2 ≠ .submit :=
        fun h => hsubmits (Editor.submits_of_command h)
      simp only [press, hfocus, change, submission?, hsubmits, and_false, if_false, changeOf,
        Change.apply_nothing]
      exact toState_obey hcommand _ key
  · simp only [change, submission?, hfocus, false_and, if_false, changeOf, Change.apply_nothing]
    unfold press
    split
    · next hinput => exact absurd hinput hfocus
    · exact d.session.toState_pressInList key

/-- **Every action but forgetting everything makes the change that its line asks for.** -/
theorem toState_act (ha : a ≠ .clear) :
    (d.act a).1.session.toState = (d.change a).apply d.session.toState := by
  cases a with
  | key key =>
    rw [act_key]
    exact d.toState_press key
  | line text =>
    rw [act_line]
    exact d.toState_submitLine text
  | submit =>
    rw [act_submit]
    exact d.toState_submit
  | clear => exact absurd rfl ha
  | setLine text => simp [act, update, change, submission?, changeOf]
  | focus f => simp [act, update, change, submission?, changeOf]
  | cycle steps => simp [act, update, change, submission?, changeOf]
  | move rows => simp [act, update, change, submission?, changeOf]
  | save => simp [act, save, change, submission?, changeOf]
  | recallLast => simp [act, change, submission?, changeOf]
  | recallSelected => simp [act, change, submission?, changeOf]

/-- Its change describes what is saved before and after. -/
theorem describes_change (ha : a ≠ .clear) :
    (d.change a).Describes (d.submission? a) d.session.toState (d.act a).1.session.toState where
  line := d.line?_changeOf _
  state := toState_act ha
  target _ _ _ h := hasTarget_of_changeOf h

/-- **What one action records.** Of all changes exactly one describes what is saved before and after
any action but forgetting everything. It is that nothing changes exactly if no line was submitted, as
when the line is blank; the history keeps its entries and their order; and a line that failed leaves
the variables and the samples alone. -/
theorem describes_act_iff (d : Desk) (ha : a ≠ .clear) :
    (∀ c : Change, c.Describes (d.submission? a) d.session.toState (d.act a).1.session.toState ↔
        c = d.change a) ∧
      (d.change a = .nothing ↔ d.submission? a = none) ∧
      (∀ line, (a = .line line ∨ a = .submit ∧ d.session.line = line) →
        (d.change a = .nothing ↔ Text.isBlankText line = true)) ∧
      d.session.history <+: (d.act a).1.session.history ∧
      (∀ line message, d.change a = .error line message →
        (d.act a).1.session.environment = d.session.environment ∧
          (d.act a).1.session.plot = d.session.plot) := by
  have hstate := toState_act (d := d) ha
  have hnothing : d.change a = .nothing ↔ d.submission? a = none := by
    unfold change
    cases d.submission? a with
    | none => simp only [changeOf]
    | some line => simp only [changeOf, Change.ofOutcome_ne_nothing, reduceCtorEq]
  refine ⟨fun c => ⟨fun h => h.unique (describes_change ha), ?_⟩, hnothing, ?_, ?_, ?_⟩
  · rintro rfl
    exact describes_change ha
  · intro line hsubmit
    rw [hnothing, ← nonblank?_eq_none_iff]
    rcases hsubmit with rfl | ⟨rfl, rfl⟩ <;> rfl
  · exact ⟨(d.change a).entries, (congrArg SavedState.history hstate).symm⟩
  · intro line message h
    rw [h] at hstate
    exact ⟨congrArg SavedState.environment hstate, congrArg SavedState.plot hstate⟩

/-- A desk with an assignment to a number in its line. -/
def misnamed : Desk :=
  ⟨(Session.ofState SavedState.empty).setLine "1=", .homeless, true, ⟨100, []⟩⟩

/-- Enter there records an error. -/
theorem describes_misnamed : Action.key .enter ≠ .clear ∧
    (∀ c : Change, c.Describes (some "1=") SavedState.empty
        (misnamed.act (.key .enter)).1.session.toState ↔
      c = .error "1=" "Invalid assignment target: 1") ∧
    (misnamed.act (.key .enter)).1.session.plot = misnamed.session.plot := by
  have hne : Action.key .enter ≠ .clear := Action.noConfusion
  have hsubmission : misnamed.submission? (.key .enter) = some "1=" := rfl
  have hchange : misnamed.change (.key .enter) = .error "1=" "Invalid assignment target: 1" := rfl
  obtain ⟨hdescribes, -, -, -, hfailed⟩ := describes_act_iff misnamed hne
  rw [hsubmission, hchange] at hdescribes
  exact ⟨hne, hdescribes, (hfailed _ _ hchange).2⟩

/-! ## Runs -/

/-- The desk after actions, one after the other. -/
def actAll (d : Desk) (actions : List Action) : Desk :=
  actions.foldl (fun d a => (d.act a).1) d

theorem actAll_cons (d : Desk) (a : Action) (actions : List Action) :
    d.actAll (a :: actions) = (d.act a).1.actAll actions := rfl

theorem limits_submit (d : Desk) : d.submit.1.limits = d.limits := by
  simp only [submit]
  split
  · rfl
  · split <;> rfl

theorem limits_submitLine (d : Desk) (line : String) : (d.submitLine line).1.limits = d.limits :=
  (d.update (·.setLine line)).limits_submit

theorem limits_obey (d : Desk) (key : Key) (c : Command) : (d.obey key c).limits = d.limits := by
  cases c with
  | none =>
    simp only [obey]
    split <;> rfl
  | submit => exact d.limits_submit
  | _ => rfl

theorem limits_press (d : Desk) (key : Key) : (d.press key).1.limits = d.limits := by
  unfold press
  split
  · exact limits_obey _ key _
  · rfl

/-- **An action leaves the limits alone.** -/
theorem limits_act (d : Desk) (a : Action) : (d.act a).1.limits = d.limits := by
  cases a with
  | key key =>
    rw [act_key]
    exact d.limits_press key
  | line text =>
    rw [act_line]
    exact d.limits_submitLine text
  | submit =>
    rw [act_submit]
    exact d.limits_submit
  | _ => rfl

theorem limits_actAll (d : Desk) (actions : List Action) :
    (d.actAll actions).limits = d.limits := by
  induction actions generalizing d with
  | nil => rfl
  | cons a actions ih => exact (ih _).trans (d.limits_act a)

end Desk

end LineCalc
