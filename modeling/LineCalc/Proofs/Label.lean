import LineCalc.Proofs.Change
import LineCalc.Proofs.Outcome.Points
/-!
# LineCalc — the label of the samples

The samples of the last plot are kept by themselves, and what they were taken over stands in the
history, where results and errors come behind it. They belong together all the same:
`SavedState.Labelled` says that the last plot in the history is the one the samples come from, or
that there is neither. A change keeps it (`Labelled.apply`), as long as a plot that is recorded has
its own samples; and so a whole run from nothing does, of lines and of anything else a front end
asks for (`Repl.labelled_takeAll`). The label that `plot` finds is therefore the right one
(`Repl.plotLabel_takeAll`).
-/

namespace LineCalc

/-! ## The last plot of a history -/

/-- **Samples and history belong together.** There are no samples and no plot in the history; or the
last plot in it, behind `earlier`, is one that `made` says these samples come from. -/
inductive SavedState.Labelled
    (made : List HistoryEntry → String → String → List (Float × Float) → Prop) (s : SavedState) :
    Prop where
  /-- Nothing has been plotted. -/
  | without (hhistory : ∀ e ∈ s.history, e.plotName = none) (hplot : s.plot = none)
  /-- This line was plotted last, over this name. -/
  | plotted (earlier later : List HistoryEntry) (line name : String)
      (samples : List (Float × Float))
      (hhistory : s.history = earlier ++ .ofPlot line name :: later)
      (hlater : ∀ e ∈ later, e.plotName = none) (hplot : s.plot = some samples)
      (hmade : made earlier line name samples)

namespace SavedState.Labelled

variable {made made' : List HistoryEntry → String → String → List (Float × Float) → Prop}
variable {s : SavedState}

theorem empty : SavedState.empty.Labelled made :=
  .without (List.forall_mem_nil _) rfl

theorem mono (h : s.Labelled made)
    (hmade : ∀ earlier line name samples,
      made earlier line name samples → made' earlier line name samples) : s.Labelled made' := by
  cases h with
  | without hhistory hplot => exact .without hhistory hplot
  | plotted earlier later line name samples hhistory hlater hplot h =>
    exact .plotted earlier later line name samples hhistory hlater hplot (hmade _ _ _ _ h)

/-- A change that records no plot leaves the last one where it is. -/
theorem apply_of_ne_plot (h : s.Labelled made) {c : Change}
    (hc : ∀ line name samples, c ≠ .plot line name samples) : (c.apply s).Labelled made := by
  have hentries : ∀ e ∈ c.entries, e.plotName = none := by
    cases c with
    | plot line name samples => exact absurd rfl (hc line name samples)
    | result line v => exact List.forall_mem_singleton.2 rfl
    | error line message => exact List.forall_mem_singleton.2 rfl
    | nothing => exact List.forall_mem_nil _
    | definition line name v => exact List.forall_mem_nil _
  have hsame : (c.apply s).plot = s.plot := by
    cases c with
    | plot line name samples => exact absurd rfl (hc line name samples)
    | _ => rfl
  cases h with
  | without hhistory hplot =>
    exact .without (List.forall_mem_append.2 ⟨hhistory, hentries⟩) (hsame.trans hplot)
  | plotted earlier later line name samples hhistory hlater hplot h =>
    have happend : s.history ++ c.entries
        = earlier ++ .ofPlot line name :: (later ++ c.entries) := by
      rw [hhistory, List.append_assoc, List.cons_append]
    exact .plotted earlier _ line name samples happend (List.forall_mem_append.2 ⟨hlater, hentries⟩)
      (hsame.trans hplot) h

/-- **A change keeps samples and history together**, if the samples of a plot are its own. -/
theorem apply (h : s.Labelled made) {c : Change}
    (hc : ∀ line name samples, c = .plot line name samples → made s.history line name samples) :
    (c.apply s).Labelled made := by
  by_cases hplot : ∃ line name samples, c = .plot line name samples
  · obtain ⟨line, name, samples, rfl⟩ := hplot
    exact .plotted s.history [] line name samples rfl (List.forall_mem_nil _) rfl
      (hc line name samples rfl)
  · exact h.apply_of_ne_plot fun line name samples heq => hplot ⟨line, name, samples, heq⟩

/-- There are samples exactly if there is a plot in the history. -/
theorem isSome_plot_iff (h : s.Labelled made) :
    s.plot.isSome = true ↔ ∃ e ∈ s.history, e.plotName.isSome = true := by
  cases h with
  | without hhistory hplot =>
    rw [hplot]
    refine iff_of_false Bool.false_ne_true ?_
    rintro ⟨e, he, hsome⟩
    rw [hhistory e he] at hsome
    cases hsome
  | plotted earlier later line name samples hhistory hlater hplot h =>
    rw [hplot, hhistory]
    exact iff_of_true rfl ⟨.ofPlot line name, List.mem_append_right _ (.head _), rfl⟩

end SavedState.Labelled

/-- The label is that of the last plot. -/
theorem Repl.plotLabel_append {earlier later : List HistoryEntry} (line name : String)
    (hlater : ∀ e ∈ later, e.plotName = none) :
    plotLabel (earlier ++ .ofPlot line name :: later) = .string name := by
  have hnone : later.reverse.findSome? (·.plotName) = none :=
    List.findSome?_eq_none_iff.2 fun e he => hlater e (List.mem_reverse.1 he)
  rw [plotLabel, List.reverse_append, List.reverse_cons, List.append_assoc, List.findSome?_append,
    hnone]
  rfl

/-! ## Runs of lines and actions -/

/-- What reaches a session: a line of the conversation, or anything else that is asked for. -/
inductive Event where
  | line (text : String)
  | action (a : Action)

namespace Repl

/-- The conversation after an event. -/
def take (r : Repl) : Event → Repl
  | .line text => (r.process text).1
  | .action a => { r with desk := (r.desk.act a).1 }

/-- The conversation after events, one after the other. -/
def takeAll (r : Repl) (events : List Event) : Repl :=
  events.foldl take r

theorem takeAll_append_singleton (r : Repl) (events : List Event) (event : Event) :
    r.takeAll (events ++ [event]) = (r.takeAll events).take event := by
  rw [takeAll, List.foldl_append]
  rfl

/-- **What an event does to what is saved.** It is forgotten, or changed as a line asks for, if one
is submitted. -/
theorem toState_take (r : Repl) (event : Event) :
    (r.take event).desk.session.toState = SavedState.empty ∨
      ∃ submitted, (r.take event).desk.session.toState
        = (r.desk.changeOf submitted).apply r.desk.session.toState := by
  have hidle : r.desk.session.toState = (r.desk.changeOf none).apply r.desk.session.toState :=
    (Change.apply_nothing _).symm
  cases event with
  | line text =>
    rw [take]
    rcases r.process_cases text with h | h | h | h <;> rw [h]
    · exact .inr ⟨none, hidle⟩
    · exact .inr ⟨none, hidle⟩
    · exact .inl rfl
    · exact .inr ⟨_, r.desk.toState_submitLine _⟩
  | action a =>
    by_cases ha : a = .clear
    · subst ha
      exact .inl rfl
    · exact .inr ⟨_, Desk.toState_act ha⟩

theorem limits_take (r : Repl) (event : Event) : (r.take event).desk.limits = r.desk.limits := by
  cases event with
  | line text =>
    have htake : (r.take (.line text)).desk = (r.process text).1.desk := rfl
    rw [htake]
    rcases r.process_cases text with h | h | h | h
    · rw [h]
    · rw [h]
      rfl
    · rw [h]
      rfl
    · rw [h]
      exact r.desk.limits_submitLine _
  | action a => exact r.desk.limits_act a

theorem limits_takeAll (r : Repl) (events : List Event) :
    (r.takeAll events).desk.limits = r.desk.limits := by
  induction events generalizing r with
  | nil => rfl
  | cons event events ih => exact (ih _).trans (r.limits_take event)

/-- Whether an event, coming after others, is the one that records a line as plotted over a name,
and these are the samples of the line's tokens over that name among the variables of the time. -/
structure Plots (start : Repl) (before : List Event) (event : Event) (line name : String)
    (samples : List (Float × Float)) : Prop where
  recorded : (start.takeAll (before ++ [event])).desk.session.history
    = (start.takeAll before).desk.session.history ++ [.ofPlot line name]
  free : IsPlotLine (start.takeAll before).desk.session.environment line name
  sampled : Plot.samples start.desk.limits.depth
    (start.takeAll before).desk.session.environment.value? name (Token.ofText line)
    start.desk.limits.domain = .ok samples

/-- **What an event records as plotted it has plotted.** -/
theorem plots_of_changeOf {start : Repl} {before : List Event} {event : Event}
    {submitted : Option String} {line name : String} {samples : List (Float × Float)}
    (hstate : ((start.takeAll before).take event).desk.session.toState
      = ((start.takeAll before).desk.changeOf submitted).apply
          (start.takeAll before).desk.session.toState)
    (hchange : (start.takeAll before).desk.changeOf submitted = .plot line name samples) :
    Plots start before event line name samples := by
  obtain ⟨rfl, hplotted⟩ := Desk.changeOf_eq_plot_iff.1 hchange
  obtain ⟨hfree, hsamples⟩ := Outcome.ofLine_eq_plotted_iff.1 hplotted
  rw [limits_takeAll] at hsamples
  rw [hchange, ← takeAll_append_singleton] at hstate
  exact ⟨congrArg SavedState.history hstate, hfree, hsamples⟩

/-- **A run keeps samples and history together**, if it starts from nothing. The samples that there
are were taken by the event that recorded the last plot. -/
theorem labelled_takeAll (start : Repl) (hstart : start.desk.session.toState = SavedState.empty)
    (events : List Event) :
    (start.takeAll events).desk.session.toState.Labelled fun earlier line name samples =>
      ∃ before event after, events = before ++ event :: after ∧
        (start.takeAll before).desk.session.history = earlier ∧
        Plots start before event line name samples := by
  induction events using List.reverseRecOn with
  | nil =>
    have hnothing : (start.takeAll []).desk.session.toState = SavedState.empty := hstart
    rw [hnothing]
    exact .empty
  | append_singleton events event ih =>
    rw [takeAll_append_singleton]
    rcases (start.takeAll events).toState_take event with hcleared | ⟨submitted, hstate⟩
    · rw [hcleared]
      exact .empty
    · rw [hstate]
      -- what was plotted before has one more event behind it; what is plotted now has none
      refine (ih.mono fun earlier line name samples h => ?_).apply
        fun line name samples hchange => ?_
      · obtain ⟨before, plotting, after, rfl, hbefore, hplots⟩ := h
        have hevents : before ++ plotting :: after ++ [event]
            = before ++ plotting :: (after ++ [event]) := by
          rw [List.append_assoc, List.cons_append]
        exact ⟨before, plotting, after ++ [event], hevents, hbefore, hplots⟩
      · exact ⟨events, event, [], rfl, rfl, plots_of_changeOf hstate hchange⟩

/-- **The samples are shown under the name that they were taken over.** In any run of lines and
actions that began with nothing saved, there are samples exactly if there is a plot in the history.
They are then those of the last one: some event recorded it, and took them of its line, over its
name, among the variables of the time; nothing behind it in the history was plotted; and its name is
the label that `plot` finds. -/
theorem plotLabel_takeAll (store : Store) (autosave : Bool) (limits : Limits) (precision : Int)
    (logLevel : Nat) (events : List Event) :
    let desk : Desk := ⟨Session.ofState SavedState.empty, store, autosave, limits⟩
    let start := ofDesk desk precision logLevel
    let session := (start.takeAll events).desk.session
    (session.plot.isSome = true ↔ ∃ e ∈ session.history, e.plotName.isSome = true) ∧
      ∀ samples, session.plot = some samples →
        ∃ before event after line name later,
          events = before ++ event :: after ∧ Plots start before event line name samples ∧
          session.history
            = (start.takeAll before).desk.session.history ++ .ofPlot line name :: later ∧
          (∀ e ∈ later, e.plotName = none) ∧
          plotLabel session.history = .string name := by
  intro desk start session
  have hlabelled := labelled_takeAll start rfl events
  refine ⟨hlabelled.isSome_plot_iff, fun samples hsamples => ?_⟩
  cases hlabelled with
  | without hhistory hplot => cases hplot.symm.trans hsamples
  | plotted earlier later line name samples' hhistory hlater hplot hmade =>
    obtain rfl : samples' = samples := Option.some.inj (hplot.symm.trans hsamples)
    obtain ⟨before, event, after, hevents, rfl, hplots⟩ := hmade
    refine ⟨before, event, after, line, name, later, hevents, hplots, hhistory, hlater, ?_⟩
    exact (congrArg plotLabel hhistory).trans (plotLabel_append line name hlater)

/-- A conversation from nothing, over one point. -/
def atOnePoint : Repl :=
  ofDesk ⟨Session.ofState SavedState.empty, .homeless, true, ⟨100, [0]⟩⟩ 6 Log.warning

/-- A plot that is forgotten, another one, and lines that are no plots behind it. -/
def plotted : List Event :=
  [.action (.line "2x"), .action .clear, .action (.line "3z"), .action (.line "z=1"),
    .action (.line "1/")]

/-- The samples are those over `z`, which has a value by now. -/
theorem plotLabel_plotted : ∃ samples before event line,
    (atOnePoint.takeAll plotted).desk.session.plot = some samples ∧
      Plots atOnePoint before event line "z" samples ∧
      plotLabel (atOnePoint.takeAll plotted).desk.session.history = .string "z" := by
  have hlabel : plotLabel (atOnePoint.takeAll plotted).desk.session.history = .string "z" := rfl
  obtain ⟨samples, hsamples⟩ : ∃ samples,
      (atOnePoint.takeAll plotted).desk.session.plot = some samples := ⟨_, rfl⟩
  obtain ⟨-, hplotted⟩ := plotLabel_takeAll .homeless true ⟨100, [0]⟩ 6 Log.warning plotted
  obtain ⟨before, event, after, line, name, later, -, hplots, -, -, hname⟩ :=
    hplotted samples hsamples
  obtain rfl : name = "z" := Json.string.inj (hname.symm.trans hlabel)
  exact ⟨samples, before, event, line, hsamples, hplots, hlabel⟩

end Repl

end LineCalc
