import LineCalc.Proofs.Change
/-!
# LineCalc — lines that are recalled

The lists fetch back lines that were accepted once. Since then the variables may have got other
values and other definitions, so the line can come to something else; it stays accepted, and as the
same kind of line. What counts is which names are bound, and a name is never lost but together with
the whole history. `SavedState.Replays` says this of what is saved: every definition is an
assignment to its name over the variables there are now, and every line with a result an expression
without unbound names. One change keeps it (`Replays.apply`), and so does any run of actions
(`Desk.replays_actAll`).
-/

namespace LineCalc

open Grammar

variable {limit : Int} {env : Environment Float} {s : SavedState} {d : Desk}

/-- A name that was bound is bound after a definition. -/
theorem Environment.isSome_value?_set {name other : String} (definition : Definition Float)
    (h : (env.value? other).isSome) : ((env.set name definition).value? other).isSome := by
  have hbound := congrFun (Plot.isSome_bind env.value? name definition.value) other
  rw [h, Bool.or_true] at hbound
  rw [value?_set]
  exact hbound

/-! ## What is saved -/

/-- Whether a line is an expression with a value. -/
def HasValue (limit : Int) (env : Environment Float) (line : String) : Prop :=
  Text.isBlankText line = false ∧ IsExpressionLine limit env.value? (Token.ofText line) ∧
    ∀ n, ¬ Unbound env.value? (Token.ofText line) n

/-- Whether a line gives a name its value. -/
def Defines (limit : Int) (env : Environment Float) (line name : String) : Prop :=
  Text.isBlankText line = false ∧ IsAssignmentLine limit env.value? (Token.ofText line) name

/-- **What is saved can be submitted again.** -/
structure SavedState.Replays (limit : Int) (s : SavedState) : Prop where
  definition : ∀ e ∈ s.environment.entries, Defines limit s.environment e.2.expression e.1
  result : ∀ e ∈ s.history, e.result.isSome → HasValue limit s.environment e.expression

section

variable {line name : String} {definition : Definition Float}

theorem HasValue.set (h : HasValue limit env line) :
    HasValue limit (env.set name definition) line :=
  ⟨h.1, h.2.1.mono (fun _ => Environment.isSome_value?_set definition) h.2.2⟩

theorem Defines.set {other : String} (h : Defines limit env line other) :
    Defines limit (env.set name definition) line other :=
  ⟨h.1, h.2.mono fun _ => Environment.isSome_value?_set definition⟩

end

namespace SavedState.Replays

/-- Nothing saved is nothing to submit. -/
theorem empty : SavedState.empty.Replays limit :=
  ⟨List.forall_mem_nil _, List.forall_mem_nil _⟩

/-- **A line that is submitted keeps what can be submitted again**, whatever it comes to. -/
theorem apply (h : s.Replays limit) {line : String} (hline : Text.isBlankText line = false)
    (domain : List Float) :
    ((Change.ofOutcome line (Outcome.ofLine limit s.environment domain line)).apply s).Replays
      limit := by
  -- an entry without a result at the end asks for nothing
  have hwithout : ∀ e : HistoryEntry, e.result = none → ∀ e' ∈ s.history ++ [e],
      e'.result.isSome → HasValue limit s.environment e'.expression := by
    intro e he e' he' hsome
    rcases List.mem_append.1 he' with hold | hnew
    · exact h.result e' hold hsome
    · rw [List.mem_singleton.1 hnew, he] at hsome
      cases hsome
  cases ho : Outcome.ofLine limit s.environment domain line with
  | value v =>
    have hvalue : HasValue limit s.environment line :=
      ⟨hline, Outcome.exists_ofLine_eq_value_iff.1 ⟨v, ho⟩⟩
    refine ⟨h.definition, ?_⟩
    intro e he hsome
    rcases List.mem_append.1 he with hold | hnew
    · exact h.result e hold hsome
    · rw [List.mem_singleton.1 hnew]
      exact hvalue
  | assigned name v =>
    have hdefines : Defines limit s.environment line name :=
      ⟨hline, Outcome.exists_ofLine_eq_assigned_iff.1 ⟨v, ho⟩⟩
    refine ⟨?_, ?_⟩
    · intro e he
      rcases Entries.mem_set he with rfl | hold
      · exact hdefines.set
      · exact (h.definition e hold).set
    · intro e he hsome
      have hold : e ∈ s.history := by
        simpa [Change.apply, Change.ofOutcome, Change.entries] using he
      exact (h.result e hold hsome).set
  | plotted name samples => exact ⟨h.definition, hwithout (.ofPlot line name) rfl⟩
  | failed error names => exact ⟨h.definition, hwithout (.ofError line error.message) rfl⟩

end SavedState.Replays

/-! ## Runs -/

namespace Desk

/-- No blank line is submitted. -/
theorem isBlankText_of_submission? {a : Action} {line : String} (h : d.submission? a = some line) :
    Text.isBlankText line = false := by
  have hnonblank : ∀ text, nonblank? text = some line → Text.isBlankText line = false := by
    intro text htext
    obtain ⟨hline, rfl⟩ := nonblank?_eq_some_iff.1 htext
    exact hline
  cases a with
  | line text => exact hnonblank text h
  | submit => exact hnonblank _ h
  | key key =>
    simp only [submission?] at h
    split at h
    · exact hnonblank _ h
    · cases h
  | _ => cases h

/-- **An action keeps what can be submitted again.** -/
theorem replays_act (h : d.session.toState.Replays d.limits.depth) (a : Action) :
    (d.act a).1.session.toState.Replays d.limits.depth := by
  by_cases ha : a = .clear
  · subst ha
    exact SavedState.Replays.empty
  · rw [toState_act ha, change]
    cases hsubmission : d.submission? a with
    | none =>
      rw [changeOf, Change.apply_nothing]
      exact h
    | some line => exact h.apply (isBlankText_of_submission? hsubmission) d.limits.domain

theorem replays_actAll (h : d.session.toState.Replays d.limits.depth) (actions : List Action) :
    (d.actAll actions).session.toState.Replays d.limits.depth := by
  induction actions generalizing d with
  | nil => exact h
  | cons a actions ih =>
    have hact := replays_act h a
    rw [← d.limits_act a] at hact ⊢
    exact ih hact

/-- What a submitted line is answered with. -/
theorem submitLine_snd {line : String} (hline : Text.isBlankText line = false) (d : Desk) :
    (d.submitLine line).2 = some (d.evaluate line) := by
  have htext : ((d.update (·.setLine line)).session).line = line := String.ofList_toList
  have hevaluate := evaluate_update (d := d) (f := (·.setLine line)) (d.session.toState_setLine line) line
  simp only [submitLine, submit, htext, hline, Bool.false_eq_true, if_false, hevaluate]

/-- **Lines that are recalled stay valid.** After any run of actions that began with nothing saved,
the line of every definition is an assignment to its name, and every line with a result in the
history has a value; so they are when they are submitted once more. -/
theorem evaluate_recalled (store : Store) (autosave : Bool) (limits : Limits)
    (actions : List Action) :
    let d := actAll ⟨Session.ofState SavedState.empty, store, autosave, limits⟩ actions
    (∀ name definition, d.session.environment.find? name = some definition →
      ∃ v, d.evaluate definition.expression = .assigned name v ∧
        (d.submitLine definition.expression).2 = some (.assigned name v)) ∧
    (∀ e ∈ d.session.history, e.result.isSome →
      ∃ v, d.evaluate e.expression = .value v ∧
        (d.submitLine e.expression).2 = some (.value v)) := by
  intro d
  have hlimits : d.limits = limits := limits_actAll _ actions
  have hreplays : d.session.toState.Replays d.limits.depth := by
    rw [hlimits]
    exact replays_actAll (d := ⟨Session.ofState SavedState.empty, store, autosave, limits⟩)
      SavedState.Replays.empty actions
  refine ⟨?_, ?_⟩
  · intro name definition hfind
    obtain ⟨hline, hassign⟩ := hreplays.definition (name, definition) (Entries.mem_of_find? hfind)
    have hassigned : ∃ v, d.evaluate definition.expression = .assigned name v :=
      Outcome.exists_ofLine_eq_assigned_iff.2 hassign
    obtain ⟨v, hv⟩ := hassigned
    exact ⟨v, hv, (submitLine_snd hline d).trans (congrArg some hv)⟩
  · intro e he hsome
    obtain ⟨hline, hvalue⟩ := hreplays.result e he hsome
    have hresult : ∃ v, d.evaluate e.expression = .value v :=
      Outcome.exists_ofLine_eq_value_iff.2 hvalue
    obtain ⟨v, hv⟩ := hresult
    exact ⟨v, hv, (submitLine_snd hline d).trans (congrArg some hv)⟩

/-- A name defined twice, the second time by itself, and a result with it. -/
def redefined : Desk :=
  actAll ⟨Session.ofState SavedState.empty, .homeless, true, ⟨100, []⟩⟩
    [.line "x=1", .line "x=x+1", .line "x+1"]

/-- Over the name's new value both lines are what they were. -/
theorem evaluate_redefined :
    (∃ definition, redefined.session.environment.find? "x" = some definition) ∧
      (∃ v, (redefined.submitLine "x=x+1").2 = some (.assigned "x" v)) ∧
      ∃ v, (redefined.submitLine "x+1").2 = some (.value v) := by
  obtain ⟨definition, hfind, hexpression⟩ : ∃ definition,
      redefined.session.environment.find? "x" = some definition ∧
        definition.expression = "x=x+1" := ⟨_, rfl, rfl⟩
  obtain ⟨x, hhistory⟩ : ∃ x, redefined.session.history = [.ofResult "x+1" x] := ⟨_, rfl⟩
  have hmem : HistoryEntry.ofResult "x+1" x ∈ redefined.session.history := by
    rw [hhistory]
    exact List.mem_singleton.2 rfl
  obtain ⟨hdefinitions, hresults⟩ := evaluate_recalled .homeless true ⟨100, []⟩
    [.line "x=1", .line "x=x+1", .line "x+1"]
  obtain ⟨v, -, hassigned⟩ := hdefinitions "x" definition hfind
  obtain ⟨w, -, hvalue⟩ := hresults _ hmem rfl
  rw [hexpression] at hassigned
  exact ⟨⟨definition, hfind⟩, ⟨v, hassigned⟩, w, hvalue⟩

end Desk

end LineCalc
