import LineCalc.Proofs.Change
import LineCalc.Proofs.Results
import LineCalc.Screen.Basic
/-!
# LineCalc — a conversation on a screen

A frame can be drawn of every session that has something to show for each entry of its history, as
long as digits are counted within bounds (`exists_draw_eq_ok`). No key records an entry with nothing
to show (`filled_react`). A conversation that is not interrupted comes to its end if each desk on the
way can be drawn, whatever it is drawn on (`exists_talk_eq_ok`). Drawing has no part in what becomes of
the desk: it is the one that the inputs make, one after the other (`desk_talk`).
-/

namespace LineCalc

/-! ## Numbers and entries -/

namespace Report

variable {precision : Int}

/-- Whether numbers can be shown with so many digits. -/
def IsPrecision (precision : Int) : Prop :=
  0 ≤ precision ∧ precision ≤ maxPrecision

theorem exists_number_eq_ok (h : IsPrecision precision) (x : Float) :
    ∃ s, number precision x = .ok s := by
  have hbounds : ¬ (precision < 0 ∨ maxPrecision < precision) := by
    obtain ⟨hlow, hhigh⟩ := h
    omega
  unfold number
  split
  · exact ⟨_, rfl⟩
  · exact ⟨_, rfl⟩
  · split
    · exact ⟨_, rfl⟩
    · rw [if_neg hbounds]
      exact ⟨_, rfl⟩

theorem exists_definition_eq_ok (h : IsPrecision precision) (name : String) (x : Float) :
    ∃ s, definition precision name x = .ok s :=
  exists_bind_eq_ok (exists_number_eq_ok h x) fun _ => ⟨_, rfl⟩

/-- **Every entry can be shown that something came of.** -/
theorem exists_entry_eq_ok (h : IsPrecision precision) {e : HistoryEntry} (he : e.isVoid = false) :
    ∃ s, entry precision e = .ok s := by
  unfold entry
  cases herror : e.error with
  | some error => exact ⟨_, rfl⟩
  | none =>
    cases hname : e.plotName with
    | some name => exact ⟨_, rfl⟩
    | none =>
      cases hresult : e.result with
      | some x => exact exists_bind_eq_ok (exists_number_eq_ok h x) fun _ => ⟨_, rfl⟩
      | none => simp [HistoryEntry.isVoid, herror, hname, hresult] at he

end Report

/-! ## Frames -/

/-- A name that is there is found. -/
theorem Entries.exists_find?_eq_some {α : Type} {name : String} {entries : List (String × α)}
    (h : name ∈ names entries) : ∃ a, find? name entries = some a := by
  induction entries with
  | nil => cases h
  | cons p rest ih =>
    obtain ⟨n, b⟩ := p
    rw [find?]
    split
    · exact ⟨b, rfl⟩
    · next hne =>
      have hname : name = n ∨ name ∈ names rest := List.mem_cons.1 h
      exact ih (hname.resolve_left (Ne.symm hne))

namespace Environment

variable {V : Type} {env : Environment V} {name : String}

/-- The names by their code points are the names. -/
theorem sortedNames_perm (env : Environment V) : env.sortedNames.Perm env.names :=
  List.mergeSort_perm _ _

theorem exists_find?_of_mem_sortedNames (h : name ∈ env.sortedNames) :
    ∃ definition, env.find? name = some definition :=
  Entries.exists_find?_eq_some (env.sortedNames_perm.mem_iff.1 h)

theorem exists_value?_of_mem_sortedNames (h : name ∈ env.sortedNames) :
    ∃ x, env.value? name = some x := by
  obtain ⟨definition, hfind⟩ := exists_find?_of_mem_sortedNames h
  refine ⟨definition.value, ?_⟩
  rw [value?, hfind]
  rfl

end Environment

namespace Screen

variable {precision : Int} {surface : Surface} {s : Session}

theorem exists_drawHistory_eq_ok (h : Report.IsPrecision precision) (surface : Surface)
    (hfilled : ∀ e ∈ s.history, e.isVoid = false) :
    ∃ writes, drawHistory precision surface s = .ok writes := by
  refine exists_bind_eq_ok (exists_mapM_eq_ok_iff.2 ?_) fun _ => ⟨_, rfl⟩
  rintro ⟨e, i⟩ hmem
  have hnewest : e ∈ s.newestFirst := List.mem_of_mem_take (List.fst_mem_of_mem_zipIdx hmem)
  have he := hfilled e (List.mem_reverse.1 hnewest)
  exact exists_bind_eq_ok (Report.exists_entry_eq_ok h he) fun _ => ⟨_, rfl⟩

theorem exists_drawVariables_eq_ok (h : Report.IsPrecision precision) (surface : Surface)
    (s : Session) : ∃ writes, drawVariables precision surface s = .ok writes := by
  refine exists_bind_eq_ok (exists_mapM_eq_ok_iff.2 ?_) fun _ => ⟨_, rfl⟩
  rintro ⟨name, i⟩ hmem
  have hname : name ∈ s.environment.sortedNames := List.fst_mem_of_mem_zipIdx hmem
  obtain ⟨x, hx⟩ := Environment.exists_value?_of_mem_sortedNames hname
  simp only [hx]
  exact exists_bind_eq_ok (Report.exists_definition_eq_ok h name x) fun _ => ⟨_, rfl⟩

theorem exists_drawSamples_eq_ok (h : Report.IsPrecision precision) (surface : Surface)
    (s : Session) : ∃ writes, drawSamples precision surface s = .ok writes := by
  unfold drawSamples
  dsimp only
  split
  · exact ⟨_, rfl⟩
  · refine exists_bind_eq_ok (exists_mapM_eq_ok_iff.2 ?_) fun _ => ⟨_, rfl⟩
    rintro ⟨⟨x, y⟩, i⟩ -
    refine exists_bind_eq_ok (Report.exists_number_eq_ok h x) fun _ => ?_
    exact exists_bind_eq_ok (Report.exists_number_eq_ok h y) fun _ => ⟨_, rfl⟩

/-- **Every session can be drawn** that has something to show for each entry of its history. -/
theorem exists_draw_eq_ok (h : Report.IsPrecision precision) (surface : Surface)
    (hfilled : ∀ e ∈ s.history, e.isVoid = false) :
    ∃ frame, draw precision surface s = .ok frame := by
  refine exists_bind_eq_ok (exists_drawHistory_eq_ok h surface hfilled) fun _ => ?_
  refine exists_bind_eq_ok (exists_drawVariables_eq_ok h surface s) fun _ => ?_
  exact exists_bind_eq_ok (exists_drawSamples_eq_ok h surface s) fun _ => ⟨_, rfl⟩

end Screen

/-! ## Conversations -/

/-- **A key keeps a history with something to show for each entry.** -/
theorem Desk.filled_press {d : Desk} (h : ∀ e ∈ d.session.history, e.isVoid = false) (key : Key) :
    ∀ e ∈ (d.press key).1.session.history, e.isVoid = false := by
  have hhistory : (d.press key).1.session.history
      = d.session.history ++ (d.change (.key key)).entries :=
    congrArg SavedState.history (d.toState_press key)
  rw [hhistory]
  exact List.forall_mem_append.2 ⟨h, (d.change (.key key)).isVoid_of_mem_entries⟩

namespace Screen

variable {precision : Int} {surface : Surface} {d d' : Desk} {inputs : List TerminalInput}
variable {frames : List Frame}

theorem filled_react (h : ∀ e ∈ d.session.history, e.isVoid = false) (input : TerminalInput) :
    ∀ e ∈ (react d input).session.history, e.isVoid = false := by
  unfold react
  split
  · exact Desk.filled_press h _
  · exact h

section

variable {ε : Type} {draw : Session → Except ε Frame}

/-- **What becomes of the desk.** A conversation that is not interrupted leaves the desk that its
inputs make, whatever is drawn. -/
theorem desk_talk (hinputs : ∀ input ∈ inputs, input.isInterrupt = false)
    (h : talk draw d inputs = .ok (frames, d')) : d' = inputs.foldl react d := by
  induction inputs generalizing d frames with
  | nil =>
    obtain ⟨frame, -, h⟩ := bind_eq_ok_iff.1 h
    cases h
    rfl
  | cons input rest ih =>
    obtain ⟨hinput, hrest⟩ := List.forall_mem_cons.1 hinputs
    rw [talk, hinput] at h
    obtain ⟨frame, -, h⟩ := bind_eq_ok_iff.1 h
    obtain ⟨⟨later, last⟩, htalk, h⟩ := bind_eq_ok_iff.1 h
    cases h
    exact ih hrest htalk

/-- **A conversation that is not interrupted comes to its end**, if each desk on the way to it can be
drawn. -/
theorem exists_talk_eq_ok {p : Desk → Prop} (hdraw : ∀ d, p d → ∃ frame, draw d.session = .ok frame)
    (hreact : ∀ d input, p d → p (react d input))
    (hinputs : ∀ input ∈ inputs, input.isInterrupt = false) (h : p d) :
    ∃ frames, talk draw d inputs = .ok (frames, inputs.foldl react d) := by
  induction inputs generalizing d with
  | nil =>
    obtain ⟨frame, hframe⟩ := hdraw d h
    rw [talk, hframe]
    exact ⟨[frame], rfl⟩
  | cons input rest ih =>
    obtain ⟨hinput, hrest⟩ := List.forall_mem_cons.1 hinputs
    obtain ⟨frame, hframe⟩ := hdraw d h
    obtain ⟨frames, hframes⟩ := ih hrest (hreact d input h)
    rw [talk, hframe, hinput, hframes]
    exact ⟨frame :: frames, rfl⟩

end

end Screen

end LineCalc
