import LineCalc.Proofs.Invariant
import LineCalc.Proofs.Resaving
/-!
# LineCalc — saving is of no account to a session

Two desks are `Alike` if they have the same session and the same limits, wherever they save, if
they do, and whatever has become of that place. An action does the same on both, and gives the same
back (`Alike.act`): the store is written at the end of a submitted line and is not looked at before
or after (`store_act`). So two runs of the same actions show the same from beginning to end, while the
places they save in are taken away, blocked or filled by others in between, and a state that cannot be
written is no more than not written (`save_eq_self`).

That is so as long as there is room to write the state. An action that runs out of it is broken off at
its save: the session is what it would be, and what the action would have given back is lost. Sessions
bring no levels of their own (`keptByActions_shallow`), so that happens only to a state that was loaded
with a value of many levels in an entry (`shown_eq`); and to such a one it does happen, however much
room there is (`not_exists_shown_eq`).
-/

namespace LineCalc

/-- A store that cannot be written stays as it was. -/
theorem Store.snd_write_of_error {store : Store} {s : SavedState} {e : StateError}
    (h : (store.write s).1 = .error e) : (store.write s).2 = store := by
  cases store with
  | homeless => rfl
  | blocked directory => rfl
  | folder directory slot =>
    simp only [write] at h ⊢
    cases hflaw : s.toJson.flaw? with
    | some flaw => rfl
    | none =>
      rw [hflaw] at h
      cases slot with
      | directory => rfl
      | missing => cases h
      | file bytes => cases h

namespace Desk

variable {d d' : Desk}

/-! ## Desks that differ in how they save -/

/-- Whether two desks differ at most in where they save and whether they do by themselves. -/
structure Alike (d d' : Desk) : Prop where
  session : d.session = d'.session
  limits : d.limits = d'.limits

/-- Whether an action left two desks alike and gave the same back. -/
structure SameAct {α : Type} (p p' : Desk × α) : Prop where
  alike : Alike p.1 p'.1
  back : p.2 = p'.2

theorem SameAct.map {α β : Type} {p p' : Desk × α} (h : SameAct p p') (f : α → β) :
    SameAct (p.1, f p.2) (p'.1, f p'.2) :=
  ⟨h.alike, congrArg f h.back⟩

namespace Alike

theorem update (h : Alike d d') (f : Session → Session) : Alike (d.update f) (d'.update f) :=
  ⟨congrArg f h.session, h.limits⟩

/-- Saving by oneself or not comes to the same. -/
theorem autosaved (h : Alike d d') :
    Alike (if d.autosave then d.save else d) (if d'.autosave then d'.save else d') := by
  split <;> split <;> exact ⟨h.session, h.limits⟩

theorem evaluate_eq (h : Alike d d') (line : String) : d.evaluate line = d'.evaluate line := by
  rw [evaluate, evaluate, h.session, h.limits]

/-- **A submitted line comes to the same**: it is evaluated and recorded before anything is saved.
-/
theorem submit (h : Alike d d') : SameAct d.submit d'.submit := by
  have hline : d'.session.line = d.session.line := congrArg Session.line h.session.symm
  simp only [Desk.submit, hline, h.evaluate_eq]
  split
  · exact ⟨h, rfl⟩
  · exact ⟨(h.update _).autosaved, rfl⟩

theorem submitLine (h : Alike d d') (line : String) :
    SameAct (d.submitLine line) (d'.submitLine line) :=
  (h.update (·.setLine line)).submit

theorem obey (h : Alike d d') (key : Key) (c : Command) : Alike (d.obey key c) (d'.obey key c) := by
  cases c with
  | none =>
    simp only [Desk.obey]
    split
    · exact h.update (·.recallLast.1)
    · exact h
  | submit => exact h.submit.alike
  | exitInput => exact h.update (·.focusOn .history)
  | focusNext => exact h.update (·.cycle 1)
  | focusPrevious => exact h.update (·.cycle (-1))
  | yanked first last => exact h.update fun s => { s with lastYank := some (first, last) }

/-- **A key does the same**, in the line as in the lists. -/
theorem press (h : Alike d d') (key : Key) : SameAct (d.press key) (d'.press key) := by
  simp only [Desk.press, h.session]
  split
  · exact ⟨(h.update _).obey key _, rfl⟩
  · exact ⟨h.update (·.pressInList key), rfl⟩

/-- **Every action does.** -/
theorem act (h : Alike d d') (a : Action) : SameAct (d.act a) (d'.act a) := by
  cases a with
  | key key =>
    simp only [Desk.act]
    exact (h.press key).map Reply.command
  | line text =>
    simp only [Desk.act]
    exact (h.submitLine text).map Reply.outcome
  | submit =>
    simp only [Desk.act]
    exact h.submit.map Reply.outcome
  | save => exact ⟨⟨h.session, h.limits⟩, rfl⟩
  | setLine text => exact ⟨h.update (·.setLine text), rfl⟩
  | focus f => exact ⟨h.update (·.focusOn f), rfl⟩
  | cycle steps => exact ⟨h.update (·.cycle steps), rfl⟩
  | move rows => exact ⟨h.update (·.moveSelection rows), rfl⟩
  | clear => exact ⟨h.update (·.clear), rfl⟩
  | recallLast =>
    simp only [Desk.act, h.session]
    exact ⟨⟨rfl, h.limits⟩, rfl⟩
  | recallSelected =>
    simp only [Desk.act, h.session]
    exact ⟨⟨rfl, h.limits⟩, rfl⟩

end Alike

/-! ## Where a save is made -/

/-- A desk that saves by itself leaves the state that it has. -/
theorem autosaved_eq (d : Desk) : (if d.autosave then d.save else d)
    = { d with store := if d.autosave then (d.store.write d.session.toState).2 else d.store } := by
  by_cases hauto : d.autosave = true
  · rw [if_pos hauto, if_pos hauto, save]
  · rw [if_neg hauto, if_neg hauto]

theorem store_submit (d : Desk) : d.submit.1.store = if d.lineSaves d.session.line
    then (d.store.write d.submit.1.session.toState).2 else d.store := by
  simp only [Desk.submit, lineSaves, autosaved_eq]
  split
  · next hblank => simp only [hblank, Bool.not_true, Bool.and_false, if_neg Bool.false_ne_true]
  · next hblank =>
    simp only [Bool.eq_false_iff.2 hblank, Bool.not_false, Bool.and_true]
    rfl

theorem store_obey {c : Command} (hc : c ≠ .submit) (d : Desk) (key : Key) :
    (d.obey key c).store = d.store := by
  cases c with
  | none =>
    simp only [Desk.obey]
    split <;> rfl
  | submit => exact absurd rfl hc
  | _ => rfl

theorem store_press (d : Desk) (key : Key) : (d.press key).1.store = if d.keySaves key
    then (d.store.write (d.press key).1.session.toState).2 else d.store := by
  by_cases hfocus : d.session.focus = .input
  · by_cases hcommand : (d.session.editor.press key).2 = .submit
    · have hpress := Editor.press_of_submits (Editor.submits_of_command hcommand)
      simp only [Desk.press, keySaves, hfocus, hpress, Desk.obey, decide_true, Bool.true_and]
      exact d.store_submit
    · simp only [Desk.press, keySaves, hfocus, hcommand, decide_false, Bool.and_false,
        Bool.false_and, if_neg Bool.false_ne_true]
      exact store_obey hcommand _ key
  · simp only [Desk.press, keySaves, hfocus, decide_false, Bool.false_and,
      if_neg Bool.false_ne_true]
    rfl

/-- **An action saves the state that it leaves, or leaves the store alone.** -/
theorem store_act (d : Desk) (a : Action) : (d.act a).1.store = if d.saves a
    then (d.store.write (d.act a).1.session.toState).2 else d.store := by
  cases a with
  | key key =>
    rw [act_key, saves]
    exact d.store_press key
  | line text =>
    have hline : (d.update (·.setLine text)).session.line = text := String.ofList_toList
    have hsubmit := (d.update (·.setLine text)).store_submit
    rw [hline] at hsubmit
    rw [act_line, saves]
    exact hsubmit
  | submit =>
    rw [act_submit, saves]
    exact d.store_submit
  | save => rfl
  | _ => rfl

/-- **A state that cannot be written is not written**, and that is all. -/
theorem save_eq_self {e : StateError} (h : (d.store.write d.session.toState).1 = .error e) :
    d.save = d := by
  rw [save, Store.snd_write_of_error h]

/-! ## Actions that are broken off -/

/-- **An action that is broken off has done all but its save.** -/
theorem actWithin_of_exhausts {room : Nat} {a : Action} (h : d.exhausts room a = true) :
    d.actWithin room a = ({ (d.act a).1 with store := d.store }, none) := by
  simp only [actWithin, h, if_true]

/-- **With enough room it is what it is.** -/
theorem actWithin_of_not_exhausts {room : Nat} {a : Action} (h : d.exhausts room a = false) :
    d.actWithin room a = ((d.act a).1, some (d.act a).2) := by
  simp only [actWithin, h, if_neg Bool.false_ne_true]

end Desk

/-- Whether no entry carries a value of more than so many levels. -/
def SavedState.IsShallow (n : Nat) (s : SavedState) : Prop :=
  ∀ e ∈ s.history, e.Carries fun v => v.nesting ≤ n

namespace Desk

variable {d d' : Desk}

/-- **No action brings levels of its own**, since what is recorded are texts. -/
theorem keptByActions_shallow (n : Nat) : KeptByActions fun s => s.toState.IsShallow n :=
  .of_apply (fun c _ h => List.forall_mem_append.2
    ⟨h, fun e he => (c.hasTexts_of_mem_entries e he).carries fun _ => Nat.zero_le n⟩)
    (List.forall_mem_nil _)

/-- **Where the entries are shallow, no action is broken off.** -/
theorem exhausts_eq_false {n room : Nat} (h : d.session.toState.IsShallow n) (hroom : n + 3 ≤ room)
    (a : Action) : d.exhausts room a = false := by
  have hafter := SavedState.nesting_toJson_le_iff.2 ((keptByActions_shallow n).act h a)
  rw [exhausts, d.store.exhausts_eq_false (hafter.trans hroom), Bool.and_false]

/-! ## Runs -/

/-- A step of a run: what has become meanwhile of the place to save in, if it was changed by
others, how much room there is to write in, and an action. -/
structure Turn where
  place : Option Store
  room : Nat
  action : Action

/-- The desk when others have been at its store. -/
def foundAt (d : Desk) (place : Option Store) : Desk :=
  { d with store := place.getD d.store }

/-- **All that a run shows**: after each action the session and what the action gave back, if it was
not broken off. -/
def shown (d : Desk) : List Turn → List (Session × Option Reply)
  | [] => []
  | turn :: turns =>
    let (d', reply) := (d.foundAt turn.place).actWithin turn.room turn.action
    (d'.session, reply) :: d'.shown turns

/-- What a step shows is what the action does, but for a reply that may be lost. -/
theorem actWithin_shows (d : Desk) (room : Nat) (a : Action) :
    (d.actWithin room a).1.session = (d.act a).1.session ∧
      (d.actWithin room a).1.limits = (d.act a).1.limits ∧
      ((d.actWithin room a).2 = some (d.act a).2 ∨ (d.actWithin room a).2 = none) := by
  cases h : d.exhausts room a with
  | true =>
    rw [actWithin_of_exhausts h]
    exact ⟨rfl, rfl, .inr rfl⟩
  | false =>
    rw [actWithin_of_not_exhausts h]
    exact ⟨rfl, rfl, .inl rfl⟩

/-- Whether two steps show the same session, and gave the same back if both gave something back. -/
def Agree (p p' : Session × Option Reply) : Prop :=
  p.1 = p'.1 ∧ (p.2 = p'.2 ∨ p.2 = none ∨ p'.2 = none)

/-- **Runs of the same actions agree step by step**, whatever becomes of their saves. -/
theorem Alike.shown (h : Alike d d') {turns turns' : List Turn}
    (hactions : turns.map (·.action) = turns'.map (·.action)) :
    List.Forall₂ Agree (d.shown turns) (d'.shown turns') := by
  induction turns generalizing d d' turns' with
  | nil =>
    rw [List.map_eq_nil_iff.1 hactions.symm]
    exact .nil
  | cons turn turns ih =>
    cases turns' with
    | nil => cases hactions
    | cons turn' turns' =>
      obtain ⟨haction, hrest⟩ := List.cons.inj hactions
      dsimp only at haction
      have hfound : Alike (d.foundAt turn.place) (d'.foundAt turn'.place) := ⟨h.session, h.limits⟩
      have hact := hfound.act turn.action
      obtain ⟨hsession, hlimits, hreply⟩ :=
        (d.foundAt turn.place).actWithin_shows turn.room turn.action
      obtain ⟨hsession', hlimits', hreply'⟩ :=
        (d'.foundAt turn'.place).actWithin_shows turn'.room turn'.action
      rw [← haction] at hsession' hlimits' hreply'
      rw [hact.back] at hreply
      have hsame := hsession.trans (hact.alike.session.trans hsession'.symm)
      have hafter : Alike ((d.foundAt turn.place).actWithin turn.room turn.action).1
          ((d'.foundAt turn'.place).actWithin turn'.room turn.action).1 :=
        ⟨hsame, hlimits.trans (hact.alike.limits.trans hlimits'.symm)⟩
      simp only [Desk.shown, ← haction]
      refine .cons ⟨hsame, ?_⟩ (ih hafter hrest)
      rcases hreply with hreply | hreply
      · rcases hreply' with hreply' | hreply'
        · exact .inl (hreply.trans hreply'.symm)
        · exact .inr (.inr hreply')
      · exact .inr (.inl hreply)

/-- **With enough room nothing is lost.** -/
theorem ne_none_of_mem_shown {n : Nat} (h : d.session.toState.IsShallow n) {turns : List Turn}
    (hroom : ∀ turn ∈ turns, n + 3 ≤ turn.room) : ∀ p ∈ d.shown turns, p.2 ≠ none := by
  induction turns generalizing d with
  | nil => exact List.forall_mem_nil _
  | cons turn turns ih =>
    obtain ⟨hfirst, hrest⟩ := List.forall_mem_cons.1 hroom
    have hfound : (d.foundAt turn.place).session.toState.IsShallow n := h
    have hact := actWithin_of_not_exhausts (exhausts_eq_false hfound hfirst turn.action)
    have hafter : ((d.foundAt turn.place).act turn.action).1.session.toState.IsShallow n :=
      (keptByActions_shallow n).act hfound turn.action
    simp only [Desk.shown, hact]
    exact List.forall_mem_cons.2 ⟨Option.some_ne_none _, ih hafter hrest⟩

/-- Steps that agree and have lost nothing are the same. -/
theorem eq_of_agree {run run' : List (Session × Option Reply)} (h : List.Forall₂ Agree run run')
    (hrun : ∀ p ∈ run, p.2 ≠ none) (hrun' : ∀ p ∈ run', p.2 ≠ none) : run = run' := by
  induction h with
  | nil => rfl
  | @cons p p' run run' hagree _ ih =>
    obtain ⟨hp, hrest⟩ := List.forall_mem_cons.1 hrun
    obtain ⟨hp', hrest'⟩ := List.forall_mem_cons.1 hrun'
    have hreply : p.2 = p'.2 := hagree.2.resolve_right fun hlost => hlost.elim hp hp'
    rw [Prod.ext hagree.1 hreply, ih hrest hrest']

/-- **Saving is of no account to a session, as long as there is room to save in.** Two runs of the same
actions show the same sessions, whether they save by themselves or not, whatever stands in the place
that they save in at first, whatever becomes of it before any action, and however much room there is;
and what two actions gave back is the same, unless one of them was broken off. None is, if there is
room for the state that they start with, and for the three levels that every state has. An action is
broken off only at a save and only for want of room. If another is, or if the write comes to an error,
nothing is written. -/
theorem shown_eq (s : Session) (limits : Limits) (store store' : Store) (autosave autosave' : Bool)
    {turns turns' : List Turn} (h : turns.map (·.action) = turns'.map (·.action)) :
    let run := shown ⟨s, store, autosave, limits⟩ turns
    let run' := shown ⟨s, store', autosave', limits⟩ turns'
    List.Forall₂ Agree run run' ∧
      (∀ room, 3 ≤ room → s.toState.toJson.nesting ≤ room → (∀ turn ∈ turns, room ≤ turn.room) →
        (∀ turn ∈ turns', room ≤ turn.room) → run = run' ∧ ∀ p ∈ run, p.2 ≠ none) ∧
      ∀ (d : Desk) (room : Nat) (a : Action),
        ((d.actWithin room a).2 = none ↔
          d.saves a = true ∧ d.store.exhausts room (d.act a).1.session.toState = true) ∧
        (d.actWithin room a).1.store = if d.saves a && (d.actWithin room a).2.isSome
          then (d.store.write (d.act a).1.session.toState).2 else d.store := by
  intro run run'
  have halike : Alike ⟨s, store, autosave, limits⟩ ⟨s, store', autosave', limits⟩ := ⟨rfl, rfl⟩
  have hagree : List.Forall₂ Agree run run' := halike.shown h
  refine ⟨hagree, fun room hlow hstate hroom hroom' => ?_, fun d room a => ?_⟩
  · obtain ⟨n, rfl⟩ : ∃ n, room = n + 3 := ⟨room - 3, by omega⟩
    have hshallow : s.toState.IsShallow n := SavedState.nesting_toJson_le_iff.1 hstate
    have hrun : ∀ p ∈ run, p.2 ≠ none := ne_none_of_mem_shown (d := ⟨s, store, _, _⟩) hshallow hroom
    have hrun' : ∀ p ∈ run', p.2 ≠ none :=
      ne_none_of_mem_shown (d := ⟨s, store', _, _⟩) hshallow hroom'
    exact ⟨eq_of_agree hagree hrun hrun', hrun⟩
  · cases hexhausts : d.exhausts room a with
    | true =>
      rw [actWithin_of_exhausts hexhausts]
      rw [exhausts, Bool.and_eq_true] at hexhausts
      exact ⟨iff_of_true rfl hexhausts, by rw [Option.isSome_none, Bool.and_false]; rfl⟩
    | false =>
      rw [actWithin_of_not_exhausts hexhausts]
      rw [exhausts, Bool.and_eq_false_iff] at hexhausts
      refine ⟨iff_of_false (Option.some_ne_none _) ?_, ?_⟩
      · rintro ⟨hsaves, hroom⟩
        rw [hsaves, hroom] at hexhausts
        exact hexhausts.elim Bool.noConfusion Bool.noConfusion
      · rw [Option.isSome_some, Bool.and_true]
        exact d.store_act a

/-- An error that is no text, and one that no file can hold. -/
def unwritable : SavedState where
  history := [⟨"1+", none, some (.int 5), none⟩,
    ⟨"2+", none, some (.float (Double.signed false Numeral.nanBits)), none⟩]
  environment := Environment.empty
  plot := none

/-- With room for three levels the same is shown without a home, in a folder that a file takes the
place of, and where nothing is to be saved. -/
theorem shown_unwritable :
    let s := Session.ofState unwritable
    let limits : Limits := ⟨100, []⟩
    let directory : Path := ⟨"/", ["state"]⟩
    let turns : List Turn := [⟨none, 3, .line "x=2"⟩, ⟨none, 3, .save⟩]
    let turns' : List Turn := [⟨none, 3, .line "x=2"⟩, ⟨some (.blocked directory), 3, .save⟩]
    turns.map (·.action) = turns'.map (·.action) ∧
      shown ⟨s, .homeless, true, limits⟩ turns
        = shown ⟨s, .folder directory .missing, true, limits⟩ turns' ∧
      shown ⟨s, .homeless, true, limits⟩ turns
        = shown ⟨s, .folder directory .directory, false, limits⟩ turns' := by
  intro s limits directory turns turns'
  have hactions : turns.map (·.action) = turns'.map (·.action) := rfl
  have hnesting : s.toState.toJson.nesting ≤ 3 := by decide
  have hroom : ∀ turn ∈ turns, 3 ≤ turn.room := by simp [turns]
  have hroom' : ∀ turn ∈ turns', 3 ≤ turn.room := by simp [turns']
  obtain ⟨-, hfolder, -⟩ :=
    shown_eq s limits .homeless (.folder directory .missing) true true hactions
  obtain ⟨-, hdirectory, -⟩ :=
    shown_eq s limits .homeless (.folder directory .directory) true false hactions
  exact ⟨hactions, (hfolder 3 (Nat.le_refl 3) hnesting hroom hroom').1,
    (hdirectory 3 (Nat.le_refl 3) hnesting hroom hroom').1⟩

/-! ### Too little room -/

/-- A line with a value of so many levels for its error, and one more. Around it the state has three. -/
def deep (n : Nat) : SavedState :=
  Store.withError (.nested n)

/-- Its file is read. -/
theorem read_deep (directory : Path) (n : Nat) :
    (Store.holding directory (deep n)).read = .ok (deep n) := by
  have hnull : Json.nested n ≠ .null := by cases n <;> exact Json.noConfusion
  have hreadable : (Json.nested n).IsReadable :=
    ((Json.nested n).flaw?_eq_none_iff.1 (Json.flaw?_nested n)).2
  exact Store.read_withError directory hnull hreadable (Json.reread_nested n)

/-- **However much room there is, it is too little for one of these**, and for what comes of it. -/
theorem exhausts_apply_deep (room : Nat) (c : Change) :
    (c.apply (deep room)).toJson.exhausts room = true := by
  let entry : HistoryEntry := ⟨"1/0", none, some (.nested room), none⟩
  have hentry : entry ∈ (c.apply (deep room)).history := List.mem_append_left _ (.head _)
  have hcarries : entry.Carries fun v => v.flaw? = none :=
    ⟨fun v hv => Option.some.inj hv ▸ Json.flaw?_nested room, fun v hv => nomatch hv⟩
  have hflaw : (c.apply (deep room)).toJson.flaw? = none := by
    refine Json.isHereditary_flaw?.state_of_carries (List.forall_mem_append.2
      ⟨List.forall_mem_singleton.2 hcarries, fun e he => ?_⟩)
    exact (c.hasTexts_of_mem_entries e he).carries fun _ => rfl
  refine Json.exhausts_of_lt_nesting hflaw (Nat.lt_of_not_le fun hle => ?_)
  have hshallow := SavedState.nesting_toJson_le_iff.1 (hle.trans (Nat.le_add_right room 3))
  have hlevels := (hshallow entry hentry).error _ rfl
  rw [Json.nesting_nested] at hlevels
  omega

/-- **No amount of room is enough for every state file**: there is one with which a line is evaluated in
a run that saves by itself as in one that does not, and its value comes back from one of them. -/
theorem not_exists_shown_eq : ¬ ∃ room, ∀ (place : Store) (saved : SavedState) (limits : Limits)
    (turns : List Turn), place.load = .ok saved → (∀ turn ∈ turns, turn.room = room) →
      shown ⟨Session.ofState saved, place, true, limits⟩ turns
        = shown ⟨Session.ofState saved, place, false, limits⟩ turns := by
  rintro ⟨room, hroom⟩
  let directory : Path := ⟨"/", ["state"]⟩
  have hload : (Store.holding directory (deep room)).load = .ok (deep room) := by
    rw [Store.load, read_deep]
  have hsame := hroom (Store.holding directory (deep room)) (deep room) ⟨100, []⟩
    [⟨none, room, .line "1+1"⟩] hload (List.forall_mem_singleton.2 rfl)
  let start : Bool → Desk := fun autosave =>
    ⟨Session.ofState (deep room), Store.holding directory (deep room), autosave, ⟨100, []⟩⟩
  have hsaved : (start true).exhausts room (.line "1+1") = true := by
    have hstate := toState_act (d := start true) (a := .line "1+1") Action.noConfusion
    rw [exhausts, hstate]
    exact exhausts_apply_deep room _
  have hkept : (start false).exhausts room (.line "1+1") = false := rfl
  have hfirst := congrArg (fun run => run.map Prod.snd) hsame
  have hlost := actWithin_of_exhausts hsaved
  have hback := actWithin_of_not_exhausts hkept
  simp only [start] at hlost hback
  simp only [shown, foundAt, Option.getD_none, hlost, hback, List.map_cons, List.map_nil,
    List.cons.injEq, reduceCtorEq, false_and] at hfirst

end Desk

end LineCalc
