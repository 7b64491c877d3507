import LineCalc.Proofs.Invariant
import LineCalc.Proofs.Results
import LineCalc.Proofs.SavedState
/-!
# LineCalc — what the entries of a history hold

An entry that a session records has exactly one of a result, an error and a name, and the last two
are texts (`HistoryEntry.IsRecord`); every action keeps a history of such entries
(`Session.keptByActions_hasRecords`). A state file is not held to that. Here it is said in full
which histories a file makes: the member `history` lists objects, each of which is read by itself
(`historyOf_eq_ok_iff`), and the one demand on an object, besides a result that is a number, is
that it holds something (`HistoryEntry.IsReading`). So the entries of a loaded state are records
just where its objects hold one thing of the right kind, which nobody has checked
(`isRecord_ofMembers_iff`).
-/

namespace LineCalc

variable {members : List (String × Json)}

/-! ## Entries -/

/-- Whether there is exactly one of a result, an error and a name, and a text where it is one of the
last two. -/
structure HoldsOne (result : Bool) (error plotName : Option Json) : Prop where
  one : [result, error.isSome, plotName.isSome].count true = 1
  error : ∀ v, error = some v → ∃ s, v = .string s
  plotName : ∀ v, plotName = some v → ∃ s, v = .string s

namespace HistoryEntry

variable {e : HistoryEntry}

/-- **An entry as it is documented.** -/
def IsRecord (e : HistoryEntry) : Prop :=
  HoldsOne e.result.isSome e.error e.plotName

/-- Whether the members of an object hold what such an entry does. -/
def MakesRecord (members : List (String × Json)) : Prop :=
  HoldsOne (Json.member? "result" members).isSome (Json.member? "error" members)
    (Json.member? "plot_variable" members)

/-- **It is one of the three that a session records.** -/
theorem isRecord_iff : e.IsRecord ↔ (∃ x, e = ofResult e.expression x) ∨
    (∃ message, e = ofError e.expression message) ∨ ∃ name, e = ofPlot e.expression name := by
  obtain ⟨expression, result, error, plotName⟩ := e
  constructor
  · rintro ⟨hone, herror, hname⟩
    cases result <;> cases error <;> cases plotName <;> try cases hone
    · obtain ⟨name, rfl⟩ := hname _ rfl
      exact .inr (.inr ⟨name, rfl⟩)
    · obtain ⟨message, rfl⟩ := herror _ rfl
      exact .inr (.inl ⟨message, rfl⟩)
    · exact .inl ⟨_, rfl⟩
  · rintro (⟨x, h⟩ | ⟨message, h⟩ | ⟨name, h⟩) <;> cases h
    · exact ⟨rfl, fun _ h => (nomatch h), fun _ h => (nomatch h)⟩
    · refine ⟨rfl, fun v hv => ⟨message, (Option.some.inj hv).symm⟩, fun _ h => (nomatch h)⟩
    · refine ⟨rfl, fun _ h => (nomatch h), fun v hv => ⟨name, (Option.some.inj hv).symm⟩⟩

/-- Whether an entry is what the members of an object make. Something must be there, and a result
must be a number. Of the error and the name nothing is asked. -/
structure IsReading (members : List (String × Json)) (e : HistoryEntry) : Prop where
  expression : e.expression = ((Entries.find? "expression" members).map Json.display).getD ""
  result : (Json.member? "result" members).mapM Json.toFloat = .ok e.result
  error : e.error = Json.member? "error" members
  plotName : e.plotName = Json.member? "plot_variable" members
  filled : e.isVoid = false

/-- The entry that an object makes with a result. -/
def withResult (members : List (String × Json)) (result : Option Float) : HistoryEntry where
  expression := ((Entries.find? "expression" members).map Json.display).getD ""
  result := result
  error := Json.member? "error" members
  plotName := Json.member? "plot_variable" members

/-- The result is read first, and then the entry is looked at. -/
theorem ofMembers_eq (members : List (String × Json)) :
    ofMembers members = (Json.member? "result" members).mapM Json.toFloat >>= fun result =>
      if (withResult members result).isVoid then
        .error (.noOutcome (withResult members result).expression)
      else .ok (withResult members result) := by
  unfold ofMembers withResult
  cases Entries.find? "expression" members <;> cases Json.member? "result" members <;> rfl

/-- **What comes of an object.** -/
theorem ofMembers_eq_ok_iff : ofMembers members = .ok e ↔ IsReading members e := by
  rw [ofMembers_eq, bind_eq_ok_iff]
  constructor
  · rintro ⟨result, hresult, h⟩
    split at h
    · cases h
    · next hfilled =>
      cases h
      exact ⟨rfl, hresult, rfl, rfl, Bool.eq_false_iff.2 hfilled⟩
  · rintro ⟨hexpression, hresult, herror, hname, hfilled⟩
    have he : withResult members e.result = e := by
      rw [withResult, ← hexpression, ← herror, ← hname]
    refine ⟨e.result, hresult, ?_⟩
    rw [he, hfilled]
    rfl

/-- A value is an entry if it is an object that makes it. -/
theorem ofJson_eq_ok_iff {v : Json} :
    ofJson v = .ok e ↔ ∃ members, v = .object members ∧ IsReading members e := by
  constructor
  · intro h
    cases v with
    | object members => exact ⟨members, rfl, ofMembers_eq_ok_iff.1 h⟩
    | _ => cases h
  · rintro ⟨members, rfl, h⟩
    exact ofMembers_eq_ok_iff.2 h

/-- There is a result where one was given. -/
theorem IsReading.isSome_result (h : IsReading members e) :
    e.result.isSome = (Json.member? "result" members).isSome := by
  have hresult := h.result
  cases hmember : Json.member? "result" members with
  | none =>
    rw [hmember] at hresult
    rw [← Except.ok.inj hresult]
    rfl
  | some v =>
    rw [hmember] at hresult
    change some <$> v.toFloat = _ at hresult
    cases hvalue : v.toFloat with
    | error defect =>
      rw [hvalue] at hresult
      cases hresult
    | ok x =>
      rw [hvalue] at hresult
      rw [← Except.ok.inj hresult]
      rfl

/-- **An entry is a record exactly if its object holds one thing of the right kind.** -/
theorem IsReading.isRecord_iff (h : IsReading members e) : e.IsRecord ↔ MakesRecord members := by
  rw [IsRecord, MakesRecord, h.isSome_result, h.error, h.plotName]

end HistoryEntry

/-! ## Histories -/

/-- **So a history is one of records exactly if each of its objects makes one.** -/
theorem HistoryEntry.forall_isRecord_iff {objects : List (List (String × Json))}
    {history : List HistoryEntry} (h : List.Forall₂ IsReading objects history) :
    (∀ e ∈ history, e.IsRecord) ↔ ∀ object ∈ objects, MakesRecord object := by
  induction h with
  | nil => exact ⟨fun _ _ h => (nomatch h), fun _ _ h => (nomatch h)⟩
  | cons hfirst _ ih => rw [List.forall_mem_cons, List.forall_mem_cons, hfirst.isRecord_iff, ih]

/-- Values are read as entries if they are objects that make them. -/
theorem HistoryEntry.mapM_ofJson_eq_ok_iff {items : List Json} {history : List HistoryEntry} :
    items.mapM ofJson = .ok history ↔
      ∃ objects, items = objects.map .object ∧ List.Forall₂ IsReading objects history := by
  rw [mapM_eq_ok_iff]
  constructor
  · intro h
    induction h with
    | nil => exact ⟨[], rfl, .nil⟩
    | cons hfirst hrest ih =>
      obtain ⟨members, rfl, hreading⟩ := ofJson_eq_ok_iff.1 hfirst
      obtain ⟨objects, rfl, hreadings⟩ := ih
      exact ⟨members :: objects, rfl, .cons hreading hreadings⟩
  · rintro ⟨objects, rfl, h⟩
    exact List.forall₂_map_left_iff.2 (h.imp fun _ _ => ofMembers_eq_ok_iff.2)

/-- No text is an entry. -/
theorem HistoryEntry.mapM_ofJson_string {α : Type} {text : α → String} {as : List α} (has : as ≠ [])
    (history : List HistoryEntry) :
    (as.map fun a => Json.string (text a)).mapM ofJson ≠ .ok history := by
  cases as with
  | nil => exact absurd rfl has
  | cons a as => exact fun h => nomatch h

namespace SavedState

/-- Whether the history of a state file lists these objects: none, if it is left out or blank. -/
def ListsEntries (members : List (String × Json)) (objects : List (List (String × Json))) : Prop :=
  match Entries.find? "history" members with
  | none => objects = []
  | some v => if v.isBlank then objects = [] else v = .array (objects.map .object)

/-- **The histories that state files make.** -/
theorem historyOf_eq_ok_iff {history : List HistoryEntry} :
    historyOf members = .ok history ↔ ∃ objects, ListsEntries members objects ∧
      List.Forall₂ HistoryEntry.IsReading objects history := by
  have hnone : (.ok [] : Except Defect _) = .ok history ↔
      ∃ objects, objects = [] ∧ List.Forall₂ HistoryEntry.IsReading objects history := by
    simp [List.forall₂_nil_left_iff, eq_comm]
  unfold historyOf ListsEntries
  cases Entries.find? "history" members with
  | none => exact hnone
  | some v =>
    by_cases hblank : v.isBlank = true
    · simp only [hblank, if_true]
      exact hnone
    · simp only [hblank, Bool.false_eq_true, if_false]
      cases v with
      | array items =>
        change items.mapM HistoryEntry.ofJson = _ ↔ _
        simp only [Json.array.injEq]
        exact HistoryEntry.mapM_ofJson_eq_ok_iff
      -- what else has elements has texts for them
      | object ms =>
        have hne : ms ≠ [] := by
          rintro rfl
          exact hblank rfl
        refine iff_of_false (HistoryEntry.mapM_ofJson_string hne history) ?_
        rintro ⟨objects, h, -⟩
        cases h
      | string s =>
        have hne : s.toList ≠ [] := by
          intro h
          exact hblank (beq_iff_eq.2 (String.toList_eq_nil_iff.1 h))
        refine iff_of_false (HistoryEntry.mapM_ofJson_string hne history) ?_
        rintro ⟨objects, h, -⟩
        cases h
      | null | bool b | int n | float x =>
        refine iff_of_false (fun h => nomatch h) ?_
        rintro ⟨objects, h, -⟩
        cases h

/-- The history of a state is made from its member alone. -/
theorem historyOf_of_ofMembers {s : SavedState} (h : ofMembers members = .ok s) :
    historyOf members = .ok s.history := by
  obtain ⟨history, hhistory, h⟩ := bind_eq_ok_iff.1 h
  obtain ⟨environment, -, h⟩ := bind_eq_ok_iff.1 h
  obtain ⟨plot, -, h⟩ := bind_eq_ok_iff.1 h
  cases h
  exact hhistory

/-- **What a state file is held to.** The history of every state that is loaded is made from the
objects that the file lists, one by one, and its entries are records exactly if each object makes
one. That is not asked: a state whose entries hold values of any kind, and any number of them, is
loaded if only each entry holds something. -/
theorem isRecord_ofMembers_iff (members : List (String × Json)) (s : SavedState) :
    (ofMembers members = .ok s → ∃ objects, ListsEntries members objects ∧
      List.Forall₂ HistoryEntry.IsReading objects s.history ∧
      ((∀ e ∈ s.history, e.IsRecord) ↔ ∀ object ∈ objects, HistoryEntry.MakesRecord object)) ∧
    ((∀ e ∈ s.history, e.HasValues) →
      (ofMembers s.members = .ok s ↔ ∀ e ∈ s.history, e.isVoid = false)) := by
  constructor
  · intro h
    obtain ⟨objects, hlists, hreadings⟩ := historyOf_eq_ok_iff.1 (historyOf_of_ofMembers h)
    exact ⟨objects, hlists, hreadings, HistoryEntry.forall_isRecord_iff hreadings⟩
  · intro hvalues
    refine ⟨fun h => ?_, ofMembers_members hvalues⟩
    by_contra hvoid
    push Not at hvoid
    obtain ⟨e, he, hempty⟩ := hvoid
    have hempty : e.isVoid = true := Bool.eq_true_of_not_eq_false hempty
    obtain ⟨expression, herror⟩ := ofMembers_members_of_isVoid hvalues ⟨e, he, hempty⟩
    cases h.symm.trans herror

/-- A line with a value and an error, and one with a number for its error. -/
def muddled : SavedState where
  history := [⟨"1+1", some 2, some (.string "Unexpected end of expression"), none⟩,
    ⟨"2+", none, some (.int 5), none⟩]
  environment := Environment.empty
  plot := none

/-- Both are loaded, and their objects are the ones to blame. -/
theorem isRecord_ofMembers_muddled :
    ofMembers muddled.members = .ok muddled ∧
      ∃ objects, ListsEntries muddled.members objects ∧
        ¬ ∀ object ∈ objects, HistoryEntry.MakesRecord object := by
  obtain ⟨hread, hload⟩ := isRecord_ofMembers_iff muddled.members muddled
  have hvalues : ∀ e ∈ muddled.history, e.HasValues := by
    intro e he
    simp only [muddled, List.mem_cons, List.not_mem_nil, or_false] at he
    rcases he with rfl | rfl
    · exact ⟨fun v hv => Option.some.inj hv ▸ Json.noConfusion, fun v hv => nomatch hv⟩
    · exact ⟨fun v hv => Option.some.inj hv ▸ Json.noConfusion, fun v hv => nomatch hv⟩
  have hloaded : ofMembers muddled.members = .ok muddled :=
    (hload hvalues).2 (List.forall_mem_cons.2 ⟨rfl, List.forall_mem_singleton.2 rfl⟩)
  obtain ⟨objects, hlists, -, hrecords⟩ := hread hloaded
  refine ⟨hloaded, objects, hlists, fun h => ?_⟩
  have hone := (hrecords.2 h _ (.head _)).one
  cases hone

/-- **Not every state that is loaded has records only**: a line may have a value and an error. -/
theorem not_forall_isRecord_ofMembers :
    ¬ ∀ (members : List (String × Json)) (s : SavedState), ofMembers members = .ok s →
      ∀ e ∈ s.history, e.IsRecord := by
  intro h
  have hrecord := h [("history", .array [.object
    [("expression", .string "1+1"), ("result", .float 2), ("error", .string "x")]])]
    ⟨[⟨"1+1", some 2, some (.string "x"), none⟩], Environment.empty, none⟩ rfl _ (.head _)
  cases hrecord.one

end SavedState

/-! ## What a session records -/

namespace Session

/-- Whether the history has records only. -/
def HasRecords (s : Session) : Prop :=
  ∀ e ∈ s.history, e.IsRecord

variable {s s' : Session}

theorem HasRecords.of_toState (h : s.HasRecords) (hstate : s'.toState = s.toState) :
    s'.HasRecords := by
  have hhistory : s'.history = s.history := congrArg SavedState.history hstate
  rwa [HasRecords, hhistory]

/-- What came of a line is put down as a record. -/
theorem HasRecords.record (h : s.HasRecords) (line : String) (o : Outcome Float) :
    (s.record line o).HasRecords :=
  forall_mem_history_record h (fun x => HistoryEntry.isRecord_iff.2 (.inl ⟨x, rfl⟩))
    (fun message => HistoryEntry.isRecord_iff.2 (.inr (.inl ⟨message, rfl⟩)))
    fun name => HistoryEntry.isRecord_iff.2 (.inr (.inr ⟨name, rfl⟩))

/-- **Every action keeps a history of records**, so that it is only a file that brings others. -/
theorem keptByActions_hasRecords : Desk.KeptByActions HasRecords where
  editor h _ := h
  yanked h _ _ := h
  focusOn h f := h.of_toState (toState_focusOn _ f)
  moveSelection h rows := h.of_toState (toState_moveSelection _ rows)
  recallSelected h := h.of_toState (toState_recallSelected _)
  recallLast h := h.of_toState (toState_recallLast _)
  recorded h := (h.record _ _).of_toState (toState_refresh _)
  setLine h line := h.of_toState (toState_setLine _ line)
  clear _ := List.forall_mem_nil _

end Session

end LineCalc
