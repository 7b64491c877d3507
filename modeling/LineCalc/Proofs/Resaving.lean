import LineCalc.Proofs.History
import LineCalc.Proofs.Json.Stable
import LineCalc.Proofs.Store
/-!
# LineCalc — what was loaded is saved again

A state file that somebody else wrote may hold more than a session would put there, and its state is
saved again when the session goes on. The lines, the results, the variables and the samples of a
loaded state can always be written. The errors and the names over which lines were plotted are kept
as the values they are, unlooked at, and one with a number in it that is not finite cannot be stored
(`SavedState.IsFinite`); then every save of the session comes to nothing. Otherwise the state is
written and read again, as it was (`Store.write_of_read`).
-/

namespace LineCalc

open Text (joined)

variable {members : List (String × Json)} {s : SavedState}

/-! ## From a value to the parts of a state -/

theorem Json.passesDown_isStable : Json.PassesDown Json.IsStable where
  array h := by
    cases h with
    | array h => exact h
  object h := by
    cases h with
    | object _ _ hvalue => exact hvalue

/-- **The entries of a loaded state are made of parts of the file.** -/
theorem SavedState.exists_isReading {p : Json → Prop} (hp : Json.PassesDown p)
    (h : ofMembers members = .ok s) (hmembers : ∀ m ∈ members, p m.2) {e : HistoryEntry}
    (he : e ∈ s.history) :
    ∃ object : List (String × Json), (∀ m ∈ object, p m.2) ∧ HistoryEntry.IsReading object e := by
  obtain ⟨objects, hlists, hreadings⟩ := historyOf_eq_ok_iff.1 (historyOf_of_ofMembers h)
  have hobjects : ∀ object ∈ objects, ∀ m ∈ object, p m.2 := by
    unfold ListsEntries at hlists
    split at hlists
    · rw [hlists]
      exact List.forall_mem_nil _
    · next v hv =>
      split at hlists
      · rw [hlists]
        exact List.forall_mem_nil _
      · have hlist : p v := hmembers _ (Entries.mem_of_find? hv)
        rw [hlists] at hlist
        exact fun object hobject => hp.object (hp.array hlist _ (List.mem_map_of_mem hobject))
  obtain ⟨object, hobject, hreading⟩ := exists_mem_of_forall₂ hreadings he
  exact ⟨object, hobjects object hobject, hreading⟩

namespace HistoryEntry

variable {e : HistoryEntry}

/-- An entry carries members of its object. -/
theorem IsReading.carries {p : Json → Prop} (h : IsReading members e)
    (hmembers : ∀ m ∈ members, p m.2) : e.Carries p where
  error _ hv := hmembers _ (Json.mem_of_member? (h.error.symm.trans hv)).1
  plotName _ hv := hmembers _ (Json.mem_of_member? (h.plotName.symm.trans hv)).1

theorem IsReading.hasValues (h : IsReading members e) : e.HasValues where
  error _ hv := (Json.mem_of_member? (h.error.symm.trans hv)).2
  plotName _ hv := (Json.mem_of_member? (h.plotName.symm.trans hv)).2

/-- **An entry made of stable values stays as it is.** -/
theorem IsReading.reread_eq (h : IsReading members e) (hmembers : ∀ m ∈ members, m.2.IsStable) :
    e.reread = e := by
  have hcarries := h.carries hmembers
  refine reread_eq_self_of_carries ?_ ⟨fun v hv => (hcarries.error v hv).reread_eq,
    fun v hv => (hcarries.plotName v hv).reread_eq⟩
  rw [h.expression]
  cases hfind : Entries.find? "expression" members with
  | none => rfl
  | some v => exact (hmembers _ (Entries.mem_of_find? hfind)).joined_display

end HistoryEntry

/-- The line of a definition is the plain text of a member. -/
theorem Definition.joined_expression {v : Json} {d : Definition Float} (h : ofJson v = .ok d)
    (hv : v.IsStable) : joined d.expression = d.expression := by
  cases hv with
  | @object members hnodup hname hvalue =>
    rw [ofJson, ofMembers] at h
    split at h
    · next expression value hexpression _ =>
      obtain ⟨x, -, hx⟩ := bind_eq_ok_iff.1 h
      cases hx
      exact (hvalue _ (Entries.mem_of_find? hexpression)).joined_display
    · cases h
    · cases h
  | _ => cases h

namespace SavedState

/-- **The variables of a loaded state**, if the file holds stable values, stay as they are. -/
theorem joined_of_environmentOf {env : Environment Float} (h : environmentOf members = .ok env)
    (hmembers : ∀ m ∈ members, m.2.IsStable) {e : String × Definition Float}
    (he : e ∈ env.entries) : joined e.1 = e.1 ∧ joined e.2.expression = e.2.expression := by
  unfold environmentOf at h
  split at h
  · cases h
    cases he
  · next v hv =>
    split at h
    · cases h
      cases he
    · split at h
      · next entries =>
        obtain ⟨pairs, hpairs, hof⟩ := bind_eq_ok_iff.1 h
        cases hof
        obtain ⟨m, hm, hpair⟩ := exists_mem_of_forall₂ (mapM_eq_ok_iff.1 hpairs)
          (Entries.mem_of_mem_ofList he)
        obtain ⟨d, hd, hmade⟩ := bind_eq_ok_iff.1 hpair
        cases hmade
        cases hmembers _ (Entries.mem_of_find? hv) with
        | object _ hname hvalue =>
          exact ⟨hname m hm, Definition.joined_expression hd (hvalue m hm)⟩
      · cases h

theorem environmentOf_of_ofMembers (h : ofMembers members = .ok s) :
    environmentOf members = .ok s.environment := by
  obtain ⟨history, -, h⟩ := bind_eq_ok_iff.1 h
  obtain ⟨environment, henvironment, h⟩ := bind_eq_ok_iff.1 h
  obtain ⟨plot, -, h⟩ := bind_eq_ok_iff.1 h
  cases h
  exact henvironment

/-- **A state made of stable values stays as it is.** -/
theorem reread_eq_self_of_ofMembers (h : ofMembers members = .ok s)
    (hmembers : ∀ m ∈ members, m.2.IsStable) : s.reread = s := by
  refine reread_eq_self_of_parts (fun e he => ?_) fun e he =>
    joined_of_environmentOf (environmentOf_of_ofMembers h) hmembers he
  obtain ⟨object, hobject, hreading⟩ := exists_isReading Json.passesDown_isStable h hmembers he
  exact hreading.reread_eq hobject

/-- Whether all numbers in the errors and the names are finite. -/
def IsFinite (s : SavedState) : Prop :=
  ∀ e ∈ s.history, e.Carries fun v => v.isStrict = true

/-- So they are if all numbers of the file are. -/
theorem isFinite_of_ofMembers (h : ofMembers members = .ok s)
    (hmembers : ∀ m ∈ members, m.2.isStrict = true) : s.IsFinite := by
  intro e he
  obtain ⟨object, hobject, hreading⟩ := exists_isReading Json.passesDown_isStrict h hmembers he
  exact hreading.carries hobject

/-- **Whether a state is found again in its text**, but for halves of pairs side by side: no entry is
void or carries a null, and no integer in it is too long to be read. -/
structure IsRestorable (s : SavedState) : Prop where
  values : ∀ e ∈ s.history, e.HasValues
  filled : ∀ e ∈ s.history, e.isVoid = false
  readable : ∀ e ∈ s.history, e.Carries Json.IsReadable

/-- **A state made of readable values is one.** -/
theorem isRestorable_of_ofMembers (h : ofMembers members = .ok s)
    (hmembers : ∀ m ∈ members, m.2.IsReadable) : s.IsRestorable := by
  have hreading : ∀ e ∈ s.history, ∃ object : List (String × Json),
      (∀ m ∈ object, m.2.IsReadable) ∧ HistoryEntry.IsReading object e :=
    fun _ he => exists_isReading Json.passesDown_isReadable h hmembers he
  refine ⟨fun e he => ?_, fun e he => ?_, fun e he => ?_⟩
  · obtain ⟨object, -, hobject⟩ := hreading e he
    exact hobject.hasValues
  · obtain ⟨object, -, hobject⟩ := hreading e he
    exact hobject.filled
  · obtain ⟨object, hreadable, hobject⟩ := hreading e he
    exact hobject.carries hreadable

/-- What is read of its text makes the state again. -/
theorem IsRestorable.ofMembers_reread (h : s.IsRestorable) :
    ofMembers s.reread.members = .ok s.reread := by
  refine ofMembers_members (fun e he => ?_) fun e he => ?_
  · obtain ⟨d, hd, rfl⟩ := List.mem_map.1 he
    exact (h.values d hd).reread
  · obtain ⟨d, hd, rfl⟩ := List.mem_map.1 he
    rw [d.isVoid_reread, h.filled d hd]

/-- **The value of a state tells the state.** So if the value comes back as it is, the state does. -/
theorem IsRestorable.reread_eq_self (h : s.IsRestorable) (hstable : s.toJson.IsStable) :
    s.reread = s := by
  have hvalue : s.reread.toJson = s.toJson := by
    rw [← toJson_reread, hstable.reread_eq]
  have hmembers : s.reread.members = s.members := by
    rw [toJson_eq, toJson_eq] at hvalue
    exact Json.object.inj hvalue
  have hreread := h.ofMembers_reread
  rw [hmembers, ofMembers_members h.values h.filled] at hreread
  exact (Except.ok.inj hreread).symm

theorem isRestorable_empty : empty.IsRestorable :=
  ⟨List.forall_mem_nil _, List.forall_mem_nil _, List.forall_mem_nil _⟩

/-- **A change keeps a state that is found again.** -/
theorem IsRestorable.apply (h : s.IsRestorable) (c : Change) : (c.apply s).IsRestorable where
  values := List.forall_mem_append.2
    ⟨h.values, fun e he => (c.hasTexts_of_mem_entries e he).hasValues⟩
  filled := List.forall_mem_append.2 ⟨h.filled, c.isVoid_of_mem_entries⟩
  readable := List.forall_mem_append.2
    ⟨h.readable, fun e he => (c.hasTexts_of_mem_entries e he).carries fun _ => trivial⟩

theorem isFinite_empty : empty.IsFinite :=
  List.forall_mem_nil _

/-- **And one whose numbers are finite.** -/
theorem IsFinite.apply (h : s.IsFinite) (c : Change) : (c.apply s).IsFinite :=
  List.forall_mem_append.2 ⟨h, fun e he => (c.hasTexts_of_mem_entries e he).carries fun _ => rfl⟩

theorem IsRestorable.isReadable_toJson (h : s.IsRestorable) : s.toJson.IsReadable :=
  Json.isHereditary_isReadable.state_of_carries h.readable

theorem IsRestorable.read_toJson (h : s.IsRestorable) :
    Json.read s.toJson.text = .ok s.reread.toJson := by
  rw [Json.read_text h.isReadable_toJson, toJson_reread]

/-- **Such a state has a text exactly if its numbers are finite.** -/
theorem IsRestorable.flaw?_eq_none_iff (h : s.IsRestorable) :
    s.toJson.flaw? = none ↔ s.IsFinite := by
  rw [Json.flaw?_eq_none_iff, isStrict_toJson_iff]
  exact and_iff_left h.isReadable_toJson

/-- Otherwise it has none for that reason. -/
theorem IsRestorable.flaw?_eq_notFinite (h : s.IsRestorable) (hinfinite : ¬ s.IsFinite) :
    s.toJson.flaw? = some .notFinite := by
  rw [Json.flaw?_of_isReadable h.isReadable_toJson, if_neg (mt isStrict_toJson_iff.1 hinfinite)]

end SavedState

/-! ## Files -/

namespace Store

variable {directory : Path} {bytes : List UInt8}

/-- What a file with a state in it holds. -/
theorem exists_of_read_eq_ok (h : (folder directory (.file bytes)).read = .ok s) :
    ∃ cs members, Utf8.decode bytes = some cs ∧ Json.read cs = .ok (.object members) ∧
      SavedState.ofMembers members = .ok s := by
  simp only [read, ofBytes] at h
  split at h
  · cases h
  · next cs hdecode =>
    split at h
    · next v hv =>
      cases v with
      | object members =>
        simp only [ofJson] at h
        split at h
        · next hmembers =>
          cases h
          exact ⟨cs, members, hdecode, hv, hmembers⟩
        · cases h
        · cases h
      | _ => cases h
    · cases h
    · cases h

/-- Takes up the state in the file and saves it, if there is one. -/
def resave (store : Store) : Store :=
  match store.read with
  | .ok s => (store.write s).2
  | .error _ => store

/-- The directory with the text of a state in its file. -/
def holding (directory : Path) (s : SavedState) : Store :=
  folder directory (.file (Utf8.encode s.toJson.text))

/-- **A state in a file is read from it**, if it is found again in its text. -/
theorem read_holding_of_isRestorable (h : s.IsRestorable) :
    (holding directory s).read = .ok s.reread := by
  rw [holding, read_file h.read_toJson, SavedState.toJson_eq, ofJson, h.ofMembers_reread]

/-- Such is every state that was loaded. -/
theorem isRestorable_of_read (h : (folder directory (.file bytes)).read = .ok s) :
    s.IsRestorable := by
  obtain ⟨cs, members, -, hread, hmembers⟩ := exists_of_read_eq_ok h
  have hreadable : (Json.object members).IsReadable := by
    have hvalue : Yields _ Json.IsReadable (Json.read cs) := Json.brings_isReadable.read trivial
    rwa [hread] at hvalue
  exact SavedState.isRestorable_of_ofMembers hmembers (Json.membersReadable_iff.1 hreadable)

/-- A state is read from a file only. -/
theorem exists_file_of_read {store : Store} (h : store.read = .ok s) :
    ∃ directory bytes, store = .folder directory (.file bytes) := by
  cases store with
  | homeless | blocked directory => cases h
  | folder directory slot =>
    cases slot with
    | missing | directory => cases h
    | file bytes => exact ⟨directory, bytes, rfl⟩

/-- **What is loaded is such a state**, whatever is in the place. -/
theorem isRestorable_of_load {store : Store} (h : store.load = .ok s) : s.IsRestorable := by
  unfold load at h
  split at h
  · next state hread =>
    cases h
    obtain ⟨directory, bytes, rfl⟩ := exists_file_of_read hread
    exact isRestorable_of_read hread
  · cases h
    exact SavedState.isRestorable_empty
  · cases h

/-- **A loaded state that was written is read again.** -/
theorem read_holding (h : (folder directory (.file bytes)).read = .ok s) :
    (holding directory s).read = .ok s.reread :=
  read_holding_of_isRestorable (isRestorable_of_read h)

/-- **Nothing in it has changed**, if there are no stand-ins in the file. -/
theorem reread_eq_self_of_read (h : (folder directory (.file bytes)).read = .ok s)
    {cs : List Char} (hdecode : Utf8.decode bytes = some cs) (hcs : Json.IsStandInFree cs) :
    s.reread = s := by
  obtain ⟨cs', members, hdecode', hread, hmembers⟩ := exists_of_read_eq_ok h
  obtain rfl : cs = cs' := Option.some.inj (hdecode.symm.trans hdecode')
  have hstable := Json.brings_isStable.read hcs
  rw [hread] at hstable
  exact SavedState.reread_eq_self_of_ofMembers hmembers (Json.passesDown_isStable.object hstable)

/-- **What cannot be stored is not written**, and leaves what was there. -/
theorem write_of_not_isFinite (slot : Slot) (h : s.IsRestorable) (hinfinite : ¬ s.IsFinite) :
    (folder directory slot).write s
      = (.error (.unwritable directory.stateFile .notFinite), folder directory slot) := by
  simp only [write, h.flaw?_eq_notFinite hinfinite, StoreCause.ofFlaw]

/-- **Saving is stable**: however often a state that stays as it is is taken up and saved, it is
there. -/
theorem read_iterate_resave (h : (folder directory (.file bytes)).read = .ok s)
    (hfinite : s.IsFinite) (hreread : s.reread = s) (n : Nat) :
    (resave^[n] (folder directory (.file bytes))).read = .ok s := by
  have hflaw : s.toJson.flaw? = none := (isRestorable_of_read h).flaw?_eq_none_iff.2 hfinite
  -- each round leaves a file with the same state in it
  induction n generalizing bytes with
  | zero => exact h
  | succ n ih =>
    have hround : resave (folder directory (.file bytes)) = holding directory s := by
      rw [resave, h]
      exact congrArg Prod.snd (write_folder_of_flaw? hflaw Slot.noConfusion)
    have hholding : (holding directory s).read = .ok s := by
      rw [read_holding h, hreread]
    rw [Function.iterate_succ_apply, hround]
    exact ih hholding

/-- **What can be loaded can be saved, but for numbers that are not finite in errors and names.** A
state that was loaded from a file, and has no such numbers there, can be written wherever a file can
be, and is read again but for halves of pairs side by side; as in every file without such numbers.
With one in it no place takes the state, and what was saved stays. And if the file is free of
stand-ins, the state that is read again is the one that was loaded, through any number of rounds. -/
theorem write_of_read (h : (folder directory (.file bytes)).read = .ok s) :
    (s.IsFinite → ∀ slot, slot ≠ .directory →
      (folder directory slot).write s = (.ok directory.stateFile, holding directory s) ∧
        (holding directory s).read = .ok s.reread) ∧
    (¬ s.IsFinite → ∀ slot, (folder directory slot).write s
      = (.error (.unwritable directory.stateFile .notFinite), folder directory slot)) ∧
    ∀ cs, Utf8.decode bytes = some cs →
      (∀ v, Json.read cs = .ok v → v.isStrict = true → s.IsFinite) ∧
        (Json.IsStandInFree cs → s.reread = s ∧
          (s.IsFinite → ∀ n, (resave^[n] (folder directory (.file bytes))).read = .ok s)) := by
  have hrestorable := isRestorable_of_read h
  refine ⟨fun hfinite slot hslot => ?_,
    fun hinfinite slot => write_of_not_isFinite slot hrestorable hinfinite,
    fun cs hdecode => ⟨fun v hv hstrict => ?_, fun hcs => ?_⟩⟩
  · exact ⟨write_folder_of_flaw? (hrestorable.flaw?_eq_none_iff.2 hfinite) hslot, read_holding h⟩
  · obtain ⟨cs', members, hdecode', hread, hmembers⟩ := exists_of_read_eq_ok h
    obtain rfl : cs = cs' := Option.some.inj (hdecode.symm.trans hdecode')
    obtain rfl : v = .object members := Except.ok.inj (hv.symm.trans hread)
    exact SavedState.isFinite_of_ofMembers hmembers (Json.passesDown_isStrict.object hstrict)
  · have hreread := reread_eq_self_of_read h hdecode hcs
    exact ⟨hreread, fun hfinite n => read_iterate_resave h hfinite hreread n⟩

/-- A line with a value for its error. -/
def withError (v : Json) : SavedState :=
  ⟨[⟨"1/0", none, some v, none⟩], Environment.empty, none⟩

/-- A file with this line is loaded, whatever value it is. -/
theorem read_withError (directory : Path) {v : Json} (hnull : v ≠ .null)
    (hreadable : v.IsReadable) (hreread : v.reread = v) :
    (holding directory (withError v)).read = .ok (withError v) := by
  have hcarries : ∀ p : Json → Prop, p v → ∀ e ∈ (withError v).history, e.Carries p := by
    intro p hv
    exact List.forall_mem_singleton.2 ⟨fun w hw => Option.some.inj hw ▸ hv, fun w hw => nomatch hw⟩
  have hvalues : ∀ e ∈ (withError v).history, e.HasValues := fun e he =>
    ⟨(hcarries (· ≠ .null) hnull e he).error, (hcarries (· ≠ .null) hnull e he).plotName⟩
  have hline : joined "1/0" = "1/0" := by decide
  have hsame : (withError v).reread = withError v := by
    refine SavedState.reread_eq_self_of_parts (fun e he => ?_) (List.forall_mem_nil _)
    refine HistoryEntry.reread_eq_self_of_carries ?_ (hcarries (fun w => w.reread = w) hreread e he)
    rw [List.mem_singleton.1 he]
    exact hline
  have hread : Json.read (withError v).toJson.text = .ok (withError v).toJson := by
    rw [Json.read_text (Json.isHereditary_isReadable.state_of_carries (hcarries _ hreadable)),
      SavedState.toJson_reread, hsame]
  have hfilled : ∀ e ∈ (withError v).history, e.isVoid = false :=
    List.forall_mem_singleton.2 rfl
  rw [holding, read_file hread, SavedState.toJson_eq, ofJson,
    SavedState.ofMembers_members hvalues hfilled]

/-- A number for an error is written and read; an infinite one is not written. -/
theorem write_of_read_withError :
    ((folder ⟨"/", ["state"]⟩ .missing).write (withError (.int 5))).1
        = .ok (Path.stateFile ⟨"/", ["state"]⟩) ∧
      ((folder ⟨"/", ["state"]⟩ .missing).write
        (withError (.float (Double.signed false Double.infinityBits)))).1
        = .error (.unwritable (Path.stateFile ⟨"/", ["state"]⟩) .notFinite) := by
  have hdigits : (Layout.digits 5).length ≤ Numeral.maxDigits := by decide
  obtain ⟨hwritten, -, -⟩ := write_of_read
    (read_withError ⟨"/", ["state"]⟩ (v := .int 5) Json.noConfusion hdigits rfl)
  obtain ⟨-, hunwritten, -⟩ := write_of_read (read_withError ⟨"/", ["state"]⟩
    (v := .float (Double.signed false Double.infinityBits)) Json.noConfusion trivial rfl)
  refine ⟨?_, ?_⟩
  · have hfinite : (withError (.int 5)).IsFinite := SavedState.isStrict_toJson_iff.1 rfl
    exact congrArg Prod.fst (hwritten hfinite .missing Slot.noConfusion).1
  · refine congrArg Prod.fst (hunwritten (fun hfinite => ?_) .missing)
    have hstrict := SavedState.isStrict_toJson_iff.2 hfinite
    cases hstrict

/-- **Not every state that is loaded can be written**: a line may have infinity for its error. -/
theorem not_forall_write_of_read :
    ¬ ∀ (directory : Path) (bytes : List UInt8) (s : SavedState),
      (folder directory (.file bytes)).read = .ok s →
        ∃ file, ((folder directory (.file bytes)).write s).1 = .ok file := by
  intro h
  have hread := read_withError ⟨"/", ["state"]⟩
    (v := .float (Double.signed false Double.infinityBits)) Json.noConfusion trivial rfl
  obtain ⟨file, hfile⟩ := h _ _ _ hread
  cases hfile

end Store

end LineCalc
