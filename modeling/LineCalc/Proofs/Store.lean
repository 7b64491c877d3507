import LineCalc.Proofs.Json.Room
import LineCalc.Proofs.SavedState
import LineCalc.Proofs.Text.Utf8
import LineCalc.Store.Basic
/-!
# LineCalc — what is written is read

A state that was written is in the file as the text of its value. Decoding gives that text back, and
the reader of JSON the value, but for halves of pairs that stood side by side in a text of the state
(`SavedState.reread`). So a session that starts from the file starts from the state that was written
(`Store.load_write`), or from nothing saved if an entry of it was void.
-/

namespace LineCalc

open Text (joined HoldsNoHigh)

/-! ## What comes back of a state -/

namespace Json

/-- No number of a state has too many digits, since none is an integer. -/
theorem isHereditary_isReadable : IsHereditary IsReadable where
  null := trivial
  string _ := trivial
  ofFloat x := by
    rw [ofFloat]
    split <;> trivial
  array _ := itemsReadable_iff.2
  object _ := membersReadable_iff.2

theorem passesDown_isReadable : PassesDown IsReadable where
  array := itemsReadable_iff.1
  object := membersReadable_iff.1

/-- **A value has a text if its parts have.** -/
theorem isHereditary_flaw? : IsHereditary fun v => v.flaw? = none := by
  simp only [flaw?_eq_none_iff]
  exact {
    null := ⟨rfl, trivial⟩
    string _ := ⟨rfl, trivial⟩
    ofFloat x := ⟨isHereditary_isStrict.ofFloat x, isHereditary_isReadable.ofFloat x⟩
    array _ h := ⟨isHereditary_isStrict.array _ fun v hv => (h v hv).1,
      isHereditary_isReadable.array _ fun v hv => (h v hv).2⟩
    object _ h := ⟨isHereditary_isStrict.object _ fun m hm => (h m hm).1,
      isHereditary_isReadable.object _ fun m hm => (h m hm).2⟩ }

/-- A double comes back as it is. -/
theorem reread_ofFloat (x : Float) : (ofFloat x).reread = ofFloat x := by
  rw [ofFloat]
  split <;> rfl

theorem reread_ofOption {α : Type} (f : α → Json) (a : Option α) :
    (ofOption f a).reread = ofOption (fun b => (f b).reread) a := by
  cases a <;> rfl

/-- Members under distinct names that stay as they are come back one by one. -/
theorem reread_object {members : List (String × Json)} {names : List String}
    (hmembers : Entries.names members = names) (hjoined : names.map joined = names)
    (hnodup : names.Nodup) :
    (object members).reread = object (members.map fun m => (m.1, m.2.reread)) := by
  subst hmembers
  have hmap : rereadMembers members = members.map fun m => (m.1, m.2.reread) := by
    rw [rereadMembers_eq_map]
    refine List.map_congr_left fun m hm => ?_
    rw [Entries.names, List.map_map] at hjoined
    exact congrArg (·, m.2.reread) (List.map_inj_left.1 hjoined m hm)
  have hdistinct : (Entries.names (members.map fun m => (m.1, m.2.reread))).Nodup := by
    rwa [Entries.names, List.map_map]
  rw [reread, hmap, Entries.ofList_of_nodup hdistinct]

end Json

/-- An entry as it is after it was written and read. -/
def HistoryEntry.reread (e : HistoryEntry) : HistoryEntry :=
  ⟨joined e.expression, e.result, e.error.map Json.reread, e.plotName.map Json.reread⟩

/-- A definition as it is after it was written and read. -/
def Definition.reread (d : Definition Float) : Definition Float :=
  ⟨joined d.expression, d.value⟩

/-- Variables as they are after they were written and read. -/
def Environment.reread (env : Environment Float) : Environment Float :=
  .ofList (env.entries.map fun e => (joined e.1, e.2.reread))

/-- **A state as it is after it was written and read.** -/
def SavedState.reread (s : SavedState) : SavedState :=
  ⟨s.history.map HistoryEntry.reread, s.environment.reread, s.plot⟩

/-! ### The value of a state, read again -/

theorem HistoryEntry.toJson_reread (e : HistoryEntry) : e.toJson.reread = e.reread.toJson := by
  obtain ⟨expression, result, error, plotName⟩ := e
  have hresult : (Json.ofOption Json.ofFloat result).reread = Json.ofOption Json.ofFloat result := by
    rw [Json.reread_ofOption]
    simp only [Json.reread_ofFloat]
  have herror : (Json.ofOption id error).reread = Json.ofOption id (error.map Json.reread) := by
    cases error <;> rfl
  cases plotName with
  | none =>
    have hnames : ["expression", "result", "error"].map joined
        = ["expression", "result", "error"] := by decide
    rw [toJson, Json.reread_object (by rfl) hnames (by decide)]
    simp only [List.map_cons, List.map_nil, hresult, herror]
    rfl
  | some name =>
    have hnames : ["expression", "result", "error", "plot_variable"].map joined
        = ["expression", "result", "error", "plot_variable"] := by decide
    rw [toJson, Json.reread_object (by rfl) hnames (by decide)]
    simp only [List.map_cons, List.map_nil, List.cons_append, List.nil_append, hresult, herror]
    rfl

theorem Definition.toJson_reread (d : Definition Float) : d.toJson.reread = d.reread.toJson := by
  have hnames : ["expression", "value"].map joined = ["expression", "value"] := by decide
  rw [toJson, Json.reread_object (by rfl) hnames (by decide)]
  simp only [List.map_cons, List.map_nil, Json.reread_ofFloat]
  rfl

theorem Environment.toJson_reread (env : Environment Float) :
    env.toJson.reread = env.reread.toJson := by
  have hentries : Json.rereadMembers (env.entries.map fun e => (e.1, e.2.toJson))
      = (env.entries.map fun e => (joined e.1, e.2.reread)).map fun e => (e.1, e.2.toJson) := by
    rw [Json.rereadMembers_eq_map, List.map_map, List.map_map]
    exact List.map_congr_left fun e _ =>
      congrArg (joined e.1, ·) (Definition.toJson_reread e.2)
  rw [toJson, Json.reread, hentries, Entries.ofList_map]
  rfl

theorem Json.reread_ofSample (s : Float × Float) : (ofSample s).reread = ofSample s := by
  simp only [ofSample, reread, rereadItems, reread_ofFloat]

/-- Samples come back as they are. -/
theorem Json.reread_samples (samples : List (Float × Float)) :
    (array (samples.map ofSample)).reread = .array (samples.map ofSample) := by
  rw [reread, rereadItems_eq_map, List.map_map]
  exact congrArg array (List.map_congr_left fun s _ => reread_ofSample s)

/-- **The value of a state is read as that of the state that comes back.** -/
theorem SavedState.toJson_reread (s : SavedState) : s.toJson.reread = s.reread.toJson := by
  have hnames : ["history", "variables", "plot_data"].map joined
      = ["history", "variables", "plot_data"] := by decide
  have hhistory : (Json.array (s.history.map HistoryEntry.toJson)).reread
      = .array ((s.history.map HistoryEntry.reread).map HistoryEntry.toJson) := by
    rw [Json.reread, Json.rereadItems_eq_map, List.map_map, List.map_map]
    exact congrArg Json.array (List.map_congr_left fun e _ => e.toJson_reread)
  rw [toJson, Json.reread_object (by rfl) hnames (by decide)]
  simp only [List.map_cons, List.map_nil, hhistory, Environment.toJson_reread, Json.reread_ofOption,
    Json.reread_samples]
  rfl

/-! ### Texts that stay as they are -/

/-- Whether the texts of an entry have a property, the error and the name being texts where they are
there. -/
structure HistoryEntry.Spells (p : String → Prop) (e : HistoryEntry) : Prop where
  expression : p e.expression
  error : ∀ v, e.error = some v → ∃ s, v = .string s ∧ p s
  plotName : ∀ v, e.plotName = some v → ∃ s, v = .string s ∧ p s

/-- Whether the texts of a state have a property. -/
structure SavedState.Spells (p : String → Prop) (s : SavedState) : Prop where
  history : ∀ e ∈ s.history, e.Spells p
  name : ∀ e ∈ s.environment.entries, p e.1
  definition : ∀ e ∈ s.environment.entries, p e.2.expression

namespace HistoryEntry

variable {p : String → Prop} {line : String}

theorem spells_ofResult (hline : p line) (x : Float) : (ofResult line x).Spells p where
  expression := hline
  error _ h := nomatch h
  plotName _ h := nomatch h

theorem spells_ofError {message : String} (hline : p line) (hmessage : p message) :
    (ofError line message).Spells p where
  expression := hline
  error _ h := ⟨message, (Option.some.inj h).symm, hmessage⟩
  plotName _ h := nomatch h

theorem spells_ofPlot {name : String} (hline : p line) (hname : p name) :
    (ofPlot line name).Spells p where
  expression := hline
  error _ h := nomatch h
  plotName _ h := ⟨name, (Option.some.inj h).symm, hname⟩

end HistoryEntry

theorem HistoryEntry.Spells.hasTexts {p : String → Prop} {e : HistoryEntry} (h : e.Spells p) :
    e.HasTexts where
  error v hv := (h.error v hv).imp fun _ hs => hs.1
  plotName v hv := (h.plotName v hv).imp fun _ hs => hs.1

theorem HistoryEntry.reread_eq_self_of_carries {e : HistoryEntry}
    (hexpression : joined e.expression = e.expression)
    (h : e.Carries fun v => v.reread = v) : e.reread = e := by
  obtain ⟨expression, result, error, plotName⟩ := e
  have hvalue : ∀ v : Option Json, (∀ w, v = some w → w.reread = w) → v.map Json.reread = v := by
    intro v hv
    cases v with
    | none => rfl
    | some w => exact congrArg some (hv w rfl)
  rw [reread, hexpression, hvalue error h.error, hvalue plotName h.plotName]

theorem HistoryEntry.reread_eq_self {e : HistoryEntry} (h : e.Spells HoldsNoHigh) :
    e.reread = e := by
  have hvalue : ∀ (v : Json) (s : String), v = .string s → HoldsNoHigh s → v.reread = v := by
    rintro v s rfl hs
    rw [Json.reread, Text.joined_of_holdsNoHigh hs]
  refine reread_eq_self_of_carries (Text.joined_of_holdsNoHigh h.expression)
    ⟨fun v hv => ?_, fun v hv => ?_⟩
  · obtain ⟨s, hs, hhigh⟩ := h.error v hv
    exact hvalue v s hs hhigh
  · obtain ⟨s, hs, hhigh⟩ := h.plotName v hv
    exact hvalue v s hs hhigh

/-- **A state whose parts stay as they are comes back as it is.** -/
theorem SavedState.reread_eq_self_of_parts {s : SavedState} (hentry : ∀ e ∈ s.history, e.reread = e)
    (hdefinition : ∀ e ∈ s.environment.entries,
      joined e.1 = e.1 ∧ joined e.2.expression = e.2.expression) : s.reread = s := by
  have hhistory : s.history.map HistoryEntry.reread = s.history := by
    conv => rhs; rw [← List.map_id s.history]
    exact List.map_congr_left hentry
  have hentries : (s.environment.entries.map fun e => (joined e.1, e.2.reread))
      = s.environment.entries := by
    conv => rhs; rw [← List.map_id s.environment.entries]
    refine List.map_congr_left fun e he => ?_
    obtain ⟨hname, hexpression⟩ := hdefinition e he
    rw [hname, Definition.reread, hexpression]
    rfl
  rw [reread, hhistory, Environment.reread, hentries, Environment.ofList_entries]

/-- So does one whose texts hold no first halves. -/
theorem SavedState.reread_eq_self {s : SavedState} (h : s.Spells HoldsNoHigh) : s.reread = s :=
  reread_eq_self_of_parts (fun e he => HistoryEntry.reread_eq_self (h.history e he)) fun e he =>
    ⟨Text.joined_of_holdsNoHigh (h.name e he), Text.joined_of_holdsNoHigh (h.definition e he)⟩

/-- What an entry carries comes back as values. -/
theorem HistoryEntry.HasValues.reread {e : HistoryEntry} (h : e.HasValues) : e.reread.HasValues := by
  have hvalue : ∀ v : Option Json, (∀ w, v = some w → w ≠ .null) →
      ∀ w, v.map Json.reread = some w → w ≠ .null := by
    rintro v hv w hw rfl
    obtain ⟨u, hu, hnull⟩ := Option.map_eq_some_iff.1 hw
    cases u <;> first | exact hv _ hu rfl | cases hnull
  exact ⟨hvalue e.error h.error, hvalue e.plotName h.plotName⟩

/-- The texts of an entry come back as texts. -/
theorem HistoryEntry.HasTexts.reread {e : HistoryEntry} (h : e.HasTexts) : e.reread.HasTexts := by
  have hvalue : ∀ v : Option Json, (∀ w, v = some w → ∃ s, w = .string s) →
      ∀ w, v.map Json.reread = some w → ∃ s, w = .string s := by
    intro v hv w hw
    obtain ⟨u, hu, rfl⟩ := Option.map_eq_some_iff.1 hw
    obtain ⟨s, rfl⟩ := hv u hu
    exact ⟨joined s, rfl⟩
  exact ⟨hvalue e.error h.error, hvalue e.plotName h.plotName⟩

/-- Nothing comes of a line by its being written. -/
theorem HistoryEntry.isVoid_reread (e : HistoryEntry) : e.reread.isVoid = e.isVoid := by
  simp only [isVoid, reread, Option.isNone_map]

/-! ## Files -/

namespace Store

/-- **A state with a text is written wherever a file can be.** -/
theorem write_folder_of_flaw? {directory : Path} {slot : Slot} {s : SavedState}
    (hflaw : s.toJson.flaw? = none) (hslot : slot ≠ .directory) :
    (folder directory slot).write s
      = (.ok directory.stateFile, folder directory (.file (Utf8.encode s.toJson.text))) := by
  simp only [write, hflaw]

/-- Whether a file can be written in a place. -/
def IsUsable (store : Store) : Prop :=
  ∃ directory slot, store = .folder directory slot ∧ slot ≠ .directory

/-- **What can be written where**: a state whose numbers have a text, wherever a file can be. -/
theorem exists_write_eq_ok_iff {store : Store} {s : SavedState} :
    (∃ file, (store.write s).1 = .ok file) ↔ store.IsUsable ∧ s.toJson.flaw? = none := by
  constructor
  · rintro ⟨file, h⟩
    cases store with
    | homeless => cases h
    | blocked directory => cases h
    | folder directory slot =>
      simp only [write] at h
      cases hflaw : s.toJson.flaw? with
      | some flaw =>
        rw [hflaw] at h
        cases h
      | none =>
        refine ⟨⟨directory, slot, rfl, ?_⟩, rfl⟩
        rintro rfl
        rw [hflaw] at h
        cases h
  · rintro ⟨⟨directory, slot, rfl, hslot⟩, hflaw⟩
    exact ⟨directory.stateFile, congrArg Prod.fst (write_folder_of_flaw? hflaw hslot)⟩

/-- Such is a state whose errors and names are texts. -/
theorem write_folder {directory : Path} {slot : Slot} {s : SavedState}
    (htexts : ∀ e ∈ s.history, e.HasTexts) (hslot : slot ≠ .directory) :
    (folder directory slot).write s
      = (.ok directory.stateFile, folder directory (.file (Utf8.encode s.toJson.text))) :=
  write_folder_of_flaw? (Json.isHereditary_flaw?.state htexts) hslot

/-- With room for the levels of a state no place runs out of it. -/
theorem exhausts_eq_false {room : Nat} (store : Store) {s : SavedState}
    (h : s.toJson.nesting ≤ room) : store.exhausts room s = false := by
  cases store with
  | homeless | blocked directory => rfl
  | folder directory slot => exact Json.exhausts_eq_false_of_nesting_le h

/-- **The text of a value in the file is read as that value.** -/
theorem read_file {directory : Path} {v w : Json} (h : Json.read v.text = .ok w) :
    (folder directory (.file (Utf8.encode v.text))).read = ofJson directory.stateFile w := by
  simp only [read, ofBytes, Utf8.decode_encode, h]

end Store

namespace SavedState

/-- **A saved state is read back.** Its value holds no number that is not finite, and the state is
found again in it, in its order; so what was written to a file is read from it, if the text of the
value is read as the value. -/
theorem restored {s : SavedState} (htexts : ∀ e ∈ s.history, e.HasTexts)
    (hvoid : ∀ e ∈ s.history, e.isVoid = false) :
    s.toJson.isStrict = true ∧
      (∃ members, s.toJson = .object members ∧ ofMembers members = .ok s) ∧
      ∀ (store : Store) (file : Path), (store.write s).1 = .ok file →
        Json.read s.toJson.text = .ok s.toJson → (store.write s).2.read = .ok s := by
  have hfound : ofMembers s.members = .ok s :=
    ofMembers_members (fun e he => (htexts e he).hasValues) hvoid
  refine ⟨Json.isHereditary_isStrict.state htexts, ⟨s.members, rfl, hfound⟩, ?_⟩
  intro store file hwrite hread
  obtain ⟨⟨directory, slot, rfl, hslot⟩, hflaw⟩ := Store.exists_write_eq_ok_iff.1 ⟨file, hwrite⟩
  rw [Store.write_folder_of_flaw? hflaw hslot, Store.read_file hread, toJson_eq, Store.ofJson,
    hfound]

/-- The text of a state's value is read as the value, if the texts in it hold no first halves. -/
theorem read_toJson {s : SavedState} (h : s.Spells HoldsNoHigh) :
    Json.read s.toJson.text = .ok s.toJson := by
  have htexts : ∀ e ∈ s.history, e.HasTexts := fun e he => (h.history e he).hasTexts
  rw [Json.read_text (Json.isHereditary_isReadable.state htexts), toJson_reread, reread_eq_self h]

/-- Both infinities, a negative zero and what is not a number, with an entry of each kind. -/
def nonfinite : SavedState :=
  ⟨[.ofResult "1/0" (Double.signed false Double.infinityBits),
      .ofError "1+" "Unexpected end of expression", .ofPlot "7x" "x"],
    Environment.empty.set "x" ⟨"x=-0", Double.signed true 0⟩,
    some [(Double.signed true Double.infinityBits, Double.signed false Numeral.nanBits)]⟩

theorem spells_nonfinite : nonfinite.Spells HoldsNoHigh := by
  refine ⟨fun e he => ?_, fun e he => ?_, fun e he => ?_⟩
  · simp only [nonfinite, List.mem_cons, List.not_mem_nil, or_false] at he
    rcases he with rfl | rfl | rfl
    · exact HistoryEntry.spells_ofResult (by decide) _
    · exact HistoryEntry.spells_ofError (by decide) (by decide)
    · exact HistoryEntry.spells_ofPlot (by decide) (by decide)
  · rw [List.mem_singleton.1 he]
    decide
  · rw [List.mem_singleton.1 he]
    decide

theorem hasTexts_nonfinite : ∀ e ∈ nonfinite.history, e.HasTexts :=
  fun e he => (spells_nonfinite.history e he).hasTexts

theorem restored_nonfinite :
    ((Store.folder ⟨"/", ["state"]⟩ .missing).write nonfinite).2.read = .ok nonfinite := by
  have hvoid : ∀ e ∈ nonfinite.history, e.isVoid = false := by
    intro e he
    simp only [nonfinite, List.mem_cons, List.not_mem_nil, or_false] at he
    rcases he with rfl | rfl | rfl <;> rfl
  refine (restored hasTexts_nonfinite hvoid).2.2 _ (Path.stateFile ⟨"/", ["state"]⟩) ?_
    (read_toJson spells_nonfinite)
  rw [Store.write_folder hasTexts_nonfinite Slot.noConfusion]

end SavedState

namespace Store

end Store

end LineCalc
