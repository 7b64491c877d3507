import LineCalc.Proofs.Double.Bits
import LineCalc.Proofs.Json.Room
import LineCalc.Proofs.Results
import LineCalc.SavedState
/-!
# LineCalc — a saved state is read back

A state is turned into a JSON value part by part, and each part is found again in its member:
numbers (`Json.toFloat_ofFloat`), entries of the history (`HistoryEntry.ofJson_toJson`), definitions
(`Definition.ofJson_toJson`) under their names, and samples. So the whole state is found again, in
its order (`SavedState.ofMembers_members`), as long as no entry is void. No number in the value is
anything but finite, unless an entry carries one as its error or its name
(`SavedState.isStrict_toJson_iff`). The value has three levels, and more only if an entry carries a
value with levels of its own (`SavedState.nesting_toJson_le_iff`).
-/

namespace LineCalc

/-! ## Numbers -/

namespace Json

/-- What is not finite is a word, so that the value is strict. -/
theorem isStrict_ofFloat (x : Float) : (ofFloat x).isStrict = true := by
  rw [ofFloat]
  split
  · rfl
  · rfl
  · rfl
  · next h => rw [isStrict, Double.isFinite, h]

/-- **A double is found again**: the word of what is not finite spells it. -/
theorem toFloat_ofFloat (x : Float) : (ofFloat x).toFloat = .ok x := by
  have hnan : Numeral.float? "nan" = some (Double.signed false Numeral.nanBits) := by rfl
  have hinf : Numeral.float? "inf" = some (Double.signed false Double.infinityBits) := by rfl
  have hneg : Numeral.float? "-inf" = some (Double.signed true Double.infinityBits) := by rfl
  rw [ofFloat]
  split
  · next h => rw [toFloat, hnan, Double.eq_nan h]
  · next h => rw [toFloat, hinf, Double.eq_infinity h]
  · next h => rw [toFloat, hneg, Double.eq_infinity h]
  · rfl

/-- A double has a value. -/
theorem ofFloat_ne_null (x : Float) : ofFloat x ≠ .null := by
  rw [ofFloat]
  split <;> exact Json.noConfusion

/-- What is found is a member, and no null. -/
theorem mem_of_member? {name : String} {members : List (String × Json)} {v : Json}
    (h : member? name members = some v) : (name, v) ∈ members ∧ v ≠ .null := by
  unfold member? at h
  split at h
  · cases h
  · next hnull =>
    refine ⟨Entries.mem_of_find? h, ?_⟩
    rintro rfl
    exact hnull h

/-- What may be missing is found where it is, and missed where it is not. -/
theorem member?_ofOption {α : Type} {f : α → Json} {a : Option α} {name : String}
    {members : List (String × Json)} (h : Entries.find? name members = some (ofOption f a))
    (hf : ∀ b, a = some b → f b ≠ .null) : member? name members = a.map f := by
  rw [member?, h]
  cases a with
  | none => rfl
  | some b =>
    have hb := hf b rfl
    rw [ofOption, Option.map_some]
    split
    · next hnull => exact absurd (Option.some.inj hnull) hb
    · rfl

end Json

/-! ## Entries of the history -/

namespace HistoryEntry

/-- Whether the error and the name have a property, where they are there. -/
structure Carries (p : Json → Prop) (e : HistoryEntry) : Prop where
  error : ∀ v, e.error = some v → p v
  plotName : ∀ v, e.plotName = some v → p v

/-- Whether the error and the name are values other than null, where they are there. -/
structure HasValues (e : HistoryEntry) : Prop where
  error : ∀ v, e.error = some v → v ≠ .null
  plotName : ∀ v, e.plotName = some v → v ≠ .null

/-- Whether the error and the name are texts, where they are there. -/
structure HasTexts (e : HistoryEntry) : Prop where
  error : ∀ v, e.error = some v → ∃ s, v = .string s
  plotName : ∀ v, e.plotName = some v → ∃ s, v = .string s

/-- Texts are values. -/
theorem HasTexts.hasValues {e : HistoryEntry} (h : e.HasTexts) : e.HasValues := by
  refine ⟨fun v hv => ?_, fun v hv => ?_⟩
  · obtain ⟨s, rfl⟩ := h.error v hv
    exact Json.noConfusion
  · obtain ⟨s, rfl⟩ := h.plotName v hv
    exact Json.noConfusion

/-- What holds of texts holds of what such an entry carries. -/
theorem HasTexts.carries {e : HistoryEntry} (h : e.HasTexts) {p : Json → Prop}
    (hp : ∀ s, p (.string s)) : e.Carries p := by
  refine ⟨fun v hv => ?_, fun v hv => ?_⟩
  · obtain ⟨s, rfl⟩ := h.error v hv
    exact hp s
  · obtain ⟨s, rfl⟩ := h.plotName v hv
    exact hp s

/-- The members of an entry. -/
def members (e : HistoryEntry) : List (String × Json) :=
  [("expression", .string e.expression), ("result", Json.ofOption Json.ofFloat e.result),
    ("error", Json.ofOption id e.error)] ++
  match e.plotName with
  | none => []
  | some name => [("plot_variable", name)]

/-- An entry is the object of its members. -/
theorem toJson_eq (e : HistoryEntry) : e.toJson = .object e.members := by
  rw [toJson, members]
  cases e.plotName <;> rfl

/-- What an entry carries stands among its members. -/
theorem carries_of_forall_members {e : HistoryEntry} {p : Json → Prop}
    (h : ∀ m ∈ e.members, p m.2) : e.Carries p := by
  refine ⟨fun v hv => ?_, fun v hv => ?_⟩
  · have hmem : ("error", Json.ofOption id e.error) ∈ e.members :=
      List.mem_append_left _ (.tail _ (.tail _ (.head _)))
    have herror := h _ hmem
    rwa [hv] at herror
  · have hmem : ("plot_variable", v) ∈ e.members := by
      rw [members, hv]
      exact List.mem_append_right _ (.head _)
    exact h _ hmem

/-- The other members are null, texts and doubles. -/
theorem Carries.forall_members {e : HistoryEntry} {p : Json → Prop} (h : e.Carries p)
    (hnull : p .null) (hstring : ∀ s, p (.string s)) (hfloat : ∀ x, p (Json.ofFloat x)) :
    ∀ m ∈ e.members, p m.2 := by
  have hoption : ∀ {α : Type} (f : α → Json) (a : Option α), (∀ b, a = some b → p (f b)) →
      p (Json.ofOption f a) := by
    intro α f a hf
    cases a with
    | none => exact hnull
    | some b => exact hf b rfl
  intro m hm
  rw [members, List.mem_append] at hm
  rcases hm with hm | hm
  · simp only [List.mem_cons, List.not_mem_nil, or_false] at hm
    rcases hm with rfl | rfl | rfl
    · exact hstring e.expression
    · exact hoption Json.ofFloat e.result fun x _ => hfloat x
    · exact hoption id e.error h.error
  · cases hname : e.plotName with
    | none =>
      rw [hname] at hm
      cases hm
    | some v =>
      rw [hname, List.mem_singleton] at hm
      rw [hm]
      exact h.plotName v hname

/-- **An entry is found again**, unless nothing came of its line. -/
theorem ofJson_toJson {e : HistoryEntry} (he : e.HasValues) :
    ofJson e.toJson = if e.isVoid then .error (.noOutcome e.expression) else .ok e := by
  have hexpression : Entries.find? "expression" e.members = some (.string e.expression) := rfl
  have hresult : Json.member? "result" e.members = e.result.map Json.ofFloat :=
    Json.member?_ofOption rfl fun x _ => Json.ofFloat_ne_null x
  have herror : Json.member? "error" e.members = e.error :=
    (Json.member?_ofOption rfl he.error).trans Option.map_id'
  have hname : Json.member? "plot_variable" e.members = e.plotName := by
    rw [members]
    cases hplot : e.plotName with
    | none => rfl
    | some name =>
      have hvalue := he.plotName name hplot
      cases name <;> first | rfl | exact absurd rfl hvalue
  rw [toJson_eq, ofJson, ofMembers]
  simp only [hexpression, hresult, herror, hname]
  obtain ⟨expression, result, error, plotName⟩ := e
  cases result with
  | none => rfl
  | some x =>
    simp only [Option.map_some, Json.toFloat_ofFloat]
    rfl

/-- A history without void entries is found again. -/
theorem mapM_ofJson {history : List HistoryEntry} (hvalues : ∀ e ∈ history, e.HasValues)
    (hvoid : ∀ e ∈ history, e.isVoid = false) : (history.map toJson).mapM ofJson = .ok history := by
  refine mapM_map_eq_ok fun e he => ?_
  rw [ofJson_toJson (hvalues e he), hvoid e he]
  rfl

/-- The first void entry of a history stops its reading. -/
theorem mapM_ofJson_of_isVoid {history : List HistoryEntry} (hvalues : ∀ e ∈ history, e.HasValues)
    (hvoid : ∃ e ∈ history, e.isVoid = true) :
    ∃ expression, (history.map toJson).mapM ofJson = .error (.noOutcome expression) := by
  induction history with
  | nil =>
    obtain ⟨e, he, -⟩ := hvoid
    cases he
  | cons e rest ih =>
    rw [List.map_cons, List.mapM_cons, ofJson_toJson (hvalues e List.mem_cons_self)]
    -- the entries before the void one are found, and then lost with it
    by_cases hfirst : e.isVoid = true
    · exact ⟨e.expression, by rw [if_pos hfirst]; rfl⟩
    · obtain ⟨e', hmem, he'⟩ := hvoid
      have hrest : e' ∈ rest := (List.mem_cons.1 hmem).resolve_left fun h => hfirst (h ▸ he')
      obtain ⟨expression, hx⟩ :=
        ih (fun d hd => hvalues d (List.mem_cons_of_mem e hd)) ⟨e', hrest, he'⟩
      exact ⟨expression, by rw [if_neg hfirst, hx]; rfl⟩

end HistoryEntry

/-! ## Definitions -/

namespace Definition

/-- **A definition is found again.** -/
theorem ofJson_toJson (d : Definition Float) : ofJson d.toJson = .ok d := by
  have hexpression : Entries.find? "expression"
      [("expression", Json.string d.expression), ("value", Json.ofFloat d.value)]
        = some (.string d.expression) := rfl
  have hvalue : Entries.find? "value"
      [("expression", Json.string d.expression), ("value", Json.ofFloat d.value)]
        = some (Json.ofFloat d.value) := rfl
  rw [toJson, ofJson, ofMembers, hexpression, hvalue]
  simp only [Json.toFloat_ofFloat]
  rfl

end Definition

namespace SavedState

/-- A sample is found again. -/
theorem sampleOf_ofSample (s : Float × Float) : sampleOf (Json.ofSample s) = .ok s := by
  rw [sampleOf, Json.ofSample]
  simp only [Json.pair, Json.elements, bind, Except.bind, pure, Except.pure, Json.toFloat_ofFloat]

/-- The members of a state. -/
def members (s : SavedState) : List (String × Json) :=
  [("history", .array (s.history.map HistoryEntry.toJson)), ("variables", s.environment.toJson),
    ("plot_data", Json.ofOption (fun samples => .array (samples.map Json.ofSample)) s.plot)]

/-- **The history is found entry by entry**, in its order. -/
theorem historyOf_members (s : SavedState) :
    historyOf s.members = (s.history.map HistoryEntry.toJson).mapM HistoryEntry.ofJson := by
  have hfind : Entries.find? "history" s.members
      = some (.array (s.history.map HistoryEntry.toJson)) := rfl
  rw [historyOf, hfind]
  cases s.history <;> rfl

/-- **The variables are found again**, each name with its definition and in its place. -/
theorem environmentOf_members (s : SavedState) : environmentOf s.members = .ok s.environment := by
  have hfind : Entries.find? "variables" s.members
      = some (.object (s.environment.entries.map fun e => (e.1, e.2.toJson))) := rfl
  have hentries : (s.environment.entries.map fun e => (e.1, e.2.toJson)).mapM
      (fun e => do return (e.1, ← Definition.ofJson e.2))
        = (.ok s.environment.entries : Except Defect _) := by
    refine mapM_map_eq_ok fun e _ => ?_
    simp only [Definition.ofJson_toJson]
    rfl
  have hlist := s.environment.ofList_entries
  rw [environmentOf, hfind]
  cases hempty : s.environment.entries with
  | nil =>
    rw [hempty] at hlist
    exact congrArg Except.ok hlist
  | cons e rest =>
    rw [hempty] at hentries hlist
    have hblank : (Json.object ((e :: rest).map fun e => (e.1, e.2.toJson))).isBlank = false := rfl
    simp only [hblank]
    rw [if_neg (by decide), hentries]
    exact congrArg Except.ok hlist

/-- Samples are found where they are the member for them, and none where it is missing. -/
theorem plotOf_of_member? {plot : Option (List (Float × Float))} {members : List (String × Json)}
    (h : Json.member? "plot_data" members
      = plot.map fun samples => .array (samples.map Json.ofSample)) : plotOf members = .ok plot := by
  rw [plotOf, h]
  cases plot with
  | none => rfl
  | some samples =>
    have hsamples : (samples.map Json.ofSample).mapM sampleOf = .ok samples :=
      mapM_map_eq_ok fun p _ => sampleOf_ofSample p
    simp only [Option.map_some, Json.elements, bind, Except.bind, hsamples]
    rfl

/-- **The samples are found again**, none where there were none. -/
theorem plotOf_members (s : SavedState) : plotOf s.members = .ok s.plot :=
  plotOf_of_member? (Json.member?_ofOption rfl fun _ _ => Json.noConfusion)

/-- **A state is found again in its value.** -/
theorem ofMembers_members {s : SavedState} (hvalues : ∀ e ∈ s.history, e.HasValues)
    (hvoid : ∀ e ∈ s.history, e.isVoid = false) : ofMembers s.members = .ok s := by
  rw [ofMembers, historyOf_members, HistoryEntry.mapM_ofJson hvalues hvoid, environmentOf_members,
    plotOf_members]
  rfl

/-- **A void entry makes the whole value unusable**, and is told. -/
theorem ofMembers_members_of_isVoid {s : SavedState} (hvalues : ∀ e ∈ s.history, e.HasValues)
    (hvoid : ∃ e ∈ s.history, e.isVoid = true) :
    ∃ expression, ofMembers s.members = .error (.noOutcome expression) := by
  obtain ⟨expression, hx⟩ := HistoryEntry.mapM_ofJson_of_isVoid hvalues hvoid
  exact ⟨expression, by rw [ofMembers, historyOf_members, hx]; rfl⟩

/-- The value of a state is the object of its members. -/
theorem toJson_eq (s : SavedState) : s.toJson = .object s.members := rfl

end SavedState

/-! ## What the values are made of -/

namespace Json

/-- Whether a property of values passes from the parts to the whole, and the parts that a state is
made of have it. -/
structure IsHereditary (p : Json → Prop) : Prop where
  null : p .null
  string : ∀ s, p (.string s)
  ofFloat : ∀ x, p (ofFloat x)
  array : ∀ items, (∀ v ∈ items, p v) → p (.array items)
  object : ∀ members, (∀ m ∈ members, p m.2) → p (.object members)

theorem isHereditary_isStrict : IsHereditary fun v => v.isStrict = true where
  null := rfl
  string _ := rfl
  ofFloat := isStrict_ofFloat
  array _ := itemsStrict_iff.2
  object _ := membersStrict_iff.2

variable {p : Json → Prop}

theorem IsHereditary.ofOption {α : Type} (hp : IsHereditary p) {f : α → Json} {a : Option α}
    (hf : ∀ b, a = some b → p (f b)) : p (Json.ofOption f a) := by
  cases a with
  | none => exact hp.null
  | some b => exact hf b rfl

theorem IsHereditary.entry (hp : IsHereditary p) {e : HistoryEntry} (he : e.Carries p) :
    p e.toJson := by
  rw [HistoryEntry.toJson_eq]
  exact hp.object _ (he.forall_members hp.null hp.string hp.ofFloat)

theorem IsHereditary.definition (hp : IsHereditary p) (d : Definition Float) : p d.toJson := by
  refine hp.object _ fun m hm => ?_
  simp only [List.mem_cons, List.not_mem_nil, or_false] at hm
  rcases hm with rfl | rfl
  · exact hp.string _
  · exact hp.ofFloat _

theorem IsHereditary.sample (hp : IsHereditary p) (s : Float × Float) : p (Json.ofSample s) := by
  refine hp.array _ fun v hv => ?_
  simp only [List.mem_cons, List.not_mem_nil, or_false] at hv
  rcases hv with rfl | rfl <;> exact hp.ofFloat _

theorem IsHereditary.samples (hp : IsHereditary p) (samples : List (Float × Float)) :
    p (.array (samples.map Json.ofSample)) := by
  refine hp.array _ fun v hv => ?_
  obtain ⟨s, -, rfl⟩ := List.mem_map.1 hv
  exact hp.sample s

/-- **What holds of the parts of a state holds of its value.** -/
theorem IsHereditary.state_of_carries (hp : IsHereditary p) {s : SavedState}
    (hcarries : ∀ e ∈ s.history, e.Carries p) : p s.toJson := by
  refine hp.object _ fun m hm => ?_
  simp only [List.mem_cons, List.not_mem_nil, or_false] at hm
  rcases hm with rfl | rfl | rfl
  · refine hp.array _ fun v hv => ?_
    obtain ⟨e, he, rfl⟩ := List.mem_map.1 hv
    exact hp.entry (hcarries e he)
  · refine hp.object _ fun m hm => ?_
    obtain ⟨e, -, rfl⟩ := List.mem_map.1 hm
    exact hp.definition e.2
  · exact hp.ofOption fun samples _ => hp.samples samples

/-- Texts are among the parts. -/
theorem IsHereditary.state (hp : IsHereditary p) {s : SavedState}
    (htexts : ∀ e ∈ s.history, e.HasTexts) : p s.toJson :=
  hp.state_of_carries fun e he => (htexts e he).carries hp.string

end Json

/-! ## From a value to the parts of a state -/

namespace Json

/-- Whether a property of values passes from the whole to the parts. -/
structure PassesDown (p : Json → Prop) : Prop where
  array : ∀ {items}, p (.array items) → ∀ v ∈ items, p v
  object : ∀ {members}, p (.object members) → ∀ m ∈ members, p m.2

theorem passesDown_isStrict : PassesDown fun v => v.isStrict = true where
  array := itemsStrict_iff.1
  object := membersStrict_iff.1

variable {p : Json → Prop}

theorem PassesDown.entry (hp : PassesDown p) {e : HistoryEntry} (he : p e.toJson) : e.Carries p := by
  rw [HistoryEntry.toJson_eq] at he
  exact HistoryEntry.carries_of_forall_members (hp.object he)

/-- **The value of a state has a property exactly if what its entries carry has it**, if the property
passes both ways. -/
theorem IsHereditary.state_iff (hp : IsHereditary p) (hdown : PassesDown p) {s : SavedState} :
    p s.toJson ↔ ∀ e ∈ s.history, e.Carries p := by
  refine ⟨fun h e he => ?_, hp.state_of_carries⟩
  have hhistory : p (.array (s.history.map HistoryEntry.toJson)) :=
    hdown.object h ("history", _) (.head _)
  exact hdown.entry (hdown.array hhistory _ (List.mem_map_of_mem he))

end Json

/-- **The doubles of a state are finite exactly if those are that its entries carry.** -/
theorem SavedState.isStrict_toJson_iff {s : SavedState} :
    s.toJson.isStrict = true ↔ ∀ e ∈ s.history, e.Carries fun v => v.isStrict = true :=
  Json.isHereditary_isStrict.state_iff Json.passesDown_isStrict

/-! ## Levels -/

theorem Json.nesting_ofFloat (x : Float) : (ofFloat x).nesting = 0 := by
  rw [ofFloat]
  split <;> rfl

theorem Json.nesting_ofOption_le {α : Type} {f : α → Json} {a : Option α} {n : Nat}
    (hf : ∀ b, a = some b → (f b).nesting ≤ n) : (ofOption f a).nesting ≤ n := by
  cases a with
  | none => exact Nat.zero_le n
  | some b => exact hf b rfl

/-- An entry has one level more than what it carries. -/
theorem HistoryEntry.nesting_toJson_le_iff {e : HistoryEntry} {n : Nat} :
    e.toJson.nesting ≤ n + 1 ↔ e.Carries fun v => v.nesting ≤ n := by
  have hfloat : ∀ x, (Json.ofFloat x).nesting ≤ n := by
    intro x
    rw [Json.nesting_ofFloat]
    exact Nat.zero_le n
  rw [toJson_eq, Json.nesting_object_le_iff]
  exact ⟨fun h => carries_of_forall_members h, fun h =>
    h.forall_members (Nat.zero_le n) (fun _ => Nat.zero_le n) hfloat⟩

/-- A definition has one level. -/
theorem Definition.nesting_toJson_le (d : Definition Float) : d.toJson.nesting ≤ 1 := by
  refine Json.nesting_object_le_iff.2 fun m hm => ?_
  simp only [List.mem_cons, List.not_mem_nil, or_false] at hm
  rcases hm with rfl | rfl
  · exact Nat.le_refl 0
  · exact Nat.le_of_eq (Json.nesting_ofFloat d.value)

/-- So has a sample. -/
theorem Json.nesting_ofSample_le (s : Float × Float) : (ofSample s).nesting ≤ 1 := by
  refine nesting_array_le_iff.2 fun v hv => ?_
  simp only [List.mem_cons, List.not_mem_nil, or_false] at hv
  rcases hv with rfl | rfl <;> exact Nat.le_of_eq (nesting_ofFloat _)

/-- **A state has three levels of its own**, and below them those of what its entries carry. -/
theorem SavedState.nesting_toJson_le_iff {s : SavedState} {n : Nat} :
    s.toJson.nesting ≤ n + 3 ↔ ∀ e ∈ s.history, e.Carries fun v => v.nesting ≤ n := by
  have hhistory : (Json.array (s.history.map HistoryEntry.toJson)).nesting ≤ n + 2 ↔
      ∀ e ∈ s.history, e.Carries fun v => v.nesting ≤ n := by
    rw [Json.nesting_array_le_iff, List.forall_mem_map]
    exact forall₂_congr fun e _ => HistoryEntry.nesting_toJson_le_iff
  rw [← hhistory, toJson_eq, Json.nesting_object_le_iff]
  refine ⟨fun h => h ("history", _) (.head _), fun h m hm => ?_⟩
  simp only [members, List.mem_cons, List.not_mem_nil, or_false] at hm
  rcases hm with rfl | rfl | rfl
  · exact h
  · refine Json.nesting_object_le_iff.2 fun m hm => ?_
    obtain ⟨e, -, rfl⟩ := List.mem_map.1 hm
    exact (Definition.nesting_toJson_le e.2).trans (by omega)
  · refine Json.nesting_ofOption_le fun samples _ => Json.nesting_array_le_iff.2 fun v hv => ?_
    obtain ⟨p, -, rfl⟩ := List.mem_map.1 hv
    exact (Json.nesting_ofSample_le p).trans (by omega)

end LineCalc
