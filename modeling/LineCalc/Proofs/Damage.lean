import LineCalc.Proofs.Json.Integers
import LineCalc.Proofs.Store
/-!
# LineCalc — damaged state files

A start has to make do with whatever bytes stand in the state file. Nearly always it does: what does
not hold a state holds nothing saved. The program is stopped by bytes that are no text, and by two
kinds of integers, those of more digits than are read and those past the largest double where a
number is wanted. Both have a long run of digits, so a text without one is loaded whatever it says
(`load_of_isSafe`); and each of the three does stop the program (`load_file`). How deep a value is
nested is of no account here, since the reader has no bound of its own on that.
-/

namespace LineCalc

/-! ## States made of values that fit -/

/-- Whether a reading of a value ends in something with a property, or in a defect other than a
number that is too large. -/
def Loads {α : Type} (P : α → Prop) : Except Defect α → Prop :=
  Yields (· ≠ .numberTooLarge) P

namespace Json

variable {v : Json} {name : String} {members : List (String × Json)}

/-- **A value that fits has a double, or is no number.** -/
theorem Fits.loads_toFloat (h : v.Fits) : Loads (fun _ => True) v.toFloat := by
  cases h with
  | bool b => exact trivial
  | int hn =>
    obtain ⟨x, hx⟩ := Option.isSome_iff_exists.1 hn
    rw [toFloat, hx]
    exact trivial
  | float x => exact trivial
  | string s =>
    rw [toFloat]
    split
    · exact trivial
    · exact Defect.noConfusion
  | null => exact Defect.noConfusion
  | array _ => exact Defect.noConfusion
  | object _ => exact Defect.noConfusion

/-- Its parts fit. -/
theorem Fits.loads_elements (h : v.Fits) : Loads (fun items => ∀ i ∈ items, i.Fits) v.elements := by
  cases h with
  | array hitems => exact hitems
  | object _ =>
    intro i hi
    obtain ⟨m, -, rfl⟩ := List.mem_map.1 hi
    exact .string m.1
  | string s =>
    intro i hi
    obtain ⟨c, -, rfl⟩ := List.mem_map.1 hi
    exact .string (String.singleton c)
  | null => exact Defect.noConfusion
  | bool b => exact Defect.noConfusion
  | int _ => exact Defect.noConfusion
  | float x => exact Defect.noConfusion

theorem Fits.loads_pair (h : v.Fits) : Loads (fun p => p.1.Fits ∧ p.2.Fits) v.pair := by
  refine h.loads_elements.bind fun items hitems => ?_
  split
  · next a b =>
    have ha := hitems a (.head _)
    have hb := hitems b (.tail _ (.head _))
    exact ⟨ha, hb⟩
  · exact Defect.noConfusion

theorem fits_of_find? (h : ∀ m ∈ members, m.2.Fits) (hv : Entries.find? name members = some v) :
    v.Fits :=
  h (name, v) (Entries.mem_of_find? hv)

theorem fits_of_member? (h : ∀ m ∈ members, m.2.Fits) (hv : member? name members = some v) :
    v.Fits :=
  h (name, v) (mem_of_member? hv).1

end Json

variable {members : List (String × Json)}

theorem HistoryEntry.loads_ofMembers (h : ∀ m ∈ members, m.2.Fits) :
    Loads (fun _ => True) (ofMembers members) := by
  have hend : ∀ e : HistoryEntry, Loads (fun _ => True)
      (if e.isVoid = true then .error (.noOutcome e.expression) else pure e) := by
    intro e
    split
    · exact Defect.noConfusion
    · exact trivial
  unfold ofMembers
  dsimp only
  split
  · next v hv =>
    have hresult : Loads (fun _ => True) (some <$> v.toFloat) :=
      (Json.fits_of_member? h hv).loads_toFloat.map fun _ _ => trivial
    exact hresult.bind fun _ _ => hend _
  · exact hend _

theorem HistoryEntry.loads_ofJson {v : Json} (h : v.Fits) : Loads (fun _ => True) (ofJson v) := by
  cases h with
  | object hmembers => exact loads_ofMembers hmembers
  | _ => exact Defect.noConfusion

theorem Definition.loads_ofJson {v : Json} (h : v.Fits) : Loads (fun _ => True) (ofJson v) := by
  cases h with
  | object hmembers =>
    rw [ofJson, ofMembers]
    split
    · next expression value _ hvalue =>
      exact (Json.fits_of_find? hmembers hvalue).loads_toFloat.bind fun _ _ => trivial
    · exact Defect.noConfusion
    · exact Defect.noConfusion
  | _ => exact Defect.noConfusion

namespace SavedState

theorem loads_historyOf (h : ∀ m ∈ members, m.2.Fits) :
    Loads (fun _ => True) (historyOf members) := by
  unfold historyOf
  split
  · exact trivial
  · next v hv =>
    split
    · exact trivial
    · refine (Json.fits_of_find? h hv).loads_elements.bind fun items hitems => ?_
      exact (Yields.mapM fun i hi => HistoryEntry.loads_ofJson (hitems i hi)).mono fun _ _ => trivial

theorem loads_environmentOf (h : ∀ m ∈ members, m.2.Fits) :
    Loads (fun _ => True) (environmentOf members) := by
  unfold environmentOf
  split
  · exact trivial
  · next v hv =>
    split
    · exact trivial
    · cases Json.fits_of_find? h hv with
      | object hentries =>
        refine (Yields.mapM (Q := fun _ => True) fun e he => ?_).bind fun _ _ => trivial
        exact (Definition.loads_ofJson (hentries e he)).bind fun _ _ => trivial
      | _ => exact Defect.noConfusion

theorem loads_plotOf (h : ∀ m ∈ members, m.2.Fits) : Loads (fun _ => True) (plotOf members) := by
  unfold plotOf
  split
  · exact trivial
  · next v hv =>
    refine (Json.fits_of_member? h hv).loads_elements.bind fun items hitems => ?_
    have hsample : ∀ i ∈ items, Loads (fun _ => True) (sampleOf i) := by
      intro i hi
      refine (hitems i hi).loads_pair.bind fun p hp => ?_
      exact hp.1.loads_toFloat.bind fun _ _ => hp.2.loads_toFloat.bind fun _ _ => trivial
    exact (Yields.mapM hsample).bind fun _ _ => trivial

/-- **An object whose integers have doubles holds a state, or has another defect.** -/
theorem loads_ofMembers (h : ∀ m ∈ members, m.2.Fits) :
    Loads (fun _ => True) (ofMembers members) :=
  (loads_historyOf h).bind fun _ _ => (loads_environmentOf h).bind fun _ _ =>
    (loads_plotOf h).bind fun _ _ => trivial

end SavedState

/-! ## Files -/

namespace Store

variable {directory : Path} {bytes : List UInt8} {cs : List Char}

/-- **A text without long runs of digits holds a state, or there is an error to go on from.** -/
theorem read_of_isSafe (directory : Path) (hdecode : Utf8.decode bytes = some cs)
    (hsafe : Json.IsSafe cs) :
    (∃ s, (folder directory (.file bytes)).read = .ok s) ∨
      ∃ e, (folder directory (.file bytes)).read = .error (.state e) := by
  have hread : (folder directory (.file bytes)).read = ofBytes directory.stateFile bytes := rfl
  have hvalue := Json.read_of_isSafe hsafe
  simp only [hread, ofBytes, hdecode]
  cases hjson : Json.read cs with
  | error refusal =>
    rw [hjson] at hvalue
    obtain rfl : refusal = .malformed := hvalue
    exact .inr ⟨_, rfl⟩
  | ok v =>
    rw [hjson] at hvalue
    have hfits : v.Fits := hvalue
    cases hfits with
    | object hmembers =>
      next members =>
      have hstate := SavedState.loads_ofMembers hmembers
      simp only [ofJson]
      cases hof : SavedState.ofMembers members with
      | ok s => exact .inl ⟨s, rfl⟩
      | error defect =>
        rw [hof] at hstate
        cases defect with
        | numberTooLarge => exact absurd rfl hstate
        | _ => exact .inr ⟨_, rfl⟩
    | _ => exact .inr ⟨_, rfl⟩

/-- **So it is loaded**, as the state or as nothing saved. -/
theorem load_of_isSafe (hdecode : Utf8.decode bytes = some cs) (hsafe : Json.IsSafe cs) :
    (∃ s, (folder directory (.file bytes)).read = .ok s ∧
        (folder directory (.file bytes)).load = .ok s) ∨
      ∃ e, (folder directory (.file bytes)).read = .error (.state e) ∧
        (folder directory (.file bytes)).load = .ok SavedState.empty := by
  rcases read_of_isSafe directory hdecode hsafe with ⟨s, hs⟩ | ⟨e, he⟩
  · refine .inl ⟨s, hs, ?_⟩
    rw [load, hs]
  · refine .inr ⟨e, he, ?_⟩
    rw [load, he]

/-! ### What stops the program -/

/-- Bytes that are no text. -/
theorem load_of_decode_eq_none (h : Utf8.decode bytes = none) :
    (folder directory (.file bytes)).load = .error .notText := by
  simp only [load, read, ofBytes, h]

/-- **Digits that are too many.** The integer is refused before it is read. -/
theorem load_of_long {ds : List Char} (hds : ∀ c ∈ ds, Text.isAsciiDigit c = true)
    (hzero : ds.head? ≠ some '0') (hlong : Numeral.maxDigits < ds.length) :
    (folder directory (.file (Utf8.encode ds))).load = .error .integerTooLong := by
  have hstart : Json.StartsWithDigit ds := by
    cases ds with
    | nil => cases hlong
    | cons c tail => exact ⟨c, tail, rfl, hds c (.head _)⟩
  have hwhole : Json.splitWhole ds = (ds, []) := by
    have hend : ∀ c ∈ ([] : List Char).head?, Text.isAsciiDigit c = false := by
      intro c hc
      cases hc
    have hsplit := Json.splitWhole_append hds hend fun h => absurd h hzero
    rwa [List.append_nil] at hsplit
  have hnumber : Json.readNumber false ds = .error .integerTooLong := by
    have hne : ds.isEmpty = false := by
      obtain ⟨c, tail, rfl, -⟩ := hstart
      rfl
    simp only [Json.readNumber, hwhole, hne, Json.splitPoint, Json.splitPower]
    rw [if_pos hlong]
    rfl
  have hskip : Json.skip ds = ds := (Json.opens_sign false hstart).skip
  have hread : Json.read ds = .error .integerTooLong := by
    have hvalue : Json.readValue (2 * ds.length + 2) ds = Json.readNumber false ds :=
      Json.readValue_sign hstart false
    rw [Json.read, hskip, hvalue, hnumber]
    rfl
  simp only [load, read, ofBytes, Utf8.decode_encode, hread]

/-- An object with one sample, at a whole number. -/
def sampleAt (n : Int) : Json :=
  .object [("plot_data", .array [.array [.int n, .int 0]])]

/-- **Integers past the largest double**, where a number is wanted. -/
theorem load_of_huge {n : Int} (hhuge : Power.two 1024 ≤ n.natAbs)
    (hdigits : (Layout.digits n.natAbs).length ≤ Numeral.maxDigits) :
    (folder directory (.file (Utf8.encode (sampleAt n).text))).load
      = .error .numberTooLarge := by
  have hnone : Numeral.floatOfInt? n = none := by
    have hreaches : Double.Reaches n.natAbs 1 1024 := by
      have hshift : ((1024 : Nat) : Int) - (0 : Nat) = 1024 := rfl
      have hunit : n.natAbs * Power.two 0 = n.natAbs := Nat.mul_one _
      rw [Double.reaches_iff hshift, Nat.one_mul, hunit]
      exact hhuge
    have hbits := Double.nearestBits_huge Nat.one_pos hreaches
    simp only [Numeral.floatOfInt?, hbits, Nat.lt_irrefl, if_false]
  have hreadable : (sampleAt n).IsReadable := by
    simp only [sampleAt, Json.IsReadable, Json.MembersReadable, Json.ItemsReadable, and_true]
    exact ⟨hdigits, by decide⟩
  have hread : Json.read (sampleAt n).text = .ok (sampleAt n) := Json.read_text hreadable
  have htoFloat : (Json.int n).toFloat = .error .numberTooLarge := by
    rw [Json.toFloat, hnone]
  have hsample : SavedState.sampleOf (.array [.int n, .int 0]) = .error .numberTooLarge := by
    simp only [SavedState.sampleOf, Json.pair, Json.elements, bind, Except.bind, pure, Except.pure,
      htoFloat]
  have hplot : SavedState.plotOf [("plot_data", .array [.array [.int n, .int 0]])]
      = .error .numberTooLarge := by
    have hmember : Json.member? "plot_data" [("plot_data", .array [.array [.int n, .int 0]])]
        = some (.array [.array [.int n, .int 0]]) := rfl
    simp only [SavedState.plotOf, hmember, Json.elements, bind, Except.bind, List.mapM_cons, hsample]
  have hmembers : SavedState.ofMembers [("plot_data", .array [.array [.int n, .int 0]])]
      = .error .numberTooLarge := by
    rw [SavedState.ofMembers, hplot]
    rfl
  rw [load, read_file hread]
  simp only [ofJson, sampleAt, hmembers]

/-- **What a start makes of the bytes in the state file.** Any text without a run of more than 308
digits is loaded: it holds a state, or there is an error to go on from with nothing saved. But bytes
that are no text stop the program; and so do an integer of more digits than are read, and one past
the largest double where a number is wanted. -/
theorem load_file (directory : Path) :
    (∀ bytes cs, Utf8.decode bytes = some cs → Json.IsSafe cs →
      (∃ s, (folder directory (.file bytes)).read = .ok s ∧
          (folder directory (.file bytes)).load = .ok s) ∨
        ∃ e, (folder directory (.file bytes)).read = .error (.state e) ∧
          (folder directory (.file bytes)).load = .ok SavedState.empty) ∧
    (∀ bytes, Utf8.decode bytes = none →
      (folder directory (.file bytes)).load = .error .notText) ∧
    (∀ ds : List Char, (∀ c ∈ ds, Text.isAsciiDigit c = true) → ds.head? ≠ some '0' →
      Numeral.maxDigits < ds.length →
        (folder directory (.file (Utf8.encode ds))).load = .error .integerTooLong) ∧
    (∀ n : Int, Power.two 1024 ≤ n.natAbs →
      (Layout.digits n.natAbs).length ≤ Numeral.maxDigits →
        (folder directory (.file (Utf8.encode (sampleAt n).text))).load
          = .error .numberTooLarge) :=
  ⟨fun _ _ hdecode hsafe => load_of_isSafe hdecode hsafe, fun _ h => load_of_decode_eq_none h,
    fun _ hds hzero hlong => load_of_long hds hzero hlong,
    fun _ hhuge hdigits => load_of_huge hhuge hdigits⟩

/-- A number is loaded as nothing saved, and each of three files stops the program. -/
theorem load_file_samples :
    (folder ⟨"/", ["state"]⟩ (.file [0x37])).load = .ok SavedState.empty ∧
      (folder ⟨"/", ["state"]⟩ (.file [0xFF])).load = .error .notText ∧
      (folder ⟨"/", ["state"]⟩ (.file (Utf8.encode (List.replicate 4301 '1')))).load
        = .error .integerTooLong ∧
      (folder ⟨"/", ["state"]⟩ (.file (Utf8.encode (sampleAt (Power.ten 309)).text))).load
        = .error .numberTooLarge := by
  obtain ⟨hsafe, hnotText, hlong, hhuge⟩ := load_file ⟨"/", ["state"]⟩
  refine ⟨?_, hnotText _ rfl, hlong _ ?_ ?_ ?_, hhuge _ ?_ ?_⟩
  · have hdigit : Json.IsSafe ['7'] := by
      intro ds hds _
      have hlength : ds.length ≤ 1 := hds.length_le
      have hbound : (1 : Nat) ≤ Numeral.safeDigits := by decide
      omega
    rcases hsafe [0x37] ['7'] rfl hdigit with ⟨s, hs, -⟩ | ⟨e, -, hload⟩
    · cases hs
    · exact hload
  · intro c hc
    rw [List.eq_of_mem_replicate hc]
    rfl
  · rw [List.head?_replicate]
    decide
  · rw [List.length_replicate]
    decide
  · rw [Int.natAbs_natCast]
    decide +kernel
  · rw [Int.natAbs_natCast]
    decide +kernel

/-- Not every file is read or an error to go on from, and not every file is loaded. -/
theorem not_forall_read_and_load :
    (¬ ∀ (directory : Path) (bytes : List UInt8),
        (∃ s, (folder directory (.file bytes)).read = .ok s) ∨
          ∃ e, (folder directory (.file bytes)).read = .error (.state e)) ∧
      ¬ ∀ (directory : Path) (bytes : List UInt8),
        ∃ s, (folder directory (.file bytes)).load = .ok s := by
  have hread : (folder ⟨"/", ["state"]⟩ (.file [0xFF])).read = .error (.fault .notText) := rfl
  have hload : (folder ⟨"/", ["state"]⟩ (.file [0xFF])).load = .error .notText := rfl
  refine ⟨fun h => ?_, fun h => ?_⟩
  · rcases h ⟨"/", ["state"]⟩ [0xFF] with ⟨s, hs⟩ | ⟨e, he⟩
    · cases hread.symm.trans hs
    · cases hread.symm.trans he
  · obtain ⟨s, hs⟩ := h ⟨"/", ["state"]⟩ [0xFF]
    cases hload.symm.trans hs

end Store

end LineCalc
