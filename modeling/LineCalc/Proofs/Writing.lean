import LineCalc.Proofs.Resaving
import LineCalc.Proofs.Saving
/-!
# LineCalc — a write that fails keeps the file

`Store.write` tells in one go what becomes of a place that a state is written to. Here the same is
done step by step (`Store.writing`), with so much room to put the text together in: the directory is
found and made, the text of the state is put together, the file is opened, which empties it, and then
it is filled. Each step may raise something and leaves the store as far as it has come; what is raised
is turned into a `StateError` where it is caught, if it is caught at all. Running out of room is not.

That a failed write keeps the file is a matter of the order. Nothing is touched until the text is
complete (`Steps.Passes`), opening a file fails before the file is emptied (`Steps.KeepsOnError`),
and nothing can fail behind that (`Steps.Succeeds`). The text is not complete if a number anywhere in
the state has no text, or if there is no place left for an array or an object that is to be opened,
whichever comes first (`Json.textWithin_eq`); and then no file has been opened.
-/

namespace LineCalc

/-! ## The text of a value, as far as there is one -/

namespace Json

/-- What the text of a value breaks off at. -/
inductive Snag where
  /-- A number has no text. -/
  | flawed (flaw : Flaw)
  /-- There is no place left. -/
  | exhausted
deriving DecidableEq

mutual

/-- The text of a value, put together piece by piece with so much room. It breaks off at the first
number that has no text, and at the first array or object that there is no place for. -/
def textWithin (room : Nat) : Json → Except Snag (List Char)
  | int n =>
    if Numeral.maxDigits < (Layout.digits n.natAbs).length then .error (.flawed .integerTooLong)
    else .ok (intText n)
  | float x => if Double.isFinite x then .ok (floatText x) else .error (.flawed .notFinite)
  | array items =>
    match room with
    | 0 => .error .exhausted
    | room + 1 => do return '[' :: (← itemsTextWithin room items) ++ [']']
  | object members =>
    match room with
    | 0 => .error .exhausted
    | room + 1 => do return '\x7b' :: (← membersTextWithin room members) ++ ['\x7d']
  | v => .ok v.text

/-- The items of an array, as far as they can be put together. -/
def itemsTextWithin (room : Nat) : List Json → Except Snag (List Char)
  | [] => .ok []
  | [v] => v.textWithin room
  | v :: w :: rest => do
    let cs ← v.textWithin room
    let ds ← itemsTextWithin room (w :: rest)
    return cs ++ ',' :: ' ' :: ds

/-- The members of an object, as far as they can be put together. -/
def membersTextWithin (room : Nat) : List (String × Json) → Except Snag (List Char)
  | [] => .ok []
  | [(name, v)] => do return stringText name ++ ':' :: ' ' :: (← v.textWithin room)
  | (name, v) :: w :: rest => do
    let cs ← v.textWithin room
    let ds ← membersTextWithin room (w :: rest)
    return stringText name ++ ':' :: ' ' :: cs ++ ',' :: ' ' :: ds

end

/-- What becomes of a text, if it runs out of room first, or else meets a number without a text. -/
def settle (exhausts : Bool) (flaw? : Option Flaw) (cs : List Char) : Except Snag (List Char) :=
  if exhausts then .error .exhausted
  else
    match flaw? with
    | some flaw => .error (.flawed flaw)
    | none => .ok cs

mutual

/-- **What the text of a value breaks off at**, if it is not complete. -/
theorem textWithin_eq (room : Nat) (v : Json) :
    v.textWithin room = settle (v.exhausts room) v.flaw? v.text := by
  match v with
  | .null | .bool _ | .string _ => rfl
  | .int n =>
    rw [textWithin, exhausts, flaw?, text]
    · split <;> rfl
    all_goals exact fun _ => Json.noConfusion
  | .float x =>
    rw [textWithin, exhausts, flaw?, text]
    · split <;> rfl
    all_goals exact fun _ => Json.noConfusion
  | .array items =>
    rw [flaw?, text]
    cases room with
    | zero => rfl
    | succ room =>
      rw [textWithin, exhausts, itemsTextWithin_eq room items]
      cases itemsExhaust room items <;> cases itemsFlaw? items <;> rfl
  | .object members =>
    rw [flaw?, text]
    cases room with
    | zero => rfl
    | succ room =>
      rw [textWithin, exhausts, membersTextWithin_eq room members]
      cases membersExhaust room members <;> cases membersFlaw? members <;> rfl

theorem itemsTextWithin_eq (room : Nat) (items : List Json) : itemsTextWithin room items
    = settle (itemsExhaust room items) (itemsFlaw? items) (itemsText items) := by
  match items with
  | [] => rfl
  | [v] =>
    rw [itemsTextWithin, textWithin_eq room v, itemsExhaust, itemsExhaust, itemsFlaw?, itemsFlaw?,
      itemsText, Bool.and_false, Bool.or_false, Option.or_none]
  | v :: w :: rest =>
    have hexhaust : itemsExhaust room (v :: w :: rest)
        = (v.exhausts room || v.flaw?.isNone && itemsExhaust room (w :: rest)) := by
      rw [itemsExhaust]
    have hflaw : itemsFlaw? (v :: w :: rest) = v.flaw?.or (itemsFlaw? (w :: rest)) := by
      rw [itemsFlaw?]
    rw [itemsTextWithin, textWithin_eq room v, itemsTextWithin_eq room (w :: rest), hexhaust, hflaw,
      itemsText]
    cases v.exhausts room <;> cases v.flaw? <;> cases itemsExhaust room (w :: rest) <;>
      cases itemsFlaw? (w :: rest) <;> rfl

theorem membersTextWithin_eq (room : Nat) (members : List (String × Json)) :
    membersTextWithin room members
      = settle (membersExhaust room members) (membersFlaw? members) (membersText members) := by
  match members with
  | [] => rfl
  | [(name, v)] =>
    rw [membersTextWithin, textWithin_eq room v, membersExhaust, membersExhaust, membersFlaw?,
      membersFlaw?, membersText, Bool.and_false, Bool.or_false, Option.or_none]
    cases v.exhausts room <;> cases v.flaw? <;> rfl
  | (name, v) :: w :: rest =>
    have hexhaust : membersExhaust room ((name, v) :: w :: rest)
        = (v.exhausts room || v.flaw?.isNone && membersExhaust room (w :: rest)) := by
      rw [membersExhaust]
    have hflaw : membersFlaw? ((name, v) :: w :: rest) = v.flaw?.or (membersFlaw? (w :: rest)) := by
      rw [membersFlaw?]
    rw [membersTextWithin, textWithin_eq room v, membersTextWithin_eq room (w :: rest), hexhaust,
      hflaw, membersText]
    cases v.exhausts room <;> cases v.flaw? <;> cases membersExhaust room (w :: rest) <;>
      cases membersFlaw? (w :: rest) <;> rfl

end

end Json

/-! ## Steps -/

/-- What a step may raise. -/
inductive Raised where
  /-- The system refuses. -/
  | system (cause : StoreCause)
  /-- A value has no form. -/
  | value (cause : StoreCause)
  /-- State cannot be kept. -/
  | state (e : StateError)
  /-- There is no room to go on. -/
  | exhausted

namespace Raised

/-- What becomes of a refusal where a directory is made. -/
def creating (directory : Path) : Raised → Raised
  | system cause => state (.uncreatable directory cause)
  | raised => raised

/-- What becomes of a refusal, and of a value without a form, where a file is written. -/
def writing (file : Path) : Raised → Raised
  | system cause => state (.unwritable file cause)
  | value cause => state (.unwritable file cause)
  | raised => raised

end Raised

/-- Steps at a store. They leave one in any case, whether they come to an end or raise something. -/
abbrev Steps (α : Type) : Type :=
  EStateM Raised Store α

namespace Steps

variable {α β : Type} {x : Steps α} {f : α → Steps β}

/-- Whether steps leave the store alone. -/
def Passes (x : Steps α) : Prop :=
  ∀ store, (∃ a, x.run store = .ok a store) ∨ ∃ raised, x.run store = .error raised store

/-- Whether steps come to an end from every store. -/
def Succeeds (x : Steps α) : Prop :=
  ∀ store, ∃ a store', x.run store = .ok a store'

/-- Whether steps that raise something leave the store as it was. -/
def KeepsOnError (x : Steps α) : Prop :=
  ∀ store raised store', x.run store = .error raised store' → store' = store

theorem Passes.bind (hx : Passes x) (hf : ∀ a, Passes (f a)) : Passes (x >>= f) := by
  intro store
  rw [EStateM.run_bind]
  rcases hx store with ⟨a, ha⟩ | ⟨raised, hraised⟩
  · rw [ha]
    exact hf a store
  · rw [hraised]
    exact .inr ⟨raised, rfl⟩

theorem Passes.adaptExcept (hx : Passes x) (g : Raised → Raised) :
    Passes (EStateM.adaptExcept g x) := by
  intro store
  rw [EStateM.run_adaptExcept]
  rcases hx store with ⟨a, ha⟩ | ⟨raised, hraised⟩
  · rw [ha]
    exact .inl ⟨a, rfl⟩
  · rw [hraised]
    exact .inr ⟨g raised, rfl⟩

/-- **What goes before the store is touched may fail.** -/
theorem Passes.keepsOnError_bind (hx : Passes x) (hf : ∀ a, KeepsOnError (f a)) :
    KeepsOnError (x >>= f) := by
  intro store raised store' h
  rw [EStateM.run_bind] at h
  rcases hx store with ⟨a, ha⟩ | ⟨raised', hraised⟩
  · rw [ha] at h
    exact hf a store raised store' h
  · rw [hraised] at h
    cases h
    rfl

/-- **What goes behind may not.** -/
theorem KeepsOnError.bind_succeeds (hx : KeepsOnError x) (hf : ∀ a, Succeeds (f a)) :
    KeepsOnError (x >>= f) := by
  intro store raised store' h
  rw [EStateM.run_bind] at h
  cases hrun : x.run store with
  | ok a middle =>
    rw [hrun] at h
    obtain ⟨b, last, hlast⟩ := hf a middle
    cases hlast.symm.trans h
  | error raised' middle =>
    rw [hrun] at h
    cases h
    exact hx store raised store' hrun

/-- It makes no difference what the thing is turned into that was raised. -/
theorem KeepsOnError.adaptExcept (hx : KeepsOnError x) (g : Raised → Raised) :
    KeepsOnError (EStateM.adaptExcept g x) := by
  intro store raised store' h
  rw [EStateM.run_adaptExcept] at h
  cases hrun : x.run store with
  | ok a middle =>
    rw [hrun] at h
    cases h
  | error raised' middle =>
    rw [hrun] at h
    cases h
    exact hx store raised' store' hrun

end Steps

/-! ## Writing, step by step -/

namespace Store

open Steps (Passes Succeeds KeepsOnError)

/-- Finds the directory. -/
def locate : Steps Path := do
  match ← get with
  | homeless => throw (.state .noHome)
  | blocked directory => return directory
  | folder directory _ => return directory

/-- Makes the directory, if it is not there. -/
def makeDirectory (directory : Path) : Steps Unit := do
  match ← get with
  | folder _ _ => return ()
  | _ => throw (.system (.fileExists directory))

/-- Finds the directory and makes it. -/
def createDirectory : Steps Path := do
  let directory ← locate
  EStateM.adaptExcept (.creating directory) (makeDirectory directory)
  return directory

/-- Puts the text of a value together, with so much room. -/
def compose (room : Nat) (v : Json) : Steps (List Char) :=
  match v.textWithin room with
  | .ok cs => return cs
  | .error (.flawed flaw) => throw (.value (.ofFlaw flaw))
  | .error .exhausted => throw .exhausted

/-- Opens the file to write to it, by which it is emptied. -/
def openFile (file : Path) : Steps Unit := do
  match ← get with
  | folder _ .directory => throw (.system (.isADirectory file))
  | folder directory _ => set (folder directory (.file []))
  | _ => throw (.system (.notADirectory file))

/-- Fills the file that was opened. -/
def fill (bytes : List UInt8) : Steps Unit :=
  modify fun
    | folder directory _ => folder directory (.file bytes)
    | store => store

/-- Writes a value to the file. The text is complete before the file is opened. -/
def writeFile (room : Nat) (file : Path) (v : Json) : Steps Unit := do
  let cs ← compose room v
  openFile file
  fill (Utf8.encode cs)

/-- **Writes a state, step by step**, with so much room. -/
def writing (room : Nat) (s : SavedState) : Steps Path := do
  let _ ← createDirectory
  let file := (← locate).stateFile
  EStateM.adaptExcept (.writing file) (writeFile room file s.toJson)
  return file

variable {store : Store} {s : SavedState} {room : Nat}

/-! ### Each step -/

theorem passes_locate : Passes locate := by
  intro store
  cases store with
  | homeless => exact .inr ⟨_, rfl⟩
  | blocked directory => exact .inl ⟨directory, rfl⟩
  | folder directory slot => exact .inl ⟨directory, rfl⟩

theorem passes_makeDirectory (directory : Path) : Passes (makeDirectory directory) := by
  intro store
  cases store with
  | homeless => exact .inr ⟨_, rfl⟩
  | blocked directory => exact .inr ⟨_, rfl⟩
  | folder directory slot => exact .inl ⟨(), rfl⟩

theorem passes_createDirectory : Passes createDirectory :=
  passes_locate.bind fun directory =>
    ((passes_makeDirectory directory).adaptExcept _).bind fun _ => fun _ => .inl ⟨directory, rfl⟩

/-- No file is needed to put a text together. -/
theorem passes_compose (room : Nat) (v : Json) : Passes (compose room v) := by
  intro store
  unfold compose
  split
  · next cs _ => exact .inl ⟨cs, rfl⟩
  · exact .inr ⟨_, rfl⟩
  · exact .inr ⟨_, rfl⟩

/-- A file that cannot be opened is not emptied. -/
theorem keepsOnError_openFile (file : Path) : KeepsOnError (openFile file) := by
  intro store raised store' h
  cases store with
  | homeless | blocked directory =>
    cases h
    rfl
  | folder directory slot =>
    cases slot <;> cases h
    rfl

theorem succeeds_fill (bytes : List UInt8) : Succeeds (fill bytes) :=
  fun _ => ⟨(), _, rfl⟩

/-! ### All of them -/

theorem keepsOnError_writeFile (room : Nat) (file : Path) (v : Json) :
    KeepsOnError (writeFile room file v) :=
  (passes_compose room v).keepsOnError_bind fun cs =>
    (keepsOnError_openFile file).bind_succeeds fun _ => succeeds_fill (Utf8.encode cs)

/-- **Whatever is raised on the way, the store is as it was.** -/
theorem keepsOnError_writing (room : Nat) (s : SavedState) : KeepsOnError (writing room s) := by
  refine passes_createDirectory.keepsOnError_bind fun _ => ?_
  refine passes_locate.keepsOnError_bind fun directory => ?_
  refine ((keepsOnError_writeFile room directory.stateFile s.toJson).adaptExcept _).bind_succeeds ?_
  exact fun _ store => ⟨directory.stateFile, store, rfl⟩

/-- What has come of a write, as a result of steps. -/
def outcome : Except StateError Path × Store → EStateM.Result Raised Store Path
  | (.ok file, store) => .ok file store
  | (.error e, store) => .error (.state e) store

/-- What a text breaks off at is raised. -/
theorem compose_eq (room : Nat) (v : Json) : compose room v
    = if v.exhausts room then throw .exhausted
      else
        match v.flaw? with
        | some flaw => throw (.value (.ofFlaw flaw))
        | none => return v.text := by
  rw [compose, Json.textWithin_eq]
  cases v.exhausts room <;> cases v.flaw? <;> rfl

/-- **The steps run out of room, or come to what `write` tells**, and raise nothing else. -/
theorem run_writing (store : Store) (room : Nat) (s : SavedState) : (writing room s).run store
    = if store.exhausts room s then .error .exhausted store else outcome (store.write s) := by
  cases store with
  | homeless => rfl
  | blocked directory => rfl
  | folder directory slot =>
    have hstore : (folder directory slot).exhausts room s = s.toJson.exhausts room := rfl
    rw [hstore]
    simp only [writing, writeFile, compose_eq, write]
    cases s.toJson.exhausts room with
    | true => rfl
    | false =>
      cases s.toJson.flaw? with
      | some flaw => rfl
      | none => cases slot <;> rfl

/-! ## A write that fails -/

/-- **What can be written where, with how much room.** -/
theorem exists_run_writing_eq_ok_iff :
    (∃ file store', (writing room s).run store = .ok file store') ↔
      store.IsUsable ∧ s.IsFinite ∧ s.toJson.IsReadable ∧ s.toJson.nesting ≤ room := by
  have hflaw : s.toJson.flaw? = none ↔ s.IsFinite ∧ s.toJson.IsReadable :=
    s.toJson.flaw?_eq_none_iff.trans (and_congr_left' SavedState.isStrict_toJson_iff)
  have hok : (∃ file store', outcome (store.write s) = .ok file store') ↔
      store.IsUsable ∧ s.toJson.flaw? = none := by
    rw [← exists_write_eq_ok_iff]
    rcases store.write s with ⟨_ | file, store'⟩ <;> simp [outcome]
  rw [run_writing, ← and_assoc (b := s.IsFinite), ← and_assoc, and_assoc (a := store.IsUsable),
    ← hflaw]
  split
  · next hexhausts =>
    refine iff_of_false (fun ⟨_, _, h⟩ => nomatch h) fun h => ?_
    rw [store.exhausts_eq_false h.2] at hexhausts
    cases hexhausts
  · next hexhausts =>
    rw [hok]
    refine ⟨fun h => ⟨h, Nat.le_of_not_lt fun hlt => hexhausts ?_⟩, fun h => h.1⟩
    obtain ⟨⟨directory, slot, rfl, -⟩, hnone⟩ := h
    exact Json.exhausts_of_lt_nesting hnone hlt

/-- **A state is written, or the file is kept.** Done step by step, a write comes to an end and the file
holds the text of the state, or it raises something and leaves the store exactly as it was. What it
raises is a `StateError`, unless it runs out of room, which is the one thing that is not caught. It
comes to an end exactly if a file can be written in the place, the numbers of the state are finite and
not too long, and there is room for all of its levels; and with room for them it comes to what `write`
tells. -/
theorem writing_keeps_or_replaces (store : Store) (room : Nat) (s : SavedState) :
    ((∃ e, (writing room s).run store = .error (.state e) store) ∨
        (∃ directory slot, store = .folder directory slot ∧
          (writing room s).run store = .ok directory.stateFile (holding directory s)) ∨
        (writing room s).run store = .error .exhausted store ∧ store.exhausts room s = true) ∧
      ((∃ file store', (writing room s).run store = .ok file store') ↔
        store.IsUsable ∧ s.IsFinite ∧ s.toJson.IsReadable ∧ s.toJson.nesting ≤ room) ∧
      (s.toJson.nesting ≤ room → (writing room s).run store = outcome (store.write s)) := by
  have hrun := run_writing store room s
  refine ⟨?_, exists_run_writing_eq_ok_iff, fun hnesting => ?_⟩
  · split at hrun
    · next hexhausts => exact .inr (.inr ⟨hrun, hexhausts⟩)
    · rcases hwrite : store.write s with ⟨e | file, store'⟩
      · have hraised : (writing room s).run store = .error (.state e) store' := by
          rw [hrun, hwrite]
          rfl
        obtain rfl := keepsOnError_writing room s store (.state e) store' hraised
        exact .inl ⟨e, hraised⟩
      · obtain ⟨⟨directory, slot, rfl, hslot⟩, hflaw⟩ :=
          exists_write_eq_ok_iff.1 ⟨file, congrArg Prod.fst hwrite⟩
        refine .inr (.inl ⟨directory, slot, rfl, ?_⟩)
        rw [hrun, write_folder_of_flaw? hflaw hslot]
        rfl
  · rw [hrun, store.exhausts_eq_false hnesting, if_neg Bool.false_ne_true]

/-- **No amount of room is enough for every state that is loaded**: there is one that cannot be written,
and no `StateError` tells it. -/
theorem not_exists_writing_ne_exhausted : ¬ ∃ room, ∀ (store : Store) (s : SavedState),
    store.read = .ok s → (writing room s).run store ≠ .error .exhausted store := by
  rintro ⟨room, hroom⟩
  let directory : Path := ⟨"/", ["state"]⟩
  have hexhausts : (holding directory (Desk.deep room)).exhausts room (Desk.deep room) = true :=
    Desk.exhausts_apply_deep room .nothing
  refine hroom _ (Desk.deep room) (Desk.read_deep directory room) ?_
  rw [run_writing, hexhausts, if_pos rfl]

end Store

end LineCalc
