import LineCalc.Entries
import LineCalc.Text.Surrogate
/-!
# LineCalc — variables

An `Environment` holds a definition for each name: the line that defined it and the value it got.
Names keep the order in which they were first defined, and each is there once. Expressions see
nothing of it but the values (`value?`).
-/

namespace LineCalc

/-- What a name stands for: its value, and the line that defined it. -/
structure Definition (V : Type) where
  expression : String
  value : V

/-- Definitions under distinct names, in the order in which the names came. -/
structure Environment (V : Type) where
  entries : List (String × Definition V)
  nodup : (Entries.names entries).Nodup

namespace Environment

variable {V : Type}

/-- No variables. -/
def empty : Environment V := ⟨[], by simp [Entries.names]⟩

/-- The definitions of a list; of two under one name the later wins. -/
def ofList (pairs : List (String × Definition V)) : Environment V :=
  ⟨Entries.ofList pairs, Entries.nodup_ofList pairs⟩

/-- The definition of a name. -/
def find? (env : Environment V) (name : String) : Option (Definition V) :=
  Entries.find? name env.entries

/-- The value of a name. -/
def value? (env : Environment V) (name : String) : Option V :=
  (env.find? name).map (·.value)

/-- Gives a name a definition. -/
def set (env : Environment V) (name : String) (d : Definition V) : Environment V :=
  ⟨Entries.set name d env.entries, Entries.nodup_set env.nodup⟩

/-- Takes a name out. -/
def erase (env : Environment V) (name : String) : Environment V :=
  ⟨Entries.erase name env.entries, Entries.nodup_erase env.nodup⟩

/-- How many names there are. -/
def size (env : Environment V) : Nat :=
  env.entries.length

/-- The names, in order. -/
def names (env : Environment V) : List String :=
  Entries.names env.entries

/-- The names by their code points. -/
def sortedNames (env : Environment V) : List String :=
  let codes := fun (name : String) => name.toList.map Text.codePoint
  env.names.mergeSort fun a b => !(codes b).lex (codes a) fun m n => decide (m < n)

/-- **What was defined last is found.** -/
theorem find?_set {env : Environment V} {name other : String} {d : Definition V} :
    (env.set name d).find? other = if other = name then some d else env.find? other :=
  Entries.find?_set

/-- Variables are the list of their definitions. -/
theorem ofList_entries (env : Environment V) : ofList env.entries = env := by
  obtain ⟨entries, hnodup⟩ := env
  simp only [ofList, Entries.ofList_of_nodup hnodup]

end Environment

end LineCalc
