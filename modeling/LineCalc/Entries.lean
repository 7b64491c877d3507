/-!
# LineCalc — entries under names, in order

A list of named entries that keeps the order in which names first came: `set` puts a new name at
the end and replaces a known one in its place. The members of a JSON object and the variables of a
session are kept this way.
-/

namespace LineCalc

namespace Entries

variable {α : Type}

/-- The entry under a name. -/
def find? (name : String) : List (String × α) → Option α
  | [] => none
  | (n, a) :: rest => if n = name then some a else find? name rest

/-- Puts an entry under a name: in place of the entry that is there, else at the end. -/
def set (name : String) (a : α) : List (String × α) → List (String × α)
  | [] => [(name, a)]
  | (n, b) :: rest => if n = name then (n, a) :: rest else (n, b) :: set name a rest

/-- Takes the entry under a name out. -/
def erase (name : String) : List (String × α) → List (String × α)
  | [] => []
  | (n, b) :: rest => if n = name then rest else (n, b) :: erase name rest

/-- The names, in order. -/
def names (entries : List (String × α)) : List String :=
  entries.map (·.1)

/-- All of `pairs`, put in one after the other: of two under one name the later wins. -/
def ofList (pairs : List (String × α)) : List (String × α) :=
  pairs.foldl (fun entries p => set p.1 p.2 entries) []

/-- **What was put under a name is found there**, and the other names are left alone. -/
theorem find?_set {name other : String} {a : α} {entries : List (String × α)} :
    find? other (set name a entries) = if other = name then some a else find? other entries := by
  induction entries with
  | nil =>
    by_cases h : other = name
    · simp [set, find?, h]
    · simp [set, find?, h, Ne.symm h]
  | cons p rest ih =>
    obtain ⟨n, b⟩ := p
    by_cases hn : n = name
    · subst hn
      by_cases h : other = n
      · simp [set, find?, h]
      · simp [set, find?, h, Ne.symm h]
    · by_cases h : n = other
      · subst h
        simp [set, find?, hn]
      · simp [set, find?, hn, h, ih]

/-- A name put in is new at the end, or was there. -/
theorem names_set {name : String} {a : α} {entries : List (String × α)} :
    names (set name a entries)
      = if name ∈ names entries then names entries else names entries ++ [name] := by
  induction entries with
  | nil => simp [set, names]
  | cons p rest ih =>
    obtain ⟨n, b⟩ := p
    by_cases hn : n = name
    · subst hn
      simp [set, names]
    · simp only [names, List.map_cons, List.mem_cons] at ih ⊢
      rw [set, if_neg hn, List.map_cons, ih]
      have hn' : name ≠ n := Ne.symm hn
      by_cases h : name ∈ rest.map (·.1) <;> simp [h, hn']

/-- **Names stay distinct.** -/
theorem nodup_set {name : String} {a : α} {entries : List (String × α)}
    (h : (names entries).Nodup) : (names (set name a entries)).Nodup := by
  rw [names_set]
  split
  · exact h
  · next hn =>
    refine List.nodup_append.2 ⟨h, by simp, ?_⟩
    rintro a ha b hb rfl
    exact hn (List.mem_singleton.1 hb ▸ ha)

/-- Taking an entry out leaves a part of the names. -/
theorem names_erase_sublist {name : String} {entries : List (String × α)} :
    (names (erase name entries)).Sublist (names entries) := by
  induction entries with
  | nil => exact List.Sublist.slnil
  | cons p rest ih =>
    obtain ⟨n, b⟩ := p
    by_cases hn : n = name
    · simp [erase, names, hn]
    · simpa [erase, names, hn] using ih

/-- So names stay distinct when one goes. -/
theorem nodup_erase {name : String} {entries : List (String × α)}
    (h : (names entries).Nodup) : (names (erase name entries)).Nodup :=
  names_erase_sublist.nodup h

/-- **The names of a list of pairs are distinct once they are put in.** -/
theorem nodup_ofList (pairs : List (String × α)) : (names (ofList pairs)).Nodup := by
  unfold ofList
  have : ∀ (entries : List (String × α)), (names entries).Nodup →
      (names (pairs.foldl (fun entries p => set p.1 p.2 entries) entries)).Nodup := by
    induction pairs with
    | nil => exact fun _ h => h
    | cons p rest ih => exact fun entries h => ih _ (nodup_set h)
  exact this [] (by simp [names])

/-- What is found under a name is there. -/
theorem mem_of_find? {name : String} {a : α} {entries : List (String × α)}
    (h : find? name entries = some a) : (name, a) ∈ entries := by
  induction entries with
  | nil => cases h
  | cons p rest ih =>
    obtain ⟨n, b⟩ := p
    rw [find?] at h
    split at h
    · next hn =>
      cases h
      rw [hn]
      exact List.mem_cons_self
    · exact List.mem_cons_of_mem _ (ih h)

/-- What is there after an entry was put in was there before, or is the new one. -/
theorem mem_set {name : String} {a : α} {entries : List (String × α)} {e : String × α}
    (h : e ∈ set name a entries) : e = (name, a) ∨ e ∈ entries := by
  induction entries with
  | nil => exact .inl (List.mem_singleton.1 h)
  | cons p rest ih =>
    obtain ⟨n, b⟩ := p
    rw [set] at h
    split at h
    · next hn =>
      subst hn
      exact (List.mem_cons.1 h).imp_right (List.mem_cons_of_mem _)
    · rcases List.mem_cons.1 h with rfl | h
      · exact .inr List.mem_cons_self
      · exact (ih h).imp_right (List.mem_cons_of_mem _)

/-- Entries are put in under their names, whatever they are turned into. -/
theorem set_map {β : Type} (f : α → β) {name : String} {a : α} {entries : List (String × α)} :
    set name (f a) (entries.map fun p => (p.1, f p.2))
      = (set name a entries).map fun p => (p.1, f p.2) := by
  induction entries with
  | nil => rfl
  | cons p rest ih =>
    obtain ⟨n, b⟩ := p
    rw [List.map_cons, set, set, ih]
    split <;> rfl

/-- **Putting in commutes with turning the entries into others.** -/
theorem ofList_map {β : Type} (f : α → β) (pairs : List (String × α)) :
    ofList (pairs.map fun p => (p.1, f p.2)) = (ofList pairs).map fun p => (p.1, f p.2) := by
  have key : ∀ (pairs entries : List (String × α)),
      (pairs.map fun p => (p.1, f p.2)).foldl (fun es p => set p.1 p.2 es)
          (entries.map fun p => (p.1, f p.2))
        = (pairs.foldl (fun es p => set p.1 p.2 es) entries).map fun p => (p.1, f p.2) := by
    intro pairs
    induction pairs with
    | nil => exact fun _ => rfl
    | cons p pairs ih =>
      intro entries
      have hset : set p.1 (f p.2) (entries.map fun p => (p.1, f p.2))
          = (set p.1 p.2 entries).map fun p => (p.1, f p.2) := set_map f
      rw [List.map_cons, List.foldl_cons, hset, ih, List.foldl_cons]
  exact key pairs []

/-- A new name is put at the end. -/
theorem set_of_notMem {name : String} {a : α} {entries : List (String × α)}
    (h : name ∉ names entries) : set name a entries = entries ++ [(name, a)] := by
  induction entries with
  | nil => rfl
  | cons p rest ih =>
    obtain ⟨n, b⟩ := p
    obtain ⟨hne, hrest⟩ : name ≠ n ∧ name ∉ names rest := by simpa [names] using h
    rw [set, if_neg (Ne.symm hne), ih hrest, List.cons_append]

/-- **Pairs under distinct names are put in as they are.** -/
theorem ofList_of_nodup {pairs : List (String × α)} (h : (names pairs).Nodup) :
    ofList pairs = pairs := by
  have key : ∀ (pairs entries : List (String × α)), (names (entries ++ pairs)).Nodup →
      pairs.foldl (fun entries p => set p.1 p.2 entries) entries = entries ++ pairs := by
    intro pairs
    induction pairs with
    | nil => exact fun entries _ => (List.append_nil entries).symm
    | cons p pairs ih =>
      intro entries hnodup
      have hnew : p.1 ∉ names entries := by
        intro hmem
        rw [names, List.map_append, List.nodup_append] at hnodup
        exact hnodup.2.2 p.1 hmem p.1 List.mem_cons_self rfl
      have happend : entries ++ [p] ++ pairs = entries ++ p :: pairs := by simp
      rw [List.foldl_cons, set_of_notMem hnew, ih _ (by rwa [happend]), happend]
  exact key pairs [] h

end Entries

end LineCalc
