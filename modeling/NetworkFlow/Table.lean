namespace NetworkFlow

namespace Entries

variable {κ ν : Type} [DecidableEq κ]

/-- A known key keeps its place and takes the new value, and a new key comes last. -/
def put : List (κ × ν) → κ → ν → List (κ × ν)
  | [], key, value => [(key, value)]
  | (first, old) :: rest, key, value =>
    if first = key then (first, value) :: rest else (first, old) :: put rest key value

def find? (entries : List (κ × ν)) (key : κ) : Option ν :=
  (entries.find? fun entry => entry.1 = key).map Prod.snd

theorem mem_keys_put (entries : List (κ × ν)) (key other : κ) (value : ν) :
    other ∈ (put entries key value).map Prod.fst ↔
      other = key ∨ other ∈ entries.map Prod.fst := by
  induction entries with
  | nil => simp [put]
  | cons entry rest inductionHypothesis => grind [put]

theorem nodup_put {entries : List (κ × ν)} (distinct : (entries.map Prod.fst).Nodup)
    (key : κ) (value : ν) : ((put entries key value).map Prod.fst).Nodup := by
  induction entries with
  | nil => simp [put]
  | cons entry rest inductionHypothesis => grind [put, mem_keys_put]

theorem find?_put_same (entries : List (κ × ν)) (key : κ) (value : ν) :
    find? (put entries key value) key = some value := by
  induction entries with
  | nil => simp [put, find?]
  | cons entry rest inductionHypothesis => grind [put, find?]

theorem find?_put_other (entries : List (κ × ν)) {key other : κ} (differ : other ≠ key)
    (value : ν) : find? (put entries key value) other = find? entries other := by
  induction entries with
  | nil => grind [put, find?]
  | cons entry rest inductionHypothesis => grind [put, find?]

/-- A new key comes last. -/
theorem put_of_not_mem {entries : List (κ × ν)} {key : κ}
    (new : key ∉ entries.map Prod.fst) (value : ν) :
    put entries key value = entries ++ [(key, value)] := by
  induction entries with
  | nil => rfl
  | cons entry rest inductionHypothesis => grind [put]

/-- Among distinct keys every entry is found. -/
theorem find?_of_mem {entries : List (κ × ν)} (distinct : (entries.map Prod.fst).Nodup)
    {key : κ} {value : ν} (member : (key, value) ∈ entries) : find? entries key = some value := by
  induction entries with
  | nil => cases member
  | cons entry rest inductionHypothesis => grind [find?]

end Entries

/-- A table has one value for each of its keys. -/
structure Table (κ ν : Type) where
  entries : List (κ × ν)
  distinct : (entries.map Prod.fst).Nodup

namespace Table

variable {κ ν : Type} [DecidableEq κ]

def empty : Table κ ν := ⟨[], .nil⟩

def insert (table : Table κ ν) (key : κ) (value : ν) : Table κ ν :=
  ⟨Entries.put table.entries key value, Entries.nodup_put table.distinct key value⟩

/-- The pairs are entered from the left. -/
def ofList (pairs : List (κ × ν)) : Table κ ν :=
  pairs.foldl (fun table pair => table.insert pair.1 pair.2) empty

def find? (table : Table κ ν) (key : κ) : Option ν :=
  Entries.find? table.entries key

def keys (table : Table κ ν) : List κ :=
  table.entries.map Prod.fst

def contains (table : Table κ ν) (key : κ) : Bool :=
  (table.find? key).isSome

theorem find?_insert_same (table : Table κ ν) (key : κ) (value : ν) :
    (table.insert key value).find? key = some value :=
  Entries.find?_put_same table.entries key value

theorem find?_insert_other (table : Table κ ν) {key other : κ} (differ : other ≠ key)
    (value : ν) : (table.insert key value).find? other = table.find? other :=
  Entries.find?_put_other table.entries differ value

theorem find?_of_mem {table : Table κ ν} {key : κ} {value : ν}
    (member : (key, value) ∈ table.entries) : table.find? key = some value :=
  Entries.find?_of_mem table.distinct member

theorem mem_of_find? {table : Table κ ν} {key : κ} {value : ν}
    (found : table.find? key = some value) : (key, value) ∈ table.entries := by
  obtain ⟨entry, first, rfl⟩ := Option.map_eq_some_iff.mp found
  obtain rfl : entry.1 = key := by simpa using List.find?_some first
  exact List.mem_of_find?_eq_some first

/-- A table has the keys of the list that it is made from. -/
theorem mem_keys_ofList {pairs : List (κ × ν)} {key : κ} :
    key ∈ (ofList pairs).keys ↔ key ∈ pairs.map Prod.fst := by
  have entered (rest : List (κ × ν)) (table : Table κ ν) :
      key ∈ (rest.foldl (fun table pair => table.insert pair.1 pair.2) table).keys ↔
        key ∈ table.keys ∨ key ∈ rest.map Prod.fst := by
    induction rest generalizing table with
    | nil => simp
    | cons pair rest inductionHypothesis =>
      have first : key ∈ (table.insert pair.1 pair.2).keys ↔ key = pair.1 ∨ key ∈ table.keys :=
        Entries.mem_keys_put table.entries pair.1 key pair.2
      rw [List.foldl_cons, inductionHypothesis (table.insert pair.1 pair.2), first,
        List.map_cons, List.mem_cons, or_assoc, or_left_comm]
  exact (entered pairs empty).trans (or_iff_right List.not_mem_nil)

/-- A list with distinct keys becomes the entries of its table. -/
theorem entries_ofList {pairs : List (κ × ν)} (distinct : (pairs.map Prod.fst).Nodup) :
    (ofList pairs).entries = pairs := by
  have appended (rest : List (κ × ν)) (table : Table κ ν)
      (new : ((table.entries ++ rest).map Prod.fst).Nodup) :
      (rest.foldl (fun table pair => table.insert pair.1 pair.2) table).entries =
        table.entries ++ rest := by
    induction rest generalizing table with
    | nil => simp
    | cons pair rest inductionHypothesis =>
      have absent : pair.1 ∉ table.entries.map Prod.fst := by
        intro member
        rw [List.map_append, List.nodup_append] at new
        exact new.2.2 _ member _ (by simp) rfl
      have entered : (table.insert pair.1 pair.2).entries = table.entries ++ [pair] :=
        Entries.put_of_not_mem absent pair.2
      rw [List.foldl_cons, inductionHypothesis (table.insert pair.1 pair.2), entered,
        List.append_assoc, List.singleton_append]
      rw [entered, List.append_assoc, List.singleton_append]
      exact new
  exact appended pairs empty distinct

end Table
end NetworkFlow
