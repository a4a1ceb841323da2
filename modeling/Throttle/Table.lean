/-!
# Tables from keys to values

A table holds at most one value for a key and keeps its keys in the order in which they
came.  `get?` is the view: each operation is described by what it does to `get?`.
-/

namespace Throttle

/-- A finite map whose keys are distinct. -/
structure Table (κ β : Type) where
  entries : List (κ × β)
  distinct : (entries.map Prod.fst).Nodup

namespace Table

variable {κ β : Type}

/-- The table without entries. -/
def empty : Table κ β := ⟨[], List.nodup_nil⟩

/-- How many keys have a value. -/
def size (table : Table κ β) : Nat := table.entries.length

/-- The keys, in the order in which they came. -/
def keys (table : Table κ β) : List κ := table.entries.map Prod.fst

/-- The table of the entries that a test keeps. -/
def filter (keep : κ → β → Bool) (table : Table κ β) : Table κ β :=
  ⟨table.entries.filter fun entry => keep entry.1 entry.2,
    table.distinct.sublist (List.filter_sublist.map _)⟩

variable [DecidableEq κ]

private def find (key : κ) : List (κ × β) → Option β
  | [] => none
  | (held, value) :: rest => if held = key then some value else find key rest

/-- The value of a key. -/
def get? (table : Table κ β) (key : κ) : Option β := find key table.entries

/-- The table without a key. -/
def erase (table : Table κ β) (key : κ) : Table κ β :=
  table.filter fun held _ => decide (held ≠ key)

/-- Entries with a value put at its key, in the place of the old value if there is one. -/
private def put (key : κ) (value : β) : List (κ × β) → List (κ × β)
  | [] => [(key, value)]
  | (held, old) :: rest =>
    if held = key then (key, value) :: rest else (held, old) :: put key value rest

private theorem keys_put (key : κ) (value : β) (entries : List (κ × β)) :
    (put key value entries).map Prod.fst =
      if key ∈ entries.map Prod.fst then entries.map Prod.fst
      else entries.map Prod.fst ++ [key] := by
  induction entries with
  | nil => simp [put]
  | cons entry rest ih =>
    obtain ⟨held, old⟩ := entry
    by_cases hkey : held = key
    · simp [put, hkey]
    · have hne : ¬ key = held := fun h => hkey h.symm
      simp only [put, hkey, if_false, List.map_cons, ih, List.mem_cons, hne, false_or]
      split <;> simp

private theorem distinct_put (key : κ) (value : β) (entries : List (κ × β))
    (hdistinct : (entries.map Prod.fst).Nodup) :
    ((put key value entries).map Prod.fst).Nodup := by
  rw [keys_put]
  split
  · exact hdistinct
  · rename_i hfresh
    rw [List.nodup_append]
    refine ⟨hdistinct, by simp, ?_⟩
    intro first hfirst second hsecond heq
    simp only [List.mem_singleton] at hsecond
    exact hfresh (hsecond ▸ heq ▸ hfirst)

/-- The table with a value for a key. -/
def insert (table : Table κ β) (key : κ) (value : β) : Table κ β :=
  ⟨put key value table.entries, distinct_put key value table.entries table.distinct⟩

/-! ## What the operations do to `get?` -/

@[simp] theorem get?_empty (key : κ) : (empty : Table κ β).get? key = none := rfl

private theorem find_put_self (key : κ) (value : β) (entries : List (κ × β)) :
    find key (put key value entries) = some value := by
  induction entries with
  | nil => simp [put, find]
  | cons entry rest ih =>
    obtain ⟨held, old⟩ := entry
    by_cases hkey : held = key
    · simp [put, hkey, find]
    · simp [put, hkey, find, ih]

private theorem find_put_of_ne {key other : κ} (hother : other ≠ key) (value : β)
    (entries : List (κ × β)) : find other (put key value entries) = find other entries := by
  induction entries with
  | nil => simp [put, find, hother.symm]
  | cons entry rest ih =>
    obtain ⟨held, old⟩ := entry
    by_cases hkey : held = key
    · simp [put, hkey, find, hother.symm]
    · simp [put, hkey, find, ih]

@[simp] theorem get?_insert_self (table : Table κ β) (key : κ) (value : β) :
    (table.insert key value).get? key = some value :=
  find_put_self key value table.entries

theorem get?_insert_of_ne (table : Table κ β) {key other : κ} (hother : other ≠ key)
    (value : β) : (table.insert key value).get? other = table.get? other :=
  find_put_of_ne hother value table.entries

private theorem put_eq_self {key : κ} {value : β} {entries : List (κ × β)}
    (hheld : find key entries = some value) : put key value entries = entries := by
  induction entries with
  | nil => simp [find] at hheld
  | cons entry rest ih =>
    obtain ⟨held, old⟩ := entry
    by_cases hkey : held = key
    · simp only [find, hkey, if_true, Option.some.injEq] at hheld
      simp [put, hkey, hheld]
    · simp only [find, hkey, if_false] at hheld
      simp [put, hkey, ih hheld]

/-- Inserting what a key has already changes nothing. -/
theorem insert_eq_self (table : Table κ β) {key : κ} {value : β}
    (hheld : table.get? key = some value) : table.insert key value = table := by
  unfold insert
  congr 1
  exact put_eq_self hheld

private theorem find_eq_none {key : κ} {entries : List (κ × β)}
    (habsent : key ∉ entries.map Prod.fst) : find key entries = none := by
  induction entries with
  | nil => rfl
  | cons entry rest ih =>
    obtain ⟨held, value⟩ := entry
    simp only [List.map_cons, List.mem_cons, not_or] at habsent
    have hne : ¬ held = key := fun h => habsent.1 h.symm
    simp [find, hne, ih habsent.2]

private theorem find_filter (keep : κ → β → Bool) (key : κ) (entries : List (κ × β))
    (hdistinct : (entries.map Prod.fst).Nodup) :
    find key (entries.filter fun entry => keep entry.1 entry.2) =
      (find key entries).filter (keep key) := by
  induction entries with
  | nil => rfl
  | cons entry rest ih =>
    obtain ⟨held, value⟩ := entry
    simp only [List.map_cons, List.nodup_cons] at hdistinct
    have hrest := ih hdistinct.2
    by_cases hkey : held = key
    · subst hkey
      by_cases hkeep : keep held value
      · simp [hkeep, find, Option.filter]
      · simp [hkeep, find, hrest, find_eq_none hdistinct.1, Option.filter]
    · by_cases hkeep : keep held value
      · simp [hkeep, find, hkey, hrest]
      · simp [hkeep, find, hkey, hrest]

/-- A kept entry stays what it was. -/
theorem get?_filter (keep : κ → β → Bool) (table : Table κ β) (key : κ) :
    (table.filter keep).get? key = (table.get? key).filter (keep key) :=
  find_filter keep key table.entries table.distinct

@[simp] theorem get?_erase_self (table : Table κ β) (key : κ) :
    (table.erase key).get? key = none := by
  rw [erase, get?_filter]
  cases table.get? key <;> simp [Option.filter]

theorem get?_erase_of_ne (table : Table κ β) {key other : κ} (hother : other ≠ key) :
    (table.erase key).get? other = table.get? other := by
  rw [erase, get?_filter]
  cases table.get? other <;> simp [Option.filter, hother]

end Table

end Throttle
