import ScriptObjects.Table

/-!
# Tables and lists

What is stored under a key is found under that key, and no other key is touched; null is stored by
removing the key.  A list becomes a table with its items under the keys 1, 2, 3 and so on, and the
sequence part of that table is the list again.  Items that are null keep their place: a null that
is stored under a key would remove the key, but the table of a list is made with all its keys at
once.

The keys are signed words, so they tell the positions of a list apart as long as it has no more
items than there are words.
-/

namespace ScriptObjects

set_option autoImplicit false

namespace TableKey

/-- How many positions in a row have different keys. -/
def positions : Nat := UInt64.size

theorem position_inj {first second : Nat} (before : first ≤ second)
    (near : second < first + positions) (same : position first = position second) :
    first = second := by
  have words : Int64.ofNat first = Int64.ofNat second := by injection same
  have residues : first % 2 ^ 64 = second % 2 ^ 64 := by
    simpa using congrArg (fun word => word.toBitVec.toNat) words
  unfold positions UInt64.size at near
  omega

end TableKey

namespace Table

theorem eq_of_entries {first second : Table} (same : first.entries = second.entries) :
    first = second := by
  cases first
  cases second
  exact congrArg Table.mk same

/-! ## Storing and finding -/

theorem lookup_cons_eq (taken other : TableKey) (value : Value)
    (rest : List (TableKey × Value)) :
    ((taken, value) :: rest).lookup other =
      if other = taken then some value else rest.lookup other := by
  rw [List.lookup_cons]
  split
  next same => rw [if_pos (beq_iff_eq.mp same)]
  next apart => rw [if_neg (beq_eq_false_iff_ne.mp apart)]

theorem lookup_put (key other : TableKey) (value : Value) (entries : List (TableKey × Value)) :
    (put key value entries).lookup other =
      if other = key then some value else entries.lookup other := by
  induction entries with
  | nil => exact lookup_cons_eq key other value []
  | cons head rest ih =>
      obtain ⟨taken, old⟩ := head
      rw [lookup_cons_eq]
      by_cases replaced : taken = key
      · rw [put, if_pos replaced, lookup_cons_eq, replaced]
        split <;> rfl
      · rw [put, if_neg replaced, lookup_cons_eq, ih]
        by_cases found : other = taken
        · rw [if_pos found, if_pos found, if_neg (found ▸ replaced)]
        · rw [if_neg found, if_neg found]

theorem lookup_filter_ne (key other : TableKey) (entries : List (TableKey × Value)) :
    (entries.filter (·.1 ≠ key)).lookup other =
      if other = key then none else entries.lookup other := by
  induction entries with
  | nil => simp
  | cons head rest ih =>
      obtain ⟨taken, old⟩ := head
      rw [lookup_cons_eq]
      by_cases dropped : taken = key
      · rw [List.filter_cons_of_neg (by simpa using dropped), ih, dropped]
        split <;> rfl
      · rw [List.filter_cons_of_pos (by simpa using dropped), lookup_cons_eq, ih]
        by_cases found : other = taken
        · rw [if_pos found, if_pos found, if_neg (found ▸ dropped)]
        · rw [if_neg found, if_neg found]

/-- A table after a value was stored; null is found nowhere. -/
theorem find?_set (table : Table) (key other : TableKey) (value : Value) :
    (table.set key value).find? other =
      if other = key then (if value.isNull then none else some value) else table.find? other := by
  unfold set
  split
  · exact lookup_filter_ne key other table.entries
  · exact lookup_put key other value table.entries

theorem get_set (table : Table) (key : TableKey) (value : Value) :
    (table.set key value).get key = value := by
  rw [get, find?_set, if_pos rfl]
  cases value <;> rfl

/-! ## The table of a list -/

theorem length_itemsFrom (start : Nat) (values : List Value) :
    (itemsFrom start values).length = values.length := by
  induction values generalizing start with
  | nil => rfl
  | cons value rest ih => simp only [itemsFrom, List.length_cons, ih]

/-- Every item of a list is found under the key of its position. -/
theorem lookup_itemsFrom {values : List Value} (fits : values.length ≤ TableKey.positions)
    (start : Nat) {place : Nat} (inside : place < values.length) :
    (itemsFrom start values).lookup (.position (start + place)) = some values[place] := by
  induction values generalizing start place with
  | nil => exact absurd inside (Nat.not_lt_zero place)
  | cons value rest ih =>
      rw [itemsFrom, lookup_cons_eq]
      cases place with
      | zero => exact if_pos rfl
      | succ place =>
          have within : place < rest.length := Nat.lt_of_succ_lt_succ inside
          have apart : TableKey.position (start + (place + 1)) ≠ TableKey.position start := by
            intro same
            have equal := TableKey.position_inj (Nat.le_add_right start (place + 1)) ?_ same.symm
            · omega
            · simp only [List.length_cons] at inside fits
              omega
          rw [if_neg apart, ← Nat.add_assoc, Nat.add_right_comm]
          exact ih (Nat.le_of_succ_le fits) (start + 1) within

section

variable {values : List Value} (fits : values.length ≤ TableKey.positions)
include fits

theorem find?_ofList {place : Nat} (inside : place < values.length) :
    (ofList values).find? (.position (place + 1)) = some values[place] := by
  rw [Nat.add_comm]
  exact lookup_itemsFrom fits 1 inside

/-- From every position of a list on, all positions up to its end are taken. -/
theorem runLength_ofList (fuel place : Nat) (within : place + fuel = values.length) :
    (ofList values).runLength fuel (place + 1) = fuel := by
  induction fuel generalizing place with
  | zero => rfl
  | succ fuel ih =>
      have inside : place < values.length := by omega
      have taken : (ofList values).contains (.position (place + 1)) = true := by
        rw [contains, find?_ofList fits inside]
        rfl
      rw [runLength, if_pos taken, ih (place + 1) (by omega)]

/-- The table of a list is as long as the list. -/
theorem length_ofList : (ofList values).length = values.length := by
  have entries : (ofList values).entries.length = values.length := length_itemsFrom 1 values
  rw [length, entries]
  exact runLength_ofList fits values.length 0 (Nat.zero_add _)

/-- The sequence part of the table of a list is the list, with every null in its place. -/
theorem sequence_ofList : (ofList values).sequence = values := by
  unfold sequence
  refine List.ext_getElem ?_ fun place _ inside => ?_
  · rw [List.length_map, List.length_range, length_ofList fits]
  · rw [List.getElem_map, List.getElem_range, get, find?_ofList fits inside]
    rfl

end

example : (ofList [.null, .int 1, .null]).sequence = [.null, .int 1, .null] := by
  decide +kernel

end Table

end ScriptObjects
