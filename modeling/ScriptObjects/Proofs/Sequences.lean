import Mathlib.Algebra.Group.Nat.Defs
import Mathlib.Data.List.GetD
import Mathlib.Data.List.Nodup
import Mathlib.Data.List.Perm.Subperm
import Mathlib.Order.Bounds.Basic
import ScriptObjects.Proofs.Tables

/-!
# Maps with a sequence part

A table is a finite map: under each key it gives the value that was last stored there, and the item
of the list it was made of where nothing was stored since (`get_setAll`, `get_ofList`).

The sequence part of a table is not kept anywhere.  It is read off the map by counting positions up
to the first that is no key, and it is the only list that can be read off so (`Runs.sequence_eq`).
That makes it plain what storing a value does to the sequence: a value in the gap joins the sequence
to the run that is stored behind the gap, null at a position cuts the sequence off there, another
value takes its place in the sequence, and nothing else changes anything.

Counting comes to an end because it meets every key once, and a table has fewer entries than there
are keys (`exists_runs`).
-/

namespace ScriptObjects

set_option autoImplicit false

namespace TableKey

/-- A positive integer is the key of a position. -/
theorem exists_place {word : Int64} (positive : 1 ≤ word.toInt) :
    ∃ place : Nat, word.toInt = 1 + place ∧ word.toInt.toNat - 1 = place ∧
      TableKey.int word = position (1 + place) := by
  have greatest := word.toInt_lt
  refine ⟨word.toInt.toNat - 1, by omega, rfl, ?_⟩
  unfold position
  congr 1
  apply Int64.toInt_inj.mp
  rw [Int64.toInt_ofNat_of_lt (by omega)]
  omega

theorem position_add_positions (place : Nat) : position (place + positions) = position place := by
  have words : Int64.ofNat (place + positions) = Int64.ofNat place := by
    apply Int64.toBitVec_inj.mp
    apply BitVec.eq_of_toNat_eq
    rw [Int64.toBitVec_ofNat', Int64.toBitVec_ofNat', BitVec.toNat_ofNat, BitVec.toNat_ofNat]
    exact Nat.add_mod_right place positions
  exact congrArg TableKey.int words

end TableKey

namespace Table

variable {table : Table}

/-! ## Counting positions -/

/-- Counting from a position on meets these values, one after the other, and then a gap. -/
inductive Runs (table : Table) : Nat → List Value → Prop
  | gap {start : Nat} (free : table.find? (.position start) = none) : Runs table start []
  | item {start : Nat} {value : Value} {rest : List Value}
      (there : table.find? (.position start) = some value) (later : Runs table (start + 1) rest) :
      Runs table start (value :: rest)

theorem Runs.find? {start : Nat} {items : List Value} (runs : table.Runs start items) {place : Nat}
    (within : place ≤ items.length) : table.find? (.position (start + place)) = items[place]? := by
  induction runs generalizing place with
  | gap free =>
      obtain rfl := Nat.le_zero.mp within
      exact free
  | @item start value rest there later ih =>
      cases place with
      | zero => exact there
      | succ place =>
          rw [List.getElem?_cons_succ, ← ih (Nat.le_of_succ_le_succ within), Nat.add_right_comm]
          rfl

theorem runs_of_find? {start : Nat} {items : List Value} (same : ∀ place ≤ items.length,
    table.find? (.position (start + place)) = items[place]?) : table.Runs start items := by
  induction items generalizing start with
  | nil => exact .gap (same 0 (Nat.zero_le _))
  | cons value rest ih =>
      refine .item (same 0 (Nat.zero_le _)) (ih fun place within => ?_)
      rw [Nat.add_right_comm]
      exact same (place + 1) (Nat.succ_le_succ within)

theorem Runs.unique {start : Nat} {items others : List Value} (runs : table.Runs start items)
    (again : table.Runs start others) : items = others := by
  induction runs generalizing others with
  | gap free =>
      cases again with
      | gap => rfl
      | item there => cases free.symm.trans there
  | item there later ih =>
      cases again with
      | gap free => cases free.symm.trans there
      | item there' later' =>
          cases there.symm.trans there'
          rw [ih later']

/-- Counting meets no more values than there are entries, for it comes to every key once. -/
theorem count_le_entries (start : Nat) {count : Nat} (near : count ≤ TableKey.positions)
    (met : ∀ place < count, table.contains (.position (start + place)) = true) :
    count ≤ table.entries.length := by
  have nodup : ((List.range count).map fun place => TableKey.position (start + place)).Nodup := by
    refine List.Nodup.map_on (fun one first other second same => ?_) List.nodup_range
    have first := List.mem_range.mp first
    have second := List.mem_range.mp second
    rcases Nat.le_total one other with before | after
    · have := TableKey.position_inj (by omega) (by omega) same
      omega
    · have := TableKey.position_inj (by omega) (by omega) same.symm
      omega
  have among : ((List.range count).map fun place => TableKey.position (start + place)) ⊆
      table.entries.map Prod.fst := by
    intro key member
    obtain ⟨place, counted, rfl⟩ := List.mem_map.mp member
    obtain ⟨value, found⟩ := Option.isSome_iff_exists.mp (met place (List.mem_range.mp counted))
    obtain ⟨before, after, entries, _⟩ := List.lookup_eq_some_iff.mp found
    rw [entries]
    simp
  simpa using (nodup.subperm among).length_le

theorem exists_runs_of_gap {start distance : Nat}
    (free : table.find? (.position (start + distance)) = none) :
    ∃ items, table.Runs start items := by
  induction distance generalizing start with
  | zero => exact ⟨[], .gap free⟩
  | succ distance ih =>
      cases there : table.find? (.position start) with
      | none => exact ⟨[], .gap there⟩
      | some value =>
          have ahead : table.find? (.position (start + 1 + distance)) = none := by
            rwa [Nat.add_right_comm]
          obtain ⟨rest, later⟩ := ih ahead
          exact ⟨value :: rest, .item there later⟩

/-- Counting comes to an end from every position on. -/
theorem exists_runs (few : table.entries.length < TableKey.positions) (start : Nat) :
    ∃ items, table.Runs start items := by
  by_contra endless
  have met : ∀ place < table.entries.length + 1,
      table.contains (.position (start + place)) = true := by
    intro place _
    refine Option.isSome_iff_ne_none.mpr fun free => endless ?_
    exact exists_runs_of_gap free
  exact Nat.not_succ_le_self _ (count_le_entries start few met)

/-! ## How far a run goes -/

section

variable {start : Nat} {items : List Value} (runs : table.Runs start items)
include runs

/-- A run does not come back to a key that it met. -/
theorem Runs.length_lt : items.length < TableKey.positions := by
  apply Nat.lt_of_not_le
  intro around
  have gap := runs.find? (Nat.le_refl items.length)
  have met := runs.find? (Nat.sub_le items.length TableKey.positions)
  rw [← TableKey.position_add_positions, Nat.add_assoc, Nat.sub_add_cancel around, gap] at met
  have inside : items.length - TableKey.positions < items.length :=
    Nat.sub_lt (Nat.lt_of_lt_of_le (by decide) around) (by decide)
  rw [List.getElem?_eq_getElem inside, List.getElem?_eq_none (Nat.le_refl _)] at met
  cases met

theorem Runs.apart {one other : Nat} (first : one ≤ items.length) (second : other ≤ items.length)
    (differ : one ≠ other) : TableKey.position (start + one) ≠ .position (start + other) := by
  have near := runs.length_lt
  intro same
  rcases Nat.lt_or_gt_of_ne differ with less | more
  · have := TableKey.position_inj (by omega) (by omega) same
    omega
  · have := TableKey.position_inj (by omega) (by omega) same.symm
    omega

theorem Runs.length_le : items.length ≤ table.entries.length := by
  refine count_le_entries start (Nat.le_of_lt runs.length_lt) fun place inside => ?_
  rw [contains, runs.find? (Nat.le_of_lt inside), List.getElem?_eq_getElem inside]
  rfl

theorem Runs.runLength_eq {fuel : Nat} (enough : items.length ≤ fuel) :
    table.runLength fuel start = items.length := by
  induction runs generalizing fuel with
  | gap free =>
      cases fuel with
      | zero => rfl
      | succ fuel =>
          rw [runLength, contains, free]
          rfl
  | item there later ih =>
      cases fuel with
      | zero => cases enough
      | succ fuel =>
          rw [runLength, contains, there, Option.isSome_some, if_pos rfl,
            ih (Nat.le_of_succ_le_succ enough), List.length_cons]

end

/-- The sequence part of a table is the run from the first position on. -/
theorem Runs.sequence_eq {items : List Value} (runs : table.Runs 1 items) :
    table.sequence = items := by
  have length : table.length = items.length := runs.runLength_eq runs.length_le
  unfold sequence
  refine List.ext_getElem (by rw [List.length_map, List.length_range, length]) ?_
  intro place _ inside
  have found := runs.find? (Nat.le_of_lt inside)
  rw [List.getElem?_eq_getElem inside] at found
  rw [List.getElem_map, List.getElem_range, get, Nat.add_comm, found]
  rfl

theorem length_sequence (table : Table) : table.sequence.length = table.length := by
  rw [sequence, List.length_map, List.length_range]

/-! ## Storing a value -/

section

variable {start : Nat} {items : List Value} (runs : table.Runs start items) {value : Value}
include runs

/-- A value in the gap joins a run to the run behind the gap. -/
theorem Runs.joined {behind : List Value} (later : table.Runs (start + items.length + 1) behind)
    (near : items.length + behind.length + 1 < TableKey.positions) (stored : value.isNull = false) :
    (table.set (.position (start + items.length)) value).Runs start (items ++ value :: behind) := by
  refine runs_of_find? fun place within => ?_
  rw [List.length_append, List.length_cons] at within
  rw [find?_set, stored, if_neg Bool.false_ne_true]
  obtain before | rfl | after := Nat.lt_trichotomy place items.length
  · rw [if_neg (runs.apart (Nat.le_of_lt before) (Nat.le_refl _) (Nat.ne_of_lt before)),
      runs.find? (Nat.le_of_lt before), List.getElem?_append_left before]
  · rw [if_pos rfl, List.getElem?_append_right (Nat.le_refl _), Nat.sub_self]
    rfl
  · obtain ⟨more, rfl⟩ := Nat.exists_eq_add_of_lt after
    have apart : TableKey.position (start + (items.length + more + 1)) ≠
        .position (start + items.length) := by
      intro same
      have := TableKey.position_inj (by omega) (by omega) same.symm
      omega
    have place : start + (items.length + more + 1) = start + items.length + 1 + more := by omega
    rw [if_neg apart, List.getElem?_append_right (by omega), place, later.find? (by omega)]
    have index : items.length + more + 1 - items.length = more + 1 := by omega
    rw [index, List.getElem?_cons_succ]

/-- Null at a position cuts a run off there. -/
theorem Runs.cut {place : Nat} (inside : place < items.length) :
    (table.set (.position (start + place)) .null).Runs start (items.take place) := by
  refine runs_of_find? fun other within => ?_
  rw [List.length_take_of_le (Nat.le_of_lt inside)] at within
  rw [find?_set, List.getElem?_take]
  by_cases same : other = place
  · subst same
    rw [if_pos rfl, if_neg (Nat.lt_irrefl _)]
    rfl
  · have inside' : other ≤ items.length := by omega
    rw [if_neg (runs.apart inside' (Nat.le_of_lt inside) same), if_pos (by omega),
      runs.find? inside']

/-- Another value takes the place of one in a run. -/
theorem Runs.replaced {place : Nat} (inside : place < items.length)
    (stored : value.isNull = false) :
    (table.set (.position (start + place)) value).Runs start (items.set place value) := by
  refine runs_of_find? fun other within => ?_
  rw [List.length_set] at within
  rw [find?_set, stored, if_neg Bool.false_ne_true, List.getElem?_set]
  by_cases same : other = place
  · rw [if_pos (by rw [same]), if_pos same.symm, if_pos inside]
  · rw [if_neg (runs.apart within (Nat.le_of_lt inside) same), if_neg (Ne.symm same),
      runs.find? within]

/-- A run stays what it is when a value is stored elsewhere, or null in the gap. -/
theorem Runs.kept {key : TableKey} (elsewhere : ∀ place ≤ items.length,
    key = .position (start + place) → place = items.length ∧ value.isNull = true) :
    (table.set key value).Runs start items := by
  refine runs_of_find? fun place within => ?_
  rw [find?_set]
  split
  next same =>
    obtain ⟨rfl, removed⟩ := elsewhere place within same.symm
    rw [removed, if_pos rfl, List.getElem?_eq_none (Nat.le_refl _)]
  next => exact runs.find? within

end

/-! ## What was stored last -/

/-- The table after several values were stored, one after the other. -/
def setAll (table : Table) (stores : List (TableKey × Value)) : Table :=
  stores.foldl (fun table entry => table.set entry.1 entry.2) table

/-- Under a key is what was last stored there, or what was there before. -/
theorem get_setAll (table : Table) (stores : List (TableKey × Value)) (key : TableKey) :
    (table.setAll stores).get key = (stores.reverse.lookup key).getD (table.get key) := by
  induction stores generalizing table with
  | nil => rfl
  | cons entry rest ih =>
      obtain ⟨taken, value⟩ := entry
      show ((table.set taken value).setAll rest).get key = _
      rw [ih, List.reverse_cons, List.lookup_append, lookup_cons_eq]
      cases rest.reverse.lookup key with
      | some later => rfl
      | none =>
          rw [Option.none_or, Option.getD_none]
          split
          next same =>
            rw [same, get_set]
            rfl
          next apart =>
            rw [get, find?_set, if_neg apart]
            rfl

/-- The item of a list that a key stands for, counted from one; null for any other key. -/
def itemAt (values : List Value) : TableKey → Value
  | .int word => if 1 ≤ word.toInt then values.getD (word.toInt.toNat - 1) .null else .null
  | _ => .null

theorem position_of_mem_itemsFrom {values : List Value} {start : Nat} {entry : TableKey × Value}
    (member : entry ∈ itemsFrom start values) :
    ∃ place < values.length, entry.1 = .position (start + place) := by
  induction values generalizing start with
  | nil => exact (List.not_mem_nil member).elim
  | cons value rest ih =>
      obtain rfl | later := List.mem_cons.mp member
      · exact ⟨0, Nat.zero_lt_succ _, rfl⟩
      · obtain ⟨place, inside, same⟩ := ih later
        exact ⟨place + 1, Nat.succ_lt_succ inside, by rw [same, Nat.add_assoc, Nat.add_comm 1]⟩

/-- Under a key of the table of a list is the item that the key stands for. -/
theorem get_ofList {values : List Value} (fits : values.length < 2 ^ 63) (key : TableKey) :
    (ofList values).get key = itemAt values key := by
  have small : values.length ≤ TableKey.positions := by
    unfold TableKey.positions UInt64.size
    omega
  by_cases item : ∃ place < values.length, key = .position (1 + place)
  · obtain ⟨place, inside, rfl⟩ := item
    have word : (Int64.ofNat (1 + place)).toInt = (1 + place : ℕ) :=
      Int64.toInt_ofNat_of_lt (by omega)
    rw [get, Nat.add_comm 1 place, find?_ofList small inside, Nat.add_comm place 1]
    unfold TableKey.position itemAt
    simp only [word]
    rw [if_pos (by omega), Int.toNat_natCast, Nat.add_sub_cancel_left,
      List.getD_eq_getElem _ _ inside]
    rfl
  · have missing : (ofList values).find? key = none := by
      refine List.lookup_eq_none_iff.mpr fun entry member => ?_
      obtain ⟨place, inside, same⟩ := position_of_mem_itemsFrom member
      exact bne_iff_ne.mpr fun equal => item ⟨place, inside, equal.trans same⟩
    rw [get, missing]
    unfold itemAt
    split
    next word =>
      split
      next positive =>
        obtain ⟨place, word, _, key⟩ := TableKey.exists_place positive
        refine (List.getD_eq_default _ _ (Nat.le_of_not_lt fun inside => item ?_)).symm
        exact ⟨place, by omega, key⟩
      next => rfl
    next => rfl

/-! ## A map with a sequence part -/

/-- What the sequence part of a table is, and what storing a value does to it. -/
structure SequencePart (table : Table) : Prop where
  /-- Its items are the values that are met when one counts from one up to the first gap. -/
  counted : table.Runs 1 table.sequence
  /-- The length is the greatest number up to which every positive integer is a key. -/
  longest : IsGreatest {count : Nat | ∀ word : Int64, 1 ≤ word.toInt → word.toInt ≤ count →
    table.contains (.int word) = true} table.length
  length : table.sequence.length = table.length
  item : ∀ word : Int64, 1 ≤ word.toInt → word.toInt ≤ table.length →
    table.sequence[word.toInt.toNat - 1]? = some (table.get (.int word))
  /-- A value in the gap joins the sequence to the whole run behind the gap. -/
  joined : ∀ (word : Int64) (value : Value), word.toInt = table.length + 1 → value ≠ .null →
    ∃ run, table.Runs (table.length + 2) run ∧
      (table.set (.int word) value).sequence = table.sequence ++ value :: run
  cut : ∀ word : Int64, 1 ≤ word.toInt → word.toInt ≤ table.length →
    (table.set (.int word) .null).sequence = table.sequence.take (word.toInt.toNat - 1)
  replaced : ∀ (word : Int64) (value : Value), 1 ≤ word.toInt → word.toInt ≤ table.length →
    value ≠ .null → (table.set (.int word) value).length = table.length ∧
      (table.set (.int word) value).sequence =
        table.sequence.set (word.toInt.toNat - 1) value
  /-- Nothing else changes the sequence, null in the gap no more than a value under another key. -/
  kept : ∀ (key : TableKey) (value : Value),
    (∀ word : Int64, key = .int word → 1 ≤ word.toInt → word.toInt ≤ table.length + 1 →
      word.toInt = table.length + 1 ∧ value = .null) →
    (table.set key value).sequence = table.sequence

/-- The gap is right behind the greatest number up to which every positive integer is a key. -/
theorem Runs.longest {items : List Value} (runs : table.Runs 1 items)
    (small : items.length + 1 < 2 ^ 63) :
    IsGreatest {count : Nat | ∀ word : Int64, 1 ≤ word.toInt → word.toInt ≤ count →
      table.contains (.int word) = true} items.length := by
  constructor
  · intro word positive within
    obtain ⟨place, same, _, key⟩ := TableKey.exists_place positive
    have inside : place < items.length := by omega
    rw [key, contains, runs.find? (Nat.le_of_lt inside), List.getElem?_eq_getElem inside]
    rfl
  · intro count all
    apply Nat.le_of_not_lt
    intro beyond
    have gap := runs.find? (Nat.le_refl items.length)
    have word : (Int64.ofNat (1 + items.length)).toInt = (1 + items.length : Nat) :=
      Int64.toInt_ofNat_of_lt (by omega)
    have there := all (Int64.ofNat (1 + items.length)) (by omega) (by omega)
    rw [List.getElem?_eq_none (Nat.le_refl _)] at gap
    rw [contains, show table.find? (.int (Int64.ofNat (1 + items.length))) = none from gap] at there
    cases there

theorem isNull_eq_false {value : Value} (stored : value ≠ .null) : value.isNull = false := by
  cases value <;> first | rfl | exact absurd rfl stored

/-- A table with fewer entries than there are positive integers has a sequence part. -/
theorem sequencePart_of_entries (few : table.entries.length + 1 < 2 ^ 63) :
    table.SequencePart := by
  have fewer : 2 * table.entries.length + 2 < TableKey.positions := by
    unfold TableKey.positions UInt64.size
    omega
  have length := length_sequence table
  have ends : ∀ start, ∃ items, table.Runs start items := exists_runs (by omega)
  obtain ⟨items, runs⟩ := ends 1
  obtain rfl := runs.sequence_eq
  have fits := runs.length_le
  exact {
    counted := runs
    longest := by
      rw [← length]
      exact runs.longest (by omega)
    length := length
    item := by
      intro word positive within
      obtain ⟨place, same, index, key⟩ := TableKey.exists_place positive
      have inside : place < table.sequence.length := by omega
      rw [index, key, get, runs.find? (Nat.le_of_lt inside), List.getElem?_eq_getElem inside]
      rfl
    joined := by
      intro word value gap stored
      obtain ⟨place, same, _, key⟩ := TableKey.exists_place (by omega : 1 ≤ word.toInt)
      obtain rfl : place = table.sequence.length := by omega
      have start : table.length + 2 = 1 + table.sequence.length + 1 := by omega
      obtain ⟨run, behind⟩ := ends (table.length + 2)
      refine ⟨run, behind, ?_⟩
      rw [start] at behind
      have enough := behind.length_le
      rw [key]
      exact (runs.joined behind (by omega) (isNull_eq_false stored)).sequence_eq
    cut := by
      intro word positive within
      obtain ⟨place, same, index, key⟩ := TableKey.exists_place positive
      rw [index, key]
      exact (runs.cut (by omega)).sequence_eq
    replaced := by
      intro word value positive within stored
      obtain ⟨place, same, index, key⟩ := TableKey.exists_place positive
      have inside : place < table.sequence.length := by omega
      have sequence := (runs.replaced inside (isNull_eq_false stored)).sequence_eq
      rw [← key] at sequence
      rw [index]
      refine ⟨?_, sequence⟩
      rw [← length_sequence, sequence, List.length_set, length]
    kept := by
      intro key value elsewhere
      refine (runs.kept fun place within same => ?_).sequence_eq
      have word : (Int64.ofNat (1 + place)).toInt = (1 + place : Nat) :=
        Int64.toInt_ofNat_of_lt (by omega)
      obtain ⟨last, rfl⟩ := elsewhere _ same (by omega) (by omega)
      exact ⟨by omega, rfl⟩ }

/-- A table that was made of a list, and in which any values were stored under any keys since, is a
finite map with a sequence part.  Under each key is the value that was last stored there, or else
the item of the list; null is stored by removing the key.

The bounds leave out only lists and tables with as many items and entries as there are positive
integers. -/
theorem map_with_sequence {values : List Value} (fits : values.length < 2 ^ 63)
    (stores : List (TableKey × Value)) :
    ofList [] = empty ∧ (ofList values).length = values.length ∧
      (ofList values).sequence = values ∧
      (∀ key, ((ofList values).setAll stores).get key =
        (stores.reverse.lookup key).getD (itemAt values key)) ∧
      (((ofList values).setAll stores).entries.length + 1 < 2 ^ 63 →
        ((ofList values).setAll stores).SequencePart) := by
  have small : values.length ≤ TableKey.positions := by
    unfold TableKey.positions UInt64.size
    omega
  refine ⟨rfl, length_ofList small, sequence_ofList small, fun key => ?_, sequencePart_of_entries⟩
  rw [get_setAll, get_ofList fits]

/-- Three joins the sequence to four, which was stored before it. -/
theorem map_with_sequence_gap :
    ((((ofList [.null, .int 20]).setAll [(.int 4, .int 40)]).set (.int 3) (.int 30)).sequence =
      [.null, .int 20, .int 30, .int 40]) := by
  have fits : [Value.null, .int 20].length < 2 ^ 63 := by decide
  obtain ⟨_, _, _, _, part⟩ := map_with_sequence fits [(.int 4, .int 40)]
  obtain ⟨run, behind, joined⟩ := (part (by decide)).joined 3 (.int 30) (by decide) (by decide)
  rw [joined, behind.unique (.item rfl (.gap rfl) : Runs _ _ [.int 40])]
  decide

end Table

end ScriptObjects
