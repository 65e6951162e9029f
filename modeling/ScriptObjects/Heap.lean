/-!
# Heaps and handles

Everything with an identity of its own (tables, function values, instances, host
objects, stores, contexts, class references) lives in a heap and is named by a
handle.  A handle is an index tagged with the kind of thing it names, so that an
index into one heap cannot be used on another.

A heap only grows: allocation appends, and a cell that exists is only ever
modified in place.  Reading a handle that names no cell gives the default value
of the cell type.  The statements below are the whole interface of a heap: what
is read after an allocation or a modification, and how its size changes.
-/

namespace ScriptObjects

set_option autoImplicit false

/-- The kinds of things that have an identity. -/
inductive HandleKind where
  | table
  | callable
  | object
  | host
  | store
  | reference
  | context
  | classRef
  | definition
  deriving DecidableEq, Repr

/-- A name for one cell of a heap. -/
structure Handle (kind : HandleKind) where
  index : Nat
  deriving DecidableEq, Repr, Inhabited

abbrev TableId := Handle .table
abbrev CallableId := Handle .callable
abbrev InstanceId := Handle .object
abbrev HostId := Handle .host
abbrev StoreId := Handle .store
abbrev ReferenceId := Handle .reference
abbrev ContextId := Handle .context
abbrev ClassRefId := Handle .classRef
abbrev ClassId := Handle .definition

/-- A growing sequence of cells, each named by a handle of one kind. -/
structure Heap (kind : HandleKind) (α : Type) where
  cells : Array α

namespace Heap

variable {kind : HandleKind} {α : Type}

/-- The heap without cells. -/
def empty : Heap kind α := ⟨#[]⟩

instance : Inhabited (Heap kind α) := ⟨empty⟩

/-- How many cells the heap has. -/
def size (heap : Heap kind α) : Nat := heap.cells.size

/-- The cell a handle names, if there is one. -/
def get? (heap : Heap kind α) (handle : Handle kind) : Option α :=
  heap.cells[handle.index]?

/-- The cell a handle names, and the default where there is none. -/
def get [Inhabited α] (heap : Heap kind α) (handle : Handle kind) : α :=
  (heap.get? handle).getD default

/-- The handle that the next allocation returns. -/
def next (heap : Heap kind α) : Handle kind := ⟨heap.cells.size⟩

/-- A heap with one more cell at its end. -/
def push (heap : Heap kind α) (cell : α) : Heap kind α := ⟨heap.cells.push cell⟩

/-- A heap in which one cell is replaced by its image; nothing changes where there is no cell. -/
def modify (heap : Heap kind α) (handle : Handle kind) (change : α → α) : Heap kind α :=
  ⟨heap.cells.modify handle.index change⟩

/-- All cells, oldest first. -/
def toList (heap : Heap kind α) : List α := heap.cells.toList

/-- The handles of all cells, oldest first. -/
def handles (heap : Heap kind α) : List (Handle kind) :=
  (List.range heap.cells.size).map Handle.mk

@[simp] theorem size_push (heap : Heap kind α) (cell : α) :
    (heap.push cell).size = heap.size + 1 := by
  simp [size, push]

@[simp] theorem size_modify (heap : Heap kind α) (handle : Handle kind) (change : α → α) :
    (heap.modify handle change).size = heap.size := by
  simp [size, modify]

theorem get?_push_next (heap : Heap kind α) (cell : α) :
    (heap.push cell).get? heap.next = some cell := by
  simp [get?, push, next]

theorem get?_push_of_lt (heap : Heap kind α) (cell : α) {handle : Handle kind}
    (old : handle.index < heap.size) : (heap.push cell).get? handle = heap.get? handle := by
  have hlt : handle.index < heap.cells.size := old
  simp [get?, push, Array.getElem?_push, Nat.ne_of_lt hlt]

theorem get?_modify_same (heap : Heap kind α) (handle : Handle kind) (change : α → α) :
    (heap.modify handle change).get? handle = (heap.get? handle).map change := by
  simp [get?, modify, Array.getElem?_modify]

theorem get?_modify_ne (heap : Heap kind α) {handle other : Handle kind} (change : α → α)
    (distinct : other ≠ handle) : (heap.modify handle change).get? other = heap.get? other := by
  have hne : handle.index ≠ other.index := by
    intro same
    apply distinct
    cases handle
    cases other
    simp_all
  simp [get?, modify, Array.getElem?_modify, hne]

/-! ## Reading with a default -/

theorem get?_eq_none (heap : Heap kind α) {handle : Handle kind}
    (beyond : heap.size ≤ handle.index) : heap.get? handle = none := by
  simpa [get?, size] using beyond

theorem get?_eq_some [Inhabited α] (heap : Heap kind α) {handle : Handle kind}
    (inside : handle.index < heap.size) : heap.get? handle = some (heap.get handle) := by
  have hlt : handle.index < heap.cells.size := inside
  simp [get, get?, hlt]

theorem get_push [Inhabited α] (heap : Heap kind α) (cell : α) (handle : Handle kind) :
    (heap.push cell).get handle = if handle = heap.next then cell else heap.get handle := by
  unfold get
  by_cases fresh : handle = heap.next
  · rw [if_pos fresh, fresh, get?_push_next]
    rfl
  · rw [if_neg fresh]
    by_cases old : handle.index < heap.size
    · rw [get?_push_of_lt heap cell old]
    · have beyond : (heap.push cell).size ≤ handle.index := by
        have differs : handle.index ≠ heap.size := by
          intro same
          apply fresh
          cases handle
          simp_all [next, size]
        rw [size_push]
        omega
      rw [get?_eq_none _ beyond, get?_eq_none heap (Nat.le_of_not_lt old)]

@[simp] theorem get_push_next [Inhabited α] (heap : Heap kind α) (cell : α) :
    (heap.push cell).get heap.next = cell := by
  rw [get_push, if_pos rfl]

theorem get_push_of_lt [Inhabited α] (heap : Heap kind α) (cell : α) {handle : Handle kind}
    (old : handle.index < heap.size) : (heap.push cell).get handle = heap.get handle := by
  unfold get
  rw [get?_push_of_lt heap cell old]

theorem get_modify [Inhabited α] (heap : Heap kind α) (handle other : Handle kind)
    (change : α → α) :
    (heap.modify handle change).get other =
      if other = handle ∧ handle.index < heap.size then change (heap.get handle)
      else heap.get other := by
  unfold get
  by_cases same : other = handle
  · subst same
    rw [get?_modify_same]
    by_cases inside : other.index < heap.size
    · rw [if_pos ⟨rfl, inside⟩, get?_eq_some heap inside]
      rfl
    · rw [if_neg fun both => inside both.2, get?_eq_none heap (Nat.le_of_not_lt inside)]
      rfl
  · rw [if_neg fun both => same both.1, get?_modify_ne heap change same]

theorem get_modify_same [Inhabited α] (heap : Heap kind α) {handle : Handle kind}
    (change : α → α) (inside : handle.index < heap.size) :
    (heap.modify handle change).get handle = change (heap.get handle) := by
  rw [get_modify, if_pos ⟨rfl, inside⟩]

theorem get_modify_ne [Inhabited α] (heap : Heap kind α) {handle other : Handle kind}
    (change : α → α) (distinct : other ≠ handle) :
    (heap.modify handle change).get other = heap.get other := by
  rw [get_modify, if_neg fun both => distinct both.1]

/-- A property of a cell that the change of a cell keeps is kept everywhere. -/
theorem get_modify_of [Inhabited α] {β : Type} (heap : Heap kind α) (handle other : Handle kind)
    (change : α → α) (view : α → β) (keeps : ∀ cell, view (change cell) = view cell) :
    view ((heap.modify handle change).get other) = view (heap.get other) := by
  rw [get_modify]
  split
  · next both => rw [keeps, both.1]
  · rfl

theorem modify_of_fixed [Inhabited α] (heap : Heap kind α) (handle : Handle kind)
    (change : α → α) (fixed : change (heap.get handle) = heap.get handle) :
    heap.modify handle change = heap := by
  have cells : heap.cells.modify handle.index change = heap.cells := by
    apply Array.ext_getElem?
    intro position
    rw [Array.getElem?_modify]
    split
    · next same =>
        subst same
        by_cases inside : handle.index < heap.size
        · have read := get?_eq_some heap inside
          unfold get? at read
          rw [read, Option.map_some, fixed]
        · have beyond := Nat.le_of_not_lt inside
          unfold size at beyond
          simp [beyond]
    · rfl
  unfold modify
  rw [cells]

/-- Two changes of one cell are one change. -/
theorem modify_modify (heap : Heap kind α) (handle : Handle kind) (first second : α → α) :
    (heap.modify handle first).modify handle second = heap.modify handle (second ∘ first) := by
  unfold modify
  congr 1
  apply Array.ext_getElem?
  intro position
  simp only [Array.getElem?_modify]
  split <;> simp

theorem handles_of_size {first second : Heap kind α} (size : second.size = first.size) :
    second.handles = first.handles := by
  unfold Heap.size at size
  unfold handles
  rw [size]

theorem mem_handles (heap : Heap kind α) (handle : Handle kind) :
    handle ∈ heap.handles ↔ handle.index < heap.size := by
  simp only [handles, List.mem_map, List.mem_range, size]
  constructor
  · rintro ⟨index, inside, rfl⟩
    exact inside
  · intro inside
    exact ⟨handle.index, inside, rfl⟩

theorem next_index (heap : Heap kind α) : heap.next.index = heap.size := rfl

end Heap

end ScriptObjects
