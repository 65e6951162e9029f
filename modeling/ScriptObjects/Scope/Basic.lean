import ScriptObjects.Access
import ScriptObjects.Heap
import ScriptObjects.Host.Routine
import ScriptObjects.ValueType

/-!
# Scopes and stores

A store keeps named, typed slots.  A store may be at home somewhere: at one level
and tier of an instance, or at one tier of the roots of the assembly; such a store
turns the functions declared there into slots when they are first looked up.  A
store without a home holds only what was declared into it.

A scope is a store or an ordered choice between scopes: a lookup tries the sources
of a composite in order and goes on only when a source does not know the name.
-/

namespace ScriptObjects

set_option autoImplicit false

/-- Where the value of a slot is kept. -/
inductive SlotContent where
  /-- In the slot itself, once it was assigned. -/
  | script (value : Option Value)
  /-- In the host object that a reference resolves to. -/
  | host (accessor : Accessor) (reference : ReferenceId)
  deriving DecidableEq, Inhabited

/-- A declared variable. -/
structure Slot where
  type : ValueType
  content : SlotContent
  /-- The annotation instances that intercept reads and writes, in order. -/
  annotations : List InstanceId
  /-- Whether every write is refused. -/
  immutable : Bool
  deriving DecidableEq, Inhabited

namespace Slot

/-- A slot without a value. -/
def unassigned (type : ValueType) : Slot := ⟨type, .script none, [], false⟩

/-- A slot backed by a host object. -/
def hosted (type : ValueType) (accessor : Accessor) (reference : ReferenceId) : Slot :=
  ⟨type, .host accessor reference, [], false⟩

/-- A slot that holds a function for good. -/
def function (callable : CallableId) : Slot :=
  ⟨.function, .script (some (.function callable)), [], true⟩

/-- The slot after a write; a hosted slot keeps nothing itself. -/
def write (slot : Slot) (value : Value) : Slot :=
  match slot.content with
  | .script _ => { slot with content := .script (some value) }
  | .host .. => slot

end Slot

/-- Where a store is at home. -/
inductive StoreHome where
  /-- Nowhere; whether it still reaches an assembly was settled when it was made. -/
  | free (attached : Bool)
  /-- At one level and tier of an instance. -/
  | level (owner : InstanceId) (level : Nat) (cls : ClassId) (tier : Access)
  /-- At one tier of the roots of the assembly. -/
  | root (tier : Access)
  deriving DecidableEq, Inhabited

/-- Named slots, oldest first, and their home. -/
structure Store where
  home : StoreHome
  slots : List (String × Slot)
  deriving Inhabited

namespace Store

def empty (home : StoreHome) : Store := ⟨home, []⟩

/-- The slot of a name. -/
def slot? (store : Store) (name : String) : Option Slot := store.slots.lookup name

def declares (store : Store) (name : String) : Bool := (store.slot? name).isSome

/-- The store with one more slot; the name must be new. -/
def insert (store : Store) (name : String) (slot : Slot) : Store :=
  { store with slots := store.slots ++ [(name, slot)] }

/-- The store without a name. -/
def erase (store : Store) (name : String) : Store :=
  { store with slots := store.slots.filter (·.1 ≠ name) }

/-- Changes the slot of a name in a list of slots. -/
def modifySlot (name : String) (change : Slot → Slot) :
    List (String × Slot) → List (String × Slot)
  | [] => []
  | (n, slot) :: rest =>
      if n = name then (n, change slot) :: rest else (n, slot) :: modifySlot name change rest

/-- The store with the slot of a name changed; nothing changes where there is none. -/
def modify (store : Store) (name : String) (change : Slot → Slot) : Store :=
  { store with slots := modifySlot name change store.slots }

/-- Places a slot before the first one whose name does not come before it. -/
def insertByName (entry : String × Slot) : List (String × Slot) → List (String × Slot)
  | [] => [entry]
  | head :: rest =>
      if head.1 < entry.1 then head :: insertByName entry rest else entry :: head :: rest

theorem lookup_cons_ne {head other : String} (slot : Slot) (rest : List (String × Slot))
    (distinct : other ≠ head) : ((head, slot) :: rest).lookup other = rest.lookup other := by
  have skip : (other == head) = false := by simpa using distinct
  rw [List.lookup_cons, skip]

theorem slot?_insert (store : Store) (name other : String) (slot : Slot) :
    (store.insert name slot).slot? other =
      (store.slot? other).or (if other = name then some slot else none) := by
  simp only [slot?, insert, List.lookup_append]
  by_cases same : other = name
  · rw [same, if_pos rfl, List.lookup_cons_self]
  · rw [if_neg same, lookup_cons_ne slot [] same, List.lookup_nil]

theorem slot?_insert_same (store : Store) {name : String} (slot : Slot)
    (free : store.declares name = false) : (store.insert name slot).slot? name = some slot := by
  have missing : store.slot? name = none := by simpa [declares] using free
  simp [slot?_insert, missing]

theorem slot?_erase (store : Store) (name other : String) :
    (store.erase name).slot? other = if other = name then none else store.slot? other := by
  simp only [slot?, erase]
  induction store.slots with
  | nil => simp
  | cons entry rest ih =>
      obtain ⟨head, slot⟩ := entry
      by_cases dropped : head = name
      · rw [List.filter_cons_of_neg (by simpa using dropped), ih]
        by_cases same : other = name
        · rw [if_pos same, if_pos same]
        · rw [if_neg same, if_neg same, lookup_cons_ne slot rest fun equal => same (equal.trans dropped)]
      · rw [List.filter_cons_of_pos (by simpa using dropped)]
        by_cases first : other = head
        · rw [first, if_neg dropped, List.lookup_cons_self, List.lookup_cons_self]
        · rw [lookup_cons_ne slot _ first, lookup_cons_ne slot rest first, ih]

theorem slot?_modify (store : Store) (name other : String) (change : Slot → Slot) :
    (store.modify name change).slot? other =
      if other = name then (store.slot? name).map change else store.slot? other := by
  simp only [slot?, modify]
  induction store.slots with
  | nil => simp [modifySlot]
  | cons entry rest ih =>
      obtain ⟨head, slot⟩ := entry
      by_cases here : head = name
      · subst here
        rw [modifySlot, if_pos rfl]
        by_cases same : other = head
        · rw [same, if_pos rfl, List.lookup_cons_self, List.lookup_cons_self, Option.map_some]
        · rw [if_neg same, lookup_cons_ne _ rest same, lookup_cons_ne slot rest same]
      · rw [modifySlot, if_neg here, lookup_cons_ne slot rest (Ne.symm here)]
        by_cases first : other = head
        · rw [first, if_neg here, List.lookup_cons_self, List.lookup_cons_self]
        · rw [lookup_cons_ne slot _ first, lookup_cons_ne slot rest first, ih]

/-- The declared names and types, ordered by name. -/
def signature (store : Store) : List (String × ValueType) :=
  (store.slots.foldr insertByName []).map fun entry => (entry.1, entry.2.type)

end Store

/-- Where variables are looked up. -/
inductive Scope where
  | store (id : StoreId)
  /-- The sources in the order in which they are tried. -/
  | composite (sources : List Scope)

instance : Inhabited Scope := ⟨.composite []⟩

end ScriptObjects
