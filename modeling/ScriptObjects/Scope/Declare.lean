import ScriptObjects.Steps

/-!
# Declaring variables

A declaration adds a slot to a store, which must not have one of that name.  In a
composite scope it goes to the first source.  What is declared and assigned can be
asked without looking anything up; only a slot backed by a host object tries to
resolve its reference.
-/

namespace ScriptObjects

set_option autoImplicit false

/-- Adds a slot to a store. -/
def insertSlot (id : StoreId) (name : String) (slot : Slot) : Exec Unit := do
  if ((← get).store id).declares name then
    throw (.lookup (.alreadyDeclared name))
  Exec.change (·.withStore id (·.insert name slot))

mutual

/-- Declares a variable through a scope. -/
def declare (scope : Scope) (name : String) (slot : Slot) : Exec Unit :=
  match scope with
  | .store id => insertSlot id name slot
  | .composite sources => declareFirst sources name slot

/-- Declares a variable in the first of several scopes. -/
def declareFirst (sources : List Scope) (name : String) (slot : Slot) : Exec Unit :=
  match sources with
  | [] => throw (.lookup (.noSources name))
  | first :: _ => declare first name slot

end

mutual

/-- Whether a name is declared in a scope as it stands. -/
def World.isDeclared (world : World) (name : String) : Scope → Bool
  | .store id => (world.store id).declares name
  | .composite sources => world.isDeclaredInAny name sources

/-- Whether a name is declared in one of several scopes. -/
def World.isDeclaredInAny (world : World) (name : String) : List Scope → Bool
  | [] => false
  | source :: rest => world.isDeclared name source || world.isDeclaredInAny name rest

end

end ScriptObjects
