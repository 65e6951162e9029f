/-!
# Access tiers and lookup modes

Members are declared at one of three tiers, ordered from least to most
restrictive.  A scope opened at a tier sees the members of that tier and of every
less restrictive one.
-/

namespace ScriptObjects

set_option autoImplicit false

/-- The tier a member is declared at. -/
inductive Access where
  /-- Visible from outside. -/
  | global
  /-- Visible inside the class hierarchy. -/
  | internal
  /-- Visible only on the level that declares it. -/
  | localOnly
  deriving DecidableEq, Repr, Inhabited

namespace Access

/-- All tiers, least restrictive first. -/
def all : List Access := [.global, .internal, .localOnly]

/-- The place of a tier in the order from least to most restrictive. -/
def index : Access → Nat
  | .global => 0
  | .internal => 1
  | .localOnly => 2

/-- Whether a scope opened at the first tier sees members of the second. -/
def admits (opened member : Access) : Bool := member.index ≤ opened.index

/-- The tiers a scope opened at a tier sees, most restrictive first. -/
def downward (opened : Access) : List Access := all.reverse.filter opened.admits

def text : Access → String
  | .global => "global"
  | .internal => "internal"
  | .localOnly => "local"

/-- The tier a text names. -/
def ofText? (text : String) : Option Access := all.find? (·.text = text)

@[simp] theorem admits_self (tier : Access) : tier.admits tier = true := by
  cases tier <;> rfl

theorem admits_trans {outer middle inner : Access} (first : outer.admits middle = true)
    (second : middle.admits inner = true) : outer.admits inner = true := by
  simp only [admits, decide_eq_true_eq] at *
  exact Nat.le_trans second first

end Access

/-- How far a lookup reaches. -/
inductive ScopeMode where
  /-- Only the members declared on one level. -/
  | declarations
  /-- The levels below the one the scope is opened on, then the roots. -/
  | base
  /-- The whole chain, then the roots. -/
  | all
  deriving DecidableEq, Repr, Inhabited

namespace ScopeMode

def text : ScopeMode → String
  | .declarations => "declarations"
  | .base => "base"
  | .all => "all"

/-- The mode a text names. -/
def ofText? (text : String) : Option ScopeMode :=
  [ScopeMode.declarations, .base, .all].find? (·.text = text)

end ScopeMode

end ScriptObjects
