/-!
# The catalogue of meta-functions

Meta-functions are members with fixed names that operators, construction and
variable interception dispatch to.  Every class answers to the class keys it
declares or inherits; only annotation classes answer to the four annotation keys.
-/

namespace ScriptObjects

set_option autoImplicit false

/-- A member with a fixed name that the runtime itself calls. -/
inductive MetaKey where
  | construct
  | toText
  | length
  | equals
  | less
  | lessEqual
  | iterate
  | call
  | negate
  | add
  | subtract
  | multiply
  | divide
  | remainder
  | concat
  | preConstruct
  | postConstruct
  | onRead
  | onWrite
  deriving DecidableEq, Repr, Inhabited

/-- What a dispatch site requires a meta-function to return. -/
inductive ExpectedReturn where
  | any
  | bool
  | int
  | text
  deriving DecidableEq, Repr

def ExpectedReturn.name : ExpectedReturn → String
  | .any => "any"
  | .bool => "bool"
  | .int => "int"
  | .text => "string"

namespace MetaKey

/-- The keys every class may answer to, in catalogue order. -/
def classKeys : List MetaKey :=
  [.construct, .toText, .length, .equals, .less, .lessEqual, .iterate, .call, .negate,
   .add, .subtract, .multiply, .divide, .remainder, .concat]

/-- The keys only annotation classes may answer to, in catalogue order. -/
def annotationKeys : List MetaKey := [.preConstruct, .postConstruct, .onRead, .onWrite]

/-- The whole catalogue, in order. -/
def all : List MetaKey := classKeys ++ annotationKeys

/-- The name of the member a key resolves to. -/
def methodName : MetaKey → String
  | .construct => "constructor"
  | .toText => "opToString"
  | .length => "opLength"
  | .equals => "opEquals"
  | .less => "opLess"
  | .lessEqual => "opLessEqual"
  | .iterate => "opIterate"
  | .call => "opCall"
  | .negate => "opNeg"
  | .add => "opAdd"
  | .subtract => "opSub"
  | .multiply => "opMul"
  | .divide => "opDiv"
  | .remainder => "opMod"
  | .concat => "opConcat"
  | .preConstruct => "onPreConstruct"
  | .postConstruct => "onPostConstruct"
  | .onRead => "onGet"
  | .onWrite => "onSet"

/-- The key of a member name. -/
def ofMethodName? (name : String) : Option MetaKey := all.find? (·.methodName = name)

/-- The place of a key in the catalogue. -/
def slot (key : MetaKey) : Nat := all.idxOf key

/-- The key at a place of the catalogue. -/
def ofSlot? (slot : Nat) : Option MetaKey := all[slot]?

def isAnnotationHook (key : MetaKey) : Bool := annotationKeys.contains key

/-- Whether the key is asked of two operands. -/
def isBinary : MetaKey → Bool
  | .add | .subtract | .multiply | .divide | .remainder | .concat
  | .equals | .less | .lessEqual => true
  | _ => false

/-- What the dispatch site of a key requires its result to be. -/
def expectedReturn : MetaKey → ExpectedReturn
  | .toText => .text
  | .length => .int
  | .equals | .less | .lessEqual => .bool
  | _ => .any

end MetaKey

end ScriptObjects
