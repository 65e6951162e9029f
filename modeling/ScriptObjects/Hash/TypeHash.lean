import ScriptObjects.Hash.Xxh64
import ScriptObjects.Text.Hex

/-!
# Type hashes

A class is identified by a hash of its name, and a member by a hash of its
owner's identity and its own name.  The two are salted differently, so that a
class and a member of the same name do not share an identity.
-/

namespace ScriptObjects

set_option autoImplicit false

/-- A 64-bit identity of a class or of one of its members. -/
structure TypeHash where
  word : UInt64
  deriving DecidableEq, Repr, Inhabited

namespace TypeHash

/-- Salts the hash of a class. -/
def classSalt : UInt64 := 0x2fac10b63a6cc57c

/-- Salts the hash of a member. -/
def memberSalt : UInt64 := 0x7d3c8b4a92e15f6d

/-- Separates an owner from the name of its member. -/
def separator : UInt64 := 0x4bc94d6bd06053ad

/-- The hash of the bytes of a name. -/
def nameWord (name : String) : UInt64 := Hash.xxh64 name.toUTF8.toList 0

/-- The identity that no class has. -/
def empty : TypeHash := ⟨0⟩

/-- The identity of the class of a name. -/
def ofName (name : String) : TypeHash := ⟨classSalt ^^^ nameWord name⟩

/-- The identity of a member of an owner. -/
def ofMember (owner : TypeHash) (name : String) : TypeHash :=
  ⟨(memberSalt ^^^ owner.word) * separator + nameWord name⟩

def isEmpty (hash : TypeHash) : Bool := hash.word = 0

/-- The identity in sixteen hexadecimal digits. -/
def text (hash : TypeHash) : String := Text.hexWord hash.word

end TypeHash

end ScriptObjects
