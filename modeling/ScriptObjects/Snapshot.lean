import ScriptObjects.World

/-!
# Showing values

Values are shown as they are at one moment: tables with all their entries in the
order of their keys, functions by label, kind and level, instances by class and
number, host objects by tag and payload.  A table that lies five levels deep inside
others is not opened, so that a table that contains itself can be shown; a host object
among the values counts as a level, one that is shown by itself does not.
-/

namespace ScriptObjects

set_option autoImplicit false

/-- What a host object holds; `held` shows the script value in a dynamic one. -/
def HostObject.payload (held : Value → Snapshot) : HostObject → Snapshot
  | .vector x y => .list [.float x, .float y]
  | .counter n | .int64 n => .int n.toInt
  | .int32 n => .int n.toInt
  | .byte n => .int n.toNat
  | .boolean b => .bool b
  | .float64 x => .float x
  | .text s => .text s
  | .staticText => .text HostObject.staticContent
  | .unit => .null
  | .dynamic value => held value

/-- A host object by its tag and payload. -/
def HostObject.snapshot (held : Value → Snapshot) (object : HostObject) : Snapshot :=
  .host object.type.tag (object.payload held)

namespace World

/-- The depth at which tables are no longer opened. -/
def snapshotDepth : Nat := 5

/-- A value that is no table and no host object. -/
def flatSnapshot (world : World) : Value → Snapshot
  | .null => .null
  | .bool b => .bool b
  | .int i => .int i.toInt
  | .float f => .float f
  | .text s => .text s
  | .function id =>
      let callable := world.callables.get id
      .function callable.label callable.kindName callable.level?
  | .object id => .object (world.classOf id).name (instanceNumber id)
  | .table _ | .host _ => .elided

/-- A value at a depth, opened through at most `fuel` tables and host objects. -/
def snapshotAt (world : World) : Nat → Nat → Value → Snapshot
  | 0, _, value => world.flatSnapshot value
  | fuel + 1, depth, value =>
      match value with
      | .table id =>
          if snapshotDepth ≤ depth then .elided
          else .table <| (world.tables.get id).sorted.map fun entry =>
            (world.flatSnapshot entry.1.toValue, snapshotAt world fuel (depth + 1) entry.2)
      | .host id =>
          (world.hosts.get id).snapshot fun held => snapshotAt world fuel (depth + 1) held
      | value => world.flatSnapshot value

/-- A value as it is at this moment.  A host object holds only values older than itself, so the
number of host objects bounds how many of them lie inside each other. -/
def snapshot (world : World) (value : Value) : Snapshot :=
  world.snapshotAt (world.hosts.size + snapshotDepth + 2) 0 value

/-- A host object by itself, as the host is handed it: a script value that it holds is the
outermost one, and is opened as deep as any value. -/
def handedSnapshot (world : World) (id : HostId) : Snapshot :=
  (world.hosts.get id).snapshot world.snapshot

end World

end ScriptObjects
