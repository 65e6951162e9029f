import ScriptObjects.Heap

/-!
# Execution contexts

A context is the call stack of one thread of calls.  Frames are pushed for the
duration of a call, of a constructor, or of a phase of construction; a context
with a depth limit refuses the frame that would exceed it.
-/

namespace ScriptObjects

set_option autoImplicit false

/-- What a stack frame stands for. -/
inductive FrameKind where
  | function
  | construction
  /-- A phase of the runtime itself. -/
  | synthetic
  deriving DecidableEq, Repr, Inhabited

/-- An active call. -/
structure Frame where
  kind : FrameKind
  label : String
  deriving DecidableEq, Repr, Inhabited

namespace Frame

def function (label : String) : Frame := ⟨.function, label⟩

def construction (label : String) : Frame := ⟨.construction, label⟩

def synthetic (label : String) : Frame := ⟨.synthetic, label⟩

def text (frame : Frame) : String :=
  match frame.kind with
  | .function => "at " ++ frame.label
  | .construction => "at new " ++ frame.label
  | .synthetic => "at <" ++ frame.label ++ ">"

end Frame

/-- A call stack, innermost frame first, and the depth it may not exceed. -/
structure Context where
  frames : List Frame
  limit : Option Nat
  deriving DecidableEq, Repr

namespace Context

/-- A context without frames. -/
def fresh (limit : Option Nat) : Context := ⟨[], limit⟩

instance : Inhabited Context := ⟨fresh none⟩

def depth (context : Context) : Nat := context.frames.length

/-- The context with one more frame; none when the limit is reached. -/
def push? (context : Context) (frame : Frame) : Except Nat Context :=
  match context.limit with
  | some limit =>
      if limit ≤ context.depth then .error limit
      else .ok { context with frames := frame :: context.frames }
  | none => .ok { context with frames := frame :: context.frames }

/-- The context cut down to a depth; nothing changes when it is not deeper. -/
def truncate (context : Context) (depth : Nat) : Context :=
  { context with frames := context.frames.drop (context.depth - depth) }

/-- The frames from the innermost to the outermost, one to a line. -/
def trace (context : Context) : String :=
  String.intercalate "\n" (context.frames.map Frame.text)

theorem truncate_of_push? {context deeper : Context} {frame : Frame}
    (pushed : context.push? frame = .ok deeper) : deeper.truncate context.depth = context := by
  have frames : deeper = { context with frames := frame :: context.frames } := by
    unfold push? at pushed
    split at pushed
    · split at pushed
      · cases pushed
      · cases pushed; rfl
    · cases pushed; rfl
  subst frames
  simp [truncate, depth]

end Context

end ScriptObjects
