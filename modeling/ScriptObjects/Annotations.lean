import ScriptObjects.Evaluation

/-!
# Creating annotations

Each use of an annotation makes an instance of its class: the arguments are
evaluated with the annotated declaration's receiver, and the instance is created
whatever the mode of its class, on the given context.  The first fault ends the
creation; a fault other than a missing class is wrapped with the name of the target
and of the annotation.
-/

namespace ScriptObjects

set_option autoImplicit false

/-- The instance that one use of an annotation makes. -/
def createAnnotation (perform : Perform) (use : AnnotationUse ClassRefId) (target : String)
    (receiver : Option Receiver) (context : ContextId) : Exec InstanceId := do
  let name := ((← get).classRefs.get use.cls).name
  match ← Exec.resolveRef? use.cls with
  | none => throw (.unknownClass name)
  | some id =>
      Exec.wrapFault (.attachment target name) do
        let args ← evaluateAll perform (some ⟨context, receiver, []⟩) use.args
        instantiate perform id ⟨CreateFlags.standard.insert .enforceCreation, some context⟩ args

/-- The instances that several uses of annotations make, in order. -/
def createAnnotations (perform : Perform) (target : String) (receiver : Option Receiver)
    (context : ContextId) : List (AnnotationUse ClassRefId) → Exec (List InstanceId)
  | [] => return []
  | use :: rest => do
      let created ← createAnnotation perform use target receiver context
      return created :: (← createAnnotations perform target receiver context rest)

end ScriptObjects
