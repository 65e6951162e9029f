import ScriptObjects.Access
import ScriptObjects.Allocation
import ScriptObjects.Annotations
import ScriptObjects.Calling
import ScriptObjects.Construction
import ScriptObjects.Context
import ScriptObjects.Definition
import ScriptObjects.Description
import ScriptObjects.Dispatch
import ScriptObjects.Evaluation
import ScriptObjects.Exec
import ScriptObjects.Expr
import ScriptObjects.Fault
import ScriptObjects.Form
import ScriptObjects.Form.Declaration
import ScriptObjects.Form.Expr
import ScriptObjects.Hash.TypeHash
import ScriptObjects.Hash.Xxh64
import ScriptObjects.Heap
import ScriptObjects.Hierarchy
import ScriptObjects.Host.Behavior
import ScriptObjects.Host.HostType
import ScriptObjects.Host.Object
import ScriptObjects.Host.Routine
import ScriptObjects.Inspection
import ScriptObjects.Instance
import ScriptObjects.Machine
import ScriptObjects.Marshal
import ScriptObjects.MetaKey
import ScriptObjects.Number.Binary64
import ScriptObjects.Number.Layout
import ScriptObjects.Number.Shortest
import ScriptObjects.Registry
import ScriptObjects.Request
import ScriptObjects.Scope.Basic
import ScriptObjects.Scope.Declare
import ScriptObjects.Scope.Variables
import ScriptObjects.Session
import ScriptObjects.Snapshot
import ScriptObjects.Steps
import ScriptObjects.Table
import ScriptObjects.Text.Hex
import ScriptObjects.Text.Printable
import ScriptObjects.Text.Quoted
import ScriptObjects.TypeMode
import ScriptObjects.Typing
import ScriptObjects.Value
import ScriptObjects.ValueType
import ScriptObjects.World
import ScriptObjects.Proofs.Activities
import ScriptObjects.Proofs.Answers
import ScriptObjects.Proofs.CallStacks
import ScriptObjects.Proofs.Collisions
import ScriptObjects.Proofs.Commands
import ScriptObjects.Proofs.Isolation
import ScriptObjects.Proofs.Precedence
import ScriptObjects.Proofs.Attachments
import ScriptObjects.Proofs.Metering
import ScriptObjects.Proofs.Frugality
import ScriptObjects.Proofs.Nesting
import ScriptObjects.Proofs.Ceiling
import ScriptObjects.Proofs.ConstructionFollows
import ScriptObjects.Proofs.Compatibility
import ScriptObjects.Proofs.Delegation
import ScriptObjects.Proofs.FunctionSlots
import ScriptObjects.Proofs.HierarchyQueries
import ScriptObjects.Proofs.RegistrationOrder
import ScriptObjects.Proofs.InstanceLevels
import ScriptObjects.Proofs.Marshaling
import ScriptObjects.Proofs.Members
import ScriptObjects.Proofs.AnnotationHooks
import ScriptObjects.Proofs.MetaTables
import ScriptObjects.Proofs.Probes
import ScriptObjects.Proofs.Reconstruction
import ScriptObjects.Proofs.Surfacing
import ScriptObjects.Proofs.TypedAccess
import ScriptObjects.Proofs.ConstructorArguments
import ScriptObjects.Proofs.Initialization
import ScriptObjects.Proofs.Interceptions
import ScriptObjects.Proofs.Materializations
import ScriptObjects.Proofs.SuperCalls
import ScriptObjects.Proofs.Visibility
import ScriptObjects.Proofs.DescribedHosts
import ScriptObjects.Proofs.FloatOrder
import ScriptObjects.Proofs.Widening
import ScriptObjects.Proofs.NumberOrder
import ScriptObjects.Proofs.TableKeys
import ScriptObjects.Proofs.IntegerOperators
import ScriptObjects.Proofs.Sequences
import ScriptObjects.Proofs.ClassReferences
