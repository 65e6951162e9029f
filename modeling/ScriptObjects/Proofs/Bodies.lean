import ScriptObjects.Form.Declaration
import ScriptObjects.Session

/-!
# What bodies can declare

The only expression that adds a variable to a scope names the variable outright.  The
names that an expression, a function or a class can declare are therefore read off
its text, and a state permits exactly the names that some body in it mentions so.
-/

namespace ScriptObjects

set_option autoImplicit false

/-! ## Expressions -/

mutual

/-- The names that the evaluation of an expression can declare. -/
def Expr.declaredNames : Expr → List String
  | .declare name _ => [name]
  | .list items | .host _ items | .sequence items | .call _ items | .baseCall _ items
  | .create _ items | .operate _ items => Expr.declaredNamesOfAll items
  | .table entries => Expr.declaredNamesOfEntries entries
  | .bind _ value | .log value | .typeName value | .attempt value | .set _ value
  | .baseSet _ value | .member value _ _ => value.declaredNames
  | .branch condition thenCase elseCase =>
      condition.declaredNames ++ thenCase.declaredNames ++ elseCase.declaredNames
  | .index target key => target.declaredNames ++ key.declaredNames
  | .setIndex target key value =>
      target.declaredNames ++ key.declaredNames ++ value.declaredNames
  | .identical left right => left.declaredNames ++ right.declaredNames
  | .setMember target _ _ value => target.declaredNames ++ value.declaredNames
  | .null | .bool _ | .int _ | .float _ | .text _ | .var _ | .throw _ | .raiseHost _
  | .raiseType _ _ | .raiseNotDeclared _ | .arg _ | .args | .argCount | .this | .level
  | .trace | .depth | .get _ | .baseGet _ => []

/-- The names that several expressions can declare. -/
def Expr.declaredNamesOfAll : List Expr → List String
  | [] => []
  | expr :: rest => expr.declaredNames ++ Expr.declaredNamesOfAll rest

/-- The names that the entries of a table can declare. -/
def Expr.declaredNamesOfEntries : List (Expr × Expr) → List String
  | [] => []
  | (key, value) :: rest =>
      key.declaredNames ++ value.declaredNames ++ Expr.declaredNamesOfEntries rest

end

/-! ## Declarations -/

/-- The expressions among the arguments of several annotations. -/
def annotationBodies {ρ : Type} (uses : List (AnnotationUse ρ)) : List Expr :=
  uses.flatMap AnnotationUse.args

/-- The expressions that run when a function is called or turned into a slot. -/
def FunctionDecl.bodies {ρ : Type} (function : FunctionDecl ρ) : List Expr :=
  match function.body with
  | .script body => body :: annotationBodies function.annotations
  | _ => annotationBodies function.annotations

/-- The expressions that run when a field is constructed. -/
def FieldDecl.bodies {ρ : Type} (field : FieldDecl ρ) : List Expr :=
  match field.storage with
  | .script (some initializer) => initializer :: annotationBodies field.annotations
  | _ => annotationBodies field.annotations

/-- The expressions in the declaration of a class. -/
def ClassDef.bodies (cls : ClassDef) : List Expr :=
  annotationBodies cls.annotations ++ cls.fields.flatMap FieldDecl.bodies ++
    cls.functions.flatMap FunctionDecl.bodies

/-- Whether some expressions declare none but certain names. -/
def DeclareOnly (may : String → Prop) (bodies : List Expr) : Prop :=
  ∀ name ∈ Expr.declaredNamesOfAll bodies, may name

theorem Expr.mem_declaredNamesOfAll {bodies : List Expr} {name : String} :
    name ∈ Expr.declaredNamesOfAll bodies ↔ ∃ body ∈ bodies, name ∈ body.declaredNames := by
  induction bodies with
  | nil => simp [Expr.declaredNamesOfAll]
  | cons expr rest ih => simp [Expr.declaredNamesOfAll, ih]

theorem DeclareOnly.of_subset {may : String → Prop} {bodies fewer : List Expr}
    (all : DeclareOnly may bodies) (among : ∀ body ∈ fewer, body ∈ bodies) :
    DeclareOnly may fewer := by
  intro name member
  obtain ⟨body, inside, declared⟩ := Expr.mem_declaredNamesOfAll.mp member
  exact all name (Expr.mem_declaredNamesOfAll.mpr ⟨body, among body inside, declared⟩)

theorem ClassDef.field_bodies {cls : ClassDef} {field : Field} (member : field ∈ cls.fields) :
    ∀ body ∈ field.bodies, body ∈ cls.bodies := by
  intro body inside
  simp only [ClassDef.bodies, List.mem_append, List.mem_flatMap]
  exact .inl (.inr ⟨field, member, inside⟩)

theorem ClassDef.function_bodies {cls : ClassDef} {function : Function}
    (member : function ∈ cls.functions) : ∀ body ∈ function.bodies, body ∈ cls.bodies := by
  intro body inside
  simp only [ClassDef.bodies, List.mem_append, List.mem_flatMap]
  exact .inr ⟨function, member, inside⟩

/-! ## States -/

/-- No body in a state declares any but certain names: neither that of a registered class, nor
that of a function of the assembly, nor that of a function value. -/
structure World.Permits (may : String → Prop) (world : World) : Prop where
  classes : ∀ id, DeclareOnly may (world.cls id).bodies
  functions : ∀ function ∈ world.functions, DeclareOnly may function.bodies
  callables : ∀ callable function, (world.callables.get callable).function = some function →
    DeclareOnly may function.bodies

end ScriptObjects
