import ScriptObjects.Proofs.Registration

/-!
# Defining a class

A definition appends a class and the references it mentions, and changes nothing that
was there.  The check of the chain of base names sees every way in which the new class
could lead back to itself, so that chains keep ending; and whatever was found along a
chain is found as before, because a chain only grows at its end.
-/

namespace ScriptObjects

set_option autoImplicit false

/-- All uses of annotations on a class, its fields and its functions. -/
def ClassDef.uses (cls : ClassDef) : List (AnnotationUse ClassRefId) :=
  cls.annotations ++ cls.fields.flatMap FieldDecl.annotations ++
    cls.functions.flatMap FunctionDecl.annotations

namespace World

/-! ## Linking -/

/-- The second heap of references has those of the first, and new ones that remember nothing. -/
structure Linked (before after : Heap .classRef ClassRef) : Prop where
  size : before.size ≤ after.size
  same : ∀ reference, reference.index < before.size → after.get reference = before.get reference
  fresh : ∀ reference, before.size ≤ reference.index → (after.get reference).target = none

namespace Linked

variable {first second third : Heap .classRef ClassRef}

theorem refl (refs : Heap .classRef ClassRef) : Linked refs refs where
  size := Nat.le_refl _
  same _ _ := rfl
  fresh reference beyond := by
    unfold Heap.get
    rw [Heap.get?_eq_none _ beyond]
    rfl

theorem trans (one : Linked first second) (two : Linked second third) : Linked first third where
  size := Nat.le_trans one.size two.size
  same reference old := by
    rw [two.same reference (Nat.lt_of_lt_of_le old one.size), one.same reference old]
  fresh reference beyond := by
    by_cases between : reference.index < second.size
    · rw [two.same reference between]
      exact one.fresh reference beyond
    · exact two.fresh reference (Nat.le_of_not_lt between)

theorem push (refs : Heap .classRef ClassRef) (name : String) :
    Linked refs (refs.push ⟨name, none⟩) where
  size := by simp
  same reference old := Heap.get_push_of_lt refs _ old
  fresh reference beyond := by
    rw [Heap.get_push]
    split
    · rfl
    · exact (refl refs).fresh reference beyond

end Linked

/-- Linking only appends references. -/
def Appends {α : Type} (run : Linking α) : Prop := ∀ refs, Linked refs (run.run refs).2

theorem linkName_appends (name : String) : Appends (linkName name) :=
  fun refs => .push refs name

theorem Appends.pure {α : Type} (result : α) : Appends (pure result : Linking α) :=
  fun refs => .refl refs

theorem Appends.bind {α β : Type} {run : Linking α} {next : α → Linking β}
    (first : Appends run) (second : ∀ result, Appends (next result)) :
    Appends (run >>= next) :=
  fun refs => (first refs).trans (second _ _)

theorem Appends.mapM {α β : Type} {link : α → Linking β} (each : ∀ x, Appends (link x))
    (xs : List α) : Appends (xs.mapM link) := by
  induction xs with
  | nil => exact .pure _
  | cons x rest ih =>
      rw [List.mapM_cons]
      exact .bind (each x) fun _ => .bind ih fun _ => .pure _

/-- What linking does to each entry it does to a list of them. -/
theorem mapM_map {α β γ : Type} {link : α → Linking β} {view : β → γ} {origin : α → γ}
    (each : ∀ x refs, view ((link x).run refs).1 = origin x) (xs : List α)
    (refs : Heap .classRef ClassRef) : ((xs.mapM link).run refs).1.map view = xs.map origin := by
  induction xs generalizing refs with
  | nil => rfl
  | cons x rest ih =>
      rw [List.mapM_cons]
      show (((rest.mapM link).run ((link x).run refs).2).1.map view).cons
        (view ((link x).run refs).1) = _
      rw [each, ih]
      rfl

theorem linkUse_appends (use : AnnotationUse String) : Appends (linkUse use) :=
  .bind (linkName_appends _) fun _ => .pure _

theorem linkFunction_appends (owner : Option Owner) (function : FunctionDecl String) :
    Appends (linkFunction owner function) :=
  .bind (.mapM linkUse_appends _) fun _ => .pure _

theorem linkField_appends (owner : Owner) (field : FieldDecl String) :
    Appends (linkField owner field) :=
  .bind (.mapM linkUse_appends _) fun _ => .pure _

/-- Linking a class begins with its base, and then appends what its members mention. -/
theorem linkClass_eq (spec : ClassSpec) :
    ∃ rest : Option ClassRefId → Linking ClassDef,
      linkClass spec = (spec.base.mapM linkName >>= rest) ∧
        ∀ base, Appends (rest base) ∧ ∀ refs, ((rest base).run refs).1.base = base := by
  refine ⟨_, rfl, fun base => ⟨?_, fun refs => rfl⟩⟩
  refine .bind (.mapM (linkField_appends _) _) fun _ => ?_
  refine .bind (.mapM (linkFunction_appends _) _) fun _ => ?_
  exact .bind (.mapM linkUse_appends _) fun _ => .pure _

theorem linkBase_appends (base : Option String) : Appends (base.mapM linkName) := by
  cases base with
  | none => exact .pure _
  | some name => exact .bind (linkName_appends name) fun _ => .pure _

theorem linkClass_appends (spec : ClassSpec) : Appends (linkClass spec) := by
  obtain ⟨rest, same, appends⟩ := linkClass_eq spec
  rw [same]
  exact .bind (linkBase_appends spec.base) fun base => (appends base).1

/-- The annotations that linking makes refer to references that exist. -/
def LinksUses {α : Type} (link : Linking α) (uses : α → List (AnnotationUse ClassRefId)) : Prop :=
  ∀ refs, ∀ use ∈ uses (link.run refs).1, use.cls.index < (link.run refs).2.size

theorem LinksUses.mapM {α β : Type} {link : α → Linking β}
    {uses : β → List (AnnotationUse ClassRefId)} (appends : ∀ x, Appends (link x))
    (each : ∀ x, LinksUses (link x) uses) (xs : List α) :
    LinksUses (xs.mapM link) (List.flatMap uses) := by
  induction xs with
  | nil => exact fun _ _ member => (List.not_mem_nil member).elim
  | cons x rest ih =>
      intro refs use member
      rw [List.mapM_cons] at member ⊢
      let first := (link x).run refs
      let others := (rest.mapM link).run first.2
      have longer : first.2.size ≤ others.2.size := (Appends.mapM appends rest first.2).size
      have member : use ∈ uses first.1 ++ others.1.flatMap uses := member
      show use.cls.index < others.2.size
      rcases List.mem_append.mp member with head | later
      · exact Nat.lt_of_lt_of_le (each x refs use head) longer
      · exact ih first.2 use later

theorem linkUse_links (use : AnnotationUse String) : LinksUses (linkUse use) List.singleton := by
  intro refs linked member
  rw [List.mem_singleton.mp member]
  show refs.next.index < (refs.push ⟨use.cls, none⟩).size
  rw [Heap.next_index, Heap.size_push]
  exact Nat.lt_succ_self _

theorem linkUses_links (uses : List (AnnotationUse String)) :
    LinksUses (uses.mapM linkUse) id := by
  intro refs use member
  refine LinksUses.mapM linkUse_appends linkUse_links uses refs use ?_
  exact List.mem_flatMap.mpr ⟨use, member, List.mem_singleton_self use⟩

theorem linkFunction_links (owner : Option Owner) (function : FunctionDecl String) :
    LinksUses (linkFunction owner function) FunctionDecl.annotations :=
  linkUses_links function.annotations

theorem linkField_links (owner : Owner) (field : FieldDecl String) :
    LinksUses (linkField owner field) FieldDecl.annotations :=
  linkUses_links field.annotations

theorem linkClass_links (spec : ClassSpec) : LinksUses (linkClass spec) ClassDef.uses := by
  intro refs use member
  let owner := Owner.ofClass spec.name
  let base := (spec.base.mapM linkName).run refs
  let fields := (spec.fields.mapM (linkField owner)).run base.2
  let functions := (spec.completeFunctions.mapM (linkFunction (some owner))).run fields.2
  let uses := (spec.annotations.mapM linkUse).run functions.2
  have lastUses : functions.2.size ≤ uses.2.size := (Appends.mapM linkUse_appends _ _).size
  have lastFunctions : fields.2.size ≤ functions.2.size :=
    (Appends.mapM (linkFunction_appends _) _ _).size
  have member : use ∈ uses.1 ++ fields.1.flatMap FieldDecl.annotations ++
      functions.1.flatMap FunctionDecl.annotations := member
  show use.cls.index < uses.2.size
  rw [List.append_assoc, List.mem_append, List.mem_append] at member
  rcases member with own | ofField | ofFunction
  · exact linkUses_links _ _ use own
  · have inside : use.cls.index < fields.2.size :=
      LinksUses.mapM (linkField_appends owner) (linkField_links owner) _ _ use ofField
    exact Nat.lt_of_lt_of_le inside (Nat.le_trans lastFunctions lastUses)
  · have inside : use.cls.index < functions.2.size :=
      LinksUses.mapM (linkFunction_appends _) (linkFunction_links _) _ _ use ofFunction
    exact Nat.lt_of_lt_of_le inside lastUses

/-- What a specification becomes when it is linked. -/
structure Describes (spec : ClassSpec) (refs : Heap .classRef ClassRef) (cls : ClassDef) :
    Prop where
  name : cls.name = spec.name
  hash : cls.hash = TypeHash.ofName spec.name
  owners : ∀ function ∈ cls.functions, function.owner = some (Owner.ofClass spec.name)
  fields : cls.fields.map FieldDecl.name = spec.fields.map FieldDecl.name
  functions : cls.functions.map FunctionDecl.name =
    spec.completeFunctions.map FunctionDecl.name
  base : cls.base.map (fun reference => (refs.get reference).name) = spec.base
  baseRef : ∀ reference, cls.base = some reference → reference.index < refs.size
  uses : ∀ use ∈ cls.uses, use.cls.index < refs.size
  described : cls.described = spec.described
  table : cls.metaTable = none

theorem linkClass_describes (spec : ClassSpec) (refs : Heap .classRef ClassRef) :
    Describes spec ((linkClass spec).run refs).2 ((linkClass spec).run refs).1 where
  name := rfl
  hash := rfl
  owners := by
    intro function member
    have owned : ((linkClass spec).run refs).1.functions.map FunctionDecl.owner =
        spec.completeFunctions.map fun _ => some (Owner.ofClass spec.name) :=
      mapM_map (fun _ _ => rfl) _ _
    have among := List.mem_map_of_mem (f := FunctionDecl.owner) member
    rw [owned] at among
    obtain ⟨_, _, same⟩ := List.mem_map.mp among
    exact same.symm
  fields := mapM_map (fun _ _ => rfl) _ _
  functions := mapM_map (fun _ _ => rfl) _ _
  base := by
    obtain ⟨rest, same, appends⟩ := linkClass_eq spec
    cases based : spec.base with
    | none =>
        rw [same, based]
        show (((rest none).run refs).1.base).map _ = none
        rw [(appends none).2]
        rfl
    | some name =>
        rw [same, based]
        have later := (appends (some refs.next)).1 (refs.push ⟨name, none⟩)
        show (((rest (some refs.next)).run (refs.push ⟨name, none⟩)).1.base).map _ = some name
        rw [(appends (some refs.next)).2, Option.map_some]
        have there : refs.next.index < (refs.push ⟨name, none⟩).size := by
          rw [Heap.next_index, Heap.size_push]
          omega
        have kept := later.same refs.next there
        rw [Heap.get_push_next] at kept
        exact congrArg (fun cell => some (ClassRef.name cell)) kept
  baseRef := by
    intro reference based
    obtain ⟨rest, same, appends⟩ := linkClass_eq spec
    cases declared : spec.base with
    | none =>
        rw [same, declared] at based
        change (((rest none).run refs).1.base) = some reference at based
        rw [(appends none).2] at based
        cases based
    | some name =>
        rw [same, declared] at based ⊢
        change (((rest (some refs.next)).run (refs.push ⟨name, none⟩)).1.base) =
          some reference at based
        rw [(appends (some refs.next)).2] at based
        cases based
        have later := ((appends (some refs.next)).1 (refs.push ⟨name, none⟩)).size
        rw [Heap.size_push] at later
        exact Nat.lt_of_lt_of_le (Nat.lt_succ_self _) later
  uses := linkClass_links spec refs
  described := rfl
  table := rfl

/-! ## What the check of a class establishes -/

theorem firstRepeat?_none {seen names : List String} (unique : firstRepeat? seen names = none) :
    names.Nodup ∧ ∀ name ∈ names, name ∉ seen := by
  induction names generalizing seen with
  | nil => exact ⟨List.nodup_nil, fun _ found => (List.not_mem_nil found).elim⟩
  | cons name rest ih =>
      unfold firstRepeat? at unique
      split at unique
      · cases unique
      · next new =>
          obtain ⟨nodup, apart⟩ := ih unique
          refine ⟨List.nodup_cons.mpr ⟨fun again => apart name again List.mem_cons_self, nodup⟩, ?_⟩
          intro other found
          rcases List.mem_cons.mp found with rfl | later
          · exact new
          · exact fun met => apart other later (List.mem_cons_of_mem name met)

/-- The members of a class, with the constructor that is supplied for it, have distinct names. -/
theorem completeNames_nodup {spec : ClassSpec} (unique : firstRepeat? [] spec.memberNames = none) :
    (spec.fields.map FieldDecl.name ++ spec.completeFunctions.map FunctionDecl.name).Nodup := by
  have nodup := (firstRepeat?_none unique).1
  unfold ClassSpec.completeFunctions
  split
  · next supplied =>
      have absent : constructorName ∉ spec.memberNames := by simp_all
      rw [List.map_append, ← List.append_assoc]
      refine List.nodup_append.mpr ⟨nodup, List.nodup_singleton _, ?_⟩
      rintro name found _ (_ | ⟨_, impossible⟩) rfl
      · exact absent found
      · cases impossible
  · exact nodup

/-- Why a class cannot be registered, the first reason found. -/
def checkClass (world : World) (spec : ClassSpec) : Refusable Unit := do
  if (world.findClass? spec.name).isSome then
    throw (.duplicateClass spec.name)
  if let some host := spec.described then
    if let some existing := world.classForHost? host then
      throw (.duplicateHostType host.fullName (world.cls existing).name)
  if world.leadsBack spec.name (world.classes.size + 2) [] spec.base then
    throw (.circularInheritance spec.name)
  if let some member := firstRepeat? [] spec.memberNames then
    throw (.duplicateMember spec.name member)
  if let some base := spec.base.bind world.findClass? then
    world.checkInheritable spec.name spec.mode base

/-- The part of the check that looks at the class alone. -/
def checkShape (world : World) (spec : ClassSpec) : Refusable Unit := do
  if world.leadsBack spec.name (world.classes.size + 2) [] spec.base then
    throw (.circularInheritance spec.name)
  if let some member := firstRepeat? [] spec.memberNames then
    throw (.duplicateMember spec.name member)
  if let some base := spec.base.bind world.findClass? then
    world.checkInheritable spec.name spec.mode base

/-- The part of the request that looks at the class alone, and then enters it. -/
def defineShaped (spec : ClassSpec) : Registering Unit := do
  if (← get).leadsBack spec.name ((← get).classes.size + 2) [] spec.base then
    throw (.circularInheritance spec.name)
  if let some member := firstRepeat? [] spec.memberNames then
    throw (.duplicateMember spec.name member)
  if let some base := spec.base.bind (← get).findClass? then
    (← get).checkInheritable spec.name spec.mode base
  modify (·.addClass spec)

theorem get_bind_run {β : Type} (next : World → Registering β) (world : World) :
    (get >>= next).run world = (next world).run world := rfl

theorem run_defineShaped (world : World) (spec : ClassSpec) :
    (defineShaped spec).run world = match world.checkShape spec with
      | .ok () => (.ok (), world.addClass spec)
      | .error refusal => (.error refusal, world) := by
  unfold defineShaped checkShape
  simp only [get_bind_run]
  cases world.leadsBack spec.name (world.classes.size + 2) [] spec.base with
  | true => rfl
  | false =>
      cases firstRepeat? [] spec.memberNames with
      | some member => rfl
      | none =>
          simp only [Bool.false_eq_true, if_false, get_bind_run]
          cases spec.base.bind world.findClass? with
          | none => rfl
          | some base =>
              simp only [get_bind_run]
              unfold checkInheritable
              dsimp only
              split <;> rfl

/-- A request to register a class touches the state only when nothing speaks against the class any
more: it enters the class into all tables, or it leaves everything as it was. -/
theorem run_define (world : World) (spec : ClassSpec) :
    (define spec).run world = match world.checkClass spec with
      | .ok () => (.ok (), world.addClass spec)
      | .error refusal => (.error refusal, world) := by
  unfold define checkClass
  simp only [get_bind_run]
  cases world.findClass? spec.name with
  | some id => rfl
  | none =>
      cases spec.described with
      | none => exact run_defineShaped world spec
      | some host =>
          simp only [Option.isSome_none, Bool.false_eq_true, if_false, get_bind_run]
          cases world.classForHost? host with
          | some id => rfl
          | none => exact run_defineShaped world spec

/-- What must hold of a class for it to be registered, as far as the tables and the chains depend on
it. -/
structure Accepts (world : World) (spec : ClassSpec) : Prop where
  newName : world.findClass? spec.name = none
  newHost : ∀ host, spec.described = some host → world.classForHost? host = none
  grounded : world.leadsBack spec.name (world.classes.size + 2) [] spec.base = false
  unique : firstRepeat? [] spec.memberNames = none

/-- The check asks the tables first. -/
theorem checkClass_eq_ok_iff {world : World} {spec : ClassSpec} :
    world.checkClass spec = .ok () ↔
      world.findClass? spec.name = none ∧
        (∀ host, spec.described = some host → world.classForHost? host = none) ∧
          world.checkShape spec = .ok () := by
  unfold checkClass
  cases taken : world.findClass? spec.name with
  | some id => exact iff_of_false nofun nofun
  | none =>
      rw [and_iff_right rfl]
      cases described : spec.described with
      | none => exact (and_iff_right nofun).symm
      | some host =>
          cases existing : world.classForHost? host with
          | none =>
              simp only [existing]
              refine (and_iff_right ?_).symm
              rintro _ ⟨⟩
              exact existing
          | some id =>
              simp only [existing]
              refine iff_of_false nofun fun free => ?_
              rw [free.1 host rfl] at existing
              cases existing

theorem checkClass_ok {world : World} {spec : ClassSpec} (ok : world.checkClass spec = .ok ()) :
    world.Accepts spec := by
  obtain ⟨newName, newHost, shape⟩ := checkClass_eq_ok_iff.mp ok
  unfold checkShape at shape
  cases leads : world.leadsBack spec.name (world.classes.size + 2) [] spec.base with
  | true =>
      rw [leads] at shape
      cases shape
  | false =>
      cases repeated : firstRepeat? [] spec.memberNames with
      | none => exact ⟨newName, newHost, leads, repeated⟩
      | some member =>
          rw [leads, repeated] at shape
          cases shape

/-! ## What a definition adds -/

/-- The second state has all declarations of the first, and perhaps more. -/
structure Extends (before after : World) : Prop where
  size : before.classes.size ≤ after.classes.size
  cls : ∀ id : ClassId, id.index < before.classes.size → after.cls id = before.cls id
  inside : ∀ id base, before.base? id = some base → base.index < before.classes.size
  base : ∀ id base, before.base? id = some base → after.base? id = some base
  functions : ∃ more, after.functions = before.functions ++ more

namespace Extends

variable {before after : World} (grows : before.Extends after)
include grows

theorem walk {fuel more : Nat} (enough : fuel ≤ more) (seen : List TypeHash)
    {start : Option ClassId} (inside : ∀ id ∈ start, id.index < before.classes.size)
    {start' : Option ClassId} (same : ∀ id, start = some id → start' = some id) :
    before.walk fuel seen start <+: after.walk more seen start' := by
  induction fuel generalizing more seen start start' with
  | zero => exact List.nil_prefix
  | succ fuel ih =>
      obtain ⟨more, rfl⟩ : ∃ rest, more = rest + 1 := ⟨more - 1, by omega⟩
      cases start with
      | none => exact List.nil_prefix
      | some id =>
          rw [same id rfl]
          simp only [World.walk]
          rw [grows.cls id (inside id rfl)]
          split
          · exact List.nil_prefix
          · refine List.cons_prefix_cons.mpr ⟨rfl, ih (by omega) _ ?_ (grows.base id)⟩
            intro base found
            exact grows.inside id base found

theorem ancestors {id : ClassId} (inside : id.index < before.classes.size) :
    before.ancestors id <+: after.ancestors id := by
  have size := grows.size
  refine grows.walk (by omega) [] ?_ fun _ same => same
  rintro _ ⟨⟩
  exact inside

/-- What is nearest along a chain stays nearest when the chain grows at its end. -/
theorem nearest? {α : Type} {question : ClassDef → Option α} {id : ClassId} {answer : α}
    (inside : id.index < before.classes.size)
    (found : before.nearest? id question = some answer) :
    after.nearest? id question = some answer := by
  obtain ⟨more, longer⟩ := grows.ancestors inside
  have same : ∀ member ∈ before.ancestors id,
      question (after.cls member) = question (before.cls member) := by
    intro member met
    rw [grows.cls member (ancestors_inside grows.inside inside member met)]
  unfold World.nearest? at found ⊢
  rw [← longer, List.findSome?_append]
  have agree : (before.ancestors id).findSome? (fun member => question (after.cls member)) =
      (before.ancestors id).findSome? fun member => question (before.cls member) := by
    generalize before.ancestors id = chain at same
    induction chain with
    | nil => rfl
    | cons head rest ih =>
        rw [List.findSome?_cons, List.findSome?_cons, same head List.mem_cons_self,
          ih fun member met => same member (List.mem_cons_of_mem head met)]
  rw [agree, found, Option.some_or]

theorem levelFunction? {id : ClassId} {tier : Access} {name : String} {function : Function}
    (inside : id.index < before.classes.size)
    (found : before.levelFunction? id tier name = some function) :
    after.levelFunction? id tier name = some function := by
  unfold World.levelFunction? at found ⊢
  split
  · next own =>
      rw [if_pos own] at found
      rw [grows.cls id inside]
      exact found
  · next chained =>
      rw [if_neg chained] at found
      exact grows.nearest? inside found

theorem function? {name : String} {function : Function}
    (found : before.function? name = some function) : after.function? name = some function := by
  obtain ⟨more, longer⟩ := grows.functions
  unfold World.function? at found ⊢
  rw [longer, List.find?_append, found, Option.some_or]

theorem links {id : ClassId} {link : MetaLink} (inside : id.index < before.classes.size)
    (leads : before.Links id link) : after.Links id link := by
  obtain ⟨member, found, declared, named, owned, tier⟩ := leads
  have there := ancestors_inside grows.inside inside member found
  refine ⟨member, (grows.ancestors inside).subset found, ?_, named, ?_, tier⟩
  · rw [grows.cls member there]
    exact declared
  · rw [grows.cls member there]
    exact owned

end Extends

/-! ## Adding a class -/

/-- A class is accepted, and added to the state. -/
structure Adds (spec : ClassSpec) (before after : World) : Prop where
  accepted : before.Accepts spec
  classes : ∃ cls, after.classes = before.classes.push cls ∧ Describes spec after.classRefs cls
  refs : before.classRefs.size ≤ after.classRefs.size
  names : ∀ reference, reference.index < before.classRefs.size →
    (after.classRefs.get reference).name = (before.classRefs.get reference).name
  remembered : ∀ reference, (before.classRefs.get reference).target.isSome →
    after.classRefs.get reference = before.classRefs.get reference
  targets : ∀ reference target, (after.classRefs.get reference).target = some target →
    (before.classRefs.get reference).target = some target ∨
      before.findClass? (after.classRefs.get reference).name = some target
  registry : after.registry = ((before.registry.enterName spec.name before.classes.next).enterLast
    before.classes.next).enterHost spec.described before.classes.next
  rest : after = { before with
    classes := after.classes, registry := after.registry, classRefs := after.classRefs }

/-- What linking and one touch of a reference do to the references. -/
structure LinksThenTouches (before after : World) : Prop where
  refs : before.classRefs.size ≤ after.classRefs.size
  names : ∀ reference, reference.index < before.classRefs.size →
    (after.classRefs.get reference).name = (before.classRefs.get reference).name
  remembered : ∀ reference, (before.classRefs.get reference).target.isSome →
    after.classRefs.get reference = before.classRefs.get reference
  targets : ∀ reference target, (after.classRefs.get reference).target = some target →
    (before.classRefs.get reference).target = some target ∨
      before.findClass? (after.classRefs.get reference).name = some target
  rest : after = { before with classRefs := after.classRefs }

theorem LinksThenTouches.link {world : World} {refs : Heap .classRef ClassRef}
    (linked : Linked world.classRefs refs) :
    LinksThenTouches world { world with classRefs := refs } where
  refs := linked.size
  names reference old := congrArg ClassRef.name (linked.same reference old)
  remembered reference known :=
    linked.same reference (Continues.inside_of_remembered known)
  targets reference target cached := by
    left
    by_cases old : reference.index < world.classRefs.size
    · rw [linked.same reference old] at cached
      exact cached
    · rw [linked.fresh reference (Nat.le_of_not_lt old)] at cached
      cases cached
  rest := rfl

theorem LinksThenTouches.touch {before between : World}
    (linked : LinksThenTouches before between) (reference : ClassRefId) :
    LinksThenTouches before (between.touchRef reference) where
  refs := by
    rw [size_classRefs_touchRef]
    exact linked.refs
  names other old := by
    rw [name_touchRef]
    exact linked.names other old
  remembered other known := by
    have same := linked.remembered other known
    rw [get_touchRef_of_remembered _ _ (same ▸ known), same]
  targets other target cached := by
    obtain same | ⟨_, stands⟩ := between.target_touchRef reference other
    · rw [same] at cached
      rw [name_touchRef]
      exact linked.targets other target cached
    · rw [stands] at cached
      rw [name_touchRef]
      unfold target? at cached
      split at cached
      · dsimp only at cached
        split at cached
        · next known =>
            cases cached
            exact linked.targets other target known
        · right
          rw [linked.rest] at cached
          exact cached
      · cases cached
  rest := by
    rw [touchRef_eq]
    generalize (between.touchRef reference).classRefs = refs
    rw [linked.rest]

/-- The state after the base of a new class was followed. -/
def followBase (world : World) : Option ClassRefId → World
  | some reference => world.touchRef reference
  | none => world

theorem Accepts.adds {world : World} {spec : ClassSpec} (accepted : world.Accepts spec) :
    Adds spec world (world.addClass spec) := by
  let cls := ((linkClass spec).run world.classRefs).1
  let refs := ((linkClass spec).run world.classRefs).2
  have described : Describes spec refs cls := linkClass_describes spec world.classRefs
  let withRefs : World := { world with classRefs := refs }
  have linked : LinksThenTouches world withRefs := .link (linkClass_appends spec world.classRefs)
  let followed : World := withRefs.followBase cls.base
  have added : world.addClass spec = { followed with
      classes := followed.classes.push cls
      registry := ((followed.registry.enterName cls.name followed.classes.next).enterLast
        followed.classes.next).enterHost cls.described followed.classes.next } := rfl
  obtain ⟨touches, names, size⟩ : LinksThenTouches world followed ∧
      (∀ reference, (followed.classRefs.get reference).name = (refs.get reference).name) ∧
      followed.classRefs.size = refs.size := by
    cases base : cls.base with
    | none =>
        simp only [followed, base]
        exact ⟨linked, fun _ => rfl, rfl⟩
    | some reference =>
        simp only [followed, base]
        exact ⟨linked.touch reference, fun other => withRefs.name_touchRef reference other,
          withRefs.size_classRefs_touchRef reference⟩
  have classes : followed.classes = world.classes := by rw [touches.rest]
  rw [added]
  refine ⟨accepted, ⟨cls, congrArg (·.push cls) classes, ?_⟩, touches.refs, touches.names,
    touches.remembered, touches.targets, ?_, ?_⟩
  · refine ⟨described.name, described.hash, described.owners, described.fields,
      described.functions, ?_, ?_, ?_, described.described, described.table⟩
    · simp only [names]
      exact described.base
    · intro reference based
      rw [size]
      exact described.baseRef reference based
    · intro use member
      rw [size]
      exact described.uses use member
  · have registry : followed.registry = world.registry := by rw [touches.rest]
    rw [registry, classes, described.name, described.described]
  · rw [touches.rest]

theorem define_ok {world after : World} {spec : ClassSpec}
    (ok : (define spec).run world = (.ok (), after)) : Adds spec world after := by
  rw [run_define] at ok
  cases checked : world.checkClass spec with
  | error refusal =>
      rw [checked] at ok
      cases ok
  | ok =>
      rw [checked] at ok
      cases ok
      exact (checkClass_ok checked).adds

/-- A request that is refused leaves everything as it was. -/
def Atomic (request : Registering Unit) : Prop :=
  ∀ world after refusal, request.run world = (.error refusal, after) → after = world

theorem define_atomic (spec : ClassSpec) : Atomic (define spec) := by
  intro world after refusal refused
  rw [run_define] at refused
  cases checked : world.checkClass spec with
  | error =>
      rw [checked] at refused
      cases refused
      rfl
  | ok =>
      rw [checked] at refused
      cases refused

/-! ## Adding a function -/

/-- A function of the assembly is appended, with the references it mentions. -/
structure AddsFunction (function : Function) (before after : World) : Prop where
  refs : Linked before.classRefs after.classRefs
  uses : ∀ use ∈ function.annotations, use.cls.index < after.classRefs.size
  rest : after = { before with
    classRefs := after.classRefs, functions := before.functions ++ [function] }

/-- A request to register a function adds it, or it leaves everything as it was. -/
theorem run_defineFunction (world : World) (spec : FunctionDecl String) :
    (defineFunction spec).run world =
      if (world.function? spec.name).isSome then (.error (.duplicateFunction spec.name), world)
      else (.ok (), { world with
        classRefs := ((linkFunction none spec).run world.classRefs).2
        functions := world.functions ++ [((linkFunction none spec).run world.classRefs).1] }) := by
  unfold defineFunction
  simp only [get_bind_run]
  split <;> rfl

theorem defineFunction_atomic (spec : FunctionDecl String) : Atomic (defineFunction spec) := by
  intro world after refusal refused
  rw [run_defineFunction] at refused
  split at refused
  · cases refused
    rfl
  · cases refused

theorem defineFunction_ok {world after : World} {spec : FunctionDecl String}
    (ok : (defineFunction spec).run world = (.ok (), after)) :
    AddsFunction ((linkFunction none spec).run world.classRefs).1 world after := by
  rw [run_defineFunction] at ok
  split at ok
  · cases ok
  · cases ok
    exact {
      refs := linkFunction_appends none spec world.classRefs
      uses := linkFunction_links none spec world.classRefs
      rest := rfl }

end World

end ScriptObjects
