import Mathlib.Data.List.Find
import Mathlib.Data.List.ModifyLast
import ScriptObjects.Proofs.BaseNames
import ScriptObjects.Proofs.Defining

/-!
# The registry grows soundly

A definition that is accepted leaves a registry that keeps its promises and has all
that was there before.  The chain of the new class ends because the check followed
its base names to their end; the chains of the other classes end because the new one
does.
-/

namespace ScriptObjects

set_option autoImplicit false

namespace World

theorem handles_push {kind : HandleKind} {α : Type} (heap : Heap kind α) (cell : α) :
    (heap.push cell).handles = heap.handles ++ [heap.next] := by
  have size : (heap.push cell).cells.size = heap.cells.size + 1 := heap.size_push cell
  unfold Heap.handles
  rw [size, List.range_succ, List.map_append]
  rfl

/-- The newest cell may as well be changed before it is pushed. -/
theorem modify_push_next {kind : HandleKind} {α : Type} (heap : Heap kind α) (cell : α)
    (change : α → α) : (heap.push cell).modify heap.next change = heap.push (change cell) := by
  unfold Heap.modify Heap.push Heap.next
  congr 1
  apply Array.ext_getElem?
  intro position
  simp only [Array.getElem?_modify, Array.getElem?_push]
  grind

theorem lookup_insertEntry {κ α : Type} [DecidableEq κ] (key other : κ) (value : α)
    (entries : List (κ × α)) :
    (insertEntry key value entries).lookup other =
      if key = other then some value else entries.lookup other := by
  unfold insertEntry
  rw [List.lookup_cons]
  by_cases same : key = other
  · subst same
    simp
  · have differs : (other == key) = false := by simpa using Ne.symm same
    rw [differs, if_neg same]
    dsimp only
    induction entries with
    | nil => rfl
    | cons entry rest ih =>
        obtain ⟨entered, held⟩ := entry
        rw [List.lookup_cons, List.filter_cons]
        by_cases taken : entered = key
        · rw [taken, differs]
          simpa using ih
        · rw [if_pos (by simpa using taken), List.lookup_cons, ih]

namespace Adds

variable {spec : ClassSpec} {before after : World} (adds : Adds spec before after)
include adds

theorem alive : after.alive = before.alive := by rw [adds.rest]

theorem size : after.classes.size = before.classes.size + 1 := by
  obtain ⟨cls, pushed, _⟩ := adds.classes
  rw [pushed, Heap.size_push]

theorem cls_old {id : ClassId} (inside : id.index < before.classes.size) :
    after.cls id = before.cls id := by
  obtain ⟨cls, pushed, _⟩ := adds.classes
  unfold World.cls
  rw [pushed, Heap.get_push_of_lt _ _ inside]

theorem cls_ne {id : ClassId} (differs : id ≠ before.classes.next) :
    after.cls id = before.cls id := by
  obtain ⟨cls, pushed, _⟩ := adds.classes
  unfold World.cls
  rw [pushed, Heap.get_push, if_neg differs]

theorem describes : Describes spec after.classRefs (after.cls before.classes.next) := by
  obtain ⟨cls, pushed, described⟩ := adds.classes
  have same : after.cls before.classes.next = cls := by
    unfold World.cls
    rw [pushed, Heap.get_push_next]
  rw [same]
  exact described

/-- Every class of the state after is an old one or the new one. -/
theorem cases_inside {id : ClassId} (inside : id.index < after.classes.size) :
    id.index < before.classes.size ∨ id = before.classes.next := by
  rw [adds.size] at inside
  by_cases old : id.index < before.classes.size
  · exact .inl old
  · right
    have last : id.index = before.classes.size := by omega
    obtain ⟨index⟩ := id
    exact congrArg Handle.mk last

theorem findClass? (name : String) :
    after.findClass? name =
      if spec.name = name then some before.classes.next else before.findClass? name := by
  have names : after.registry.names =
      insertEntry spec.name before.classes.next before.registry.names := by
    rw [adds.registry]
    cases spec.described <;> rfl
  unfold World.findClass?
  rw [names, lookup_insertEntry]

theorem classForHost? (host : HostType) :
    after.classForHost? host =
      if spec.described = some host then some before.classes.next
      else before.classForHost? host := by
  unfold World.classForHost?
  rw [adds.registry]
  cases described : spec.described with
  | none =>
      rw [if_neg nofun]
      rfl
  | some other =>
      simp only [Option.some.injEq]
      exact lookup_insertEntry other host before.classes.next before.registry.hosts

theorem order : after.registry.order = before.registry.order ++ [before.classes.next] := by
  rw [adds.registry]
  cases spec.described <;> rfl

theorem findClass?_old {name : String} {id : ClassId} (found : before.findClass? name = some id) :
    after.findClass? name = some id := by
  have differs : spec.name ≠ name := by
    rintro rfl
    rw [adds.accepted.newName] at found
    cases found
  rw [adds.findClass?, if_neg differs, found]

/-- A table that leads to exactly the old classes leads to exactly all classes, once the new one is
entered under its key. -/
theorem files {κ : Type} [DecidableEq κ] (key : ClassDef → Option κ) (old new : κ → Option ClassId)
    (filed : ∀ entry id, old entry = some id ↔
      id.index < before.classes.size ∧ key (before.cls id) = some entry)
    (free : ∀ entry, key (after.cls before.classes.next) = some entry → old entry = none)
    (entered : ∀ entry, new entry =
      if key (after.cls before.classes.next) = some entry then some before.classes.next
      else old entry) (entry : κ) (id : ClassId) :
    new entry = some id ↔ id.index < after.classes.size ∧ key (after.cls id) = some entry := by
  have newest : before.classes.next.index < after.classes.size := by
    rw [adds.size]
    exact Nat.lt_succ_self _
  rw [entered]
  split
  · next same =>
      constructor
      · rintro ⟨⟩
        exact ⟨newest, same⟩
      · rintro ⟨inside, keyed⟩
        obtain known | rfl := adds.cases_inside inside
        · rw [adds.cls_old known] at keyed
          have found := (filed entry id).mpr ⟨known, keyed⟩
          rw [free entry same] at found
          cases found
        · rfl
  · next differs =>
      rw [filed]
      constructor
      · rintro ⟨known, keyed⟩
        refine ⟨?_, by rw [adds.cls_old known, keyed]⟩
        rw [adds.size]
        exact Nat.lt_succ_of_lt known
      · rintro ⟨inside, keyed⟩
        obtain known | rfl := adds.cases_inside inside
        · rw [adds.cls_old known] at keyed
          exact ⟨known, keyed⟩
        · exact absurd keyed differs

/-- The tables lead to exactly the classes that there are, the new one among them. -/
theorem filed (filed : before.Filed) : after.Filed where
  order := by
    obtain ⟨cls, pushed, _⟩ := adds.classes
    rw [adds.order, filed.order, pushed, handles_push]
  names name id := by
    have files := adds.files (fun cls => some cls.name) before.findClass? after.findClass?
    simp only [Option.some.injEq, adds.describes.name] at files
    refine files filed.names ?_ adds.findClass? name id
    rintro _ rfl
    exact adds.accepted.newName
  hosts := by
    have files := adds.files ClassDef.described before.classForHost? after.classForHost?
    rw [adds.describes.described] at files
    exact files filed.hosts adds.accepted.newHost adds.classForHost?

theorem soundRefs (sound : before.SoundRefs) : after.SoundRefs := by
  intro reference target cached
  obtain old | new := adds.targets reference target cached
  · have known : (before.classRefs.get reference).target.isSome := by rw [old]; rfl
    rw [adds.names reference (Continues.inside_of_remembered known)]
    exact adds.findClass?_old (sound reference target old)
  · exact adds.findClass?_old new

section

variable (registered : before.Registered) (alive : before.alive = true)
include registered alive

/-- The base of an old class is what it was, or the new class. -/
theorem base?_old {id : ClassId} (inside : id.index < before.classes.size) :
    after.base? id = (before.base? id).or
      ((before.cls id).base.bind fun reference =>
        if spec.name = (before.classRefs.get reference).name then some before.classes.next
        else none) := by
  unfold base?
  rw [adds.cls_old inside]
  cases based : (before.cls id).base with
  | none => rfl
  | some reference =>
      have there := registered.baseRefs id reference based
      simp only [Option.bind_some]
      rw [target?_of_sound (adds.soundRefs registered.remembered) (adds.alive.trans alive),
        registered.target?_eq alive, adds.findClass?, adds.names reference there]
      split
      · next same =>
          rw [← same, adds.accepted.newName, Option.none_or]
      · rw [Option.or_none]

theorem extends_ : before.Extends after where
  size := by
    rw [adds.size]
    omega
  cls _ inside := adds.cls_old inside
  inside _ _ next := registered.base?_inside next
  base id base next := by
    have inside : id.index < before.classes.size := by
      apply Nat.lt_of_not_le
      intro beyond
      unfold base? cls Heap.get at next
      rw [Heap.get?_eq_none _ beyond] at next
      cases next
    rw [adds.base?_old registered alive inside, next, Option.some_or]
  functions := ⟨[], by rw [adds.rest, List.append_nil]⟩

end

end Adds

namespace Adds

variable {spec : ClassSpec} {before after : World} (adds : Adds spec before after)
  (registered : before.Registered) (alive : before.alive = true)
include adds registered alive

/-- A chain along which no class extends the new name stays a chain. -/
theorem chain_old {id : ClassId} {chain : List ClassId} (chains : before.Chain id chain)
    (start : id.index < before.classes.size)
    (apart : ∀ last ∈ chain, ∀ reference, (before.cls last).base = some reference →
      before.base? last = none → (before.classRefs.get reference).name ≠ spec.name) :
    after.Chain id chain := by
  induction chains with
  | @last id base =>
      refine .last ?_
      rw [adds.base?_old registered alive start, base, Option.none_or]
      cases based : (before.cls id).base with
      | none => rfl
      | some reference =>
          have differs := apart id List.mem_cons_self reference based base
          rw [Option.bind_some, if_neg (Ne.symm differs)]
  | @step id base rest next chain ih =>
      refine .step ((adds.extends_ registered alive).base id base next) ?_
      exact ih (registered.base?_inside next) fun last member =>
        apart last (List.mem_cons_of_mem id member)

/-- The base of the new class is the class of its base name among the old ones. -/
theorem base?_new :
    after.base? before.classes.next = spec.base.bind before.findClass? := by
  have described := adds.describes
  unfold base?
  cases based : (after.cls before.classes.next).base with
  | none =>
      have none := described.base
      rw [based] at none
      rw [← none]
      rfl
  | some reference =>
      have named := described.base
      rw [based, Option.map_some] at named
      rw [← named]
      simp only [Option.bind_some]
      rw [target?_of_sound (adds.soundRefs registered.remembered) (adds.alive.trans alive),
        adds.findClass?]
      have grounded := adds.accepted.grounded
      rw [← named] at grounded
      have differs : spec.name ≠ (after.classRefs.get reference).name := by
        intro same
        simp [leadsBack, same] at grounded
      rw [if_neg differs]

theorem chain_new : ∃ chain, after.Chain before.classes.next chain := by
  have next := adds.base?_new registered alive
  cases based : spec.base.bind before.findClass? with
  | none => exact ⟨_, .last (next.trans based)⟩
  | some base =>
      obtain ⟨name, declared, found⟩ := Option.bind_eq_some_iff.mp based
      obtain ⟨inside, named⟩ := registered.findClass?_eq_some found
      obtain ⟨chain, chains⟩ := registered.grounded base inside
      refine ⟨_, .step (next.trans based) (adds.chain_old registered alive chains inside ?_)⟩
      intro last member reference extends_ ends same
      have there := chains.inside (fun _ _ => registered.base?_inside) inside last member
      have based : before.baseName? last = some spec.name := by
        unfold baseName?
        rw [extends_, Option.map_some, same]
      have reaches := (registered.reaches_of_chain alive chains inside member).tail
        ((registered.extendsName_iff there).mpr based)
      have leads := (registered.leadsBack_iff alive).mpr reaches
      rw [named, ← declared, adds.accepted.grounded] at leads
      cases leads

theorem grounded {id : ClassId} (inside : id.index < after.classes.size) :
    ∃ chain, after.Chain id chain := by
  obtain ⟨fresh, newest⟩ := adds.chain_new registered alive
  obtain old | rfl := adds.cases_inside inside
  · obtain ⟨chain, chains⟩ := registered.grounded id old
    clear inside
    induction chains with
    | @last id base =>
        have now := adds.base?_old registered alive old
        rw [base, Option.none_or] at now
        cases next : after.base? id with
        | none => exact ⟨_, .last next⟩
        | some newBase =>
            rw [next] at now
            obtain ⟨reference, _, met⟩ := Option.bind_eq_some_iff.mp now.symm
            split at met
            · cases met
              exact ⟨_, .step next newest⟩
            · cases met
    | @step id base rest next chain ih =>
        obtain ⟨longer, chains⟩ := ih (registered.base?_inside next)
        exact ⟨_, .step ((adds.extends_ registered alive).base id base next) chains⟩
  · exact ⟨fresh, newest⟩

theorem registered_after : after.Registered where
  filed := adds.filed registered.filed
  hashes id inside := by
    obtain old | rfl := adds.cases_inside inside
    · rw [adds.cls_old old]
      exact registered.hashes id old
    · rw [adds.describes.hash, adds.describes.name]
  owners id function member := by
    by_cases newest : id = before.classes.next
    · subst newest
      rw [adds.describes.name]
      exact adds.describes.owners function member
    · rw [adds.cls_ne newest] at member ⊢
      exact registered.owners id function member
  members id := by
    by_cases newest : id = before.classes.next
    · subst newest
      rw [adds.describes.fields, adds.describes.functions]
      exact completeNames_nodup adds.accepted.unique
    · rw [adds.cls_ne newest]
      exact registered.members id
  baseRefs id reference based := by
    by_cases newest : id = before.classes.next
    · subst newest
      exact adds.describes.baseRef reference based
    · rw [adds.cls_ne newest] at based
      exact Nat.lt_of_lt_of_le (registered.baseRefs id reference based) adds.refs
  remembered := adds.soundRefs registered.remembered
  grounded id inside := adds.grounded registered alive inside
  tables id table kept link member := by
    by_cases newest : id = before.classes.next
    · subst newest
      rw [adds.describes.table] at kept
      cases kept
    · rw [adds.cls_ne newest] at kept
      have inside : id.index < before.classes.size := by
        apply Nat.lt_of_not_le
        intro beyond
        unfold cls Heap.get at kept
        rw [Heap.get?_eq_none _ beyond] at kept
        cases kept
      exact (adds.extends_ registered alive).links inside
        (registered.tables id table kept link member)

end Adds

/-! ## Adding a function -/

/-- More references keep every class and every base. -/
theorem Registered.withRefs {world : World} (registered : world.Registered)
    {refs : Heap .classRef ClassRef} (size : world.classRefs.size ≤ refs.size)
    (same : ∀ reference, reference.index < world.classRefs.size →
      refs.get reference = world.classRefs.get reference) :
    world.Continues { world with classRefs := refs } := by
  let after : World := { world with classRefs := refs }
  have targets : ∀ reference : ClassRefId, reference.index < world.classRefs.size →
      after.target? reference = world.target? reference := by
    intro reference old
    have cell : after.classRefs.get reference = world.classRefs.get reference :=
      same reference old
    exact @target?_congr world after rfl rfl reference cell
  have bases : ∀ id, after.base? id = world.base? id := by
    intro id
    unfold base?
    show (world.cls id).base.bind _ = (world.cls id).base.bind _
    cases based : (world.cls id).base with
    | none => rfl
    | some reference => exact targets reference (registered.baseRefs id reference based)
  exact {
    hierarchy := ⟨rfl, rfl, fun _ => rfl, bases⟩
    refs := size
    names := fun reference old => congrArg ClassRef.name (same reference old)
    targets := targets
    remembered := fun reference known => same reference (Continues.inside_of_remembered known) }

namespace AddsFunction

variable {function : Function} {before after : World} (adds : AddsFunction function before after)
  (registered : before.Registered) (alive : before.alive = true)
include adds registered

theorem continues : before.Continues { before with classRefs := after.classRefs } :=
  registered.withRefs adds.refs.size adds.refs.same

theorem extends_ : before.Extends after := by
  have continues := adds.continues registered
  rw [adds.rest]
  exact {
    size := Nat.le_refl _
    cls := fun _ _ => rfl
    inside := fun _ _ next => registered.base?_inside next
    base := fun id base next => (continues.hierarchy.base id).trans next
    functions := ⟨[function], rfl⟩ }

include alive in
theorem registered_after : after.Registered := by
  have later : Registered { before with classRefs := after.classRefs } := by
    refine registered.later alive (adds.continues registered) ?_ fun id table kept => .inl kept
    intro reference target beyond cached
    have fresh := adds.refs.fresh reference beyond
    rw [show (after.classRefs.get reference).target = _ from cached] at fresh
    cases fresh
  have same : SameHierarchy { before with classRefs := after.classRefs }
      { before with classRefs := after.classRefs, functions := before.functions ++ [function] } :=
    ⟨rfl, rfl, fun _ => rfl, fun _ => rfl⟩
  rw [adds.rest]
  exact {
    later with
    filed := later.filed.transfer same
    grounded := fun id inside => by
      obtain ⟨chain, chains⟩ := later.grounded id inside
      exact ⟨chain, chains.transfer same⟩
    tables := fun id table kept link member => (later.tables id table kept link member).transfer same }

end AddsFunction

end World

/-! ## Shared references -/

/-- The use of an annotation through other references. -/
def AnnotationUse.through (other : ClassRefId → ClassRefId) (use : AnnotationUse ClassRefId) :
    AnnotationUse ClassRefId :=
  { use with cls := other use.cls }

/-- A function whose annotations are used through other references. -/
def FunctionDecl.through (other : ClassRefId → ClassRefId) (function : Function) : Function :=
  { function with annotations := function.annotations.map (·.through other) }

/-- A field whose annotations are used through other references. -/
def FieldDecl.through (other : ClassRefId → ClassRefId) (field : Field) : Field :=
  { field with annotations := field.annotations.map (·.through other) }

/-- A class whose annotations, with those of its members, are used through other references. -/
def ClassDef.through (other : ClassRefId → ClassRefId) (cls : ClassDef) : ClassDef :=
  { cls with
    fields := cls.fields.map (·.through other)
    functions := cls.functions.map (·.through other)
    annotations := cls.annotations.map (·.through other) }

theorem FunctionDecl.through_id (function : Function) : function.through id = function := by
  have same : (AnnotationUse.through id) = id := rfl
  simp [through, same]

theorem ClassDef.through_id (cls : ClassDef) : cls.through id = cls := by
  have uses : (AnnotationUse.through id) = id := rfl
  have fields : (FieldDecl.through id) = id := by
    funext field
    simp [FieldDecl.through, uses]
  have functions : (FunctionDecl.through id) = id := funext FunctionDecl.through_id
  simp [through, uses, fields, functions]

namespace World

/-- Other references, which exist where the first do, to classes of the same names. -/
structure Substitutes (world : World) (other : ClassRefId → ClassRefId) : Prop where
  inside : ∀ reference, reference.index < world.classRefs.size →
    (other reference).index < world.classRefs.size
  names : ∀ reference, (world.classRefs.get (other reference)).name =
    (world.classRefs.get reference).name

/-- The registry accepts a class or a function.  Its annotations may be used through references that
other declarations use as well. -/
inductive Enlists : World → World → Prop
  | cls {before after : World} (spec : ClassSpec) (ok : (define spec).run before = (.ok (), after))
      {other : ClassRefId → ClassRefId} (same : after.Substitutes other) :
      Enlists before (after.withClass before.classes.next (·.through other))
  | function {before after : World} (spec : FunctionDecl String)
      (ok : (defineFunction spec).run before = (.ok (), after)) {other : ClassRefId → ClassRefId}
      (same : after.Substitutes other) :
      Enlists before { after with functions := after.functions.modifyLast (·.through other) }

theorem Substitutes.uses {world : World} {other : ClassRefId → ClassRefId}
    (same : world.Substitutes other) {uses : List (AnnotationUse ClassRefId)}
    (inside : ∀ use ∈ uses, use.cls.index < world.classRefs.size) :
    ∀ use ∈ uses.map (·.through other), use.cls.index < world.classRefs.size := by
  intro use member
  obtain ⟨old, there, rfl⟩ := List.mem_map.mp member
  exact same.inside old.cls (inside old there)

/-- What a class registers does not depend on the references of its annotations. -/
theorem Adds.through {spec : ClassSpec} {before after : World} (adds : Adds spec before after)
    {other : ClassRefId → ClassRefId} (same : after.Substitutes other) :
    Adds spec before (after.withClass before.classes.next (·.through other)) := by
  obtain ⟨cls, pushed, describes⟩ := adds.classes
  have names : (cls.through other).functions.map FunctionDecl.name =
      cls.functions.map FunctionDecl.name := List.map_map ..
  have uses : (cls.through other).uses = cls.uses.map (·.through other) := by
    simp [ClassDef.uses, ClassDef.through, List.flatMap_map, List.map_flatMap, FieldDecl.through,
      FunctionDecl.through]
  have classes : (after.withClass before.classes.next (·.through other)).classes =
      before.classes.push (cls.through other) := by
    unfold withClass
    rw [pushed, modify_push_next]
  refine { adds with classes := ⟨_, classes, { describes with
    owners := ?_, fields := ?_, functions := names.trans describes.functions, uses := ?_ }⟩, rest := ?_ }
  · intro function member
    obtain ⟨old, there, rfl⟩ := List.mem_map.mp member
    exact describes.owners old there
  · exact (List.map_map ..).trans describes.fields
  · rw [uses]
    exact same.uses describes.uses
  · unfold withClass
    dsimp only
    rw [adds.rest]

theorem AddsFunction.through {function : Function} {before after : World}
    (adds : AddsFunction function before after) {other : ClassRefId → ClassRefId}
    (same : after.Substitutes other) :
    AddsFunction (function.through other) before
      { after with functions := after.functions.modifyLast (·.through other) } where
  refs := adds.refs
  uses := same.uses adds.uses
  rest := by
    have functions : after.functions = before.functions ++ [function] := by rw [adds.rest]
    dsimp only
    rw [functions, List.modifyLast_concat]
    rw [adds.rest]

/-- What is registered is one class more, or one function more. -/
theorem Enlists.cases {before after : World} (enlists : Enlists before after) :
    (∃ spec, Adds spec before after) ∨ ∃ function, AddsFunction function before after := by
  cases enlists with
  | cls spec ok same => exact .inl ⟨spec, (define_ok ok).through same⟩
  | function spec ok same => exact .inr ⟨_, (defineFunction_ok ok).through same⟩

theorem Substitutes.refl (world : World) : world.Substitutes id := ⟨fun _ inside => inside, fun _ => rfl⟩

theorem Enlists.define {before after : World} {spec : ClassSpec}
    (ok : (World.define spec).run before = (.ok (), after)) : Enlists before after := by
  have kept : after.withClass before.classes.next (·.through id) = after := by
    unfold withClass
    rw [Heap.modify_of_fixed _ _ _ (ClassDef.through_id _)]
  exact kept ▸ .cls spec ok (.refl after)

theorem Enlists.defineFunction {before after : World} {spec : FunctionDecl String}
    (ok : (World.defineFunction spec).run before = (.ok (), after)) : Enlists before after := by
  have kept : after.functions.modifyLast (·.through id) = after.functions := by
    have adds := defineFunction_ok ok
    rw [adds.rest]
    dsimp only
    rw [List.modifyLast_concat, FunctionDecl.through_id]
  have same := Enlists.function spec ok (.refl after)
  rw [kept] at same
  exact same

/-- Nothing but the declarations and the references to classes is changed. -/
theorem Enlists.rest {before after : World} (enlists : Enlists before after) :
    after = { before with
      classes := after.classes, registry := after.registry, classRefs := after.classRefs
      functions := after.functions } := by
  obtain ⟨spec, adds⟩ | ⟨function, adds⟩ := enlists.cases <;> rw [adds.rest]

theorem Enlists.alive {before after : World} (enlists : Enlists before after) :
    after.alive = before.alive := by
  rw [enlists.rest]

theorem Enlists.registered {before after : World} (enlists : Enlists before after)
    (alive : before.alive = true) (registered : before.Registered) : after.Registered := by
  obtain ⟨spec, adds⟩ | ⟨function, adds⟩ := enlists.cases
  · exact adds.registered_after registered alive
  · exact adds.registered_after registered alive

theorem Enlists.extends_ {before after : World} (enlists : Enlists before after)
    (alive : before.alive = true) (registered : before.Registered) : before.Extends after := by
  obtain ⟨spec, adds⟩ | ⟨function, adds⟩ := enlists.cases
  · exact adds.extends_ registered alive
  · exact adds.extends_ registered

end World

end ScriptObjects
