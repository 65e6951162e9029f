import ScriptObjects.Proofs.ConstructionOrder

/-!
# Constructions follow their plan

Each part of the protocol follows its part of the plan, from any state that a construction
can be in when the part begins.  What the parts before have left behind is what makes the
next one as planned: instances of annotations have the hooks that their classes had at the
start, a field that was declared still has its slot when it is written, and the levels
below are filled.
-/

namespace ScriptObjects

set_option autoImplicit false

open Exec World

/-! ## Annotations -/

section

variable {start : World} {id : InstanceId} {options : CreateOptions} (perform : Perform)

theorem traceArguments_follows (site : Invocation) (place : Nat) (target : String)
    (exprs : List Expr) (now : World) :
    Traced.Follows (start.AsPlanned id options) (exprs.map (.argument place target))
      (traceArguments perform site place target exprs) now := by
  induction exprs generalizing now with
  | nil => exact .pure _
  | cons expr rest ih =>
      have first : Traced.Follows (start.AsPlanned id options) [.argument place target expr]
          (.moment (.argument place target expr) (evaluate perform (some site) expr)) now :=
        .body rfl trivial
      exact first.bind fun value after _ => (ih after).andThen fun _ _ _ => .pure _

theorem traceUse_follows (use : AnnotationUse ClassRefId) (target : String) (receiver : Receiver)
    (context : ContextId) (now : World) :
    Traced.Follows (start.AsPlanned id options) (usePlan receiver.level target use)
      (traceUse perform use target receiver context) now := by
  refine .of_get (.after (.silent _) fun found between _ => ?_)
  cases found with
  | none => exact .throw _
  | some cls =>
      refine .wrapFault ?_
      exact (traceArguments_follows perform _ _ _ _ between).bind fun args ready _ =>
        .body rfl trivial

theorem traceUses_follows (target : String) (receiver : Receiver) (context : ContextId)
    (uses : List (AnnotationUse ClassRefId)) (now : World) :
    Traced.Follows (start.AsPlanned id options) (uses.flatMap (usePlan receiver.level target))
      (traceUses perform target receiver context uses) now := by
  induction uses generalizing now with
  | nil => exact .pure _
  | cons use rest ih =>
      exact (traceUse_follows perform use target receiver context now).bind fun created after _ =>
        (ih after).andThen fun _ _ _ => .pure _

end

theorem traceAnnotateField_follows {start : World} {id : InstanceId} {options : CreateOptions}
    (inner : Perform) (className : String) (receiver : Receiver) (level : Level)
    (context : ContextId) (field : Field) (now : World) :
    Traced.Follows (start.AsPlanned id options)
      ((field.wanted options).flatMap (usePlan receiver.level (className ++ "." ++ field.name)))
      (traceAnnotateField inner className receiver level options context field) now := by
  unfold traceAnnotateField Field.wanted
  cases flag : options.has .createFieldAnnotations with
  | false => exact .pure ()
  | true =>
      cases annotated : field.annotations with
      | nil => exact .pure ()
      | cons use rest =>
          exact (traceUses_follows (step inner) _ receiver context (use :: rest) now).andThen
            fun created after _ => .silent _

theorem traceAnnotateLevel_follows {start : World} {id : InstanceId} {options : CreateOptions}
    (inner : Perform) (context : ContextId) (place : Nat) (cls : ClassDef) (now : World) :
    Traced.Follows (start.AsPlanned id options)
      ((cls.wanted options).flatMap (usePlan place cls.name))
      (traceAnnotateLevel inner id options context place cls) now := by
  unfold traceAnnotateLevel ClassDef.wanted
  cases flag : options.has .createAnnotations with
  | false => exact .pure ()
  | true =>
      cases annotated : cls.annotations with
      | nil => exact .pure ()
      | cons use rest =>
          exact (traceUses_follows (step inner) _ ⟨id, place⟩ context (use :: rest) now).andThen
            fun created after _ => .silent _

/-! ## Hooks -/

/-- Where a meta-function is looked for is known exactly if the class has one. -/
theorem hookScope?_done {id : InstanceId} {key : MetaKey} {now next : World} {found : Option Scope}
    (asked : hookScope? id key now = (.done found, next)) :
    ((now.metaTable (now.object id).cls).get? key).isSome = found.isSome := by
  unfold hookScope? at asked
  rw [get_bind_apply] at asked
  obtain ⟨link, between, linked, opened⟩ := bind_done asked
  have same : (now.metaTable (now.object id).cls).get? key = link :=
    Outcome.done.inj (Prod.mk.inj linked).1
  rw [same]
  cases link with
  | none =>
      cases opened
      rfl
  | some link =>
      dsimp only at opened
      rw [get_bind_apply] at opened
      obtain ⟨scope, last, _, ends⟩ := bind_done opened
      cases scope with
      | none => cases ends
      | some scope =>
          cases ends
          rfl

theorem World.Makes.answers {start now : World} (underway : Underway start now)
    {use : AnnotationUse ClassRefId} {created : InstanceId} (makes : Makes start now use created)
    (key : MetaKey) :
    start.answers key use = ((now.metaTable (now.object created).cls).get? key).isSome := by
  unfold World.answers
  rw [makes.target, Option.any_some, underway.tables]

theorem World.hookPlan_cons (world : World) (key : MetaKey) (called : Nat → Moment)
    (position : Nat) (use : AnnotationUse ClassRefId) (rest : List (AnnotationUse ClassRefId)) :
    world.hookPlan key called position (use :: rest) =
      (if world.answers key use then [called position] else []) ++
        world.hookPlan key called (position + 1) rest := by
  unfold World.hookPlan
  rw [List.zipIdx_cons, List.flatMap_cons]

section

variable {perform : Perform} {start now : World} {id : InstanceId} {options : CreateOptions}

/-- The scope of a hook answers without running a body, unless the hook is annotated. -/
theorem asPlanned_lookup (underway : Underway start now) {owner : InstanceId}
    (newcomer : Newcomer start now owner) {key : MetaKey} {scope : Scope} {next : World}
    (asked : hookScope? owner key now = (.done (some scope), next)) :
    start.AsPlanned id options next (.lookup scope key.methodName) := by
  intro unadorned one other
  obtain ⟨store, rfl, plain⟩ := underway.answers_hook newcomer unadorned asked
  unfold readScope
  exact readStore_agrees one other plain

/-- The hook of an annotation is called exactly if its class has one. -/
theorem traceHook_follows (underway : Underway start now) {use : AnnotationUse ClassRefId}
    {created : InstanceId} (makes : Makes start now use created) {key : MetaKey} {called : Moment}
    (evaluates : called.evaluates = true)
    (always : ∀ world, start.AsPlanned id options world called) (context : ContextId)
    (args : List Value) :
    Traced.Follows (start.AsPlanned id options) (if start.answers key use then [called] else [])
      (traceHook perform called context created key args) now := by
  rw [makes.answers underway]
  refine .after (.silent _) fun found next asked => ?_
  rw [hookScope?_done asked]
  cases found with
  | none => exact .pure _
  | some scope =>
      have lookup : Traced.Follows (start.AsPlanned id options) []
          (.moment (.lookup scope key.methodName) (perform (.read scope key.methodName))) next :=
        .question rfl (asPlanned_lookup underway makes.toNewcomer asked)
      refine lookup.after fun value after _ => ?_
      rw [if_pos (Option.isSome_some)]
      split
      · exact (Traced.Follows.wrapFault (.body evaluates (always _))).andThen fun _ _ _ =>
          .after (.silent _) fun _ _ _ => .pure _
      · refine .of_not_done fun result last done => ?_
        obtain ⟨_, _, _, thrown⟩ := bind_done done
        cases thrown

end

section

variable {perform : Perform} (nested : perform.Sparing) {start now : World} {id : InstanceId}
  {options : CreateOptions}
include nested

theorem World.Underway.later_hook (underway : Underway start now) {called : Moment}
    {context : ContextId} {owner : InstanceId} {key : MetaKey} {args : List Value}
    {result : Option Value} {next : World}
    (done : (traceHook perform called context owner key args).run now = (.done result, next)) :
    Underway start next ∧ now.Continues next := by
  rw [run_traceHook] at done
  have spares := (hook_sparing nested context owner key args (fun _ => True) now).ends underway.live
    done
  exact ⟨underway.later spares, spares.evolves.continues⟩

theorem traceWriteHooks_follows (underway : Underway start now) (place : Nat) (field : Field)
    (value : Value) (position : Nat) {uses : List (AnnotationUse ClassRefId)}
    {created : List InstanceId} (makes : MakesAll start now uses created) :
    Traced.Follows (start.AsPlanned id options)
      (start.hookPlan .onWrite (.writeHook place field) position uses)
      (traceWriteHooks perform place field value position created) now := by
  induction uses generalizing now value position created with
  | nil =>
      cases makes
      exact .pure _
  | cons use rest ih =>
      cases makes with
      | @cons _ attached _ created first others =>
          rw [hookPlan_cons]
          have called : Traced.Follows (start.AsPlanned id options)
              (if start.answers .onWrite use then [.writeHook place field position] else [])
              (traceHook perform (.writeHook place field position) ownContext attached .onWrite
                [.text field.name, value]) now := by
            refine traceHook_follows underway first rfl ?_ _ _
            exact fun _ => trivial
          refine called.bind fun result next done => ?_
          obtain ⟨later, continues⟩ := underway.later_hook nested done
          cases result with
          | none => exact ih later value _ (MakesAll.later others continues)
          | some result => exact ih later result _ (MakesAll.later others continues)

/-! ## Fields -/

theorem traceWriteSlot_follows (underway : Underway start now) (place : Nat) {store : StoreId}
    {field : Field} (value : Value) {uses : List (AnnotationUse ClassRefId)} {slot : Slot}
    (found : (now.store store).slot? field.name = some slot)
    (makes : MakesAll start now uses slot.annotations) :
    Traced.Follows (start.AsPlanned id options)
      (start.hookPlan .onWrite (.writeHook place field) 0 uses)
      (traceWriteSlot perform place store field value) now := by
  refine .of_get ?_
  rw [found]
  dsimp only
  split
  · exact .throw _
  · split
    · next plain =>
        rw [List.isEmpty_iff.mp plain] at makes
        cases makes
        exact .silent _
    · refine .after (.silent _) fun _ ready required => ?_
      have spares := ((Sparing.still (requireStoreAssembly_leads store)
        (requireStoreAssembly_still store)) (fun _ => True) now).ends underway.live required
      exact (traceWriteHooks_follows nested (underway.later spares) place field value 0
        (makes.later spares.evolves.continues)).andThen fun _ _ _ => .silent _

/-- A field with a slot is written through its hooks; that it may seem to be missing adds
nothing. -/
theorem traceWrite_follows (underway : Underway start now) (place : Nat) {store : StoreId}
    {field : Field} (value : Value) {uses : List (AnnotationUse ClassRefId)} {slot : Slot}
    (found : (now.store store).slot? field.name = some slot)
    (makes : MakesAll start now uses slot.annotations) :
    Traced.Follows (start.AsPlanned id options)
      (start.hookPlan .onWrite (.writeHook place field) 0 uses)
      (traceWrite perform place store field value) now := by
  refine (traceWriteSlot_follows nested underway place value found makes).recover
    fun fault after failed => ?_
  rw [run_traceWriteSlot] at failed
  have spares := (assignSlot_sparing nested store field.name value (fun _ => True) now).ends
    underway.live failed
  obtain ⟨later, still, _⟩ := spares.slots store field.name slot found
  have declared : (after.store store).declares field.name = true := by
    simp [Store.declares, still]
  split
  · constructor
    · have retry : Traced.Follows (start.AsPlanned id options) []
          (.moment (.retry store field.name) (materialize perform store field.name)) after :=
        .question rfl fun one other => materialize_agrees one other fun _ _ _ => .inr declared
      exact retry.after fun _ _ _ => .throw _
    · intro result last done
      rw [Traced.run_bind] at done
      obtain ⟨_, _, _, thrown⟩ := bind_done done
      cases thrown
  · refine ⟨.throw _, fun result last done => ?_⟩
    cases done

/-- A field is initialized, and its first write goes through its hooks. -/
theorem traceInitializer_follows (underway : Underway start now) {receiver : Receiver}
    {level : Level} {field : Field} (context : ContextId)
    (dressed : Dressed start now options level field)
    (filled : now.FilledFrom id options (receiver.level + 1)) :
    Traced.Follows (start.AsPlanned id options)
      (if field.isInitialized then
        .initializer receiver.level field ::
          start.hookPlan .onWrite (.writeHook receiver.level field) 0 (field.wanted options)
      else [])
      (traceInitializer perform receiver (level.declarations field.access) field context) now := by
  unfold traceInitializer Field.isInitialized
  cases storage : field.storage with
  | host accessor => exact .pure ()
  | script initializer =>
      cases initializer with
      | none => exact .pure ()
      | some initializer =>
          refine .of_get (.wrapFault ?_)
          have first : Traced.Follows (start.AsPlanned id options)
              [.initializer receiver.level field]
              (.moment (.initializer receiver.level field)
                (evaluate (step perform) (some ⟨context, some receiver, []⟩) initializer)) now :=
            .body rfl filled
          refine first.bind fun value next done => ?_
          have spares := (evaluate_sparing (step_sparing nested)
            (some ⟨context, some receiver, []⟩) initializer (fun _ => True) now).ends underway.live
              done
          obtain ⟨slot, found, makes, _⟩ := dressed.later spares
          exact traceWrite_follows nested (underway.later spares) receiver.level value found makes

theorem traceField_follows (underway : Underway start now) (laid : start.LaidOut)
    {className : String} {receiver : Receiver} {level : Level} {field : Field}
    (context : ContextId) (sits : now.level? receiver.owner receiver.level = some level)
    (declared : field ∈ (now.cls level.cls).fields)
    (owned : receiver.owner = id) (filled : now.FilledFrom id options (receiver.level + 1)) :
    Traced.Follows (start.AsPlanned id options)
      (start.fieldPlan options receiver.level className field)
      (traceField perform className receiver level options context field) now := by
  unfold traceField fieldPlan
  split
  · refine .after (.silent _) fun _ between declares => ?_
    refine (traceAnnotateField_follows perform className receiver level context field between).bind
      fun _ ready annotates => ?_
    have outer := step_sparing nested
    have declares : declareField className level field now = (.done (), between) := declares
    have both : (do
        declareField className level field
        annotateField (step perform) className receiver level options context field : Exec Unit)
        now = (.done (), ready) := by
      rw [bind_of_done _ declares, ← run_traceAnnotateField]
      exact annotates
    have dressed := declareAnnotated_done outer underway laid sits declared both
    have spares : Spares (fun _ => True) now ready :=
      (declareAnnotated_sparingAt outer className sits declared options context).ends
        underway.live both
    have inside := owned ▸ inside_of_level? sits
    unfold traceFillField
    cases assigns : options.has .assignScriptFields with
    | false => exact .pure ()
    | true =>
        exact traceInitializer_follows nested (underway.later spares) context dressed
          (filled.later inside spares)
  · exact .pure ()

theorem traceFields_follows (underway : Underway start now) (laid : start.LaidOut)
    {className : String} {receiver : Receiver} {level : Level} {fields : List Field}
    (context : ContextId) (sits : now.level? receiver.owner receiver.level = some level)
    (declared : ∀ field ∈ fields, field ∈ (now.cls level.cls).fields)
    (owned : receiver.owner = id) (filled : now.FilledFrom id options (receiver.level + 1)) :
    Traced.Follows (start.AsPlanned id options)
      (fields.flatMap (start.fieldPlan options receiver.level className))
      (traceFields perform className receiver level options context fields) now := by
  induction fields generalizing now with
  | nil => exact .pure _
  | cons field rest ih =>
      have here := declared field List.mem_cons_self
      refine (traceField_follows nested underway laid context sits here owned filled).bind
        fun _ next done => ?_
      rw [run_traceField] at done
      have spares : Spares (fun _ => True) now next :=
        (constructField_sparingAt (step_sparing nested) className sits here options context).ends
          underway.live done
      have continues := spares.evolves.continues
      refine ih (underway.later spares) (continues.level? sits) (fun other member => ?_)
        (filled.later (owned ▸ inside_of_level? sits) spares)
      rw [continues.hierarchy.ask ClassDef.fields fun _ => rfl]
      exact declared other (List.mem_cons_of_mem field member)

/-! ## Levels -/

theorem traceLevel_follows (underway : Underway start now) (laid : start.LaidOut)
    (context : ContextId) {place : Nat} {level : Level} (sits : now.level? id place = some level)
    (filled : now.FilledFrom id options (place + 1)) :
    Traced.Follows (start.AsPlanned id options)
      (start.levelPlan options place (start.cls level.cls))
      (traceLevel perform id options context place) now := by
  have same : start.levelPlan options place (start.cls level.cls) =
      start.levelPlan options place (now.cls level.cls) :=
    (underway.continues.hierarchy.ask (start.levelPlan options place) (fun _ => rfl) level.cls).symm
  rw [same]
  refine .of_get ?_
  rw [sits]
  refine (traceAnnotateLevel_follows perform context place (now.cls level.cls) now).bind
    fun _ next done => ?_
  rw [run_traceAnnotateLevel] at done
  have spares := (annotateLevel_sparingAt (step_sparing nested) id options context place _ now).ends
    underway.live done
  have continues := spares.evolves.continues
  let receiver : Receiver := ⟨id, place⟩
  have seated : next.level? receiver.owner receiver.level = some level := continues.level? sits
  have declared : ∀ field ∈ (now.cls level.cls).fields, field ∈ (next.cls level.cls).fields := by
    intro field member
    rw [continues.hierarchy.ask ClassDef.fields fun _ => rfl]
    exact member
  exact traceFields_follows nested (underway.later spares) laid context seated declared rfl
    (filled.later (inside_of_level? sits) spares)

end

theorem World.levelsPlan_take_succ (world : World) (options : CreateOptions)
    {chain : List ClassId} {place : Nat} {cls : ClassId} (sits : chain[place]? = some cls) :
    world.levelsPlan options (chain.take (place + 1)) =
      world.levelPlan options place (world.cls cls) ++
        world.levelsPlan options (chain.take place) := by
  have within : place < chain.length := (List.getElem?_eq_some_iff.mp sits).1
  unfold World.levelsPlan
  rw [List.take_add_one, sits, Option.toList_some, List.zipIdx_append, List.reverse_append,
    List.flatMap_append, List.length_take, Nat.min_eq_left (Nat.le_of_lt within), Nat.zero_add]
  simp only [List.zipIdx_singleton, List.reverse_singleton, List.flatMap_singleton]

theorem World.attachedUses_take_succ (world : World) (options : CreateOptions)
    {chain : List ClassId} {place : Nat} {cls : ClassId} (sits : chain[place]? = some cls) :
    world.attachedUses options (chain.take (place + 1)) =
      (world.cls cls).wanted options ++ world.attachedUses options (chain.take place) := by
  unfold World.attachedUses
  rw [List.take_add_one, sits, Option.toList_some, List.reverse_append, List.flatMap_append]
  simp only [List.reverse_singleton, List.flatMap_singleton]

section

variable {perform : Perform} (nested : perform.Sparing) {start now : World} {id : InstanceId}
  {options : CreateOptions}
include nested

/-- What the construction of a level adds to the levels below it. -/
theorem traceLevel_done (underway : Underway start now) (laid : start.LaidOut)
    {context : ContextId} {place : Nat} {level : Level} {uses : List (AnnotationUse ClassRefId)}
    (sits : now.level? id place = some level)
    (reached : Reached start now id options (place + 1) uses) {next : World}
    (done : (traceLevel perform id options context place).run now = (.done (), next)) :
    Underway start next ∧ now.Continues next ∧
      Reached start next id options place (uses ++ (start.cls level.cls).wanted options) := by
  rw [run_traceLevel] at done
  have spares := (constructLevel_sparingAt (step_sparing nested) id options context place now).ends
    underway.live done
  have wanted : (now.cls level.cls).wanted options = (start.cls level.cls).wanted options :=
    underway.continues.hierarchy.ask (ClassDef.wanted options) (fun _ => rfl) level.cls
  refine ⟨underway.later spares, spares.evolves.continues, ?_⟩
  rw [← wanted]
  exact constructLevel_reaches nested underway laid sits reached done

omit nested in
theorem level?_of_chain {chain : List ClassId} {place : Nat}
    (levels : (now.object id).levels.map Level.cls = chain) (within : place < chain.length) :
    ∃ level, now.level? id place = some level ∧ chain[place]? = some level.cls := by
  have same := congrArg (fun classes => classes[place]?) levels
  rw [List.getElem?_map, List.getElem?_eq_getElem within] at same
  obtain ⟨level, sits, cls⟩ := Option.map_eq_some_iff.mp same
  exact ⟨level, sits, by rw [List.getElem?_eq_getElem within, cls]⟩

/-- All levels below a place follow their plan, from the highest down. -/
theorem traceLevels_follows (underway : Underway start now) (laid : start.LaidOut)
    (context : ContextId) {count : Nat} {uses : List (AnnotationUse ClassRefId)}
    {chain : List ClassId} (levels : (now.object id).levels.map Level.cls = chain)
    (inside : id.index < now.instances.size) (enough : count ≤ chain.length)
    (reached : Reached start now id options count uses) :
    Traced.Follows (start.AsPlanned id options) (start.levelsPlan options (chain.take count))
      (traceLevels perform id options context count) now := by
  induction count generalizing now uses with
  | zero => exact .pure ()
  | succ place ih =>
      obtain ⟨level, sits, at_place⟩ := level?_of_chain levels (Nat.lt_of_succ_le enough)
      rw [start.levelsPlan_take_succ options at_place]
      refine (traceLevel_follows nested underway laid context sits reached.filled).bind
        fun _ next done => ?_
      obtain ⟨later, continues, reached⟩ := traceLevel_done nested underway laid sits reached done
      exact ih later (by rw [(continues.objects id inside).2, levels])
        (Nat.lt_of_lt_of_le inside continues.instances) (Nat.le_of_succ_le enough) reached

/-- When all levels below a place are done, the instances of their annotations are attached. -/
theorem traceLevels_done (underway : Underway start now) (laid : start.LaidOut)
    {context : ContextId} {count : Nat} {uses : List (AnnotationUse ClassRefId)}
    {chain : List ClassId} (levels : (now.object id).levels.map Level.cls = chain)
    (inside : id.index < now.instances.size) (enough : count ≤ chain.length)
    (reached : Reached start now id options count uses) {last : World}
    (done : (traceLevels perform id options context count).run now = (.done (), last)) :
    Underway start last ∧ now.Continues last ∧
      Reached start last id options 0 (uses ++ start.attachedUses options (chain.take count)) := by
  induction count generalizing now uses with
  | zero =>
      cases done
      refine ⟨underway, .refl last, ?_⟩
      rw [List.take_zero]
      exact (List.append_nil uses).symm ▸ reached
  | succ place ih =>
      obtain ⟨level, sits, at_place⟩ := level?_of_chain levels (Nat.lt_of_succ_le enough)
      rw [start.attachedUses_take_succ options at_place, ← List.append_assoc]
      unfold traceLevels at done
      rw [Traced.run_bind] at done
      obtain ⟨_, next, first, later⟩ := bind_done done
      obtain ⟨underway, between, reached⟩ := traceLevel_done nested underway laid sits reached first
      obtain ⟨underway, continues, reached⟩ := ih underway
        (by rw [(between.objects id inside).2, levels])
        (Nat.lt_of_lt_of_le inside between.instances) (Nat.le_of_succ_le enough) reached later
      exact ⟨underway, between.trans continues, reached⟩

/-! ## Constructors -/

omit nested in
theorem traceResolveConstructor_follows (underway : Underway start now)
    (newcomer : Newcomer start now id) :
    Traced.Follows (start.AsPlanned id options) [] (traceResolveConstructor perform id) now := by
  refine .of_get (.after (.silent _) fun found next asked => ?_)
  cases found with
  | none => exact .silent _
  | some scope =>
      have lookup : Traced.Follows (start.AsPlanned id options) []
          (.moment (.lookup scope constructorName) (perform (.read scope constructorName))) next := by
        refine .question rfl ?_
        exact asPlanned_lookup underway newcomer asked
      exact lookup.after fun _ _ _ => .silent _

omit nested in
theorem World.Underway.later_list (underway : Underway start now) {args : List Value}
    {list : Value} {next : World} (listed : Exec.newList args now = (.done list, next)) :
    Underway start next ∧ now.Continues next := by
  have spares := ((Sparing.still (newList_leads args) (newList_still args)) (fun _ => True) now).ends
    underway.live listed
  exact ⟨underway.later spares, spares.evolves.continues⟩

theorem tracePreConstruct_follows (underway : Underway start now) (context : ContextId)
    (args : List Value) (position : Nat) {uses : List (AnnotationUse ClassRefId)}
    {attached : List InstanceId} (makes : MakesAll start now uses attached) :
    Traced.Follows (start.AsPlanned id options)
      (start.hookPlan .preConstruct .preHook position uses)
      (tracePreConstruct perform id context args position attached) now := by
  induction uses generalizing now args position attached with
  | nil =>
      cases makes
      exact .pure _
  | cons use rest ih =>
      cases makes with
      | @cons _ first _ others makes more =>
          rw [hookPlan_cons]
          refine .after (.silent _) fun list ready listed => ?_
          obtain ⟨underway, continues⟩ := underway.later_list listed
          have more := MakesAll.later more continues
          have called : Traced.Follows (start.AsPlanned id options)
              (if start.answers .preConstruct use then [.preHook position] else [])
              (traceHook perform (.preHook position) context first .preConstruct
                [.object id, list]) ready := by
            refine traceHook_follows underway (makes.later continues) rfl ?_ _ _
            exact fun _ => trivial
          refine called.bind fun result next done => .of_get ?_
          obtain ⟨later, continues⟩ := underway.later_hook nested done
          exact ih later _ _ (more.later continues)

theorem tracePostConstruct_follows (underway : Underway start now) (context : ContextId)
    (args : List Value) (position : Nat) {uses : List (AnnotationUse ClassRefId)}
    {attached : List InstanceId} (makes : MakesAll start now uses attached) :
    Traced.Follows (start.AsPlanned id options)
      (start.hookPlan .postConstruct .postHook position uses)
      (tracePostConstruct perform id context args position attached) now := by
  induction uses generalizing now position attached with
  | nil =>
      cases makes
      exact .pure _
  | cons use rest ih =>
      cases makes with
      | @cons _ first _ others makes more =>
          rw [hookPlan_cons]
          refine .after (.silent _) fun list ready listed => ?_
          obtain ⟨underway, continues⟩ := underway.later_list listed
          have more := MakesAll.later more continues
          have called : Traced.Follows (start.AsPlanned id options)
              (if start.answers .postConstruct use then [.postHook position] else [])
              (traceHook perform (.postHook position) context first .postConstruct
                [.object id, list]) ready := by
            refine traceHook_follows underway (makes.later continues) rfl ?_ _ _
            exact fun _ => trivial
          refine called.bind fun result next done => ?_
          obtain ⟨later, continues⟩ := underway.later_hook nested done
          exact ih later _ (more.later continues)

theorem traceCallConstructor_follows (underway : Underway start now)
    (newcomer : Newcomer start now id) (args : List Value) (context : ContextId)
    {uses : List (AnnotationUse ClassRefId)}
    (makes : MakesAll start now uses (now.object id).annotations) :
    Traced.Follows (start.AsPlanned id options) (start.constructorPlan uses)
      (traceCallConstructor perform id args context) now := by
  refine .after (traceResolveConstructor_follows underway newcomer) fun callee next done => ?_
  rw [run_traceResolveConstructor] at done
  have spares := (resolveConstructor_sparing nested id (fun _ => False) now).ends underway.live done
  have underway := underway.later spares
  have makes : MakesAll start next uses (next.object id).annotations := by
    rw [spares.objects id newcomer.inside not_false]
    exact makes.later spares.evolves.continues
  refine .of_get ?_
  generalize (next.object id).annotations = attached at makes
  let phase := Frame.synthetic ((next.classOf id).name ++ "." ++ MetaKey.preConstruct.methodName)
  have pre : Traced.Follows (start.AsPlanned id options)
      (start.hookPlan .preConstruct .preHook 0 uses)
      (.withFrame context phase (tracePreConstruct perform id context args 0 attached)) next :=
    .withFrame fun deeper _ => tracePreConstruct_follows nested (underway.withContext context _)
      context args 0 (makes.later (.withContext next context _))
  refine pre.bind fun given between done => ?_
  rw [Traced.run_withFrame, run_tracePreConstruct] at done
  have framed : Spares (fun _ => True) next between :=
    (SparesAt.withFrame context phase fun after =>
      preConstruct_sparing nested id context args attached _ after).ends underway.live done
  have underway := underway.later framed
  have makes := makes.later framed.evolves.continues
  have called : Traced.Follows (start.AsPlanned id options) [.constructor]
      (.moment .constructor (perform (.call callee given context) : Exec Value)) between :=
    .body rfl trivial
  refine called.bind fun _ last done => ?_
  have spares := (nested.call callee given context (fun _ => True) between).ends underway.live done
  exact tracePostConstruct_follows nested (underway.later spares) context given 0
    (makes.later spares.evolves.continues)

end

/-! ## The construction -/

section

variable {inner : Perform} (nested : inner.Sparing) {start : World} {id : InstanceId}
  {options : CreateOptions}
include nested

theorem traceFinish_follows {now : World} (underway : Underway start now)
    (newcomer : Newcomer start now id) (args : List Value) (className : String)
    (context : ContextId) {uses : List (AnnotationUse ClassRefId)}
    (makes : MakesAll start now uses (now.object id).annotations) :
    Traced.Follows (start.AsPlanned id options)
      (if options.has .callConstructor then start.constructorPlan uses else [])
      (traceFinish inner id options args className context) now := by
  have marks : ∀ between, Traced.Follows (start.AsPlanned id options) []
      (if options.has .markInitialized then
        .silent (Exec.change (·.withObject id fun object => { object with initialized := true }))
      else pure () : Traced Unit) between := by
    intro between
    split <;> exact .silent _
  unfold traceFinish
  split
  · exact (Traced.Follows.wrapFault (traceCallConstructor_follows (step_sparing nested) underway
      newcomer args context makes)).andThen fun _ between _ => marks between
  · exact marks now

/-- The construction of an instance that was new at the start evaluates the bodies of its levels,
and then its constructor between the hooks of everything that is attached, from before or now. -/
theorem traceConstruct_follows_later {begun : World} (underway : Underway start begun)
    (laid : start.LaidOut) (newcomer : Newcomer start begun id) {cls : ClassId}
    (of_class : (begun.object id).cls = cls) {uses : List (AnnotationUse ClassRefId)}
    (makes : MakesAll start begun uses (begun.object id).annotations) (args : List Value) :
    Traced.Follows (start.AsPlanned id options)
      (start.levelsPlan options (start.ancestors cls) ++
        if options.has .callConstructor then
          start.constructorPlan (uses ++ start.attachedUses options (start.ancestors cls))
        else [])
      (traceConstruct inner id options args) begun := by
  have chain : (begun.object id).levels.map Level.cls = start.ancestors cls := by
    rw [newcomer.chain, of_class, underway.continues.hierarchy.ancestors]
  have count : (begun.object id).levels.length = (start.ancestors cls).length := by
    rw [← chain, List.length_map]
  have whole : (start.ancestors cls).take (start.ancestors cls).length = start.ancestors cls :=
    List.take_length
  refine .of_get ?_
  by_cases initialized : (begun.object id).initialized = true
  · rw [if_pos initialized]
    exact .throw _
  · rw [if_neg initialized]
    refine .after (.silent _) fun context now prepared => ?_
    have spares := (constructionContext_sparing options (fun _ => False) begun).ends underway.live
      prepared
    have underway := underway.later spares
    have continues := spares.evolves.continues
    have inside := Nat.lt_of_lt_of_le newcomer.inside continues.instances
    have levels : (now.object id).levels.map Level.cls = start.ancestors cls := by
      rw [(continues.objects id newcomer.inside).2, chain]
    have reached : Reached start now id options (start.ancestors cls).length uses := by
      refine ⟨?_, fun place level field beyond sits => ?_⟩
      · rw [spares.objects id newcomer.inside not_false]
        exact makes.later continues
      · have within := (List.getElem?_eq_some_iff.mp sits).1
        rw [← levels, List.length_map] at beyond
        exact absurd within (Nat.not_lt_of_le beyond)
    have below := traceLevels_follows nested underway laid context levels inside (Nat.le_refl _)
      reached
    rw [whole] at below
    rw [count]
    refine below.bind fun _ next done => ?_
    obtain ⟨underway, between, reached⟩ := traceLevels_done nested underway laid levels inside
      (Nat.le_refl _) reached done
    rw [whole] at reached
    exact traceFinish_follows nested underway (newcomer.later (continues.trans between)) args _
      context reached.attached

/-- The construction of a new instance with nothing attached follows its plan. -/
theorem traceConstruct_follows (live : start.Live) (newcomer : Newcomer start start id)
    (bare : (start.object id).annotations = []) (args : List Value) :
    Traced.Follows (start.AsPlanned id options)
      (start.constructionPlan options (start.object id).cls)
      (traceConstruct inner id options args) start := by
  have nothing : MakesAll start start [] (start.object id).annotations := by
    rw [bare]
    exact .nil
  exact traceConstruct_follows_later nested (.refl live) live.2.laid newcomer rfl nothing args

end

/-- The construction of a freshly allocated instance evaluates the bodies of its plan, in this order
and no others: all of them where it succeeds, and otherwise some from the beginning.  Each initializer
finds the fields of the levels below assigned, and whatever is looked up on the way runs no body,
unless it is annotated itself. -/
theorem World.construction_in_order {before start : World} (reachable : Reachable before)
    {cls : ClassId} {allocation : CreateOptions} {id : InstanceId}
    (allocates : newInstance cls allocation before = (.done id, start)) (options : CreateOptions)
    (args : List Value) (budget : Nat) :
    (traceConstruct (performUpTo budget) id options args).run =
        performUpTo (budget + 2) (.construct id options args) ∧
      Traced.Follows (start.AsPlanned id options) (start.constructionPlan options cls)
        (traceConstruct (performUpTo budget) id options args) start := by
  obtain ⟨newcomer, same, bare, _⟩ := newInstance_fresh allocates
  have spares : Spares (fun _ => True) before start := by
    rw [(newInstance_done allocates).2]
    exact .newInstance before cls
  have live := Live.later reachable.sound spares.evolves
  refine ⟨run_traceConstruct (performUpTo budget) _ options args, ?_⟩
  rw [← same]
  exact traceConstruct_follows (performUpTo_sparing budget) live newcomer bare args

/-- A base with an annotation around the constructor and one on a field, and a class derived from
it. -/
def hookedSpecs : List ClassSpec :=
  [⟨"M", .marker, none, [], [bareFunction "onPreConstruct" .null, bareFunction "onPostConstruct" .null],
     [], none, none⟩,
   ⟨"W", .marker, none, [], [bareFunction "onSet" (.int 5)], [], none, none⟩,
   ⟨"A", .ordinary, none, [⟨"x", .global, .any, .script (some (.int 1)), [⟨"W", []⟩], none⟩], [],
     [⟨"M", [.int 3]⟩], none, none⟩,
   bareClass "C" (some "A") [bareField "y" (some (.int 2))] []]

/-- An argument, two annotations, two initializers, the hook of a write and the constructor between
two hooks. -/
theorem World.construction_in_order_hooked :
    (performUpTo 12 (.construct ⟨0⟩ .standard []) (sampleBefore hookedSpecs ⟨3⟩)).1.result? =
      some () ∧
    (traceConstruct (performUpTo 10) ⟨0⟩ .standard []).bodies (sampleBefore hookedSpecs ⟨3⟩) =
      (sampleBefore hookedSpecs ⟨3⟩).constructionPlan .standard ⟨3⟩ ∧
    ((sampleBefore hookedSpecs ⟨3⟩).constructionPlan .standard ⟨3⟩).length = 9 := by
  have created : newInstance ⟨3⟩ .standard (sampleStart hookedSpecs) =
      (.done ⟨0⟩, sampleBefore hookedSpecs ⟨3⟩) := newInstance_sample (by decide +kernel)
  obtain ⟨runs, follows⟩ := construction_in_order (reachable_sampleStart hookedSpecs) created
    .standard [] 10
  have done : (performUpTo 12 (.construct ⟨0⟩ .standard []) (sampleBefore hookedSpecs ⟨3⟩)).1.result? =
      some () := by decide +kernel
  have ends := (congrFun runs (sampleBefore hookedSpecs ⟨3⟩)).trans (done_of_result? done)
  exact ⟨done, follows.whole () _ ends, by decide +kernel⟩

end ScriptObjects
