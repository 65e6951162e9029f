import ScriptObjects.Proofs.ConstructionFollows
import ScriptObjects.Proofs.FunctionSlots

/-!
# Constructing an instance again

A construction that is not asked to mark the instance leaves it open for another one.  What the
first has done is not undone: the fields stay declared, and the instances of the class annotations
stay attached.  So the next construction is not refused as a whole, but it does not get past the
first field, and without fields it attaches the annotations of the classes once more, so that the
constructor runs between the hooks of all of them.

What a construction attaches is followed first, whether it succeeds or not: the annotations of the
classes of the chain, in order, up to the fault if there is one.  From this it is known what is
attached to an instance after any operations of the host.
-/

namespace ScriptObjects

set_option autoImplicit false

open Exec World

/-! ## What a run attaches -/

namespace World

/-- Between two states, new instances were attached to an instance, one for each annotation use. -/
def Attached (start : World) (id : InstanceId) (uses : List (AnnotationUse ClassRefId))
    (before after : World) : Prop :=
  ∃ created, (after.object id).annotations = (before.object id).annotations ++ created ∧
    MakesAll start after uses created

theorem Attached.of_same {start before after : World} {id : InstanceId}
    (same : (after.object id).annotations = (before.object id).annotations) :
    Attached start id [] before after :=
  ⟨[], by rw [same, List.append_nil], .nil⟩

theorem Attached.trans {start first second third : World} {id : InstanceId}
    {uses more : List (AnnotationUse ClassRefId)} (one : Attached start id uses first second)
    (two : Attached start id more second third) (continues : second.Continues third) :
    Attached start id (uses ++ more) first third := by
  obtain ⟨created, attached, makes⟩ := one
  obtain ⟨others, again, further⟩ := two
  refine ⟨created ++ others, ?_, List.rel_append (makes.later continues) further⟩
  rw [again, attached, List.append_assoc]

/-- Behind what was attached already. -/
theorem Attached.makesAll {start before after : World} {id : InstanceId}
    {uses more : List (AnnotationUse ClassRefId)} (attached : Attached start id more before after)
    (makes : MakesAll start before uses (before.object id).annotations)
    (continues : before.Continues after) :
    MakesAll start after (uses ++ more) (after.object id).annotations := by
  obtain ⟨created, same, further⟩ := attached
  rw [same]
  exact List.rel_append (makes.later continues) further

end World

/-- What a part of the construction of an instance comes to: it attaches instances for annotation
uses, all of them if it gives a result, and otherwise those of some from the beginning.  It marks
the instance only if it is asked to. -/
structure Attaches {α : Type} (start : World) (id : InstanceId) (marking : Prop)
    (uses : List (AnnotationUse ClassRefId)) (before : World) (answer : Outcome α × World) :
    Prop where
  spares : Spares (· = id) before answer.2
  mark : ¬ marking → (answer.2.object id).initialized = (before.object id).initialized
  along : ∃ part, part <+: uses ∧ Attached start id part before answer.2
  whole : ∀ result, answer.1 = .done result → Attached start id uses before answer.2

/-- A construction that is refused attaches nothing. -/
theorem Attaches.of_refused {α : Type} {start now : World} {id : InstanceId} {marking : Prop}
    {uses : List (AnnotationUse ClassRefId)} {outcome : Outcome α}
    (fails : ∀ result, outcome ≠ .done result) :
    Attaches start id marking uses now (outcome, now) where
  spares := .refl now
  mark _ := rfl
  along := ⟨[], List.nil_prefix, .of_same rfl⟩
  whole result done := absurd done (fails result)

/-- A run attaches instances for annotation uses when the construction is under way. -/
def AttachesAt {α : Type} (start : World) (id : InstanceId) (marking : Prop)
    (uses : List (AnnotationUse ClassRefId)) (run : Exec α) (now : World) : Prop :=
  Underway start now → id.index < now.instances.size →
    Attaches start id marking uses now (run now)

namespace AttachesAt

variable {α β : Type} {start now : World} {id : InstanceId} {marking : Prop}
  {uses more : List (AnnotationUse ClassRefId)}

/-- A run that spares the instance attaches nothing to it. -/
theorem of_spares {run : Exec α} (spares : SparesAt (fun _ => False) run now) :
    AttachesAt start id marking [] run now := by
  intro underway inside
  have spares := spares underway.live
  have nothing : Attached start id [] now (run now).2 :=
    .of_same (spares.objects id inside not_false)
  exact ⟨spares.weaken fun _ _ none => none.elim, fun _ => spares.marks id inside not_false,
    ⟨[], List.nil_prefix, nothing⟩, fun _ _ => nothing⟩

theorem congr {run other : Exec α} (same : run now = other now)
    (attaches : AttachesAt start id marking uses other now) :
    AttachesAt start id marking uses run now := by
  unfold AttachesAt at attaches ⊢
  rw [same]
  exact attaches

theorem bind {run : Exec α} {next : α → Exec β}
    (first : AttachesAt start id marking uses run now)
    (second : ∀ result after, run now = (.done result, after) →
      AttachesAt start id marking more (next result) after) :
    AttachesAt start id marking (uses ++ more) (run >>= next) now := by
  intro underway inside
  have one := first underway inside
  rw [bind_apply]
  rcases ends : run now with ⟨outcome, after⟩
  rw [ends] at one
  -- Without a result, the run ends with the first part.
  have stopped : ∀ answer : Outcome β, (∀ result, answer ≠ .done result) →
      Attaches start id marking (uses ++ more) now (answer, after) := by
    intro answer fails
    obtain ⟨part, begins, attached⟩ := one.along
    exact ⟨one.spares, one.mark, ⟨part, begins.trans (List.prefix_append uses more), attached⟩,
      fun result done => absurd done (fails result)⟩
  cases outcome with
  | failed fault => exact stopped (.failed fault) nofun
  | exhausted => exact stopped .exhausted nofun
  | done result =>
      have grown := Nat.lt_of_lt_of_le inside one.spares.evolves.continues.instances
      have two := second result after ends (underway.later one.spares) grown
      have attached := one.whole result rfl
      have continues := two.spares.evolves.continues
      refine ⟨one.spares.trans two.spares, fun unasked => ?_, ?_, fun final done => ?_⟩
      · exact (two.mark unasked).trans (one.mark unasked)
      · obtain ⟨part, begins, further⟩ := two.along
        exact ⟨uses ++ part, (List.prefix_append_right_inj uses).mpr begins,
          attached.trans further continues⟩
      · exact attached.trans (two.whole final done) continues

/-- A first part that attaches nothing. -/
theorem after {run : Exec α} {next : α → Exec β}
    (first : AttachesAt start id marking [] run now)
    (second : ∀ result after, run now = (.done result, after) →
      AttachesAt start id marking uses (next result) after) :
    AttachesAt start id marking uses (run >>= next) now :=
  first.bind second

/-- A last part that attaches nothing. -/
theorem andThen {run : Exec α} {next : α → Exec β}
    (first : AttachesAt start id marking uses run now)
    (second : ∀ result after, run now = (.done result, after) →
      AttachesAt start id marking [] (next result) after) :
    AttachesAt start id marking uses (run >>= next) now := by
  have both := first.bind second
  rw [List.append_nil] at both
  exact both

end AttachesAt

/-! ## What a construction attaches -/

section

variable {start now : World} {id : InstanceId} {marking : Prop}

theorem attach_attaches {uses : List (AnnotationUse ClassRefId)} {created : List InstanceId}
    (makes : MakesAll start now uses created) :
    AttachesAt start id marking uses (Exec.change (·.withObject id fun object =>
      { object with annotations := object.annotations ++ created })) now := by
  let attach (object : Instance) : Instance :=
    { object with annotations := object.annotations ++ created }
  intro _ inside
  have object : (now.withObject id attach).object id = attach (now.object id) := by
    rw [object_withObject, if_pos ⟨rfl, inside⟩]
  have attached : Attached start id uses now (now.withObject id attach) :=
    ⟨created, congrArg Instance.annotations object,
      makes.later (.withObject now id attach fun _ => ⟨rfl, rfl⟩)⟩
  have mark : ((now.withObject id attach).object id).initialized = (now.object id).initialized :=
    (congrArg Instance.initialized object).trans rfl
  exact ⟨.withObject id (.single (.attach id created)) (absurd rfl), fun _ => mark,
    ⟨uses, List.prefix_rfl, attached⟩, fun _ _ => attached⟩

theorem mark_attaches (asked : marking) :
    AttachesAt start id marking [] (Exec.change (·.withObject id fun object =>
      { object with initialized := true })) now := by
  intro _ inside
  have attached : Attached start id [] now
      (now.withObject id fun object => { object with initialized := true }) := by
    refine .of_same ?_
    rw [object_withObject, if_pos ⟨rfl, inside⟩]
  exact ⟨.withObject id (.single (.mark id)) (absurd rfl), fun unasked => absurd asked unasked,
    ⟨[], List.nil_prefix, attached⟩, fun _ _ => attached⟩

end

section

variable {perform : Perform} (nested : perform.Sparing) {start : World} (laid : start.LaidOut)
  {id : InstanceId} {marking : Prop}
include nested laid

theorem annotateLevel_attaches (options : CreateOptions) (context : ContextId) (place : Nat)
    (cls : ClassDef) (now : World) :
    AttachesAt start id marking (cls.wanted options)
      (annotateLevel perform id options context place cls) now := by
  unfold annotateLevel ClassDef.wanted
  cases flag : options.has .createAnnotations with
  | false => exact .of_spares (Sparing.pure () _ now)
  | true =>
      cases annotated : cls.annotations with
      | nil => exact .of_spares (Sparing.pure () _ now)
      | cons use rest =>
          intro underway inside
          have creates := createAnnotations_sparing nested cls.name (some ⟨id, place⟩) context
            (use :: rest) (fun _ => False) now
          refine (AttachesAt.of_spares creates).after (fun created between done => ?_) underway
            inside
          exact attach_attaches (createAnnotations_done nested underway laid done)

theorem constructLevel_attaches (options : CreateOptions) (context : ContextId) {place : Nat}
    {level : Level} {now : World} (sits : now.level? id place = some level) :
    AttachesAt start id marking ((now.cls level.cls).wanted options)
      (constructLevel perform id options context place) now := by
  refine .congr (constructLevel_of_some sits) ?_
  intro underway inside
  refine (annotateLevel_attaches nested laid options context place _ now).andThen
    (fun _ between done => .of_spares ?_) underway inside
  have spares := (annotateLevel_sparingAt nested id options context place _ now).ends
    underway.live done
  have continues := spares.evolves.continues
  refine constructFields_sparingAt nested _ options context (continues.level? sits)
    fun field member => ?_
  rw [continues.hierarchy.ask ClassDef.fields fun _ => rfl]
  exact member

/-- The levels below a place attach the annotations of their classes, from the highest down. -/
theorem constructLevels_attaches (options : CreateOptions) (context : ContextId) {count : Nat}
    {now : World} {chain : List ClassId} (levels : (now.object id).levels.map Level.cls = chain)
    (enough : count ≤ chain.length) :
    AttachesAt start id marking (start.attachedUses options (chain.take count))
      (constructLevels perform id options context count) now := by
  induction count generalizing now with
  | zero => exact .of_spares (Sparing.pure () _ now)
  | succ place ih =>
      obtain ⟨level, sits, at_place⟩ := level?_of_chain levels (Nat.lt_of_succ_le enough)
      rw [start.attachedUses_take_succ options at_place]
      intro underway inside
      have same : (start.cls level.cls).wanted options = (now.cls level.cls).wanted options :=
        (underway.continues.hierarchy.ask (ClassDef.wanted options) (fun _ => rfl) level.cls).symm
      rw [same]
      refine (constructLevel_attaches nested laid options context sits).bind
        (fun _ between done => ?_) underway inside
      have spares := (constructLevel_sparingAt nested id options context place now).ends
        underway.live done
      refine ih ?_ (Nat.le_of_succ_le enough)
      rw [(spares.evolves.continues.objects id inside).2, levels]

omit laid in
theorem finishInstance_attaches (options : CreateOptions) (args : List Value) (className : String)
    (context : ContextId) (now : World) :
    AttachesAt start id (options.has .markInitialized = true) []
      (finishInstance perform id options args className context) now := by
  have marks : ∀ between, AttachesAt start id (options.has .markInitialized = true) []
      (do
        if options.has .markInitialized then
          Exec.change (·.withObject id fun object => { object with initialized := true }) :
            Exec Unit) between := by
    intro between
    split
    · next asked => exact mark_attaches asked
    · exact .of_spares (Sparing.pure () _ between)
  unfold finishInstance
  by_cases wanted : options.has .callConstructor = true
  · rw [if_pos wanted]
    have calls := wrapConstructor_sparing nested id args className context (fun _ => False) now
    exact (AttachesAt.of_spares calls).after fun _ between _ => marks between
  · rw [if_neg wanted]
    exact marks now

/-- The construction of an instance attaches the annotations of its chain, and marks the instance
only if the options ask for it. -/
theorem constructInstance_attaches (options : CreateOptions) (args : List Value) {now : World}
    {chain : List ClassId} (levels : (now.object id).levels.map Level.cls = chain) :
    AttachesAt start id (options.has .markInitialized = true) (start.attachedUses options chain)
      (constructInstance perform id options args) now := by
  cases initialized : (now.object id).initialized with
  | true =>
      intro underway inside
      rw [constructInstance_of_initialized initialized]
      exact .of_refused nofun
  | false =>
      have count : (now.object id).levels.length = chain.length := by
        rw [← levels, List.length_map]
      refine .congr (constructInstance_of_new initialized) ?_
      have prepares := constructionContext_sparing options (fun _ => False) now
      intro underway inside
      refine (AttachesAt.of_spares prepares).after (fun context after done => ?_) underway inside
      have spares := prepares.ends underway.live done
      have below : AttachesAt start id (options.has .markInitialized = true)
          (start.attachedUses options (chain.take chain.length))
          (constructLevels perform id options context chain.length) after := by
        refine constructLevels_attaches nested laid options context ?_ (Nat.le_refl _)
        rw [(spares.evolves.continues.objects id inside).2, levels]
      rw [List.take_length, ← count] at below
      exact below.andThen fun _ last _ =>
        finishInstance_attaches nested options args _ context last

end

/-! ## Whatever the host does -/

theorem Operation.eq_construct {operation : Operation} {id : InstanceId}
    (constructs : operation.Constructs id) :
    ∃ options args, operation = .ofRequest (.construct id options args) := by
  unfold Operation.Constructs at constructs
  split at constructs
  · subst constructs
    exact ⟨_, _, rfl⟩
  · exact constructs.elim

/-- A host program carries out operations, one after another, each of them permitted. -/
inductive Operates (permitted : Operation → Prop) : World → World → Prop
  | refl (world : World) : Operates permitted world world
  | operation {first second : World} (before : Operates permitted first second) (budget : Nat)
      {operation : Operation} (allowed : permitted operation) :
      Operates permitted first (operation.run (performUpTo budget) second).2

namespace World

/-- An instance of a class was new at the start, and instances for annotation uses are attached to
it since. -/
structure Attended (start now : World) (id : InstanceId) (cls : ClassId)
    (uses : List (AnnotationUse ClassRefId)) : Prop where
  live : start.Live
  newcomer : Newcomer start start id
  of_class : (start.object id).cls = cls
  underway : Underway start now
  makes : MakesAll start now uses (now.object id).annotations

namespace Attended

variable {start now next : World} {id : InstanceId} {cls : ClassId}
  {uses : List (AnnotationUse ClassRefId)}

theorem of_newInstance {before : World} (reachable : Reachable before) {options : CreateOptions}
    (allocates : newInstance cls options before = (.done id, start)) :
    Attended start start id cls [] := by
  obtain ⟨newcomer, of_class, bare, _⟩ := newInstance_fresh allocates
  have spares : Spares (fun _ => True) before start := by
    rw [(newInstance_done allocates).2]
    exact .newInstance before cls
  have live := Live.later reachable.sound spares.evolves
  exact ⟨live, newcomer, of_class, .refl live, by rw [bare]; exact .nil⟩

theorem inside (attended : Attended start now id cls uses) : id.index < now.instances.size :=
  Nat.lt_of_lt_of_le attended.newcomer.inside attended.underway.continues.instances

theorem levels (attended : Attended start now id cls uses) :
    (now.object id).levels.map Level.cls = start.ancestors cls := by
  rw [(attended.underway.continues.objects id attended.newcomer.inside).2, attended.newcomer.chain,
    attended.of_class]

/-- What spares the instance leaves it as it is. -/
theorem later {except : InstanceId → Prop} (attended : Attended start now id cls uses)
    (spares : Spares except now next) (spared : ¬ except id) : Attended start next id cls uses where
  live := attended.live
  newcomer := attended.newcomer
  of_class := attended.of_class
  underway := attended.underway.later spares
  makes := by
    rw [spares.objects id attended.inside spared]
    exact attended.makes.later spares.evolves.continues

theorem attach {more : List (AnnotationUse ClassRefId)} {except : InstanceId → Prop}
    (attended : Attended start now id cls uses) (attached : Attached start id more now next)
    (spares : Spares except now next) : Attended start next id cls (uses ++ more) where
  live := attended.live
  newcomer := attended.newcomer
  of_class := attended.of_class
  underway := attended.underway.later spares
  makes := attached.makesAll attended.makes spares.evolves.continues

/-- Another construction of the instance, however it ends. -/
theorem construct (attended : Attended start now id cls uses) (budget : Nat)
    (options : CreateOptions) (args : List Value) :
    Attaches start id (options.has .markInitialized = true)
      (start.attachedUses options (start.ancestors cls)) now
      (performUpTo budget (.construct id options args) now) := by
  cases budget with
  | zero => exact .of_refused nofun
  | succ budget =>
      exact constructInstance_attaches (performUpTo_sparing budget) attended.live.2.laid options
        args attended.levels attended.underway attended.inside

/-- What is attached to an instance was made for annotation uses, whatever operations there were. -/
theorem operates (attended : Attended start now id cls uses) {permitted : Operation → Prop}
    (operates : Operates permitted now next) :
    ∃ more, Attended start next id cls (uses ++ more) := by
  induction operates with
  | refl => exact ⟨[], by rw [List.append_nil]; exact attended⟩
  | @operation second before budget operation _ ih =>
      obtain ⟨more, reached⟩ := ih
      have spares := operation.run_spares_others (performUpTo_sparing budget) second
        reached.underway.live
      by_cases constructs : operation.Constructs id
      · obtain ⟨options, args, rfl⟩ := Operation.eq_construct constructs
        obtain ⟨part, _, attached⟩ := (reached.construct budget options args).along
        refine ⟨more ++ part, ?_⟩
        rw [← List.append_assoc]
        exact reached.attach attached spares
      · exact ⟨more, reached.later spares constructs⟩

end Attended

end World

/-- Operations that do not construct an instance spare it. -/
theorem Operates.spares {first later : World} {id : InstanceId}
    (operates : Operates (fun operation => ¬ operation.Constructs id) first later)
    (live : first.Live) : Spares (· ≠ id) first later := by
  induction operates with
  | refl => exact .refl first
  | @operation second before budget operation allowed ih =>
      have spares := operation.run_spares_others (performUpTo_sparing budget) second
        (live.later ih.evolves)
      exact ih.trans (spares.weaken fun other _ constructs same => allowed (same ▸ constructs))

/-! ## Once more -/

/-- What a construction does on the levels below a place when all their fields are there: it creates
the annotations of the classes once more, and the first field is refused. -/
def revisitLevels (perform : Perform) (id : InstanceId) (options : CreateOptions)
    (context : ContextId) : Nat → Exec Unit
  | 0 => return
  | place + 1 => do
      match (← get).level? id place with
      | none => revisitLevels perform id options context place
      | some level =>
          let cls := (← get).cls level.cls
          annotateLevel perform id options context place cls
          match cls.fields with
          | [] => revisitLevels perform id options context place
          | field :: _ => throw (.declaration cls.name field.name (.alreadyDeclared field.name))

/-- Two continuations that agree after a run agree behind it. -/
theorem Exec.bind_agrees {α β : Type} {run : Exec α} {next other : α → Exec β} {world : World}
    (agree : ∀ result after, run world = (.done result, after) →
      next result after = other result after) : (run >>= next) world = (run >>= other) world := by
  rw [bind_apply, bind_apply]
  rcases ends : run world with ⟨outcome, after⟩
  cases outcome with
  | done result => exact agree result after ends
  | failed | exhausted => rfl

section

variable {perform : Perform} (nested : perform.Sparing) {id : InstanceId} {options : CreateOptions}
  (context : ContextId)

theorem revisitLevels_of_none {place : Nat} {now : World} (beyond : now.level? id place = none) :
    revisitLevels perform id options context (place + 1) now =
      revisitLevels perform id options context place now := by
  rw [revisitLevels, get_bind_apply, beyond]

theorem revisitLevels_of_some {place : Nat} {now : World} {level : Level}
    (sits : now.level? id place = some level) :
    revisitLevels perform id options context (place + 1) now = (do
      annotateLevel perform id options context place (now.cls level.cls)
      match (now.cls level.cls).fields with
      | [] => revisitLevels perform id options context place
      | field :: _ => throw (.declaration (now.cls level.cls).name field.name
          (.alreadyDeclared field.name)) : Exec Unit) now := by
  rw [revisitLevels, get_bind_apply, sits]
  rfl

include nested

/-- Where all fields are there, the construction of the levels only visits them. -/
theorem constructLevels_revisit (wanted : ∀ field : Field, options.has field.flag = true)
    (count : Nat) {now : World} (live : now.Live) (inside : id.index < now.instances.size)
    (has : now.HasFields id) :
    constructLevels perform id options context count now =
      revisitLevels perform id options context count now := by
  induction count generalizing now with
  | zero => rfl
  | succ place ih =>
      cases sits : now.level? id place with
      | none =>
          rw [revisitLevels_of_none context sits, ← ih live inside has]
          exact bind_of_done _ (constructLevel_of_none sits)
      | some level =>
          have levels : constructLevels perform id options context (place + 1) now = (do
              annotateLevel perform id options context place (now.cls level.cls)
              constructFields perform (now.cls level.cls).name ⟨id, place⟩ level options context
                (now.cls level.cls).fields
              constructLevels perform id options context place : Exec Unit) now := by
            rw [constructLevels, bind_apply, constructLevel_of_some sits, ← bind_apply, bind_assoc]
          rw [levels, revisitLevels_of_some context sits]
          refine bind_agrees fun _ between done => ?_
          have spares := (annotateLevel_sparingAt nested id options context place _ now).ends live
            done
          have proceeds := spares.evolves.proceeds
          have there := has.later live.1 live.2 inside proceeds
          have continues := spares.evolves.continues
          have grown := Nat.lt_of_lt_of_le inside continues.instances
          cases fields : (now.cls level.cls).fields with
          | nil => exact ih (live.later spares.evolves) grown there
          | cons field rest =>
              have member : field ∈ (between.cls level.cls).fields := by
                rw [continues.hierarchy.ask ClassDef.fields fun _ => rfl, fields]
                exact List.mem_cons_self
              obtain ⟨slot, found, _⟩ := there place level (continues.level? sits) field member
              have taken : (between.store (level.declarations field.access)).declares field.name =
                  true := by
                simp [Store.declares, found]
              have refused : constructFields perform (now.cls level.cls).name ⟨id, place⟩ level
                  options context (field :: rest) between =
                    (.failed (.declaration (now.cls level.cls).name field.name
                      (.alreadyDeclared field.name)), between) := by
                have declares := declareField_of_declared (now.cls level.cls).name taken
                rw [constructFields, constructField_of_wanted (wanted field)]
                exact bind_of_failed _ (bind_of_failed _ declares)
              exact bind_of_failed _ refused

/-- The levels are not left behind if one of them has a field. -/
theorem revisitLevels_refused {count : Nat} {now : World} (live : now.Live)
    (inside : id.index < now.instances.size) {place : Nat} (below : place < count) {level : Level}
    (sits : now.level? id place = some level) (declares : (now.cls level.cls).fields ≠ [])
    (after : World) : revisitLevels perform id options context count now ≠ (.done (), after) := by
  induction count generalizing now with
  | zero => exact absurd below (Nat.not_lt_zero place)
  | succ highest ih =>
      intro done
      cases here : now.level? id highest with
      | none =>
          rw [revisitLevels_of_none context here] at done
          have lower : place < highest := by
            refine Nat.lt_of_le_of_ne (Nat.le_of_lt_succ below) ?_
            rintro rfl
            cases sits.symm.trans here
          exact ih live inside lower sits declares done
      | some top =>
          rw [revisitLevels_of_some context here] at done
          obtain ⟨_, between, annotated, goes⟩ := bind_done done
          cases fields : (now.cls top.cls).fields with
          | cons field rest =>
              rw [fields] at goes
              cases goes
          | nil =>
              rw [fields] at goes
              have lower : place < highest := by
                refine Nat.lt_of_le_of_ne (Nat.le_of_lt_succ below) ?_
                rintro rfl
                cases sits.symm.trans here
                exact declares fields
              have spares := (annotateLevel_sparingAt nested id options context highest _ now).ends
                live annotated
              have continues := spares.evolves.continues
              have grown := Nat.lt_of_lt_of_le inside continues.instances
              refine ih (live.later spares.evolves) grown lower (continues.level? sits) ?_ goes
              rw [continues.hierarchy.ask ClassDef.fields fun _ => rfl]
              exact declares

/-- A construction that finishes marks the instance if it is asked to. -/
theorem finishInstance_marks (asked : options.has .markInitialized = true) {args : List Value}
    {className : String} {now after : World} (live : now.Live)
    (inside : id.index < now.instances.size)
    (done : finishInstance perform id options args className context now = (.done (), after)) :
    (after.object id).initialized = true := by
  unfold finishInstance at done
  rw [if_pos asked] at done
  have marked : ∀ between : World, id.index < between.instances.size →
      ((between.withObject id fun object => { object with initialized := true }).object id
        ).initialized = true := by
    intro between there
    rw [object_withObject, if_pos ⟨rfl, there⟩]
  by_cases wanted : options.has .callConstructor = true
  · rw [if_pos wanted] at done
    obtain ⟨_, between, called, marks⟩ := bind_done done
    have spares := (wrapConstructor_sparing nested id args className context (fun _ => True) now
      ).ends live called
    cases marks
    exact marked between (Nat.lt_of_lt_of_le inside spares.evolves.continues.instances)
  · rw [if_neg wanted] at done
    cases done
    exact marked now inside

end

/-- What a construction does with an instance that is not marked and has all its fields. -/
def revisitInstance (perform : Perform) (id : InstanceId) (options : CreateOptions)
    (args : List Value) : Exec Unit := do
  let levels := ((← get).object id).levels
  let className := ((← get).classOf id).name
  let context ← constructionContext options
  revisitLevels perform id options context levels.length
  finishInstance perform id options args className context

section

variable {perform : Perform} (nested : perform.Sparing) {id : InstanceId} {options : CreateOptions}
  {args : List Value} {now : World} (live : now.Live) (inside : id.index < now.instances.size)

theorem revisitInstance_apply :
    revisitInstance perform id options args now = (do
      let context ← constructionContext options
      revisitLevels perform id options context (now.object id).levels.length
      finishInstance perform id options args (now.classOf id).name context : Exec Unit) now := rfl

include nested live inside

theorem constructInstance_revisit (wanted : ∀ field : Field, options.has field.flag = true)
    (unmarked : (now.object id).initialized = false) (has : now.HasFields id) :
    constructInstance perform id options args now =
      revisitInstance perform id options args now := by
  rw [constructInstance_of_new unmarked, revisitInstance_apply]
  refine bind_agrees fun context ready prepared => ?_
  have spares := (constructionContext_sparing options (fun _ => False) now).ends live prepared
  have grown := Nat.lt_of_lt_of_le inside spares.evolves.continues.instances
  have there := has.later live.1 live.2 inside spares.evolves.proceeds
  rw [bind_apply, constructLevels_revisit nested context wanted _ (live.later spares.evolves) grown
    there, ← bind_apply]

theorem revisitInstance_refused {place : Nat} {level : Level}
    (sits : now.level? id place = some level) (declares : (now.cls level.cls).fields ≠ [])
    (after : World) : revisitInstance perform id options args now ≠ (.done (), after) := by
  intro done
  rw [revisitInstance_apply] at done
  obtain ⟨context, ready, prepared, goes⟩ := bind_done done
  obtain ⟨_, between, visited, _⟩ := bind_done goes
  have spares := (constructionContext_sparing options (fun _ => False) now).ends live prepared
  have continues := spares.evolves.continues
  have below : place < (now.object id).levels.length := (List.getElem?_eq_some_iff.mp sits).1
  refine revisitLevels_refused nested context (live.later spares.evolves)
    (Nat.lt_of_lt_of_le inside continues.instances) below (continues.level? sits) ?_ between visited
  rw [continues.hierarchy.ask ClassDef.fields fun _ => rfl]
  exact declares

theorem constructInstance_marks (asked : options.has .markInitialized = true) {after : World}
    (done : constructInstance perform id options args now = (.done (), after)) :
    (after.object id).initialized = true := by
  cases initialized : (now.object id).initialized with
  | true =>
      rw [constructInstance_of_initialized initialized] at done
      cases done
  | false =>
      rw [constructInstance_of_new initialized] at done
      obtain ⟨context, ready, prepared, goes⟩ := bind_done done
      obtain ⟨_, between, built, finished⟩ := bind_done goes
      have before := (constructionContext_sparing options (fun _ => False) now).ends live prepared
      have later := live.later before.evolves
      have spares := (constructLevels_sparingAt nested id options context _ ready).ends later built
      have grown := Nat.lt_of_lt_of_le inside before.evolves.continues.instances
      exact finishInstance_marks nested context asked (later.later spares.evolves)
        (Nat.lt_of_lt_of_le grown spares.evolves.continues.instances) finished

end

/-- How an instance is constructed again, to which instances for annotation uses are attached. -/
structure World.ConstructsAgain (start later : World) (id : InstanceId) (cls : ClassId)
    (options : CreateOptions) (args : List Value) (uses : List (AnnotationUse ClassRefId)) :
    Prop where
  /-- The instance is not taken for initialized: its levels are visited, and what follows them is as
  ever. -/
  revisits : (later.object id).initialized = false ∧ ∀ budget,
    performUpTo (budget + 1) (.construct id options args) later =
      revisitInstance (performUpTo budget) id options args later
  /-- A field anywhere on the chain is too much. -/
  refused : ∀ ancestor ∈ start.ancestors cls, (start.cls ancestor).fields ≠ [] →
    ∀ budget after, performUpTo budget (.construct id options args) later ≠ (.done (), after)
  /-- Otherwise the construction may succeed, and marks the instance. -/
  marks : ∀ budget after, performUpTo budget (.construct id options args) later =
    (.done (), after) → (after.object id).initialized = true
  /-- The bodies come in the order of a first construction, and the constructor comes between the
  hooks of all that was attached before and is attached now. -/
  inOrder : ∀ budget,
    (traceConstruct (performUpTo budget) id options args).run =
        performUpTo (budget + 2) (.construct id options args) ∧
      Traced.Follows (start.AsPlanned id options)
        (start.levelsPlan options (start.ancestors cls) ++
          start.constructorPlan (uses ++ start.attachedUses options (start.ancestors cls)))
        (traceConstruct (performUpTo budget) id options args) later

/-- An instance whose fields are all there, and which is not marked, is constructed again. -/
theorem World.Attended.constructsAgain {start later : World} {id : InstanceId} {cls : ClassId}
    {uses : List (AnnotationUse ClassRefId)} (attended : Attended start later id cls uses)
    (unmarked : (later.object id).initialized = false) (has : later.HasFields id)
    {options : CreateOptions} (standard : options.flags = .standard) (args : List Value) :
    ConstructsAgain start later id cls options args uses := by
  have live := attended.underway.live
  have inside := attended.inside
  have flags : options.has .callConstructor = true ∧ options.has .markInitialized = true := by
    unfold CreateOptions.has
    rw [standard]
    exact ⟨rfl, rfl⟩
  have revisits : ∀ budget, performUpTo (budget + 1) (.construct id options args) later =
      revisitInstance (performUpTo budget) id options args later := fun budget =>
    constructInstance_revisit (performUpTo_sparing budget) live inside (standard_declares standard)
      unmarked has
  constructor
  case revisits => exact ⟨unmarked, revisits⟩
  case refused =>
    intro ancestor member declares budget after done
    cases budget with
    | zero => cases done
    | succ budget =>
        rw [revisits budget] at done
        rw [← attended.levels] at member
        obtain ⟨level, among, rfl⟩ := List.mem_map.mp member
        obtain ⟨place, sits⟩ := List.getElem?_of_mem among
        refine revisitInstance_refused (performUpTo_sparing budget) live inside sits ?_ after done
        rw [attended.underway.continues.hierarchy.ask ClassDef.fields fun _ => rfl]
        exact declares
  case marks =>
    intro budget after done
    cases budget with
    | zero => cases done
    | succ budget =>
        exact constructInstance_marks (performUpTo_sparing budget) live inside flags.2 done
  case inOrder =>
    intro budget
    refine ⟨run_traceConstruct (performUpTo budget) id options args, ?_⟩
    have newcomer := attended.newcomer.later attended.underway.continues
    have of_class : (later.object id).cls = cls :=
      (attended.underway.continues.objects id attended.newcomer.inside).1.trans attended.of_class
    have called : (if options.has .callConstructor then
        start.constructorPlan (uses ++ start.attachedUses options (start.ancestors cls)) else []) =
        start.constructorPlan (uses ++ start.attachedUses options (start.ancestors cls)) :=
      if_pos flags.1
    rw [← called]
    exact traceConstruct_follows_later (performUpTo_sparing budget) attended.underway
      attended.live.2.laid newcomer of_class attended.makes args

/-- What a construction leaves that declares everything and does not mark the instance. -/
theorem World.Attended.constructed {start now first : World} {id : InstanceId} {cls : ClassId}
    {uses : List (AnnotationUse ClassRefId)} (attended : Attended start now id cls uses)
    {once : CreateOptions} (unmarked : once.flags = CreateFlags.standard.erase .markInitialized)
    {args : List Value} {budget : Nat}
    (done : performUpTo budget (.construct id once args) now = (.done (), first)) :
    Attended start first id cls (uses ++ start.attachedUses once (start.ancestors cls)) ∧
      (first.object id).initialized = false ∧ first.HasFields id := by
  have flags : ∀ flag, once.has flag = (CreateFlags.standard.erase .markInitialized).has flag :=
    fun flag => congrArg (·.has flag) unmarked
  have attaches := attended.construct budget once args
  rw [done] at attaches
  cases budget with
  | zero => cases done
  | succ budget =>
      have built : constructInstance (performUpTo budget) id once args now = (.done (), first) :=
        done
      refine ⟨attended.attach (attaches.whole () rfl) attaches.spares, ?_, ?_⟩
      · rw [attaches.mark (by rw [flags]; decide)]
        cases initialized : (now.object id).initialized with
        | false => rfl
        | true =>
            rw [constructInstance_of_initialized initialized] at built
            cases built
      · have live := attended.underway.live
        refine constructInstance_done (performUpTo_leads budget) (fun field => ?_) live.1 live.2
          attended.inside built
        rw [flags]
        unfold Field.flag
        split <;> rfl

/-- An instance whose construction succeeded without marking it is open for another, but nothing of
the first construction was undone.  If a class of the chain declares a field, the other construction
does not succeed: as soon as the annotations of the classes down to that level were created again,
the field is refused as declared already.  If none does, it succeeds exactly if the annotations of
the classes are created once more and the constructor runs between the hooks of all that is
attached; so the hooks of an annotation are called once for each construction that attached it. -/
theorem World.construction_again {before start now first later : World}
    (reachable : Reachable before) {cls : ClassId} {allocation : CreateOptions} {id : InstanceId}
    (allocates : newInstance cls allocation before = (.done id, start))
    (lived : Operates (fun _ => True) start now) {once : CreateOptions}
    (unmarked : once.flags = CreateFlags.standard.erase .markInitialized) {args : List Value}
    {budget : Nat}
    (constructed : performUpTo budget (.construct id once args) now = (.done (), first))
    (between : Operates (fun operation => ¬ operation.Constructs id) first later)
    {options : CreateOptions} (standard : options.flags = .standard) (again : List Value) :
    ∃ earlier, MakesAll start now earlier (now.object id).annotations ∧
      ConstructsAgain start later id cls options again
        (earlier ++ start.attachedUses once (start.ancestors cls)) := by
  obtain ⟨earlier, attended⟩ := (Attended.of_newInstance reachable allocates).operates lived
  refine ⟨earlier, attended.makes, ?_⟩
  obtain ⟨attended, unmarked, fields⟩ := attended.constructed unmarked constructed
  have live := attended.underway.live
  have spares := between.spares live
  have spared : ¬ (fun other => other ≠ id) id := fun differs => differs rfl
  refine (attended.later spares spared).constructsAgain ?_ ?_ standard again
  · exact (spares.marks id attended.inside spared).trans unmarked
  · exact fields.later live.1 live.2 attended.inside spares.evolves.proceeds

/-- A class that only has an annotation around its constructor, one with a field, and one whose
constructor declares a variable. -/
def reopenedSpecs : List ClassSpec :=
  [⟨"M", .marker, none, [],
     [bareFunction "onPreConstruct" .null, bareFunction "onPostConstruct" .null], [], none, none⟩,
   ⟨"H", .ordinary, none, [], [], [⟨"M", []⟩], none, none⟩,
   bareClass "P" none [bareField "x" (some (.int 1))] [],
   bareClass "D" none [] [bareFunction constructorName (.declare "seen" .any)]]

/-- All steps but the mark. -/
def reopening : CreateOptions := ⟨CreateFlags.standard.erase .markInitialized, none⟩

/-- The state after the instance of a class was constructed without a mark. -/
def reopenedState (cls : ClassId) : World :=
  (performUpTo 12 (.construct ⟨0⟩ reopening []) (sampleBefore reopenedSpecs cls)).2

/-- The annotation is created and its hooks are called on each side of the constructor, for the
first construction and for the second. -/
theorem World.construction_again_hooked :
    (performUpTo 12 (.construct ⟨0⟩ reopening []) (sampleBefore reopenedSpecs ⟨1⟩)).1.result? =
      some () ∧
    (performUpTo 12 (.construct ⟨0⟩ .standard []) (reopenedState ⟨1⟩)).1.result? = some () ∧
    ∃ uses, uses = (sampleBefore reopenedSpecs ⟨1⟩).attachedUses reopening [⟨1⟩] ∧
      (traceConstruct (performUpTo 10) ⟨0⟩ .standard []).bodies (reopenedState ⟨1⟩) =
        (sampleBefore reopenedSpecs ⟨1⟩).levelsPlan .standard [⟨1⟩] ++
          (sampleBefore reopenedSpecs ⟨1⟩).constructorPlan (uses ++ uses) ∧
      ((sampleBefore reopenedSpecs ⟨1⟩).constructorPlan (uses ++ uses)).length = 5 := by
  have created : newInstance ⟨1⟩ .standard (sampleStart reopenedSpecs) =
      (.done ⟨0⟩, sampleBefore reopenedSpecs ⟨1⟩) := newInstance_sample (by decide +kernel)
  have first : (performUpTo 12 (.construct ⟨0⟩ reopening [])
      (sampleBefore reopenedSpecs ⟨1⟩)).1.result? = some () := by decide +kernel
  have second : (performUpTo 12 (.construct ⟨0⟩ .standard [])
      (reopenedState ⟨1⟩)).1.result? = some () := by decide +kernel
  have standard : CreateOptions.standard.flags = .standard := rfl
  obtain ⟨earlier, makes, again⟩ := construction_again (reachable_sampleStart reopenedSpecs) created
    (.refl _) rfl (done_of_result? first) (.refl _) standard []
  rw [(newInstance_fresh created).2.2.1] at makes
  cases makes
  obtain ⟨runs, follows⟩ := again.inOrder 10
  have chain : (sampleBefore reopenedSpecs ⟨1⟩).ancestors ⟨1⟩ = [⟨1⟩] := by decide +kernel
  rw [chain] at follows
  have ends := (congrFun runs (reopenedState ⟨1⟩)).trans (done_of_result? second)
  exact ⟨first, second, _, rfl, follows.whole () _ ends, by decide +kernel⟩

/-- Whether a moment is a hook around the constructor. -/
def Moment.isHook : Moment → Bool
  | .preHook _ | .postHook _ => true
  | _ => false

/-- Where a first construction succeeds, with the mark and without, a field is in the way of the
second, and so may be what the constructor did; and each of two hooks is called twice. -/
theorem World.construction_not_repeated :
    (validate.run (defining default reopenedSpecs)).1.isOk = true ∧
    (∀ cls ∈ [⟨1⟩, ⟨2⟩, ⟨3⟩],
      (performUpTo 12 (.construct ⟨0⟩ .standard []) (sampleBefore reopenedSpecs cls)).1.result? =
        some () ∧
      (performUpTo 12 (.construct ⟨0⟩ reopening []) (sampleBefore reopenedSpecs cls)).1.result? =
        some ()) ∧
    (performUpTo 12 (.construct ⟨0⟩ .standard []) (reopenedState ⟨2⟩)).1.fault? =
      some (.declaration "P" "x" (.alreadyDeclared "x")) ∧
    (performUpTo 12 (.construct ⟨0⟩ .standard []) (reopenedState ⟨3⟩)).1.result? = none ∧
    ((traceConstruct (performUpTo 10) ⟨0⟩ .standard []).bodies (reopenedState ⟨1⟩)).countP
      Moment.isHook = 4 := by
  decide +kernel

end ScriptObjects
