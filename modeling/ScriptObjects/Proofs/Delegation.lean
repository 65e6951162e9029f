import ScriptObjects.Proofs.CallStacks
import ScriptObjects.Proofs.Members

/-!
# Constructors that pass through

A class that extends another and declares no member named as constructors are gets a constructor
that hands its arguments to the nearest constructor below.  That one may pass through in turn.  So a
construction that calls the nearest constructor of its chain comes in the end to the nearest one
that was declared by hand, on whatever level.  It runs once, bound to its own level, with the
arguments of the construction; on the call stack lies one frame for each constructor that was passed
through.

A class of which a field has that name gets no constructor at all, and is passed over.
-/

namespace ScriptObjects

set_option autoImplicit false

open Exec

/-- A constructor that hands its arguments on and gives back what it gets. -/
def FunctionDecl.passesThrough {ρ : Type} (function : FunctionDecl ρ) : Bool :=
  match function.body, function.returns with
  | .passThrough, .any => true
  | _, _ => false

/-! ## Contexts -/

theorem Context.truncate_truncate (context : Context) {outer inner : Nat} (within : outer ≤ inner) :
    (context.truncate inner).truncate outer = context.truncate outer := by
  unfold Context.truncate Context.depth
  rw [List.drop_drop, List.length_drop]
  congr 2
  omega

namespace World

theorem withContext_withContext (world : World) (id : ContextId)
    (first second : Context → Context) :
    (world.withContext id first).withContext id second = world.withContext id (second ∘ first) := by
  unfold withContext
  rw [Heap.modify_modify]

theorem withContext_of_fixed (world : World) (id : ContextId) {change : Context → Context}
    (fixed : change (world.context id) = world.context id) : world.withContext id change = world := by
  unfold withContext
  rw [Heap.modify_of_fixed _ _ _ fixed]

/-- Frames that were pushed since are no longer there. -/
theorem withContext_truncate (world : World) (context : ContextId) {outer inner : Nat}
    (within : outer ≤ inner) :
    (world.withContext context (·.truncate inner)).withContext context (·.truncate outer) =
      world.withContext context (·.truncate outer) := by
  rw [withContext_withContext]
  congr 1
  funext
  exact Context.truncate_truncate _ within

/-- The state with one more frame on a context. -/
def pushed (world : World) (context : ContextId) (frame : Frame) : World :=
  world.withContext context fun _ =>
    { world.context context with frames := frame :: (world.context context).frames }

/-- The frame is given up again. -/
theorem pushed_truncate (world : World) (context : ContextId) (frame : Frame) :
    (world.pushed context frame).withContext context
      (·.truncate (world.context context).depth) = world := by
  unfold pushed
  rw [withContext_withContext]
  refine withContext_of_fixed world context ?_
  simp [Context.truncate, Context.depth]

/-- On a context without a limit there is room for each frame. -/
theorem withFrame_of_unlimited {α : Type} {world : World} {context : ContextId} (frame : Frame)
    (run : Exec α) (unlimited : (world.context context).limit = none) :
    withFrame context frame run world =
      ((run (world.pushed context frame)).1,
        (run (world.pushed context frame)).2.withContext context
          (·.truncate (world.context context).depth)) := by
  refine withFrame_of_pushed run rfl ?_
  simp [Context.push?, unlimited]

/-- A construction was entered, with some frames on its context: functions were fetched, and other
contexts are as they were. -/
structure Enters (world : World) (context : ContextId) (frames : List Frame) (here : World) :
    Prop where
  fetches : world.Fetches constructorName here
  entered : here.context context =
    { world.context context with frames := frames ++ (world.context context).frames }
  others : ∀ other, other ≠ context → here.context other = world.context other
  size : here.contexts.size = world.contexts.size

namespace Enters

variable {first second third : World} {context : ContextId} {frames more : List Frame}

theorem of_same (fetches : first.Fetches constructorName second)
    (same : second.contexts = first.contexts) : first.Enters context [] second where
  fetches := fetches
  entered := by
    unfold World.context
    rw [same]
    rfl
  others other _ := by
    unfold World.context
    rw [same]
  size := congrArg Heap.size same

theorem refl (world : World) : world.Enters context [] world := of_same (.refl world) rfl

theorem trans (one : first.Enters context frames second) (two : second.Enters context more third) :
    first.Enters context (more ++ frames) third where
  fetches := one.fetches.trans two.fetches
  entered := by
    rw [two.entered, one.entered, List.append_assoc]
  others other differs := (two.others other differs).trans (one.others other differs)
  size := two.size.trans one.size

theorem push (world : World) (frame : Frame) (known : context.index < world.contexts.size) :
    world.Enters context [frame] (world.pushed context frame) where
  fetches := .withContext world context _
  entered := by
    unfold pushed
    rw [context_withContext, if_pos ⟨rfl, known⟩]
    rfl
  others other differs := by
    unfold pushed
    rw [context_withContext, if_neg fun both => differs both.1]
  size := size_contexts_withContext ..

theorem depth (enters : first.Enters context frames second) :
    (second.context context).depth = frames.length + (first.context context).depth := by
  rw [enters.entered]
  exact List.length_append

/-- The frames are given up again. -/
theorem leave (enters : first.Enters context frames second)
    (known : context.index < first.contexts.size) :
    first.Enters context []
      (second.withContext context (·.truncate (first.context context).depth)) where
  fetches := enters.fetches.trans (.withContext second context _)
  entered := by
    rw [context_withContext, if_pos ⟨rfl, enters.size ▸ known⟩, enters.entered]
    simp [Context.truncate, Context.depth]
  others other differs := by
    rw [context_withContext, if_neg fun both => differs both.1]
    exact enters.others other differs
  size := (size_contexts_withContext ..).trans enters.size

end Enters

/-! ## Constructors on a chain -/

/-- The constructor that a class declares, by hand or not. -/
def constructor? (world : World) (cls : ClassId) : Option Function :=
  (world.cls cls).function? constructorName

/-- The constructors of some classes hand on their arguments. -/
def PassThrough (world : World) (classes : List ClassId) : Prop :=
  ∀ cls ∈ classes, ∀ function ∈ world.constructor? cls, function.passesThrough = true

/-- The frames of the constructors of some classes, each called by the one before it. -/
def passed (world : World) : List ClassId → List Frame
  | [] => []
  | cls :: rest =>
      match world.constructor? cls with
      | some _ => world.passed rest ++ [.construction (world.cls cls).name]
      | none => world.passed rest

/-- The nearest constructor on a chain, and how far along it is. -/
def nearestConstructor? (world : World) : List ClassId → Option (Nat × Function)
  | [] => none
  | cls :: rest =>
      match world.constructor? cls with
      | some function => some (0, function)
      | none => (world.nearestConstructor? rest).map fun found => (found.1 + 1, found.2)

theorem mem_of_constructor? {world : World} {cls : ClassId} {function : Function}
    (found : world.constructor? cls = some function) :
    function ∈ (world.cls cls).functions ∧ function.name = constructorName := by
  unfold constructor? ClassDef.function? at found
  exact ⟨List.mem_of_find?_eq_some found, by simpa using List.find?_some found⟩

/-- Without a constructor no frame is left. -/
theorem passed_of_none {world : World} {chain : List ClassId}
    (missing : world.nearestConstructor? chain = none) : world.passed chain = [] := by
  induction chain with
  | nil => rfl
  | cons cls rest ih =>
      unfold nearestConstructor? at missing
      unfold passed
      split at missing
      · cases missing
      · exact ih (Option.map_eq_none_iff.mp missing)

theorem nearestConstructor?_eq_none {world : World} {chain : List ClassId} :
    world.nearestConstructor? chain = none ↔ ∀ cls ∈ chain, world.constructor? cls = none := by
  induction chain with
  | nil => simp [nearestConstructor?]
  | cons cls rest ih =>
      rw [List.forall_mem_cons, ← ih, nearestConstructor?]
      cases world.constructor? cls <;> simp

theorem nearestConstructor?_eq_some {world : World} {chain : List ClassId} {place : Nat}
    {function : Function} (nearest : world.nearestConstructor? chain = some (place, function)) :
    ∃ cls, chain[place]? = some cls ∧ world.constructor? cls = some function := by
  induction chain generalizing place with
  | nil => cases nearest
  | cons cls rest ih =>
      unfold nearestConstructor? at nearest
      split at nearest
      · next declared =>
          cases nearest
          exact ⟨cls, rfl, declared⟩
      · obtain ⟨⟨before, other⟩, found, same⟩ := Option.map_eq_some_iff.mp nearest
        cases same
        exact ih found

/-- The table of a class, built now, has a link to the nearest constructor. -/
theorem metaLink?_construct (world : World) (id : ClassId) :
    world.metaLink? id .construct =
      (world.nearestConstructor? (world.ancestors id)).map fun found =>
        ⟨.construct, found.2.owner.getD ⟨(world.cls id).name, (world.cls id).hash⟩, found.2.access,
          found.2⟩ := by
  have along : ∀ chain : List ClassId, (chain.findSome? fun ancestor =>
      (world.cls ancestor).acceptedFunction? constructorName fun _ => true) =
        (world.nearestConstructor? chain).map Prod.snd := by
    intro chain
    induction chain with
    | nil => rfl
    | cons cls rest ih =>
        rw [List.findSome?_cons, acceptedFunction?_any]
        unfold nearestConstructor? constructor?
        cases (world.cls cls).function? constructorName with
        | some function => rfl
        | none =>
            rw [Option.map_map]
            exact ih
  unfold metaLink? nearest?
  rw [show MetaKey.construct.methodName = constructorName from rfl, along, Option.map_map]
  rfl

/-! ## Instances whose constructors can be fetched -/

/-- An instance lives on a level for each class of its chain, which ends where there is no base, and
the constructors of these classes are neither annotated nor hidden by variables. -/
structure Constructible (world : World) (id : InstanceId) : Prop where
  reachable : Reachable world
  living : (world.object id).alive = true
  whole : (world.object id).levels.map Level.cls = world.ancestors (world.object id).cls
  chain : world.Chain (world.object id).cls (world.ancestors (world.object id).cls)
  unhidden : world.Unhidden id constructorName
  plain : ∀ cls ∈ world.ancestors (world.object id).cls, ∀ function ∈ world.constructor? cls,
    function.annotations = []

/-- The classes of the chain show the constructors that their own chains have now. -/
structure Delegable (world : World) (id : InstanceId) : Prop extends world.Constructible id where
  answers : ∀ cls ∈ world.ancestors (world.object id).cls,
    (world.metaTable cls).get? .construct = world.metaLink? cls .construct

theorem walk_length_le (world : World) (fuel : Nat) (seen : List TypeHash)
    (start : Option ClassId) : (world.walk fuel seen start).length ≤ fuel := by
  induction fuel generalizing seen start with
  | zero => exact Nat.le_refl 0
  | succ fuel ih =>
      cases start with
      | none => exact Nat.zero_le _
      | some id =>
          rw [walk]
          split
          · exact Nat.zero_le _
          · exact Nat.succ_le_succ (ih ..)

theorem ancestors_zero (world : World) (id : ClassId) : (world.ancestors id)[0]? = some id := by
  obtain ⟨rest, same⟩ := world.head_ancestors id
  rw [← same]
  rfl

/-- Where the ancestors of a class are a chain to its end, those of a class on it are the rest. -/
theorem Chain.ancestors_drop {world : World} {id member : ClassId}
    (chain : world.Chain id (world.ancestors id)) {place : Nat}
    (sits : (world.ancestors id)[place]? = some member) :
    world.ancestors member = (world.ancestors id).drop place := by
  have bounded : ((world.ancestors id).drop place).length ≤ world.classes.size + 1 := by
    have all : (world.ancestors id).length ≤ world.classes.size + 1 := world.walk_length_le ..
    rw [List.length_drop]
    omega
  have distinct := (world.ancestors_distinct id).sublist
    ((List.drop_sublist place (world.ancestors id)).map fun member => (world.cls member).hash)
  exact (chain.suffix sits).walk bounded distinct fun _ _ => List.not_mem_nil

/-- The nearest constructor on the chain of an instance from a place on, bound to its level. -/
def constructorFrom? (world : World) (id : InstanceId) (place : Nat) : Option Callable :=
  (world.nearestConstructor? ((world.ancestors (world.object id).cls).drop place)).map fun found =>
    .ofFunction found.2 (some ⟨id, place + found.1⟩)

section

variable {world : World} {id : InstanceId} {place : Nat} {cls : ClassId} {rest : List ClassId}
  (chain : (world.ancestors (world.object id).cls).drop place = cls :: rest)
include chain

theorem constructorFrom?_of_some {function : Function}
    (declared : world.constructor? cls = some function) :
    world.constructorFrom? id place = some (.ofFunction function (some ⟨id, place⟩)) := by
  unfold constructorFrom?
  rw [chain, nearestConstructor?, declared]
  rfl

theorem constructorFrom?_of_none (missing : world.constructor? cls = none) :
    world.constructorFrom? id place = world.constructorFrom? id (place + 1) := by
  unfold constructorFrom?
  rw [chain, ← List.tail_drop, chain, nearestConstructor?, missing, List.tail_cons, Option.map_map]
  congr 1
  funext found
  exact congrArg (fun at_ => Callable.ofFunction found.2 (some ⟨id, at_⟩)) (by dsimp only; omega)

end

/-- Where a chain has no further constructor, none is passed. -/
theorem passed_of_constructorFrom?_none {world : World} {id : InstanceId} {place : Nat}
    {above below : List ClassId}
    (chain : (world.ancestors (world.object id).cls).drop place = above ++ below)
    (missing : world.constructorFrom? id place = none) :
    world.passed above = [] ∧ world.constructorFrom? id (place + above.length) = none := by
  unfold constructorFrom? at missing ⊢
  rw [Option.map_eq_none_iff, chain, nearestConstructor?_eq_none, List.forall_mem_append] at missing
  rw [← List.drop_drop, chain, List.drop_left, Option.map_eq_none_iff]
  simp only [← nearestConstructor?_eq_none] at missing
  exact ⟨passed_of_none missing.1, missing.2⟩

namespace Delegable

variable {world : World} {id : InstanceId} (delegable : world.Delegable id)
include delegable

theorem fetchable : world.Fetchable id constructorName where
  reachable := delegable.reachable
  living := delegable.living
  begins := delegable.whole ▸ List.prefix_rfl
  unhidden := delegable.unhidden

section

variable {place : Nat} {start : ClassId}
  (sits : (world.ancestors (world.object id).cls)[place]? = some start)
include sits

theorem construct_answer : (world.metaTable start).get? .construct =
    (world.nearestConstructor? ((world.ancestors (world.object id).cls).drop place)).map fun found =>
      ⟨.construct, found.2.owner.getD ⟨(world.cls start).name, (world.cls start).hash⟩,
        found.2.access, found.2⟩ := by
  rw [delegable.answers start (List.mem_of_getElem? sits), metaLink?_construct,
    delegable.chain.ancestors_drop sits]

/-- The table of a class on the chain leads to the nearest constructor from there. -/
theorem link {gap : Nat} {function : Function} (nearest : world.nearestConstructor?
      ((world.ancestors (world.object id).cls).drop place) = some (gap, function)) :
    ∃ owner level, (world.metaTable start).get? .construct =
        some ⟨.construct, owner, function.access, function⟩ ∧
      world.LeadsTo id ⟨.construct, owner, function.access, function⟩ (place + gap) level ∧
      function.annotations = [] := by
  have registered := delegable.reachable.sound.2.registered
  have answer := delegable.construct_answer sits
  rw [nearest, Option.map_some] at answer
  obtain ⟨cls, along, declared⟩ := nearestConstructor?_eq_some nearest
  rw [List.getElem?_drop] at along
  obtain ⟨level, placed, rfl⟩ := level_at delegable.whole along
  obtain ⟨member, named⟩ := mem_of_constructor? declared
  refine ⟨_, level, answer, ⟨placed, member, named, ?_, rfl⟩,
    delegable.plain level.cls (List.mem_of_getElem? along) function declared⟩
  rw [registered.owners level.cls function member]
  rfl

end

/-- What fetching constructors leaves behind changes none of this. -/
theorem later {after : World} (fetches : world.Fetches constructorName after) :
    after.Delegable id := by
  have same := fetches.hierarchy delegable.reachable
  have constructors : after.constructor? = world.constructor? :=
    funext fun cls => same.ask (ClassDef.function? · constructorName) (fun _ => rfl) cls
  have ancestors : ∀ cls, after.ancestors cls = world.ancestors cls := same.ancestors
  constructor
  · constructor
    · exact .proceed delegable.reachable fetches.proceeds
    · rw [fetches.object]
      exact delegable.living
    · rw [fetches.object, ancestors]
      exact delegable.whole
    · rw [fetches.object, ancestors]
      exact delegable.chain.transfer same
    · exact fetches.unhidden delegable.reachable.sound delegable.unhidden
    · rw [fetches.object, ancestors, constructors]
      exact delegable.plain
  · intro cls along
    rw [fetches.object, ancestors] at along
    rw [fetches.proceeds.metaTable delegable.reachable.sound, same.metaLink?]
    exact delegable.answers cls along

/-! ## Fetching the next constructor -/

section

variable {here : World} (fetches : world.Fetches constructorName here) {place : Nat}
  (args : List Value) (context : ContextId)
include fetches

/-- Where the chain has no further constructor, nothing is called. -/
theorem forward_none (missing : world.constructorFrom? id (place + 1) = none) (perform : Perform) :
    ∃ after, here.Enters context [] after ∧
      forwardToBase perform ⟨id, place⟩ args context here = (.done .null, after) := by
  unfold forwardToBase
  rw [get_bind_apply, fetches.level?]
  cases below : world.level? id (place + 1) with
  | none => exact ⟨here, .refl here, rfl⟩
  | some base =>
      have answer := delegable.construct_answer (member_at delegable.whole below)
      rw [Option.map_eq_none_iff.mp missing,
        ← fetches.proceeds.metaTable delegable.reachable.sound] at answer
      have asked : Exec.metaLink? base.cls .construct here =
          (.done none, here.keepMetaTable base.cls) := by
        unfold Exec.metaLink?
        rw [answer]
        rfl
      refine ⟨here.keepMetaTable base.cls, .of_same (.keepMetaTable here base.cls) ?_, ?_⟩
      · rw [keepMetaTable_eq]
      · exact bind_of_done _ asked

/-- A constructor that passes through calls the next one on the chain, with the same arguments. -/
theorem forward_some {target : Callable} (next : world.constructorFrom? id (place + 1) = some target)
    (budget : Nat) :
    ∃ callable after, here.Enters context [] after ∧
      after.callables.get? callable = some target ∧
      forwardToBase (performUpTo (budget + 1)) ⟨id, place⟩ args context here =
        performUpTo (budget + 1) (.call callable args context) after := by
  obtain ⟨⟨gap, function⟩, nearest, rfl⟩ := Option.map_eq_some_iff.mp next
  obtain ⟨_, along, _⟩ := nearestConstructor?_eq_some nearest
  obtain ⟨start, sits⟩ : ∃ start, (world.ancestors (world.object id).cls)[place + 1]? = some start := by
    have within := (List.getElem?_eq_some_iff.mp along).1
    rw [List.length_drop] at within
    exact ⟨_, List.getElem?_eq_getElem (by omega)⟩
  obtain ⟨base, below, rfl⟩ := level_at delegable.whole sits
  obtain ⟨owner, level, answer, leads, plain⟩ := delegable.link sits nearest
  rw [← fetches.proceeds.metaTable delegable.reachable.sound] at answer
  have asked : Exec.metaLink? base.cls .construct here =
      (.done (some ⟨.construct, owner, function.access, function⟩), here.keepMetaTable base.cls) := by
    rw [← answer]
    rfl
  obtain ⟨opens, after, reads, fetched⟩ :=
    ((delegable.later fetches).fetchable).fetches (fetches.leadsTo delegable.reachable leads) plain
      base.cls (place + 1) budget
  refine ⟨_, after, .of_same fetched.fetches fetched.contexts, fetched.keeps.made, ?_⟩
  unfold forwardToBase
  rw [get_bind_apply, fetches.level?, below]
  dsimp only
  rw [bind_of_done _ asked]
  dsimp only
  rw [get_bind_apply, bind_of_done _ opens]
  dsimp only
  exact bind_of_done _ reads

end

/-- A construction resolves the nearest constructor of the chain. -/
theorem resolve_some {target : Callable} (nearest : world.constructorFrom? id 0 = some target)
    (context : ContextId) (budget : Nat) :
    ∃ callable after, world.Enters context [] after ∧ after.callables.get? callable = some target ∧
      resolveConstructor (performUpTo (budget + 1)) id world = (.done callable, after) := by
  obtain ⟨⟨gap, function⟩, found, rfl⟩ := Option.map_eq_some_iff.mp nearest
  obtain ⟨owner, level, answer, leads, plain⟩ := delegable.link (world.ancestors_zero _) found
  obtain ⟨after, fetched, _, resolves⟩ :=
    hook_of_link delegable.fetchable leads plain answer budget context []
  exact ⟨_, after, .of_same fetched.fetches fetched.contexts, fetched.keeps.made, resolves rfl⟩

/-- On a chain without a constructor it makes one that does nothing. -/
theorem resolve_none (missing : world.constructorFrom? id 0 = none) (context : ContextId)
    (perform : Perform) :
    ∃ callable label after, world.Enters context [] after ∧
      after.callables.get? callable = some (.placeholder label) ∧
      resolveConstructor perform id world = (.done callable, after) := by
  have answer := delegable.construct_answer (world.ancestors_zero _)
  rw [Option.map_eq_none_iff.mp missing] at answer
  have asked : Exec.metaLink? (world.object id).cls .construct world =
      (.done none, world.keepMetaTable (world.object id).cls) := by
    unfold Exec.metaLink?
    rw [answer]
    rfl
  have kept : world.Fetches constructorName (world.keepMetaTable (world.object id).cls) :=
    .keepMetaTable world _
  have made := LeadsFreely.proceeds (newPlaceholder_leads
    ((world.keepMetaTable (world.object id).cls).cls (world.object id).cls).name)
    (world.keepMetaTable (world.object id).cls)
  refine ⟨_, _, _, .of_same (kept.trans (.of_stores made rfl)) ?_, Heap.get?_push_next _ _, ?_⟩
  · show (world.keepMetaTable (world.object id).cls).contexts = world.contexts
    rw [keepMetaTable_eq]
  · unfold resolveConstructor
    rw [get_bind_apply, bind_of_done _ asked]
    rfl

end Delegable

/-! ## Calls that come to one another -/

/-- What becomes of a request is what becomes of a run in another state, where a context has more
frames.  In the end the frames are given up. -/
structure ComesTo (world : World) (context : ContextId) (frames : List Frame) (request run : Exec Value)
    (there : World) : Prop where
  enters : world.Enters context frames there
  runs : request world =
    thenAlways run (·.withContext context (·.truncate (world.context context).depth)) there

/-- A function value is about to be called on a context without a limit. -/
structure AtHand (world : World) (context : ContextId) (callable : CallableId) (target : Callable) :
    Prop where
  alive : world.alive = true
  unlimited : (world.context context).limit = none
  held : world.callables.get? callable = some target

theorem Enters.atHand {first second : World} {context : ContextId} {frames : List Frame}
    (enters : first.Enters context frames second) (live : first.Live)
    (unlimited : (first.context context).limit = none) {callable : CallableId} {target : Callable}
    (held : second.callables.get? callable = some target) :
    second.AtHand context callable target where
  alive := (enters.fetches.proceeds.sound_continues live.1 live.2).2.alive.trans live.1
  unlimited := by
    rw [enters.entered]
    exact unlimited
  held := held

namespace ComesTo

variable {world between there : World} {context : ContextId} {first frames : List Frame}
  {request next run : Exec Value}

/-- A run that gives up what it pushed comes to itself. -/
theorem own (settles : request world =
    thenAlways run (·.withContext context (·.truncate (world.context context).depth)) world) :
    world.ComesTo context [] request run world :=
  ⟨.refl world, settles⟩

/-- What is done at once gives up nothing. -/
theorem done (world : World) (context : ContextId) (result : Value) :
    world.ComesTo context [] (Exec.done result) (Exec.done result) world := by
  refine .own (congrArg (Prod.mk _) (withContext_of_fixed world context ?_).symm)
  simp [Context.truncate]

theorem after (enters : world.Enters context first between)
    (begins : request world =
      thenAlways next (·.withContext context (·.truncate (world.context context).depth)) between)
    (comes : between.ComesTo context frames next run there) :
    world.ComesTo context (frames ++ first) request run there := by
  refine ⟨enters.trans comes.enters, ?_⟩
  rw [begins]
  unfold thenAlways
  rw [comes.runs]
  unfold thenAlways
  dsimp only
  rw [withContext_truncate]
  rw [enters.depth]
  exact Nat.le_add_left ..

end ComesTo

section

variable {here : World} {context : ContextId} {callable : CallableId} {target : Callable}
  (hand : here.AtHand context callable target)
include hand

/-- A call runs with its frame. -/
theorem AtHand.call_eq (budget : Nat) (args : List Value) :
    performUpTo (budget + 1) (.call callable args context) here =
      thenAlways (callBody target args context (performUpTo budget))
        (·.withContext context (·.truncate (here.context context).depth))
        (here.pushed context target.frame) := by
  have known : here.callables.get callable = target := by
    unfold Heap.get
    rw [hand.held]
    rfl
  show callFunction (performUpTo budget) callable args context here = _
  unfold callFunction
  rw [bind_of_done _ (requireAssembly_of_alive hand.alive), get_bind_apply, known]
  exact withFrame_of_unlimited _ _ hand.unlimited

/-- A call gives up what it pushed. -/
theorem AtHand.call_settles (budget : Nat) (args : List Value) :
    here.ComesTo context [] (performUpTo (budget + 1) (.call callable args context))
      (performUpTo (budget + 1) (.call callable args context)) here := by
  refine .own ?_
  unfold thenAlways
  rw [hand.call_eq]
  unfold thenAlways
  dsimp only
  rw [withContext_truncate _ _ (Nat.le_refl _)]

end

end World

theorem checkReturn_any (result : Value) (world : World) :
    checkReturn .any result world = (.done result, world) := by
  have accepted : Exec.coerce? .any result world = (.done (some result), world) := rfl
  unfold checkReturn
  rw [get_bind_apply]
  split
  · rfl
  · rw [bind_of_done _ accepted]
    rfl

theorem liveReceiver_of_alive {callable : Callable} {receiver : Receiver} {world : World}
    (bound : callable.receiver = some receiver)
    (living : (world.object receiver.owner).alive = true) :
    liveReceiver callable world = (.done (some receiver), world) := by
  unfold liveReceiver
  simp [bound, living]

/-- The body of a constructor that passes through is the call of the next one. -/
theorem callBody_passThrough {function : Function} (passes : function.passesThrough = true)
    {world : World} {receiver : Receiver} (living : (world.object receiver.owner).alive = true)
    (args : List Value) (context : ContextId) (perform : Perform) :
    callBody (.ofFunction function (some receiver)) args context perform world =
      forwardToBase perform receiver args context world := by
  unfold FunctionDecl.passesThrough at passes
  split at passes
  · next body returns =>
      have bound : requireReceiver (.ofFunction function (some receiver)) world =
          (.done receiver, world) := bind_of_done _ (liveReceiver_of_alive rfl living)
      have forwards : runBody perform (.ofFunction function (some receiver)) function.body args context
          world = forwardToBase perform receiver args context world := by
        rw [body]
        exact bind_of_done _ bound
      show (runBody perform _ function.body args context >>= checkReturn function.returns) world = _
      rw [bind_apply, forwards, returns]
      cases ends : forwardToBase perform receiver args context world with
      | mk outcome after =>
          cases outcome with
          | done result => exact checkReturn_any result after
          | failed fault => rfl
          | exhausted => rfl
  · cases passes

namespace World

theorem frame_of_constructor {function : Function} {name : String}
    (named : function.name = constructorName) (owned : function.owner = some (.ofClass name))
    (receiver : Option Receiver) :
    (Callable.ofFunction function receiver).frame = .construction name := by
  unfold Callable.frame Callable.ofFunction
  simp [FunctionDecl.isConstructor, named, owned, Owner.ofClass]

/-- The call of a constructor that passes through is that of the next one, with one more frame. -/
theorem AtHand.passes {here : World} {context : ContextId} {callable : CallableId}
    {function : Function} {receiver : Receiver} {name : String}
    (hand : here.AtHand context callable (.ofFunction function (some receiver)))
    (passes : function.passesThrough = true) (named : function.name = constructorName)
    (owned : function.owner = some (.ofClass name))
    (living : (here.object receiver.owner).alive = true) (args : List Value) (budget : Nat) :
    performUpTo (budget + 1) (.call callable args context) here =
      thenAlways (forwardToBase (performUpTo budget) receiver args context)
        (·.withContext context (·.truncate (here.context context).depth))
        (here.pushed context (.construction name)) := by
  have living : ((here.pushed context (.construction name)).object receiver.owner).alive = true :=
    living
  rw [hand.call_eq, frame_of_constructor named owned]
  unfold thenAlways
  rw [callBody_passThrough passes living]

/-- What a call comes to: the call of a function at hand, or nothing. -/
def Arrives (there : World) (context : ContextId) (budget : Nat) (args : List Value)
    (run : Exec Value) : Option Callable → Prop
  | some target => ∃ callable, there.AtHand context callable target ∧
      run = performUpTo (budget + 1) (.call callable args context)
  | none => run = Exec.done .null

section

variable {world here : World} {id : InstanceId} {context : ContextId} {callable : CallableId}
  {place : Nat} {cls : ClassId} {function : Function} (delegable : world.Delegable id)
  (passes : function.passesThrough = true) (declared : world.constructor? cls = some function)
  (fetches : world.Fetches constructorName here) (known : context.index < here.contexts.size)
  (hand : here.AtHand context callable (.ofFunction function (some ⟨id, place⟩)))
include delegable passes declared fetches known hand

/-- A constructor that passes through hands over, with its frame on the context. -/
theorem Delegable.pass (args : List Value) (budget : Nat) :
    ∃ entered, here.Enters context [.construction (world.cls cls).name] entered ∧
      performUpTo (budget + 1) (.call callable args context) here =
        thenAlways (forwardToBase (performUpTo budget) ⟨id, place⟩ args context)
          (·.withContext context (·.truncate (here.context context).depth)) entered := by
  obtain ⟨member, named⟩ := mem_of_constructor? declared
  have owned := delegable.reachable.sound.2.registered.owners cls function member
  have living : (here.object id).alive = true := by
    rw [fetches.object]
    exact delegable.living
  exact ⟨_, .push here _ known, hand.passes passes named owned living args budget⟩

/-- The last constructor does nothing when it passes through. -/
theorem Delegable.pass_none (next : world.constructorFrom? id (place + 1) = none)
    (args : List Value) (budget : Nat) :
    ∃ there, here.ComesTo context [.construction (world.cls cls).name]
      (performUpTo (budget + 1) (.call callable args context)) (Exec.done .null) there := by
  obtain ⟨entered, enters, calls⟩ :=
    delegable.pass passes declared fetches known hand args budget
  obtain ⟨there, fetched, forwards⟩ :=
    delegable.forward_none (fetches.trans enters.fetches) args context next (performUpTo budget)
  refine ⟨there, .after (enters.trans fetched) ?_ (.done there context .null)⟩
  rw [calls]
  unfold thenAlways
  rw [forwards]
  rfl

/-- Any other comes to the call of the next one. -/
theorem Delegable.pass_some {target : Callable}
    (next : world.constructorFrom? id (place + 1) = some target) (args : List Value)
    (budget : Nat) :
    ∃ callable' after, here.Enters context [.construction (world.cls cls).name] after ∧
      after.AtHand context callable' target ∧
      performUpTo (budget + 1 + 1) (.call callable args context) here =
        thenAlways (performUpTo (budget + 1) (.call callable' args context))
          (·.withContext context (·.truncate (here.context context).depth)) after := by
  obtain ⟨entered, enters, calls⟩ :=
    delegable.pass passes declared fetches known hand args (budget + 1)
  obtain ⟨callable', after, fetched, held, forwards⟩ :=
    delegable.forward_some (fetches.trans enters.fetches) args context next budget
  have within := enters.trans fetched
  refine ⟨callable', after, within, ?_, ?_⟩
  · exact within.atHand (delegable.later fetches).reachable.sound hand.unlimited held
  · rw [calls]
    unfold thenAlways
    rw [forwards]

end

/-- The call of a constructor comes to that of the first one further down which is not among those
that are known to pass through, with a frame for each of these. -/
theorem Delegable.descends {world : World} {id : InstanceId} (delegable : world.Delegable id)
    {context : ContextId} (args : List Value) (budget : Nat) {above below : List ClassId}
    (pass : world.PassThrough above) {place : Nat}
    (chain : (world.ancestors (world.object id).cls).drop place = above ++ below)
    {target : Callable} (nearest : world.constructorFrom? id place = some target)
    {here : World} (fetches : world.Fetches constructorName here)
    (known : context.index < here.contexts.size) {callable : CallableId}
    (hand : here.AtHand context callable target) :
    ∃ run there, there.Arrives context budget args run
        (world.constructorFrom? id (place + above.length)) ∧
      here.ComesTo context (world.passed above)
        (performUpTo (budget + 1 + (world.passed above).length) (.call callable args context))
        run there := by
  induction above generalizing place target here callable with
  | nil =>
      refine ⟨_, here, ?_, hand.call_settles budget args⟩
      rw [List.length_nil, Nat.add_zero place, nearest]
      exact ⟨callable, hand, rfl⟩
  | cons cls rest ih =>
      have onward : (world.ancestors (world.object id).cls).drop (place + 1) = rest ++ below := by
        rw [← List.tail_drop, chain]
        rfl
      have further : place + (cls :: rest).length = place + 1 + rest.length := by
        rw [List.length_cons]
        omega
      have ih := @ih (fun other member => pass other (List.mem_cons_of_mem cls member)) (place + 1)
        onward
      rw [further]
      cases declared : world.constructor? cls with
      | none =>
          -- the class is passed over: the same constructor is the nearest one from the next class on
          rw [constructorFrom?_of_none chain declared] at nearest
          have same : world.passed (cls :: rest) = world.passed rest := by
            rw [passed, declared]
          rw [same]
          exact ih nearest fetches known hand
      | some function =>
          rw [constructorFrom?_of_some chain declared] at nearest
          cases nearest
          have passes := pass cls List.mem_cons_self function declared
          have frames : world.passed (cls :: rest) =
              world.passed rest ++ [.construction (world.cls cls).name] := by
            rw [passed, declared]
          have depths : budget + 1 + (world.passed (cls :: rest)).length =
              budget + (world.passed rest).length + 1 + 1 := by
            rw [frames, List.length_append, List.length_singleton]
            omega
          rw [depths, frames]
          cases next : world.constructorFrom? id (place + 1) with
          | none =>
              obtain ⟨bare, bottom⟩ := passed_of_constructorFrom?_none onward next
              obtain ⟨there, comes⟩ := delegable.pass_none passes declared fetches known hand next args
                (budget + (world.passed rest).length + 1)
              rw [bottom, bare]
              rw [bare] at comes
              exact ⟨_, there, rfl, comes⟩
          | some target =>
              obtain ⟨callable', after, enters, ready, calls⟩ := delegable.pass_some passes declared
                fetches known hand next args (budget + (world.passed rest).length)
              obtain ⟨run, there, arrives, comes⟩ :=
                ih next (fetches.trans enters.fetches) (enters.size ▸ known) ready
              rw [show budget + 1 + (world.passed rest).length =
                budget + (world.passed rest).length + 1 by omega] at comes
              exact ⟨run, there, arrives, .after enters calls comes⟩

/-! ## Sessions -/

/-- In a settled session in which no class was asked for its meta-functions before, constructors can
be fetched along every chain. -/
theorem Settled.delegable {start world : World} (settled : start.Settled)
    (reachable : Reachable start) (unasked : ∀ cls, (start.cls cls).metaTable = none)
    (proceeds : Proceeds start world) {id : InstanceId} (inside : id.index < world.instances.size)
    (living : (world.object id).alive = true) (unhidden : world.Unhidden id constructorName)
    (plain : ∀ cls ∈ world.ancestors (world.object id).cls, ∀ function ∈ world.constructor? cls,
      function.annotations = []) : world.Delegable id where
  reachable := .proceed reachable proceeds
  living := living
  whole := (settled.proceed proceeds).whole id inside
  chain := by
    by_cases known : (world.object id).cls.index < world.classes.size
    · exact (settled.proceed proceeds).hierarchical.chain known
    · have beyond := Nat.le_of_not_lt known
      rw [ancestors_beyond beyond]
      exact .last (base?_beyond beyond)
  unhidden := unhidden
  plain := plain
  answers cls _ := by
    have same := (settled.ready.continues proceeds).hierarchy
    have built : start.metaTable cls = start.buildMetaTable cls := by
      unfold metaTable
      rw [unasked]
      rfl
    rw [proceeds.metaTable reachable.sound, built, get?_buildMetaTable, same.metaLink?,
      if_pos (mem_metaKeys.mpr fun hook => absurd hook (by decide))]

/-! ## The constructor step -/

/-- On an instance without annotations the constructor step is the call of what it resolves. -/
theorem callConstructor_eq {world after : World} {id : InstanceId} {callable : CallableId}
    {perform : Perform}
    (resolves : resolveConstructor perform id world = (.done callable, after))
    (bare : (after.object id).annotations = []) {context : ContextId}
    (unlimited : (after.context context).limit = none) (args : List Value) :
    callConstructor perform id args context world =
      (perform (.call callable args context) >>= fun _ => pure ()) after := by
  have phase : ∀ frame, withFrame context frame (preConstruct perform id context args []) after =
      (.done args, after) := by
    intro frame
    rw [withFrame_of_unlimited frame _ unlimited]
    exact congrArg (Prod.mk _) (after.pushed_truncate context frame)
  unfold callConstructor
  rw [bind_of_done _ resolves, get_bind_apply, get_bind_apply, bare, bind_of_done _ (phase _)]
  rfl

/-- A constructor of nothing does nothing. -/
theorem AtHand.placeholder {here : World} {context : ContextId} {callable : CallableId}
    {label : String} (hand : here.AtHand context callable (.placeholder label)) (args : List Value)
    (budget : Nat) :
    performUpTo (budget + 1) (.call callable args context) here = (.done .null, here) := by
  rw [hand.call_eq]
  exact congrArg (Prod.mk _) (here.pushed_truncate context _)

/-- The constructor step passes the constructors that are known to pass through. -/
theorem Delegable.constructs {world : World} {id : InstanceId} (delegable : world.Delegable id)
    (bare : (world.object id).annotations = []) {context : ContextId}
    (known : context.index < world.contexts.size)
    (unlimited : (world.context context).limit = none) (args : List Value) (budget : Nat)
    {above below : List ClassId}
    (chain : world.ancestors (world.object id).cls = above ++ below)
    (pass : world.PassThrough above) :
    ∃ run there, there.Arrives context budget args run (world.constructorFrom? id above.length) ∧
      world.Enters context (world.passed above) there ∧
      callConstructor (performUpTo (budget + 1 + (world.passed above).length)) id args context world =
        (thenAlways run (·.withContext context (·.truncate (world.context context).depth)) >>=
          fun _ => pure ()) there := by
  have depths : budget + 1 + (world.passed above).length =
      budget + (world.passed above).length + 1 := by omega
  have live := delegable.reachable.sound
  have begins : (world.ancestors (world.object id).cls).drop 0 = above ++ below := chain
  cases nearest : world.constructorFrom? id 0 with
  | some target =>
      obtain ⟨callable, after, resolved, held, resolves⟩ :=
        delegable.resolve_some nearest context (budget + (world.passed above).length)
      have hand := resolved.atHand live unlimited held
      obtain ⟨run, there, arrives, comes⟩ := delegable.descends args budget pass begins nearest
        resolved.fetches (resolved.size ▸ known) hand
      rw [Nat.zero_add] at arrives
      refine ⟨run, there, arrives, ?_, ?_⟩
      · have enters := resolved.trans comes.enters
        rwa [List.append_nil] at enters
      · rw [depths, callConstructor_eq resolves ?_ hand.unlimited, ← depths, bind_apply, comes.runs,
          resolved.depth, List.length_nil, Nat.zero_add]
        · rfl
        · rw [resolved.fetches.object]
          exact bare
  | none =>
      obtain ⟨none, bottom⟩ := passed_of_constructorFrom?_none begins nearest
      rw [Nat.zero_add] at bottom
      obtain ⟨callable, label, after, resolved, held, resolves⟩ :=
        delegable.resolve_none nearest context (performUpTo (budget + 1))
      have hand := resolved.atHand live unlimited held
      rw [none, bottom]
      refine ⟨Exec.done .null, after, rfl, resolved, ?_⟩
      rw [List.length_nil, Nat.add_zero (budget + 1), callConstructor_eq resolves ?_ hand.unlimited,
        bind_of_done _ (hand.placeholder args budget)]
      · have settles := (ComesTo.done after context .null).runs
        rw [resolved.depth, List.length_nil, Nat.zero_add] at settles
        rw [bind_apply, ← settles]
        rfl
      · rw [resolved.fetches.object]
        exact bare

/-- The constructor step of a construction is the call of a function, bound to the level below those
of some classes, with the arguments of the construction and a frame for each constructor of these
classes.  It ends as the call does, and gives up the frames. -/
def DelegatesTo (world : World) (id : InstanceId) (context : ContextId) (args : List Value)
    (budget : Nat) (above : List ClassId) (function : Function) : Prop :=
  ∃ callable here, world.Enters context (world.passed above) here ∧
    here.callables.get? callable = some (.ofFunction function (some ⟨id, above.length⟩)) ∧
    callConstructor (performUpTo (budget + 1 + (world.passed above).length)) id args context world =
      (thenAlways (performUpTo (budget + 1) (.call callable args context))
        (·.withContext context (·.truncate (world.context context).depth)) >>= fun _ => pure ()) here

/-- The constructor step runs the most derived constructor of the chain that does not pass through:
once, bound to the level of its class, with the arguments of the construction and a frame for each
constructor above it, and ends as it does.  If they all pass through, or there are none, it does
nothing.  A class of which a field has the name of constructors has none. -/
theorem constructor_delegates {world : World} {id : InstanceId} (delegable : world.Delegable id)
    (bare : (world.object id).annotations = []) {context : ContextId}
    (known : context.index < world.contexts.size)
    (unlimited : (world.context context).limit = none) (args : List Value) (budget : Nat) :
    (∀ above cls below function,
      world.ancestors (world.object id).cls = above ++ cls :: below → world.PassThrough above →
      world.constructor? cls = some function →
      world.DelegatesTo id context args budget above function ∧
        ∃ level, world.level? id above.length = some level ∧ level.cls = cls) ∧
    (world.PassThrough (world.ancestors (world.object id).cls) →
      ∃ after, world.Enters context [] after ∧
        callConstructor (performUpTo (budget + 1 +
            (world.passed (world.ancestors (world.object id).cls)).length)) id args context world =
          (.done (), after)) ∧
    ∀ cls, ((world.cls cls).field? constructorName).isSome → world.constructor? cls = none := by
  refine ⟨?_, ?_, ?_⟩
  · intro above cls below function chain pass declared
    obtain ⟨run, there, arrives, enters, constructs⟩ :=
      delegable.constructs bare known unlimited args budget chain pass
    have sits : (world.ancestors (world.object id).cls).drop above.length = cls :: below := by
      rw [chain, List.drop_left]
    rw [constructorFrom?_of_some sits declared] at arrives
    obtain ⟨callable, hand, rfl⟩ := arrives
    refine ⟨⟨callable, there, enters, hand.held, constructs⟩, level_at delegable.whole ?_⟩
    rw [← List.head?_drop, sits]
    rfl
  · intro pass
    obtain ⟨run, there, arrives, enters, constructs⟩ :=
      delegable.constructs bare known unlimited args budget (List.append_nil _).symm pass
    have bottom : world.constructorFrom? id (world.ancestors (world.object id).cls).length = none := by
      unfold constructorFrom?
      rw [List.drop_length]
      rfl
    rw [bottom] at arrives
    rw [arrives] at constructs
    exact ⟨_, enters.leave known, constructs⟩
  · intro cls field
    by_contra declared
    obtain ⟨function, declared⟩ := Option.ne_none_iff_exists'.mp declared
    obtain ⟨member, named⟩ := mem_of_constructor? declared
    have bare := delegable.reachable.sound.2.registered.field?_of_function member
    rw [named] at bare
    rw [bare] at field
    cases field

/-- A class that extends two others without a constructor of their own, one because a field has the
name, and a class that declares one. -/
def relaySpecs : List ClassSpec :=
  [bareClass "Root" none [] [bareFunction "constructor" (.throw "refused")],
   bareClass "Skip" (some "Root") [bareField "constructor" none] [],
   bareClass "Mid" (some "Skip") [] [],
   bareClass "Leaf" (some "Mid") [] []]

/-- The state after an instance of the most derived class was allocated. -/
def relayState : World := sampleBefore relaySpecs ⟨3⟩

theorem delegable_relay : relayState.Delegable ⟨0⟩ := by
  have alive : (defining default relaySpecs).alive = true := by decide +kernel
  have settled : (sampleStart relaySpecs).Settled :=
    .of_validate (reachable_defining default relaySpecs) rfl
      (distinctHashes_of_nodup (by decide +kernel)) (.of_none (by decide +kernel))
  have checked : (sampleStart relaySpecs).classes.toList.all (·.metaTable.isNone) = true := by
    decide +kernel
  have unasked : ∀ cls, ((sampleStart relaySpecs).cls cls).metaTable = none :=
    @Heap.get_of_all _ _ _ (sampleStart relaySpecs).classes (·.metaTable = none)
      (fun cls member => Option.isNone_iff_eq_none.mp (List.all_eq_true.mp checked cls member)) rfl
  have proceeds : Proceeds (sampleStart relaySpecs) relayState :=
    LeadsFreely.proceeds (newInstance_leads ⟨3⟩ .standard) (sampleStart relaySpecs)
  exact settled.delegable (reachable_sampleStart relaySpecs) unasked proceeds (by decide +kernel)
    (by decide +kernel) (unhidden_of_check (by decide +kernel)) (by decide +kernel)

theorem constructor_delegates_relay :
    relayState.passed [⟨3⟩, ⟨2⟩, ⟨1⟩] = [.construction "Mid", .construction "Leaf"] ∧
    (∃ function, relayState.constructor? ⟨0⟩ = some function ∧
      relayState.DelegatesTo ⟨0⟩ ownContext [.int 5] 5 [⟨3⟩, ⟨2⟩, ⟨1⟩] function) ∧
    (callConstructor (performUpTo 8) ⟨0⟩ [.int 5] ownContext relayState).1.fault? =
      some (.script "refused") := by
  have declared : (relayState.constructor? ⟨0⟩).isSome = true := by decide +kernel
  obtain ⟨function, declared⟩ := Option.isSome_iff_exists.mp declared
  have cls : (relayState.object ⟨0⟩).cls = ⟨3⟩ := by decide +kernel
  have chain : relayState.ancestors (relayState.object ⟨0⟩).cls =
      [⟨3⟩, ⟨2⟩, ⟨1⟩] ++ ⟨0⟩ :: [] := by decide +kernel
  have pass : relayState.PassThrough [⟨3⟩, ⟨2⟩, ⟨1⟩] := by
    unfold PassThrough
    decide +kernel
  have known : ownContext.index < relayState.contexts.size := by decide +kernel
  have unlimited : (relayState.context ownContext).limit = none := by decide +kernel
  have runs := (constructor_delegates delegable_relay (List.isEmpty_iff.mp (by decide +kernel))
    known unlimited [.int 5] 5).1 _ _ _ function chain pass declared
  exact ⟨by decide +kernel, ⟨function, declared, runs.1⟩, by decide +kernel⟩

/-! ## A constructor that is asked for early -/

end World

/-- What a function throws at once. -/
def FunctionDecl.thrown? {ρ : Type} (function : FunctionDecl ρ) : Option String :=
  match function.body with
  | .script (.throw message) => some message
  | _ => none

theorem FunctionDecl.body_of_thrown? {ρ : Type} {function : FunctionDecl ρ} {message : String}
    (throws : function.thrown? = some message) : function.body = .script (.throw message) := by
  unfold thrown? at throws
  split at throws
  · next body => rw [body, Option.some.inj throws]
  · cases throws

namespace World

/-- The call of a function that throws fails. -/
theorem AtHand.throws {here : World} {context : ContextId} {callable : CallableId}
    {function : Function} {receiver : Receiver} {message : String}
    (hand : here.AtHand context callable (.ofFunction function (some receiver)))
    (body : function.body = .script (.throw message))
    (living : (here.object receiver.owner).alive = true) (args : List Value) (budget : Nat) :
    (performUpTo (budget + 1) (.call callable args context) here).1 = .failed (.script message) := by
  let callable := Callable.ofFunction function (some receiver)
  let entered := here.pushed context callable.frame
  have living : (entered.object receiver.owner).alive = true := living
  have bound : liveReceiver callable entered = (.done (some receiver), entered) :=
    liveReceiver_of_alive rfl living
  have throws : runBody (performUpTo budget) callable function.body args context entered =
      (.failed (.script message), entered) := by
    rw [body]
    exact bind_of_done _ bound
  rw [hand.call_eq]
  exact congrArg Prod.fst (bind_of_failed (checkReturn function.returns) throws)

/-- The constructor step fails if the function it runs throws. -/
theorem DelegatesTo.throws {world : World} {id : InstanceId} {context : ContextId}
    {args : List Value} {budget : Nat} {above : List ClassId} {function : Function}
    {message : String} (delegates : world.DelegatesTo id context args budget above function)
    (live : world.Live) (unlimited : (world.context context).limit = none)
    (living : (world.object id).alive = true) (body : function.body = .script (.throw message)) :
    (callConstructor (performUpTo (budget + 1 + (world.passed above).length)) id args context
      world).1 = .failed (.script message) := by
  obtain ⟨callable, here, enters, held, constructs⟩ := delegates
  have hand := enters.atHand live unlimited held
  have living : (here.object id).alive = true := by
    rw [enters.fetches.object]
    exact living
  have fails : thenAlways (performUpTo (budget + 1) (.call callable args context))
      (·.withContext context (·.truncate (world.context context).depth)) here =
        (.failed (.script message), _) :=
    Prod.ext (hand.throws body living args budget) rfl
  rw [constructs, bind_of_failed _ fails]

/-- An instance of a class whose base was registered after the class was asked for its constructor. -/
def missedState : World :=
  (newInstance ⟨0⟩ .standard (validate.run
    (((defining default [bareClass "C" (some "B") [bareField "constructor" none] []]).keepMetaTable
      ⟨0⟩).orDefine (bareClass "B" none [] [bareFunction "constructor" (.throw "refused")]))).2).2

theorem reachable_missed : Reachable missedState :=
  .proceed (((reachable_defining default _).keepMetaTable ⟨0⟩).orDefine _)
    ((validate_onlyFollows _).proceeds.trans
      (LeadsFreely.proceeds (newInstance_leads ⟨0⟩ .standard) _))

theorem constructible_missed : missedState.Constructible ⟨0⟩ where
  reachable := reachable_missed
  living := by decide +kernel
  whole := by decide +kernel
  chain := by
    have cls : (missedState.object ⟨0⟩).cls = ⟨0⟩ := by decide +kernel
    have ancestors : missedState.ancestors ⟨0⟩ = [⟨0⟩, ⟨1⟩] := by decide +kernel
    rw [cls, ancestors]
    exact .step (by decide +kernel) (.last (by decide +kernel))
  unhidden := unhidden_of_check (by decide +kernel)
  plain := by decide +kernel

/-- The constructor of the base is not run. -/
theorem constructor_missed : ¬ ∀ world id, (Session.validate world).1 = .done (.ok ()) →
    world.Constructible id → (world.object id).annotations = [] →
    ∀ context : ContextId, context.index < world.contexts.size →
      (world.context context).limit = none →
    ∀ args budget above cls below function,
      world.ancestors (world.object id).cls = above ++ cls :: below → world.PassThrough above →
      world.constructor? cls = some function → function.passesThrough = false →
      world.DelegatesTo id context args budget above function := by
  intro claim
  have valid : (Session.validate missedState).1 = .done (.ok ()) := by
    rw [validate_of_alive (by decide +kernel)]
    exact congrArg Outcome.done (by decide +kernel)
  have declared : (missedState.constructor? ⟨1⟩).any (fun function =>
      function.thrown? = some "refused" && !function.passesThrough) = true := by decide +kernel
  obtain ⟨function, declared, throws⟩ := (Option.any_eq_true _ _).mp declared
  rw [Bool.and_eq_true, decide_eq_true_eq, Bool.not_eq_true'] at throws
  have body := function.body_of_thrown? throws.1
  have unlimited : (missedState.context ownContext).limit = none := by decide +kernel
  have pass : missedState.PassThrough [⟨0⟩] := by
    unfold PassThrough
    decide +kernel
  have delegates := claim missedState ⟨0⟩ valid constructible_missed
    (List.isEmpty_iff.mp (by decide +kernel)) ownContext (by decide +kernel) unlimited [] 5 [⟨0⟩]
    ⟨1⟩ [] function (by decide +kernel) pass declared throws.2
  have fails := delegates.throws reachable_missed.sound unlimited constructible_missed.living body
  have done : (callConstructor (performUpTo (5 + 1 + (missedState.passed [⟨0⟩]).length)) ⟨0⟩ []
      ownContext missedState).1.result? = some () := by decide +kernel
  rw [fails] at done
  cases done

end World

end ScriptObjects
