import ScriptObjects.Proofs.Permanence
import ScriptObjects.Proofs.Runs

/-!
# Every run evolves the state

Whatever a run does is made of the changes that are listed for runs.  The activities
are taken one by one, each in terms of the requests nested in it, and the machine
closes the circle: by induction on the budget, every request evolves the state.

Bodies must be permitted to declare the names they mention, and all instances that do
not exist yet must be open, so that whatever is allocated on the way can be
constructed.
-/

namespace ScriptObjects

set_option autoImplicit false

/-! ## Bodies stay permitted -/

namespace World

theorem mem_of_acceptedFunction? {name : String} {accepts : Function → Bool} {cls : ClassDef}
    {function : Function} (found : cls.acceptedFunction? name accepts = some function) :
    function ∈ cls.functions ∧ function.name = name ∧ accepts function = true := by
  unfold ClassDef.acceptedFunction? ClassDef.function? at found
  rw [Option.filter_eq_some_iff] at found
  obtain ⟨first, accepted⟩ := found
  exact ⟨List.mem_of_find?_eq_some first, by simpa using List.find?_some first, accepted⟩

theorem nearest?_eq_some {α : Type} {world : World} {id : ClassId}
    {question : ClassDef → Option α} {answer : α} (found : world.nearest? id question = some answer) :
    ∃ ancestor ∈ world.ancestors id, question (world.cls ancestor) = some answer :=
  List.exists_of_findSome?_eq_some found

/-- A class stands first on its chain. -/
theorem head_ancestors (world : World) (id : ClassId) : [id] <+: world.ancestors id := by
  unfold ancestors
  rw [walk, if_neg List.not_mem_nil]
  exact ⟨_, rfl⟩

theorem levelFunction?_declared {world : World} {cls : ClassId} {tier : Access} {name : String}
    {function : Function} (found : world.levelFunction? cls tier name = some function) :
    ∃ id ∈ world.ancestors cls, function ∈ (world.cls id).functions ∧ function.name = name ∧
      function.access = tier := by
  unfold levelFunction? at found
  split at found
  · obtain ⟨member, named, accepted⟩ := mem_of_acceptedFunction? found
    have along := (world.head_ancestors cls).subset (List.mem_singleton_self cls)
    exact ⟨cls, along, member, named, by simpa using accepted⟩
  · obtain ⟨id, along, answer⟩ := nearest?_eq_some found
    obtain ⟨member, named, accepted⟩ := mem_of_acceptedFunction? answer
    exact ⟨id, along, member, named, by simpa using accepted⟩

/-- What a store offers under a name is a declared function of that name. -/
theorem offer?_declared {world : World} {store : StoreId} {name : String} {function : Function}
    {receiver : Option Receiver} (offered : world.offer? store name = some (function, receiver)) :
    (function ∈ world.functions ∨ ∃ id, function ∈ (world.cls id).functions) ∧
      function.name = name := by
  unfold offer? at offered
  split at offered
  · cases offered
  · rw [Option.map_eq_some_iff] at offered
    obtain ⟨found, nearest, same⟩ := offered
    cases same
    obtain ⟨id, _, member, named, _⟩ := levelFunction?_declared nearest
    exact ⟨.inr ⟨id, member⟩, named⟩
  · rw [Option.map_eq_some_iff] at offered
    obtain ⟨found, first, same⟩ := offered
    cases same
    rw [Option.filter_eq_some_iff] at first
    exact ⟨.inl (List.mem_of_find?_eq_some first.1), by simpa using List.find?_some first.1⟩

/-- The bodies in a state are of some kind: those of each registered class, of each function of the
assembly and of each function value. -/
structure AllBodies (kind : List Expr → Prop) (world : World) : Prop where
  classes : ∀ id, kind (world.cls id).bodies
  functions : ∀ function ∈ world.functions, kind function.bodies
  callables : ∀ callable function, (world.callables.get callable).function = some function →
    kind function.bodies

namespace AllBodies

variable {kind : List Expr → Prop} {before after : World}

theorem of_continues (all : before.AllBodies kind) (continues : before.Continues after)
    (values : ∀ callable function, (after.callables.get callable).function = some function →
      (before.callables.get callable).function = some function ∨ kind function.bodies) :
    after.AllBodies kind where
  classes id := by
    rw [continues.hierarchy.ask ClassDef.bodies fun _ => rfl]
    exact all.classes id
  functions := by
    rw [continues.functions]
    exact all.functions
  callables callable function held := by
    obtain old | kept := values callable function held
    · exact all.callables callable function old
    · exact kept

theorem offered (all : before.AllBodies kind)
    (fewer : ∀ {bodies some}, kind bodies → (∀ body ∈ some, body ∈ bodies) → kind some)
    {store : StoreId} {name : String} {function : Function} {receiver : Option Receiver}
    (offered : before.offer? store name = some (function, receiver)) : kind function.bodies := by
  obtain ⟨global | ⟨id, member⟩, _⟩ := offer?_declared offered
  · exact all.functions function global
  · exact fewer (all.classes id) (ClassDef.function_bodies member)

end AllBodies

theorem permits_iff {may : String → Prop} {world : World} :
    world.Permits may ↔ world.AllBodies (DeclareOnly may) :=
  ⟨fun permits => ⟨permits.classes, permits.functions, permits.callables⟩,
    fun all => ⟨all.classes, all.functions, all.callables⟩⟩

theorem Permits.offered {may : String → Prop} {world : World} (permits : world.Permits may)
    {store : StoreId} {name : String} {function : Function} {receiver : Option Receiver}
    (offered : world.offer? store name = some (function, receiver)) :
    DeclareOnly may function.bodies :=
  (permits_iff.mp permits).offered DeclareOnly.of_subset offered

theorem Permits.field {may : String → Prop} {world : World} (permits : world.Permits may)
    {id : ClassId} {field : Field} (member : field ∈ (world.cls id).fields) :
    DeclareOnly may field.bodies :=
  (permits.classes id).of_subset (ClassDef.field_bodies member)

/-- All instances that do not exist yet are open. -/
def Opens (opened : InstanceId → Prop) (world : World) : Prop :=
  ∀ id : InstanceId, world.instances.size ≤ id.index → opened id

theorem Opens.later {opened : InstanceId → Prop} {before after : World}
    (opens : before.Opens opened) (continues : before.Continues after) : after.Opens opened :=
  fun id beyond => opens id (Nat.le_trans continues.instances beyond)

end World

/-- A function value is as old as the state, stands in for a constructor, or was made of what a
store offered. -/
theorem Change.callable_cases {may : String → Prop} {opened : InstanceId → Prop}
    {first second : World} (change : Change may opened first second) (callable : CallableId) :
    second.callables.get callable = first.callables.get callable ∨
      (second.callables.get callable).function = none ∨
      ∃ store name function receiver, first.offer? store name = some (function, receiver) ∧
        second.callables.get callable = .ofFunction function receiver := by
  cases change with
  | placeholder className =>
      rw [Heap.get_push]
      split
      · exact .inr (.inl rfl)
      · exact .inl rfl
  | callable store name function receiver offered =>
      rw [Heap.get_push]
      split
      · exact .inr (.inr ⟨store, name, function, receiver, offered, rfl⟩)
      · exact .inl rfl
  | touch reference =>
      rw [World.touchRef_eq]
      exact .inl rfl
  | allocate id =>
      have same : (first.allocate id).callables = first.callables := by
        simp only [World.allocate]
        rw [World.lay_eq]
      rw [same]
      exact .inl rfl
  | table | setTable | host | setHost | context | metaTable | install | declare | field | write
  | annotate | bindFallback | bindLevel | adopt | openView | attach | mark | save | record =>
      exact .inl rfl

/-- A function value is as old as the state, or its function was on offer. -/
theorem Change.offered {may : String → Prop} {opened : InstanceId → Prop} {first second : World}
    (change : Change may opened first second) {callable : CallableId} {function : Function}
    (held : (second.callables.get callable).function = some function) :
    (first.callables.get callable).function = some function ∨
      ∃ store name receiver, first.offer? store name = some (function, receiver) := by
  obtain same | missing | ⟨store, name, made, receiver, offered, same⟩ :=
    change.callable_cases callable
  · exact .inl (same ▸ held)
  · rw [missing] at held
    cases held
  · rw [same] at held
    cases held
    exact .inr ⟨store, name, receiver, offered⟩

/-- What holds of some bodies whenever it holds of more holds of all bodies after every run if it
does before. -/
theorem Evolves.allBodies {may : String → Prop} {opened : InstanceId → Prop} {first second : World}
    {kind : List Expr → Prop}
    (fewer : ∀ {bodies some}, kind bodies → (∀ body ∈ some, body ∈ bodies) → kind some)
    (evolves : Evolves may opened first second) :
    first.AllBodies kind → second.AllBodies kind := by
  refine evolves.lift (motive := fun first second => first.AllBodies kind → second.AllBodies kind)
    (fun _ all => all) (fun one two all => two (one all)) (fun change all => ?_) ?_ ?_
  · exact all.of_continues change.continues fun _ _ held =>
      (change.offered held).imp_right fun ⟨_, _, _, offered⟩ => all.offered fewer offered
  · intro second third context frame deeper _ inside all
    have pushed := inside ⟨all.classes, all.functions, all.callables⟩
    exact ⟨pushed.classes, pushed.functions, pushed.callables⟩
  · intro second third store callable function receiver _ _ _ inside all
    have installed := inside ⟨all.classes, all.functions, all.callables⟩
    exact ⟨installed.classes, installed.functions, installed.callables⟩

theorem Evolves.permits {may : String → Prop} {opened : InstanceId → Prop} {first second : World}
    (evolves : Evolves may opened first second) (permits : first.Permits may) :
    second.Permits may :=
  World.permits_iff.mpr (evolves.allBodies DeclareOnly.of_subset (World.permits_iff.mp permits))

/-! ## Composing runs -/

namespace Exec

/-- A run evolves one state. -/
def LeadsAt (may : String → Prop) (opened : InstanceId → Prop) {α : Type} (run : Exec α)
    (world : World) : Prop :=
  world.Permits may → world.Opens opened → Evolves may opened world (run world).2

/-- A run evolves every state. -/
def Leads (may : String → Prop) (opened : InstanceId → Prop) {α : Type} (run : Exec α) : Prop :=
  ∀ world, LeadsAt may opened run world

variable {may : String → Prop} {opened : InstanceId → Prop} {α β : Type}

theorem LeadsAt.of_change {run : Exec α} {world : World}
    (change : Change may opened world (run world).2) : LeadsAt may opened run world :=
  fun _ _ => .single change

theorem LeadsAt.of_same {run : Exec α} {world : World} (same : (run world).2 = world) :
    LeadsAt may opened run world := by
  intro _ _
  rw [same]
  exact .refl world

theorem LeadsAt.bind {run : Exec α} {next : α → Exec β} {world : World}
    (first : LeadsAt may opened run world)
    (second : ∀ result after, run world = (.done result, after) →
      Evolves may opened world after → LeadsAt may opened (next result) after) :
    LeadsAt may opened (run >>= next) world := by
  intro permits opens
  have evolves := first permits opens
  rw [bind_apply]
  rcases ends : run world with ⟨outcome, after⟩
  rw [ends] at evolves
  cases outcome with
  | done result =>
      have later := second result after ends evolves (evolves.permits permits)
        (opens.later evolves.continues)
      exact evolves.trans later
  | failed fault => exact evolves
  | exhausted => exact evolves

theorem LeadsAt.of_get {next : World → Exec β} {world : World}
    (second : LeadsAt may opened (next world) world) :
    LeadsAt may opened ((get : Exec World) >>= next) world :=
  second

namespace Leads

theorem pure (result : α) : Leads may opened (pure result : Exec α) :=
  fun _ => .of_same rfl

theorem throw (fault : Fault) : Leads may opened (throw fault : Exec α) :=
  fun _ => .of_same rfl

theorem ask (question : World → α) : Leads may opened (Exec.ask question) :=
  fun _ => .of_same rfl

theorem exhaust : Leads may opened (Exec.exhaust : Exec α) :=
  fun _ => .of_same rfl

theorem change {update : World → World} (one : ∀ world, Change may opened world (update world)) :
    Leads may opened (Exec.change update) :=
  fun world => .of_change (one world)

theorem bind {run : Exec α} {next : α → Exec β} (first : Leads may opened run)
    (second : ∀ result, Leads may opened (next result)) : Leads may opened (run >>= next) :=
  fun world => (first world).bind fun result after _ _ => second result after

theorem of_get {next : World → Exec β} (second : ∀ seen, Leads may opened (next seen)) :
    Leads may opened ((get : Exec World) >>= next) :=
  fun world => second world world

theorem attempt {run : Exec α} (first : Leads may opened run) :
    Leads may opened (Exec.attempt run) := by
  intro world permits opens
  have evolves := first world permits opens
  unfold Exec.attempt
  rcases ends : run world with ⟨outcome, after⟩
  rw [ends] at evolves
  cases outcome <;> exact evolves

theorem wrapFault {wrap : Fault → Fault} {run : Exec α} (first : Leads may opened run) :
    Leads may opened (Exec.wrapFault wrap run) := by
  intro world permits opens
  have evolves := first world permits opens
  unfold Exec.wrapFault
  rcases ends : run world with ⟨outcome, after⟩
  rw [ends] at evolves
  cases outcome <;> exact evolves

/-- A run with one more frame evolves the state when the run itself does. -/
theorem withFrame {run : Exec α} (context : ContextId) (frame : Frame)
    (first : Leads may opened run) : Leads may opened (Exec.withFrame context frame run) := by
  intro world permits opens
  cases pushed : (world.context context).push? frame with
  | error limit =>
      rw [withFrame_of_full run pushed]
      exact .refl world
  | ok deeper =>
      rw [withFrame_of_pushed run rfl pushed]
      have inside := first (world.withContext context fun _ => deeper)
        ⟨permits.classes, permits.functions, permits.callables⟩ opens
      exact .framed context frame deeper (.refl world) pushed inside

end Leads

end Exec

end ScriptObjects
