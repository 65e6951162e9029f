import ScriptObjects.Proofs.Origins

/-!
# Levels as they were laid out

An instance is laid out when it is allocated, with a level for each class of the chain as it
stands at that moment.  Nothing lays out further levels: a class that is registered later under
the name of a missing base joins the chain of the class, but not the instances that are there
already.  What was allocated after a successful validation has all levels.

A function that is found on an instance is bound to the level of the class that declares it.
The exception is a function that comes from a class without a level; it is bound to the level
that found it.
-/

namespace ScriptObjects

set_option autoImplicit false

open Exec

theorem HostChange.callables {first second : World} (change : HostChange first second) :
    second.callables = first.callables := by
  cases change <;> rfl

namespace World

/-! ## The allocation -/

/-- An instance of the second state was allocated in the first. -/
structure AllocatedIn (id : InstanceId) (made world : World) : Prop where
  reachable : Reachable made
  newest : id = made.instances.next
  since : GoesOn (made.allocate (world.object id).cls) world

theorem Allocates.cls_object {id : ClassId} {before after : World}
    (allocates : Allocates id before after) :
    (after.object before.instances.next).cls = id := by
  obtain ⟨levels, object, _⟩ := allocates.object
  rw [object]
  rfl

theorem Reachable.allocate {world : World} (reachable : Reachable world) (id : ClassId) :
    Reachable (world.allocate id) :=
  .proceed reachable (.run (.refl world) (.allocate id))

namespace AllocatedIn

variable {id : InstanceId} {made world : World}

theorem allocates (allocated : AllocatedIn id made world) :
    Lasts (made.allocate (world.object id).cls) world :=
  allocated.since.lasts (allocated.reachable.allocate _)

theorem inside (allocated : AllocatedIn id made world) : id.index < world.instances.size := by
  have grown := allocated.allocates.instances
  rw [(allocate_allocates made _).size] at grown
  rw [allocated.newest, Heap.next_index]
  exact grown

theorem later {after : World} (allocated : AllocatedIn id made world)
    (later : GoesOn world after) : AllocatedIn id made after where
  reachable := allocated.reachable
  newest := allocated.newest
  since := by
    have reachable := (allocated.reachable.allocate _).goesOn allocated.since
    rw [((later.lasts reachable).objects id allocated.inside).1]
    exact allocated.since.trans later

theorem lasts (allocated : AllocatedIn id made world) : Lasts made world :=
  .trans (.of_continues (.allocate made _)) allocated.allocates

/-- The levels are those that were laid out. -/
theorem levels (allocated : AllocatedIn id made world) :
    (world.object id).levels.map Level.cls = made.ancestors (world.object id).cls := by
  have allocates := allocate_allocates made (world.object id).cls
  obtain ⟨levels, object, chain⟩ := allocates.object
  rw [← allocated.newest] at object
  have inside : id.index < (made.allocate (world.object id).cls).instances.size := by
    rw [allocates.size, allocated.newest, Heap.next_index]
    exact Nat.lt_succ_self _
  rw [(allocated.allocates.objects id inside).2, object]
  exact chain

end AllocatedIn

theorem Reachable.allocatedIn {world : World} (reachable : Reachable world) {id : InstanceId}
    (inside : id.index < world.instances.size) : ∃ made, AllocatedIn id made world := by
  induction reachable using Reachable.induct with
  | initial => exact absurd inside (Nat.not_lt_zero _)
  | @proceed first second before proceeds ih =>
      induction proceeds with
      | refl => exact ih inside
      | @run between after earlier change again =>
          have goes : GoesOn between after := .proceed (.start between) (.run (.refl between) change)
          by_cases old : id.index < between.instances.size
          · obtain ⟨made, allocated⟩ := again old
            exact ⟨made, allocated.later goes⟩
          · obtain ⟨cls, rfl⟩ : ∃ cls, after = between.allocate cls := by
              by_contra other
              rw [change.size_instances fun cls same => other ⟨cls, same⟩] at inside
              exact old inside
            have allocates := allocate_allocates between cls
            rw [allocates.size] at inside
            obtain rfl : id = between.instances.next :=
              congrArg Handle.mk (show id.index = between.instances.size by omega)
            refine ⟨between, .proceed before earlier, rfl, ?_⟩
            rw [allocates.cls_object]
            exact .start _
      | host earlier change again =>
          rw [change.size_instances] at inside
          obtain ⟨made, allocated⟩ := again inside
          exact ⟨made, allocated.later (.proceed (.start _) (.host (.refl _) change))⟩
  | @enlist first second before enlists ih =>
      have same : second.instances = first.instances := by rw [enlists.rest]
      obtain ⟨made, allocated⟩ := ih (same ▸ inside)
      exact ⟨made, allocated.later (.enlist (.start first) enlists)⟩

/-! ## What functions are bound to -/

/-- Every function value that is bound to an instance was made of what a store offers. -/
def BindsOffers (world : World) : Prop :=
  ∀ callable function receiver, (world.callables.get callable).function = some function →
    (world.callables.get callable).receiver = some receiver →
    ∃ store name, world.offer? store name = some (function, some receiver)

theorem BindsOffers.later {before after : World} (binds : before.BindsOffers)
    (values : after.callables = before.callables)
    (offers : ∀ store name offer, before.offer? store name = some offer →
      after.offer? store name = some offer) : after.BindsOffers := by
  intro callable function receiver made bound
  rw [values] at made bound
  obtain ⟨store, name, offered⟩ := binds callable function receiver made bound
  exact ⟨store, name, offers store name _ offered⟩

theorem LaidOut.keepsOffers {before after : World} (laid : before.LaidOut)
    (continues : before.Continues after) (store : StoreId) (name : String)
    (offer : Function × Option Receiver) (offered : before.offer? store name = some offer) :
    after.offer? store name = some offer :=
  (laid.offer?_later continues (inside_of_offer? offered) name).trans offered

theorem BindsOffers.change {may : String → Prop} {opened : InstanceId → Prop}
    {before after : World} (binds : before.BindsOffers) (laid : before.LaidOut)
    (change : Change may opened before after) : after.BindsOffers := by
  intro callable function receiver made bound
  obtain same | missing | ⟨store, name, declared, receiver?, offered, same⟩ :=
    change.callable_cases callable
  · rw [same] at made bound
    obtain ⟨store, name, offered⟩ := binds callable function receiver made bound
    exact ⟨store, name, laid.keepsOffers change.continues store name _ offered⟩
  · rw [missing] at made
    cases made
  · rw [same] at made bound
    cases made
    cases bound
    exact ⟨store, name, laid.keepsOffers change.continues store name _ offered⟩

theorem Reachable.bindsOffers {world : World} (reachable : Reachable world) :
    world.BindsOffers := by
  induction reachable using Reachable.induct with
  | initial => exact fun _ _ _ made => nomatch made
  | @proceed first second before proceeds ih =>
      induction proceeds with
      | refl => exact ih
      | run earlier change again =>
          have laid := (Reachable.proceed before earlier).sound.2.laid
          exact again.change laid change
      | host earlier change again =>
          obtain ⟨_, sound⟩ := (Reachable.proceed before earlier).sound
          exact again.later change.callables
            (sound.laid.keepsOffers (change.continues sound.registered))
  | enlist before enlists ih =>
      obtain ⟨alive, sound⟩ := before.sound
      have grows := enlists.extends_ alive sound.registered
      have rest := enlists.rest
      refine ih.later (by rw [rest]) fun store name offer => grows.offer? sound.laid ?_ ?_ <;>
        rw [rest]

/-- A function that is looked for from a level on is bound to a level of the instance. -/
theorem level?_boundLevel {world : World} {owner : InstanceId} {place : Nat} {level : Level}
    (sits : world.level? owner place = some level) (function : Function) :
    ∃ bound, world.level? owner (world.boundLevel owner place function) = some bound := by
  unfold boundLevel
  cases found : function.owner.bind fun declarer => world.levelOf? owner declarer.hash with
  | none => exact ⟨level, sits⟩
  | some other =>
      obtain ⟨declarer, _, there⟩ := Option.bind_eq_some_iff.mp found
      obtain ⟨inside, _⟩ := List.findIdx?_eq_some_iff_getElem.mp there
      exact ⟨_, List.getElem?_eq_getElem inside⟩

/-- What a store of an instance offers comes from the chain of the class of its level. -/
theorem LaidOut.offer?_bound {world : World} (laid : world.LaidOut) {store : StoreId}
    {name : String} {function : Function} {receiver : Receiver}
    (offered : world.offer? store name = some (function, some receiver)) :
    ∃ place level, world.level? receiver.owner place = some level ∧
      receiver.level = world.boundLevel receiver.owner place function ∧
      ∃ member ∈ world.ancestors level.cls, function ∈ (world.cls member).functions := by
  unfold offer? at offered
  split at offered
  · cases offered
  · next owner place cls tier home =>
      obtain ⟨found, nearest, same⟩ := Option.map_eq_some_iff.mp offered
      cases same
      obtain ⟨level, sits, rfl, _⟩ := laid.homes store owner place cls tier home
      obtain ⟨member, along, declared, _⟩ := levelFunction?_declared nearest
      exact ⟨place, level, sits, rfl, member, along, declared⟩
  · obtain ⟨found, _, same⟩ := Option.map_eq_some_iff.mp offered
    cases same

/-! ## The levels of an instance -/

/-- An instance has a level for each class of the chain of its class. -/
def CarriesChain (world : World) (id : InstanceId) : Prop :=
  (world.object id).levels.map Level.cls = world.ancestors (world.object id).cls

/-- A function value is bound to a level of its instance, and to the level of the class that declares
the function if there is one. -/
structure BindsToDeclarer (world : World) (function : Function) (receiver : Receiver) : Prop where
  sits : ∃ level, world.level? receiver.owner receiver.level = some level
  declarer : ∀ place level, world.level? receiver.owner place = some level →
    function ∈ (world.cls level.cls).functions → place = receiver.level
  whole : world.Chain (world.object receiver.owner).cls
      ((world.object receiver.owner).levels.map Level.cls) →
    ∃ level, world.level? receiver.owner receiver.level = some level ∧
      function ∈ (world.cls level.cls).functions

/-- An instance that a class type accepts has a level for the class of the type. -/
theorem Registered.level_of_accepts {world : World} (registered : world.Registered)
    {id : InstanceId} (carries : world.CarriesChain id)
    (known : (world.object id).cls.index < world.classes.size) {name : String}
    (accepts : world.accepts (.object name) (.object id) = true) :
    ∃ place level, world.level? id place = some level ∧ (world.cls level.cls).name = name ∧
      world.levelOf? id (TypeHash.ofName name) = some place := by
  obtain ⟨chain, chains⟩ := registered.grounded _ known
  have bases : ∀ id base, world.base? id = some base → base.index < world.classes.size :=
    fun _ _ => registered.base?_inside
  obtain ⟨member, along, rfl⟩ : ∃ member ∈ world.ancestors (world.object id).cls,
      (world.cls member).name = name := by
    obtain own | inherited := (Bool.or_eq_true _ _).mp accepts
    · refine ⟨_, (world.head_ancestors _).subset (List.mem_singleton_self _), ?_⟩
      exact of_decide_eq_true own
    · obtain ⟨member, along, named⟩ := List.any_eq_true.mp inherited
      rw [chains.properAncestors_eq (chains.length_le bases known)] at along
      exact ⟨member, List.mem_of_mem_tail along, of_decide_eq_true named⟩
  obtain ⟨place, level, sits, rfl⟩ := level_of_member carries along
  exact ⟨place, level, sits, rfl,
    registered.level_found (carries ▸ List.prefix_rfl) sits (ancestors_inside bases known _ along)⟩

/-- What an instance offers is bound to the level of the class that declares it. -/
theorem Sound.bindsToDeclarer {world : World} (sound : world.Sound) {store : StoreId}
    {name : String} {function : Function} {receiver : Receiver}
    (begins : (world.object receiver.owner).levels.map Level.cls <+:
      world.ancestors (world.object receiver.owner).cls)
    (offered : world.offer? store name = some (function, some receiver)) :
    world.BindsToDeclarer function receiver := by
  obtain ⟨place, level, sits, bound, member, along, declared⟩ := sound.laid.offer?_bound offered
  have declarer : ∀ place level, world.level? receiver.owner place = some level →
      function ∈ (world.cls level.cls).functions → place = receiver.level := by
    intro other own there declares
    rw [bound, sound.registered.boundLevel_eq begins there declares]
  refine ⟨bound ▸ level?_boundLevel sits function, declarer, fun whole => ?_⟩
  have from_level : ((world.object receiver.owner).levels.map Level.cls)[place]? =
      some level.cls := by
    rw [List.getElem?_map]
    exact congrArg (Option.map Level.cls) sits
  have remaining := whole.suffix from_level
  have among := (remaining.walk_prefix _ _).subset along
  obtain ⟨found, own, there, rfl⟩ := level_of_member rfl (List.mem_of_mem_drop among)
  exact ⟨own, declarer found own there declared ▸ there, declared⟩

/-- In every state of a session, validated or not, the levels of an instance are the chain of its
class as it stood when the instance was allocated.  That is where the current chain begins, and all
of it if the registry was valid then.  If it is all of it, an instance that a class type accepts has
a level for that class.  A function value that is bound to an instance is bound to a level of it, and
to the level of the class that declares the function, if the instance has one; it has one if no base
of its class is left out. -/
theorem levels_as_allocated {world : World} (reachable : Reachable world) {id : InstanceId}
    (inside : id ∈ world.instances.handles) :
    ∃ made, AllocatedIn id made world ∧
      (world.object id).levels.map Level.cls = made.ancestors (world.object id).cls ∧
      made.ancestors (world.object id).cls <+: world.ancestors (world.object id).cls ∧
      ((world.object id).cls ∈ made.classes.handles →
        ((Session.validate made).1 = .done (.ok ()) → world.CarriesChain id) ∧
        (world.CarriesChain id → ∀ name, world.accepts (.object name) (.object id) = true →
          ∃ place level, world.level? id place = some level ∧
            (world.cls level.cls).name = name ∧
            world.levelOf? id (TypeHash.ofName name) = some place)) ∧
      ∀ callable function receiver, (world.callables.get callable).function = some function →
        (world.callables.get callable).receiver = some receiver → receiver.owner = id →
        world.BindsToDeclarer function receiver := by
  obtain ⟨_, sound⟩ := reachable.sound
  obtain ⟨made, allocated⟩ := reachable.allocatedIn ((Heap.mem_handles _ _).mp inside)
  have lasts := allocated.lasts
  have begins := lasts.chains (world.object id).cls
  refine ⟨made, allocated, allocated.levels, begins, fun known => ⟨fun ok => ?_, fun carries => ?_⟩,
    ?_⟩
  · have known := (Heap.mem_handles _ _).mp known
    exact allocated.levels.trans (allocated.reachable.ancestors_validated ok lasts known).symm
  · intro name accepts
    have known := Nat.lt_of_lt_of_le ((Heap.mem_handles _ _).mp known) lasts.size
    exact sound.registered.level_of_accepts carries known accepts
  · rintro callable function receiver made bound rfl
    obtain ⟨store, name, offered⟩ := reachable.bindsOffers callable function receiver made bound
    exact sound.bindsToDeclarer (allocated.levels ▸ begins) offered

/-! ## An instance that is older than a base -/

/-- An instance of a class whose base is registered after it was allocated. -/
def laidOutEarly : World :=
  ((defining default [bareClass "B" (some "A") [] []]).allocate ⟨0⟩).orDefine
    (bareClass "A" none [] [])

theorem reachable_laidOutEarly : Reachable laidOutEarly :=
  ((reachable_defining default _).allocate ⟨0⟩).orDefine _

theorem validate_laidOutEarly : (Session.validate laidOutEarly).1 = .done (.ok ()) := by
  rw [validate_of_alive (by decide +kernel)]
  exact congrArg Outcome.done (by decide +kernel)

theorem inside_laidOutEarly : ⟨0⟩ ∈ laidOutEarly.instances.handles := by decide +kernel

theorem levels_as_allocated_early : Reachable laidOutEarly ∧
    ⟨0⟩ ∈ laidOutEarly.instances.handles ∧ ∃ made, AllocatedIn ⟨0⟩ made laidOutEarly ∧
      made.ancestors ⟨0⟩ = [⟨0⟩] ∧ laidOutEarly.ancestors ⟨0⟩ = [⟨0⟩, ⟨1⟩] := by
  refine ⟨reachable_laidOutEarly, inside_laidOutEarly, ?_⟩
  obtain ⟨made, allocated, levels, _⟩ :=
    levels_as_allocated reachable_laidOutEarly inside_laidOutEarly
  have cls : (laidOutEarly.object ⟨0⟩).cls = ⟨0⟩ := by decide +kernel
  rw [cls] at levels
  exact ⟨made, allocated, levels ▸ by decide +kernel, by decide +kernel⟩

/-- The type of the base accepts the instance, which has no level for it. -/
theorem level_missing : ¬ ∀ world, Reachable world →
    (Session.validate world).1 = .done (.ok ()) → ∀ id ∈ world.instances.handles,
      (world.object id).levels.map Level.cls = world.ancestors (world.object id).cls ∧
      ∀ name, world.accepts (.object name) (.object id) = true →
        ∃ place, world.levelOf? id (TypeHash.ofName name) = some place := by
  intro claim
  obtain ⟨_, levels⟩ :=
    claim laidOutEarly reachable_laidOutEarly validate_laidOutEarly ⟨0⟩ inside_laidOutEarly
  obtain ⟨place, found⟩ := levels "A" (by decide +kernel)
  have missing : laidOutEarly.levelOf? ⟨0⟩ (TypeHash.ofName "A") = none := by decide +kernel
  rw [missing] at found
  cases found

end World

end ScriptObjects
