import ScriptObjects.Proofs.Courses
import ScriptObjects.Proofs.Initialization
import ScriptObjects.Proofs.Marshaling

/-!
# Wrapped host objects

A host object is wrapped in an instance of the class that describes its type.  The instance holds it
from then on, and so does its first level; the levels behind it come to hold it when they are resolved,
if their classes describe no other type.  What host constructors make of this, in initializers that
run while the instance is constructed, is the business of the levels for which they are called.

To resolve a level writes down what the level yields.  It does not change what any level yields.
-/

namespace ScriptObjects

set_option autoImplicit false

open Exec World

/-! ## What a level yields -/

section

variable {world : World} {receiver : Receiver} {level : Level} {host : HostId}

theorem levelHost_of_level (sits : world.level? receiver.owner receiver.level = some level) :
    levelHost receiver world = resolveReference level.reference world := by
  have refers : levelReference receiver world = (.done level.reference, world) := by
    simp only [levelReference, get_bind_apply, sits, pure_apply]
  exact bind_of_done _ refers

theorem levelHost_of_nowhere (nowhere : world.level? receiver.owner receiver.level = none) :
    levelHost receiver world =
      (.failed (.unresolvedReference (world.classOf receiver.owner).name), world) := by
  have fails : levelReference receiver world =
      (.failed (.unresolvedReference (world.classOf receiver.owner).name), world) := by
    simp only [levelReference, get_bind_apply, nowhere, throw_apply]
  exact bind_of_failed _ fails

theorem levelHost_of_bound (bound : world.bound? receiver = some host) :
    levelHost receiver world = (.done host, world) := by
  obtain ⟨level, sits, bound⟩ := level?_of_bound? bound
  rw [levelHost_of_level sits, resolveReference_of_bound bound]

/-- To bind the reference of one level changes nothing about another one. -/
theorem levelHost_bindReference_other {reference : ReferenceId}
    (other : ∀ level, world.level? receiver.owner receiver.level = some level →
      level.reference ≠ reference) (host : HostId) :
    (levelHost receiver (world.bindReference reference host)).1 = (levelHost receiver world).1 := by
  cases sits : world.level? receiver.owner receiver.level with
  | none =>
      rw [levelHost_of_nowhere sits, levelHost_of_nowhere
        (show (world.bindReference reference host).level? _ _ = none from sits)]
      rfl
  | some level =>
      have same : (world.bindReference reference host).references.get level.reference =
          world.references.get level.reference := by
        rw [references_bindReference, if_neg fun both => other level sits both.1]
      rw [levelHost_of_level sits, levelHost_of_level
        (show (world.bindReference reference host).level? _ _ = some level from sits)]
      cases bound : (world.references.get level.reference).bound with
      | some old =>
          rw [resolveReference_of_bound bound, resolveReference_of_bound (same.symm ▸ bound)]
      | none =>
          have unbound : ((world.bindReference reference host).references.get
              level.reference).bound = none := same.symm ▸ bound
          have falls : (world.bindReference reference host).fallback?
              ((world.bindReference reference host).references.get level.reference) =
                world.fallback? (world.references.get level.reference) := by
            rw [same]
            rfl
          cases fallen : world.fallback? (world.references.get level.reference) with
          | some old =>
              rw [resolveReference_of_fallback bound fallen,
                resolveReference_of_fallback unbound (falls.trans fallen)]
          | none =>
              rw [resolveReference_of_nowhere bound fallen,
                resolveReference_of_nowhere unbound (falls.trans fallen), same]

/-- What a level yielded it is bound to, and to resolve it again gives the same. -/
theorem bound?_of_levelHost {after : World} (linked : world.WellLinked)
    (yields : levelHost receiver world = (.done host, after)) :
    after.bound? receiver = some host := by
  cases sits : world.level? receiver.owner receiver.level with
  | none =>
      rw [levelHost_of_nowhere sits] at yields
      cases yields
  | some level =>
      rw [levelHost_of_level sits] at yields
      cases bound : (world.references.get level.reference).bound with
      | some old =>
          rw [resolveReference_of_bound bound] at yields
          cases yields
          exact (bound?_eq sits).trans bound
      | none =>
          cases falls : world.fallback? (world.references.get level.reference) with
          | some fallen =>
              rw [resolveReference_of_fallback bound falls] at yields
              cases yields
              exact bound?_bindReference_same linked sits _
          | none =>
              rw [resolveReference_of_nowhere bound falls] at yields
              cases yields

/-- To resolve a level does not change what any level yields. -/
theorem World.WellLinked.levelHost_again (linked : world.WellLinked) (resolved receiver : Receiver) :
    (levelHost receiver (levelHost resolved world).2).1 = (levelHost receiver world).1 := by
  cases sits : world.level? resolved.owner resolved.level with
  | none => rw [levelHost_of_nowhere sits]
  | some level =>
      rw [levelHost_of_level sits]
      cases bound : (world.references.get level.reference).bound with
      | some old => rw [resolveReference_of_bound bound]
      | none =>
          cases falls : world.fallback? (world.references.get level.reference) with
          | none => rw [resolveReference_of_nowhere bound falls]
          | some host =>
              have yields := resolveReference_of_fallback bound falls
              rw [yields]
              by_cases here : ∃ peer, world.level? receiver.owner receiver.level = some peer ∧
                  peer.reference = level.reference
              · obtain ⟨peer, there, same⟩ := here
                rw [levelHost_of_level there, same, yields]
                refine congrArg Prod.fst (levelHost_of_bound ?_)
                rw [← same]
                exact bound?_bindReference_same linked there host
              · exact levelHost_bindReference_other (fun peer there same => here ⟨peer, there, same⟩)
                  host

/-- A level yields the host object of its instance, unless its class describes another type. -/
def World.Shares (world : World) (receiver : Receiver) (host : HostId) : Prop :=
  ∀ level, world.level? receiver.owner receiver.level = some level →
    (Session.resolveLevel receiver.owner receiver.level world).1 =
      if (world.cls level.cls).described.all (· = (world.hosts.get host).type) then .done host
      else .failed (.unresolvedReference (world.cls level.cls).name)

theorem World.WellLinked.shares (linked : world.WellLinked)
    (unbound : world.bound? receiver = none)
    (living : (world.object receiver.owner).alive = true)
    (held : (world.object receiver.owner).host = some host) : world.Shares receiver host := by
  intro level sits
  have bound : (world.references.get level.reference).bound = none :=
    (bound?_eq sits).symm.trans unbound
  have falls : world.fallback? (world.references.get level.reference) =
      if (world.cls level.cls).described.all (· = (world.hosts.get host).type) then some host
      else none := by
    unfold World.fallback?
    rw [linked.owner sits, linked.described sits]
    simp [living, held, Option.filter_some]
  unfold Session.resolveLevel
  rw [levelHost_of_level sits]
  split
  · next fits =>
      rw [if_pos fits] at falls
      rw [resolveReference_of_fallback bound falls]
  · next misfits =>
      rw [if_neg misfits] at falls
      rw [resolveReference_of_nowhere bound falls, linked.className sits]

end

/-! ## A new instance that wraps -/

section

variable {world : World} {cls : ClassId} {host : HostId}

/-- The new instance is alive, holds the host object and is yet to be constructed. -/
theorem wrapped_object (world : World) (cls : ClassId) (host : HostId) :
    ∃ levels, (world.wrapped cls host).object world.instances.next =
      { freshInstance cls levels with host := some host } := by
  obtain ⟨followed, _, next, same⟩ := world.wrapped_eq cls host
  have allocates := allocate_allocates followed cls
  obtain ⟨levels, object, _⟩ := allocates.object
  obtain ⟨level, sits, _⟩ := allocate_firstLevel followed cls
  have inside : followed.instances.next.index < (followed.allocate cls).instances.size := by
    rw [allocates.size]
    exact Nat.lt_succ_self _
  refine ⟨levels, ?_⟩
  rw [next, same]
  unfold World.bindHost
  rw [sits]
  show (World.withObject _ followed.instances.next _).object followed.instances.next = _
  rw [object_withObject, if_pos ⟨rfl, inside⟩]
  have before : ((followed.allocate cls).bindReference level.reference host).object
      followed.instances.next = freshInstance cls levels := object
  rw [before]
  rfl

/-- Its first level is bound to the host object. -/
theorem World.WellLinked.wrapped_bound (linked : world.WellLinked) :
    (world.wrapped cls host).bound? ⟨world.instances.next, 0⟩ = some host := by
  obtain ⟨followed, follows, next, same⟩ := world.wrapped_eq cls host
  obtain ⟨level, sits, _⟩ := allocate_firstLevel followed cls
  have fresh := (follows.toSameLinks.sameLevels.wellLinked linked).allocate cls
  rw [next, same]
  exact bound?_bindHost_same fresh sits host

theorem wrapped_alive (world : World) (cls : ClassId) (host : HostId) :
    (world.wrapped cls host).alive = world.alive := by
  obtain ⟨followed, follows, _, same⟩ := world.wrapped_eq cls host
  have bound : ∀ between : World,
      (between.bindHost ⟨followed.instances.next, 0⟩ host).alive = between.alive := by
    intro between
    unfold World.bindHost
    split <;> rfl
  rw [same, bound, (Continues.allocate followed cls).alive, follows.alive]

/-- A construction that ends with a result has marked the instance, if it is asked to. -/
theorem initialized_of_construct {perform : Perform} {id : InstanceId} {options : CreateOptions}
    {args : List Value} {after : World} (asked : options.has .markInitialized = true)
    (ends : constructInstance perform id options args world = (.done (), after))
    (inside : id.index < after.instances.size) : (after.object id).initialized = true := by
  cases initialized : (world.object id).initialized with
  | true =>
      rw [constructInstance_of_initialized initialized] at ends
      cases ends
  | false =>
      rw [constructInstance_of_new initialized] at ends
      obtain ⟨context, _, _, ends⟩ := bind_done ends
      obtain ⟨_, between, _, ends⟩ := bind_done ends
      have marked : ∀ {between : World}, (do
            if options.has .markInitialized then
              Exec.change (·.withObject id fun object => { object with initialized := true }) :
                Exec Unit) between = (.done (), after) →
          (after.object id).initialized = true := by
        intro between ends
        rw [if_pos asked] at ends
        cases ends
        rw [object_withObject, if_pos ⟨rfl, Nat.lt_of_lt_of_eq inside (Heap.size_modify ..)⟩]
      unfold finishInstance at ends
      by_cases wanted : options.has .callConstructor = true
      · rw [if_pos wanted] at ends
        obtain ⟨_, _, _, ends⟩ := bind_done ends
        exact marked ends
      · rw [if_neg wanted] at ends
        exact marked ends

theorem initialized_of_wrap {id : InstanceId} {budget : Nat} {after : World}
    (constructs : performUpTo budget (.construct id .wrapper []) world = (.done (), after))
    (inside : id.index < after.instances.size) : (after.object id).initialized = true := by
  cases budget with
  | zero => cases constructs
  | succ budget =>
      have ran : constructInstance (performUpTo budget) id .wrapper [] world = (.done (), after) :=
        constructs
      exact initialized_of_construct rfl ran inside

/-- To marshal an instance to the type of its host object gives that object. -/
theorem marshal_of_held {id : InstanceId} (alive : world.alive = true)
    (held : (world.object id).host = some host) :
    (Session.marshal (.object id) (.host (world.hosts.get host).type) world).1 = .done host := by
  have accepted : world.accepts (.host (world.hosts.get host).type) (.object id) = true := by
    rw [accepts_hosted, held]
    simp
  have asked : (world.askAccepts (.host (world.hosts.get host).type) (.object id)).instances =
      world.instances := (world.resolveBases_still _).instances
  have lax : ¬(world.marshaling = .selective ∧ Value.object id = .text refusedText) :=
    fun both => nomatch both.2
  unfold Session.marshal
  rw [bind_of_done _ (requireAssembly_of_alive alive), toHost_of_lax lax, if_pos accepted,
    formHost_of_carried ?_]
  unfold World.object
  rw [asked]
  exact held

/-- An instance of a class is the wrapper of a host object, as far as host constructors leave its
levels alone. -/
structure World.Wraps (world : World) (cls : ClassId) (host : HostId) (alone : Nat → Prop)
    (id : InstanceId) : Prop where
  cls : (world.object id).cls = cls
  initialized : (world.object id).initialized = true
  held : (world.object id).host = some host
  marshals : (Session.marshal (.object id) (.host (world.hosts.get host).type) world).1 = .done host
  shares : ∀ place, alone place → world.Shares ⟨id, place⟩ host
  first : ∃ own, (Session.resolveLevel id 0 world).1 = .done own

/-- Nothing is bound where there is no instance yet. -/
theorem bound?_next (place : Nat) : world.bound? ⟨world.instances.next, place⟩ = none := by
  unfold bound?
  rw [level?_next]
  rfl

/-- Whatever is requested, the links are kept. -/
theorem performUpTo_keeping (receiver : Receiver) (budget : Nat) :
    (performUpTo budget).Keeping (.level receiver fun _ => True) := by
  induction budget with
  | zero => exact fun request world linked => .refl linked
  | succ budget ih =>
      intro request world
      refine step_keeping ih ?_
      cases request with
      | read | construct => trivial
      | assign => exact fun _ _ => trivial
      | call => exact fun _ _ _ _ _ _ => Or.inr fun _ => trivial

/-- Where a host object was wrapped with success, a new instance was constructed for it. -/
theorem constructs_of_wrap {budget : Nat} {value : Value} {after : World}
    (paired : world.classForHost? (world.hosts.get host).type = some cls)
    (ends : (Operation.wrap host).run (performUpTo budget) world = (.done value, after)) :
    world.alive = true ∧ value = .object world.instances.next ∧
      performUpTo budget (.construct world.instances.next .wrapper []) (world.wrapped cls host) =
        (.done (), after) := by
  cases alive : world.alive with
  | false =>
      have fails := bind_of_failed (fun _ => wrapHost (performUpTo budget) host)
        (requireAssembly_of_dropped alive)
      cases fails.symm.trans ends
  | true =>
      have wraps : wrapHost (performUpTo budget) host world = (.done value, after) :=
        (bind_of_done _ (requireAssembly_of_alive alive)).symm.trans ends
      rw [wrapHost_of_paired _ paired] at wraps
      obtain ⟨_, built, constructs, returns⟩ := bind_done wraps
      cases returns
      exact ⟨rfl, rfl, constructs⟩

/-- No host constructor is called for a level while a host object is wrapped. -/
def World.WrapsApart (world : World) (budget : Nat) (host : HostId) (receiver : Receiver) : Prop :=
  ∀ inquiry ∈ (Operation.wrap host).account.inquiries (performUpTo budget) (inquiriesUpTo budget)
    world, ¬ inquiry.Binds receiver fun _ => True

theorem World.WellLinked.relinks_apart {budget : Nat} {receiver : Receiver} {value : Value}
    {after : World} (linked : world.WellLinked) (inside : host.index < world.hosts.size)
    (apart : world.WrapsApart budget host receiver)
    (ends : (Operation.wrap host).run (performUpTo budget) world = (.done value, after)) :
    world.Relinks receiver (fun _ => False) after := by
  have relinks : world.Relinks receiver (fun _ => False)
      ((Operation.wrap host).run (performUpTo budget) world).2 :=
    (Operation.wrap host).relinks budget linked inside fun inquiry member binds =>
      apart inquiry member (by simpa using binds)
  rwa [ends] at relinks

/-- What no host constructor bound is unbound, or bound to what the instance holds. -/
theorem shares_of_relinks {before : World} {receiver : Receiver}
    (relinks : before.Relinks receiver (fun _ => False) world)
    (unbound : before.bound? receiver = none)
    (living : (world.object receiver.owner).alive = true)
    (held : (world.object receiver.owner).host = some host) : world.Shares receiver host := by
  have linked := relinks.linked
  cases bound : world.bound? receiver with
  | none => exact linked.shares bound living held
  | some own =>
      intro level sits
      refine (congrArg Prod.fst (levelHost_of_bound bound)).trans ?_
      obtain explains | made := relinks.rebound.of_unbound unbound bound
      · obtain rfl : own = host := Option.some.inj (explains.held.symm.trans held)
        have fits := explains.described level sits
        rw [linked.described sits] at fits
        rw [if_pos fits]
      · exact made.elim

/-- Whatever is wrapped with success is wrapped so. -/
theorem World.WellLinked.wraps (linked : world.WellLinked) (inside : host.index < world.hosts.size)
    (paired : world.classForHost? (world.hosts.get host).type = some cls) {budget : Nat}
    {value : Value} {after : World}
    (ends : (Operation.wrap host).run (performUpTo budget) world = (.done value, after)) :
    ∃ id, value = .object id ∧
      after.Wraps cls host (fun place => world.WrapsApart budget host ⟨id, place⟩) id := by
  obtain ⟨alive, rfl, constructs⟩ := constructs_of_wrap paired ends
  refine ⟨_, rfl, ?_⟩
  obtain ⟨levels, object⟩ := wrapped_object world cls host
  have holds : decide (((world.wrapped cls host).object world.instances.next).host = some host) =
      true := by
    rw [object]
    simp
  have placed : world.instances.next.index < (world.wrapped cls host).instances.size :=
    @inside_of_mark (fun object => object.host = some host) rfl _ _ holds
  have evolves : Evolves (fun _ => True) (fun _ => True) (world.wrapped cls host) after := by
    have leads := performUpTo_leads budget (fun _ => True) (fun _ => True)
      (.construct world.instances.next .wrapper []) (fun _ _ _ _ => trivial) (world.wrapped cls host)
      (permits_all _) fun _ _ => trivial
    rw [constructs] at leads
    exact leads
  have held : (after.object world.instances.next).host = some host :=
    of_decide_eq_true (evolves.keepsMark (.holds host) world.instances.next holds)
  have living : (after.object world.instances.next).alive = true :=
    evolves.keepsMark .alive world.instances.next (by rw [object]; rfl)
  have continues := evolves.continues
  have stays := Nat.lt_of_lt_of_le placed continues.instances
  have wrapped : world.Relinks ⟨world.instances.next, 0⟩ (fun _ => True) (world.wrapped cls host) :=
    (Custody.level ⟨world.instances.next, 0⟩ fun _ => True).wrapped inside paired linked
  have built := performUpTo_keeping ⟨world.instances.next, 0⟩ budget
    (.construct world.instances.next .wrapper []) (world.wrapped cls host) wrapped.linked
  rw [constructs] at built
  refine ⟨?_, ?_, held, ?_, fun place apart => ?_, ?_⟩
  · rw [(continues.objects _ placed).1, object]
    rfl
  · exact initialized_of_wrap constructs stays
  · refine marshal_of_held ?_ held
    rw [continues.alive, wrapped_alive, alive]
  · exact shares_of_relinks (linked.relinks_apart inside apart ends) (bound?_next place) living held
  · obtain ⟨own, bound⟩ := Option.isSome_iff_exists.mp
      (built.keeps.bound (by rw [linked.wrapped_bound]; rfl))
    exact ⟨own, congrArg Prod.fst (levelHost_of_bound bound)⟩

end

/-! ## Wrapping keeps the host object -/

/-- On the course of a session, and in the middle of its commands, an instance keeps the host object
that it holds; and so it does from any state to any other one that follows, be it in the middle of the
same run.  What is wrapped with success is held by an instance of the class that describes it, and its
levels that no host constructor is called for share it, then and as long as the instance is there.  To
resolve a level changes nothing about what levels yield, and what a level yielded it yields until one of
its host constructors is called or the host itself binds it. -/
theorem wrapping_keeps_host {config : Config} {marshaling : MarshalRules} {now : World}
    (course : Course Anything (.initial config marshaling) now) :
    (∀ later, Visits Anything now later → ∀ id host, (now.object id).host = some host →
      (later.object id).host = some host) ∧
    (∀ first later, Unfolds first later → ∀ id host, (first.object id).host = some host →
      (later.object id).host = some host) ∧
    (∀ state, Visits Anything now state → ∀ (budget : Nat) (host : HostId) (cls : ClassId) value after,
      state.Has host → state.classForHost? (state.hosts.get host).type = some cls →
      (Operation.wrap host).run (performUpTo budget) state = (.done value, after) →
      ∃ id, value = .object id ∧
        after.Wraps cls host (fun place => state.WrapsApart budget host ⟨id, place⟩) id) ∧
    (∀ (budget : Nat) (host : HostId) (cls : ClassId) id after,
      now.Has host → now.classForHost? (now.hosts.get host).type = some cls →
      (Operation.wrap host).run (performUpTo budget) now = (.done (.object id), after) →
      ∀ place, now.WrapsApart budget host ⟨id, place⟩ →
        ∀ later, Visits (Occasion.Binds ⟨id, place⟩ fun _ => True) after later →
          (later.object id).alive = true → later.Shares ⟨id, place⟩ host) ∧
    (∀ state, Visits Anything now state → ∀ resolved receiver,
      (levelHost receiver (levelHost resolved state).2).1 = (levelHost receiver state).1) ∧
    (∀ receiver host after, levelHost receiver now = (.done host, after) →
      ∀ later, Visits (Occasion.Binds receiver fun _ => True) after later →
        (levelHost receiver later).1 = .done host) := by
  obtain ⟨linked, ordered⟩ := course.wellLinked
  refine ⟨fun later visits id host held => ?_, fun first later unfolds id host held => ?_,
    fun state visits budget host cls value after has paired ends => ?_,
    fun budget host cls id after has paired ends place apart later visits living => ?_,
    fun state visits resolved receiver => ?_, fun receiver host after yields later visits => ?_⟩
  · exact (visits.freely linked ordered ⟨id, 0⟩).keeps.host held
  · have kept := unfolds.keepsMark (.holds host) (fun _ holds => holds) id (decide_eq_true held)
    exact of_decide_eq_true kept
  · exact (visits.freely linked ordered ⟨⟨0⟩, 0⟩).linked.wraps has paired ends
  · obtain ⟨_, same, wraps⟩ := linked.wraps has paired ends
    obtain rfl := Value.object.inj same
    have relinks := linked.relinks_apart has apart ends
    have orderedAfter : after.alive = true → after.InOrder := by
      have advances := (Command.operate budget (.wrap host)).advances has
      rw [show Command.after now (.operate budget (.wrap host)) = after from
        congrArg Prod.snd ends] at advances
      exact fun alive => (advances (ordered (relinks.keeps.alive alive))).2
    have onwards : after.Relinks ⟨id, place⟩ (fun _ => False) later :=
      (visits.among fun _ binds => by simpa using binds).relinks relinks.linked orderedAfter
    obtain ⟨_, new, _⟩ := constructs_of_wrap paired ends
    obtain rfl := Value.object.inj new
    exact shares_of_relinks (relinks.trans onwards) (bound?_next place) living
      (onwards.keeps.host wraps.held)
  · exact (visits.freely linked ordered ⟨⟨0⟩, 0⟩).linked.levelHost_again resolved receiver
  · have bound := bound?_of_levelHost linked yields
    have resolves : Course Anything (.initial config marshaling) after := by
      have next := course.command (.resolveLevel receiver.owner receiver.level) trivial
        fun _ member => absurd member List.not_mem_nil
      rw [show Command.after now (.resolveLevel receiver.owner receiver.level) = after from
        congrArg Prod.snd yields] at next
      exact next
    obtain ⟨linked, ordered⟩ := resolves.wellLinked
    have relinks : after.Relinks receiver (fun _ => False) later :=
      (visits.among fun _ binds => by simpa using binds).relinks linked ordered
    exact congrArg Prod.fst (levelHost_of_bound (relinks.rebound.of_bound bound))

/-! ## An initializer that calls a host constructor -/

namespace World

/-- A class for counters extends one with a host constructor, which extends a class for vectors.  Its
field calls the constructor. -/
def dialSpecs : List ClassSpec :=
  [⟨"Board", .ordinary, none, [], [], [], some .vector, none⟩,
   ⟨"Panel", .ordinary, some "Board", [],
    [⟨constructorName, .global, .ordinary, .any, .hostConstructor ⟨[.int], .counter⟩, [], none⟩], [],
    none, none⟩,
   ⟨"Dial", .ordinary, some "Panel",
    [bareField "made" (some (.baseCall constructorName [.int 7]))], [], [], some .counter, none⟩]

/-- The classes are defined, and the host has a counter. -/
def dialReady : World :=
  Command.after ((dialSpecs.map Command.define).foldl Command.after (.initial default .standard))
    (.newHost (.counter 3))

theorem course_dialReady {bars : Occasion → Prop} :
    Course bars (.initial default .standard) dialReady := by
  have quiet : ∀ occasion ∈ [], ¬ bars occasion := fun _ member => absurd member List.not_mem_nil
  exact ((((Course.start _).command (.define _) trivial quiet).command (.define _) trivial
    quiet).command (.define _) trivial quiet).command (.newHost _) trivial quiet

/-- The counter is wrapped. -/
def dialWrapped : World := ((Operation.wrap ⟨0⟩).run (performUpTo 6) dialReady).2

/-- The level with the host constructor is bound to what that made.  The first level is bound to the
counter, and the last one yields nothing, for its class describes another type. -/
theorem wrapping_keeps_host_dial :
    (Operation.wrap ⟨0⟩).run (performUpTo 6) dialReady = (.done (.object ⟨0⟩), dialWrapped) ∧
    (dialWrapped.object ⟨0⟩).host = some ⟨0⟩ ∧
    (Session.marshal (.object ⟨0⟩) (.host .counter) dialWrapped).1 = .done ⟨0⟩ ∧
    (Session.resolveLevel ⟨0⟩ 0 dialWrapped).1 = .done ⟨0⟩ ∧
    (Session.resolveLevel ⟨0⟩ 1 dialWrapped).1 = .done ⟨2⟩ ∧
    (Session.resolveLevel ⟨0⟩ 2 dialWrapped).1 = .failed (.unresolvedReference "Board") := by
  have ends : (Operation.wrap ⟨0⟩).run (performUpTo 6) dialReady =
      (.done (.object ⟨0⟩), dialWrapped) := done_of_result? (by decide +kernel)
  obtain ⟨id, same, wraps⟩ := (wrapping_keeps_host course_dialReady).2.2.1 dialReady
    (.between (.start _)) 6 ⟨0⟩ ⟨2⟩ _ _
    (show 0 < dialReady.hosts.size from by decide +kernel) (by decide +kernel) ends
  obtain rfl : (⟨0⟩ : InstanceId) = id := Value.object.inj same
  have type : (dialWrapped.hosts.get ⟨0⟩).type = .counter := by decide +kernel
  have yields : ∀ place label, (dialWrapped.level? ⟨0⟩ place).map (fun level =>
        ((dialWrapped.cls level.cls).name, (dialWrapped.cls level.cls).described)) = some label →
      ((Operation.wrap ⟨0⟩).account.inquiries (performUpTo 6) (inquiriesUpTo 6) dialReady).all
        (fun inquiry => inquiry.target? ≠ some ⟨⟨0⟩, place⟩) = true →
      (Session.resolveLevel ⟨0⟩ place dialWrapped).1 = if label.2.all (· = HostType.counter)
        then .done ⟨0⟩ else .failed (.unresolvedReference label.1) := by
    intro place label labels others
    obtain ⟨level, sits, rfl⟩ := Option.map_eq_some_iff.mp labels
    have apart : dialReady.WrapsApart 6 ⟨0⟩ ⟨⟨0⟩, place⟩ := fun inquiry member binds =>
      of_decide_eq_true (List.all_eq_true.mp others inquiry member) binds.target?
    rw [wraps.shares place apart level sits, type]
  refine ⟨ends, wraps.held, type ▸ wraps.marshals, ?_, ?_, ?_⟩
  · exact yields 0 ("Dial", some .counter) (by decide +kernel) (by decide +kernel)
  · exact Outcome.eq_done (by decide +kernel)
  · exact yields 2 ("Board", some .vector) (by decide +kernel) (by decide +kernel)

end World

end ScriptObjects
