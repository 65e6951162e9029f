import ScriptObjects.Proofs.Occasions

/-!
# The course of a session

A session goes on with commands on things that exist, with changes that the host makes to its own
objects, and in the end without its assembly.  Its states are those between these steps and those in
which the requests of a command are made.

However a session goes on, the references of levels stay linked, and what a level is bound to changes
only where a host constructor is called for it or the host itself binds it.
-/

namespace ScriptObjects

set_option autoImplicit false

open Exec World

/-! ## What commands give occasion to -/

/-- A request that is made in a state, or a reference that the host binds there by hand. -/
inductive Occasion where
  | request (inquiry : Inquiry)
  | byHand (reference : ReferenceId) (host : HostId) (world : World)

namespace Occasion

def world : Occasion → World
  | .request inquiry => inquiry.world
  | .byHand _ _ world => world

/-- A level is bound to a host object of a kind: by one of its host constructors, or by hand. -/
def Binds (receiver : Receiver) (kind : HostType → Prop) : Occasion → Prop
  | .request inquiry => inquiry.Binds receiver kind
  | .byHand reference host world =>
      (∃ level, world.level? receiver.owner receiver.level = some level ∧
        level.reference = reference) ∧ kind (world.hosts.get host).type

theorem Binds.kind {receiver : Receiver} {kind : HostType → Prop} {occasion : Occasion}
    (binds : occasion.Binds receiver kind) : ∃ type, kind type := by
  cases occasion with
  | byHand reference host world => exact ⟨_, binds.2⟩
  | request inquiry => exact Inquiry.Binds.kind binds

end Occasion

/-- What a command gives occasion to, in order. -/
def Command.occasions (world : World) : Command → List Occasion
  | .operate budget operation =>
      (operation.account.inquiries (performUpTo budget) (inquiriesUpTo budget) world).map .request
  | .annotations budget scope name => (annotationInquiries budget name scope world).map .request
  | .bindReference reference host => [.byHand reference host world]
  | _ => []

/-! ## Courses -/

/-- The second state follows the first while nothing that is barred happens. -/
inductive Course (bars : Occasion → Prop) : World → World → Prop
  | start (world : World) : Course bars world world
  | command {first second : World} (before : Course bars first second) (command : Command)
      (has : command.Has second) (clear : ∀ occasion ∈ command.occasions second, ¬ bars occasion) :
      Course bars first (command.after second)
  /-- The host changes one of its objects, which stays of its type. -/
  | mutate {first second : World} (before : Course bars first second) (id : HostId)
      (object : HostObject) (has : second.Has object)
      (same : object.type = (second.hosts.get id).type) :
      Course bars first (second.withHost id object)
  | dropAssembly {first second : World} (before : Course bars first second) :
      Course bars first { second with alive := false }

/-- A state on the course of a session, between its steps or in the middle of a command; nothing that
is barred happened before. -/
inductive Visits (bars : Occasion → Prop) (first : World) : World → Prop
  | between {now : World} (course : Course bars first now) : Visits bars first now
  | within {now : World} (course : Course bars first now) (command : Command)
      (has : command.Has now) {occasion : Occasion} {earlier later : List Occasion}
      (split : command.occasions now = earlier ++ occasion :: later)
      (clear : ∀ other ∈ earlier, ¬ bars other) : Visits bars first occasion.world

/-- Nothing is barred. -/
def Anything (_ : Occasion) : Prop := False

theorem Course.among {bars more : Occasion → Prop} {first second : World}
    (course : Course more first second) (among : ∀ occasion, bars occasion → more occasion) :
    Course bars first second := by
  induction course with
  | start => exact .start _
  | command _ command has clear ih =>
      exact .command ih command has fun occasion member barred =>
        clear occasion member (among _ barred)
  | mutate _ id object has same ih => exact .mutate ih id object has same
  | dropAssembly _ ih => exact .dropAssembly ih

theorem Visits.among {bars more : Occasion → Prop} {first now : World}
    (visits : Visits more first now) (among : ∀ occasion, bars occasion → more occasion) :
    Visits bars first now := by
  cases visits with
  | between course => exact .between (course.among among)
  | within course command has split clear =>
      exact .within (course.among among) command has split fun occasion member barred =>
        clear occasion member (among _ barred)

/-! ## Commands relink as permitted -/

section

variable {world : World} {receiver : Receiver} {permitted : HostType → Prop}

/-- The classes of all levels are registered. -/
theorem World.InOrder.registered (order : world.InOrder) {id : InstanceId} {place : Nat}
    {level : Level} (sits : world.level? id place = some level) :
    level.cls.index < world.classes.size :=
  (order.placed id (inside_of_level? sits)).2.2.2 level (List.mem_of_getElem? sits)

/-- A declaration that is not refused changes no class of a level. -/
theorem registering_relinks {request : Registering Unit} (atomic : Atomic request)
    (linked : world.WellLinked)
    (accepted : world.alive = true → ∀ after, request.run world = (.ok (), after) →
      SameLevels world after) :
    world.Relinks receiver permitted (Session.registering request world).2 := by
  obtain same | ⟨alive, ok⟩ := registering_cases atomic world
  · rw [same]
    exact .refl linked
  · exact .of_same linked (accepted alive _ ok)

/-- The new class describes the host type under which it is entered. -/
theorem World.Adds.paired {spec : ClassSpec} {before after : World} (adds : Adds spec before after)
    (paired : before.Paired) : after.Paired := by
  intro host id found
  rw [adds.classForHost?] at found
  split at found
  · next described =>
      cases found
      exact adds.describes.described.trans described
  · have described := paired host id found
    have old : id ≠ before.classes.next := by
      rintro rfl
      unfold World.cls Heap.get at described
      rw [Heap.get?_eq_none before.classes (Nat.le_of_eq before.classes.next_index.symm)] at described
      cases described
    rw [adds.cls_ne old]
    exact described

theorem World.SameLevels.define {spec : ClassSpec} {after : World} (order : world.InOrder)
    (ok : (World.define spec).run world = (.ok (), after)) : SameLevels world after := by
  have adds := define_ok ok
  have labels : ∀ {id place level}, world.level? id place = some level →
      after.cls level.cls = world.cls level.cls := fun sits => adds.cls_old (order.registered sits)
  refine ⟨?_, ?_, ?_, ?_, ?_, fun sits => by rw [labels sits]; exact ⟨rfl, rfl⟩, adds.paired⟩
  · rw [adds.rest]
  · rw [adds.rest]
  · rw [adds.alive]
    exact fun alive => alive
  · rw [adds.rest]
  · rw [adds.rest]
    exact fun _ _ => rfl

theorem World.SameLevels.defineFunction {spec : FunctionDecl String} {after : World}
    (ok : (World.defineFunction spec).run world = (.ok (), after)) : SameLevels world after := by
  rw [(defineFunction_ok ok).rest]
  exact {}

theorem World.Follows.aside {after : World} (follows : World.Follows world after) :
    Aside world after := by
  induction follows with
  | refl => exact .refl world
  | touch _ reference ih => exact ih.trans (touchRef_still _ reference)

theorem validate_aside : Aside world (Session.validate world).2 := by
  cases alive : world.alive with
  | false =>
      rw [show (Session.validate world).2 = world from registering_of_dropped alive validate]
      exact .refl world
  | true =>
      rw [validate_of_alive alive]
      exact (validate_onlyFollows world).aside

/-- A reference that the host binds is that of no level, or of a level that may be bound so. -/
theorem World.Relinks.of_byHand (linked : world.WellLinked) (reference : ReferenceId) {host : HostId}
    (inside : host.index < world.hosts.size)
    (clear : ¬ (Occasion.byHand reference host world).Binds receiver fun type => ¬ permitted type) :
    world.Relinks receiver permitted (world.bindReference reference host) := by
  obtain ⟨after, keeps⟩ := linked.bindReference reference inside
  refine ⟨after, keeps, ?_⟩
  by_cases here : ∃ level, world.level? receiver.owner receiver.level = some level ∧
      level.reference = reference
  · have permits := Classical.not_not.mp fun forbidden => clear ⟨here, forbidden⟩
    obtain ⟨level, sits, rfl⟩ := here
    exact .made host (bound?_bindReference_same linked sits host) permits
  · exact .same (bound?_bindReference_other (fun level sits same => here ⟨level, sits, same⟩) host)

/-- An operation changes what a level is bound to only as permitted, unless one of the requests on the
way does not. -/
theorem Operation.relinks (operation : Operation) (budget : Nat) (linked : world.WellLinked)
    (has : world.HasOperation operation)
    (clear : ∀ inquiry ∈ operation.account.inquiries (performUpTo budget) (inquiriesUpTo budget) world,
      ¬ inquiry.Binds receiver fun type => ¬ permitted type) :
    world.Relinks receiver permitted (operation.run (performUpTo budget) world).2 :=
  (KeepsUpTo.of_account operation.account (level_guardedBy receiver permitted) budget world
    fun nested => operation.run_keeping nested has).ends clear linked

/-- So does a command. -/
theorem Command.relinks (command : Command) (linked : world.WellLinked)
    (ordered : world.alive = true → world.InOrder) (has : command.Has world)
    (clear : ∀ occasion ∈ command.occasions world,
      ¬ occasion.Binds receiver fun type => ¬ permitted type) :
    world.Relinks receiver permitted (command.after world) := by
  have keeping : ∀ {α : Type} {run : Exec α}, Keeping (.level receiver permitted) run →
      world.Relinks receiver permitted (run world).2 := fun keeping => keeping world linked
  have still : ∀ {α : Type} {run : Exec α}, Still run →
      world.Relinks receiver permitted (run world).2 := fun still => keeping (.still still)
  cases command with
  | define spec =>
      exact registering_relinks (define_atomic spec) linked fun alive after ok =>
        .define (ordered alive) ok
  | defineFunction spec =>
      exact registering_relinks (defineFunction_atomic spec) linked fun _ after ok =>
        .defineFunction ok
  | validate => exact .of_same linked validate_aside.toSameLinks.sameLevels
  | doesExtend id name | describeClass id =>
      exact .of_same linked (world.resolveBases_still _).toSameLinks.sameLevels
  | metaTable id => exact .of_same linked (world.keepMetaTable_still id).toSameLinks.sameLevels
  | isTypeCompatible target source =>
      refine still (.bind requireAssembly_still fun _ => .of_get fun seen => ?_)
      exact .bind (fun world => world.resolveBases_still _) fun _ => .pure _
  | accepts type value => exact still (accepts_still type value)
  | newClassRef name target => exact .of_same linked {}
  | resolveClassRef reference =>
      exact still (.bind requireAssembly_still fun _ => resolveRef?_still reference)
  | operate budget operation =>
      exact operation.relinks budget linked has fun inquiry member =>
        clear _ (List.mem_map_of_mem member)
  | allocate className options =>
      refine keeping (.bind (.still requireAssembly_still) fun _ => .of_get fun seen => ?_)
      split
      · exact newInstance_keeping _ options
      · exact .throw _
  | drop id =>
      have dies : world.Relinks receiver permitted
          (world.withObject id fun object => { object with alive := false }) :=
        .of_object linked id (fun _ => rfl) (fun _ _ held => held) fun _ _ held => .inl held
      exact dies.trans (.of_same dies.linked {})
  | openScope id view => exact keeping (openScope?_keeping id view)
  | newStore attached => exact .of_same linked {}
  | declare scope name type => exact keeping (declare_keeping scope name _)
  | declareHosted scope name type accessor reference => exact keeping (declare_keeping scope name _)
  | status scope name =>
      have asked : Keeping (.level receiver permitted) (Session.status scope name) :=
        .of_get fun seen => .bind (isAssigned_keeping name scope) fun _ => .pure _
      exact keeping asked
  | annotate scope name annotations => exact keeping (annotate_keeping name annotations scope)
  | annotations budget scope name =>
      have kept := annotationsOf_keepsUpTo (level_guardedBy receiver permitted) budget name scope world
      exact kept.ends (fun inquiry member => clear _ (List.mem_map_of_mem member)) linked
  | marshal value type => exact still (.bind requireAssembly_still fun _ => toHost_still value type)
  | newHost object => exact still (newHost_still object)
  | newReference reference => exact .of_pushReference linked reference
  | bindReference reference host => exact .of_byHand linked reference has (clear _ List.mem_cons_self)
  | resolveLevel id level => exact keeping (levelHost_keeping ⟨id, level⟩)
  | newContext limit => exact .of_same linked {}
  | holdFrame name context frame =>
      refine keeping (.of_get fun seen => ?_)
      split
      · exact .throw _
      · refine .bind (.change fun world => Custody.aside _ ?_) fun _ => .pure _
        dsimp only
        split <;> exact {}
  | releaseFrame name =>
      refine still (.of_get fun seen => ?_)
      split
      · exact .pure _
      · exact .bind (fun world => {}) fun _ => .pure _
  | save name binding => exact .of_same linked {}
  | takeLog => exact .of_same linked {}

/-- Where a list of requests is cut as occasions, it is cut as requests. -/
theorem split_requests {made : List Inquiry} {occasion : Occasion} {earlier later : List Occasion}
    (split : made.map .request = earlier ++ occasion :: later) :
    ∃ before inquiry after, made = before ++ inquiry :: after ∧ earlier = before.map .request ∧
      occasion = .request inquiry := by
  obtain ⟨before, rest, rfl, rfl, tail⟩ := List.map_eq_append_iff.mp split
  obtain ⟨inquiry, after, rfl, rfl, rfl⟩ := List.map_eq_cons_iff.mp tail
  exact ⟨before, inquiry, after, rfl, rfl, rfl⟩

/-- So does a command, as far as it went when a request was made in its middle. -/
theorem Command.relinks_within (command : Command) (linked : world.WellLinked)
    (has : command.Has world) {occasion : Occasion} {earlier later : List Occasion}
    (split : command.occasions world = earlier ++ occasion :: later)
    (clear : ∀ other ∈ earlier, ¬ other.Binds receiver fun type => ¬ permitted type) :
    world.Relinks receiver permitted occasion.world := by
  have within : ∀ {α : Type} {run : Exec α} {made : List Inquiry},
      KeepsUpTo (.level receiver permitted)
        (Inquiry.Binds receiver fun type => ¬ permitted type) run made world →
      made.map .request = earlier ++ occasion :: later →
      world.Relinks receiver permitted occasion.world := by
    intro α run made kept split
    obtain ⟨before, inquiry, after, same, rfl, rfl⟩ := split_requests split
    exact kept.inquiry same (fun other member => clear _ (List.mem_map_of_mem member)) linked
  cases command with
  | operate budget operation =>
      exact within (.of_account operation.account (level_guardedBy receiver permitted) budget world
        fun nested => operation.run_keeping nested has) split
  | annotations budget scope name =>
      exact within (annotationsOf_keepsUpTo (level_guardedBy receiver permitted) budget name scope
        world) split
  | bindReference reference host =>
      obtain rfl : occasion = .byHand reference host world := by
        refine List.mem_singleton.mp ?_
        rw [show [Occasion.byHand reference host world] = _ from split]
        exact List.mem_append_right _ List.mem_cons_self
      exact .refl linked
  | _ => exact absurd split.symm (List.append_ne_nil_of_right_ne_nil _ (List.cons_ne_nil _ _))

/-! ## Sessions relink as permitted -/

/-- All that a session does changes what a level is bound to only as permitted, unless something on
the way does not. -/
theorem Course.relinks {first second : World} {permitted : HostType → Prop}
    (course : Course (Occasion.Binds receiver fun type => ¬ permitted type) first second)
    (linked : first.WellLinked) (ordered : first.alive = true → first.InOrder) :
    first.Relinks receiver permitted second ∧ (second.alive = true → second.InOrder) := by
  induction course with
  | start => exact ⟨.refl linked, ordered⟩
  | command _ command has clear ih =>
      obtain ⟨before, order⟩ := ih
      have relinks := command.relinks before.linked order has clear
      exact ⟨before.trans relinks, fun alive =>
        (command.advances has (order (relinks.keeps.alive alive))).2⟩
  | mutate _ id object has same ih =>
      obtain ⟨before, order⟩ := ih
      refine ⟨before.trans (.of_same before.linked ?_), fun alive => ?_⟩
      · exact (Aside.withHost _ same).toSameLinks.sameLevels
      · exact (Advances.withHost has same (order alive)).2
  | dropAssembly _ ih =>
      obtain ⟨before, order⟩ := ih
      exact ⟨before.trans (.of_same before.linked { alive := fun alive => nomatch alive }),
        fun alive => nomatch alive⟩

/-- So does all that it does before one of its moments. -/
theorem Visits.relinks {first now : World} {permitted : HostType → Prop}
    (visits : Visits (Occasion.Binds receiver fun type => ¬ permitted type) first now)
    (linked : first.WellLinked) (ordered : first.alive = true → first.InOrder) :
    first.Relinks receiver permitted now := by
  cases visits with
  | between course => exact (course.relinks linked ordered).1
  | within course command has split clear =>
      have before := (course.relinks linked ordered).1
      exact before.trans (command.relinks_within before.linked has split clear)

/-- At the start of a session there are no levels. -/
theorem wellLinked_initial (config : Config) (marshaling : MarshalRules) :
    (World.initial config marshaling).WellLinked where
  inside sits := nomatch sits
  owner sits := nomatch sits
  className sits := nomatch sits
  described sits := nomatch sits
  apart sits := nomatch sits
  host held := nomatch held
  bound isBound := nomatch isBound
  paired _ _ found := nomatch found

/-- In every state of a session levels are linked, and the state is in order as long as the assembly is
there. -/
theorem Course.wellLinked {config : Config} {marshaling : MarshalRules} {now : World}
    (course : Course Anything (World.initial config marshaling) now) :
    now.WellLinked ∧ (now.alive = true → now.InOrder) := by
  have unbarred : Course (Occasion.Binds ⟨⟨0⟩, 0⟩ fun _ => ¬ True) (World.initial config marshaling)
      now := course.among fun _ binds => binds.kind.elim fun _ barred => barred trivial
  obtain ⟨relinks, ordered⟩ := unbarred.relinks (wellLinked_initial config marshaling) fun _ =>
    inOrder_initial config marshaling
  exact ⟨relinks.linked, ordered⟩

/-- Whatever happens on the way, the links are kept. -/
theorem Visits.freely {first now : World} (visits : Visits Anything first now)
    (linked : first.WellLinked) (ordered : first.alive = true → first.InOrder) (receiver : Receiver) :
    first.Relinks receiver (fun _ => True) now :=
  (visits.among fun _ binds => binds.kind.elim fun _ barred => barred trivial :
    Visits (Occasion.Binds receiver fun _ => ¬ True) first now).relinks linked ordered

end

end ScriptObjects
