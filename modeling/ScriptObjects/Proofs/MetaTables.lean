import ScriptObjects.Proofs.Origins

/-!
# Meta-functions as they were first asked for

A class builds the table of its meta-functions once, at the first request, and keeps it.  The
request may come early: an instance can be made, and an operator applied to it, while a base of
its class is not registered yet.  The table then shows the chain of that moment for good.

What is in a table is never wrong.  Since a chain grows only at its end, a function that was the
nearest of its name stays the nearest.  What is missing from a table may have appeared since, on
a class that was registered later; after a successful validation there is no such class.
-/

namespace ScriptObjects

set_option autoImplicit false

open Exec

theorem HostChange.classes {first second : World} (change : HostChange first second) :
    second.classes = first.classes := by
  cases change <;> rfl

namespace World

/-! ## What a chain answers -/

/-- A class of a chain declares a function of the name of a key. -/
def DeclaresAlong (world : World) (chain : List ClassId) (key : MetaKey) : Prop :=
  ∃ member ∈ chain, ∃ function ∈ (world.cls member).functions, function.name = key.methodName

/-- Only annotation classes answer under the keys of annotations. -/
def MayAnswer (world : World) (id : ClassId) (key : MetaKey) : Prop :=
  key.isAnnotationHook = true → (world.cls id).mode = .marker

/-- A class answers a request for a meta-function as its chain now stands: its table has one if the
chain declares one that the class may answer with. -/
def AnswersAsChain (world : World) (id : ClassId) (key : MetaKey) : Prop :=
  world.MayAnswer id key → world.DeclaresAlong (world.ancestors id) key →
    ((world.metaTable id).get? key).isSome

/-- A link leads to the function of its name on the most derived class of a chain that declares
one. -/
def LinksNearest (world : World) (chain : List ClassId) (link : MetaLink) : Prop :=
  ∃ nearer member rest, chain = nearer ++ member :: rest ∧
    (∀ other ∈ nearer, ∀ function ∈ (world.cls other).functions,
      function.name ≠ link.key.methodName) ∧
    link.function ∈ (world.cls member).functions ∧
    link.function.name = link.key.methodName ∧
    link.owner = Owner.ofClass (world.cls member).name ∧ link.access = link.function.access

theorem LinksNearest.grow {world : World} {chain longer : List ClassId} {link : MetaLink}
    (nearest : world.LinksNearest chain link) (grows : chain <+: longer) :
    world.LinksNearest longer link := by
  obtain ⟨nearer, member, rest, rfl, none, leads⟩ := nearest
  obtain ⟨more, rfl⟩ := grows
  exact ⟨nearer, member, rest ++ more, by simp, none, leads⟩

theorem mem_metaKeys {world : World} {id : ClassId} {key : MetaKey} :
    key ∈ world.metaKeys id ↔ world.MayAnswer id key := by
  unfold metaKeys MayAnswer
  split
  · next marker => exact iff_of_true (by cases key <;> decide) fun _ => marker
  · next other =>
      have plain : key ∈ MetaKey.classKeys ↔ ¬ key.isAnnotationHook = true := by
        cases key <;> decide
      exact plain.trans ⟨fun hook annotation => absurd annotation hook,
        fun none hook => other (none hook)⟩

theorem acceptedFunction?_any (cls : ClassDef) (name : String) :
    cls.acceptedFunction? name (fun _ => true) = cls.function? name := by
  unfold ClassDef.acceptedFunction?
  cases cls.function? name <;> rfl

theorem acceptedFunction?_eq_none {cls : ClassDef} {name : String} :
    cls.acceptedFunction? name (fun _ => true) = none ↔
      ∀ function ∈ cls.functions, function.name ≠ name := by
  rw [acceptedFunction?_any, ClassDef.function?, List.find?_eq_none]
  simp

theorem metaLink?_isSome (world : World) (id : ClassId) (key : MetaKey) :
    (world.metaLink? id key).isSome ↔ world.DeclaresAlong (world.ancestors id) key := by
  unfold metaLink? nearest? DeclaresAlong
  rw [Option.isSome_map, List.findSome?_isSome_iff]
  refine exists_congr fun member => and_congr_right fun _ => ?_
  rw [← Option.ne_none_iff_isSome, ne_eq, acceptedFunction?_eq_none]
  simp

theorem Registered.metaLink?_nearest {world : World} (registered : world.Registered) {id : ClassId}
    {key : MetaKey} {link : MetaLink} (found : world.metaLink? id key = some link) :
    link.key = key ∧ world.LinksNearest (world.ancestors id) link := by
  obtain ⟨function, nearest, rfl⟩ := Option.map_eq_some_iff.mp found
  obtain ⟨nearer, member, rest, chain, answer, none⟩ := List.findSome?_eq_some_iff.mp nearest
  obtain ⟨declared, named, _⟩ := mem_of_acceptedFunction? answer
  refine ⟨rfl, nearer, member, rest, chain, fun other before => ?_, declared, named, ?_, rfl⟩
  · exact acceptedFunction?_eq_none.mp (none other before)
  · simp only [registered.owners member function declared, Option.getD_some]

/-- What a table that is built now answers: along the chain as it stands. -/
theorem get?_buildMetaTable (world : World) (id : ClassId) (key : MetaKey) :
    (world.buildMetaTable id).get? key =
      if key ∈ world.metaKeys id then world.metaLink? id key else none := by
  have keyed : ∀ other link, world.metaLink? id other = some link → link.key = other := by
    intro other link found
    obtain ⟨function, _, rfl⟩ := Option.map_eq_some_iff.mp found
    rfl
  unfold buildMetaTable MetaTable.get?
  induction world.metaKeys id with
  | nil => rfl
  | cons other rest ih =>
      have same : key = other ∨ key ≠ other := Classical.em _
      cases found : world.metaLink? id other with
      | none =>
          rw [List.filterMap_cons_none found, ih]
          obtain rfl | differs := same
          · simp [found]
          · simp [differs]
      | some link =>
          rw [List.filterMap_cons_some found, List.find?_cons, keyed other link found]
          obtain rfl | differs := same
          · simp [found]
          · rw [decide_eq_false differs.symm, ih]
            simp [differs]

/-! ## The first request -/

/-- The state after the meta-functions of a class were asked for the first time. -/
def withBuiltTable (world : World) (id : ClassId) : World :=
  world.withClass id fun cls => { cls with metaTable := some (world.buildMetaTable id) }

/-- A registered class has no table yet in the first of two states.  If it has one in the second,
the table was built in the first; otherwise they are the same state. -/
structure FirstAsked (id : ClassId) (asked world : World) : Prop where
  reachable : Reachable asked
  known : id.index < asked.classes.size
  missing : (asked.cls id).metaTable = none
  since : asked = world ∨ GoesOn (asked.withBuiltTable id) world

/-- No class gets a table by being registered, or when something else is. -/
theorem Enlists.metaTable {before after : World} (enlists : Enlists before after) (id : ClassId) :
    (after.cls id).metaTable = (before.cls id).metaTable := by
  obtain ⟨spec, adds⟩ | ⟨function, adds⟩ := enlists.cases
  · by_cases newest : id = before.classes.next
    · subst newest
      rw [adds.describes.table]
      unfold World.cls Heap.get
      rw [Heap.get?_eq_none before.classes (Nat.le_of_eq before.classes.next_index.symm)]
      rfl
    · rw [adds.cls_ne newest]
  · unfold World.cls
    rw [adds.rest]

/-- A table that was built stays. -/
theorem GoesOn.metaTable {first second : World} {id : ClassId} {table : MetaTable}
    (later : GoesOn first second) (kept : (first.cls id).metaTable = some table) :
    (second.cls id).metaTable = some table := by
  induction later with
  | start => exact kept
  | proceed _ proceeds ih =>
      induction proceeds with
      | refl => exact ih
      | run _ change again =>
          obtain same | ⟨missing, _⟩ := change.metaTable_cases id
          · exact same.trans again
          · rw [missing] at again
            cases again
      | host _ change again =>
          unfold cls
          rw [change.classes]
          exact again
  | enlist _ enlists ih => exact (enlists.metaTable id).trans ih

namespace FirstAsked

variable {id : ClassId} {asked world : World}

/-- A table that was missing is missing after whatever builds none. -/
theorem later {after : World} (first : FirstAsked id asked world) (later : GoesOn world after)
    (same : (after.cls id).metaTable = (world.cls id).metaTable) :
    ∃ asked, FirstAsked id asked after := by
  obtain ⟨reachable, known, missing, rfl | since⟩ := first
  · exact ⟨after, reachable.goesOn later,
      Nat.lt_of_lt_of_le known (later.lasts reachable).size, same.trans missing, .inl rfl⟩
  · exact ⟨asked, reachable, known, missing, .inr (since.trans later)⟩

theorem change {after : World} (first : FirstAsked id asked world)
    (change : Change (fun _ => True) (fun _ => True) world after) :
    ∃ asked, FirstAsked id asked after := by
  have goes : GoesOn world after := .proceed (.start world) (.run (.refl world) change)
  obtain same | ⟨missing, built⟩ := change.metaTable_cases id
  · exact first.later goes same
  · obtain ⟨reachable, known, missed, rfl | since⟩ := first
    · exact ⟨asked, reachable, known, missed, .inr (built ▸ .start _)⟩
    · exact ⟨asked, reachable, known, missed, .inr (since.trans goes)⟩

theorem proceed {after : World} (first : FirstAsked id asked world)
    (proceeds : Proceeds world after) : ∃ asked, FirstAsked id asked after := by
  induction proceeds with
  | refl => exact ⟨asked, first⟩
  | run _ change ih =>
      obtain ⟨_, between⟩ := ih
      exact between.change change
  | host _ change ih =>
      obtain ⟨_, between⟩ := ih
      refine between.later (.proceed (.start _) (.host (.refl _) change)) ?_
      unfold cls
      rw [change.classes]

section

variable (first : FirstAsked id asked world)
include first

theorem lasts : Lasts asked world := by
  obtain ⟨reachable, _, missing, rfl | since⟩ := first
  · exact .refl _
  · have builds : GoesOn asked (asked.withBuiltTable id) :=
      .proceed (.start asked) (.run (.refl asked) (.metaTable id missing))
    exact (builds.trans since).lasts reachable

/-- The class answers from the table that was built at the first request. -/
theorem metaTable_eq : world.metaTable id = asked.buildMetaTable id := by
  obtain ⟨_, known, missing, rfl | since⟩ := first
  · unfold metaTable
    rw [missing]
    rfl
  · have built : ((asked.withBuiltTable id).cls id).metaTable = some (asked.buildMetaTable id) := by
      unfold withBuiltTable
      rw [cls_withClass, if_pos ⟨rfl, known⟩]
    unfold metaTable
    rw [since.metaTable built]
    rfl

/-- The classes of the chain at the first request declare what they declared then. -/
theorem functions_eq {member : ClassId} (met : member ∈ asked.ancestors id) :
    (world.cls member).functions = (asked.cls member).functions ∧
      (world.cls member).name = (asked.cls member).name := by
  have registered := first.reachable.sound.2.registered
  have inside := ancestors_inside (fun _ _ => registered.base?_inside) first.known member met
  exact ⟨first.lasts.ask ClassDef.functions (fun _ => rfl) inside,
    first.lasts.ask ClassDef.name (fun _ => rfl) inside⟩

theorem declaresAlong_iff (key : MetaKey) :
    asked.DeclaresAlong (asked.ancestors id) key ↔ world.DeclaresAlong (asked.ancestors id) key := by
  refine exists_congr fun member => and_congr_right fun met => ?_
  rw [(first.functions_eq met).1]

theorem linksNearest {link : MetaLink} (nearest : asked.LinksNearest (asked.ancestors id) link) :
    world.LinksNearest (world.ancestors id) link := by
  refine LinksNearest.grow ?_ (first.lasts.chains id)
  obtain ⟨nearer, member, rest, chain, none, declared, named, owned, tier⟩ := nearest
  have met : ∀ other ∈ nearer ++ [member], other ∈ asked.ancestors id := by
    intro other found
    rw [chain, List.append_cons]
    exact List.mem_append_left rest found
  obtain ⟨functions, name⟩ := first.functions_eq (met member (by simp))
  refine ⟨nearer, member, rest, chain, fun other before => ?_, ?_, named, ?_, tier⟩
  · rw [(first.functions_eq (met other (List.mem_append_left _ before))).1]
    exact none other before
  · rw [functions]
    exact declared
  · rw [name]
    exact owned

theorem mayAnswer_iff (key : MetaKey) : asked.MayAnswer id key ↔ world.MayAnswer id key := by
  unfold MayAnswer
  rw [first.lasts.ask ClassDef.mode (fun _ => rfl) first.known]

theorem get?_metaTable (key : MetaKey) : (world.metaTable id).get? key =
    if key ∈ asked.metaKeys id then asked.metaLink? id key else none := by
  rw [first.metaTable_eq, get?_buildMetaTable]

theorem isSome_iff (key : MetaKey) : ((world.metaTable id).get? key).isSome ↔
    world.MayAnswer id key ∧ world.DeclaresAlong (asked.ancestors id) key := by
  rw [first.get?_metaTable, ← first.mayAnswer_iff, ← first.declaresAlong_iff, ← mem_metaKeys,
    ← metaLink?_isSome]
  by_cases admitted : key ∈ asked.metaKeys id
  · simp [admitted]
  · simp [admitted]

theorem link_nearest {key : MetaKey} {link : MetaLink}
    (found : (world.metaTable id).get? key = some link) :
    link.key = key ∧ world.LinksNearest (world.ancestors id) link := by
  rw [first.get?_metaTable] at found
  split at found
  · obtain ⟨keyed, nearest⟩ := first.reachable.sound.2.registered.metaLink?_nearest found
    exact ⟨keyed, first.linksNearest nearest⟩
  · cases found

/-- The chain does not grow any more if the registry was valid when the class was first asked. -/
theorem chain_eq (ok : (Session.validate asked).1 = .done (.ok ())) :
    asked.ancestors id = world.ancestors id :=
  (first.reachable.ancestors_validated ok first.lasts first.known).symm

theorem answersAsChain (ok : (Session.validate asked).1 = .done (.ok ())) (key : MetaKey) :
    world.AnswersAsChain id key := by
  intro may declares
  rw [← first.chain_eq ok] at declares
  exact (first.isSome_iff key).mpr ⟨may, declares⟩

end

end FirstAsked

/-- Every registered class was asked for its meta-functions first in some state, or is yet to be. -/
theorem Reachable.firstAsked {world : World} (reachable : Reachable world) {id : ClassId}
    (known : id.index < world.classes.size) : ∃ asked, FirstAsked id asked world := by
  induction reachable using Reachable.induct with
  | initial => exact absurd known (Nat.not_lt_zero _)
  | @proceed first second before proceeds ih =>
      obtain ⟨alive, sound⟩ := before.sound
      rw [(proceeds.sound_continues alive sound).2.hierarchy.size] at known
      obtain ⟨asked, earlier⟩ := ih known
      exact earlier.proceed proceeds
  | @enlist first second before enlists ih =>
      have goes : GoesOn first second := .enlist (.start first) enlists
      by_cases old : id.index < first.classes.size
      · obtain ⟨asked, earlier⟩ := ih old
        exact earlier.later goes (enlists.metaTable id)
      · have missing : (first.cls id).metaTable = none := by
          unfold cls Heap.get
          rw [Heap.get?_eq_none first.classes (Nat.le_of_not_lt old)]
          rfl
        exact ⟨second, before.enlist enlists, known, (enlists.metaTable id).trans missing, .inl rfl⟩

/-- In every state of a session, validated or not, a registered class answers to requests for its
meta-functions as its chain stood when they were first asked for.  That chain is where the current
one begins, and all of it if the registry was valid then.  Under a key that the class may answer to
there is a function exactly if the earlier chain has one of its name; and it is the one that the
most derived class declares which declares one at all, also on the current chain. -/
theorem meta_functions_as_first_asked {world : World} (reachable : Reachable world) {id : ClassId}
    (known : id ∈ world.classes.handles) :
    ∃ asked, FirstAsked id asked world ∧ asked.ancestors id <+: world.ancestors id ∧
      ((Session.validate asked).1 = .done (.ok ()) → asked.ancestors id = world.ancestors id) ∧
      (Session.metaTable id world).1 = .done (world.metaTable id) ∧
      ∀ key, ∃ link?, (world.metaTable id).get? key = link? ∧
        (Exec.metaLink? id key world).1 = .done link? ∧
        (link?.isSome ↔
          world.MayAnswer id key ∧ world.DeclaresAlong (asked.ancestors id) key) ∧
        ∀ link ∈ link?, link.key = key ∧ world.LinksNearest (world.ancestors id) link := by
  obtain ⟨asked, first⟩ := reachable.firstAsked ((Heap.mem_handles _ _).mp known)
  exact ⟨asked, first, first.lasts.chains id, first.chain_eq, rfl, fun key =>
    ⟨_, rfl, rfl, first.isSome_iff key, fun _ found => first.link_nearest found⟩⟩

/-- Only registered classes have meta-functions. -/
theorem Reachable.inside_of_link {world : World} (reachable : Reachable world) {id : ClassId}
    {key : MetaKey} {link : MetaLink} (found : (world.metaTable id).get? key = some link) :
    id.index < world.classes.size := by
  obtain ⟨_, sound⟩ := reachable.sound
  obtain ⟨_, member, along, declared, _⟩ := sound.registered.links found
  by_contra beyond
  rw [ancestors_beyond (Nat.le_of_not_lt beyond), List.mem_singleton] at along
  exact beyond (along ▸ inside_of_function declared)

/-- What is in the table of a class leads to the nearest function of its name. -/
theorem Reachable.links_nearest {world : World} (reachable : Reachable world) {id : ClassId}
    {key : MetaKey} {link : MetaLink} (found : (world.metaTable id).get? key = some link) :
    link.key = key ∧ world.LinksNearest (world.ancestors id) link := by
  obtain ⟨asked, first⟩ := reachable.firstAsked (reachable.inside_of_link found)
  exact first.link_nearest found

/-- A class that answers as its chain stands misses none of its functions. -/
theorem Reachable.answers_iff {world : World} (reachable : Reachable world) {id : ClassId}
    {key : MetaKey} (answers : world.AnswersAsChain id key) :
    (world.metaTable id).get? key = none ↔
      ¬ (world.MayAnswer id key ∧ world.DeclaresAlong (world.ancestors id) key) := by
  refine ⟨fun missing ⟨may, declares⟩ => ?_, fun nothing => ?_⟩
  · have present := answers may declares
    rw [missing] at present
    cases present
  · by_contra present
    obtain ⟨link, found⟩ := Option.ne_none_iff_exists'.mp present
    obtain ⟨asked, first⟩ := reachable.firstAsked (reachable.inside_of_link found)
    obtain ⟨may, member, along, declares⟩ :=
      (first.isSome_iff key).mp (Option.isSome_iff_exists.mpr ⟨link, found⟩)
    exact nothing ⟨may, member, (first.lasts.chains id).subset along, declares⟩

/-! ## A base that is registered late -/

/-- A class whose base is registered after its meta-functions were asked for. -/
def askedEarly : World :=
  ((defining default [bareClass "B" (some "A") [] []]).keepMetaTable ⟨0⟩).orDefine
    (bareClass "A" none [] [bareFunction "opLength" (.int 1)])

theorem Reachable.keepMetaTable {world : World} (reachable : Reachable world) (id : ClassId) :
    Reachable (world.keepMetaTable id) :=
  .proceed reachable (LeadsFreely.proceeds (metaLink?_leads id .construct) world)

theorem reachable_askedEarly : Reachable askedEarly :=
  ((reachable_defining default _).keepMetaTable ⟨0⟩).orDefine _

theorem validate_askedEarly : (Session.validate askedEarly).1 = .done (.ok ()) := by
  rw [validate_of_alive (by decide +kernel)]
  exact congrArg Outcome.done (by decide +kernel)

theorem known_askedEarly : ⟨0⟩ ∈ askedEarly.classes.handles := by decide +kernel

theorem meta_functions_as_first_asked_early : Reachable askedEarly ∧
    ⟨0⟩ ∈ askedEarly.classes.handles ∧ ∃ asked, FirstAsked ⟨0⟩ asked askedEarly ∧
      asked.ancestors ⟨0⟩ <+: askedEarly.ancestors ⟨0⟩ ∧
      ¬ askedEarly.DeclaresAlong (asked.ancestors ⟨0⟩) .length := by
  refine ⟨reachable_askedEarly, known_askedEarly, ?_⟩
  obtain ⟨asked, first, begins, _, _, answers⟩ :=
    meta_functions_as_first_asked reachable_askedEarly known_askedEarly
  refine ⟨asked, first, begins, fun declared => ?_⟩
  obtain ⟨link?, found, _, present, _⟩ := answers .length
  have missing : (askedEarly.metaTable ⟨0⟩).get? .length = none := by
    rw [← Option.isNone_iff_eq_none]
    decide +kernel
  have there := present.mpr ⟨nofun, declared⟩
  rw [← found, missing] at there
  cases there

/-- The class does not answer under the key of a function that its base declares. -/
theorem meta_function_missing : ¬ ∀ world, Reachable world →
    (Session.validate world).1 = .done (.ok ()) → ∀ id ∈ world.classes.handles, ∀ key,
      ((world.metaTable id).get? key).isSome ↔
        world.MayAnswer id key ∧ world.DeclaresAlong (world.ancestors id) key := by
  intro claim
  have missing : ((askedEarly.metaTable ⟨0⟩).get? .length).isSome = false := by decide +kernel
  have answers := (claim askedEarly reachable_askedEarly validate_askedEarly ⟨0⟩
    known_askedEarly .length).mpr
  have chain : askedEarly.ancestors ⟨0⟩ = [⟨0⟩, ⟨1⟩] := by decide +kernel
  have declared : (askedEarly.cls ⟨1⟩).functions.map FunctionDecl.name = ["opLength"] := by
    decide +kernel
  obtain ⟨function, member, named⟩ := List.mem_map.mp (declared ▸ List.mem_singleton_self "opLength")
  have present := answers ⟨nofun, ⟨1⟩, by rw [chain]; simp, function, member, named⟩
  rw [missing] at present
  cases present

end World

end ScriptObjects
