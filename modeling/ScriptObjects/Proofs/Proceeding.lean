import ScriptObjects.Proofs.Commands
import ScriptObjects.Proofs.Initialization

/-!
# Commands proceed

A command that defines nothing leads from state to state through the single changes that runs and
the host make (`Command.proceeds`).  Whatever each of them keeps is kept by whole commands, and
holds in the middle of a command as well.

Most of what commands are made of proceeds because it evolves the state.  Walks through scopes are
left, and what a command does by the hand of the host.
-/

namespace ScriptObjects

set_option autoImplicit false

open Exec World

namespace Exec

variable {α β : Type}

/-- A run proceeds from every state. -/
def Proceeding (run : Exec α) : Prop := ∀ world, Proceeds world (run world).2

namespace Proceeding

theorem of_leads {run : Exec α} (leads : LeadsFreely run) : Proceeding run := leads.proceeds

theorem pure (result : α) : Proceeding (pure result : Exec α) := fun world => .refl world

theorem throw (fault : Fault) : Proceeding (throw fault : Exec α) := fun world => .refl world

theorem change {update : World → World} (changes : ∀ world, Proceeds world (update world)) :
    Proceeding (Exec.change update) := changes

theorem bind {run : Exec α} {next : α → Exec β} (first : Proceeding run)
    (second : ∀ result, Proceeding (next result)) : Proceeding (run >>= next) := by
  intro world
  have before := first world
  rw [bind_apply]
  rcases ends : run world with ⟨outcome, after⟩
  rw [ends] at before
  cases outcome with
  | done result => exact before.trans (second result after)
  | failed fault => exact before
  | exhausted => exact before

theorem of_get {next : World → Exec β} (second : ∀ seen, Proceeding (next seen)) :
    Proceeding ((get : Exec World) >>= next) := fun world => second world world

theorem recover {run : Exec α} {handler : Fault → Exec α} (first : Proceeding run)
    (second : ∀ fault, Proceeding (handler fault)) : Proceeding (run.recover handler) := by
  intro world
  have before := first world
  unfold Exec.recover
  rcases ends : run world with ⟨outcome, after⟩
  rw [ends] at before
  cases outcome with
  | done result => exact before
  | failed fault => exact before.trans (second fault after)
  | exhausted => exact before

theorem attempt {run : Exec α} (first : Proceeding run) : Proceeding (Exec.attempt run) := by
  intro world
  have before := first world
  unfold Exec.attempt
  rcases ends : run world with ⟨outcome, after⟩
  rw [ends] at before
  cases outcome <;> exact before

theorem requireAssembly : Proceeding Exec.requireAssembly := of_leads requireAssembly_leads

theorem orElseUndeclared {run next : Exec α} (first : Proceeding run) (second : Proceeding next) :
    Proceeding (ScriptObjects.orElseUndeclared run next) := by
  refine .recover first fun fault => ?_
  split
  · split
    · exact second
    · exact .throw _
  · exact .throw _

end Proceeding

end Exec

/-! ## Walking through scopes -/

mutual

theorem declare_proceeding (name : String) {slot : Slot} (isMutable : slot.immutable = false) :
    (scope : Scope) → Proceeding (declare scope name slot)
  | .store id => by
      intro world
      unfold declare
      cases taken : (world.store id).declares name with
      | true =>
          rw [insertSlot_of_declared slot taken]
          exact .refl world
      | false =>
          rw [insertSlot_of_free slot taken]
          exact .host (.refl world) (.declare id name slot isMutable taken)
  | .composite sources => by
      unfold declare
      exact declareFirst_proceeding name isMutable sources

theorem declareFirst_proceeding (name : String) {slot : Slot} (isMutable : slot.immutable = false) :
    (sources : List Scope) → Proceeding (declareFirst sources name slot)
  | [] => by
      unfold declareFirst
      exact .throw _
  | first :: _ => by
      unfold declareFirst
      exact declare_proceeding name isMutable first

end

mutual

theorem annotate_proceeding (name : String) (annotations : List InstanceId) :
    (scope : Scope) → Proceeding (annotate name annotations scope)
  | .store id => by
      unfold annotate
      exact .of_leads (annotateSlot_leads id name annotations)
  | .composite sources => by
      unfold annotate
      exact annotateSources_proceeding name annotations sources

theorem annotateSources_proceeding (name : String) (annotations : List InstanceId) :
    (sources : List Scope) → Proceeding (annotateSources name annotations sources)
  | [] => by
      unfold annotateSources
      exact .throw _
  | source :: rest => by
      unfold annotateSources
      exact .orElseUndeclared (annotate_proceeding name annotations source)
        (annotateSources_proceeding name annotations rest)

end

theorem isSlotAssigned_proceeding (id : StoreId) (name : String) :
    Proceeding (isSlotAssigned id name) := by
  refine .of_get fun seen => ?_
  split
  · exact .pure _
  · split
    · exact .pure _
    · refine .bind (.attempt (.of_leads (resolveReference_leads _))) fun answer => ?_
      split <;> exact .pure _

mutual

theorem isAssigned_proceeding (name : String) :
    (scope : Scope) → Proceeding (isAssigned name scope)
  | .store id => by
      unfold isAssigned
      exact isSlotAssigned_proceeding id name
  | .composite sources => by
      unfold isAssigned
      exact isAssignedInFirst_proceeding name sources

theorem isAssignedInFirst_proceeding (name : String) :
    (sources : List Scope) → Proceeding (isAssignedInFirst name sources)
  | [] => by
      unfold isAssignedInFirst
      exact .pure _
  | source :: rest => by
      unfold isAssignedInFirst
      refine .of_get fun seen => ?_
      split
      · exact isAssigned_proceeding name source
      · exact isAssignedInFirst_proceeding name rest

end

theorem materialize_proceeding (budget : Nat) (id : StoreId) (name : String) :
    Proceeding (materialize (performUpTo budget) id name) := by
  have tracks := materialize_tracks
    ((performUpTo_leads budget).tracks (fun _ => True) (fun _ => True)).looksUp id name
  exact .of_leads tracks.leads

theorem storeAnnotations_proceeding (budget : Nat) (id : StoreId) (name : String) :
    Proceeding (storeAnnotations (performUpTo budget) id name) := by
  refine .of_get fun seen => ?_
  split
  case' isFalse =>
    refine .bind (.attempt (materialize_proceeding budget id name)) fun answer => ?_
    split
    case' h_2 => refine .bind (α := Unit) (.throw _) fun _ => ?_
    case' h_3 => refine .bind (α := Unit) (.throw _) fun _ => ?_
  -- In each case that is left the slot is read in the end.
  all_goals
    refine .of_get fun seen => ?_
    split
    · exact .pure _
    · exact .throw _

mutual

theorem annotationsOf_proceeding (budget : Nat) (name : String) :
    (scope : Scope) → Proceeding (annotationsOf (performUpTo budget) name scope)
  | .store id => by
      unfold annotationsOf
      exact storeAnnotations_proceeding budget id name
  | .composite sources => by
      unfold annotationsOf
      exact annotationsInSources_proceeding budget name sources

theorem annotationsInSources_proceeding (budget : Nat) (name : String) :
    (sources : List Scope) → Proceeding (annotationsInSources (performUpTo budget) name sources)
  | [] => by
      unfold annotationsInSources
      exact .throw _
  | source :: rest => by
      unfold annotationsInSources
      exact .orElseUndeclared (annotationsOf_proceeding budget name source)
        (annotationsInSources_proceeding budget name rest)

end

/-! ## Commands -/

namespace Command

/-- A reference that is made from a class has the name of that class. -/
def Genuine (world : World) : Command → Prop
  | .newClassRef name target => ∀ id ∈ target, world.findClass? name = some id
  | _ => True

/-- Whether a command declares a class or a function of the assembly. -/
def defines : Command → Bool
  | .define _ | .defineFunction _ => true
  | _ => false

/-- A command that defines nothing proceeds. -/
theorem proceeds {world : World} (command : Command) (genuine : command.Genuine world)
    (other : command.defines = false) : Proceeds world (command.after world) := by
  have single : ∀ {after : World}, HostChange world after → Proceeds world after :=
    fun change => .host (.refl world) change
  have follows : ∀ (seen : World) visited, Proceeds seen (seen.resolveBases visited) := by
    intro seen visited
    have evolves : Evolves (fun _ => True) (fun _ => True) seen _ := .resolveBases seen visited
    exact evolves.proceeds
  have whole : ∀ {α : Type} {run : Exec α}, Proceeding run → Proceeds world (run world).2 :=
    fun proceeding => proceeding world
  cases command with
  | define | defineFunction => cases other
  | validate =>
      refine whole (.bind .requireAssembly fun _ => ?_)
      exact fun seen => (validate_onlyFollows seen).proceeds
  | doesExtend id name | describeClass id | accepts type value => exact follows world _
  | metaTable id => exact whole (.of_leads (metaLink?_leads id default))
  | isTypeCompatible target source =>
      refine whole (.bind .requireAssembly fun _ => .of_get fun seen => ?_)
      exact .bind (.change fun world => follows world _) fun _ => .pure _
  | newClassRef name target => exact single (.classRef name target genuine)
  | resolveClassRef reference =>
      exact whole (.bind .requireAssembly fun _ => .of_leads (resolveRef?_leads reference))
  | operate budget operation => exact operation.run_proceeds budget world
  | allocate className options =>
      refine whole (.bind .requireAssembly fun _ => .of_get fun seen => ?_)
      split
      · exact .of_leads (newInstance_leads _ options)
      · exact .throw _
  | drop id => exact .host (single (.drop id)) (.bindings _)
  | openScope id view => exact whole (.of_leads (openScope?_leads id view))
  | newStore attached => exact single (.freeStore attached)
  | declare scope name type => exact whole (declare_proceeding name rfl scope)
  | declareHosted scope name type accessor reference =>
      exact whole (declare_proceeding name rfl scope)
  | status scope name =>
      have asked : Proceeding (Session.status scope name) :=
        .of_get fun seen => .bind (isAssigned_proceeding name scope) fun _ => .pure _
      exact whole asked
  | annotate scope name annotations => exact whole (annotate_proceeding name annotations scope)
  | annotations budget scope name => exact whole (annotationsOf_proceeding budget name scope)
  | marshal value type =>
      exact whole (.bind .requireAssembly fun _ => .of_leads (toHost_leads value type))
  | newHost object => exact whole (.of_leads (newHost_leads object))
  | newReference reference => exact single (.reference reference)
  | bindReference reference host => exact single (.bindReference reference host)
  | resolveLevel id level => exact whole (.of_leads (levelHost_leads ⟨id, level⟩))
  | newContext limit => exact whole (.of_leads (newContext_leads limit))
  | holdFrame name context frame =>
      refine whole (.of_get fun seen => ?_)
      split
      · exact .throw _
      · refine .bind (.change fun world => ?_) fun _ => .pure _
        dsimp only
        split
        · exact .host (.host (.host (.refl world) (.context _ _)) (.context _ _)) (.heldFrames _)
        · exact .host (.host (.refl world) (.context _ _)) (.heldFrames _)
  | releaseFrame name =>
      refine whole (.of_get fun seen => ?_)
      split
      · exact .pure _
      · refine .bind (.change fun world => ?_) fun _ => .pure _
        exact .host (.host (.refl world) (.context _ _)) (.heldFrames _)
  | save name binding => exact single (.bindings _)
  | takeLog => exact single (.log [])

end Command

end ScriptObjects
