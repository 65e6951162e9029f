import ScriptObjects.Proofs.Activities
import ScriptObjects.Proofs.Constructions

/-!
# Which faults a run can end in

A lookup goes on to the next source exactly when a source reports that the very name
is missing.  So it matters which activities can raise the fault of a lookup at all.
Construction cannot: whatever goes wrong inside it is reported as a fault of
construction.  Neither can the creation of annotations, nor the wrapping of a host
object in an instance.
-/

namespace ScriptObjects

set_option autoImplicit false

/-- A fault that is not that of a lookup. -/
def Fault.Foreign (fault : Fault) : Prop := ∀ cause, fault ≠ .lookup cause

theorem Fault.Foreign.isMiss {fault : Fault} (foreign : fault.Foreign) (name : String) :
    fault.isMiss name = false := by
  cases fault with
  | lookup cause => exact absurd rfl (foreign cause)
  | _ => rfl

/-- A fault that is neither that of a lookup nor that of the declaration of a field. -/
structure Fault.Distant (fault : Fault) : Prop where
  foreign : fault.Foreign
  undeclaring : ∀ className field cause, fault ≠ .declaration className field cause

namespace Exec

variable {α β : Type}

/-- Whatever fault a run ends in is among the allowed ones. -/
def FaultsIn (allowed : Fault → Prop) (run : Exec α) : Prop :=
  ∀ world fault after, run world = (.failed fault, after) → allowed fault

namespace FaultsIn

variable {allowed : Fault → Prop}

theorem pure (result : α) : FaultsIn allowed (pure result : Exec α) :=
  fun _ _ _ ends => nomatch ends

theorem throw {fault : Fault} (permitted : allowed fault) :
    FaultsIn allowed (throw fault : Exec α) := by
  intro world raised after ends
  cases ends
  exact permitted

theorem ask (question : World → α) : FaultsIn allowed (Exec.ask question) :=
  fun _ _ _ ends => nomatch ends

theorem change (update : World → World) : FaultsIn allowed (Exec.change update) :=
  fun _ _ _ ends => nomatch ends

theorem exhaust : FaultsIn allowed (Exec.exhaust : Exec α) :=
  fun _ _ _ ends => nomatch ends

theorem bind {run : Exec α} {next : α → Exec β} (first : FaultsIn allowed run)
    (second : ∀ result, FaultsIn allowed (next result)) : FaultsIn allowed (run >>= next) := by
  intro world fault after ends
  obtain raised | ⟨result, between, _, later⟩ := bind_failed ends
  · exact first world fault after raised
  · exact second result between fault after later

theorem of_get {next : World → Exec β} (second : ∀ seen, FaultsIn allowed (next seen)) :
    FaultsIn allowed ((get : Exec World) >>= next) :=
  fun world => second world world

theorem wrapFault {wrap : Fault → Fault} (run : Exec α) (wrapped : ∀ fault, allowed (wrap fault)) :
    FaultsIn allowed (Exec.wrapFault wrap run) := by
  intro world fault after ends
  unfold Exec.wrapFault at ends
  rcases first : run world with ⟨outcome, last⟩
  rw [first] at ends
  cases outcome with
  | done result => cases ends
  | failed raised =>
      cases ends
      exact wrapped raised
  | exhausted => cases ends

theorem weaken {more : Fault → Prop} {run : Exec α} (faults : FaultsIn allowed run)
    (among : ∀ fault, allowed fault → more fault) : FaultsIn more run :=
  fun world fault after ends => among fault (faults world fault after ends)

end FaultsIn

end Exec

open Exec

/-! ## Single steps -/

theorem requireAssembly_foreign : FaultsIn Fault.Foreign requireAssembly := by
  refine .of_get fun world => ?_
  split
  · exact .pure _
  · exact .throw fun _ same => nomatch same

theorem requireStoreAssembly_foreign (id : StoreId) :
    FaultsIn Fault.Foreign (requireStoreAssembly id) := by
  refine .of_get fun world => ?_
  split
  · exact .throw fun _ same => nomatch same
  · exact requireAssembly_foreign

theorem newInstance_distant (id : ClassId) (options : CreateOptions) :
    FaultsIn Fault.Distant (newInstance id options) := by
  intro world fault after ends
  cases creatable : options.has .enforceCreation || (world.cls id).mode.creatable with
  | true =>
      rw [newInstance_apply creatable] at ends
      cases ends
  | false =>
      rw [newInstance_of_forbidden creatable] at ends
      cases ends
      exact ⟨nofun, nofun⟩

theorem bindHost_foreign (id : InstanceId) (place : Nat) (host : HostId) :
    FaultsIn Fault.Foreign (bindHost id place host) := by
  refine .of_get fun world => ?_
  cases world.level? id place with
  | none => exact .change _
  | some level => exact .bind (.change _) fun _ => .change _

theorem coerce?_foreign (type : ValueType) (value : Value) :
    FaultsIn Fault.Foreign (coerce? type value) := by
  intro world fault after ends
  rw [coerce?_apply] at ends
  cases ends

theorem resolveReference_foreign (reference : ReferenceId) :
    FaultsIn Fault.Foreign (resolveReference reference) := by
  refine .of_get fun world => ?_
  dsimp only
  split
  · exact .pure _
  · split
    · split
      · exact .bind (.change _) fun _ => .pure _
      · exact .throw fun _ same => nomatch same
    · exact .throw fun _ same => nomatch same

theorem wrongReceiver_foreign {α : Type} (expected : HostType) :
    FaultsIn Fault.Foreign (wrongReceiver expected : Exec α) :=
  .throw fun _ same => nomatch same

theorem Accessor.read_foreign (accessor : Accessor) (host : HostId) :
    FaultsIn Fault.Foreign (accessor.read host) := by
  have made : ∀ object, FaultsIn Fault.Foreign (newHost object) := fun _ _ _ _ ends => nomatch ends
  refine .bind (.ask _) fun object => ?_
  split
  all_goals first
    | exact made _
    | exact wrongReceiver_foreign _
    | exact .throw fun _ same => nomatch same
    | exact .pure _
    | skip
  exact .bind (.bind (fun _ _ _ ends => nomatch ends) fun _ => .pure _) fun _ => made _

theorem Accessor.write_foreign (accessor : Accessor) (host value : HostId) :
    FaultsIn Fault.Foreign (accessor.write host value) := by
  unfold Accessor.write
  split
  · refine .bind (.ask _) fun object => .bind (.ask _) fun target => ?_
    split
    · exact .change _
    · exact wrongReceiver_foreign _
    · exact .throw fun _ same => nomatch same
  · refine .bind (.ask _) fun object => .bind (.ask _) fun target => ?_
    split
    · exact .change _
    · exact wrongReceiver_foreign _
    · exact .throw fun _ same => nomatch same
  · exact .throw fun _ same => nomatch same
  · exact .throw fun _ same => nomatch same

theorem toHost_foreign (value : Value) (type : ValueType) :
    FaultsIn Fault.Foreign (toHost value type) := by
  have formed : FaultsIn Fault.Foreign (hostForm type value) := by
    have made : ∀ object, FaultsIn Fault.Foreign
        (do return some (← newHost object) : Exec (Option HostId)) :=
      fun object => .bind (fun _ _ _ ends => nomatch ends) fun _ => .pure _
    unfold hostForm
    split
    · exact .pure _
    · exact .of_get fun _ => .pure _
    all_goals exact made _
  have handed : ∀ unsupported : Fault, unsupported.Foreign →
      FaultsIn Fault.Foreign (convertHost type value unsupported) := by
    intro unsupported foreign
    have last : FaultsIn Fault.Foreign (formHost type value unsupported) := by
      refine .bind formed fun host => ?_
      cases host with
      | none => exact .throw foreign
      | some host => exact .pure _
    refine .bind (fun _ _ _ ends => nomatch ends) fun accepted => ?_
    cases accepted with
    | true => exact last
    | false => exact .bind (.throw foreign) fun _ => last
  refine .of_get fun world => ?_
  split
  · exact .bind (.throw fun _ same => nomatch same) fun _ => .of_get fun _ =>
      handed _ fun _ same => nomatch same
  · exact .of_get fun _ => handed _ fun _ same => nomatch same

/-! ## Construction -/

section

variable (perform : Perform)

theorem createAnnotations_distant (target : String) (receiver : Option Receiver)
    (context : ContextId) (uses : List (AnnotationUse ClassRefId)) :
    FaultsIn Fault.Distant (createAnnotations perform target receiver context uses) := by
  have one : ∀ use, FaultsIn Fault.Distant
      ( createAnnotation perform use target receiver context) := by
    intro use
    have followed : FaultsIn Fault.Distant (resolveRef? use.cls) := fun _ _ _ ends => nomatch ends
    refine .of_get fun _ => .bind followed fun found => ?_
    cases found with
    | none => exact .throw ⟨nofun, nofun⟩
    | some id => exact .wrapFault _ fun _ => ⟨nofun, nofun⟩
  induction uses with
  | nil => exact .pure _
  | cons use rest ih => exact .bind (one use) fun _ => .bind ih fun _ => .pure _

theorem declarationFault_foreign (className field : String) (fault : Fault) :
    (declarationFault className field fault).Foreign := by
  intro cause same
  cases fault <;> cases same

theorem initializeField_distant (receiver : Receiver) (store : StoreId) (field : Field)
    (context : ContextId) :
    FaultsIn Fault.Distant (initializeField perform receiver store field context) := by
  unfold initializeField
  split
  · exact .pure _
  · exact .pure _
  · exact .of_get fun _ => .wrapFault _ fun _ => ⟨nofun, nofun⟩

theorem fillField_distant (receiver : Receiver) (level : Level) (options : CreateOptions)
    (context : ContextId) (field : Field) :
    FaultsIn Fault.Distant (fillField perform receiver level options context field) := by
  unfold fillField
  split
  · exact initializeField_distant perform receiver _ field context
  · exact .pure _

theorem annotateLevel_distant (id : InstanceId) (options : CreateOptions) (context : ContextId)
    (place : Nat) (cls : ClassDef) :
    FaultsIn Fault.Distant (annotateLevel perform id options context place cls) := by
  unfold annotateLevel
  split
  · exact .bind (createAnnotations_distant perform _ _ context _) fun created => .change _
  · exact .pure _

omit perform in
theorem constructionContext_distant (options : CreateOptions) :
    FaultsIn Fault.Distant (constructionContext options) := by
  unfold constructionContext
  split
  · exact .pure _
  · exact fun _ _ _ ends => nomatch ends

theorem finishInstance_distant (id : InstanceId) (options : CreateOptions) (args : List Value)
    (className : String) (context : ContextId) :
    FaultsIn Fault.Distant (finishInstance perform id options args className context) := by
  have marked : FaultsIn Fault.Distant (do
      if options.has .markInitialized then
        Exec.change (·.withObject id fun object => { object with initialized := true }) :
          Exec Unit) := by
    split
    · exact .change _
    · exact .pure _
  unfold finishInstance
  by_cases wanted : options.has .callConstructor = true
  · rw [if_pos wanted]
    exact .bind (.wrapFault _ fun _ => ⟨nofun, nofun⟩) fun _ => marked
  · rw [if_neg wanted]
    exact marked

theorem constructField_foreign (className : String) (receiver : Receiver) (level : Level)
    (options : CreateOptions) (context : ContextId) (field : Field) :
    FaultsIn Fault.Foreign
      (constructField perform className receiver level options context field) := by
  cases wanted : options.has field.flag with
  | false =>
      rw [constructField_of_unwanted wanted]
      exact .pure _
  | true =>
      rw [constructField_of_wanted wanted]
      refine .bind (.wrapFault _ (declarationFault_foreign className field.name)) fun _ => ?_
      refine .bind ?_ fun _ => ?_
      · unfold annotateField
        split
        · refine .bind ?_ fun created => .wrapFault _ (declarationFault_foreign className field.name)
          exact (createAnnotations_distant perform _ _ context _).weaken fun _ => Fault.Distant.foreign
        · exact .pure _
      · exact (fillField_distant perform receiver level options context field).weaken
          fun _ => Fault.Distant.foreign

theorem constructLevel_foreign (id : InstanceId) (options : CreateOptions) (context : ContextId)
    (place : Nat) : FaultsIn Fault.Foreign (constructLevel perform id options context place) := by
  have fields : ∀ className receiver level fields, FaultsIn Fault.Foreign
      (constructFields perform className receiver level options context fields) := by
    intro className receiver level fields
    induction fields with
    | nil => exact .pure _
    | cons field rest ih =>
        exact .bind (constructField_foreign perform className receiver level options context field)
          fun _ => ih
  have annotated : ∀ cls, FaultsIn Fault.Foreign
      (annotateLevel perform id options context place cls) := fun cls =>
    (annotateLevel_distant perform id options context place cls).weaken
      fun _ => Fault.Distant.foreign
  intro world fault after ends
  cases sits : world.level? id place with
  | none =>
      rw [constructLevel_of_none sits] at ends
      cases ends
  | some level =>
      rw [constructLevel_of_some sits] at ends
      have both := FaultsIn.bind (annotated (world.cls level.cls)) fun _ =>
        fields (world.cls level.cls).name ⟨id, place⟩ level (world.cls level.cls).fields
      exact both world fault after ends

theorem constructLevels_foreign (id : InstanceId) (options : CreateOptions) (context : ContextId)
    (place : Nat) :
    FaultsIn Fault.Foreign (constructLevels perform id options context place) := by
  induction place with
  | zero => exact .pure _
  | succ place ih =>
      exact .bind (constructLevel_foreign perform id options context place) fun _ => ih

/-- Whatever goes wrong in a construction is a fault of construction. -/
theorem constructInstance_foreign (id : InstanceId) (options : CreateOptions)
    (args : List Value) : FaultsIn Fault.Foreign (constructInstance perform id options args) := by
  have finished : ∀ className context, FaultsIn Fault.Foreign
      (finishInstance perform id options args className context) := fun className context =>
    (finishInstance_distant perform id options args className context).weaken
      fun _ => Fault.Distant.foreign
  have started : FaultsIn Fault.Foreign (constructionContext options) :=
    (constructionContext_distant options).weaken fun _ => Fault.Distant.foreign
  intro world fault after ends
  cases initialized : (world.object id).initialized with
  | true =>
      rw [constructInstance_of_initialized initialized] at ends
      cases ends
      exact fun _ same => nomatch same
  | false =>
      rw [constructInstance_of_new initialized] at ends
      have whole := FaultsIn.bind started fun context =>
        .bind (constructLevels_foreign perform id options context
          (world.object id).levels.length) fun _ => finished (world.classOf id).name context
      exact whole world fault after ends

theorem wrapHost_foreign (constructs : ∀ id options args,
    FaultsIn Fault.Foreign (perform (.construct id options args))) (host : HostId) :
    FaultsIn Fault.Foreign (wrapHost perform host) := by
  refine .of_get fun world => ?_
  split
  · exact .pure _
  · refine .bind ((newInstance_distant _ _).weaken fun _ => Fault.Distant.foreign) fun created => ?_
    refine .bind (bindHost_foreign _ _ _) fun _ => ?_
    exact .bind (constructs created _ _) fun _ => .pure _

end

/-- A construction within a budget ends in no fault of a lookup. -/
theorem performUpTo_construct_foreign (budget : Nat) (id : InstanceId) (options : CreateOptions)
    (args : List Value) :
    FaultsIn Fault.Foreign (performUpTo budget (.construct id options args)) := by
  cases budget with
  | zero => exact .exhaust
  | succ budget => exact constructInstance_foreign (performUpTo budget) id options args

end ScriptObjects
