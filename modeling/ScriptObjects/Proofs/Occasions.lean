import ScriptObjects.Proofs.HostBindings

/-!
# What happens on the way through a session

Between the commands of a session there are more states than their ends: whatever a command asks for
is answered in a state of its own, and bodies run from there.  A command gives occasion to a list of
requests, in the order in which they are made, each in the state in which it is made.  So it can be
said of a state that it is one of a session, in the middle of a command or between two of them.

What a run keeps in custody is kept in all these states, up to the first request that is barred.
-/

namespace ScriptObjects

set_option autoImplicit false

open Exec World

/-! ## Runs with their requests -/

/-- From a state on a run keeps what is in custody, up to the first barred one of the requests that it
makes. -/
structure KeepsUpTo (custody : Custody) (bars : Inquiry → Prop) {α : Type} (run : Exec α)
    (made : List Inquiry) (world : World) : Prop where
  ends : (∀ inquiry ∈ made, ¬ bars inquiry) → custody.keeps world (run world).2
  inquiry : ∀ {inquiry : Inquiry} {earlier later : List Inquiry}, made = earlier ++ inquiry :: later →
    (∀ other ∈ earlier, ¬ bars other) → custody.keeps world inquiry.world

/-- The fault says of some name that it is not declared. -/
def Fault.isUndeclared : Fault → Bool
  | .lookup cause => cause.state = .notDeclared
  | _ => false

/-- What is left to do when a run ended as it did, where another one follows if a name is missing. -/
def Exec.otherwise {α β : Type} (next : World → List β) : Outcome α × World → List β
  | (.failed fault, after) => if fault.isUndeclared then next after else []
  | (.done _, _) | (.exhausted, _) => []

section

variable {custody : Custody} {bars : Inquiry → Prop} {α : Type}

theorem KeepsUpTo.of_account {allowed : Fault → Prop} {part : Perform → Exec α}
    (account : Account allowed part) (guarded : custody.GuardedBy bars) (budget : Nat) (world : World)
    (keeping : ∀ {perform : Perform}, perform.Keeping custody →
      custody.keeps world (part perform world).2) :
    KeepsUpTo custody bars (part (performUpTo budget))
      (account.inquiries (performUpTo budget) (inquiriesUpTo budget) world) world where
  ends := account.keeps guarded budget world keeping
  inquiry := account.keeps_inquiry guarded budget world keeping

theorem KeepsUpTo.silent {run : Exec α} {world : World} (keeps : custody.keeps world (run world).2) :
    KeepsUpTo custody bars run [] world where
  ends _ := keeps
  inquiry split _ := by cases List.append_eq_nil_iff.mp split.symm |>.2

/-- One run after another, each with its requests. -/
theorem KeepsUpTo.append {β : Type} {run : Exec α} {next whole : Exec β} {made more : List Inquiry}
    {world : World} (first : KeepsUpTo custody bars run made world)
    (second : KeepsUpTo custody bars next more (run world).2)
    (same : whole world = next (run world).2) :
    KeepsUpTo custody bars whole (made ++ more) world where
  ends clear := by
    rw [same]
    refine custody.trans (first.ends fun inquiry member => ?_) (second.ends fun inquiry member => ?_)
    · exact clear inquiry (List.mem_append_left more member)
    · exact clear inquiry (List.mem_append_right made member)
  inquiry {inquiry earlier later} split clear := by
    obtain ⟨rest, whole, tail⟩ | ⟨rest, whole, tail⟩ := List.append_eq_append_iff.mp split
    · subst whole
      exact custody.trans (first.ends fun other member => clear other (List.mem_append_left rest member))
        (second.inquiry tail fun other member => clear other (List.mem_append_right made member))
    · cases rest with
      | nil =>
          have head : more = [] ++ inquiry :: later := tail.symm
          subst whole
          rw [List.append_nil] at first
          exact custody.trans (first.ends clear)
            (second.inquiry head fun _ member => absurd member List.not_mem_nil)
      | cons other rest =>
          obtain ⟨rfl, _⟩ := List.cons.inj tail
          exact first.inquiry whole clear

theorem orElseUndeclared_of_failed {run next : Exec α} {fault : Fault} {world after : World}
    (ends : run world = (.failed fault, after)) :
    orElseUndeclared run next world =
      if fault.isUndeclared then next after else (.failed fault, after) := by
  unfold orElseUndeclared recover
  rw [ends]
  cases fault with
  | lookup cause =>
      dsimp only [Fault.isUndeclared]
      split <;> simp_all [throw_apply]
  | _ => rfl

theorem KeepsUpTo.orElseUndeclared {run next : Exec α} {made : List Inquiry}
    {more : World → List Inquiry} {world : World} (first : KeepsUpTo custody bars run made world)
    (second : ∀ after, KeepsUpTo custody bars next (more after) after) :
    KeepsUpTo custody bars (ScriptObjects.orElseUndeclared run next)
      (made ++ otherwise more (run world)) world := by
  have stops : ∀ {whole : Exec α}, (whole world).2 = (run world).2 →
      KeepsUpTo custody bars whole (made ++ []) world := by
    intro whole same
    rw [List.append_nil]
    exact ⟨same ▸ first.ends, first.inquiry⟩
  rcases ends : run world with ⟨outcome, after⟩
  cases outcome with
  | done result => exact stops (by simp only [ScriptObjects.orElseUndeclared, recover, ends])
  | exhausted => exact stops (by simp only [ScriptObjects.orElseUndeclared, recover, ends])
  | failed fault =>
      cases undeclared : fault.isUndeclared with
      | true =>
          simp only [otherwise, undeclared, if_true]
          refine first.append (by rw [ends]; exact second after) ?_
          rw [orElseUndeclared_of_failed ends, if_pos undeclared, ends]
      | false =>
          simp only [otherwise, undeclared]
          exact stops (by simp [orElseUndeclared_of_failed ends, undeclared, ends])

end

/-! ## Annotations of variables -/

def storeAnnotationsAccount (id : StoreId) (name : String) :
    Account (fun _ => True) fun perform => storeAnnotations perform id name :=
  .after fun _ => .either (.silent _) <|
    .bind (.attempt (materializeAccount id name)) fun _ => .silent _

mutual

/-- The requests that are made to tell the annotations of a variable. -/
def annotationInquiries (budget : Nat) (name : String) : Scope → World → List Inquiry
  | .store id => (storeAnnotationsAccount id name).inquiries (performUpTo budget) (inquiriesUpTo budget)
  | .composite sources => annotationInquiriesIn budget name sources

def annotationInquiriesIn (budget : Nat) (name : String) : List Scope → World → List Inquiry
  | [], _ => []
  | source :: rest, world =>
      annotationInquiries budget name source world ++
        otherwise (annotationInquiriesIn budget name rest)
          (annotationsOf (performUpTo budget) name source world)

end

section

variable {custody : Custody} {bars : Inquiry → Prop}

theorem storeAnnotations_keeping {perform : Perform} (nested : perform.Keeping custody) (id : StoreId)
    (name : String) : Keeping custody (storeAnnotations perform id name) := by
  refine .of_get fun seen => ?_
  split
  case' isFalse =>
    refine .bind (.attempt (materialize_keeping nested id name)) fun answer => ?_
    split
    case' h_2 => refine .bind (α := Unit) (.throw _) fun _ => ?_
    case' h_3 => refine .bind (α := Unit) (.throw _) fun _ => ?_
  -- In each case that is left the slot is read in the end.
  all_goals
    refine .of_get fun seen => ?_
    split
    · exact .pure _
    · exact .throw _

end

mutual

theorem annotationsOf_keepsUpTo {custody : Custody} {bars : Inquiry → Prop}
    (guarded : custody.GuardedBy bars) (budget : Nat) (name : String) : (scope : Scope) →
    ∀ world, KeepsUpTo custody bars (annotationsOf (performUpTo budget) name scope)
      (annotationInquiries budget name scope world) world
  | .store id, world => by
      unfold annotationsOf annotationInquiries
      exact .of_account (storeAnnotationsAccount id name) guarded budget world fun nested =>
        storeAnnotations_keeping nested id name world
  | .composite sources, world => by
      unfold annotationsOf annotationInquiries
      exact annotationsInSources_keepsUpTo guarded budget name sources world

theorem annotationsInSources_keepsUpTo {custody : Custody} {bars : Inquiry → Prop}
    (guarded : custody.GuardedBy bars) (budget : Nat) (name : String) : (sources : List Scope) →
    ∀ world, KeepsUpTo custody bars (annotationsInSources (performUpTo budget) name sources)
      (annotationInquiriesIn budget name sources world) world
  | [], world => by
      unfold annotationsInSources annotationInquiriesIn
      exact .silent (custody.refl world)
  | source :: rest, world => by
      unfold annotationsInSources annotationInquiriesIn
      exact .orElseUndeclared (annotationsOf_keepsUpTo guarded budget name source world)
        (annotationsInSources_keepsUpTo guarded budget name rest)

end

theorem Exec.Keeping.orElseUndeclared {custody : Custody} {α : Type} {run next : Exec α}
    (first : Keeping custody run) (second : Keeping custody next) :
    Keeping custody (ScriptObjects.orElseUndeclared run next) := by
  refine .recover first fun fault => ?_
  split
  · split
    · exact second
    · exact .throw _
  · exact .throw _

mutual

theorem annotate_keeping {custody : Custody} (name : String) (annotations : List InstanceId) :
    (scope : Scope) → Keeping custody (annotate name annotations scope)
  | .store id => by
      unfold annotate
      exact annotateSlot_keeping id name annotations
  | .composite sources => by
      unfold annotate
      exact annotateSources_keeping name annotations sources

theorem annotateSources_keeping {custody : Custody} (name : String) (annotations : List InstanceId) :
    (sources : List Scope) → Keeping custody (annotateSources name annotations sources)
  | [] => by
      unfold annotateSources
      exact .throw _
  | source :: rest => by
      unfold annotateSources
      exact .orElseUndeclared (annotate_keeping name annotations source)
        (annotateSources_keeping name annotations rest)

end

theorem isSlotAssigned_keeping {custody : Custody} (id : StoreId) (name : String) :
    Keeping custody (isSlotAssigned id name) := by
  refine .of_get fun seen => ?_
  split
  · exact .pure _
  · split
    · exact .pure _
    · refine .bind (.attempt (resolveReference_keeping _)) fun answer => ?_
      split <;> exact .pure _

mutual

theorem isAssigned_keeping {custody : Custody} (name : String) :
    (scope : Scope) → Keeping custody (isAssigned name scope)
  | .store id => by
      unfold isAssigned
      exact isSlotAssigned_keeping id name
  | .composite sources => by
      unfold isAssigned
      exact isAssignedInFirst_keeping name sources

theorem isAssignedInFirst_keeping {custody : Custody} (name : String) :
    (sources : List Scope) → Keeping custody (isAssignedInFirst name sources)
  | [] => by
      unfold isAssignedInFirst
      exact .pure _
  | source :: rest => by
      unfold isAssignedInFirst
      refine .of_get fun seen => ?_
      split
      · exact isAssigned_keeping name source
      · exact isAssignedInFirst_keeping name rest

end

/-! ## Whole operations -/

/-- An operation on things that exist keeps what is in custody. -/
theorem Operation.run_keeping {custody : Custody} {perform : Perform} {world : World}
    (nested : perform.Keeping custody) (operation : Operation) (has : world.HasOperation operation) :
    custody.keeps world (operation.run perform world).2 := by
  have required : Keeping custody requireAssembly := .still requireAssembly_still
  cases operation with
  | ofRequest request => exact nested request world
  | create className options args =>
      exact Keeping.bind required (fun _ => createInstance_keeping nested className options args) world
  | wrap host =>
      refine Keeping.bind_at (required world) fun _ after ends => ?_
      have same := requireAssembly_still world
      rw [ends] at same
      exact wrapHost_keeping nested (Nat.lt_of_lt_of_le has same.hosts)
  | unmarshal host type =>
      exact Keeping.bind required (fun _ => fromHost_keeping nested type host) world
  | dispatch context operator operands =>
      exact Keeping.bind required (fun _ => operate_keeping nested context operator operands) world
  | callHook context id key args =>
      exact Keeping.bind required (fun _ => hook_keeping nested context id key args) world
  | eval expr => exact evaluate_keeping nested none expr world

end ScriptObjects
