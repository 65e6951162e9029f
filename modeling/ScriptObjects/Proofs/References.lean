import ScriptObjects.Proofs.Bodies

/-!
# Class references

A class reference remembers its class once it was found.  Remembering is transparent:
after any reference was touched, every reference still stands for the class it stood
for, and so every question to the hierarchy has the answer it had.
-/

namespace ScriptObjects

set_option autoImplicit false

namespace World

/-! ## Touching one reference -/

/-- Touching a reference changes nothing or makes it remember what it stands for. -/
theorem touchRef_cases (world : World) (reference : ClassRefId) :
    (world.target? reference = none ∧ world.touchRef reference = world) ∨
      ∃ target, world.target? reference = some target ∧
        world.touchRef reference = world.resolveRef reference target := by
  unfold touchRef
  cases found : world.target? reference with
  | none => exact .inl ⟨rfl, rfl⟩
  | some target => exact .inr ⟨target, rfl, rfl⟩

/-- Only the heap of class references differs after a touch. -/
theorem touchRef_eq (world : World) (reference : ClassRefId) :
    world.touchRef reference =
      { world with classRefs := (world.touchRef reference).classRefs } := by
  obtain ⟨_, same⟩ | ⟨target, _, same⟩ := world.touchRef_cases reference
  · rw [same]
  · rw [same]
    rfl

@[simp] theorem classes_touchRef (world : World) (reference : ClassRefId) :
    (world.touchRef reference).classes = world.classes := by
  rw [touchRef_eq]

@[simp] theorem registry_touchRef (world : World) (reference : ClassRefId) :
    (world.touchRef reference).registry = world.registry := by
  rw [touchRef_eq]

@[simp] theorem alive_touchRef (world : World) (reference : ClassRefId) :
    (world.touchRef reference).alive = world.alive := by
  rw [touchRef_eq]

@[simp] theorem cls_touchRef (world : World) (reference : ClassRefId) (id : ClassId) :
    (world.touchRef reference).cls id = world.cls id := by
  simp [cls]

@[simp] theorem findClass?_touchRef (world : World) (reference : ClassRefId) (name : String) :
    (world.touchRef reference).findClass? name = world.findClass? name := by
  simp [findClass?]

@[simp] theorem size_classRefs_touchRef (world : World) (reference : ClassRefId) :
    (world.touchRef reference).classRefs.size = world.classRefs.size := by
  obtain ⟨_, same⟩ | ⟨target, _, same⟩ := world.touchRef_cases reference
  · rw [same]
  · rw [same]
    exact Heap.size_modify ..

@[simp] theorem name_touchRef (world : World) (reference other : ClassRefId) :
    ((world.touchRef reference).classRefs.get other).name = (world.classRefs.get other).name := by
  obtain ⟨_, same⟩ | ⟨target, _, same⟩ := world.touchRef_cases reference
  · rw [same]
  · rw [same]
    exact Heap.get_modify_of _ _ _ _ ClassRef.name fun _ => rfl

/-- A class that was remembered stays remembered, and what is remembered newly is what the
reference stood for. -/
theorem target_touchRef (world : World) (reference other : ClassRefId) :
    ((world.touchRef reference).classRefs.get other).target =
        (world.classRefs.get other).target ∨
      (other = reference ∧ ((world.touchRef reference).classRefs.get other).target =
        world.target? other) := by
  obtain ⟨_, same⟩ | ⟨target, stands, same⟩ := world.touchRef_cases reference
  · rw [same]
    exact .inl rfl
  · rw [same]
    unfold resolveRef
    by_cases both : other = reference ∧ reference.index < world.classRefs.size
    · obtain ⟨rfl, inside⟩ := both
      refine .inr ⟨rfl, ?_⟩
      rw [Heap.get_modify_same _ _ inside, stands]
    · left
      simp only [Heap.get_modify, if_neg both]

@[simp] theorem target?_touchRef (world : World) (reference other : ClassRefId) :
    (world.touchRef reference).target? other = world.target? other := by
  obtain same | ⟨rfl, remembered⟩ := world.target_touchRef reference other
  · simp only [target?, alive_touchRef, findClass?_touchRef, same, name_touchRef]
  · unfold target? at remembered ⊢
    simp only [alive_touchRef, findClass?_touchRef, remembered, name_touchRef]
    by_cases alive : world.alive = true
    · simp only [alive, if_true]
      cases cached : (world.classRefs.get other).target with
      | some target => rfl
      | none =>
          simp only
          cases world.findClass? (world.classRefs.get other).name <;> rfl
    · simp only [alive, if_false, Bool.false_eq_true]

/-- A reference that already remembers its class is not changed by a touch. -/
theorem touchRef_of_remembered (world : World) {reference : ClassRefId}
    (remembered : (world.classRefs.get reference).target.isSome) :
    world.touchRef reference = world := by
  obtain ⟨_, same⟩ | ⟨target, stands, same⟩ := world.touchRef_cases reference
  · exact same
  · obtain ⟨known, cached⟩ := Option.isSome_iff_exists.mp remembered
    have agree : known = target := by
      unfold target? at stands
      split at stands
      · simpa [cached] using stands
      · cases stands
    subst agree
    rw [same]
    unfold resolveRef
    rw [Heap.modify_of_fixed]
    rw [← cached]

theorem get_touchRef_of_remembered (world : World) (reference : ClassRefId) {other : ClassRefId}
    (remembered : (world.classRefs.get other).target.isSome) :
    (world.touchRef reference).classRefs.get other = world.classRefs.get other := by
  obtain ⟨_, same⟩ | ⟨target, _, same⟩ := world.touchRef_cases reference
  · rw [same]
  · by_cases touched : other = reference
    · subst touched
      rw [world.touchRef_of_remembered remembered]
    · rw [same]
      exact Heap.get_modify_ne _ _ touched

/-! ## Names and targets -/

theorem findClass?_congr {first second : World} (registry : second.registry = first.registry)
    (name : String) : second.findClass? name = first.findClass? name := by
  unfold findClass?
  rw [registry]

theorem target?_congr {first second : World} (registry : second.registry = first.registry)
    (alive : second.alive = first.alive) {reference : ClassRefId}
    (cell : second.classRefs.get reference = first.classRefs.get reference) :
    second.target? reference = first.target? reference := by
  unfold target?
  simp only [alive, cell, findClass?_congr registry]

end World

/-! ## Questions to the hierarchy -/

/-- A class without the table it keeps of its meta-functions. -/
def ClassDef.declared (cls : ClassDef) : ClassDef := { cls with metaTable := none }

namespace World

/-- Two states with the same tables of classes, in which every class declares the same and has the
same base. -/
structure SameHierarchy (first second : World) : Prop where
  registry : second.registry = first.registry
  size : second.classes.size = first.classes.size
  declared : ∀ id, (second.cls id).declared = (first.cls id).declared
  base : ∀ id, second.base? id = first.base? id

namespace SameHierarchy

variable {first second third : World}

theorem refl (world : World) : SameHierarchy world world :=
  ⟨rfl, rfl, fun _ => rfl, fun _ => rfl⟩

theorem trans (same : SameHierarchy first second) (again : SameHierarchy second third) :
    SameHierarchy first third :=
  ⟨again.registry.trans same.registry, again.size.trans same.size,
    fun id => (again.declared id).trans (same.declared id),
    fun id => (again.base id).trans (same.base id)⟩

/-- The hierarchy depends on the classes and their tables, on the references to them and on whether
the assembly is there. -/
theorem of_same (registry : second.registry = first.registry)
    (classes : second.classes = first.classes)
    (classRefs : second.classRefs = first.classRefs) (alive : second.alive = first.alive) :
    SameHierarchy first second := by
  cases first
  cases second
  cases registry
  cases classes
  cases classRefs
  cases alive
  exact ⟨rfl, rfl, fun _ => rfl, fun _ => rfl⟩

section

variable (same : SameHierarchy first second)
include same

/-- A question that does not look at the table of meta-functions has the same answer. -/
theorem ask {α : Type} (question : ClassDef → α)
    (blind : ∀ cls : ClassDef, question cls.declared = question cls) (id : ClassId) :
    question (second.cls id) = question (first.cls id) := by
  rw [← blind (second.cls id), ← blind (first.cls id), same.declared id]

theorem name (id : ClassId) : (second.cls id).name = (first.cls id).name :=
  same.ask ClassDef.name (fun _ => rfl) id

theorem hash (id : ClassId) : (second.cls id).hash = (first.cls id).hash :=
  same.ask ClassDef.hash (fun _ => rfl) id

theorem walk (fuel : Nat) (seen : List TypeHash) (start : Option ClassId) :
    second.walk fuel seen start = first.walk fuel seen start := by
  induction fuel generalizing seen start with
  | zero => rfl
  | succ fuel ih =>
      cases start with
      | none => rfl
      | some id => simp only [World.walk, same.hash id, same.base id, ih]

theorem ancestors (id : ClassId) : second.ancestors id = first.ancestors id := by
  unfold World.ancestors
  rw [same.size, same.walk]

theorem properAncestors (id : ClassId) : second.properAncestors id = first.properAncestors id := by
  unfold World.properAncestors
  rw [same.size, same.walk, same.base, same.hash]

theorem nearest? {α : Type} (question : ClassDef → Option α)
    (blind : ∀ cls : ClassDef, question cls.declared = question cls) (id : ClassId) :
    second.nearest? id question = first.nearest? id question := by
  have agree : (fun ancestor => question (second.cls ancestor)) =
      fun ancestor => question (first.cls ancestor) :=
    funext (same.ask question blind)
  unfold World.nearest?
  rw [same.ancestors, agree]

theorem doesExtend (id : ClassId) (name : String) :
    second.doesExtend id name = first.doesExtend id name := by
  unfold World.doesExtend
  rw [same.properAncestors]
  simp only [same.name]

/-- Whether a type accepts a value also depends on the instances and the host objects. -/
theorem accepts (instances : second.instances = first.instances)
    (hosts : second.hosts = first.hosts) (type : ValueType) (value : Value) :
    second.accepts type value = first.accepts type value := by
  have objects : second.object = first.object := by
    funext id
    unfold World.object
    rw [instances]
  have named : ∀ id, (second.classOf id).name = (first.classOf id).name := by
    intro id
    unfold World.classOf
    rw [objects, same.name]
  unfold World.accepts
  split <;> simp only [objects, hosts]
  rw [named, same.doesExtend]

theorem metaLink? (id : ClassId) (key : MetaKey) :
    second.metaLink? id key = first.metaLink? id key := by
  unfold World.metaLink?
  rw [same.nearest? _ (fun _ => rfl), same.name, same.hash]

theorem buildMetaTable (id : ClassId) : second.buildMetaTable id = first.buildMetaTable id := by
  have keys : second.metaKeys id = first.metaKeys id := by
    unfold World.metaKeys
    rw [same.ask ClassDef.mode (fun _ => rfl) id]
  have links : second.metaLink? id = first.metaLink? id := funext (same.metaLink? id)
  unfold World.buildMetaTable
  rw [keys, links]

theorem findClass? (name : String) : second.findClass? name = first.findClass? name :=
  findClass?_congr same.registry name

theorem classForHost? (host : HostType) : second.classForHost? host = first.classForHost? host := by
  unfold World.classForHost?
  rw [same.registry]

end

end SameHierarchy

/-! ## Touching several references -/

theorem SameHierarchy.touchRef (world : World) (reference : ClassRefId) :
    SameHierarchy world (world.touchRef reference) where
  registry := registry_touchRef world reference
  size := by rw [classes_touchRef]
  declared id := by rw [cls_touchRef]
  base id := by
    have targets : (world.touchRef reference).target? = world.target? :=
      funext (world.target?_touchRef reference)
    unfold base?
    rw [cls_touchRef, targets]

theorem resolveBases_cons (world : World) (id : ClassId) (rest : List ClassId) :
    world.resolveBases (id :: rest) =
      (match (world.cls id).base with
        | some reference => world.touchRef reference
        | none => world).resolveBases rest := rfl

/-- What every touch keeps is kept by following the bases of some classes. -/
theorem resolveBases_induction {motive : World → Prop} {world : World} (start : motive world)
    (touch : ∀ world reference, motive world → motive (world.touchRef reference))
    (visited : List ClassId) : motive (world.resolveBases visited) := by
  induction visited generalizing world with
  | nil => exact start
  | cons id rest ih =>
      rw [resolveBases_cons]
      cases (world.cls id).base with
      | none => exact ih start
      | some reference => exact ih (touch world reference start)

theorem SameHierarchy.resolveBases (world : World) (visited : List ClassId) :
    SameHierarchy world (world.resolveBases visited) :=
  resolveBases_induction (motive := SameHierarchy world) (.refl world)
    (fun between reference same => same.trans (.touchRef between reference)) visited

/-- Only the heap of class references differs after bases were followed. -/
theorem resolveBases_eq (world : World) (visited : List ClassId) :
    world.resolveBases visited =
      { world with classRefs := (world.resolveBases visited).classRefs } := by
  refine resolveBases_induction
    (motive := fun after => after = { world with classRefs := after.classRefs }) rfl ?_ visited
  intro between reference same
  rw [touchRef_eq]
  generalize (between.touchRef reference).classRefs = refs
  rw [same]

@[simp] theorem cls_resolveBases (world : World) (visited : List ClassId) (id : ClassId) :
    (world.resolveBases visited).cls id = world.cls id :=
  resolveBases_induction (motive := fun after => after.cls id = world.cls id) rfl
    (fun between reference same => (between.cls_touchRef reference id).trans same) visited

/-- Following bases changes nothing where every base is remembered already. -/
theorem resolveBases_of_remembered {world : World} {visited : List ClassId}
    (remembered : ∀ id ∈ visited, ∀ reference, (world.cls id).base = some reference →
      (world.classRefs.get reference).target.isSome) :
    world.resolveBases visited = world := by
  induction visited with
  | nil => rfl
  | cons id rest ih =>
      have later := ih fun other member => remembered other (List.mem_cons_of_mem id member)
      rw [resolveBases_cons]
      cases base : (world.cls id).base with
      | none => exact later
      | some reference =>
          have known := remembered id List.mem_cons_self reference base
          simp only [world.touchRef_of_remembered known]
          exact later

theorem accepts_resolveBases (world : World) (visited : List ClassId) (type : ValueType)
    (value : Value) :
    (world.resolveBases visited).accepts type value = world.accepts type value :=
  (SameHierarchy.resolveBases world visited).accepts (by rw [resolveBases_eq])
    (by rw [resolveBases_eq]) type value

end World

end ScriptObjects
