import ObjectStore.Registry

/-!
# Object graphs

An object graph holds the live instances of a program. They refer to each
other by position, so that cycles need nothing special. The graph only
grows; a load that fails cuts it back to its former size.

## Main results

* `Graph.get_insert`: an inserted instance is found at the returned
  position.
* `Graph.get_set`: replacing an instance changes no other.
-/

namespace ObjectStore

/-- The live instances, by position. -/
structure Graph (ι : Type) where
  instances : Array ι

namespace Graph

variable {ι : Type}

/-- The graph without instances. -/
def empty : Graph ι := ⟨#[]⟩

/-- The number of instances a graph has room for. -/
def capacity : Nat := 4294967296

/-- The number of instances. -/
def size (g : Graph ι) : Nat := g.instances.size

/-- The positions of all instances. -/
def refs (g : Graph ι) : List Ref := (List.range g.size).map Ref.mk

/-- The instance at a position. -/
def get? (g : Graph ι) (ref : Ref) : Option ι := g.instances[ref.index]?

/-- The instance at a position, which must be inside the graph. -/
def get (g : Graph ι) (ref : Ref) : Except Error ι :=
  match g.get? ref with
  | some x => .ok x
  | none => .error (.unknownInstance ref)

/-- Replaces the instance at a position. -/
def set (g : Graph ι) (ref : Ref) (x : ι) : Graph ι := ⟨g.instances.setIfInBounds ref.index x⟩

/-- Adds an instance. -/
def insert (x : ι) : Attempt (Graph ι) Ref :=
  Attempt.of fun g =>
    if g.size < capacity then (.ok ⟨g.size⟩, ⟨g.instances.push x⟩)
    else (.error (.capacityExceeded .instances), g)

/-- Cuts the graph back to a size. -/
def truncate (g : Graph ι) (size : Nat) : Graph ι := ⟨g.instances.take size⟩

/-- An attempt on the instance at a position. -/
def change {α : Type} (ref : Ref) (attempt : Attempt ι α) : Attempt (Graph ι) α :=
  Attempt.of fun g =>
    match g.get ref with
    | .error e => (.error e, g)
    | .ok x =>
        let (result, x) := attempt.start x
        (result, g.set ref x)

/-! ## Runtime types -/

section

variable [Instance ι]

/-- The runtime type of the instance at a position. -/
def runtimeType (g : Graph ι) (ref : Ref) : Except Error RuntimeType :=
  (g.get ref).map Instance.runtimeType

/-- The instance at a position, which must be of the runtime type. -/
def getAs (g : Graph ι) (runtime : RuntimeType) (ref : Ref) : Except Error ι := do
  let x ← g.get ref
  if Instance.runtimeType x = runtime then return x
  else throw (.instanceTypeMismatch runtime.name)

/-- Changes the instance at a position, which must be of the runtime type. -/
def changeAs (runtime : RuntimeType) (ref : Ref) (f : ι → ι) : Attempt (Graph ι) Unit :=
  Attempt.modify fun g => do return g.set ref (f (← g.getAs runtime ref))

/-- The handler of the instance at a position. -/
def handler (g : Graph ι) (registry : Registry ι) (ref : Ref) : Except Error (Handler ι) := do
  let runtime ← g.runtimeType ref
  match registry.handlerFor? runtime with
  | some handler => return handler
  | none => throw (.unhandledRuntimeType runtime)

/-- The positions that the instance at a position refers to. -/
def references (g : Graph ι) (registry : Registry ι) (ref : Ref) : Except Error (List Ref) := do
  let handler ← g.handler registry ref
  handler.instanceReferences (← g.get ref)

end

theorem get_insert {g g' : Graph ι} {x : ι} {ref : Ref}
    (h : (insert x).start g = (.ok ref, g')) : g'.get? ref = some x := by
  simp only [insert, Attempt.start, Attempt.of, ExceptT.run, ExceptT.mk] at h
  split at h
  · cases h
    simp [get?, size]
  · cases h

theorem get_set {g : Graph ι} {ref other : Ref} {x : ι} (h : ref ≠ other) :
    (g.set ref x).get? other = g.get? other := by
  have hIndex : ref.index ≠ other.index := fun hEq => h (Ref.eq_of_index_eq hEq)
  simp [get?, set, hIndex]

end Graph

end ObjectStore
