import Assay.Diagnostic
import Assay.Typing.Ty

/-!
# Scopes

A scope binds names to types, each name once.  A block starts from the scope around
it and may add names of its own; as scopes are values, nothing it adds is seen
outside.
-/

namespace Assay

structure Scope where
  /-- The bindings, latest first. -/
  bindings : List (String × Ty)
  distinct : (bindings.map Prod.fst).Nodup
  deriving DecidableEq, Repr

namespace Scope

def empty : Scope := ⟨[], List.nodup_nil⟩

def size (scope : Scope) : Nat := scope.bindings.length

def isEmpty (scope : Scope) : Bool := scope.bindings.isEmpty

def get? (scope : Scope) (name : String) : Option Ty := scope.bindings.lookup name

private theorem not_mem_of_get?_eq_none {scope : Scope} {name : String}
    (h : scope.get? name = none) :
    name ∉ scope.bindings.map Prod.fst := by
  intro hmem
  obtain ⟨binding, hbinding, rfl⟩ := List.mem_map.mp hmem
  simpa using List.lookup_eq_none_iff.mp h binding hbinding

def insert (scope : Scope) (name : String) (ty : Ty) (fresh : scope.get? name = none) : Scope :=
  ⟨(name, ty) :: scope.bindings,
    List.nodup_cons.mpr ⟨not_mem_of_get?_eq_none fresh, scope.distinct⟩⟩

theorem get?_insert (scope : Scope) (name : String) (ty : Ty) (fresh : scope.get? name = none)
    (other : String) :
    (scope.insert name ty fresh).get? other =
      if other = name then some ty else scope.get? other := by
  by_cases h : other = name
  · simp [get?, insert, h]
  · have hbeq : (other == name) = false := beq_eq_false_iff_ne.mpr h
    simp [get?, insert, List.lookup_cons, h, hbeq]

@[simp] theorem size_insert (scope : Scope) (name : String) (ty : Ty)
    (fresh : scope.get? name = none) : (scope.insert name ty fresh).size = scope.size + 1 := rfl

@[simp] theorem get?_empty (name : String) : empty.get? name = none := rfl

@[simp] theorem size_empty : empty.size = 0 := rfl

def declare (scope : Scope) (name : String) (ty : Ty) (position : Position) :
    Except Diagnostic Scope :=
  match fresh : scope.get? name with
  | none => .ok (scope.insert name ty fresh)
  | some _ => .error ⟨.multipleDeclaration name, position⟩

theorem declare_of_none {scope : Scope} {name : String} (fresh : scope.get? name = none) (ty : Ty)
    (position : Position) :
    scope.declare name ty position = .ok (scope.insert name ty fresh) := by
  unfold declare
  split
  · rfl
  · next hbound => simp [fresh] at hbound

theorem declare_of_some {scope : Scope} {name : String} {bound : Ty}
    (h : scope.get? name = some bound) (ty : Ty) (position : Position) :
    scope.declare name ty position = .error ⟨.multipleDeclaration name, position⟩ := by
  unfold declare
  split
  · next fresh => simp [h] at fresh
  · rfl

def lookup (scope : Scope) (name : String) (position : Position) : Except Diagnostic Ty :=
  match scope.get? name with
  | some ty => .ok ty
  | none => .error ⟨.undeclaredVariable name, position⟩

theorem lookup_of_some {scope : Scope} {name : String} {ty : Ty} (h : scope.get? name = some ty)
    (position : Position) : scope.lookup name position = .ok ty := by
  simp only [lookup, h]

theorem lookup_of_none {scope : Scope} {name : String} (h : scope.get? name = none)
    (position : Position) :
    scope.lookup name position = .error ⟨.undeclaredVariable name, position⟩ := by
  simp only [lookup, h]

/-- Checks that a value of a type may be stored under a name.  The type of the name
does not change. -/
def assign (scope : Scope) (name : String) (ty? : Option Ty) (position : Position) :
    Except Diagnostic Unit := do
  let declared ← scope.lookup name position
  if sameType (some declared) ty? then .ok ()
  else .error ⟨.assignmentTypeMismatch name, position⟩

end Scope

end Assay
