import Assay.Typing.Scope

/-!
# Snapshots of scopes

A growing list of scopes, each taken from an earlier one and changed on its own from
then on.  The list starts with one empty scope, and scopes are named by their place in
it.
-/

namespace Assay

structure Snapshots where
  scopes : List Scope
  deriving DecidableEq, Repr

namespace Snapshots

inductive Action where
  | declare (name : String) (ty : Ty) (position : Position)
  | get (name : String)
  | lookup (name : String) (position : Position)
  | assign (name : String) (ty? : Option Ty) (position : Position)
  | child
  deriving DecidableEq, Repr

inductive Answer where
  | done
  | type (ty? : Option Ty)
  | place (index : Nat)
  deriving DecidableEq, Repr

def initial : Snapshots := ⟨[.empty]⟩

def set (snapshots : Snapshots) (index : Nat) (scope : Scope) : Snapshots :=
  ⟨snapshots.scopes.set index scope⟩

/-- What an action on one scope answers, and the scopes after it.  Only a declaration that
succeeds and the taking of a snapshot change anything. -/
def performOn (snapshots : Snapshots) (index : Nat) (scope : Scope) :
    Action → Except Diagnostic Answer × Snapshots
  | .declare name ty position =>
      match scope.declare name ty position with
      | .ok extended => (.ok .done, snapshots.set index extended)
      | .error diagnostic => (.error diagnostic, snapshots)
  | .get name => (.ok (.type (scope.get? name)), snapshots)
  | .lookup name position =>
      ((scope.lookup name position).map fun ty => .type (some ty), snapshots)
  | .assign name ty? position =>
      ((scope.assign name ty? position).map fun _ => .done, snapshots)
  | .child => (.ok (.place snapshots.scopes.length), ⟨snapshots.scopes ++ [scope]⟩)

def perform? (snapshots : Snapshots) (index : Nat) (action : Action) :
    Option (Except Diagnostic Answer × Snapshots) :=
  snapshots.scopes[index]?.map fun scope => snapshots.performOn index scope action

end Snapshots

end Assay
