import SchemaTrace.Schema.Basic
/-!
One value for each kind of member.
-/
namespace SchemaTrace

structure ByKind (α : Type) where
  commands : α
  events : α
  types : α
  deriving DecidableEq, Repr

namespace ByKind

variable {α : Type}

def fill (f : MemberKind → α) : ByKind α := ⟨f .command, f .event, f .type⟩

def get (b : ByKind α) : MemberKind → α
  | .command => b.commands
  | .event => b.events
  | .type => b.types

def set (b : ByKind α) (kind : MemberKind) (a : α) : ByKind α :=
  match kind with
  | .command => { b with commands := a }
  | .event => { b with events := a }
  | .type => { b with types := a }

def modify (b : ByKind α) (kind : MemberKind) (f : α → α) : ByKind α := b.set kind (f (b.get kind))

@[simp] theorem get_fill (f : MemberKind → α) (kind : MemberKind) : (fill f).get kind = f kind := by
  cases kind <;> rfl

@[simp] theorem get_set_self (b : ByKind α) (kind : MemberKind) (a : α) :
    (b.set kind a).get kind = a := by
  cases kind <;> rfl

theorem get_set_of_ne (b : ByKind α) {kind other : MemberKind} (a : α) (ne : kind ≠ other) :
    (b.set kind a).get other = b.get other := by
  cases kind <;> cases other <;> first | rfl | exact absurd rfl ne

end ByKind
end SchemaTrace
