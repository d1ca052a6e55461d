import SchemaTrace.Schema.Basic

/-! What stands in a shape at any depth. -/

namespace SchemaTrace

/-- One shape stands in another, through array items and object properties. -/
inductive Shape.Contains : Shape → Shape → Prop
  | self (shape : Shape) : Contains shape shape
  | items {items inner : Shape} (least most : Option Nat) :
      Contains items inner → Contains (.array items least most) inner
  | property {properties : List (Property Shape)} {p : Property Shape} {inner : Shape} :
      p ∈ properties → Contains p.shape inner → Contains (.object (some properties)) inner

namespace Shape

def Everywhere (holds : Shape → Prop) (shape : Shape) : Prop :=
  ∀ inner, shape.Contains inner → holds inner

theorem Everywhere.here {holds : Shape → Prop} {shape : Shape} (all : shape.Everywhere holds) :
    holds shape :=
  all shape (.self shape)

theorem Everywhere.imp {p q : Shape → Prop} {shape : Shape} (all : shape.Everywhere p)
    (implies : ∀ inner, p inner → q inner) : shape.Everywhere q :=
  fun inner within => implies inner (all inner within)

variable {holds : Shape → Prop}

theorem everywhere_array_iff {items : Shape} {least most : Option Nat} :
    (array items least most).Everywhere holds ↔
      holds (.array items least most) ∧ items.Everywhere holds := by
  constructor
  · intro all
    exact ⟨all.here, fun inner within => all inner (.items least most within)⟩
  · intro given inner within
    rcases given with ⟨here, inside⟩
    cases within with
    | self => exact here
    | items _ _ within => exact inside inner within

theorem everywhere_object_iff {properties : List (Property Shape)} :
    (object (some properties)).Everywhere holds ↔
      holds (.object (some properties)) ∧ ∀ p ∈ properties, p.shape.Everywhere holds := by
  constructor
  · intro all
    exact ⟨all.here, fun p member inner within => all inner (.property member within)⟩
  · intro given inner within
    rcases given with ⟨here, inside⟩
    cases within with
    | self => exact here
    | property member within => exact inside _ member inner within

def IsLeaf : Shape → Prop
  | array _ _ _ => False
  | object (some _) => False
  | _ => True

theorem Everywhere.of_isLeaf {shape : Shape} (leaf : shape.IsLeaf) (here : holds shape) :
    shape.Everywhere holds := by
  intro inner within
  cases within with
  | self => exact here
  | items => exact leaf.elim
  | property => exact leaf.elim

end Shape
end SchemaTrace
