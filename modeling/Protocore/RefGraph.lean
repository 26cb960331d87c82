import Mathlib.Logic.Relation
import Mathlib.Order.WellFounded

/-! # Reference-counted objects

`owns a b` says that the object `a` holds a counted reference to the object `b`.  When nobody outside
holds a reference any more, an object is destroyed as soon as all objects that own it are: `Freed` is
the least such set, the accessible part of `owns`.  Objects on a cycle are never destroyed.

* `Collectable`: there is no cycle, and every object is destroyed.
* `link owns S b`: the references of `owns` and one from each object of `S` to `b`;
  `collectable_link_iff` says when such references do no harm.
* `reaches_of_cut`: what reaches an object does so without the references that the object holds. -/

namespace Protocore

namespace RefGraph

open Relation

variable {α : Type*} {owns owns' : α → α → Prop} {S : α → Prop} {a b : α}

/-- No object owns itself, directly or through others. -/
def Acyclic (owns : α → α → Prop) : Prop := ∀ a, ¬ TransGen owns a a

/-- The object is destroyed when all references from outside are gone. -/
def Freed (owns : α → α → Prop) (a : α) : Prop := Acc owns a

/-- No object is kept alive by the others alone. -/
structure Collectable (owns : α → α → Prop) : Prop where
  acyclic : Acyclic owns
  freed : ∀ a, Freed owns a

/-- The references of `owns` and one from each object of `S` to `b`. -/
def link (owns : α → α → Prop) (S : α → Prop) (b : α) (x y : α) : Prop := owns x y ∨ (S x ∧ y = b)

theorem link_iff_of_not_holder (ha : ¬ S a) {y : α} : link owns S b a y ↔ owns a y := by
  unfold link
  simp [ha]

/-- An object on a cycle is not destroyed. -/
theorem not_freed_of_cycle (h : TransGen owns a a) : ¬ Freed owns a := by
  intro hfreed
  have hacc : Acc (TransGen owns) a := Acc.transGen hfreed
  induction hacc with
  | intro a _ ih => exact ih a h h hfreed

theorem collectable_of_freed (h : ∀ a, Freed owns a) : Collectable owns :=
  ⟨fun a hcycle => not_freed_of_cycle hcycle (h a), h⟩

theorem Collectable.mono (h : Collectable owns) (hsub : ∀ x y, owns' x y → owns x y) :
    Collectable owns' :=
  collectable_of_freed (fun a => Subrelation.accessible (hsub _ _) (h.freed a))

theorem freed_link_of_not_reached (h : Freed owns a) (hb : ¬ ReflTransGen owns b a) :
    Freed (link owns S b) a := by
  induction h with
  | intro a _ ih =>
      refine Acc.intro a (fun y hy => ?_)
      rcases hy with hy | ⟨-, rfl⟩
      · exact ih y hy (fun hreach => hb (hreach.tail hy))
      · exact absurd .refl hb

/-- New references to `b` leave all objects collectable exactly when `b` reaches none of their
holders. -/
theorem collectable_link_iff (h : Collectable owns) :
    Collectable (link owns S b) ↔ ∀ a, S a → ¬ ReflTransGen owns b a := by
  constructor
  · intro hlink a ha hreach
    have hback : ReflTransGen (link owns S b) b a :=
      ReflTransGen.mono (fun _ _ => .inl) b a hreach
    exact hlink.acyclic a (TransGen.head' (.inr ⟨ha, rfl⟩) hback)
  · intro hS
    apply collectable_of_freed
    intro a
    induction h.freed a with
    | intro a _ ih =>
        refine Acc.intro a (fun y hy => ?_)
        rcases hy with hy | ⟨hy, -⟩
        · exact ih y hy
        · exact freed_link_of_not_reached (h.freed y) (hS y hy)

/-- Whatever reaches `b` reaches it without the references that `b` holds. -/
theorem reaches_of_cut (hcut : ∀ x y, x ≠ b → owns x y → owns' x y) (h : ReflTransGen owns a b) :
    ReflTransGen owns' a b := by
  induction h using ReflTransGen.head_induction_on with
  | refl => exact .refl
  | @head x y hxy _ ih =>
      by_cases hx : x = b
      · rw [hx]
      · exact .head (hcut x y hx hxy) ih

end RefGraph

end Protocore
