import Mathlib.Logic.Relation
import Mathlib.Tactic.Common
import Prototypal.Graph.Ancestry

/-!
# Ancestor paths

An object *hops* to each of its ancestors, its stepparents and its parent.  A path is a chain of
hops.  The limit on walks is about the length of paths, so this module relates the two:

* `Heap.Hop`, `Heap.Reaches` — one hop, and any number of hops.
* `Heap.HopsWithin` — no path from an object is longer than a given number of hops.
* `HopsWithin.not_reaches` — such an object lies on no cycle: going round would make a path of any
  length.
* `hopsWithin_of_older` — where ancestors are older than their descendants, identities bound the
  length of paths.
-/

namespace Prototypal

namespace Heap

/-- One object is an ancestor of another, by a single hop. -/
def Hop (h : Heap) (o a : ObjectId) : Prop :=
  a ∈ h.ancestors o

/-- One object is reached from another by any number of hops. -/
def Reaches (h : Heap) : ObjectId → ObjectId → Prop :=
  Relation.ReflTransGen h.Hop

/-- Every ancestor path from an object has at most that many hops. -/
def HopsWithin (h : Heap) (n : Nat) (o : ObjectId) : Prop :=
  ∀ path : List ObjectId, List.IsChain h.Hop (o :: path) → path.length ≤ n

variable {h : Heap} {n : Nat} {o a : ObjectId}

/-- Behind a hop the paths are shorter by one. -/
lemma HopsWithin.hop (ho : h.HopsWithin (n + 1) o) (hop : h.Hop o a) : h.HopsWithin n a := by
  intro path chain
  have longer := ho (a :: path) (List.isChain_cons_cons.mpr ⟨hop, chain⟩)
  simp only [List.length_cons] at longer
  omega

/-- Where no hop is left, there is no ancestor. -/
lemma HopsWithin.not_hop (ho : h.HopsWithin 0 o) : ¬ h.Hop o a := by
  intro hop
  have longer := ho [a] (List.isChain_cons_cons.mpr ⟨hop, .singleton a⟩)
  simp at longer

lemma HopsWithin.mono {m : Nat} (ho : h.HopsWithin n o) (hm : n ≤ m) : h.HopsWithin m o :=
  fun path chain => Nat.le_trans (ho path chain) hm

/-- An object whose paths are bounded is not among the ancestors of its ancestors. -/
lemma HopsWithin.not_reaches (ho : h.HopsWithin n o) (hop : h.Hop o a) : ¬ h.Reaches a o := by
  induction n generalizing o a with
  | zero => exact absurd hop ho.not_hop
  | succ n ih =>
      intro back
      -- the cycle through `o` is also one through `a`, where one hop less is left
      rcases Relation.ReflTransGen.cases_head back with rfl | ⟨b, next, rest⟩
      · exact ih (ho.hop hop) hop .refl
      · exact ih (ho.hop hop) next (rest.tail hop)

/-- Where every ancestor is older than its descendant, no path is longer than the identity it starts
from. -/
lemma hopsWithin_of_older (older : ∀ o a, h.Hop o a → a < o) (o : ObjectId) : h.HopsWithin o o := by
  intro path chain
  induction path generalizing o with
  | nil => exact Nat.zero_le o
  | cons a path ih =>
      obtain ⟨hop, rest⟩ := List.isChain_cons_cons.mp chain
      have shorter : path.length ≤ a := ih a rest
      exact Nat.lt_of_le_of_lt shorter (older o a hop)

end Heap

end Prototypal
