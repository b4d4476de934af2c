import Mathlib.Tactic.Common
import Prototypal.Proofs.Ancestry.Membership

/-!
# Walks that go further

A walk that is allowed more hops may enter objects that were out of reach before, and then prune
others because it has been there.  But that takes a cut: a walk that was not cut anywhere goes the
same way, and leaves the same trail, however many more hops it may take.

* `Trail.Outlasts` — a second climb agrees with a first one wherever that was not cut.
* `Trail.above_outlasts`, `Trail.walk_outlasts` — more hops, by induction over the first number.
* `Heap.resolve?_of_le`, `Heap.resolveAbove?_of_le`, `Heap.isA_of_le` — the three lookups.
-/

namespace Prototypal

namespace Trail

variable {α : Type}

/-- Cuts are never taken back, and where none is added, the second climb is the first. -/
structure Outlasts (climb' climb : Trail → ObjectId → Option α × Trail) : Prop where
  cuts : ∀ t o, t.cuts <:+ (climb t o).2.cuts
  agrees : ∀ t o, (climb t o).2.cuts = t.cuts → climb' t o = climb t o

namespace Outlasts

variable {climb climb' : Trail → ObjectId → Option α × Trail} (hit : ObjectId → Option α)

lemma visit (h : Outlasts climb' climb) : Outlasts (visit hit climb') (visit hit climb) := by
  constructor
  · intro t o
    simp only [Trail.visit]
    split
    · exact List.suffix_rfl
    · split
      · exact List.suffix_rfl
      · exact h.cuts (t.enter o) o
  · intro t o uncut
    simp only [Trail.visit] at uncut ⊢
    split
    · rfl
    · rename_i new
      rw [if_neg new] at uncut
      split
      · rfl
      · rename_i miss
        rw [miss] at uncut
        exact h.agrees (t.enter o) o uncut

lemma cuts_firstOf (h : Outlasts climb' climb) (t : Trail) (os : List ObjectId) :
    t.cuts <:+ (firstOf climb t os).2.cuts := by
  induction os generalizing t with
  | nil => exact List.suffix_rfl
  | cons o os ih =>
      have first := h.cuts t o
      rw [firstOf]
      rcases hc : climb t o with ⟨found, u⟩
      rw [hc] at first
      cases found with
      | some a => exact first
      | none => exact first.trans (ih u)

lemma firstOf (h : Outlasts climb' climb) (t : Trail) (os : List ObjectId)
    (uncut : (firstOf climb t os).2.cuts = t.cuts) :
    Trail.firstOf climb' t os = Trail.firstOf climb t os := by
  induction os generalizing t with
  | nil => rfl
  | cons o os ih =>
      have first := h.cuts t o
      have same := h.agrees t o
      rw [Trail.firstOf] at uncut
      rw [Trail.firstOf, Trail.firstOf]
      rcases hc : climb t o with ⟨found, u⟩
      rw [hc] at first same uncut
      cases found with
      | some a => rw [same uncut]
      | none =>
          -- the cuts at the end lie between those in the middle and those at the beginning
          have later : u.cuts <:+ (Trail.firstOf climb u os).2.cuts := h.cuts_firstOf u os
          have middle : u.cuts = t.cuts := by
            refine List.IsSuffix.eq_of_length_le ?_ first.length_le
            rw [← uncut]
            exact later
          rw [same middle]
          exact ih u (uncut.trans middle.symm)

end Outlasts

variable (ancestors : ObjectId → List ObjectId) (hit : ObjectId → Option α)

/-- Climbing with more hops outlasts climbing with fewer. -/
theorem above_outlasts {n m : Nat} (h : n ≤ m) :
    Outlasts (above ancestors hit m) (above ancestors hit n) := by
  induction n generalizing m with
  | zero =>
      refine ⟨fun t o => List.suffix_cons o t.cuts, fun t o uncut => ?_⟩
      simp [above, cut] at uncut
  | succ n ih =>
      obtain ⟨m, rfl⟩ : ∃ k, m = k + 1 := ⟨m - 1, by omega⟩
      have entering := (ih (Nat.le_of_succ_le_succ h)).visit hit
      exact ⟨fun t o => entering.cuts_firstOf t (ancestors o),
        fun t o uncut => entering.firstOf t (ancestors o) uncut⟩

theorem walk_outlasts {n m : Nat} (h : n ≤ m) (o : ObjectId)
    (uncut : (walk ancestors hit n o).2.cuts = []) :
    walk ancestors hit m o = walk ancestors hit n o :=
  ((above_outlasts ancestors hit h).visit hit).agrees start o uncut

end Trail

namespace Heap

variable (h : Heap) {n m : Nat} (le : n ≤ m) (o : ObjectId)
include le

lemma resolve?_of_le (k : Key) (uncut : (h.resolve? n o k).2.cuts = []) :
    h.resolve? m o k = h.resolve? n o k :=
  Trail.walk_outlasts _ _ le o uncut

lemma resolveAbove?_of_le (k : Key) (uncut : (h.resolveAbove? n o k).2.cuts = []) :
    h.resolveAbove? m o k = h.resolveAbove? n o k :=
  (Trail.above_outlasts _ _ le).agrees _ o uncut

lemma isA_of_le (target : ObjectId) (uncut : (h.isA n o target).2.cuts = []) :
    h.isA m o target = h.isA n o target := by
  rw [isA_cuts] at uncut
  apply @Trail.asWalk_injective target
  rw [← walk_sought, ← walk_sought, Trail.walk_outlasts _ _ le o uncut]

end Heap

end Prototypal
