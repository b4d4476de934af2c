import Prototypal.Proofs.Ancestry.Search

/-!
# Membership is a walk

The question whether an object is among another one and its ancestors has a recursion of its own.
It compares an object with the one that is looked for before it asks whether the walk has been
there, and does not enter it.  As that object is never among the entered ones, the order of the two
questions makes no difference: this is the walk for which the object is the only hit.

* `Trail.asWalk` — an answer about membership as a walk gives it: the hit itself is entered, too.
* `Trail.search_anyOf` — the two recursions in step, by induction on the hops that are left.
* `Heap.walk_sought` — membership and the walk, with the facts about both that follow.
-/

namespace Prototypal

/-- The one hit of a question about membership. -/
def Heap.sought (target x : ObjectId) : Option Unit :=
  if x = target then some () else none

lemma Heap.isSome_sought_iff {target x : ObjectId} : (sought target x).isSome ↔ x = target := by
  rw [sought]
  split
  · simpa
  · simpa

namespace Trail

open Heap (sought)

variable {ancestors : ObjectId → List ObjectId} {target : ObjectId} {t : Trail}

/-- An answer about membership as a walk gives it: the hit is entered. -/
def asWalk (target : ObjectId) : Bool × Trail → Option Unit × Trail
  | (true, t) => (some (), t.enter target)
  | (false, t) => (none, t)

lemma asWalk_fst (r : Bool × Trail) : (asWalk target r).1.isSome = r.1 := by
  rcases r with ⟨found, t⟩
  cases found with
  | true => rfl
  | false => rfl

lemma asWalk_cuts (r : Bool × Trail) : (asWalk target r).2.cuts = r.2.cuts := by
  rcases r with ⟨found, t⟩
  cases found with
  | true => rfl
  | false => rfl

lemma asWalk_entered (r : Bool × Trail) : r.2.entered.Sublist (asWalk target r).2.entered := by
  rcases r with ⟨found, t⟩
  cases found with
  | true => exact List.sublist_cons_self target _
  | false => exact .refl _

lemma mem_asWalk_entered {r : Bool × Trail} {x : ObjectId}
    (entered : x ∈ (asWalk target r).2.entered) : x = target ∨ x ∈ r.2.entered := by
  rcases r with ⟨found, t⟩
  cases found with
  | true => exact List.mem_cons.mp entered
  | false => exact .inr entered

lemma asWalk_injective : Function.Injective (asWalk target) := by
  rintro ⟨found, t⟩ ⟨found', u⟩ same
  have agree := congrArg (fun r => r.1.isSome) same
  simp only [asWalk_fst] at agree
  subst agree
  cases found with
  | true =>
      cases t
      cases u
      simpa [asWalk, enter] using same
  | false => simpa [asWalk] using same

/-! ## The two recursions in step -/

lemma seek_eq (ancestors : ObjectId → List ObjectId) (target : ObjectId) (n : Nat) (t : Trail)
    (o : ObjectId) :
    seek ancestors target n t o =
      if o = target then (true, t)
      else if o ∈ t.entered then (false, t)
      else match n with
        | 0 => (false, (t.enter o).cut o)
        | n + 1 => anyOf (seek ancestors target n) (t.enter o) (ancestors o) := by
  cases n with
  | zero => rfl
  | succ n => rfl

/-- What looking for an object among others comes to, as long as it has not been entered: it follows
the rules of the walk for which the object is the only hit, and does not enter it either. -/
structure InStep (ancestors : ObjectId → List ObjectId) (target : ObjectId) (n : Nat) (t : Trail)
    (os : List ObjectId) (r : Bool × Trail) : Prop where
  search : Search ancestors (sought target) n t os (asWalk target r)
  away : target ∉ r.2.entered

/-- **The two recursions in step.** -/
theorem search_anyOf (n : Nat) (os : List ObjectId) (away : target ∉ t.entered) :
    InStep ancestors target n t os (anyOf (seek ancestors target n) t os) := by
  induction n using Nat.strongRecOn generalizing t os with
  | ind n climb =>
      induction os generalizing t with
      | nil => exact ⟨.nil, away⟩
      | cons o os rest =>
          rw [anyOf, seek_eq]
          by_cases here : o = target
          · rw [if_pos here]
            subst here
            exact ⟨.found away (if_pos rfl), away⟩
          have miss : sought target o = none := if_neg here
          have apart : target ∉ (t.enter o).entered :=
            List.not_mem_cons_of_ne_of_not_mem (Ne.symm here) away
          rw [if_neg here]
          by_cases before : o ∈ t.entered
          · rw [if_pos before]
            obtain ⟨search, still⟩ := rest away
            exact ⟨.seen before search, still⟩
          rw [if_neg before]
          cases n with
          | zero =>
              obtain ⟨search, still⟩ := rest (t := (t.enter o).cut o) apart
              exact ⟨.cut before miss search, still⟩
          | succ n =>
              dsimp only
              have climbed := climb n (Nat.lt_succ_self n) (ancestors o) apart
              rcases hr : anyOf (seek ancestors target n) (t.enter o) (ancestors o) with ⟨found, u⟩
              rw [hr] at climbed
              obtain ⟨search, later⟩ := climbed
              cases found with
              | true => exact ⟨.higher before miss search, later⟩
              | false =>
                  obtain ⟨search', still⟩ := rest later
                  exact ⟨.passed before miss search search', still⟩

end Trail

namespace Heap

/-- **Membership is the walk with one hit.**  It has the same answer and the same cuts, and enters
the same objects but for the hit. -/
theorem walk_sought (h : Heap) (hops : Nat) (o target : ObjectId) :
    Trail.walk h.ancestors (sought target) hops o = Trail.asWalk target (h.isA hops o target) := by
  have step : Trail.InStep h.ancestors target hops .start [o] _ :=
    Trail.search_anyOf hops [o] List.not_mem_nil
  have alone : Trail.anyOf (Trail.seek h.ancestors target hops) .start [o] =
      h.isA hops o target := by
    rw [isA, Trail.anyOf]
    rcases Trail.seek h.ancestors target hops .start o with ⟨found, t⟩
    cases found with
    | true => rfl
    | false => rfl
  rw [← alone]
  exact Trail.search_iff.mp step.search

lemma isA_fst (h : Heap) (hops : Nat) (o target : ObjectId) :
    (h.isA hops o target).1 = (Trail.walk h.ancestors (sought target) hops o).1.isSome := by
  rw [walk_sought, Trail.asWalk_fst]

lemma isA_cuts (h : Heap) (hops : Nat) (o target : ObjectId) :
    (h.isA hops o target).2.cuts = (Trail.walk h.ancestors (sought target) hops o).2.cuts := by
  rw [walk_sought, Trail.asWalk_cuts]

lemma isA_entered (h : Heap) (hops : Nat) (o target : ObjectId) :
    (h.isA hops o target).2.entered.Sublist
      (Trail.walk h.ancestors (sought target) hops o).2.entered := by
  rw [walk_sought]
  exact Trail.asWalk_entered _

end Heap

end Prototypal
