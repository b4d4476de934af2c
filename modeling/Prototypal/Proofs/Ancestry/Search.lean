import Mathlib.Tactic.Common
import Prototypal.Graph.Ancestry

/-!
# The rules of a search

A walk tries lists of objects: the one that it starts from, and, wherever it climbs, the ancestors
of an object.  `Trail.Search` says by rules how such a list is tried.  There is one rule for each
thing that may happen to the first object of the list, so a fact about walks is proved by one
induction with one small case for each of these.

* `Trail.Search`, `Trail.search_iff` — the rules, and that they are the walk.
* `Trail.Grows` — a search adds to the trail; what it has climbed past it does not cut later.
* `Trail.Proper` — no object is entered twice, and what is cut was entered.
* `Search.congr`, `Trail.walk_congr` — a search depends only on the objects that it enters.
* `Trail.above_eq_walk` — a walk that leaves out the object where it starts.
-/

namespace Prototypal

namespace Trail

variable {α : Type}

/-- How objects are tried in order, with a number of hops left above them: what is found in the end,
and the trail that is then left. -/
inductive Search (ancestors : ObjectId → List ObjectId) (hit : ObjectId → Option α) :
    Nat → Trail → List ObjectId → Option α × Trail → Prop where
  /-- There is nothing to be tried. -/
  | nil {n : Nat} {t : Trail} : Search ancestors hit n t [] (none, t)
  /-- The walk has been at the first object. -/
  | seen {n : Nat} {t : Trail} {o : ObjectId} {os : List ObjectId} {r : Option α × Trail}
      (before : o ∈ t.entered) (rest : Search ancestors hit n t os r) :
      Search ancestors hit n t (o :: os) r
  /-- The first object is a hit. -/
  | found {n : Nat} {t : Trail} {o : ObjectId} {os : List ObjectId} {a : α}
      (new : o ∉ t.entered) (here : hit o = some a) :
      Search ancestors hit n t (o :: os) (some a, t.enter o)
  /-- No hop is left above the first object. -/
  | cut {t : Trail} {o : ObjectId} {os : List ObjectId} {r : Option α × Trail}
      (new : o ∉ t.entered) (miss : hit o = none)
      (rest : Search ancestors hit 0 ((t.enter o).cut o) os r) :
      Search ancestors hit 0 t (o :: os) r
  /-- There is a hit above the first object. -/
  | higher {n : Nat} {t u : Trail} {o : ObjectId} {os : List ObjectId} {a : α}
      (new : o ∉ t.entered) (miss : hit o = none)
      (climb : Search ancestors hit n (t.enter o) (ancestors o) (some a, u)) :
      Search ancestors hit (n + 1) t (o :: os) (some a, u)
  /-- There is no hit above the first object. -/
  | passed {n : Nat} {t u : Trail} {o : ObjectId} {os : List ObjectId} {r : Option α × Trail}
      (new : o ∉ t.entered) (miss : hit o = none)
      (climb : Search ancestors hit n (t.enter o) (ancestors o) (none, u))
      (rest : Search ancestors hit (n + 1) u os r) :
      Search ancestors hit (n + 1) t (o :: os) r

variable {ancestors ancestors' : ObjectId → List ObjectId} {hit hit' : ObjectId → Option α}
  {n : Nat} {t u : Trail} {o : ObjectId} {os : List ObjectId} {r : Option α × Trail}

/-! ## The rules are the walk -/

/-- Trying objects in order follows the rules. -/
lemma search_firstOf (n : Nat) (t : Trail) (os : List ObjectId) :
    Search ancestors hit n t os (firstOf (visit hit (above ancestors hit n)) t os) := by
  induction n using Nat.strongRecOn generalizing t os with
  | ind n climb =>
      induction os generalizing t with
      | nil => exact .nil
      | cons o os rest =>
          rw [firstOf, visit]
          by_cases before : o ∈ t.entered
          · rw [if_pos before]
            exact .seen before (rest t)
          · rw [if_neg before]
            cases here : hit o with
            | some a => exact .found before here
            | none =>
                cases n with
                | zero => exact .cut before here (rest _)
                | succ n =>
                    have climbed := climb n (Nat.lt_succ_self n) (t.enter o) (ancestors o)
                    dsimp only
                    rw [above]
                    rcases hr : firstOf (visit hit (above ancestors hit n)) (t.enter o)
                      (ancestors o) with ⟨found, u⟩
                    rw [hr] at climbed
                    cases found with
                    | some a => exact .higher before here climbed
                    | none => exact .passed before here climbed (rest u)

lemma visit_of_miss {climb : Trail → ObjectId → Option α × Trail} (new : o ∉ t.entered)
    (miss : hit o = none) : visit hit climb t o = climb (t.enter o) o := by
  simp only [visit, new, if_false, miss]

/-- The rules leave no choice. -/
lemma Search.eq (h : Search ancestors hit n t os r) :
    firstOf (visit hit (above ancestors hit n)) t os = r := by
  induction h with
  | nil => rfl
  | seen before rest ih => simp only [firstOf, visit, before, if_true, ih]
  | found new here => simp only [firstOf, visit, new, if_false, here]
  | cut new miss rest ih =>
      rw [firstOf, visit_of_miss new miss, above]
      exact ih
  | higher new miss climb ih => rw [firstOf, visit_of_miss new miss, above, ih]
  | passed new miss climb rest ih ih' =>
      rw [firstOf, visit_of_miss new miss, above, ih]
      exact ih'

/-- **The rules are the walk.** -/
theorem search_iff : Search ancestors hit n .start [o] r ↔ walk ancestors hit n o = r := by
  have alone : firstOf (visit hit (above ancestors hit n)) .start [o] =
      walk ancestors hit n o := by
    rw [walk, firstOf]
    rcases visit hit (above ancestors hit n) .start o with ⟨found, u⟩
    cases found with
    | some a => rfl
    | none => rfl
  constructor
  · intro h
    rw [← alone, h.eq]
  · rintro rfl
    rw [← alone]
    exact search_firstOf n .start [o]

lemma search_walk (ancestors : ObjectId → List ObjectId) (hit : ObjectId → Option α) (n : Nat)
    (o : ObjectId) : Search ancestors hit n .start [o] (walk ancestors hit n o) :=
  search_iff.mpr rfl

/-! ## What a search adds -/

/-- A later trail of the same walk: nothing is taken back, and what has been climbed past is not cut
any more. -/
structure Grows (t u : Trail) : Prop where
  entered : ∀ x ∈ t.entered, x ∈ u.entered
  cuts : ∀ x ∈ t.cuts, x ∈ u.cuts
  uncut : ∀ x ∈ t.entered, x ∉ t.cuts → x ∉ u.cuts

namespace Grows

lemma refl (t : Trail) : Grows t t :=
  ⟨fun _ h => h, fun _ h => h, fun _ _ h => h⟩

lemma trans {v : Trail} (h : Grows t u) (h' : Grows u v) : Grows t v where
  entered x hx := h'.entered x (h.entered x hx)
  cuts x hx := h'.cuts x (h.cuts x hx)
  uncut x hx away := h'.uncut x (h.entered x hx) (h.uncut x hx away)

lemma enter (t : Trail) (o : ObjectId) : Grows t (t.enter o) :=
  ⟨fun _ h => List.mem_cons_of_mem o h, fun _ h => h, fun _ _ h => h⟩

lemma cut (new : o ∉ t.entered) : Grows t ((t.enter o).cut o) := by
  refine ⟨fun _ h => List.mem_cons_of_mem o h, fun _ h => List.mem_cons_of_mem o h, ?_⟩
  intro x hx away
  have other : x ≠ o := by rintro rfl; exact new hx
  exact List.not_mem_cons_of_ne_of_not_mem other away

end Grows

lemma Search.grows (h : Search ancestors hit n t os r) : Grows t r.2 := by
  induction h with
  | nil => exact .refl _
  | seen _ _ ih => exact ih
  | found => exact .enter _ _
  | cut new _ _ ih => exact (Grows.cut new).trans ih
  | higher _ _ _ ih => exact (Grows.enter _ _).trans ih
  | passed _ _ _ _ ih ih' => exact ((Grows.enter _ _).trans ih).trans ih'

/-- No object is entered twice, and cuts are at objects that were entered, in their order. -/
structure Proper (t : Trail) : Prop where
  nodup : t.entered.Nodup
  cuts : t.cuts.Sublist t.entered

namespace Proper

lemma start : Proper start :=
  ⟨List.nodup_nil, .slnil⟩

lemma enter (h : Proper t) (new : o ∉ t.entered) : Proper (t.enter o) :=
  ⟨List.nodup_cons.mpr ⟨new, h.nodup⟩, h.cuts.cons o⟩

lemma cut (h : Proper t) (new : o ∉ t.entered) : Proper ((t.enter o).cut o) :=
  ⟨(h.enter new).nodup, h.cuts.cons_cons o⟩

lemma nodup_cuts (h : Proper t) : t.cuts.Nodup :=
  h.nodup.sublist h.cuts

lemma not_mem_cuts (h : Proper t) (new : o ∉ t.entered) : o ∉ t.cuts :=
  fun cut => new (h.cuts.subset cut)

end Proper

lemma Search.proper (h : Search ancestors hit n t os r) (ht : Proper t) : Proper r.2 := by
  induction h with
  | nil => exact ht
  | seen _ _ ih => exact ih ht
  | found new _ => exact ht.enter new
  | cut new _ _ ih => exact ih (ht.cut new)
  | higher new _ _ ih => exact ih (ht.enter new)
  | passed new _ _ _ ih ih' => exact ih' (ih (ht.enter new))

lemma proper_walk (ancestors : ObjectId → List ObjectId) (hit : ObjectId → Option α) (n : Nat)
    (o : ObjectId) : Proper (walk ancestors hit n o).2 :=
  (search_walk ancestors hit n o).proper .start

/-! ## What a search depends on -/

/-- A search depends only on the objects that it enters, and on the ancestors of a hit not at all. -/
lemma Search.congr (h : Search ancestors hit n t os r)
    (same : ∀ x ∈ r.2.entered, x ∉ t.entered →
      hit' x = hit x ∧ (hit x = none → ancestors' x = ancestors x)) :
    Search ancestors' hit' n t os r := by
  induction h with
  | nil => exact .nil
  | seen before _ ih => exact .seen before (ih same)
  | found new here =>
      have first := same _ List.mem_cons_self new
      exact .found new (first.1.trans here)
  | cut new miss rest ih =>
      have first := same _ (rest.grows.entered _ List.mem_cons_self) new
      refine .cut new (first.1.trans miss) (ih fun x hx later => ?_)
      exact same x hx fun before => later (List.mem_cons_of_mem _ before)
  | higher new miss climb ih =>
      have first := same _ (climb.grows.entered _ List.mem_cons_self) new
      refine .higher new (first.1.trans miss) ?_
      rw [first.2 miss]
      refine ih fun x hx later => ?_
      exact same x hx fun before => later (List.mem_cons_of_mem _ before)
  | passed new miss climb rest ih ih' =>
      have first := same _ (rest.grows.entered _ (climb.grows.entered _ List.mem_cons_self)) new
      refine .passed new (first.1.trans miss) ?_ (ih' fun x hx later => ?_)
      · rw [first.2 miss]
        refine ih fun x hx later => ?_
        exact same x (rest.grows.entered x hx) fun before =>
          later (List.mem_cons_of_mem _ before)
      · exact same x hx fun before =>
          later (climb.grows.entered x (List.mem_cons_of_mem _ before))

/-- A walk depends only on the objects that it enters, and on the ancestors of a hit not at all. -/
lemma walk_congr
    (same : ∀ x ∈ (walk ancestors hit n o).2.entered,
      hit' x = hit x ∧ (hit x = none → ancestors' x = ancestors x)) :
    walk ancestors' hit' n o = walk ancestors hit n o :=
  search_iff.mp ((search_walk ancestors hit n o).congr fun x hx _ => same x hx)

/-- Walking the ancestors of an object is walking from the object, if that is no hit.  Whether it
would be one is never asked, even if its ancestors lead back to it. -/
lemma above_eq_walk (ancestors : ObjectId → List ObjectId) (n : Nat) (miss : hit' o = none)
    (others : ∀ x, x ≠ o → hit' x = hit x) :
    above ancestors hit n (start.enter o) o = walk ancestors hit' n o := by
  rw [walk, visit_of_miss List.not_mem_nil miss]
  cases n with
  | zero => rfl
  | succ n =>
      have search : Search ancestors hit n (start.enter o) (ancestors o) _ := search_firstOf n _ _
      refine (search.congr fun x _ later => ⟨others x ?_, fun _ => rfl⟩).eq.symm
      rintro rfl
      exact later List.mem_cons_self

end Trail

end Prototypal
