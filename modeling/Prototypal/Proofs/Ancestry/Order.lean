import Prototypal.Proofs.Ancestry.Membership
import Prototypal.Proofs.Control

/-!
# Every walk is a search through one order

What a walk takes for a hit decides where it stops, not where it goes.  So all walks from an object
go through the same objects in the same order, the order of a walk that never stops, and each finds
the first hit in it.

* `Trail.order` — the objects that a walk without hits enters, the first one first.
* `Trail.walk_fst` — a walk finds the first hit in this order.
* `Heap.resolve?_fst`, `Heap.isA_fst_iff` — lookup and membership, in terms of the order.
* `Heap.resolveAbove?_eq_walk` — lookup above an object is a walk from the object, too.

Lookup and membership are therefore about the same objects, also where the limit cuts the walk and
where the graph is cyclic: `resolve_agrees_isA`.
-/

namespace Prototypal

namespace Trail

variable {α β : Type} {ancestors : ObjectId → List ObjectId} {hit : ObjectId → Option α}
  {n : Nat} {t u : Trail} {o : ObjectId} {os : List ObjectId} {r : Option α × Trail}

/-- What a search finds, it finds at an object that it enters. -/
lemma Search.exists_hit (h : Search ancestors hit n t os r) {a : α} (found : r.1 = some a) :
    ∃ x ∈ r.2.entered, x ∉ t.entered ∧ hit x = some a := by
  induction h with
  | nil => cases found
  | seen _ _ ih => exact ih found
  | found new here => exact ⟨_, List.mem_cons_self, new, here.trans found⟩
  | cut _ _ _ ih =>
      obtain ⟨x, hx, later, here⟩ := ih found
      exact ⟨x, hx, fun before => later (List.mem_cons_of_mem _ before), here⟩
  | higher _ _ _ ih =>
      obtain ⟨x, hx, later, here⟩ := ih found
      exact ⟨x, hx, fun before => later (List.mem_cons_of_mem _ before), here⟩
  | passed _ _ climb _ _ ih =>
      obtain ⟨x, hx, later, here⟩ := ih found
      refine ⟨x, hx, fun before => later ?_, here⟩
      exact climb.grows.entered x (List.mem_cons_of_mem _ before)

/-- A search that stops at the first hit among given objects, and that without one leaves a given
trail. -/
def Stops (ancestors : ObjectId → List ObjectId) (hit : ObjectId → Option α) (n : Nat) (t : Trail)
    (os ahead : List ObjectId) (u : Trail) : Prop :=
  ∃ v, Search ancestors hit n t os (ahead.findSome? hit, v) ∧ (ahead.findSome? hit = none → v = u)

/-- If the object that comes first is no hit, the search stops at one of the others. -/
lemma Stops.cons {ahead : List ObjectId} (new : o ∉ t.entered)
    (rest : hit o = none → Stops ancestors hit n t (o :: os) ahead u) :
    Stops ancestors hit n t (o :: os) (o :: ahead) u := by
  rw [Stops, List.findSome?_cons]
  cases here : hit o with
  | some a => exact ⟨t.enter o, .found new here, nofun⟩
  | none => exact rest here

/-- Where a search that takes nothing for a hit goes, any other search goes too, until it stops. -/
lemma Search.stops {never : ObjectId → Option β} {r : Option β × Trail}
    (h : Search ancestors never n t os r) (blind : ∀ x, never x = none)
    (hit : ObjectId → Option α) :
    ∃ ahead, r.2.entered = ahead.reverse ++ t.entered ∧
      Stops ancestors hit n t os ahead r.2 := by
  induction h with
  | nil => exact ⟨[], rfl, _, .nil, fun _ => rfl⟩
  | seen before _ ih =>
      obtain ⟨ahead, entered, v, search, whole⟩ := ih
      exact ⟨ahead, entered, v, .seen before search, whole⟩
  | found _ here =>
      rw [blind] at here
      cases here
  | cut new _ _ ih =>
      obtain ⟨ahead, entered, v, search, whole⟩ := ih
      refine ⟨_ :: ahead, ?_, .cons new fun miss => ⟨v, .cut new miss search, whole⟩⟩
      rw [entered, List.reverse_cons, List.append_assoc]
      rfl
  | higher _ _ climb _ =>
      obtain ⟨x, _, _, here⟩ := climb.exists_hit rfl
      rw [blind] at here
      cases here
  | passed new _ _ _ ih ih' =>
      obtain ⟨first, entered, v, search, whole⟩ := ih
      obtain ⟨second, entered', v', search', whole'⟩ := ih'
      refine ⟨_ :: (first ++ second), ?_, .cons new fun miss => ?_⟩
      · rw [entered', entered, enter, List.reverse_cons, List.reverse_append]
        simp only [List.append_assoc, List.singleton_append]
      · rw [Stops, List.findSome?_append]
        cases above : first.findSome? hit with
        | some a =>
            rw [above] at search
            exact ⟨v, .higher new miss search, fun none => absurd none (Option.some_ne_none a)⟩
        | none =>
            -- nothing above the object, so the search is where the other one is and goes on
            rw [above] at search
            rw [whole above] at search
            exact ⟨v', .passed new miss search search', whole'⟩

/-- The trail of a walk that takes nothing for a hit. -/
def full (ancestors : ObjectId → List ObjectId) (n : Nat) (o : ObjectId) : Trail :=
  (walk ancestors (fun _ => (none : Option Unit)) n o).2

/-- The objects that a walk without hits enters, the first one first. -/
def order (ancestors : ObjectId → List ObjectId) (n : Nat) (o : ObjectId) : List ObjectId :=
  (full ancestors n o).entered.reverse

lemma stops_order (ancestors : ObjectId → List ObjectId) (hit : ObjectId → Option α) (n : Nat)
    (o : ObjectId) :
    Stops ancestors hit n .start [o] (order ancestors n o) (full ancestors n o) := by
  obtain ⟨ahead, entered, stops⟩ := (search_walk ancestors _ n o).stops (fun _ => rfl) hit
  have whole : order ancestors n o = ahead := by
    rw [order, full, entered, start, List.append_nil, List.reverse_reverse]
  rw [whole]
  exact stops

/-- A walk that finds nothing goes all the way. -/
lemma walk_snd_of_miss (missed : (walk ancestors hit n o).1 = none) :
    (walk ancestors hit n o).2 = full ancestors n o := by
  obtain ⟨v, search, whole⟩ := stops_order ancestors hit n o
  rw [search_iff.mp search] at missed ⊢
  exact whole missed

/-- **A walk finds the first hit in the order.** -/
theorem walk_fst (ancestors : ObjectId → List ObjectId) (hit : ObjectId → Option α) (n : Nat)
    (o : ObjectId) : (walk ancestors hit n o).1 = (order ancestors n o).findSome? hit := by
  obtain ⟨v, search, _⟩ := stops_order ancestors hit n o
  rw [search_iff.mp search]

end Trail

namespace Heap

/-- The objects that a lookup from an object goes through, the first one first. -/
def order (h : Heap) (hops : Nat) (o : ObjectId) : List ObjectId :=
  Trail.order h.ancestors hops o

lemma resolve?_fst (h : Heap) (hops : Nat) (o : ObjectId) (k : Key) :
    (h.resolve? hops o k).1 = (h.order hops o).findSome? (h.own? k) :=
  Trail.walk_fst h.ancestors (h.own? k) hops o

lemma isA_fst_iff (h : Heap) (hops : Nat) (o target : ObjectId) :
    (h.isA hops o target).1 = true ↔ target ∈ h.order hops o := by
  simp only [isA_fst, Trail.walk_fst, List.findSome?_isSome_iff, isSome_sought_iff]
  exact exists_eq_right

/-- The own entry of an object, unless it is a given one. -/
def foreign? (h : Heap) (k : Key) (o x : ObjectId) : Option Found :=
  if x = o then none else h.own? k x

/-- Lookup above an object walks from the object, whose own entry does not count. -/
lemma resolveAbove?_eq_walk (h : Heap) (hops : Nat) (o : ObjectId) (k : Key) :
    h.resolveAbove? hops o k = Trail.walk h.ancestors (h.foreign? k o) hops o :=
  Trail.above_eq_walk h.ancestors hops (if_pos rfl) fun _ other => if_neg other

/-- The own entry of an object, as its slots have it. -/
lemma own?_eq_some_iff {h : Heap} {k : Key} {o : ObjectId} {f : Found} :
    h.own? k o = some f ↔ f.holder = o ∧ (h.slots o).find? k = some f.value := by
  obtain ⟨holder, value⟩ := f
  rw [own?, Option.map_eq_some_iff]
  constructor
  · rintro ⟨v, stored, same⟩
    cases same
    exact ⟨rfl, stored⟩
  · rintro ⟨rfl, stored⟩
    exact ⟨value, stored, rfl⟩

section

variable {h : Heap} {hops : Nat} {o : ObjectId} {k : Key} {f : Found}

/-- What a lookup finds is the own entry of some object. -/
lemma exists_own_of_resolve? (found : (h.resolve? hops o k).1 = some f) :
    ∃ x, h.own? k x = some f := by
  obtain ⟨x, _, _, here⟩ := (Trail.search_walk ..).exists_hit found
  exact ⟨x, here⟩

/-- What a lookup above an object finds is the own entry of another object. -/
lemma exists_own_of_resolveAbove? (found : (h.resolveAbove? hops o k).1 = some f) :
    ∃ x, x ≠ o ∧ h.own? k x = some f := by
  rw [resolveAbove?_eq_walk] at found
  obtain ⟨x, _, _, here⟩ := (Trail.search_walk ..).exists_hit found
  rw [foreign?] at here
  split at here
  · cases here
  · rename_i other
    exact ⟨x, other, here⟩

end

end Heap

/-- A question about membership is answered by the walk. -/
lemma isA_answers {o x : ObjectId} {s : State} {b : Bool}
    (answer : (s.heap.isA s.hops o x).1 = b) : ∃ t, isA o x s = .ok b t := by
  subst answer
  exact ⟨_, isA_run o x s⟩

/-- **Lookup and membership agree on every graph.**  An ordinary key is looked up.  If it is found,
the holder has the value as an own entry, and is among the ancestors.  If it is not found, no object
with an own entry is among the ancestors.  This is so whatever the limit on hops is, and whether or
not the graph is cyclic. -/
theorem resolve_agrees_isA (s : State) (o : ObjectId) (k : Key) (ordinary : k.isReserved = false) :
    ∃ (found : Option Found) (notes : List Event),
      resolve o k s = .ok found { s with journal := notes ++ s.journal } ∧
        (∀ f, found = some f → (s.heap.slots f.holder).find? k = some f.value ∧
          ∃ t, isA o f.holder s = .ok true t) ∧
        (found = none → ∀ x v, (s.heap.slots x).find? k = some v →
          ∃ t, isA o x s = .ok false t) := by
  refine ⟨_, _, resolve_run ordinary s, ?_, ?_⟩
  · intro f found
    rw [Heap.resolve?_fst] at found
    obtain ⟨x, there, here⟩ := List.exists_of_findSome?_eq_some found
    obtain ⟨rfl, stored⟩ := Heap.own?_eq_some_iff.mp here
    exact ⟨stored, isA_answers ((Heap.isA_fst_iff ..).mpr there)⟩
  · intro missed x v stored
    rw [Heap.resolve?_fst, List.findSome?_eq_none_iff] at missed
    have absent : x ∉ s.heap.order s.hops o := by
      intro there
      have here : s.heap.own? k x = some ⟨x, v⟩ := Heap.own?_eq_some_iff.mpr ⟨rfl, stored⟩
      rw [missed x there] at here
      cases here
    exact isA_answers (Bool.eq_false_iff.mpr fun there => absent ((Heap.isA_fst_iff ..).mp there))

/-- A detour: the last object leads to the object with the entry in two hops by its parent.  But its
stepparent, which is asked first, leads to the parent, so a walk comes there with one hop more. -/
def detour : Heap where
  objects := #[none, some ⟨.null, .sealed nullId⟩,
    some ⟨.plain, { Slots.fresh 2 none [] with table := [(.object 1, 1)] }⟩,
    some ⟨.plain, .fresh 3 (some 2) []⟩,
    some ⟨.plain, .fresh 4 (some 3) []⟩,
    some ⟨.plain, .fresh 5 (some 3) [4]⟩]

/-- A state with the detour, in which a walk takes two hops at most. -/
def detourState : State :=
  { State.initial with
    heap := detour
    fixed := some { Settings.standard with policy := ⟨.off, ⟨256, 2⟩⟩ } }

/-- Past the limit, lookup finds nothing and membership denies the holder; from the stepparent both
reach it. -/
theorem detour_agrees :
    (∃ t, resolve 5 (.object 1) detourState = .ok none t) ∧
      (∃ t, isA 5 2 detourState = .ok false t) ∧
      (∃ t, resolve 4 (.object 1) detourState = .ok (some ⟨2, 1⟩) t) ∧
      ∃ t, isA 4 2 detourState = .ok true t := by
  obtain ⟨found, notes, missed, _, onMiss⟩ := resolve_agrees_isA detourState 5 (.object 1) rfl
  obtain ⟨found', notes', reached, onHit, _⟩ := resolve_agrees_isA detourState 4 (.object 1) rfl
  have nothing : found = none := by
    injection missed.symm.trans
      (show resolve 5 (.object 1) detourState = .ok none _ from rfl)
  have holder : found' = some ⟨2, 1⟩ := by
    injection reached.symm.trans
      (show resolve 4 (.object 1) detourState = .ok (some ⟨2, 1⟩) _ from rfl)
  subst nothing holder
  exact ⟨⟨_, missed⟩, onMiss rfl 2 1 rfl, ⟨_, reached⟩, (onHit _ rfl).2⟩

end Prototypal
