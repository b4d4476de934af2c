import Prototypal.Proofs.Ancestry.Order
import Prototypal.Proofs.Changes
import Prototypal.Proofs.Checks
import Prototypal.Proofs.Slots

/-!
# Lookup above an object

Lookup above an object leaves out the own entry of the object.  The entry stays out when the
ancestors lead back to the object, since a walk never looks at an object that it has entered.  So
this lookup is the ordinary one in a heap from which the entry has been removed, and what it finds
is what the ordinary one finds once the entry has been deleted.

* `Heap.withoutOwn` — a heap with one own entry removed.
* `Heap.resolve?_withoutOwn`, `Heap.resolve?_fst_eq_or` — the two lookups, each by the other.
* `slotDelete_ok`, `deleteAttribute_ok` — what a deletion that succeeds does to the heap.
* `resolveAbove_eq_resolve_without` — the statement about operations.
-/

namespace Prototypal

namespace Heap

/-- A heap that differs by an object having no own entry under a key. -/
def withoutOwn (h : Heap) (o : ObjectId) (k : Key) : Heap :=
  h.setSlots o { h.slots o with table := (h.slots o).without k }

variable (h : Heap) (hops : Nat) (o : ObjectId) (k : Key)

lemma slots_withoutOwn (x : ObjectId) :
    (h.withoutOwn o k).slots x =
      if x = o then { h.slots o with table := (h.slots o).without k } else h.slots x := by
  rw [withoutOwn, slots_setSlots]
  by_cases same : x = o
  · subst same
    cases present : h.get? x with
    | some y => simp
    | none =>
        -- an object that is not there has an empty table to begin with
        have fresh : h.slots x = .fresh x none [] := by simp only [slots, present]
        simp [fresh, Slots.fresh, Slots.without]
  · have other : ¬ (o = x ∧ (h.get? x).isSome) := fun both => same both.1.symm
    rw [if_neg other, if_neg same]

@[simp] lemma ancestors_withoutOwn : (h.withoutOwn o k).ancestors = h.ancestors := by
  funext x
  rw [ancestors, ancestors, slots_withoutOwn]
  split
  · rename_i same
    rw [same]
    rfl
  · rfl

lemma own?_withoutOwn : (h.withoutOwn o k).own? k = h.foreign? k o := by
  funext x
  rw [own?, foreign?, slots_withoutOwn]
  split
  · rw [Slots.find?, Slots.lookup_without_self]
    rfl
  · rfl

/-- Lookup in the heap without the own entry is lookup above the object. -/
lemma resolve?_withoutOwn :
    (h.withoutOwn o k).resolve? hops o k = h.resolveAbove? hops o k := by
  rw [resolve?, ancestors_withoutOwn, own?_withoutOwn, resolveAbove?_eq_walk]

/-- Lookup finds the own entry, or else what lookup above the object finds. -/
lemma resolve?_fst_eq_or :
    (h.resolve? hops o k).1 = (h.own? k o).or (h.resolveAbove? hops o k).1 := by
  rw [resolve?, Trail.walk]
  cases own : h.own? k o with
  | some f => simp only [Trail.visit, Trail.start, List.not_mem_nil, if_false, own, Option.some_or]
  | none =>
      rw [Trail.visit_of_miss List.not_mem_nil own, Option.none_or]
      rfl

lemma holder_ne_of_resolveAbove? {f : Found} (found : (h.resolveAbove? hops o k).1 = some f) :
    f.holder ≠ o := by
  obtain ⟨x, other, held⟩ := exists_own_of_resolveAbove? found
  rw [(own?_eq_some_iff.mp held).1]
  exact other

end Heap

/-! ## Deletions -/

section

variable {o : ObjectId} {k : Key} {s t : State} {v : ObjectId}

/-- A deletion under an ordinary key that succeeds removes the own entry. -/
lemma slotDelete_ok (ordinary : k.isReserved = false) (h : slotDelete o k s = .ok v t) :
    t.heap = s.heap.withoutOwn o k ∧ t.fixed = s.fixed := by
  rw [slotDelete_run] at h
  split at h
  · cases h
  · have taken : (s.taken o k).heap = s.heap.withoutOwn o k := by
      rw [State.taken, Slots.take_of_not_isReserved ordinary]
      rfl
    rw [Slots.take_of_not_isReserved ordinary] at h
    rw [← taken]
    cases held : (s.heap.slots o).find? k with
    | some x =>
        rw [held] at h
        cases h
        exact ⟨rfl, rfl⟩
    | none =>
        rw [held] at h
        cases h
        exact ⟨rfl, rfl⟩

lemma deleteAttribute_ok (ordinary : k.isReserved = false) (h : deleteAttribute o k s = .ok v t) :
    t.heap = s.heap.withoutOwn o k ∧ t.fixed = s.fixed := by
  obtain ⟨s', t', deleted, ⟨heap, fixed⟩, heap', fixed'⟩ := checked_ok h
  obtain ⟨removed, kept⟩ := slotDelete_ok ordinary deleted
  rw [heap', removed, heap, fixed', kept, fixed]
  exact ⟨rfl, rfl⟩

lemma hops_of_fixed (same : t.fixed = s.fixed) : t.hops = s.hops := by
  rw [State.hops, State.limits, State.settings, same]
  rfl

lemma lookup_run (ordinary : k.isReserved = false) (s : State) :
    ∃ u, lookup o k s = .ok ((s.heap.resolve? s.hops o k).1.map Found.value) u := by
  rw [lookup, run_bind_ok (resolve_run ordinary s)]
  exact ⟨_, rfl⟩

lemma lookupAbove_run (ordinary : k.isReserved = false) (s : State) :
    ∃ u, lookupAbove o k s = .ok ((s.heap.resolveAbove? s.hops o k).1.map Found.value) u := by
  rw [lookupAbove, run_bind_ok (resolveAbove_run ordinary s)]
  exact ⟨_, rfl⟩

end

/-- **Lookup above an object is lookup without its own entry.**  For an ordinary key, lookup above
an object finds what lookup finds in the heap that differs by the object having no own entry, and
notes the same cuts.  The holder is never the object itself.  Lookup yields the own entry if there
is one, and otherwise what lookup above yields.  Once the entry has been deleted, lookup therefore
yields what lookup above did before. -/
theorem resolveAbove_eq_resolve_without (s : State) (o : ObjectId) (k : Key)
    (ordinary : k.isReserved = false) :
    ∃ (found : Option Found) (notes : List Event),
      resolveAbove o k s = .ok found { s with journal := notes ++ s.journal } ∧
        resolve o k { s with heap := s.heap.withoutOwn o k } =
          .ok found { s with heap := s.heap.withoutOwn o k, journal := notes ++ s.journal } ∧
        (∀ f, found = some f → f.holder ≠ o) ∧
        (∃ t, resolve o k s = .ok ((s.heap.own? k o).or found) t) ∧
        ∀ v t, slotDelete o k s = .ok v t ∨ deleteAttribute o k s = .ok v t →
          ∃ value, (∃ u, lookupAbove o k s = .ok value u) ∧ ∃ u, lookup o k t = .ok value u := by
  refine ⟨_, _, resolveAbove_run ordinary s, ?_, ?_, ?_, ?_⟩
  · rw [resolve_run ordinary]
    dsimp only
    rw [show State.hops { s with heap := s.heap.withoutOwn o k } = s.hops from rfl,
      Heap.resolve?_withoutOwn]
  · exact fun f found => s.heap.holder_ne_of_resolveAbove? s.hops o k found
  · rw [← Heap.resolve?_fst_eq_or]
    exact ⟨_, resolve_run ordinary s⟩
  · intro v t deleted
    obtain ⟨heap, fixed⟩ : t.heap = s.heap.withoutOwn o k ∧ t.fixed = s.fixed := by
      rcases deleted with deleted | deleted
      · exact slotDelete_ok ordinary deleted
      · exact deleteAttribute_ok ordinary deleted
    refine ⟨_, lookupAbove_run ordinary s, ?_⟩
    rw [← Heap.resolve?_withoutOwn, ← heap, ← hops_of_fixed fixed]
    exact lookup_run ordinary t

/-- Two objects that are each other's parents, each with an entry under the same key. -/
def rivals : Heap where
  objects := #[none, some ⟨.null, .sealed nullId⟩,
    some ⟨.plain, { Slots.fresh 2 (some 3) [] with table := [(.object 1, 1)] }⟩,
    some ⟨.plain, { Slots.fresh 3 (some 2) [] with table := [(.object 1, 2)] }⟩]

/-- Above the first of the two, the entry of the second is found; so it is from the first once its
own entry has been deleted. -/
theorem rivals_above :
    (∃ t, resolveAbove 2 (.object 1) { State.initial with heap := rivals } =
        .ok (some ⟨3, 2⟩) t) ∧
      (∃ t, resolve 2 (.object 1) { State.initial with heap := rivals } =
        .ok (some ⟨2, 1⟩) t) ∧
      ∃ v t, deleteAttribute 2 (.object 1) { State.initial with heap := rivals } = .ok v t ∧
        ∃ u, lookup 2 (.object 1) t = .ok (some 2) u := by
  have above : lookupAbove 2 (.object 1) { State.initial with heap := rivals } =
      .ok (some 2) { State.initial with heap := rivals } := rfl
  obtain ⟨v, t, deleted⟩ : ∃ v t,
      deleteAttribute 2 (.object 1) { State.initial with heap := rivals } = .ok v t := ⟨_, _, rfl⟩
  obtain ⟨found, notes, walked, _, _, ⟨w, direct⟩, after⟩ :=
    resolveAbove_eq_resolve_without { State.initial with heap := rivals } 2 (.object 1) rfl
  have second : found = some ⟨3, 2⟩ := by
    injection walked.symm.trans
      (show resolveAbove 2 (.object 1) { State.initial with heap := rivals } =
        .ok (some ⟨3, 2⟩) _ from rfl)
  subst second
  obtain ⟨value, ⟨u, before⟩, later⟩ := after v t (.inr deleted)
  rw [above] at before
  injection before with same
  subst same
  exact ⟨⟨_, walked⟩, ⟨w, direct⟩, v, t, deleted, later⟩

end Prototypal
