import Mathlib.Data.List.Nodup
import Prototypal.Proofs.Ancestry.Above
import Prototypal.Proofs.Ancestry.Exact

/-!
# Writes are local

Storing or deleting an own entry changes the table of one object under one key.  It does not change
where walks go, so every lookup still goes through the same objects in the same order, and only the
object that was written may answer otherwise.

* `Heap.Touches` — two heaps that differ by one own entry at most.
* `Touches.isA`, `Touches.resolve?_of_ne` — membership, and the lookup of other keys.
* `Touches.resolve?_cases` — the lookup of the key itself.  The objects before the written one in
  the order go first, then its own entry, then the objects after it.
* `setAttribute_ok`, `slotSet_ok` — what a write that succeeds does to the heap.
* `writes_are_local` — the statement about operations.
-/

namespace Prototypal

namespace Heap

/-- The second heap differs from the first at most by the own entry of an object under a key. -/
structure Touches (x : ObjectId) (k : Key) (h h' : Heap) : Prop where
  ancestors : h'.ancestors = h.ancestors
  others : ∀ y j, y ≠ x ∨ j ≠ k → h'.own? j y = h.own? j y

variable {h h' : Heap} {x : ObjectId} {k : Key}

/-- The same ancestors, and a table with the same entries under all other keys. -/
lemma touches_setSlots {slots : Slots} (ancestors : slots.ancestors = (h.slots x).ancestors)
    (others : ∀ j, j ≠ k → slots.find? j = (h.slots x).find? j) :
    Touches x k h (h.setSlots x slots) := by
  constructor
  · funext y
    rw [Heap.ancestors, Heap.ancestors, slots_setSlots]
    split
    · rename_i here
      rw [ancestors, here.1]
    · rfl
  · intro y j apart
    rw [own?, own?, slots_setSlots]
    split
    · rename_i here
      obtain ⟨rfl, _⟩ := here
      rw [others j (apart.resolve_left fun away => away rfl)]
    · rfl

namespace Touches

variable (touches : Touches x k h h') (hops : Nat) (y : ObjectId)
include touches

lemma isA (z : ObjectId) : h'.isA hops y z = h.isA hops y z := by
  rw [Heap.isA, Heap.isA, touches.ancestors]

lemma resolve?_of_ne {j : Key} (other : j ≠ k) : h'.resolve? hops y j = h.resolve? hops y j := by
  have own : h'.own? j = h.own? j := funext fun z => touches.others z j (.inr other)
  rw [resolve?, resolve?, touches.ancestors, own]

/-- Without the object, the same objects answer in the same way. -/
lemma findSome?_of_not_mem {os : List ObjectId} (away : x ∉ os) :
    os.findSome? (h'.own? k) = os.findSome? (h.own? k) := by
  have same : ∀ o ∈ os, h'.own? k o = h.own? k o := by
    intro o ho
    refine touches.others o k (.inl ?_)
    rintro rfl
    exact away ho
  rw [← List.head?_filterMap, List.filterMap_congr same, List.head?_filterMap]

lemma order : h'.order hops y = h.order hops y := by
  rw [Heap.order, Heap.order, touches.ancestors]

/-- A lookup that does not come to the object finds what it found. -/
lemma resolve?_of_not_mem (away : x ∉ h.order hops y) :
    (h'.resolve? hops y k).1 = (h.resolve? hops y k).1 := by
  rw [resolve?_fst, resolve?_fst, touches.order, touches.findSome?_of_not_mem away]

/-- A lookup that comes to the object is decided by the objects before it, then by its own entry,
then by the objects after it. -/
lemma resolve?_of_mem (there : x ∈ h.order hops y) :
    ∃ nearer farther : Option Found, (∀ f, nearer = some f → f.holder ≠ x) ∧
      (h.resolve? hops y k).1 = nearer.or ((h.own? k x).or farther) ∧
      (h'.resolve? hops y k).1 = nearer.or ((h'.own? k x).or farther) := by
  have nodup : (h.order hops y).Nodup := List.nodup_reverse.mpr (Trail.proper_walk ..).nodup
  obtain ⟨before, after, split⟩ := List.append_of_mem there
  rw [resolve?_fst, resolve?_fst, touches.order, split]
  rw [split] at nodup
  have away : x ∉ before ∧ x ∉ after := by
    simpa only [List.mem_append, not_or] using (List.nodup_middle.mp nodup).notMem
  refine ⟨before.findSome? (h.own? k), after.findSome? (h.own? k), ?_, ?_, ?_⟩
  · intro f found
    obtain ⟨z, hz, held⟩ := List.exists_of_findSome?_eq_some found
    rw [(own?_eq_some_iff.mp held).1]
    rintro rfl
    exact away.1 hz
  · rw [List.findSome?_append, List.findSome?_cons]
    cases h.own? k x <;> rfl
  · rw [List.findSome?_append, List.findSome?_cons, touches.findSome?_of_not_mem away.1,
      touches.findSome?_of_not_mem away.2]
    cases h'.own? k x <;> rfl

end Touches

/-! ## Entries stored and removed -/

/-- A heap in which an object has a given own entry under a key. -/
def withOwn (h : Heap) (x : ObjectId) (k : Key) (v : ObjectId) : Heap :=
  h.setSlots x { h.slots x with table := (k, v) :: (h.slots x).without k }

lemma touches_withOwn (h : Heap) (x : ObjectId) (k : Key) (v : ObjectId) :
    Touches x k h (h.withOwn x k v) := by
  refine touches_setSlots rfl fun j other => ?_
  have skipped : (j == k) = false := by simpa using other
  simp [Slots.find?, List.lookup_cons, skipped, Slots.lookup_without _ other]

lemma touches_withoutOwn (h : Heap) (x : ObjectId) (k : Key) :
    Touches x k h (h.withoutOwn x k) :=
  touches_setSlots rfl fun _ other => Slots.lookup_without _ other

/-- What was stored is there, unless there is no such object. -/
lemma own?_withOwn (h : Heap) (x : ObjectId) (k : Key) (v : ObjectId) :
    (h.withOwn x k v).own? k x = if (h.get? x).isSome then some ⟨x, v⟩ else h.own? k x := by
  rw [own?, withOwn, slots_setSlots]
  cases present : h.get? x with
  | some y => simp [Slots.find?]
  | none => simp [own?]

lemma isSome_of_own? {f : Found} (held : h.own? k x = some f) : (h.get? x).isSome := by
  cases present : h.get? x with
  | some y => rfl
  | none => simp [own?, slots, present, Slots.fresh, Slots.find?] at held

/-- The holder that a lookup finds is among the objects that it goes through, and has the entry. -/
lemma mem_order_of_resolve? {hops : Nat} {y : ObjectId} {f : Found}
    (found : (h.resolve? hops y k).1 = some f) :
    f.holder ∈ h.order hops y ∧ h.own? k f.holder = some f := by
  rw [resolve?_fst] at found
  obtain ⟨z, there, held⟩ := List.exists_of_findSome?_eq_some found
  obtain rfl := (own?_eq_some_iff.mp held).1
  exact ⟨there, held⟩

/-- After a value was stored, a lookup of the key finds what it found, or the new entry. -/
lemma resolve?_withOwn (h : Heap) (hops : Nat) (x : ObjectId) (k : Key) (v y : ObjectId) :
    ((h.withOwn x k v).resolve? hops y k).1 = (h.resolve? hops y k).1 ∨
      ((h.withOwn x k v).resolve? hops y k).1 = some ⟨x, v⟩ := by
  by_cases there : x ∈ h.order hops y
  · obtain ⟨nearer, farther, _, before, after⟩ :=
      (h.touches_withOwn x k v).resolve?_of_mem hops y there
    rw [before, after, own?_withOwn]
    split
    · cases nearer with
      | some f => exact .inl rfl
      | none => exact .inr rfl
    · exact .inl rfl
  · exact .inl ((h.touches_withOwn x k v).resolve?_of_not_mem hops y there)

/-- If it found an entry of the object, it finds the new one. -/
lemma resolve?_withOwn_of_holder (h : Heap) (hops : Nat) (x : ObjectId) (k : Key) (v y : ObjectId)
    {f : Found} (found : (h.resolve? hops y k).1 = some f) (here : f.holder = x) :
    ((h.withOwn x k v).resolve? hops y k).1 = some ⟨x, v⟩ := by
  subst here
  obtain ⟨there, held⟩ := mem_order_of_resolve? found
  obtain ⟨nearer, farther, others, before, after⟩ :=
    (h.touches_withOwn f.holder k v).resolve?_of_mem hops y there
  rw [after, own?_withOwn, if_pos (isSome_of_own? held)]
  cases nearer with
  | some g =>
      rw [before] at found
      cases found
      exact absurd rfl (others f rfl)
  | none => rfl

/-- Removing an entry changes a lookup of the key only if the entry was found. -/
lemma exists_holder_of_withoutOwn (h : Heap) (hops : Nat) (x : ObjectId) (k : Key) (y : ObjectId)
    (changed : ((h.withoutOwn x k).resolve? hops y k).1 ≠ (h.resolve? hops y k).1) :
    ∃ f, (h.resolve? hops y k).1 = some f ∧ f.holder = x := by
  have touches := h.touches_withoutOwn x k
  by_cases there : x ∈ h.order hops y
  · obtain ⟨nearer, farther, _, before, after⟩ := touches.resolve?_of_mem hops y there
    rw [own?_withoutOwn, foreign?, if_pos rfl] at after
    rw [before, after] at changed
    rw [before]
    cases nearer with
    | some f => exact absurd rfl changed
    | none =>
        cases own : h.own? k x with
        | some f => exact ⟨f, rfl, (own?_eq_some_iff.mp own).1⟩
        | none =>
            rw [own] at changed
            exact absurd rfl changed
  · exact absurd (touches.resolve?_of_not_mem hops y there) changed

end Heap

/-! ## Writes that succeed -/

section

variable {x : ObjectId} {k : Key} {v : ObjectId} {s t : State}

/-- A value stored under an ordinary key is the own entry afterwards. -/
lemma slotSet_ok (ordinary : k.isReserved = false) (h : slotSet x k v s = .ok () t) :
    t.heap = s.heap.withOwn x k v ∧ t.fixed = s.fixed := by
  rw [slotSet_run, Slots.put_of_not_isReserved ordinary] at h
  split at h
  · cases h
  · cases h
    exact ⟨rfl, rfl⟩

lemma setAttribute_ok (ordinary : k.isReserved = false) (h : setAttribute x k v s = .ok () t) :
    t.heap = s.heap.withOwn x k v ∧ t.fixed = s.fixed := by
  obtain ⟨s', t', carried, ⟨heap, fixed⟩, heap', fixed'⟩ := checked_ok h
  obtain ⟨stored, kept⟩ := slotSet_ok ordinary carried
  rw [heap', stored, heap, fixed', kept, fixed]
  exact ⟨rfl, rfl⟩

end

/-- A question has the same answer in two states. -/
def SameAnswer {α : Type} (question : Run α) (s t : State) : Prop :=
  ∃ a, Yields question s a ∧ Yields question t a

/-- What a write to an ordinary key of an object leaves alone: the lookup of every other ordinary
key, and membership. -/
structure Spares (k : Key) (y : ObjectId) (s t : State) : Prop where
  lookups : ∀ j, j.isReserved = false → j ≠ k → SameAnswer (resolve y j) s t
  membership : ∀ z, SameAnswer (isA y z) s t

lemma Heap.Touches.spares {x : ObjectId} {k : Key} {s t : State}
    (touches : Heap.Touches x k s.heap t.heap) (fixed : t.fixed = s.fixed) (y : ObjectId) :
    Spares k y s t := by
  have hops : t.hops = s.hops := hops_of_fixed fixed
  constructor
  · intro j hj other
    refine ⟨_, (resolve_yields_iff hj).mpr rfl, (resolve_yields_iff hj).mpr ?_⟩
    rw [hops, touches.resolve?_of_ne s.hops y other]
  · intro z
    refine ⟨_, isA_yields_iff.mpr rfl, isA_yields_iff.mpr ?_⟩
    rw [hops, touches.isA s.hops y z]

/-- **Writes are local.**  Let a value be stored at an object under an ordinary key, checked or
unchecked.  From every object, the lookup of any other ordinary key and membership are what they
were.  The lookup of the key itself is what it was or finds the new entry; it finds the new entry if
the holder was the object that was written, and is what it was from an object that has not got the
written one among its ancestors.  The written object itself finds the new entry.  Likewise, a
deletion changes a lookup only if it is of the key and the holder was the object. -/
theorem writes_are_local (s : State) (x : ObjectId) (k : Key) (ordinary : k.isReserved = false) :
    (∀ v t, setAttribute x k v s = .ok () t ∨ slotSet x k v s = .ok () t → ∀ y,
      Spares k y s t ∧
        ∃ before after, Yields (resolve y k) s before ∧ Yields (resolve y k) t after ∧
          (after = before ∨ after = some ⟨x, v⟩) ∧
          (∀ f, before = some f → f.holder = x → after = some ⟨x, v⟩) ∧
          (Yields (isA y x) s false → after = before) ∧
          (y = x → (s.heap.get? x).isSome → after = some ⟨x, v⟩)) ∧
    ∀ v t, deleteAttribute x k s = .ok v t ∨ slotDelete x k s = .ok v t → ∀ y,
      Spares k y s t ∧
        ∃ before after, Yields (resolve y k) s before ∧ Yields (resolve y k) t after ∧
          (after ≠ before → ∃ f, before = some f ∧ f.holder = x) := by
  constructor
  · intro v t written y
    obtain ⟨heap, fixed⟩ : t.heap = s.heap.withOwn x k v ∧ t.fixed = s.fixed := by
      rcases written with written | written
      · exact setAttribute_ok ordinary written
      · exact slotSet_ok ordinary written
    have touches := s.heap.touches_withOwn x k v
    rw [← heap] at touches
    refine ⟨touches.spares fixed y, _, _, (resolve_yields_iff ordinary).mpr rfl,
      (resolve_yields_iff ordinary).mpr rfl, ?_⟩
    rw [hops_of_fixed fixed, heap]
    refine ⟨s.heap.resolve?_withOwn s.hops x k v y, ?_, ?_, ?_⟩
    · exact fun f => s.heap.resolve?_withOwn_of_holder s.hops x k v y
    · intro denied
      have away : x ∉ s.heap.order s.hops y := by
        rw [← Heap.isA_fst_iff, isA_yields_iff.mp denied]
        exact Bool.false_ne_true
      exact (s.heap.touches_withOwn x k v).resolve?_of_not_mem s.hops y away
    · rintro rfl present
      rw [Heap.resolve?_fst_eq_or, Heap.own?_withOwn, if_pos present, Option.some_or]
  · intro v t deleted y
    obtain ⟨heap, fixed⟩ : t.heap = s.heap.withoutOwn x k ∧ t.fixed = s.fixed := by
      rcases deleted with deleted | deleted
      · exact deleteAttribute_ok ordinary deleted
      · exact slotDelete_ok ordinary deleted
    have touches := s.heap.touches_withoutOwn x k
    rw [← heap] at touches
    refine ⟨touches.spares fixed y, _, _, (resolve_yields_iff ordinary).mpr rfl,
      (resolve_yields_iff ordinary).mpr rfl, fun changed => ?_⟩
    rw [hops_of_fixed fixed, heap] at changed
    exact s.heap.exists_holder_of_withoutOwn s.hops x k y changed

/-- On the cycle, a new value for the entry is found from the other object, and not from the one that
stands apart; deleting the entry changes nothing there, either. -/
theorem cycle_written :
    (∃ t, setAttribute 3 (.object 1) 2 { State.initial with heap := cycle } = .ok () t ∧
      Yields (resolve 2 (.object 1)) t (some ⟨3, 2⟩) ∧ Yields (resolve 4 (.object 1)) t none ∧
      SameAnswer (isA 2 4) { State.initial with heap := cycle } t) ∧
    ∃ v t, deleteAttribute 3 (.object 1) { State.initial with heap := cycle } = .ok v t ∧
      Yields (resolve 4 (.object 1)) t none := by
  let s : State := { State.initial with heap := cycle }
  obtain ⟨stores, deletes⟩ := writes_are_local s 3 (.object 1) rfl
  have unheld : (s.heap.resolve? s.hops 4 (.object 1)).1 = none := rfl
  constructor
  · obtain ⟨t, written⟩ : ∃ t, setAttribute 3 (.object 1) 2 s = .ok () t := ⟨_, rfl⟩
    obtain ⟨spares, before, after, was, found, _, replaced, _⟩ := stores 2 t (.inl written) 2
    obtain ⟨_, before', after', was', found', _, _, apart, _⟩ := stores 2 t (.inl written) 4
    rw [resolve_yields_iff rfl] at was was'
    rw [replaced ⟨3, 1⟩ was.symm rfl] at found
    rw [apart (isA_yields_iff.mpr rfl), ← was', unheld] at found'
    exact ⟨t, written, found, found', spares.membership 4⟩
  · obtain ⟨v, t, deleted⟩ : ∃ v t, deleteAttribute 3 (.object 1) s = .ok v t := ⟨_, _, rfl⟩
    obtain ⟨_, before, after, was, found, changed⟩ := deletes v t (.inl deleted) 4
    rw [resolve_yields_iff rfl, unheld] at was
    subst was
    have same : after = none := by
      by_contra other
      obtain ⟨f, held, _⟩ := changed other
      cases held
    rw [same] at found
    exact ⟨v, t, deleted, found⟩

end Prototypal
