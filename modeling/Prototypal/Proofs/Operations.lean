import Prototypal.Proofs.Changes

/-!
# Operations on the slots of an object

Slots are changed by five operations: a key is set, deleted or made readonly, the parent is
replaced, or a stepparent is added.  Some may fail and others are ignored where they are not
allowed, but either way an operation on one object leaves all others alone.

* `SlotOperation`, `State.after` — the operations, and the state after a number of them.
* `Slots.Step`, `SlotOperation.effect` — what one operation can do: one step of the slots, and then
  new objects for what a deletion gives back.
* `State.Aside` — what operations on an object keep: the slots of the other objects, and the
  settings.
-/

namespace Prototypal

/-- An operation that changes the slots of an object. -/
inductive SlotOperation where
  | set (k : Key) (v : ObjectId)
  | delete (k : Key)
  | makeReadonly (k : Key)
  | setParent (parent : Option ObjectId)
  | pushStepparent (stepparent : ObjectId)
deriving DecidableEq, Repr

/-- Carries an operation out on an object.  What a deletion gives back is dropped. -/
def SlotOperation.run (o : ObjectId) : SlotOperation → Run Unit
  | set k v => slotSet o k v
  | delete k => do
    let _ ← slotDelete o k
    return ()
  | makeReadonly k => Prototypal.makeReadonly o k
  | setParent parent => Prototypal.setParent o parent
  | pushStepparent stepparent => Prototypal.pushStepparent o stepparent

/-- The state after operations on an object, in order.  Those that fail do not keep the later ones
from being carried out. -/
def State.after (s : State) (o : ObjectId) (ops : List SlotOperation) : State :=
  ops.foldl (fun s op => Outcome.final (op.run o s)) s

/-- What an operation can do to slots, with the condition on which it is done. -/
inductive Slots.Step (s : Slots) : Slots → Prop where
  | nothing : Step s s
  | put (k : Key) (v : ObjectId) (p : Payload) (slots : Slots) (writable : s.isReadonly k = false)
      (stored : s.put k v p = some slots) : Step s slots
  | take (k : Key) (writable : s.isReadonly k = false) : Step s (s.take k).2
  | protect (k : Key) (unsealed : s.isSealed = false) : Step s (s.protect k)
  | parent (parent : Option ObjectId) (unsealed : s.isSealed = false) :
      Step s { s with parent := parent }
  | stepparents (stepparents : List ObjectId) (unsealed : s.isSealed = false) :
      Step s { s with stepparents := stepparents }

/-- How an operation on an object leaves a state. -/
structure SlotOperation.Effect (o : ObjectId) (s t : State) : Prop where
  heap : ∃ slots, (s.heap.slots o).Step slots ∧ (s.heap.setSlots o slots).Grows t.heap
  fixed : t.fixed = s.fixed

namespace Heap

variable {h h' : Heap} {x : ObjectId}

@[simp] lemma setSlots_slots (h : Heap) (o : ObjectId) : h.setSlots o (h.slots o) = h := by
  have same : ∀ x, h.objects[o]? = some x →
      (x.map fun y => { y with slots := h.slots o }) = x := by
    intro x here
    cases x with
    | none => rfl
    | some y => simp [slots, get?, here]
  rw [setSlots]
  congr 1
  refine Array.ext_getElem? fun i => ?_
  rw [Array.getElem?_modify]
  split
  · rename_i here
    subst here
    cases held : h.objects[o]? with
    | none => rfl
    | some x => exact congrArg some (same x held)
  · rfl

lemma slots_copy_of_lt (h : Heap) (o : ObjectId) (older : x < h.nextId) :
    (h.copy o).slots x = h.slots x := by
  rw [copy, slots_add, if_neg (Nat.ne_of_lt older)]

lemma slots_copy_nextId (h : Heap) (o : ObjectId) :
    (h.copy o).slots h.nextId = (h.slots o).duplicate h.nextId := by
  rw [copy, slots_add, if_pos rfl]

lemma Grows.nextId_le (grows : h.Grows h') : h.nextId ≤ h'.nextId := by
  induction grows with
  | refl => exact Nat.le_refl _
  | tail _ last ih =>
      obtain ⟨p, rfl⟩ := last
      exact Nat.le_trans ih (by simp [make])

/-- New objects leave the older ones as they were. -/
lemma Grows.get?_of_lt (grows : h.Grows h') (older : x < h.nextId) : h'.get? x = h.get? x := by
  induction grows with
  | refl => rfl
  | tail first last ih =>
      obtain ⟨p, rfl⟩ := last
      rw [make, get?_add_of_lt _ _ (Nat.lt_of_lt_of_le older (Grows.nextId_le first)), ih]

lemma Grows.slots_of_lt (grows : h.Grows h') (older : x < h.nextId) : h'.slots x = h.slots x := by
  rw [slots, slots, grows.get?_of_lt older]

end Heap

namespace SlotOperation

variable {o : ObjectId} {s t : State}

/-- An operation that changes the slots only. -/
lemma Effect.single {slots : Slots} (step : (s.heap.slots o).Step slots)
    (heap : t.heap = s.heap.setSlots o slots) (fixed : t.fixed = s.fixed) : Effect o s t := by
  refine ⟨⟨slots, step, ?_⟩, fixed⟩
  rw [heap]
  exact .refl

/-- An operation that is refused or ignored. -/
lemma Effect.same (heap : t.heap = s.heap) (fixed : t.fixed = s.fixed) : Effect o s t := by
  refine .single .nothing ?_ fixed
  rw [heap, Heap.setSlots_slots]

lemma effect_set (o : ObjectId) (k : Key) (v : ObjectId) (s : State) :
    Effect o s (Outcome.final (slotSet o k v s)) := by
  rw [slotSet_run]
  split
  · exact .same rfl rfl
  · rename_i writable
    split
    · rename_i slots stored
      exact .single (.put k v _ slots (Bool.of_not_eq_true writable) stored) rfl rfl
    · exact .same rfl rfl

lemma effect_delete (o : ObjectId) (k : Key) (s : State) :
    Effect o s (Outcome.final (slotDelete o k s)) := by
  rw [slotDelete_run]
  split
  · exact .same rfl rfl
  · rename_i writable
    obtain ⟨x, h', grows, run⟩ :=
      Makes.takenObject ((s.heap.slots o).take k).1 (s.taken o k).heap (s.taken o k).names
    rw [run (s.taken o k) rfl rfl]
    exact ⟨⟨_, .take k (Bool.of_not_eq_true writable), grows⟩, rfl⟩

/-- An operation that only sealed slots refuse. -/
lemma effect_unlessSealed (o : ObjectId) (write : SilentWrite) {act : Slots → Run Unit} {s : State}
    (h : (s.heap.slots o).isSealed = false →
      Effect o s (Outcome.final (act (s.heap.slots o) s))) :
    Effect o s (Outcome.final (unlessSealed o write act s)) := by
  rw [unlessSealed_run]
  split
  · exact .same rfl rfl
  · rename_i unsealed
    exact h (Bool.of_not_eq_true unsealed)

/-- The slots of an object that is there make one step, and the object stays there. -/
lemma Effect.step (effect : Effect o s t) (present : (s.heap.get? o).isSome) :
    (s.heap.slots o).Step (t.heap.slots o) ∧ (t.heap.get? o).isSome := by
  obtain ⟨⟨slots, step, grows⟩, _⟩ := effect
  have older : o < (s.heap.setSlots o slots).nextId := by
    simpa using Heap.lt_nextId_of_isSome present
  rw [grows.slots_of_lt older, grows.get?_of_lt older, Heap.isSome_get?_setSlots,
    Heap.slots_setSlots, if_pos ⟨rfl, present⟩]
  exact ⟨step, present⟩

/-- **What one operation does.** -/
theorem effect (op : SlotOperation) (o : ObjectId) (s : State) :
    Effect o s (Outcome.final (op.run o s)) := by
  cases op with
  | set k v => exact effect_set o k v s
  | delete k =>
      have deleted := effect_delete o k s
      rw [run, run_bind]
      cases here : slotDelete o k s with
      | ok x t =>
          rw [here] at deleted
          exact deleted
      | error i t =>
          rw [here] at deleted
          exact deleted
  | makeReadonly k =>
      exact effect_unlessSealed o _ fun unsealed => .single (.protect k unsealed) rfl rfl
  | setParent parent =>
      exact effect_unlessSealed o _ fun unsealed => .single (.parent parent unsealed) rfl rfl
  | pushStepparent stepparent =>
      exact effect_unlessSealed o _ fun unsealed => .single (.stepparents _ unsealed) rfl rfl

end SlotOperation

/-! ## Reading -/

lemma slotGet_of_absent {o : ObjectId} {k : Key} {s : State}
    (absent : (s.heap.slots o).read? k = none) : slotGet o k s = .ok none s := by
  have slots : slotsOf o s = .ok (s.heap.slots o) s := rfl
  rw [slotGet, run_bind_ok slots, absent]
  rfl

lemma slotGet_of_read? {o x : ObjectId} {k : Key} {s t : State} {e : Entry}
    (held : (s.heap.slots o).read? k = some e) (made : e.toObject s = .ok x t) :
    slotGet o k s = .ok (some x) t := by
  have slots : slotsOf o s = .ok (s.heap.slots o) s := rfl
  rw [slotGet, run_bind_ok slots, held]
  dsimp only
  rw [map_eq_pure_bind, run_bind_ok made]
  rfl

/-- Reading a key changes no slots.  Objects may be made for the entries of reserved keys. -/
lemma Makes.slotGet (o : ObjectId) (k : Key) : Makes (slotGet o k) := by
  intro h names
  cases held : (h.slots o).read? k with
  | none =>
      refine ⟨none, h, .refl, ?_⟩
      rintro s rfl -
      exact slotGet_of_absent held
  | some e =>
      obtain ⟨x, h', grows, run⟩ := Makes.toObject e h names
      refine ⟨some x, h', grows, ?_⟩
      rintro s rfl known
      exact slotGet_of_read? held (run s rfl known)

/-! ## The other objects -/

/-- What operations on an object keep: the slots of the other objects that are there, and the
settings. -/
structure State.Aside (o : ObjectId) (s t : State) : Prop where
  slots : ∀ x < s.heap.nextId, x ≠ o → t.heap.slots x = s.heap.slots x
  nextId_le : s.heap.nextId ≤ t.heap.nextId
  fixed : t.fixed = s.fixed

namespace State.Aside

variable {o : ObjectId} {s t u : State}

lemma refl (o : ObjectId) (s : State) : Aside o s s :=
  ⟨fun _ _ _ => rfl, Nat.le_refl _, rfl⟩

lemma trans (h : Aside o s t) (h' : Aside o t u) : Aside o s u where
  slots x older other := by
    rw [h'.slots x (Nat.lt_of_lt_of_le older h.nextId_le) other, h.slots x older other]
  nextId_le := Nat.le_trans h.nextId_le h'.nextId_le
  fixed := h'.fixed.trans h.fixed

lemma ofEffect (effect : SlotOperation.Effect o s t) : Aside o s t := by
  obtain ⟨⟨slots, _, grows⟩, fixed⟩ := effect
  constructor
  · intro x older other
    have elsewhere : ¬ (o = x ∧ (s.heap.get? x).isSome) := fun both => other both.1.symm
    rw [grows.slots_of_lt (by simpa using older), Heap.slots_setSlots, if_neg elsewhere]
  · simpa using grows.nextId_le
  · exact fixed

/-- **Operations on an object leave the others alone**, any number of them. -/
theorem after (s : State) (o : ObjectId) (ops : List SlotOperation) :
    Aside o s (s.after o ops) := by
  induction ops generalizing s with
  | nil => exact refl o s
  | cons op ops ih => exact (ofEffect (op.effect o s)).trans (ih _)

end State.Aside

end Prototypal
