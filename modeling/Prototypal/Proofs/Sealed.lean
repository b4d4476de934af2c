import Prototypal.Proofs.Protection

/-!
# The Null object stays empty

Null is what scripts are handed wherever there is nothing else to hand out, so every operation may
be applied to it.  Its slots are sealed, and sealed slots are never written.  New sealed slots come
from copies of sealed slots alone.

* `Slots.Bare` — slots without entries and ancestors.
* `Moment.Step.isSealed_origin` — where sealed slots come from: they were there before, as they are,
  or a sealed object has just been copied.
* `Inert` — what the operations on attributes come to on a sealed object.
* `Moment.OfNull` — Null, its copies, their copies, and so on.
* `null_never_polluted` — the statement about sessions.
-/

namespace Prototypal

/-- Slots that hold nothing but the two readonly keys that all slots have. -/
structure Slots.Bare (s : Slots) : Prop where
  table : s.table = []
  parent : s.parent = none
  stepparents : s.stepparents = []
  readonlyKeys : ∀ k, k ∈ s.readonlyKeys ↔ k = .identity ∨ k = .readonly

/-! ## Where sealed slots come from -/

namespace Heap

variable {h h' : Heap} {o : ObjectId}

lemma slots_setSlots_of_isSealed {x : ObjectId} {s : Slots} (unsealed : s.isSealed = false)
    (isSealed : ((h.setSlots x s).slots o).isSealed = true) :
    (h.setSlots x s).slots o = h.slots o := by
  rw [slots_setSlots] at isSealed ⊢
  split at isSealed
  · exact absurd (unsealed.symm.trans isSealed) nofun
  · rename_i elsewhere
    rw [if_neg elsewhere]

lemma isSealed_of_writable {s : Slots} {k : Key} (writable : s.isReadonly k = false) :
    s.isSealed = false := by
  simp only [Slots.isReadonly, Bool.or_eq_false_iff] at writable
  exact writable.1

/-- What is sealed after a write is as it was before. -/
lemma Write.slots_of_isSealed (write : h.Write h') (isSealed : (h'.slots o).isSealed = true) :
    h'.slots o = h.slots o := by
  cases write with
  | make p parent stepparents =>
      rw [Heap.make, slots_add] at isSealed ⊢
      split at isSealed
      · cases isSealed
      · rename_i old
        rw [if_neg old]
  | skip => exact slots_skip h o
  | put x k v slots writable stored =>
      have same := (Slots.Spares.put writable stored).isSealed
      exact slots_setSlots_of_isSealed (same.trans (isSealed_of_writable writable)) isSealed
  | take x k writable =>
      have same := (Slots.Spares.take writable).isSealed
      exact slots_setSlots_of_isSealed (same.trans (isSealed_of_writable writable)) isSealed
  | protect x k unsealed =>
      have same := (Slots.Spares.protect (h.slots x) k).isSealed
      exact slots_setSlots_of_isSealed (same.trans unsealed) isSealed

lemma Writes.slots_of_isSealed (writes : h.Writes h')
    (isSealed : (h'.slots o).isSealed = true) : h'.slots o = h.slots o := by
  induction writes with
  | refl => rfl
  | tail _ last ih =>
      have same := last.slots_of_isSealed isSealed
      rw [same] at isSealed ⊢
      exact ih isSealed

end Heap

namespace Moment

variable {p q : Moment} {o : ObjectId}

/-- Where sealed slots come from. -/
inductive SealedOrigin (p q : Moment) (o : ObjectId) : Prop where
  | kept (slots : q.heap.slots o = p.heap.slots o)
  | copied (x : ObjectId) (copies : p.AboutTo (copy x)) (new : o = p.heap.nextId)
      (slots : q.heap.slots o = (p.heap.slots x).duplicate o)

lemma Step.isSealed_origin (step : p.Step q) (isSealed : (q.heap.slots o).isSealed = true) :
    SealedOrigin p q o := by
  -- an operation that asks for the seal only writes where there is none
  have unlessSealed : ∀ {x : ObjectId} {s : Slots},
      q.heap = (if (p.heap.slots x).isSealed then p.heap else p.heap.setSlots x s) →
      s.isSealed = (p.heap.slots x).isSealed → SealedOrigin p q o := by
    intro x s heap same
    split at heap
    · exact .kept (by rw [heap])
    · rename_i unsealed
      rw [heap] at isSealed
      refine .kept ?_
      rw [heap]
      exact Heap.slots_setSlots_of_isSealed (same.trans (Bool.of_not_eq_true unsealed)) isSealed
  rcases step.writes_or_bypass with writes | ⟨_, act, bypass, next⟩
  · exact .kept (writes.slots_of_isSealed isSealed)
  · have heap := step.heap_of_aboutTo next
    cases bypass with
    | copy x =>
        have made : q.heap = p.heap.copy x := heap
        by_cases new : o = p.heap.nextId
        · refine .copied x next new ?_
          rw [made, Heap.copy, Heap.slots_add, if_pos new, new]
        · refine .kept ?_
          rw [made, Heap.copy, Heap.slots_add, if_neg new]
    | setParent x parent =>
        exact unlessSealed (heap.trans (heap_setParent x parent p.now.state)) rfl
    | pushStepparent x stepparent =>
        exact unlessSealed (heap.trans (heap_pushStepparent x stepparent p.now.state)) rfl

/-- The seal of an object is kept. -/
lemma Reaches.isSealed (reaches : p.Reaches q) (present : (p.heap.get? o).isSome) :
    (q.heap.get? o).isSome ∧ (q.heap.slots o).isSealed = (p.heap.slots o).isSealed := by
  induction reaches with
  | refl => exact ⟨present, rfl⟩
  | tail _ last ih =>
      obtain ⟨there, on⟩ := last.onSlots ih.1
      refine ⟨there, Eq.trans ?_ ih.2⟩
      cases on with
      | spared spares => exact spares.isSealed
      | parent parent next slots => rw [slots]
      | stepparent stepparent next slots => rw [slots]

/-- Sealed slots hold nothing, at every moment of a session. -/
lemma bare_of_isSealed {es : List Expr} (hp : (start es).Reaches p) :
    ∀ o, (p.heap.slots o).isSealed = true → (p.heap.slots o).Bare := by
  induction hp with
  | refl =>
      intro o isSealed
      match o with
      | 0 => cases isSealed
      | 1 =>
          refine ⟨rfl, rfl, rfl, fun k => ?_⟩
          show k ∈ [Key.readonly, Key.identity] ↔ _
          simp [or_comm]
      | n + 2 => cases isSealed
  | tail _ last ih =>
      intro o isSealed
      cases last.isSealed_origin isSealed with
      | kept slots =>
          rw [slots] at isSealed ⊢
          exact ih o isSealed
      | copied x copies new slots =>
          rw [slots] at isSealed ⊢
          obtain ⟨table, parent, stepparents, readonlyKeys⟩ := ih x isSealed
          exact ⟨table, parent, stepparents, readonlyKeys⟩

end Moment

/-! ## Operations on sealed objects -/

/-- What the operations on attributes come to on a sealed object: nothing is written, and nothing is
found. -/
structure Inert (o : ObjectId) (s : State) : Prop where
  set : s.strictness = .off → ∀ k v, setAttribute o k v s = .error (.fault (.readonly k)) s
  delete : s.strictness = .off → ∀ k, deleteAttribute o k s = .error (.fault (.readonly k)) s
  slotSet : ∀ k v, slotSet o k v s = .error (.fault (.readonly k)) s
  slotDelete : ∀ k, slotDelete o k s = .error (.fault (.readonly k)) s
  makeReadonly : ∀ k, makeReadonly o k s =
    .ok () { s with journal := .ignored o .makeReadonly :: s.journal }
  setParent : ∀ parent, setParent o parent s =
    .ok () { s with journal := .ignored o .setParent :: s.journal }
  pushStepparent : ∀ stepparent, pushStepparent o stepparent s =
    .ok () { s with journal := .ignored o .pushStepparent :: s.journal }
  respondsTo : ∀ k, k.isReserved = false →
    ∃ notes, respondsTo o k s = .ok false { s with journal := notes ++ s.journal }

/-- An ordinary key is not found from where there is neither an entry nor an ancestor. -/
lemma Heap.resolve?_of_bare {h : Heap} {o : ObjectId} (bare : (h.slots o).Bare) (hops : Nat)
    (k : Key) : (h.resolve? hops o k).1 = none := by
  have miss : h.own? k o = none := by simp [own?, Slots.find?, bare.table]
  have alone : h.ancestors o = [] := by
    simp [ancestors, Slots.ancestors, bare.parent, bare.stepparents]
  have fresh : o ∉ Trail.start.entered := List.not_mem_nil
  simp only [resolve?, Trail.walk, Trail.visit, fresh, if_false, miss]
  cases hops with
  | zero => rfl
  | succ hops =>
      rw [Trail.above, alone]
      rfl

lemma inert_of_isSealed {o : ObjectId} {s : State} (isSealed : (s.heap.slots o).isSealed = true)
    (bare : (s.heap.slots o).Bare) : Inert o s := by
  have readonly : ∀ k, (s.heap.slots o).isReadonly k = true := by
    intro k
    rw [Slots.isReadonly, isSealed, Bool.true_or]
  have slotSet : ∀ k v, slotSet o k v s = .error (.fault (.readonly k)) s := by
    intro k v
    rw [slotSet_run, if_pos (readonly k)]
  have slotDelete : ∀ k, slotDelete o k s = .error (.fault (.readonly k)) s := by
    intro k
    rw [slotDelete_run, if_pos (readonly k)]
  refine ⟨fun off k v => ?_, fun off k => ?_, slotSet, slotDelete, fun k => ?_, fun parent => ?_,
    fun stepparent => ?_, fun k hk => ?_⟩
  · rw [setAttribute, checked_run, off]
    exact slotSet k v
  · rw [deleteAttribute, checked_run, off]
    exact slotDelete k
  · rw [makeReadonly, unlessSealed_run, if_pos isSealed]
  · rw [setParent, unlessSealed_run, if_pos isSealed]
  · rw [pushStepparent, unlessSealed_run, if_pos isSealed]
  · refine ⟨(s.heap.resolve? s.hops o k).2.notes (some k) s.hops, ?_⟩
    rw [respondsTo, run_bind_ok (resolve_run hk s), Heap.resolve?_of_bare bare]
    rfl

/-! ## Sessions -/

/-- Null and the objects that come from it by copying, at a moment of a session. -/
inductive Moment.OfNull (es : List Expr) : Moment → ObjectId → Prop where
  | null (p : Moment) : OfNull es p nullId
  | copied {p q r : Moment} {o : ObjectId} (older : OfNull es p o)
      (past : (start es).Reaches p) (copies : p.AboutTo (copy o)) (step : p.Step q)
      (later : q.Reaches r) : OfNull es r p.heap.nextId

namespace Moment

variable {es : List Expr} {p q : Moment} {o : ObjectId}

lemma OfNull.later (h : OfNull es p o) (step : p.Step q) : OfNull es q o := by
  cases h with
  | null => exact .null q
  | copied older past copies made since => exact .copied older past copies made (since.tail step)

lemma OfNull.isSealed (h : OfNull es p o) (hp : (start es).Reaches p) :
    (p.heap.get? o).isSome ∧ (p.heap.slots o).isSealed = true := by
  induction h with
  | null p => exact hp.isSealed rfl
  | copied older past copies step since ih =>
      rename_i p q r o
      have heap : q.heap = p.heap.copy o := step.heap_of_aboutTo copies
      have there : (q.heap.get? p.heap.nextId).isSome := by
        rw [heap, Heap.copy, Heap.get?_add_nextId]
        rfl
      have isSealed : (q.heap.slots p.heap.nextId).isSealed = true := by
        rw [heap, Heap.copy, Heap.slots_add, if_pos rfl]
        exact (ih past).2
      obtain ⟨still, same⟩ := since.isSealed there
      exact ⟨still, same.trans isSealed⟩

lemma ofNull_of_isSealed (hp : (start es).Reaches p) :
    ∀ o, (p.heap.slots o).isSealed = true → OfNull es p o := by
  induction hp with
  | refl =>
      intro o isSealed
      match o with
      | 0 => cases isSealed
      | 1 => exact .null _
      | n + 2 => cases isSealed
  | tail before last ih =>
      intro o isSealed
      cases last.isSealed_origin isSealed with
      | kept slots =>
          rw [slots] at isSealed
          exact (ih o isSealed).later last
      | copied x copies new slots =>
          rw [slots] at isSealed
          rw [new]
          exact .copied (ih x isSealed) before copies last .refl

end Moment

/-- **Null is never polluted.**  A session comes through the ends of its steps; at every moment of
it, the sealed objects are Null and what was copied from it.  Their slots hold nothing, no write to
them is carried out, and no attribute is found on them. -/
theorem null_never_polluted (shown : Event → Bool) (es : List Expr) :
    (∀ past rest, es = past ++ rest →
      ∃ r, (Moment.start es).Reaches
        ⟨.ret r .done (past.foldl (fun s e => (runStep shown e s).2) .initial), rest⟩) ∧
    ∀ p, (Moment.start es).Reaches p → ∀ o,
      ((p.heap.slots o).isSealed = true ↔ Moment.OfNull es p o) ∧
      ((p.heap.slots o).isSealed = true →
        (p.heap.slots o).Bare ∧ ∀ s : State, s.heap = p.heap → Inert o s) := by
  refine ⟨fun past rest => Moment.start_reaches_after shown, fun p hp o =>
    ⟨⟨Moment.ofNull_of_isSealed hp o, fun h => (h.isSealed hp).2⟩, fun isSealed => ?_⟩⟩
  have bare := Moment.bare_of_isSealed hp o isSealed
  refine ⟨bare, fun s heap => inert_of_isSealed ?_ ?_⟩
  · rw [heap]
    exact isSealed
  · rw [heap]
    exact bare

/-- A copy of a copy of Null. -/
def copyTwice : List Expr :=
  [.assign "c" (.unary .clone (.unary .clone .null))]

/-- The second copy of Null refuses to be written. -/
theorem copyTwice_inert : ∃ p, (Moment.start copyTwice).Reaches p ∧ Moment.OfNull copyTwice p 3 ∧
    (p.heap.slots 3).Bare ∧ Inert 3 p.now.state := by
  obtain ⟨ends, moments⟩ := null_never_polluted (fun _ => true) copyTwice
  obtain ⟨r, reaches⟩ := ends copyTwice [] (List.append_nil _).symm
  have isSealed : ((stateAfter copyTwice).heap.slots 3).isSealed = true := by decide +kernel
  obtain ⟨origin, inert⟩ := moments _ reaches 3
  exact ⟨_, reaches, origin.mp isSealed, (inert isSealed).1, (inert isSealed).2 _ rfl⟩

end Prototypal
