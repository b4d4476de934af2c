import Prototypal.Proofs.Machine.Sessions
import Prototypal.Proofs.Slots

/-!
# Readonly keys are frozen for good

Once a key is readonly on an object, nothing that a script does makes it writable again, and the
entry under it, or its absence, stays what it is.  This is so of all keys but the reserved ones,
whose entries are answered from other parts of the slots.

* `Slots.Frozen` — a key is readonly, and its entry is a given one.
* `Heap.Change.frozen` — no change of a heap undoes this; one case per change.
* `Slots.Guarded`, `Heap.Change.guarded` — the identity and the readonly keys themselves.
* `readonly_frozen` — the statement about sessions.
-/

namespace Prototypal

namespace Slots

variable {s t : Slots} {j k : Key} {e : Option Entry}

/-- A key is readonly, and its entry is a given one. -/
structure Frozen (k : Key) (e : Option Entry) (s : Slots) : Prop where
  readonly : s.isReadonly k = true
  entry : s.read? k = e

/-- The identity and the readonly keys may not be written. -/
structure Guarded (s : Slots) : Prop where
  identity : s.isReadonly .identity = true
  readonly : s.isReadonly .readonly = true

/-! ## Writes and the keys that they leave alone -/

/-- What may become of slots: readonly keys stay readonly, and the objects stored under them stay
the same. -/
structure Later (s t : Slots) : Prop where
  readonly : ∀ j, s.isReadonly j = true → t.isReadonly j = true
  find : ∀ j, s.isReadonly j = true → t.find? j = s.find? j

namespace Later

lemma refl (s : Slots) : Later s s :=
  ⟨fun _ h => h, fun _ _ => rfl⟩

/-- The ancestors are beside the table. -/
lemma ancestors (s : Slots) (parent : Option ObjectId) (stepparents : List ObjectId) :
    Later s { s with parent := parent, stepparents := stepparents } :=
  ⟨fun _ h => h, fun _ _ => rfl⟩

/-- A write to the table, under a key that may be written. -/
lemma ofTable {table : List (Key × ObjectId)} (writable : s.isReadonly k = false)
    (others : ∀ j, j ≠ k → table.lookup j = s.table.lookup j) :
    Later s { s with table := table } := by
  refine ⟨fun _ h => h, fun j hj => others j ?_⟩
  rintro rfl
  rw [hj] at writable
  cases writable

lemma put {v : ObjectId} {p : Payload} (writable : s.isReadonly k = false)
    (stored : s.put k v p = some t) : Later s t := by
  simp only [Slots.put] at stored
  split at stored
  · cases stored
    exact ancestors s _ s.stepparents
  · split at stored
    · obtain ⟨items, -, rfl⟩ := Option.map_eq_some_iff.mp stored
      exact ancestors s s.parent items
    · cases stored
      refine ofTable writable fun j hne => ?_
      have other : (j == k) = false := by simpa using hne
      simp [List.lookup_cons, other, lookup_without s hne]

lemma take (writable : s.isReadonly k = false) : Later s (s.take k).2 := by
  simp only [Slots.take]
  split
  · exact ancestors s none s.stepparents
  · split
    · exact ancestors s s.parent []
    · exact ofTable writable fun j hne => lookup_without s hne

lemma protect (s : Slots) (k : Key) : Later s (s.protect k) := by
  simp only [Slots.protect]
  split
  · exact refl s
  · refine ⟨fun j hj => ?_, fun _ _ => rfl⟩
    simp only [isReadonly, Bool.or_eq_true, List.contains_iff_mem] at hj ⊢
    exact hj.imp_right (List.mem_cons_of_mem k)

lemma frozen (h : Later s t) (hk : k.isReserved = false) (hf : Frozen k e s) : Frozen k e t := by
  refine ⟨h.readonly k hf.readonly, ?_⟩
  rw [← hf.entry, read?_of_not_isReserved hk, read?_of_not_isReserved hk, h.find k hf.readonly]

lemma guarded (h : Later s t) (hg : Guarded s) : Guarded t :=
  ⟨h.readonly _ hg.identity, h.readonly _ hg.readonly⟩

end Later

lemma not_frozen_fresh (hk : k.isReserved = false) (o : ObjectId) (parent : Option ObjectId)
    (stepparents : List ObjectId) : ¬ Frozen k e (fresh o parent stepparents) := by
  intro h
  have readonly := h.readonly
  simp only [isReadonly, fresh, Bool.false_or, List.contains_iff_mem, List.mem_cons,
    List.not_mem_nil, or_false] at readonly
  rcases readonly with rfl | rfl
  · cases hk
  · cases hk

lemma Frozen.duplicate (hk : k.isReserved = false) (h : Frozen k e s) (o : ObjectId) :
    Frozen k e (s.duplicate o) := by
  refine ⟨h.readonly, ?_⟩
  rw [← h.entry, read?_of_not_isReserved hk, read?_of_not_isReserved hk]
  rfl

end Slots

/-! ## Changes of a heap -/

namespace Heap

variable {h h' : Heap} {o : ObjectId} {k : Key} {e : Option Entry}

/-- What may become of the slots of an object. -/
inductive SlotsChange (h h' : Heap) (o : ObjectId) : Prop where
  | later (step : Slots.Later (h.slots o) (h'.slots o))
  | made (new : o = h.nextId) (parent : Option ObjectId) (stepparents : List ObjectId)
      (slots : h'.slots o = .fresh o parent stepparents)
  | copied (new : o = h.nextId) (x : ObjectId) (slots : h'.slots o = (h.slots x).duplicate o)

lemma SlotsChange.ofSetSlots {x : ObjectId} {s : Slots} (step : Slots.Later (h.slots x) s)
    (o : ObjectId) : SlotsChange h (h.setSlots x s) o := by
  refine .later ?_
  rw [slots_setSlots]
  split
  · rename_i hx
    rw [← hx.1]
    exact step
  · exact .refl _

/-- One case per change: the object is another one, or its slots are written, or it is new. -/
lemma Change.slots (change : h.Change h') (o : ObjectId) : SlotsChange h h' o := by
  cases change with
  | make p parent stepparents =>
      by_cases new : o = h.nextId
      · refine .made new parent stepparents ?_
        rw [Heap.make, slots_add, if_pos new, new]
      · refine .later ?_
        rw [Heap.make, slots_add, if_neg new]
        exact .refl _
  | copy x =>
      by_cases new : o = h.nextId
      · refine .copied new x ?_
        rw [Heap.copy, slots_add, if_pos new, new]
      · refine .later ?_
        rw [Heap.copy, slots_add, if_neg new]
        exact .refl _
  | skip =>
      refine .later ?_
      rw [slots_skip]
      exact .refl _
  | put x k v slots writable stored => exact .ofSetSlots (.put writable stored) o
  | take x k writable => exact .ofSetSlots (.take writable) o
  | protect x k unsealed => exact .ofSetSlots (.protect _ k) o
  | parent x parent unsealed => exact .ofSetSlots (.ancestors (h.slots x) parent _) o
  | stepparents x stepparents unsealed => exact .ofSetSlots (.ancestors (h.slots x) _ stepparents) o

lemma Change.frozen (change : h.Change h') (hk : k.isReserved = false)
    (hf : Slots.Frozen k e (h.slots o)) : Slots.Frozen k e (h'.slots o) := by
  -- nothing is frozen at an identity that is yet to be given out
  have old : o ≠ h.nextId := by
    rintro rfl
    rw [slots_nextId] at hf
    exact Slots.not_frozen_fresh hk _ _ _ hf
  cases change.slots o with
  | later step => exact step.frozen hk hf
  | made new => exact absurd new old
  | copied new => exact absurd new old

lemma Change.guarded (change : h.Change h') (hg : ∀ o, (h.slots o).Guarded) (o : ObjectId) :
    (h'.slots o).Guarded := by
  cases change.slots o with
  | later step => exact step.guarded (hg o)
  | made _ parent stepparents slots =>
      rw [slots]
      exact ⟨rfl, rfl⟩
  | copied _ x slots =>
      rw [slots]
      exact ⟨(hg x).identity, (hg x).readonly⟩

lemma Changes.frozen (changes : h.Changes h') (hk : k.isReserved = false)
    (hf : Slots.Frozen k e (h.slots o)) : Slots.Frozen k e (h'.slots o) := by
  induction changes with
  | refl => exact hf
  | tail _ last ih => exact last.frozen hk ih

lemma Changes.guarded (changes : h.Changes h') (hg : ∀ o, (h.slots o).Guarded) :
    ∀ o, (h'.slots o).Guarded := by
  induction changes with
  | refl => exact hg
  | tail _ last ih => exact last.guarded ih

lemma guarded_initial (o : ObjectId) : (Heap.initial.slots o).Guarded := by
  match o with
  | 0 => exact ⟨rfl, rfl⟩
  | 1 => exact ⟨rfl, rfl⟩
  | n + 2 => exact ⟨rfl, rfl⟩

end Heap

/-! ## Sessions -/

/-- A copy of an object is about to be made.  It gets the next identity. -/
def Moment.Copies (p : Moment) (o : ObjectId) : Prop :=
  ∃ (op : Elementary .full (copy o)) (frames : Frames .full ObjectId Value) (s : State),
    p.now = .work (.op (copy o) op) frames s

lemma Moment.Step.heap_copy {p q : Moment} {o : ObjectId} (h : p.Step q) (copies : p.Copies o) :
    q.heap = p.heap.copy o := by
  obtain ⟨op, frames, s, now⟩ := copies
  cases h with
  | machine es h =>
      obtain rfl := now
      cases h
      rfl
  | next r t es hc => cases now

/-- **Readonly keys are frozen for good.**  The states in which the steps of a script end are among
the moments of its session.  At every moment, the identity and the readonly keys are readonly on
every object.  If at some moment another key is readonly on an object, reserved keys apart, it is so
at all later moments, with the same entry; and this holds as well of every copy of the object that
is made later, from the moment on at which it is made. -/
theorem readonly_frozen (shown : Event → Bool) (es : List Expr) :
    (∀ past rest, es = past ++ rest →
      ∃ r, (Moment.start es).Reaches
        ⟨.ret r .done (past.foldl (fun s e => (runStep shown e s).2) .initial), rest⟩) ∧
    ∀ p, (Moment.start es).Reaches p →
      (∀ o, (p.heap.slots o).Guarded) ∧
      ∀ o k, k.isReserved = false → (p.heap.slots o).isReadonly k = true →
        ∀ q, p.Reaches q →
          (q.heap.slots o).Frozen k ((p.heap.slots o).read? k) ∧
          (q.Copies o → ∀ q' r, q.Step q' → q'.Reaches r →
            (r.heap.slots q.heap.nextId).Frozen k ((p.heap.slots o).read? k)) := by
  refine ⟨fun past rest => Moment.start_reaches_after shown, fun p hp => ⟨?_, ?_⟩⟩
  · exact hp.changes.guarded Heap.guarded_initial
  · intro o k hk readonly q hq
    have now : (q.heap.slots o).Frozen k ((p.heap.slots o).read? k) :=
      hq.changes.frozen hk ⟨readonly, rfl⟩
    refine ⟨now, fun copies q' r step later => later.changes.frozen hk ?_⟩
    rw [step.heap_copy copies, Heap.copy, Heap.slots_add, if_pos rfl]
    exact now.duplicate hk _

end Prototypal
