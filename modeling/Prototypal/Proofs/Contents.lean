import Mathlib.Data.List.Forall2
import Prototypal.Proofs.Operations
import Prototypal.Proofs.Slots
import Prototypal.Proofs.WellFormed.States

/-!
# Slots as a map

Whatever operations are carried out on the slots of an object, they amount to one map from keys to
entries.  A key is present if it has an entry; setting a key updates the map there and deleting a
key removes it there, whether the key is ordinary and stands in the table, or is reserved and stands
for another part of the slots.

* `Slots.read?_put`, `Slots.read?_take` — what writes do to the map that `Slots.read?` is.
* `Slots.Regular` — what operations keep: the table holds ordinary keys only, and no key is twice in
  the table or among the readonly keys.
* `Entry.ShownBy`, `Answers` — how an entry is shown by an object, which is made where none is
  stored, and what a key is answered with.
* `Operated` — the slots of an object have come about by operations.
* `slots_are_a_map` — the statement about operations.
-/

namespace Prototypal

lemma Key.isReserved_iff {k : Key} :
    k.isReserved = true ↔ k = .identity ∨ k = .readonly ∨ k = .parent ∨ k = .stepparents := by
  cases k with
  | object o => simp [isReserved, identity, readonly, parent, stepparents]
  | name y =>
      obtain ⟨i⟩ := y
      simp only [isReserved, Symbol.isReserved, identity, readonly, parent, stepparents,
        Symbol.identity, Symbol.readonly, Symbol.parent, Symbol.stepparents, Key.name.injEq,
        Symbol.mk.injEq, decide_eq_true_eq]
      omega

lemma Key.not_isReserved {k : Key} (identity : k ≠ .identity) (readonly : k ≠ .readonly)
    (parent : k ≠ .parent) (stepparents : k ≠ .stepparents) : k.isReserved = false := by
  rw [← Bool.not_eq_true, isReserved_iff]
  simp [identity, readonly, parent, stepparents]

/-- The entry under a key where an object, whose payload is given, has been stored. -/
def Entry.ofStored? (k : Key) (v : ObjectId) (p : Payload) : Option Entry :=
  if k = .parent then if p.isNull then none else some (.stored v)
  else if k = .stepparents then
    p.list?.bind fun items => if items.isEmpty then none else some (.group items)
  else some (.stored v)

namespace Slots

variable {s t : Slots} {j k : Key}

/-! ## Reading after a write -/

lemma has_eq_isSome_read? (s : Slots) (k : Key) : s.has k = (s.read? k).isSome := by
  by_cases identity : k = .identity
  · subst identity
    rfl
  by_cases readonly : k = .readonly
  · subst readonly
    rfl
  by_cases parent : k = .parent
  · subst parent
    exact Option.isSome_map.symm
  by_cases stepparents : k = .stepparents
  · subst stepparents
    show (!s.stepparents.isEmpty) =
      (if s.stepparents.isEmpty then none else some (Entry.group s.stepparents)).isSome
    cases s.stepparents.isEmpty <;> rfl
  · simp [has, read?, identity, readonly, parent, stepparents]

lemma read?_parent (s : Slots) (parent : Option ObjectId) :
    read? { s with parent := parent } = Function.update s.read? .parent (parent.map .stored) := by
  refine Function.eq_update_iff.mpr ⟨rfl, fun j other => ?_⟩
  simp only [read?, other, if_false]
  rfl

lemma read?_stepparents (s : Slots) (os : List ObjectId) :
    read? { s with stepparents := os } =
      Function.update s.read? .stepparents (if os.isEmpty then none else some (.group os)) := by
  refine Function.eq_update_iff.mpr ⟨rfl, fun j other => ?_⟩
  simp only [read?, other, if_false]
  rfl

lemma read?_table {table : List (Key × ObjectId)} (held : Option ObjectId)
    (ordinary : k.isReserved = false) (here : table.lookup k = held)
    (others : ∀ j, j ≠ k → table.lookup j = s.table.lookup j) :
    read? { s with table := table } = Function.update s.read? k (held.map .stored) := by
  refine Function.eq_update_iff.mpr ⟨?_, fun j other => ?_⟩
  · rw [read?_of_not_isReserved ordinary, find?, here]
  · simp only [read?, find?, others j other]

section

variable (identity : k ≠ .identity) (readonly : k ≠ .readonly)
include identity readonly

/-- A stored value updates the map. -/
lemma read?_put {v : ObjectId} {p : Payload} (stored : s.put k v p = some t) :
    t.read? = Function.update s.read? k (Entry.ofStored? k v p) := by
  rw [put] at stored
  rw [Entry.ofStored?]
  split at stored
  · rename_i parent
    cases stored
    rw [if_pos parent, parent, read?_parent]
    cases p.isNull <;> rfl
  · rename_i parent
    split at stored
    · rename_i stepparents
      obtain ⟨items, list, rfl⟩ := Option.map_eq_some_iff.mp stored
      rw [if_neg parent, if_pos stepparents, stepparents, read?_stepparents, list]
      rfl
    · rename_i stepparents
      cases stored
      have ordinary := Key.not_isReserved identity readonly parent stepparents
      rw [if_neg parent, if_neg stepparents]
      refine read?_table (some v) ordinary (by simp) fun j other => ?_
      have skipped : (j == k) = false := by simpa using other
      rw [List.lookup_cons, skipped]
      exact lookup_without s other

/-- A key that is taken out is removed from the map, and what the map held there is given back. -/
lemma read?_take :
    (s.take k).1 = s.read? k ∧ (s.take k).2.read? = Function.update s.read? k none := by
  by_cases parent : k = .parent
  · subst parent
    exact ⟨rfl, s.read?_parent none⟩
  by_cases stepparents : k = .stepparents
  · subst stepparents
    exact ⟨rfl, s.read?_stepparents []⟩
  · have ordinary := Key.not_isReserved identity readonly parent stepparents
    rw [take_of_not_isReserved ordinary, read?_of_not_isReserved ordinary]
    exact ⟨rfl, read?_table none ordinary (lookup_without_self s k) fun j => lookup_without s⟩

end

/-! ## What operations keep -/

/-- Slots that are not sealed, whose table holds ordinary keys and each of them once, and whose
readonly keys are listed once and include the two that are readonly from the start. -/
structure Regular (s : Slots) : Prop where
  unsealed : s.isSealed = false
  ordinary : ∀ e ∈ s.table, e.1.isReserved = false
  distinct : (s.table.map Prod.fst).Nodup
  identity : Key.identity ∈ s.readonlyKeys
  readonly : Key.readonly ∈ s.readonlyKeys
  once : s.readonlyKeys.Nodup

namespace Regular

lemma fresh (o : ObjectId) (parent : Option ObjectId) (stepparents : List ObjectId) :
    (Slots.fresh o parent stepparents).Regular := by
  have listed : Key.identity ∈ [Key.readonly, Key.identity] ∧
      Key.readonly ∈ [Key.readonly, Key.identity] ∧ [Key.readonly, Key.identity].Nodup := by decide
  exact ⟨rfl, nofun, .nil, listed.1, listed.2.1, listed.2.2⟩

variable (h : s.Regular)
include h

lemma isReadonly_iff : s.isReadonly k = true ↔ k ∈ s.readonlyKeys := by
  simp [isReadonly, h.unsealed]

lemma ne_of_writable (writable : s.isReadonly k = false) : k ≠ .identity ∧ k ≠ .readonly := by
  have free : k ∉ s.readonlyKeys := by
    rw [← h.isReadonly_iff, writable]
    exact Bool.false_ne_true
  exact ⟨fun same => free (same ▸ h.identity), fun same => free (same ▸ h.readonly)⟩

lemma withoutKey (k : Key) : Regular { s with table := s.without k } where
  __ := h
  ordinary e he := h.ordinary e (List.mem_filter.mp he).1
  distinct := h.distinct.sublist (List.filter_sublist.map Prod.fst)

lemma withEntry (ordinary : k.isReserved = false) (v : ObjectId) :
    Regular { s with table := (k, v) :: s.without k } where
  __ := h
  ordinary := by
    intro e he
    rcases List.mem_cons.mp he with rfl | he
    · exact ordinary
    · exact (h.withoutKey k).ordinary e he
  distinct := by
    refine List.nodup_cons.mpr ⟨?_, (h.withoutKey k).distinct⟩
    simp [without]

lemma step (step : s.Step t) : t.Regular := by
  cases step with
  | nothing => exact h
  | put k v p slots writable stored =>
      obtain ⟨identity, readonly⟩ := h.ne_of_writable writable
      rw [Slots.put] at stored
      split at stored
      · cases stored
        exact { h with }
      · rename_i parent
        split at stored
        · obtain ⟨items, _, rfl⟩ := Option.map_eq_some_iff.mp stored
          exact { h with }
        · rename_i stepparents
          cases stored
          exact h.withEntry (Key.not_isReserved identity readonly parent stepparents) v
  | take k writable =>
      rw [Slots.take]
      split
      · exact { h with }
      · split
        · exact { h with }
        · exact h.withoutKey k
  | protect k unsealed =>
      rw [Slots.protect]
      split
      · exact h
      · rename_i new
        exact { h with
          identity := List.mem_cons_of_mem k h.identity
          readonly := List.mem_cons_of_mem k h.readonly
          once := List.nodup_cons.mpr ⟨by simpa using new, h.once⟩ }
  | parent parent unsealed => exact { h with }
  | stepparents stepparents unsealed => exact { h with }

/-- The keys of the table are the ordinary keys that are present. -/
lemma mem_keys_iff : k ∈ s.table.map Prod.fst ↔ k.isReserved = false ∧ (s.read? k).isSome := by
  constructor
  · intro listed
    obtain ⟨e, he, rfl⟩ := List.mem_map.mp listed
    have ordinary := h.ordinary e he
    refine ⟨ordinary, ?_⟩
    rw [read?_of_not_isReserved ordinary, Option.isSome_map, find?, ← Option.ne_none_iff_isSome,
      ne_eq, List.lookup_eq_none_iff]
    intro missing
    simpa using missing e he
  · rintro ⟨ordinary, present⟩
    rw [read?_of_not_isReserved ordinary, Option.isSome_map, find?, ← Option.ne_none_iff_isSome,
      ne_eq, List.lookup_eq_none_iff] at present
    by_contra missing
    refine present fun e he => ?_
    have other : k ≠ e.1 := fun same => missing (List.mem_map.mpr ⟨e, he, same.symm⟩)
    simpa using other

end Regular

end Slots

/-! ## Entries as objects -/

/-- A key as an object shows it: a name by a Text, and an object by itself. -/
def Key.ShownBy (s : State) (x : ObjectId) : Key → Prop
  | name y => s.heap.payload x = .text (s.names.text y)
  | object o => x = o

/-- An entry as an object shows it.  What is not stored is shown by the payload. -/
def Entry.ShownBy (s : State) (x : ObjectId) : Entry → Prop
  | stored o => x = o
  | identity o => s.heap.payload x = .number (Float.ofNat o)
  | keys ks => ∃ items, s.heap.payload x = .list items ∧ List.Forall₂ (Key.ShownBy s) items ks
  | group os => s.heap.payload x = .list os

/-- A key of an object is answered with an entry, or with none: this is what reading the key comes
to, and it is present if reading it comes to something. -/
def Answers (o : ObjectId) (s : State) (k : Key) (e : Option Entry) : Prop :=
  ∃ r t, slotGet o k s = .ok r t ∧ Option.Rel (Entry.ShownBy t) r e ∧
    Yields (hasAttribute o k) s r.isSome

lemma Heap.payload_make_nextId (h : Heap) (p : Payload) (parent : Option ObjectId)
    (stepparents : List ObjectId) : (h.make p parent stepparents).payload h.nextId = p := by
  rw [payload, make, get?_add_nextId]

/-- A name stays shown when objects are made. -/
lemma Key.ShownBy.grows {s : State} {x : ObjectId} {k : Key} {h : Heap} (shown : k.ShownBy s x)
    (grows : s.heap.Grows h) : k.ShownBy { s with heap := h } x := by
  cases k with
  | object o => exact shown
  | name y =>
      have text : s.heap.payload x = .text (s.names.text y) := shown
      have older : x < s.heap.nextId := by
        refine Heap.lt_nextId_of_isSome ?_
        cases there : s.heap.get? x with
        | some _ => rfl
        | none => simp [Heap.payload, there] at text
      show h.payload x = _
      rw [← text, Heap.payload, Heap.payload, grows.get?_of_lt older]

lemma keyObject_shows (k : Key) (s : State) :
    ∃ x h, keyObject k s = .ok x { s with heap := h } ∧ s.heap.Grows h ∧
      k.ShownBy { s with heap := h } x := by
  cases k with
  | object o => exact ⟨o, s.heap, rfl, .refl, rfl⟩
  | name y => exact ⟨_, _, rfl, .single ⟨_, rfl⟩, s.heap.payload_make_nextId _ none []⟩

lemma keyObjects_show (ks : List Key) (s : State) :
    ∃ items h, ks.mapM keyObject s = .ok items { s with heap := h } ∧ s.heap.Grows h ∧
      List.Forall₂ (Key.ShownBy { s with heap := h }) items ks := by
  induction ks generalizing s with
  | nil => exact ⟨[], s.heap, rfl, .refl, .nil⟩
  | cons k ks ih =>
      obtain ⟨x, h, first, made, shown⟩ := keyObject_shows k s
      obtain ⟨items, h', rest, made', shown'⟩ := ih { s with heap := h }
      refine ⟨x :: items, h', ?_, made.trans made', .cons (shown.grows made') shown'⟩
      rw [List.mapM_cons, run_bind_ok first, run_bind_ok rest]
      rfl

/-- The object for an entry shows it. -/
lemma toObject_shows (e : Entry) (s : State) :
    ∃ x h, e.toObject s = .ok x { s with heap := h } ∧ s.heap.Grows h ∧
      e.ShownBy { s with heap := h } x := by
  cases e with
  | stored o => exact ⟨o, s.heap, rfl, .refl, rfl⟩
  | identity o => exact ⟨_, _, rfl, .single ⟨_, rfl⟩, s.heap.payload_make_nextId _ none []⟩
  | group os => exact ⟨_, _, rfl, .single ⟨_, rfl⟩, s.heap.payload_make_nextId _ none []⟩
  | keys ks =>
      obtain ⟨items, h, run, made, shown⟩ := keyObjects_show ks s
      have one : h.Grows (h.make (.list items) none []) := .single ⟨_, rfl⟩
      refine ⟨h.nextId, h.make (.list items) none [], ?_, made.trans one, items,
        h.payload_make_nextId _ none [], ?_⟩
      · rw [Entry.toObject, run_bind_ok run]
        rfl
      · exact shown.imp fun _ _ shown => shown.grows one

/-! ## Operations -/

/-- The map that the slots of an object are. -/
def State.contents (s : State) (o : ObjectId) : Key → Option Entry :=
  (s.heap.slots o).read?

/-- Every key is answered as the map says. -/
lemma answers_contents (o : ObjectId) (s : State) (k : Key) : Answers o s k (s.contents o k) := by
  have has : Yields (hasAttribute o k) s (s.contents o k).isSome := by
    rw [State.contents, ← Slots.has_eq_isSome_read?]
    exact ⟨s, rfl⟩
  cases held : s.contents o k with
  | none =>
      rw [held] at has
      exact ⟨none, s, slotGet_of_absent held, .none, has⟩
  | some e =>
      rw [held] at has
      obtain ⟨x, h, run, _, shown⟩ := toObject_shows e s
      exact ⟨some x, _, slotGet_of_read? held run, .some shown, has⟩

/-- The slots of an object have come about by operations on them.  They were those of a new object
or of a copy at first, and between the operations anything may have happened elsewhere. -/
inductive Operated : ObjectId → State → Prop where
  | made {o : ObjectId} {s : State} (there : s.heap.Has o) (parent : Option ObjectId)
      (stepparents : List ObjectId) (new : s.heap.slots o = .fresh o parent stepparents) :
      Operated o s
  | copied {o c : ObjectId} {s t : State} (before : Operated o s) (run : copy o s = .ok c t) :
      Operated c t
  | operated {o : ObjectId} {s : State} (before : Operated o s) (op : SlotOperation) :
      Operated o (Outcome.final (op.run o s))
  | meanwhile {o : ObjectId} {s t : State} (before : Operated o s) (there : t.heap.Has o)
      (same : t.heap.slots o = s.heap.slots o) : Operated o t

/-- **Operations keep slots regular.** -/
theorem Operated.regular {o : ObjectId} {s : State} (operated : Operated o s) :
    s.heap.Has o ∧ (s.heap.slots o).Regular := by
  induction operated with
  | made there parent stepparents new =>
      rw [new]
      exact ⟨there, .fresh _ parent stepparents⟩
  | copied _ run ih =>
      cases run
      refine ⟨Heap.has_add _ _, ?_⟩
      dsimp only
      rw [Heap.slots_copy_nextId]
      exact { ih.2 with }
  | @operated o s _ op ih =>
      obtain ⟨step, there⟩ := (op.effect o s).step ih.1
      exact ⟨there, ih.2.step step⟩
  | meanwhile _ there same ih =>
      rw [same]
      exact ⟨there, ih.2⟩

lemma Operated.after {o : ObjectId} {s : State} (before : Operated o s)
    (ops : List SlotOperation) : Operated o (s.after o ops) := by
  induction ops generalizing s with
  | nil => exact before
  | cons op ops ih => exact ih (before.operated op)

section

variable {o : ObjectId} {k : Key} {s t : State} (there : s.heap.Has o)
  (regular : (s.heap.slots o).Regular)
include there regular

/-- A value that is stored updates the map. -/
lemma contents_of_slotSet {v : ObjectId} (run : slotSet o k v s = .ok () t) :
    t.contents o =
      Function.update (s.contents o) k (Entry.ofStored? k v (s.heap.payload v)) := by
  rw [slotSet_run] at run
  split at run
  · cases run
  · rename_i writable
    obtain ⟨identity, readonly⟩ := regular.ne_of_writable (Bool.of_not_eq_true writable)
    split at run
    · rename_i slots stored
      cases run
      rw [State.contents, Heap.slots_setSlots, if_pos ⟨rfl, there⟩]
      exact Slots.read?_put identity readonly stored
    · cases run

/-- A key that is deleted is removed from the map.  What is given back shows the entry. -/
lemma contents_of_slotDelete {x : ObjectId} (run : slotDelete o k s = .ok x t) :
    (∀ e, s.contents o k = some e → e.ShownBy t x) ∧ (s.contents o k = none → x = nullId) ∧
      t.contents o = Function.update (s.contents o) k none := by
  rw [slotDelete_run] at run
  split at run
  · cases run
  · rename_i writable
    obtain ⟨identity, readonly⟩ := regular.ne_of_writable (Bool.of_not_eq_true writable)
    obtain ⟨given, removed⟩ := (s.heap.slots o).read?_take identity readonly
    have older : o < (s.taken o k).heap.nextId := by
      simpa [State.taken] using Heap.lt_nextId_of_isSome there
    have taken : (s.taken o k).heap.slots o = ((s.heap.slots o).take k).2 := by
      rw [State.taken, Heap.slots_setSlots, if_pos ⟨rfl, there⟩]
    -- the object that is given back is made after the key has been taken out
    rw [given] at run
    rw [← taken] at removed
    cases held : (s.heap.slots o).read? k with
    | none =>
        rw [held] at run
        cases run
        refine ⟨fun e entry => ?_, fun _ => rfl, removed⟩
        rw [State.contents, held] at entry
        cases entry
    | some e =>
        obtain ⟨y, h, made, grows, shown⟩ := toObject_shows e (s.taken o k)
        rw [held, takenObject, made] at run
        cases run
        refine ⟨fun e' entry => ?_, fun absent => ?_, ?_⟩
        · rw [State.contents, held] at entry
          cases entry
          exact shown
        · rw [State.contents, held] at absent
          cases absent
        · rw [State.contents, grows.slots_of_lt older]
          exact removed

end

/-- **Slots are a map.**  Let the slots of an object have come about by operations.  Every key is
answered as one map says, and it is present if it is answered with something.  After a value has
been stored under a key, or the key has been deleted, the answers are those of the map updated at
the key and nowhere else; a deletion gives back what the key was answered with, or Null.  The table
holds the ordinary keys that are present, each of them once, and no reserved key.  The readonly keys
are listed once each. -/
theorem slots_are_a_map (o : ObjectId) (s : State) (operated : Operated o s) :
    (∀ k, Answers o s k (s.contents o k)) ∧
      (∀ k v t, slotSet o k v s = .ok () t → ∀ j, Answers o t j
        (Function.update (s.contents o) k (Entry.ofStored? k v (s.heap.payload v)) j)) ∧
      (∀ k x t, slotDelete o k s = .ok x t →
        (∀ e, s.contents o k = some e → e.ShownBy t x) ∧ (s.contents o k = none → x = nullId) ∧
          ∀ j, Answers o t j (Function.update (s.contents o) k none j)) ∧
      (∀ e ∈ (s.heap.slots o).table, e.1.isReserved = false) ∧
      (∃ ks : List Key, ks.Nodup ∧
        (∀ k, k ∈ ks ↔ k.isReserved = false ∧ (s.contents o k).isSome) ∧
        (s.heap.slots o).table.length = ks.length) ∧
      ∃ ks : List Key, s.contents o .readonly = some (.keys ks) ∧ ks.Nodup ∧
        ∀ k, k ∈ ks ↔ (s.heap.slots o).isReadonly k = true := by
  obtain ⟨there, regular⟩ := operated.regular
  refine ⟨answers_contents o s, ?_, ?_, regular.ordinary, ?_, ?_⟩
  · intro k v t run j
    rw [← contents_of_slotSet there regular run]
    exact answers_contents o t j
  · intro k x t run
    obtain ⟨shown, absent, removed⟩ := contents_of_slotDelete there regular run
    refine ⟨shown, absent, fun j => ?_⟩
    rw [← removed]
    exact answers_contents o t j
  · refine ⟨(s.heap.slots o).table.map Prod.fst, regular.distinct, fun k => ?_, ?_⟩
    · exact regular.mem_keys_iff
    · exact (List.length_map Prod.fst).symm
  · exact ⟨(s.heap.slots o).readonlyKeys, rfl, regular.once, fun k => regular.isReadonly_iff.symm⟩

/-- A state in which a value has been stored in a new object under a key that was then made
readonly, and Null has been given to it as a stepparent. -/
def wornObject : State :=
  State.after { State.initial with heap := Heap.initial.make .plain none [] } 2
    [.set (.object 1) 2, .makeReadonly (.object 1), .pushStepparent 1]

lemma wornObject_operated : Operated 2 wornObject := by
  refine Operated.after ?_ _
  exact .made rfl none [] rfl

/-- Deleting the stepparents of this object gives back a list of them.  They are absent then, and
the other entry is as it was. -/
theorem wornObject_deletes_stepparents :
    ∃ x t, slotDelete 2 .stepparents wornObject = .ok x t ∧
      t.heap.payload x = .list [1] ∧ Answers 2 t .stepparents none ∧
      Answers 2 t (.object 1) (some (.stored 2)) := by
  have held : wornObject.contents 2 .stepparents = some (.group [1]) := rfl
  obtain ⟨x, t, run⟩ : ∃ x t, slotDelete 2 .stepparents wornObject = .ok x t := ⟨_, _, rfl⟩
  obtain ⟨_, _, deletes, _⟩ := slots_are_a_map 2 wornObject wornObject_operated
  obtain ⟨shown, _, answers⟩ := deletes .stepparents x t run
  exact ⟨x, t, run, shown _ held, answers .stepparents, answers (.object 1)⟩

end Prototypal
