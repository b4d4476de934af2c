import Prototypal.Proofs.Machine.Writes

/-!
# Protected ancestor slots

Protecting the key of the parent, or that of the stepparents, keeps every write under the key away
from the slot.  The two operations that give an object a parent or another stepparent do not ask for
the key, so they reach the slot all the same.  They are the only ones that do.

* `Slots.Protects` — a key has been protected.
* `Slots.Spares` — what becomes of slots that are written under keys that may be written.
* `Moment.Step.onSlots` — what a step does to the slots of an object; one case per operation that
  does not ask.
* `Moment.Step.parent_kept_iff`, `Moment.Step.stepparents_kept_iff`, `Moment.kept_along_iff` — when
  one step keeps a protected slot, and when a run does.
* `protected_ancestors_kept_iff` — the statement about runs of sessions.
* `protected_ancestors_changed` — it is not always kept.
-/

namespace Prototypal

namespace Slots

variable {s t : Slots} {k : Key}

/-- A key has been protected; on sealed slots, this has no effect. -/
structure Protects (s : Slots) (k : Key) : Prop where
  unsealed : s.isSealed = false
  listed : k ∈ s.readonlyKeys

/-- What may become of slots: protected keys stay so, and an ancestor slot stays the same if its
key is protected. -/
structure Spares (s t : Slots) : Prop where
  isSealed : t.isSealed = s.isSealed
  listed : ∀ k ∈ s.readonlyKeys, k ∈ t.readonlyKeys
  parent : Key.parent ∈ s.readonlyKeys → t.parent = s.parent
  stepparents : Key.stepparents ∈ s.readonlyKeys → t.stepparents = s.stepparents

lemma not_mem_of_writable (writable : s.isReadonly k = false) : k ∉ s.readonlyKeys := by
  simp only [isReadonly, Bool.or_eq_false_iff] at writable
  intro listed
  exact absurd (writable.2.symm.trans (List.contains_iff_mem.mpr listed)) nofun

namespace Spares

lemma refl (s : Slots) : Spares s s :=
  ⟨rfl, fun _ h => h, fun _ => rfl, fun _ => rfl⟩

lemma put {v : ObjectId} {p : Payload} (writable : s.isReadonly k = false)
    (stored : s.put k v p = some t) : Spares s t := by
  have free : k ∉ s.readonlyKeys := not_mem_of_writable writable
  simp only [Slots.put] at stored
  split at stored
  · rename_i hk
    cases stored
    exact ⟨rfl, fun _ h => h, fun h => absurd h (hk ▸ free), fun _ => rfl⟩
  · split at stored
    · rename_i hk
      obtain ⟨items, -, rfl⟩ := Option.map_eq_some_iff.mp stored
      exact ⟨rfl, fun _ h => h, fun _ => rfl, fun h => absurd h (hk ▸ free)⟩
    · cases stored
      exact ⟨rfl, fun _ h => h, fun _ => rfl, fun _ => rfl⟩

lemma take (writable : s.isReadonly k = false) : Spares s (s.take k).2 := by
  have free : k ∉ s.readonlyKeys := not_mem_of_writable writable
  simp only [Slots.take]
  split
  · rename_i hk
    exact ⟨rfl, fun _ h => h, fun h => absurd h (hk ▸ free), fun _ => rfl⟩
  · split
    · rename_i hk
      exact ⟨rfl, fun _ h => h, fun _ => rfl, fun h => absurd h (hk ▸ free)⟩
    · exact ⟨rfl, fun _ h => h, fun _ => rfl, fun _ => rfl⟩

lemma protect (s : Slots) (k : Key) : Spares s (s.protect k) := by
  simp only [Slots.protect]
  split
  · exact refl s
  · exact ⟨rfl, fun _ h => List.mem_cons_of_mem k h, fun _ => rfl, fun _ => rfl⟩

lemma trans {u : Slots} (h : Spares s t) (h' : Spares t u) : Spares s u where
  isSealed := h'.isSealed.trans h.isSealed
  listed k hk := h'.listed k (h.listed k hk)
  parent hk := (h'.parent (h.listed _ hk)).trans (h.parent hk)
  stepparents hk := (h'.stepparents (h.listed _ hk)).trans (h.stepparents hk)

end Spares

end Slots

/-! ## Writes and the slots of an object -/

namespace Heap

variable {h h' : Heap} {o : ObjectId}

/-- What a write does to the slots of an object that is there. -/
lemma Write.spares (write : h.Write h') (present : (h.get? o).isSome) :
    (h'.get? o).isSome ∧ (h.slots o).Spares (h'.slots o) := by
  have old : o ≠ h.nextId := Nat.ne_of_lt (lt_nextId_of_isSome present)
  have written : ∀ {x : ObjectId} {s : Slots}, (h.slots x).Spares s →
      ((h.setSlots x s).get? o).isSome ∧ (h.slots o).Spares ((h.setSlots x s).slots o) := by
    intro x s spares
    refine ⟨by rw [isSome_get?_setSlots]; exact present, ?_⟩
    rw [slots_setSlots]
    split
    · rename_i same
      rw [← same.1]
      exact spares
    · exact .refl _
  cases write with
  | make p parent stepparents =>
      rw [Heap.make, slots_add, if_neg old, get?_add, if_neg old]
      exact ⟨present, .refl _⟩
  | skip =>
      rw [slots_skip, get?_skip]
      exact ⟨present, .refl _⟩
  | put x k v slots writable stored => exact written (.put writable stored)
  | take x k writable => exact written (.take writable)
  | protect x k unsealed => exact written (.protect _ k)

lemma Writes.spares (writes : h.Writes h') (present : (h.get? o).isSome) :
    (h'.get? o).isSome ∧ (h.slots o).Spares (h'.slots o) := by
  induction writes with
  | refl => exact ⟨present, .refl _⟩
  | tail _ last ih =>
      obtain ⟨there, spares⟩ := last.spares ih.1
      exact ⟨there, ih.2.trans spares⟩

end Heap

/-! ## Operations that do not ask -/

lemma heap_setParent (o : ObjectId) (parent : Option ObjectId) (s : State) :
    (Outcome.final (setParent o parent s)).heap =
      if (s.heap.slots o).isSealed then s.heap
      else s.heap.setSlots o { s.heap.slots o with parent := parent } := by
  rw [setParent, unlessSealed_run]
  split
  · rfl
  · rfl

lemma heap_pushStepparent (o stepparent : ObjectId) (s : State) :
    (Outcome.final (pushStepparent o stepparent s)).heap =
      if (s.heap.slots o).isSealed then s.heap
      else s.heap.setSlots o
        { s.heap.slots o with stepparents := (s.heap.slots o).stepparents ++ [stepparent] } := by
  rw [pushStepparent, unlessSealed_run]
  split
  · rfl
  · rfl

namespace Moment

variable {p q : Moment} {o : ObjectId}

/-- What a step does to the slots of an object. -/
inductive OnSlots (p q : Moment) (o : ObjectId) : Prop where
  | spared (spares : (p.heap.slots o).Spares (q.heap.slots o))
  | parent (parent : Option ObjectId) (next : p.AboutTo (setParent o parent))
      (slots : q.heap.slots o = { p.heap.slots o with parent := parent })
  | stepparent (stepparent : ObjectId) (next : p.AboutTo (pushStepparent o stepparent))
      (slots : q.heap.slots o =
        { p.heap.slots o with stepparents := (p.heap.slots o).stepparents ++ [stepparent] })

/-- The slots of an object are changed by an operation on that object, if they are not sealed. -/
lemma OnSlots.ofSetSlots {x : ObjectId} {slots : Slots} (present : (p.heap.get? o).isSome)
    (heap : q.heap = if (p.heap.slots x).isSealed then p.heap else p.heap.setSlots x slots)
    (here : x = o → q.heap.slots o = slots → OnSlots p q o) :
    (q.heap.get? o).isSome ∧ OnSlots p q o := by
  split at heap
  · rw [heap]
    exact ⟨present, .spared (heap ▸ .refl _)⟩
  · refine ⟨by rw [heap, Heap.isSome_get?_setSlots]; exact present, ?_⟩
    by_cases hx : x = o
    · refine here hx ?_
      rw [heap, Heap.slots_setSlots, if_pos ⟨hx, present⟩]
    · refine .spared ?_
      rw [heap, Heap.slots_setSlots, if_neg fun same => hx same.1]
      exact .refl _

lemma Step.onSlots (step : p.Step q) (present : (p.heap.get? o).isSome) :
    (q.heap.get? o).isSome ∧ OnSlots p q o := by
  rcases step.writes_or_bypass with writes | ⟨_, act, bypass, next⟩
  · obtain ⟨there, spares⟩ := writes.spares present
    exact ⟨there, .spared spares⟩
  · have heap := step.heap_of_aboutTo next
    cases bypass with
    | copy x =>
        have old : o ≠ p.heap.nextId := Nat.ne_of_lt (Heap.lt_nextId_of_isSome present)
        have made : q.heap = p.heap.copy x := heap
        refine ⟨?_, .spared ?_⟩
        · rw [made, Heap.copy, Heap.get?_add, if_neg old]
          exact present
        · rw [made, Heap.copy, Heap.slots_add, if_neg old]
          exact .refl _
    | setParent x parent =>
        refine OnSlots.ofSetSlots present (heap.trans (heap_setParent x parent p.now.state)) ?_
        rintro rfl slots
        exact .parent parent next slots
    | pushStepparent x stepparent =>
        have pushed := heap.trans (heap_pushStepparent x stepparent p.now.state)
        refine OnSlots.ofSetSlots present pushed ?_
        rintro rfl slots
        exact .stepparent stepparent next slots

end Moment

/-! ## Protected slots -/

/-- Slots that protect one of the keys of the ancestors are those of an object that is there. -/
lemma Heap.isSome_of_protects {h : Heap} {o : ObjectId} {k : Key}
    (hk : k = .parent ∨ k = .stepparents) (protects : (h.slots o).Protects k) :
    (h.get? o).isSome := by
  cases absent : h.get? o with
  | some x => rfl
  | none =>
      have listed : k ∈ [Key.readonly, Key.identity] := by
        have listed := protects.listed
        rw [Heap.slots, absent] at listed
        exact listed
      rcases hk with rfl | rfl
      · exact absurd listed (by decide)
      · exact absurd listed (by decide)

namespace Moment

variable {p q : Moment} {o : ObjectId} {k : Key}

lemma OnSlots.protects (on : OnSlots p q o) (h : (p.heap.slots o).Protects k) :
    (q.heap.slots o).Protects k := by
  cases on with
  | spared spares => exact ⟨spares.isSealed.trans h.unsealed, spares.listed k h.listed⟩
  | parent parent next slots =>
      rw [slots]
      exact ⟨h.unsealed, h.listed⟩
  | stepparent stepparent next slots =>
      rw [slots]
      exact ⟨h.unsealed, h.listed⟩

/-- An operation on slots that are not sealed is carried out. -/
lemma Step.slots_of_aboutTo {act : Run Unit} {slots : Slots} (step : p.Step q)
    (next : p.AboutTo act) (present : (p.heap.get? o).isSome)
    (unsealed : (p.heap.slots o).isSealed = false)
    (heap : (Outcome.final (act p.now.state)).heap =
      if (p.heap.slots o).isSealed then p.heap else p.heap.setSlots o slots) :
    q.heap.slots o = slots := by
  rw [step.heap_of_aboutTo next, heap, if_neg (by simp [unsealed]), Heap.slots_setSlots,
    if_pos ⟨rfl, present⟩]

lemma Step.protects (step : p.Step q) (hk : k = .parent ∨ k = .stepparents)
    (h : (p.heap.slots o).Protects k) : (q.heap.slots o).Protects k :=
  (step.onSlots (Heap.isSome_of_protects hk h)).2.protects h

/-- A step keeps a protected parent, unless it gives the object another one. -/
lemma Step.parent_kept_iff (step : p.Step q) (h : (p.heap.slots o).Protects .parent) :
    (q.heap.slots o).parent = (p.heap.slots o).parent ↔
      ∀ x, p.AboutTo (setParent o x) → x = (p.heap.slots o).parent := by
  have present : (p.heap.get? o).isSome := Heap.isSome_of_protects (.inl rfl) h
  constructor
  · intro kept x next
    have given := step.slots_of_aboutTo next present h.unsealed (heap_setParent o x p.now.state)
    rw [← kept, given]
  · intro harmless
    cases (step.onSlots present).2 with
    | spared spares => exact spares.parent h.listed
    | parent x next slots =>
        rw [slots]
        exact harmless x next
    | stepparent x next slots => rw [slots]

/-- A step keeps protected stepparents, unless it gives the object another one. -/
lemma Step.stepparents_kept_iff (step : p.Step q) (h : (p.heap.slots o).Protects .stepparents) :
    (q.heap.slots o).stepparents = (p.heap.slots o).stepparents ↔
      ∀ x, ¬ p.AboutTo (pushStepparent o x) := by
  have present : (p.heap.get? o).isSome := Heap.isSome_of_protects (.inr rfl) h
  constructor
  · intro kept x next
    have given : q.heap.slots o =
        { p.heap.slots o with stepparents := (p.heap.slots o).stepparents ++ [x] } :=
      step.slots_of_aboutTo next present h.unsealed (heap_pushStepparent o x p.now.state)
    rw [given] at kept
    simp at kept
  · intro untouched
    cases (step.onSlots present).2 with
    | spared spares => exact spares.stepparents h.listed
    | parent x next slots => rw [slots]
    | stepparent x next slots => exact absurd next (untouched x)

/-- What is kept by the harmless steps of a run, and by no others, is kept along the run exactly if
all its steps are harmless. -/
lemma kept_along_iff {β : Type} {K : Moment → Prop} {g : Moment → β} {H : Moment → β → Prop}
    (keeps : ∀ {p q}, p.Step q → K p → K q)
    (one : ∀ {p q}, p.Step q → K p → (g q = g p ↔ H p (g p)))
    {path : List Moment} (run : List.IsChain Step (p :: path)) (hp : K p) :
    (∀ q ∈ path, K q) ∧
      ((∀ q ∈ path, g q = g p) ↔ ∀ q ∈ (p :: path).dropLast, H q (g p)) := by
  induction path generalizing p with
  | nil => simp
  | cons q path ih =>
      obtain ⟨step, later⟩ := List.isChain_cons_cons.mp run
      have hq : K q := keeps step hp
      obtain ⟨all, rest⟩ := ih later hq
      refine ⟨List.forall_mem_cons.mpr ⟨hq, all⟩, ?_⟩
      rw [List.dropLast_cons_cons, List.forall_mem_cons, List.forall_mem_cons, ← one step hp]
      -- once the first step has kept it, the rest of the run is to keep the same
      refine and_congr_right fun first => ?_
      rw [← first]
      exact rest

end Moment

/-- **When protected ancestor slots are kept.**  Along a run, from a moment on at which the key of
the parent is protected on an object, the key stays protected, and the parent of the object stays
the same exactly if every operation of the run that gives it a parent gives it the one that it has.
In the same way, protected stepparents stay the same exactly if the object is never given another
one.  All other operations leave the slots alone, whatever they are and in whatever order they come.

The runs are those of sessions: there is one through all the states in which the steps of a script
end, and what is said of a run holds from each of its moments on. -/
theorem protected_ancestors_kept_iff (shown : Event → Bool) (o : ObjectId) :
    (∀ es, ∃ path, List.IsChain Moment.Step (Moment.start es :: path) ∧
      ∀ past rest, es = past ++ rest →
        ∃ r, ⟨.ret r .done (past.foldl (fun s e => (runStep shown e s).2) .initial), rest⟩ ∈
          Moment.start es :: path) ∧
    ∀ (p : Moment) (path : List Moment), List.IsChain Moment.Step (p :: path) →
      ((p.heap.slots o).Protects .parent →
        (∀ q ∈ path, (q.heap.slots o).Protects .parent) ∧
        ((∀ q ∈ path, (q.heap.slots o).parent = (p.heap.slots o).parent) ↔
          ∀ q ∈ (p :: path).dropLast, ∀ x, q.AboutTo (setParent o x) →
            x = (p.heap.slots o).parent)) ∧
      ((p.heap.slots o).Protects .stepparents →
        (∀ q ∈ path, (q.heap.slots o).Protects .stepparents) ∧
        ((∀ q ∈ path, (q.heap.slots o).stepparents = (p.heap.slots o).stepparents) ↔
          ∀ q ∈ (p :: path).dropLast, ∀ x, ¬ q.AboutTo (pushStepparent o x))) := by
  refine ⟨fun es => Moment.exists_run shown es _ .initial, fun p path run => ⟨?_, ?_⟩⟩
  · exact Moment.kept_along_iff (H := fun q y => ∀ x, q.AboutTo (setParent o x) → x = y)
      (fun step => step.protects (.inl rfl)) Moment.Step.parent_kept_iff run
  · exact Moment.kept_along_iff (H := fun q _ => ∀ x, ¬ q.AboutTo (pushStepparent o x))
      (fun step => step.protects (.inr rfl)) Moment.Step.stepparents_kept_iff run

/-! ## A protected slot that is not kept -/

/-- Makes two objects, and protects both ancestor slots of the first. -/
def protectBoth : List Expr :=
  [.assign "o" (.nullary .root), .assign "v" (.nullary .root),
    .keyed .makeReadonly (.var "o") (.name "__parent__"),
    .keyed .makeReadonly (.var "o") (.name "__stepparents__")]

/-- Gives the first object the second one as parent and as stepparent. -/
def extendBoth : List Expr :=
  [.binary .setParent (.var "o") (.var "v"), .binary .pushStepparent (.var "o") (.var "v")]

/-- The state in which the steps of a script end. -/
def stateAfter (es : List Expr) : State :=
  es.foldl (fun s e => (runStep (fun _ => true) e s).2) .initial

lemma protectBoth_protects {k : Key} (hk : k = .parent ∨ k = .stepparents) :
    ((stateAfter protectBoth).heap.slots 2).Protects k := by
  constructor
  · decide +kernel
  · rcases hk with rfl | rfl
    · decide +kernel
    · decide +kernel

/-- **A protected ancestor slot can still be changed.** -/
theorem protected_ancestors_changed :
    ¬ ∀ (es : List Expr) (p q : Moment) (o : ObjectId),
      (Moment.start es).Reaches p → p.Reaches q →
        ((p.heap.slots o).Protects .parent →
          (q.heap.slots o).parent = (p.heap.slots o).parent) ∧
        ((p.heap.slots o).Protects .stepparents →
          (q.heap.slots o).stepparents = (p.heap.slots o).stepparents) := by
  intro kept
  obtain ⟨r, before⟩ := Moment.reaches_after (fun _ => true) protectBoth extendBoth
    (.ok (.object nullId)) .initial
  obtain ⟨r', after⟩ := Moment.reaches_after (fun _ => true) extendBoth [] r
    (stateAfter protectBoth)
  have same := (kept _ _ _ 2 before after).1 (protectBoth_protects (.inl rfl))
  have changed : ((stateAfter (protectBoth ++ extendBoth)).heap.slots 2).parent ≠
      ((stateAfter protectBoth).heap.slots 2).parent := by decide +kernel
  exact changed same

end Prototypal
