import Prototypal.Proofs.Ancestry.Exact
import Prototypal.Proofs.Ancestry.Naive
import Prototypal.Proofs.Changes
import Prototypal.Proofs.Checks

/-!
# New parents and cycles

Before a parent is set, it is checked that the new parent does not inherit from the receiver.  Within
the limit on hops this check is exact: it complains if and only if the new parent would close a
cycle.  So where every complaint is an error, setting parents keeps an acyclic graph acyclic.

**The graph.**  Setting a parent replaces the hops from one object.  Whether a path leads *to* that
object does not depend on these (`Heap.reaches_iff_of_agree`), so the new parent leads to the
receiver afterwards exactly if it did before, and a cycle that was not there before goes through the
new hop (`Heap.Acyclic.reparented`).

**The check.**  `checkBefore_parent` says what the check finds, `setAttribute_parent_ok` what has
happened if a parent was set at the highest strictness.
-/

namespace Prototypal

namespace Heap

/-- No object is among the ancestors of its ancestors. -/
def Acyclic (h : Heap) : Prop :=
  ∀ o a, h.Hop o a → ¬ h.Reaches a o

/-! ## Other hops from one object -/

section

variable {h h' : Heap} {o : ObjectId} (agree : ∀ x, x ≠ o → h'.ancestors x = h.ancestors x)
include agree

lemma hop_iff_of_agree {x a : ObjectId} (other : x ≠ o) : h'.Hop x a ↔ h.Hop x a := by
  rw [Hop, Hop, agree x other]

/-- A path to the object can be cut off where it first comes there. -/
lemma reaches_of_agree {a : ObjectId} (path : h'.Reaches a o) : h.Reaches a o := by
  induction path using Relation.ReflTransGen.head_induction_on with
  | refl => exact .refl
  | @head x b first _ ih =>
      by_cases here : x = o
      · rw [here]
        exact .refl
      · exact .head ((hop_iff_of_agree agree here).mp first) ih

/-- Whether a path leads to the object does not depend on the hops from there. -/
lemma reaches_iff_of_agree {a : ObjectId} : h'.Reaches a o ↔ h.Reaches a o :=
  ⟨reaches_of_agree agree, reaches_of_agree fun x other => (agree x other).symm⟩

/-- A path is one of before, or it comes to the object and goes on from there. -/
lemma reaches_cases {a x : ObjectId} (path : h'.Reaches a x) :
    h.Reaches a x ∨ h'.Reaches a o ∧ ∃ b, h'.Hop o b ∧ h'.Reaches b x := by
  induction path using Relation.ReflTransGen.head_induction_on with
  | refl => exact .inl .refl
  | @head y b first rest ih =>
      by_cases here : y = o
      · subst here
        exact .inr ⟨.refl, b, first, rest⟩
      · rcases ih with old | ⟨there, onwards⟩
        · exact .inl (.head ((hop_iff_of_agree agree here).mp first) old)
        · exact .inr ⟨.head first there, onwards⟩

/-- If no hop from the object leads back to it, there is no new cycle. -/
lemma Acyclic.of_agree (acyclic : h.Acyclic) (forward : ∀ b, h'.Hop o b → ¬ h.Reaches b o) :
    h'.Acyclic := by
  have unclosed : ∀ b, h'.Hop o b → ¬ h'.Reaches b o := fun b hop back =>
    forward b hop (reaches_of_agree agree back)
  intro x a hop back
  by_cases here : x = o
  · subst here
    exact unclosed a hop back
  · rcases reaches_cases agree back with old | ⟨there, b, onwards, rest⟩
    · exact acyclic x a ((hop_iff_of_agree agree here).mp hop) old
    · -- the cycle through `x` is one through the object, too
      exact unclosed b onwards (rest.trans (.head hop there))

end

/-! ## A new parent -/

/-- The heap in which a value has been stored as the parent of an object.  A value with the Null
payload detaches. -/
def reparented (h : Heap) (o v : ObjectId) : Heap :=
  h.setSlots o { h.slots o with parent := if (h.payload v).isNull then none else some v }

variable {h : Heap} {o v : ObjectId}

lemma ancestors_reparented_of_ne {x : ObjectId} (other : x ≠ o) :
    (h.reparented o v).ancestors x = h.ancestors x := by
  rw [ancestors, ancestors, reparented, slots_setSlots, if_neg fun here => other here.1.symm]

/-- A hop from the object is to one of its stepparents, or to the new parent. -/
lemma hop_reparented {b : ObjectId} (hop : (h.reparented o v).Hop o b) :
    h.Hop o b ∨ b = v ∧ (h.payload v).isNull = false := by
  rw [Hop, ancestors, reparented, slots_setSlots] at hop
  split at hop
  · simp only [Slots.ancestors, List.mem_append, Option.mem_toList] at hop
    rcases hop with step | parent
    · exact .inl (List.mem_append_left _ step)
    · split at parent
      · cases parent
      · rename_i held
        cases parent
        exact .inr ⟨rfl, Bool.of_not_eq_true held⟩
  · exact .inl hop

/-- The new hop closes a cycle exactly if there is one to be closed. -/
lemma closes_cycle_iff (present : (h.get? o).isSome) :
    ((h.reparented o v).slots o).parent = some v ∧ (h.reparented o v).Reaches v o ↔
      (h.payload v).isNull = false ∧ h.Reaches v o := by
  rw [reaches_iff_of_agree fun x other => ancestors_reparented_of_ne other, reparented,
    slots_setSlots, if_pos ⟨rfl, present⟩]
  cases (h.payload v).isNull <;> simp

lemma Acyclic.reparented (acyclic : h.Acyclic)
    (checked : (h.payload v).isNull = false → ¬ h.Reaches v o) : (h.reparented o v).Acyclic := by
  refine acyclic.of_agree (fun x other => ancestors_reparented_of_ne other) fun b hop => ?_
  rcases hop_reparented hop with old | ⟨rfl, held⟩
  · exact acyclic o b old
  · exact checked held

end Heap

/-! ## The check -/

/-- The complaint about a new parent that inherits from the receiver. -/
def alreadyInherits (o v : ObjectId) : Violation :=
  ⟨.set, o, .inheritsReceiver v⟩

lemma storeProblems_parent (o v : ObjectId) (s : State) :
    Yields (storeProblems o .parent v) s
      (if (s.heap.payload v).isNull = false ∧ (s.heap.isA s.hops v o).1 = true
        then [.inheritsReceiver v] else []) := by
  have h : storeProblems o .parent v s = (if (s.heap.payload v).isNull then pure []
      else do return if ← isA v o then [.inheritsReceiver v] else [] : Run (List Problem)) s := by
    rw [storeProblems, run_bind_ok (show payloadOf v s = .ok (s.heap.payload v) s from rfl)]
    rfl
  rw [Yields, h]
  cases (s.heap.payload v).isNull with
  | true => exact ⟨s, rfl⟩
  | false =>
      simp only [Bool.false_eq_true, if_false, run_bind_ok (isA_run v o s), true_and]
      exact ⟨_, rfl⟩

/-- The check before a parent is set complains of the new parent exactly if that is found to have the
receiver among its ancestors.  What it finds about the key is something else. -/
lemma checkBefore_parent (o v : ObjectId) (s : State) :
    ∃ violations, Yields (checkBefore o (.set .parent v)) s violations ∧
      (alreadyInherits o v ∈ violations ↔
        (s.heap.payload v).isNull = false ∧ (s.heap.isA s.hops v o).1 = true) := by
  obtain ⟨t, ofStore⟩ := storeProblems_parent o v s
  have ofKey : keyProblems .parent s =
      .ok (if (s.names.text .parent).isEmpty then [.emptyName] else []) s := rfl
  refine ⟨_, ⟨t, (run_bind_ok ofKey).trans ((run_bind_ok ofStore).trans rfl)⟩, ?_⟩
  have foreign : Problem.inheritsReceiver v ∉
      (if (s.names.text .parent).isEmpty then [Problem.emptyName] else []) := by
    split <;> simp
  rw [alreadyInherits, List.mem_map]
  constructor
  · rintro ⟨p, found, same⟩
    cases same
    rcases List.mem_append.mp found with ofKey | ofStore
    · exact absurd ofKey foreign
    · split at ofStore
      · assumption
      · cases ofStore
  · intro inherits
    rw [if_pos inherits]
    exact ⟨_, List.mem_append_right _ List.mem_cons_self, rfl⟩

/-- At the highest strictness, an access whose first checks have passed broke no rule before. -/
lemma eq_nil_of_reportBefore {o : ObjectId} {r : Request} {s t : State} {vs : List Violation}
    (passed : reportBefore .strict o r s = .ok () t) (found : Yields (checkBefore o r) s vs) :
    vs = [] := by
  obtain ⟨u, found⟩ := found
  rw [reportBefore, run_bind_ok found] at passed
  cases vs with
  | nil => rfl
  | cons v vs => cases passed

/-- If a parent was set at the highest strictness, the check had nothing to complain of, and the
value is the parent now. -/
lemma setAttribute_parent_ok {o v : ObjectId} {s t : State} (strict : s.strictness = .strict)
    (h : setAttribute o .parent v s = .ok () t) :
    ¬ ((s.heap.payload v).isNull = false ∧ (s.heap.isA s.hops v o).1 = true) ∧
      t.heap = s.heap.reparented o v := by
  constructor
  · rw [setAttribute, checked_run, strict] at h
    have inOrder : checkedAt .strict o (.set .parent v) (fun _ => none) (slotSet o .parent v) s =
        .ok () t := h
    obtain ⟨_, u, passed, _⟩ := exists_of_run_bind_ok inOrder
    obtain ⟨vs, found, inherits⟩ := checkBefore_parent o v s
    rw [← inherits, eq_nil_of_reportBefore passed found]
    exact List.not_mem_nil
  · obtain ⟨s', t', written, ⟨heap, _⟩, heap', _⟩ := checked_ok h
    rw [heap', ← heap]
    rw [slotSet_run] at written
    split at written
    · cases written
    · cases written
      rfl

/-- **The check of a new parent is exact,** if no ancestor path from it is longer than the limit.  The
check complains that it already inherits from the receiver exactly if the value does not have the
Null payload and leads to the receiver; that is, exactly if with this value as parent, the hop to it
would close a cycle.  So where every complaint is an error, a parent that was set leaves an acyclic
graph acyclic. -/
theorem parent_check_exact (s : State) (o v : ObjectId) (bounded : s.heap.HopsWithin s.hops v) :
    (∃ violations, Yields (checkBefore o (.set .parent v)) s violations ∧
      (alreadyInherits o v ∈ violations ↔
        (s.heap.payload v).isNull = false ∧ s.heap.Reaches v o) ∧
      ((s.heap.get? o).isSome → (alreadyInherits o v ∈ violations ↔
        ((s.heap.reparented o v).slots o).parent = some v ∧
          (s.heap.reparented o v).Reaches v o))) ∧
    (s.strictness = .strict → s.heap.Acyclic →
      ∀ t, setAttribute o .parent v s = .ok () t → t.heap.Acyclic) := by
  constructor
  · obtain ⟨violations, found, inherits⟩ := checkBefore_parent o v s
    rw [bounded.isA_iff_reaches] at inherits
    refine ⟨violations, found, inherits, fun present => ?_⟩
    rw [inherits, Heap.closes_cycle_iff present]
  · intro strict acyclic t set
    obtain ⟨clear, heap⟩ := setAttribute_parent_ok strict set
    rw [bounded.isA_iff_reaches] at clear
    rw [heap]
    exact acyclic.reparented fun held reaches => clear ⟨held, reaches⟩

/-- The diamond, where every complaint is an error.  The root of it may not have the last object for a
parent, which inherits from it by several ways.  Its two middle objects may be put in a row. -/
theorem diamond_reparented :
    (∃ violations,
      Yields (checkBefore 2 (.set .parent 5))
          { State.initial with heap := diamond, strictness := .strict } violations ∧
        alreadyInherits 2 5 ∈ violations) ∧
    ∃ t, setAttribute 4 .parent 3 { State.initial with heap := diamond, strictness := .strict } =
        .ok () t ∧ t.heap.Acyclic := by
  have bounded : ∀ o ≤ 256, diamond.HopsWithin 256 o := fun o small =>
    (Heap.hopsWithin_of_older diamond_older o).mono small
  have acyclic : diamond.Acyclic := fun o a hop =>
    (Heap.hopsWithin_of_older diamond_older o).not_reaches hop
  let s : State := { State.initial with heap := diamond, strictness := .strict }
  constructor
  · obtain ⟨⟨violations, found, exact, _⟩, _⟩ := parent_check_exact s 2 5 (bounded 5 (by decide))
    have hop : diamond.Hop 5 2 := by
      rw [Heap.Hop]
      decide
    exact ⟨violations, found, exact.mpr ⟨rfl, .single hop⟩⟩
  · obtain ⟨_, kept⟩ := parent_check_exact s 4 3 (bounded 3 (by decide))
    exact ⟨_, rfl, kept rfl acyclic _ rfl⟩

end Prototypal
