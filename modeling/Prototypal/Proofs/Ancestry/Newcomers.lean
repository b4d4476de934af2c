import Prototypal.Proofs.Ancestry.Exact
import Prototypal.Proofs.WellFormed.States

/-!
# New objects

A new object is nobody's ancestor yet.  So from the older objects, walks go where they went before,
whatever is made of the new one; and a walk from the new one does not come back to it.

**Trails.**  A walk never looks at an object that it has entered.  Where a search does not come
anyway, it makes no difference that a walk has been there before: `Search.onto`.  Nor does a search
know how deep it is, only how many hops are left.  So a walk from an object that is no hit and has
one ancestor is the walk from the ancestor, with one hop more: `walk_of_sole_ancestor`.

**Heaps.**  `Heap.Closed` says that all ancestors are there.  In such a heap a walk stays among the
objects that are there (`Closed.older`), so it is the same in every heap in which they have the same
slots.

* `child_delegates` — a child without attributes of its own answers as its parent does.
-/

namespace Prototypal

namespace Trail

variable {α : Type} {ancestors : ObjectId → List ObjectId} {hit : ObjectId → Option α}
  {n : Nat} {t : Trail} {o x : ObjectId} {os : List ObjectId} {r : Option α × Trail}

/-! ## Objects that a search does not come to -/

/-- What a walk has done in going on from another one. -/
def onto (t base : Trail) : Trail :=
  ⟨t.entered ++ base.entered, t.cuts ++ base.cuts⟩

lemma not_mem_onto {base : Trail} (new : o ∉ t.entered) (apart : o ∉ base.entered) :
    o ∉ (t.onto base).entered := by
  simpa [onto] using And.intro new apart

/-- A search that goes on from a walk goes where it goes otherwise, if it does not come to where the
walk has been. -/
lemma Search.onto (h : Search ancestors hit n t os r) {base : Trail}
    (apart : ∀ x ∈ r.2.entered, x ∉ base.entered) :
    Search ancestors hit n (t.onto base) os (r.1, r.2.onto base) := by
  induction h with
  | nil => exact .nil
  | seen before _ ih => exact .seen (List.mem_append_left _ before) (ih apart)
  | found new here => exact .found (not_mem_onto new (apart _ List.mem_cons_self)) here
  | cut new miss rest ih =>
      have entered := rest.grows.entered _ List.mem_cons_self
      exact .cut (not_mem_onto new (apart _ entered)) miss (ih apart)
  | higher new miss climb ih =>
      have entered := climb.grows.entered _ List.mem_cons_self
      exact .higher (not_mem_onto new (apart _ entered)) miss (ih apart)
  | passed new miss climb rest ih ih' =>
      have entered := rest.grows.entered _ (climb.grows.entered _ List.mem_cons_self)
      refine .passed (not_mem_onto new (apart _ entered)) miss (ih fun x hx => ?_) (ih' apart)
      exact apart x (rest.grows.entered x hx)

/-- What a search enters, it was at before, or it is reached from the objects that are tried. -/
lemma Search.reaches (h : Search ancestors hit n t os r) (ht : t.Proper)
    (entered : x ∈ r.2.entered) :
    x ∈ t.entered ∨ ∃ a ∈ os, Relation.ReflTransGen (fun y b => b ∈ ancestors y) a x := by
  refine (h.path ht x entered).imp_right ?_
  rintro ⟨a, tried, m, _, path⟩
  exact ⟨a, tried, (path.mono fun _ _ climbed => climbed.2.2).reflTransGen⟩

lemma reaches_of_mem_entered (entered : x ∈ (walk ancestors hit n o).2.entered) :
    Relation.ReflTransGen (fun y b => b ∈ ancestors y) o x := by
  rcases (search_walk ancestors hit n o).reaches .start entered with before | ⟨a, tried, path⟩
  · exact absurd before List.not_mem_nil
  · rwa [List.mem_singleton.mp tried] at path

/-- From an object that is no hit and has one ancestor, a walk goes on as one from the ancestor. -/
lemma walk_of_sole_ancestor {p : ObjectId} (sole : ancestors o = [p]) (miss : hit o = none)
    (apart : o ∉ (walk ancestors hit n p).2.entered) :
    walk ancestors hit (n + 1) o =
      ((walk ancestors hit n p).1, (walk ancestors hit n p).2.onto (start.enter o)) := by
  have others : ∀ x ∈ (walk ancestors hit n p).2.entered, x ∉ (start.enter o).entered := by
    intro x entered same
    rw [List.mem_singleton.mp same] at entered
    exact apart entered
  rw [walk, visit_of_miss List.not_mem_nil miss, above, sole]
  exact ((search_walk ancestors hit n p).onto others).eq

end Trail

namespace Heap

variable {h h' : Heap} {hops : Nat} {o x : ObjectId} {k : Key}

/-! ## Heaps in which all ancestors are there -/

/-- Every ancestor is there. -/
def Closed (h : Heap) : Prop :=
  ∀ o a, h.Hop o a → h.Has a

/-- The heaps that sessions come to are well formed, and well-formed heaps are closed. -/
lemma WellFormed.closed (wf : h.WellFormed) : h.Closed := by
  intro o a hop
  obtain ⟨_, _, above, beside⟩ := Prototypal.known_slots.mp (wf.known_slots o)
  rcases List.mem_append.mp hop with step | parent
  · exact wf.known_iff.mp (known_list.mp beside a step) a List.mem_cons_self
  · rw [Option.mem_toList.mp parent] at above
    exact wf.known_iff.mp (known_some.mp above) a List.mem_cons_self

lemma Closed.has_of_reaches (closed : h.Closed) (there : h.Has o) (path : h.Reaches o x) :
    h.Has x := by
  cases path with
  | refl => exact there
  | tail _ last => exact closed _ _ last

/-- A walk from an object that is there stays among the objects that are there. -/
lemma Closed.older {α : Type} {hit : ObjectId → Option α} (closed : h.Closed) (there : h.Has o)
    (entered : x ∈ (Trail.walk h.ancestors hit hops o).2.entered) : x < h.nextId :=
  lt_nextId_of_isSome (closed.has_of_reaches there (Trail.reaches_of_mem_entered entered))

section

variable (closed : h.Closed) (there : h.Has o)
  (same : ∀ x < h.nextId, h'.slots x = h.slots x)
include closed there same

/-- From an object that is there, lookup is the same wherever the older objects are the same. -/
lemma Closed.resolve?_eq : h'.resolve? hops o k = h.resolve? hops o k :=
  resolve?_congr fun x entered => same x (closed.older there entered)

lemma Closed.isA_eq : h'.isA hops o x = h.isA hops o x := by
  refine isA_congr fun y entered => same y ?_
  exact closed.older there ((isA_entered h hops o x).subset entered)

end

/-! ## A child -/

lemma slots_make_of_lt (h : Heap) (p : Payload) (parent : Option ObjectId)
    (stepparents : List ObjectId) (older : x < h.nextId) :
    (h.make p parent stepparents).slots x = h.slots x := by
  rw [make, slots_add, if_neg (Nat.ne_of_lt older)]

lemma slots_make_nextId (h : Heap) (p : Payload) (parent : Option ObjectId)
    (stepparents : List ObjectId) :
    (h.make p parent stepparents).slots h.nextId = .fresh h.nextId parent stepparents := by
  rw [make, slots_add, if_pos rfl]

/-- A walk from a new child is the walk from the parent, with one hop more. -/
lemma Closed.walk_child {α : Type} {hit : ObjectId → Option α} {p : ObjectId} (closed : h.Closed)
    (there : h.Has p) (miss : hit h.nextId = none) :
    (Trail.walk (h.make .plain (some p) []).ancestors hit (hops + 1) h.nextId).1 =
      (Trail.walk (h.make .plain (some p) []).ancestors hit hops p).1 := by
  have sole : (h.make .plain (some p) []).ancestors h.nextId = [p] := by
    rw [ancestors, slots_make_nextId]
    rfl
  have same : Trail.walk (h.make .plain (some p) []).ancestors hit hops p =
      Trail.walk h.ancestors hit hops p :=
    Trail.walk_congr fun x entered =>
      ⟨rfl, fun _ => ancestors_congr (slots_make_of_lt h _ _ _ (closed.older there entered))⟩
  have apart : h.nextId ∉ (Trail.walk h.ancestors hit hops p).2.entered :=
    fun entered => Nat.lt_irrefl _ (closed.older there entered)
  rw [Trail.walk_of_sole_ancestor sole miss (same ▸ apart)]

section

variable {p : ObjectId} (closed : h.Closed) (there : h.Has p)
include closed there

lemma Closed.resolve?_child :
    ((h.make .plain (some p) []).resolve? (hops + 1) h.nextId k).1 = (h.resolve? hops p k).1 := by
  have miss : (h.make .plain (some p) []).own? k h.nextId = none := by
    rw [own?, slots_make_nextId]
    rfl
  have older : (h.make .plain (some p) []).resolve? hops p k = h.resolve? hops p k :=
    closed.resolve?_eq there fun x => slots_make_of_lt h .plain (some p) []
  rw [← older]
  exact closed.walk_child there miss

lemma Closed.isA_child (other : x ≠ h.nextId) :
    ((h.make .plain (some p) []).isA (hops + 1) h.nextId x).1 = (h.isA hops p x).1 := by
  have miss : sought x h.nextId = none := if_neg other.symm
  have older : (h.make .plain (some p) []).isA hops p x = h.isA hops p x :=
    closed.isA_eq there fun y => slots_make_of_lt h .plain (some p) []
  rw [← older, isA_fst, isA_fst]
  exact congrArg Option.isSome (closed.walk_child there miss)

end

end Heap

/-- **A child delegates everything.**  A child is made of an object, by `giveBirth` without an
initializer or as a new object with that parent.  As long as it is not written, a lookup of an
ordinary key from the child finds what a lookup from the parent finds with one hop less, the same
value on the same holder or nothing.  The same holds of membership, except that the child is itself.
It makes no difference whether the graph is cyclic, whether the limit cuts the walks, and whether
the parent is asked before or after the birth. -/
theorem child_delegates (s : State) (p : ObjectId) (enter : Enter) (closed : s.heap.Closed)
    (there : s.heap.Has p) :
    ∃ c t, giveBirth enter p none s = .ok c t ∧ makeWith .plain (some p) [] s = .ok c t ∧
      ∀ u v : State, u.heap = t.heap → v.heap = t.heap ∨ v.heap = s.heap → u.hops = v.hops + 1 →
        (∀ k, k.isReserved = false →
          ∃ found, Yields (resolve c k) u found ∧ Yields (resolve p k) v found) ∧
        ∀ x, x ≠ c → ∃ answer, Yields (isA c x) u answer ∧ Yields (isA p x) v answer := by
  refine ⟨_, _, rfl, rfl, fun u v new old limit => ?_⟩
  -- the parent is asked in a heap in which the objects of before have the slots of before
  have same : ∀ x < s.heap.nextId, v.heap.slots x = s.heap.slots x := by
    intro x older
    rcases old with after | before
    · rw [after]
      exact s.heap.slots_make_of_lt .plain (some p) [] older
    · rw [before]
  constructor
  · intro k ordinary
    refine ⟨_, (resolve_yields_iff ordinary).mpr rfl, (resolve_yields_iff ordinary).mpr ?_⟩
    rw [closed.resolve?_eq there same, new, limit]
    exact (closed.resolve?_child there).symm
  · intro x other
    refine ⟨_, isA_yields_iff.mpr rfl, isA_yields_iff.mpr ?_⟩
    rw [closed.isA_eq there same, new, limit]
    exact (closed.isA_child there other).symm

lemma cycle_closed : cycle.Closed := by
  have present : ∀ o < 5, ∀ a ∈ cycle.ancestors o, (cycle.get? a).isSome := by decide
  intro o a hop
  match o with
  | 0 | 1 | 2 | 3 | 4 => exact present _ (by decide) a hop
  | n + 5 => exact absurd hop List.not_mem_nil

/-- A state with the cycle and a child of its first object, in which a walk takes as many hops as
given. -/
def cycleWithChild (hops : UInt64) : State :=
  { State.initial with
    heap := cycle.make .plain (some 2) []
    fixed := some { Settings.standard with policy := ⟨.off, ⟨256, hops⟩⟩ } }

/-- A child of the first object of the cycle finds the entry of the second one in two hops, since
its parent finds it in one; with fewer hops neither does. -/
theorem cycle_child_delegates :
    (∃ t, giveBirth enterCall 2 none { State.initial with heap := cycle } = .ok 5 t) ∧
      Yields (resolve 2 (.object 1)) (cycleWithChild 1) (some ⟨3, 1⟩) ∧
      Yields (resolve 5 (.object 1)) (cycleWithChild 2) (some ⟨3, 1⟩) ∧
      Yields (resolve 2 (.object 1)) (cycleWithChild 0) none ∧
      Yields (resolve 5 (.object 1)) (cycleWithChild 1) none := by
  obtain ⟨c, t, born, made, delegates⟩ :=
    child_delegates { State.initial with heap := cycle } 2 enterCall cycle_closed rfl
  cases made
  obtain ⟨found, child, parent⟩ :=
    (delegates (cycleWithChild 2) (cycleWithChild 1) rfl (.inl rfl) rfl).1 (.object 1) rfl
  obtain ⟨found', child', parent'⟩ :=
    (delegates (cycleWithChild 1) (cycleWithChild 0) rfl (.inl rfl) rfl).1 (.object 1) rfl
  have near : found = some ⟨3, 1⟩ := by
    rw [← (resolve_yields_iff rfl).mp parent]
    rfl
  have far : found' = none := by
    rw [← (resolve_yields_iff rfl).mp parent']
    rfl
  subst near far
  exact ⟨⟨_, born⟩, parent, child, parent', child'⟩

end Prototypal
