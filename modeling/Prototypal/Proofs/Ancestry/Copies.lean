import Prototypal.Proofs.Ancestry.Lines
import Prototypal.Proofs.Ancestry.Naive
import Prototypal.Proofs.Ancestry.Newcomers
import Prototypal.Proofs.Operations

/-!
# Copies

A copy has the contents of the original and an identity of its own, so it has the same ancestors.
Walks from the two go through these in the same way, as long as they do not lead back to where the
walks started.  They do not lead to the copy, which is nobody's ancestor yet, and they lead to the
original only if it is an ancestor of its own.

* `Trail.above_fst` — a search above an object that does not come back to it takes no notice of it.
* `Closed.resolve?_copy`, `Closed.isA_copy` — the walks from a copy and from the original.
* `Untouched` — what is asked of an object is answered as before, since no object that it reaches
  has changed.
* `copy_is_independent` — the statement about operations.
-/

namespace Prototypal

/-- A search above an object that is not above itself goes on as if it had not started there. -/
lemma Trail.above_fst {α : Type} {ancestors : ObjectId → List ObjectId}
    {hit : ObjectId → Option α} {n : Nat} {o : ObjectId}
    (apart : ∀ a ∈ ancestors o, ¬ Relation.ReflTransGen (fun y b => b ∈ ancestors y) a o) :
    (above ancestors hit (n + 1) (start.enter o) o).1 =
      (firstOf (visit hit (above ancestors hit n)) start (ancestors o)).1 := by
  have search : Search ancestors hit n start (ancestors o) _ := search_firstOf n start (ancestors o)
  have others : ∀ x ∈ (firstOf (visit hit (above ancestors hit n)) start (ancestors o)).2.entered,
      x ∉ (start.enter o).entered := by
    intro x entered same
    rw [List.mem_singleton.mp same] at entered
    rcases search.reaches .start entered with before | ⟨a, tried, path⟩
    · exact absurd before List.not_mem_nil
    · exact apart a tried path
  have searched := congrArg Prod.fst (search.onto others).eq
  exact searched

/-- What a lookup reports, with one holder in the place of another. -/
def Found.moved (o c : ObjectId) (f : Found) : Found :=
  if f.holder = o then { f with holder := c } else f

namespace Heap

variable {h h' : Heap} {hops : Nat} {o x a : ObjectId} {k : Key}

/-- Where the objects that are there have the same slots, they reach the same objects. -/
lemma Closed.reaches (closed : h.Closed) (same : ∀ x < h.nextId, h'.slots x = h.slots x)
    (there : h.Has o) (path : h'.Reaches o x) : h.Reaches o x := by
  induction path with
  | refl => exact .refl
  | tail _ last ih =>
      have older := lt_nextId_of_isSome (closed.has_of_reaches there ih)
      refine ih.tail ?_
      rwa [Hop, ancestors_congr (same _ older)] at last

/-! ## A copy -/

lemma ancestors_copy (there : h.Has o) :
    (h.copy o).ancestors h.nextId = (h.copy o).ancestors o := by
  rw [ancestors, ancestors, slots_copy_nextId, slots_copy_of_lt h o (lt_nextId_of_isSome there)]
  rfl

section

variable (closed : h.Closed) (there : h.Has o)
include closed there

/-- Above the original, and so above the copy, there are older objects, and the original is not
among them. -/
lemma Closed.above_copy (acyclic : ¬ Relation.TransGen h.Hop o o)
    (hop : a ∈ (h.copy o).ancestors o) (path : (h.copy o).Reaches a x) : h.Has x ∧ x ≠ o := by
  rw [ancestors, slots_copy_of_lt h o (lt_nextId_of_isSome there)] at hop
  have older : h.Reaches a x :=
    closed.reaches (fun x => slots_copy_of_lt h o) (closed o a hop) path
  refine ⟨closed.has_of_reaches (closed o a hop) older, ?_⟩
  rintro rfl
  exact acyclic (Relation.TransGen.head'_iff.mpr ⟨a, hop, older⟩)

variable (acyclic : ¬ Relation.TransGen h.Hop o o)
include acyclic

/-- What the copy reaches beyond itself is older, and is not the original. -/
lemma Closed.reached_from_copy (path : (h.copy o).Reaches h.nextId x) :
    x = h.nextId ∨ h.Has x ∧ x ≠ o := by
  rcases Relation.ReflTransGen.cases_head path with rfl | ⟨a, hop, rest⟩
  · exact .inl rfl
  · rw [Hop, ancestors_copy there] at hop
    exact .inr (closed.above_copy there acyclic hop rest)

/-- The ancestors of the copy are searched like those of the original. -/
lemma Closed.above_copy_fst {α : Type} (hit : ObjectId → Option α) :
    (Trail.above (h.copy o).ancestors hit hops (Trail.start.enter h.nextId) h.nextId).1 =
      (Trail.above (h.copy o).ancestors hit hops (Trail.start.enter o) o).1 := by
  have same := ancestors_copy there
  cases hops with
  | zero => rfl
  | succ n =>
      rw [Trail.above_fst, Trail.above_fst, same]
      · intro a hop path
        exact (closed.above_copy there acyclic hop path).2 rfl
      · intro a hop path
        rw [same] at hop
        have older := lt_nextId_of_isSome (closed.above_copy there acyclic hop path).1
        exact Nat.lt_irrefl _ older

lemma Closed.resolve?_copy :
    ((h.copy o).resolve? hops h.nextId k).1 =
      ((h.copy o).resolve? hops o k).1.map (Found.moved o h.nextId) := by
  have own : (h.copy o).own? k h.nextId =
      ((h.copy o).own? k o).map (Found.moved o h.nextId) := by
    rw [own?, own?, slots_copy_nextId, slots_copy_of_lt h o (lt_nextId_of_isSome there),
      Option.map_map]
    exact Option.map_congr fun v _ => (if_pos rfl).symm
  have above : ((h.copy o).resolveAbove? hops h.nextId k).1 =
      ((h.copy o).resolveAbove? hops o k).1 :=
    closed.above_copy_fst there acyclic _
  rw [resolve?_fst_eq_or, resolve?_fst_eq_or, own, above, Option.map_or]
  congr 1
  -- above the original there is another holder, which stays
  cases found : ((h.copy o).resolveAbove? hops o k).1 with
  | none => rfl
  | some f => exact congrArg some (if_neg (holder_ne_of_resolveAbove? _ _ _ _ found)).symm

lemma Closed.isA_copy (original : x ≠ o) (new : x ≠ h.nextId) :
    ((h.copy o).isA hops h.nextId x).1 = ((h.copy o).isA hops o x).1 := by
  have miss : sought x o = none := if_neg original.symm
  have miss' : sought x h.nextId = none := if_neg new.symm
  rw [isA_fst, isA_fst, Trail.walk, Trail.walk,
    Trail.visit_of_miss List.not_mem_nil miss, Trail.visit_of_miss List.not_mem_nil miss']
  exact congrArg Option.isSome (closed.above_copy_fst there acyclic _)

end

end Heap

/-! ## Objects that are left alone -/

/-- Whatever is asked of an object is answered in the same way in two states: its own slots, lookup
and membership. -/
structure Untouched (y : ObjectId) (s t : State) : Prop where
  own : SameAnswer (slotsOf y) s t
  lookup : ∀ k, k.isReserved = false → SameAnswer (resolve y k) s t
  membership : ∀ x, SameAnswer (isA y x) s t

/-- An object answers in the same way if no object that it reaches has changed. -/
lemma Untouched.of_slots {y : ObjectId} {s t : State} (fixed : t.fixed = s.fixed)
    (same : ∀ x, s.heap.Reaches y x → t.heap.slots x = s.heap.slots x) : Untouched y s t := by
  have limit : t.hops = s.hops := hops_of_fixed fixed
  constructor
  · refine ⟨s.heap.slots y, ⟨s, rfl⟩, t, ?_⟩
    rw [← same y .refl]
    rfl
  · intro k ordinary
    refine ⟨_, (resolve_yields_iff ordinary).mpr rfl, (resolve_yields_iff ordinary).mpr ?_⟩
    rw [limit, Heap.resolve?_congr fun x entered => same x (Trail.reaches_of_mem_entered entered)]
  · intro x
    refine ⟨_, isA_yields_iff.mpr rfl, isA_yields_iff.mpr ?_⟩
    rw [limit, Heap.isA_congr fun z entered => ?_]
    exact same z (Trail.reaches_of_mem_entered ((Heap.isA_entered ..).subset entered))

/-- **A copy answers like the original, and either goes its own way from there.**  Let an object
that is not its own ancestor be copied.  Under every ordinary key the copy finds what the original
finds, with itself as the holder instead of the original, and it has the same other objects among
its ancestors and the same readonly keys.  The objects of before, the original included, do not
notice the copy, whatever operations on its slots follow; and the copy does not notice operations on
the slots of the original. -/
theorem copy_is_independent (s : State) (o : ObjectId) (closed : s.heap.Closed)
    (there : s.heap.Has o) (acyclic : ¬ Relation.TransGen s.heap.Hop o o) :
    ∃ c t, copy o s = .ok c t ∧ ¬ s.heap.Has c ∧
      (∀ k, k.isReserved = false →
        ∃ found, Yields (resolve o k) t found ∧
          Yields (resolve c k) t (found.map (Found.moved o c))) ∧
      (∀ x, x ≠ o → x ≠ c →
        ∃ answer, Yields (isA o x) t answer ∧ Yields (isA c x) t answer) ∧
      (∀ k, (t.heap.slots c).isReadonly k = (t.heap.slots o).isReadonly k) ∧
      (∀ y, s.heap.Has y → Untouched y s t ∧ ∀ ops, Untouched y t (t.after c ops)) ∧
      ∀ ops, Untouched c t (t.after o ops) := by
  refine ⟨s.heap.nextId, { s with heap := s.heap.copy o }, rfl, ?_, ?_, ?_, ?_, ?_, ?_⟩
  · exact fun before => Nat.lt_irrefl _ (Heap.lt_nextId_of_isSome before)
  · intro k ordinary
    refine ⟨_, (resolve_yields_iff ordinary).mpr rfl, (resolve_yields_iff ordinary).mpr ?_⟩
    exact closed.resolve?_copy there acyclic
  · intro x original new
    refine ⟨_, isA_yields_iff.mpr rfl, isA_yields_iff.mpr ?_⟩
    exact closed.isA_copy there acyclic original new
  · intro k
    dsimp only
    rw [s.heap.slots_copy_nextId, s.heap.slots_copy_of_lt o (Heap.lt_nextId_of_isSome there)]
    rfl
  · intro y before
    constructor
    · refine .of_slots rfl fun x path => s.heap.slots_copy_of_lt o ?_
      exact Heap.lt_nextId_of_isSome (closed.has_of_reaches before path)
    · intro ops
      have aside := State.Aside.after { s with heap := s.heap.copy o } s.heap.nextId ops
      refine .of_slots aside.fixed fun x path => ?_
      have older : x < s.heap.nextId := Heap.lt_nextId_of_isSome (closed.has_of_reaches before
        (closed.reaches (fun x => s.heap.slots_copy_of_lt o) before path))
      refine aside.slots x ?_ (Nat.ne_of_lt older)
      exact Nat.lt_of_lt_of_le older (by simp [Heap.copy])
  · intro ops
    have aside := State.Aside.after { s with heap := s.heap.copy o } o ops
    refine .of_slots aside.fixed fun x path => ?_
    rcases closed.reached_from_copy there acyclic path with rfl | ⟨older, other⟩
    · refine aside.slots _ (by simp [Heap.copy]) ?_
      exact fun same => Nat.lt_irrefl _ (same ▸ Heap.lt_nextId_of_isSome there)
    · refine aside.slots x ?_ other
      exact Nat.lt_of_lt_of_le (Heap.lt_nextId_of_isSome older) (by simp [Heap.copy])

lemma diamond_closed : diamond.Closed := by
  have present : ∀ o < 6, ∀ a ∈ diamond.ancestors o, (diamond.get? a).isSome := by decide
  intro o a hop
  match o with
  | 0 | 1 | 2 | 3 | 4 | 5 => exact present _ (by decide) a hop
  | n + 6 => exact absurd hop List.not_mem_nil

/-- The stepparent with the entry is copied.  The copy finds its own entry, also after that of the
original has been deleted.  The last object of the diamond goes on finding the entry of the
original, whatever the copy is made into: here one with another entry, below the last object and
itself. -/
theorem diamond_copied :
    ∃ t, copy 4 { State.initial with heap := diamond } = .ok 6 t ∧
      Yields (resolve 6 (.object 1)) t (some ⟨6, 1⟩) ∧
      Yields (resolve 6 (.object 1)) (t.after 4 [.delete (.object 1)]) (some ⟨6, 1⟩) ∧
      Yields (resolve 5 (.object 1))
        (t.after 6 [.set (.object 1) 2, .setParent (some 6), .pushStepparent 5])
        (some ⟨4, 1⟩) := by
  have acyclic : ¬ Relation.TransGen diamond.Hop 4 4 :=
    (Heap.hopsWithin_of_older diamond_older 4).not_transGen
  obtain ⟨c, t, copied, _, finds, _, _, others, kept⟩ :=
    copy_is_independent { State.initial with heap := diamond } 4 diamond_closed rfl acyclic
  cases copied
  obtain ⟨found, original, own⟩ := finds (.object 1) rfl
  obtain ⟨found', was', own'⟩ := (kept [.delete (.object 1)]).lookup (.object 1) rfl
  obtain ⟨found'', was'', last⟩ := ((others 5 rfl).2
    [.set (.object 1) 2, .setParent (some 6), .pushStepparent 5]).lookup (.object 1) rfl
  rw [resolve_yields_iff rfl] at original was' was''
  subst original was' was''
  exact ⟨_, rfl, own, own', last⟩

end Prototypal
