import Prototypal.Proofs.Ancestry.Cuts

/-!
# Walks that are not cut are exact

A walk prunes what it has seen, and on a cyclic graph that includes objects which it has yet to
finish.  This does not make it miss anything: as long as it is not cut, it finds an ancestor or an
entry exactly if there is one (`Trail.walk_isSome_iff_reaches`).

**Each object once.**  Whether cut or not, a walk enters no object twice, and so notes at most one
cut for it.  The objects that it enters are those whose slots it reads: change the others, and the
walk is the same.  `WalksAlong` puts these facts together for an operation that walks.
-/

namespace Prototypal

/-- **A walk that is not cut finds something exactly if a hit can be reached.** -/
theorem Trail.walk_isSome_iff_reaches {α : Type} {ancestors : ObjectId → List ObjectId}
    {hit : ObjectId → Option α} {n : Nat} {o : ObjectId}
    (uncut : (walk ancestors hit n o).2.cuts = []) :
    (walk ancestors hit n o).1.isSome ↔ ∃ x, (hit x).isSome ∧
      Relation.ReflTransGen (fun y a => a ∈ ancestors y) o x := by
  constructor
  · intro found
    obtain ⟨x, here, m, _, path⟩ := (walk_isSome_iff ancestors hit n o).mp found
    exact ⟨x, here, (path.mono fun _ _ past => past.1).reflTransGen⟩
  · rintro ⟨x, here, path⟩
    have past : ∀ y a, a ∈ ancestors y → Past ancestors (walk ancestors hit n o).2.cuts y a := by
      intro y a hop
      rw [uncut]
      exact ⟨hop, List.not_mem_nil⟩
    exact walk_isSome_of_path here (Relation.ReflTransGen.mono past _ _ path)

namespace Heap

variable {h h' : Heap} {hops : Nat} {o : ObjectId} {k : Key}

lemma isA_iff_reaches {target : ObjectId} (uncut : (h.isA hops o target).2.cuts = []) :
    (h.isA hops o target).1 = true ↔ h.Reaches o target := by
  rw [isA_cuts] at uncut
  rw [isA_fst, Trail.walk_isSome_iff_reaches uncut]
  simp only [isSome_sought_iff]
  exact exists_eq_left

lemma resolve?_iff_reaches (uncut : (h.resolve? hops o k).2.cuts = []) :
    (h.resolve? hops o k).1.isSome ↔
      ∃ x v, (h.slots x).find? k = some v ∧ h.Reaches o x := by
  refine (Trail.walk_isSome_iff_reaches uncut).trans ?_
  simp only [isSome_own?_iff, exists_and_right]
  rfl

/-! ## Walks within the limit

A walk that the limit allows to go all the way may still be cut, at the end of a longest path.  But
there are no ancestors there that it would miss. -/

lemma HopsWithin.le_of_hops {n m : Nat} {x : ObjectId} (bounded : h.HopsWithin m o)
    (path : Hops h.Hop n o x) : n ≤ m := by
  induction path generalizing m with
  | refl => exact Nat.zero_le m
  | head first _ ih =>
      cases m with
      | zero => exact absurd first bounded.not_hop
      | succ m => exact Nat.succ_le_succ (ih (bounded.hop first))

/-- If no path is longer than the limit, a walk finds something exactly if a hit can be reached. -/
lemma HopsWithin.walk_isSome_iff {α : Type} (hit : ObjectId → Option α)
    (bounded : h.HopsWithin hops o) :
    (Trail.walk h.ancestors hit hops o).1.isSome ↔ ∃ x, (hit x).isSome ∧ h.Reaches o x := by
  constructor
  · intro found
    obtain ⟨x, here, m, _, path⟩ := (Trail.walk_isSome_iff h.ancestors hit hops o).mp found
    exact ⟨x, here, (path.mono fun _ _ past => past.1).reflTransGen⟩
  · rintro ⟨x, here, path⟩
    refine Trail.walk_isSome_of_path here (Relation.ReflTransGen.mono ?_ _ _ path)
    intro y a hop
    refine ⟨hop, fun cut => ?_⟩
    have longer := bounded.le_of_hops ((Trail.hops_of_mem_cuts cut).tail hop)
    omega

lemma HopsWithin.isA_iff_reaches {target : ObjectId} (bounded : h.HopsWithin hops o) :
    (h.isA hops o target).1 = true ↔ h.Reaches o target := by
  rw [isA_fst, bounded.walk_isSome_iff]
  simp only [isSome_sought_iff]
  exact exists_eq_left

/-! ## What a walk reads -/

lemma ancestors_congr {x : ObjectId} (same : h'.slots x = h.slots x) :
    h'.ancestors x = h.ancestors x := by
  rw [ancestors, ancestors, same]

lemma own?_congr {x : ObjectId} (same : h'.slots x = h.slots x) : h'.own? k x = h.own? k x := by
  rw [own?, own?, same]

lemma isA_congr {target : ObjectId}
    (same : ∀ x ∈ (h.isA hops o target).2.entered, h'.slots x = h.slots x) :
    h'.isA hops o target = h.isA hops o target := by
  apply @Trail.asWalk_injective target
  rw [← walk_sought, ← walk_sought]
  refine Trail.walk_congr fun x entered => ⟨rfl, fun miss => ancestors_congr (same x ?_)⟩
  rw [walk_sought] at entered
  refine (Trail.mem_asWalk_entered entered).resolve_left ?_
  rintro rfl
  exact absurd miss (by simp [sought])

lemma resolve?_congr (same : ∀ x ∈ (h.resolve? hops o k).2.entered, h'.slots x = h.slots x) :
    h'.resolve? hops o k = h.resolve? hops o k :=
  Trail.walk_congr fun x hx => ⟨own?_congr (same x hx), fun _ => ancestors_congr (same x hx)⟩

lemma resolveAbove?_congr
    (same : ∀ x ∈ (h.resolveAbove? hops o k).2.entered, h'.slots x = h.slots x) :
    h'.resolveAbove? hops o k = h.resolveAbove? hops o k := by
  rw [resolveAbove?_eq_walk] at same
  rw [resolveAbove?_eq_walk, resolveAbove?_eq_walk]
  refine Trail.walk_congr fun x hx => ⟨?_, fun _ => ancestors_congr (same x hx)⟩
  rw [foreign?, foreign?, own?_congr (same x hx)]

end Heap

/-- An operation walks along a trail: it notes the cuts of the trail and changes nothing else, it
enters no object twice, it is cut at none twice, and it reads only the slots of the objects that it
enters. -/
structure WalksAlong {α : Type} (act : Run α) (s : State) (k : Option Key) (a : α) (t : Trail) :
    Prop where
  run : act s = .ok a { s with journal := t.notes k s.hops ++ s.journal }
  once : t.entered.Nodup
  cutOnce : t.cuts.Nodup
  reads : ∀ s' : State, s'.hops = s.hops →
    (∀ x ∈ t.entered, s'.heap.slots x = s.heap.slots x) →
      act s' = .ok a { s' with journal := t.notes k s.hops ++ s'.journal }

namespace WalksAlong

/-- An operation that in every state does what a walk of that state's heap says. -/
lemma ofWalk {α : Type} {act : Run α} {k : Option Key} (walk : Nat → Heap → α × Trail)
    (run : ∀ s, act s = .ok (walk s.hops s.heap).1
      { s with journal := (walk s.hops s.heap).2.notes k s.hops ++ s.journal })
    (once : ∀ n h, (walk n h).2.entered.Nodup) (cutOnce : ∀ n h, (walk n h).2.cuts.Nodup)
    (congr : ∀ n h h', (∀ x ∈ (walk n h).2.entered, h'.slots x = h.slots x) →
      walk n h' = walk n h) (s : State) :
    WalksAlong act s k (walk s.hops s.heap).1 (walk s.hops s.heap).2 := by
  refine ⟨run s, once _ _, cutOnce _ _, fun s' limit same => ?_⟩
  rw [run s', limit, congr s.hops s.heap s'.heap same]

lemma isA (o target : ObjectId) (s : State) :
    WalksAlong (isA o target) s none (s.heap.isA s.hops o target).1
      (s.heap.isA s.hops o target).2 := by
  refine ofWalk (fun n h => h.isA n o target) (isA_run o target) ?_ ?_ ?_ s
  · exact fun n h => (Trail.proper_walk ..).nodup.sublist (h.isA_entered n o target)
  · intro n h
    rw [Heap.isA_cuts]
    exact (Trail.proper_walk ..).nodup_cuts
  · exact fun n h h' => Heap.isA_congr

variable {k : Key} (ordinary : k.isReserved = false) (o : ObjectId) (s : State)
include ordinary

lemma resolve : WalksAlong (resolve o k) s (some k) (s.heap.resolve? s.hops o k).1
    (s.heap.resolve? s.hops o k).2 := by
  refine ofWalk (fun n h => h.resolve? n o k) (resolve_run ordinary) ?_ ?_ ?_ s
  · exact fun n h => (Trail.proper_walk ..).nodup
  · exact fun n h => (Trail.proper_walk ..).nodup_cuts
  · exact fun n h h' => Heap.resolve?_congr

lemma resolveAbove : WalksAlong (resolveAbove o k) s (some k) (s.heap.resolveAbove? s.hops o k).1
    (s.heap.resolveAbove? s.hops o k).2 := by
  refine ofWalk (fun n h => h.resolveAbove? n o k) (resolveAbove_run ordinary) ?_ ?_ ?_ s
  · intro n h
    rw [Heap.resolveAbove?_eq_walk]
    exact (Trail.proper_walk ..).nodup
  · intro n h
    rw [Heap.resolveAbove?_eq_walk]
    exact (Trail.proper_walk ..).nodup_cuts
  · exact fun n h h' => Heap.resolveAbove?_congr

end WalksAlong

/-- **A walk that is not cut is exact, and every walk enters an object once.**  Each of the three
walks goes along the trail that it leaves itself, on which no object is entered or cut twice.  If
that trail has no cut, then membership holds exactly of the objects that can be reached, and an
ordinary key is found exactly if an object with an own entry can be reached. -/
theorem uncut_walk_exact (s : State) (o x : ObjectId) (k : Key) (ordinary : k.isReserved = false) :
    (WalksAlong (isA o x) s none (s.heap.isA s.hops o x).1 (s.heap.isA s.hops o x).2 ∧
      ((s.heap.isA s.hops o x).2.cuts = [] →
        ((s.heap.isA s.hops o x).1 = true ↔ s.heap.Reaches o x))) ∧
    (WalksAlong (resolve o k) s (some k) (s.heap.resolve? s.hops o k).1
        (s.heap.resolve? s.hops o k).2 ∧
      ((s.heap.resolve? s.hops o k).2.cuts = [] → ((s.heap.resolve? s.hops o k).1.isSome ↔
        ∃ y v, (s.heap.slots y).find? k = some v ∧ s.heap.Reaches o y))) ∧
    WalksAlong (resolveAbove o k) s (some k) (s.heap.resolveAbove? s.hops o k).1
      (s.heap.resolveAbove? s.hops o k).2 := by
  refine ⟨⟨.isA o x s, Heap.isA_iff_reaches⟩, ⟨.resolve ordinary o s, ?_⟩,
    .resolveAbove ordinary o s⟩
  exact Heap.resolve?_iff_reaches

/-- A cycle: two objects are ancestors of each other, twice over.  The second has an entry, and a
third object stands apart. -/
def cycle : Heap where
  objects := #[none, some ⟨.null, .sealed nullId⟩,
    some ⟨.plain, .fresh 2 (some 3) [3]⟩,
    some ⟨.plain, { Slots.fresh 3 (some 2) [2] with table := [(.object 1, 1)] }⟩,
    some ⟨.plain, .fresh 4 none []⟩]

/-- On the cycle the walks from the first object come to an end without a cut, and enter the two
objects once each: the object apart is denied, and cannot be reached; the entry is found, and can
be. -/
theorem cycle_exact :
    (cycle.isA 256 2 4).2.entered = [3, 2] ∧ (cycle.isA 256 2 4).2.entered.Nodup ∧
      isA 2 4 { State.initial with heap := cycle } =
        .ok false { State.initial with heap := cycle } ∧
      ¬ cycle.Reaches 2 4 ∧
      resolve 2 (.object 1) { State.initial with heap := cycle } =
        .ok (some ⟨3, 1⟩) { State.initial with heap := cycle } ∧
      ∃ y v, (cycle.slots y).find? (.object 1) = some v ∧ cycle.Reaches 2 y := by
  obtain ⟨⟨walks, exact⟩, ⟨walks', exact'⟩, _⟩ :=
    uncut_walk_exact { State.initial with heap := cycle } 2 4 (.object 1) rfl
  refine ⟨rfl, walks.once, walks.run, fun reached => ?_, walks'.run, (exact' rfl).mp rfl⟩
  exact Bool.false_ne_true ((exact rfl).mpr reached)

end Prototypal
