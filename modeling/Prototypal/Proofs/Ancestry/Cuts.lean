import Prototypal.Proofs.Ancestry.Order
import Prototypal.Proofs.Ancestry.Paths

/-!
# What a limit on hops cuts off

A walk is cut at an object that it comes to when no hop is left.  It has entered the object then, so
it does not come back to it, even by a way on which hops would be left.  Hence a walk need not find
all that is near enough.  What it finds is this:

**Soundness.**  What a walk enters is at the end of a path that the limit allows, and which
goes on from no cut (`Search.path`).

**Completeness.**  A walk without a hit has gone on from every object that it entered and was not
cut at (`Search.closed`).  So it misses only what is behind a cut on every path, and a walk that was
never cut misses nothing.

* `Hops` — paths of a number of hops.
* `reached_iff_path_past_cuts` — membership and lookup, as paths past the cuts that they note.
* `near_ancestor_missed` — a limit of two hops, and an ancestor two hops away that is not found.
-/

namespace Prototypal

/-- A path of a number of hops. -/
inductive Hops (hop : ObjectId → ObjectId → Prop) : Nat → ObjectId → ObjectId → Prop where
  | refl (o : ObjectId) : Hops hop 0 o o
  | head {n : Nat} {o a x : ObjectId} (first : hop o a) (rest : Hops hop n a x) :
      Hops hop (n + 1) o x

namespace Hops

variable {hop hop' : ObjectId → ObjectId → Prop} {n : Nat} {o x : ObjectId}

lemma mono (h : Hops hop n o x) (le : ∀ a b, hop a b → hop' a b) : Hops hop' n o x := by
  induction h with
  | refl o => exact .refl o
  | head first _ ih => exact .head (le _ _ first) ih

lemma tail {y : ObjectId} (h : Hops hop n o x) (last : hop x y) : Hops hop (n + 1) o y := by
  induction h with
  | refl o => exact .head last (.refl y)
  | head first _ ih => exact .head first (ih last)

lemma reflTransGen (h : Hops hop n o x) : Relation.ReflTransGen hop o x := by
  induction h with
  | refl o => exact .refl
  | head first _ ih => exact .head first ih

end Hops

namespace Trail

variable {α : Type} {ancestors : ObjectId → List ObjectId} {hit : ObjectId → Option α}
  {n : Nat} {t u : Trail} {o : ObjectId} {os : List ObjectId} {r : Option α × Trail}

/-- The walk has gone on from an object to its ancestors. -/
def Climbed (ancestors : ObjectId → List ObjectId) (t : Trail) (o a : ObjectId) : Prop :=
  o ∈ t.entered ∧ o ∉ t.cuts ∧ a ∈ ancestors o

lemma Climbed.mono (grows : Grows t u) {o a : ObjectId} (h : Climbed ancestors t o a) :
    Climbed ancestors u o a :=
  ⟨grows.entered o h.1, grows.uncut o h.1 h.2.1, h.2.2⟩

/-- An object was entered before, or it is reached from objects that are tried, by a path that the
limit allows and on which the walk has climbed. -/
def Reached (ancestors : ObjectId → List ObjectId) (t u : Trail) (n : Nat) (os : List ObjectId)
    (x : ObjectId) : Prop :=
  x ∈ t.entered ∨ ∃ a ∈ os, ∃ m ≤ n, Hops (Climbed ancestors u) m a x

namespace Reached

variable {x : ObjectId}

lemma first (hx : x ∈ (t.enter o).entered) : Reached ancestors t u n (o :: os) x := by
  rcases List.mem_cons.mp hx with rfl | hx
  · exact .inr ⟨x, List.mem_cons_self, 0, Nat.zero_le n, .refl x⟩
  · exact .inl hx

lemma others (path : ∃ a ∈ os, ∃ m ≤ n, Hops (Climbed ancestors u) m a x) :
    Reached ancestors t u n (o :: os) x := by
  obtain ⟨a, ha, path⟩ := path
  exact .inr ⟨a, List.mem_cons_of_mem o ha, path⟩

lemma above (h : Reached ancestors (t.enter o) u n (ancestors o) x) (entered : o ∈ u.entered)
    (uncut : o ∉ u.cuts) : Reached ancestors t u (n + 1) (o :: os) x := by
  rcases h with hx | ⟨a, ha, m, hm, path⟩
  · exact first hx
  · exact .inr ⟨o, List.mem_cons_self, m + 1, Nat.succ_le_succ hm,
      .head ⟨entered, uncut, ha⟩ path⟩

lemma mono {v : Trail} (grows : Grows u v) (h : Reached ancestors t u n os x) :
    Reached ancestors t v n os x := by
  refine h.imp_right ?_
  rintro ⟨a, ha, m, hm, path⟩
  exact ⟨a, ha, m, hm, path.mono fun _ _ => Climbed.mono grows⟩

end Reached

/-- What a search enters can be reached on the way that it has climbed. -/
lemma Search.path (h : Search ancestors hit n t os r) (ht : t.Proper) :
    ∀ x ∈ r.2.entered, Reached ancestors t r.2 n os x := by
  induction h with
  | nil => exact fun x hx => .inl hx
  | seen _ _ ih =>
      intro x hx
      rcases ih ht x hx with before | path
      · exact .inl before
      · exact .others path
  | found => exact fun x hx => .first hx
  | cut new _ _ ih =>
      intro x hx
      rcases ih (ht.cut new) x hx with before | path
      · exact .first before
      · exact .others path
  | higher new _ climb ih =>
      intro x hx
      have uncut := climb.grows.uncut _ List.mem_cons_self (ht.not_mem_cuts new)
      exact (ih (ht.enter new) x hx).above (climb.grows.entered _ List.mem_cons_self) uncut
  | passed new _ climb rest ih ih' =>
      intro x hx
      have uncut := climb.grows.uncut _ List.mem_cons_self (ht.not_mem_cuts new)
      rcases ih' (climb.proper (ht.enter new)) x hx with before | path
      · refine Reached.mono rest.grows ?_
        exact (ih (ht.enter new) x before).above (climb.grows.entered _ List.mem_cons_self) uncut
      · exact .others path

/-- A search is cut where all hops have been taken. -/
lemma Search.cut_path (h : Search ancestors hit n t os r) :
    ∀ x ∈ r.2.cuts, x ∈ t.cuts ∨ ∃ a ∈ os, Hops (fun y b => b ∈ ancestors y) n a x := by
  induction h with
  | nil => exact fun x hx => .inl hx
  | seen _ _ ih =>
      intro x hx
      rcases ih x hx with before | ⟨a, ha, path⟩
      · exact .inl before
      · exact .inr ⟨a, List.mem_cons_of_mem _ ha, path⟩
  | found => exact fun x hx => .inl hx
  | cut _ _ _ ih =>
      intro x hx
      rcases ih x hx with before | ⟨a, ha, path⟩
      · rcases List.mem_cons.mp before with rfl | before
        · exact .inr ⟨x, List.mem_cons_self, .refl x⟩
        · exact .inl before
      · exact .inr ⟨a, List.mem_cons_of_mem _ ha, path⟩
  | higher _ _ _ ih =>
      intro x hx
      rcases ih x hx with before | ⟨a, ha, path⟩
      · exact .inl before
      · exact .inr ⟨_, List.mem_cons_self, .head ha path⟩
  | passed _ _ _ _ ih ih' =>
      intro x hx
      rcases ih' x hx with before | ⟨a, ha, path⟩
      · rcases ih x before with before | ⟨a, ha, path⟩
        · exact .inl before
        · exact .inr ⟨_, List.mem_cons_self, .head ha path⟩
      · exact .inr ⟨a, List.mem_cons_of_mem _ ha, path⟩

/-- A search without a hit enters all objects that are tried. -/
lemma Search.mem_entered (h : Search ancestors hit n t os r) (missed : r.1 = none) :
    ∀ a ∈ os, a ∈ r.2.entered := by
  induction h with
  | nil => exact fun a ha => absurd ha List.not_mem_nil
  | seen before rest ih => exact List.forall_mem_cons.mpr ⟨rest.grows.entered _ before, ih missed⟩
  | found => cases missed
  | cut _ _ rest ih =>
      exact List.forall_mem_cons.mpr ⟨rest.grows.entered _ List.mem_cons_self, ih missed⟩
  | higher => cases missed
  | passed _ _ climb rest _ ih =>
      have first := rest.grows.entered _ (climb.grows.entered _ List.mem_cons_self)
      exact List.forall_mem_cons.mpr ⟨first, ih missed⟩

/-- A search without a hit has gone on from all objects that it entered, except for those at which
it was cut. -/
lemma Search.closed (h : Search ancestors hit n t os r) (missed : r.1 = none) :
    ∀ x ∈ r.2.entered, x ∈ t.entered ∨ x ∈ r.2.cuts ∨ ∀ a ∈ ancestors x, a ∈ r.2.entered := by
  induction h with
  | nil => exact fun x hx => .inl hx
  | seen _ _ ih => exact ih missed
  | found => cases missed
  | cut _ _ rest ih =>
      intro x hx
      rcases ih missed x hx with before | done
      · rcases List.mem_cons.mp before with rfl | before
        · exact .inr (.inl (rest.grows.cuts x List.mem_cons_self))
        · exact .inl before
      · exact .inr done
  | higher => cases missed
  | passed _ _ climb rest ih ih' =>
      intro x hx
      rcases ih' missed x hx with before | done
      · -- what the climb has finished stays finished
        rcases ih rfl x before with before | cut | all
        · rcases List.mem_cons.mp before with rfl | before
          · exact .inr (.inr fun a ha => rest.grows.entered a (climb.mem_entered rfl a ha))
          · exact .inl before
        · exact .inr (.inl (rest.grows.cuts x cut))
        · exact .inr (.inr fun a ha => rest.grows.entered a (all a ha))
      · exact .inr done

/-! ## Walks -/

/-- A hop from an object at which a walk was not cut. -/
def Past (ancestors : ObjectId → List ObjectId) (cuts : List ObjectId) (o a : ObjectId) : Prop :=
  a ∈ ancestors o ∧ o ∉ cuts

/-- What a walk finds is at the end of a path that the limit allows, past all cuts. -/
lemma exists_path_of_walk {a : α} (found : (walk ancestors hit n o).1 = some a) :
    ∃ x, hit x = some a ∧
      ∃ m ≤ n, Hops (Past ancestors (walk ancestors hit n o).2.cuts) m o x := by
  have search := search_walk ancestors hit n o
  obtain ⟨x, entered, _, here⟩ := search.exists_hit found
  rcases search.path .start x entered with before | ⟨b, hb, m, hm, path⟩
  · exact absurd before List.not_mem_nil
  · rw [List.mem_singleton.mp hb] at path
    exact ⟨x, here, m, hm, path.mono fun _ _ climbed => ⟨climbed.2.2, climbed.2.1⟩⟩

/-- A walk that finds nothing has entered all that can be reached past its cuts. -/
lemma mem_entered_of_path {x : ObjectId} (missed : (walk ancestors hit n o).1 = none)
    (path : Relation.ReflTransGen (Past ancestors (walk ancestors hit n o).2.cuts) o x) :
    x ∈ (walk ancestors hit n o).2.entered := by
  have search := search_walk ancestors hit n o
  induction path with
  | refl => exact search.mem_entered missed o List.mem_cons_self
  | tail _ last ih =>
      rcases search.closed missed _ ih with before | cut | all
      · exact absurd before List.not_mem_nil
      · exact absurd cut last.2
      · exact all _ last.1

/-- A walk finds something if there is a hit at the end of some path past its cuts. -/
lemma walk_isSome_of_path {x : ObjectId} (here : (hit x).isSome)
    (path : Relation.ReflTransGen (Past ancestors (walk ancestors hit n o).2.cuts) o x) :
    (walk ancestors hit n o).1.isSome := by
  rw [Option.isSome_iff_ne_none]
  intro missed
  have entered := mem_entered_of_path missed path
  rw [walk_snd_of_miss missed] at entered
  rw [walk_fst, List.findSome?_eq_none_iff] at missed
  rw [missed x (List.mem_reverse.mpr entered)] at here
  cases here

/-- **A walk finds something exactly if there is a hit near enough past its cuts.** -/
theorem walk_isSome_iff (ancestors : ObjectId → List ObjectId) (hit : ObjectId → Option α) (n : Nat)
    (o : ObjectId) :
    (walk ancestors hit n o).1.isSome ↔ ∃ x, (hit x).isSome ∧
      ∃ m ≤ n, Hops (Past ancestors (walk ancestors hit n o).2.cuts) m o x := by
  constructor
  · intro found
    obtain ⟨a, found⟩ := Option.isSome_iff_exists.mp found
    obtain ⟨x, here, path⟩ := exists_path_of_walk found
    exact ⟨x, by rw [here]; rfl, path⟩
  · rintro ⟨x, here, m, _, path⟩
    exact walk_isSome_of_path here path.reflTransGen

/-- A walk is cut only where all hops have been taken. -/
lemma hops_of_mem_cuts {x : ObjectId} (cut : x ∈ (walk ancestors hit n o).2.cuts) :
    Hops (fun y b => b ∈ ancestors y) n o x := by
  rcases (search_walk ancestors hit n o).cut_path x cut with before | ⟨a, ha, path⟩
  · exact absurd before List.not_mem_nil
  · rw [List.mem_singleton.mp ha] at path
    exact path

/-- A path on which no object before the end was cut leads past all cuts. -/
lemma hops_past {cuts : List ObjectId} {x : ObjectId}
    (path : Hops (fun y b => b ∈ ancestors y) n o x)
    (clear : ∀ y, ∀ m < n, Hops (fun y b => b ∈ ancestors y) m o y → y ∉ cuts) :
    Hops (Past ancestors cuts) n o x := by
  induction path with
  | refl o => exact .refl o
  | head first _ ih =>
      refine .head ⟨first, clear _ 0 (Nat.succ_pos _) (.refl _)⟩ (ih fun y m less rest => ?_)
      exact clear y (m + 1) (Nat.succ_lt_succ less) (.head first rest)

end Trail

/-! ## Membership and lookup -/

namespace Heap

/-- Whether a walk under a limit meets a goal, and where it is cut.

* It meets the goal exactly if a path that the limit allows leads there past all cuts.
* It is cut only at objects to which some path takes all hops.
* If no object that is reached with hops to spare is also reached by taking all hops, it meets the
  goal exactly if some path that the limit allows leads there. -/
structure Limited (h : Heap) (limit : Nat) (o : ObjectId) (goal : ObjectId → Prop) (answer : Bool)
    (cuts : List ObjectId) : Prop where
  met : answer = true ↔
    ∃ x, goal x ∧ ∃ n ≤ limit, Hops (Trail.Past h.ancestors cuts) n o x
  cut : ∀ y ∈ cuts, Hops h.Hop limit o y
  level : (∀ y, ∀ n < limit, Hops h.Hop n o y → ¬ Hops h.Hop limit o y) →
    (answer = true ↔ ∃ x, goal x ∧ ∃ n ≤ limit, Hops h.Hop n o x)

variable (h : Heap) (hops : Nat) (o : ObjectId)

lemma limited_walk {α : Type} (hit : ObjectId → Option α) :
    h.Limited hops o (fun x => (hit x).isSome) (Trail.walk h.ancestors hit hops o).1.isSome
      (Trail.walk h.ancestors hit hops o).2.cuts := by
  have met := Trail.walk_isSome_iff h.ancestors hit hops o
  refine ⟨met, fun y => Trail.hops_of_mem_cuts, fun apart => met.trans ⟨?_, ?_⟩⟩
  · rintro ⟨x, goal, n, near, path⟩
    exact ⟨x, goal, n, near, path.mono fun _ _ past => past.1⟩
  · rintro ⟨x, goal, n, near, path⟩
    refine ⟨x, goal, n, near, Trail.hops_past path fun y m less before cut => ?_⟩
    exact apart y m (Nat.lt_of_lt_of_le less near) before (Trail.hops_of_mem_cuts cut)

lemma limited_isA (target : ObjectId) :
    h.Limited hops o (fun x => x = target) (h.isA hops o target).1
      (h.isA hops o target).2.cuts := by
  have limited := h.limited_walk hops o (sought target)
  simp only [isSome_sought_iff] at limited
  rwa [← isA_fst, ← isA_cuts] at limited

lemma isSome_own?_iff (k : Key) : (h.own? k o).isSome ↔ ∃ v, (h.slots o).find? k = some v := by
  rw [own?, Option.isSome_map, Option.isSome_iff_exists]

lemma limited_resolve? (k : Key) :
    h.Limited hops o (fun x => ∃ v, (h.slots x).find? k = some v)
      (h.resolve? hops o k).1.isSome (h.resolve? hops o k).2.cuts := by
  have limited := h.limited_walk hops o (h.own? k)
  simp only [isSome_own?_iff] at limited
  exact limited

end Heap

lemma respondsTo_run {o : ObjectId} {k : Key} (hk : k.isReserved = false) (s : State) :
    respondsTo o k s =
      .ok (s.heap.resolve? s.hops o k).1.isSome
        { s with
          journal := (s.heap.resolve? s.hops o k).2.notes (some k) s.hops ++ s.journal } := by
  rw [respondsTo, run_bind_ok (resolve_run hk s)]
  rfl

/-- **What a limited walk reaches.**  An object is found among the ancestors exactly if it is at the
end of a path that the limit allows and that leads past all objects at which the walk was cut; the
walk notes these.  An ordinary key is found exactly if an object with an own entry is at the end of
such a path.  Cuts take nothing that is near enough away unless the same object is reached by paths
of different lengths, one of which takes all hops. -/
theorem reached_iff_path_past_cuts (s : State) (o x : ObjectId) (k : Key)
    (ordinary : k.isReserved = false) :
    (∃ (answer : Bool) (cuts : List ObjectId),
      isA o x s = .ok answer
          { s with journal := cuts.map (fun y => .cut y none s.hops) ++ s.journal } ∧
        s.heap.Limited s.hops o (fun y => y = x) answer cuts) ∧
    ∃ (answer : Bool) (cuts : List ObjectId),
      respondsTo o k s = .ok answer
          { s with journal := cuts.map (fun y => .cut y (some k) s.hops) ++ s.journal } ∧
        s.heap.Limited s.hops o (fun y => ∃ v, (s.heap.slots y).find? k = some v) answer cuts := by
  constructor
  · exact ⟨_, _, isA_run o x s, s.heap.limited_isA s.hops o x⟩
  · exact ⟨_, _, respondsTo_run ordinary s, s.heap.limited_resolve? s.hops o k⟩

/-- On the detour the walk is cut at the parent, to which the way by the stepparent takes two hops.
No path to the ancestor leads past it. -/
theorem detour_cut_at_parent :
    isA 5 2 detourState = .ok false { detourState with journal := [.cut 3 none 2] } ∧
      Hops detourState.heap.Hop 2 5 3 ∧
      ¬ ∃ n ≤ 2, Hops (Trail.Past detourState.heap.ancestors [3]) n 5 2 := by
  have run : isA 5 2 detourState =
      .ok false { detourState with journal := [.cut 3 none 2] } := rfl
  obtain ⟨⟨answer, cuts, walked, limited⟩, _⟩ :=
    reached_iff_path_past_cuts detourState 5 2 (.object 1) rfl
  rw [run] at walked
  injection walked with denied ended
  have noted : [Event.cut 3 none 2] = cuts.map (fun y => .cut y none 2) ++ [] :=
    congrArg State.journal ended
  rw [List.append_nil] at noted
  obtain ⟨y, rfl, same⟩ := List.map_eq_singleton_iff.mp noted.symm
  injection same with here
  subst here denied
  refine ⟨run, limited.cut 3 List.mem_cons_self, fun near => ?_⟩
  exact Bool.false_ne_true (limited.met.mpr ⟨2, rfl, near⟩)

/-- **An ancestor that is near enough may be missed.**  Two hops are allowed and an ancestor is two
hops away, but it is denied, and its entry is not found. -/
theorem near_ancestor_missed :
    detourState.hops = 2 ∧ Hops detourState.heap.Hop 2 5 2 ∧
      (∃ t, isA 5 2 detourState = .ok false t) ∧
      (detourState.heap.slots 2).find? (.object 1) = some 1 ∧
      ∃ t, respondsTo 5 (.object 1) detourState = .ok false t := by
  have byParent : 3 ∈ detourState.heap.ancestors 5 := by decide
  have onwards : 2 ∈ detourState.heap.ancestors 3 := by decide
  exact ⟨rfl, .head byParent (.head onwards (.refl 2)), ⟨_, rfl⟩, rfl, ⟨_, rfl⟩⟩

end Prototypal
