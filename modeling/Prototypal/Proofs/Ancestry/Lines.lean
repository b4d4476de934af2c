import Prototypal.Proofs.Ancestry.Locality

/-!
# One holder above the other

Lookup finds a holder, lookup above that holder finds the next one, and so on.

**On a line,** where every object has a parent at most and no stepparents, lookup goes through the
objects of the line in order (`Line.order_eq`), and lookup above an object through those after it
(`Line.resolveAbove?_fst`).  So the holders come one after the other as they stand on the line, with
none left out.

**On other graphs** stepparents are asked first, and holders may be left out.  But each holder is
reached from the one before by at least one hop, so where all paths are within the limit, no holder
comes twice and the holders come to an end: `Ascends.not_again`, `Ascends.ends`.
-/

namespace Prototypal

namespace Heap

variable {h : Heap} {hops : Nat} {o x : ObjectId} {k : Key} {line rest : List ObjectId}

/-! ## Lines -/

/-- An object and its ancestors, one by one: each of them has no stepparents, and the next one is its
parent. -/
inductive Line (h : Heap) : ObjectId → List ObjectId → Prop where
  | last {o : ObjectId} (noSteps : (h.slots o).stepparents = [])
      (noParent : (h.slots o).parent = none) : Line h o [o]
  | child {o p : ObjectId} {line : List ObjectId} (noSteps : (h.slots o).stepparents = [])
      (parent : (h.slots o).parent = some p) (above : Line h p line) : Line h o (o :: line)

namespace Line

lemma unique {line' : List ObjectId} (is : h.Line o line) (is' : h.Line o line') :
    line = line' := by
  induction is generalizing line' with
  | last _ noParent =>
      cases is' with
      | last => rfl
      | child _ parent =>
          rw [noParent] at parent
          cases parent
  | child _ parent _ ih =>
      cases is' with
      | last _ noParent =>
          rw [noParent] at parent
          cases parent
      | child _ parent' above' =>
          rw [parent] at parent'
          cases parent'
          rw [ih above']

/-- From each of its objects on, a line is a line. -/
lemma of_suffix (is : h.Line o line) (later : x :: rest <:+ line) : h.Line x (x :: rest) := by
  induction is with
  | @last o noSteps noParent =>
      have same : x :: rest = [o] := later.eq_of_length_le (by simp)
      cases same
      exact .last noSteps noParent
  | child noSteps parent above ih =>
      rcases List.suffix_cons_iff.mp later with same | later
      · cases same
        exact .child noSteps parent above
      · exact ih later

/-- No object is twice on a line, since the line from there on would be part of itself. -/
lemma nodup (is : h.Line o line) : line.Nodup := by
  induction is with
  | last => exact List.nodup_singleton _
  | @child o p line noSteps parent above ih =>
      refine List.nodup_cons.mpr ⟨fun again => ?_, ih⟩
      obtain ⟨before, after, split⟩ := List.append_of_mem again
      have later : o :: after <:+ line := ⟨before, split.symm⟩
      have same := (above.of_suffix later).unique (.child noSteps parent above)
      have shorter := later.length_le
      rw [same, List.length_cons] at shorter
      omega

/-- A search without hits goes along the line, if the line is new to it and within the limit. -/
lemma search {t : Trail} {n : Nat} (is : h.Line o line) (fits : line.length ≤ n + 1)
    (new : ∀ x ∈ line, x ∉ t.entered) :
    ∃ cuts, Trail.Search h.ancestors (fun _ => (none : Option Unit)) n t [o]
      (none, ⟨line.reverse ++ t.entered, cuts⟩) := by
  induction is generalizing t n with
  | @last o noSteps noParent =>
      have first := new o List.mem_cons_self
      cases n with
      | zero => exact ⟨_, .cut first rfl .nil⟩
      | succ n =>
          refine ⟨t.cuts, .passed first rfl (u := t.enter o) ?_ .nil⟩
          rw [ancestors, Slots.ancestors, noSteps, noParent]
          exact .nil
  | @child o p line noSteps parent above ih =>
      have first := new o List.mem_cons_self
      have once := (Line.child noSteps parent above).nodup
      cases n with
      | zero =>
          -- no line is empty, so there is no room for the parent
          cases above <;> simp at fits
      | succ n =>
          have later : ∀ x ∈ line, x ∉ (t.enter o).entered := by
            intro x hx
            refine List.not_mem_cons_of_ne_of_not_mem ?_ (new x (List.mem_cons_of_mem o hx))
            rintro rfl
            exact (List.nodup_cons.mp once).1 hx
          obtain ⟨cuts, climb⟩ := ih (Nat.le_of_succ_le_succ fits) later
          refine ⟨cuts, .passed first rfl (u := ⟨(o :: line).reverse ++ t.entered, cuts⟩) ?_ .nil⟩
          rw [ancestors, Slots.ancestors, noSteps, parent, List.reverse_cons, List.append_assoc]
          exact climb

/-- Lookup goes through the objects of a line in order. -/
lemma order_eq (is : h.Line o line) (fits : line.length ≤ hops + 1) : h.order hops o = line := by
  obtain ⟨cuts, search⟩ := is.search (t := .start) fits fun _ _ => List.not_mem_nil
  rw [order, Trail.order, Trail.full, Trail.search_iff.mp search]
  simp [Trail.start]

lemma resolve?_fst (is : h.Line o line) (fits : line.length ≤ hops + 1) :
    (h.resolve? hops o k).1 = line.findSome? (h.own? k) := by
  rw [Heap.resolve?_fst, is.order_eq fits]

/-- Lookup above an object goes through the objects after it. -/
lemma resolveAbove?_fst (is : h.Line o (o :: rest)) (fits : (o :: rest).length ≤ hops + 1) :
    (h.resolveAbove? hops o k).1 = rest.findSome? (h.own? k) := by
  have away : o ∉ rest := (List.nodup_cons.mp is.nodup).1
  have walk : (h.resolveAbove? hops o k).1 = (o :: rest).findSome? (h.foreign? k o) := by
    rw [resolveAbove?_eq_walk, Trail.walk_fst, ← is.order_eq fits]
    rfl
  have skipped : h.foreign? k o o = none := if_pos rfl
  rw [walk, List.findSome?_cons, skipped, ← own?_withoutOwn]
  exact (h.touches_withoutOwn o k).findSome?_of_not_mem away

end Line

/-! ## Any graph -/

/-- What lookup above an object finds, it finds at another object that it goes through. -/
lemma mem_order_of_resolveAbove? {f : Found} (found : (h.resolveAbove? hops o k).1 = some f) :
    f.holder ∈ h.order hops o ∧ f.holder ≠ o := by
  have other := h.holder_ne_of_resolveAbove? hops o k found
  rw [← resolve?_withoutOwn] at found
  have there := (mem_order_of_resolve? found).1
  rw [(h.touches_withoutOwn o k).order] at there
  exact ⟨there, other⟩

/-- Wherever an object leads, the paths are within the same bound, and they are shorter if it is not
the object itself. -/
lemma HopsWithin.of_transGen {n : Nat} (bounded : h.HopsWithin n o)
    (path : Relation.TransGen h.Hop o x) : ∃ m, m + 1 ≤ n ∧ h.HopsWithin m x := by
  induction path with
  | single hop =>
      cases n with
      | zero => exact absurd hop bounded.not_hop
      | succ n => exact ⟨n, Nat.le_refl _, bounded.hop hop⟩
  | tail _ hop ih =>
      obtain ⟨m, less, within⟩ := ih
      cases m with
      | zero => exact absurd hop within.not_hop
      | succ m => exact ⟨m, by omega, within.hop hop⟩

lemma HopsWithin.not_transGen {n : Nat} (bounded : h.HopsWithin n o) :
    ¬ Relation.TransGen h.Hop o o := by
  intro round
  obtain ⟨a, hop, back⟩ := Relation.TransGen.head'_iff.mp round
  exact bounded.not_reaches hop back

/-- A holder found above an object lies a hop away at least. -/
lemma HopsWithin.transGen_of_resolveAbove? {f : Found} (bounded : h.HopsWithin hops o)
    (found : (h.resolveAbove? hops o k).1 = some f) : Relation.TransGen h.Hop o f.holder := by
  obtain ⟨there, other⟩ := mem_order_of_resolveAbove? found
  have path := bounded.isA_iff_reaches.mp ((isA_fst_iff ..).mpr there)
  exact (Relation.reflTransGen_iff_eq_or_transGen.mp path).resolve_left other

end Heap

/-- What lookup finds, and then lookup above the last holder, again and again as long as there is
one. -/
structure Ascends (s : State) (o : ObjectId) (k : Key) (found : Nat → Option Found) : Prop where
  first : Yields (resolve o k) s (found 0)
  next : ∀ n f, found n = some f → Yields (resolveAbove f.holder k) s (found (n + 1))
  ended : ∀ n, found n = none → found (n + 1) = none

/-- What is found at each turn. -/
def State.ascent (s : State) (o : ObjectId) (k : Key) : Nat → Option Found
  | 0 => (s.heap.resolve? s.hops o k).1
  | n + 1 => (s.ascent o k n).bind fun f => (s.heap.resolveAbove? s.hops f.holder k).1

namespace Ascends

variable {s : State} {o : ObjectId} {k : Key} {found : Nat → Option Found}

lemma ascent (ordinary : k.isReserved = false) (s : State) (o : ObjectId) :
    Ascends s o k (s.ascent o k) where
  first := (resolve_yields_iff ordinary).mpr rfl
  next n f here := by
    rw [resolveAbove_yields_iff ordinary, State.ascent, here]
    rfl
  ended n missing := by
    rw [State.ascent, missing]
    rfl

variable (ascends : Ascends s o k found) (ordinary : k.isReserved = false)
include ascends ordinary

/-- The next holder is reached from the one before, by one hop at least. -/
lemma transGen_succ {n m : Nat} {f g : Found} (here : found n = some f)
    (later : found (n + 1) = some g) (bounded : s.heap.HopsWithin m f.holder) (less : m ≤ s.hops) :
    Relation.TransGen s.heap.Hop f.holder g.holder := by
  have above := (resolveAbove_yields_iff ordinary).mp (ascends.next n f here)
  rw [later] at above
  exact (bounded.mono less).transGen_of_resolveAbove? above

variable (bounded : s.heap.HopsWithin s.hops o)
include bounded

/-- With each turn one hop less is left above the holder. -/
lemma within (n : Nat) {f : Found} (here : found n = some f) :
    ∃ m, m + n ≤ s.hops ∧ s.heap.HopsWithin m f.holder := by
  induction n generalizing f with
  | zero =>
      have first := (resolve_yields_iff ordinary).mp ascends.first
      rw [here] at first
      have there := (Heap.mem_order_of_resolve? first).1
      have path := bounded.isA_iff_reaches.mp ((Heap.isA_fst_iff ..).mpr there)
      rcases Relation.reflTransGen_iff_eq_or_transGen.mp path with same | path
      · rw [same]
        exact ⟨s.hops, Nat.le_refl _, bounded⟩
      · obtain ⟨m, less, within⟩ := bounded.of_transGen path
        exact ⟨m, by omega, within⟩
  | succ n ih =>
      cases last : found n with
      | none =>
          rw [ascends.ended n last] at here
          cases here
      | some g =>
          obtain ⟨m, less, within⟩ := ih last
          have path := ascends.transGen_succ ordinary last here within (by omega)
          obtain ⟨m', less', within'⟩ := within.of_transGen path
          exact ⟨m', by omega, within'⟩

/-- A later holder is reached from an earlier one, by one hop at least. -/
lemma transGen (n m : Nat) {f g : Found} (here : found n = some f)
    (later : found (n + m + 1) = some g) : Relation.TransGen s.heap.Hop f.holder g.holder := by
  induction m generalizing g with
  | zero =>
      obtain ⟨i, less, within⟩ := ascends.within ordinary bounded n here
      exact ascends.transGen_succ ordinary here later within (by omega)
  | succ m ih =>
      cases last : found (n + m + 1) with
      | none =>
          have missing := ascends.ended _ last
          rw [show n + (m + 1) + 1 = n + m + 1 + 1 from rfl, missing] at later
          cases later
      | some b =>
          obtain ⟨i, less, within⟩ := ascends.within ordinary bounded _ last
          exact (ih last).trans (ascends.transGen_succ ordinary last later within (by omega))

/-- No holder comes twice. -/
lemma not_again {i j : Nat} (before : i < j) {f g : Found} (here : found i = some f)
    (later : found j = some g) : f.holder ≠ g.holder := by
  obtain ⟨m, rfl⟩ := Nat.exists_eq_add_of_lt before
  have path := ascends.transGen ordinary bounded i m here later
  obtain ⟨n, _, within⟩ := ascends.within ordinary bounded i here
  intro same
  rw [← same] at path
  exact within.not_transGen path

/-- The holders come to an end. -/
lemma ends : found (s.hops + 1) = none := by
  rw [Option.eq_none_iff_forall_ne_some]
  intro f here
  obtain ⟨m, less, _⟩ := ascends.within ordinary bounded _ here
  omega

end Ascends

end Prototypal
