import Prototypal.Proofs.Ancestry.Paths
import Prototypal.Proofs.Control

/-!
# The walk computes the naive lookup

The rule for looking up an attribute is a plain recursion: the own entry, else the first hit among
the stepparents in order, each looked up by the same rule, else the parent, looked up by the same
rule.  `Heap.naive?` is this recursion as it stands.  It remembers nothing and has no limit, so on
a cyclic graph it need not end.

The walk that is carried out prunes every second visit.  `resolve_eq_naive` says that this changes
nothing wherever the limit is not exceeded: the two find the same value on the same holder.

**The invariant.**  A walk that has come to an object has already entered others.  Those of them
that can be reached from the object have been searched in vain (`Heap.Vain`), so looking at them
again would yield nothing, and leaving them out is harmless.  An object that the walk is still
inside of cannot be reached, since paths are bounded.
-/

namespace Prototypal

namespace Heap

/-- Lookup by plain recursion.  The outer option is empty if the recursion does not end. -/
def naive? (h : Heap) (k : Key) (o : ObjectId) : Option (Option Found) :=
  match h.own? k o with
  | some x => some (some x)
  | none => do
    match ← (h.slots o).stepparents.findSomeM? (h |>.naive? k) with
    | some x => return some x
    | none =>
      match (h.slots o).parent with
      | some p => h |>.naive? k p
      | none => return none
partial_fixpoint

variable {h : Heap} {k : Key} {o : ObjectId}

lemma naive?_of_own {x : Found} (hx : h.own? k o = some x) : h.naive? k o = some (some x) := by
  rw [naive?, hx]

/-- Without an own entry, the ancestors are asked in order. -/
lemma naive?_of_not_own (hx : h.own? k o = none) :
    h.naive? k o = (h.ancestors o).findSomeM? (h.naive? k) := by
  rw [naive?, hx, ancestors, Slots.ancestors]
  induction (h.slots o).stepparents with
  | nil =>
      cases (h.slots o).parent with
      | none => rfl
      | some p =>
          show h.naive? k p = List.findSomeM? (h.naive? k) [p]
          rw [List.findSomeM?_cons]
          cases h.naive? k p with
          | none => rfl
          | some r => cases r <;> rfl
  | cons a os ih =>
      rw [List.cons_append, List.findSomeM?_cons, List.findSomeM?_cons]
      cases h.naive? k a with
      | none => rfl
      | some r =>
          cases r with
          | some x => rfl
          | none => exact ih

/-- Every object that a walk has entered and that can be reached from here was searched in vain. -/
def Vain (h : Heap) (k : Key) (t : Trail) (o : ObjectId) : Prop :=
  ∀ x ∈ t.entered, h.Reaches o x → h.naive? k x = some none

/-- What a part of a walk has to do: find what the naive lookup finds, and if that is nothing, have
entered only objects that were searched in vain. -/
structure Searched (h : Heap) (k : Key) (t : Trail) (r : Option Found × Trail)
    (wanted : Option (Option Found)) : Prop where
  found : wanted = some r.1
  vain : r.1 = none → ∀ x ∈ r.2.entered, x ∈ t.entered ∨ h.naive? k x = some none

/-- Entering an object does no harm to the search of its ancestors: from them it cannot be
reached. -/
lemma Vain.enter {n : Nat} {t : Trail} {a : ObjectId} (ho : h.HopsWithin n o) (hop : h.Hop o a)
    (ht : h.Vain k t o) : h.Vain k (t.enter o) a := by
  intro x hx reached
  rcases List.mem_cons.mp hx with rfl | hx
  · exact absurd reached (ho.not_reaches hop)
  · exact ht x hx (.head hop reached)

/-- One visit, given what climbing on from the object does. -/
lemma searched_visit {climb : Trail → ObjectId → Option Found × Trail} {t : Trail}
    (ht : h.Vain k t o)
    (hclimb : h.own? k o = none →
      h.Searched k (t.enter o) (climb (t.enter o) o) (h.naive? k o)) :
    h.Searched k t (Trail.visit (h.own? k) climb t o) (h.naive? k o) := by
  unfold Trail.visit
  by_cases before : o ∈ t.entered
  · rw [if_pos before]
    -- pruned: the object was searched in vain, so the naive lookup finds nothing either
    exact ⟨ht o before .refl, fun _ x hx => .inl hx⟩
  · rw [if_neg before]
    cases own : h.own? k o with
    | some x => exact ⟨naive?_of_own own, nofun⟩
    | none =>
        obtain ⟨found, vain⟩ := hclimb own
        refine ⟨found, fun hr x hx => ?_⟩
        rcases vain hr x hx with hx | hx
        · rcases List.mem_cons.mp hx with rfl | hx
          · exact .inr (found.trans (congrArg some hr))
          · exact .inl hx
        · exact .inr hx

/-- Ancestors tried in order, given what trying one does. -/
lemma searched_firstOf {attempt : Trail → ObjectId → Option Found × Trail} (os : List ObjectId)
    {t : Trail} (ht : ∀ a ∈ os, h.Vain k t a)
    (hattempt : ∀ a ∈ os, ∀ u : Trail, h.Vain k u a →
      h.Searched k u (attempt u a) (h.naive? k a)) :
    h.Searched k t (Trail.firstOf attempt t os) (os.findSomeM? (h.naive? k)) := by
  induction os generalizing t with
  | nil => exact ⟨rfl, fun _ x hx => .inl hx⟩
  | cons a os ih =>
      obtain ⟨found, vain⟩ := hattempt a List.mem_cons_self t (ht a List.mem_cons_self)
      rw [List.findSomeM?_cons, found]
      cases hr : attempt t a with
      | mk r u =>
          rw [hr] at vain
          rw [Trail.firstOf, hr]
          cases r with
          | some x => exact ⟨rfl, nofun⟩
          | none =>
              -- what the failed attempt entered counts as searched for the ancestors after it
              have hu : ∀ b ∈ os, h.Vain k u b := by
                intro b hb x hx reached
                rcases vain rfl x hx with hx | hx
                · exact ht b (List.mem_cons_of_mem a hb) x hx reached
                · exact hx
              obtain ⟨found', vain'⟩ := ih hu fun b hb => hattempt b (List.mem_cons_of_mem a hb)
              refine ⟨found', fun hr x hx => ?_⟩
              rcases vain' hr x hx with hx | hx
              · exact vain rfl x hx
              · exact .inr hx

/-- The walk through the ancestors of an object whose paths the limit does not cut. -/
lemma searched_above {n : Nat} {t : Trail} (ho : h.HopsWithin n o) (own : h.own? k o = none)
    (ht : ∀ a, h.Hop o a → h.Vain k t a) :
    h.Searched k t (Trail.above h.ancestors (h.own? k) n t o) (h.naive? k o) := by
  induction n generalizing o t with
  | zero =>
      have none : h.ancestors o = [] := List.eq_nil_iff_forall_not_mem.mpr fun a => ho.not_hop
      rw [naive?_of_not_own own, none]
      exact ⟨rfl, fun _ x hx => .inl hx⟩
  | succ n ih =>
      rw [naive?_of_not_own own, Trail.above]
      refine searched_firstOf (h.ancestors o) ht fun a ha u hu => ?_
      have short : h.HopsWithin n a := ho.hop ha
      exact searched_visit hu fun own => ih short own fun b hb => hu.enter short hb

/-- The whole walk. -/
lemma searched_walk {n : Nat} (ho : h.HopsWithin n o) :
    h.Searched k .start (h.resolve? n o k) (h.naive? k o) := by
  have fresh : h.Vain k .start o := fun x hx => absurd hx List.not_mem_nil
  exact searched_visit fresh fun own => searched_above ho own fun a ha => fresh.enter ho ha

end Heap

/-- **The walk computes the naive lookup.**  If no ancestor path from an object is longer than the
limit, the plain recursion ends, and looking an ordinary key up yields exactly what it yields: the
same value on the same holder, or nothing.  Of the state only the journal changes, by notes about
where the walk was cut. -/
theorem resolve_eq_naive (s : State) (o : ObjectId) (k : Key) (ordinary : k.isReserved = false)
    (bounded : s.heap.HopsWithin s.hops o) :
    ∃ (found : Option Found) (cuts : List ObjectId),
      s.heap.naive? k o = some found ∧
        resolve o k s =
          .ok found { s with
            journal := cuts.map (fun x => .cut x (some k) s.hops) ++ s.journal } := by
  have searched := Heap.searched_walk (k := k) bounded
  exact ⟨_, _, searched.found, resolve_run ordinary s⟩

/-- A diamond: the last object has two stepparents, which have one parent in common, and the parent
itself for its own parent.  Only the second stepparent has an entry. -/
def diamond : Heap where
  objects := #[none, some ⟨.null, .sealed nullId⟩,
    some ⟨.plain, .fresh 2 none []⟩,
    some ⟨.plain, .fresh 3 (some 2) []⟩,
    some ⟨.plain, { Slots.fresh 4 (some 2) [] with table := [(.object 1, 1)] }⟩,
    some ⟨.plain, .fresh 5 (some 2) [3, 4]⟩]

/-- In the diamond every ancestor is older than its descendant. -/
lemma diamond_older (o a : ObjectId) (hop : diamond.Hop o a) : a < o := by
  have older : ∀ o < 6, ∀ a ∈ diamond.ancestors o, a < o := by decide
  match o with
  | 0 | 1 | 2 | 3 | 4 | 5 => exact older _ (by decide) a hop
  | n + 6 => exact absurd hop List.not_mem_nil

/-- In the diamond the entry is found on the second stepparent, past the pruned common parent. -/
theorem resolve_diamond :
    diamond.naive? (.object 1) 5 = some (some ⟨4, 1⟩) ∧
      ∃ t, resolve 5 (.object 1) { State.initial with heap := diamond } = .ok (some ⟨4, 1⟩) t := by
  have bounded : diamond.HopsWithin 256 5 :=
    (Heap.hopsWithin_of_older diamond_older 5).mono (by decide)
  obtain ⟨found, cuts, naive, walked⟩ :=
    resolve_eq_naive { State.initial with heap := diamond } 5 (.object 1) rfl bounded
  have holder : found = some ⟨4, 1⟩ := by
    have walk : resolve 5 (.object 1) { State.initial with heap := diamond } =
        .ok (some ⟨4, 1⟩) { State.initial with heap := diamond } := rfl
    rw [walk] at walked
    injection walked with same
    exact same.symm
  subst holder
  exact ⟨naive, _, walked⟩

end Prototypal
