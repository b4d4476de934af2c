import Prototypal.Proofs.Machine.Sessions
import Prototypal.Proofs.WellFormed.States

/-!
# Heaps stay well formed

A session that is carried out by careful codes hands its operations no object that is not there.
The machine has codes at hand in two places: the one that it is at work on, and those that wait in
the frames.  Both are careful with the objects that are there, and since no object is ever removed,
they stay so.

* `Frames.Careful` — the codes that wait in the frames make no objects up.
* `Config.Sound`, `Config.Sound.step` — the invariant, and that a step keeps it.
* `heap_well_formed` — the statement about sessions.
-/

namespace Prototypal

open Mentions (objects)

variable {f : Fragment} {α γ : Type}

/-- Frames whose codes make no objects up, with the objects that the outcome mentions. -/
def Frames.Careful : {α γ : Type} → Frames f α γ → Set ObjectId → (α → List ObjectId) → Prop
  | _, _, done, _, _ => True
  | _, _, next g k, K, mentioned => ∃ after,
      (∀ a, (g a).Careful (K ∪ {o | o ∈ mentioned a}) after) ∧ k.Careful K after
  | _, _, boundary _ k, K, mentioned => mentioned = objects ∧ k.Careful K mentioned
  | _, _, settling _ k, K, mentioned => k.Careful K mentioned
  | _, _, observing _ k, K, mentioned => mentioned = objects ∧ k.Careful K mentioned
  | _, _, nesting _ k, K, mentioned => k.Careful K mentioned

lemma Frames.Careful.mono {k : Frames f α γ} {K K' : Set ObjectId} {mentioned : α → List ObjectId}
    (h : k.Careful K mentioned) (larger : K ⊆ K') : k.Careful K' mentioned := by
  induction k with
  | done => trivial
  | next g k ih =>
      obtain ⟨after, codes, outer⟩ := h
      refine ⟨after, fun a => (codes a).mono ?_, ih outer⟩
      exact Set.union_subset_union_left _ larger
  | boundary m k ih => exact ⟨h.1, ih h.2⟩
  | settling hf k ih => exact ih h
  | observing hf k ih => exact ⟨h.1, ih h.2⟩
  | nesting depth k ih => exact ih h

/-! ## Outcomes at the frames -/

namespace Outcome.Sound

variable {mentioned : α → List ObjectId} {s : State}

/-- Of an interrupt only the carried value is asked. -/
lemma error {β : Type} {other : β → List ObjectId} {i : Interrupt} {t : State}
    (h : Outcome.Sound mentioned (.error i t)) : Outcome.Sound other (.error i t) :=
  h

lemma closing {r : Except Interrupt ObjectId} (m : Marker)
    (h : Outcome.Sound objects (Outcome.ofExcept r s)) :
    Outcome.Sound objects (closing m (Outcome.ofExcept r) s) := by
  rcases r with i | v
  · obtain ⟨hs, carried⟩ := h
    have left : (leaveBoundary m s).Sound := hs.same rfl rfl
    cases i with
    | escape e =>
        have value : Known (leaveBoundary m s).heap.present e.value :=
          known_id.mpr (.inr (carried e rfl))
        have land : Prototypal.closing m (Outcome.ofExcept (.error (.escape e))) s =
            e.land m (leaveBoundary m s) := rfl
        rw [land, land_run]
        split
        · split
          · exact .known (left.same rfl rfl) value
          · exact .escape left value
        · split
          · exact .known (left.same rfl rfl) value
          · exact .escape (left.same rfl rfl) value
    | _ => exact ⟨left, nofun⟩
  · obtain ⟨hs, value⟩ := h
    exact ⟨hs.same rfl rfl, value⟩

lemma settle {r : Except Interrupt α} (h : Outcome.Sound mentioned (Outcome.ofExcept r s)) :
    Outcome.Sound mentioned (settle (Outcome.ofExcept r) s) := by
  rcases r with i | a
  · cases i with
    | escape e => exact .fault h.1
    | _ => exact h
  · exact h

lemma observe {r : Except Interrupt Value} (h : Outcome.Sound objects (Outcome.ofExcept r s)) :
    Outcome.Sound objects (observe (Outcome.ofExcept r) s) := by
  rcases r with i | a
  · cases i with
    | escape e => exact .known h.1 known_host
    | fault x => exact .known h.1 known_host
    | _ => exact h
  · exact .known h.1 known_host

end Outcome.Sound

/-! ## The invariant -/

namespace Config

/-- A sound state, careful codes at hand, and an outcome whose objects are there. -/
def Sound : Config f γ → Prop
  | work c k s => s.Sound ∧ ∃ mentioned,
      c.Careful s.heap.present mentioned ∧ k.Careful s.heap.present mentioned
  | ret r k s => ∃ mentioned,
      Outcome.Sound mentioned (Outcome.ofExcept r s) ∧ k.Careful s.heap.present mentioned

lemma sound_ofOutcome {r : Outcome α} {k : Frames f α γ} {mentioned : α → List ObjectId}
    (sound : Outcome.Sound mentioned r)
    (careful : k.Careful (Outcome.final r).heap.present mentioned) : (ofOutcome r k).Sound := by
  cases r with
  | ok a t => exact ⟨mentioned, sound, careful⟩
  | error i t => exact ⟨mentioned, sound, careful⟩

lemma Sound.state {p : Config f γ} (h : p.Sound) : p.state.Sound := by
  cases p with
  | work c k s => exact h.1
  | ret r k s =>
      obtain ⟨mentioned, sound, -⟩ := h
      rcases r with i | a
      · exact sound.1
      · exact sound.1

lemma Sound.begin {c : Code f α} {k : Frames f α γ} {s : State} (h : (work c k s).Sound) :
    (Config.begin k s c).Sound := by
  obtain ⟨hs, mentioned, careful, outer⟩ := h
  cases c with
  | op act hop =>
      have larger : s.heap.present ⊆ (Outcome.final (act s)).heap.present :=
        fun _ ho => ((hop.changes s).kept ho).1
      exact sound_ofOutcome (Handed.sound careful hs) (outer.mono larger)
  | bind c g =>
      obtain ⟨between, first, rest⟩ := careful
      exact ⟨hs, between, first, mentioned, rest, outer⟩
  | attempt body =>
      obtain ⟨same, inside⟩ := careful
      have token : Known s.heap.present (Payload.marker s.nextMarker) := fun _ => nofun
      have slots : Known s.heap.present (Slots.fresh s.heap.nextId none []) :=
        known_fresh known_none (by simp)
      have opened : s.opened.Sound := (hs.added rfl slots token).same rfl rfl
      have larger : s.heap.present ⊆ s.opened.heap.present := fun _ ho => Heap.Has.add ho _
      refine ⟨opened, mentioned, (inside s.heap.nextId).mono ?_, same, outer.mono larger⟩
      rintro o (ho | ho)
      · exact larger ho
      · rw [List.mem_singleton.mp ho]
        exact s.heap.has_add _
  | settle hf c => exact ⟨hs, mentioned, careful, outer⟩
  | observe hf c => exact ⟨hs, mentioned, careful.2, careful.1, outer⟩
  | nested c =>
      rw [Config.begin]
      split
      · exact ⟨mentioned, .fault hs, outer⟩
      · exact ⟨hs.same rfl rfl, mentioned, careful, outer⟩

lemma Sound.resume {r : Except Interrupt α} {k : Frames f α γ} {s : State} {q : Config f γ}
    (h : (ret r k s).Sound) (hq : Config.resume r s k = some q) : q.Sound := by
  obtain ⟨mentioned, sound, careful⟩ := h
  -- where an outcome is handed on, the heap is as it was
  have handed : ∀ {β : Type} {r' : Outcome β} {k' : Frames f β γ} {mentioned' : β → List ObjectId},
      Outcome.Sound mentioned' r' → k'.Careful s.heap.present mentioned' →
      (Outcome.final r').heap = s.heap → (ofOutcome r' k').Sound := by
    intro β r' k' mentioned' sound' careful' heap
    refine sound_ofOutcome sound' ?_
    rw [heap]
    exact careful'
  cases k with
  | done => cases hq
  | next g k =>
      obtain ⟨after, codes, outer⟩ := careful
      rcases r with i | a
      · cases hq
        exact ⟨after, sound.error, outer⟩
      · cases hq
        refine ⟨sound.1, after, (codes a).mono ?_, outer⟩
        rintro o (ho | ho)
        · exact ho
        · exact sound.2 o ho
  | boundary m k =>
      cases hq
      obtain ⟨rfl, outer⟩ := careful
      obtain ⟨notes, -, final⟩ := final_closing m r s
      exact handed (sound.closing m) outer (by rw [final]; rfl)
  | settling hf k =>
      cases hq
      exact handed sound.settle careful (by rw [final_settle])
  | observing hf k =>
      cases hq
      obtain ⟨rfl, outer⟩ := careful
      exact handed sound.observe outer (by rw [final_observe])
  | nesting depth k =>
      cases hq
      refine ⟨mentioned, ?_, careful⟩
      rcases r with i | a
      · exact ⟨sound.1.same rfl rfl, sound.2⟩
      · exact ⟨sound.1.same rfl rfl, sound.2⟩

/-- A step keeps the invariant. -/
theorem Sound.step {p q : Config f γ} (h : p.Sound) (hstep : p.step = some q) : q.Sound := by
  cases p with
  | work c k s =>
      obtain rfl : Config.begin k s c = q := Option.some.inj hstep
      exact h.begin
  | ret r k s => exact h.resume hstep

/-- An escape is on its way out. -/
def Carries (p : Config f γ) (e : Escape) : Prop :=
  ∃ (α : Type) (k : Frames f α γ) (s : State), p = .ret (.error (.escape e)) k s

lemma Sound.carried {p : Config f γ} (h : p.Sound) {e : Escape} (carries : p.Carries e) :
    p.state.heap.Has e.value := by
  obtain ⟨α, k, s, rfl⟩ := carries
  obtain ⟨mentioned, sound, -⟩ := h
  exact sound.2 e rfl

end Config

namespace Moment

lemma sound_start (es : List Expr) : (start es).now.Sound := by
  have initial : State.initial.Sound := ⟨Heap.wellFormed_initial, by simp [State.initial]⟩
  exact ⟨objects, .known initial (known_value.mpr (known_null _)), trivial⟩

lemma CarefulStep.sound {p q : Moment} (step : p.CarefulStep q) (h : p.now.Sound) :
    q.now.Sound := by
  cases step with
  | machine es hstep => exact h.step hstep
  | next r t es hc careful =>
      have sound : t.Sound := h.state
      exact ⟨sound.same rfl rfl, objects, careful.mono (Set.empty_subset _), trivial⟩

lemma CarefullyReaches.sound {p q : Moment} (h : p.CarefullyReaches q) (hp : p.now.Sound) :
    q.now.Sound := by
  induction h with
  | refl => exact hp
  | tail _ last ih => exact last.sound ih

end Moment

/-- **Heaps stay well formed.**  A session comes through the ends of its steps; at every moment of
it, all objects stand at identities of their own that have been given out, all objects that are
mentioned, by other objects, by variables or by an escape, are there, payloads are those that the
objects were made with, and what is nested in a payload is older than what carries it.  So nesting
ends, and unfolding an object for a picture of it comes to the end. -/
theorem heap_well_formed (shown : Event → Bool) (es : List Expr) :
    (∀ past rest, es = past ++ rest →
      ∃ r, (Moment.start es).CarefullyReaches
        ⟨.ret r .done (past.foldl (fun s e => (runStep shown e s).2) .initial), rest⟩) ∧
    ∀ p, (Moment.start es).CarefullyReaches p →
      p.heap.WellFormed ∧
      (∀ o o' x y, p.heap.get? o = some x → p.heap.get? o' = some y →
        x.slots.owner = y.slots.owner → o = o') ∧
      (∀ o ∈ objects p.now.state.bindings, p.heap.Has o) ∧
      (∀ e, p.now.Carries e → p.heap.Has e.value) ∧
      (∀ q, p.Reaches q → ∀ o, p.heap.Has o →
        q.heap.Has o ∧ q.heap.payload o = p.heap.payload o) ∧
      (WellFounded fun o o' => o ∈ objects (p.heap.payload o')) ∧
      ∀ o levels, o < levels → p.heap.unfold levels o = p.heap.view o := by
  refine ⟨?_, fun p hp => ?_⟩
  · rintro past rest rfl
    exact Moment.carefullyReaches_after shown past rest _ .initial
  · have sound : p.now.Sound := hp.sound (Moment.sound_start es)
    have wf : p.heap.WellFormed := sound.state.heap
    refine ⟨wf, ?_, wf.known_iff.mp sound.state.bindings, fun e => sound.carried, ?_,
      wf.nesting, fun o levels => wf.unfold_eq_view⟩
    · intro o o' x y hx hy same
      rw [← wf.owner hx, ← wf.owner hy, same]
    · exact fun q hq o ho => hq.changes.kept ho

end Prototypal
