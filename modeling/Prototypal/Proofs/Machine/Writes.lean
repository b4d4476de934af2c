import Prototypal.Proofs.Machine.Sessions

/-!
# Writes that ask, and operations that do not

Most operations change a heap only as its slots allow: they make objects, write under keys that are
not readonly, or protect a key.  Three operations do not ask for readonly keys.  A copy takes slots
over as they are.  Giving an object a parent, or another stepparent, asks for the seal alone.

* `Heap.Write`, `Heap.Writes` — the changes that ask.
* `Bypass` — the operations that do not.
* `Moment.AboutTo` — the operation that a session comes to next, and what it does to the heap.
* `Moment.Step.writes_or_bypass` — a step of a session does one or the other.
-/

namespace Prototypal

/-- One change of a heap that keeps to readonly keys. -/
inductive Heap.Write (h : Heap) : Heap → Prop where
  | make (p : Payload) (parent : Option ObjectId) (stepparents : List ObjectId) :
      Write h (h.make p parent stepparents)
  | skip : Write h h.skip
  | put (o : ObjectId) (k : Key) (v : ObjectId) (slots : Slots)
      (writable : (h.slots o).isReadonly k = false)
      (stored : (h.slots o).put k v (h.payload v) = some slots) : Write h (h.setSlots o slots)
  | take (o : ObjectId) (k : Key) (writable : (h.slots o).isReadonly k = false) :
      Write h (h.setSlots o ((h.slots o).take k).2)
  | protect (o : ObjectId) (k : Key) (unsealed : (h.slots o).isSealed = false) :
      Write h (h.setSlots o ((h.slots o).protect k))

/-- Any number of such changes. -/
def Heap.Writes : Heap → Heap → Prop :=
  Relation.ReflTransGen Heap.Write

lemma Heap.Grows.writes {h h' : Heap} (grows : h.Grows h') : h.Writes h' := by
  induction grows with
  | refl => exact .refl
  | tail _ last ih =>
      obtain ⟨p, rfl⟩ := last
      exact ih.tail (.make p none [])

/-- The operations that change slots without asking for readonly keys. -/
inductive Bypass : {α : Type} → Run α → Prop where
  | copy (o : ObjectId) : Bypass (copy o)
  | setParent (o : ObjectId) (parent : Option ObjectId) : Bypass (setParent o parent)
  | pushStepparent (o stepparent : ObjectId) : Bypass (pushStepparent o stepparent)

/-! ## Operations -/

/-- Computations that change the heap by writes. -/
def Writing {α : Type} (act : Run α) : Prop :=
  ∀ s : State, s.heap.Writes (Outcome.final (act s)).heap

namespace Writing

variable {α : Type}

lemma still {act : Run α} (same : ∀ s, (Outcome.final (act s)).heap = s.heap) : Writing act := by
  intro s
  rw [same s]
  exact .refl

lemma slotSet (o : ObjectId) (k : Key) (v : ObjectId) : Writing (slotSet o k v) := by
  intro s
  rw [slotSet_run]
  split
  · exact .refl
  · rename_i writable
    split
    · rename_i slots stored
      exact .single (.put o k v slots (Bool.of_not_eq_true writable) stored)
    · exact .refl

lemma slotDelete (o : ObjectId) (k : Key) : Writing (slotDelete o k) := by
  intro s
  rw [slotDelete_run]
  split
  · exact .refl
  · rename_i writable
    -- the object for the entry is made after the entry was taken out
    obtain ⟨a, h', grows, run⟩ :=
      Makes.takenObject ((s.heap.slots o).take k).1 (s.taken o k).heap (s.taken o k).names
    rw [run (s.taken o k) rfl rfl]
    exact .head (.take o k (Bool.of_not_eq_true writable)) grows.writes

lemma makeReadonly (o : ObjectId) (k : Key) : Writing (makeReadonly o k) := by
  intro s
  rw [Prototypal.makeReadonly, unlessSealed_run]
  split
  · exact .refl
  · rename_i unsealed
    exact .single (.protect o k (Bool.of_not_eq_true unsealed))

end Writing

lemma Basic.writing_or_bypass {f : Fragment} {α : Type} {act : Run α} (h : Basic f act) :
    Writing act ∨ Bypass act := by
  cases h with
  | look | valueOf | note | assign | emit | fail => exact .inl (.still fun _ => rfl)
  | intern text => exact .inl (.still (intern_heap text))
  | makeWith p parent stepparents hp => exact .inl fun s => .single (.make p parent stepparents)
  | makeClosure b hb => exact .inl fun s => .single (.make _ none [])
  | copy o => exact .inr (.copy o)
  | skipId => exact .inl fun s => .single .skip
  | slotSet o k v => exact .inl (.slotSet o k v)
  | slotDelete o k => exact .inl (.slotDelete o k)
  | makeReadonly o k => exact .inl (.makeReadonly o k)
  | setParent o parent => exact .inr (.setParent o parent)
  | pushStepparent o stepparent => exact .inr (.pushStepparent o stepparent)
  | resolve o k hk => exact .inl (.still (Walk.resolve o k hk).heap_final)
  | resolveAbove o k => exact .inl (.still (Walk.resolveAbove o k).heap_final)
  | isA o target => exact .inl (.still (Walk.isA o target).heap_final)

lemma Elementary.writing_or_bypass {f : Fragment} {α : Type} {act : Run α}
    (h : Elementary f act) : Writing act ∨ Bypass act := by
  cases h with
  | basic h => exact h.writing_or_bypass
  | look | violated | setStrictness | raise => exact .inl (.still fun _ => rfl)
  | fixSettings _ =>
      refine .inl (.still fun s => ?_)
      rw [fixSettings_run]
      cases s.fixed <;> rfl
  | returnLevels n v =>
      refine .inl (.still fun s => ?_)
      rw [returnLevels_run]
      split <;> rfl
  | returnTo token v =>
      refine .inl (.still fun s => ?_)
      rw [returnTo_run]
      split
      · rfl
      · split <;> rfl

/-! ## Moments -/

namespace Moment

variable {p q : Moment} {α : Type} {act : Run α}

/-- An operation is to be carried out next. -/
def AboutTo (p : Moment) {α : Type} (act : Run α) : Prop :=
  ∃ (op : Elementary .full act) (frames : Frames .full α Value) (s : State),
    p.now = .work (.op act op) frames s

lemma AboutTo.exists_step (h : p.AboutTo act) : ∃ q, p.Step q := by
  obtain ⟨now, rest⟩ := p
  obtain ⟨op, frames, s, rfl⟩ := h
  exact ⟨_, .machine rest rfl⟩

lemma Step.heap_of_aboutTo (step : p.Step q) (h : p.AboutTo act) :
    q.heap = (Outcome.final (act p.now.state)).heap := by
  obtain ⟨op, frames, s, now⟩ := h
  cases step with
  | machine es hstep =>
      obtain rfl := now
      obtain rfl := Option.some.inj hstep
      exact congrArg State.heap (Config.state_ofOutcome (act s) frames)
  | next r t es hc => cases now

/-- A step keeps to readonly keys, or it is one of the operations that do not ask for them. -/
theorem Step.writes_or_bypass (step : p.Step q) :
    p.heap.Writes q.heap ∨ ∃ (β : Type) (act : Run β), Bypass act ∧ p.AboutTo act := by
  cases step with
  | next r t es hc => exact .inl .refl
  | machine es hstep =>
      cases Config.moves_of_step hstep with
      | elementary act h k s =>
          rcases h.writing_or_bypass with writing | bypass
          · left
            have heap : heap ⟨Config.ofOutcome (act s) k, es⟩ = (Outcome.final (act s)).heap :=
              congrArg State.heap (Config.state_ofOutcome (act s) k)
            rw [heap]
            exact writing s
          · exact .inr ⟨_, act, bypass, h, k, s, rfl⟩
      | idle state => exact .inl (by simp only [heap, state]; exact .refl)
      | opened state =>
          left
          simp only [heap, state]
          exact .single (.make _ none [])
      | left m notes plain state => exact .inl (by simp only [heap, state]; exact .refl)
      | deeper state => exact .inl (by simp only [heap, state]; exact .refl)
      | shallower depth state => exact .inl (by simp only [heap, state]; exact .refl)

end Moment

end Prototypal
