import Prototypal.Proofs.Control
import Prototypal.Proofs.Discipline

/-!
# Accesses between their checks

A check looks, and reports what it found: it makes a note, or it fails.  So whatever holds of these
parts, and is closed under sequencing, holds of an access between its checks if it holds of the
access.  `Sequential.checkedAt` says this once for all such properties.

`checked_ok` is about accesses that succeed: they were carried out, and the checks left the heap and
the settings alone.
-/

namespace Prototypal

/-- An access with the checks that a strictness demands. -/
def checkedBy {α : Type} (l : Strictness) (receiver : ObjectId) (r : Request)
    (produced : α → Option ObjectId) (act : Run α) : Run α :=
  if l.isEnabled then checkedAt l receiver r produced act else act

/-- An access looks at the strictness, and goes on as that demands. -/
lemma checked_eq_look {α : Type} (receiver : ObjectId) (r : Request)
    (produced : α → Option ObjectId) (act : Run α) :
    checked receiver r produced act =
      (do checkedBy (← get).strictness receiver r produced act) := by
  funext s
  rw [checked_run]
  show _ = checkedBy s.strictness receiver r produced act s
  rw [checkedBy]
  split <;> rfl

/-- Properties of computations that the parts of a check have, and that are closed under
sequencing. -/
structure Sequential (P : {α : Type} → Run α → Prop) : Prop where
  bind : ∀ {α β : Type} {act : Run α} {next : α → Run β},
    P act → (∀ a, P (next a)) → P (act >>= next)
  ofPure : ∀ {α : Type} (a : α), P (pure a)
  look : ∀ {α : Type} (g : Heap → Names → α), P (do let s ← get; return g s.heap s.names)
  isA : ∀ o target : ObjectId, P (isA o target)
  violated : ∀ v : Violation, P (note (.violated v))
  fail : ∀ x : Fault, P (fail x : Run Unit)

namespace Sequential

variable {P : {α : Type} → Run α → Prop} (hP : Sequential P)
include hP

lemma inspection {α : Type} {act : Run α} (h : Inspection act) : P act := by
  induction h with
  | ofPure a => exact hP.ofPure a
  | look g => exact hP.look g
  | isA o target => exact hP.isA o target
  | bind _ _ hact hnext => exact hP.bind hact hnext

lemma report (l : Strictness) (v : Violation) : P (report l v) := by
  cases l with
  | off => exact hP.ofPure ()
  | warn => exact hP.violated v
  | strict => exact hP.fail _

lemma reportBefore (l : Strictness) (receiver : ObjectId) (r : Request) :
    P (reportBefore l receiver r) := by
  refine hP.bind (hP.inspection (.checkBefore receiver r)) fun vs => ?_
  induction vs with
  | nil => exact hP.ofPure ()
  | cons v vs ih => exact hP.bind (hP.report l v) fun _ => ih

lemma reportAfter (l : Strictness) (receiver : ObjectId) (r : Request)
    (produced : Option ObjectId) : P (reportAfter l receiver r produced) := by
  refine hP.bind (hP.inspection (.checkAfter receiver r produced)) fun v => ?_
  cases v with
  | none => exact hP.ofPure ()
  | some v => exact hP.report l v

lemma checkedAt (l : Strictness) (receiver : ObjectId) (r : Request) {α : Type}
    (produced : α → Option ObjectId) {act : Run α} (h : P act) :
    P (checkedAt l receiver r produced act) := by
  refine hP.bind (hP.reportBefore l receiver r) fun _ => hP.bind h fun a => ?_
  exact hP.bind (hP.reportAfter l receiver r (produced a)) fun _ => hP.ofPure a

lemma checkedBy (l : Strictness) (receiver : ObjectId) (r : Request) {α : Type}
    (produced : α → Option ObjectId) {act : Run α} (h : P act) :
    P (checkedBy l receiver r produced act) := by
  rw [Prototypal.checkedBy]
  split
  · exact hP.checkedAt l receiver r produced h
  · exact h

end Sequential

/-! ## Accesses that succeed -/

/-- Computations that leave the heap and the settings as they are, however they end. -/
def Idle {α : Type} (act : Run α) : Prop :=
  ∀ s, (Outcome.final (act s)).heap = s.heap ∧ (Outcome.final (act s)).fixed = s.fixed

namespace Idle

lemma bind {α β : Type} {act : Run α} {next : α → Run β} (hact : Idle act)
    (hnext : ∀ a, Idle (next a)) : Idle (act >>= next) := by
  intro s
  have first := hact s
  rw [run_bind]
  cases hr : act s with
  | ok a t =>
      rw [hr] at first
      exact ⟨(hnext a t).1.trans first.1, (hnext a t).2.trans first.2⟩
  | error i t =>
      rw [hr] at first
      exact first

lemma sequential : Sequential fun act => Idle act where
  bind := bind
  ofPure _ _ := ⟨rfl, rfl⟩
  look _ _ := ⟨rfl, rfl⟩
  isA o target s := by
    rw [isA_run]
    exact ⟨rfl, rfl⟩
  violated _ _ := ⟨rfl, rfl⟩
  fail _ _ := ⟨rfl, rfl⟩

lemma of_ok {α : Type} {act : Run α} (h : Idle act) {s t : State} {a : α} (run : act s = .ok a t) :
    t.heap = s.heap ∧ t.fixed = s.fixed := by
  have idle := h s
  rw [run] at idle
  exact idle

end Idle

/-- A checked access that succeeds has been carried out.  The checks around it change neither the
heap nor the settings. -/
lemma checked_ok {α : Type} {receiver : ObjectId} {r : Request} {produced : α → Option ObjectId}
    {act : Run α} {s t : State} {a : α} (h : checked receiver r produced act s = .ok a t) :
    ∃ s' t', act s' = .ok a t' ∧ (s'.heap = s.heap ∧ s'.fixed = s.fixed) ∧
      t.heap = t'.heap ∧ t.fixed = t'.fixed := by
  rw [checked_run] at h
  split at h
  · obtain ⟨_, s', before, h⟩ := exists_of_run_bind_ok h
    obtain ⟨a', t', carried, h⟩ := exists_of_run_bind_ok h
    obtain ⟨_, t'', after, h⟩ := exists_of_run_bind_ok h
    cases h
    exact ⟨s', t', carried, (Idle.sequential.reportBefore _ _ _).of_ok before,
      (Idle.sequential.reportAfter _ _ _ _).of_ok after⟩
  · exact ⟨s, t, h, ⟨rfl, rfl⟩, rfl, rfl⟩

end Prototypal
