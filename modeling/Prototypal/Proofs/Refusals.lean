import Prototypal.Proofs.Operations
import Prototypal.Proofs.Strictness.Transparency

/-!
# Failures of attribute operations

Getting, setting and deleting an attribute fail for three reasons: a rule is broken and the
strictness demands a failure, the key may not be written, or stepparents are to be stored that are
no list.  These are asked for in this order, and all of them before anything is changed.

* `State.writeFault?`, `State.storeFault?`, `Strictness.fault?` — the faults, as they follow from
  the state before.
* `FailsAs` — an operation ends with the fault given and changes nothing, or there is none and it
  succeeds.
* `FailsAs.checked` — checks come first, and at the highest strictness the first violation counts.
* `attribute_operations_fail` — the statement about operations.
-/

namespace Prototypal

/-- The fault with which a key is refused to be written. -/
def State.writeFault? (s : State) (o : ObjectId) (k : Key) : Option Fault :=
  if (s.heap.slots o).isSealed ∨ k ∈ (s.heap.slots o).readonlyKeys then some (.readonly k) else none

/-- The fault with which a value is refused to be stored: that of the key, or else that of
stepparents which are no list. -/
def State.storeFault? (s : State) (o : ObjectId) (k : Key) (v : ObjectId) : Option Fault :=
  (s.writeFault? o k).or
    (if k = .stepparents ∧ (s.heap.payload v).kind ≠ .list then
      some (.mismatch .stepparents [.list] (s.heap.payload v).kind)
    else none)

/-- What a strictness makes of violations, where an unchecked access has a fault or none. -/
def Strictness.fault? (l : Strictness) (violations : List Violation) (unchecked : Option Fault) :
    Option Fault :=
  match l, violations with
  | .strict, v :: _ => some (.invalid v)
  | _, _ => unchecked

/-- A computation fails with the fault given, and then only the journal is not as it was.  If none
is given, it comes to a result. -/
def FailsAs {α : Type} (act : Run α) (s : State) : Option Fault → Prop
  | some f => ∃ notes, act s = .error (.fault f) { s with journal := notes ++ s.journal }
  | none => ∃ a t, act s = .ok a t

/-! ## Slots -/

lemma State.writeFault?_eq (s : State) (o : ObjectId) (k : Key) :
    s.writeFault? o k = if (s.heap.slots o).isReadonly k then some (.readonly k) else none := by
  simp [writeFault?, Slots.isReadonly]

/-- Only stepparents that are no list cannot be stored. -/
lemma Slots.put_eq_none_iff {s : Slots} {k : Key} {v : ObjectId} {p : Payload} :
    s.put k v p = none ↔ k = .stepparents ∧ p.kind ≠ .list := by
  have noList : p.list? = none ↔ p.kind ≠ .list := by
    cases p <;> simp [Payload.list?, Payload.kind]
  have differ : Key.parent ≠ Key.stepparents := by decide
  rw [put]
  split
  · rename_i parent
    simp [parent, differ]
  · split
    · rename_i stepparents
      simp [noList, stepparents]
    · rename_i other
      simp [other]

lemma slotSet_failsAs (o : ObjectId) (k : Key) (v : ObjectId) (s : State) :
    FailsAs (slotSet o k v) s (s.storeFault? o k v) := by
  rw [State.storeFault?, State.writeFault?_eq]
  by_cases readonly : (s.heap.slots o).isReadonly k = true
  · rw [if_pos readonly]
    refine ⟨[], ?_⟩
    rw [slotSet_run, if_pos readonly]
    rfl
  · rw [if_neg readonly, Option.none_or]
    cases stored : (s.heap.slots o).put k v (s.heap.payload v) with
    | none =>
        rw [if_pos (Slots.put_eq_none_iff.mp stored)]
        refine ⟨[.written o k v], ?_⟩
        rw [slotSet_run, if_neg readonly, stored]
        rfl
    | some slots =>
        have fits : ¬ (k = .stepparents ∧ (s.heap.payload v).kind ≠ .list) := by
          intro refused
          rw [Slots.put_eq_none_iff.mpr refused] at stored
          cases stored
        rw [if_neg fits]
        have run := slotSet_run o k v s
        rw [if_neg readonly, stored] at run
        exact ⟨(), _, run⟩

lemma slotDelete_failsAs (o : ObjectId) (k : Key) (s : State) :
    FailsAs (slotDelete o k) s (s.writeFault? o k) := by
  rw [State.writeFault?_eq]
  by_cases readonly : (s.heap.slots o).isReadonly k = true
  · rw [if_pos readonly]
    refine ⟨[], ?_⟩
    rw [slotDelete_run, if_pos readonly]
    rfl
  · rw [if_neg readonly]
    obtain ⟨x, h', _, run⟩ :=
      Makes.takenObject ((s.heap.slots o).take k).1 (s.taken o k).heap (s.taken o k).names
    have deleted := slotDelete_run o k s
    rw [if_neg readonly, run (s.taken o k) rfl rfl] at deleted
    exact ⟨x, _, deleted⟩

/-! ## Reading along the ancestors -/

lemma resolve_ok (o : ObjectId) (k : Key) (s : State) : ∃ found t, resolve o k s = .ok found t := by
  cases reserved : k.isReserved with
  | true =>
      obtain ⟨x, h', _, run⟩ := Makes.slotGet o k s.heap s.names
      refine ⟨x.map fun v => ⟨o, v⟩, { s with heap := h' }, ?_⟩
      rw [resolve, if_pos reserved, run_bind_ok (run s rfl rfl)]
      rfl
  | false => exact ⟨_, _, resolve_run reserved s⟩

/-- What `getAttribute` does between its checks. -/
def readAttribute (o : ObjectId) (k : Key) : Run ObjectId := do
  let found ← lookup o k
  note (.read o k found.isSome)
  return found.getD nullId

lemma readAttribute_failsAs (o : ObjectId) (k : Key) (s : State) :
    FailsAs (readAttribute o k) s none := by
  obtain ⟨found, t, run⟩ := resolve_ok o k s
  have looked : lookup o k s = .ok (found.map Found.value) t := by
    rw [lookup, run_bind_ok run]
    rfl
  have read : readAttribute o k s = _ := run_bind_ok looked
  exact ⟨_, _, read⟩

/-! ## Checks -/

namespace FailsAs

variable {α β : Type} {act : Run α} {s : State} {f : Option Fault}

lemma of_eq {act' : Run α} (same : act s = act' s) (h : FailsAs act' s f) : FailsAs act s f := by
  cases f with
  | none => rwa [FailsAs, same]
  | some f => rwa [FailsAs, same]

/-- Notes that were made before go with those that a failure leaves. -/
lemma later {notes : List Event} {first : Run β} {b : β}
    (noted : first s = .ok b { s with journal := notes ++ s.journal })
    (h : FailsAs act { s with journal := notes ++ s.journal } f) :
    FailsAs (do let _ ← first; act) s f := by
  cases f with
  | none =>
      obtain ⟨a, t, run⟩ := h
      refine ⟨a, t, ?_⟩
      rw [run_bind_ok noted, run]
  | some f =>
      obtain ⟨more, run⟩ := h
      refine ⟨more ++ notes, ?_⟩
      rw [run_bind_ok noted, run, List.append_assoc]

/-- What comes after a computation and succeeds makes no difference. -/
lemma andThen {next : α → Run β} (h : FailsAs act s f)
    (succeeds : ∀ a t, ∃ b u, next a t = .ok b u) : FailsAs (act >>= next) s f := by
  cases f with
  | none =>
      obtain ⟨a, t, run⟩ := h
      obtain ⟨b, u, run'⟩ := succeeds a t
      refine ⟨b, u, ?_⟩
      rw [run_bind_ok run, run']
  | some f =>
      obtain ⟨notes, run⟩ := h
      exact ⟨notes, run_bind_error run⟩

/-- **Checks come first.**  An access that is no call is looked at before it is carried out only.
At the highest strictness it fails with the first violation that is then found; otherwise it fails
as it does unchecked. -/
theorem checked (o : ObjectId) (r : Request) (noCall : ∀ k, r ≠ .call k)
    (produced : α → Option ObjectId)
    (h : ∀ notes, FailsAs act { s with journal := notes ++ s.journal } f) :
    ∃ violations, Yields (checkBefore o r) s violations ∧
      FailsAs (checked o r produced act) s (s.strictness.fault? violations f) := by
  obtain ⟨violations, notes, _, found⟩ := OnlyWarns.ofInspection (.checkBefore o r) s
  refine ⟨violations, ⟨_, found⟩, ?_⟩
  have after : ∀ l a t, ∃ b u,
      (do reportAfter l o r (produced a); return a : Run α) t = .ok b u := by
    intro l a t
    cases r with
    | get k => exact ⟨a, t, rfl⟩
    | set k v => exact ⟨a, t, rfl⟩
    | delete k => exact ⟨a, t, rfl⟩
    | call k => exact absurd rfl (noCall k)
  have carried : ∀ l notes,
      reportBefore l o r s = .ok () { s with journal := notes ++ s.journal } →
        FailsAs (checkedAt l o r produced act) s f :=
    fun l notes noted => later noted ((h notes).andThen (after l))
  cases level : s.strictness with
  | off => exact of_eq (by rw [checked_run, level]; rfl) (h [])
  | warn =>
      obtain ⟨_, notes, _, noted⟩ := OnlyWarns.reportBefore o r s
      exact of_eq (by rw [checked_run, level]; rfl) (carried .warn notes noted)
  | strict =>
      refine of_eq (by rw [checked_run, level]; rfl) ?_
      cases violations with
      | nil => exact carried .strict notes (run_bind_ok found)
      | cons v vs =>
          have failed : reportBefore .strict o r s =
              .error (.fault (.invalid v)) { s with journal := notes ++ s.journal } :=
            run_bind_ok found
          exact ⟨notes, run_bind_error failed⟩

end FailsAs

/-- **An attribute operation that fails changes nothing, and it fails exactly when it should.**  The
slots refuse to store under a key, or to delete it, if they are sealed or the key is readonly, and
they refuse stepparents that are no list.  Getting, setting and deleting an attribute fail just as
the slots do, getting never, unless the strictness is the highest and a rule is broken: then the
first violation is the fault.  A failure leaves the state as it was, but for the journal. -/
theorem attribute_operations_fail (s : State) (o : ObjectId) (k : Key) (v : ObjectId) :
    FailsAs (slotSet o k v) s (s.storeFault? o k v) ∧
      FailsAs (slotDelete o k) s (s.writeFault? o k) ∧
      (∃ violations, Yields (checkBefore o (.get k)) s violations ∧
        FailsAs (getAttribute o k) s (s.strictness.fault? violations none)) ∧
      (∃ violations, Yields (checkBefore o (.set k v)) s violations ∧
        FailsAs (setAttribute o k v) s (s.strictness.fault? violations (s.storeFault? o k v))) ∧
      ∃ violations, Yields (checkBefore o (.delete k)) s violations ∧
        FailsAs (deleteAttribute o k) s (s.strictness.fault? violations (s.writeFault? o k)) := by
  refine ⟨slotSet_failsAs o k v s, slotDelete_failsAs o k s, ?_, ?_, ?_⟩
  · exact FailsAs.checked o (.get k) (fun _ => nofun) some fun _ => readAttribute_failsAs o k _
  · exact FailsAs.checked o (.set k v) (fun _ => nofun) _ fun _ => slotSet_failsAs o k v _
  · exact FailsAs.checked o (.delete k) (fun _ => nofun) some fun _ => slotDelete_failsAs o k _

end Prototypal
