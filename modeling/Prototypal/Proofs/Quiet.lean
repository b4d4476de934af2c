import Prototypal.Proofs.Control
import Prototypal.Proofs.Discipline

/-!
# Quiet computations

The state of a run has a part that is about the flow of control: the active boundaries, the
counters, the strictness and the journal.  A computation is *quiet* if it takes no notice of this
part, leaves it alone but for notes of its own, and ends with a result, with a fault, or because a
name did not fit into the table.

`Basic.quiet` says that the basic operations are quiet.  A discipline about control therefore needs
one argument for all of them.

* `Control`, `State.under` — the part that is about control, and a state with another such part.
* `Quiet` — quiet computations, with rules for sequencing.
* `Quiet.ofInspection` — the checks themselves are quiet; what they find is acted upon elsewhere.
-/

namespace Prototypal

/-- The part of a state that is about the flow of control. -/
structure Control where
  boundaries : List Marker
  markers : Nat
  callDepth : Nat
  strictness : Strictness
  journal : List Event

/-- The control part of a state. -/
def State.control (s : State) : Control :=
  ⟨s.boundaries, s.markers, s.callDepth, s.strictness, s.journal⟩

/-- A state with another control part. -/
def State.under (s : State) (c : Control) : State :=
  { s with
    boundaries := c.boundaries
    markers := c.markers
    callDepth := c.callDepth
    strictness := c.strictness
    journal := c.journal }

/-- A control part with further notes in its journal. -/
def Control.noting (c : Control) (notes : List Event) : Control :=
  { c with journal := notes ++ c.journal }

lemma Control.noting_noting (c : Control) (older newer : List Event) :
    (c.noting older).noting newer = c.noting (newer ++ older) := by
  simp [noting]

/-- The events that quiet computations note: neither those of boundaries nor violations. -/
def Event.isQuiet (e : Event) : Bool :=
  e.component != .escape && e.component != .validation

/-- The interrupts that quiet computations end with: faults, and that a name did not fit into the
table. -/
inductive Interrupt.IsQuiet (t : State) : Interrupt → Prop where
  | fault (x : Fault) : IsQuiet t (.fault x)
  | overflow (full : t.names.Full) : IsQuiet t .overflow

/-- What a quiet computation comes to from a state: a result or an interrupt, a state, and notes,
the same whatever the control part is. -/
structure QuietRun (f : Fragment) {α : Type} (act : Run α) (s : State) (r : Except Interrupt α)
    (t : State) (notes : List Event) : Prop where
  within : t.heap.Within f
  fixed : t.fixed = s.fixed
  quiet : ∀ e ∈ notes, e.isQuiet = true
  ended : ∀ i, r = .error i → i.IsQuiet t
  run : ∀ c : Control, act (s.under c) = Outcome.ofExcept r (t.under (c.noting notes))

/-- The run of a computation that yields a result. -/
lemma QuietRun.ofOk {f : Fragment} {α : Type} {act : Run α} {s t : State} {a : α}
    {notes : List Event} (within : t.heap.Within f) (fixed : t.fixed = s.fixed)
    (quiet : ∀ e ∈ notes, e.isQuiet = true)
    (run : ∀ c : Control, act (s.under c) = .ok a (t.under (c.noting notes))) :
    QuietRun f act s (.ok a) t notes := by
  refine ⟨within, fixed, quiet, ?_, run⟩
  rintro i ⟨⟩

/-- Computations that take no notice of the control part of a state. -/
def Quiet (f : Fragment) {α : Type} (act : Run α) : Prop :=
  ∀ s : State, s.heap.Within f → ∃ r t notes, QuietRun f act s r t notes

namespace Quiet

variable {f : Fragment}

/-! ## Sequencing -/

/-- A step that notes nothing: it yields a result and changes the state, both fixed by what is
not about control. -/
lemma step {α : Type} {act : Run α} (result : State → α) (after : State → State)
    (within : ∀ s, s.heap.Within f → (after s).heap.Within f)
    (fixed : ∀ s, (after s).fixed = s.fixed)
    (run : ∀ s c, act (s.under c) = .ok (result s) ((after s).under c)) : Quiet f act := by
  intro s hs
  exact ⟨.ok (result s), after s, [], .ofOk (within s hs) (fixed s) (List.forall_mem_nil _) (run s)⟩

lemma ofPure {α : Type} (a : α) : Quiet f (pure a : Run α) :=
  step (fun _ => a) id (fun _ hs => hs) (fun _ => rfl) fun _ _ => rfl

lemma bind {α β : Type} {act : Run α} {next : α → Run β} (hact : Quiet f act)
    (hnext : ∀ a, Quiet f (next a)) : Quiet f (act >>= next) := by
  intro s hs
  obtain ⟨r, t, older, hr⟩ := hact s hs
  cases r with
  | error i =>
      refine ⟨.error i, t, older, hr.within, hr.fixed, hr.quiet, ?_, fun c => ?_⟩
      · rintro _ ⟨⟩
        exact hr.ended i rfl
      · exact run_bind_error (hr.run c)
  | ok a =>
      obtain ⟨q, u, newer, hq⟩ := hnext a t hr.within
      refine ⟨q, u, newer ++ older, hq.within, hq.fixed.trans hr.fixed, ?_, hq.ended, fun c => ?_⟩
      · intro e he
        rcases List.mem_append.mp he with he | he
        · exact hq.quiet e he
        · exact hr.quiet e he
      · rw [run_bind_ok (hr.run c), hq.run, Control.noting_noting]

lemma mapM {α β : Type} {g : α → Run β} (h : ∀ a, Quiet f (g a)) (xs : List α) :
    Quiet f (xs.mapM g) := by
  induction xs with
  | nil =>
      rw [List.mapM_nil]
      exact ofPure []
  | cons a xs ih =>
      rw [List.mapM_cons]
      exact (h a).bind fun b => ih.bind fun bs => ofPure (b :: bs)

/-! ## Single steps -/

lemma look {α : Type} (g : Heap → Names → α) : Quiet f (do let s ← get; return g s.heap s.names) :=
  step (fun s => g s.heap s.names) id (fun _ hs => hs) (fun _ => rfl) fun _ _ => rfl

lemma payloadOf (o : ObjectId) : Quiet f (payloadOf o) :=
  look fun h _ => h.payload o

lemma slotsOf (o : ObjectId) : Quiet f (slotsOf o) :=
  look fun h _ => h.slots o

lemma note {e : Event} (he : e.isQuiet = true) : Quiet f (note e) := by
  intro s hs
  exact ⟨.ok (), s, [e], .ofOk hs rfl (List.forall_mem_singleton.mpr he) fun _ => rfl⟩

lemma fail {α : Type} (x : Fault) : Quiet f (fail x : Run α) := by
  intro s hs
  refine ⟨.error (.fault x), s, [], hs, rfl, List.forall_mem_nil _, ?_, fun c => rfl⟩
  rintro _ ⟨⟩
  exact .fault x

lemma setSlots (o : ObjectId) (slots : Slots) : Quiet f (setSlots o slots) :=
  step (fun _ => ()) (fun s => { s with heap := s.heap.setSlots o slots })
    (fun _ hs => hs.setSlots o slots) (fun _ => rfl) fun _ _ => rfl

lemma makeWith {p : Payload} (parent : Option ObjectId) (stepparents : List ObjectId)
    (hp : p.within f = true) : Quiet f (makeWith p parent stepparents) :=
  step (fun s => s.heap.nextId) (fun s => { s with heap := s.heap.make p parent stepparents })
    (fun _ hs => hs.add hp) (fun _ => rfl) fun _ _ => rfl

lemma makeClosure {b : Body} (hb : b.within f = true) : Quiet f (makeClosure b) :=
  step (fun s => s.heap.nextId)
    (fun s => { s with heap := s.heap.make (.closure ⟨s.heap.nextId, b, none⟩) none [] })
    (fun _ hs => hs.add hb) (fun _ => rfl) fun _ _ => rfl

lemma copy (o : ObjectId) : Quiet f (copy o) :=
  step (fun s => s.heap.nextId) (fun s => { s with heap := s.heap.copy o })
    (fun _ hs => hs.add (hs o)) (fun _ => rfl) fun _ _ => rfl

lemma skipId : Quiet f skipId :=
  step (fun s => s.heap.nextId) (fun s => { s with heap := s.heap.skip })
    (fun _ hs => hs.skip) (fun _ => rfl) fun _ _ => rfl

lemma intern (text : String) : Quiet f (intern text) := by
  intro s hs
  cases interned : s.names.intern text with
  | some r =>
      obtain ⟨y, names⟩ := r
      exact ⟨.ok y, { s with names := names }, [], .ofOk hs rfl (List.forall_mem_nil _)
        fun _ => intern_run_some interned⟩
  | none =>
      refine ⟨.error .overflow, s, [], hs, rfl, List.forall_mem_nil _, ?_, fun c => ?_⟩
      · rintro _ ⟨⟩
        exact .overflow (Names.full_of_intern interned)
      · rw [intern_run, show (s.under c).names.intern text = none from interned]
        rfl

lemma assign (name : String) (v : Value) : Quiet f (assign name v) :=
  step (fun _ => ())
    (fun s => { s with bindings := (name, v) :: s.bindings.filter fun b => b.1 != name })
    (fun _ hs => hs) (fun _ => rfl) fun _ _ => rfl

lemma valueOf (name : String) : Quiet f (valueOf name) :=
  step (fun s => (s.bindings.lookup name).getD (.object nullId)) id
    (fun _ hs => hs) (fun _ => rfl) fun _ _ => rfl

lemma emit (j : Json) : Quiet f (emit j) :=
  step (fun _ => ()) (fun s => { s with emitted := j :: s.emitted })
    (fun _ hs => hs) (fun _ => rfl) fun _ _ => rfl

/-! ## Writes -/

lemma ensureWritable (slots : Slots) (k : Key) : Quiet f (ensureWritable slots k) := by
  unfold Prototypal.ensureWritable
  split
  · exact fail _
  · exact ofPure ()

lemma slotSet (o : ObjectId) (k : Key) (v : ObjectId) : Quiet f (slotSet o k v) := by
  refine (slotsOf o).bind fun slots => (ensureWritable slots k).bind fun _ => ?_
  refine (note rfl).bind fun _ => (payloadOf v).bind fun p => ?_
  split
  · exact setSlots o _
  · exact fail _

lemma keyObject (k : Key) : Quiet f (keyObject k) := by
  cases k with
  | name y => exact (look fun _ names => names.text y).bind fun t => makeWith none [] rfl
  | object o => exact ofPure o

lemma toObject (e : Entry) : Quiet f e.toObject := by
  cases e with
  | stored o => exact ofPure o
  | identity o => exact makeWith none [] rfl
  | keys ks => exact (mapM keyObject ks).bind fun os => makeWith none [] rfl
  | group os => exact makeWith none [] rfl

lemma slotDelete (o : ObjectId) (k : Key) : Quiet f (slotDelete o k) := by
  refine (slotsOf o).bind fun slots => (ensureWritable slots k).bind fun _ => ?_
  refine (note rfl).bind fun _ => (setSlots o _).bind fun _ => ?_
  split
  · exact toObject _
  · exact ofPure nullId

lemma unlessSealed (o : ObjectId) (write : SilentWrite) {act : Slots → Run Unit}
    (h : ∀ slots, Quiet f (act slots)) : Quiet f (unlessSealed o write act) := by
  refine (slotsOf o).bind fun slots => ?_
  split
  · exact note rfl
  · exact h slots

lemma makeReadonly (o : ObjectId) (k : Key) : Quiet f (makeReadonly o k) :=
  unlessSealed o .makeReadonly fun _ => (note rfl).bind fun _ => setSlots o _

lemma setParent (o : ObjectId) (parent : Option ObjectId) : Quiet f (setParent o parent) :=
  unlessSealed o .setParent fun _ => setSlots o _

lemma pushStepparent (o stepparent : ObjectId) : Quiet f (pushStepparent o stepparent) :=
  unlessSealed o .pushStepparent fun _ => setSlots o _

/-! ## Walks -/

/-- The notes about the cuts of a walk are quiet. -/
lemma isQuiet_notes (t : Trail) (k : Option Key) (limit : Nat) :
    ∀ e ∈ t.notes k limit, e.isQuiet = true := by
  intro e he
  obtain ⟨o, -, rfl⟩ := List.mem_map.mp he
  rfl

lemma resolve (o : ObjectId) {k : Key} (hk : k.isReserved = false) : Quiet f (resolve o k) := by
  intro s hs
  exact ⟨.ok (s.heap.resolve? s.hops o k).1, s,
    (s.heap.resolve? s.hops o k).2.notes (some k) s.hops,
    .ofOk hs rfl (isQuiet_notes _ _ _) fun c => resolve_run hk (s.under c)⟩

lemma resolveAbove (o : ObjectId) (k : Key) : Quiet f (resolveAbove o k) := by
  cases hk : k.isReserved with
  | true =>
      rw [Prototypal.resolveAbove, if_pos hk]
      exact ofPure none
  | false =>
      intro s hs
      exact ⟨.ok (s.heap.resolveAbove? s.hops o k).1, s,
        (s.heap.resolveAbove? s.hops o k).2.notes (some k) s.hops,
        .ofOk hs rfl (isQuiet_notes _ _ _) fun c => resolveAbove_run hk (s.under c)⟩

lemma isA (o target : ObjectId) : Quiet f (isA o target) := by
  intro s hs
  exact ⟨.ok (s.heap.isA s.hops o target).1, s, (s.heap.isA s.hops o target).2.notes none s.hops,
    .ofOk hs rfl (isQuiet_notes _ _ _) fun c => isA_run o target (s.under c)⟩

lemma ofInspection {α : Type} {act : Run α} (h : Inspection act) : Quiet f act := by
  induction h with
  | ofPure a => exact ofPure a
  | look g => exact look g
  | isA o target => exact isA o target
  | bind _ _ hact hnext => exact hact.bind hnext

end Quiet

/-- **The basic operations are quiet.** -/
theorem Basic.quiet {f : Fragment} {α : Type} {act : Run α} (h : Basic f act) : Quiet f act := by
  cases h with
  | look g => exact Quiet.look g
  | valueOf name => exact Quiet.valueOf name
  | note e he =>
      refine Quiet.note ?_
      rcases he with he | he <;> simp [Event.isQuiet, he]
  | makeWith p parent stepparents hp => exact Quiet.makeWith parent stepparents hp
  | makeClosure b hb => exact Quiet.makeClosure hb
  | copy o => exact Quiet.copy o
  | skipId => exact Quiet.skipId
  | intern text => exact Quiet.intern text
  | assign name v => exact Quiet.assign name v
  | emit j => exact Quiet.emit j
  | slotSet o k v => exact Quiet.slotSet o k v
  | slotDelete o k => exact Quiet.slotDelete o k
  | makeReadonly o k => exact Quiet.makeReadonly o k
  | setParent o parent => exact Quiet.setParent o parent
  | pushStepparent o stepparent => exact Quiet.pushStepparent o stepparent
  | resolve o k hk => exact Quiet.resolve o hk
  | resolveAbove o k => exact Quiet.resolveAbove o k
  | isA o target => exact Quiet.isA o target
  | fail x => exact Quiet.fail x

end Prototypal
