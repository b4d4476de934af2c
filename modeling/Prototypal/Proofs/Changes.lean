import Mathlib.Logic.Relation
import Prototypal.Proofs.Control
import Prototypal.Proofs.Discipline

/-!
# What the basic operations do to the heap

A basic operation is a walk along the ancestors, which leaves the heap as it is, or it is *local*:
it takes no notice of the settings, and it changes the heap by a few small changes, each of which is
allowed in the heap that it changes.

* `Heap.Change`, `Heap.Changes` — one change, with the condition on which it is made, and any number
  of them.
* `slotSet_run`, `slotDelete_run`, `unlessSealed_run` — writes, as equations.
* `Heap.Grows`, `Makes` — computations that only make objects, such as those for the entries of
  reserved keys.
* `Basic.local_or_walk` — the statement about basic operations.
-/

namespace Prototypal

/-- One change of a heap. -/
inductive Heap.Change (h : Heap) : Heap → Prop where
  | make (p : Payload) (parent : Option ObjectId) (stepparents : List ObjectId) :
      Change h (h.make p parent stepparents)
  | copy (o : ObjectId) : Change h (h.copy o)
  | skip : Change h h.skip
  | put (o : ObjectId) (k : Key) (v : ObjectId) (slots : Slots)
      (writable : (h.slots o).isReadonly k = false)
      (stored : (h.slots o).put k v (h.payload v) = some slots) : Change h (h.setSlots o slots)
  | take (o : ObjectId) (k : Key) (writable : (h.slots o).isReadonly k = false) :
      Change h (h.setSlots o ((h.slots o).take k).2)
  | protect (o : ObjectId) (k : Key) (unsealed : (h.slots o).isSealed = false) :
      Change h (h.setSlots o ((h.slots o).protect k))
  | parent (o : ObjectId) (parent : Option ObjectId) (unsealed : (h.slots o).isSealed = false) :
      Change h (h.setSlots o { h.slots o with parent := parent })
  | stepparents (o : ObjectId) (stepparents : List ObjectId)
      (unsealed : (h.slots o).isSealed = false) :
      Change h (h.setSlots o { h.slots o with stepparents := stepparents })

/-- Any number of changes. -/
def Heap.Changes : Heap → Heap → Prop :=
  Relation.ReflTransGen Heap.Change

/-- Any number of new objects without ancestors. -/
def Heap.Grows : Heap → Heap → Prop :=
  Relation.ReflTransGen fun h h' => ∃ p, h' = h.make p none []

namespace Heap

lemma Grows.changes {h h' : Heap} (grows : h.Grows h') : h.Changes h' := by
  induction grows with
  | refl => exact .refl
  | tail _ last ih =>
      obtain ⟨p, rfl⟩ := last
      exact ih.tail (.make p none [])

lemma slots_add (h : Heap) (x : Object) (o : ObjectId) :
    (h.add x).slots o = if o = h.nextId then x.slots else h.slots o := by
  by_cases ho : o = h.nextId
  · simp only [slots, get?_add, ho, if_true]
  · simp only [slots, get?_add, ho, if_false]

@[simp] lemma slots_skip (h : Heap) (o : ObjectId) : h.skip.slots o = h.slots o := by
  simp only [slots, get?_skip]

/-- There are no slots to be replaced where there is no object. -/
lemma slots_setSlots (h : Heap) (o : ObjectId) (s : Slots) (x : ObjectId) :
    (h.setSlots o s).slots x = if o = x ∧ (h.get? x).isSome then s else h.slots x := by
  by_cases ho : o = x
  · simp only [slots, get?_setSlots, ho, if_true, true_and]
    cases h.get? x with
    | none => rfl
    | some y => rfl
  · simp only [slots, get?_setSlots, ho, if_false, false_and]

lemma lt_nextId_of_isSome {h : Heap} {o : ObjectId} (present : (h.get? o).isSome) :
    o < h.nextId := by
  by_contra beyond
  have outside : h.objects.size ≤ o := Nat.le_of_not_lt beyond
  simp [get?, outside] at present

lemma isSome_get?_setSlots (h : Heap) (x : ObjectId) (s : Slots) (o : ObjectId) :
    ((h.setSlots x s).get? o).isSome = (h.get? o).isSome := by
  rw [get?_setSlots]
  split
  · exact Option.isSome_map
  · rfl

/-- An identity that is yet to be given out stands for an object without slots of its own. -/
lemma slots_nextId (h : Heap) : h.slots h.nextId = .fresh h.nextId none [] := by
  have absent : h.get? h.nextId = none := by simp [get?, nextId]
  simp only [slots, absent]

end Heap

/-! ## Writes -/

lemma slotSet_run (o : ObjectId) (k : Key) (v : ObjectId) (s : State) :
    slotSet o k v s =
      if (s.heap.slots o).isReadonly k then .error (.fault (.readonly k)) s
      else match (s.heap.slots o).put k v (s.heap.payload v) with
        | some slots =>
          .ok () { s with
            heap := s.heap.setSlots o slots
            journal := .written o k v :: s.journal }
        | none =>
          .error (.fault (.mismatch .stepparents [.list] (s.heap.payload v).kind))
            { s with journal := .written o k v :: s.journal } := by
  have slots : slotsOf o s = .ok (s.heap.slots o) s := rfl
  rw [slotSet, run_bind_ok slots, ensureWritable]
  split
  · rfl
  · let t : State := { s with journal := .written o k v :: s.journal }
    have noted : note (.written o k v) s = .ok () t := rfl
    have payload : payloadOf v t = .ok (s.heap.payload v) t := rfl
    rw [pure_bind, run_bind_ok noted, run_bind_ok payload]
    cases (s.heap.slots o).put k v (s.heap.payload v) with
    | some slots => rfl
    | none => rfl

/-- The object that a key held which was taken out. -/
def takenObject : Option Entry → Run ObjectId
  | some e => e.toObject
  | none => return nullId

/-- A state in which a key has been taken out. -/
def State.taken (s : State) (o : ObjectId) (k : Key) : State :=
  { s with
    heap := s.heap.setSlots o ((s.heap.slots o).take k).2
    journal := .removed o k :: s.journal }

lemma slotDelete_run (o : ObjectId) (k : Key) (s : State) :
    slotDelete o k s =
      if (s.heap.slots o).isReadonly k then .error (.fault (.readonly k)) s
      else takenObject ((s.heap.slots o).take k).1 (s.taken o k) := by
  have slots : slotsOf o s = .ok (s.heap.slots o) s := rfl
  rw [slotDelete, run_bind_ok slots, ensureWritable]
  split
  · rfl
  · rw [State.taken]
    rcases (s.heap.slots o).take k with ⟨entry, slots'⟩
    cases entry with
    | some e => rfl
    | none => rfl

lemma unlessSealed_run (o : ObjectId) (write : SilentWrite) (act : Slots → Run Unit) (s : State) :
    unlessSealed o write act s =
      if (s.heap.slots o).isSealed then
        .ok () { s with journal := .ignored o write :: s.journal }
      else act (s.heap.slots o) s := by
  have slots : slotsOf o s = .ok (s.heap.slots o) s := rfl
  rw [unlessSealed, run_bind_ok slots]
  split
  · rfl
  · rfl

/-! ## Computations that only make objects -/

/-- Computations that look at the heap and the names only, and make objects. -/
def Makes {α : Type} (act : Run α) : Prop :=
  ∀ h names, ∃ a h', Heap.Grows h h' ∧
    ∀ s : State, s.heap = h → s.names = names → act s = .ok a { s with heap := h' }

namespace Makes

variable {α β : Type}

lemma ofPure (a : α) : Makes (pure a) := by
  intro h names
  refine ⟨a, h, .refl, ?_⟩
  rintro s rfl -
  rfl

lemma bind {act : Run α} {next : α → Run β} (hact : Makes act) (hnext : ∀ a, Makes (next a)) :
    Makes (act >>= next) := by
  intro h names
  obtain ⟨a, h₁, first, run⟩ := hact h names
  obtain ⟨b, h₂, second, run'⟩ := hnext a h₁ names
  refine ⟨b, h₂, first.trans second, ?_⟩
  intro s hs hnames
  rw [run_bind_ok (run s hs hnames)]
  exact run' { s with heap := h₁ } rfl hnames

lemma mapM {g : α → Run β} (h : ∀ a, Makes (g a)) (xs : List α) : Makes (xs.mapM g) := by
  induction xs with
  | nil =>
      rw [List.mapM_nil]
      exact ofPure []
  | cons a xs ih =>
      rw [List.mapM_cons]
      exact (h a).bind fun b => ih.bind fun bs => ofPure (b :: bs)

lemma make (p : Payload) : Makes (make p) := by
  intro h names
  refine ⟨h.nextId, h.make p none [], .single ⟨p, rfl⟩, ?_⟩
  rintro s rfl -
  rfl

lemma keyObject (k : Key) : Makes (keyObject k) := by
  cases k with
  | name y =>
      intro h names
      refine ⟨h.nextId, h.make (.text (names.text y)) none [], .single ⟨_, rfl⟩, ?_⟩
      rintro s rfl rfl
      rfl
  | object o => exact ofPure o

lemma toObject (e : Entry) : Makes e.toObject := by
  cases e with
  | stored o => exact ofPure o
  | identity o => exact make _
  | keys ks => exact (mapM keyObject ks).bind fun os => make _
  | group os => exact make _

lemma takenObject (entry : Option Entry) : Makes (takenObject entry) := by
  cases entry with
  | some e => exact toObject e
  | none => exact ofPure nullId

end Makes

/-! ## Local operations -/

/-- A computation, from a state: it takes no notice of the settings, and changes the heap bit by
bit. -/
structure Local {α : Type} (act : Run α) (s : State) : Prop where
  changes : s.heap.Changes (Outcome.final (act s)).heap
  unaware : ∀ x, act { s with fixed := x } = Outcome.after (fun t => { t with fixed := x }) (act s)

namespace Local

variable {α : Type} {s : State}

/-- Where a computation leaves the heap as it is, only the settings are to be looked at. -/
lemma still {act : Run α} (same : (Outcome.final (act s)).heap = s.heap)
    (unaware : ∀ x, act { s with fixed := x } =
      Outcome.after (fun t => { t with fixed := x }) (act s)) : Local act s := by
  refine ⟨?_, unaware⟩
  rw [same]
  exact .refl

lemma ofMakes {act : Run α} (h : Makes act) : Local act s := by
  obtain ⟨a, h', grows, run⟩ := h s.heap s.names
  have first : act s = .ok a { s with heap := h' } := run s rfl rfl
  refine ⟨?_, fun x => ?_⟩
  · rw [first]
    exact grows.changes
  · rw [first]
    exact run { s with fixed := x } rfl rfl

lemma intern (text : String) : Local (intern text) s := by
  refine still (intern_heap text s) fun x => ?_
  rw [intern_run, intern_run]
  cases s.names.intern text <;> rfl

lemma slotSet (o : ObjectId) (k : Key) (v : ObjectId) : Local (slotSet o k v) s := by
  constructor
  · rw [slotSet_run]
    split
    · exact .refl
    · rename_i writable
      split
      · rename_i slots stored
        exact .single (.put o k v slots (Bool.of_not_eq_true writable) stored)
      · exact .refl
  · intro x
    rw [slotSet_run, slotSet_run]
    dsimp only
    split
    · rfl
    · split
      · rfl
      · rfl

lemma slotDelete (o : ObjectId) (k : Key) : Local (slotDelete o k) s := by
  -- the answer is made after the entry was taken out, so in another heap
  have answer : Local (takenObject ((s.heap.slots o).take k).1) (s.taken o k) :=
    ofMakes (Makes.takenObject _)
  constructor
  · rw [slotDelete_run]
    split
    · exact .refl
    · rename_i writable
      exact .head (.take o k (Bool.of_not_eq_true writable)) answer.changes
  · intro x
    rw [slotDelete_run, slotDelete_run]
    dsimp only
    split
    · rfl
    · exact answer.unaware x

lemma unlessSealed (o : ObjectId) (write : SilentWrite) {act : Slots → Run Unit}
    (h : (s.heap.slots o).isSealed = false → Local (act (s.heap.slots o)) s) :
    Local (unlessSealed o write act) s := by
  cases hs : (s.heap.slots o).isSealed with
  | true =>
      refine still ?_ fun x => ?_
      · simp only [unlessSealed_run, hs, if_true]
        rfl
      · simp only [unlessSealed_run, hs, if_true]
        rfl
  | false =>
      obtain ⟨changes, unaware⟩ := h hs
      constructor
      · simp only [unlessSealed_run, hs]
        exact changes
      · intro x
        simp only [unlessSealed_run, hs]
        exact unaware x

end Local

/-- The walks along the ancestors. -/
inductive Walk : {α : Type} → Run α → Prop where
  | resolve (o : ObjectId) (k : Key) (hk : k.isReserved = false) : Walk (resolve o k)
  | resolveAbove (o : ObjectId) (k : Key) : Walk (resolveAbove o k)
  | isA (o target : ObjectId) : Walk (isA o target)

/-- **A basic operation is local, or it is a walk.** -/
theorem Basic.local_or_walk {f : Fragment} {α : Type} {act : Run α} (h : Basic f act) (s : State) :
    Local act s ∨ Walk act := by
  cases h with
  | look g => exact .inl (.still rfl fun _ => rfl)
  | valueOf name => exact .inl (.still rfl fun _ => rfl)
  | note e he => exact .inl (.still rfl fun _ => rfl)
  | makeWith p parent stepparents hp =>
      exact .inl ⟨.single (.make p parent stepparents), fun _ => rfl⟩
  | makeClosure b hb => exact .inl ⟨.single (.make _ none []), fun _ => rfl⟩
  | copy o => exact .inl ⟨.single (.copy o), fun _ => rfl⟩
  | skipId => exact .inl ⟨.single .skip, fun _ => rfl⟩
  | intern text => exact .inl (.intern text)
  | assign name v => exact .inl (.still rfl fun _ => rfl)
  | emit j => exact .inl (.still rfl fun _ => rfl)
  | slotSet o k v => exact .inl (.slotSet o k v)
  | slotDelete o k => exact .inl (.slotDelete o k)
  | makeReadonly o k =>
      refine .inl (.unlessSealed o .makeReadonly fun unsealed => ?_)
      exact ⟨.single (.protect o k unsealed), fun _ => rfl⟩
  | setParent o parent =>
      refine .inl (.unlessSealed o .setParent fun unsealed => ?_)
      exact ⟨.single (.parent o parent unsealed), fun _ => rfl⟩
  | pushStepparent o stepparent =>
      refine .inl (.unlessSealed o .pushStepparent fun unsealed => ?_)
      exact ⟨.single (.stepparents o _ unsealed), fun _ => rfl⟩
  | resolve o k hk => exact .inr (.resolve o k hk)
  | resolveAbove o k => exact .inr (.resolveAbove o k)
  | isA o target => exact .inr (.isA o target)
  | fail x => exact .inl (.still rfl fun _ => rfl)

/-- A walk leaves the heap as it is. -/
lemma Walk.heap_final {α : Type} {act : Run α} (h : Walk act) (s : State) :
    (Outcome.final (act s)).heap = s.heap := by
  cases h with
  | resolve o k hk =>
      rw [resolve_run hk]
      rfl
  | resolveAbove o k =>
      cases hk : k.isReserved with
      | true =>
          rw [Prototypal.resolveAbove, if_pos hk]
          rfl
      | false =>
          rw [resolveAbove_run hk]
          rfl
  | isA o target =>
      rw [isA_run]
      rfl

end Prototypal
