import Prototypal.Proofs.Ancestry.Order
import Prototypal.Proofs.Changes
import Prototypal.Proofs.Machine.Code

/-!
# Well-formed heaps and sound states

A heap is *well formed* if all objects that are mentioned in it are there, each knows its own
identity, and what a payload mentions is older than the object that carries it.  A state is *sound*
if its heap is well formed and its variables mention objects that are there.

* `Heap.WellFormed` and what it gives: `WellFormed.nesting`, `WellFormed.unfold_eq_view`.
* `WellFormed.add`, `WellFormed.setSlots` — the two ways in which a heap changes.
* `WellFormed.known_own` — what a lookup comes back with is there.
* `Handed.sound` — an elementary operation that is handed objects that are there leaves a sound
  state behind, with the objects that it mentions.
-/

namespace Prototypal

namespace Heap

/-- An object is there. -/
def Has (h : Heap) (o : ObjectId) : Prop :=
  (h.get? o).isSome = true

/-- The objects that are there. -/
def present (h : Heap) : Set ObjectId :=
  {o | h.Has o}

/-- Every mentioned object is there, and what a payload mentions is older than its object. -/
structure WellFormed (h : Heap) : Prop where
  null : h.Has nullId
  below : ∀ {o : ObjectId}, h.Has o → o < h.nextId
  owner : ∀ {o : ObjectId} {x : Object}, h.get? o = some x → x.slots.owner = o
  slots : ∀ {o : ObjectId} {x : Object}, h.get? o = some x → ∀ q ∈ Mentions.objects x.slots, h.Has q
  payload : ∀ {o : ObjectId} {x : Object}, h.get? o = some x →
    ∀ q ∈ Mentions.objects x.payload, h.Has q ∧ q < o

lemma has_of_get? {h : Heap} {o : ObjectId} {x : Object} (hx : h.get? o = some x) : h.Has o := by
  simp [Has, hx]

lemma Has.add {h : Heap} {o : ObjectId} (ho : h.Has o) (x : Object) : (h.add x).Has o := by
  rw [Has, get?_add_of_lt h x (lt_nextId_of_isSome ho)]
  exact ho

lemma has_add (h : Heap) (x : Object) : (h.add x).Has h.nextId := by
  simp [Has]

@[simp] lemma has_skip (h : Heap) (o : ObjectId) : h.skip.Has o ↔ h.Has o := by
  simp [Has]

@[simp] lemma has_setSlots (h : Heap) (x : ObjectId) (s : Slots) (o : ObjectId) :
    (h.setSlots x s).Has o ↔ h.Has o := by
  simp only [Has, isSome_get?_setSlots]

/-- Objects that are there stay, with the payloads that they were made with. -/
lemma Change.kept {h h' : Heap} (change : h.Change h') {o : ObjectId} (ho : h.Has o) :
    h'.Has o ∧ h'.payload o = h.payload o := by
  have added : ∀ x, (h.add x).Has o ∧ (h.add x).payload o = h.payload o := fun x =>
    ⟨ho.add x, by simp only [payload, get?_add_of_lt h x (lt_nextId_of_isSome ho)]⟩
  cases change with
  | make | copy => exact added _
  | skip => exact ⟨(has_skip h o).mpr ho, by simp only [payload, get?_skip]⟩
  | put | take | protect | parent | stepparents =>
      exact ⟨(has_setSlots h _ _ o).mpr ho, payload_setSlots ..⟩

lemma Changes.kept {h h' : Heap} (changes : h.Changes h') {o : ObjectId} (ho : h.Has o) :
    h'.Has o ∧ h'.payload o = h.payload o := by
  induction changes with
  | refl => exact ⟨ho, rfl⟩
  | tail _ last ih =>
      obtain ⟨there, same⟩ := ih
      obtain ⟨there', same'⟩ := last.kept there
      exact ⟨there', same'.trans same⟩

namespace WellFormed

variable {h : Heap} (wf : h.WellFormed)
include wf

lemma known_iff {α : Type} [Mentions α] {a : α} :
    Known h.present a ↔ ∀ o ∈ Mentions.objects a, h.Has o := by
  constructor
  · intro known o ho
    rcases known o ho with rfl | there
    · exact wf.null
    · exact there
  · exact fun there o ho => .inr (there o ho)

lemma known_slots (o : ObjectId) : Known h.present (h.slots o) := by
  rw [Heap.slots]
  cases hx : h.get? o with
  | none => simp [Prototypal.known_slots, Slots.fresh, Key.readonly, Key.identity]
  | some x => exact wf.known_iff.mpr (wf.slots hx)

lemma known_payload (o : ObjectId) : Known h.present (h.payload o) := by
  rw [Heap.payload]
  cases hx : h.get? o with
  | none => exact known_plain
  | some x => exact wf.known_iff.mpr fun q hq => (wf.payload hx q hq).1

lemma slots_owner (o : ObjectId) : (h.slots o).owner = o := by
  rw [Heap.slots]
  cases hx : h.get? o with
  | none => rfl
  | some x => exact wf.owner hx

/-! ### Nesting -/

lemma older {o q : ObjectId} (hq : q ∈ Mentions.objects (h.payload o)) : q < o := by
  rw [Heap.payload] at hq
  split at hq
  · rename_i x hx
    exact (wf.payload hx q hq).2
  · simp [Mentions.objects] at hq

/-- Nothing is nested in itself, however deep. -/
lemma nesting : WellFounded fun q o => q ∈ Mentions.objects (h.payload o) :=
  Subrelation.wf wf.older Nat.lt_wfRel.wf

/-- Two depths that suffice unfold an object to the same view. -/
lemma unfold_agree (o m n : Nat) (hm : o < m) (hn : o < n) : h.unfold m o = h.unfold n o := by
  -- what is nested is older, so the induction is on the identity
  induction o using Nat.strongRecOn generalizing m n with
  | ind o ih =>
      obtain ⟨m, rfl⟩ : ∃ k, m = k + 1 := ⟨m - 1, by omega⟩
      obtain ⟨n, rfl⟩ : ∃ k, n = k + 1 := ⟨n - 1, by omega⟩
      have inside : ∀ q ∈ Mentions.objects (h.payload o), h.unfold m q = h.unfold n q := by
        intro q hq
        have older : q < o := wf.older hq
        exact ih q older m n (Nat.lt_of_lt_of_le older (Nat.le_of_lt_succ hm))
          (Nat.lt_of_lt_of_le older (Nat.le_of_lt_succ hn))
      rw [Heap.unfold, Heap.unfold]
      cases hp : h.payload o with
      | list items =>
          rw [hp] at inside
          refine congrArg (View.list o) (List.map_congr_left ?_)
          intro q hq
          exact inside q (List.mem_flatMap.mpr ⟨q, hq, by simp [Mentions.objects]⟩)
      | map entries =>
          rw [hp] at inside
          refine congrArg (View.map o) (List.map_congr_left ?_)
          rintro ⟨k, v⟩ he
          have member : ∀ q, q = k ∨ q = v → h.unfold m q = h.unfold n q := by
            intro q hq
            refine inside q (List.mem_flatMap.mpr ⟨(k, v), he, ?_⟩)
            simpa [Mentions.objects] using hq
          simp only [member k (.inl rfl), member v (.inr rfl)]
      | _ => rfl

/-- The view of an object is unfolded to the end. -/
lemma unfold_eq_view {o : ObjectId} {levels : Nat} (enough : o < levels) :
    h.unfold levels o = h.view o :=
  wf.unfold_agree o levels (o + 1) enough (Nat.lt_succ_self o)

/-! ### Changes -/

/-- Adding an object that is made of objects that are there. -/
lemma add {x : Object} (owner : x.slots.owner = h.nextId) (slots : Known h.present x.slots)
    (payload : Known h.present x.payload) : (h.add x).WellFormed where
  null := wf.null.add x
  below := lt_nextId_of_isSome
  owner {o y} hy := by
    rw [get?_add] at hy
    split at hy
    · rename_i new
      cases hy
      exact owner.trans new.symm
    · exact wf.owner hy
  slots {o y} hy q hq := by
    rw [get?_add] at hy
    split at hy
    · cases hy
      exact (wf.known_iff.mp slots q hq).add x
    · exact (wf.slots hy q hq).add x
  payload {o y} hy q hq := by
    rw [get?_add] at hy
    split at hy
    · rename_i new
      cases hy
      have there := wf.known_iff.mp payload q hq
      exact ⟨there.add x, new ▸ lt_nextId_of_isSome there⟩
    · obtain ⟨there, older⟩ := wf.payload hy q hq
      exact ⟨there.add x, older⟩

lemma skip : h.skip.WellFormed where
  null := (has_skip h nullId).mpr wf.null
  below := lt_nextId_of_isSome
  owner hx := wf.owner (by rwa [get?_skip] at hx)
  slots hx q hq := (has_skip h q).mpr (wf.slots (by rwa [get?_skip] at hx) q hq)
  payload hx q hq := by
    rw [get?_skip] at hx
    simpa using wf.payload hx q hq

/-- Replacing slots by slots of the same owner, with objects that are there. -/
lemma setSlots {o : ObjectId} {s : Slots} (owner : s.owner = o) (slots : Known h.present s) :
    (h.setSlots o s).WellFormed := by
  -- an object was there before, with its payload, and with its slots unless it is the changed one
  have before : ∀ {q : ObjectId} {x : Object}, (h.setSlots o s).get? q = some x →
      ∃ y, h.get? q = some y ∧ x.payload = y.payload ∧
        (x.slots = y.slots ∨ q = o ∧ x.slots = s) := by
    intro q x hx
    rw [get?_setSlots] at hx
    split at hx
    · rename_i same
      obtain ⟨y, hy, rfl⟩ := Option.map_eq_some_iff.mp hx
      exact ⟨y, hy, rfl, .inr ⟨same.symm, rfl⟩⟩
    · exact ⟨x, hx, rfl, .inl rfl⟩
  refine ⟨(has_setSlots ..).mpr wf.null, lt_nextId_of_isSome, ?_, ?_, ?_⟩
  · intro q x hx
    obtain ⟨y, hy, -, same | ⟨rfl, same⟩⟩ := before hx
    · rw [same]
      exact wf.owner hy
    · rw [same]
      exact owner
  · intro q x hx r hr
    rw [has_setSlots]
    obtain ⟨y, hy, -, same | ⟨-, same⟩⟩ := before hx
    · exact wf.slots hy r (same ▸ hr)
    · exact wf.known_iff.mp slots r (same ▸ hr)
  · intro q x hx r hr
    rw [has_setSlots]
    obtain ⟨y, hy, same, -⟩ := before hx
    exact wf.payload hy r (same ▸ hr)

end WellFormed

lemma wellFormed_initial : Heap.initial.WellFormed := by
  have alone : ∀ {o : ObjectId} {x : Object}, Heap.initial.get? o = some x →
      o = nullId ∧ x = ⟨.null, .sealed nullId⟩ := by
    intro o x hx
    match o with
    | 0 => cases hx
    | 1 => exact ⟨rfl, (Option.some.inj hx).symm⟩
    | o + 2 => cases hx
  refine ⟨rfl, lt_nextId_of_isSome, ?_, ?_, ?_⟩
  · rintro o x hx
    obtain ⟨rfl, rfl⟩ := alone hx
    rfl
  · rintro o x hx q hq
    obtain ⟨rfl, rfl⟩ := alone hx
    simp [Mentions.objects, Slots.sealed, Slots.fresh, Key.readonly, Key.identity] at hq
  · rintro o x hx q hq
    obtain ⟨rfl, rfl⟩ := alone hx
    simp [Mentions.objects] at hq

end Heap

/-! ## Slots that are written -/

section Slots

variable {K : Set ObjectId} {s : Slots} {k : Key}

lemma known_fresh {owner : ObjectId} {parent : Option ObjectId} {stepparents : List ObjectId}
    (above : Known K parent) (beside : Known K stepparents) :
    Known K (Slots.fresh owner parent stepparents) := by
  refine known_slots.mpr ⟨?_, ?_, above, beside⟩
  · simp [Slots.fresh]
  · simp [Slots.fresh, Key.readonly, Key.identity]

lemma Known.append {os : List ObjectId} (h : Known K os) {o : ObjectId} (ho : Known K o) :
    Known K (os ++ [o]) := by
  rw [known_list] at h ⊢
  intro q hq
  rcases List.mem_append.mp hq with hq | hq
  · exact h q hq
  · rw [List.mem_singleton.mp hq]
    exact ho

lemma Known.filter {α : Type} [Mentions α] {as : List α} (h : Known K as) (p : α → Bool) :
    Known K (as.filter p) := by
  rw [known_list] at h ⊢
  exact fun e he => h e (List.mem_filter.mp he).1

lemma Known.put (h : Known K s) (hk : Known K k) {v : ObjectId} (hv : Known K v) {p : Payload}
    (hp : Known K p) {t : Slots} (stored : s.put k v p = some t) :
    Known K t ∧ t.owner = s.owner := by
  obtain ⟨table, readonlyKeys, above, beside⟩ := known_slots.mp h
  simp only [Slots.put] at stored
  split at stored
  · cases stored
    refine ⟨known_slots.mpr ⟨table, readonlyKeys, ?_, beside⟩, rfl⟩
    dsimp only
    split
    · exact known_none
    · exact known_some.mpr hv
  · split at stored
    · obtain ⟨items, hitems, rfl⟩ := Option.map_eq_some_iff.mp stored
      refine ⟨known_slots.mpr ⟨table, readonlyKeys, above, ?_⟩, rfl⟩
      cases p with
      | list xs =>
          obtain rfl : xs = items := Option.some.inj hitems
          exact hp
      | _ => cases hitems
    · cases stored
      refine ⟨known_slots.mpr ⟨?_, readonlyKeys, above, beside⟩, rfl⟩
      exact known_cons.mpr ⟨known_pair.mpr ⟨hk, hv⟩, table.filter _⟩

/-- What a key held, and what is left without it. -/
lemma Known.take (h : Known K s) (k : Key) :
    Known K (s.take k).1 ∧ Known K (s.take k).2 ∧ (s.take k).2.owner = s.owner := by
  obtain ⟨table, readonlyKeys, above, beside⟩ := known_slots.mp h
  simp only [Slots.take]
  split
  · exact ⟨above.stored, known_slots.mpr ⟨table, readonlyKeys, known_none, beside⟩, rfl⟩
  · split
    · refine ⟨?_, known_slots.mpr ⟨table, readonlyKeys, above, by simp⟩, rfl⟩
      dsimp only
      split
      · exact known_none
      · exact known_some.mpr (known_group.mpr beside)
    · refine ⟨table.lookup.stored, ?_, rfl⟩
      exact known_slots.mpr ⟨table.filter _, readonlyKeys, above, beside⟩

/-- A key that is taken out held an object or the stepparents; no other entry can be taken. -/
lemma Slots.take_cases (s : Slots) (k : Key) : (s.take k).1 = none ∨
    (∃ v, (s.take k).1 = some (.stored v)) ∨ ∃ os, (s.take k).1 = some (.group os) := by
  have stored : ∀ x : Option ObjectId, x.map Entry.stored = none ∨
      (∃ v, x.map Entry.stored = some (.stored v)) ∨
        ∃ os, x.map Entry.stored = some (.group os) := by
    rintro (_ | v)
    · exact .inl rfl
    · exact .inr (.inl ⟨v, rfl⟩)
  simp only [take]
  split
  · exact stored s.parent
  · split
    · dsimp only
      split
      · exact .inl rfl
      · exact .inr (.inr ⟨_, rfl⟩)
    · exact stored (s.find? k)

lemma Known.protect (h : Known K s) (hk : Known K k) :
    Known K (s.protect k) ∧ (s.protect k).owner = s.owner := by
  obtain ⟨table, readonlyKeys, above, beside⟩ := known_slots.mp h
  rw [Slots.protect]
  split
  · exact ⟨h, rfl⟩
  · exact ⟨known_slots.mpr ⟨table, known_cons.mpr ⟨hk, readonlyKeys⟩, above, beside⟩, rfl⟩

end Slots

/-! ## Walks -/

/-- What a lookup finds is held by an object that is there, and is there itself. -/
lemma Heap.WellFormed.known_own {h : Heap} (wf : h.WellFormed) (k : Key) {found : Option Found}
    (held : ∀ x, found = some x → ∃ o, h.own? k o = some x) : Known h.present found := by
  cases found with
  | none => exact known_none
  | some x =>
      obtain ⟨o, ho⟩ := held x rfl
      obtain ⟨v, hv, rfl⟩ := Option.map_eq_some_iff.mp ho
      have value : Known h.present v := by
        have lookup : Known h.present ((h.slots o).find? k) :=
          (Prototypal.known_slots.mp (wf.known_slots o)).1.lookup
        rw [hv] at lookup
        exact known_some.mp lookup
      -- an object that is not there has an empty table
      have holder : h.Has o := by
        rw [Heap.slots] at hv
        cases hx : h.get? o with
        | none =>
            rw [hx] at hv
            cases hv
        | some y => exact has_of_get? hx
      exact known_some.mpr (known_found.mpr ⟨known_id.mpr (.inr holder), value⟩)

/-! ## States -/

/-- A well-formed heap, and variables with objects that are there. -/
structure State.Sound (s : State) : Prop where
  heap : s.heap.WellFormed
  bindings : Known s.heap.present s.bindings

/-- A sound state with the objects that an outcome mentions. -/
def Outcome.Sound {α : Type} (mentioned : α → List ObjectId) : Outcome α → Prop
  | .ok a t => t.Sound ∧ ∀ o ∈ mentioned a, t.heap.Has o
  | .error i t => t.Sound ∧ ∀ e, i = .escape e → t.heap.Has e.value

namespace State.Sound

variable {s t : State} (hs : s.Sound)
include hs

lemma same (heap : t.heap = s.heap) (bindings : t.bindings = s.bindings) : t.Sound := by
  constructor
  · rw [heap]
    exact hs.heap
  · rw [heap, bindings]
    exact hs.bindings

/-- Whatever happens to the heap, the variables keep their objects. -/
lemma withHeap {h : Heap} (wf : h.WellFormed) (kept : s.heap.present ⊆ h.present) :
    State.Sound { s with heap := h } :=
  ⟨wf, hs.bindings.mono kept⟩

lemma added {x : Object} (owner : x.slots.owner = s.heap.nextId)
    (slots : Known s.heap.present x.slots) (payload : Known s.heap.present x.payload) :
    State.Sound { s with heap := s.heap.add x } :=
  hs.withHeap (hs.heap.add owner slots payload) fun _ ho => Heap.Has.add ho x

lemma written {o : ObjectId} {slots : Slots} (owner : slots.owner = o)
    (known : Known s.heap.present slots) :
    State.Sound { s with heap := s.heap.setSlots o slots } :=
  hs.withHeap (hs.heap.setSlots owner known) fun _ ho => (Heap.has_setSlots ..).mpr ho

end State.Sound

namespace Outcome.Sound

variable {α : Type} {mentioned : α → List ObjectId} {s t : State}

lemma nothing {a : α} (ht : t.Sound) : Outcome.Sound (fun _ => []) (.ok a t) :=
  ⟨ht, fun _ => nofun⟩

lemma known [Mentions α] {a : α} (ht : t.Sound) (ha : Known t.heap.present a) :
    Outcome.Sound Mentions.objects (.ok a t) :=
  ⟨ht, ht.heap.known_iff.mp ha⟩

lemma fault {x : Fault} (ht : t.Sound) : Outcome.Sound mentioned (.error (.fault x) t) :=
  ⟨ht, nofun⟩

lemma escape {e : Escape} (ht : t.Sound) (he : Known t.heap.present e.value) :
    Outcome.Sound mentioned (.error (.escape e) t) := by
  refine ⟨ht, fun e' same => ?_⟩
  obtain rfl : e = e' := Interrupt.escape.inj same
  exact ht.heap.known_iff.mp he e.value List.mem_cons_self

/-- A new object, which is all that is mentioned. -/
lemma made {x : Object} (ht : State.Sound { s with heap := s.heap.add x }) :
    Outcome.Sound Mentions.objects
      (.ok s.heap.nextId { s with heap := s.heap.add x } : Outcome ObjectId) :=
  known ht (known_id.mpr (.inr (s.heap.has_add x)))

end Outcome.Sound

/-! ## Operations -/

section Operations

variable {s : State} (hs : s.Sound)
include hs

lemma State.Sound.make {p : Payload} {parent : Option ObjectId} {stepparents : List ObjectId}
    (payload : Known s.heap.present p) (above : Known s.heap.present parent)
    (beside : Known s.heap.present stepparents) :
    Outcome.Sound Mentions.objects (makeWith p parent stepparents s) :=
  .made (hs.added rfl (known_fresh above beside) payload)

lemma State.Sound.slotSet {o : ObjectId} {k : Key} {v : ObjectId} (hk : Known s.heap.present k)
    (hv : Known s.heap.present v) : Outcome.Sound (fun _ => []) (slotSet o k v s) := by
  rw [slotSet_run]
  split
  · exact .fault hs
  · split
    · rename_i slots stored
      obtain ⟨known, owner⟩ :=
        (hs.heap.known_slots o).put hk hv (hs.heap.known_payload v) stored
      have sound := hs.written (owner.trans (hs.heap.slots_owner o)) known
      exact .nothing (sound.same rfl rfl)
    · exact .fault (hs.same rfl rfl)

lemma State.Sound.slotDelete (o : ObjectId) (k : Key) :
    Outcome.Sound Mentions.objects (slotDelete o k s) := by
  rw [slotDelete_run]
  split
  · exact .fault hs
  · obtain ⟨held, known, owner⟩ := (hs.heap.known_slots o).take k
    have sound : (s.taken o k).Sound :=
      (hs.written (owner.trans (hs.heap.slots_owner o)) known).same rfl rfl
    have there : Known (s.taken o k).heap.present ((s.heap.slots o).take k).1 :=
      held.mono fun _ hq => (Heap.has_setSlots ..).mpr hq
    rcases (s.heap.slots o).take_cases k with entry | ⟨v, entry⟩ | ⟨os, entry⟩
    · rw [entry]
      exact .known sound (known_null _)
    · rw [entry] at there ⊢
      exact .known sound (known_stored.mp (known_some.mp there))
    · rw [entry] at there ⊢
      exact sound.make (known_group.mp (known_some.mp there)) known_none (by simp)

/-- A write that asks for the seal alone. -/
lemma State.Sound.unlessSealed {o : ObjectId} {write : SilentWrite} {act : Slots → Run Unit}
    (h : Outcome.Sound (fun _ => []) (act (s.heap.slots o) s)) :
    Outcome.Sound (fun _ => []) (unlessSealed o write act s) := by
  rw [unlessSealed_run]
  split
  · exact .nothing (hs.same rfl rfl)
  · exact h

end Operations

/-- **An operation that is handed objects that are there leaves a sound state behind,** and the
objects that its result mentions are there. -/
theorem Provided.sound {f : Fragment} {α : Type} {act : Run α} {mentioned : α → List ObjectId}
    {s : State} (h : Provided f s.heap.present act mentioned) (hs : s.Sound) :
    Outcome.Sound mentioned (act s) := by
  cases h with
  | look g => exact .nothing hs
  | payloadOf o => exact .known hs (hs.heap.known_payload o)
  | slotsOf o => exact .known hs (hs.heap.known_slots o)
  | valueOf name =>
      have value : Known s.heap.present (s.bindings.lookup name) := hs.bindings.lookup
      exact .known hs (value.withDefault (known_value.mpr (known_null _)))
  | note e he => exact .nothing (hs.same rfl rfl)
  | makeWith p parent stepparents hp payload above beside => exact hs.make payload above beside
  | makeClosure b hb =>
      have unbound : Known s.heap.present (Payload.closure ⟨s.heap.nextId, b, none⟩) := known_none
      exact hs.make unbound known_none (by simp)
  | copy o => exact .made (hs.added rfl (hs.heap.known_slots o) (hs.heap.known_payload o))
  | skipId =>
      refine .nothing (hs.withHeap hs.heap.skip fun o ho => ?_)
      exact (Heap.has_skip ..).mpr ho
  | intern text =>
      rw [intern_run]
      cases s.names.intern text with
      | some r => exact .nothing (hs.same rfl rfl)
      | none => exact ⟨hs, nofun⟩
  | assign name v hv =>
      refine .nothing ⟨hs.heap, known_cons.mpr ⟨known_pair.mpr ⟨fun _ => nofun, hv⟩, ?_⟩⟩
      exact hs.bindings.filter _
  | emit j => exact .nothing (hs.same rfl rfl)
  | slotSet o k v hk hv => exact hs.slotSet hk hv
  | slotDelete o k => exact hs.slotDelete o k
  | makeReadonly o k hk =>
      obtain ⟨known, owner⟩ := (hs.heap.known_slots o).protect hk
      have sound := hs.written (owner.trans (hs.heap.slots_owner o)) known
      exact hs.unlessSealed (.nothing (sound.same rfl rfl))
  | setParent o parent above =>
      obtain ⟨table, readonlyKeys, -, beside⟩ := known_slots.mp (hs.heap.known_slots o)
      refine hs.unlessSealed (.nothing (hs.written (hs.heap.slots_owner o) ?_))
      exact known_slots.mpr ⟨table, readonlyKeys, above, beside⟩
  | pushStepparent o stepparent h =>
      obtain ⟨table, readonlyKeys, above, beside⟩ := known_slots.mp (hs.heap.known_slots o)
      refine hs.unlessSealed (.nothing (hs.written (hs.heap.slots_owner o) ?_))
      exact known_slots.mpr ⟨table, readonlyKeys, above, beside.append h⟩
  | resolve o k hk =>
      rw [resolve_run hk]
      refine .known (hs.same rfl rfl) (hs.heap.known_own k fun x hx => ?_)
      exact Heap.exists_own_of_resolve? hx
  | resolveAbove o k =>
      cases hk : k.isReserved with
      | true =>
          rw [Prototypal.resolveAbove, if_pos hk]
          exact .known hs known_none
      | false =>
          rw [resolveAbove_run hk]
          refine .known (hs.same rfl rfl) (hs.heap.known_own k fun x hx => ?_)
          obtain ⟨y, _, held⟩ := Heap.exists_own_of_resolveAbove? hx
          exact ⟨y, held⟩
  | isA o target =>
      rw [isA_run]
      exact .nothing (hs.same rfl rfl)
  | fail x => exact .fault hs

/-- The same for all elementary operations. -/
theorem Handed.sound {f : Fragment} {α : Type} {act : Run α} {mentioned : α → List ObjectId}
    {s : State} (h : Handed f s.heap.present act mentioned) (hs : s.Sound) :
    Outcome.Sound mentioned (act s) := by
  cases h with
  | provided h => exact h.sound hs
  | given a ha => exact .known hs ha
  | look g => exact .nothing hs
  | violated v => exact .nothing (hs.same rfl rfl)
  | setStrictness l => exact .nothing (hs.same rfl rfl)
  | fixSettings x =>
      rw [fixSettings_run]
      cases s.fixed with
      | some _ => exact ⟨hs, nofun⟩
      | none => exact .nothing (hs.same rfl rfl)
  | returnLevels n hv =>
      rw [returnLevels_run]
      split
      · exact .fault hs
      · exact .escape (hs.same rfl rfl) hv
  | returnTo token hv =>
      rw [returnTo_run]
      split
      · exact .fault hs
      · split
        · exact .escape (hs.same rfl rfl) hv
        · exact .fault hs
  | raise e he => exact .escape hs he

end Prototypal
