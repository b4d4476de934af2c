import Mathlib.Data.Set.Basic
import Prototypal.Script.Eval

/-!
# Which objects a value mentions

Scripts get hold of objects by making them and by reading them out of the heap; an identity that was
never handed out is never used.  To say so, each kind of value is given the list of the objects that
it mentions.

* `Mentions` — the objects that a value mentions, for the values that computations hand on.
* `Known` — all objects that a value mentions are among given ones.  Null is always known.
* `adding` — the given objects and those that a value mentions.

The last section follows known objects through the parts of slots, entries and invocations.
-/

namespace Prototypal

/-- The objects that a value mentions. -/
class Mentions (α : Type) where
  objects : α → List ObjectId

open Mentions (objects)

/-- Values of which no object is asked. -/
@[reducible] def Mentions.none (α : Type) : Mentions α :=
  ⟨fun _ => []⟩

instance : Mentions ObjectId := ⟨fun o => [o]⟩
instance : Mentions Unit := .none Unit
instance : Mentions Bool := .none Bool
instance : Mentions String := .none String
instance : Mentions Float := .none Float
instance : Mentions Json := .none Json
instance : Mentions Kind := .none Kind
instance : Mentions Symbol := .none Symbol
instance : Mentions Role := .none Role

instance {α : Type} [Mentions α] : Mentions (Option α) := ⟨fun x => x.toList.flatMap objects⟩
instance {α : Type} [Mentions α] : Mentions (List α) := ⟨fun xs => xs.flatMap objects⟩
instance {α β : Type} [Mentions α] [Mentions β] : Mentions (α × β) :=
  ⟨fun x => objects x.1 ++ objects x.2⟩

instance : Mentions Key where
  objects
    | .name _ => []
    | .object o => [o]

/-- The object that first carried a body tells bodies apart; it is never handed out. -/
instance : Mentions Closure where
  objects c := objects c.owner

instance : Mentions Payload where
  objects
    | .list items => objects items
    | .map entries => objects entries
    | .closure c => objects c
    | _ => []

instance : Mentions Slots where
  objects s := objects s.table ++ objects s.readonlyKeys ++ objects s.parent ++ s.stepparents

instance : Mentions Entry where
  objects
    | .stored o => [o]
    | .identity _ => []
    | .keys ks => objects ks
    | .group os => os

instance : Mentions Found where
  objects f := [f.holder, f.value]

instance : Mentions Value where
  objects
    | .object o => [o]
    | .host _ => []

instance : Mentions Activation where
  objects
    | .body c holder args => objects c ++ objects holder ++ args
    | .value v args => v :: args

instance : Mentions Invocation where
  objects i := objects i.receiver ++ objects i.holder ++ i.args

/-! ## Known values -/

section Known

variable {α β : Type} [Mentions α] [Mentions β] {K K' : Set ObjectId}

/-- All objects that a value mentions are among given ones, Null apart. -/
def Known (K : Set ObjectId) (a : α) : Prop :=
  ∀ o ∈ objects a, o = nullId ∨ o ∈ K

/-- Given objects and those that a value mentions. -/
def adding (K : Set ObjectId) (a : α) : Set ObjectId :=
  K ∪ {o | o ∈ objects a}

lemma Known.mono {a : α} (h : Known K a) (larger : K ⊆ K') : Known K' a :=
  fun o ho => (h o ho).imp_right fun known => larger known

lemma subset_adding (K : Set ObjectId) (a : α) : K ⊆ adding K a :=
  Set.subset_union_left

lemma adding_mono (larger : K ⊆ K') (a : α) : adding K a ⊆ adding K' a :=
  Set.union_subset_union_left _ larger

lemma known_univ (a : α) : Known Set.univ a :=
  fun o _ => .inr (Set.mem_univ o)

lemma known_adding (K : Set ObjectId) (a : α) : Known (adding K a) a :=
  fun _ ho => .inr (.inr ho)

@[simp] lemma known_id {o : ObjectId} : Known K o ↔ o = nullId ∨ o ∈ K := by
  simp [Known, objects]

lemma known_null (K : Set ObjectId) : Known K nullId :=
  known_id.mpr (.inl rfl)

@[simp] lemma known_none : Known K (none : Option α) := by
  simp [Known, objects]

@[simp] lemma known_some {a : α} : Known K (some a) ↔ Known K a := by
  simp [Known, objects]

@[simp] lemma known_list {as : List α} : Known K as ↔ ∀ a ∈ as, Known K a := by
  simp only [Known, objects, List.mem_flatMap]
  exact ⟨fun h a ha o ho => h o ⟨a, ha, ho⟩, fun h o ⟨a, ha, ho⟩ => h a ha o ho⟩

lemma known_cons {a : α} {as : List α} : Known K (a :: as) ↔ Known K a ∧ Known K as := by
  simp only [known_list, List.forall_mem_cons]

@[simp] lemma known_pair {a : α} {b : β} : Known K (a, b) ↔ Known K a ∧ Known K b := by
  simp only [Known, objects, List.mem_append, or_imp, forall_and]

lemma Known.withDefault {x : Option α} (h : Known K x) {a : α} (ha : Known K a) :
    Known K (x.getD a) := by
  cases x with
  | none => exact ha
  | some b => exact known_some.mp h

lemma Known.getD {x : Option ObjectId} (h : Known K x) : Known K (x.getD nullId) :=
  h.withDefault (known_null K)

lemma Known.getD_list {os : List ObjectId} (h : Known K os) (n : Nat) :
    Known K (os.getD n nullId) := by
  rw [List.getD_eq_getElem?_getD]
  cases ho : os[n]? with
  | none => exact known_null K
  | some o => exact known_list.mp h o (List.mem_of_getElem? ho)

lemma Known.headD {os : List ObjectId} (h : Known K os) : Known K (os.headD nullId) := by
  cases os with
  | nil => exact known_null K
  | cons o os => exact known_list.mp h o List.mem_cons_self

end Known

/-! ## Parts of values -/

section Parts

variable {K : Set ObjectId}

@[simp] lemma known_name {y : Symbol} : Known K (Key.name y) := by
  simp [Known, objects]

@[simp] lemma known_object {o : ObjectId} : Known K (Key.object o) ↔ Known K o := by
  simp [Known, objects]

@[simp] lemma known_value {o : ObjectId} : Known K (Value.object o) ↔ Known K o := by
  simp [Known, objects]

@[simp] lemma known_host {j : Json} : Known K (Value.host j) := by
  simp [Known, objects]

@[simp] lemma known_plain : Known K Payload.plain := by
  simp [Known, objects]

@[simp] lemma known_found {f : Found} : Known K f ↔ Known K f.holder ∧ Known K f.value := by
  simp [Known, objects]

@[simp] lemma known_closure {c : Closure} : Known K c ↔ Known K c.owner :=
  Iff.rfl

lemma Known.bind {o : ObjectId} (h : Known K o) (c : Closure) : Known K (c.bind o) :=
  known_some.mpr h

/-- A closure that was read from a known payload is known. -/
lemma Known.of_closure? {p : Payload} {c : Closure} (h : Known K p) (hc : p.closure? = some c) :
    Known K c := by
  cases p with
  | closure d =>
      obtain rfl : d = c := Option.some.inj hc
      exact h
  | _ => cases hc

@[simp] lemma known_body {c : Closure} {holder : Option ObjectId} {args : List ObjectId} :
    Known K (Activation.body c holder args) ↔ Known K c ∧ Known K holder ∧ Known K args := by
  have known : Known K args ↔ ∀ o ∈ args, o = nullId ∨ o ∈ K := by simp
  rw [known]
  simp only [Known, objects, List.mem_append, or_imp, forall_and, and_assoc]

@[simp] lemma known_call {v : ObjectId} {args : List ObjectId} :
    Known K (Activation.value v args) ↔ Known K v ∧ Known K args := by
  simp [Known, objects]

lemma known_invocation {i : Invocation} :
    Known K i ↔ Known K i.receiver ∧ Known K i.holder ∧ Known K i.args := by
  have known : Known K i.args ↔ ∀ o ∈ i.args, o = nullId ∨ o ∈ K := by simp
  rw [known]
  simp only [Known, objects, List.mem_append, or_imp, forall_and, and_assoc]

lemma Known.this {i : Invocation} (h : Known K i) : Known K i.this :=
  (known_invocation.mp h).1.getD

lemma Known.args {i : Invocation} (h : Known K i) : Known K i.args :=
  (known_invocation.mp h).2.2

lemma Known.arg {i : Invocation} (h : Known K i) (n : Nat) : Known K (i.arg n) :=
  h.args.getD_list n

lemma Known.lastValue {vs : List Value} (h : Known K vs) : Known K (lastValue vs) := by
  rw [Prototypal.lastValue, List.getLastD_eq_getLast?]
  refine Known.withDefault ?_ (known_value.mpr (known_null K))
  cases hv : vs.getLast? with
  | none => exact known_none
  | some v => exact known_some.mpr (known_list.mp h v (List.mem_of_getLast? hv))

lemma known_slots {s : Slots} : Known K s ↔
    Known K s.table ∧ Known K s.readonlyKeys ∧ Known K s.parent ∧ Known K s.stepparents := by
  have known : Known K s.stepparents ↔ ∀ o ∈ s.stepparents, o = nullId ∨ o ∈ K := by simp
  rw [known]
  simp only [Known, objects, List.mem_append, or_imp, forall_and, and_assoc]

/-- What is found under a key is part of the table. -/
lemma Known.lookup {κ α : Type} [BEq κ] [LawfulBEq κ] [Mentions κ] [Mentions α]
    {table : List (κ × α)} {k : κ} (h : Known K table) : Known K (table.lookup k) := by
  cases hv : table.lookup k with
  | none => exact known_none
  | some v =>
      obtain ⟨older, newer, split, -⟩ := List.lookup_eq_some_iff.mp hv
      have member : (k, v) ∈ table := by simp [split]
      exact known_some.mpr (known_pair.mp (known_list.mp h _ member)).2

/-- The stepparents among the parts of an object under construction. -/
lemma Known.stepparents {parts : List (Role × ObjectId)} (h : Known K parts) :
    Known K (parts.filterMap fun (r, o) => if r = .stepparent then some o else none) := by
  rw [known_list]
  intro o ho
  obtain ⟨⟨r, x⟩, member, played⟩ := List.mem_filterMap.mp ho
  dsimp only at played
  split at played
  · cases played
    exact (known_pair.mp (known_list.mp h _ member)).2
  · cases played

@[simp] lemma known_stored {o : ObjectId} : Known K (Entry.stored o) ↔ Known K o := by
  simp [Known, objects]

lemma known_group {os : List ObjectId} : Known K (Entry.group os) ↔ Known K os := by
  simp [Known, objects]

lemma Known.stored {x : Option ObjectId} (h : Known K x) : Known K (x.map Entry.stored) := by
  cases x with
  | none => exact known_none
  | some o => exact known_some.mpr (known_stored.mpr (known_some.mp h))

/-- What a key is answered with is part of the slots. -/
lemma Known.read? {s : Slots} (h : Known K s) (k : Key) : Known K (s.read? k) := by
  obtain ⟨table, readonlyKeys, parent, stepparents⟩ := known_slots.mp h
  rw [Slots.read?]
  split
  · exact fun _ => nofun
  · split
    · exact known_some.mpr readonlyKeys
    · split
      · exact parent.stored
      · split
        · split
          · exact known_none
          · exact known_some.mpr (known_group.mpr stepparents)
        · exact table.lookup.stored

end Parts

end Prototypal
