import Mathlib.Data.Finset.Card
import Mathlib.Tactic.Common
import Prototypal.Proofs.Control

/-!
# Interning is a stable bijection

A table of names has two parts: the row of the texts, which is asked for the text of a symbol, and
the map, which is asked for the symbol of a text.  They are inverse to each other, since a text is
entered into both, and only if it is new.

* `Names.InStep` — the two parts are inverse to each other, and the row is no longer than it may be.
* `Names.InStep.enter` — what entering a new text keeps; `Names.InStep.intern`, the same of a call.
* `Names.assigns_intern` — what a call does to the row; the facts about symbols are derived from it.
* `Names.after` — a table after any row of calls, and `Names.Issued`, the symbols given out by then.
* `Names.exists_after_iff` — the calls succeed exactly if the different texts fit into a table.
* `Symbol.constants` — the symbols that are fixed, with the names that they stand for.
* `interning_stable_bijection` — the statement about tables, and about keys that are turned into
  objects and back.
-/

namespace Prototypal

/-- The fixed symbols, each with the name that it stands for. -/
def Symbol.constants : List (Symbol × String) :=
  [(.identity, "__id__"), (.readonly, "__readonly__"), (.parent, "__parent__"),
    (.stepparents, "__stepparents__"), (.call, "()"), (.asBool, "@bool"), (.asNum, "@num"),
    (.asText, "@text"), (.asList, "@list"), (.asMap, "@map"), (.bind, "bind"), (.birth, "birth"),
    (.isA, "is_a"), (.super, "super"), (.clone, "clone"), (.identical, "==="),
    (.notIdentical, "!=="), (.equal, "=="), (.notEqual, "!="), (.not, "!"), (.hash, "@hash"),
    (.respondTo, "respond_to"), (.attempt, "try"), (.leave, "return"), (.init, "init")]

namespace Names

variable {names later : Names} {y z : Symbol} {t u : String}

/-- A text stands at the position of a symbol. -/
def Assigns (names : Names) (y : Symbol) (t : String) : Prop :=
  names.texts[y.index]? = some t

/-- The two parts of a table are inverse to each other: the map leads from a text to a symbol
exactly if the text stands at the position of the symbol. -/
structure InStep (names : Names) : Prop where
  inverse : ∀ y t, names.find? t = some y ↔ names.Assigns y t
  fits : names.texts.size ≤ capacity

lemma Assigns.text (h : names.Assigns y t) : names.text y = t := by
  rw [Names.text, Array.getD_eq_getD_getElem?, show names.texts[y.index]? = some t from h]
  rfl

lemma mem_texts_iff : t ∈ names.texts.toList ↔ ∃ y, names.Assigns y t := by
  rw [List.mem_iff_getElem?]
  constructor
  · rintro ⟨i, h⟩
    exact ⟨⟨i⟩, by simpa [Assigns] using h⟩
  · rintro ⟨y, h⟩
    exact ⟨y.index, by simpa [Assigns] using h⟩

/-! ## Entering a text -/

lemma assigns_enter :
    (names.enter t).2.Assigns y u ↔ names.Assigns y u ∨ y = (names.enter t).1 ∧ u = t := by
  obtain ⟨n⟩ := y
  by_cases last : n = names.texts.size
  · subst last
    simp [enter, Assigns, eq_comm]
  · simp [enter, Assigns, Array.getElem?_push, last]

lemma find?_enter :
    (names.enter t).2.find? u = if u = t then some (names.enter t).1 else names.find? u := by
  by_cases same : u = t
  · simp [find?, enter, same]
  · have apart : (u == t) = false := by simpa using same
    simp only [find?, enter, List.lookup_cons, apart, if_neg same]

namespace InStep

variable (inStep : names.InStep)
include inStep

/-- No text stands at two positions. -/
lemma eq_of_assigns (hy : names.Assigns y t) (hz : names.Assigns z t) : y = z :=
  Option.some_inj.mp (((inStep.inverse y t).mpr hy).symm.trans ((inStep.inverse z t).mpr hz))

/-- A text that the map does not know stands nowhere. -/
lemma find?_eq_none_iff : names.find? t = none ↔ t ∉ names.texts.toList := by
  rw [mem_texts_iff, Option.eq_none_iff_forall_ne_some]
  simp only [ne_eq, inStep.inverse, not_exists]

lemma nodup : names.texts.toList.Nodup := by
  rw [List.nodup_iff_getElem?_ne_getElem?]
  intro i j less inside same
  obtain ⟨t, ht⟩ : ∃ t, names.texts.toList[j]? = some t := ⟨_, List.getElem?_eq_getElem inside⟩
  have first : names.Assigns ⟨i⟩ t := by simpa [Assigns] using same.trans ht
  have second : names.Assigns ⟨j⟩ t := by simpa [Assigns] using ht
  have equal : i = j := Symbol.mk.inj (inStep.eq_of_assigns first second)
  omega

/-- **Entering a new text keeps the two parts in step.** -/
theorem enter (new : names.find? t = none) (room : names.texts.size < capacity) :
    (names.enter t).2.InStep where
  inverse y u := by
    rw [find?_enter, assigns_enter, ← inStep.inverse]
    by_cases same : u = t
    · subst same
      simp [new, eq_comm]
    · simp [same]
  fits := by
    simp only [Names.enter, Array.size_push]
    omega

end InStep

/-! ## One call -/

/-- A call answers with the symbol that the map has, or enters the text. -/
lemma intern_cases (h : names.intern t = some (y, later)) :
    names.find? t = some y ∧ later = names ∨
      names.find? t = none ∧ names.texts.size < capacity ∧ names.enter t = (y, later) := by
  rw [intern] at h
  split at h
  · rename_i x found
    cases h
    exact .inl ⟨found, rfl⟩
  · rename_i new
    rw [insert] at h
    split at h
    · rename_i room
      exact .inr ⟨new, room, Option.some_inj.mp h⟩
    · cases h

section

variable (inStep : names.InStep)
include inStep

/-- Interning answers with the symbol of the text, and assigns nothing but that text to it. -/
lemma assigns_intern (h : names.intern t = some (y, later)) :
    later.Assigns z u ↔ names.Assigns z u ∨ z = y ∧ u = t := by
  obtain ⟨found, rfl⟩ | ⟨-, -, entered⟩ := intern_cases h
  · constructor
    · exact .inl
    · rintro (old | ⟨rfl, rfl⟩)
      · exact old
      · exact (inStep.inverse _ _).mp found
  · have both : (names.enter t).2.Assigns z u ↔ _ := assigns_enter
    rwa [entered] at both

lemma assigns_intern_self (h : names.intern t = some (y, later)) : later.Assigns y t :=
  (assigns_intern inStep h).mpr (.inr ⟨rfl, rfl⟩)

lemma InStep.intern (h : names.intern t = some (y, later)) : later.InStep := by
  obtain ⟨-, rfl⟩ | ⟨new, room, entered⟩ := intern_cases h
  · exact inStep
  · have next := inStep.enter new room
    rwa [entered] at next

/-- A text that has a symbol is answered with it, and the table stays as it is. -/
lemma intern_of_assigns (h : names.Assigns y t) : names.intern t = some (y, names) := by
  rw [Names.intern, (inStep.inverse y t).mpr h]

/-- A call fails exactly if the text is new and the table is full. -/
lemma intern_eq_none_iff :
    names.intern t = none ↔ t ∉ names.texts.toList ∧ names.texts.size = capacity := by
  rw [← inStep.find?_eq_none_iff]
  have fits := inStep.fits
  cases found : names.find? t with
  | some y => simp [Names.intern, found]
  | none =>
      simp only [Names.intern, found, insert, true_and]
      split
      · simp
        omega
      · simp
        omega

lemma mem_texts_intern (h : names.intern t = some (y, later)) :
    u ∈ later.texts.toList ↔ u ∈ names.texts.toList ∨ u = t := by
  simp only [mem_texts_iff, assigns_intern inStep h, exists_or, exists_eq_left]

end

/-! ## Rows of calls -/

/-- The table after texts have been interned, one after the other. -/
def after (names : Names) : List String → Option Names
  | [] => some names
  | t :: ts => (names.intern t).bind fun r => r.2.after ts

/-- The symbols that are given out by the time at which texts have been interned: the fixed ones,
and the answers of the calls. -/
def Issued (ts : List String) (y : Symbol) : Prop :=
  (∃ t, (y, t) ∈ Symbol.constants) ∨
    ∃ past t rest names later, ts = past ++ t :: rest ∧ predefined.after past = some names ∧
      names.intern t = some (y, later)

lemma after_append (names : Names) (ts us : List String) :
    names.after (ts ++ us) = (names.after ts).bind fun later => later.after us := by
  induction ts generalizing names with
  | nil => rfl
  | cons t ts ih =>
      rw [List.cons_append, after, after, Option.bind_assoc]
      exact Option.bind_congr fun r _ => ih r.2

lemma after_cons_eq_some_iff {ts : List String} :
    names.after (t :: ts) = some later ↔
      ∃ y next, names.intern t = some (y, next) ∧ next.after ts = some later := by
  rw [after, Option.bind_eq_some_iff, Prod.exists]

section

variable (inStep : names.InStep)
include inStep

lemma InStep.after {ts : List String} (h : names.after ts = some later) : later.InStep := by
  induction ts generalizing names with
  | nil =>
      cases h
      exact inStep
  | cons t ts ih =>
      obtain ⟨y, next, interned, rest⟩ := after_cons_eq_some_iff.mp h
      exact ih (inStep.intern interned) rest

/-- What has been assigned stays assigned. -/
lemma assigns_after {ts : List String} (old : names.Assigns y t) (h : names.after ts = some later) :
    later.Assigns y t := by
  induction ts generalizing names with
  | nil =>
      cases h
      exact old
  | cons u ts ih =>
      obtain ⟨z, next, interned, rest⟩ := after_cons_eq_some_iff.mp h
      exact ih (inStep.intern interned) ((assigns_intern inStep interned).mpr (.inl old)) rest

/-- The texts of a table after some calls are those of before and those of the calls. -/
lemma mem_texts_after {ts : List String} (h : names.after ts = some later) :
    u ∈ later.texts.toList ↔ u ∈ names.texts.toList ++ ts := by
  induction ts generalizing names with
  | nil =>
      cases h
      rw [List.append_nil]
  | cons t ts ih =>
      obtain ⟨y, next, interned, rest⟩ := after_cons_eq_some_iff.mp h
      rw [ih (inStep.intern interned) rest, List.mem_append, mem_texts_intern inStep interned]
      simp [or_assoc]

/-- A table has as many positions as there are different texts. -/
lemma size_after {ts : List String} (h : names.after ts = some later) :
    later.texts.size = (names.texts.toList ++ ts).toFinset.card := by
  have same : later.texts.toList.toFinset = (names.texts.toList ++ ts).toFinset := by
    ext u
    simpa using mem_texts_after inStep h
  rw [← same, List.toFinset_card_of_nodup (inStep.after h).nodup, Array.length_toList]

/-- **A row of calls succeeds exactly if the different texts fit into a table.** -/
theorem exists_after_iff (ts : List String) :
    (∃ later, names.after ts = some later) ↔
      (names.texts.toList ++ ts).toFinset.card ≤ capacity := by
  constructor
  · rintro ⟨later, h⟩
    rw [← size_after inStep h]
    exact (inStep.after h).fits
  · intro room
    induction ts generalizing names with
    | nil => exact ⟨names, rfl⟩
    | cons t ts ih =>
        cases interned : names.intern t with
        | some r =>
            obtain ⟨y, next⟩ := r
            have same : (next.texts.toList ++ ts).toFinset =
                (names.texts.toList ++ t :: ts).toFinset := by
              ext u
              simp only [List.mem_toFinset, List.mem_append, List.mem_cons,
                mem_texts_intern inStep interned, or_assoc]
            obtain ⟨later, rest⟩ := ih (inStep.intern interned) (same ▸ room)
            exact ⟨later, after_cons_eq_some_iff.mpr ⟨y, next, interned, rest⟩⟩
        | none =>
            -- the table is full, and the text is one more
            obtain ⟨new, full⟩ := (intern_eq_none_iff inStep).mp interned
            have more : (t :: names.texts.toList).toFinset.card ≤
                (names.texts.toList ++ t :: ts).toFinset.card := by
              refine Finset.card_le_card fun u hu => ?_
              simp only [List.mem_toFinset, List.mem_cons, List.mem_append] at hu ⊢
              tauto
            rw [List.toFinset_card_of_nodup (inStep.nodup.cons new), List.length_cons,
              Array.length_toList] at more
            omega

end

/-! ## The predefined table -/

lemma texts_predefined : predefined.texts.toList = fixed := rfl

/-- None of the fixed names finds the table full. -/
lemma foldlM_insert_fixed :
    fixed.foldlM (fun names t => (names.insert t).map Prod.snd) empty = some predefined := rfl

/-- Entering names that are new and different keeps the two parts in step. -/
lemma InStep.foldl_enter {ts : List String} (inStep : names.InStep) (nodup : ts.Nodup)
    (new : ∀ t ∈ ts, names.find? t = none) (room : names.texts.size + ts.length ≤ capacity) :
    (ts.foldl (fun names t => (names.enter t).2) names).InStep := by
  induction ts generalizing names with
  | nil => exact inStep
  | cons t ts ih =>
      rw [List.length_cons] at room
      obtain ⟨away, nodup⟩ := List.nodup_cons.mp nodup
      refine ih (inStep.enter (new t List.mem_cons_self) (by omega)) nodup ?_ ?_
      · intro u hu
        have apart : u ≠ t := by
          rintro rfl
          exact away hu
        rw [find?_enter, if_neg apart]
        exact new u (List.mem_cons_of_mem t hu)
      · simp only [Names.enter, Array.size_push]
        omega

lemma inStep_empty : empty.InStep where
  inverse y t := by simp [find?, empty, Assigns]
  fits := Nat.zero_le _

lemma inStep_predefined : predefined.InStep :=
  inStep_empty.foldl_enter (by decide) (fun _ _ => rfl) (by decide)

section

variable {ts : List String} (reached : predefined.after ts = some names)
include reached

/-- Every table assigns the fixed symbols the names that they stand for. -/
lemma assigns_constant {c : Symbol × String} (hc : c ∈ Symbol.constants) :
    names.Assigns c.1 c.2 := by
  have fixed : ∀ c ∈ Symbol.constants, predefined.texts[c.1.index]? = some c.2 := by decide
  exact assigns_after inStep_predefined (fixed c hc) reached

lemma Issued.assigns (h : Issued ts y) : ∃ t, names.Assigns y t := by
  rcases h with ⟨t, ht⟩ | ⟨past, t, rest, before, next, rfl, start, interned⟩
  · exact ⟨t, assigns_constant reached ht⟩
  · rw [after_append, start] at reached
    obtain ⟨z, next', interned', later⟩ := after_cons_eq_some_iff.mp reached
    rw [interned] at interned'
    cases interned'
    have inStep := inStep_predefined.after start
    exact ⟨t, assigns_after (inStep.intern interned) (assigns_intern_self inStep interned) later⟩

lemma Issued.intern_text (h : Issued ts y) : names.intern (names.text y) = some (y, names) := by
  obtain ⟨t, ht⟩ := h.assigns reached
  rw [ht.text]
  exact intern_of_assigns (inStep_predefined.after reached) ht

/-- A symbol that has been given out keeps its text, and a text its symbol. -/
lemma Issued.stays (h : Issued ts y) {us : List String} (hu : names.after us = some later) :
    later.text y = names.text y ∧ later.intern (names.text y) = some (y, later) := by
  obtain ⟨t, ht⟩ := h.assigns reached
  have inStep := inStep_predefined.after reached
  have still := assigns_after inStep ht hu
  rw [ht.text, still.text]
  exact ⟨rfl, intern_of_assigns (inStep.after hu) still⟩

/-- A call fails exactly if the text is not among those of before and these fill the table. -/
lemma overflows_iff : names.intern t = none ↔
    t ∉ fixed ++ ts ∧ (fixed ++ ts).toFinset.card = capacity := by
  rw [intern_eq_none_iff (inStep_predefined.after reached),
    mem_texts_after inStep_predefined reached, size_after inStep_predefined reached,
    texts_predefined]

/-- The reserved symbols are those of the reserved names. -/
lemma isReserved_iff (h : names.intern t = some (y, later)) : y.isReserved = true ↔
    t ∈ ["__id__", "__readonly__", "__parent__", "__stepparents__"] := by
  have inStep := inStep_predefined.after reached
  have given := assigns_intern_self inStep h
  constructor
  · intro reserved
    -- the reserved symbols are fixed, so their texts have been assigned from the beginning
    have fixed : ∃ u ∈ ["__id__", "__readonly__", "__parent__", "__stepparents__"],
        (y, u) ∈ Symbol.constants := by
      obtain ⟨n⟩ := y
      have small : n ≤ 3 := by simpa [Symbol.isReserved] using reserved
      obtain rfl | rfl | rfl | rfl : n = 0 ∨ n = 1 ∨ n = 2 ∨ n = 3 := by omega
      · exact ⟨"__id__", by decide, by decide⟩
      · exact ⟨"__readonly__", by decide, by decide⟩
      · exact ⟨"__parent__", by decide, by decide⟩
      · exact ⟨"__stepparents__", by decide, by decide⟩
    obtain ⟨u, hu, constant⟩ := fixed
    have old := (assigns_intern inStep h).mpr (.inl (assigns_constant reached constant))
    obtain rfl : t = u := given.text.symm.trans old.text
    exact hu
  · intro ht
    have reserved : ∀ u ∈ ["__id__", "__readonly__", "__parent__", "__stepparents__"],
        ∃ y : Symbol, y.isReserved = true ∧ (y, u) ∈ Symbol.constants := by
      simp only [List.forall_mem_cons]
      exact ⟨⟨.identity, rfl, by decide⟩, ⟨.readonly, rfl, by decide⟩, ⟨.parent, rfl, by decide⟩,
        ⟨.stepparents, rfl, by decide⟩, by simp⟩
    obtain ⟨z, hz, constant⟩ := reserved t ht
    have same := intern_of_assigns inStep (assigns_constant reached constant)
    cases h.symm.trans same
    exact hz

end

/-- Two texts have the same symbol exactly if they are the same, however far apart the calls are. -/
lemma intern_eq_iff (inStep : names.InStep) (first : names.intern t = some (y, later))
    {us : List String} {between last : Names} (between_eq : later.after us = some between)
    (second : between.intern u = some (z, last)) : y = z ↔ t = u := by
  have inStep' := (inStep.intern first).after between_eq
  have given := assigns_after (inStep.intern first) (assigns_intern_self inStep first) between_eq
  constructor
  · rintro rfl
    have still := (assigns_intern inStep' second).mpr (.inl given)
    exact still.text.symm.trans (assigns_intern_self inStep' second).text
  · rintro rfl
    cases second.symm.trans (intern_of_assigns inStep' given)
    rfl

end Names

/-! ## Keys as objects -/

/-- The key of the object that stands for a key. -/
def keyAgain (k : Key) : Run Key := do
  keyOf (← keyObject k)

lemma keyAgain_name {s : State} {ts : List String} {y : Symbol}
    (reached : Names.predefined.after ts = some s.names) (issued : Names.Issued ts y) :
    keyAgain (.name y) s =
      .ok (.name y) { s with heap := s.heap.make (.text (s.names.text y)) none [] } := by
  let t : State := { s with heap := s.heap.make (.text (s.names.text y)) none [] }
  have made : keyObject (.name y) s = .ok s.heap.nextId t := rfl
  have read : payloadOf s.heap.nextId t = .ok (.text (s.names.text y)) t := by
    show EStateM.Result.ok (t.heap.payload s.heap.nextId) t = _
    simp [t, Heap.make, Heap.payload]
  have interned : intern (s.names.text y) t = .ok y t := intern_run_some (issued.intern_text reached)
  rw [keyAgain, run_bind_ok made, keyOf, run_bind_ok read]
  exact run_bind_ok interned

/-- An object key stays the same exactly if the object is not a Text, which is taken as a name. -/
lemma keyAgain_object_iff (o : ObjectId) (s : State) :
    (∃ t, keyAgain (.object o) s = .ok (.object o) t) ↔ (s.heap.payload o).kind ≠ .text := by
  have same : keyObject (.object o) s = .ok o s := rfl
  have read : payloadOf o s = .ok (s.heap.payload o) s := rfl
  rw [keyAgain, run_bind_ok same, keyOf, run_bind_ok read]
  cases s.heap.payload o with
  | text text =>
      simp only [Payload.kind, ne_eq, not_true_eq_false, iff_false, not_exists]
      intro t again
      obtain ⟨y, u, _, named⟩ := exists_of_run_bind_ok again
      cases named
  | _ => exact ⟨fun _ => by simp [Payload.kind], fun _ => ⟨s, rfl⟩⟩

/-- **Interning is a stable bijection.**  Calls succeed one after the other, from the predefined
table on, exactly as long as the different texts fit into a table.  In every table reached in this
way the two parts are inverse to each other, and a further call fails exactly if its text is new and
the table is full.

A text that is interned is the text of the answer, and a symbol that has been given out is the answer
for its text, which is not entered again.  Two calls, however far apart, give the same symbol
exactly for the same text, and later calls change neither symbols nor texts.  The fixed symbols
stand for their names, and the reserved symbols are those of the reserved names.  So a key that is
turned into an object and back is the same key, except for a Text that was taken by its identity. -/
theorem interning_stable_bijection (ts : List String) :
    ((∃ names, Names.predefined.after ts = some names) ↔
      (Names.fixed ++ ts).toFinset.card ≤ Names.capacity) ∧
    ∀ names, Names.predefined.after ts = some names →
      names.InStep ∧
      (∀ t, names.intern t = none ↔
        t ∉ Names.fixed ++ ts ∧ (Names.fixed ++ ts).toFinset.card = Names.capacity) ∧
      (∀ t y later, names.intern t = some (y, later) → later.text y = t) ∧
      (∀ y, Names.Issued ts y → names.intern (names.text y) = some (y, names)) ∧
      (∀ t y later, names.intern t = some (y, later) →
        ∀ us between, later.after us = some between →
          ∀ u z last, between.intern u = some (z, last) → (y = z ↔ t = u)) ∧
      (∀ y, Names.Issued ts y → ∀ us later, names.after us = some later →
        later.text y = names.text y ∧ later.intern (names.text y) = some (y, later)) ∧
      (Symbol.constants.length = 25 ∧ ∀ c ∈ Symbol.constants,
        names.text c.1 = c.2 ∧ names.intern c.2 = some (c.1, names)) ∧
      (∀ t y later, names.intern t = some (y, later) → (y.isReserved = true ↔
        t ∈ ["__id__", "__readonly__", "__parent__", "__stepparents__"])) ∧
      ∀ s : State, s.names = names → ∀ k : Key, (∀ y, k = .name y → Names.Issued ts y) →
        ((∃ s', keyAgain k s = .ok k s') ↔
          ∀ o, k = .object o → (s.heap.payload o).kind ≠ .text) := by
  refine ⟨Names.exists_after_iff Names.inStep_predefined ts, fun names reached => ?_⟩
  have inStep := Names.inStep_predefined.after reached
  refine ⟨inStep, fun t => Names.overflows_iff reached, fun t y later interned => ?_,
    fun y issued => issued.intern_text reached,
    fun t y later first us between hu u z last => Names.intern_eq_iff inStep first hu,
    fun y issued us later hu => issued.stays reached hu, ⟨rfl, fun c hc => ?_⟩,
    fun t y later => Names.isReserved_iff reached, fun s hs k hk => ?_⟩
  · exact (Names.assigns_intern_self inStep interned).text
  · have assigned := Names.assigns_constant reached hc
    exact ⟨assigned.text, Names.intern_of_assigns inStep assigned⟩
  · subst hs
    cases k with
    | name y =>
        refine ⟨fun _ o same => ?_, fun _ => ⟨_, keyAgain_name reached (hk y rfl)⟩⟩
        cases same
    | object o =>
        rw [keyAgain_object_iff]
        constructor
        · intro notText x same
          cases same
          exact notText
        · exact fun notText => notText o rfl

/-- After two new texts and one that has been seen, the new ones have the two positions behind the
fixed names, and the map and the row agree on them. -/
theorem greetings_interned :
    ∃ names, Names.predefined.after ["greet", "wave", "greet"] = some names ∧
      names.InStep ∧ names.texts.size = 27 ∧
      names.intern "wave" = some (⟨26⟩, names) ∧ names.text ⟨25⟩ = "greet" ∧
      names.intern "nod" ≠ none := by
  obtain ⟨names, reached⟩ :=
    (interning_stable_bijection ["greet", "wave", "greet"]).1.mpr (by decide)
  obtain ⟨inStep, overflows, _⟩ :=
    (interning_stable_bijection ["greet", "wave", "greet"]).2 names reached
  refine ⟨names, reached, inStep, ?_⟩
  have full : ¬ (Names.fixed ++ ["greet", "wave", "greet"]).toFinset.card = Names.capacity := by
    decide
  refine ⟨?_, ?_, ?_, fun fails => full ((overflows "nod").mp fails).2⟩
  all_goals
    cases reached
    rfl

end Prototypal
