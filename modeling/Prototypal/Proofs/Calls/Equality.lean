import Prototypal.Proofs.Calls.Dispatch

/-!
# Equality and inequality

An inequality, `!=` or `!==`, calls the equality that it negates, `==` or `===`, on the same receiver
with the same arguments.  The equality may be overridden by anything, so the call may end in any way,
and its answer need not be a Boolean.

* `BaseAttribute.equality?`, `State.Carries` — the inequalities, and objects on which the attribute of
  that name is the base attribute.
* `send_of_carries`, `send_of_carries_inequality` — calling such an attribute, as one run of it, and
  calling an inequality, as one negation.
* `truthy_of_boolean`, `truthy_of_interrupt`, `truthy_of_answer`, `truthy_of_mismatch` — whether an
  object counts as true, by the ways in which that can be found out.
* `Negated` — how an inequality ends, by how the call of its equality ended; there is one such end
  (`Negated.unique`).
* `negated_negate` — inequalities end like that, by cases of how their equality ended.
* `send_identical`, `send_equal`, `send_unequal` — the four attributes where none is overridden.
* `inequality_negates_equality` — the statement about calls.
-/

namespace Prototypal

/-- The equality that a base attribute is the negation of, if it is an inequality. -/
def BaseAttribute.equality? : BaseAttribute → Option BaseAttribute
  | notEqual => some equal
  | notIdentical => some identical
  | _ => none

/-- On this object, the attribute under the name of the base attribute is the base attribute: it
resolves to a closure that runs it. -/
def State.Carries (s : State) (o : ObjectId) (a : BaseAttribute) : Prop :=
  ∃ f c, Yields (resolve o (.name a.symbol)) s (some f) ∧
    (s.heap.payload f.value).closure? = some c ∧ c.body = .base a

/-- The notes of a call that has found a closure, up to the start of its body. -/
def State.callNotes (s : State) (o : ObjectId) (k : Key) (args : List ObjectId) : List Event :=
  .invoked true args.length (s.callDepth + 1) :: s.cutNotes o k

/-- The state in which the body of a closure starts that a call has found. -/
def State.calling (s : State) (o : ObjectId) (k : Key) (args : List ObjectId) : State :=
  (s.noting (s.callNotes o k args)).atLevel (s.callDepth + 1)

/-- The state after a new Boolean has been made.  Its identity is the next one of the state before. -/
def State.answering (s : State) (b : Bool) : State :=
  { s with heap := s.heap.make (.boolean b) none [] }

/-- Whether an object is the first of some arguments, Null if there are none. -/
def isFirst (o : ObjectId) (args : List ObjectId) : Bool :=
  decide (o = args.headD nullId)

/-- How an inequality ends that was called at a level of nesting, by how the call of its equality ended.
An interrupt, such as an escape or a fault, is passed on, and the negation of a Boolean is answered.  Any
other answer has its `@bool` called, one level deeper: an interrupt of this call is passed on, the
negation of a Boolean is answered, and any other answer is a mismatch. -/
inductive Negated (level : Nat) : Outcome ObjectId → Outcome ObjectId → Prop where
  | interrupted (i : Interrupt) (t : State) :
      Negated level (.error i t) (.error i (t.atLevel level))
  | boolean {e : ObjectId} {t : State} {b : Bool} (native : t.heap.payload e = .boolean b) :
      Negated level (.ok e t) (.ok t.heap.nextId ((t.answering !b).atLevel level))
  | coercionInterrupted {e : ObjectId} {t u : State} {i : Interrupt}
      (other : (t.heap.payload e).kind ≠ .boolean) (deeper : t.callDepth = level + 1)
      (asked : send enterCall e (.name .asBool) [] t = .error i u) :
      Negated level (.ok e t) (.error i (u.atLevel level))
  | coerced {e a : ObjectId} {t u : State} {b : Bool}
      (other : (t.heap.payload e).kind ≠ .boolean) (deeper : t.callDepth = level + 1)
      (asked : send enterCall e (.name .asBool) [] t = .ok a u)
      (boolean : u.heap.payload a = .boolean b) :
      Negated level (.ok e t) (.ok u.heap.nextId ((u.answering !b).atLevel level))
  | mismatch {e a : ObjectId} {t u : State}
      (other : (t.heap.payload e).kind ≠ .boolean) (deeper : t.callDepth = level + 1)
      (asked : send enterCall e (.name .asBool) [] t = .ok a u)
      (wrong : (u.heap.payload a).kind ≠ .boolean) :
      Negated level (.ok e t)
        (.error (.fault (.mismatch .asBool [.boolean] (u.heap.payload a).kind)) (u.atLevel level))

variable {s t u : State} {o e x : ObjectId} {a : BaseAttribute} {b : Bool}

/-- How an inequality ends is determined by how the call of its equality ended. -/
lemma Negated.unique {level : Nat} {asked r r' : Outcome ObjectId} (h : Negated level asked r)
    (h' : Negated level asked r') : r = r' := by
  cases h with
  | interrupted i t =>
      cases h'
      rfl
  | boolean native =>
      cases h' with
      | boolean native' => simp_all
      | coercionInterrupted other | coerced other | mismatch other =>
          exact absurd (congrArg Payload.kind native) other
  | coercionInterrupted other _ asked | coerced other _ asked | mismatch other _ asked =>
      cases h' with
      | boolean native => exact absurd (congrArg Payload.kind native) other
      | coercionInterrupted _ _ asked' | coerced _ _ asked' | mismatch _ _ asked' =>
          cases asked.symm.trans asked' <;> simp_all [Payload.kind]

/-! ## Calling base attributes -/

lemma BaseAttribute.isReserved_symbol (a : BaseAttribute) :
    (Key.name a.symbol).isReserved = false := by
  cases a <;> rfl

/-- What an attribute is on an object does not change when the object is called. -/
lemma State.Carries.calling (carries : s.Carries o a) (k : Key) (args : List ObjectId) :
    (s.calling o k args).Carries o a := by
  obtain ⟨f, c, found, closure, body⟩ := carries
  refine ⟨f, c, ?_, closure, body⟩
  rw [resolve_yields_iff a.isReserved_symbol] at found ⊢
  exact found

/-- A call of a base attribute is one run of it, one level deeper. -/
lemma send_of_carries (args : List ObjectId) (off : s.strictness = .off) (carries : s.Carries o a)
    (allowed : s.callDepth < s.limits.callDepth.toNat) :
    ∃ holder, send enterCall o (.name a.symbol) args s = Outcome.backTo s.callDepth
      (a.run enterCall ⟨some o, some holder, args⟩ (s.calling o (.name a.symbol) args)) := by
  obtain ⟨f, c, found, closure, body⟩ := carries
  rw [resolve_yields_iff a.isReserved_symbol] at found
  have run := invoke_runs_body (s := s.noting (s.cutNotes o (.name a.symbol))) o f.holder args
    closure allowed
  refine ⟨f.holder, ?_⟩
  rw [send_of_found enterCall args a.isReserved_symbol off found, run, body]
  rfl

/-! ## What counts as true -/

lemma Payload.boolean?_eq_none {p : Payload} (other : p.kind ≠ .boolean) : p.boolean? = none := by
  cases p with
  | boolean b => exact absurd rfl other
  | _ => rfl

lemma Payload.exists_boolean {p : Payload} (boolean : p.kind = .boolean) : ∃ b, p = .boolean b := by
  cases p with
  | boolean b => exact ⟨b, rfl⟩
  | _ => cases boolean

section

variable (enter : Enter)

lemma truthy_of_boolean (native : t.heap.payload e = .boolean b) : truthy enter e t = .ok b t := by
  rw [truthy, run_bind_ok (show payloadOf e t = .ok (t.heap.payload e) t from rfl), native]
  rfl

/-- A coercion, once its attribute has answered. -/
lemma coerce_of_answer (c : Coercion) (asked : send enter e (.name c.symbol) [] t = .ok x u) :
    coerce enter e c t =
      if c.accepts (u.heap.payload x) then .ok (u.heap.payload x) u
      else .error (.fault (.mismatch c.symbol [c.expected] (u.heap.payload x).kind)) u := by
  rw [coerce, run_bind_ok asked, run_bind_ok (show payloadOf x u = .ok (u.heap.payload x) u from rfl)]
  split
  · rfl
  · rfl

/-- An object that is no Boolean is asked by its coercion. -/
lemma truthy_of_other (other : (t.heap.payload e).kind ≠ .boolean) :
    truthy enter e t =
      (do return (← coerce enter e .bool).boolean? == some true : Run Bool) t := by
  rw [truthy, run_bind_ok (show payloadOf e t = .ok (t.heap.payload e) t from rfl),
    Payload.boolean?_eq_none other]

variable (other : (t.heap.payload e).kind ≠ .boolean)
include other

lemma truthy_of_interrupt {i : Interrupt}
    (asked : send enter e (.name .asBool) [] t = .error i u) : truthy enter e t = .error i u := by
  rw [truthy_of_other enter other, coerce]
  exact run_bind_error (run_bind_error asked)

variable (asked : send enter e (.name .asBool) [] t = .ok x u)
include asked

lemma truthy_of_answer (boolean : u.heap.payload x = .boolean b) :
    truthy enter e t = .ok b u := by
  have coerces := coerce_of_answer enter .bool asked
  rw [boolean] at coerces
  rw [truthy_of_other enter other, run_bind_ok (coerces.trans (if_pos rfl))]
  cases b <;> rfl

lemma truthy_of_mismatch (wrong : (u.heap.payload x).kind ≠ .boolean) :
    truthy enter e t =
      .error (.fault (.mismatch .asBool [.boolean] (u.heap.payload x).kind)) u := by
  have refused : ¬ Coercion.bool.accepts (u.heap.payload x) = true := by
    simpa [Coercion.accepts, Coercion.expected] using wrong
  have fails := (coerce_of_answer enter .bool asked).trans (if_neg refused)
  rw [truthy_of_other enter other]
  exact run_bind_error fails

end

/-! ## Negating -/

lemma negate_of_interrupt {i : Invocation} {y : Symbol} {z : Interrupt}
    (asked : send enterCall i.this (.name y) i.args t = .error z u) :
    negate enterCall i y t = .error z u :=
  run_bind_error asked

/-- A negation, once it has an answer to negate. -/
lemma negate_of_answer {i : Invocation} {y : Symbol}
    (asked : send enterCall i.this (.name y) i.args t = .ok e u) :
    negate enterCall i y t = (do answer (!(← truthy enterCall e)) : Run ObjectId) u :=
  run_bind_ok asked

lemma negate_of_boolean {i : Invocation} {y : Symbol}
    (asked : send enterCall i.this (.name y) i.args t = .ok e u)
    (native : u.heap.payload e = .boolean b) :
    negate enterCall i y t = .ok u.heap.nextId (u.answering !b) :=
  (negate_of_answer asked).trans (run_bind_ok (truthy_of_boolean enterCall native))

/-- A negation ends as it should, by how the call that it negates ended. -/
lemma negated_negate (i : Invocation) {y : Symbol} (ordinary : (Key.name y).isReserved = false)
    (off : t.strictness = .off) {level : Nat} (deeper : t.callDepth = level + 1) :
    Negated level (send enterCall i.this (.name y) i.args t)
      (Outcome.backTo level (negate enterCall i y t)) := by
  cases asked : send enterCall i.this (.name y) i.args t with
  | error z u =>
      rw [negate_of_interrupt asked]
      exact .interrupted z u
  | ok e u =>
      by_cases boolean : (u.heap.payload e).kind = .boolean
      · obtain ⟨b, native⟩ := Payload.exists_boolean boolean
        rw [negate_of_boolean asked native]
        exact .boolean native
      · -- the equality has come back to its own level, so that is where `@bool` is called
        have back : u.callDepth = level + 1 := (callDepth_of_send ordinary off asked).trans deeper
        rw [negate_of_answer asked]
        cases coerces : send enterCall e (.name .asBool) [] u with
        | error z v =>
            rw [run_bind_error (truthy_of_interrupt enterCall boolean coerces)]
            exact .coercionInterrupted boolean back coerces
        | ok a v =>
            by_cases coerced : (v.heap.payload a).kind = .boolean
            · obtain ⟨b, native⟩ := Payload.exists_boolean coerced
              rw [run_bind_ok (truthy_of_answer enterCall boolean coerces native)]
              exact .coerced boolean back coerces native
            · rw [run_bind_error (truthy_of_mismatch enterCall boolean coerces coerced)]
              exact .mismatch boolean back coerces coerced

/-- An inequality is one negation of its equality, one level deeper. -/
lemma send_of_carries_inequality {c : BaseAttribute} (inequality : a.equality? = some c)
    (args : List ObjectId) (off : s.strictness = .off) (carries : s.Carries o a)
    (allowed : s.callDepth < s.limits.callDepth.toNat) :
    ∃ i : Invocation, i.this = o ∧ i.args = args ∧
      send enterCall o (.name a.symbol) args s = Outcome.backTo s.callDepth
        (negate enterCall i c.symbol (s.calling o (.name a.symbol) args)) := by
  obtain ⟨holder, run⟩ := send_of_carries args off carries allowed
  refine ⟨⟨some o, some holder, args⟩, rfl, rfl, ?_⟩
  cases a with
  | notEqual | notIdentical =>
      cases inequality
      exact run
  | _ => cases inequality

/-! ## Where nothing is overridden -/

namespace State

lemma answering_noting (s : State) (b : Bool) (notes : List Event) :
    (s.noting notes).answering b = (s.answering b).noting notes :=
  rfl

/-- A call that has noted more, and then comes back to its level, has changed the journal only. -/
lemma atLevel_noting_calling (s : State) (o : ObjectId) (k : Key) (args : List ObjectId)
    (notes : List Event) : ((s.calling o k args).noting notes).atLevel s.callDepth =
      s.noting (notes ++ s.callNotes o k args) := by
  rw [← noting_noting]
  rfl

/-- What has been answered is a Boolean, whatever is noted. -/
lemma payload_answering (s : State) (b : Bool) (notes : List Event) :
    ((s.answering b).noting notes).heap.payload s.heap.nextId = .boolean b :=
  (s.heap.payload_add _ _).trans (if_pos rfl)

end State

section

variable (args : List ObjectId) (off : s.strictness = .off)
include off

lemma send_identical (carries : s.Carries o .identical)
    (allowed : s.callDepth + 1 ≤ s.limits.callDepth.toNat) :
    ∃ notes, send enterCall o (.name .identical) args s =
      .ok s.heap.nextId ((s.answering (isFirst o args)).noting notes) := by
  obtain ⟨holder, run⟩ := send_of_carries args off carries allowed
  have first : ∀ r h, Invocation.arg ⟨r, h, args⟩ 0 = args.headD nullId := by
    cases args with
    | nil | cons => exact fun _ _ => rfl
  refine ⟨s.callNotes o (.name .identical) args, run.trans ?_⟩
  rw [BaseAttribute.run, first]
  rfl

lemma send_equal (identical : s.Carries o .identical) (carries : s.Carries o .equal)
    (allowed : s.callDepth + 2 ≤ s.limits.callDepth.toNat) :
    ∃ notes, send enterCall o (.name .equal) args s =
      .ok s.heap.nextId ((s.answering (isFirst o args)).noting notes) := by
  obtain ⟨holder, run⟩ := send_of_carries args off carries (by omega)
  obtain ⟨notes, told⟩ := send_identical (s := s.calling o (.name .equal) args) args off
    (identical.calling _ args) allowed
  refine ⟨notes ++ s.callNotes o (.name .equal) args, ?_⟩
  rw [← State.answering_noting, ← State.atLevel_noting_calling]
  exact run.trans (congrArg (Outcome.backTo s.callDepth) told)

/-- An inequality negates what its equality answers, if that is a new Boolean. -/
lemma send_unequal {c : BaseAttribute} (inequality : a.equality? = some c) (carries : s.Carries o a)
    (allowed : s.callDepth < s.limits.callDepth.toNat)
    (told : ∃ notes, send enterCall o (.name c.symbol) args (s.calling o (.name a.symbol) args) =
      .ok s.heap.nextId (((s.calling o (.name a.symbol) args).answering b).noting notes)) :
    ∃ notes, send enterCall o (.name a.symbol) args s =
      .ok (s.answering b).heap.nextId (((s.answering b).answering !b).noting notes) := by
  obtain ⟨notes, told⟩ := told
  obtain ⟨i, rfl, rfl, run⟩ := send_of_carries_inequality inequality args off carries allowed
  have negated := negate_of_boolean told (State.payload_answering (s.calling i.this _ i.args) b notes)
  refine ⟨notes ++ s.callNotes i.this (.name a.symbol) i.args, ?_⟩
  have back := congrArg (fun t => (t.answering b).answering !b)
    (s.atLevel_noting_calling i.this (.name a.symbol) i.args notes)
  rw [run, negated, ← State.answering_noting, ← State.answering_noting]
  exact congrArg (EStateM.Result.ok _) back

end

/-- **Inequality is the negation of whatever equality says.**  Nothing is checked.  Let the attribute of
an inequality be the base attribute, and let one more level be allowed.  Then calling it makes one call
of its equality, on the same object, with the same arguments, one level deeper, and it ends as
`Negated` says by how this call ended.

Let all four attributes be the base attributes, and let three more levels be allowed.  Then the
equalities answer, with a new Boolean, whether the first argument, Null if it is missing, is the object
itself, and the inequalities answer the negation of this, with another one.  Nothing else has changed but
the journal. -/
theorem inequality_negates_equality (s : State) (o : ObjectId) (args : List ObjectId)
    (off : s.strictness = .off) :
    (∀ a c : BaseAttribute, a.equality? = some c → s.Carries o a →
      s.callDepth + 1 ≤ s.limits.callDepth.toNat →
        Negated s.callDepth
          (send enterCall o (.name c.symbol) args (s.calling o (.name a.symbol) args))
          (send enterCall o (.name a.symbol) args s)) ∧
    ((∀ a ∈ [.identical, .notIdentical, .equal, .notEqual], s.Carries o a) →
      s.callDepth + 3 ≤ s.limits.callDepth.toNat →
        (∀ a ∈ [BaseAttribute.identical, .equal],
          ∃ notes, send enterCall o (.name a.symbol) args s =
            .ok s.heap.nextId ((s.answering (isFirst o args)).noting notes)) ∧
        ∀ a ∈ [BaseAttribute.notIdentical, .notEqual],
          ∃ notes, send enterCall o (.name a.symbol) args s =
            .ok (s.answering (isFirst o args)).heap.nextId
              (((s.answering (isFirst o args)).answering !isFirst o args).noting notes)) := by
  constructor
  · intro a c inequality carries allowed
    obtain ⟨i, rfl, rfl, run⟩ := send_of_carries_inequality inequality args off carries allowed
    rw [run]
    exact negated_negate (t := s.calling i.this _ i.args) i c.isReserved_symbol off rfl
  · intro carries allowed
    have identical := carries .identical (by simp)
    have notIdentical := carries .notIdentical (by simp)
    have equal := carries .equal (by simp)
    have notEqual := carries .notEqual (by simp)
    refine ⟨?_, ?_⟩
    · refine List.forall_mem_cons.mpr ⟨?_, List.forall_mem_singleton.mpr ?_⟩
      · exact send_identical args off identical (by omega)
      · exact send_equal args off identical equal (by omega)
    · refine List.forall_mem_cons.mpr ⟨?_, List.forall_mem_singleton.mpr ?_⟩
      · refine send_unequal args off (c := .identical) rfl notIdentical (by omega) ?_
        refine send_identical (s := s.calling o _ args) args off (identical.calling _ args) ?_
        show s.callDepth + 1 + 1 ≤ s.limits.callDepth.toNat
        omega
      · refine send_unequal args off (c := .equal) rfl notEqual (by omega) ?_
        exact send_equal (s := s.calling o _ args) args off (identical.calling _ args)
          (equal.calling _ args) allowed

/-- An object that carries the equalities and the inequalities, and two children of it that override
`==`: that of the first answers the receiver, whose `@bool` is false; that of the second is Null, which
cannot be called. -/
def equalities : Heap where
  objects := #[none, some ⟨.null, .sealed nullId⟩,
    some ⟨.plain, { Slots.fresh 2 none [] with
      table := [(.name .identical, 3), (.name .notIdentical, 4), (.name .equal, 5),
        (.name .notEqual, 6)] }⟩,
    some ⟨.closure ⟨3, .base .identical, none⟩, .fresh 3 none []⟩,
    some ⟨.closure ⟨4, .base .notIdentical, none⟩, .fresh 4 none []⟩,
    some ⟨.closure ⟨5, .base .equal, none⟩, .fresh 5 none []⟩,
    some ⟨.closure ⟨6, .base .notEqual, none⟩, .fresh 6 none []⟩,
    some ⟨.plain, { Slots.fresh 7 (some 2) [] with
      table := [(.name .equal, 8), (.name .asBool, 9)] }⟩,
    some ⟨.closure ⟨8, .script [.nullary .receiver], none⟩, .fresh 8 none []⟩,
    some ⟨.closure ⟨9, .script [.nullary (.boolean false)], none⟩, .fresh 9 none []⟩,
    some ⟨.plain, { Slots.fresh 10 (some 2) [] with table := [(.name .equal, nullId)] }⟩]

/-- A state with these objects, in which three levels of nesting are allowed. -/
def equalitiesState : State :=
  { State.initial with
    heap := equalities
    fixed := some { Settings.standard with policy := ⟨.off, ⟨3, 6⟩⟩ } }

/-- The first child is not equal to itself, because its `==` answers an object that counts as false.  The
second cannot be compared.  Their parent is equal to itself and not equal to them. -/
theorem equalities_negated :
    (∃ t, send enterCall 7 (.name .notEqual) [7] equalitiesState = .ok 12 t ∧
      t.heap.payload 12 = .boolean true) ∧
    (∃ t, send enterCall 10 (.name .notEqual) [7] equalitiesState =
      .error (.fault (.mismatch .asBool [.boolean] .null)) t) ∧
    (∃ t, send enterCall 2 (.name .equal) [2] equalitiesState = .ok 11 t ∧
      t.heap.payload 11 = .boolean true) ∧
    ∃ t, send enterCall 2 (.name .notEqual) [7] equalitiesState = .ok 12 t ∧
      t.heap.payload 12 = .boolean true := by
  refine ⟨?_, ?_, ?_⟩
  · let t := (equalitiesState.calling 7 (.name .notEqual) [7]).noting [.invoked true 1 2]
    have asked : send enterCall 7 (.name .asBool) [] t =
        .ok 11 ((t.answering false).noting [.invoked true 0 2]) := rfl
    have ends : Negated 0 (.ok 7 t) (send enterCall 7 (.name .notEqual) [7] equalitiesState) :=
      (inequality_negates_equality equalitiesState 7 [7] rfl).1 .notEqual .equal rfl
        ⟨⟨2, 6⟩, _, ⟨_, rfl⟩, rfl, rfl⟩ (by decide)
    exact ⟨_, ends.unique (.coerced (by decide) rfl asked rfl), rfl⟩
  · let t := (equalitiesState.calling 10 (.name .notEqual) [7]).noting
      [.unanswered nullId (.name .call)]
    have asked : send enterCall nullId (.name .asBool) [] t =
        .ok nullId (t.noting [.unanswered nullId (.name .asBool)]) := rfl
    have ends : Negated 0 (.ok nullId t)
        (send enterCall 10 (.name .notEqual) [7] equalitiesState) :=
      (inequality_negates_equality equalitiesState 10 [7] rfl).1 .notEqual .equal rfl
        ⟨⟨2, 6⟩, _, ⟨_, rfl⟩, rfl, rfl⟩ (by decide)
    exact ⟨_, ends.unique (.mismatch (by decide) rfl asked (by decide))⟩
  · have carries : ∀ a ∈ [.identical, .notIdentical, .equal, .notEqual],
        equalitiesState.Carries 2 a := by
      simp only [List.forall_mem_cons, List.not_mem_nil, false_imp_iff, implies_true, and_true]
      exact ⟨⟨⟨2, 3⟩, _, ⟨_, rfl⟩, rfl, rfl⟩, ⟨⟨2, 4⟩, _, ⟨_, rfl⟩, rfl, rfl⟩,
        ⟨⟨2, 5⟩, _, ⟨_, rfl⟩, rfl, rfl⟩, ⟨⟨2, 6⟩, _, ⟨_, rfl⟩, rfl, rfl⟩⟩
    obtain ⟨equalities, _⟩ :=
      (inequality_negates_equality equalitiesState 2 [2] rfl).2 carries (by decide)
    obtain ⟨_, inequalities⟩ :=
      (inequality_negates_equality equalitiesState 2 [7] rfl).2 carries (by decide)
    obtain ⟨_, same⟩ := equalities .equal (by simp)
    obtain ⟨_, different⟩ := inequalities .notEqual (by simp)
    exact ⟨⟨_, same, rfl⟩, _, different, rfl⟩

end Prototypal
