import Prototypal.Proofs.Termination

/-!
# Calls, as equations

What a call does at a given state, one step of it at a time.  A call looks an attribute up and
invokes the value that it finds.  Invoking a closure runs its body one level deeper; invoking any
other value calls the `()` of that value one level deeper.

* `send_of_found`, `send_of_missing`, `send_unanswered` — calls where nothing is checked.
* `sendAbove_of_found`, `sendAbove_of_missing` — calls that look above an object.
* `enterCall_of_allowed`, `enterCall_of_tooDeep` — one level deeper, if the limit allows it.
* `invoke_runs_body`, `invoke_sends`, `invoke_of_tooDeep` — invoking a value.
* `backTo_send` — calls come back to the level where they were made.
-/

namespace Prototypal

/-- A state with further notes in its journal. -/
def State.noting (s : State) (notes : List Event) : State :=
  { s with journal := notes ++ s.journal }

/-- A state at another level of nesting. -/
def State.atLevel (s : State) (level : Nat) : State :=
  { s with callDepth := level }

/-- The state in which the body of a closure starts that is invoked with some arguments. -/
def State.entering (s : State) (args : List ObjectId) : State :=
  (s.noting [.invoked true args.length (s.callDepth + 1)]).atLevel (s.callDepth + 1)

@[simp] lemma State.noting_noting (s : State) (older newer : List Event) :
    (s.noting older).noting newer = s.noting (newer ++ older) := by
  simp [noting]

/-- An outcome from which the state goes back to a level of nesting. -/
def Outcome.backTo {α : Type} (level : Nat) (r : Outcome α) : Outcome α :=
  Outcome.after (fun t => t.atLevel level) r

@[simp] lemma Outcome.backTo_backTo {α : Type} (n m : Nat) (r : Outcome α) :
    Outcome.backTo m (Outcome.backTo n r) = Outcome.backTo m r := by
  cases r <;> rfl

/-- The notes that the lookup of an ordinary key makes. -/
def State.cutNotes (s : State) (o : ObjectId) (k : Key) : List Event :=
  (s.heap.resolve? s.hops o k).2.notes (some k) s.hops

/-- The notes that the lookup of an ordinary key above an object makes. -/
def State.cutNotesAbove (s : State) (o : ObjectId) (k : Key) : List Event :=
  (s.heap.resolveAbove? s.hops o k).2.notes (some k) s.hops

variable {s : State} {o value : ObjectId} {k : Key} {f : Found} {c : Closure}

/-! ## Looking up -/

section

variable (enter : Enter) (args : List ObjectId)

lemma send_of_off (off : s.strictness = .off) :
    send enter o k args s = dispatch enter o k args s := by
  rw [send, checked_run, off]
  rfl

/-- A call invokes what the lookup finds. -/
lemma send_of_found (ordinary : k.isReserved = false) (off : s.strictness = .off)
    (found : (s.heap.resolve? s.hops o k).1 = some f) :
    send enter o k args s =
      invoke enter o f.holder f.value args (s.noting (s.cutNotes o k)) := by
  rw [send_of_off enter args off, dispatch, run_bind_ok (resolve_run ordinary s), found]
  rfl

lemma send_of_missing (ordinary : k.isReserved = false) (off : s.strictness = .off)
    (missing : (s.heap.resolve? s.hops o k).1 = none) :
    send enter o k args s = callUnresolved enter o k args (s.noting (s.cutNotes o k)) := by
  rw [send_of_off enter args off, dispatch, run_bind_ok (resolve_run ordinary s), missing]
  rfl

/-- No object but a closure answers what does not resolve. -/
lemma callUnresolved_of_value (plain : (s.heap.payload o).closure? = none) :
    callUnresolved enter o k args s = .ok nullId (s.noting [.unanswered o k]) := by
  rw [callUnresolved, run_bind_ok (show payloadOf o s = .ok (s.heap.payload o) s from rfl), plain]
  rfl

/-- A call that finds nothing, of an object that is no closure, answers Null. -/
lemma send_unanswered (ordinary : k.isReserved = false) (off : s.strictness = .off)
    (missing : (s.heap.resolve? s.hops o k).1 = none)
    (plain : (s.heap.payload o).closure? = none) :
    send enter o k args s = .ok nullId (s.noting (.unanswered o k :: s.cutNotes o k)) := by
  rw [send_of_missing enter args ordinary off missing]
  exact callUnresolved_of_value (s := s.noting (s.cutNotes o k)) enter args plain

variable (this : ObjectId)

lemma sendAbove_of_found (ordinary : k.isReserved = false)
    (found : (s.heap.resolveAbove? s.hops o k).1 = some f) :
    sendAbove enter this o k args s = invoke enter this f.holder f.value args
      (s.noting (.superCalled this k f.holder :: s.cutNotesAbove o k)) := by
  rw [sendAbove, run_bind_ok (resolveAbove_run ordinary s), found]
  rfl

lemma sendAbove_of_missing (ordinary : k.isReserved = false)
    (missing : (s.heap.resolveAbove? s.hops o k).1 = none) :
    sendAbove enter this o k args s =
      .ok nullId (s.noting (.superUnanswered this k :: s.cutNotesAbove o k)) := by
  rw [sendAbove, run_bind_ok (resolveAbove_run ordinary s), missing]
  rfl

end

/-! ## Going deeper -/

/-- A call that is nested too deep is not carried out. -/
lemma enterCall_of_tooDeep (a : Activation) (deep : s.limits.callDepth.toNat ≤ s.callDepth) :
    enterCall a s = .error (.fault (.tooDeep s.limits.callDepth.toNat)) s := by
  rw [enterCall_eq, nested_run, if_pos (Nat.lt_succ_of_le deep)]

/-- A call that the limit allows is carried out one level deeper. -/
lemma enterCall_of_allowed (a : Activation) (allowed : s.callDepth < s.limits.callDepth.toNat) :
    enterCall a s = Outcome.backTo s.callDepth
      (a.run enterCall (s.callDepth + 1) (s.atLevel (s.callDepth + 1))) := by
  rw [enterCall_eq, nested_run, if_neg (Nat.not_lt_of_le allowed)]
  rfl

/-- A call comes back to the level where it was made. -/
lemma backTo_enterCall (a : Activation) (s : State) :
    Outcome.backTo s.callDepth (enterCall a s) = enterCall a s := by
  by_cases allowed : s.callDepth < s.limits.callDepth.toNat
  · rw [enterCall_of_allowed a allowed, Outcome.backTo_backTo]
  · rw [enterCall_of_tooDeep a (Nat.le_of_not_lt allowed)]
    rfl

/-! ## Invoking -/

section

variable (this holder : ObjectId) (args : List ObjectId)

lemma invoke_of_closure (closure : (s.heap.payload value).closure? = some c) :
    invoke enterCall this holder value args s =
      enterCall (.body (c.bind this) (some holder) args) s := by
  rw [invoke, run_bind_ok (show payloadOf value s = .ok (s.heap.payload value) s from rfl), closure]

lemma invoke_of_value (plain : (s.heap.payload value).closure? = none) :
    invoke enterCall this holder value args s = enterCall (.value value args) s := by
  rw [invoke, run_bind_ok (show payloadOf value s = .ok (s.heap.payload value) s from rfl), plain]

/-- Nothing is invoked that is nested too deep. -/
lemma invoke_of_tooDeep (value : ObjectId) (deep : s.limits.callDepth.toNat ≤ s.callDepth) :
    invoke enterCall this holder value args s =
      .error (.fault (.tooDeep s.limits.callDepth.toNat)) s := by
  cases closure : (s.heap.payload value).closure? with
  | some c => rw [invoke_of_closure this holder args closure, enterCall_of_tooDeep _ deep]
  | none => rw [invoke_of_value this holder args closure, enterCall_of_tooDeep _ deep]

/-- A closure is invoked by one run of its body, one level deeper, with the receiver and the
holder. -/
lemma invoke_runs_body (closure : (s.heap.payload value).closure? = some c)
    (allowed : s.callDepth < s.limits.callDepth.toNat) :
    invoke enterCall this holder value args s = Outcome.backTo s.callDepth
      (c.body.run enterCall ⟨some this, some holder, args⟩ (s.entering args)) := by
  rw [invoke_of_closure this holder args closure, enterCall_of_allowed _ allowed]
  rfl

/-- A value that is no closure is invoked by calling its `()`, one level deeper. -/
lemma invoke_sends (plain : (s.heap.payload value).closure? = none)
    (allowed : s.callDepth < s.limits.callDepth.toNat) :
    invoke enterCall this holder value args s = Outcome.backTo s.callDepth
      (send enterCall value (.name .call) args (s.atLevel (s.callDepth + 1))) := by
  rw [invoke_of_value this holder args plain, enterCall_of_allowed _ allowed]
  rfl

lemma backTo_invoke (value : ObjectId) (s : State) :
    Outcome.backTo s.callDepth (invoke enterCall this holder value args s) =
      invoke enterCall this holder value args s := by
  cases closure : (s.heap.payload value).closure? with
  | some c => rw [invoke_of_closure this holder args closure, backTo_enterCall]
  | none => rw [invoke_of_value this holder args closure, backTo_enterCall]

end

/-! ## Coming back -/

lemma backTo_callUnresolved (o : ObjectId) (k : Key) (args : List ObjectId) (s : State) :
    Outcome.backTo s.callDepth (callUnresolved enterCall o k args s) =
      callUnresolved enterCall o k args s := by
  have looked : payloadOf o s = .ok (s.heap.payload o) s := rfl
  rw [callUnresolved, run_bind_ok looked]
  cases closure : (s.heap.payload o).closure? with
  | none => rfl
  | some c =>
      cases k with
      | object x => rfl
      | name y =>
          dsimp only
          split
          · exact backTo_enterCall _ s
          · split
            · rfl
            · rfl

/-- A call comes back to the level where it was made. -/
lemma backTo_send (args : List ObjectId) (ordinary : k.isReserved = false)
    (off : s.strictness = .off) :
    Outcome.backTo s.callDepth (send enterCall o k args s) = send enterCall o k args s := by
  cases found : (s.heap.resolve? s.hops o k).1 with
  | some f =>
      rw [send_of_found enterCall args ordinary off found]
      exact backTo_invoke o f.holder args f.value (s.noting (s.cutNotes o k))
  | none =>
      rw [send_of_missing enterCall args ordinary off found]
      exact backTo_callUnresolved o k args (s.noting (s.cutNotes o k))

lemma callDepth_of_send {args : List ObjectId} {answer : ObjectId} {t : State}
    (ordinary : k.isReserved = false) (off : s.strictness = .off)
    (run : send enterCall o k args s = .ok answer t) : t.callDepth = s.callDepth := by
  have back := backTo_send args ordinary off (o := o)
  rw [run] at back
  injection back with _ level
  rw [← level]
  rfl

end Prototypal
