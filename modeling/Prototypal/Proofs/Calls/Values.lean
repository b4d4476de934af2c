import Prototypal.Proofs.Calls.Dispatch
import Prototypal.Proofs.Limits

/-!
# Calling through values

An attribute that holds a closure is called by running the closure.  An attribute that holds any
other value is called by calling the `()` of that value, which may again hold a value that is no
closure, and so on.  Each value on the way takes a level of nesting.

* `Heap.Leads` — the way from an attribute through values that are no closures.
* `send_of_leads` — a call that has come that far, by induction over the way.
* `ComesToClosure`, `ComesToNothing` — the two ends that a way can have in time.
* `call_through_values` — what a call does, in all cases.

A way that has neither end goes on forever or is too long.  It then leads as far as the limit on
nesting allows (`leads_to_limit`), and the next level is refused.
-/

namespace Prototypal

/-- A call of an attribute leads through a number of values that are no closures to what is found
last.  The receiver is then the last of these values, or the object whose attribute was called. -/
inductive Heap.Leads (h : Heap) (hops : Nat) (o : ObjectId) (k : Key) :
    Nat → ObjectId → Found → Prop where
  | found {f : Found} (here : (h.resolve? hops o k).1 = some f) : Leads h hops o k 0 o f
  | through {n : Nat} {r : ObjectId} {f g : Found} (leads : Leads h hops o k n r f)
      (plain : (h.payload f.value).closure? = none)
      (onwards : (h.resolve? hops f.value (.name .call)).1 = some g) :
      Leads h hops o k (n + 1) f.value g

lemma isCut_of_mem_cutNotes {s : State} {o : ObjectId} {k : Key} {e : Event}
    (he : e ∈ s.cutNotes o k) : e.isCut = true := by
  obtain ⟨x, _, rfl⟩ := List.mem_map.mp he
  rfl

section

variable {s : State} {o r : ObjectId} {k : Key} {n : Nat} {f : Found}

section

variable (holder : ObjectId) (args : List ObjectId) {value : ObjectId} (off : s.strictness = .off)
  (plain : (s.heap.payload value).closure? = none)
  (allowed : s.callDepth < s.limits.callDepth.toNat)
include off plain allowed

/-- Invoking a value that is no closure invokes its `()` one level deeper. -/
lemma invoke_onwards {g : Found} (onwards : (s.heap.resolve? s.hops value (.name .call)).1 = some g) :
    invoke enterCall r holder value args s = Outcome.backTo s.callDepth
      (invoke enterCall value g.holder g.value args
        ((s.noting (s.cutNotes value (.name .call))).atLevel (s.callDepth + 1))) := by
  rw [invoke_sends r holder args plain allowed]
  exact congrArg _ (send_of_found (s := s.atLevel (s.callDepth + 1)) enterCall args rfl off onwards)

/-- Invoking a value on which `()` does not resolve answers Null. -/
lemma invoke_unanswered (unresolved : (s.heap.resolve? s.hops value (.name .call)).1 = none) :
    invoke enterCall r holder value args s =
      .ok nullId (s.noting (.unanswered value (.name .call) :: s.cutNotes value (.name .call))) := by
  have answered := send_unanswered (s := s.atLevel (s.callDepth + 1)) enterCall args rfl off
    unresolved plain
  rw [invoke_sends r holder args plain allowed, answered]
  rfl

end

/-- A call goes the way on which it leads, one level deeper with each value, as long as the limit
allows it. -/
lemma send_of_leads (args : List ObjectId) (ordinary : k.isReserved = false)
    (off : s.strictness = .off) (leads : s.heap.Leads s.hops o k n r f)
    (allowed : n ≤ s.limits.callDepth.toNat - s.callDepth) :
    ∃ cuts : List Event, (∀ e ∈ cuts, e.isCut = true) ∧
      send enterCall o k args s = Outcome.backTo s.callDepth
        (invoke enterCall r f.holder f.value args
          ((s.noting cuts).atLevel (s.callDepth + n))) := by
  induction leads with
  | found here =>
      refine ⟨s.cutNotes o k, fun e => isCut_of_mem_cutNotes, ?_⟩
      rw [send_of_found enterCall args ordinary off here]
      exact (backTo_invoke ..).symm
  | @through n r f g leads plain onwards ih =>
      obtain ⟨cuts, areCuts, come⟩ := ih (by omega)
      have further : s.callDepth + n < s.limits.callDepth.toNat := by omega
      have next := invoke_onwards (s := (s.noting cuts).atLevel (s.callDepth + n)) (r := r)
        f.holder args off plain further onwards
      refine ⟨s.cutNotes f.value (.name .call) ++ cuts, ?_, ?_⟩
      · exact List.forall_mem_append.mpr ⟨fun e => isCut_of_mem_cutNotes, areCuts⟩
      · rw [come, next, Outcome.backTo_backTo, ← State.noting_noting]
        rfl

/-- A call comes in time to a closure: through a number of values to the closure, with the receiver
and where it was found. -/
structure ComesToClosure (s : State) (o : ObjectId) (k : Key) (n : Nat) (r : ObjectId) (f : Found)
    (c : Closure) : Prop where
  leads : s.heap.Leads s.hops o k n r f
  closure : (s.heap.payload f.value).closure? = some c
  inTime : s.callDepth + n + 1 ≤ s.limits.callDepth.toNat

/-- A call comes in time to a value that is no closure and on which `()` does not resolve. -/
structure ComesToNothing (s : State) (o : ObjectId) (k : Key) (n : Nat) (r : ObjectId) (f : Found) :
    Prop where
  leads : s.heap.Leads s.hops o k n r f
  plain : (s.heap.payload f.value).closure? = none
  unresolved : (s.heap.resolve? s.hops f.value (.name .call)).1 = none
  inTime : s.callDepth + n + 1 ≤ s.limits.callDepth.toNat

/-- A call that comes to neither leads as far as the limit allows. -/
lemma leads_to_limit {start : Found} (found : (s.heap.resolve? s.hops o k).1 = some start)
    (noClosure : ¬ ∃ n r f c, ComesToClosure s o k n r f c)
    (noEnd : ¬ ∃ n r f, ComesToNothing s o k n r f) (n : Nat)
    (within : n ≤ s.limits.callDepth.toNat - s.callDepth) :
    ∃ r f, s.heap.Leads s.hops o k n r f := by
  induction n with
  | zero => exact ⟨o, start, .found found⟩
  | succ n ih =>
      obtain ⟨r, f, leads⟩ := ih (by omega)
      have inTime : s.callDepth + n + 1 ≤ s.limits.callDepth.toNat := by omega
      have plain : (s.heap.payload f.value).closure? = none := by
        rw [Option.eq_none_iff_forall_ne_some]
        exact fun c closure => noClosure ⟨n, r, f, c, leads, closure, inTime⟩
      cases onwards : (s.heap.resolve? s.hops f.value (.name .call)).1 with
      | none => exact absurd ⟨n, r, f, leads, plain, onwards, inTime⟩ noEnd
      | some g => exact ⟨f.value, g, .through leads plain onwards⟩

end

/-- **Calling through values.**  Nothing is checked, and an ordinary key resolves on an object.  If the
call comes in time to a closure, through a number of values that are none, it is one run of its body
with the same arguments, that many levels deeper and one more; the receiver is the last of the
values, or the object itself, and the holder is where the closure was found.  If the call comes in
time to a value on which `()` does not resolve, it answers Null, and no body runs.  In all other
cases the limit on nesting is exceeded; no body runs, and nothing has changed but the journal. -/
theorem call_through_values (s : State) (o : ObjectId) (k : Key) (args : List ObjectId)
    (ordinary : k.isReserved = false) (off : s.strictness = .off)
    (resolves : ∃ f, Yields (resolve o k) s (some f)) :
    (∀ n r f c, ComesToClosure s o k n r f c →
      ∃ cuts : List Event, (∀ e ∈ cuts, e.isCut = true) ∧
        send enterCall o k args s =
          Outcome.after (fun t => { t with callDepth := s.callDepth })
            (c.body.run enterCall ⟨some r, some f.holder, args⟩
              { s with
                callDepth := s.callDepth + n + 1
                journal := .invoked true args.length (s.callDepth + n + 1) ::
                  (cuts ++ s.journal) })) ∧
    (∀ n r f, ComesToNothing s o k n r f →
      ∃ cuts : List Event, (∀ e ∈ cuts, e.isCut = true) ∧
        send enterCall o k args s =
          .ok nullId { s with
            journal := .unanswered f.value (.name .call) :: (cuts ++ s.journal) }) ∧
    ((¬ ∃ n r f c, ComesToClosure s o k n r f c) → (¬ ∃ n r f, ComesToNothing s o k n r f) →
      ∃ cuts : List Event, (∀ e ∈ cuts, e.isCut = true) ∧
        send enterCall o k args s =
          .error (.fault (.tooDeep s.limits.callDepth.toNat))
            { s with journal := cuts ++ s.journal }) := by
  refine ⟨?_, ?_, ?_⟩
  · intro n r f c ⟨leads, closure, inTime⟩
    obtain ⟨cuts, areCuts, come⟩ := send_of_leads args ordinary off leads (by omega)
    have run := invoke_runs_body (s := (s.noting cuts).atLevel (s.callDepth + n)) r f.holder args
      closure inTime
    refine ⟨cuts, areCuts, ?_⟩
    rw [come, run, Outcome.backTo_backTo]
    rfl
  · intro n r f ⟨leads, plain, unresolved, inTime⟩
    obtain ⟨cuts, areCuts, come⟩ := send_of_leads args ordinary off leads (by omega)
    have nothing := invoke_unanswered (s := (s.noting cuts).atLevel (s.callDepth + n)) (r := r)
      f.holder args off plain inTime unresolved
    refine ⟨s.cutNotes f.value (.name .call) ++ cuts, ?_, ?_⟩
    · exact List.forall_mem_append.mpr ⟨fun e => isCut_of_mem_cutNotes, areCuts⟩
    · rw [come, nothing, List.append_assoc]
      rfl
  · intro noClosure noEnd
    obtain ⟨start, found⟩ := resolves
    rw [resolve_yields_iff ordinary] at found
    obtain ⟨r, f, leads⟩ := leads_to_limit found noClosure noEnd _ (Nat.le_refl _)
    obtain ⟨cuts, areCuts, come⟩ := send_of_leads args ordinary off leads (Nat.le_refl _)
    refine ⟨cuts, areCuts, come.trans ?_⟩
    rw [invoke_of_tooDeep]
    · rfl
    · show s.limits.callDepth.toNat ≤ s.callDepth + (s.limits.callDepth.toNat - s.callDepth)
      omega

/-- Three values that are no closures, as attributes of one object: the `()` of the first is a closure
that answers its receiver, the `()` of the second is the value itself, and the third has none. -/
def callables : Heap where
  objects := #[none, some ⟨.null, .sealed nullId⟩,
    some ⟨.plain, { Slots.fresh 2 none [] with
      table := [(.object 3, 3), (.object 4, 4), (.object 5, 5)] }⟩,
    some ⟨.plain, { Slots.fresh 3 none [] with table := [(.name .call, 6)] }⟩,
    some ⟨.plain, { Slots.fresh 4 none [] with table := [(.name .call, 4)] }⟩,
    some ⟨.plain, .fresh 5 none []⟩,
    some ⟨.closure ⟨6, .script [.nullary .receiver], none⟩, .fresh 6 none []⟩]

/-- Two levels are allowed.  That is just enough to call the first value; the second is called until
the limit is exceeded, and the third answers Null. -/
theorem callables_called :
    (∃ t, send enterCall 2 (.object 3) [] ({ State.initial with heap := callables }.fixing tight) =
      .ok 3 t) ∧
    (∃ t, send enterCall 2 (.object 4) [] ({ State.initial with heap := callables }.fixing tight) =
      .error (.fault (.tooDeep 2)) t) ∧
    ∃ t, send enterCall 2 (.object 5) [] ({ State.initial with heap := callables }.fixing tight) =
      .ok nullId t := by
  let s : State := { State.initial with heap := callables }.fixing tight
  refine ⟨?_, ?_, ?_⟩
  · obtain ⟨runs, _⟩ := call_through_values s 2 (.object 3) [] rfl rfl ⟨⟨2, 3⟩, _, rfl⟩
    have first : s.heap.Leads s.hops 2 (.object 3) 0 2 ⟨2, 3⟩ := .found rfl
    have way : ComesToClosure s 2 (.object 3) 1 3 ⟨3, 6⟩ ⟨6, .script [.nullary .receiver], none⟩ :=
      ⟨.through first rfl rfl, rfl, by decide⟩
    obtain ⟨cuts, _, run⟩ := runs _ _ _ _ way
    exact ⟨_, run⟩
  · obtain ⟨_, _, overflows⟩ := call_through_values s 2 (.object 4) [] rfl rfl ⟨⟨2, 4⟩, _, rfl⟩
    have looping : ∀ n r f, s.heap.Leads s.hops 2 (.object 4) n r f → f.value = 4 := by
      intro n r f leads
      induction leads with
      | found here =>
          cases here
          rfl
      | through _ _ onwards ih =>
          rw [ih] at onwards
          cases onwards
          rfl
    obtain ⟨cuts, _, run⟩ := overflows
      (by
        rintro ⟨n, r, f, c, leads, closure, _⟩
        rw [looping n r f leads] at closure
        cases closure)
      (by
        rintro ⟨n, r, f, leads, _, unresolved, _⟩
        rw [looping n r f leads] at unresolved
        cases unresolved)
    exact ⟨_, run⟩
  · obtain ⟨_, answers, _⟩ := call_through_values s 2 (.object 5) [] rfl rfl ⟨⟨2, 5⟩, _, rfl⟩
    have way : ComesToNothing s 2 (.object 5) 0 2 ⟨2, 5⟩ := ⟨.found rfl, rfl, rfl, by decide⟩
    obtain ⟨cuts, _, run⟩ := answers _ _ _ way
    exact ⟨_, run⟩

end Prototypal
