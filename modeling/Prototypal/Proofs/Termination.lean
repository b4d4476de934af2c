import Prototypal.Proofs.Machine.Steps

/-!
# Every evaluation ends

Closures reach themselves through the heap, so the size of an expression is no bound on its
evaluation.  What bounds it is the limit on nested calls: every way from one body to the next is an
activation, and every activation takes a level.

**Gas.**  Activations are carried out by recursion on gas, which is a device of the definition.  Two
amounts that suffice for all levels a limit can allow come to the same (`Coded.activate`), so calls
satisfy an equation without gas (`enterCall_eq`).

* `Outcome.Ended` — the ways in which an evaluation may end.
* `evaluation_terminates` — the statement about evaluations.
-/

namespace Prototypal

/-- An evaluation ended with a value, an escape, a fault, or because the settings were to be fixed a
second time; or else because the table of names is full, and a new name did not fit. -/
inductive Outcome.Ended {α : Type} : Outcome α → Prop where
  | value (a : α) (t : State) : Ended (.ok a t)
  | escape (e : Escape) (t : State) : Ended (.error (.escape e) t)
  | fault (x : Fault) (t : State) : Ended (.error (.fault x) t)
  | reconfigured (t : State) : Ended (.error .reconfigured t)
  | overflow (t : State) (full : t.names.Full) : Ended (.error .overflow t)

lemma Returned.ended {f : Fragment} {s : State} {α : Type} {r : Outcome α} (h : Returned f s r) :
    Outcome.Ended r := by
  cases r with
  | ok a t => exact .value a t
  | error i t =>
      have contained := h.contained i t rfl
      cases i with
      | escape e => exact .escape e t
      | fault x => exact .fault x t
      | reconfigured => exact .reconfigured t
      | overflow => exact .overflow t contained
      | exhausted => exact contained.elim

/-! ## Gas -/

lemma Activation.within_full (a : Activation) : a.within .full = true := by
  cases a with
  | body c holder args => exact c.body.within_full
  | value v args => rfl

lemma Coded.activate (gas gas' : Nat) : ∀ {n : Nat} {K : Set ObjectId} {a : Activation},
    UInt64.size ≤ gas + n → UInt64.size ≤ gas' + n → Known K a →
    Coded .full n K (activate gas a) (activate gas' a) := by
  induction gas generalizing gas' with
  | zero =>
      intro n K a enough _ _
      have deep : UInt64.size ≤ n := by omega
      cases gas' with
      | zero => exact .tooDeep deep _ _
      | succ gas' => exact .tooDeep deep _ _
  | succ gas ih =>
      intro n K a enough enough' known
      cases gas' with
      | zero => exact .tooDeep (by omega) _ _
      | succ gas' =>
          refine Coded.nested ?_
          refine (coding .full).keeps_activation (fun _ hb => ?_) (n + 1) a.within_full known
          exact ih gas' (by omega) (by omega) hb

lemma Coded.enterCall {gas n : Nat} {K : Set ObjectId} {a : Activation}
    (enough : UInt64.size ≤ gas + n) (known : Known K a) :
    Coded .full n K (Prototypal.activate gas a) (enterCall a) := by
  have enough' : UInt64.size ≤ gasAt n + n := by
    simp only [gasAt]
    omega
  obtain ⟨c, hc, hc', careful⟩ := Coded.activate gas (gasAt n) enough enough' known
  have called : c.Realizes n (Prototypal.enterCall a) :=
    .callDepth (fun level => Prototypal.activate (gasAt level) a) hc'
  exact ⟨c, hc, called, careful⟩

/-- Calls, without gas. -/
theorem enterCall_eq (a : Activation) :
    enterCall a = nested fun level => a.run enterCall level := by
  funext s
  obtain ⟨gas, enough⟩ : ∃ gas, UInt64.size ≤ gas := ⟨UInt64.size, Nat.le_refl _⟩
  have withGas : Coded .full s.callDepth Set.univ (activate (gas + 1) a) (enterCall a) :=
    Coded.enterCall (by omega) (known_univ a)
  have without : Coded .full s.callDepth Set.univ (activate (gas + 1) a)
      (nested fun level => a.run enterCall level) := by
    refine Coded.nested ?_
    refine (coding .full).keeps_activation (fun _ hb => ?_) _ a.within_full (known_univ a)
    exact Coded.enterCall (by omega) hb
  have within := s.heap.within_full
  exact (withGas.eq rfl within).symm.trans (without.eq rfl within)

/-- **Every evaluation ends,** whatever the state, the settings in it and the body around it: with a
value, an escape, a fault, or because the settings were to be fixed a second time; where a new name
meets a full table of names, this ends the evaluation, too, and in no other case.  Gas plays no
part in this: calls lead to calls as the equation says, and any amount of gas that suffices for the
levels a limit can allow comes to the same.  A machine that carries the evaluation out step by step,
in whatever way it is put together, comes to its outcome from every moment of the run. -/
theorem evaluation_terminates :
    (∀ a, enterCall a = nested fun level => a.run enterCall level) ∧
    ∀ (i : Invocation) (e : Expr) (s : State),
      Outcome.Ended (eval enterCall i e s) ∧
      (∀ gas, UInt64.size ≤ gas + s.callDepth →
        eval (activate gas) i e s = eval enterCall i e s) ∧
      (∃ c : Code .full Value, c.Realizes s.callDepth (eval enterCall i e)) ∧
      ∀ c : Code .full Value, c.Realizes s.callDepth (eval enterCall i e) →
        ∀ p, (c.start s).Reaches p → p.Reaches (.ofOutcome (eval enterCall i e s) .done) := by
  refine ⟨enterCall_eq, fun i e s => ⟨?_, fun gas enough => ?_,
    exists_code e.within_full s.callDepth i, fun c hc p hp => ?_⟩⟩
  · have returned : Contained .full s.callDepth (eval enterCall i e) :=
      (containment .full).keeps_evaluate i e.within_full
    exact (returned s rfl s.heap.within_full).ended
  · have coded : Coded .full s.callDepth Set.univ (eval (activate gas) i e) (eval enterCall i e) :=
      (coding .full).keeps_eval (fun _ known => Coded.enterCall enough known) (known_univ i) e
        e.within_full
    exact coded.eq rfl s.heap.within_full
  · have same : c.run s = eval enterCall i e s := hc s rfl s.heap.within_full
    rw [← same]
    exact Code.reaches_outcome hp

end Prototypal
