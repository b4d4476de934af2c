import Mathlib.Data.List.Chain
import Prototypal.Proofs.Changes
import Prototypal.Proofs.Machine.Moves
import Prototypal.Script.Session

/-!
# Sessions, moment by moment

A session carries out the steps of a script one after the other, each by the machine.  Its moments
are those of all steps, in one row; what holds of the heap at one of them can be followed to all
later ones.

* `Moment`, `Moment.Step` — what a session is at: the machine, and the steps to come.  The next step
  is begun when the machine has come to the end of the last one, however that was.
* `Moment.CarefulStep` — the same with codes that make no objects up.
* `Moment.reaches_after`, `Moment.exists_run` — a session comes to the states in which its steps
  end, and there is one run through all of them.
* `Moment.Reaches.changes` — between two moments, the heap changes bit by bit.
-/

namespace Prototypal

open Mentions (objects)

structure Moment where
  now : Config .full Value
  rest : List Expr

namespace Moment

inductive Step : Moment → Moment → Prop where
  | machine {p q : Config .full Value} (es : List Expr) (h : p.step = some q) : Step ⟨p, es⟩ ⟨q, es⟩
  | next (r : Except Interrupt Value) (t : State) {e : Expr} (es : List Expr) {c : Code .full Value}
      (hc : c.Realizes t.callDepth (evaluate e)) :
      Step ⟨.ret r .done t, e :: es⟩ ⟨c.start { t with journal := [], emitted := [] }, es⟩

def Reaches : Moment → Moment → Prop :=
  Relation.ReflTransGen Step

/-- A step of a session that is carried out by codes that make no objects up. -/
inductive CarefulStep : Moment → Moment → Prop where
  | machine {p q : Config .full Value} (es : List Expr) (h : p.step = some q) :
      CarefulStep ⟨p, es⟩ ⟨q, es⟩
  | next (r : Except Interrupt Value) (t : State) {e : Expr} (es : List Expr) {c : Code .full Value}
      (hc : c.Realizes t.callDepth (evaluate e)) (careful : c.Careful ∅ objects) :
      CarefulStep ⟨.ret r .done t, e :: es⟩ ⟨c.start { t with journal := [], emitted := [] }, es⟩

def CarefullyReaches : Moment → Moment → Prop :=
  Relation.ReflTransGen CarefulStep

/-- Before the first step of a script. -/
def start (es : List Expr) : Moment :=
  ⟨.ret (.ok (.object nullId)) .done .initial, es⟩

def heap (p : Moment) : Heap :=
  p.now.state.heap

lemma CarefullyReaches.ofMachine {p q : Config .full Value} (h : p.Reaches q) (es : List Expr) :
    CarefullyReaches ⟨p, es⟩ ⟨q, es⟩ := by
  induction h with
  | refl => exact .refl
  | tail _ last ih => exact ih.tail (.machine es last)

lemma CarefullyReaches.reaches {p q : Moment} (h : p.CarefullyReaches q) : p.Reaches q := by
  induction h with
  | refl => exact .refl
  | tail _ last ih =>
      cases last with
      | machine es h => exact ih.tail (.machine es h)
      | next r t es hc => exact ih.tail (.next r t es hc)

/-- A step ends in the state in which its evaluation ends. -/
lemma runStep_state (shown : Event → Bool) (e : Expr) (s : State) :
    ∃ r, evaluate e { s with journal := [], emitted := [] } =
      Outcome.ofExcept r (runStep shown e s).2 := by
  rw [runStep]
  cases evaluate e { s with journal := [], emitted := [] } with
  | ok v t => exact ⟨.ok v, rfl⟩
  | error i t => exact ⟨.error i, rfl⟩

/-- A session comes to the state in which its first steps end, with the others to come. -/
lemma carefullyReaches_after (shown : Event → Bool) (es rest : List Expr)
    (r : Except Interrupt Value) (s : State) :
    ∃ r', CarefullyReaches ⟨.ret r .done s, es ++ rest⟩
      ⟨.ret r' .done (es.foldl (fun t e => (runStep shown e t).2) s), rest⟩ := by
  -- how the last step ended makes no difference, so the induction is for every `r`
  induction es generalizing r s with
  | nil => exact ⟨r, .refl⟩
  | cons e es ih =>
      let s₀ : State := { s with journal := [], emitted := [] }
      have outside : Known ∅ Invocation.outside := fun _ => nofun
      obtain ⟨c, hc, careful⟩ := exists_careful_code e.within_full s.callDepth outside
      have begun : CarefulStep ⟨.ret r .done s, e :: (es ++ rest)⟩ ⟨c.start s₀, es ++ rest⟩ :=
        .next r s _ hc careful
      have ends : (c.start s₀).Reaches (.ofOutcome (evaluate e s₀) .done) :=
        Code.Realizes.ends (s := s₀) hc s₀.heap.within_full
      obtain ⟨r', hr'⟩ := runStep_state shown e s
      rw [hr', Config.ofOutcome_ofExcept] at ends
      obtain ⟨r'', onward⟩ := ih r' (runStep shown e s).2
      exact ⟨r'', .head begun ((CarefullyReaches.ofMachine ends (es ++ rest)).trans onward)⟩

lemma reaches_after (shown : Event → Bool) (es rest : List Expr) (r : Except Interrupt Value)
    (s : State) :
    ∃ r', Reaches ⟨.ret r .done s, es ++ rest⟩
      ⟨.ret r' .done (es.foldl (fun t e => (runStep shown e t).2) s), rest⟩ := by
  obtain ⟨r', reached⟩ := carefullyReaches_after shown es rest r s
  exact ⟨r', reached.reaches⟩

/-- A session comes through the states in which its steps end. -/
lemma start_reaches_after (shown : Event → Bool) {es past rest : List Expr}
    (split : es = past ++ rest) :
    ∃ r, (start es).Reaches
      ⟨.ret r .done (past.foldl (fun s e => (runStep shown e s).2) .initial), rest⟩ := by
  rw [split]
  exact reaches_after shown past rest _ .initial

lemma Reaches.exists_chain {p q : Moment} (h : p.Reaches q) :
    ∃ path before, List.IsChain Step (p :: path) ∧ p :: path = before ++ [q] := by
  obtain ⟨path, chain, rfl⟩ := List.exists_isChain_cons_of_relationReflTransGen h
  exact ⟨path, _, chain, (List.dropLast_append_getLast (List.cons_ne_nil p path)).symm⟩

/-- One run of a session comes through all the states in which its steps end. -/
lemma exists_run (shown : Event → Bool) (es : List Expr) (r : Except Interrupt Value) (s : State) :
    ∃ path, List.IsChain Step (⟨.ret r .done s, es⟩ :: path) ∧
      ∀ past rest, es = past ++ rest →
        ∃ r', ⟨.ret r' .done (past.foldl (fun t e => (runStep shown e t).2) s), rest⟩ ∈
          (⟨.ret r .done s, es⟩ :: path : List Moment) := by
  induction es generalizing r s with
  | nil =>
      refine ⟨[], .singleton _, fun past rest split => ⟨r, ?_⟩⟩
      obtain ⟨rfl, rfl⟩ := List.append_eq_nil_iff.mp split.symm
      exact List.mem_cons_self
  | cons e es ih =>
      obtain ⟨r', reached⟩ : ∃ r', Reaches ⟨.ret r .done s, e :: es⟩
          ⟨.ret r' .done (runStep shown e s).2, es⟩ := reaches_after shown [e] es r s
      -- the first step's run ends where that of the others begins
      obtain ⟨first, before, chain, whole⟩ := reached.exists_chain
      obtain ⟨onward, later, ends⟩ := ih r' (runStep shown e s).2
      refine ⟨first ++ onward, ?_, fun past rest split => ?_⟩
      · rw [← List.cons_append]
        rw [whole] at chain ⊢
        rw [List.append_assoc, List.singleton_append]
        exact List.isChain_split.mpr ⟨chain, later⟩
      · cases past with
        | nil => exact ⟨r, split ▸ List.mem_cons_self⟩
        | cons e' past =>
            obtain ⟨rfl, rfl⟩ := List.cons_eq_cons.mp split
            obtain ⟨r'', visited⟩ := ends past rest rfl
            refine ⟨r'', ?_⟩
            rw [← List.cons_append, whole, List.append_assoc, List.singleton_append]
            exact List.mem_append_right before visited

end Moment

/-! ## The heap from one moment to the next -/

lemma Elementary.changes {f : Fragment} {α : Type} {act : Run α} (h : Elementary f act)
    (s : State) : s.heap.Changes (Outcome.final (act s)).heap := by
  cases h with
  | basic h =>
      rcases h.local_or_walk s with hlocal | hwalk
      · exact hlocal.changes
      · rw [hwalk.heap_final]
        exact .refl
  | look g => exact .refl
  | violated v => exact .refl
  | setStrictness _ => exact .refl
  | fixSettings _ =>
      rw [fixSettings_run]
      cases s.fixed with
      | some _ => exact .refl
      | none => exact .refl
  | returnLevels n v =>
      rw [returnLevels_run]
      split
      · exact .refl
      · exact .refl
  | returnTo token v =>
      rw [returnTo_run]
      split
      · exact .refl
      · split
        · exact .refl
        · exact .refl
  | raise _ e => exact .refl

namespace Config

variable {f : Fragment} {γ : Type} {p q : Config f γ}

lemma changes_step (hstep : p.step = some q) : p.state.heap.Changes q.state.heap := by
  cases moves_of_step hstep with
  | elementary act h k s =>
      rw [state_ofOutcome]
      exact h.changes s
  | idle state =>
      rw [state]
      exact .refl
  | opened state =>
      rw [state]
      exact .single (.make _ none [])
  | left m notes plain state =>
      rw [state]
      exact .refl
  | deeper state =>
      rw [state]
      exact .refl
  | shallower depth state =>
      rw [state]
      exact .refl

end Config

lemma Moment.Step.changes {p q : Moment} (h : p.Step q) : p.heap.Changes q.heap := by
  cases h with
  | machine es h => exact Config.changes_step h
  | next r t es hc => exact .refl

/-- Between two moments of a session, the heap changes bit by bit. -/
lemma Moment.Reaches.changes {p q : Moment} (h : p.Reaches q) : p.heap.Changes q.heap := by
  induction h with
  | refl => exact .refl
  | tail _ last ih => exact ih.trans last.changes

end Prototypal
