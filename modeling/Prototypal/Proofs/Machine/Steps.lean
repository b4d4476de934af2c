import Mathlib.Logic.Relation
import Prototypal.Proofs.Machine.Code

/-!
# The machine

A code is carried out step by step by a machine.  The machine is at work on a code, or it has an
outcome in hand; in both cases there is a stack of *frames*, which say what is to be done with the
outcome: go on with the next code, leave a boundary, settle or observe it, take a level of nesting
back.

* `Frames` — the stack, from the inside out.
* `Config`, `Config.step` — what the machine is at, and what it does next.
* `Config.Reaches` — any number of steps.  The configurations that a run reaches are its moments.
* `Code.carried_out` — the machine comes to the outcome of the code, whatever the frames around it.

Since the machine's step is a function, the moments of a run stand in one row, and the outcome of
the evaluation is the end of it.
-/

namespace Prototypal

/-- What is to be done with an outcome, from the inside out. -/
inductive Frames (f : Fragment) : Type → Type → Type 1 where
  | done {γ : Type} : Frames f γ γ
  /-- Goes on with a result; an interrupt goes past. -/
  | next {α β γ : Type} (g : α → Code f β) (k : Frames f β γ) : Frames f α γ
  /-- Leaves the boundary of a marker. -/
  | boundary {γ : Type} (m : Marker) (k : Frames f ObjectId γ) : Frames f ObjectId γ
  | settling {α γ : Type} (hf : f.settles = true) (k : Frames f α γ) : Frames f α γ
  | observing {γ : Type} (hf : f.observes = true) (k : Frames f Value γ) : Frames f Value γ
  /-- Takes the level of nesting back to the given one. -/
  | nesting {α γ : Type} (depth : Nat) (k : Frames f α γ) : Frames f α γ

/-- What the machine is at: a code to be carried out, or an outcome to be handed to the frames. -/
inductive Config (f : Fragment) (γ : Type) : Type 1 where
  | work {α : Type} (c : Code f α) (k : Frames f α γ) (s : State)
  | ret {α : Type} (r : Except Interrupt α) (k : Frames f α γ) (s : State)

/-- What the end of a boundary does to a computation inside it. -/
def closing (m : Marker) (act : Run ObjectId) : Run ObjectId :=
  onEscape (ensure act (leaveBoundary m)) fun e => e.land m

lemma Outcome.exists_ofExcept {α : Type} (o : Outcome α) : ∃ r t, o = Outcome.ofExcept r t := by
  cases o with
  | ok a t => exact ⟨.ok a, t, rfl⟩
  | error i t => exact ⟨.error i, t, rfl⟩

/-- Settling and observing an outcome leave the state as it is. -/
lemma final_settle {α : Type} (r : Except Interrupt α) (s : State) :
    Outcome.final (settle (Outcome.ofExcept r) s) = s := by
  rcases r with i | a
  · cases i <;> rfl
  · rfl

lemma final_observe (r : Except Interrupt Value) (s : State) :
    Outcome.final (observe (Outcome.ofExcept r) s) = s := by
  rcases r with i | a
  · cases i <;> rfl
  · rfl

variable {f : Fragment}

namespace Config

/-- An outcome in hand. -/
def ofOutcome {α γ : Type} (r : Outcome α) (k : Frames f α γ) : Config f γ :=
  match r with
  | .ok a t => ret (.ok a) k t
  | .error i t => ret (.error i) k t

/-- Starts on a code. -/
def begin {α γ : Type} (k : Frames f α γ) (s : State) : Code f α → Config f γ
  | .op act _ => ofOutcome (act s) k
  | .bind c g => work c (.next g k) s
  | .attempt body => work (body s.heap.nextId) (.boundary s.nextMarker k) s.opened
  | .settle hf c => work c (.settling hf k) s
  | .observe hf c => work c (.observing hf k) s
  | .nested c =>
    if s.limits.callDepth.toNat < s.callDepth + 1 then
      ret (.error (.fault (.tooDeep s.limits.callDepth.toNat))) k s
    else work c (.nesting s.callDepth k) { s with callDepth := s.callDepth + 1 }

/-- Hands an outcome to the innermost frame, if there is one. -/
def resume {α γ : Type} (r : Except Interrupt α) (s : State) : Frames f α γ → Option (Config f γ)
  | .done => none
  | .next g k =>
    match r with
    | .ok a => some (work (g a) k s)
    | .error i => some (ret (.error i) k s)
  | .boundary m k => some (ofOutcome (closing m (Outcome.ofExcept r) s) k)
  | .settling _ k => some (ofOutcome (settle (Outcome.ofExcept r) s) k)
  | .observing _ k => some (ofOutcome (observe (Outcome.ofExcept r) s) k)
  | .nesting depth k => some (ret r k { s with callDepth := depth })

/-- What the machine does next; nothing if all is done. -/
def step {γ : Type} : Config f γ → Option (Config f γ)
  | work c k s => some (begin k s c)
  | ret r k s => resume r s k

/-- The state that the machine is in. -/
def state {γ : Type} : Config f γ → State
  | work _ _ s => s
  | ret _ _ s => s

/-- One configuration follows another, after any number of steps. -/
def Reaches {γ : Type} : Config f γ → Config f γ → Prop :=
  Relation.ReflTransGen fun p q => p.step = some q

variable {α γ : Type}

lemma ofOutcome_ofExcept (r : Except Interrupt α) (t : State) (k : Frames f α γ) :
    ofOutcome (Outcome.ofExcept r t) k = ret r k t := by
  cases r <;> rfl

lemma state_ofOutcome (r : Outcome α) (k : Frames f α γ) :
    (ofOutcome r k).state = Outcome.final r := by
  cases r <;> rfl

lemma Reaches.single {p q : Config f γ} (h : p.step = some q) : p.Reaches q :=
  Relation.ReflTransGen.single h

lemma Reaches.trans {p q r : Config f γ} (h : p.Reaches q) (h' : q.Reaches r) : p.Reaches r :=
  Relation.ReflTransGen.trans h h'

/-- Where all is done, nothing follows. -/
lemma Reaches.eq_of_done {r : Except Interrupt γ} {t : State} {q : Config f γ}
    (h : (ret r .done t).Reaches q) : q = ret r .done t := by
  rcases Relation.ReflTransGen.cases_head h with same | ⟨_, hstep, _⟩
  · exact same.symm
  · cases hstep

/-- Since the step is a function, the moments of a run stand in one row. -/
lemma Reaches.total {p q q' : Config f γ} (h : p.Reaches q) (h' : p.Reaches q') :
    q.Reaches q' ∨ q'.Reaches q := by
  have unique : Relator.RightUnique fun p q : Config f γ => p.step = some q := by
    intro p q q' hq hq'
    exact Option.some.inj (hq.symm.trans hq')
  exact Relation.ReflTransGen.total_of_right_unique unique h h'

/-- What every step keeps, all that follows has. -/
lemma Reaches.keeps {P : Config f γ → Prop} (hstep : ∀ p q, P p → p.step = some q → P q)
    {p q : Config f γ} (h : p.Reaches q) (hp : P p) : P q := by
  induction h with
  | refl => exact hp
  | tail _ hlast ih => exact hstep _ _ ih hlast

end Config

namespace Code

variable {α γ : Type}

/-- The machine at the beginning of a code, with no frames around it. -/
def start (c : Code f α) (s : State) : Config f α :=
  .work c .done s

/-- **The machine carries codes out.**  From the beginning of a code it comes to the code's outcome,
with the same frames around it. -/
theorem carried_out (c : Code f α) (k : Frames f α γ) (s : State) :
    (Config.work c k s).Reaches (.ofOutcome (c.run s) k) := by
  induction c generalizing γ s with
  | op act h => exact .single rfl
  | bind c g ihc ihg =>
      have begun : (Config.work (.bind c g) k s).Reaches (.work c (.next g k) s) := .single rfl
      have inner := ihc (.next g k) s
      cases hr : c.run s with
      | ok a t =>
          rw [hr] at inner
          have handed : (Config.ret (.ok a) (.next g k) t).Reaches (.work (g a) k t) := .single rfl
          rw [run, run_bind_ok hr]
          exact begun.trans (inner.trans (handed.trans (ihg a k t)))
      | error i t =>
          rw [hr] at inner
          have passed : (Config.ret (.error i) (.next g k) t).Reaches (.ret (.error i) k t) :=
            .single rfl
          rw [run, run_bind_error hr]
          exact begun.trans (inner.trans passed)
  | attempt body ih =>
      have begun : (Config.work (.attempt body) k s).Reaches
          (.work (body s.heap.nextId) (.boundary s.nextMarker k) s.opened) := .single rfl
      have inner := ih s.heap.nextId (.boundary s.nextMarker k) s.opened
      refine begun.trans (inner.trans ?_)
      rw [run, attempt_opened, onEscape, ensure]
      cases (body s.heap.nextId).run s.opened with
      | ok v t => exact .single rfl
      | error i t => exact .single rfl
  | settle hf c ih =>
      have begun : (Config.work (.settle hf c) k s).Reaches (.work c (.settling hf k) s) :=
        .single rfl
      refine begun.trans ((ih (.settling hf k) s).trans ?_)
      rw [run, Prototypal.settle, onEscape]
      cases c.run s with
      | ok a t => exact .single rfl
      | error i t => exact .single rfl
  | observe hf c ih =>
      have begun : (Config.work (.observe hf c) k s).Reaches (.work c (.observing hf k) s) :=
        .single rfl
      refine begun.trans ((ih (.observing hf k) s).trans ?_)
      rw [run, Prototypal.observe]
      cases c.run s with
      | ok a t => exact .single rfl
      | error i t => exact .single rfl
  | nested c ih =>
      rw [run, nested_run]
      by_cases tooDeep : s.limits.callDepth.toNat < s.callDepth + 1
      · rw [if_pos tooDeep]
        refine .single ?_
        rw [Config.step, Config.begin, if_pos tooDeep]
        rfl
      · rw [if_neg tooDeep]
        have begun : (Config.work (.nested c) k s).Reaches
            (.work c (.nesting s.callDepth k) { s with callDepth := s.callDepth + 1 }) := by
          refine .single ?_
          rw [Config.step, Config.begin, if_neg tooDeep]
        refine begun.trans ((ih (.nesting s.callDepth k) _).trans ?_)
        cases c.run { s with callDepth := s.callDepth + 1 } with
        | ok a t => exact .single rfl
        | error i t => exact .single rfl

/-- A code that stands for a computation comes to the computation's outcome. -/
lemma Realizes.ends {c : Code f α} {act : Run α} {s : State} (hc : c.Realizes s.callDepth act)
    (hs : s.heap.Within f) : (c.start s).Reaches (.ofOutcome (act s) .done) := by
  rw [← hc s rfl hs]
  exact c.carried_out .done s

/-- From every moment of its run, the machine comes to the outcome of the code. -/
theorem reaches_outcome {c : Code f α} {s : State} {p : Config f α} (h : (c.start s).Reaches p) :
    p.Reaches (.ofOutcome (c.run s) .done) := by
  have ends : (c.start s).Reaches (.ofOutcome (c.run s) .done) := c.carried_out .done s
  rcases h.total ends with onward | back
  · exact onward
  · cases hr : c.run s with
    | ok a t =>
        rw [hr] at back
        rw [Config.Reaches.eq_of_done back]
        exact .refl
    | error i t =>
        rw [hr] at back
        rw [Config.Reaches.eq_of_done back]
        exact .refl

/-- The machine comes to an end in the outcome of the code, and in nothing else. -/
theorem reaches_done_iff (c : Code f α) (s : State) (r : Except Interrupt α) (t : State) :
    (c.start s).Reaches (.ret r .done t) ↔ c.run s = Outcome.ofExcept r t := by
  obtain ⟨r', t', hrun⟩ := Outcome.exists_ofExcept (c.run s)
  have ends : (c.start s).Reaches (.ofOutcome (c.run s) .done) := c.carried_out .done s
  rw [hrun, Config.ofOutcome_ofExcept] at ends
  constructor
  · intro h
    have same : (Config.ret r .done t : Config f α) = .ret r' .done t' := by
      have onward := reaches_outcome h
      rw [hrun, Config.ofOutcome_ofExcept] at onward
      exact (Config.Reaches.eq_of_done onward).symm
    cases same
    exact hrun
  · intro h
    have same := congrArg (Config.ofOutcome · (.done : Frames f α α)) (hrun.symm.trans h)
    simp only [Config.ofOutcome_ofExcept] at same
    rw [← same]
    exact ends

end Code

end Prototypal
