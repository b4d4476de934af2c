import Prototypal.Proofs.Evaluation
import Prototypal.Proofs.Quiet

/-!
# Escapes have a landing place

Every run leaves the active boundaries and the level of nesting as it found them, however it
ends, and the recursion bound is never what ends it.  If no escape is raised unchecked, an escape
that comes out of a run is awaited by one of the boundaries that were active when it began.

* `Target.AwaitedBy` — a target that one of some boundaries awaits.
* `Returned` — what a run of a fragment comes to, seen from the state in which it began.
* `containment` — the discipline of the computations that come to this, from every state.
* `escape_awaited` — the statement about evaluations.

The step that matters is at a boundary.  An escape that comes out of its body is awaited by the
boundary itself or by one outside of it; in the first case it lands, and in the second it is passed
on with one level less to go (`land_awaited`).
-/

namespace Prototypal

/-- A target is awaited by boundaries if it is the marker of one of them, or counts no further than
they reach. -/
def Target.AwaitedBy (bs : List Marker) : Target → Prop
  | levels n => 1 ≤ n ∧ n ≤ bs.length
  | marker m => m ∈ bs

/-- What an interrupt may be, given the boundaries that were active at the beginning, and the state
in which it left the run. -/
def Interrupt.Contained (f : Fragment) (bs : List Marker) (t : State) : Interrupt → Prop
  | escape e => f.raises = false → e.target.AwaitedBy bs
  | fault _ => True
  | reconfigured => True
  | overflow => t.names.Full
  | exhausted => False

lemma Interrupt.IsQuiet.contained {i : Interrupt} {t : State} (h : i.IsQuiet t) (f : Fragment)
    (bs : List Marker) : i.Contained f bs t := by
  cases h with
  | fault x => trivial
  | overflow full => exact full

/-- What a run of a fragment comes to, seen from the state in which it began. -/
structure Returned (f : Fragment) (s : State) {α : Type} (r : Outcome α) : Prop where
  boundaries : r.final.boundaries = s.boundaries
  callDepth : r.final.callDepth = s.callDepth
  within : r.final.heap.Within f
  contained : ∀ i t, r = .error i t → i.Contained f s.boundaries t

namespace Returned

variable {f : Fragment} {α β : Type} {s t : State}

lemma ofOk {a : α} (hb : t.boundaries = s.boundaries) (hd : t.callDepth = s.callDepth)
    (hw : t.heap.Within f) : Returned f s (.ok a t : Outcome α) :=
  ⟨hb, hd, hw, fun _ _ h => nomatch h⟩

lemma ofError {i : Interrupt} (hb : t.boundaries = s.boundaries) (hd : t.callDepth = s.callDepth)
    (hw : t.heap.Within f) (hi : i.Contained f s.boundaries t) :
    Returned f s (.error i t : Outcome α) := by
  refine ⟨hb, hd, hw, fun j u h => ?_⟩
  cases h
  exact hi

/-- A run that goes on where another one ended. -/
lemma trans {a : α} {r : Outcome β} (h : Returned f s (.ok a t : Outcome α))
    (hr : Returned f t r) : Returned f s r where
  boundaries := hr.boundaries.trans h.boundaries
  callDepth := hr.callDepth.trans h.callDepth
  within := hr.within
  contained := fun i u hi => by
    have hb : t.boundaries = s.boundaries := h.boundaries
    rw [← hb]
    exact hr.contained i u hi

end Returned

/-! ## Computations that come to this -/

/-- Computations that, at a level of nesting, come back to where they began. -/
def Contained (f : Fragment) (n : Nat) {α : Type} (act : Run α) : Prop :=
  ∀ s, s.callDepth = n → s.heap.Within f → Returned f s (act s)

namespace Contained

variable {f : Fragment} {n : Nat} {α β : Type}

lemma ofQuiet {act : Run α} (h : Quiet f act) : Contained f n act := by
  intro s _ hs
  obtain ⟨r, t, notes, hr⟩ := h s hs
  have hrun : act s = Outcome.ofExcept r
      (t.under (s.control.noting notes)) := hr.run s.control
  rw [hrun]
  cases r with
  | ok a => exact .ofOk rfl rfl hr.within
  | error i => exact .ofError rfl rfl hr.within ((hr.ended i rfl).contained f s.boundaries)

lemma bind {act : Run α} {next : α → Run β} (hact : Contained f n act)
    (hnext : ∀ a, Contained f n (next a)) : Contained f n (act >>= next) := by
  intro s hn hs
  have h := hact s hn hs
  cases hr : act s with
  | ok a t =>
      rw [hr] at h
      rw [run_bind_ok hr]
      exact h.trans (hnext a t (h.callDepth.trans hn) h.within)
  | error i t =>
      rw [hr] at h
      rw [run_bind_error hr]
      exact .ofError h.boundaries h.callDepth h.within (h.contained i t rfl)

lemma note (e : Event) : Contained f n (note e) := by
  intro s _ hs
  exact .ofOk rfl rfl hs

lemma report (l : Strictness) (v : Violation) : Contained f n (report l v) := by
  cases l with
  | off => exact ofQuiet (Quiet.ofPure ())
  | warn => exact note _
  | strict => exact ofQuiet (Quiet.fail _)

lemma reportBefore (l : Strictness) (receiver : ObjectId) (r : Request) :
    Contained f n (reportBefore l receiver r) := by
  refine (ofQuiet (Quiet.ofInspection (.checkBefore receiver r))).bind fun vs => ?_
  induction vs with
  | nil => exact ofQuiet (Quiet.ofPure ())
  | cons v vs ih => exact (report l v).bind fun _ => ih

lemma reportAfter (l : Strictness) (receiver : ObjectId) (r : Request)
    (produced : Option ObjectId) : Contained f n (reportAfter l receiver r produced) := by
  refine (ofQuiet (Quiet.ofInspection (.checkAfter receiver r produced))).bind fun v => ?_
  cases v with
  | none => exact ofQuiet (Quiet.ofPure ())
  | some v => exact report l v

lemma checkedAt (l : Strictness) (receiver : ObjectId) (r : Request)
    (produced : α → Option ObjectId) {act : Run α} (h : Contained f n act) :
    Contained f n (checkedAt l receiver r produced act) := by
  refine (reportBefore l receiver r).bind fun _ => h.bind fun a => ?_
  exact (reportAfter l receiver r (produced a)).bind fun _ => ofQuiet (Quiet.ofPure a)

lemma checked (receiver : ObjectId) (r : Request) (produced : α → Option ObjectId) {act : Run α}
    (h : Contained f n act) : Contained f n (checked receiver r produced act) := by
  intro s hn hs
  rw [checked_run]
  split
  · exact checkedAt s.strictness receiver r produced h s hn hs
  · exact h s hn hs

/-! ## Boundaries and returns -/

/-- A return over some levels is checked before it begins. -/
lemma returnLevels (levels : Nat) (v : ObjectId) :
    Contained f n (returnLevels levels v : Run α) := by
  intro s _ hs
  rw [returnLevels_run]
  split
  · exact .ofError rfl rfl hs trivial
  · rename_i enough
    refine .ofError rfl rfl hs fun _ => ?_
    exact ⟨Nat.le_max_right levels 1, Nat.le_of_not_lt enough⟩

/-- A return to a marker is checked before it begins. -/
lemma returnTo (token v : ObjectId) : Contained f n (returnTo token v : Run α) := by
  intro s _ hs
  rw [returnTo_run]
  split
  · exact .ofError rfl rfl hs trivial
  · rename_i m _
    split
    · rename_i active
      have hm : m ∈ s.boundaries := List.contains_iff_mem.mp active
      exact .ofError rfl rfl hs fun _ => hm
    · exact .ofError rfl rfl hs trivial

end Contained

/-- An escape that was awaited by a boundary or by those outside of it lands there, or goes on to
one of those outside. -/
lemma land_awaited (e : Escape) (m : Marker) (t : State) :
    (∃ j, e.land m t = .ok e.value { t with journal := j }) ∨
      ∃ x j, e.land m t = .error (.escape x) { t with journal := j } ∧
        ∀ bs, e.target.AwaitedBy (m :: bs) → x.target.AwaitedBy bs := by
  obtain ⟨target, value⟩ := e
  rw [land_run]
  cases target with
  | marker target =>
      by_cases here : target = m
      · simp only [if_pos here]
        exact .inl ⟨_, rfl⟩
      · simp only [if_neg here]
        exact .inr ⟨_, _, rfl, fun bs h => List.mem_of_ne_of_mem here h⟩
  | levels n =>
      by_cases last : n ≤ 1
      · simp only [if_pos last]
        exact .inl ⟨_, rfl⟩
      · simp only [if_neg last]
        refine .inr ⟨_, _, rfl, fun bs h => ?_⟩
        simp only [Target.AwaitedBy, List.length_cons] at h ⊢
        omega

namespace Contained

variable {f : Fragment} {n : Nat} {α : Type}

lemma attempt {body : ObjectId → Run ObjectId} (h : ∀ token, Contained f n (body token)) :
    Contained f n (attempt body) := by
  intro s hn hs
  have hopened : s.opened.heap.Within f := hs.add rfl
  have hbody := h s.heap.nextId s.opened hn hopened
  rw [attempt_run]
  cases hr : body s.heap.nextId s.opened with
  | ok v t =>
      rw [hr] at hbody
      have hb : t.boundaries = s.nextMarker :: s.boundaries := hbody.boundaries
      exact .ofOk (by simp [leaveBoundary, hb]) hbody.callDepth hbody.within
  | error i t =>
      rw [hr] at hbody
      have hb : t.boundaries = s.nextMarker :: s.boundaries := hbody.boundaries
      have hleft : (leaveBoundary s.nextMarker t).boundaries = s.boundaries := by
        simp [leaveBoundary, hb]
      have hi := hbody.contained i t rfl
      cases i with
      | escape e =>
          -- the body saw one boundary more than there are outside
          rcases land_awaited e s.nextMarker (leaveBoundary s.nextMarker t) with
            ⟨j, landed⟩ | ⟨x, j, passed, outside⟩
          · dsimp only
            rw [landed]
            exact .ofOk hleft hbody.callDepth hbody.within
          · dsimp only
            rw [passed]
            exact .ofError hleft hbody.callDepth hbody.within fun hf => outside _ (hi hf)
      | fault x => exact .ofError hleft hbody.callDepth hbody.within trivial
      | reconfigured => exact .ofError hleft hbody.callDepth hbody.within trivial
      | overflow => exact .ofError hleft hbody.callDepth hbody.within hi
      | exhausted => exact hi.elim

lemma settle {act : Run α} (h : Contained f n act) : Contained f n (settle act) := by
  intro s hn hs
  have hact := h s hn hs
  rw [Prototypal.settle, onEscape]
  cases hr : act s with
  | ok a t =>
      rw [hr] at hact
      exact hact
  | error i t =>
      rw [hr] at hact
      cases i with
      | escape e => exact .ofError hact.boundaries hact.callDepth hact.within trivial
      | fault x => exact hact
      | reconfigured => exact hact
      | overflow => exact hact
      | exhausted => exact hact

lemma observe {act : Run Value} (h : Contained f n act) : Contained f n (observe act) := by
  intro s hn hs
  have hact := h s hn hs
  rw [Prototypal.observe]
  cases hr : act s with
  | ok a t =>
      rw [hr] at hact
      exact .ofOk hact.boundaries hact.callDepth hact.within
  | error i t =>
      rw [hr] at hact
      cases i with
      | escape e => exact .ofOk hact.boundaries hact.callDepth hact.within
      | fault x => exact .ofOk hact.boundaries hact.callDepth hact.within
      | reconfigured => exact hact
      | overflow => exact hact
      | exhausted => exact hact

/-! ## Nesting -/

lemma nested {act : Nat → Run α} (h : Contained f (n + 1) (act (n + 1))) :
    Contained f n (nested act) := by
  intro s hn hs
  rw [nested_run]
  split
  · exact .ofError rfl rfl hs trivial
  · have hact := h { s with callDepth := n + 1 } rfl hs
    rw [hn]
    cases hr : act (n + 1) { s with callDepth := n + 1 } with
    | ok a t =>
        rw [hr] at hact
        exact .ofOk hact.boundaries hn.symm hact.within
    | error i t =>
        rw [hr] at hact
        have hi := hact.contained i t rfl
        cases i with
        | escape e => exact .ofError hact.boundaries hn.symm hact.within hi
        | fault x => exact .ofError hact.boundaries hn.symm hact.within hi
        | reconfigured => exact .ofError hact.boundaries hn.symm hact.within hi
        | overflow => exact .ofError hact.boundaries hn.symm hact.within hi
        | exhausted => exact hi.elim

/-- A limit fits 64 bits, so at the level where the gas ends it has been met. -/
lemma exhausted (h : UInt64.size ≤ n) :
    Contained f n (Prototypal.nested fun _ => throw .exhausted : Run ObjectId) := by
  intro s hn hs
  have tooDeep : s.limits.callDepth.toNat < s.callDepth + 1 := by
    have := s.limits.callDepth.toNat_lt_size
    omega
  rw [nested_run, if_pos tooDeep]
  exact .ofError rfl rfl hs trivial

lemma payload (o : ObjectId) {next : Payload → Run α}
    (h : ∀ p, p.within f = true → Contained f n (next p)) :
    Contained f n (payloadOf o >>= next) := by
  intro s hn hs
  have hread : payloadOf o s = .ok (s.heap.payload o) s := rfl
  rw [run_bind_ok hread]
  exact h _ (hs o) s hn hs

lemma fixSettings (x : Settings) : Contained f n (fixSettings x) := by
  intro s _ hs
  rw [fixSettings_run]
  cases s.fixed with
  | some _ => exact .ofError rfl rfl hs trivial
  | none => exact .ofOk rfl rfl hs

/-- An escape may be raised unchecked only where nothing is said about targets. -/
lemma raise (hf : f.raises = true) (e : Escape) : Contained f n (throw (.escape e) : Run α) := by
  intro s _ hs
  refine .ofError rfl rfl hs fun hf' => ?_
  rw [hf] at hf'
  cases hf'

/-- The level is the one that the state counts. -/
lemma callDepth {next : Nat → Run α} (h : Contained f n (next n)) :
    Contained f n (do next (← get).callDepth) := by
  intro s hn hs
  subst hn
  exact h s rfl hs

end Contained

/-- Coming back to where one began is a discipline, for every fragment. -/
def containment (f : Fragment) : Discipline f where
  Keeps n act := Contained f n act
  ofPure _ a := .ofQuiet (Quiet.ofPure a)
  bind := Contained.bind
  payload := Contained.payload
  basic h := .ofQuiet h.quiet
  boundaries _ h := fun s hn hs => h s.boundaries s hn hs
  fixed _ _ _ _ h := fun s hn hs => h s.fixed s hn hs
  strictness _ _ _ _ h := fun s hn hs => h s.strictness s hn hs
  setStrictness _ _ _ := fun _ _ hs => .ofOk rfl rfl hs
  fixSettings _ _ _ := Contained.fixSettings _
  returnLevels _ := Contained.returnLevels
  returnTo _ := Contained.returnTo
  raise hf _ _ e := Contained.raise hf e
  attempt := Contained.attempt
  settle _ _ _ _ := Contained.settle
  observe _ _ _ := Contained.observe
  checked := Contained.checked
  callDepth _ := Contained.callDepth
  nested := Contained.nested
  exhausted := Contained.exhausted

/-! ## Evaluations -/

/-- The scripts that raise escapes by checked returns only. -/
def Fragment.checkedReturns : Fragment := { Fragment.full with raises := false }

/-- **Checked escapes have a landing place.**  If neither a script nor a closure in the heap raises
an escape unchecked, then an escape that comes out of the script is awaited by one of the boundaries
that were active when it began.  With no active boundary, the script ends with a value, with a
fault, or because the settings were to be fixed a second time; or else because it left the table of
names full, and a new name did not fit. -/
theorem escape_awaited (i : Invocation) (e : Expr) (s : State)
    (he : e.within .checkedReturns = true) (hs : s.heap.Within .checkedReturns) :
    (∀ x t, eval enterCall i e s = .error (.escape x) t → x.target.AwaitedBy s.boundaries) ∧
      (s.boundaries = [] →
        (∃ v t, eval enterCall i e s = .ok v t) ∨
          (∃ x t, eval enterCall i e s = .error (.fault x) t) ∨
            (∃ t, eval enterCall i e s = .error .reconfigured t) ∨
              ∃ t, eval enterCall i e s = .error .overflow t ∧ t.names.Full) := by
  have h : Returned .checkedReturns s (eval enterCall i e s) :=
    (containment .checkedReturns).keeps_evaluate i he s rfl hs
  constructor
  · intro x t hx
    exact h.contained _ t hx rfl
  · intro none
    cases hr : eval enterCall i e s with
    | ok v t => exact .inl ⟨v, t, rfl⟩
    | error j t =>
        have hj := h.contained j t hr
        cases j with
        | escape x =>
            have awaited := hj rfl
            rw [none] at awaited
            cases hx : x.target with
            | levels n =>
                rw [hx] at awaited
                simp only [Target.AwaitedBy, List.length_nil] at awaited
                omega
            | marker m =>
                rw [hx] at awaited
                exact absurd awaited List.not_mem_nil
        | fault x => exact .inr (.inl ⟨x, t, rfl⟩)
        | reconfigured => exact .inr (.inr (.inl ⟨t, rfl⟩))
        | overflow => exact .inr (.inr (.inr ⟨t, rfl, hj⟩))
        | exhausted => exact hj.elim

/-- A return over three levels out of two boundaries. -/
def threeLevelsOut : Expr :=
  .attempt "outer" [.attempt "inner" [.unary (.returnLevels 3) .null]]

/-- A state in which one boundary is active. -/
def insideOne : State :=
  { State.initial with boundaries := [⟨1⟩], markers := 1 }

/-- The return leaves the two boundaries of the script, and the one outside awaits it. -/
theorem threeLevelsOut_awaited :
    ∃ x t, evaluate threeLevelsOut insideOne = .error (.escape x) t ∧
      x.target.AwaitedBy insideOne.boundaries := by
  have hrun : evaluate threeLevelsOut insideOne =
      .error (.escape ⟨.levels 1, nullId⟩) (Outcome.final (evaluate threeLevelsOut insideOne)) :=
    rfl
  have hs : insideOne.heap.Within .checkedReturns := Heap.within_initial _
  exact ⟨_, _, hrun, (escape_awaited .outside threeLevelsOut insideOne rfl hs).1 _ _ hrun⟩

end Prototypal
