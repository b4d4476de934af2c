import Prototypal.Proofs.Evaluation
import Prototypal.Proofs.Quiet

/-!
# Two runs of one script

A script is run twice from one state, first at the strictness that notes violations and then at
another one.  Where the strictness is neither read nor changed, the two runs make the same steps
until the second one is stopped by a violation, if it ever is; what they note may differ.

* `State.twin`, `Outcome.twin` — the other run's state and outcome: only the strictness in force and
  the journal are different.
* `Pairing` — the second strictness, how the notes of the two runs compare, and which notes of the
  first run mean that the second has been stopped.
* `Twinned` — the two outcomes, seen from the states in which the runs began.
* `Twins` — pairs of computations whose outcomes are so related, from every state.
* `Pairing.discipline` — every evaluation is paired with itself, provided that this is so of a
  checked access.  That is the only place at which the strictness is looked at, and what is left to
  be shown for a given pairing.
-/

namespace Prototypal

/-- The scripts that neither ask for the strictness in force nor change it. -/
def Fragment.blind : Fragment := { Fragment.full with strictness := false, configures := false }

/-- The state of the other run. -/
def State.twin (s : State) (l : Strictness) (j : List Event) : State :=
  { s with strictness := l, journal := j }

/-- The outcome of the other run, if it went the same way. -/
def Outcome.twin {α : Type} : Outcome α → Strictness → List Event → Outcome α
  | .ok a t, l, j => .ok a (t.twin l j)
  | .error i t, l, j => .error i (t.twin l j)

lemma Outcome.final_twin {α : Type} (r : Outcome α) (l : Strictness) (j : List Event) :
    Outcome.final (Outcome.twin r l j) = (Outcome.final r).twin l j := by
  cases r with
  | ok a t => rfl
  | error i t => rfl

/-- How a second run compares with a first one that notes violations.  Notes stand newest first. -/
structure Pairing (f : Fragment) where
  /-- The strictness of the second run. -/
  level : Strictness
  /-- The notes that the two runs make side by side. -/
  Notes : List Event → List Event → Prop
  /-- The notes of the first run by which a fault has stopped the second. -/
  Stops : List Event → Fault → Prop
  same : ∀ {es}, (∀ e ∈ es, e.component ≠ .validation) → Notes es es
  append : ∀ {newer newer' older older'}, Notes newer newer' → Notes older older' →
    Notes (newer ++ older) (newer' ++ older')
  stops_later : ∀ {newer older older' x}, Notes older older' → Stops newer x →
    Stops (newer ++ older) x
  stops_before : ∀ {newer older x}, Stops older x → Stops (newer ++ older) x
  /-- A fault can only be told from other outcomes where nothing stops the second run. -/
  observes : f.observes = true → ∀ new x, ¬ Stops new x
  strictness : f.strictness = false
  configures : f.configures = false

/-- A state that a run goes through after another one. -/
structure Continues (f : Fragment) (s t : State) (new : List Event) : Prop where
  journal : t.journal = new ++ s.journal
  callDepth : t.callDepth = s.callDepth
  strictness : t.strictness = s.strictness
  within : t.heap.Within f

lemma Continues.trans {f : Fragment} {s t u : State} {older newer : List Event}
    (h : Continues f s t older) (h' : Continues f t u newer) :
    Continues f s u (newer ++ older) where
  journal := by rw [h'.journal, h.journal, List.append_assoc]
  callDepth := h'.callDepth.trans h.callDepth
  strictness := h'.strictness.trans h.strictness
  within := h'.within

variable {f : Fragment} {P : Pairing f} {n : Nat} {α β : Type}

/-- The outcomes of two runs, the first of which began in a state and the second in its twin with
another journal. -/
inductive Twinned (P : Pairing f) (s : State) (j : List Event) (r r' : Outcome α) : Prop where
  /-- The second run went the same way. -/
  | together (new new' : List Event) (continues : Continues f s (Outcome.final r) new)
      (notes : P.Notes new new') (twin : r' = Outcome.twin r P.level (new' ++ j))
  /-- The second run was stopped. -/
  | stopped (new : List Event) (x : Fault) (t : State)
      (continues : Continues f s (Outcome.final r) new) (stops : P.Stops new x)
      (error : r' = .error (.fault x) t)

namespace Twinned

variable {s t : State} {j : List Event} {r r' : Outcome α}

/-- What is said of the first run alone. -/
lemma continues_first (h : Twinned P s j r r') : ∃ new, Continues f s (Outcome.final r) new := by
  rcases h with ⟨new, _, continues, _, _⟩ | ⟨new, _, _, continues, _, _⟩
  · exact ⟨new, continues⟩
  · exact ⟨new, continues⟩

/-- Both runs went on from a later state. -/
lemma later {older older' : List Event} (continues : Continues f s t older)
    (notes : P.Notes older older') (h : Twinned P t (older' ++ j) r r') : Twinned P s j r r' := by
  rcases h with ⟨new, new', newer, hn, twin⟩ | ⟨new, x, u, newer, stops, error⟩
  · refine .together (new ++ older) (new' ++ older') (continues.trans newer) (P.append hn notes) ?_
    rw [twin, List.append_assoc]
  · exact .stopped (new ++ older) x u (continues.trans newer) (P.stops_later notes stops) error

/-- The first run went on alone. -/
lemma alone {older new : List Event} {x : Fault} {u : State} (continues : Continues f s t older)
    (stops : P.Stops older x) (newer : Continues f t (Outcome.final r) new) :
    Twinned P s j r (.error (.fault x) u) :=
  .stopped (new ++ older) x u (continues.trans newer) (P.stops_before stops) rfl

/-- Both runs ended at once. -/
lemma here {q : Outcome α} (hq : Outcome.final q = s) (hs : s.heap.Within f) :
    Twinned P s j q (Outcome.twin q P.level j) := by
  subst hq
  refine .together [] [] ⟨rfl, rfl, rfl, hs⟩ (P.same ?_) rfl
  intro e he
  exact absurd he List.not_mem_nil

/-- A change that both runs make on every way out, with the same notes. -/
lemma after {g : State → State} (notes : List Event) (h : Twinned P t j r r')
    (harmless : ∀ e ∈ notes, e.component ≠ .validation)
    (goes : ∀ u new, Continues f t u new → Continues f s (g u) (notes ++ new))
    (twins : ∀ u l k, g (u.twin l k) = (g u).twin l (notes ++ k)) :
    Twinned P s j (Outcome.after g r) (Outcome.after g r') := by
  have final : ∀ q : Outcome α, Outcome.final (Outcome.after g q) = g (Outcome.final q) := by
    intro q
    cases q <;> rfl
  rcases h with ⟨new, new', continues, hn, twin⟩ | ⟨new, x, u, continues, stops, error⟩
  · refine .together (notes ++ new) (notes ++ new') ?_ (P.append (P.same harmless) hn) ?_
    · rw [final]
      exact goes _ _ continues
    · rw [twin, List.append_assoc]
      cases r with
      | ok a u => exact congrArg (EStateM.Result.ok a) (twins u _ _)
      | error i u => exact congrArg (EStateM.Result.error i) (twins u _ _)
  · refine .stopped (notes ++ new) x (g u) ?_ (P.stops_before stops) ?_
    · rw [final]
      exact goes _ _ continues
    · rw [error]
      rfl

end Twinned

/-- Pairs of computations whose runs, at a level of nesting, go together. -/
def Twins (P : Pairing f) (n : Nat) (act act' : Run α) : Prop :=
  ∀ s j, s.callDepth = n → s.strictness = .warn → s.heap.Within f →
    Twinned P s j (act s) (act' (s.twin P.level j))

namespace Twins

/-! ## Sequencing -/

lemma ofQuiet {act : Run α} (h : Quiet f act) : Twins P n act act := by
  intro s j _ _ hs
  obtain ⟨r, t, notes, hr⟩ := h s hs
  -- one quiet run, under the control parts of the two states
  have first : act s = Outcome.ofExcept r
      (t.under (s.control.noting notes)) := hr.run s.control
  have second : act (s.twin P.level j) = Outcome.ofExcept r
      (t.under ((s.twin P.level j).control.noting notes)) := hr.run (s.twin P.level j).control
  have harmless : ∀ e ∈ notes, e.component ≠ .validation := by
    intro e he
    have quiet := hr.quiet e he
    simp only [Event.isQuiet, Bool.and_eq_true, bne_iff_ne] at quiet
    exact quiet.2
  rw [first, second]
  cases r with
  | ok a => exact .together notes notes ⟨rfl, rfl, rfl, hr.within⟩ (P.same harmless) rfl
  | error x => exact .together notes notes ⟨rfl, rfl, rfl, hr.within⟩ (P.same harmless) rfl

lemma ofPure (a : α) : Twins P n (pure a) (pure a) :=
  ofQuiet (Quiet.ofPure a)

lemma ofThrow (i : Interrupt) : Twins P n (throw i : Run α) (throw i) := by
  intro s j _ _ hs
  exact .here rfl hs

lemma bind {act act' : Run α} {next next' : α → Run β} (hact : Twins P n act act')
    (hnext : ∀ a, Twins P n (next a) (next' a)) : Twins P n (act >>= next) (act' >>= next') := by
  intro s j hn hl hs
  have h := hact s j hn hl hs
  cases hr : act s with
  | error i t =>
      rw [hr] at h
      rw [run_bind_error hr]
      rcases h with ⟨new, new', continues, notes, twin⟩ | ⟨new, x, u, continues, stops, error⟩
      · exact .together new new' continues notes (run_bind_error twin)
      · exact .stopped new x u continues stops (run_bind_error error)
  | ok a t =>
      rw [hr] at h
      rw [run_bind_ok hr]
      rcases h with ⟨new, new', continues, notes, twin⟩ | ⟨new, x, u, continues, stops, error⟩
      · rw [run_bind_ok twin]
        exact .later continues notes (hnext a t _ (continues.callDepth.trans hn)
          (continues.strictness.trans hl) continues.within)
      · rw [run_bind_error error]
        -- the second run is over; the first goes on, with whatever journal beside it
        obtain ⟨newer, goes⟩ := (hnext a t [] (continues.callDepth.trans hn)
          (continues.strictness.trans hl) continues.within).continues_first
        exact .alone continues stops goes

lemma payload (o : ObjectId) {next : Payload → Run α}
    (h : ∀ p, p.within f = true → Twins P n (next p) (next p)) :
    Twins P n (payloadOf o >>= next) (payloadOf o >>= next) := by
  intro s j hn hl hs
  have first : payloadOf o s = .ok (s.heap.payload o) s := rfl
  have second : payloadOf o (s.twin P.level j) = .ok (s.heap.payload o) (s.twin P.level j) := rfl
  rw [run_bind_ok first, run_bind_ok second]
  exact h _ (hs o) s j hn hl hs

lemma note {e : Event} (he : e.component ≠ .validation) : Twins P n (note e) (note e) := by
  intro s j _ _ hs
  refine .together [e] [e] ⟨rfl, rfl, rfl, hs⟩ (P.same ?_) rfl
  intro x hx
  rw [List.mem_singleton.mp hx]
  exact he

lemma boundaries (next : List Marker → Run β) (h : ∀ bs, Twins P n (next bs) (next bs)) :
    Twins P n (do next (← get).boundaries) (do next (← get).boundaries) := by
  intro s j hn hl hs
  exact h s.boundaries s j hn hl hs

/-! ## Boundaries and returns -/

lemma onEscape {act act' : Run α} {handle handle' : Escape → Run α} (hact : Twins P n act act')
    (hhandle : ∀ e, Twins P n (handle e) (handle' e)) :
    Twins P n (onEscape act handle) (onEscape act' handle') := by
  intro s j hn hl hs
  have h := hact s j hn hl hs
  simp only [Prototypal.onEscape]
  cases hr : act s with
  | ok a t =>
      rw [hr] at h
      rcases h with ⟨new, new', continues, notes, twin⟩ | ⟨new, x, u, continues, stops, error⟩
      · rw [twin]
        exact .together new new' continues notes rfl
      · rw [error]
        exact .stopped new x u continues stops rfl
  | error i t =>
      rw [hr] at h
      rcases h with ⟨new, new', continues, notes, twin⟩ | ⟨new, x, u, continues, stops, error⟩
      · rw [twin]
        cases i with
        | escape e =>
            exact .later continues notes (hhandle e t _ (continues.callDepth.trans hn)
              (continues.strictness.trans hl) continues.within)
        | _ => exact .together new new' continues notes rfl
      · rw [error]
        cases i with
        | escape e =>
            obtain ⟨newer, goes⟩ := (hhandle e t [] (continues.callDepth.trans hn)
              (continues.strictness.trans hl) continues.within).continues_first
            exact .alone continues stops goes
        | _ => exact .stopped new x u continues stops rfl

/-- Leaving a boundary is one more note, made on every way out. -/
lemma leaving {act act' : Run α} (m : Marker) (hact : Twins P n act act') :
    Twins P n (ensure act (leaveBoundary m)) (ensure act' (leaveBoundary m)) := by
  intro s j hn hl hs
  rw [ensure_run, ensure_run]
  refine (hact s j hn hl hs).after [.left m] (by simp [Event.component]) ?_ fun _ _ _ => rfl
  intro u new continues
  exact ⟨congrArg _ continues.journal, continues.callDepth, continues.strictness, continues.within⟩

lemma land (e : Escape) (m : Marker) : Twins P n (e.land m) (e.land m) := by
  unfold Escape.land
  split
  · split
    · exact bind (note (by nofun)) fun _ => ofPure e.value
    · exact ofThrow _
  · split
    · exact bind (note (by nofun)) fun _ => ofPure e.value
    · exact bind (note (by nofun)) fun _ => ofThrow _

/-- A boundary: the runs are opened alike, go through the body, and leave it on every way out. -/
lemma attempt {body : ObjectId → Run ObjectId} (h : ∀ token, Twins P n (body token) (body token)) :
    Twins P n (attempt body) (attempt body) := by
  intro s j hn hl hs
  have inside := onEscape (leaving s.nextMarker (h s.heap.nextId)) fun e => land e s.nextMarker
  let entered := Event.entered s.nextMarker (s.boundaries.length + 1)
  have harmless : ∀ e ∈ [entered], e.component ≠ .validation := by simp [entered, Event.component]
  have opened : Continues f s s.opened [entered] := ⟨rfl, rfl, rfl, hs.add rfl⟩
  rw [attempt_opened, attempt_opened]
  exact .later opened (P.same harmless) (inside s.opened _ hn hl opened.within)

lemma settle {act : Run α} (h : Twins P n act act) : Twins P n (settle act) (settle act) :=
  h.onEscape fun _ => ofQuiet (Quiet.fail _)

lemma returnLevels (levels : Nat) (v : ObjectId) :
    Twins P n (returnLevels levels v : Run α) (returnLevels levels v) := by
  refine boundaries (fun bs : List Marker => if bs.length < max levels 1
    then fail (.unhandled (.levels (max levels 1 - bs.length)))
    else do
      Prototypal.note (.returning (max levels 1))
      throw (.escape ⟨.levels (max levels 1), v⟩)) fun bs => ?_
  split
  · exact ofThrow _
  · exact bind (note (by nofun)) fun _ => ofThrow _

lemma returnTo (token v : ObjectId) :
    Twins P n (returnTo token v : Run α) (returnTo token v) := by
  refine payload token fun p _ => ?_
  cases p.marker? with
  | none => exact ofThrow _
  | some m =>
      refine boundaries (fun bs : List Marker => if bs.contains m
        then do
          Prototypal.note (.returningTo m)
          throw (.escape ⟨.marker m, v⟩)
        else fail (.unhandled (.marker m))) fun bs => ?_
      split
      · exact bind (note (by nofun)) fun _ => ofThrow _
      · exact ofThrow _

lemma observe (hf : f.observes = true) {act : Run Value} (h : Twins P n act act) :
    Twins P n (observe act) (observe act) := by
  intro s j hn hl hs
  simp only [Prototypal.observe]
  rcases h s j hn hl hs with ⟨new, new', continues, notes, twin⟩ | ⟨new, x, _, _, stops, _⟩
  · rw [twin]
    cases hr : act s with
    | ok a t =>
        rw [hr] at continues
        exact .together new new' continues notes rfl
    | error i t =>
        rw [hr] at continues
        cases i with
        | _ => exact .together new new' continues notes rfl
  -- a run that was stopped would show here
  · exact absurd stops (P.observes hf new x)

/-! ## Nesting -/

lemma nested {act : Nat → Run α} (h : Twins P (n + 1) (act (n + 1)) (act (n + 1))) :
    Twins P n (nested act) (nested act) := by
  intro s j hn hl hs
  subst hn
  have hact := h { s with callDepth := s.callDepth + 1 } j rfl hl hs
  -- the limit does not depend on the strictness in force, so both runs meet it or neither does
  have limits : (s.twin P.level j).limits = s.limits := rfl
  have depth : (s.twin P.level j).callDepth = s.callDepth := rfl
  rw [nested_run, nested_run, limits, depth]
  split
  · exact .here rfl hs
  · refine hact.after [] (by simp) ?_ fun _ _ _ => rfl
    intro u new continues
    exact ⟨continues.journal, rfl, continues.strictness, continues.within⟩

/-- The level is the one that the state counts. -/
lemma callDepth {next : Nat → Run α} (h : Twins P n (next n) (next n)) :
    Twins P n (do next (← get).callDepth) (do next (← get).callDepth) := by
  intro s j hn hl hs
  subst hn
  exact h s j rfl hl hs

end Twins

/-- If checked accesses go together, all evaluations do. -/
def Pairing.discipline (P : Pairing f)
    (checked : ∀ {α : Type} {n : Nat} (o : ObjectId) (r : Request) (produced : α → Option ObjectId)
      {act : Run α}, Twins P n act act →
        Twins P n (checked o r produced act) (checked o r produced act)) :
    Discipline f where
  Keeps n act := Twins P n act act
  ofPure _ a := Twins.ofPure a
  bind := Twins.bind
  payload := Twins.payload
  basic h := .ofQuiet h.quiet
  boundaries := Twins.boundaries
  fixed _ _ _ _ h := fun s j hn hl hs => h s.fixed s j hn hl hs
  strictness hf := absurd (hf.symm.trans P.strictness) nofun
  setStrictness _ _ hl := absurd ((Fragment.strictness_of_allows hl).symm.trans P.strictness) nofun
  fixSettings _ _ hx := absurd ((Fragment.configures_of_allows hx).symm.trans P.configures) nofun
  returnLevels _ := Twins.returnLevels
  returnTo _ := Twins.returnTo
  raise _ _ _ _ := Twins.ofThrow _
  attempt := Twins.attempt
  settle _ _ _ _ := Twins.settle
  observe hf _ _ := Twins.observe hf
  checked := checked
  callDepth _ := Twins.callDepth
  nested := Twins.nested
  exhausted _ := Twins.nested (Twins.ofThrow _)

end Prototypal
