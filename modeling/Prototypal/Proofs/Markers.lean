import Prototypal.Proofs.Protection
import Prototypal.Proofs.WellFormed.States

/-!
# The marker of a finished boundary is dead for ever

Every boundary has a marker of its own, given out by a counter that never goes back.  The active
boundaries are those whose bodies are running, the inner ones with the larger markers.  A marker
object can be kept and copied, and outlives its boundary; a return to it is then refused, whatever
boundaries have been opened since.

* `Moment.Opens`, `Moment.Leaves` — a session comes to the beginning or to the end of a boundary.
* `Moment.Crosses` — what a step does to the boundaries, one case per way in which they change.
* `Moment.Ordered` — the invariant about the active boundaries.
* `Moment.Running` — the body of a boundary is running: it was opened, and has not been left.
* `Moment.Token` — the marker object of a boundary, and what is copied from it.
* `finished_marker_dead` — the statement about sessions.
-/

namespace Prototypal

variable {f : Fragment}

/-- Whether a code opens a boundary. -/
def Code.isAttempt : {α : Type} → Code f α → Bool
  | _, attempt _ => true
  | _, op _ _ => false
  | _, bind _ _ => false
  | _, settle _ _ => false
  | _, observe _ _ => false
  | _, nested _ => false

/-- The boundary that the innermost frame leaves, if it leaves one. -/
def Frames.leaves? : {α γ : Type} → Frames f α γ → Option Marker
  | _, _, boundary m _ => some m
  | _, _, done => none
  | _, _, next _ _ => none
  | _, _, settling _ _ => none
  | _, _, observing _ _ => none
  | _, _, nesting _ _ => none

namespace Config

variable {γ : Type}

/-- The marker of the boundary that is to be opened next, if one is. -/
def opens? : Config f γ → Option Marker
  | work c _ s => if c.isAttempt then some s.nextMarker else none
  | ret _ _ _ => none

/-- The marker of the boundary that is to be left next, if one is. -/
def leaves? : Config f γ → Option Marker
  | work _ _ _ => none
  | ret _ k _ => k.leaves?

/-- What a step does to the boundaries, in the state and in the frames. -/
inductive Crosses (p q : Config f γ) : Prop where
  | stays (opens : p.opens? = none) (leaves : p.leaves? = none)
      (boundaries : q.state.boundaries = p.state.boundaries)
      (given : q.state.markers = p.state.markers) (markers : q.markers = p.markers)
  | opens (opens : p.opens? = some p.state.nextMarker) (leaves : p.leaves? = none)
      (state : q.state = p.state.opened) (markers : q.markers = p.state.nextMarker :: p.markers)
  | leaves (m : Marker) (opens : p.opens? = none) (leaves : p.leaves? = some m)
      (boundaries : q.state.boundaries = p.state.boundaries.tail)
      (given : q.state.markers = p.state.markers) (markers : p.markers = m :: q.markers)

/-- Where an outcome is handed on, the boundaries stay if the state has them still. -/
lemma Crosses.ofOutcome {α : Type} {p : Config f γ} {r : Outcome α} {k : Frames f α γ}
    (opens : p.opens? = none) (leaves : p.leaves? = none)
    (boundaries : (Outcome.final r).boundaries = p.state.boundaries)
    (given : (Outcome.final r).markers = p.state.markers) (markers : k.markers = p.markers) :
    Crosses p (Config.ofOutcome r k) := by
  refine .stays opens leaves ?_ ?_ ?_
  · rw [state_ofOutcome, boundaries]
  · rw [state_ofOutcome, given]
  · rw [markers_ofOutcome, markers]

lemma crosses_begin {α : Type} (k : Frames f α γ) (s : State) (c : Code f α) :
    Crosses (.work c k s) (Config.begin k s c) := by
  cases c with
  | op act h =>
      rcases h.steady_or_accepted s with steady | ⟨e, target, v, accepted⟩
      · exact .ofOutcome rfl rfl steady.boundaries steady.markers rfl
      · refine .ofOutcome rfl rfl ?_ ?_ rfl
        · rw [accepted.run]
          rfl
        · rw [accepted.run]
          rfl
  | bind c g => exact .stays rfl rfl rfl rfl rfl
  | attempt body => exact .opens rfl rfl rfl rfl
  | settle hf c => exact .stays rfl rfl rfl rfl rfl
  | observe hf c => exact .stays rfl rfl rfl rfl rfl
  | nested c =>
      rw [begin]
      split
      · exact .stays rfl rfl rfl rfl rfl
      · exact .stays rfl rfl rfl rfl rfl

lemma crosses_resume {α : Type} {r : Except Interrupt α} {k : Frames f α γ} {s : State}
    {q : Config f γ} (hq : Config.resume r s k = some q) : Crosses (.ret r k s) q := by
  cases k with
  | done => cases hq
  | next g k =>
      rcases r with i | a
      · cases hq
        exact .stays rfl rfl rfl rfl rfl
      · cases hq
        exact .stays rfl rfl rfl rfl rfl
  | boundary m k =>
      cases hq
      obtain ⟨notes, -, final⟩ := final_closing m r s
      refine .leaves m rfl rfl ?_ ?_ ?_
      · rw [state_ofOutcome, final]
        rfl
      · rw [state_ofOutcome, final]
        rfl
      · rw [markers_ofOutcome]
        rfl
  | settling hf k =>
      cases hq
      refine .ofOutcome rfl rfl ?_ ?_ rfl
      · rw [final_settle]
        rfl
      · rw [final_settle]
        rfl
  | observing hf k =>
      cases hq
      refine .ofOutcome rfl rfl ?_ ?_ rfl
      · rw [final_observe]
        rfl
      · rw [final_observe]
        rfl
  | nesting depth k =>
      cases hq
      exact .stays rfl rfl rfl rfl rfl

lemma crosses_of_step {p q : Config f γ} (h : p.step = some q) : Crosses p q := by
  cases p with
  | work c k s =>
      obtain rfl : Config.begin k s c = q := Option.some.inj h
      exact crosses_begin k s c
  | ret r k s => exact crosses_resume h

end Config

namespace Moment

variable {es : List Expr} {p q r : Moment} {m : Marker} {o : ObjectId}

/-- The boundary of a marker is to be opened next. -/
def Opens (p : Moment) (m : Marker) : Prop :=
  p.now.opens? = some m

/-- The body of the boundary of a marker has ended, and the boundary is to be left next. -/
def Leaves (p : Moment) (m : Marker) : Prop :=
  p.now.leaves? = some m

lemma Step.crosses (step : p.Step q) : p.now.Crosses q.now := by
  cases step with
  | machine es h => exact Config.crosses_of_step h
  | next r t es hc => exact .stays rfl rfl rfl rfl rfl

/-! ## The active boundaries -/

/-- The active boundaries are those that the frames are to leave, each with a larger marker than
the ones around it, and all markers have been given out. -/
structure Ordered (p : Moment) : Prop where
  paired : p.now.markers = p.now.state.boundaries
  descending : p.now.state.boundaries.Pairwise fun inner outer => outer.number < inner.number
  given : ∀ m ∈ p.now.state.boundaries, m.number ≤ p.now.state.markers

lemma Ordered.step (h : p.Ordered) (step : p.Step q) : q.Ordered := by
  obtain ⟨paired, descending, given⟩ := h
  cases step.crosses with
  | stays opens leaves boundaries counter markers =>
      refine ⟨?_, ?_, ?_⟩
      · rw [markers, boundaries, paired]
      · rw [boundaries]
        exact descending
      · rw [boundaries, counter]
        exact given
  | opens opens leaves state markers =>
      refine ⟨?_, ?_, ?_⟩
      · rw [markers, state, paired]
        rfl
      · rw [state]
        exact List.pairwise_cons.mpr ⟨fun m hm => Nat.lt_succ_of_le (given m hm), descending⟩
      · rw [state]
        intro m hm
        rcases List.mem_cons.mp hm with rfl | hm
        · exact Nat.le_refl _
        · exact Nat.le_succ_of_le (given m hm)
  | leaves m opens leaves boundaries counter markers =>
      refine ⟨?_, ?_, ?_⟩
      · rw [boundaries, ← paired, markers]
        rfl
      · rw [boundaries]
        exact descending.tail
      · rw [boundaries, counter]
        exact fun m hm => given m (List.mem_of_mem_tail hm)

lemma ordered_of_reaches (hp : (start es).Reaches p) : p.Ordered := by
  induction hp with
  | refl => exact ⟨rfl, .nil, by simp [start, Config.state, State.initial]⟩
  | tail _ last ih => exact ih.step last

/-- A boundary that is left is the innermost one, and no other has its marker. -/
lemma Ordered.left (h : p.Ordered) (left : p.Leaves m) (step : p.Step q) :
    m ∈ p.now.state.boundaries ∧ m ∉ q.now.state.boundaries := by
  cases step.crosses with
  | stays opens leaves => exact absurd (left.symm.trans leaves) nofun
  | opens opens leaves => exact absurd (left.symm.trans leaves) nofun
  | leaves m' opens leaves boundaries counter markers =>
      obtain rfl : m = m' := Option.some.inj (left.symm.trans leaves)
      have descending := h.descending
      rw [boundaries, ← h.paired, markers]
      rw [← h.paired, markers] at descending
      refine ⟨List.mem_cons_self, fun active => ?_⟩
      exact Nat.lt_irrefl _ ((List.pairwise_cons.mp descending).1 m active)

/-! ## Markers are given out once -/

lemma Step.given_le (step : p.Step q) : p.now.state.markers ≤ q.now.state.markers := by
  cases step.crosses with
  | stays opens leaves boundaries counter markers => exact Nat.le_of_eq counter.symm
  | opens opens leaves state markers =>
      rw [state]
      exact Nat.le_succ _
  | leaves m opens leaves boundaries counter markers => exact Nat.le_of_eq counter.symm

lemma Reaches.given_le (h : p.Reaches q) : p.now.state.markers ≤ q.now.state.markers := by
  induction h with
  | refl => exact Nat.le_refl _
  | tail _ last ih => exact ih.trans last.given_le

/-- A boundary is opened with the next marker. -/
lemma Step.opened (step : p.Step q) (opened : p.Opens m) :
    m = p.now.state.nextMarker ∧ q.now.state = p.now.state.opened := by
  cases step.crosses with
  | stays opens => exact absurd (opened.symm.trans opens) nofun
  | opens opens leaves state => exact ⟨Option.some.inj (opened.symm.trans opens), state⟩
  | leaves m' opens => exact absurd (opened.symm.trans opens) nofun

lemma Opens.marker (h : p.Opens m) : m = p.now.state.nextMarker := by
  obtain ⟨now, rest⟩ := p
  cases now with
  | ret r k s => cases h
  | work c k s =>
      simp only [Opens, Config.opens?] at h
      split at h
      · exact (Option.some.inj h).symm
      · cases h

lemma not_opens_again (opened : p.Opens m) (step : p.Step q) (later : q.Reaches r) :
    ¬ r.Opens m := by
  intro again
  obtain ⟨first, state⟩ := step.opened opened
  have between := later.given_le
  have numbers := congrArg Marker.number (first.symm.trans again.marker)
  rw [state] at between
  simp only [State.nextMarker, State.opened] at numbers between
  omega

/-- A marker that has been given out and is not active will never be active again. -/
lemma Reaches.inactive (h : p.Reaches q) (given : m.number ≤ p.now.state.markers)
    (inactive : m ∉ p.now.state.boundaries) : m ∉ q.now.state.boundaries := by
  induction h with
  | refl => exact inactive
  | @tail q r before last ih =>
      cases last.crosses with
      | stays opens leaves boundaries counter markers =>
          rw [boundaries]
          exact ih
      | opens opens leaves state markers =>
          rw [state]
          intro active
          rcases List.mem_cons.mp active with rfl | active
          · -- the new marker is larger than all that have been given out
            have := Reaches.given_le before
            simp only [State.nextMarker] at given
            omega
          · exact ih active
      | leaves m' opens leaves boundaries counter markers =>
          rw [boundaries]
          exact fun active => ih (List.mem_of_mem_tail active)

/-! ## Active boundaries are those whose bodies are running -/

/-- The body of the boundary of a marker is running: a session came to the beginning of the
boundary, and has not left the boundary since. -/
def Running (es : List Expr) (m : Marker) (p : Moment) : Prop :=
  ∃ q q', (start es).Reaches q ∧ q.Opens m ∧ q.Step q' ∧
    Relation.ReflTransGen (fun a b => a.Step b ∧ ¬ a.Leaves m) q' p

lemma active_of_running (running : p.Running es m) : m ∈ p.now.markers := by
  obtain ⟨q, q', -, opened, step, inside⟩ := running
  induction inside with
  | refl =>
      obtain ⟨marker, -⟩ := step.opened opened
      cases step.crosses with
      | stays opens => exact absurd (opened.symm.trans opens) nofun
      | opens opens leaves state markers =>
          rw [markers, marker]
          exact List.mem_cons_self
      | leaves m' opens => exact absurd (opened.symm.trans opens) nofun
  | tail _ last ih =>
      obtain ⟨step, notLeft⟩ := last
      cases step.crosses with
      | stays opens leaves boundaries counter markers =>
          rw [markers]
          exact ih
      | opens opens leaves state markers =>
          rw [markers]
          exact List.mem_cons_of_mem _ ih
      | leaves m' opens leaves boundaries counter markers =>
          rw [markers] at ih
          rcases List.mem_cons.mp ih with rfl | outer
          · exact absurd leaves notLeft
          · exact outer

lemma running_of_active (hp : (start es).Reaches p) (active : m ∈ p.now.state.boundaries) :
    p.Running es m := by
  induction hp with
  | refl => cases active
  | @tail p q before last ih =>
      have ordered : p.Ordered := ordered_of_reaches before
      -- the step does not leave the boundary, since it is still active afterwards
      have notLeft : ¬ p.Leaves m := fun left => (ordered.left left last).2 active
      have still : m ∈ p.now.state.boundaries → q.Running es m := by
        intro old
        obtain ⟨a, a', reached, opened, step, inside⟩ := ih old
        exact ⟨a, a', reached, opened, step, inside.tail ⟨last, notLeft⟩⟩
      cases last.crosses with
      | stays opens leaves boundaries counter markers =>
          rw [boundaries] at active
          exact still active
      | opens opens leaves state markers =>
          rw [state] at active
          rcases List.mem_cons.mp active with rfl | old
          · exact ⟨p, q, before, opens, last, .refl⟩
          · exact still old
      | leaves m' opens leaves boundaries counter markers =>
          rw [boundaries] at active
          exact still (List.mem_of_mem_tail active)

/-! ## Marker objects -/

/-- The marker object of a boundary and the objects that come from it by copying. -/
inductive Token (es : List Expr) (m : Marker) : Moment → ObjectId → Prop where
  | made {p q r : Moment} (past : (start es).Reaches p) (opens : p.Opens m) (step : p.Step q)
      (later : q.Reaches r) : Token es m r p.heap.nextId
  | copied {p q r : Moment} {o : ObjectId} (older : Token es m p o) (copies : p.AboutTo (copy o))
      (step : p.Step q) (later : q.Reaches r) : Token es m r p.heap.nextId

lemma Token.payload (h : Token es m p o) : p.heap.payload o = .marker m := by
  -- an object that was added keeps its payload
  have kept : ∀ {q r : Moment} {h : Heap} {x : Object}, q.heap = h.add x →
      x.payload = .marker m → q.Reaches r → r.heap.payload h.nextId = .marker m := by
    intro q r h x heap payload later
    have there : q.heap.Has h.nextId := by
      rw [heap]
      exact h.has_add x
    rw [(later.changes.kept there).2, heap, Heap.payload_add, if_pos rfl, payload]
  induction h with
  | made past opens step later =>
      obtain ⟨marker, state⟩ := step.opened opens
      exact kept (congrArg State.heap state) (by rw [marker]) later
  | copied older copies step later ih => exact kept (step.heap_of_aboutTo copies) ih later

/-- No return to the boundary of a marker is accepted. -/
structure Dead (m : Marker) (p : Moment) : Prop where
  inactive : m ∉ p.now.state.boundaries
  refused : ∀ (α : Type) (token v : ObjectId), p.heap.payload token = .marker m →
    (returnTo token v : Run α) p.now.state = .error (.fault (.unhandled (.marker m))) p.now.state

lemma dead_of_inactive (inactive : m ∉ p.now.state.boundaries) : p.Dead m := by
  refine ⟨inactive, fun α token v payload => ?_⟩
  have marker : (p.now.state.heap.payload token).marker? = some m := by
    rw [show p.now.state.heap.payload token = .marker m from payload]
    rfl
  rw [returnTo_run, marker]
  simp only [List.contains_iff_mem, inactive, if_false]

end Moment

/-- **The marker of a finished boundary is dead for ever.**  A session comes through the ends of its
steps.  At every moment of it, the active boundaries have markers that grow from the outermost to
the innermost, all of them smaller than the next one to be given out.  They are those of the
boundaries whose bodies are running, and no two boundaries are ever given the same marker.  So from
the moment on at which a boundary has been left, or at which a marker that was given out is not
active, every return to the marker is refused: with the object that the boundary was given, with any
copy of it, and with whatever else carries the marker. -/
theorem finished_marker_dead (shown : Event → Bool) (es : List Expr) :
    (∀ past rest, es = past ++ rest →
      ∃ r, (Moment.start es).Reaches
        ⟨.ret r .done (past.foldl (fun s e => (runStep shown e s).2) .initial), rest⟩) ∧
    ∀ p, (Moment.start es).Reaches p →
      p.now.state.boundaries.Pairwise (fun inner outer => outer.number < inner.number) ∧
      (∀ m ∈ p.now.state.boundaries, m.number < p.now.state.nextMarker.number) ∧
      (∀ m, m ∈ p.now.state.boundaries ↔ p.Running es m) ∧
      (∀ m p' q, p.Opens m → p.Step p' → p'.Reaches q → ¬ q.Opens m) ∧
      (∀ m p' q, p.Leaves m → p.Step p' → p'.Reaches q → q.Dead m) ∧
      (∀ m, m.number < p.now.state.nextMarker.number → m ∉ p.now.state.boundaries →
        ∀ q, p.Reaches q → q.Dead m) ∧
      ∀ m o, p.Token es m o → p.heap.payload o = .marker m := by
  refine ⟨fun past rest => Moment.start_reaches_after shown, fun p hp => ?_⟩
  have ordered : p.Ordered := Moment.ordered_of_reaches hp
  refine ⟨ordered.descending, fun m hm => Nat.lt_succ_of_le (ordered.given m hm), fun m => ⟨?_, ?_⟩,
    fun m p' q => Moment.not_opens_again, fun m p' q left step later => ?_,
    fun m given inactive q later => ?_, fun m o => Moment.Token.payload⟩
  · exact Moment.running_of_active hp
  · intro running
    rw [← ordered.paired]
    exact Moment.active_of_running running
  · obtain ⟨active, inactive⟩ := ordered.left left step
    have given : m.number ≤ p'.now.state.markers := (ordered.given m active).trans step.given_le
    exact Moment.dead_of_inactive (later.inactive given inactive)
  · exact Moment.dead_of_inactive (later.inactive (Nat.le_of_lt_succ given) inactive)

/-- Opens and leaves a boundary, and opens another one later. -/
def twoBoundaries : List Expr :=
  [.attempt "first" [], .attempt "second" [.assign "kept" (.var "first")]]

/-- The object of the first boundary is still there after the second one, and of no use. -/
theorem twoBoundaries_dead : ∃ p, (Moment.start twoBoundaries).Reaches p ∧
    p.now.state.nextMarker = ⟨3⟩ ∧ p.heap.payload 2 = .marker ⟨1⟩ ∧ p.Dead ⟨1⟩ := by
  obtain ⟨ends, moments⟩ := finished_marker_dead (fun _ => true) twoBoundaries
  obtain ⟨r, reaches⟩ := ends twoBoundaries [] (List.append_nil _).symm
  have next : (stateAfter twoBoundaries).nextMarker = ⟨3⟩ := by decide +kernel
  have boundaries : (stateAfter twoBoundaries).boundaries = [] := by decide +kernel
  have carried : ((stateAfter twoBoundaries).heap.payload 2).marker? = some ⟨1⟩ := by
    decide +kernel
  have payload : (stateAfter twoBoundaries).heap.payload 2 = .marker ⟨1⟩ := by
    cases hp : (stateAfter twoBoundaries).heap.payload 2 with
    | marker m =>
        rw [hp] at carried
        exact congrArg Payload.marker (Option.some.inj carried)
    | _ =>
        rw [hp] at carried
        cases carried
  have inactive : (⟨1⟩ : Marker) ∉ (stateAfter twoBoundaries).boundaries := by simp [boundaries]
  have given : (1 : Nat) < (stateAfter twoBoundaries).nextMarker.number := by
    rw [next]
    decide
  obtain ⟨-, -, -, -, -, dead, -⟩ := moments _ reaches
  exact ⟨_, reaches, next, payload, dead ⟨1⟩ given inactive _ .refl⟩

end Prototypal
