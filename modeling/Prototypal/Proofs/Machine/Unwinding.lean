import Prototypal.Proofs.Machine.Balance

/-!
# How escapes unwind

A return that is accepted leaves the boundaries between it and its target one after the other, from
the inside out, and nothing else happens on the way: no code is worked on, and of the state only the
active boundaries, the level of nesting and the journal change.  At the target the boundary
completes with the very value of the return.

* `Frames.append` — frames inside of other frames.  A point of a run lies inside a boundary if its
  frames are `inner.append (.boundary m outer)`, and no handler stands between the two if `inner` is
  `uncaught`.
* `Config.Flies` — a step of an escape on its way.
* `Target.Misses`, `Target.passing` — an escape goes past boundaries, and what is noted of it.
* `flies_past`, `flies_to_landing` — the way through frames, by induction over them, and the
  landing.
* `unwinds` — the way of the other interrupts.
* `LandsExactly`, `LevelsAgreeWithMarker` — what becomes of a return that is accepted.
* `Code.return_at` — the journal of a run tells of no return that was not accepted at a moment of it.
-/

namespace Prototypal

variable {f : Fragment}

/-! ## Frames inside of other frames -/

namespace Frames

def append : {α β γ : Type} → Frames f α β → Frames f β γ → Frames f α γ
  | _, _, _, done, k => k
  | _, _, _, next g j, k => next g (j.append k)
  | _, _, _, boundary m j, k => boundary m (j.append k)
  | _, _, _, settling hf j, k => settling hf (j.append k)
  | _, _, _, observing hf j, k => observing hf (j.append k)
  | _, _, _, nesting depth j, k => nesting depth (j.append k)

/-- Whether escapes go through the frames unhandled, boundaries apart. -/
def uncaught : {α γ : Type} → Frames f α γ → Bool
  | _, _, done => true
  | _, _, next _ k => k.uncaught
  | _, _, boundary _ k => k.uncaught
  | _, _, settling _ _ => false
  | _, _, observing _ _ => false
  | _, _, nesting _ k => k.uncaught

variable {α β γ : Type}

lemma append_done (k : Frames f α γ) : k.append .done = k := by
  induction k with
  | done => rfl
  | next g k ih => exact congrArg (next g) ih
  | boundary m k ih => exact congrArg (boundary m) ih
  | settling hf k ih => exact congrArg (settling hf) ih
  | observing hf k ih => exact congrArg (observing hf) ih
  | nesting depth k ih => exact congrArg (nesting depth) ih

/-- Where outcomes are not looked at and escapes are not settled, there are no handlers. -/
lemma uncaught_of_handlerFree (settles : f.settles = false) (observes : f.observes = false)
    (k : Frames f α γ) : k.uncaught = true := by
  induction k with
  | done => rfl
  | next g k ih => exact ih
  | boundary m k ih => exact ih
  | settling hf k ih => exact absurd (hf.symm.trans settles) nofun
  | observing hf k ih => exact absurd (hf.symm.trans observes) nofun
  | nesting depth k ih => exact ih

lemma markers_append (j : Frames f α β) (k : Frames f β γ) :
    (j.append k).markers = j.markers ++ k.markers := by
  induction j with
  | done => rfl
  | next g j ih => exact ih k
  | boundary m j ih => exact congrArg (m :: ·) (ih k)
  | settling hf j ih => exact ih k
  | observing hf j ih => exact ih k
  | nesting depth j ih => exact ih k

/-- Each boundary of some frames is the end of frames inside of it. -/
lemma exists_append_boundary (k : Frames f α γ) {n : Nat} (hn : n < k.markers.length) :
    ∃ (inner : Frames f α ObjectId) (m : Marker) (outer : Frames f ObjectId γ),
      k = inner.append (.boundary m outer) ∧ inner.markers.length = n := by
  induction k generalizing n with
  | done => simp [markers] at hn
  | next g k ih =>
      obtain ⟨inner, m, outer, rfl, hlen⟩ := ih hn
      exact ⟨.next g inner, m, outer, rfl, hlen⟩
  | boundary m k ih =>
      cases n with
      | zero => exact ⟨.done, m, k, rfl, rfl⟩
      | succ n =>
          obtain ⟨inner, m', outer, rfl, hlen⟩ := ih (Nat.lt_of_succ_lt_succ hn)
          exact ⟨.boundary m inner, m', outer, rfl, congrArg (· + 1) hlen⟩
  | settling hf k ih =>
      obtain ⟨inner, m, outer, rfl, hlen⟩ := ih hn
      exact ⟨.settling hf inner, m, outer, rfl, hlen⟩
  | observing hf k ih =>
      obtain ⟨inner, m, outer, rfl, hlen⟩ := ih hn
      exact ⟨.observing hf inner, m, outer, rfl, hlen⟩
  | nesting depth k ih =>
      obtain ⟨inner, m, outer, rfl, hlen⟩ := ih hn
      exact ⟨.nesting depth inner, m, outer, rfl, hlen⟩

end Frames

/-- The scripts that handle escapes by boundaries only. -/
def Fragment.handlerFree : Fragment := { Fragment.full with settles := false, observes := false }

/-! ## Escapes on their way -/

/-- A step of an escape that carries a value: it leaves a frame behind, and of the state only what
belongs to frames changes. -/
structure Config.Flies {γ : Type} (v : ObjectId) (p q : Config f γ) : Prop where
  step : p.step = some q
  escaping : ∃ (α : Type) (k : Frames f α γ) (target : Target),
    p = .ret (.error (.escape ⟨target, v⟩)) k p.state
  unchanged : q.state = { p.state with
    boundaries := q.state.boundaries
    callDepth := q.state.callDepth
    journal := q.state.journal }

/-- A first step raises an escape that carries a value, and the escape then flies on. -/
def Config.Raises {γ : Type} (v : ObjectId) (p q : Config f γ) : Prop :=
  ∃ p', p.step = some p' ∧ Relation.ReflTransGen (Config.Flies v) p' q

namespace Target

/-- No boundary among these is where an escape lands. -/
def Misses (ms : List Marker) : Target → Prop
  | levels n => ms.length < n
  | marker t => t ∉ ms

/-- The first boundary past these is the one that an escape is headed for. -/
def Hits (ms : List Marker) (m : Marker) : Target → Prop
  | levels n => n = ms.length + 1
  | marker t => t = m

/-- Where an escape is headed once it is past some boundaries. -/
def past (ms : List Marker) : Target → Target
  | levels n => levels (n - ms.length)
  | marker t => marker t

/-- What is noted of an escape that goes past boundaries, oldest first. -/
def passing : List Marker → Target → List Event
  | [], _ => []
  | m :: ms, levels n => .left m :: .passed m (n - 1) :: passing ms (levels (n - 1))
  | m :: ms, marker t => .left m :: passing ms (marker t)

/-- What is noted of an escape that lands. -/
def landing (m : Marker) : Target → Event
  | levels _ => .landed m
  | marker _ => .landedOnMarker m

lemma past_nil (target : Target) : target.past [] = target := by
  cases target <;> rfl

lemma past_cons (m : Marker) (ms : List Marker) (target : Target) :
    target.past (m :: ms) = (target.past [m]).past ms := by
  cases target with
  | levels n =>
      simp only [past, List.length_cons, List.length_nil]
      congr 1
      omega
  | marker t => rfl

lemma passing_cons (m : Marker) (ms : List Marker) (target : Target) :
    target.passing (m :: ms) = target.passing [m] ++ (target.past [m]).passing ms := by
  cases target <;> rfl

lemma misses_cons {m : Marker} {ms : List Marker} {target : Target} :
    target.Misses (m :: ms) ↔ target.Misses [m] ∧ (target.past [m]).Misses ms := by
  cases target with
  | levels n =>
      simp only [Misses, past, List.length_cons, List.length_nil]
      omega
  | marker t => simp [Misses, past]

lemma Hits.past {ms : List Marker} {m : Marker} {target : Target} (h : target.Hits ms m) :
    (target.past ms).Hits [] m := by
  cases target with
  | levels n =>
      simp only [Hits, Target.past, List.length_nil] at h ⊢
      omega
  | marker t => exact h

lemma landing_past (ms : List Marker) (m : Marker) (target : Target) :
    (target.past ms).landing m = target.landing m := by
  cases target <;> rfl

end Target

/-- The state that an escape raised in `u` brings to some frames of a run that began in `s`, with
its notes, oldest first. -/
def State.thrown {α γ : Type} (s u : State) (k : Frames f α γ) (notes : List Event) : State :=
  { u with
    boundaries := k.markers ++ s.boundaries
    callDepth := s.callDepth + k.depths.length
    journal := notes.reverse ++ u.journal }

section Flight

variable {α β γ : Type} {s u : State} {v : ObjectId}

/-- Where a run is balanced, an escape that has gone past nothing brings its own state. -/
lemma Balanced.thrown_nil {k : Frames f α γ} (h : Balanced s u k.markers k.depths) :
    s.thrown u k [] = u := by
  simp only [State.thrown, ← h.boundaries, ← h.callDepth, List.reverse_nil, List.nil_append]

/-- The state of an escape past one boundary that it misses. -/
def State.passed (u : State) (m : Marker) (target : Target) : State :=
  { leaveBoundary m u with journal := (target.passing [m]).reverse ++ u.journal }

lemma steady_passed (u : State) (m : Marker) (target : Target) :
    Steady (leaveBoundary m u) (u.passed m target) := by
  cases target with
  | levels n => exact .note _ rfl
  | marker t => exact .refl _

lemma flies_past_boundary {m : Marker} {k : Frames f ObjectId γ} {target : Target}
    (misses : target.Misses [m]) :
    Config.Flies v (.ret (.error (.escape ⟨target, v⟩)) (.boundary m k) u)
      (.ret (.error (.escape ⟨target.past [m], v⟩)) k (u.passed m target)) := by
  have hland : closing m (Outcome.ofExcept (.error (.escape ⟨target, v⟩))) u =
      Escape.land ⟨target, v⟩ m (leaveBoundary m u) := rfl
  refine ⟨?_, ⟨_, _, target, rfl⟩, rfl⟩
  rw [Config.step, Config.resume, hland, land_run]
  cases target with
  | levels n =>
      have more : ¬ n ≤ 1 := by simpa [Target.Misses] using misses
      simp only [if_neg more]
      rfl
  | marker t =>
      have other : t ≠ m := by simpa [Target.Misses] using misses
      simp only [if_neg other]
      rfl

lemma flies_onto_boundary {m : Marker} {k : Frames f ObjectId γ} {target : Target}
    (hits : target.Hits [] m) :
    Config.Flies v (.ret (.error (.escape ⟨target, v⟩)) (.boundary m k) u)
      (.ret (.ok v) k { leaveBoundary m u with
        journal := target.landing m :: .left m :: u.journal }) := by
  have hland : closing m (Outcome.ofExcept (.error (.escape ⟨target, v⟩))) u =
      Escape.land ⟨target, v⟩ m (leaveBoundary m u) := rfl
  refine ⟨?_, ⟨_, _, target, rfl⟩, rfl⟩
  rw [Config.step, Config.resume, hland, land_run]
  cases target with
  | levels n =>
      obtain rfl : n = 1 := hits
      rfl
  | marker t =>
      obtain rfl : t = m := hits
      simp only [if_true]
      rfl

/-- An escape flies through frames without handlers, past the boundaries that it misses. -/
lemma flies_past (inner : Frames f α β) (outer : Frames f β γ) {target : Target}
    (free : inner.uncaught = true) (misses : target.Misses inner.markers)
    (h : Balanced s u (inner.append outer).markers (inner.append outer).depths) :
    Relation.ReflTransGen (Config.Flies v)
      (.ret (.error (.escape ⟨target, v⟩)) (inner.append outer) u)
      (.ret (.error (.escape ⟨target.past inner.markers, v⟩)) outer
        (s.thrown u outer (target.passing inner.markers))) := by
  induction inner generalizing target u with
  | done =>
      have stays : s.thrown u outer (target.passing []) = u := h.thrown_nil
      show Relation.ReflTransGen (Config.Flies v)
        (.ret (.error (.escape ⟨target, v⟩)) outer u)
        (.ret (.error (.escape ⟨target.past [], v⟩)) outer (s.thrown u outer (target.passing [])))
      rw [target.past_nil, stays]
  | next g j ih =>
      have first : Config.Flies v
          (.ret (.error (.escape ⟨target, v⟩)) (.next g (j.append outer)) u)
          (.ret (.error (.escape ⟨target, v⟩)) (j.append outer) u) :=
        ⟨rfl, ⟨_, _, target, rfl⟩, rfl⟩
      exact .head first (ih outer free misses h)
  | boundary m j ih =>
      obtain ⟨here, rest⟩ := Target.misses_cons.mp misses
      have hleft : Balanced s (leaveBoundary m u) (j.append outer).markers
          (j.append outer).depths := Balanced.left h
      have onward := ih outer free rest (hleft.steady (steady_passed u m target))
      have state : s.thrown (u.passed m target) outer ((target.past [m]).passing j.markers) =
          s.thrown u outer (target.passing (m :: j.markers)) := by
        rw [target.passing_cons]
        simp [State.thrown, State.passed, leaveBoundary]
      rw [state, ← target.past_cons] at onward
      exact .head (flies_past_boundary here) onward
  | settling hf j ih => cases free
  | observing hf j ih => cases free
  | nesting depth j ih =>
      have first : Config.Flies v
          (.ret (.error (.escape ⟨target, v⟩)) (.nesting depth (j.append outer)) u)
          (.ret (.error (.escape ⟨target, v⟩)) (j.append outer) { u with callDepth := depth }) :=
        ⟨rfl, ⟨_, _, target, rfl⟩, rfl⟩
      exact .head first (ih outer free misses (Balanced.shallower h))

/-- An escape flies to the boundary that it hits, and completes it with its value. -/
lemma flies_to_landing (inner : Frames f α ObjectId) (m : Marker) (outer : Frames f ObjectId γ)
    {target : Target} (free : inner.uncaught = true) (hits : target.Hits inner.markers m)
    (h : Balanced s u (inner.append (.boundary m outer)).markers
      (inner.append (.boundary m outer)).depths) :
    Relation.ReflTransGen (Config.Flies v)
      (.ret (.error (.escape ⟨target, v⟩)) (inner.append (.boundary m outer)) u)
      (.ret (.ok v) outer
        (s.thrown u outer (target.passing inner.markers ++ [.left m, target.landing m]))) := by
  have misses : target.Misses inner.markers := by
    cases target with
    | levels n =>
        simp only [Target.Hits, Target.Misses] at hits ⊢
        omega
    | marker t =>
        obtain rfl : t = m := hits
        have distinct := h.distinct
        rw [Frames.markers_append] at distinct
        exact fun inside => (List.nodup_append.mp distinct).2.2 t inside t List.mem_cons_self rfl
  let t := s.thrown u (.boundary m outer) (target.passing inner.markers)
  have last := flies_onto_boundary (k := outer) (v := v) (u := t) hits.past
  have state : { leaveBoundary m t with
      journal := (target.past inner.markers).landing m :: .left m :: t.journal } =
      s.thrown u outer (target.passing inner.markers ++ [.left m, target.landing m]) := by
    rw [target.landing_past]
    simp [t, State.thrown, leaveBoundary, Frames.markers, Frames.depths]
  rw [state] at last
  exact .tail (flies_past inner (.boundary m outer) free misses h) last

/-- Interrupts other than escapes go through frames without handlers, and a refusal to fix the
settings through all frames.  On the way too, of the state only what belongs to frames changes. -/
lemma unwinds {i : Interrupt} (k : Frames f α γ) (u : State) (noEscape : ∀ e, i ≠ .escape e)
    (free : k.uncaught = true ∨ i = .reconfigured) :
    ∃ t, (Config.ret (.error i) k u).Reaches (.ret (.error i) .done t) ∧
      t = { u with
        boundaries := t.boundaries
        callDepth := t.callDepth
        journal := t.journal } := by
  induction k generalizing u with
  | done => exact ⟨u, .refl, rfl⟩
  | next g k ih =>
      obtain ⟨t, onward, same⟩ := ih u free
      exact ⟨t, .head rfl onward, same⟩
  | boundary m k ih =>
      have left : closing m (Outcome.ofExcept (.error i)) u = .error i (leaveBoundary m u) := by
        cases i with
        | escape e => exact absurd rfl (noEscape e)
        | _ => rfl
      obtain ⟨t, onward, same⟩ := ih (leaveBoundary m u) free
      refine ⟨t, .head ?_ onward, same⟩
      rw [Config.step, Config.resume, left]
      rfl
  | settling hf k ih =>
      rcases free with free | rfl
      · cases free
      · obtain ⟨t, onward, same⟩ := ih u (.inr rfl)
        exact ⟨t, .head rfl onward, same⟩
  | observing hf k ih =>
      rcases free with free | rfl
      · cases free
      · obtain ⟨t, onward, same⟩ := ih u (.inr rfl)
        exact ⟨t, .head rfl onward, same⟩
  | nesting depth k ih =>
      obtain ⟨t, onward, same⟩ := ih { u with callDepth := depth } free
      exact ⟨t, .head rfl onward, same⟩

end Flight

/-! ## Returns -/

/-- What becomes of a return that is accepted at a point of a run: `s` is where the run began, `u`
the state and `k` the frames at the point `p`. -/
structure LandsExactly {α γ : Type} (s u : State) (k : Frames f α γ) (p : Config f γ)
    (raised : Event) (target : Target) (v : ObjectId) : Prop where
  /-- The active boundaries are those of the frames and the ones around the run. -/
  paired : u.boundaries = k.markers ++ s.boundaries
  /-- The return is headed for an active boundary: for one of the frames, if not for one around the
  run. -/
  active : ¬ target.Misses u.boundaries
  headed : target.Misses k.markers ∨ ∃ (inner : Frames f α ObjectId) (m : Marker)
    (outer : Frames f ObjectId γ),
    k = inner.append (.boundary m outer) ∧ target.Hits inner.markers m
  lands : ∀ (inner : Frames f α ObjectId) (m : Marker) (outer : Frames f ObjectId γ),
    k = inner.append (.boundary m outer) → target.Hits inner.markers m → inner.uncaught = true →
      p.Raises v (.ret (.ok v) outer (s.thrown u outer
        (raised :: (target.passing inner.markers ++ [.left m, target.landing m]))))
  leaves : target.Misses k.markers → k.uncaught = true →
    p.Raises v (.ret (.error (.escape ⟨target.past k.markers, v⟩)) .done
      (s.thrown u (.done : Frames f γ γ) (raised :: target.passing k.markers)))

/-- A boundary may be given by its level, counted from the inside, or by its marker: where no
handler stands before it, the two returns land in the same state, the journal apart. -/
def LevelsAgreeWithMarker {α γ : Type} (u : State) (k : Frames f α γ) : Prop :=
  ∀ (inner : Frames f α ObjectId) (m : Marker) (outer : Frames f ObjectId γ) (token v : ObjectId),
    k = inner.append (.boundary m outer) → inner.uncaught = true →
    (u.heap.payload token).marker? = some m →
      ∃ t notes,
        (Config.work (.op (returnLevels (inner.markers.length + 1) v) (.returnLevels _ v))
          k u).Raises v (.ret (.ok v) outer t) ∧
        (Config.work (.op (returnTo token v) (.returnTo token v)) k u).Raises
          v (.ret (.ok v) outer { t with journal := notes ++ u.journal })

section Returns

variable {α γ : Type} {s u : State} {k : Frames f α γ} {act : Run α} {raised : Event}
  {target : Target} {v : ObjectId}

lemma Accepted.active (accepted : Accepted u act raised target v) :
    ¬ target.Misses u.boundaries := by
  cases accepted with
  | levels n _ enough => exact Nat.not_lt.mpr enough
  | marker token _ m _ active => exact fun missed => missed active

lemma Accepted.headed (accepted : Accepted u act raised target v) (k : Frames f α γ) :
    target.Misses k.markers ∨ ∃ (inner : Frames f α ObjectId) (m : Marker)
      (outer : Frames f ObjectId γ),
      k = inner.append (.boundary m outer) ∧ target.Hits inner.markers m := by
  cases accepted with
  | levels n _ _ =>
      by_cases beyond : k.markers.length < max n 1
      · exact .inl beyond
      · obtain ⟨inner, m, outer, hk, length⟩ :=
          k.exists_append_boundary (n := max n 1 - 1) (by omega)
        refine .inr ⟨inner, m, outer, hk, ?_⟩
        simp only [Target.Hits]
        omega
  | marker token _ m _ _ =>
      by_cases inside : m ∈ k.markers
      · obtain ⟨n, hn, hm⟩ := List.getElem_of_mem inside
        obtain ⟨inner, m', outer, rfl, length⟩ := k.exists_append_boundary hn
        refine .inr ⟨inner, m', outer, rfl, ?_⟩
        simp only [Frames.markers_append, Frames.markers] at hm
        rw [List.getElem_append_right (by omega)] at hm
        simpa [length, Target.Hits] using hm.symm
      · exact .inl inside

lemma Accepted.lands_exactly (accepted : Accepted u act raised target v) (hact : Elementary f act)
    (h : Balanced s u k.markers k.depths) :
    LandsExactly s u k (.work (.op act hact) k u) raised target v := by
  have noted := h.accepted accepted
  have first : (Config.work (.op act hact) k u).step =
      some (.ret (.error (.escape ⟨target, v⟩)) k { u with journal := raised :: u.journal }) := by
    rw [Config.step, Config.begin, accepted.run]
    rfl
  have state : ∀ {β : Type} (j : Frames f β γ) (notes : List Event),
      s.thrown { u with journal := raised :: u.journal } j notes =
        s.thrown u j (raised :: notes) := by
    intro β j notes
    simp [State.thrown]
  refine ⟨h.boundaries, accepted.active, accepted.headed k, ?_, ?_⟩
  · rintro inner m outer rfl hits free
    have flight := flies_to_landing (v := v) inner m outer free hits noted
    rw [state] at flight
    exact ⟨_, first, flight⟩
  · intro misses free
    rw [← k.append_done] at noted
    have flight := flies_past (v := v) k .done free misses noted
    rw [k.append_done, state] at flight
    exact ⟨_, first, flight⟩

lemma Balanced.levels_agree_with_marker (h : Balanced s u k.markers k.depths) :
    LevelsAgreeWithMarker u k := by
  intro inner m outer token v hk free htoken
  have markers : u.boundaries = inner.markers ++ m :: (outer.markers ++ s.boundaries) := by
    simp [h.boundaries, hk, Frames.markers_append, Frames.markers]
  have enough : max (inner.markers.length + 1) 1 ≤ u.boundaries.length := by
    rw [markers, List.length_append, List.length_cons]
    omega
  have active : m ∈ u.boundaries := by simp [markers]
  have byLevels := (Accepted.levels (inner.markers.length + 1) v enough).lands_exactly
    (.returnLevels _ v) h
  have byMarker := (Accepted.marker token v m htoken active).lands_exactly (.returnTo token v) h
  have hits : (Target.levels (max (inner.markers.length + 1) 1)).Hits inner.markers m := by
    simp only [Target.Hits]
    omega
  exact ⟨_, _, byLevels.lands inner m outer hk hits free, byMarker.lands inner m outer hk rfl free⟩

end Returns

/-! ## No return is missed -/

/-- A moment at which a return is accepted. -/
def Config.Returns {γ : Type} (p : Config f γ) (raised : Event) (target : Target) (v : ObjectId) :
    Prop :=
  ∃ (α : Type) (act : Run α) (h : Elementary f act) (k : Frames f α γ) (u : State),
    p = .work (.op act h) k u ∧ Accepted u act raised target v

/-- What a step adds to the journal tells of no return, or of the one that is then accepted. -/
structure Config.Tells {γ : Type} (p : Config f γ) (t : State) (notes : List Event) : Prop where
  journal : t.journal = notes ++ p.state.journal
  tells : (∀ e ∈ notes, e.isReturn = false) ∨
    ∃ raised target v, notes = [raised] ∧ p.Returns raised target v

namespace Config

variable {γ : Type} {p q : Config f γ}

lemma tells_step (hstep : p.step = some q) : ∃ notes, p.Tells q.state notes := by
  cases moves_of_step hstep with
  | elementary act h k u =>
      rw [state_ofOutcome]
      rcases h.steady_or_accepted u with hsteady | ⟨raised, target, v, accepted⟩
      · obtain ⟨notes, journal, plain⟩ := hsteady.journal
        exact ⟨notes, journal, .inl fun e he => Event.not_isReturn_of_isPlain (plain e he)⟩
      · rw [accepted.run]
        exact ⟨[raised], rfl, .inr ⟨raised, target, v, rfl, _, act, h, k, u, rfl, accepted⟩⟩
  | idle state => exact ⟨[], by rw [state]; rfl, .inl (by simp)⟩
  | opened state => exact ⟨[_], by rw [state]; rfl, .inl (List.forall_mem_singleton.mpr rfl)⟩
  | left m notes plain state =>
      refine ⟨notes ++ [.left m], by simp [state, leaveBoundary], .inl fun e he => ?_⟩
      rcases List.mem_append.mp he with he | he
      · exact Event.not_isReturn_of_isPlain (plain e he)
      · rw [List.mem_singleton.mp he]
        rfl
  | deeper state => exact ⟨[], by rw [state]; rfl, .inl (by simp)⟩
  | shallower depth state => exact ⟨[], by rw [state]; rfl, .inl (by simp)⟩

end Config

/-- Every return of which a run tells was accepted at a moment of the run, when the journal was what
stands before the return's note. -/
lemma Code.return_at {α : Type} (c : Code f α) (s : State) {q : Config f α}
    (hq : (c.start s).Reaches q) :
    ∃ new, q.state.journal = new ++ s.journal ∧
      ∀ newer raised older, new = newer ++ raised :: older → raised.isReturn = true →
        ∃ p target v, (c.start s).Reaches p ∧ p.Returns raised target v ∧
          p.state.journal = older ++ s.journal := by
  induction hq with
  | refl => exact ⟨[], rfl, by simp⟩
  | @tail p q hp hstep ih =>
      obtain ⟨new, journal, earlier⟩ := ih
      obtain ⟨notes, told, tells⟩ := Config.tells_step hstep
      refine ⟨notes ++ new, by simp [told, journal], ?_⟩
      intro newer raised older split hraised
      -- the note is an earlier one, or it is of the last step
      rcases List.append_eq_append_iff.mp split with ⟨middle, -, hnew⟩ | ⟨middle, hnotes, hnew⟩
      · exact earlier middle raised older hnew hraised
      · cases middle with
        | nil => exact earlier [] raised older hnew.symm hraised
        | cons e middle =>
            obtain ⟨rfl, rfl⟩ : raised = e ∧ older = middle ++ new := by simpa using hnew
            rcases tells with none | ⟨raised', target, v, hone, returns⟩
            · have : raised.isReturn = false := none raised (by simp [hnotes])
              simp [this] at hraised
            · obtain ⟨rfl, rfl, rfl⟩ : newer = [] ∧ raised = raised' ∧ middle = [] := by
                rw [hnotes] at hone
                cases newer with
                | nil => simpa using hone
                | cons => simp at hone
              exact ⟨p, target, v, hp, returns, journal⟩

end Prototypal
