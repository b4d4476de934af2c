import Prototypal.Proofs.Machine.Unwinding

/-!
# What a return completes

A boundary among the frames of a run was opened by an attempt that the run carried out, and until
the boundary is left, the run is that of the attempt by itself, inside of the frames around it.  So
an escape that lands at the boundary is the outcome of the attempt: the attempt answers the value
that the escape carries.

* `Config.inside` — a moment inside of more frames.  It leads to the same steps (`step_inside`).
* `Frames.Splits` — how frames inside of a boundary look, read from their innermost one.
* `Config.step_into` — how a run gets inside of a boundary: it was there already, or an attempt has
  just opened it.
* `Config.Opens`, `Code.opener` — the attempt that opened a boundary, by induction over the run.
* `Accepted.completes` — what that attempt answers when a return lands at its boundary.
* `return_lands_exactly` — the statement about evaluations.
-/

namespace Prototypal

variable {f : Fragment}

/-! ## Runs inside of more frames -/

namespace Config

variable {β γ : Type} {p q : Config f β}

/-- A moment with more frames around. -/
def inside (outer : Frames f β γ) : Config f β → Config f γ
  | work c k s => work c (k.append outer) s
  | ret r k s => ret r (k.append outer) s

lemma inside_ofOutcome {α : Type} (o : Outcome α) (k : Frames f α β) (outer : Frames f β γ) :
    (ofOutcome o k).inside outer = ofOutcome o (k.append outer) := by
  cases o <;> rfl

lemma begin_inside {α : Type} (c : Code f α) (k : Frames f α β) (s : State)
    (outer : Frames f β γ) : begin (k.append outer) s c = (begin k s c).inside outer := by
  cases c with
  | op act h => exact (inside_ofOutcome (act s) k outer).symm
  | nested c =>
      rw [begin, begin]
      split <;> rfl
  | _ => rfl

lemma resume_inside {α : Type} {r : Except Interrupt α} {s : State} {k : Frames f α β}
    (outer : Frames f β γ) (h : resume r s k = some q) :
    resume r s (k.append outer) = some (q.inside outer) := by
  cases k with
  | done => cases h
  | next g k => rcases r with i | a <;> cases h <;> rfl
  | nesting depth k =>
      cases h
      rfl
  | _ =>
      cases h
      exact congrArg some (inside_ofOutcome _ _ outer).symm

/-- What is around a run makes no difference to its steps. -/
lemma step_inside (outer : Frames f β γ) (h : p.step = some q) :
    (p.inside outer).step = some (q.inside outer) := by
  cases p with
  | work c k s =>
      cases h
      exact congrArg some (begin_inside c k s outer)
  | ret r k s => exact resume_inside outer h

end Config

/-! ## Getting inside of a boundary -/

section Boundaries

variable {α β γ : Type} {m : Marker} {outer : Frames f ObjectId γ}

namespace Frames

/-- These frames are the given inner ones, with the boundary of the marker around them. -/
def Splits (m : Marker) (outer : Frames f ObjectId γ) :
    {α : Type} → Frames f α γ → Frames f α ObjectId → Prop
  | _, done, _ => False
  | _, next g k, inner => ∃ j, inner = next g j ∧ k = j.append (boundary m outer)
  | _, boundary m' k, inner =>
    inner = done ∧ m' = m ∧ k = outer ∨
      ∃ j, inner = boundary m' j ∧ k = j.append (boundary m outer)
  | _, settling hf k, inner => ∃ j, inner = settling hf j ∧ k = j.append (boundary m outer)
  | _, observing hf k, inner => ∃ j, inner = observing hf j ∧ k = j.append (boundary m outer)
  | _, nesting depth k, inner => ∃ j, inner = nesting depth j ∧ k = j.append (boundary m outer)

lemma splits {k : Frames f α γ} {inner : Frames f α ObjectId}
    (h : k = inner.append (boundary m outer)) : Splits m outer k inner := by
  subst h
  cases inner with
  | done => exact .inl ⟨rfl, rfl, rfl⟩
  | next g j => exact ⟨j, rfl, rfl⟩
  | boundary m' j => exact .inr ⟨j, rfl, rfl⟩
  | settling hf j => exact ⟨j, rfl, rfl⟩
  | observing hf j => exact ⟨j, rfl, rfl⟩
  | nesting depth j => exact ⟨j, rfl, rfl⟩

end Frames

namespace Config

lemma eq_inside_work {c : Code f α} {k : Frames f α γ} {s : State} {outer : Frames f β γ}
    {q : Config f β} (h : work c k s = q.inside outer) :
    ∃ j, k = j.append outer ∧ q = work c j s := by
  cases q with
  | work c' j t =>
      cases h
      exact ⟨j, rfl, rfl⟩
  | ret r j t => cases h

lemma eq_inside_ret {r : Except Interrupt α} {k : Frames f α γ} {s : State}
    {outer : Frames f β γ} {q : Config f β} (h : ret r k s = q.inside outer) :
    ∃ j, k = j.append outer ∧ q = ret r j s := by
  cases q with
  | work c j t => cases h
  | ret r' j t =>
      cases h
      exact ⟨j, rfl, rfl⟩

lemma eq_inside_ofOutcome {o : Outcome α} {k : Frames f α γ} {outer : Frames f β γ}
    {q : Config f β} (h : ofOutcome o k = q.inside outer) :
    ∃ j, k = j.append outer ∧ q = ofOutcome o j := by
  cases o with
  | ok a t => exact eq_inside_ret h
  | error i t => exact eq_inside_ret h

/-- A moment inside of a boundary, just before which the run was inside of it or opened it. -/
inductive Entering (m : Marker) (outer : Frames f ObjectId γ) :
    Config f γ → Config f ObjectId → Prop where
  | inside {p q : Config f ObjectId} (step : p.step = some q) :
      Entering m outer (p.inside (.boundary m outer)) q
  | opening (body : ObjectId → Code f ObjectId) (t : State) (marker : t.nextMarker = m) :
      Entering m outer (.work (.attempt body) outer t)
        (.work (body t.heap.nextId) .done t.opened)

lemma begin_into {c : Code f α} {k : Frames f α γ} {s : State} {q : Config f ObjectId}
    (h : begin k s c = q.inside (.boundary m outer)) :
    Entering m outer (.work c k s) q := by
  cases c with
  | op act hact =>
      obtain ⟨j, rfl, rfl⟩ := eq_inside_ofOutcome h
      exact .inside (p := .work (.op act hact) j s) rfl
  | bind c g =>
      obtain ⟨inner, hk, rfl⟩ := eq_inside_work h
      obtain ⟨j, rfl, rfl⟩ := Frames.splits hk
      exact .inside (p := .work (.bind c g) j s) rfl
  | attempt body =>
      obtain ⟨inner, hk, rfl⟩ := eq_inside_work h
      rcases Frames.splits hk with ⟨rfl, marker, rfl⟩ | ⟨j, rfl, rfl⟩
      · exact .opening body s marker
      · exact .inside (p := .work (.attempt body) j s) rfl
  | settle hf c =>
      obtain ⟨inner, hk, rfl⟩ := eq_inside_work h
      obtain ⟨j, rfl, rfl⟩ := Frames.splits hk
      exact .inside (p := .work (.settle hf c) j s) rfl
  | observe hf c =>
      obtain ⟨inner, hk, rfl⟩ := eq_inside_work h
      obtain ⟨j, rfl, rfl⟩ := Frames.splits hk
      exact .inside (p := .work (.observe hf c) j s) rfl
  | nested c =>
      by_cases tooDeep : s.limits.callDepth.toNat < s.callDepth + 1
      · rw [begin, if_pos tooDeep] at h
        obtain ⟨j, rfl, rfl⟩ := eq_inside_ret h
        refine .inside (p := .work (.nested c) j s) ?_
        rw [step, begin, if_pos tooDeep]
      · rw [begin, if_neg tooDeep] at h
        obtain ⟨inner, hk, rfl⟩ := eq_inside_work h
        obtain ⟨j, rfl, rfl⟩ := Frames.splits hk
        refine .inside (p := .work (.nested c) j s) ?_
        rw [step, begin, if_neg tooDeep]

lemma resume_into {r : Except Interrupt α} {k : Frames f α γ} {s : State} {q : Config f ObjectId}
    (h : resume r s k = some (q.inside (.boundary m outer))) :
    Entering m outer (.ret r k s) q := by
  cases k with
  | done => cases h
  | next g k =>
      rcases r with i | a
      · obtain ⟨j, rfl, rfl⟩ := eq_inside_ret (Option.some.inj h)
        exact .inside (p := .ret (.error i) (.next g j) s) rfl
      · obtain ⟨j, rfl, rfl⟩ := eq_inside_work (Option.some.inj h)
        exact .inside (p := .ret (.ok a) (.next g j) s) rfl
  | boundary m' k =>
      obtain ⟨j, rfl, rfl⟩ := eq_inside_ofOutcome (Option.some.inj h)
      exact .inside (p := .ret r (.boundary m' j) s) rfl
  | settling hf k =>
      obtain ⟨j, rfl, rfl⟩ := eq_inside_ofOutcome (Option.some.inj h)
      exact .inside (p := .ret r (.settling hf j) s) rfl
  | observing hf k =>
      obtain ⟨j, rfl, rfl⟩ := eq_inside_ofOutcome (Option.some.inj h)
      exact .inside (p := .ret r (.observing hf j) s) rfl
  | nesting depth k =>
      obtain ⟨j, rfl, rfl⟩ := eq_inside_ret (Option.some.inj h)
      exact .inside (p := .ret r (.nesting depth j) s) rfl

/-- A run gets inside of a boundary in no other way. -/
lemma step_into {p : Config f γ} {q : Config f ObjectId}
    (h : p.step = some (q.inside (.boundary m outer))) : Entering m outer p q := by
  cases p with
  | work c k s => exact begin_into (Option.some.inj h)
  | ret r k s => exact resume_into h

end Config

end Boundaries

/-! ## The attempt that opened a boundary -/

/-- An attempt of the run from `start`, with the frames `outer` around it, opened the boundary of the
marker, and then the run came to the moment `p`. -/
structure Config.Opens {γ : Type} (start p : Config f γ) (m : Marker)
    (outer : Frames f ObjectId γ) (body : ObjectId → Code f ObjectId) (t : State) : Prop where
  begun : start.Reaches (.work (.attempt body) outer t)
  marker : t.nextMarker = m
  onward : (Config.work (.attempt body) outer t).Reaches p

/-- The attempt that opened the boundary answers the value, and leaves the state `t`. -/
def Config.Completes {γ : Type} (start p : Config f γ) (m : Marker)
    (outer : Frames f ObjectId γ) (v : ObjectId) (t : State) : Prop :=
  ∃ body t₀, start.Opens p m outer body t₀ ∧
    attempt (fun token => (body token).run) t₀ = .ok v t

section Openers

variable {α γ : Type} {s : State} {m : Marker} {outer : Frames f ObjectId γ}

/-- A boundary that a run is inside of was opened by an attempt of the run, and the attempt by
itself comes to the same moment. -/
lemma Code.opener (c : Code f γ) (s : State) {p : Config f γ} (hp : (c.start s).Reaches p)
    {q : Config f ObjectId} (hq : p = q.inside (.boundary m outer)) :
    ∃ body t, (c.start s).Opens p m outer body t ∧
      ((Code.attempt body).start t).Reaches (q.inside (.boundary m .done)) := by
  induction hp generalizing q with
  | refl =>
      -- no frames stand around the beginning of a run
      obtain ⟨j, hj, -⟩ := Config.eq_inside_work hq
      exact absurd (congrArg Frames.markers hj) (by simp [Frames.markers, Frames.markers_append])
  | @tail p r hp hstep ih =>
      subst hq
      cases Config.step_into hstep with
      | @inside p' _ step =>
          obtain ⟨body, t, opens, alone⟩ := ih rfl
          exact ⟨body, t, ⟨opens.begun, opens.marker, opens.onward.tail hstep⟩,
            alone.tail (Config.step_inside _ step)⟩
      | opening body t marker =>
          subst marker
          exact ⟨body, t, ⟨hp, rfl, .single hstep⟩, .single rfl⟩

/-- Where a run is balanced, what an escape brings to the frames around an attempt, it brings to the
end of the attempt by itself. -/
lemma Balanced.thrown_alone {t u : State} (h : Balanced s t outer.markers outer.depths)
    (notes : List Event) :
    t.thrown u (.done : Frames f ObjectId ObjectId) notes = s.thrown u outer notes := by
  simp [State.thrown, Frames.markers, Frames.depths, h.boundaries, h.callDepth]

lemma Config.Raises.reaches {v : ObjectId} {p q : Config f γ} (h : p.Raises v q) : p.Reaches q := by
  obtain ⟨p', first, flight⟩ := h
  have onward : p'.Reaches q :=
    Relation.ReflTransGen.mono (fun _ _ flies => Flies.step flies) _ _ flight
  exact .head first onward

/-- A return that lands at a boundary completes the attempt that opened the boundary. -/
lemma Accepted.completes {act : Run α} {raised : Event} {target : Target} {v : ObjectId} {u : State}
    (accepted : Accepted u act raised target v) (hact : Elementary f act) (c : Code f γ)
    {inner : Frames f α ObjectId}
    (hp : (c.start s).Reaches (.work (.op act hact) (inner.append (.boundary m outer)) u))
    (hits : target.Hits inner.markers m) (free : inner.uncaught = true) :
    (c.start s).Completes (.work (.op act hact) (inner.append (.boundary m outer)) u) m outer v
      (s.thrown u outer (raised :: (target.passing inner.markers ++ [.left m, target.landing m])))
    := by
  obtain ⟨body, t, opens, alone⟩ := c.opener s hp (q := .work (.op act hact) inner u) rfl
  refine ⟨body, t, opens, ?_⟩
  have balanced := (Code.attempt body).balanced t alone
  have landing := (accepted.lands_exactly hact balanced).lands inner m .done rfl hits free
  have completed := (Code.reaches_done_iff _ t _ _).mp (alone.trans landing.reaches)
  have around : Balanced s t outer.markers outer.depths := c.balanced s opens.begun
  rw [around.thrown_alone] at completed
  exact completed

end Openers

/-! ## Evaluations -/

/-- **Returns land exactly.**  An evaluation is carried out by a machine, moment by moment, in
whatever way it is put together.  Each return in its part of the journal is accepted at one of the
moments.  And a return that is accepted at any moment leaves, from the inside out, the boundaries up
to the one that it is headed for, does nothing else on the way, and completes the attempt that
opened that boundary with its very value; one that is headed for a boundary around the evaluation
leaves all boundaries of the evaluation in the same way, and is its outcome.  It makes no difference
to the state whether a boundary is given by its level or by its marker.

A handler in between would stop the escape.  There are none where the fragment has none; the
fragment of all scripts is one of those that the statement speaks of. -/
theorem return_lands_exactly (f : Fragment) (i : Invocation) (e : Expr) (s : State)
    (he : e.within f = true) (hs : s.heap.Within f) :
    (∃ c : Code f Value, c.Realizes s.callDepth (eval enterCall i e)) ∧
    ∀ c : Code f Value, c.Realizes s.callDepth (eval enterCall i e) →
      (∀ r t, (c.start s).Reaches (.ret r .done t) ↔ eval enterCall i e s = Outcome.ofExcept r t) ∧
      (∀ newer raised older,
        (Outcome.final (eval enterCall i e s)).journal = newer ++ raised :: (older ++ s.journal) →
        raised.isReturn = true →
          ∃ p target v, (c.start s).Reaches p ∧ p.Returns raised target v ∧
            p.state.journal = older ++ s.journal) ∧
      (∀ {α : Type} (d : Code f α) (k : Frames f α Value) (u : State),
        (c.start s).Reaches (.work d k u) →
          (f.settles = false → f.observes = false → k.uncaught = true) ∧
          (∀ (act : Run α) (h : Elementary f act) raised target v,
            Accepted u act raised target v →
              LandsExactly s u k (.work (.op act h) k u) raised target v) ∧
          LevelsAgreeWithMarker u k) ∧
      ∀ {α : Type} (act : Run α) (h : Elementary f act) (inner : Frames f α ObjectId) (m : Marker)
        (outer : Frames f ObjectId Value) (u : State) raised target v,
        (c.start s).Reaches (.work (.op act h) (inner.append (.boundary m outer)) u) →
        Accepted u act raised target v → target.Hits inner.markers m → inner.uncaught = true →
          (c.start s).Completes (.work (.op act h) (inner.append (.boundary m outer)) u) m outer v
            (s.thrown u outer
              (raised :: (target.passing inner.markers ++ [.left m, target.landing m]))) := by
  refine ⟨exists_code he s.callDepth i, fun c hc => ⟨?_, ?_, ?_, ?_⟩⟩
  · intro r t
    rw [← hc s rfl hs]
    exact c.reaches_done_iff s r t
  · intro newer raised older journal hraised
    obtain ⟨new, hnew, returns⟩ := c.return_at s (hc.ends hs)
    rw [Config.state_ofOutcome, journal] at hnew
    refine returns newer raised older ?_ hraised
    exact (List.append_cancel_right (by simpa using hnew)).symm
  · intro α d k u hp
    have balanced : Balanced s u k.markers k.depths := c.balanced s hp
    refine ⟨fun settles observes => k.uncaught_of_handlerFree settles observes, ?_,
      balanced.levels_agree_with_marker⟩
    intro act h raised target v accepted
    exact accepted.lands_exactly h balanced
  · intro α act h inner m outer u raised target v hp accepted hits free
    exact accepted.completes h c hp hits free

/-- A return out of a call, past the boundary around the call. -/
def returnAcross : Expr :=
  .attempt "outer" [
    .attempt "inner" [.apply (.function [.unary (.returnLevels 2) (.nullary .root)]) []]]

/-- The return is accepted inside of both boundaries.  It lands at one of them, and the attempt that
opened that boundary answers the value returned. -/
theorem returnAcross_lands :
    (∃ c : Code .handlerFree Value, c.Realizes 0 (evaluate returnAcross)) ∧
    ∀ c : Code .handlerFree Value, c.Realizes 0 (evaluate returnAcross) →
      ∃ (p : Config .handlerFree Value) (v : ObjectId) (m : Marker)
        (outer : Frames .handlerFree ObjectId Value) (t : State),
        (c.start .initial).Reaches p ∧ p.Raises v (.ret (.ok v) outer t) ∧
          (c.start .initial).Completes p m outer v t := by
  obtain ⟨coded, lands⟩ := return_lands_exactly .handlerFree .outside returnAcross State.initial
    rfl (Heap.within_initial _)
  refine ⟨coded, fun c hc => ?_⟩
  obtain ⟨-, returns, points, completes⟩ := lands c hc
  have told : (Outcome.final (evaluate returnAcross .initial)).journal.any Event.isReturn =
      true := by decide +kernel
  obtain ⟨raised, hmem, hraised⟩ := List.any_eq_true.mp told
  obtain ⟨newer, older, journal⟩ := List.append_of_mem hmem
  rw [← List.append_nil older] at journal
  obtain ⟨p, target, v, hp, ⟨α, act, h, k, u, rfl, accepted⟩, -⟩ :=
    returns newer raised older journal hraised
  obtain ⟨-, accepts, -⟩ := points _ k u hp
  have landing := accepts act h _ target v accepted
  -- no boundary is active around the script, so the return is headed for one of its own
  have inside : ¬ target.Misses k.markers := by
    have active := landing.active
    rwa [landing.paired, show State.initial.boundaries = [] from rfl, List.append_nil] at active
  obtain ⟨inner, m, outer, rfl, hits⟩ := landing.headed.resolve_left inside
  have uncaught : inner.uncaught = true := inner.uncaught_of_handlerFree rfl rfl
  exact ⟨_, v, m, outer, _, hp, landing.lands inner m outer rfl hits uncaught,
    completes act h inner m outer u raised target v hp accepted hits uncaught⟩

end Prototypal
