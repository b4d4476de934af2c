import Prototypal.Proofs.Machine.Journal
import Prototypal.Proofs.Machine.Unwinding

/-!
# The check of a return agrees with the way of its escape

A return counts the active boundaries, and is refused at once if none of them is where it is headed.
An escape that is raised without asking finds out on its way: it goes from boundary to boundary, and
the end of the run turns it into an error if it is still on its way then.  Around a whole run no
boundary is active, and there the two come to the same.

* `Return` — the returns that can be made in a state, and the escapes that they stand for.
* `Return.refused`, `Return.accepted` — a return asks for what `Target.Misses` says of the active
  boundaries.
* `Config.SettlesAs` — how the run ends that goes on from a moment.
* `unchecked_return_agrees` — the statement about evaluations.
-/

namespace Prototypal

variable {f : Fragment}

/-- The returns that can be made in a state, each with the escape that it stands for.  A script can
also raise such an escape without asking. -/
inductive Return (s : State) : {α : Type} → Run α → Escape → Prop where
  | levels {α : Type} (n : Nat) (v : ObjectId) (positive : 1 ≤ n) :
      Return s (returnLevels n v : Run α) ⟨.levels n, v⟩
  | marker {α : Type} (token v : ObjectId) (m : Marker)
      (token_marker : (s.heap.payload token).marker? = some m) :
      Return s (returnTo token v : Run α) ⟨.marker m, v⟩

namespace Return

variable {α : Type} {s : State} {act : Run α} {x : Escape}

lemma refused (h : Return s act x) (misses : x.target.Misses s.boundaries) :
    act s = .error (.fault (.unhandled (x.target.past s.boundaries))) s := by
  cases h with
  | levels n v positive =>
      have few : s.boundaries.length < max n 1 := Nat.lt_of_lt_of_le misses (Nat.le_max_left n 1)
      rw [returnLevels_run, if_pos few, Nat.max_eq_left positive]
      rfl
  | marker token v m token_marker =>
      have inactive : s.boundaries.contains m = false := by simpa [Target.Misses] using misses
      rw [returnTo_run, token_marker]
      simp only [inactive]
      rfl

lemma accepted (h : Return s act x) (active : ¬ x.target.Misses s.boundaries) :
    ∃ raised, Accepted s act raised x.target x.value := by
  cases h with
  | levels n v positive =>
      have enough : max n 1 ≤ s.boundaries.length := by
        rw [Nat.max_eq_left positive]
        exact Nat.not_lt.mp active
      have accepted : Accepted s (returnLevels n v : Run α) _ _ _ := .levels n v enough
      rw [Nat.max_eq_left positive] at accepted
      exact ⟨_, accepted⟩
  | marker token v m token_marker =>
      exact ⟨_, .marker token v m token_marker (not_not.mp active)⟩

end Return

/-- What comes of the run that goes on from a moment, once it is settled, is this outcome, the
journal apart. -/
def Config.SettlesAs {γ : Type} (p : Config f γ) (o : Outcome γ) : Prop :=
  ∃ r t, p.Reaches (.ret r .done t) ∧
    Outcome.after State.bare (settle (Outcome.ofExcept r) t) = Outcome.after State.bare o

lemma settle_run {α : Type} {act : Run α} {s t : State} {r : Except Interrupt α}
    (h : act s = Outcome.ofExcept r t) : settle act s = settle (Outcome.ofExcept r) t := by
  simp only [settle, onEscape, h]

section Replacing

variable {α γ : Type} {c : Code f γ} {s u : State} {k : Frames f α γ} {act : Run α}
  {h : Elementary f act} {x : Escape}

/-- A return that is accepted is the escape, with a note that nobody reads. -/
lemma Accepted.unchecked_settles {raised : Event} (raises : f.raises = true) (hc : c.Heedless)
    (hp : (c.start s).Reaches (.work (.op act h) k u))
    (accepted : Accepted u act raised x.target x.value) :
    (Config.work (.op (throw (.escape x)) (.raise raises x)) k u).SettlesAs
      (settle c.run s) := by
  have step : (Config.work (.op act h) k u).step =
      some (.ret (.error (.escape x)) k { u with journal := raised :: u.journal }) := by
    rw [Config.step, Config.begin, accepted.run]
    rfl
  have later := hp.tail step
  obtain ⟨r, t, hrun⟩ := Outcome.exists_ofExcept (c.run s)
  have ends := Code.reaches_outcome later
  rw [hrun, Config.ofOutcome_ofExcept] at ends
  -- without the note the run goes on alike
  have begun : (c.start s).Heedless := ⟨hc, trivial⟩
  have noted := begun.reaches later
  have unnoted : Config.Heedless (.ret (.error (.escape x)) k u) := noted
  obtain ⟨q, hq, alike⟩ := ends.alike noted unnoted rfl
  obtain ⟨t', rfl, bare⟩ := Config.bare_eq_done alike.symm
  refine ⟨r, t', .head rfl hq, ?_⟩
  rw [settle_run hrun, ← Heedless.settle r t', ← Heedless.settle r t, bare]

/-- An escape that misses all boundaries of a run goes through to its end. -/
lemma unchecked_reaches_end (raises : f.raises = true) (balanced : Balanced s u k.markers k.depths)
    (free : k.uncaught = true) (misses : x.target.Misses k.markers) :
    (Config.work (.op (throw (.escape x)) (.raise raises x)) k u).Reaches
      (.ret (.error (.escape ⟨x.target.past k.markers, x.value⟩)) .done
        (s.thrown u (.done : Frames f γ γ) (x.target.passing k.markers))) := by
  rw [← k.append_done] at balanced
  have flight := flies_past (v := x.value) k .done free misses balanced
  rw [k.append_done] at flight
  exact .head rfl (flight.lift id fun _ _ flies => flies.step)

/-- A return that is refused ends the run as the escape does, which nothing stops. -/
lemma Return.unchecked_settles (raises : f.raises = true) (outermost : s.boundaries = [])
    (hp : (c.start s).Reaches (.work (.op act h) k u)) (hx : Return u act x)
    (free : k.uncaught = true) (misses : x.target.Misses u.boundaries) :
    (Config.work (.op (throw (.escape x)) (.raise raises x)) k u).SettlesAs (settle c.run s) ∧
      ∃ t, settle c.run s = .error (.fault (.unhandled (x.target.past u.boundaries))) t := by
  have balanced : Balanced s u k.markers k.depths := c.balanced s hp
  have boundaries : u.boundaries = k.markers := by
    rw [balanced.boundaries, outermost, List.append_nil]
  -- the refusal goes through to the end
  have step : (Config.work (.op act h) k u).step =
      some (.ret (.error (.fault (.unhandled (x.target.past u.boundaries)))) k u) := by
    rw [Config.step, Config.begin, hx.refused misses]
    rfl
  have noEscape : ∀ e,
      Interrupt.fault (.unhandled (x.target.past u.boundaries)) ≠ .escape e := by simp
  obtain ⟨t, onward, same⟩ := unwinds k u noEscape (.inl free)
  have refusal := (hp.tail step).trans onward
  have hrun := (c.reaches_done_iff s _ t).mp refusal
  have last : Balanced s t [] [] := c.balanced s refusal
  have settled : settle c.run s = .error (.fault (.unhandled (x.target.past u.boundaries))) t :=
    settle_run hrun
  -- and so does the escape
  rw [boundaries] at misses
  refine ⟨⟨_, _, unchecked_reaches_end raises balanced free misses, ?_⟩, t, settled⟩
  rw [settled, boundaries]
  refine congrArg (EStateM.Result.error _) ?_
  rw [same, last.boundaries, last.callDepth]
  rfl

end Replacing

/-! ## Evaluations -/

/-- **The check of a return agrees with the way of its escape.**  Take an evaluation around which no
boundary is active, any code for it that takes no notice of the journal, and a moment at which a
return is to be made, with no handler around it.  If the escape of the return is raised there
without asking, then the run comes to the same settled outcome, in the same state but for the
journal.  Where no active boundary is the one that the return is headed for, that outcome is the
error that no boundary handles it, with what is left of the way.

There is such a code.  Where a fragment has no handlers, none is around any moment; the fragment of
all scripts is one of those that the statement speaks of. -/
theorem unchecked_return_agrees (f : Fragment) (i : Invocation) (e : Expr) (s : State)
    (raises : f.raises = true) (he : e.within f = true) (hs : s.heap.Within f)
    (outermost : s.boundaries = []) :
    (∃ c : Code f Value, c.Realizes s.callDepth (eval enterCall i e) ∧ c.Heedless) ∧
    ∀ c : Code f Value, c.Realizes s.callDepth (eval enterCall i e) → c.Heedless →
      ∀ {α : Type} (act : Run α) (h : Elementary f act) (k : Frames f α Value) (u : State)
        (x : Escape), (c.start s).Reaches (.work (.op act h) k u) → Return u act x →
          (f.settles = false → f.observes = false → k.uncaught = true) ∧
          (k.uncaught = true →
            (Config.work (.op (throw (.escape x)) (.raise raises x)) k u).SettlesAs
              (settle (eval enterCall i e) s)) ∧
          (k.uncaught = true → x.target.Misses u.boundaries →
            ∃ t, settle (eval enterCall i e) s =
              .error (.fault (.unhandled (x.target.past u.boundaries))) t) := by
  refine ⟨exists_heedless_code he s.callDepth i, fun c hc heedless α act h k u x hp hx => ?_⟩
  have same : settle (eval enterCall i e) s = settle c.run s := by
    simp only [settle, onEscape, hc s rfl hs]
  rw [same]
  refine ⟨fun settles observes => k.uncaught_of_handlerFree settles observes, fun free => ?_,
    fun free misses => (hx.unchecked_settles raises outermost hp free misses).2⟩
  by_cases misses : x.target.Misses u.boundaries
  · exact (hx.unchecked_settles raises outermost hp free misses).1
  · obtain ⟨raised, accepted⟩ := hx.accepted misses
    exact accepted.unchecked_settles raises heedless hp

/-- Nothing comes after a return. -/
lemma returnLevels_bind {α β : Type} (n : Nat) (v : ObjectId) (next : α → Run β) :
    (returnLevels n v >>= next) = returnLevels n v := by
  funext s
  rw [run_bind, returnLevels_run, returnLevels_run]
  by_cases few : s.boundaries.length < max n 1
  · rw [if_pos few, if_pos few]
  · rw [if_neg few, if_neg few]

/-- A return past three boundaries, inside one. -/
def returnTooFar : Expr :=
  .attempt "token" [.unary (.returnLevels 3) .null]

/-- A code for it. -/
def returnTooFarCode : Code .handlerFree Value :=
  .bind
    (.attempt fun token =>
      .bind (.op (assign "token" (.object token)) (.basic (.assign _ _))) fun _ =>
        .op (returnLevels 3 nullId) (.returnLevels 3 nullId))
    fun o => .op (pure (Value.object o)) (.look fun _ => Value.object o)

lemma returnTooFarCode_realizes : returnTooFarCode.Realizes 0 (evaluate returnTooFar) := by
  have return_eval : eval enterCall .outside (.unary (.returnLevels 3) .null) =
      returnLevels 3 nullId := by
    rw [eval, eval]
    rfl
  have body : evalAll enterCall .outside [.unary (.returnLevels 3) .null] =
      returnLevels 3 nullId := by
    rw [evalAll, return_eval, returnLevels_bind]
  intro s _ _
  rw [evaluate, returnTooFar, eval]
  simp only [body, returnLevels_bind]
  rw [map_eq_pure_bind]
  rfl

lemma returnTooFarCode_heedless : returnTooFarCode.Heedless :=
  ⟨fun _ => ⟨fun _ => rfl, fun _ => .returnLevels 3 nullId⟩, fun _ _ => rfl⟩

/-- One boundary is active when the return is refused, so two are missing; the escape finds the same
at the end of the run. -/
theorem returnTooFar_agrees :
    ∃ (k : Frames .handlerFree ObjectId Value) (u : State),
      (returnTooFarCode.start .initial).Reaches
        (.work (.op (returnLevels 3 nullId) (.returnLevels 3 nullId)) k u) ∧
      (Config.work (.op (throw (.escape ⟨.levels 3, nullId⟩)) (.raise rfl _)) k u).SettlesAs
        (settle (evaluate returnTooFar) .initial) ∧
      ∃ t, settle (evaluate returnTooFar) .initial =
        .error (.fault (.unhandled (.levels 2))) t := by
  obtain ⟨k, u, reached, active⟩ : ∃ (k : Frames .handlerFree ObjectId Value) (u : State),
      (returnTooFarCode.start .initial).Reaches
        (.work (.op (returnLevels 3 nullId) (.returnLevels 3 nullId)) k u) ∧
      u.boundaries = [⟨1⟩] :=
    ⟨_, _, .head rfl (.head rfl (.head rfl (.head rfl (.head rfl .refl)))), rfl⟩
  obtain ⟨-, agrees⟩ := unchecked_return_agrees .handlerFree .outside returnTooFar .initial rfl rfl
    (Heap.within_initial _) rfl
  obtain ⟨free, settles, fails⟩ := agrees returnTooFarCode returnTooFarCode_realizes
    returnTooFarCode_heedless _ _ k u _ reached (.levels 3 nullId (by decide))
  rw [active] at fails
  have misses : (Target.levels 3).Misses [⟨1⟩] := by
    show 1 < 3
    decide
  exact ⟨k, u, reached, settles (free rfl rfl), fails (free rfl rfl) misses⟩

end Prototypal
