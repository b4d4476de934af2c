import Prototypal.Proofs.Machine.Moves

/-!
# Boundaries and nesting are balanced

At every moment of a run, the active boundaries are those that were active when it began and, inside
of them, the ones whose ends stand in the frames.  The level of nesting is tied to the frames in the
same way.  Hence a boundary that is left is always the innermost one, a level that is taken back is
always the last one taken, and at the end all is as it was, however the run ended.

* `Event.cross` — what an event does to the boundaries that are open.  Following the events from the
  first to the last shows whether they are properly bracketed.
* `Balanced` — the invariant.  It speaks of a state and of what stands in the frames; each way in
  which a step changes the two has its lemma.
* `evaluation_balanced` — the statement about evaluations.
-/

namespace Prototypal

variable {f : Fragment}

/-! ## Events as brackets -/

/-- What an event does to the boundaries that have been opened, with `outer` more around them.
There is no result if a boundary is left that is not the innermost one, or if one is entered at a
depth that is not the number of those then open. -/
def Event.cross (outer : Nat) (ms : List Marker) : Event → Option (List Marker)
  | entered m depth => if depth = outer + ms.length + 1 then some (m :: ms) else none
  | left m => if ms.head? = some m then some ms.tail else none
  | _ => some ms

/-- Follows the events of a run, oldest first, from no open boundary on. -/
def opened? (outer : Nat) (events : List Event) : Option (List Marker) :=
  events.foldlM (Event.cross outer) []

-- the outer of two boundaries cannot be left first
example : opened? 0 [.entered ⟨1⟩ 1, .entered ⟨2⟩ 2, .left ⟨1⟩] = none := by decide

lemma Event.cross_of_not_isCrossing {e : Event} (he : e.isCrossing = false) (outer : Nat)
    (ms : List Marker) : e.cross outer ms = some ms := by
  cases e with
  | entered | left => cases he
  | _ => rfl

lemma opened?_append (outer : Nat) (older newer : List Event) :
    opened? outer (older ++ newer) =
      (opened? outer older).bind fun ms => newer.foldlM (Event.cross outer) ms := by
  simp [opened?, List.foldlM_append]

lemma foldlM_cross_of_not_isCrossing {notes : List Event} (outer : Nat) (ms : List Marker)
    (h : ∀ e ∈ notes, e.isCrossing = false) : notes.foldlM (Event.cross outer) ms = some ms := by
  induction notes with
  | nil => rfl
  | cons e notes ih =>
      have he : e.cross outer ms = some ms :=
        Event.cross_of_not_isCrossing (h e List.mem_cons_self) outer ms
      rw [List.foldlM_cons, he]
      exact ih fun x hx => h x (List.mem_cons_of_mem e hx)

/-! ## The invariant -/

/-- Each level to go back to is the number of those outside of it, counted from a first one. -/
def Descends (base : Nat) : List Nat → Prop
  | [] => True
  | d :: ds => d = base + ds.length ∧ Descends base ds

/-- A run that began in `s` is in the state `t`, and it has yet to leave the boundaries `ms` and to
go back to the levels `ds`. -/
structure Balanced (s t : State) (ms : List Marker) (ds : List Nat) : Prop where
  boundaries : t.boundaries = ms ++ s.boundaries
  callDepth : t.callDepth = s.callDepth + ds.length
  descends : Descends s.callDepth ds
  /-- No two of the boundaries have the same marker, and all markers have been given out. -/
  distinct : ms.Nodup
  given : ∀ m ∈ ms, m.number ≤ t.markers
  bracketed : ∃ new, t.journal = new ++ s.journal ∧
    opened? s.boundaries.length new.reverse = some ms

namespace Balanced

variable {s t u : State} {m : Marker} {ms : List Marker} {d : Nat} {ds : List Nat}

lemma start (s : State) : Balanced s s [] [] where
  boundaries := rfl
  callDepth := rfl
  descends := trivial
  distinct := .nil
  given := by simp
  bracketed := ⟨[], rfl, rfl⟩

lemma noting (h : Balanced s t ms ds) {notes : List Event}
    (hnotes : ∀ e ∈ notes, e.isCrossing = false) :
    Balanced s { t with journal := notes ++ t.journal } ms ds where
  boundaries := h.boundaries
  callDepth := h.callDepth
  descends := h.descends
  distinct := h.distinct
  given := h.given
  bracketed := by
    obtain ⟨new, journal, hnew⟩ := h.bracketed
    refine ⟨notes ++ new, by simp [journal], ?_⟩
    rw [List.reverse_append, opened?_append, hnew]
    exact foldlM_cross_of_not_isCrossing _ _ fun e he => hnotes e (List.mem_reverse.mp he)

lemma steady (h : Balanced s t ms ds) (hu : Steady t u) : Balanced s u ms ds := by
  obtain ⟨notes, journal, hnotes⟩ := hu.journal
  have noted := h.noting fun e he => Event.not_isCrossing_of_isPlain (hnotes e he)
  exact ⟨hu.boundaries.trans h.boundaries, hu.callDepth.trans h.callDepth, h.descends, h.distinct,
    hu.markers ▸ h.given, journal ▸ noted.bracketed⟩

lemma accepted (h : Balanced s t ms ds) {α : Type} {act : Run α} {e : Event} {target : Target}
    {v : ObjectId} (he : Accepted t act e target v) :
    Balanced s { t with journal := e :: t.journal } ms ds := by
  have one : ∀ x ∈ [e], x.isCrossing = false := by simpa using he.not_isCrossing
  exact h.noting one

lemma elementary (h : Balanced s t ms ds) {α : Type} {act : Run α} (hact : Elementary f act) :
    Balanced s (Outcome.final (act t)) ms ds := by
  rcases hact.steady_or_accepted t with hsteady | ⟨e, target, v, he⟩
  · exact h.steady hsteady
  · rw [he.run]
    exact h.accepted he

lemma opened (h : Balanced s t ms ds) : Balanced s t.opened (t.nextMarker :: ms) ds where
  boundaries := congrArg (t.nextMarker :: ·) h.boundaries
  callDepth := h.callDepth
  descends := h.descends
  distinct := by
    -- the marker is newer than all that have been given out
    refine List.nodup_cons.mpr ⟨fun hm => ?_, h.distinct⟩
    have old := h.given _ hm
    simp only [State.nextMarker] at old
    omega
  given := by
    intro x hx
    rcases List.mem_cons.mp hx with rfl | hx
    · exact Nat.le_refl _
    · exact Nat.le_succ_of_le (h.given x hx)
  bracketed := by
    obtain ⟨new, journal, hnew⟩ := h.bracketed
    let entering := Event.entered t.nextMarker (t.boundaries.length + 1)
    refine ⟨entering :: new, congrArg (entering :: ·) journal, ?_⟩
    have depth : t.boundaries.length + 1 = s.boundaries.length + ms.length + 1 := by
      rw [h.boundaries, List.length_append]
      omega
    rw [List.reverse_cons, opened?_append, hnew]
    simp [entering, Event.cross, depth]

lemma left (h : Balanced s t (m :: ms) ds) : Balanced s (leaveBoundary m t) ms ds where
  boundaries := by
    simp [leaveBoundary, h.boundaries]
  callDepth := h.callDepth
  descends := h.descends
  distinct := (List.nodup_cons.mp h.distinct).2
  given := fun x hx => h.given x (List.mem_cons_of_mem m hx)
  bracketed := by
    obtain ⟨new, journal, hnew⟩ := h.bracketed
    refine ⟨.left m :: new, congrArg (Event.left m :: ·) journal, ?_⟩
    rw [List.reverse_cons, opened?_append, hnew]
    simp [Event.cross]

lemma deeper (h : Balanced s t ms ds) :
    Balanced s { t with callDepth := t.callDepth + 1 } ms (t.callDepth :: ds) where
  boundaries := h.boundaries
  callDepth := congrArg (· + 1) h.callDepth
  descends := ⟨h.callDepth, h.descends⟩
  distinct := h.distinct
  given := h.given
  bracketed := h.bracketed

lemma shallower (h : Balanced s t ms (d :: ds)) :
    Balanced s { t with callDepth := d } ms ds where
  boundaries := h.boundaries
  callDepth := h.descends.1
  descends := h.descends.2
  distinct := h.distinct
  given := h.given
  bracketed := h.bracketed

end Balanced

/-! ## Steps and runs -/

namespace Config

variable {γ : Type} {s : State} {p q : Config f γ}

/-- A moment of a run that began in a state. -/
def BalancedFrom (s : State) (p : Config f γ) : Prop :=
  Balanced s p.state p.markers p.depths

lemma BalancedFrom.step (hp : p.BalancedFrom s) (hq : p.step = some q) : q.BalancedFrom s := by
  unfold BalancedFrom at hp ⊢
  cases moves_of_step hq with
  | elementary act h k t =>
      rw [state_ofOutcome, markers_ofOutcome, depths_ofOutcome]
      exact hp.elementary h
  | idle state markers depths =>
      rw [state, markers, depths]
      exact hp
  | opened state markers depths =>
      rw [state, markers, depths]
      exact hp.opened
  | left m notes plain state markers depths =>
      rw [markers] at hp
      rw [state, depths]
      exact hp.left.noting fun e he => Event.not_isCrossing_of_isPlain (plain e he)
  | deeper state markers depths =>
      rw [state, markers, depths]
      exact hp.deeper
  | shallower depth state markers depths =>
      rw [depths] at hp
      rw [state, markers]
      exact hp.shallower

end Config

/-- Every moment of a run is balanced. -/
lemma Code.balanced {α : Type} (c : Code f α) (s : State) {p : Config f α}
    (hp : (c.start s).Reaches p) : p.BalancedFrom s :=
  hp.keeps (fun _ _ h hstep => h.step hstep) (.start s)

/-! ## Evaluations -/

/-- **Boundaries and nesting are balanced.**  However an evaluation ends, the active boundaries and
the level of nesting are afterwards what they were before, and the events of boundaries in its part
of the journal are properly bracketed.  While a machine carries it out, in whatever way it is put
together, a boundary that is about to be left is the innermost one, and a level of nesting that is
about to be taken back is the last one taken. -/
theorem evaluation_balanced (i : Invocation) (e : Expr) (s : State) :
    (Outcome.final (eval enterCall i e s)).boundaries = s.boundaries ∧
      (Outcome.final (eval enterCall i e s)).callDepth = s.callDepth ∧
      (∃ new, (Outcome.final (eval enterCall i e s)).journal = new ++ s.journal ∧
        opened? s.boundaries.length new.reverse = some []) ∧
      (∃ c : Code .full Value, c.Realizes s.callDepth (eval enterCall i e)) ∧
      ∀ c : Code .full Value, c.Realizes s.callDepth (eval enterCall i e) →
        (c.start s).Reaches (.ofOutcome (eval enterCall i e s) .done) ∧
        (∀ r m k t, (c.start s).Reaches (.ret r (.boundary m k) t) →
          t.boundaries = m :: (k.markers ++ s.boundaries)) ∧
        ∀ {α : Type} (r : Except Interrupt α) (d : Nat) (k : Frames .full α Value) (t : State),
          (c.start s).Reaches (.ret r (.nesting d k) t) → t.callDepth = d + 1 := by
  obtain ⟨c, hc⟩ := exists_code e.within_full s.callDepth i
  have last := c.balanced s (hc.ends s.heap.within_full)
  rw [Config.BalancedFrom, Config.state_ofOutcome, Config.markers_ofOutcome,
    Config.depths_ofOutcome] at last
  refine ⟨last.boundaries, last.callDepth, last.bracketed, ⟨c, hc⟩, fun c hc =>
    ⟨hc.ends s.heap.within_full, ?_, ?_⟩⟩
  · intro r m k t hp
    exact (c.balanced s hp).boundaries
  · intro α r d k t hp
    have depth : t.callDepth = s.callDepth + (k.depths.length + 1) := (c.balanced s hp).callDepth
    have first : d = s.callDepth + k.depths.length := (c.balanced s hp).descends.1
    omega

end Prototypal
