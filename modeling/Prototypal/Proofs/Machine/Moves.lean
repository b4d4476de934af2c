import Prototypal.Proofs.Machine.Steps

/-!
# What a step of the machine does

The frames tell which boundaries are yet to be left and which levels of nesting are to be gone back
to.  A step carries out an elementary operation, or it changes these together with the state, or it
changes neither.

* `Frames.markers`, `Frames.depths` — the boundaries to be left, and the levels to go back to.
* `Steady`, `Accepted` — an elementary operation leaves boundaries and levels alone, and what it
  notes tells of no return, unless it is a return that is accepted.
* `Config.Moves` — what a step can do, one case per way in which state and frames change.
* `Config.moves_of_step` — it does nothing else.  Facts about all steps are derived from this.
-/

namespace Prototypal

variable {f : Fragment}

/-! ## What stands in the frames -/

namespace Frames

/-- The boundaries to be left, innermost first. -/
def markers : {α γ : Type} → Frames f α γ → List Marker
  | _, _, done => []
  | _, _, next _ k => k.markers
  | _, _, boundary m k => m :: k.markers
  | _, _, settling _ k => k.markers
  | _, _, observing _ k => k.markers
  | _, _, nesting _ k => k.markers

/-- The levels of nesting to go back to, innermost first. -/
def depths : {α γ : Type} → Frames f α γ → List Nat
  | _, _, done => []
  | _, _, next _ k => k.depths
  | _, _, boundary _ k => k.depths
  | _, _, settling _ k => k.depths
  | _, _, observing _ k => k.depths
  | _, _, nesting depth k => depth :: k.depths

end Frames

namespace Config

variable {γ : Type}

def markers : Config f γ → List Marker
  | work _ k _ => k.markers
  | ret _ k _ => k.markers

def depths : Config f γ → List Nat
  | work _ k _ => k.depths
  | ret _ k _ => k.depths

lemma markers_ofOutcome {α : Type} (r : Outcome α) (k : Frames f α γ) :
    (ofOutcome r k).markers = k.markers := by
  cases r <;> rfl

lemma depths_ofOutcome {α : Type} (r : Outcome α) (k : Frames f α γ) :
    (ofOutcome r k).depths = k.depths := by
  cases r <;> rfl

end Config

/-! ## Kinds of events -/

namespace Event

def isCrossing : Event → Bool
  | entered .. | left _ => true
  | _ => false

def isReturn : Event → Bool
  | returning _ | returningTo _ => true
  | _ => false

/-- The events that tell neither of a boundary that is entered or left, nor of a return. -/
def isPlain (e : Event) : Bool :=
  !e.isCrossing && !e.isReturn

variable {e : Event}

lemma isPlain_of_isQuiet (he : e.isQuiet = true) : e.isPlain = true := by
  cases e with
  | entered | left | returning | returningTo => cases he
  | _ => rfl

lemma not_isCrossing_of_isPlain (he : e.isPlain = true) : e.isCrossing = false := by
  simp only [isPlain, Bool.and_eq_true, Bool.not_eq_true'] at he
  exact he.1

lemma not_isReturn_of_isPlain (he : e.isPlain = true) : e.isReturn = false := by
  simp only [isPlain, Bool.and_eq_true, Bool.not_eq_true'] at he
  exact he.2

end Event

/-! ## Elementary operations -/

/-- A change that leaves boundaries and levels alone, and of which only plain events are noted. -/
structure Steady (s t : State) : Prop where
  boundaries : t.boundaries = s.boundaries
  callDepth : t.callDepth = s.callDepth
  markers : t.markers = s.markers
  journal : ∃ notes, t.journal = notes ++ s.journal ∧ ∀ e ∈ notes, e.isPlain = true

namespace Steady

lemma refl (s : State) : Steady s s :=
  ⟨rfl, rfl, rfl, [], rfl, by simp⟩

lemma note (s : State) {e : Event} (he : e.isPlain = true) :
    Steady s { s with journal := e :: s.journal } :=
  ⟨rfl, rfl, rfl, [e], rfl, by simpa using he⟩

end Steady

/-- The returns that are accepted in a state: the note that is made of them, where the escape that
they raise is headed, and the value that it carries. -/
inductive Accepted (s : State) : {α : Type} → Run α → Event → Target → ObjectId → Prop where
  | levels {α : Type} (n : Nat) (v : ObjectId) (enough : max n 1 ≤ s.boundaries.length) :
      Accepted s (returnLevels n v : Run α) (.returning (max n 1)) (.levels (max n 1)) v
  | marker {α : Type} (token v : ObjectId) (m : Marker)
      (token_marker : (s.heap.payload token).marker? = some m) (active : m ∈ s.boundaries) :
      Accepted s (returnTo token v : Run α) (.returningTo m) (.marker m) v

namespace Accepted

variable {α : Type} {s : State} {act : Run α} {e : Event} {target : Target} {v : ObjectId}

lemma run (h : Accepted s act e target v) :
    act s = .error (.escape ⟨target, v⟩) { s with journal := e :: s.journal } := by
  cases h with
  | levels n _ enough => rw [returnLevels_run, if_neg (Nat.not_lt.mpr enough)]
  | marker token _ m token_marker active =>
      rw [returnTo_run, token_marker]
      simp only [List.contains_iff_mem.mpr active, if_true]

lemma not_isCrossing (h : Accepted s act e target v) : e.isCrossing = false := by
  cases h <;> rfl

end Accepted

lemma Basic.steady {α : Type} {act : Run α} (h : Basic f act) (s : State) :
    Steady s (Outcome.final (act s)) := by
  obtain ⟨r, t, notes, hr⟩ := h.full.quiet s s.heap.within_full
  have hrun : act s = Outcome.ofExcept r
      (t.under (s.control.noting notes)) := hr.run s.control
  have hfinal : Outcome.final (act s) = t.under (s.control.noting notes) := by
    rw [hrun]
    cases r <;> rfl
  rw [hfinal]
  exact ⟨rfl, rfl, rfl, notes, rfl, fun e he => Event.isPlain_of_isQuiet (hr.quiet e he)⟩

/-- An elementary operation is steady, or it is a return that is accepted. -/
lemma Elementary.steady_or_accepted {α : Type} {act : Run α} (h : Elementary f act) (s : State) :
    Steady s (Outcome.final (act s)) ∨ ∃ e target v, Accepted s act e target v := by
  cases h with
  | basic h => exact .inl (h.steady s)
  | look g => exact .inl (.refl s)
  | violated v => exact .inl (.note s rfl)
  | setStrictness _ => exact .inl ⟨rfl, rfl, rfl, [], rfl, by simp⟩
  | fixSettings _ =>
      rw [fixSettings_run]
      cases s.fixed with
      | some _ => exact .inl (.refl s)
      | none => exact .inl ⟨rfl, rfl, rfl, [], rfl, by simp⟩
  | returnLevels n v =>
      by_cases enough : max n 1 ≤ s.boundaries.length
      · exact .inr ⟨_, _, _, .levels n v enough⟩
      · rw [returnLevels_run, if_pos (Nat.not_le.mp enough)]
        exact .inl (.refl s)
  | returnTo token v =>
      cases hm : (s.heap.payload token).marker? with
      | none =>
          rw [returnTo_run, hm]
          exact .inl (.refl s)
      | some m =>
          by_cases active : m ∈ s.boundaries
          · exact .inr ⟨_, _, _, .marker token v m hm active⟩
          · rw [returnTo_run, hm]
            simp only [List.contains_iff_mem, active, if_false]
            exact .inl (.refl s)
  | raise _ e => exact .inl (.refl s)

/-- After a boundary has been left, an escape makes a note at most. -/
lemma final_closing (m : Marker) (r : Except Interrupt ObjectId) (s : State) :
    ∃ notes, (∀ e ∈ notes, e.isPlain = true) ∧
      Outcome.final (closing m (Outcome.ofExcept r) s) =
        { leaveBoundary m s with journal := notes ++ (leaveBoundary m s).journal } := by
  rcases r with i | v
  · cases i with
    | escape e =>
        have hland : closing m (Outcome.ofExcept (.error (.escape e))) s =
            e.land m (leaveBoundary m s) := rfl
        rw [hland, land_run]
        split
        · split
          · exact ⟨[.landedOnMarker m], List.forall_mem_singleton.mpr rfl, rfl⟩
          · exact ⟨[], by simp, rfl⟩
        · rename_i n _
          split
          · exact ⟨[.landed m], List.forall_mem_singleton.mpr rfl, rfl⟩
          · exact ⟨[.passed m (n - 1)], List.forall_mem_singleton.mpr rfl, rfl⟩
    | _ => exact ⟨[], by simp, rfl⟩
  · exact ⟨[], by simp, rfl⟩

/-! ## Steps -/

namespace Config

variable {γ : Type} {p q : Config f γ}

/-- What a step can do. -/
inductive Moves : Config f γ → Config f γ → Prop where
  | elementary {α : Type} (act : Run α) (h : Elementary f act) (k : Frames f α γ) (s : State) :
      Moves (.work (.op act h) k s) (.ofOutcome (act s) k)
  | idle {p q : Config f γ} (state : q.state = p.state) (markers : q.markers = p.markers)
      (depths : q.depths = p.depths) : Moves p q
  | opened {p q : Config f γ} (state : q.state = p.state.opened)
      (markers : q.markers = p.state.nextMarker :: p.markers) (depths : q.depths = p.depths) :
      Moves p q
  | left {p q : Config f γ} (m : Marker) (notes : List Event)
      (plain : ∀ e ∈ notes, e.isPlain = true)
      (state : q.state =
        { leaveBoundary m p.state with journal := notes ++ (leaveBoundary m p.state).journal })
      (markers : p.markers = m :: q.markers) (depths : q.depths = p.depths) : Moves p q
  | deeper {p q : Config f γ} (state : q.state = { p.state with callDepth := p.state.callDepth + 1 })
      (markers : q.markers = p.markers) (depths : q.depths = p.state.callDepth :: p.depths) :
      Moves p q
  | shallower {p q : Config f γ} (depth : Nat) (state : q.state = { p.state with callDepth := depth })
      (markers : q.markers = p.markers) (depths : p.depths = depth :: q.depths) : Moves p q

lemma moves_begin {α : Type} (k : Frames f α γ) (s : State) (c : Code f α) :
    Moves (.work c k s) (Config.begin k s c) := by
  cases c with
  | op act h => exact .elementary act h k s
  | bind c g => exact .idle rfl rfl rfl
  | attempt body => exact .opened rfl rfl rfl
  | settle hf c => exact .idle rfl rfl rfl
  | observe hf c => exact .idle rfl rfl rfl
  | nested c =>
      rw [begin]
      split
      · exact .idle rfl rfl rfl
      · exact .deeper rfl rfl rfl

lemma moves_resume {α : Type} {r : Except Interrupt α} {k : Frames f α γ} {s : State}
    (hq : Config.resume r s k = some q) : Moves (.ret r k s) q := by
  cases k with
  | done => cases hq
  | next g k =>
      rcases r with i | a
      · obtain rfl : Config.ret (.error i) k s = q := Option.some.inj hq
        exact .idle rfl rfl rfl
      · obtain rfl : Config.work (g a) k s = q := Option.some.inj hq
        exact .idle rfl rfl rfl
  | boundary m k =>
      obtain rfl : Config.ofOutcome (closing m (Outcome.ofExcept r) s) k = q := Option.some.inj hq
      obtain ⟨notes, plain, final⟩ := final_closing m r s
      refine .left m notes plain ?_ ?_ (depths_ofOutcome _ k)
      · rw [state_ofOutcome, final]
        rfl
      · rw [markers_ofOutcome]
        rfl
  | settling hf k =>
      obtain rfl : Config.ofOutcome (settle (Outcome.ofExcept r) s) k = q := Option.some.inj hq
      refine .idle ?_ (markers_ofOutcome _ k) (depths_ofOutcome _ k)
      rw [state_ofOutcome, final_settle]
      rfl
  | observing hf k =>
      obtain rfl : Config.ofOutcome (observe (Outcome.ofExcept r) s) k = q := Option.some.inj hq
      refine .idle ?_ (markers_ofOutcome _ k) (depths_ofOutcome _ k)
      rw [state_ofOutcome, final_observe]
      rfl
  | nesting depth k =>
      obtain rfl : Config.ret r k { s with callDepth := depth } = q := Option.some.inj hq
      exact .shallower depth rfl rfl rfl

/-- A step does what is listed, and nothing else. -/
theorem moves_of_step (h : p.step = some q) : p.Moves q := by
  cases p with
  | work c k s =>
      obtain rfl : Config.begin k s c = q := Option.some.inj h
      exact moves_begin k s c
  | ret r k s => exact moves_resume h

end Config

end Prototypal
