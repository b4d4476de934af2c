import Mathlib.Tactic.Common
import Prototypal.Script.Eval

/-!
# What the control operations do, as equations

Evaluation is written in a monad; the facts about it are about states.  This module says what
the operations that steer evaluation do at a given state, so that later proofs look at outcomes
and states only:

* `run_bind`, `ensure_run` — sequencing, and what is done on every way out;
* `intern_run` — the symbol of a text, for which there may be no room;
* `attempt_opened`, `attempt_run` — a boundary: it is opened (`State.opened`), the body runs, it is
  left, and an escape is then looked at;
* `land_run`, `returnLevels_run`, `returnTo_run` — escapes at a boundary, and returns;
* `nested_run` — one more level of nesting;
* `fixSettings_run` — the settings;
* `checked_run` — an access between its checks;
* `resolve_run`, `resolveAbove_run`, `isA_run` — ancestor walks, which change nothing but the
  journal.
-/

namespace Prototypal

/-- What a computation comes to: a result or an interrupt, and a state. -/
abbrev Outcome (α : Type) := EStateM.Result Interrupt State α

/-- The state in which a computation ended. -/
def Outcome.final {α : Type} : Outcome α → State
  | .ok _ t => t
  | .error _ t => t

/-- The outcome with a given ending, in a given state. -/
def Outcome.ofExcept {α : Type} : Except Interrupt α → State → Outcome α
  | .ok a, t => .ok a t
  | .error i, t => .error i t

/-- The outcome with its state changed once more. -/
def Outcome.after {α : Type} (g : State → State) : Outcome α → Outcome α
  | .ok a t => .ok a (g t)
  | .error i t => .error i (g t)

/-- A computation comes to a result, whatever state it leaves. -/
def Yields {α : Type} (act : Run α) (s : State) (a : α) : Prop :=
  ∃ t, act s = .ok a t

lemma run_bind {α β : Type} (act : Run α) (next : α → Run β) (s : State) :
    (act >>= next) s = match act s with
      | .ok a t => next a t
      | .error i t => .error i t := by
  have h : (act >>= next) s = EStateM.bind act next s := rfl
  rw [h, EStateM.bind]
  cases act s with
  | ok a t => rfl
  | error i t => rfl

lemma run_bind_ok {α β : Type} {act : Run α} {next : α → Run β} {s t : State} {a : α}
    (h : act s = .ok a t) : (act >>= next) s = next a t := by
  rw [run_bind, h]

lemma run_bind_error {α β : Type} {act : Run α} {next : α → Run β} {s t : State} {i : Interrupt}
    (h : act s = .error i t) : (act >>= next) s = .error i t := by
  rw [run_bind, h]

/-- A sequence succeeds if both parts do. -/
lemma exists_of_run_bind_ok {α β : Type} {act : Run α} {next : α → Run β} {s t : State} {b : β}
    (h : (act >>= next) s = .ok b t) : ∃ a u, act s = .ok a u ∧ next a u = .ok b t := by
  rw [run_bind] at h
  cases first : act s with
  | ok a u =>
      rw [first] at h
      exact ⟨a, u, rfl, h⟩
  | error i u =>
      rw [first] at h
      cases h

lemma ensure_run {α : Type} (act : Run α) (g : State → State) (s : State) :
    ensure act g s = Outcome.after g (act s) := by
  rw [ensure]
  cases act s with
  | ok a t => rfl
  | error i t => rfl

/-! ## Names -/

lemma intern_run (text : String) (s : State) :
    intern text s = match s.names.intern text with
      | some (y, names) => .ok y { s with names := names }
      | none => .error .overflow s := by
  have unfolded : intern text s = (match s.names.intern text with
      | some (y, names) => (do set { s with names := names }; return y : Run Symbol)
      | none => throw Interrupt.overflow) s := rfl
  rw [unfolded]
  cases s.names.intern text with
  | some r => rfl
  | none => rfl

/-- A table with no room for a new text. -/
def Names.Full (names : Names) : Prop :=
  capacity ≤ names.texts.size

lemma Names.full_of_intern {names : Names} {text : String} (h : names.intern text = none) :
    names.Full := by
  rw [intern] at h
  split at h
  · cases h
  · rw [insert] at h
    split at h
    · cases h
    · rename_i full
      exact Nat.le_of_not_lt full

lemma intern_run_some {text : String} {s : State} {y : Symbol} {names : Names}
    (h : s.names.intern text = some (y, names)) :
    intern text s = .ok y { s with names := names } := by
  rw [intern_run, h]

lemma intern_heap (text : String) (s : State) :
    (Outcome.final (intern text s)).heap = s.heap := by
  rw [intern_run]
  cases s.names.intern text with
  | some r => rfl
  | none => rfl

/-! ## Boundaries and returns -/

/-- The marker of the next boundary. -/
def State.nextMarker (s : State) : Marker := ⟨s.markers + 1⟩

/-- The state in which the body of a new boundary starts. -/
def State.opened (s : State) : State :=
  { s with
    markers := s.markers + 1
    heap := s.heap.make (.marker s.nextMarker) none []
    boundaries := s.nextMarker :: s.boundaries
    journal := .entered s.nextMarker (s.boundaries.length + 1) :: s.journal }

/-- The body of a boundary runs in the opened state. -/
lemma attempt_opened (body : ObjectId → Run ObjectId) (s : State) :
    attempt body s = onEscape (ensure (body s.heap.nextId) (leaveBoundary s.nextMarker))
      (fun e => e.land s.nextMarker) s.opened :=
  rfl

/-- Running inside a boundary: the body runs in the opened state, the boundary is left, and an
escape that came out of the body is looked at. -/
lemma attempt_run (body : ObjectId → Run ObjectId) (s : State) :
    attempt body s = match body s.heap.nextId s.opened with
      | .ok v t => .ok v (leaveBoundary s.nextMarker t)
      | .error (.escape e) t => e.land s.nextMarker (leaveBoundary s.nextMarker t)
      | .error i t => .error i (leaveBoundary s.nextMarker t) := by
  rw [attempt_opened, onEscape, ensure]
  cases body s.heap.nextId s.opened with
  | ok v t => rfl
  | error i t => cases i <;> rfl

/-- What an escape does at a boundary. -/
lemma land_run (e : Escape) (m : Marker) (t : State) :
    e.land m t = match e.target with
      | .marker target =>
        if target = m then .ok e.value { t with journal := .landedOnMarker m :: t.journal }
        else .error (.escape e) t
      | .levels n =>
        if n ≤ 1 then .ok e.value { t with journal := .landed m :: t.journal }
        else
          .error (.escape { e with target := .levels (n - 1) })
            { t with journal := .passed m (n - 1) :: t.journal } := by
  rw [Escape.land]
  cases e.target with
  | marker target =>
      dsimp only
      split
      · rfl
      · rfl
  | levels n =>
      dsimp only
      split
      · rfl
      · rfl

lemma returnLevels_run {α : Type} (n : Nat) (v : ObjectId) (s : State) :
    (returnLevels n v : Run α) s =
      if s.boundaries.length < max n 1 then
        .error (.fault (.unhandled (.levels (max n 1 - s.boundaries.length)))) s
      else
        .error (.escape ⟨.levels (max n 1), v⟩)
          { s with journal := .returning (max n 1) :: s.journal } := by
  have h : (returnLevels n v : Run α) s = (if s.boundaries.length < max n 1
      then fail (.unhandled (.levels (max n 1 - s.boundaries.length)))
      else do note (.returning (max n 1)); throw (.escape ⟨.levels (max n 1), v⟩)) s := rfl
  rw [h]
  split
  · rfl
  · rfl

lemma returnTo_run {α : Type} (token v : ObjectId) (s : State) :
    (returnTo token v : Run α) s = match (s.heap.payload token).marker? with
      | none => .error (.fault (.mismatch .leave [.marker] (s.heap.payload token).kind)) s
      | some m =>
        if s.boundaries.contains m then
          .error (.escape ⟨.marker m, v⟩) { s with journal := .returningTo m :: s.journal }
        else .error (.fault (.unhandled (.marker m))) s := by
  have h : (returnTo token v : Run α) s = (match (s.heap.payload token).marker? with
      | none => fail (.mismatch .leave [.marker] (s.heap.payload token).kind)
      | some m =>
        if s.boundaries.contains m then do
          note (.returningTo m)
          throw (Interrupt.escape ⟨.marker m, v⟩)
        else fail (.unhandled (.marker m))) s := by
    rw [returnTo, run_bind_ok (show payloadOf token s = .ok (s.heap.payload token) s from rfl)]
    cases (s.heap.payload token).marker? with
    | none => rfl
    | some m => rfl
  rw [h]
  cases (s.heap.payload token).marker? with
  | none => rfl
  | some m =>
      dsimp only
      split
      · rfl
      · rfl

/-! ## Nesting -/

/-- One more level of nesting, if the limit allows it.  The level is taken back however the
computation ended. -/
lemma nested_run {α : Type} (act : Nat → Run α) (s : State) :
    nested act s =
      if s.limits.callDepth.toNat < s.callDepth + 1 then
        .error (.fault (.tooDeep s.limits.callDepth.toNat)) s
      else
        Outcome.after (fun t => { t with callDepth := s.callDepth })
          (act (s.callDepth + 1) { s with callDepth := s.callDepth + 1 }) := by
  have h : nested act s = (if s.limits.callDepth.toNat < s.callDepth + 1
      then fail (.tooDeep s.limits.callDepth.toNat)
      else do
        set { s with callDepth := s.callDepth + 1 }
        ensure (act (s.callDepth + 1)) fun t => { t with callDepth := s.callDepth + 1 - 1 }) s :=
    rfl
  rw [h]
  split
  · rfl
  · exact ensure_run _ _ _

/-! ## Settings -/

/-- The settings are fixed once; the strictness then in force is the one that they name. -/
lemma fixSettings_run (x : Settings) (s : State) :
    fixSettings x s = match s.fixed with
      | some _ => .error .reconfigured s
      | none => .ok () { s with fixed := some x, strictness := x.policy.strictness } := by
  have h : fixSettings x s = (match s.fixed with
      | some _ => throw .reconfigured
      | none => modify fun s => { s with fixed := some x, strictness := x.policy.strictness } :
        Run Unit) s := rfl
  rw [h]
  cases s.fixed with
  | some _ => rfl
  | none => rfl

/-! ## Checked access -/

/-- What a strictness makes of the rules that an access breaks before it is carried out. -/
def reportBefore (l : Strictness) (receiver : ObjectId) (r : Request) : Run Unit := do
  (← checkBefore receiver r).forM (report l)

/-- What a strictness makes of the rule that an access breaks by what it produced. -/
def reportAfter (l : Strictness) (receiver : ObjectId) (r : Request) (produced : Option ObjectId) :
    Run Unit := do
  (← checkAfter receiver r produced).forM (report l)

/-- An access between its checks, at a strictness. -/
def checkedAt {α : Type} (l : Strictness) (receiver : ObjectId) (r : Request)
    (produced : α → Option ObjectId) (act : Run α) : Run α := do
  reportBefore l receiver r
  let a ← act
  reportAfter l receiver r (produced a)
  return a

/-- The strictness that counts is the one at the beginning. -/
lemma checked_run {α : Type} (receiver : ObjectId) (r : Request) (produced : α → Option ObjectId)
    (act : Run α) (s : State) :
    checked receiver r produced act s =
      if s.strictness.isEnabled then checkedAt s.strictness receiver r produced act s
      else act s := by
  have h : checked receiver r produced act s = (if s.strictness.isEnabled
      then do
        (← checkBefore receiver r).forM (report s.strictness)
        let a ← act
        (← checkAfter receiver r (produced a)).forM (report s.strictness)
        return a
      else act) s := rfl
  rw [h]
  split
  · simp only [checkedAt, reportBefore, reportAfter, bind_assoc]
  · rfl

/-! ## Walks -/

/-- Notes made one after the other end up in the journal, the newest first. -/
lemma forM_note_run {α : Type} (g : α → Event) (xs : List α) (s : State) :
    (xs.forM fun a => note (g a)) s =
      .ok () { s with journal := (xs.map g).reverse ++ s.journal } := by
  induction xs generalizing s with
  | nil => rfl
  | cons a xs ih =>
      have head : note (g a) s = .ok () { s with journal := g a :: s.journal } := rfl
      have step : (a :: xs).forM (fun a => note (g a)) s =
          xs.forM (fun a => note (g a)) { s with journal := g a :: s.journal } :=
        run_bind_ok head
      rw [step, ih]
      simp

/-- The notes about the cuts of a walk. -/
def Trail.notes (t : Trail) (k : Option Key) (limit : Nat) : List Event :=
  t.cuts.map fun o => .cut o k limit

lemma noteCuts_run (k : Option Key) (t : Trail) (s : State) :
    noteCuts k t s = .ok () { s with journal := t.notes k s.hops ++ s.journal } := by
  have h : noteCuts k t s = (t.cuts.reverse.forM fun o => note (.cut o k s.hops)) s := rfl
  rw [h, forM_note_run]
  simp [Trail.notes]

lemma resolve_run {o : ObjectId} {k : Key} (hk : k.isReserved = false) (s : State) :
    resolve o k s =
      .ok (s.heap.resolve? s.hops o k).1
        { s with
          journal := (s.heap.resolve? s.hops o k).2.notes (some k) s.hops ++ s.journal } := by
  have h : resolve o k s = (do
      noteCuts (some k) (s.heap.resolve? s.hops o k).2
      return (s.heap.resolve? s.hops o k).1) s := by
    simp only [resolve, hk]
    rfl
  rw [h, run_bind_ok (noteCuts_run _ _ s)]
  rfl

lemma resolveAbove_run {o : ObjectId} {k : Key} (hk : k.isReserved = false) (s : State) :
    resolveAbove o k s =
      .ok (s.heap.resolveAbove? s.hops o k).1
        { s with
          journal := (s.heap.resolveAbove? s.hops o k).2.notes (some k) s.hops ++ s.journal } := by
  have h : resolveAbove o k s = (do
      noteCuts (some k) (s.heap.resolveAbove? s.hops o k).2
      return (s.heap.resolveAbove? s.hops o k).1) s := by
    simp only [resolveAbove, hk]
    rfl
  rw [h, run_bind_ok (noteCuts_run _ _ s)]
  rfl

lemma isA_run (o target : ObjectId) (s : State) :
    isA o target s =
      .ok (s.heap.isA s.hops o target).1
        { s with journal := (s.heap.isA s.hops o target).2.notes none s.hops ++ s.journal } := by
  have h : isA o target s = (do
      noteCuts none (s.heap.isA s.hops o target).2
      return (s.heap.isA s.hops o target).1) s := rfl
  rw [h, run_bind_ok (noteCuts_run _ _ s)]
  rfl

/-- What a lookup finds is what the walk finds. -/
lemma resolve_yields_iff {o : ObjectId} {k : Key} (hk : k.isReserved = false) {s : State}
    {found : Option Found} :
    Yields (resolve o k) s found ↔ (s.heap.resolve? s.hops o k).1 = found := by
  simp [Yields, resolve_run hk]

lemma resolveAbove_yields_iff {o : ObjectId} {k : Key} (hk : k.isReserved = false) {s : State}
    {found : Option Found} :
    Yields (resolveAbove o k) s found ↔ (s.heap.resolveAbove? s.hops o k).1 = found := by
  simp [Yields, resolveAbove_run hk]

lemma isA_yields_iff {o target : ObjectId} {s : State} {answer : Bool} :
    Yields (isA o target) s answer ↔ (s.heap.isA s.hops o target).1 = answer := by
  simp [Yields, isA_run]

end Prototypal
