import Prototypal.Proofs.Machine.Steps

/-!
# The journal is not read

A run writes its journal, and nothing that it does depends on what stands there.  So two moments
that are equal but for their journals go on alike, step by step, and end alike.

* `State.bare` — a state without its journal.
* `Heedless`, `Code.Heedless` — computations that are carried out alike with and without the
  journal, and codes that are put together from such operations only.
* `exists_heedless_code` — every evaluation is the run of a heedless code.
* `Config.step_bare`, `Config.Reaches.alike` — the steps and the runs of heedless codes.
-/

namespace Prototypal

/-- A state without its journal. -/
def State.bare (s : State) : State :=
  { s with journal := [] }

/-- Computations that take no notice of the journal. -/
def Heedless {α : Type} (act : Run α) : Prop :=
  ∀ s : State, Outcome.after State.bare (act s.bare) = Outcome.after State.bare (act s)

/-! ## Operations -/

namespace Heedless

variable {f : Fragment} {α : Type}

lemma ofBasic {act : Run α} (h : Basic f act) : Heedless act := by
  intro s
  obtain ⟨r, t, notes, quiet⟩ := h.full.quiet s s.heap.within_full
  have noted : act s = Outcome.ofExcept r
      (t.under (s.control.noting notes)) := quiet.run s.control
  have bare : act s.bare = Outcome.ofExcept r
      (t.under (s.bare.control.noting notes)) := quiet.run s.bare.control
  rw [noted, bare]
  cases r <;> rfl

lemma look {g : State → α} (same : ∀ s : State, g s.bare = g s) :
    Heedless (do return g (← get)) := by
  intro s
  show (EStateM.Result.ok (g s.bare) s.bare : Outcome α) = .ok (g s) s.bare
  rw [same]

lemma violated (v : Violation) : Heedless (note (.violated v)) :=
  fun _ => rfl

lemma setStrictness (l : Strictness) : Heedless (setStrictness l) :=
  fun _ => rfl

lemma fixSettings (x : Settings) : Heedless (fixSettings x) := by
  intro s
  have same : s.bare.fixed = s.fixed := rfl
  rw [fixSettings_run, fixSettings_run, same]
  cases s.fixed <;> rfl

lemma returnLevels (n : Nat) (v : ObjectId) : Heedless (returnLevels n v : Run α) := by
  intro s
  have same : s.bare.boundaries = s.boundaries := rfl
  rw [returnLevels_run, returnLevels_run, same]
  split <;> rfl

lemma returnTo (token v : ObjectId) : Heedless (returnTo token v : Run α) := by
  intro s
  have boundaries : s.bare.boundaries = s.boundaries := rfl
  have heap : s.bare.heap = s.heap := rfl
  rw [returnTo_run, returnTo_run, boundaries, heap]
  split
  · rfl
  · split <;> rfl

lemma raise (e : Escape) : Heedless (throw (.escape e) : Run α) :=
  fun _ => rfl

/-- The end of a boundary, with an outcome in hand. -/
lemma closing (m : Marker) (r : Except Interrupt ObjectId) :
    Heedless (closing m (Outcome.ofExcept r)) := by
  intro s
  rcases r with i | v
  · cases i with
    | escape e =>
        show Outcome.after State.bare (e.land m (leaveBoundary m s.bare)) =
          Outcome.after State.bare (e.land m (leaveBoundary m s))
        rw [land_run, land_run]
        split
        · split <;> rfl
        · split <;> rfl
    | _ => rfl
  · rfl

lemma settle (r : Except Interrupt α) : Heedless (settle (Outcome.ofExcept r)) := by
  intro s
  rcases r with i | a
  · cases i <;> rfl
  · rfl

lemma observe (r : Except Interrupt Value) : Heedless (observe (Outcome.ofExcept r)) := by
  intro s
  rcases r with i | a
  · cases i <;> rfl
  · rfl

end Heedless

/-! ## Codes -/

variable {f : Fragment} {α β γ : Type}

namespace Code

/-- Codes that are put together from heedless operations. -/
def Heedless : {α : Type} → Code f α → Prop
  | _, op act _ => Prototypal.Heedless act
  | _, bind c next => c.Heedless ∧ ∀ a, (next a).Heedless
  | _, attempt body => ∀ token, (body token).Heedless
  | _, settle _ c => c.Heedless
  | _, observe _ c => c.Heedless
  | _, nested c => c.Heedless

end Code

/-- Computations that a heedless code stands for. -/
def Unheeding (f : Fragment) (n : Nat) (act : Run α) : Prop :=
  ∃ c : Code f α, c.Realizes n act ∧ c.Heedless

namespace Unheeding

variable {n : Nat} {act : Run α}

lemma op (h : Elementary f act) (heedless : Heedless act) : Unheeding f n act :=
  ⟨.op act h, .op h, heedless⟩

lemma ofPure (a : α) : Unheeding f n (pure a : Run α) :=
  op (.look fun _ => a) fun _ => rfl

lemma ofBasic (h : Basic f act) : Unheeding f n act :=
  op (.basic h) (.ofBasic h)

lemma bind {next : α → Run β} (h : Unheeding f n act) (hnext : ∀ a, Unheeding f n (next a)) :
    Unheeding f n (act >>= next) := by
  obtain ⟨c, hc, heedless⟩ := h
  choose d hd rest using hnext
  exact ⟨.bind c d, hc.bind hd, heedless, rest⟩

/-- Looking at a part of the state that is not the journal, and going on with what was seen. -/
lemma look (part : State → α) (same : ∀ s : State, part s.bare = part s) {next : α → Run β}
    (h : ∀ x, Unheeding f n (next x)) : Unheeding f n (do next (part (← get))) := by
  have looking : Unheeding f n (do return part (← get)) := op (.look part) (.look same)
  exact looking.bind h

lemma payload (o : ObjectId) {next : Payload → Run β}
    (h : ∀ p, p.within f = true → Unheeding f n (next p)) :
    Unheeding f n (payloadOf o >>= next) := by
  -- whatever is done with a payload from outside the fragment, it is never done
  have total : ∀ p, ∃ c : Code f β, (p.within f = true → c.Realizes n (next p)) ∧ c.Heedless := by
    intro p
    by_cases hp : p.within f = true
    · obtain ⟨c, hc, heedless⟩ := h p hp
      exact ⟨c, fun _ => hc, heedless⟩
    · have failing : Basic f (fail (.tooDeep 0) : Run β) := .fail _
      exact ⟨.op _ (.basic failing), fun hp' => absurd hp' hp, .ofBasic failing⟩
  choose d hd rest using total
  have reading : Basic f (payloadOf o) := .look fun x _ => x.payload o
  exact ⟨.bind (.op (payloadOf o) (.basic reading)) d, .payload o _ hd, .ofBasic reading, rest⟩

lemma sequential (f : Fragment) (n : Nat) : Sequential fun act => Unheeding f n act where
  bind := bind
  ofPure := ofPure
  look g := ofBasic (.look g)
  isA o target := ofBasic (.isA o target)
  violated v := op (.violated v) (.violated v)
  fail x := ofBasic (.fail x)

lemma checked (o : ObjectId) (r : Request) (produced : α → Option ObjectId)
    (h : Unheeding f n act) : Unheeding f n (checked o r produced act) := by
  have demanded : ∀ l, Unheeding f n (checkedBy l o r produced act) :=
    fun l => (sequential f n).checkedBy l o r produced h
  rw [checked_eq_look]
  exact look State.strictness (fun _ => rfl) demanded

lemma attempt {body : ObjectId → Run ObjectId} (h : ∀ token, Unheeding f n (body token)) :
    Unheeding f n (attempt body) := by
  choose d hd heedless using h
  exact ⟨.attempt d, .attempt hd, heedless⟩

lemma settle (hf : f.settles = true) (h : Unheeding f n act) : Unheeding f n (settle act) := by
  obtain ⟨c, hc, heedless⟩ := h
  exact ⟨.settle hf c, hc.settle hf, heedless⟩

lemma observe (hf : f.observes = true) {act : Run Value} (h : Unheeding f n act) :
    Unheeding f n (observe act) := by
  obtain ⟨c, hc, heedless⟩ := h
  exact ⟨.observe hf c, hc.observe hf, heedless⟩

lemma callDepth (next : Nat → Run α) (h : Unheeding f n (next n)) :
    Unheeding f n (do next (← get).callDepth) := by
  obtain ⟨c, hc, heedless⟩ := h
  exact ⟨c, .callDepth next hc, heedless⟩

lemma nested {act : Nat → Run α} (h : Unheeding f (n + 1) (act (n + 1))) :
    Unheeding f n (nested act) := by
  obtain ⟨c, hc, heedless⟩ := h
  exact ⟨.nested c, hc.nested, heedless⟩

lemma tooDeep (h : UInt64.size ≤ n) (act : Nat → Run ObjectId) :
    Unheeding f n (Prototypal.nested act) := by
  obtain ⟨c, -, heedless⟩ := ofPure (f := f) (n := n) nullId
  exact ⟨.nested c, .tooDeep h c act, heedless⟩

end Unheeding

/-- Having a heedless code is a discipline, for every fragment. -/
def unheeding (f : Fragment) : Discipline f where
  Keeps n act := Unheeding f n act
  ofPure _ := .ofPure
  bind := .bind
  payload := .payload
  basic := .ofBasic
  boundaries _ h := .look State.boundaries (fun _ => rfl) h
  fixed _ _ _ _ h := .look State.fixed (fun _ => rfl) h
  strictness _ _ _ _ h := .look State.strictness (fun _ => rfl) h
  setStrictness _ l hl := .op (.setStrictness hl) (.setStrictness l)
  fixSettings _ x hx := .op (.fixSettings hx) (.fixSettings x)
  returnLevels _ levels v := .op (.returnLevels levels v) (.returnLevels levels v)
  returnTo _ token v := .op (.returnTo token v) (.returnTo token v)
  raise hf _ _ e := .op (.raise hf e) (.raise e)
  attempt := .attempt
  settle hf _ _ _ := .settle hf
  observe hf _ _ := .observe hf
  checked o r produced _ h := h.checked o r produced
  callDepth := .callDepth
  nested := .nested
  exhausted h := .tooDeep h _

/-- **Every evaluation is the run of a heedless code.** -/
theorem exists_heedless_code {e : Expr} (he : e.within f = true) (n : Nat) (i : Invocation) :
    ∃ c : Code f Value, c.Realizes n (eval enterCall i e) ∧ c.Heedless :=
  (unheeding f).keeps_evaluate i he

/-! ## Steps -/

/-- Frames that go on with heedless codes only. -/
def Frames.Heedless : {α γ : Type} → Frames f α γ → Prop
  | _, _, done => True
  | _, _, next g k => (∀ a, (g a).Heedless) ∧ k.Heedless
  | _, _, boundary _ k => k.Heedless
  | _, _, settling _ k => k.Heedless
  | _, _, observing _ k => k.Heedless
  | _, _, nesting _ k => k.Heedless

namespace Config

/-- What the machine is at, but for the journal. -/
def bare : Config f γ → Config f γ
  | work c k s => work c k s.bare
  | ret r k s => ret r k s.bare

def Heedless : Config f γ → Prop
  | work c k _ => c.Heedless ∧ k.Heedless
  | ret _ k _ => k.Heedless

lemma bare_ofOutcome (r : Outcome α) (k : Frames f α γ) :
    (ofOutcome r k).bare = ofOutcome (Outcome.after State.bare r) k := by
  cases r <;> rfl

lemma heedless_ofOutcome {r : Outcome α} {k : Frames f α γ} (h : k.Heedless) :
    (ofOutcome r k).Heedless := by
  cases r <;> exact h

lemma bare_begin (k : Frames f α γ) (s : State) {c : Code f α} (h : c.Heedless) :
    (begin k s.bare c).bare = (begin k s c).bare := by
  cases c with
  | op act _ =>
      have alike : Outcome.after State.bare (act s.bare) = Outcome.after State.bare (act s) := h s
      rw [begin, begin, bare_ofOutcome, bare_ofOutcome, alike]
  | bind c next => rfl
  | attempt body => rfl
  | settle hf c => rfl
  | observe hf c => rfl
  | nested c =>
      have limit : s.bare.limits = s.limits := rfl
      have depth : s.bare.callDepth = s.callDepth := rfl
      rw [begin, begin, limit, depth]
      split <;> rfl

lemma bare_resume (r : Except Interrupt α) (s : State) (k : Frames f α γ) :
    (resume r s.bare k).map bare = (resume r s k).map bare := by
  cases k with
  | done => rfl
  | next g k => cases r <;> rfl
  | boundary m k =>
      have alike := Heedless.closing m r s
      simp only [resume, Option.map_some, bare_ofOutcome, alike]
  | settling hf k =>
      have alike := Heedless.settle r s
      simp only [resume, Option.map_some, bare_ofOutcome, alike]
  | observing hf k =>
      have alike := Heedless.observe r s
      simp only [resume, Option.map_some, bare_ofOutcome, alike]
  | nesting depth k => rfl

/-- A step is the same with and without the journal. -/
lemma step_bare {p : Config f γ} (h : p.Heedless) : p.bare.step.map bare = p.step.map bare := by
  cases p with
  | work c k s => exact congrArg some (bare_begin k s h.1)
  | ret r k s => exact bare_resume r s k

lemma Heedless.step {p q : Config f γ} (h : p.Heedless) (hq : p.step = some q) : q.Heedless := by
  cases p with
  | work c k s =>
      obtain rfl : Config.begin k s c = q := Option.some.inj hq
      obtain ⟨hc, hk⟩ := h
      cases c with
      | op act _ => exact heedless_ofOutcome hk
      | bind c next => exact ⟨hc.1, hc.2, hk⟩
      | attempt body => exact ⟨hc _, hk⟩
      | settle hf c => exact ⟨hc, hk⟩
      | observe hf c => exact ⟨hc, hk⟩
      | nested c =>
          rw [begin]
          split
          · exact hk
          · exact ⟨hc, hk⟩
  | ret r k s =>
      cases k with
      | done => cases hq
      | next g k =>
          rcases r with i | a
          · obtain rfl : Config.ret (.error i) k s = q := Option.some.inj hq
            exact h.2
          · obtain rfl : Config.work (g a) k s = q := Option.some.inj hq
            exact ⟨h.1 a, h.2⟩
      | boundary m k =>
          obtain rfl := Option.some.inj hq
          exact heedless_ofOutcome h
      | settling hf k =>
          obtain rfl := Option.some.inj hq
          exact heedless_ofOutcome h
      | observing hf k =>
          obtain rfl := Option.some.inj hq
          exact heedless_ofOutcome h
      | nesting depth k =>
          obtain rfl := Option.some.inj hq
          exact h

/-! ## Runs -/

variable {p p' q q' : Config f γ}

lemma Heedless.reaches (h : p.Heedless) (hq : p.Reaches q) : q.Heedless :=
  hq.keeps (fun _ _ hp hstep => hp.step hstep) h

/-- Moments that are equal but for their journals take steps to such moments. -/
lemma step_alike (h : p.Heedless) (h' : p'.Heedless) (alike : p.bare = p'.bare)
    (hq : p.step = some q) : ∃ q', p'.step = some q' ∧ q.bare = q'.bare := by
  have same : p'.step.map bare = some q.bare := by
    rw [← step_bare h', ← alike, step_bare h, hq]
    rfl
  obtain ⟨q', hq', bare⟩ := Option.map_eq_some_iff.mp same
  exact ⟨q', hq', bare.symm⟩

/-- **Moments that are equal but for their journals go on alike.** -/
theorem Reaches.alike (h : p.Heedless) (h' : p'.Heedless) (alike : p.bare = p'.bare)
    (hq : p.Reaches q) : ∃ q', p'.Reaches q' ∧ q.bare = q'.bare := by
  induction hq with
  | refl => exact ⟨p', .refl, alike⟩
  | @tail q r before last ih =>
      obtain ⟨q', hq', still⟩ := ih
      obtain ⟨r', hr', bare⟩ := step_alike (h.reaches before) (h'.reaches hq') still last
      exact ⟨r', hq'.tail hr', bare⟩

lemma bare_eq_done {r : Except Interrupt γ} {t : State} (h : p.bare = .ret r .done t) :
    ∃ u, p = .ret r .done u ∧ u.bare = t := by
  cases p with
  | work c k s => cases h
  | ret r' k s =>
      rw [bare] at h
      cases h
      exact ⟨s, rfl, rfl⟩

end Config

end Prototypal
