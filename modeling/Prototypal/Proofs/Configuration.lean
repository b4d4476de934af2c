import Prototypal.Proofs.Machine.Unwinding
import Prototypal.Proofs.Machine.Writes

/-!
# The settings are fixed once

The settings of a session are the standard ones until they are fixed, and then the fixed ones for
good.  The strictness is kept apart from them: fixing the settings sets it, and it can be set again
at any time.  Nothing else that a script does touches either.

* `State.Shows`, `State.Reflects` — what scripts see of the settings and the strictness, and what it
  has to do with the changes that were made.
* `State.Governed`, `State.GovernedBy` — what a list of changes makes of the settings and the
  strictness between two states.  Settings are fixed only where they are free.
* `Elementary.keeps_or_turns` — an operation leaves both alone, or it is a change of the fragment.
* `Config.Reaches.governed`, `eval_governed`, `session_governed` — so between the beginning of a run
  and any moment of it there are only changes that the fragment allows.
* `Moment.Sets`, `Moment.History` — the moments of a session at which a change is made, and the
  changes made on the way from one moment to another, newest first.
* `Moment.AboutTo.refused` — the refusal to fix the settings again goes past all frames.
* `settings_fixed_once` — the statement about sessions.
-/

namespace Prototypal

namespace Setting

/-- The strictness in force after a change. -/
def level : Setting → Strictness
  | settings x => x.policy.strictness
  | strictness l => l

/-- The settings that a change fixes, if it fixes any. -/
def fixed? : Setting → Option Settings
  | settings x => some x
  | strictness _ => none

end Setting

/-- What scripts see of the settings and of the strictness. -/
structure State.Shows (s : State) (fixed : Option Settings) (l : Strictness) : Prop where
  isConfigured : ∀ i, Nullary.isConfigured.run i s = .ok (.host (.bool fixed.isSome)) s
  settings : ∀ i, Nullary.settings.run i s = .ok (.host (fixed.getD .standard).toJson) s
  limits : s.limits = (fixed.getD .standard).policy.limits
  strictness : ∀ i, Nullary.strictness.run i s = .ok (.host (.text l.name)) s
  /-- Accesses are checked as strictly as the strictness demands. -/
  checked : ∀ {α : Type} (o : ObjectId) (r : Request) (produced : α → Option ObjectId)
    (act : Run α), checked o r produced act s = checkedBy l o r produced act s

/-- What the changes of a session, newest first, have made of the defaults.  The settings that are
fixed are those of the one change that fixed any, and the strictness is that of the newest one. -/
structure State.Reflects (s : State) (us : List Setting) : Prop where
  one : us.filterMap Setting.fixed? = s.fixed.toList
  shows : s.Shows (us.findSome? Setting.fixed?) ((us.head?.map Setting.level).getD .off)

lemma State.shows (s : State) : s.Shows s.fixed s.strictness where
  isConfigured _ := rfl
  settings _ := rfl
  limits := rfl
  strictness _ := rfl
  checked o r produced act := by
    rw [checked_eq_look]
    rfl

/-! ## Changes in a row -/

/-- What changes, newest first, make of the settings and the strictness between two states.  There
is room for one change that fixes settings, and only if they are free. -/
structure State.Governed (us : List Setting) (s t : State) : Prop where
  fixed : us.filterMap Setting.fixed? ++ s.fixed.toList = t.fixed.toList
  strictness : t.strictness = (us.head?.map Setting.level).getD s.strictness

namespace State.Governed

variable {s t r : State} {us vs : List Setting}

/-- Where both are left alone, there was no change. -/
lemma still (fixed : t.fixed = s.fixed) (strictness : t.strictness = s.strictness) :
    Governed [] s t :=
  ⟨congrArg Option.toList fixed.symm, strictness⟩

lemma trans (h : Governed us s t) (h' : Governed vs t r) : Governed (vs ++ us) s r where
  fixed := by rw [List.filterMap_append, List.append_assoc, h.fixed, h'.fixed]
  strictness := by
    rw [h'.strictness, h.strictness]
    cases vs <;> rfl

/-- The settings that are fixed are those of the one change that fixed any, if they were free. -/
lemma findSome? (h : Governed us s t) (free : s.fixed = none) :
    us.findSome? Setting.fixed? = t.fixed := by
  have fixed := h.fixed
  rw [free, Option.toList_none, List.append_nil] at fixed
  rw [← List.head?_filterMap, fixed]
  cases t.fixed <;> rfl

/-- From the beginning of a session, scripts see what the changes have made of the defaults. -/
lemma reflects (h : Governed us .initial t) : t.Reflects us := by
  refine ⟨(List.append_nil _).symm.trans h.fixed, ?_⟩
  have strictness : t.strictness = (us.head?.map Setting.level).getD .off := h.strictness
  rw [h.findSome? rfl, ← strictness]
  exact t.shows

end State.Governed

/-- Only changes that a fragment allows lie between two states. -/
def State.GovernedBy (f : Fragment) (s t : State) : Prop :=
  ∃ us, (∀ u ∈ us, f.allows u = true) ∧ Governed us s t

namespace State.GovernedBy

variable {f : Fragment} {s t r : State}

lemma still (fixed : t.fixed = s.fixed) (strictness : t.strictness = s.strictness) :
    GovernedBy f s t :=
  ⟨[], List.forall_mem_nil _, .still fixed strictness⟩

lemma trans (h : GovernedBy f s t) (h' : GovernedBy f t r) : GovernedBy f s r := by
  obtain ⟨us, allowed, before⟩ := h
  obtain ⟨vs, allowed', now⟩ := h'
  exact ⟨vs ++ us, List.forall_mem_append.mpr ⟨allowed', allowed⟩, before.trans now⟩

end State.GovernedBy

/-! ## Operations -/

/-- A document that cannot be read fixes nothing, and one that can is refused when the settings have
been fixed before. -/
lemma configure_run (i : Invocation) (document : String) (s : State) :
    (Nullary.configure document).run i s =
      match Settings.parse? document, s.fixed with
      | none, _ => .ok (.host .null) s
      | some _, some _ => .error .reconfigured s
      | some x, none =>
          .ok (.host .null) { s with fixed := some x, strictness := x.policy.strictness } := by
  rw [Nullary.run]
  cases Settings.parse? document with
  | none => rfl
  | some x =>
      have run := fixSettings_run x s
      cases taken : s.fixed with
      | none =>
          rw [taken] at run
          exact run_bind_ok run
      | some y =>
          rw [taken] at run
          exact run_bind_error run

/-- Only the name of a level of strictness sets it. -/
lemma setStrictness_run (i : Invocation) (name : String) (s : State) :
    (Nullary.setStrictness name).run i s =
      match Strictness.parse name with
      | .ok l => .ok (.host .null) { s with strictness := l }
      | .error _ => .ok (.host .null) s := by
  rw [Nullary.run]
  cases Strictness.parse name <;> rfl

lemma Basic.keeps_settings {f : Fragment} {α : Type} {act : Run α} (h : Basic f act) (s : State) :
    (Outcome.final (act s)).fixed = s.fixed ∧
      (Outcome.final (act s)).strictness = s.strictness := by
  obtain ⟨r, t, notes, quiet⟩ := h.full.quiet s s.heap.within_full
  have run : act s = Outcome.ofExcept r
      (t.under (s.control.noting notes)) := quiet.run s.control
  have final : Outcome.final (act s) = t.under (s.control.noting notes) := by
    rw [run]
    cases r <;> rfl
  rw [final]
  exact ⟨quiet.fixed, rfl⟩

/-- An operation makes a change, in a state. -/
inductive Turns (s : State) : {α : Type} → Run α → Setting → Prop where
  | settings (x : Settings) (free : s.fixed = none) : Turns s (fixSettings x) (.settings x)
  | strictness (l : Strictness) : Turns s (setStrictness l) (.strictness l)

lemma Turns.governed {α : Type} {act : Run α} {s : State} {u : Setting} (h : Turns s act u) :
    State.Governed [u] s (Outcome.final (act s)) := by
  cases h with
  | settings x free =>
      rw [fixSettings_run, free]
      refine ⟨?_, rfl⟩
      rw [free]
      rfl
  | strictness l => exact ⟨rfl, rfl⟩

/-- **An operation leaves settings and strictness alone, or it is a change,** one that the fragment
allows. -/
theorem Elementary.keeps_or_turns {f : Fragment} {α : Type} {act : Run α} (h : Elementary f act)
    (s : State) :
    ((Outcome.final (act s)).fixed = s.fixed ∧
      (Outcome.final (act s)).strictness = s.strictness) ∨
    ∃ u, f.allows u = true ∧ Turns s act u := by
  cases h with
  | basic h => exact .inl (h.keeps_settings s)
  | look | violated | raise => exact .inl ⟨rfl, rfl⟩
  | setStrictness hl => exact .inr ⟨_, hl, .strictness _⟩
  | @fixSettings x hx =>
      cases taken : s.fixed with
      | none => exact .inr ⟨_, hx, .settings x taken⟩
      | some y =>
          -- the settings have been fixed already, and this is refused
          rw [fixSettings_run, taken]
          exact .inl ⟨taken, rfl⟩
  | returnLevels n v =>
      rw [returnLevels_run]
      split
      · exact .inl ⟨rfl, rfl⟩
      · exact .inl ⟨rfl, rfl⟩
  | returnTo token v =>
      rw [returnTo_run]
      split
      · exact .inl ⟨rfl, rfl⟩
      · split
        · exact .inl ⟨rfl, rfl⟩
        · exact .inl ⟨rfl, rfl⟩

namespace Config

variable {f : Fragment} {γ : Type} {p q : Config f γ}

/-- A step leaves settings and strictness alone, or it carries out an operation that is a change. -/
lemma keeps_or_turns (hstep : p.step = some q) :
    (q.state.fixed = p.state.fixed ∧ q.state.strictness = p.state.strictness) ∨
    ∃ (α : Type) (act : Run α) (h : Elementary f act) (k : Frames f α γ) (s : State) (u : Setting),
      p = .work (.op act h) k s ∧ q = .ofOutcome (act s) k ∧ f.allows u = true ∧ Turns s act u := by
  cases moves_of_step hstep with
  | elementary act h k s =>
      rcases h.keeps_or_turns s with kept | ⟨u, allowed, turns⟩
      · rw [state_ofOutcome]
        exact .inl kept
      · exact .inr ⟨_, act, h, k, s, u, rfl, rfl, allowed, turns⟩
  | idle state =>
      rw [state]
      exact .inl ⟨rfl, rfl⟩
  | opened state =>
      rw [state]
      exact .inl ⟨rfl, rfl⟩
  | left m notes plain state =>
      rw [state]
      exact .inl ⟨rfl, rfl⟩
  | deeper state =>
      rw [state]
      exact .inl ⟨rfl, rfl⟩
  | shallower depth state =>
      rw [state]
      exact .inl ⟨rfl, rfl⟩

lemma governed_step (hstep : p.step = some q) : State.GovernedBy f p.state q.state := by
  rcases keeps_or_turns hstep with
    ⟨fixed, strictness⟩ | ⟨α, act, h, k, s, u, rfl, rfl, allowed, turns⟩
  · exact .still fixed strictness
  · rw [state_ofOutcome]
    exact ⟨[u], List.forall_mem_singleton.mpr allowed, turns.governed⟩

/-- Along a run, only changes that the fragment allows are made. -/
lemma Reaches.governed (h : p.Reaches q) : State.GovernedBy f p.state q.state := by
  induction h with
  | refl => exact .still rfl rfl
  | tail _ last ih => exact ih.trans (governed_step last)

end Config

/-! ## Evaluations -/

lemma eval_governed {f : Fragment} {e : Expr} (he : e.within f = true) (i : Invocation) {s : State}
    (hs : s.heap.Within f) :
    State.GovernedBy f s (Outcome.final (eval enterCall i e s)) := by
  obtain ⟨c, hc⟩ := exists_code he s.callDepth i
  have governed := (hc.ends hs).governed
  rw [Config.state_ofOutcome] at governed
  exact governed

/-- The steps of a session make only changes that their fragment allows. -/
lemma session_governed {f : Fragment} (shown : Event → Bool) {es : List Expr}
    (within : allWithin f es = true) {s : State} (hs : s.heap.Within f) :
    State.GovernedBy f s (es.foldl (fun t e => (runStep shown e t).2) s) := by
  induction es generalizing s with
  | nil => exact .still rfl rfl
  | cons e es ih =>
      simp only [allWithin, Bool.and_eq_true] at within
      obtain ⟨he, hes⟩ := within
      let s₀ : State := { s with journal := [], emitted := [] }
      have final : Outcome.final (evaluate e s₀) = (runStep shown e s).2 := by
        obtain ⟨r, run⟩ := Moment.runStep_state shown e s
        rw [run]
        cases r <;> rfl
      have returned : Returned f s₀ (evaluate e s₀) :=
        (containment f).keeps_evaluate .outside he s₀ rfl hs
      have stays : (runStep shown e s).2.heap.Within f := final ▸ returned.within
      have begun : State.GovernedBy f s s₀ := .still rfl rfl
      have now : State.GovernedBy f s₀ (runStep shown e s).2 :=
        final ▸ eval_governed he .outside hs
      exact (begun.trans now).trans (ih hes stays)

/-! ## Moments -/

namespace Moment

variable {es : List Expr} {p q r : Moment} {us : List Setting} {u : Setting} {α : Type}
  {act : Run α}

/-- A change is to be made next. -/
inductive Sets (p : Moment) : Setting → Prop where
  | settings (x : Settings) (next : p.AboutTo (fixSettings x)) (free : p.now.state.fixed = none) :
      Sets p (.settings x)
  | strictness (l : Strictness) (next : p.AboutTo (setStrictness l)) : Sets p (.strictness l)

/-- The changes made on the way from one moment to another, newest first. -/
inductive History (p : Moment) : List Setting → Moment → Prop where
  | empty : History p [] p
  | other {us : List Setting} {q r : Moment} (before : History p us q) (none : ∀ u, ¬ q.Sets u)
      (step : q.Step r) : History p us r
  | change {us : List Setting} {q r : Moment} (before : History p us q) (u : Setting)
      (sets : q.Sets u) (step : q.Step r) : History p (u :: us) r

/-- What is to be done next is a change. -/
lemma Sets.ofTurns (next : p.AboutTo act) (turns : Turns p.now.state act u) : p.Sets u := by
  cases turns with
  | settings x free => exact .settings x next free
  | strictness l => exact .strictness l next

lemma Sets.exists_turns (sets : p.Sets u) :
    ∃ act : Run Unit, p.AboutTo act ∧ Turns p.now.state act u := by
  cases sets with
  | settings x next free => exact ⟨_, next, .settings x free⟩
  | strictness l next => exact ⟨_, next, .strictness l⟩

/-- An operation that is to be carried out next leads to its outcome. -/
lemma Step.now_of_aboutTo (step : p.Step q) (h : p.AboutTo act) :
    ∃ frames : Frames .full α Value, q = ⟨.ofOutcome (act p.now.state) frames, p.rest⟩ := by
  obtain ⟨op, frames, s, now⟩ := h
  cases step with
  | machine es hstep =>
      obtain rfl := now
      obtain rfl := Option.some.inj hstep
      exact ⟨frames, rfl⟩
  | next r t es hc => cases now

lemma Step.state_of_aboutTo (step : p.Step q) (h : p.AboutTo act) :
    q.now.state = Outcome.final (act p.now.state) := by
  obtain ⟨frames, rfl⟩ := step.now_of_aboutTo h
  exact Config.state_ofOutcome _ frames

/-! ## Steps -/

lemma Step.change (step : p.Step q) (sets : p.Sets u) :
    State.Governed [u] p.now.state q.now.state := by
  obtain ⟨act, next, turns⟩ := sets.exists_turns
  rw [step.state_of_aboutTo next]
  exact turns.governed

/-- A step that makes no change leaves both alone. -/
lemma Step.keeps (step : p.Step q) (none : ∀ u, ¬ p.Sets u) :
    q.now.state.fixed = p.now.state.fixed ∧
      q.now.state.strictness = p.now.state.strictness := by
  cases step with
  | next r t es hc => exact ⟨rfl, rfl⟩
  | machine es hstep =>
      rcases Config.keeps_or_turns hstep with kept | ⟨α, act, h, k, s, u, rfl, rfl, -, turns⟩
      · exact kept
      · exact absurd (.ofTurns ⟨h, k, s, rfl⟩ turns) (none u)

/-! ## Sessions -/

lemma History.reaches (h : p.History us q) : p.Reaches q := by
  induction h with
  | empty => exact .refl
  | other before none step ih => exact ih.tail step
  | change before u sets step ih => exact ih.tail step

lemma Reaches.exists_history (h : p.Reaches q) : ∃ us, p.History us q := by
  induction h with
  | refl => exact ⟨[], .empty⟩
  | @tail q r _ last ih =>
      obtain ⟨us, before⟩ := ih
      by_cases sets : ∃ u, q.Sets u
      · obtain ⟨u, hu⟩ := sets
        exact ⟨u :: us, before.change u hu last⟩
      · exact ⟨us, before.other (not_exists.mp sets) last⟩

/-- The settings and the strictness are what the changes so far have made of them. -/
lemma History.governed (h : p.History us q) : State.Governed us p.now.state q.now.state := by
  induction h with
  | empty => exact .still rfl rfl
  | other before none step ih =>
      obtain ⟨fixed, strictness⟩ := step.keeps none
      exact ih.trans (.still fixed strictness)
  | change before u sets step ih => exact ih.trans (step.change sets)

lemma Reaches.fixed (h : p.Reaches q) {x : Settings} (hx : p.now.state.fixed = some x) :
    q.now.state.fixed = some x := by
  obtain ⟨us, history⟩ := h.exists_history
  have fixed := history.governed.fixed
  rw [hx] at fixed
  cases hq : q.now.state.fixed with
  | none => simp [hq] at fixed
  | some y =>
      -- a change that fixed settings would make one more than there is room for
      obtain ⟨-, rfl⟩ : us.filterMap Setting.fixed? = [] ∧ x = y := by
        simpa [hq, List.append_eq_singleton_iff] using fixed
      rfl

end Moment

/-! ## The refusal -/

/-- To fix the settings again is refused, and the refusal ends the whole step. -/
lemma Moment.AboutTo.refused {p : Moment} {x y : Settings} (next : p.AboutTo (fixSettings x))
    (taken : p.now.state.fixed = some y) :
    ∃ t, p.Reaches ⟨.ret (.error .reconfigured) .done t, p.rest⟩ ∧ t.fixed = some y ∧
      t.strictness = p.now.state.strictness := by
  obtain ⟨q, step⟩ := next.exists_step
  obtain ⟨frames, rfl⟩ := step.now_of_aboutTo next
  rw [fixSettings_run, taken] at step
  have noEscape : ∀ e, Interrupt.reconfigured ≠ .escape e := by simp
  obtain ⟨t, unwound, same⟩ := unwinds frames p.now.state noEscape (.inr rfl)
  have onward := (Moment.CarefullyReaches.ofMachine unwound p.rest).reaches
  refine ⟨t, .head step onward, ?_, ?_⟩
  · rw [same]
    exact taken
  · rw [same]

lemma Strictness.ofCode_code (l : Strictness) : ofCode l.code = l := by
  cases l <;> rfl

/-- What settings and strictness are at the moments of a session. -/
structure Moment.Configured (es : List Expr) : Prop where
  /-- Every moment has a history of changes. -/
  traced : ∀ p, (start es).Reaches p ↔ ∃ us, (start es).History us p
  reflects : ∀ p us, (start es).History us p → p.now.state.Reflects us
  /-- Once settings are fixed they are so at all later moments. -/
  fixed : ∀ (p q r : Moment) (x : Settings), p.AboutTo (fixSettings x) →
    p.now.state.fixed = none → p.Step q → q.Reaches r →
      r.now.state.fixed = some x ∧ r.now.state.settings = x
  /-- To fix settings again ends the whole step with a refusal. -/
  refused : ∀ (p : Moment) (x y : Settings), p.AboutTo (fixSettings x) →
    p.now.state.fixed = some y →
      ∃ t, p.Reaches ⟨.ret (.error .reconfigured) .done t, p.rest⟩ ∧ t.fixed = some y ∧
        t.strictness = p.now.state.strictness
  /-- No step but the changes touches either. -/
  untouched : ∀ p q : Moment, p.Step q → (∀ u, ¬ p.Sets u) →
    q.now.state.fixed = p.now.state.fixed ∧ q.now.state.strictness = p.now.state.strictness

lemma Moment.configured (es : List Expr) : Configured es where
  traced _ := ⟨Reaches.exists_history, fun ⟨_, history⟩ => history.reaches⟩
  reflects _ _ history := history.governed.reflects
  fixed p q r x next free step later := by
    have governed := step.change (.settings x next free)
    have fixed : q.now.state.fixed = some x := (governed.findSome? free).symm
    have still := later.fixed fixed
    refine ⟨still, ?_⟩
    rw [State.settings, still]
    rfl
  refused _ _ _ := AboutTo.refused
  untouched _ _ := Step.keeps

/-- **The settings are fixed once, and no change of the strictness is lost or made up.**  The states
in which the steps of a session end are among its moments.  Every moment has a history of changes.
The settings that were fixed by then are those of the one change in it that fixed any, and the
standard ones hold as long as there is none; the strictness is that of the newest change, whichever
it was, and off if there is none.  To fix settings again ends the whole step with a refusal, and
leaves settings and strictness as they were.  No step but the changes touches either.

The changes are those that scripts ask for.  A script fixes the settings with a document that can be
read, and sets the strictness by name.  Where neither a script nor a closure in the heap asks for
other changes than those of a fragment, the evaluation makes no others, at none of its moments; if
the fragment has no changes at all, both stay as they are.  The same holds of a session as a
whole. -/
theorem settings_fixed_once (shown : Event → Bool) (es : List Expr) :
    (∀ past rest, es = past ++ rest →
      ∃ r, (Moment.start es).Reaches
        ⟨.ret r .done (past.foldl (fun s e => (runStep shown e s).2) .initial), rest⟩) ∧
    Moment.Configured es ∧
    (∀ l : Strictness, .ofCode l.code = l) ∧
    (∀ (i : Invocation) (document : String) (s : State),
      eval enterCall i (.nullary (.configure document)) s =
        match Settings.parse? document, s.fixed with
        | none, _ => .ok (.host .null) s
        | some _, some _ => .error .reconfigured s
        | some x, none =>
            .ok (.host .null) { s with fixed := some x, strictness := x.policy.strictness }) ∧
    (∀ (i : Invocation) (name : String) (s : State),
      eval enterCall i (.nullary (.setStrictness name)) s =
        match Strictness.parse name with
        | .ok l => .ok (.host .null) { s with strictness := l }
        | .error _ => .ok (.host .null) s) ∧
    (∀ e, evaluate e = eval enterCall .outside e) ∧
    (∀ (f : Fragment) (i : Invocation) (e : Expr) (s : State), e.within f = true →
      s.heap.Within f →
        State.GovernedBy f s (Outcome.final (eval enterCall i e s)) ∧
        (∃ c : Code f Value, c.Realizes s.callDepth (eval enterCall i e)) ∧
        ∀ c : Code f Value, c.Realizes s.callDepth (eval enterCall i e) →
          (c.start s).Reaches (.ofOutcome (eval enterCall i e s) .done) ∧
            ∀ p, (c.start s).Reaches p → State.GovernedBy f s p.state) ∧
    ∀ (f : Fragment) (past : List Expr), allWithin f past = true →
      ∃ us, (∀ u ∈ us, f.allows u = true) ∧
        (past.foldl (fun s e => (runStep shown e s).2) State.initial).Reflects us := by
  refine ⟨fun past rest => Moment.start_reaches_after shown, Moment.configured es,
    Strictness.ofCode_code, configure_run, setStrictness_run, fun e => rfl, fun f i e s he hs =>
    ⟨eval_governed he i hs, exists_code he s.callDepth i, fun c hc =>
      ⟨hc.ends hs, fun p reached => reached.governed⟩⟩, fun f past within => ?_⟩
  have unwritten : State.initial.heap.Within f := Heap.within_initial f
  obtain ⟨us, allowed, governed⟩ := session_governed shown within unwritten
  exact ⟨us, allowed, governed.reflects⟩

end Prototypal
