import Prototypal.Proofs.Ancestry.Hops
import Prototypal.Proofs.Changes
import Prototypal.Proofs.Checks
import Prototypal.Proofs.Evaluation
import Prototypal.Proofs.Quiet

/-!
# Raising the limits is conservative

The limits are there to end what would go on for too long: calls nested too deep, and walks along
too many ancestors.  A run that meets neither limit goes the same way if they are higher.

Two runs are compared, of which the second has other settings with limits at least as high.  A call
that is refused ends the first run, since without looking at outcomes a script cannot recover from a
fault; a walk that is cut goes on, but leaves a note.  So the two runs can differ only after one of
these, and the journal and the outcome of the first run show whether there was one.

* `Unhindered` — a run that met no limit, by its notes and its outcome.
* `Conserved` — the outcomes of the two runs: if the first is unhindered, the second is the same.
* `Conserves` — computations whose runs are so related, from every state.
* `conservation` — the discipline, and `limits_conservative`, the statement about evaluations.
-/

namespace Prototypal

/-- The scripts that neither read the settings nor fix them, nor look at outcomes. -/
def Fragment.unaware : Fragment :=
  { Fragment.full with observes := false, configures := false, settings := false }

instance : LE Limits :=
  ⟨fun l l' => l.callDepth ≤ l'.callDepth ∧ l.chainDepth ≤ l'.chainDepth⟩

instance (l l' : Limits) : Decidable (l ≤ l') :=
  inferInstanceAs (Decidable (l.callDepth ≤ l'.callDepth ∧ l.chainDepth ≤ l'.chainDepth))

/-- A state with other settings. -/
def State.fixing (s : State) (x : Settings) : State :=
  { s with fixed := some x }

def Event.isCut : Event → Bool
  | cut .. => true
  | _ => false

def Interrupt.isTooDeep : Interrupt → Bool
  | fault (.tooDeep _) => true
  | _ => false

def Outcome.isTooDeep {α : Type} : Outcome α → Bool
  | .ok _ _ => false
  | .error i _ => i.isTooDeep

/-- No walk was cut, by what was noted, and no call was refused, by how the run ended. -/
structure Unhindered {α : Type} (new : List Event) (r : Outcome α) : Prop where
  uncut : ∀ e ∈ new, e.isCut = false
  granted : Outcome.isTooDeep r = false

/-- A state that a run goes through after another one. -/
structure Proceeds (s t : State) (new : List Event) : Prop where
  journal : t.journal = new ++ s.journal
  callDepth : t.callDepth = s.callDepth
  fixed : t.fixed = s.fixed
  within : t.heap.Within .unaware

lemma Proceeds.trans {s t u : State} {older newer : List Event} (h : Proceeds s t older)
    (h' : Proceeds t u newer) : Proceeds s u (newer ++ older) where
  journal := by rw [h'.journal, h.journal, List.append_assoc]
  callDepth := h'.callDepth.trans h.callDepth
  fixed := h'.fixed.trans h.fixed
  within := h'.within

lemma Proceeds.limits {s t : State} {new : List Event} (h : Proceeds s t new) :
    t.limits = s.limits := by
  simp only [State.limits, State.settings, h.fixed]

variable {x : Settings} {n : Nat} {α β : Type}

/-- The outcomes of two runs, from a state and from that state with other settings. -/
def Conserved (x : Settings) (s : State) (r r' : Outcome α) : Prop :=
  ∃ new, Proceeds s (Outcome.final r) new ∧
    (Unhindered new r → r' = Outcome.after (·.fixing x) r)

namespace Conserved

variable {s t : State} {r r' : Outcome α}

/-- Both runs went the same way up to a later state, if the first was not cut before. -/
lemma later {older : List Event} {q : Outcome α} (proceeds : Proceeds s t older)
    (h : Conserved x t r q) (same : (∀ e ∈ older, e.isCut = false) → r' = q) :
    Conserved x s r r' := by
  obtain ⟨new, goes, hq⟩ := h
  refine ⟨new ++ older, proceeds.trans goes, fun ⟨uncut, granted⟩ => ?_⟩
  rw [same fun e he => uncut e (List.mem_append_right new he)]
  exact hq ⟨fun e he => uncut e (List.mem_append_left older he), granted⟩

/-- A change that both runs make on every way out. -/
lemma after {g : State → State} (notes : List Event) (h : Conserved x t r r')
    (goes : ∀ u new, Proceeds t u new → Proceeds s (g u) (notes ++ new))
    (commutes : ∀ u : State, g (u.fixing x) = (g u).fixing x) :
    Conserved x s (Outcome.after g r) (Outcome.after g r') := by
  obtain ⟨new, proceeds, same⟩ := h
  cases r with
  | ok a u =>
      refine ⟨notes ++ new, goes u new proceeds, fun ⟨uncut, granted⟩ => ?_⟩
      rw [same ⟨fun e he => uncut e (List.mem_append_right notes he), granted⟩]
      exact congrArg (EStateM.Result.ok a) (commutes u)
  | error i u =>
      refine ⟨notes ++ new, goes u new proceeds, fun ⟨uncut, granted⟩ => ?_⟩
      rw [same ⟨fun e he => uncut e (List.mem_append_right notes he), granted⟩]
      exact congrArg (EStateM.Result.error i) (commutes u)

end Conserved

/-- Computations whose runs, at a level of nesting, are conserved by settings with higher limits. -/
def Conserves (x : Settings) (n : Nat) (act : Run α) : Prop :=
  ∀ s : State, s.callDepth = n → s.limits ≤ x.policy.limits → s.heap.Within .unaware →
    Conserved x s (act s) (act (s.fixing x))

namespace Conserves

/-! ## Sequencing -/

lemma ofPure (a : α) : Conserves x n (pure a) :=
  fun _ _ _ hs => ⟨[], ⟨rfl, rfl, rfl, hs⟩, fun _ => rfl⟩

lemma ofThrow (i : Interrupt) : Conserves x n (throw i : Run α) :=
  fun _ _ _ hs => ⟨[], ⟨rfl, rfl, rfl, hs⟩, fun _ => rfl⟩

lemma note (e : Event) : Conserves x n (note e) :=
  fun _ _ _ hs => ⟨[e], ⟨rfl, rfl, rfl, hs⟩, fun _ => rfl⟩

lemma bind {act : Run α} {next : α → Run β} (hact : Conserves x n act)
    (hnext : ∀ a, Conserves x n (next a)) : Conserves x n (act >>= next) := by
  intro s hn hl hs
  obtain ⟨new, proceeds, same⟩ := hact s hn hl hs
  cases hr : act s with
  | ok a t =>
      rw [hr] at proceeds same
      rw [run_bind_ok hr]
      -- a value was reached, so no call was refused so far: the cuts alone decide
      refine .later proceeds (hnext a t (proceeds.callDepth.trans hn) (proceeds.limits ▸ hl)
        proceeds.within) fun uncut => ?_
      exact run_bind_ok (same ⟨uncut, rfl⟩)
  | error i t =>
      rw [hr] at proceeds same
      rw [run_bind_error hr]
      exact ⟨new, proceeds, fun ⟨uncut, granted⟩ => run_bind_error (same ⟨uncut, granted⟩)⟩

lemma payload (o : ObjectId) {next : Payload → Run α}
    (h : ∀ p, p.within .unaware = true → Conserves x n (next p)) :
    Conserves x n (payloadOf o >>= next) := by
  intro s hn hl hs
  have first : payloadOf o s = .ok (s.heap.payload o) s := rfl
  have second : payloadOf o (s.fixing x) = .ok (s.heap.payload o) (s.fixing x) := rfl
  rw [run_bind_ok first, run_bind_ok second]
  exact h _ (hs o) s hn hl hs

/-- Looking at a part of the state that the settings do not belong to. -/
lemma look {γ : Type} (part : State → γ) (unfixed : ∀ s : State, part (s.fixing x) = part s)
    {next : γ → Run β} (h : ∀ y, Conserves x n (next y)) :
    Conserves x n (do next (part (← get))) := by
  intro s hn hl hs
  have first : (do next (part (← get)) : Run β) s = next (part s) s := rfl
  have second : (do next (part (← get)) : Run β) (s.fixing x) =
      next (part (s.fixing x)) (s.fixing x) := rfl
  rw [first, second, unfixed]
  exact h (part s) s hn hl hs

/-! ## Basic operations -/

/-- A walk is conserved, since one that was not cut goes the same way with more hops. -/
lemma ofLookup {act : Run α} (k : Option Key) (lookup : Heap → Nat → α × Trail)
    (run : ∀ s : State, act s = .ok (lookup s.heap s.hops).1
      { s with journal := (lookup s.heap s.hops).2.notes k s.hops ++ s.journal })
    (outlasts : ∀ h i j, i ≤ j → (lookup h i).2.cuts = [] → lookup h j = lookup h i) :
    Conserves x n act := by
  intro s _ hl hs
  rw [run s]
  refine ⟨_, ⟨rfl, rfl, rfl, hs⟩, fun unhindered => ?_⟩
  -- each cut makes a note of its own, so a walk without such notes was not cut anywhere
  have uncut : (lookup s.heap s.hops).2.cuts = [] := by
    refine List.eq_nil_iff_forall_not_mem.mpr fun o ho => ?_
    have noted := unhindered.uncut (.cut o k s.hops) (List.mem_map_of_mem ho)
    cases noted
  have hops : s.hops ≤ (s.fixing x).hops := UInt64.le_iff_toNat_le.mp hl.2
  have same := outlasts s.heap s.hops (s.fixing x).hops hops uncut
  rw [run (s.fixing x)]
  simp only [State.fixing] at same ⊢
  simp [same, Trail.notes, uncut, Outcome.after]

lemma ofWalk {act : Run α} (h : Walk act) : Conserves x n act := by
  cases h with
  | resolve o k hk =>
      exact ofLookup (some k) (fun h hops => h.resolve? hops o k) (resolve_run hk)
        fun h _ _ le uncut => h.resolve?_of_le le o k uncut
  | resolveAbove o k =>
      cases hk : k.isReserved with
      | true =>
          rw [resolveAbove, if_pos hk]
          exact ofPure none
      | false =>
          exact ofLookup (some k) (fun h hops => h.resolveAbove? hops o k) (resolveAbove_run hk)
            fun h _ _ le uncut => h.resolveAbove?_of_le le o k uncut
  | isA o target =>
      exact ofLookup none (fun h hops => h.isA hops o target) (isA_run o target)
        fun h _ _ le uncut => h.isA_of_le le o target uncut

lemma ofBasic {act : Run α} (h : Basic .unaware act) : Conserves x n act := by
  intro s hn hl hs
  rcases h.local_or_walk s with hlocal | hwalk
  · obtain ⟨r, t, notes, hr⟩ := h.quiet s hs
    have hrun : act s = Outcome.ofExcept r
        (t.under (s.control.noting notes)) := hr.run s.control
    refine ⟨notes, ?_, fun _ => hlocal.unaware (some x)⟩
    rw [hrun]
    cases r with
    | ok a => exact ⟨rfl, rfl, hr.fixed, hr.within⟩
    | error y => exact ⟨rfl, rfl, hr.fixed, hr.within⟩
  · exact ofWalk hwalk s hn hl hs

/-! ## Checks -/

lemma sequential (x : Settings) (n : Nat) : Sequential fun act => Conserves x n act where
  bind := bind
  ofPure := ofPure
  look g := ofBasic (.look g)
  isA o target := ofWalk (.isA o target)
  violated _ := note _
  fail _ := ofThrow _

lemma checked (receiver : ObjectId) (r : Request) (produced : α → Option ObjectId) {act : Run α}
    (h : Conserves x n act) : Conserves x n (checked receiver r produced act) := by
  intro s hn hl hs
  have strictness : (s.fixing x).strictness = s.strictness := rfl
  rw [checked_run, checked_run, strictness]
  split
  · exact (sequential x n).checkedAt s.strictness receiver r produced h s hn hl hs
  · exact h s hn hl hs

/-! ## Boundaries and returns -/

lemma onEscape {act : Run α} {handle : Escape → Run α} (hact : Conserves x n act)
    (hhandle : ∀ e, Conserves x n (handle e)) : Conserves x n (onEscape act handle) := by
  intro s hn hl hs
  obtain ⟨new, proceeds, same⟩ := hact s hn hl hs
  simp only [Prototypal.onEscape]
  cases hr : act s with
  | ok a t =>
      rw [hr] at proceeds same
      refine ⟨new, proceeds, fun unhindered => ?_⟩
      rw [same unhindered]
      rfl
  | error i t =>
      rw [hr] at proceeds same
      cases i with
      | escape e =>
          refine .later proceeds (hhandle e t (proceeds.callDepth.trans hn) (proceeds.limits ▸ hl)
            proceeds.within) fun uncut => ?_
          rw [same ⟨uncut, rfl⟩]
          rfl
      | _ =>
          refine ⟨new, proceeds, fun unhindered => ?_⟩
          rw [same unhindered]
          rfl

lemma leaving {act : Run α} (m : Marker) (hact : Conserves x n act) :
    Conserves x n (ensure act (leaveBoundary m)) := by
  intro s hn hl hs
  rw [ensure_run, ensure_run]
  refine (hact s hn hl hs).after [.left m] ?_ fun _ => rfl
  intro u new proceeds
  exact ⟨congrArg _ proceeds.journal, proceeds.callDepth, proceeds.fixed, proceeds.within⟩

lemma land (e : Escape) (m : Marker) : Conserves x n (e.land m) := by
  unfold Escape.land
  split
  · split
    · exact bind (note _) fun _ => ofPure e.value
    · exact ofThrow _
  · split
    · exact bind (note _) fun _ => ofPure e.value
    · exact bind (note _) fun _ => ofThrow _

lemma attempt {body : ObjectId → Run ObjectId} (h : ∀ token, Conserves x n (body token)) :
    Conserves x n (attempt body) := by
  intro s hn hl hs
  have inside := onEscape (leaving s.nextMarker (h s.heap.nextId)) fun e => land e s.nextMarker
  have opened : Proceeds s s.opened [.entered s.nextMarker (s.boundaries.length + 1)] :=
    ⟨rfl, rfl, rfl, hs.add rfl⟩
  rw [attempt_opened, attempt_opened]
  exact .later opened (inside s.opened hn hl opened.within) fun _ => rfl

lemma returnLevels (levels : Nat) (v : ObjectId) :
    Conserves x n (returnLevels levels v : Run α) := by
  intro s _ _ hs
  rw [returnLevels_run, returnLevels_run]
  by_cases beyond : s.boundaries.length < max levels 1
  · simp only [State.fixing, beyond, if_true]
    exact ⟨[], ⟨rfl, rfl, rfl, hs⟩, fun _ => rfl⟩
  · simp only [State.fixing, beyond, if_false]
    exact ⟨[_], ⟨rfl, rfl, rfl, hs⟩, fun _ => rfl⟩

lemma returnTo (token v : ObjectId) : Conserves x n (returnTo token v : Run α) := by
  intro s _ _ hs
  rw [returnTo_run, returnTo_run]
  simp only [State.fixing]
  cases (s.heap.payload token).marker? with
  | none => exact ⟨[], ⟨rfl, rfl, rfl, hs⟩, fun _ => rfl⟩
  | some m =>
      by_cases active : s.boundaries.contains m = true
      · simp only [active, if_true]
        exact ⟨[_], ⟨rfl, rfl, rfl, hs⟩, fun _ => rfl⟩
      · simp only [active]
        exact ⟨[], ⟨rfl, rfl, rfl, hs⟩, fun _ => rfl⟩

/-! ## Nesting -/

/-- A call that was not refused is not refused by a higher limit. -/
lemma nested {act : Nat → Run α} (h : Conserves x (n + 1) (act (n + 1))) :
    Conserves x n (nested act) := by
  intro s hn hl hs
  subst hn
  have calls : s.limits.callDepth.toNat ≤ (s.fixing x).limits.callDepth.toNat :=
    UInt64.le_iff_toNat_le.mp hl.1
  have depth : (s.fixing x).callDepth = s.callDepth := rfl
  rw [nested_run, nested_run, depth]
  by_cases refused : s.limits.callDepth.toNat < s.callDepth + 1
  · rw [if_pos refused]
    -- the second run may well be granted the call, but then nothing is promised
    exact ⟨[], ⟨rfl, rfl, rfl, hs⟩, fun unhindered => nomatch unhindered.granted⟩
  · rw [if_neg refused, if_neg (by omega)]
    refine (h { s with callDepth := s.callDepth + 1 } rfl hl hs).after [] ?_ fun _ => rfl
    intro u new proceeds
    exact ⟨proceeds.journal, rfl, proceeds.fixed, proceeds.within⟩

lemma callDepth {next : Nat → Run α} (h : Conserves x n (next n)) :
    Conserves x n (do next (← get).callDepth) := by
  intro s hn hl hs
  subst hn
  exact h s rfl hl hs

end Conserves

def conservation (x : Settings) : Discipline .unaware where
  Keeps n act := Conserves x n act
  ofPure _ a := .ofPure a
  bind := Conserves.bind
  payload := Conserves.payload
  basic := Conserves.ofBasic
  boundaries _ h := Conserves.look State.boundaries (fun _ => rfl) h
  fixed hf := absurd hf nofun
  strictness _ _ _ _ h := Conserves.look State.strictness (fun _ => rfl) h
  setStrictness _ _ _ := fun _ _ _ hs => ⟨[], ⟨rfl, rfl, rfl, hs⟩, fun _ => rfl⟩
  fixSettings _ _ hx := absurd (Fragment.configures_of_allows hx) nofun
  returnLevels _ := Conserves.returnLevels
  returnTo _ := Conserves.returnTo
  raise _ _ _ _ := .ofThrow _
  attempt := Conserves.attempt
  settle _ _ _ _ h := h.onEscape fun _ => .ofThrow _
  observe hf := absurd hf nofun
  checked := Conserves.checked
  callDepth _ := Conserves.callDepth
  nested := Conserves.nested
  exhausted _ := .nested (.ofThrow _)

/-! ## Evaluations -/

/-- **Raising the limits is conservative.**  If neither a script nor a closure in the heap looks at
outcomes, fixes the settings or reads them, then an evaluation that notes no walk that was cut, and
that is not ended because calls were nested too deep, goes the same way under all settings with
limits at least as high: the outcome is the same, and so is the state in which it ends, journal
included. -/
theorem limits_conservative (i : Invocation) (e : Expr) (s : State) (x : Settings)
    (he : e.within .unaware = true) (hs : s.heap.Within .unaware)
    (higher : s.limits ≤ x.policy.limits) :
    ∃ new, (Outcome.final (eval enterCall i e s)).journal = new ++ s.journal ∧
      (Unhindered new (eval enterCall i e s) →
        eval enterCall i e (s.fixing x) =
          Outcome.after (·.fixing x) (eval enterCall i e s)) := by
  have h : Conserves x s.callDepth (eval enterCall i e) := (conservation x).keeps_evaluate i he
  obtain ⟨new, proceeds, same⟩ := h s rfl higher hs
  exact ⟨new, proceeds.journal, same⟩

/-- A call of an attribute that is found two hops up, and that calls another one in turn. -/
def callUpwards : Expr :=
  .block [
    .assign "o" (.nullary .root),
    .keyedValue .set (.var "o") (.name "f") (.function [.send (.var "o") (.name "g") []]),
    .keyedValue .set (.var "o") (.name "g") (.function [.null]),
    .send (.unary .child (.unary .child (.var "o"))) (.name "f") []]

/-- Settings that just allow it. -/
def tight : Settings :=
  { Settings.standard with policy := ⟨.off, ⟨2, 2⟩⟩ }

/-- The standard limits are higher, and make no difference. -/
theorem callUpwards_conserved :
    evaluate callUpwards (State.fixing (State.initial.fixing tight) .standard) =
      Outcome.after (·.fixing .standard) (evaluate callUpwards (State.initial.fixing tight)) := by
  obtain ⟨new, journal, same⟩ := limits_conservative .outside callUpwards
    (State.initial.fixing tight) .standard rfl (Heap.within_initial _) (by decide)
  have uncut : ∀ e ∈ (Outcome.final (evaluate callUpwards (State.initial.fixing tight))).journal,
      e.isCut = false := by decide +kernel
  have granted : Outcome.isTooDeep (evaluate callUpwards (State.initial.fixing tight)) = false := by
    decide +kernel
  have all : (Outcome.final (evaluate callUpwards (State.initial.fixing tight))).journal = new :=
    journal.trans (List.append_nil new)
  exact same ⟨all ▸ uncut, granted⟩

end Prototypal
