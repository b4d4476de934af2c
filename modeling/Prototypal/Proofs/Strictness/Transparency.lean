import Prototypal.Proofs.Strictness.Twin

/-!
# Warnings change nothing

A script that does not ask for the strictness cannot find out whether violations are noted: it ends
the same way, in the same state, as if nothing were checked.  The journals differ by what the checks
themselves noted.

* `OnlyWarns` — computations that leave the state alone, but for warnings of a check.  The checks of
  an access are of this kind, since they only look (`OnlyWarns.ofInspection`).
* `CheckNotes`, `Annotated` — the notes of one check, and a journal into which the notes of checks
  have been inserted.
* `transparency` — the pairing of a run that notes violations with one that checks nothing.
* `warn_transparent` — the statement about evaluations.
-/

namespace Prototypal

/-- The warnings that a check makes: about a broken rule, or about the end of its walk along the
ancestors of a value. -/
def Event.IsCheckWarning (e : Event) : Prop :=
  e.level = .warn ∧ (e.component = .validation ∨ ∃ o limit, e = .cut o none limit)

/-- Computations that leave the state alone, but for warnings of a check. -/
def OnlyWarns {α : Type} (act : Run α) : Prop :=
  ∀ s, ∃ a notes, (∀ e ∈ notes, e.IsCheckWarning) ∧
    act s = .ok a { s with journal := notes ++ s.journal }

namespace OnlyWarns

variable {α β : Type}

lemma ofPure (a : α) : OnlyWarns (pure a) := by
  intro s
  exact ⟨a, [], by simp, rfl⟩

lemma bind {act : Run α} {next : α → Run β} (hact : OnlyWarns act)
    (hnext : ∀ a, OnlyWarns (next a)) : OnlyWarns (act >>= next) := by
  intro s
  obtain ⟨a, older, holder, first⟩ := hact s
  obtain ⟨b, newer, hnewer, second⟩ := hnext a { s with journal := older ++ s.journal }
  refine ⟨b, newer ++ older, ?_, ?_⟩
  · intro e he
    rcases List.mem_append.mp he with he | he
    · exact hnewer e he
    · exact holder e he
  · rw [run_bind_ok first, second, List.append_assoc]

lemma isA (o target : ObjectId) : OnlyWarns (isA o target) := by
  intro s
  refine ⟨_, _, ?_, isA_run o target s⟩
  intro e he
  obtain ⟨x, -, rfl⟩ := List.mem_map.mp he
  exact ⟨rfl, .inr ⟨x, s.hops, rfl⟩⟩

lemma ofInspection {act : Run α} (h : Inspection act) : OnlyWarns act := by
  induction h with
  | ofPure a => exact ofPure a
  | look g =>
      intro s
      exact ⟨g s.heap s.names, [], by simp, rfl⟩
  | isA o target => exact isA o target
  | bind _ _ hact hnext => exact hact.bind hnext

lemma report (v : Violation) : OnlyWarns (report .warn v) := by
  intro s
  refine ⟨(), [.violated v], ?_, rfl⟩
  intro e he
  rw [List.mem_singleton.mp he]
  exact ⟨rfl, .inl rfl⟩

lemma reportBefore (receiver : ObjectId) (r : Request) :
    OnlyWarns (reportBefore .warn receiver r) := by
  refine (ofInspection (.checkBefore receiver r)).bind fun vs => ?_
  induction vs with
  | nil => exact ofPure ()
  | cons v vs ih => exact (report v).bind fun _ => ih

lemma reportAfter (receiver : ObjectId) (r : Request) (produced : Option ObjectId) :
    OnlyWarns (reportAfter .warn receiver r produced) := by
  refine (ofInspection (.checkAfter receiver r produced)).bind fun v => ?_
  cases v with
  | none => exact ofPure ()
  | some v => exact report v

end OnlyWarns

/-! ## Journals -/

/-- The computations that check an access and note what is wrong with it. -/
inductive WarningCheck : Run Unit → Prop where
  | before (receiver : ObjectId) (r : Request) : WarningCheck (reportBefore .warn receiver r)
  | after (receiver : ObjectId) (r : Request) (produced : Option ObjectId) :
      WarningCheck (reportAfter .warn receiver r produced)

lemma WarningCheck.onlyWarns {check : Run Unit} (h : WarningCheck check) : OnlyWarns check := by
  cases h with
  | before receiver r => exact OnlyWarns.reportBefore receiver r
  | after receiver r produced => exact OnlyWarns.reportAfter receiver r produced

/-- Notes that a check of an access made, all of them warnings. -/
structure CheckNotes (notes : List Event) : Prop where
  origin : ∃ check s, WarningCheck check ∧ check s = .ok () { s with journal := notes ++ s.journal }
  warnings : ∀ e ∈ notes, e.IsCheckWarning

/-- The first notes are the second ones, with notes of checks inserted among them. -/
inductive Annotated : List Event → List Event → Prop where
  | nil : Annotated [] []
  | both {new new' : List Event} (e : Event) (he : e.component ≠ .validation)
      (h : Annotated new new') : Annotated (e :: new) (e :: new')
  | check {notes new new' : List Event} (hnotes : CheckNotes notes) (h : Annotated new new') :
      Annotated (notes ++ new) new'

namespace Annotated

lemma same {es : List Event} (h : ∀ e ∈ es, e.component ≠ .validation) : Annotated es es := by
  induction es with
  | nil => exact nil
  | cons e es ih =>
      exact both e (h e List.mem_cons_self) (ih fun x hx => h x (List.mem_cons_of_mem e hx))

lemma append {newer newer' older older' : List Event} (h : Annotated newer newer')
    (holder : Annotated older older') : Annotated (newer ++ older) (newer' ++ older') := by
  induction h with
  | nil => exact holder
  | both e he _ ih => exact both e he ih
  | check hnotes _ ih =>
      rw [List.append_assoc]
      exact check hnotes ih

end Annotated

/-- Violations are noted in the first run, and nothing is checked in the second. -/
def transparency : Pairing .blind where
  level := .off
  Notes := Annotated
  Stops _ _ := False
  same := Annotated.same
  append := Annotated.append
  stops_later _ h := h
  stops_before h := h
  observes _ _ _ h := h
  strictness := rfl
  configures := rfl

namespace Twins

variable {n : Nat} {α : Type}

/-- A check is paired with doing nothing. -/
lemma check_nothing {check : Run Unit} (h : WarningCheck check) :
    Twins transparency n check (pure ()) := by
  intro s j _ _ hs
  obtain ⟨_, notes, warnings, run⟩ := h.onlyWarns s
  have inserted : Annotated notes [] := by
    have hnotes : CheckNotes notes := ⟨⟨check, s, h, run⟩, warnings⟩
    simpa using Annotated.check hnotes .nil
  rw [run]
  exact .together notes [] ⟨rfl, rfl, rfl, hs⟩ inserted rfl

lemma checked_unchecked (receiver : ObjectId) (r : Request) (produced : α → Option ObjectId)
    {act : Run α} (h : Twins transparency n act act) :
    Twins transparency n (checked receiver r produced act) (checked receiver r produced act) := by
  have around : Twins transparency n (checkedAt .warn receiver r produced act)
      (pure () >>= fun _ => act >>= fun a => pure () >>= fun _ => pure a) :=
    (check_nothing (.before receiver r)).bind fun _ => h.bind fun a =>
      (check_nothing (.after receiver r (produced a))).bind fun _ => ofPure a
  -- doing nothing around an access is the bare access
  simp only [pure_bind, bind_pure] at around
  intro s j hn hl hs
  rw [checked_run, checked_run, hl]
  exact around s j hn hl hs

end Twins

/-! ## Evaluations -/

/-- **Warnings change nothing.**  If neither a script nor a closure in the heap asks for the
strictness or changes it, then the script goes the same way whether violations are noted or nothing
is checked: the outcome is the same, and the state in which it ends differs in the strictness in
force and in the journal only.  In the journal, notes of checks are inserted, all of them
warnings. -/
theorem warn_transparent (i : Invocation) (e : Expr) (s : State) (he : e.within .blind = true)
    (hs : s.heap.Within .blind) :
    ∃ new new', Annotated new new' ∧
      (Outcome.final (eval enterCall i e { s with strictness := .warn })).journal =
        new ++ s.journal ∧
      eval enterCall i e { s with strictness := .off } =
        Outcome.twin (eval enterCall i e { s with strictness := .warn }) .off
          (new' ++ s.journal) := by
  have h : Twins transparency s.callDepth (eval enterCall i e) (eval enterCall i e) :=
    (transparency.discipline Twins.checked_unchecked).keeps_evaluate i he
  rcases h { s with strictness := .warn } s.journal rfl rfl hs with
    ⟨new, new', continues, notes, twin⟩ | ⟨_, _, _, _, never, _⟩
  · exact ⟨new, new', notes, continues.journal, twin⟩
  · exact absurd never id

/-- A write under a bad key, in a boundary that is then left by a return. -/
def nullKeyed : Expr :=
  .attempt "try" [
    .keyedValue .set (.nullary .root) (.object .null) .null,
    .unary (.returnLevels 1) (.nullary .root)]

/-- The journal of the warned run has one note more, about the key. -/
theorem nullKeyed_transparent :
    ∃ newer older,
      (Outcome.final (evaluate nullKeyed { State.initial with strictness := .warn })).journal =
        newer ++ .violated ⟨.set, 3, .nullKey⟩ :: older ∧
      Annotated (newer ++ .violated ⟨.set, 3, .nullKey⟩ :: older) (newer ++ older) ∧
      evaluate nullKeyed { State.initial with strictness := .off } =
        Outcome.twin (evaluate nullKeyed { State.initial with strictness := .warn }) .off
          (newer ++ older) := by
  obtain ⟨new, new', annotated, journal, twin⟩ :=
    warn_transparent .outside nullKeyed State.initial rfl (Heap.within_initial _)
  have warned :
      (Outcome.final (evaluate nullKeyed { State.initial with strictness := .warn })).journal =
        [.landed ⟨1⟩, .left ⟨1⟩, .returning 1, .written 3 (.object nullId) nullId] ++
          .violated ⟨.set, 3, .nullKey⟩ :: [.entered ⟨1⟩ 1] := by decide +kernel
  have unchecked :
      (Outcome.final (evaluate nullKeyed { State.initial with strictness := .off })).journal =
        [.landed ⟨1⟩, .left ⟨1⟩, .returning 1, .written 3 (.object nullId) nullId] ++
          [.entered ⟨1⟩ 1] := by decide +kernel
  have journal' := congrArg (fun r => (Outcome.final r).journal) twin
  rw [Outcome.final_twin] at journal'
  have hnew := warned.symm.trans (journal.trans (List.append_nil new))
  have hnew' := unchecked.symm.trans (journal'.trans (List.append_nil new'))
  refine ⟨_, _, warned, ?_, ?_⟩
  · rw [hnew, hnew']
    exact annotated
  · rw [hnew', ← List.append_nil new']
    exact twin

end Prototypal
