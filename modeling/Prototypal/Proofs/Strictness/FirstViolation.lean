import Prototypal.Proofs.Strictness.Twin

/-!
# The first violation stops a strict run

A strict run makes the steps of one that notes violations, up to the first violation, and ends there
with it.  For a script that has no way of looking at errors this is all: if nothing is violated, the
two runs are the same, and otherwise the error crosses every boundary and every call.

* `firstViolation?` — the first violation among notes.
* `stopping` — the pairing of a run that notes violations with a strict one: what both note is the
  same and free of violations, and the first violation in the journal stops the second run.
* `strict_stops_at_first` — the statement about evaluations.
-/

namespace Prototypal

/-- The scripts that, besides, never turn an error into a value. -/
def Fragment.uncaught : Fragment := { Fragment.blind with observes := false }

/-- The violation that an event tells of. -/
def Event.violation? : Event → Option Violation
  | violated v => some v
  | _ => none

/-- The first violation among notes that stand newest first. -/
def firstViolation? (notes : List Event) : Option Violation :=
  notes.reverse.findSome? Event.violation?

lemma firstViolation?_append (newer older : List Event) :
    firstViolation? (newer ++ older) = (firstViolation? older).or (firstViolation? newer) := by
  simp [firstViolation?, List.findSome?_append]

lemma Event.violation?_eq_none {e : Event} : e.violation? = none ↔ e.component ≠ .validation := by
  cases e <;> simp [violation?, component]

/-- There is a violation unless no event comes from the checks. -/
lemma firstViolation?_eq_none {notes : List Event} :
    firstViolation? notes = none ↔ ∀ e ∈ notes, e.component ≠ .validation := by
  simp only [firstViolation?, List.findSome?_eq_none_iff, List.mem_reverse,
    Event.violation?_eq_none]

/-- Violations are noted in the first run, and stop the second. -/
def stopping : Pairing .uncaught where
  level := .strict
  Notes new new' := new = new' ∧ firstViolation? new = none
  Stops new x := (firstViolation? new).map Fault.invalid = some x
  same h := ⟨rfl, firstViolation?_eq_none.mpr h⟩
  append hnewer holder := by
    refine ⟨by rw [hnewer.1, holder.1], ?_⟩
    rw [firstViolation?_append, hnewer.2, holder.2]
    rfl
  stops_later holder h := by
    rw [firstViolation?_append, holder.2]
    exact h
  stops_before h := by
    obtain ⟨v, hv, hx⟩ := Option.map_eq_some_iff.mp h
    rw [firstViolation?_append, hv]
    exact congrArg some hx
  observes hf := absurd hf nofun
  strictness := rfl
  configures := rfl

namespace Twins

variable {n : Nat} {α : Type}

/-- Where a violation is noted in the first run, the second is stopped by it. -/
lemma report_warn_strict (v : Violation) :
    Twins stopping n (report .warn v) (report .strict v) := by
  intro s j _ _ hs
  exact .stopped [.violated v] (.invalid v) (s.twin .strict j) ⟨rfl, rfl, rfl, hs⟩ rfl rfl

lemma reportBefore_warn_strict (receiver : ObjectId) (r : Request) :
    Twins stopping n (reportBefore .warn receiver r) (reportBefore .strict receiver r) := by
  refine (ofQuiet (Quiet.ofInspection (.checkBefore receiver r))).bind fun vs => ?_
  induction vs with
  | nil => exact ofPure ()
  -- the second run never comes to the rest, but the rule for sequences asks for it
  | cons v vs ih => exact (report_warn_strict v).bind fun _ => ih

lemma reportAfter_warn_strict (receiver : ObjectId) (r : Request) (produced : Option ObjectId) :
    Twins stopping n (reportAfter .warn receiver r produced)
      (reportAfter .strict receiver r produced) := by
  refine (ofQuiet (Quiet.ofInspection (.checkAfter receiver r produced))).bind fun v => ?_
  cases v with
  | none => exact ofPure ()
  | some v => exact report_warn_strict v

lemma checked_stopping (receiver : ObjectId) (r : Request) (produced : α → Option ObjectId)
    {act : Run α} (h : Twins stopping n act act) :
    Twins stopping n (checked receiver r produced act) (checked receiver r produced act) := by
  have around : Twins stopping n (checkedAt .warn receiver r produced act)
      (checkedAt .strict receiver r produced act) :=
    (reportBefore_warn_strict receiver r).bind fun _ => h.bind fun a =>
      (reportAfter_warn_strict receiver r (produced a)).bind fun _ => ofPure a
  intro s j hn hl hs
  rw [checked_run, checked_run, hl]
  exact around s j hn hl hs

end Twins

/-! ## Evaluations -/

/-- A twin that has the same journal differs in the strictness only. -/
lemma Outcome.twin_journal {α : Type} (r : Outcome α) (l : Strictness) :
    Outcome.twin r l (Outcome.final r).journal =
      Outcome.after (fun t => { t with strictness := l }) r := by
  cases r with
  | ok a t => rfl
  | error i t => rfl

/-- **A strict run is stopped at the first violation.**  If neither a script nor a closure in the
heap looks at errors, asks for the strictness or changes it, then a strict run of the script is
decided by what the run that notes violations adds to the journal: if none of it comes from a check,
the strict run has the same outcome, state and journal; and otherwise it ends with the first
violation. -/
theorem strict_stops_at_first (i : Invocation) (e : Expr) (s : State)
    (he : e.within .uncaught = true) (hs : s.heap.Within .uncaught) :
    ∃ new,
      (Outcome.final (eval enterCall i e { s with strictness := .warn })).journal =
        new ++ s.journal ∧
      ((∀ x ∈ new, x.component ≠ .validation) →
        eval enterCall i e { s with strictness := .strict } =
          Outcome.after (fun t => { t with strictness := .strict })
            (eval enterCall i e { s with strictness := .warn })) ∧
      ∀ v, firstViolation? new = some v →
        ∃ t, eval enterCall i e { s with strictness := .strict } =
          .error (.fault (.invalid v)) t := by
  have h : Twins stopping s.callDepth (eval enterCall i e) (eval enterCall i e) :=
    (stopping.discipline Twins.checked_stopping).keeps_evaluate i he
  rcases h { s with strictness := .warn } s.journal rfl rfl hs with
    ⟨new, new', continues, ⟨rfl, clean⟩, twin⟩ | ⟨new, x, t, continues, stops, error⟩
  · refine ⟨new, continues.journal, fun _ => ?_, fun v hv => ?_⟩
    · have journal : new ++ s.journal = _ := continues.journal.symm
      rw [journal, Outcome.twin_journal] at twin
      exact twin
    · exact absurd (hv.symm.trans clean) nofun
  · have first : (firstViolation? new).map Fault.invalid = some x := stops
    refine ⟨new, continues.journal, fun none => ?_, fun v hv => ⟨t, ?_⟩⟩
    · rw [firstViolation?_eq_none.mpr none] at first
      exact absurd first nofun
    · rw [hv] at first
      obtain rfl : Fault.invalid v = x := Option.some.inj first
      exact error

/-- A conversion that breaks a rule on its way to an answer of the wrong kind. -/
def poorAnswer : Expr :=
  .block [
    .assign "o" (.nullary .root),
    .keyedValue .set (.var "o") (.name "@num")
      (.function [.keyedValue .set (.nullary .root) (.object .null) .null]),
    .attempt "try" [.send (.var "o") (.name "@num") []]]

/-- The rule broken by the body comes first, before the check of the answer, and the error crosses
the boundary. -/
theorem poorAnswer_stopped :
    ∃ t, evaluate poorAnswer { State.initial with strictness := .strict } =
      .error (.fault (.invalid ⟨.set, 5, .nullKey⟩)) t := by
  obtain ⟨new, journal, -, stops⟩ :=
    strict_stops_at_first .outside poorAnswer State.initial rfl (Heap.within_initial _)
  have first : firstViolation?
      (Outcome.final (evaluate poorAnswer { State.initial with strictness := .warn })).journal =
        some ⟨.set, 5, .nullKey⟩ := by decide +kernel
  have all : new ++ [] =
      (Outcome.final (evaluate poorAnswer { State.initial with strictness := .warn })).journal :=
    journal.symm
  rw [← all, List.append_nil] at first
  exact stops _ first

end Prototypal
