import Prototypal.Proofs.Ancestry.Lines
import Prototypal.Proofs.Calls.Dispatch

/-!
# Overrides that call each other

A body may call the attribute above the one that is running.  It is looked up above the holder of the
running body, not above the receiver, so that bodies which all do this hand the call on along the
ancestors.

* `Override` — a body in three parts, the middle one being its call above.
* `cascade` — overrides nested in each other, each of them once.
* `Cooperate` — the entries of a line are overrides, which leave the line as it is.
* `Cooperate.invoke_step` — invoking one of them is a cascade, if its call above is one.
* `Cooperate.sendAbove_cascades`, `Cooperate.send_cascades` — calls, by induction over the overrides.
* `Cooperate.cascade_records` — what a cascade records.
* `overrides_run_once` — the statement about calls.

The receiver and the line stay the same from one body to the next.  What changes is the holder: it is
the first one on the rest of the line, and the rest of the line above it is what the next body has
before it.
-/

namespace Prototypal

/-- A body in three parts: what it does first, which yields the arguments that it hands on; its call
above; and what it makes of the answer. -/
structure Override where
  before : Invocation → Run (List ObjectId)
  after : Invocation → ObjectId → Run ObjectId

/-- The body as a whole. -/
def Override.run (b : Override) (k : Key) (i : Invocation) : Run ObjectId := do
  let passed ← b.before i
  let answer ← sendSuper enterCall i k passed
  b.after i answer

/-- Runs a computation one level of nesting deeper, whatever the limit is. -/
def deeper {α : Type} (act : Nat → Run α) : Run α := fun s =>
  Outcome.backTo s.callDepth (act (s.callDepth + 1) (s.atLevel (s.callDepth + 1)))

/-- A call above a holder that leads to the given one next, if there is one: the lookup and what it
found are noted, and then the rest is done. -/
def handOn (o : ObjectId) (k : Key) (x : ObjectId) (next : Option ObjectId) (act : Run ObjectId) :
    Run ObjectId := do
  let _ ← resolveAbove x k
  note (next.elim (.superUnanswered o k) (.superCalled o k))
  act

/-- Overrides of some holders, nested in each other.  Each runs one level deeper than the one before,
with its own holder; the receiver is always the same.  Its call above is the run of the others, and
the call above of the last one answers Null. -/
def cascade (o : ObjectId) (k : Key) (bodies : ObjectId → Override) :
    List ObjectId → List ObjectId → Run ObjectId
  | [], _ => return nullId
  | x :: above, args => deeper fun level => do
    note (.invoked true args.length level)
    let passed ← (bodies x).before ⟨some o, some x, args⟩
    let answer ← handOn o k x above.head? (cascade o k bodies above passed)
    (bodies x).after ⟨some o, some x, args⟩ answer

/-- The first override of a cascade, once it comes to its call above. -/
lemma cascade_cons {o x : ObjectId} {k : Key} {bodies : ObjectId → Override}
    {args hs passed : List ObjectId} {t u : State}
    (before : (bodies x).before ⟨some o, some x, args⟩ (t.entering args) = .ok passed u) :
    cascade o k bodies (x :: hs) args t = Outcome.backTo t.callDepth
      ((handOn o k x hs.head? (cascade o k bodies hs passed) >>=
        (bodies x).after ⟨some o, some x, args⟩) u) := by
  have noted : note (.invoked true args.length (t.callDepth + 1)) (t.atLevel (t.callDepth + 1)) =
      .ok () (t.entering args) := rfl
  rw [cascade, deeper, run_bind_ok noted, run_bind_ok before]

/-- Those of some objects that have an own entry under a key. -/
def Heap.holders (h : Heap) (k : Key) (line : List ObjectId) : List ObjectId :=
  line.filter fun x => ((h.slots x).find? k).isSome

/-- The entries of a line under a key are overrides.  They rely on something that holds whatever is
noted and at all levels of nesting, and under which the line, its entries, their bodies and the
settings are what they were.  What an override does before its call above succeeds and does not break
this. -/
structure Cooperate (s : State) (o : ObjectId) (k : Key) (line : List ObjectId)
    (bodies : ObjectId → Override) (relied : State → Prop) : Prop where
  now : relied s
  noting : ∀ t notes, relied t → relied (t.noting notes)
  atLevel : ∀ t level, relied t → relied (t.atLevel level)
  inLine : ∀ t, relied t → t.heap.Line o line
  entries : ∀ t, relied t → ∀ x ∈ line, (t.heap.slots x).find? k = (s.heap.slots x).find? k
  fixed : ∀ t, relied t → t.fixed = s.fixed
  closure : ∀ x ∈ line, ∀ v, (s.heap.slots x).find? k = some v → ∃ c : Closure,
    ∀ t, relied t → (t.heap.payload v).closure? = some c ∧
      ∀ args, c.body.run enterCall ⟨some o, some x, args⟩ t =
        (bodies x).run k ⟨some o, some x, args⟩ t
  before : ∀ x ∈ s.heap.holders k line, ∀ args t, relied t → ∃ passed u,
    (bodies x).before ⟨some o, some x, args⟩ t = .ok passed u ∧ relied u ∧
      u.callDepth = t.callDepth

/-- Each override records itself in a log, before its call above, and nothing else is recorded. -/
structure Records {α : Type} (s : State) (o : ObjectId) (k : Key) (line : List ObjectId)
    (bodies : ObjectId → Override) (relied : State → Prop) (log : State → List α)
    (mark : ObjectId → α) : Prop where
  noting : ∀ t notes, log (State.noting t notes) = log t
  atLevel : ∀ t level, log (State.atLevel t level) = log t
  before : ∀ x ∈ s.heap.holders k line, ∀ args t, relied t → ∀ passed u,
    (bodies x).before ⟨some o, some x, args⟩ t = .ok passed u → log u = mark x :: log t
  after : ∀ x ∈ s.heap.holders k line, ∀ args t, relied t → ∀ answer, ∃ a u,
    (bodies x).after ⟨some o, some x, args⟩ answer t = .ok a u ∧ relied u ∧ log u = log t

namespace Heap

variable {h : Heap} {k : Key} {line hs : List ObjectId} {x : ObjectId}

lemma findSome?_of_no_holders (empty : h.holders k line = []) :
    line.findSome? (h.own? k) = none := by
  rw [holders, List.filter_eq_nil_iff] at empty
  rw [List.findSome?_eq_none_iff]
  intro x hx
  simpa [own?] using empty x hx

/-- The first holder, and the line from there on. -/
lemma exists_first_holder (first : h.holders k line = x :: hs) :
    ∃ rest v, x :: rest <:+ line ∧ h.holders k rest = hs ∧ (h.slots x).find? k = some v ∧
      line.findSome? (h.own? k) = some ⟨x, v⟩ := by
  obtain ⟨before, rest, split, skipped, held, others⟩ := List.filter_eq_cons_iff.mp first
  obtain ⟨v, stored⟩ := Option.isSome_iff_exists.mp held
  refine ⟨rest, v, ⟨before, split.symm⟩, others, stored, ?_⟩
  have passed : before.findSome? (h.own? k) = none := by
    rw [List.findSome?_eq_none_iff]
    intro y hy
    simpa [own?] using skipped y hy
  have here : h.own? k x = some ⟨x, v⟩ := own?_eq_some_iff.mpr ⟨rfl, stored⟩
  rw [split, List.findSome?_append, passed, List.findSome?_cons, here]
  rfl

end Heap

namespace Cooperate

variable {s t : State} {o : ObjectId} {k : Key} {line : List ObjectId}
  {bodies : ObjectId → Override} {relied : State → Prop}
  (cooperate : Cooperate s o k line bodies relied)
include cooperate

lemma limits_eq (trusted : relied t) : t.limits = s.limits := by
  rw [State.limits, State.settings, cooperate.fixed t trusted]
  rfl

lemma entering (trusted : relied t) (args : List ObjectId) : relied (t.entering args) :=
  cooperate.atLevel _ _ (cooperate.noting _ _ trusted)

variable (fits : line.length ≤ s.hops + 1)

include fits in
/-- While they run, lookup above an object of the line goes through those after it. -/
lemma resolveAbove?_fst (trusted : relied t) {x : ObjectId} {rest : List ObjectId}
    (later : x :: rest <:+ line) :
    (t.heap.resolveAbove? t.hops x k).1 = rest.findSome? (s.heap.own? k) := by
  have alike : ∀ y ∈ rest, t.heap.own? k y = s.heap.own? k y := by
    intro y hy
    have entry := cooperate.entries t trusted y (later.subset (List.mem_cons_of_mem x hy))
    rw [Heap.own?, Heap.own?, entry]
  have above : t.heap.Line x (x :: rest) := (cooperate.inLine t trusted).of_suffix later
  have within : (x :: rest).length ≤ t.hops + 1 := by
    rw [hops_of_fixed (cooperate.fixed t trusted)]
    exact later.length_le.trans fits
  rw [above.resolveAbove?_fst within, ← List.head?_filterMap, List.filterMap_congr alike,
    List.head?_filterMap]

/-- Invoking an override is a cascade, if its call above is one. -/
lemma invoke_step (trusted : relied t) {x v : ObjectId} {hs args : List ObjectId}
    (there : x ∈ line) (stored : (s.heap.slots x).find? k = some v)
    (allowed : t.callDepth < s.limits.callDepth.toNat)
    (above : ∀ u passed, relied u → u.callDepth = t.callDepth + 1 →
      sendAbove enterCall o x k passed u =
        handOn o k x hs.head? (cascade o k bodies hs passed) u) :
    invoke enterCall o x v args t = cascade o k bodies (x :: hs) args t := by
  obtain ⟨c, closure⟩ := cooperate.closure x there v stored
  have holds : x ∈ s.heap.holders k line := List.mem_filter.mpr ⟨there, by rw [stored]; rfl⟩
  have inside := cooperate.entering trusted args
  obtain ⟨passed, u, first, trusted', level⟩ := cooperate.before x holds args _ inside
  have calls : sendSuper enterCall ⟨some o, some x, args⟩ k passed u =
      handOn o k x hs.head? (cascade o k bodies hs passed) u := above u passed trusted' level
  rw [← cooperate.limits_eq trusted] at allowed
  rw [invoke_runs_body o x args (closure t trusted).1 allowed, (closure _ inside).2 args,
    Override.run, run_bind_ok first, cascade_cons first, run_bind, run_bind, calls]

include fits in
/-- A call above one of the overrides runs those after it, by induction over them. -/
lemma sendAbove_cascades (ordinary : k.isReserved = false) {hs : List ObjectId} :
    ∀ {t : State} {x : ObjectId} {rest : List ObjectId} (passed : List ObjectId), relied t →
      x :: rest <:+ line → s.heap.holders k rest = hs →
      t.callDepth + hs.length ≤ s.limits.callDepth.toNat →
      sendAbove enterCall o x k passed t =
        handOn o k x hs.head? (cascade o k bodies hs passed) t := by
  induction hs with
  | nil =>
      intro t x rest passed trusted later empty _
      have missing := (cooperate.resolveAbove?_fst fits trusted later).trans
        (Heap.findSome?_of_no_holders empty)
      rw [sendAbove_of_missing enterCall passed o ordinary missing, handOn,
        run_bind_ok (resolveAbove_run ordinary t)]
      rfl
  | cons y hs ih =>
      intro t x rest passed trusted later first allowed
      obtain ⟨rest', v, further, others, stored, next⟩ := Heap.exists_first_holder first
      have further : y :: rest' <:+ line := further.trans ((List.suffix_cons x rest).trans later)
      have found := (cooperate.resolveAbove?_fst fits trusted later).trans next
      rw [List.length_cons] at allowed
      rw [sendAbove_of_found enterCall passed o ordinary found, handOn,
        run_bind_ok (resolveAbove_run ordinary t)]
      refine cooperate.invoke_step (cooperate.noting _ _ trusted) ?_ stored ?_ ?_
      · exact further.subset List.mem_cons_self
      · show t.callDepth < s.limits.callDepth.toNat
        omega
      · intro u passed' trusted' level
        have deeper : u.callDepth = t.callDepth + 1 := level
        exact ih passed' trusted' further others (by omega)

include fits in
/-- A call is a cascade of the overrides. -/
lemma send_cascades (ordinary : k.isReserved = false) (off : s.strictness = .off)
    (allowed : s.callDepth + (s.heap.holders k line).length ≤ s.limits.callDepth.toNat)
    (args : List ObjectId) :
    send enterCall o k args s = (do
      let _ ← resolve o k
      if s.heap.holders k line = [] then callUnresolved enterCall o k args
      else cascade o k bodies (s.heap.holders k line) args) s := by
  have is := cooperate.inLine s cooperate.now
  rw [run_bind_ok (resolve_run ordinary s)]
  cases first : s.heap.holders k line with
  | nil =>
      have missing := (is.resolve?_fst fits).trans (Heap.findSome?_of_no_holders first)
      exact send_of_missing enterCall args ordinary off missing
  | cons x hs =>
      obtain ⟨rest, v, later, others, stored, next⟩ := Heap.exists_first_holder first
      have found := (is.resolve?_fst fits).trans next
      rw [first, List.length_cons] at allowed
      rw [send_of_found enterCall args ordinary off found]
      refine cooperate.invoke_step (cooperate.noting _ _ cooperate.now) ?_ stored ?_ ?_
      · exact later.subset List.mem_cons_self
      · show s.callDepth < s.limits.callDepth.toNat
        omega
      · intro u passed trusted level
        have deeper : u.callDepth = s.callDepth + 1 := level
        exact cooperate.sendAbove_cascades fits ordinary passed trusted later others (by omega)

/-- In a cascade each override records itself once, in order. -/
lemma cascade_records {α : Type} {log : State → List α} {mark : ObjectId → α}
    (records : Records s o k line bodies relied log mark) (ordinary : k.isReserved = false)
    {hs : List ObjectId} (those : ∀ x ∈ hs, x ∈ s.heap.holders k line) :
    ∀ {t : State} (args : List ObjectId), relied t → ∃ a u,
      cascade o k bodies hs args t = .ok a u ∧ relied u ∧
        log u = (hs.map mark).reverse ++ log t := by
  induction hs with
  | nil => exact fun {t} args trusted => ⟨nullId, t, rfl, trusted, rfl⟩
  | cons x hs ih =>
      intro t args trusted
      have here := those x List.mem_cons_self
      have inside := cooperate.entering trusted args
      obtain ⟨passed, u, before, trusted₁, _⟩ := cooperate.before x here args _ inside
      let noted := u.noting (hs.head?.elim (.superUnanswered o k) (.superCalled o k) ::
        u.cutNotesAbove x k)
      obtain ⟨answer, u', run, trusted₂, others⟩ := ih
        (fun y hy => those y (List.mem_cons_of_mem x hy)) (t := noted) passed
        (cooperate.noting _ _ trusted₁)
      obtain ⟨a, u'', after, trusted₃, kept⟩ := records.after x here args u' trusted₂ answer
      have handed : handOn o k x hs.head? (cascade o k bodies hs passed) u = .ok answer u' := by
        rw [handOn, run_bind_ok (resolveAbove_run ordinary u)]
        exact run
      refine ⟨a, u''.atLevel t.callDepth, ?_, cooperate.atLevel _ _ trusted₃, ?_⟩
      · rw [cascade_cons before, run_bind_ok handed, after]
        rfl
      · have first : log u = mark x :: log t := by
          rw [records.before x here args _ inside passed u before, State.entering,
            records.atLevel, records.noting]
        rw [records.atLevel, kept, others, records.noting, first, List.map_cons,
          List.reverse_cons, List.append_assoc]
        rfl

end Cooperate

/-- **Overrides that call each other run once each.**  Let a line of ancestors be within the limit on
hops, and let the objects on it that have an entry under an ordinary key have overrides there, which
leave the line as it is and call above once.  Then a call, where nothing is checked and as many levels
are left as there are overrides, is a cascade: the overrides run in the order of the line, each once,
with the same receiver and each with its own holder, and the call above of the last one answers Null.
If each records itself, the log shows them in this order.

On any graph on which all ancestor paths from an object are within the limit, the holders that lookup
and then lookup above the last holder find never repeat, and they come to an end. -/
theorem overrides_run_once (s : State) (o : ObjectId) (k : Key) (ordinary : k.isReserved = false) :
    (∀ (line : List ObjectId) (bodies : ObjectId → Override) (relied : State → Prop)
        (args : List ObjectId),
      line.length ≤ s.hops + 1 → s.strictness = .off → Cooperate s o k line bodies relied →
      s.callDepth + (s.heap.holders k line).length ≤ s.limits.callDepth.toNat →
        send enterCall o k args s = (do
          let _ ← resolve o k
          if s.heap.holders k line = [] then callUnresolved enterCall o k args
          else cascade o k bodies (s.heap.holders k line) args) s ∧
        ∀ (α : Type) (log : State → List α) (mark : ObjectId → α),
          Records s o k line bodies relied log mark → s.heap.holders k line ≠ [] →
            ∃ a t, send enterCall o k args s = .ok a t ∧
              log t = ((s.heap.holders k line).map mark).reverse ++ log s) ∧
    (s.heap.HopsWithin s.hops o → ∃ found, Ascends s o k found ∧
      (∀ i j f g, i < j → found i = some f → found j = some g → f.holder ≠ g.holder) ∧
      ∃ n, found n = none) := by
  constructor
  · intro line bodies relied args fits off cooperate allowed
    have cascades := cooperate.send_cascades fits ordinary off allowed args
    refine ⟨cascades, fun α log mark records nonempty => ?_⟩
    obtain ⟨a, t, run, _, recorded⟩ := cooperate.cascade_records records ordinary (fun _ hx => hx)
      (t := s.noting (s.cutNotes o k)) args (cooperate.noting _ _ cooperate.now)
    rw [records.noting] at recorded
    refine ⟨a, t, ?_, recorded⟩
    rw [cascades, run_bind_ok (resolve_run ordinary s), if_neg nonempty]
    exact run
  · intro bounded
    have ascends : Ascends s o k (s.ascent o k) := .ascent ordinary s o
    refine ⟨_, ascends, fun i j f g before here later => ?_, s.hops + 1, ?_⟩
    · exact ascends.not_again ordinary bounded before here later
    · exact ascends.ends ordinary bounded

/-- A line of four objects, of which all but the second have an entry.  Its closure hands out its
holder and calls above.  A further object has two of the line for stepparents and the first for a
parent. -/
def overridden : Heap where
  objects := #[none, some ⟨.null, .sealed nullId⟩,
    some ⟨.plain, { Slots.fresh 2 none [] with table := [(.object 1, 7)] }⟩,
    some ⟨.plain, .fresh 3 (some 2) []⟩,
    some ⟨.plain, { Slots.fresh 4 (some 3) [] with table := [(.object 1, 7)] }⟩,
    some ⟨.plain, { Slots.fresh 5 (some 4) [] with table := [(.object 1, 7)] }⟩,
    some ⟨.plain, .fresh 6 (some 2) [3, 4]⟩,
    some ⟨.closure ⟨7, .script [.emit (.nullary .holder), .sendSuper (.object .null) []], none⟩,
      .fresh 7 none []⟩]

/-- Every ancestor is older than its descendant. -/
lemma overridden_older (o a : ObjectId) (hop : overridden.Hop o a) : a < o := by
  have older : ∀ o < 8, ∀ a ∈ overridden.ancestors o, a < o := by decide
  match o with
  | 0 | 1 | 2 | 3 | 4 | 5 | 6 | 7 => exact older _ (by decide) a hop
  | n + 8 => exact absurd hop List.not_mem_nil

/-- A state with the line, in which three levels of nesting and six hops are allowed. -/
def overriddenState : State :=
  { State.initial with
    heap := overridden
    fixed := some { Settings.standard with policy := ⟨.off, ⟨3, 6⟩⟩ } }

/-- The closure of the line, in three parts. -/
def handsOutHolder : Override where
  before i := do
    emit ((← get).heap.picture (i.holder.getD nullId))
    return []
  after _ answer := return answer

/-- The body of the closure is in three parts. -/
lemma run_handsOutHolder (i : Invocation) (t : State) :
    Body.run enterCall i (.script [.emit (.nullary .holder), .sendSuper (.object .null) []]) t =
      handsOutHolder.run (.object 1) i t := by
  let u := { t with emitted := t.heap.picture (i.holder.getD nullId) :: t.emitted }
  have records : handsOutHolder.before i t = .ok [] u := rfl
  have emits : eval enterCall i (.emit (.nullary .holder)) t =
      .ok (.object (i.holder.getD nullId)) u := rfl
  have calls : eval enterCall i (.sendSuper (.object .null) []) u =
      (Value.object <$> sendSuper enterCall i (.object 1) []) u := rfl
  rw [Override.run, run_bind_ok records, run_bind, Body.run, evalAll, bind_assoc, run_bind_ok emits]
  rw [evalAll, bind_assoc, bind_assoc, run_bind, calls, map_eq_pure_bind, run_bind]
  cases sendSuper enterCall i (.object 1) [] u with
  | ok a v => rfl
  | error i v => rfl

/-- Called on the last object of the line, the three closures run in order, with all three levels used
up.  From the further object, whose stepparents are asked first, the holders come to an end, too. -/
theorem overridden_run_once :
    (∃ a t, send enterCall 5 (.object 1) [] overriddenState = .ok a t ∧
      t.emitted = [overridden.picture 2, overridden.picture 4, overridden.picture 5]) ∧
    ∃ found, Ascends overriddenState 6 (.object 1) found ∧
      (∀ i j f g, i < j → found i = some f → found j = some g → f.holder ≠ g.holder) ∧
      ∃ n, found n = none := by
  constructor
  · let relied : State → Prop := fun t =>
      t.heap = overridden ∧ t.fixed = overriddenState.fixed
    have root : overridden.Line 2 [2] := .last rfl rfl
    have line : overridden.Line 5 [5, 4, 3, 2] :=
      .child rfl rfl (.child rfl rfl (.child rfl rfl root))
    have cooperate : Cooperate overriddenState 5 (.object 1) [5, 4, 3, 2]
        (fun _ => handsOutHolder) relied := by
      refine ⟨⟨rfl, rfl⟩, fun _ _ => id, fun _ _ => id, ?_, ?_, fun _ => And.right, ?_, ?_⟩
      · intro t trusted
        rw [trusted.1]
        exact line
      · intro t trusted x _
        rw [trusted.1]
        rfl
      · intro x there v stored
        have entries : ∀ x ∈ [5, 4, 3, 2], ∀ v, (overridden.slots x).find? (.object 1) = some v →
            v = 7 := by decide
        obtain rfl := entries x there v stored
        refine ⟨⟨7, .script [.emit (.nullary .holder), .sendSuper (.object .null) []], none⟩, ?_⟩
        intro t trusted
        refine ⟨?_, fun args => run_handsOutHolder _ t⟩
        rw [trusted.1]
        rfl
      · intro x _ args t trusted
        exact ⟨[], _, rfl, trusted, rfl⟩
    have records : Records overriddenState 5 (.object 1) [5, 4, 3, 2] (fun _ => handsOutHolder)
        relied State.emitted overridden.picture := by
      refine ⟨fun _ _ => rfl, fun _ _ => rfl, ?_, ?_⟩
      · intro x _ args t trusted passed u run
        cases run
        rw [← trusted.1]
        rfl
      · intro x _ args t trusted answer
        exact ⟨_, _, rfl, trusted, rfl⟩
    have runs := (overrides_run_once overriddenState 5 (.object 1) rfl).1 _ _ _ [] (by decide) rfl
      cooperate (by decide)
    exact runs.2 _ _ _ records (by decide)
  · have bounded : overridden.HopsWithin 6 6 := Heap.hopsWithin_of_older overridden_older 6
    exact (overrides_run_once overriddenState 6 (.object 1) rfl).2 bounded

end Prototypal
