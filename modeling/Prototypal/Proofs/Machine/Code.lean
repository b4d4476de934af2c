import Prototypal.Proofs.Checks
import Prototypal.Proofs.Landing

/-!
# Codes

A computation on states is a function: it shows how a run ends, and hides what happens on the way.
A `Code` is a computation with its parts in view.  It is put together from operations of the runtime
by sequencing, boundaries, handlers and nesting, in the way in which evaluation puts them together,
and `Code.run` is the computation that it stands for.

* `Elementary` — the operations that have no parts: the basic ones, looking at the state, noting a
  violation, the settings, and returns.
* `Code`, `Code.run` — codes and their meaning.  A code belongs to a fragment: where outcomes are
  not looked at and escapes are not settled, its codes have no handlers.
* `Code.Realizes` — a code stands for a computation, at a level of nesting.
* `Code.Careful` — a code makes no objects up: its operations are handed objects that are known.
* `exists_careful_code` — every evaluation of an expression of a fragment is the run of a careful
  code of that fragment.

The last is a tracking like any other: having a careful code is a property of computations that is
closed under the ways in which evaluation puts them together.
-/

namespace Prototypal

open Mentions (objects)

/-! ## The whole language -/

lemma Nullary.within_full (op : Nullary) : op.within .full = true := by
  cases op with
  | setStrictness name =>
      rw [Nullary.within]
      cases Strictness.parse name <;> rfl
  | configure document =>
      rw [Nullary.within]
      cases Settings.parse? document <;> rfl
  | _ => rfl

lemma Unary.within_full (op : Unary) : op.within .full = true := by
  cases op <;> rfl

lemma Binary.within_full (op : Binary) : op.within .full = true := by
  cases op <;> rfl

mutual

theorem Expr.within_full : ∀ e : Expr, e.within .full = true
  | .null | .var _ => by simp [Expr.within]
  | .nullary op => by simp [Expr.within, op.within_full]
  | .unary op o => by simp [Expr.within, op.within_full, o.within_full]
  | .binary op a b => by simp [Expr.within, op.within_full, a.within_full, b.within_full]
  | .ofKey _ k => by simp [Expr.within, k.within_full]
  | .sameKey j k => by simp [Expr.within, j.within_full, k.within_full]
  | .keyed _ o k => by simp [Expr.within, o.within_full, k.within_full]
  | .keyedValue _ o k v => by simp [Expr.within, o.within_full, k.within_full, v.within_full]
  | .assign _ e | .emit e => by simp [Expr.within, e.within_full]
  | .block es | .quiet es | .loop _ es | .concat es | .function es | .list es => by
      simp [Expr.within, allWithin_full es]
  | .branch condition yes no => by
      simp [Expr.within, condition.within_full, yes.within_full, no.within_full]
  | .observe e | .settle e => by
      rw [Expr.within, e.within_full]
      rfl
  | .add a b | .less a b => by simp [Expr.within, a.within_full, b.within_full]
  | .map entries => by simp [Expr.within, entriesWithin_full entries]
  | .build parts => by simp [Expr.within, partsWithin_full parts]
  | .send o k args | .sendAbove o k args => by
      simp [Expr.within, o.within_full, k.within_full, allWithin_full args]
  | .sendSuper k args => by simp [Expr.within, k.within_full, allWithin_full args]
  | .apply g args => by simp [Expr.within, g.within_full, allWithin_full args]
  | .attempt _ body => by simp [Expr.within, allWithin_full body]

theorem KeyExpr.within_full : ∀ k : KeyExpr, k.within .full = true
  | .name _ => by simp [KeyExpr.within]
  | .object e | .ofValue e => by simp [KeyExpr.within, e.within_full]

theorem allWithin_full : ∀ es : List Expr, allWithin .full es = true
  | [] => by simp [allWithin]
  | e :: es => by simp [allWithin, e.within_full, allWithin_full es]

theorem entriesWithin_full : ∀ es : List (Expr × Expr), entriesWithin .full es = true
  | [] => by simp [entriesWithin]
  | (k, v) :: es => by
      simp [entriesWithin, k.within_full, v.within_full, entriesWithin_full es]

theorem partsWithin_full : ∀ ps : List (Role × Expr), partsWithin .full ps = true
  | [] => by simp [partsWithin]
  | (_, e) :: ps => by simp [partsWithin, e.within_full, partsWithin_full ps]

end

lemma Body.within_full (b : Body) : b.within .full = true := by
  cases b with
  | script es => exact allWithin_full es
  | base a => rfl

lemma Payload.within_full (p : Payload) : p.within .full = true := by
  cases p with
  | closure c => exact c.body.within_full
  | _ => rfl

lemma Heap.within_full (h : Heap) : h.Within .full :=
  fun o => (h.payload o).within_full

lemma Basic.full {f : Fragment} {α : Type} {act : Run α} (h : Basic f act) : Basic .full act := by
  cases h with
  | look g => exact .look g
  | valueOf name => exact .valueOf name
  | note e he => exact .note e he
  | makeWith p parent stepparents _ => exact .makeWith p parent stepparents p.within_full
  | makeClosure b _ => exact .makeClosure b b.within_full
  | copy o => exact .copy o
  | skipId => exact .skipId
  | intern text => exact .intern text
  | assign name v => exact .assign name v
  | emit j => exact .emit j
  | slotSet o k v => exact .slotSet o k v
  | slotDelete o k => exact .slotDelete o k
  | makeReadonly o k => exact .makeReadonly o k
  | setParent o parent => exact .setParent o parent
  | pushStepparent o stepparent => exact .pushStepparent o stepparent
  | resolve o k hk => exact .resolve o k hk
  | resolveAbove o k => exact .resolveAbove o k
  | isA o target => exact .isA o target
  | fail x => exact .fail x

/-! ## Codes and their meaning -/

/-- The operations of a fragment that have no parts. -/
inductive Elementary (f : Fragment) : {α : Type} → Run α → Prop where
  | basic {α : Type} {act : Run α} (h : Basic f act) : Elementary f act
  | look {α : Type} (g : State → α) : Elementary f (do return g (← get))
  | violated (v : Violation) : Elementary f (note (.violated v))
  | setStrictness {l : Strictness} (hl : f.allows (.strictness l) = true) :
      Elementary f (setStrictness l)
  | fixSettings {x : Settings} (hx : f.allows (.settings x) = true) : Elementary f (fixSettings x)
  | returnLevels {α : Type} (n : Nat) (v : ObjectId) : Elementary f (returnLevels n v : Run α)
  | returnTo {α : Type} (token v : ObjectId) : Elementary f (returnTo token v : Run α)
  | raise {α : Type} (hf : f.raises = true) (e : Escape) :
      Elementary f (throw (.escape e) : Run α)

/-- Computations of a fragment with their parts in view. -/
inductive Code (f : Fragment) : Type → Type 1 where
  | op {α : Type} (act : Run α) (h : Elementary f act) : Code f α
  | bind {α β : Type} (c : Code f α) (next : α → Code f β) : Code f β
  | attempt (body : ObjectId → Code f ObjectId) : Code f ObjectId
  | settle {α : Type} (hf : f.settles = true) (c : Code f α) : Code f α
  | observe (hf : f.observes = true) (c : Code f Value) : Code f Value
  | nested {α : Type} (c : Code f α) : Code f α

namespace Code

variable {f : Fragment}

/-- The computation that a code stands for. -/
def run : {α : Type} → Code f α → Run α
  | _, op act _ => act
  | _, bind c next => c.run >>= fun a => (next a).run
  | _, attempt body => Prototypal.attempt fun token => (body token).run
  | _, settle _ c => Prototypal.settle c.run
  | _, observe _ c => Prototypal.observe c.run
  | _, nested c => Prototypal.nested fun _ => c.run

/-- A code stands for a computation, wherever calls are nested that deep and all bodies in the heap
are of the fragment. -/
def Realizes {α : Type} (c : Code f α) (n : Nat) (act : Run α) : Prop :=
  ∀ s, s.callDepth = n → s.heap.Within f → c.run s = act s

end Code

variable {f : Fragment} {n : Nat} {α β : Type}

lemma Elementary.contained {act : Run α} (h : Elementary f act) (n : Nat) :
    Contained f n act := by
  cases h with
  | basic h => exact .ofQuiet h.quiet
  | look g => exact fun s _ hs => .ofOk rfl rfl hs
  | violated v => exact Contained.note _
  | setStrictness _ => exact fun s _ hs => .ofOk rfl rfl hs
  | fixSettings _ => exact Contained.fixSettings _
  | returnLevels m v => exact Contained.returnLevels m v
  | returnTo token v => exact Contained.returnTo token v
  | raise hf e => exact Contained.raise hf e

lemma Code.contained (c : Code f α) (n : Nat) : Contained f n c.run := by
  induction c generalizing n with
  | op act h => exact h.contained n
  | bind c next ihc ihnext => exact (ihc n).bind fun a => ihnext a n
  | attempt body ih => exact Contained.attempt fun token => ih token n
  | settle _ c ih => exact (ih n).settle
  | observe _ c ih => exact (ih n).observe
  | nested c ih => exact Contained.nested (ih (n + 1))

/-! ## Careful codes -/

/-- The elementary operations that are handed known objects only, with the objects that results
mention. -/
inductive Handed (f : Fragment) (K : Set ObjectId) :
    {α : Type} → Run α → (α → List ObjectId) → Prop where
  | provided {α : Type} {act : Run α} {mentioned : α → List ObjectId}
      (h : Provided f K act mentioned) : Handed f K act mentioned
  | given {α : Type} [Mentions α] (a : α) (ha : Known K a) : Handed f K (pure a) objects
  | look {α : Type} (g : State → α) : Handed f K (do return g (← get)) fun _ => []
  | violated (v : Violation) : Handed f K (note (.violated v)) fun _ => []
  | setStrictness (l : Strictness) : Handed f K (setStrictness l) fun _ => []
  | fixSettings (x : Settings) : Handed f K (fixSettings x) fun _ => []
  | returnLevels {α : Type} (n : Nat) {v : ObjectId} (hv : Known K v)
      (mentioned : α → List ObjectId) : Handed f K (returnLevels n v) mentioned
  | returnTo {α : Type} (token : ObjectId) {v : ObjectId} (hv : Known K v)
      (mentioned : α → List ObjectId) : Handed f K (returnTo token v) mentioned
  | raise {α : Type} (e : Escape) (he : Known K e.value) (mentioned : α → List ObjectId) :
      Handed f K (throw (.escape e)) mentioned

lemma Handed.mono {K K' : Set ObjectId} {act : Run α} {mentioned : α → List ObjectId}
    (h : Handed f K act mentioned) (larger : K ⊆ K') : Handed f K' act mentioned := by
  cases h with
  | provided h => exact .provided (h.mono larger)
  | given a ha => exact .given a (ha.mono larger)
  | look g => exact .look g
  | violated v => exact .violated v
  | setStrictness l => exact .setStrictness l
  | fixSettings x => exact .fixSettings x
  | returnLevels n hv => exact .returnLevels n (hv.mono larger) mentioned
  | returnTo token hv => exact .returnTo token (hv.mono larger) mentioned
  | raise e he => exact .raise e (he.mono larger) mentioned

namespace Code

/-- Codes that make no objects up: every operation is handed objects that are known at the beginning
or that the results before it mention. -/
def Careful : {α : Type} → Code f α → Set ObjectId → (α → List ObjectId) → Prop
  | _, op act _, K, mentioned => Handed f K act mentioned
  | _, bind c next, K, mentioned => ∃ between, c.Careful K between ∧
      ∀ a, (next a).Careful (K ∪ {o | o ∈ between a}) mentioned
  | _, attempt body, K, mentioned => mentioned = objects ∧
      ∀ token, (body token).Careful (adding K token) mentioned
  | _, settle _ c, K, mentioned => c.Careful K mentioned
  | _, observe _ c, K, mentioned => mentioned = objects ∧ c.Careful K mentioned
  | _, nested c, K, mentioned => c.Careful K mentioned

lemma Careful.mono {c : Code f α} {K K' : Set ObjectId} {mentioned : α → List ObjectId}
    (h : c.Careful K mentioned) (larger : K ⊆ K') : c.Careful K' mentioned := by
  induction c generalizing K K' with
  | op act _ => exact Handed.mono h larger
  | bind c next ihc ihnext =>
      obtain ⟨between, first, rest⟩ := h
      refine ⟨between, ihc first larger, fun a => ihnext a (rest a) ?_⟩
      exact Set.union_subset_union_left _ larger
  | attempt body ih =>
      obtain ⟨same, inside⟩ := h
      exact ⟨same, fun token => ih token (inside token) (adding_mono larger token)⟩
  | settle _ c ih => exact ih h larger
  | observe _ c ih => exact ⟨h.1, ih h.2 larger⟩
  | nested c ih => exact ih h larger

end Code

/-! ## What codes stand for -/

namespace Code.Realizes

variable {c : Code f α} {act : Run α}

lemma op (h : Elementary f act) : (Code.op act h).Realizes n act :=
  fun _ _ _ => rfl

lemma bind (hc : c.Realizes n act) {d : α → Code f β} {next : α → Run β}
    (hd : ∀ a, (d a).Realizes n (next a)) : (Code.bind c d).Realizes n (act >>= next) := by
  intro s hn hs
  have returned := c.contained n s hn hs
  have first : c.run s = act s := hc s hn hs
  cases hr : act s with
  | ok a t =>
      rw [hr] at first
      rw [first] at returned
      rw [run_bind_ok hr, run, run_bind_ok first]
      exact hd a t (returned.callDepth.trans hn) returned.within
  | error i t =>
      rw [hr] at first
      rw [run_bind_error hr, run, run_bind_error first]

/-- What is done with a payload that is read matters for payloads of the fragment only. -/
lemma payload (o : ObjectId) (h : Elementary f (payloadOf o)) {d : Payload → Code f β}
    {next : Payload → Run β} (hd : ∀ p, p.within f = true → (d p).Realizes n (next p)) :
    (Code.bind (.op (payloadOf o) h) d).Realizes n (payloadOf o >>= next) := by
  intro s hn hs
  have read : payloadOf o s = .ok (s.heap.payload o) s := rfl
  rw [run, run_bind_ok read, run, run_bind_ok read]
  exact hd _ (hs o) s hn hs

lemma attempt {d : ObjectId → Code f ObjectId} {body : ObjectId → Run ObjectId}
    (hd : ∀ token, (d token).Realizes n (body token)) :
    (Code.attempt d).Realizes n (Prototypal.attempt body) := by
  intro s hn hs
  rw [run, attempt_run, attempt_run, hd s.heap.nextId s.opened hn (hs.add rfl)]

lemma settle (hf : f.settles = true) (hc : c.Realizes n act) :
    (Code.settle hf c).Realizes n (Prototypal.settle act) := by
  intro s hn hs
  simp only [run, Prototypal.settle, onEscape, hc s hn hs]

lemma observe (hf : f.observes = true) {c : Code f Value} {act : Run Value}
    (hc : c.Realizes n act) : (Code.observe hf c).Realizes n (Prototypal.observe act) := by
  intro s hn hs
  simp only [run, Prototypal.observe, hc s hn hs]

lemma nested {act : Nat → Run α} (hc : c.Realizes (n + 1) (act (n + 1))) :
    (Code.nested c).Realizes n (Prototypal.nested act) := by
  intro s hn hs
  subst hn
  rw [run, nested_run, nested_run, hc { s with callDepth := s.callDepth + 1 } rfl hs]

/-- A limit fits 64 bits, so at some level every limit has been met, and nothing is carried out. -/
lemma tooDeep (h : UInt64.size ≤ n) (c : Code f α) (act : Nat → Run α) :
    (Code.nested c).Realizes n (Prototypal.nested act) := by
  intro s hn hs
  have tooDeep : s.limits.callDepth.toNat < s.callDepth + 1 := by
    have := s.limits.callDepth.toNat_lt_size
    omega
  rw [run, nested_run, nested_run, if_pos tooDeep, if_pos tooDeep]

lemma callDepth (next : Nat → Run α) (hc : c.Realizes n (next n)) :
    c.Realizes n (do next (← get).callDepth) := by
  intro s hn hs
  subst hn
  exact hc s rfl hs

end Code.Realizes

/-! ## Every evaluation has a code -/

/-- Computations that one careful code of a fragment stands for. -/
def Coded (f : Fragment) [Mentions α] (n : Nat) (K : Set ObjectId) (act act' : Run α) : Prop :=
  ∃ c : Code f α, c.Realizes n act ∧ c.Realizes n act' ∧ c.Careful K objects

namespace Coded

variable [Mentions α] [Mentions β] {K : Set ObjectId} {act act' : Run α}

lemma eq (h : Coded f n K act act') {s : State} (hn : s.callDepth = n) (hs : s.heap.Within f) :
    act s = act' s := by
  obtain ⟨c, hc, hc', -⟩ := h
  exact (hc s hn hs).symm.trans (hc' s hn hs)

lemma mono {K' : Set ObjectId} (larger : K ⊆ K') (h : Coded f n K act act') :
    Coded f n K' act act' := by
  obtain ⟨c, hc, hc', careful⟩ := h
  exact ⟨c, hc, hc', careful.mono larger⟩

lemma ofElementary (h : Elementary f act) (handed : Handed f K act objects) :
    Coded f n K act act :=
  ⟨.op act h, .op h, .op h, handed⟩

lemma ofPure {a : α} (ha : Known K a) : Coded f n K (pure a : Run α) (pure a) :=
  ofElementary (.look fun _ => a) (.given a ha)

lemma ofProvided (h : Provided f K act objects) : Coded f n K act act :=
  ofElementary (.basic h.basic) (.provided h)

lemma bind {next next' : α → Run β} (h : Coded f n K act act')
    (hnext : ∀ a, Coded f n (adding K a) (next a) (next' a)) :
    Coded f n K (act >>= next) (act' >>= next') := by
  obtain ⟨c, hc, hc', careful⟩ := h
  choose d hd hd' rest using hnext
  exact ⟨.bind c d, hc.bind hd, hc'.bind hd', objects, careful, rest⟩

/-- Going on with a result of which no object is asked. -/
lemma thereupon {γ : Type} {act act' : Run γ} {next next' : γ → Run β}
    (h : @Coded γ f (.none γ) n K act act') (hnext : ∀ a, Coded f n K (next a) (next' a)) :
    Coded f n K (act >>= next) (act' >>= next') := by
  let inst : Mentions γ := .none γ
  exact bind h fun a => mono (subset_adding K a) (hnext a)

/-- Reading a payload, which is of the fragment. -/
lemma payload (o : ObjectId) {next next' : Payload → Run β}
    (h : ∀ p, p.within f = true → Coded f n (adding K p) (next p) (next' p)) :
    Coded f n K (payloadOf o >>= next) (payloadOf o >>= next') := by
  -- whatever is done with a payload from outside the fragment, it is never done
  have total : ∀ p, ∃ c : Code f β, (p.within f = true → c.Realizes n (next p)) ∧
      (p.within f = true → c.Realizes n (next' p)) ∧ c.Careful (adding K p) objects := by
    intro p
    by_cases hp : p.within f = true
    · obtain ⟨c, hc, hc', careful⟩ := h p hp
      exact ⟨c, fun _ => hc, fun _ => hc', careful⟩
    · refine ⟨.op _ (.basic (.fail (.tooDeep 0))), ?_, ?_, .provided (.fail _ _)⟩
      · exact fun hp' => absurd hp' hp
      · exact fun hp' => absurd hp' hp
  choose d hd hd' rest using total
  have reading : Elementary f (payloadOf o) := .basic (.look fun x _ => x.payload o)
  exact ⟨.bind (.op (payloadOf o) reading) d, .payload o reading hd, .payload o reading hd',
    objects, .provided (.payloadOf o), rest⟩

/-- Looking at a part of the state, and going on with what was seen. -/
lemma look {γ : Type} (part : State → γ) {next next' : γ → Run β}
    (h : ∀ x, Coded f n K (next x) (next' x)) :
    Coded f n K (do next (part (← get))) (do next' (part (← get))) := by
  have looking : @Coded γ f (.none γ) n K (do return part (← get)) (do return part (← get)) :=
    @ofElementary f n γ (.none γ) K _ (.look part) (.look part)
  have seen : Coded f n K ((do return part (← get)) >>= next)
      ((do return part (← get)) >>= next') := thereupon looking h
  exact seen

/-- The parts of a check have codes; no object is asked of what they come to. -/
lemma sequential (f : Fragment) (n : Nat) :
    Sequential fun {α} act => ∀ K, @Coded α f (.none α) n K act act where
  bind {α β _ _} hact hnext K :=
    @bind f n α β (.none α) (.none β) K _ _ _ _ (hact K) fun a => hnext a _
  ofPure {α} a K := @ofPure f n α (.none α) K a fun _ => nofun
  look {α} g K := @ofProvided f n α (.none α) K _ (.look g)
  isA o target K := @ofProvided f n _ (.none _) K _ (.isA o target)
  violated v K := @ofElementary f n _ (.none _) K _ (.violated v) (.violated v)
  fail x K := @ofProvided f n _ (.none _) K _ (.fail x _)

lemma checkedAt (l : Strictness) (receiver : ObjectId) (r : Request)
    (produced : α → Option ObjectId) (h : Coded f n K act act') :
    Coded f n K (checkedAt l receiver r produced act) (checkedAt l receiver r produced act') := by
  refine thereupon ((sequential f n).reportBefore l receiver r K) fun _ => bind h fun a => ?_
  refine thereupon ((sequential f n).reportAfter l receiver r (produced a) _) fun _ => ?_
  exact ofPure (known_adding K a)

lemma checked (receiver : ObjectId) (r : Request) (produced : α → Option ObjectId)
    (h : Coded f n K act act') :
    Coded f n K (checked receiver r produced act) (checked receiver r produced act') := by
  have demanded : ∀ l, Coded f n K (checkedBy l receiver r produced act)
      (checkedBy l receiver r produced act') := by
    intro l
    rw [checkedBy, checkedBy]
    split
    · exact checkedAt l receiver r produced h
    · exact h
  rw [checked_eq_look, checked_eq_look]
  exact look State.strictness demanded

lemma attempt {body body' : ObjectId → Run ObjectId}
    (h : ∀ token, Coded f n (adding K token) (body token) (body' token)) :
    Coded f n K (attempt body) (attempt body') := by
  choose d hd hd' careful using h
  exact ⟨.attempt d, .attempt hd, .attempt hd', rfl, careful⟩

lemma settle (hf : f.settles = true) (h : Coded f n K act act') :
    Coded f n K (settle act) (settle act') := by
  obtain ⟨c, hc, hc', careful⟩ := h
  exact ⟨.settle hf c, hc.settle hf, hc'.settle hf, careful⟩

lemma observe (hf : f.observes = true) {act act' : Run Value} (h : Coded f n K act act') :
    Coded f n K (observe act) (observe act') := by
  obtain ⟨c, hc, hc', careful⟩ := h
  exact ⟨.observe hf c, hc.observe hf, hc'.observe hf, rfl, careful⟩

lemma nested {act act' : Nat → Run α} (h : Coded f (n + 1) K (act (n + 1)) (act' (n + 1))) :
    Coded f n K (nested act) (nested act') := by
  obtain ⟨c, hc, hc', careful⟩ := h
  exact ⟨.nested c, hc.nested, hc'.nested, careful⟩

/-- Where every limit has been met, nothing is left to be coded. -/
lemma tooDeep (h : UInt64.size ≤ n) (act act' : Nat → Run ObjectId) :
    Coded f n K (Prototypal.nested act) (Prototypal.nested act') := by
  obtain ⟨c, -, -, careful⟩ := ofPure (f := f) (n := n) (known_null K)
  exact ⟨.nested c, .tooDeep h c act, .tooDeep h c act', careful⟩

end Coded

/-- Being coded is a tracking, for every fragment. -/
def coding (f : Fragment) : Tracking f where
  Relates n K act act' := Coded f n K act act'
  mono := Coded.mono
  ofPure _ _ _ := Coded.ofPure
  bind := Coded.bind
  payload := Coded.payload
  provided := Coded.ofProvided
  boundaries _ h := Coded.look State.boundaries h
  fixed _ _ _ _ _ _ h := Coded.look State.fixed h
  strictness _ _ _ _ _ _ h := Coded.look State.strictness h
  setStrictness _ _ l hl := .ofElementary (.setStrictness hl) (.setStrictness l)
  fixSettings _ _ x hx := .ofElementary (.fixSettings hx) (.fixSettings x)
  returnLevels _ m _ _ hv := .ofElementary (.returnLevels m _) (.returnLevels m hv _)
  returnTo _ token _ _ hv := .ofElementary (.returnTo token _) (.returnTo token hv _)
  raise hf _ _ _ _ e he := .ofElementary (.raise hf e) (.raise e he _)
  attempt := Coded.attempt
  settle hf _ _ _ _ _ _ := Coded.settle hf
  observe hf _ _ _ _ := Coded.observe hf
  checked o r produced _ _ h := h.checked o r produced
  callDepth next h := by
    obtain ⟨c, hc, hc', careful⟩ := h
    exact ⟨c, .callDepth next hc, .callDepth next hc', careful⟩
  nested := Coded.nested
  exhausted h := Coded.tooDeep h _ _

/-- **Every evaluation is the run of a careful code,** of the fragment that the expression belongs
to. -/
theorem exists_careful_code {e : Expr} (he : e.within f = true) (n : Nat) {K : Set ObjectId}
    {i : Invocation} (hi : Known K i) :
    ∃ c : Code f Value, c.Realizes n (eval enterCall i e) ∧ c.Careful K objects := by
  have coded : Coded f n K (eval enterCall i e) (eval enterCall i e) :=
    (coding f).keeps_evaluate hi he
  obtain ⟨c, hc, -, careful⟩ := coded
  exact ⟨c, hc, careful⟩

/-- Every evaluation is the run of a code, whatever the body that it is part of sees. -/
theorem exists_code {e : Expr} (he : e.within f = true) (n : Nat) (i : Invocation) :
    ∃ c : Code f Value, c.Realizes n (eval enterCall i e) := by
  obtain ⟨c, hc, -⟩ := exists_careful_code he n (known_univ i)
  exact ⟨c, hc⟩

end Prototypal
