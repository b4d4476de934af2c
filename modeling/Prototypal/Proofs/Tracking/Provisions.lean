import Prototypal.Proofs.Discipline
import Prototypal.Proofs.Tracking.Mentions

/-!
# Disciplines that keep track of objects

Some facts about runs depend on where objects come from: a computation stores and hands back objects
that it was given, that it has read or that it has made, and no others.  A *tracking* is like a
discipline, with the known objects counted along: what a computation hands back is known to what
comes after it.  It relates two computations, so that evaluations that differ in how they carry
calls out can be compared; a computation keeps to the tracking if it is related to itself.

* `Provided` — the basic operations, each with the objects that must be known for it and those that
  its result then makes known.
* `Tracking` — the relation and what has to be shown of it.
* `Discipline.tracking` — a discipline asks for no objects, and of each computation alone.
* The rest of the module climbs from the basic operations to answers, one lemma per function.
-/

namespace Prototypal

open Mentions (objects)

/-- The basic operations, with known objects and with the objects that results mention. -/
inductive Provided (f : Fragment) (K : Set ObjectId) :
    {α : Type} → Run α → (α → List ObjectId) → Prop where
  | look {α : Type} (g : Heap → Names → α) :
      Provided f K (do let s ← get; return g s.heap s.names) fun _ => []
  | payloadOf (o : ObjectId) : Provided f K (payloadOf o) objects
  | slotsOf (o : ObjectId) : Provided f K (slotsOf o) objects
  | valueOf (name : String) : Provided f K (valueOf name) objects
  | note (e : Event) (he : e.component = .dispatch ∨ e.component = .closure) :
      Provided f K (note e) objects
  | makeWith (p : Payload) (parent : Option ObjectId) (stepparents : List ObjectId)
      (hp : p.within f = true) (payload : Known K p) (above : Known K parent)
      (beside : Known K stepparents) : Provided f K (makeWith p parent stepparents) objects
  | makeClosure (b : Body) (hb : b.within f = true) : Provided f K (makeClosure b) objects
  | copy (o : ObjectId) : Provided f K (copy o) objects
  | skipId : Provided f K skipId fun _ => []
  | intern (text : String) : Provided f K (intern text) objects
  | assign (name : String) (v : Value) (hv : Known K v) : Provided f K (assign name v) objects
  | emit (j : Json) : Provided f K (emit j) objects
  | slotSet (o : ObjectId) (k : Key) (v : ObjectId) (hk : Known K k) (hv : Known K v) :
      Provided f K (slotSet o k v) objects
  | slotDelete (o : ObjectId) (k : Key) : Provided f K (slotDelete o k) objects
  | makeReadonly (o : ObjectId) (k : Key) (hk : Known K k) :
      Provided f K (makeReadonly o k) objects
  | setParent (o : ObjectId) (parent : Option ObjectId) (h : Known K parent) :
      Provided f K (setParent o parent) objects
  | pushStepparent (o stepparent : ObjectId) (h : Known K stepparent) :
      Provided f K (pushStepparent o stepparent) objects
  | resolve (o : ObjectId) (k : Key) (hk : k.isReserved = false) :
      Provided f K (resolve o k) objects
  | resolveAbove (o : ObjectId) (k : Key) : Provided f K (resolveAbove o k) objects
  | isA (o target : ObjectId) : Provided f K (isA o target) objects
  | fail {α : Type} (x : Fault) (mentioned : α → List ObjectId) :
      Provided f K (fail x : Run α) mentioned

lemma Provided.basic {f : Fragment} {K : Set ObjectId} {α : Type} {act : Run α}
    {mentioned : α → List ObjectId} (h : Provided f K act mentioned) : Basic f act := by
  cases h with
  | look g => exact .look g
  | payloadOf o => exact .look fun h _ => h.payload o
  | slotsOf o => exact .look fun h _ => h.slots o
  | valueOf name => exact .valueOf name
  | note e he => exact .note e he
  | makeWith p parent stepparents hp => exact .makeWith p parent stepparents hp
  | makeClosure b hb => exact .makeClosure b hb
  | copy o => exact .copy o
  | skipId => exact .skipId
  | intern text => exact .intern text
  | assign name v => exact .assign name v
  | emit j => exact .emit j
  | slotSet o k v => exact .slotSet o k v
  | slotDelete o k => exact .slotDelete o k
  | makeReadonly o k => exact .makeReadonly o k
  | setParent o parent => exact .setParent o parent
  | pushStepparent o stepparent => exact .pushStepparent o stepparent
  | resolve o k hk => exact .resolve o k hk
  | resolveAbove o k => exact .resolveAbove o k
  | isA o target => exact .isA o target
  | fail x => exact .fail x

lemma Provided.mono {f : Fragment} {K K' : Set ObjectId} {α : Type} {act : Run α}
    {mentioned : α → List ObjectId} (h : Provided f K act mentioned) (larger : K ⊆ K') :
    Provided f K' act mentioned := by
  cases h with
  | look g => exact .look g
  | payloadOf o => exact .payloadOf o
  | slotsOf o => exact .slotsOf o
  | valueOf name => exact .valueOf name
  | note e he => exact .note e he
  | makeWith p parent stepparents hp payload above beside =>
      exact .makeWith p parent stepparents hp (payload.mono larger) (above.mono larger)
        (beside.mono larger)
  | makeClosure b hb => exact .makeClosure b hb
  | copy o => exact .copy o
  | skipId => exact .skipId
  | intern text => exact .intern text
  | assign name v hv => exact .assign name v (hv.mono larger)
  | emit j => exact .emit j
  | slotSet o k v hk hv => exact .slotSet o k v (hk.mono larger) (hv.mono larger)
  | slotDelete o k => exact .slotDelete o k
  | makeReadonly o k hk => exact .makeReadonly o k (hk.mono larger)
  | setParent o parent h => exact .setParent o parent (h.mono larger)
  | pushStepparent o stepparent h => exact .pushStepparent o stepparent (h.mono larger)
  | resolve o k hk => exact .resolve o k hk
  | resolveAbove o k => exact .resolveAbove o k
  | isA o target => exact .isA o target
  | fail x => exact .fail x mentioned

/-- A relation between computations at a level of nesting, and with known objects, that any two
evaluations of an expression of the fragment have whose calls have it. -/
structure Tracking (f : Fragment) where
  /-- The computations that keep to each other, and whose results mention known objects. -/
  Relates : {α : Type} → [Mentions α] → Nat → Set ObjectId → Run α → Run α → Prop
  mono : ∀ {α : Type} [Mentions α] {n : Nat} {K K' : Set ObjectId} {act act' : Run α},
    K ⊆ K' → Relates n K act act' → Relates n K' act act'
  ofPure : ∀ {α : Type} [Mentions α] (n : Nat) {K : Set ObjectId} {a : α},
    Known K a → Relates n K (pure a) (pure a)
  bind : ∀ {α β : Type} [Mentions α] [Mentions β] {n : Nat} {K : Set ObjectId} {act act' : Run α}
    {next next' : α → Run β}, Relates n K act act' →
    (∀ a, Relates n (adding K a) (next a) (next' a)) → Relates n K (act >>= next) (act' >>= next')
  /-- What is read from the heap carries no body from outside the fragment. -/
  payload : ∀ {β : Type} [Mentions β] {n : Nat} {K : Set ObjectId} (o : ObjectId)
    {next next' : Payload → Run β},
    (∀ p, p.within f = true → Relates n (adding K p) (next p) (next' p)) →
    Relates n K (payloadOf o >>= next) (payloadOf o >>= next')
  provided : ∀ {α : Type} [Mentions α] {n : Nat} {K : Set ObjectId} {act : Run α},
    Provided f K act objects → Relates n K act act
  boundaries : ∀ {β : Type} [Mentions β] {n : Nat} {K : Set ObjectId}
    (next : List Marker → Run β), (∀ bs, Relates n K (next bs) (next bs)) →
    Relates n K (do next (← get).boundaries) (do next (← get).boundaries)
  fixed : f.settings = true → ∀ {β : Type} [Mentions β] {n : Nat} {K : Set ObjectId}
    (next : Option Settings → Run β), (∀ x, Relates n K (next x) (next x)) →
    Relates n K (do next (← get).fixed) (do next (← get).fixed)
  strictness : f.strictness = true → ∀ {β : Type} [Mentions β] {n : Nat} {K : Set ObjectId}
    (next : Strictness → Run β), (∀ l, Relates n K (next l) (next l)) →
    Relates n K (do next (← get).strictness) (do next (← get).strictness)
  setStrictness : ∀ (n : Nat) (K : Set ObjectId) {l : Strictness},
    f.allows (.strictness l) = true → Relates n K (setStrictness l) (setStrictness l)
  fixSettings : ∀ (n : Nat) (K : Set ObjectId) {x : Settings},
    f.allows (.settings x) = true → Relates n K (fixSettings x) (fixSettings x)
  returnLevels : ∀ {α : Type} [Mentions α] (n levels : Nat) {K : Set ObjectId} {v : ObjectId},
    Known K v → Relates n K (returnLevels levels v : Run α) (returnLevels levels v)
  returnTo : ∀ {α : Type} [Mentions α] (n : Nat) (token : ObjectId) {K : Set ObjectId}
    {v : ObjectId}, Known K v → Relates n K (returnTo token v : Run α) (returnTo token v)
  raise : f.raises = true → ∀ {α : Type} [Mentions α] (n : Nat) {K : Set ObjectId} (e : Escape),
    Known K e.value → Relates n K (throw (.escape e) : Run α) (throw (.escape e))
  attempt : ∀ {n : Nat} {K : Set ObjectId} {body body' : ObjectId → Run ObjectId},
    (∀ token, Relates n (adding K token) (body token) (body' token)) →
    Relates n K (attempt body) (attempt body')
  settle : f.settles = true → ∀ {α : Type} [Mentions α] {n : Nat} {K : Set ObjectId}
    {act act' : Run α}, Relates n K act act' → Relates n K (settle act) (settle act')
  observe : f.observes = true → ∀ {n : Nat} {K : Set ObjectId} {act act' : Run Value},
    Relates n K act act' → Relates n K (observe act) (observe act')
  checked : ∀ {α : Type} [Mentions α] {n : Nat} {K : Set ObjectId} (o : ObjectId) (r : Request)
    (produced : α → Option ObjectId) {act act' : Run α}, Relates n K act act' →
    Relates n K (checked o r produced act) (checked o r produced act')
  /-- The level of nesting is the one that the state counts. -/
  callDepth : ∀ {β : Type} [Mentions β] {n : Nat} {K : Set ObjectId} (next : Nat → Run β),
    Relates n K (next n) (next n) →
    Relates n K (do next (← get).callDepth) (do next (← get).callDepth)
  nested : ∀ {α : Type} [Mentions α] {n : Nat} {K : Set ObjectId} {act act' : Nat → Run α},
    Relates (n + 1) K (act (n + 1)) (act' (n + 1)) → Relates n K (nested act) (nested act')
  /-- No limit on calls reaches the level at which the recursion bound ends. -/
  exhausted : ∀ {n : Nat} {K : Set ObjectId}, UInt64.size ≤ n →
    Relates n K (Prototypal.nested fun _ => throw .exhausted : Run ObjectId)
      (Prototypal.nested fun _ => throw .exhausted)

/-- A discipline asks for no objects, and of each computation alone. -/
def Discipline.tracking {f : Fragment} (D : Discipline f) : Tracking f where
  Relates n _ act act' := D.Keeps n act ∧ D.Keeps n act'
  mono _ h := h
  ofPure n _ a _ := ⟨D.ofPure n a, D.ofPure n a⟩
  bind h hnext := ⟨D.bind h.1 fun a => (hnext a).1, D.bind h.2 fun a => (hnext a).2⟩
  payload o _ _ h := ⟨D.payload o fun p hp => (h p hp).1, D.payload o fun p hp => (h p hp).2⟩
  provided h := ⟨D.basic h.basic, D.basic h.basic⟩
  boundaries next h :=
    ⟨D.boundaries next fun bs => (h bs).1, D.boundaries next fun bs => (h bs).2⟩
  fixed hf _ _ _ _ next h :=
    ⟨D.fixed hf next fun x => (h x).1, D.fixed hf next fun x => (h x).2⟩
  strictness hf _ _ _ _ next h :=
    ⟨D.strictness hf next fun l => (h l).1, D.strictness hf next fun l => (h l).2⟩
  setStrictness n _ _ hl := ⟨D.setStrictness n hl, D.setStrictness n hl⟩
  fixSettings n _ _ hx := ⟨D.fixSettings n hx, D.fixSettings n hx⟩
  returnLevels n levels _ v _ := ⟨D.returnLevels n levels v, D.returnLevels n levels v⟩
  returnTo n token _ v _ := ⟨D.returnTo n token v, D.returnTo n token v⟩
  raise hf _ _ n _ e _ := ⟨D.raise hf n e, D.raise hf n e⟩
  attempt h := ⟨D.attempt fun token => (h token).1, D.attempt fun token => (h token).2⟩
  settle hf _ _ _ _ _ _ h := ⟨D.settle hf h.1, D.settle hf h.2⟩
  observe hf _ _ _ _ h := ⟨D.observe hf h.1, D.observe hf h.2⟩
  checked o r produced _ _ h := ⟨D.checked o r produced h.1, D.checked o r produced h.2⟩
  callDepth next h := ⟨D.callDepth next h.1, D.callDepth next h.2⟩
  nested h := ⟨D.nested h.1, D.nested h.2⟩
  exhausted h := ⟨D.exhausted h, D.exhausted h⟩

namespace Tracking

/-- The computations that keep to themselves. -/
abbrev Keeps {f : Fragment} (T : Tracking f) {α : Type} [Mentions α] (n : Nat) (K : Set ObjectId)
    (act : Run α) : Prop :=
  T.Relates n K act act

variable {f : Fragment} (T : Tracking f) {n : Nat} {K : Set ObjectId}

/-! ## Sequencing -/

section Sequencing

variable {α β : Type} [Mentions β]

/-- Going on with a result, in any setting in which it is known. -/
lemma andThen [Mentions α] {act act' : Run α} {next next' : α → Run β}
    (h : T.Relates n K act act')
    (hnext : ∀ a K', K ⊆ K' → Known K' a → T.Relates n K' (next a) (next' a)) :
    T.Relates n K (act >>= next) (act' >>= next') :=
  T.bind h fun a => hnext a _ (subset_adding K a) (known_adding K a)

/-- Going on with a result of which no object is asked. -/
lemma thereupon {act act' : Run α} {next next' : α → Run β}
    (h : @Relates f T α (.none α) n K act act') (hnext : ∀ a, T.Relates n K (next a) (next' a)) :
    T.Relates n K (act >>= next) (act' >>= next') := by
  let inst : Mentions α := .none α
  exact T.bind h fun a => T.mono (subset_adding K a) (hnext a)

/-- Reading a payload, which is of the fragment, and known. -/
lemma onPayload (o : ObjectId) {next next' : Payload → Run β}
    (h : ∀ p K', p.within f = true → K ⊆ K' → Known K' p → T.Relates n K' (next p) (next' p)) :
    T.Relates n K (payloadOf o >>= next) (payloadOf o >>= next') :=
  T.payload o fun p hp => h p _ hp (subset_adding K p) (known_adding K p)

lemma keeps_map [Mentions α] {act act' : Run α} {g : α → β}
    (hg : ∀ a, objects (g a) ⊆ objects a) (h : T.Relates n K act act') :
    T.Relates n K (g <$> act) (g <$> act') := by
  rw [← bind_pure_comp, ← bind_pure_comp]
  refine T.andThen h fun a K' _ ha => T.ofPure n ?_
  exact fun o ho => ha o (hg a ho)

lemma keeps_object {act act' : Run ObjectId} (h : T.Relates n K act act') :
    T.Relates n K (Value.object <$> act) (Value.object <$> act') :=
  T.keeps_map (fun _ _ ho => ho) h

lemma keeps_mapM {g : α → Run β} {xs : List α} (h : ∀ a ∈ xs, T.Keeps n K (g a)) :
    T.Keeps n K (xs.mapM g) := by
  induction xs generalizing K with
  | nil =>
      rw [List.mapM_nil]
      exact T.ofPure n (by simp)
  | cons a xs ih =>
      rw [List.mapM_cons]
      refine T.andThen (h a List.mem_cons_self) fun b K₁ h₁ hb => ?_
      have rest : T.Keeps n K₁ (xs.mapM g) :=
        ih fun x hx => T.mono h₁ (h x (List.mem_cons_of_mem a hx))
      refine T.andThen rest fun bs K₂ h₂ hbs => T.ofPure n ?_
      exact known_cons.mpr ⟨hb.mono h₂, hbs⟩

lemma keeps_forM {g : α → Run PUnit} {xs : List α} (h : ∀ a, T.Keeps n K (g a)) :
    T.Keeps n K (xs.forM g) := by
  induction xs with
  | nil => exact T.ofPure n fun _ => nofun
  | cons a xs ih => exact T.thereupon (h a) fun _ => ih

lemma keeps_times {act act' : Run Unit} (h : T.Relates n K act act') (m : Nat) :
    T.Relates n K (times act m) (times act' m) := by
  induction m with
  | zero => exact T.ofPure n fun _ => nofun
  | succ m ih => exact T.thereupon h fun _ => ih

end Sequencing

/-! ## Reading and making -/

/-- Looking at the heap and at the names, and going on with what was seen. -/
lemma keeps_look {β : Type} [Mentions β] {next : State → Run β}
    (seen : ∀ s t, s.heap = t.heap → s.names = t.names → next s = next t)
    (h : ∀ s, T.Keeps n K (next s)) : T.Keeps n K (get >>= next) := by
  -- `next` sees no more of a state than one that has only these two parts of it
  have looking : T.Keeps n K ((do let s ← get; return (s.heap, s.names)) >>= fun x =>
      next { State.initial with heap := x.1, names := x.2 }) :=
    T.thereupon (@provided f T _ (.none _) n K _ (.look fun h names => (h, names))) fun x => h _
  have same : (get >>= next) = ((do let s ← get; return (s.heap, s.names)) >>= fun x =>
      next { State.initial with heap := x.1, names := x.2 }) := by
    funext s
    exact congrFun (seen s { State.initial with heap := s.heap, names := s.names } rfl rfl) s
  rw [same]
  exact looking

lemma keeps_payloadOf (o : ObjectId) : T.Keeps n K (payloadOf o) :=
  T.provided (.payloadOf o)

lemma keeps_slotsOf (o : ObjectId) : T.Keeps n K (slotsOf o) :=
  T.provided (.slotsOf o)

lemma keeps_kindOf (o : ObjectId) : T.Keeps n K (kindOf o) :=
  T.andThen (T.keeps_payloadOf o) fun _ _ _ _ => T.ofPure n fun _ => nofun

lemma keeps_make {p : Payload} (hp : p.within f = true) (known : Known K p) :
    T.Keeps n K (make p) :=
  T.provided (.makeWith p none [] hp known known_none (by simp))

/-- Payloads without objects may always be made. -/
lemma keeps_makePlain {p : Payload} (hp : p.within f = true) (none : objects p = []) :
    T.Keeps n K (make p) :=
  T.keeps_make hp (by simp [Known, none])

lemma keeps_note {e : Event} (he : e.component = .dispatch ∨ e.component = .closure) :
    T.Keeps n K (note e) :=
  T.provided (.note e he)

lemma keeps_keyOf {o : ObjectId} (ho : Known K o) : T.Keeps n K (keyOf o) := by
  refine T.andThen (T.keeps_payloadOf o) fun p K' h' _ => ?_
  cases p with
  | text t => exact T.andThen (T.provided (.intern t)) fun y _ _ _ => T.ofPure n known_name
  | _ => exact T.ofPure n (known_object.mpr (ho.mono h'))

lemma keeps_keyObject {k : Key} (hk : Known K k) : T.Keeps n K (keyObject k) := by
  cases k with
  | name y =>
      exact T.keeps_look (fun s t _ names => by simp only [names]) fun s =>
        T.keeps_makePlain rfl rfl
  | object o => exact T.ofPure n (known_object.mp hk)

/-! ## Slots and lookup -/

lemma keeps_toObject {e : Entry} (he : Known K e) : T.Keeps n K e.toObject := by
  cases e with
  | stored o => exact T.ofPure n (known_stored.mp he)
  | identity o => exact T.keeps_makePlain rfl rfl
  | keys ks =>
      have keys : Known K ks := he
      refine T.andThen (T.keeps_mapM fun k hk => T.keeps_keyObject (known_list.mp keys k hk)) ?_
      exact fun os K' _ hos => T.keeps_make rfl hos
  | group os => exact T.keeps_make rfl (known_group.mp he)

lemma keeps_slotGet (o : ObjectId) (k : Key) : T.Keeps n K (slotGet o k) := by
  refine T.andThen (T.keeps_slotsOf o) fun slots K' _ hs => ?_
  have answered : Known K' (slots.read? k) := hs.read? k
  cases he : slots.read? k with
  | some e =>
      rw [he] at answered
      have same : ∀ o : ObjectId, objects (some o) ⊆ objects o := by simp [objects]
      exact T.keeps_map same (T.keeps_toObject (known_some.mp answered))
  | none => exact T.ofPure n known_none

lemma keeps_resolve {o : ObjectId} (ho : Known K o) (k : Key) : T.Keeps n K (resolve o k) := by
  cases hk : k.isReserved with
  | true =>
      rw [resolve, if_pos hk]
      refine T.andThen (T.keeps_slotGet o k) fun v K' h' hv => T.ofPure n ?_
      cases v with
      | none => exact known_none
      | some v => exact known_some.mpr (known_found.mpr ⟨ho.mono h', known_some.mp hv⟩)
  | false => exact T.provided (.resolve o k hk)

/-- The value that was found. -/
lemma known_value_of_found {found : Option Found} (h : Known K found) :
    Known K (found.map Found.value) := by
  cases found with
  | none => exact known_none
  | some x => exact known_some.mpr (known_found.mp (known_some.mp h)).2

lemma keeps_lookup {o : ObjectId} (ho : Known K o) (k : Key) : T.Keeps n K (lookup o k) :=
  T.andThen (T.keeps_resolve ho k) fun _ _ _ h => T.ofPure n (known_value_of_found h)

lemma keeps_lookupAbove (o : ObjectId) (k : Key) : T.Keeps n K (lookupAbove o k) :=
  T.andThen (T.provided (.resolveAbove o k)) fun _ _ _ h => T.ofPure n (known_value_of_found h)

/-! ## Checks and attributes -/

lemma keeps_inspection {α : Type} {act : Run α} (h : Inspection act) :
    @Keeps f T α (.none α) n K act := by
  induction h generalizing K with
  | @ofPure α a => exact @ofPure f T α (.none α) n K a fun _ => nofun
  | look g => exact @provided f T _ (.none _) n K _ (.look g)
  | isA o target => exact @provided f T _ (.none _) n K _ (.isA o target)
  | @bind α β _ _ _ _ hact hnext =>
      exact @bind f T α β (.none α) (.none β) n K _ _ _ _ hact fun a => hnext a

lemma keeps_getAttribute {o : ObjectId} (ho : Known K o) (k : Key) :
    T.Keeps n K (getAttribute o k) := by
  refine T.checked o (.get k) some ?_
  refine T.andThen (T.keeps_lookup ho k) fun found K' _ hfound => ?_
  exact T.thereupon (T.keeps_note (.inl rfl)) fun _ => T.ofPure n hfound.getD

lemma keeps_setAttribute (o : ObjectId) {k : Key} {v : ObjectId} (hk : Known K k)
    (hv : Known K v) : T.Keeps n K (setAttribute o k v) :=
  T.checked o (.set k v) _ (T.provided (.slotSet o k v hk hv))

lemma keeps_deleteAttribute (o : ObjectId) (k : Key) : T.Keeps n K (deleteAttribute o k) :=
  T.checked o (.delete k) some (T.provided (.slotDelete o k))

lemma keeps_hasAttribute (o : ObjectId) (k : Key) : T.Keeps n K (hasAttribute o k) :=
  T.andThen (T.keeps_slotsOf o) fun _ _ _ _ => T.ofPure n fun _ => nofun

lemma keeps_respondsTo {o : ObjectId} (ho : Known K o) (k : Key) :
    T.Keeps n K (respondsTo o k) :=
  T.andThen (T.keeps_resolve ho k) fun _ _ _ _ => T.ofPure n fun _ => nofun

lemma keeps_attributeAbove (o : ObjectId) (k : Key) : T.Keeps n K (attributeAbove o k) :=
  T.andThen (T.keeps_lookupAbove o k) fun _ _ _ h => T.ofPure n h.getD

/-! ## Answers -/

lemma keeps_hostValue (j : Json) : T.Keeps n K (hostValue j) :=
  T.ofPure n known_host

lemma keeps_showObject (o : ObjectId) : T.Keeps n K (showObject o) :=
  T.provided (.look fun h _ => h.picture o)

lemma keeps_showObjects (os : List ObjectId) : T.Keeps n K (showObjects os) :=
  T.andThen (T.keeps_mapM fun o _ => T.keeps_showObject o) fun _ _ _ _ => T.ofPure n fun _ => nofun

lemma keeps_showOption (o : Option ObjectId) : T.Keeps n K (showOption o) := by
  cases o with
  | some o => exact T.thereupon (T.keeps_showObject o) fun j => T.keeps_hostValue j
  | none => exact T.keeps_hostValue .null

lemma keeps_box {v : Value} (hv : Known K v) : T.Keeps n K (box v) := by
  unfold box
  split
  · exact T.ofPure n (known_value.mp hv)
  · exact T.keeps_makePlain rfl rfl
  · exact T.keeps_makePlain rfl rfl
  · exact T.keeps_makePlain rfl rfl
  · exact T.ofPure n (known_null K)

/-- Going on with a value as an object. -/
lemma asObject {β : Type} [Mentions β] {act act' : Run Value} {next next' : ObjectId → Run β}
    (h : T.Relates n K act act')
    (hnext : ∀ o K', K ⊆ K' → Known K' o → T.Relates n K' (next o) (next' o)) :
    T.Relates n K (act >>= fun v => box v >>= next) (act' >>= fun v => box v >>= next') := by
  refine T.andThen h fun v K₁ h₁ hv => T.andThen (T.keeps_box hv) fun o K₂ h₂ ho => ?_
  exact hnext o K₂ (h₁.trans h₂) ho

lemma keeps_isTrue (v : Value) : T.Keeps n K (isTrue v) := by
  unfold isTrue
  split
  · exact T.andThen (T.keeps_payloadOf _) fun _ _ _ _ => T.ofPure n fun _ => nofun
  · exact T.ofPure n fun _ => nofun
  · exact T.ofPure n fun _ => nofun

lemma keeps_numberOf (v : Value) : T.Keeps n K (numberOf v) := by
  unfold numberOf
  split
  · exact T.andThen (T.keeps_payloadOf _) fun _ _ _ _ => T.ofPure n fun _ => nofun
  · exact T.ofPure n fun _ => nofun
  · exact T.ofPure n fun _ => nofun

lemma keeps_textOf (v : Value) : T.Keeps n K (textOf v) := by
  unfold textOf
  split
  · refine T.andThen (T.keeps_payloadOf _) fun p _ _ _ => ?_
    split
    · exact T.ofPure n fun _ => nofun
    · exact T.ofPure n fun _ => nofun
  · exact T.ofPure n fun _ => nofun
  · exact T.ofPure n fun _ => nofun

lemma keeps_coercionInfo (c : Coercion) (o : ObjectId) : T.Keeps n K (coercionInfo c o) := by
  refine T.andThen (T.keeps_payloadOf o) fun p _ _ _ => ?_
  exact T.keeps_look (fun s t heap _ => by simp only [heap]) fun s => T.keeps_hostValue _

lemma keeps_payloadInfo (kind : Kind) (o : ObjectId) : T.Keeps n K (payloadInfo kind o) := by
  refine T.andThen (T.keeps_payloadOf o) fun p _ _ _ => ?_
  split
  · exact T.keeps_hostValue _
  · split
    · exact T.keeps_look (fun s t heap _ => by simp only [heap]) fun s => T.keeps_hostValue _
    · exact T.keeps_hostValue .null

lemma keeps_symbolInfo (y : Symbol) : T.Keeps n K (symbolInfo y) :=
  T.keeps_look (fun s t _ names => by simp only [names]) fun s => T.keeps_hostValue _

lemma keeps_keyInfo (k : Key) : T.Keeps n K (keyInfo k) :=
  T.keeps_look (fun s t heap names => by simp only [heap, names]) fun s => T.keeps_hostValue _

lemma keeps_slotsInfo (o : ObjectId) : T.Keeps n K (slotsInfo o) :=
  T.andThen (T.keeps_slotsOf o) fun _ _ _ _ => T.keeps_hostValue _

lemma keeps_closureInfo (o : ObjectId) : T.Keeps n K (closureInfo o) := by
  refine T.andThen (T.keeps_payloadOf o) fun p _ _ _ => ?_
  split
  · exact T.keeps_look (fun s t heap _ => by simp only [heap]) fun s => T.keeps_hostValue _
  · exact T.keeps_hostValue .null

lemma keeps_keyLabel (o : ObjectId) : T.Keeps n K (keyLabel o) := by
  refine T.andThen (T.keeps_payloadOf o) fun p _ _ _ => ?_
  split
  · exact T.ofPure n fun _ => nofun
  · exact T.ofPure n fun _ => nofun

lemma keeps_keyList (o : ObjectId) : T.Keeps n K (keyList o) := by
  refine T.andThen (T.keeps_payloadOf o) fun p _ _ _ => ?_
  exact T.andThen (T.keeps_mapM fun o _ => T.keeps_keyLabel o) fun _ _ _ _ => T.keeps_hostValue _

lemma keeps_showFound (found : Option Found) : T.Keeps n K (showFound found) := by
  cases found with
  | some x =>
      exact T.keeps_look (fun s t heap _ => by simp only [heap]) fun s => T.keeps_hostValue _
  | none => exact T.keeps_hostValue .null

lemma keeps_requestInfo (receiver : ObjectId) (r : Request) :
    T.Keeps n K (requestInfo receiver r) := by
  refine T.thereupon (T.keeps_inspection (.checkBefore receiver r)) fun violations => ?_
  exact T.keeps_look (fun s t _ names => by simp only [names]) fun s => T.keeps_hostValue _

end Tracking

end Prototypal
