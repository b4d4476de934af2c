import Prototypal.Proofs.Tracking.Provisions

/-!
# Every evaluation keeps to a discipline

The recursion through calls, base attributes, expressions and activations, done once for all
trackings, and so for all disciplines.

**Calls.**  Everything that calls takes the means of carrying an activation out as a parameter.
The section on calls takes two such means and assumes that they are related on known activations of
the fragment.  Where the two are the same, `Tracking.keeps_activate` discharges the assumption, by
induction on the gas.

**Expressions.**  `Tracking.keeps_eval` recurses as `eval` does, one case per constructor.  What is
known grows from operand to operand, so the recursion is for all known objects at once.

The results are `Tracking.keeps_evaluate` and `Discipline.keeps_evaluate`.
-/

namespace Prototypal

namespace Tracking

variable {f : Fragment} (T : Tracking f) {n : Nat} {K : Set ObjectId}

/-! ## Calls -/

section Calls

variable {enter enter' : Enter} (henter : ∀ {K : Set ObjectId} {a : Activation},
  a.within f = true → Known K a → T.Relates n K (enter a) (enter' a))

include henter

lemma keeps_invoke {this holder value : ObjectId} {args : List ObjectId} (hthis : Known K this)
    (hholder : Known K holder) (hvalue : Known K value) (hargs : Known K args) :
    T.Relates n K (invoke enter this holder value args) (invoke enter' this holder value args) := by
  refine T.onPayload value fun p K' hp h' _ => ?_
  cases hc : p.closure? with
  | some c =>
      have hbody : c.body.within f = true := p.within_of_closure? hp hc
      refine henter hbody (known_body.mpr ⟨(hthis.mono h').bind c, ?_, hargs.mono h'⟩)
      exact known_some.mpr (hholder.mono h')
  | none => exact henter rfl (known_call.mpr ⟨hvalue.mono h', hargs.mono h'⟩)

lemma keeps_callUnresolved (o : ObjectId) (k : Key) {args : List ObjectId} (hargs : Known K args) :
    T.Relates n K (callUnresolved enter o k args) (callUnresolved enter' o k args) := by
  have unanswered : ∀ K', T.Keeps n K' (leaveUnanswered o k) := fun K' =>
    T.thereupon (T.keeps_note (.inl rfl)) fun _ => T.ofPure n (known_null K')
  refine T.onPayload o fun p K' hp h' known => ?_
  cases hc : p.closure? with
  | none => exact unanswered K'
  | some c =>
      have hbody : c.body.within f = true := p.within_of_closure? hp hc
      cases k with
      | object x => exact unanswered K'
      | name y =>
          by_cases call : y = .call
          · simp only [call, if_true]
            exact henter hbody (known_body.mpr ⟨known.of_closure? hc, known_none, hargs.mono h'⟩)
          · simp only [call, if_false]
            split
            · exact T.keeps_make hbody ((hargs.mono h').headD.bind c)
            · exact unanswered K'

lemma keeps_dispatch {o : ObjectId} (k : Key) {args : List ObjectId} (ho : Known K o)
    (hargs : Known K args) :
    T.Relates n K (dispatch enter o k args) (dispatch enter' o k args) := by
  refine T.andThen (T.keeps_resolve ho k) fun found K' h' hfound => ?_
  cases found with
  | some x =>
      obtain ⟨holder, value⟩ := known_found.mp (known_some.mp hfound)
      exact T.keeps_invoke henter (ho.mono h') holder value (hargs.mono h')
  | none => exact T.keeps_callUnresolved henter o k (hargs.mono h')

lemma keeps_send {o : ObjectId} (k : Key) {args : List ObjectId} (ho : Known K o)
    (hargs : Known K args) : T.Relates n K (send enter o k args) (send enter' o k args) :=
  T.checked o (.call k) some (T.keeps_dispatch henter k ho hargs)

lemma keeps_sendAbove {this : ObjectId} (start : ObjectId) (k : Key) {args : List ObjectId}
    (hthis : Known K this) (hargs : Known K args) :
    T.Relates n K (sendAbove enter this start k args) (sendAbove enter' this start k args) := by
  refine T.andThen (T.provided (.resolveAbove start k)) fun found K' h' hfound => ?_
  cases found with
  | some x =>
      obtain ⟨holder, value⟩ := known_found.mp (known_some.mp hfound)
      exact T.thereupon (T.keeps_note (.inl rfl)) fun _ =>
        T.keeps_invoke henter (hthis.mono h') holder value (hargs.mono h')
  | none => exact T.thereupon (T.keeps_note (.inl rfl)) fun _ => T.ofPure n (known_null K')

lemma keeps_sendSuper {i : Invocation} (k : Key) {args : List ObjectId} (hi : Known K i)
    (hargs : Known K args) : T.Relates n K (sendSuper enter i k args) (sendSuper enter' i k args) :=
  T.keeps_sendAbove henter (i.holder.getD i.this) k hi.this hargs

lemma keeps_coerce {o : ObjectId} (ho : Known K o) (c : Coercion) :
    T.Relates n K (coerce enter o c) (coerce enter' o c) := by
  refine T.andThen (T.keeps_send henter _ ho (by simp)) fun v _ _ _ => ?_
  refine T.andThen (T.keeps_payloadOf v) fun p K' _ hp => ?_
  split
  · exact T.ofPure n hp
  · exact T.provided (.fail _ _)

lemma keeps_truthy {o : ObjectId} (ho : Known K o) :
    T.Relates n K (truthy enter o) (truthy enter' o) := by
  refine T.andThen (T.keeps_payloadOf o) fun p K' h' _ => ?_
  cases p.boolean? with
  | some b => exact T.ofPure n fun _ => nofun
  | none =>
      exact T.andThen (T.keeps_coerce henter (ho.mono h') .bool) fun _ _ _ _ =>
        T.ofPure n fun _ => nofun

lemma keeps_construct {p : Payload} (hp : p.within f = true) (payload : Known K p)
    {parent : Option ObjectId} (above : Known K parent) {stepparents : List ObjectId}
    (beside : Known K stepparents) {initializer : Option Closure}
    (hinit : ∀ c, initializer = some c → c.body.within f = true) :
    T.Relates n K (construct enter p parent stepparents initializer)
      (construct enter' p parent stepparents initializer) := by
  have made : T.Keeps n K (makeWith p parent stepparents) :=
    T.provided (.makeWith p parent stepparents hp payload above beside)
  refine T.andThen made fun o K₁ _ ho => ?_
  cases initializer with
  | some c =>
      have hbody : (Activation.body (c.bind o) none []).within f = true := hinit c rfl
      refine T.andThen (henter hbody ?_) fun _ K₂ h₂ _ => T.ofPure n (ho.mono h₂)
      exact known_body.mpr ⟨ho.bind c, known_none, by simp⟩
  | none => exact T.ofPure n ho

lemma keeps_giveBirth {o : ObjectId} (ho : Known K o) {initializer : Option Closure}
    (hinit : ∀ c, initializer = some c → c.body.within f = true) :
    T.Relates n K (giveBirth enter o initializer) (giveBirth enter' o initializer) :=
  T.keeps_construct henter rfl known_plain (known_some.mpr ho) (by simp) hinit

/-- The initializer of an object under construction is read from the heap. -/
lemma keeps_constructBy {p : Payload} (hp : p.within f = true) (payload : Known K p)
    {parent : Option ObjectId} (above : Known K parent) {stepparents : List ObjectId}
    (beside : Known K stepparents) (x : Option ObjectId) :
    T.Relates n K
      (do
        let initializer ← match x with
          | some o => do pure (← payloadOf o).closure?
          | none => pure none
        construct enter p parent stepparents initializer)
      (do
        let initializer ← match x with
          | some o => do pure (← payloadOf o).closure?
          | none => pure none
        construct enter' p parent stepparents initializer) := by
  cases x with
  | some o =>
      refine T.onPayload o fun q K' hq h' _ => ?_
      refine T.keeps_construct henter hp (payload.mono h') (above.mono h') (beside.mono h') ?_
      exact fun c hc => q.within_of_closure? hq hc
  | none =>
      have hinit : ∀ c, (none : Option Closure) = some c → c.body.within f = true := nofun
      exact T.keeps_construct henter hp payload above beside hinit

lemma keeps_buildFrom {parts : List (Role × ObjectId)} (h : Known K parts) :
    T.Relates n K (buildFrom enter parts) (buildFrom enter' parts) := by
  unfold buildFrom
  cases Role.payload.player? parts with
  | some o =>
      refine T.onPayload o fun p K' hp h' known => ?_
      exact T.keeps_constructBy henter hp known (h.mono h').lookup (h.mono h').stepparents _
  | none => exact T.keeps_constructBy henter rfl known_plain h.lookup h.stepparents _

/-! ## The base attributes -/

lemma keeps_birthFrom {i : Invocation} (hi : Known K i) (asked : Symbol) :
    T.Relates n K (birthFrom enter i asked) (birthFrom enter' i asked) := by
  refine T.onPayload (i.arg 0) fun p K' hp h' _ => ?_
  cases p with
  | null => exact T.keeps_giveBirth henter (hi.mono h').this fun c hc => nomatch hc
  | closure c =>
      refine T.keeps_giveBirth henter (hi.mono h').this fun d hd => ?_
      obtain rfl : c = d := Option.some.inj hd
      exact hp
  | _ => exact T.provided (.fail _ _)

lemma keeps_negate {i : Invocation} (hi : Known K i) (y : Symbol) :
    T.Relates n K (negate enter i y) (negate enter' i y) := by
  refine T.andThen (T.keeps_send henter _ hi.this hi.args) fun o K' _ ho => ?_
  exact T.thereupon (T.keeps_truthy henter ho) fun b => T.keeps_makePlain rfl rfl

omit henter in
lemma keeps_leaveFrom {i : Invocation} (hi : Known K i) : T.Keeps n K (leaveFrom i) := by
  refine T.andThen (T.keeps_payloadOf (i.arg 0)) fun p K' h' _ => ?_
  have carried : Known K' (i.arg 1) := (hi.mono h').arg 1
  cases p with
  | null => exact T.returnLevels n _ carried
  | number x => exact T.returnLevels n _ carried
  | marker m => exact T.returnTo n _ carried
  | _ => exact T.provided (.fail _ _)

lemma keeps_baseAttribute {i : Invocation} (hi : Known K i) (a : BaseAttribute) :
    T.Relates n K (a.run enter i) (a.run enter' i) := by
  cases a with
  | birth => exact T.keeps_birthFrom henter hi .birth
  | init => exact T.keeps_birthFrom henter hi .init
  | isA => exact T.thereupon (T.provided (.isA _ _)) fun b => T.keeps_makePlain rfl rfl
  | super => exact T.andThen (T.keeps_keyOf (hi.arg 0)) fun k _ _ _ => T.keeps_attributeAbove _ k
  | clone => exact T.provided (.copy _)
  | identical => exact T.keeps_makePlain rfl rfl
  | notIdentical => exact T.keeps_negate henter hi .identical
  | equal => exact T.keeps_send henter _ hi.this hi.args
  | notEqual => exact T.keeps_negate henter hi .equal
  | not =>
      exact T.andThen (T.keeps_coerce henter hi.this .bool) fun p _ _ _ =>
        T.keeps_makePlain rfl rfl
  | asBool => exact T.keeps_makePlain rfl rfl
  | asText => exact T.keeps_makePlain rfl rfl
  | hash => exact T.keeps_makePlain rfl rfl
  | respondTo =>
      refine T.andThen (T.keeps_keyOf (hi.arg 0)) fun k K' h' _ => ?_
      exact T.thereupon (T.keeps_respondsTo (hi.mono h').this k) fun b => T.keeps_makePlain rfl rfl
  | attempt =>
      refine T.attempt fun token => ?_
      have known : Known (adding K token) i := hi.mono (subset_adding K token)
      have given : Known (adding K token) [token] := by simpa using known_adding K token
      exact T.keeps_send henter _ (known.arg 0) given
  | leave => exact T.keeps_leaveFrom hi

end Calls

lemma keeps_install (o : ObjectId) : T.Keeps n K (install o) := by
  refine T.thereupon (T.keeps_note (.inl rfl)) fun _ => ?_
  refine T.keeps_forM fun a => ?_
  exact T.andThen (T.provided (.makeClosure (.base a) rfl)) fun c K' _ hc =>
    T.keeps_setAttribute o known_name hc

lemma keeps_makePristine : T.Keeps n K makePristine := by
  refine T.andThen (T.keeps_makePlain rfl rfl) fun o K' _ ho => ?_
  exact T.thereupon (T.keeps_install o) fun _ => T.ofPure n ho

/-! ## Operations on evaluated operands -/

lemma keeps_nullary {i : Invocation} (hi : Known K i) {op : Nullary} (hop : op.within f = true) :
    T.Keeps n K (op.run i) := by
  have idle : T.Keeps n K (pure () : Run Unit) := T.ofPure n fun _ => nofun
  cases op with
  | hostBool | hostInt | hostText | argumentCount | isBound => exact T.keeps_hostValue _
  | boolean | number | text | root => exact T.keeps_object (T.keeps_makePlain rfl rfl)
  | arguments => exact T.keeps_object (T.keeps_make rfl hi.args)
  | pristine => exact T.keeps_object T.keeps_makePristine
  | freshId =>
      exact T.thereupon (@provided f T _ (.none _) n K _ .skipId) fun o => T.keeps_hostValue _
  | receiver => exact T.ofPure n hi.this
  | holder => exact T.ofPure n (known_invocation.mp hi).2.1.getD
  | argument => exact T.ofPure n (hi.arg _)
  | depth => exact T.boundaries (fun bs => hostCount bs.length) fun bs => T.keeps_hostValue _
  | strictness => exact T.strictness hop (fun l => hostText l.name) fun l => T.keeps_hostValue _
  | setStrictness name =>
      rw [Nullary.run]
      rw [Nullary.within] at hop
      cases named : Strictness.parse name with
      | ok l =>
          rw [named] at hop
          exact T.thereupon (T.setStrictness n K hop) fun _ => T.keeps_hostValue _
      | error x => exact T.thereupon idle fun _ => T.keeps_hostValue _
  | configure document =>
      rw [Nullary.run]
      rw [Nullary.within] at hop
      cases described : Settings.parse? document with
      | some x =>
          rw [described] at hop
          exact T.thereupon (T.fixSettings n K hop) fun _ => T.keeps_hostValue _
      | none => exact T.thereupon idle fun _ => T.keeps_hostValue _
  | isConfigured => exact T.fixed hop (fun x => hostTruth x.isSome) fun x => T.keeps_hostValue _
  | settings =>
      exact T.fixed hop (fun x => hostValue (x.getD .standard).toJson) fun x => T.keeps_hostValue _
  | symbolInfo name => exact T.thereupon (T.provided (.intern name)) fun y => T.keeps_symbolInfo y
  | symbolOrder a b =>
      refine T.thereupon (T.provided (.intern a)) fun y => ?_
      exact T.thereupon (T.provided (.intern b)) fun z => T.keeps_hostValue _
  | coercionOf name => exact T.thereupon (T.provided (.intern name)) fun y => T.keeps_hostValue _

lemma keeps_keyQuery {k : Key} (hk : Known K k) (op : KeyQuery) : T.Keeps n K (op.run k) := by
  cases op with
  | info => exact T.keeps_keyInfo k
  | toObject => exact T.keeps_object (T.keeps_keyObject hk)

lemma keeps_keyed {o : ObjectId} {k : Key} (ho : Known K o) (hk : Known K k) (op : Keyed) :
    T.Keeps n K (op.run o k) := by
  cases op with
  | get => exact T.keeps_object (T.keeps_getAttribute ho k)
  | delete => exact T.keeps_object (T.keeps_deleteAttribute o k)
  | has | slotHas => exact T.thereupon (T.keeps_hasAttribute o k) fun b => T.keeps_hostValue _
  | respondTo => exact T.thereupon (T.keeps_respondsTo ho k) fun b => T.keeps_hostValue _
  | superGet => exact T.keeps_object (T.keeps_attributeAbove o k)
  | lookup => exact T.andThen (T.keeps_lookup ho k) fun v _ _ _ => T.keeps_showOption v
  | superLookup => exact T.andThen (T.keeps_lookupAbove o k) fun v _ _ _ => T.keeps_showOption v
  | resolve => exact T.andThen (T.keeps_resolve ho k) fun found _ _ _ => T.keeps_showFound found
  | slotGet => exact T.andThen (T.keeps_slotGet o k) fun v _ _ _ => T.keeps_showOption v
  | slotDelete => exact T.keeps_object (T.provided (.slotDelete o k))
  | isReadonly => exact T.andThen (T.keeps_slotsOf o) fun slots _ _ _ => T.keeps_hostValue _
  | makeReadonly =>
      exact T.thereupon (T.provided (.makeReadonly o k hk)) fun _ => T.keeps_hostValue _
  | checkNothing access =>
      exact T.thereupon (T.keeps_inspection (.checkAfter o _ none)) fun v => T.keeps_hostValue _

lemma keeps_keyedValue {o : ObjectId} {k : Key} {v : ObjectId} (hk : Known K k) (hv : Known K v)
    (op : KeyedValue) : T.Keeps n K (op.run o k v) := by
  cases op with
  | set => exact T.thereupon (T.keeps_setAttribute o hk hv) fun _ => T.keeps_hostValue _
  | slotSet =>
      exact T.thereupon (T.provided (.slotSet o k v hk hv)) fun _ => T.keeps_hostValue _
  | checkBefore access => exact T.keeps_requestInfo o _
  | checkAfter access =>
      exact T.thereupon (T.keeps_inspection (.checkAfter o _ (some v))) fun x =>
        T.keeps_hostValue _

section Expressions

variable {enter enter' : Enter} (henter : ∀ {K : Set ObjectId} {a : Activation},
  a.within f = true → Known K a → T.Relates n K (enter a) (enter' a))

include henter

lemma keeps_unary {o : ObjectId} (ho : Known K o) {op : Unary} (hop : op.within f = true) :
    T.Relates n K (op.run enter o) (op.run enter' o) := by
  cases op with
  | child =>
      have made : T.Keeps n K (makeWith .plain (some o) []) :=
        T.provided (.makeWith _ _ _ rfl known_plain (known_some.mpr ho) (by simp))
      exact T.keeps_object made
  | clone => exact T.keeps_object (T.provided (.copy o))
  | install => exact T.thereupon (T.keeps_install o) fun _ => T.keeps_hostValue _
  | birth => exact T.keeps_object (T.keeps_giveBirth henter ho nofun)
  | slotsInfo => exact T.keeps_slotsInfo o
  | detach =>
      exact T.thereupon (T.provided (.setParent o none known_none)) fun _ => T.keeps_hostValue _
  | parent => exact T.andThen (T.keeps_slotsOf o) fun slots _ _ _ => T.keeps_showOption slots.parent
  | stepparents =>
      refine T.andThen (T.keeps_slotsOf o) fun slots _ _ _ => ?_
      exact T.thereupon (T.keeps_showObjects slots.stepparents) fun j => T.keeps_hostValue j
  | keyList => exact T.keeps_keyList o
  | kind => exact T.thereupon (T.keeps_kindOf o) fun k => T.keeps_hostValue _
  | inspect =>
      exact T.keeps_look (fun s t heap _ => by simp only [heap]) fun s => T.keeps_hostValue _
  | payload wanted => exact T.keeps_payloadInfo wanted o
  | coercion c => exact T.keeps_coercionInfo c o
  | coerce c =>
      refine T.andThen (T.keeps_coerce henter ho c) fun p _ _ _ => ?_
      exact T.keeps_look (fun s t heap _ => by simp only [heap]) fun s => T.keeps_hostValue _
  | closureInfo => exact T.keeps_closureInfo o
  | isActive =>
      refine T.andThen (T.keeps_payloadOf o) fun p _ _ _ => ?_
      split
      · exact T.boundaries (fun bs => hostTruth (bs.contains _)) fun bs => T.keeps_hostValue _
      · exact T.keeps_hostValue _
  | returnLevels m => exact T.returnLevels n m ho
  | raiseLevels m => exact T.raise hop n _ ho

lemma keeps_binary {a b : ObjectId} (ha : Known K a) (hb : Known K b) {op : Binary}
    (hop : op.within f = true) : T.Relates n K (op.run enter a b) (op.run enter' a b) := by
  cases op with
  | isA => exact T.thereupon (T.provided (.isA a b)) fun x => T.keeps_hostValue _
  | identical => exact T.keeps_hostValue _
  | setParent =>
      have done : T.Keeps n K (Prototypal.setParent a (some b)) :=
        T.provided (.setParent a (some b) (known_some.mpr hb))
      exact T.thereupon done fun _ => T.keeps_hostValue _
  | pushStepparent =>
      exact T.thereupon (T.provided (.pushStepparent a b hb)) fun _ => T.keeps_hostValue _
  | bind =>
      refine T.onPayload a fun p K' hp h' _ => ?_
      split
      · rename_i c hc
        have hbody : c.body.within f = true := p.within_of_closure? hp hc
        exact T.keeps_object (T.keeps_make hbody ((hb.mono h').bind c))
      · exact T.keeps_hostValue _
  | sharesBody =>
      refine T.andThen (T.keeps_payloadOf a) fun p _ _ _ => ?_
      refine T.andThen (T.keeps_payloadOf b) fun q _ _ _ => ?_
      split
      · exact T.keeps_hostValue _
      · exact T.keeps_hostValue _
  | birthWith =>
      refine T.onPayload b fun p K' hp h' _ => T.keeps_object ?_
      exact T.keeps_giveBirth henter (ha.mono h') fun c hc => p.within_of_closure? hp hc
  | returnTo => exact T.returnTo n a hb
  | raiseTo =>
      refine T.andThen (T.keeps_payloadOf a) fun p K' h' _ => ?_
      split
      · exact T.raise hop n _ (hb.mono h')
      · exact T.keeps_hostValue _

/-! ## Expressions -/

-- The recursion is that of `eval`: operands first, from left to right, then the operation.
set_option linter.unusedSectionVars false in
mutual

theorem keeps_eval {K : Set ObjectId} {i : Invocation} (hi : Known K i) :
    ∀ e : Expr, e.within f = true → T.Relates n K (eval enter i e) (eval enter' i e)
  | .null, _ => T.ofPure n (known_value.mpr (known_null K))
  | .var name, _ => T.provided (.valueOf name)
  | .nullary op, h => by
      rw [Expr.within] at h
      exact T.keeps_nullary hi h
  | .unary op o, h => by
      simp only [Expr.within, Bool.and_eq_true] at h
      rw [eval, eval]
      refine T.asObject (keeps_eval hi o h.2) fun x _ _ hx => ?_
      exact T.keeps_unary henter hx h.1
  | .binary op a b, h => by
      simp only [Expr.within, Bool.and_eq_true] at h
      rw [eval, eval]
      refine T.asObject (keeps_eval hi a h.1.2) fun x _ h₁ hx => ?_
      refine T.asObject (keeps_eval (hi.mono h₁) b h.2) fun y _ h₂ hy => ?_
      exact T.keeps_binary henter (hx.mono h₂) hy h.1.1
  | .ofKey op k, h => by
      rw [Expr.within] at h
      rw [eval, eval]
      exact T.andThen (keeps_evalKey hi k h) fun x _ _ hx => T.keeps_keyQuery hx op
  | .sameKey j k, h => by
      simp only [Expr.within, Bool.and_eq_true] at h
      rw [eval, eval]
      refine T.andThen (keeps_evalKey hi j h.1) fun x _ h₁ _ => ?_
      exact T.andThen (keeps_evalKey (hi.mono h₁) k h.2) fun y _ _ _ => T.keeps_hostValue _
  | .keyed op o k, h => by
      simp only [Expr.within, Bool.and_eq_true] at h
      rw [eval, eval]
      refine T.asObject (keeps_eval hi o h.1) fun x _ h₁ hx => ?_
      refine T.andThen (keeps_evalKey (hi.mono h₁) k h.2) fun y _ h₂ hy => ?_
      exact T.keeps_keyed (hx.mono h₂) hy op
  | .keyedValue op o k v, h => by
      simp only [Expr.within, Bool.and_eq_true] at h
      rw [eval, eval]
      refine T.asObject (keeps_eval hi o h.1.1) fun x _ h₁ hx => ?_
      refine T.andThen (keeps_evalKey (hi.mono h₁) k h.1.2) fun y _ h₂ hy => ?_
      refine T.asObject (keeps_eval (hi.mono (h₁.trans h₂)) v h.2) fun z _ h₃ hz => ?_
      exact T.keeps_keyedValue (hy.mono h₃) hz op
  | .assign name e, h => by
      rw [Expr.within] at h
      rw [eval, eval]
      refine T.andThen (keeps_eval hi e h) fun v _ _ hv => ?_
      exact T.thereupon (T.provided (.assign name v hv)) fun _ => T.ofPure n hv
  | .block es, h => by
      rw [Expr.within] at h
      rw [eval, eval]
      exact T.andThen (keeps_evalAll hi es h) fun vs _ _ hvs => T.ofPure n hvs.lastValue
  | .quiet es, h => by
      rw [Expr.within] at h
      rw [eval, eval]
      exact T.andThen (keeps_evalAll hi es h) fun vs _ _ _ => T.keeps_hostValue _
  | .loop m es, h => by
      rw [Expr.within] at h
      rw [eval, eval]
      have once : T.Relates n K (do let _ ← evalAll enter i es) (do let _ ← evalAll enter' i es) :=
        T.andThen (keeps_evalAll hi es h) fun vs _ _ _ => T.ofPure n fun _ => nofun
      exact T.thereupon (T.keeps_times once m) fun _ => T.keeps_hostValue _
  | .branch condition yes no, h => by
      simp only [Expr.within, Bool.and_eq_true] at h
      rw [eval, eval]
      refine T.andThen (keeps_eval hi condition h.1.1) fun v _ h₁ _ => ?_
      refine T.thereupon (T.keeps_isTrue v) fun b => ?_
      cases b with
      | true => exact keeps_eval (hi.mono h₁) yes h.1.2
      | false => exact keeps_eval (hi.mono h₁) no h.2
  | .emit e, h => by
      rw [Expr.within] at h
      rw [eval, eval]
      refine T.andThen (keeps_eval hi e h) fun v _ _ hv => ?_
      refine T.keeps_look (fun s t heap _ => by simp only [heap]) fun s => ?_
      exact T.thereupon (T.provided (.emit _)) fun _ => T.ofPure n hv
  | .observe e, h => by
      simp only [Expr.within, Bool.and_eq_true] at h
      rw [eval, eval]
      exact T.observe h.1 (keeps_eval hi e h.2)
  | .settle e, h => by
      simp only [Expr.within, Bool.and_eq_true] at h
      rw [eval, eval]
      exact T.settle h.1 (keeps_eval hi e h.2)
  | .add a b, h => by
      simp only [Expr.within, Bool.and_eq_true] at h
      rw [eval, eval]
      refine T.andThen (keeps_eval hi a h.1) fun v _ h₁ _ => ?_
      refine T.thereupon (T.keeps_numberOf v) fun x => ?_
      refine T.andThen (keeps_eval (hi.mono h₁) b h.2) fun w _ _ _ => ?_
      refine T.thereupon (T.keeps_numberOf w) fun y => ?_
      exact T.keeps_object (T.keeps_makePlain rfl rfl)
  | .less a b, h => by
      simp only [Expr.within, Bool.and_eq_true] at h
      rw [eval, eval]
      refine T.andThen (keeps_eval hi a h.1) fun v _ h₁ _ => ?_
      refine T.thereupon (T.keeps_numberOf v) fun x => ?_
      refine T.andThen (keeps_eval (hi.mono h₁) b h.2) fun w _ _ _ => ?_
      exact T.thereupon (T.keeps_numberOf w) fun y => T.keeps_hostValue _
  | .concat es, h => by
      rw [Expr.within] at h
      rw [eval, eval]
      refine T.andThen (keeps_evalAll hi es h) fun vs _ _ _ => ?_
      refine T.andThen (T.keeps_mapM fun v _ => T.keeps_textOf v) fun texts _ _ _ => ?_
      exact T.keeps_object (T.keeps_makePlain rfl rfl)
  | .function body, h => by
      rw [Expr.within] at h
      exact T.keeps_object (T.provided (.makeClosure (.script body) h))
  | .list es, h => by
      rw [Expr.within] at h
      rw [eval, eval]
      exact T.andThen (keeps_evalObjects hi es h) fun os _ _ hos =>
        T.keeps_object (T.keeps_make rfl hos)
  | .map entries, h => by
      rw [Expr.within] at h
      rw [eval, eval]
      exact T.andThen (keeps_evalEntries hi entries h) fun es _ _ hes =>
        T.keeps_object (T.keeps_make rfl hes)
  | .build parts, h => by
      rw [Expr.within] at h
      rw [eval, eval]
      exact T.andThen (keeps_evalParts hi parts h) fun ps _ _ hps =>
        T.keeps_object (T.keeps_buildFrom henter hps)
  | .send o k args, h => by
      simp only [Expr.within, Bool.and_eq_true] at h
      rw [eval, eval]
      refine T.asObject (keeps_eval hi o h.1.1) fun x _ h₁ hx => ?_
      refine T.andThen (keeps_evalKey (hi.mono h₁) k h.1.2) fun y _ h₂ _ => ?_
      refine T.andThen (keeps_evalObjects (hi.mono (h₁.trans h₂)) args h.2) fun os _ h₃ hos => ?_
      exact T.keeps_object (T.keeps_send henter y (hx.mono (h₂.trans h₃)) hos)
  | .sendAbove o k args, h => by
      simp only [Expr.within, Bool.and_eq_true] at h
      rw [eval, eval]
      refine T.asObject (keeps_eval hi o h.1.1) fun x _ h₁ hx => ?_
      refine T.andThen (keeps_evalKey (hi.mono h₁) k h.1.2) fun y _ h₂ _ => ?_
      refine T.andThen (keeps_evalObjects (hi.mono (h₁.trans h₂)) args h.2) fun os _ h₃ hos => ?_
      exact T.keeps_object (T.keeps_sendAbove henter x y (hx.mono (h₂.trans h₃)) hos)
  | .sendSuper k args, h => by
      simp only [Expr.within, Bool.and_eq_true] at h
      rw [eval, eval]
      refine T.andThen (keeps_evalKey hi k h.1) fun y _ h₁ _ => ?_
      refine T.andThen (keeps_evalObjects (hi.mono h₁) args h.2) fun os _ h₂ hos => ?_
      exact T.keeps_object (T.keeps_sendSuper henter y (hi.mono (h₁.trans h₂)) hos)
  | .apply g args, h => by
      simp only [Expr.within, Bool.and_eq_true] at h
      rw [eval, eval]
      refine T.asObject (keeps_eval hi g h.1) fun x _ h₁ _ => ?_
      refine T.andThen (keeps_evalObjects (hi.mono h₁) args h.2) fun os _ _ hos => ?_
      refine T.onPayload x fun p _ hp h₃ known => ?_
      cases hc : p.closure? with
      | some c =>
          have hbody : c.body.within f = true := p.within_of_closure? hp hc
          refine T.keeps_object (henter hbody ?_)
          exact known_body.mpr ⟨known.of_closure? hc, known_none, hos.mono h₃⟩
      | none => exact T.keeps_hostValue _
  | .attempt name body, h => by
      rw [Expr.within] at h
      rw [eval, eval]
      refine T.keeps_object (T.attempt fun token => ?_)
      have given : Known (adding K token) (Value.object token) :=
        known_value.mpr (known_adding K token)
      refine T.thereupon (T.provided (.assign name _ given)) fun _ => ?_
      refine T.andThen (keeps_evalAll (hi.mono (subset_adding K token)) body h) ?_
      exact fun vs _ _ hvs => T.keeps_box hvs.lastValue

theorem keeps_evalKey {K : Set ObjectId} {i : Invocation} (hi : Known K i) :
    ∀ k : KeyExpr, k.within f = true → T.Relates n K (evalKey enter i k) (evalKey enter' i k)
  | .name text, _ => by
      rw [evalKey, evalKey]
      exact T.thereupon (T.provided (.intern text)) fun y => T.ofPure n known_name
  | .object e, h => by
      rw [KeyExpr.within] at h
      rw [evalKey, evalKey]
      exact T.asObject (keeps_eval hi e h) fun o _ _ ho => T.ofPure n (known_object.mpr ho)
  | .ofValue e, h => by
      rw [KeyExpr.within] at h
      rw [evalKey, evalKey]
      exact T.asObject (keeps_eval hi e h) fun o _ _ ho => T.keeps_keyOf ho

theorem keeps_evalAll {K : Set ObjectId} {i : Invocation} (hi : Known K i) :
    ∀ es : List Expr, allWithin f es = true →
    T.Relates n K (evalAll enter i es) (evalAll enter' i es)
  | [], _ => T.ofPure n (by simp)
  | e :: es, h => by
      simp only [allWithin, Bool.and_eq_true] at h
      rw [evalAll, evalAll]
      refine T.andThen (keeps_eval hi e h.1) fun v _ h₁ hv => ?_
      refine T.andThen (keeps_evalAll (hi.mono h₁) es h.2) fun vs _ h₂ hvs => T.ofPure n ?_
      exact known_cons.mpr ⟨hv.mono h₂, hvs⟩

theorem keeps_evalObjects {K : Set ObjectId} {i : Invocation} (hi : Known K i) :
    ∀ es : List Expr, allWithin f es = true →
    T.Relates n K (evalObjects enter i es) (evalObjects enter' i es)
  | [], _ => T.ofPure n (by simp)
  | e :: es, h => by
      simp only [allWithin, Bool.and_eq_true] at h
      rw [evalObjects, evalObjects]
      refine T.asObject (keeps_eval hi e h.1) fun o _ h₁ ho => ?_
      refine T.andThen (keeps_evalObjects (hi.mono h₁) es h.2) fun os _ h₂ hos => T.ofPure n ?_
      exact known_cons.mpr ⟨ho.mono h₂, hos⟩

theorem keeps_evalEntries {K : Set ObjectId} {i : Invocation} (hi : Known K i) :
    ∀ es : List (Expr × Expr), entriesWithin f es = true →
    T.Relates n K (evalEntries enter i es) (evalEntries enter' i es)
  | [], _ => T.ofPure n (by simp)
  | (k, v) :: es, h => by
      simp only [entriesWithin, Bool.and_eq_true] at h
      rw [evalEntries, evalEntries]
      refine T.asObject (keeps_eval hi k h.1.1) fun x _ h₁ hx => ?_
      refine T.asObject (keeps_eval (hi.mono h₁) v h.1.2) fun y _ h₂ hy => ?_
      have rest := keeps_evalEntries (hi.mono (h₁.trans h₂)) es h.2
      refine T.andThen rest fun xs _ h₃ hxs => T.ofPure n ?_
      exact known_cons.mpr ⟨known_pair.mpr ⟨hx.mono (h₂.trans h₃), hy.mono h₃⟩, hxs⟩

theorem keeps_evalParts {K : Set ObjectId} {i : Invocation} (hi : Known K i) :
    ∀ ps : List (Role × Expr), partsWithin f ps = true →
    T.Relates n K (evalParts enter i ps) (evalParts enter' i ps)
  | [], _ => T.ofPure n (by simp)
  | (r, e) :: ps, h => by
      simp only [partsWithin, Bool.and_eq_true] at h
      rw [evalParts, evalParts]
      refine T.asObject (keeps_eval hi e h.1) fun o _ h₁ ho => ?_
      refine T.andThen (keeps_evalParts (hi.mono h₁) ps h.2) fun xs _ h₂ hxs => T.ofPure n ?_
      exact known_cons.mpr ⟨known_pair.mpr ⟨fun _ => nofun, ho.mono h₂⟩, hxs⟩

end

/-! ## Activations -/

lemma keeps_body {i : Invocation} (hi : Known K i) {b : Body} (hb : b.within f = true) :
    T.Relates n K (b.run enter i) (b.run enter' i) := by
  cases b with
  | script es =>
      exact T.andThen (T.keeps_evalAll henter hi es hb) fun vs _ _ hvs => T.keeps_box hvs.lastValue
  | base a => exact T.keeps_baseAttribute henter hi a

lemma keeps_activation (level : Nat) {a : Activation} (ha : a.within f = true) (known : Known K a) :
    T.Relates n K (a.run enter level) (a.run enter' level) := by
  cases a with
  | body c holder args =>
      have seen : Known K (⟨c.owner, holder, args⟩ : Invocation) :=
        known_invocation.mpr (known_body.mp known)
      exact T.thereupon (T.keeps_note (.inr rfl)) fun _ => T.keeps_body henter seen ha
  | value v args =>
      obtain ⟨value, given⟩ := known_call.mp known
      exact T.keeps_send henter _ value given

end Expressions

/-- Gas for all levels that a limit can allow is enough. -/
theorem keeps_activate (gas : Nat) : ∀ {n : Nat} {K : Set ObjectId} {a : Activation},
    UInt64.size ≤ gas + n → a.within f = true → Known K a → T.Keeps n K (activate gas a) := by
  induction gas with
  | zero =>
      intro n K a enough _ _
      exact T.exhausted (by omega)
  | succ gas ih =>
      intro n K a enough ha known
      refine T.nested (T.keeps_activation (fun hb => ?_) (n + 1) ha known)
      exact ih (by omega) hb

lemma keeps_enterCall {a : Activation} (ha : a.within f = true) (known : Known K a) :
    T.Keeps n K (enterCall a) := by
  refine T.callDepth (fun level => activate (gasAt level) a) (T.keeps_activate _ ?_ ha known)
  simp only [gasAt]
  omega

/-- Every evaluation of an expression of the fragment keeps to the tracking, with the objects that
the body around it sees. -/
theorem keeps_evaluate {i : Invocation} (hi : Known K i) {e : Expr} (he : e.within f = true) :
    T.Keeps n K (eval enterCall i e) :=
  T.keeps_eval (fun ha => T.keeps_enterCall ha) hi e he

end Tracking

namespace Discipline

variable {f : Fragment} (D : Discipline f) {n : Nat}

/-- **Every evaluation of an expression of the fragment keeps to the discipline**, at whatever
level of nesting it takes place and whatever the body that it is part of sees.  What a script does
as a whole, `evaluate`, is the evaluation outside of any body. -/
theorem keeps_evaluate (i : Invocation) {e : Expr} (he : e.within f = true) :
    D.Keeps n (eval enterCall i e) :=
  (D.tracking.keeps_evaluate (known_univ i) he).1

end Discipline

end Prototypal
