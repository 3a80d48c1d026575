import SettlementLedger.Proofs.Independence

/-!
# Signed again, encoded again

What a requester signs leaves three things open: its signature, and the nonce and the signature with
which the validator cosigns. Whoever carries a delivery may exchange them, and may spell the same
operation with other bytes. Two operations that differ in nothing else are one request
(`Operation.SameRequest`).

No rule looks at these parts but to check the cosignature, and this check either fails or names the
validator that both operations name. So the rule that judges the one goes the way of the rule that
judges the other as long as neither is refused (`Concurs`, `Setting.rule_concurs`), and the two
deliveries change the same things, the marker aside, which keeps the bytes that were delivered
(`Engine.same_request_same_effect`).
-/

set_option autoImplicit false
set_option relaxedAutoImplicit false

namespace SettlementLedger

/-! ### Computations that agree where both succeed -/

/-- Two computations have the same result if both have one. -/
def Concurs {ε α : Type} (x y : Except ε α) : Prop :=
  ∀ a b, x = .ok a → y = .ok b → a = b

namespace Concurs

variable {ε α β : Type}

theorem refl (x : Except ε α) : Concurs x x := fun a b ha hb ↦ by
  rw [ha] at hb
  exact Except.ok.inj hb

theorem bind {x y : Except ε α} {next next' : α → Except ε β} (h : Concurs x y)
    (hnext : ∀ a, x = .ok a → Concurs (next a) (next' a)) :
    Concurs (x >>= next) (y >>= next') := by
  intro b b' hb hb'
  obtain ⟨a, ha, hfirst⟩ := bind_eq_ok.mp hb
  obtain ⟨a', ha', hsecond⟩ := bind_eq_ok.mp hb'
  cases h a a' ha ha'
  exact hnext a ha b b' hfirst hsecond

/-- They share a step. -/
theorem bind_self {x : Except ε α} {next next' : α → Except ε β}
    (h : ∀ a, x = .ok a → Concurs (next a) (next' a)) : Concurs (x >>= next) (x >>= next') :=
  (refl x).bind h

end Concurs

/-! ### One request -/

namespace Operation

/-- Two operations agree in everything but the signature of the requester and the nonce and the
signature of the validator. -/
structure SameRequest (op op' : Operation) : Prop where
  kind : op'.kind = op.kind
  requester : op'.requester = op.requester
  tx : op'.tx = op.tx
  txValidity : op'.txValidity = op.txValidity
  nonce : op'.nonce = op.nonce
  body : op'.body = op.body
  validator : op'.validator? = op.validator?

/-- An operation with other signatures. -/
def resigned (op : Operation) (signature : Signature) (cosignature : Option Cosignature) :
    Operation :=
  { op with signature, cosignature }

theorem SameRequest.eq_resigned {op op' : Operation} (h : op.SameRequest op') :
    op' = op.resigned op'.signature op'.cosignature := by
  obtain ⟨hkind, hrequester, htx, htxValidity, hnonce, hbody, -⟩ := h
  cases op
  cases op'
  simp_all [resigned]

end Operation

/-! ### The rules -/

namespace Setting

/-- The setting in which the operation with other signatures is judged. -/
def resigned (setting : Setting) (signature : Signature) (cosignature : Option Cosignature) :
    Setting :=
  { setting with operation := setting.operation.resigned signature cosignature }

variable {setting : Setting} {signature : Signature} {cosignature : Option Cosignature}
  (h : cosignature.map Cosignature.validator = setting.operation.validator?) (draft : Draft)

include h

/-- Both cosignatures are of one validator. -/
theorem validator_concurs :
    Concurs (setting.validator draft)
      ((setting.resigned signature cosignature).validator draft) := by
  intro a b ha hb
  have hfirst : setting.operation.validator? = some a := validator?_eq_some ha
  have hsecond : cosignature.map Cosignature.validator = some b := validator?_eq_some hb
  exact Option.some.inj (hfirst.symm.trans (h.symm.trans hsecond))

theorem addWriter_concurs (key : WritingKey) :
    Concurs (setting.addWriter draft key)
      ((setting.resigned signature cosignature).addWriter draft key) := by
  refine .bind_self fun node _ ↦ ?_
  refine .bind_self fun _ _ ↦ ?_
  refine .bind_self fun _ _ ↦ ?_
  refine .bind_self fun _ _ ↦ ?_
  refine .bind_self fun fee _ ↦ ?_
  refine .bind_self fun required _ ↦ ?_
  refine .bind_self fun _ _ ↦ ?_
  exact .bind (validator_concurs h draft) fun validator _ ↦ .refl _

theorem removeWriter_concurs (key : WritingKey) :
    Concurs (setting.removeWriter draft key)
      ((setting.resigned signature cosignature).removeWriter draft key) := by
  refine .bind_self fun isAdmin _ ↦ ?_
  refine .bind_self fun _ _ ↦ ?_
  refine .bind_self fun node _ ↦ ?_
  refine .bind_self fun _ _ ↦ ?_
  refine .bind_self fun _ _ ↦ ?_
  exact .bind (validator_concurs h draft) fun validator _ ↦ .refl _

theorem adminRecovery_concurs (key : WritingKey) :
    Concurs (setting.adminRecovery draft key)
      ((setting.resigned signature cosignature).adminRecovery draft key) := by
  refine .bind_self fun admin? _ ↦ ?_
  refine .bind_self fun admin _ ↦ ?_
  refine .bind_self fun _ _ ↦ ?_
  refine .bind_self fun owner _ ↦ ?_
  refine .bind_self fun _ _ ↦ ?_
  refine .bind_self fun _ _ ↦ ?_
  exact .bind (validator_concurs h draft) fun validator _ ↦ .refl _

theorem transfer_concurs (recipient : Address) (amount : Amount) :
    Concurs (setting.transfer draft recipient amount)
      ((setting.resigned signature cosignature).transfer draft recipient amount) := by
  refine .bind_self fun node _ ↦ ?_
  refine .bind_self fun fee _ ↦ ?_
  refine .bind_self fun required _ ↦ ?_
  refine .bind_self fun _ _ ↦ ?_
  exact .bind (validator_concurs h draft) fun validator _ ↦ .refl _

theorem requireFeeAndValidator_concurs :
    Concurs (setting.requireFeeAndValidator draft)
      ((setting.resigned signature cosignature).requireFeeAndValidator draft) := by
  refine .bind_self fun node _ ↦ ?_
  refine .bind_self fun fee _ ↦ ?_
  refine .bind_self fun _ _ ↦ ?_
  exact validator_concurs h draft

theorem transaction_concurs (external ledger : WritingKey) :
    Concurs (setting.transaction draft external ledger)
      ((setting.resigned signature cosignature).transaction draft external ledger) := by
  refine .bind_self fun _ _ ↦ ?_
  refine .bind_self fun record? _ ↦ ?_
  refine .bind_self fun _ _ ↦ ?_
  exact .bind (requireFeeAndValidator_concurs h draft) fun validator _ ↦ .refl _

theorem bootstrapDeployment_concurs (bootstrap : WritingKey) :
    Concurs (setting.bootstrapDeployment draft bootstrap)
      ((setting.resigned signature cosignature).bootstrapDeployment draft bootstrap) := by
  refine .bind_self fun _ _ ↦ ?_
  refine .bind_self fun record? _ ↦ ?_
  refine .bind_self fun _ _ ↦ ?_
  exact .bind (requireFeeAndValidator_concurs h draft) fun validator _ ↦ .refl _

/-- A rule goes one way for one request: seven rules look at no signature, and the others at the
cosignature only, to learn who the validator is. -/
theorem rule_concurs :
    Concurs (setting.rule draft) ((setting.resigned signature cosignature).rule draft) := by
  intro result result' hrule hrule'
  have hkind : (setting.resigned signature cosignature).operation.kind = setting.operation.kind :=
    rfl
  have hbody : (setting.resigned signature cosignature).operation.body = setting.operation.body :=
    rfl
  cases ruling_of_rule hrule with
  | addAdmin _ kind body ok | disableInitialization _ kind body ok
  | balanceInitialization _ _ kind body ok | appendWhitelist _ kind body ok
  | banValidator _ kind body ok | addIndexer _ kind body ok | removeIndexer _ kind body ok =>
    simp only [rule, hkind, hbody, kind, body] at hrule'
    exact Except.ok.inj (ok.symm.trans hrule')
  | addWriter key kind body ok =>
    simp only [rule, hkind, hbody, kind, body] at hrule'
    exact addWriter_concurs h draft key _ _ ok hrule'
  | removeWriter key kind body ok =>
    simp only [rule, hkind, hbody, kind, body] at hrule'
    exact removeWriter_concurs h draft key _ _ ok hrule'
  | adminRecovery key kind body ok =>
    simp only [rule, hkind, hbody, kind, body] at hrule'
    exact adminRecovery_concurs h draft key _ _ ok hrule'
  | transfer recipient amount kind body ok =>
    simp only [rule, hkind, hbody, kind, body] at hrule'
    exact transfer_concurs h draft recipient amount _ _ ok hrule'
  | transaction writer content external ledger kind body ok =>
    simp only [rule, hkind, hbody, kind, body] at hrule'
    exact transaction_concurs h draft external ledger _ _ ok hrule'
  | bootstrapDeployment bootstrap channel kind body ok =>
    simp only [rule, hkind, hbody, kind, body] at hrule'
    exact bootstrapDeployment_concurs h draft bootstrap _ _ ok hrule'

end Setting

/-! ### Deliveries -/

theorem Draft.get?_put (draft : Draft) (key : ViewKey) (value : Bytes) (text : String) :
    (draft.put key value).staged.get? text =
      if text = key.text then some value else draft.staged.get? text :=
  SortedMap.get?_insert draft.staged key.text value text

/-- Two deliveries of one request on one log, if both are applied, leave one and the same draft, to
which each of them adds its own marker. -/
theorem Operation.SameRequest.exists_draft {op op' : Operation} (h : op.SameRequest op')
    {suite : Suite} {config : Config} {context : Context} {base : View} {members : Membership}
    {first second : Delivery} (hlog : second.log = first.log) {effect effect' : Effect}
    (hfirst : op.transition suite config context base members first = .ok effect)
    (hsecond : op'.transition suite config context base members second = .ok effect') :
    ∃ draft : Draft, effect = ⟨(draft.put (.applied op.tx) first.bytes).staged, draft.changes⟩ ∧
      effect' = ⟨(draft.put (.applied op.tx) second.bytes).staged, draft.changes⟩ := by
  obtain ⟨-, initializing, hinitializing, -, -, draft, hrule, rfl⟩ :=
    Operation.transition_eq_ok.mp hfirst
  obtain ⟨-, found, hfound, -, -, draft', hrule', rfl⟩ := Operation.transition_eq_ok.mp hsecond
  cases hinitializing.symm.trans hfound
  rw [hlog, h.eq_resigned] at hrule'
  let setting := op.setting suite config context members first.log initializing
  have hvalidator : op'.cosignature.map Cosignature.validator = setting.operation.validator? :=
    h.validator
  have hsame : draft = draft' := Setting.rule_concurs hvalidator { base } _ _ hrule hrule'
  rw [h.tx, ← hsame]
  exact ⟨draft, rfl, rfl⟩

/-- **Signing or encoding again changes nothing.** Whatever the view, the pending writes, the
membership set and the context are, take two deliveries on one log whose operations agree in
everything but the signature of the requester and the nonce and the signature of the validator. If
both would be applied, they ask for the same membership changes and write the same values, except
that the marker of their common hash holds the bytes of the delivery. They are reported alike. -/
theorem Engine.same_request_same_effect (engine : Engine) (context : Context)
    (progress : Progress) {first second : Delivery} {op op' : Operation}
    (hfirst : first.operation = .ok op) (hsecond : second.operation = .ok op')
    (hlog : second.log = first.log) (hsame : op.SameRequest op') {effect effect' : Effect}
    (heffect : engine.effect context progress first op = .ok effect)
    (heffect' : engine.effect context progress second op' = .ok effect') :
    let marker := (ViewKey.applied op.tx).text
    effect'.changes = effect.changes ∧
      (∀ text, text ≠ marker → effect'.writes.get? text = effect.writes.get? text) ∧
      effect.writes.get? marker = some first.bytes ∧
      effect'.writes.get? marker = some second.bytes ∧
      engine.step context progress first =
        (progress.absorb effect, ⟨some (op.kind, op.tx), .applied⟩) ∧
      engine.step context progress second =
        (progress.absorb effect', ⟨some (op.kind, op.tx), .applied⟩) := by
  intro marker
  have hstep : engine.step context progress first =
      (progress.absorb effect, ⟨some (op.kind, op.tx), .applied⟩) := by
    simp only [step, hfirst, heffect]
  have hstep' : engine.step context progress second =
      (progress.absorb effect', ⟨some (op.kind, op.tx), .applied⟩) := by
    simp only [step, hsecond, heffect', hsame.kind, hsame.tx]
  obtain ⟨draft, rfl, rfl⟩ := hsame.exists_draft hlog heffect heffect'
  have hmarker (bytes : Bytes) :
      (draft.put (.applied op.tx) bytes).staged.get? marker = some bytes :=
    (draft.get?_put _ _ marker).trans (if_pos rfl)
  have hother (bytes : Bytes) {text : String} (htext : text ≠ marker) :
      (draft.put (.applied op.tx) bytes).staged.get? text = draft.staged.get? text :=
    (draft.get?_put _ _ text).trans (if_neg htext)
  exact ⟨rfl, fun text htext ↦ (hother _ htext).trans (hother _ htext).symm, hmarker _, hmarker _,
    hstep, hstep'⟩

/-! ### A gift that is cosigned again -/

namespace ZeroFounding

/-- The administrator is registered and the third participant has three tokens. -/
def bequest : List Delivery :=
  [deliver .zero .addAdmin (.coreAdmin .zero) 1 1,
    deliver .zero .balanceInitialization (.balanceInitialization (participant 3) (.whole 3)) 1 2]

/-- What a call has changed that has taken the bequest. -/
def bequeathed : Progress :=
  (charging.run chargingBlank.context
    { batch := { base := chargingBlank.store.view }, members := chargingBlank.members } bequest).1

/-- The gift with another signature, and cosigned with another nonce. -/
def resignedGift : Operation :=
  gift.resigned (repeated 7)
    (some { validator := participant 1, nonce := repeated 12, signature := repeated 13 })

/-- It is delivered with the number of its kind spelled in three bytes instead of one. -/
def regiven : Delivery := ⟨.zero, 251 :: 13 :: 0 :: resignedGift.toRaw.serialize.tail⟩

theorem gift_applicable :
    (charging.effect chargingBlank.context bequeathed given gift).toOption.isSome ∧
      (charging.effect chargingBlank.context bequeathed regiven resignedGift).toOption.isSome := by
  decide +kernel

/-- Both deliveries of the gift may be applied, and they differ in the marker only. -/
theorem gift_resigned_same_effect :
    given.operation = .ok gift ∧ regiven.operation = .ok resignedGift ∧
      regiven.log = given.log ∧ gift.SameRequest resignedGift ∧ given.bytes ≠ regiven.bytes ∧
      ∃ effect effect',
        charging.effect chargingBlank.context bequeathed given gift = .ok effect ∧
        charging.effect chargingBlank.context bequeathed regiven resignedGift = .ok effect' ∧
        let marker := (ViewKey.applied gift.tx).text
        effect'.changes = effect.changes ∧
          (∀ text, text ≠ marker → effect'.writes.get? text = effect.writes.get? text) ∧
          effect.writes.get? marker = some given.bytes ∧
          effect'.writes.get? marker = some regiven.bytes ∧
          charging.step chargingBlank.context bequeathed given =
            (bequeathed.absorb effect, ⟨some (gift.kind, gift.tx), .applied⟩) ∧
          charging.step chargingBlank.context bequeathed regiven =
            (bequeathed.absorb effect', ⟨some (gift.kind, gift.tx), .applied⟩) := by
  have hgift : given.operation = .ok gift :=
    Delivery.operation_of_wellFormed ⟨rfl, fun _ ↦ rfl⟩ rfl
  have hregift : regiven.operation = .ok resignedGift := eq_ok_of_toOption (by decide +kernel)
  have hsame : gift.SameRequest resignedGift := ⟨rfl, rfl, rfl, rfl, rfl, rfl, rfl⟩
  obtain ⟨hfirst, hsecond⟩ := gift_applicable
  obtain ⟨effect, heffect⟩ := Option.isSome_iff_exists.mp hfirst
  obtain ⟨effect', heffect'⟩ := Option.isSome_iff_exists.mp hsecond
  refine ⟨hgift, hregift, rfl, hsame, by decide +kernel, effect, effect',
    eq_ok_of_toOption heffect, eq_ok_of_toOption heffect', ?_⟩
  exact charging.same_request_same_effect chargingBlank.context bequeathed hgift hregift rfl hsame
    (eq_ok_of_toOption heffect) (eq_ok_of_toOption heffect')

end ZeroFounding

end SettlementLedger
