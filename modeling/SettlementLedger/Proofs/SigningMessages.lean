import SettlementLedger.Proofs.TypedOperations

/-!
# What the signed messages bind

The parts of a signed message follow each other without lengths or separators. Every part has a
width of its own, except the parts of the body, whose widths the family gives
(`Body.map_length_parts`), and the family is that of the kind, whose number comes first. So a
message can be taken apart in one way only (`Message.Request.eq_of_message_eq`).

A validator's message is shorter than any requester's, so that neither can stand for the other
(`Message.Request.message_ne`). Where two hashes agree although what was signed differs, the hash
function was broken: the two messages collide (`Suite.Collides`).
-/

set_option autoImplicit false
set_option relaxedAutoImplicit false

namespace SettlementLedger

/-- Two different byte strings have the same hash. -/
def Suite.Collides (suite : Suite) (message message' : Bytes) : Prop :=
  message ≠ message' ∧ suite.hash message = suite.hash message'

/-! ### The parts of a body -/

namespace Body

variable {body body' : Body}

theorem map_length_parts (body : Body) :
    body.parts.map List.length = body.family.content.map Field.width := by
  rw [← map_fst_fieldBytes, parts, List.map_map, List.map_map]
  exact List.map_congr_left body.length_of_mem_fieldBytes

/-- Bodies of one family that have the same bytes are the same. -/
theorem eq_of_fieldBytes_eq (h : body.fieldBytes = body'.fieldBytes)
    (hfamily : body.family = body'.family) : body = body' := by
  have hnodup : (body.fieldBytes.map Prod.fst).Nodup := by
    rw [map_fst_fieldBytes]
    cases body.family <;> decide
  have hheld := Fields.holds_ofList hnodup
  have hread := Fields.body_eq_ok.mpr ⟨rfl, hheld⟩
  rw [Fields.body_eq_ok.mpr ⟨hfamily.symm, h ▸ hheld⟩] at hread
  exact (Except.ok.inj hread).symm

theorem eq_of_parts_eq (h : body.parts = body'.parts) (hfamily : body.family = body'.family) :
    body = body' := by
  refine eq_of_fieldBytes_eq ?_ hfamily
  have hkeys : body.fieldBytes.map Prod.fst = body'.fieldBytes.map Prod.fst := by
    rw [map_fst_fieldBytes, map_fst_fieldBytes, hfamily]
  exact (List.zip_of_prod hkeys h).trans (List.zip_of_prod rfl rfl).symm

/-- The parts of bodies of one family have the same widths, so they are found again when they are
put together. -/
theorem eq_of_flatten_parts_eq (h : body.parts.flatten = body'.parts.flatten)
    (hfamily : body.family = body'.family) : body = body' := by
  refine eq_of_parts_eq (List.eq_iff_flatten_eq.mpr ⟨h, ?_⟩) hfamily
  rw [map_length_parts, map_length_parts, hfamily]

end Body

/-! ### Messages -/

theorem Address.eq_of_bytes_eq {a b : Address} (h : a.bytes = b.bytes) : a = b := by
  have hread : parse a.bytes = .ok b := h ▸ parse_bytes b
  rw [parse_bytes] at hread
  exact Except.ok.inj hread

theorem Kind.eq_of_ofNatBE_eq {kind kind' : Kind}
    (h : Bytes.ofNatBE 4 kind.number.toNat = Bytes.ofNatBE 4 kind'.number.toNat) :
    kind = kind' := by
  have hfits (kind : Kind) : kind.number.toNat < Bytes.capacity 4 := kind.number.toNat_lt
  have hnumber := congrArg Bytes.toNatBE h
  rw [Bytes.toNatBE_ofNatBE (hfits kind), Bytes.toNatBE_ofNatBE (hfits kind')] at hnumber
  exact number_injective (UInt32.toNat_inj.mp hnumber)

namespace Message

/-- What a requester signs. -/
structure Request where
  kind : Kind
  requester : Address
  txValidity : Hash
  body : Body
  nonce : Nonce

/-- What a validator signs. -/
structure Endorsement where
  tx : Hash
  validator : Address
  nonce : Nonce

/-- The bytes that a requester hashes. -/
def Request.message (request : Request) : Bytes :=
  Message.requester request.kind request.requester request.txValidity request.body request.nonce

/-- The bytes that a validator hashes. -/
def Endorsement.message (endorsement : Endorsement) : Bytes :=
  Message.validator endorsement.tx endorsement.validator endorsement.nonce

namespace Request

/-- The body belongs to the family of the kind. -/
def WellFormed (request : Request) : Prop := request.body.family = request.kind.family

variable {request request' : Request}

/-- A message can be taken apart in one way only. -/
theorem eq_of_message_eq (hrequest : request.WellFormed) (hrequest' : request'.WellFormed)
    (h : request.message = request'.message) : request = request' := by
  obtain ⟨kind, requester, txValidity, body, nonce⟩ := request
  obtain ⟨kind', requester', txValidity', body', nonce'⟩ := request'
  obtain ⟨hkind, h⟩ := List.append_inj h (by rw [Bytes.length_ofNatBE, Bytes.length_ofNatBE])
  obtain ⟨haddress, h⟩ := List.append_inj h (by rw [Address.length_bytes, Address.length_bytes])
  obtain ⟨htxValidity, h⟩ :=
    List.append_inj h (by rw [Identifier.length_bytes, Identifier.length_bytes])
  -- The body is what is left before the nonce; its own widths come from the kind.
  obtain ⟨hbody, hnonce⟩ :=
    List.append_inj' h (by rw [Identifier.length_bytes, Identifier.length_bytes])
  obtain rfl := Kind.eq_of_ofNatBE_eq hkind
  obtain rfl := Address.eq_of_bytes_eq haddress
  obtain rfl := Identifier.ext_bytes htxValidity
  obtain rfl := Body.eq_of_flatten_parts_eq hbody (hrequest.trans hrequest'.symm)
  obtain rfl := Identifier.ext_bytes hnonce
  rfl

theorem length_message_gt (request : Request) : 137 ≤ request.message.length := by
  have haddress : request.requester.bytes.length = 69 := request.requester.length_bytes
  have htxValidity : request.txValidity.bytes.length = 32 := request.txValidity.length_bytes
  have hnonce : request.nonce.bytes.length = 32 := request.nonce.length_bytes
  rw [message, Message.requester, List.length_append, List.length_append, List.length_append,
    List.length_append, Bytes.length_ofNatBE]
  omega

end Request

namespace Endorsement

variable {endorsement endorsement' : Endorsement}

theorem eq_of_message_eq (h : endorsement.message = endorsement'.message) :
    endorsement = endorsement' := by
  obtain ⟨tx, validator, nonce⟩ := endorsement
  obtain ⟨tx', validator', nonce'⟩ := endorsement'
  obtain ⟨htx, h⟩ := List.append_inj h (by rw [Identifier.length_bytes, Identifier.length_bytes])
  obtain ⟨haddress, hnonce⟩ :=
    List.append_inj h (by rw [Address.length_bytes, Address.length_bytes])
  obtain rfl := Identifier.ext_bytes htx
  obtain rfl := Address.eq_of_bytes_eq haddress
  obtain rfl := Identifier.ext_bytes hnonce
  rfl

theorem length_message (endorsement : Endorsement) : endorsement.message.length = 133 := by
  have htx : endorsement.tx.bytes.length = 32 := endorsement.tx.length_bytes
  have haddress : endorsement.validator.bytes.length = 69 := endorsement.validator.length_bytes
  have hnonce : endorsement.nonce.bytes.length = 32 := endorsement.nonce.length_bytes
  rw [message, Message.validator, List.length_append, List.length_append, htx, haddress, hnonce]

end Endorsement

/-- A requester's message is longer than a validator's, whatever its kind. -/
theorem Request.message_ne (request : Request) (endorsement : Endorsement) :
    request.message ≠ endorsement.message := by
  intro h
  have hlong := request.length_message_gt
  rw [h, endorsement.length_message] at hlong
  omega

end Message

/-- What the requester of an operation signs. -/
def Operation.request (op : Operation) : Message.Request :=
  ⟨op.kind, op.requester, op.txValidity, op.body, op.nonce⟩

/-- **Signed messages bind everything and never mix.** Requests with bodies of the families of their
kinds have the same message only if they are the same; a validator's message gives what it endorses;
and no requester's message is a validator's. So, whatever the hash function, where two operations of
different requests carry the same hash, or an operation carries a validator's, messages collide. -/
theorem Message.messages_bind_and_never_mix :
    (∀ request request' : Message.Request, request.WellFormed → request'.WellFormed →
      request.message = request'.message → request = request') ∧
    (∀ endorsement endorsement' : Message.Endorsement,
      endorsement.message = endorsement'.message → endorsement = endorsement') ∧
    (∀ (request : Message.Request) (endorsement : Message.Endorsement),
      request.message ≠ endorsement.message) ∧
    ∀ suite : Suite,
      (∀ op op' : Operation, op.WellFormed → op'.WellFormed → op.tx = op.computeHash suite →
        op'.tx = op'.computeHash suite → op.tx = op'.tx → op.request ≠ op'.request →
          suite.Collides op.request.message op'.request.message) ∧
      ∀ (op : Operation) (endorsement : Message.Endorsement), op.tx = op.computeHash suite →
        Message.validatorHash suite endorsement.tx endorsement.validator endorsement.nonce =
          op.tx → suite.Collides endorsement.message op.request.message := by
  refine ⟨fun _ _ ↦ Request.eq_of_message_eq, fun _ _ ↦ Endorsement.eq_of_message_eq,
    Request.message_ne, fun suite ↦ ⟨?_, ?_⟩⟩
  · intro op op' hop hop' hhash hhash' htx hne
    refine ⟨fun h ↦ hne (Request.eq_of_message_eq hop.family hop'.family h), ?_⟩
    show op.computeHash suite = op'.computeHash suite
    rw [← hhash, ← hhash', htx]
  · intro op endorsement hhash htx
    refine ⟨(op.request.message_ne endorsement).symm, ?_⟩
    show validatorHash suite _ _ _ = op.computeHash suite
    rw [htx, hhash]

end SettlementLedger
