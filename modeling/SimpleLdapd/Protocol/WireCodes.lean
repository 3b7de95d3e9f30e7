import SimpleLdapd.Library.TwosComplement
import SimpleLdapd.Protocol.Message

/-!
# The numbers behind decoded enumerations (`protocol/ber.cpp`, `protocol/message.cpp`)

`readEnumerated` keeps the low 32 bits of what it reads, and the decoders cast them
to an enumeration without a look at them. Here the content octets are kept: the
same reads, with the octets in place of the enumerator, so that a request can be
told apart from the one it is taken for.
-/

namespace SimpleLdapd.Ber

open SimpleLdapd.Dn SimpleLdapd.BigEndian

section Projection

variable {Fine Coarse Next Result : Type}

/-- `coarse` reads what `fine` reads and delivers the image of its value. -/
def Projects (image : Fine → Coarse) (fine : Read Fine) (coarse : Read Coarse) : Prop :=
  ∀ reader, coarse.run reader = ((fine.run reader).1.map image, (fine.run reader).2)

theorem Projects.some {image : Fine → Coarse} {fine : Read Fine} {coarse : Read Coarse}
    (projects : Projects image fine coarse) {reader after : BerReader} {value : Coarse}
    (taken : coarse.run reader = (some value, after)) :
    ∃ detail, fine.run reader = (some detail, after) ∧ image detail = value := by
  rw [projects reader] at taken
  obtain ⟨delivered, same⟩ := Prod.mk.inj taken
  obtain ⟨detail, found, equal⟩ := Option.map_eq_some_iff.mp delivered
  exact ⟨detail, Prod.ext found same, equal⟩

theorem projects_same (read : Read Fine) : Projects id read read := by
  intro reader
  rw [Option.map_id]
  rfl

theorem projects_fail (image : Fine → Coarse) : Projects image Read.fail Read.fail :=
  fun _ => rfl

theorem projects_pure (image : Fine → Coarse) (value : Fine) :
    Projects image (pure value) (pure (image value)) :=
  fun _ => rfl

theorem projects_bind {image : Fine → Coarse} {fine : Read Fine} {coarse : Read Coarse}
    {after : Next → Result} {next : Fine → Read Next} {result : Coarse → Read Result}
    (here : Projects image fine coarse)
    (there : ∀ value, Projects after (next value) (result (image value))) :
    Projects after (fine >>= next) (coarse >>= result) := by
  intro reader
  rw [Read.bind_apply, Read.bind_apply, here reader]
  cases fine.run reader with
  | mk delivered middle =>
      cases delivered with
      | none => rfl
      | some value => exact there value middle

theorem projects_block {image : Fine → Coarse} {fine : Read Fine} {coarse : Read Coarse}
    (tag : Byte) (inside : Projects image fine coarse) :
    Projects image (readBlock tag fine) (readBlock tag coarse) := by
  apply projects_bind (projects_same (readConstructed tag))
  intro inner reader
  unfold Read.within
  rw [id, inside inner]

theorem projects_loop {image : Fine → Coarse} {fine : Read Fine} {coarse : Read Coarse}
    (item : Projects image fine coarse) (fuel : Nat) :
    Projects (List.map image) (Read.loop fine fuel) (Read.loop coarse fuel) := by
  induction fuel with
  | zero => exact fun _ => rfl
  | succ fuel ih =>
      unfold Read.loop
      apply projects_bind (projects_same Read.atEnd)
      intro finished
      cases finished with
      | true => exact projects_pure _ []
      | false =>
          apply projects_bind item
          intro value
          apply projects_bind ih
          intro values
          exact projects_pure _ (value :: values)

theorem projects_while {image : Fine → Coarse} {fine : Read Fine} {coarse : Read Coarse}
    (item : Projects image fine coarse) :
    Projects (List.map image) (Read.whileMore fine) (Read.whileMore coarse) :=
  fun reader => projects_loop item (reader.data.length + 1) reader

end Projection

section Enumerated

/-- The integer that content octets denote. -/
def twosComplement (content : Bytes) : Int :=
  if isNegative content then (value content : Int) - 256 ^ content.length else value content

/-- What `readEnumerated` makes of the content octets. -/
def enumeratedOf (content : Bytes) : Int32 := (Int64.ofBitVec (content.foldl shiftIn 0)).toInt32

/-- `readEnumerated` without its last step. -/
def readEnumeratedContent : Read Bytes := do
  let (tag, length) ← readTagLength
  if tag ≠ kBerEnumerated ∨ length = 0 ∨ 8 < length then Read.fail
  else consume length

theorem projects_enumerated : Projects enumeratedOf readEnumeratedContent readEnumerated := by
  apply projects_bind (projects_same readTagLength)
  intro head
  simp only [id]
  split
  · exact projects_fail _
  · intro reader
    rw [Read.bind_apply]
    cases (consume head.2).run reader with
    | mk content after => cases content <;> rfl

/-- A number that is not negative is cast as it is. -/
theorem enumerated_of_natural {content : Bytes} {code : Nat}
    (denotes : twosComplement content = code) : enumeratedOf content = Int32.ofNat code := by
  have plain : value content = code := by
    unfold twosComplement at denotes
    have bound := value_lt content
    split at denotes
    · have above : (value content : Int) < 256 ^ content.length := by exact_mod_cast bound
      omega
    · exact_mod_cast denotes
  have bits : content.foldl shiftIn 0 = BitVec.ofNat 64 code := by
    apply BitVec.eq_of_toNat_eq
    rw [fold_shift_in, plain, BitVec.toNat_ofNat]
    simp
  rw [enumeratedOf, bits, Int64.ofBitVec_ofNat, Int64.toInt32_ofNat']

/-- From five octets on the cast loses the high ones. -/
example : twosComplement [1, 0, 0, 0, 0] = 2 ^ 32 ∧ enumeratedOf [1, 0, 0, 0, 0] = 0 := by
  decide

end Enumerated

section Integer

/-- What `readInteger` makes of the content octets. -/
def integerOf (content : Bytes) : Int64 :=
  Int64.ofBitVec (content.foldl shiftIn (if isNegative content then BitVec.allOnes 64 else 0))

/-- `readInteger` without its last step. -/
def readIntegerContent : Read Bytes := do
  let (tag, length) ← readTagLength
  if tag ≠ kBerInteger ∨ length = 0 ∨ 8 < length then Read.fail
  else consume length

theorem projects_integer : Projects integerOf readIntegerContent readInteger := by
  apply projects_bind (projects_same readTagLength)
  intro head
  simp only [id]
  split
  · exact projects_fail _
  · intro reader
    rw [Read.bind_apply]
    cases (consume head.2).run reader with
    | mk content after => cases content <;> rfl

end Integer

end SimpleLdapd.Ber

namespace SimpleLdapd.Message

open Dn Ber

/-- A change with the content octets of its operation. -/
structure WireChange where
  operation : Bytes
  type : Bytes
  values : List Bytes
  deriving DecidableEq

namespace WireChange

def code (change : WireChange) : Int := twosComplement change.operation

def decoded (change : WireChange) : AttributeModification where
  op := .ofInt (enumeratedOf change.operation)
  type := change.type
  values := change.values

end WireChange

def readWireChange : Read WireChange :=
  readBlock kBerSequence do
    let operation ← readEnumeratedContent
    let (type, values) ← decodeAttribute
    pure { operation := operation, type := type, values := values }

def readWireModify : Read (Bytes × List WireChange) := do
  let dn ← readOctetString
  let changes ← readBlock kBerSequence do
    let changes ← Read.whileMore readWireChange
    Read.requireOk
    pure changes
  pure (dn, changes)

def readWireScope : Read Bytes := do
  let _ ← readOctetString
  readEnumeratedContent

/-- A request of the given kind, its own body read in place of the decoder's. -/
def readRequest {Value : Type} (op : ProtocolOp) (body : Read Value) : Read Value :=
  readBlock kBerSequence do
    let _ ← readInteger
    let tag ← Read.peekTag
    if operationOf tag = op then readBlock tag body else Read.fail

def wireChanges (wire : Bytes) : Option (List WireChange) :=
  (((readRequest .modifyRequest readWireModify).run { data := wire }).1).map Prod.snd

def wireScope (wire : Bytes) : Option Int :=
  (((readRequest .searchRequest readWireScope).run { data := wire }).1).map twosComplement

theorem projects_change : Projects WireChange.decoded readWireChange decodeChange := by
  apply projects_block
  apply projects_bind projects_enumerated
  intro operation
  apply projects_bind (projects_same decodeAttribute)
  intro partialAttribute
  exact projects_pure WireChange.decoded
    { operation := operation, type := partialAttribute.1, values := partialAttribute.2 }

def modifyOf (modify : Bytes × List WireChange) : ModifyRequestData where
  dn := modify.1
  changes := modify.2.map WireChange.decoded

/-- The decoder sees of a Modify request what the octets decode to. -/
theorem projects_modify : Projects modifyOf readWireModify decodeModifyRequest := by
  apply projects_bind (projects_same readOctetString)
  intro dn
  have listed : Projects (List.map WireChange.decoded)
      (readBlock kBerSequence do
        let changes ← Read.whileMore readWireChange
        Read.requireOk
        pure changes)
      (readBlock kBerSequence do
        let changes ← Read.whileMore decodeChange
        Read.requireOk
        pure changes) := by
    apply projects_block
    apply projects_bind (projects_while projects_change)
    intro changes
    apply projects_bind (projects_same Read.requireOk)
    intro ok
    exact projects_pure _ changes
  apply projects_bind listed
  intro changes
  exact projects_pure modifyOf (dn, changes)

end SimpleLdapd.Message
