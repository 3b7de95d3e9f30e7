import SimpleLdapd.Protocol.Message
import SimpleLdapd.Protocol.ReaderSteps

/-!
# Bounds of the message decoder (`protocol/message.cpp`, `protocol/filter.cpp`)

`decodeLdapMessage` and all it calls, taken apart into steps. The recursion of
`decodeNode` is on the size of the buffer, so its fuel is never used up, and
each loop comes with the proof that its item consumes.
-/

namespace SimpleLdapd

open Dn Ber

namespace Filter

variable {size fuel : Nat}

def readPartSteps : Steps size readPart :=
  fieldSteps kBerSubstringInitial kBerSubstringAny kBerSubstringFinal SubstringPart.initial
    SubstringPart.any SubstringPart.final SubstringPart.unknown

theorem read_part_consumes : Consumes size readPart :=
  readPartSteps.consumes (consuming_field _ _ _ _ _ _ _)

/-- A turn of `decodeNode` on children in front of fewer bytes. -/
def nodeSteps (children : ∀ inner, inner < size →
      {steps : Steps inner (decodeNodeWith fuel) // steps.Consuming}) :
    Steps size (decodeNodeWith (fuel + 1)) :=
  .bind .peekTag fun _ _ =>
    .choose (fun _ =>
      readNestedSteps _ (fun inner smaller =>
        let child := children inner smaller
        .bind (.loop child.1 (child.1.consumes child.2)) fun _ _ =>
          .bind .requireOk fun _ _ => .give _) fun _ => .give _) fun _ =>
    .choose (fun _ =>
      readNestedSteps _ (fun inner smaller =>
        .bind (children inner smaller).1 fun _ _ =>
          .bind .requireOk fun _ _ => .give _) fun _ => .give _) fun _ =>
    .choose (fun _ => .assign (readOctetStringAsSteps _) _) fun _ =>
    .choose (fun _ =>
      readBlockSteps _ fun _ _ =>
        .bind readOctetStringSteps fun _ _ =>
          .bind readOctetStringSteps fun _ _ =>
            .bind .requireOk fun _ _ => .give _) fun _ =>
    .choose (fun _ =>
      readBlockSteps _ fun _ _ =>
        .bind readOctetStringSteps fun _ _ =>
          readNestedSteps _ (fun _ _ =>
            .bind (.loop readPartSteps read_part_consumes) fun _ _ =>
              .bind .requireOk fun _ _ => .give _) fun _ =>
            .bind .requireOk fun _ _ => .give _) fun _ =>
    .refuse

theorem node_consuming (children : ∀ inner, inner < size →
      {steps : Steps inner (decodeNodeWith fuel) // steps.Consuming}) :
    (nodeSteps children).Consuming := by
  refine Or.inr fun _ _ => ⟨fun _ => ?_, fun _ => ⟨fun _ => ?_, fun _ => ⟨fun _ => ?_, fun _ =>
    ⟨fun _ => ?_, fun _ => ⟨fun _ => ?_, fun _ => ?_⟩⟩⟩⟩⟩
  · exact Or.inl (consuming_constructed _)
  · exact Or.inl (consuming_constructed _)
  · exact Or.inl (consuming_octet_string _)
  · exact Or.inl (consuming_constructed _)
  · exact Or.inl (consuming_constructed _)
  · exact fun _ => rfl

/-- A node in front of `size` bytes never uses up a fuel above `size`. -/
def decodeNodeWithSteps : (fuel size : Nat) → size < fuel →
    {steps : Steps size (decodeNodeWith fuel) // steps.Consuming}
  | 0, _, enough => absurd enough (Nat.not_lt_zero _)
  | fuel + 1, _, enough =>
      ⟨nodeSteps fun inner smaller => decodeNodeWithSteps fuel inner (by omega), node_consuming _⟩

def decodeNodeSteps : Steps size decodeNode :=
  @Steps.atSize size FilterNode (fun length => decodeNodeWith (length + 1))
    (decodeNodeWithSteps (size + 1) size (Nat.lt_succ_self size)).1

end Filter

def SearchFilter.decodeBerSteps {size : Nat} : Steps size SearchFilter.decodeBer :=
  .bind Filter.decodeNodeSteps fun _ _ => .bind .requireOk fun _ _ => .give _

namespace Message

variable {size : Nat}

def readResultFieldSteps : Steps size readResultField :=
  fieldSteps kBerServerSaslCreds kBerContext10 kBerContext11 ResultField.serverSaslCreds
    ResultField.extendedOid ResultField.extendedValue ResultField.skipped

theorem read_result_field_consumes : Consumes size readResultField :=
  readResultFieldSteps.consumes (consuming_field _ _ _ _ _ _ _)

def decodeResultSteps (message : LdapMessage) : Steps size (decodeResult message) :=
  .bind readEnumeratedSteps fun _ _ =>
    .bind readOctetStringSteps fun _ _ =>
      .bind readOctetStringSteps fun _ _ =>
        .bind (.loop readResultFieldSteps read_result_field_consumes) fun _ _ =>
          .bind .requireOk fun _ _ => .give _

def decodeSaslSteps (bind : BindRequestData) : Steps size (decodeSasl bind) :=
  .bind readOctetStringSteps fun _ _ =>
    .bind .atEnd fun _ _ =>
      .choose (fun _ => .bind .requireOk fun _ _ => .give _) fun _ =>
        .bind readOctetStringSteps fun _ _ => .bind .requireOk fun _ _ => .give _

def decodeBindRequestSteps : Steps size decodeBindRequest :=
  .bind readIntegerSteps fun _ _ =>
    .bind readOctetStringSteps fun _ _ =>
      .bind .peekTag fun _ _ =>
        .choose (fun _ => .assign (readOctetStringAsSteps _) _) fun _ =>
          .choose (fun _ => .bind skipSteps fun _ _ => .give _) fun _ =>
            readBlockSteps _ fun _ _ => decodeSaslSteps _

/-- The loop over octet strings: attribute names and attribute values. -/
def octetStringsSteps : Steps size (Read.whileMore readOctetString) :=
  .loop readOctetStringSteps (readOctetStringSteps.consumes (consuming_octet_string _))

def decodeSearchRequestSteps : Steps size decodeSearchRequest :=
  .bind readOctetStringSteps fun _ _ =>
    .bind readEnumeratedSteps fun _ _ =>
      .bind readEnumeratedSteps fun _ _ =>
        .bind readIntegerSteps fun _ _ =>
          .bind readIntegerSteps fun _ _ =>
            .bind readBooleanSteps fun _ _ =>
              .bind SearchFilter.decodeBerSteps fun _ _ =>
                .assign (readBlockSteps _ fun _ _ =>
                  .bind octetStringsSteps fun _ _ => .bind .requireOk fun _ _ => .give _) _

def decodeAttributeSteps : Steps size decodeAttribute :=
  readBlockSteps _ fun _ _ =>
    .bind readOctetStringSteps fun _ _ =>
      .assign (readBlockSteps _ fun _ _ => octetStringsSteps) _

def readPartialAttributeSteps :
    Steps size (decodeAttribute >>= fun pair =>
      pure ({ type := pair.1, values := pair.2 } : PartialAttribute)) :=
  .assign decodeAttributeSteps _

def decodeAttributesSteps : Steps size decodeAttributes :=
  .bind (.loop readPartialAttributeSteps
    (readPartialAttributeSteps.consumes (Or.inl (consuming_block _ _)))) fun _ _ =>
      .bind .requireOk fun _ _ => .give _

def decodeSearchEntrySteps : Steps size decodeSearchEntry :=
  .bind readOctetStringSteps fun _ _ =>
    .assign (readBlockSteps _ fun _ _ => decodeAttributesSteps) _

def decodeAddRequestSteps : Steps size decodeAddRequest :=
  .bind readOctetStringSteps fun _ _ =>
    .assign (readBlockSteps _ fun _ _ => decodeAttributesSteps) _

def decodeChangeSteps : Steps size decodeChange :=
  readBlockSteps _ fun _ _ =>
    .bind readEnumeratedSteps fun _ _ => .assign decodeAttributeSteps _

def decodeModifyRequestSteps : Steps size decodeModifyRequest :=
  .bind readOctetStringSteps fun _ _ =>
    .assign (readBlockSteps _ fun _ _ =>
      .bind (.loop decodeChangeSteps (decodeChangeSteps.consumes (consuming_block _ _))) fun _ _ =>
        .bind .requireOk fun _ _ => .give _) _

def decodeModifyDnRequestSteps : Steps size decodeModifyDnRequest :=
  .bind readOctetStringSteps fun _ _ =>
    .bind readOctetStringSteps fun _ _ =>
      .bind readBooleanSteps fun _ _ =>
        .bind (.nextIs _) fun _ _ =>
          .choose (fun _ => .assign (readOctetStringAsSteps _) _) fun _ =>
            .bind .requireOk fun _ _ => .give _

def decodeCompareRequestSteps : Steps size decodeCompareRequest :=
  .bind readOctetStringSteps fun _ _ =>
    .bind (readBlockSteps _ fun _ _ =>
      .bind readOctetStringSteps fun _ _ => .assign readOctetStringSteps _) fun ⟨_, _⟩ _ =>
        .bind .requireOk fun _ _ => .give _

def decodeCriticalitySteps : Steps size decodeCriticality :=
  .bind (.nextIs _) fun _ _ => .choose (fun _ => readBooleanSteps) fun _ => .give _

def decodeControlValueSteps : Steps size decodeControlValue :=
  .bind .atEnd fun _ _ => .choose (fun _ => .give _) fun _ => readOctetStringSteps

def decodeControlSteps : Steps size decodeControl :=
  readBlockSteps _ fun _ _ =>
    .bind readOctetStringSteps fun _ _ =>
      .bind decodeCriticalitySteps fun _ _ => .assign decodeControlValueSteps _

def decodeControlsSteps : Steps size decodeControls :=
  .bind (.loop decodeControlSteps (decodeControlSteps.consumes (consuming_block _ _))) fun _ _ =>
    .bind .requireOk fun _ _ => .give _

def decodeExtendedRequestSteps : Steps size decodeExtendedRequest :=
  .bind (readOctetStringAsSteps _) fun _ _ =>
    .bind (.nextIs _) fun _ _ =>
      .choose (fun _ => .assign (readOctetStringAsSteps _) _) fun _ =>
        .bind .requireOk fun _ _ => .give _

def decodeOperationSteps (message : LdapMessage) (tag : Byte) :
    Steps size (decodeOperation message tag) := by
  unfold decodeOperation
  exact match operationOf tag with
    | .bindRequest => .assign (readBlockSteps _ fun _ _ => decodeBindRequestSteps) _
    | .searchRequest => .assign (readBlockSteps _ fun _ _ => decodeSearchRequestSteps) _
    | .searchResultEntry => .assign (readBlockSteps _ fun _ _ => decodeSearchEntrySteps) _
    | .modifyRequest => .assign (readBlockSteps _ fun _ _ => decodeModifyRequestSteps) _
    | .addRequest => .assign (readBlockSteps _ fun _ _ => decodeAddRequestSteps) _
    | .delRequest => .assign (readOctetStringAsSteps _) _
    | .modifyDnRequest => .assign (readBlockSteps _ fun _ _ => decodeModifyDnRequestSteps) _
    | .compareRequest => .assign (readBlockSteps _ fun _ _ => decodeCompareRequestSteps) _
    | .extendedRequest =>
        .bind (readBlockSteps _ fun _ _ => decodeExtendedRequestSteps) fun ⟨_, _⟩ _ => .give _
    | .bindResponse | .searchResultDone | .modifyResponse | .addResponse | .delResponse
    | .modifyDnResponse | .compareResponse | .extendedResponse =>
        readBlockSteps _ fun _ _ => decodeResultSteps _
    | .unbindRequest | .unknown => .bind skipSteps fun _ _ => .give _

def decodeBodySteps : Steps size decodeBody :=
  .bind readIntegerSteps fun _ _ =>
    .bind .peekTag fun _ _ =>
      .bind (decodeOperationSteps _ _) fun _ _ =>
        .bind (.nextIs _) fun _ _ =>
          .choose (fun _ => .assign (readBlockSteps _ fun _ _ => decodeControlsSteps) _) fun _ =>
            .give _

/-- The read that `decodeLdapMessage` runs on a reader over the whole wire. -/
def decodeMessageSteps : Steps size (readBlock kBerSequence decodeBody) :=
  readBlockSteps _ fun _ _ => decodeBodySteps

/-- What `decodeLdapMessage` does to its readers. -/
def decodeEvents (wire : Bytes) : List Event :=
  (@decodeMessageSteps wire.length).events { data := wire } rfl

/-- On any wire of less than `2 ^ 62` bytes no loop and no recursion of the decoder runs out of
fuel, every reader stays inside its buffer, every nested buffer is shorter, every turn of a loop
consumes and no sum wraps; a failed reader stays failed. -/
theorem decoder_bounds (wire : Bytes) (small : wire.length < 2 ^ 62) :
    (∀ event ∈ decodeEvents wire, event.Good) ∧
      ∀ (count : Nat) (tag : Byte), Sticky (consume count) ∧ Sticky readLength ∧
        Sticky readTagLength ∧ Sticky (readConstructed tag) ∧ Sticky readInteger ∧
        Sticky readEnumerated ∧ Sticky readBoolean ∧ Sticky (readOctetStringAs tag) ∧
        Sticky skip := by
  refine ⟨decodeMessageSteps.good small { data := wire } rfl (Nat.zero_le _), fun count tag => ?_⟩
  exact ⟨sticky_consume count, sticky_length, sticky_tag_length, sticky_constructed tag,
    sticky_integer, sticky_enumerated, sticky_boolean, sticky_octet_string tag, sticky_skip⟩

/-- A result with an unknown element of no bytes behind its three fields. -/
def emptyElementWire : Bytes :=
  [0x30, 0x0e, 0x02, 0x01, 0x01, 0x65, 0x09, 0x0a, 0x01, 0x00, 0x04, 0x00, 0x04, 0x00, 0x85, 0x00]

theorem decoder_bounds_empty_element :
    (∀ event ∈ decodeEvents emptyElementWire, event.Good) ∧
      ∀ (count : Nat) (tag : Byte), Sticky (consume count) ∧ Sticky readLength ∧
        Sticky readTagLength ∧ Sticky (readConstructed tag) ∧ Sticky readInteger ∧
        Sticky readEnumerated ∧ Sticky readBoolean ∧ Sticky (readOctetStringAs tag) ∧
        Sticky skip :=
  decoder_bounds emptyElementWire (by decide)

end Message

end SimpleLdapd
