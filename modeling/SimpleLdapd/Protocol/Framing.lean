import SimpleLdapd.Protocol.Message

/-!
# Stream framing (`TcpConnection::recvPdu` in `utils/net.cpp`)

The connection is the bytes it still has to deliver: `recvExact` takes the next
ones or fails. `recvPdu` parses the length of a PDU by itself, so three length
codecs have to agree: the one of the writer, this one and the one of the reader.
-/

namespace SimpleLdapd.Framing

open Dn Ber BigEndian Message

def recvExact (count : Nat) (stream : Bytes) : Option (Bytes × Bytes) :=
  if stream.length < count then none else some (stream.take count, stream.drop count)

/-- The part of `recvPdu` that reads tag and length: the bytes read and the length. -/
def recvHeader (stream : Bytes) : Option ((Bytes × Nat) × Bytes) := do
  let (head, rest) ← recvExact 2 stream
  let second := head.getD 1 0
  if second.val &&& 0x80 = 0 then some ((head, second.val), rest)
  else
    let count := second.val &&& 0x7f
    if count = 0 ∨ 4 < count then none
    else do
      let (raw, left) ← recvExact count rest
      some ((head ++ raw, raw.foldl (fun length byte => length <<< 8 ||| byte.val) 0), left)

/-- The rest of `recvPdu`: the bound and the content. -/
def recvContent (maxPduSize : Nat) (pdu : Bytes) (length : Nat) (stream : Bytes) :
    Option (Bytes × Bytes) :=
  if maxPduSize = 0 ∨ maxPduSize < length then none
  else if length = 0 then some (pdu, stream)
  else do
    let (content, rest) ← recvExact length stream
    some (pdu ++ content, rest)

/-- The PDU and the bytes left on the stream, `none` where the source returns `false`. -/
def recvPdu (maxPduSize : Nat) (stream : Bytes) : Option (Bytes × Bytes) := do
  let ((pdu, length), rest) ← recvHeader stream
  recvContent maxPduSize pdu length rest

/-- `recvPdu` called `count` times. -/
def recvPdus (maxPduSize : Nat) : Nat → Bytes → Option (List Bytes × Bytes)
  | 0, stream => some ([], stream)
  | count + 1, stream => do
      let (pdu, rest) ← recvPdu maxPduSize stream
      let (pdus, left) ← recvPdus maxPduSize count rest
      some (pdu :: pdus, left)

/-- What `encodeLdapMessage` puts into its sequence. -/
def contentOf (message : LdapMessage) : Bytes :=
  writeInteger message.messageId.toInt64 ++ (encodeOperation message ++
    if message.controls ≠ [] then encodeControls message.controls else [])

section Receiving

theorem recv_exact_append (bytes rest : Bytes) :
    recvExact bytes.length (bytes ++ rest) = some (bytes, rest) := by
  simp [recvExact]

theorem recv_exact_some {count : Nat} {stream bytes rest : Bytes}
    (received : recvExact count stream = some (bytes, rest)) :
    bytes.length = count ∧ bytes ++ rest = stream := by
  unfold recvExact at received
  split at received
  · cases received
  · rename_i enough
    cases received
    exact ⟨List.length_take_of_le (by omega), List.take_append_drop count stream⟩

/-- Bytes that arrive later change nothing about what was received. -/
theorem recv_exact_extend {count : Nat} {stream bytes rest : Bytes}
    (received : recvExact count stream = some (bytes, rest)) (more : Bytes) :
    recvExact count (stream ++ more) = some (bytes, rest ++ more) := by
  obtain ⟨size, split⟩ := recv_exact_some received
  rw [← split, ← size, List.append_assoc]
  exact recv_exact_append bytes (rest ++ more)

theorem recv_content_some {maxPduSize length : Nat} {pdu stream whole rest : Bytes}
    (received : recvContent maxPduSize pdu length stream = some (whole, rest)) :
    length ≤ maxPduSize ∧ ∃ content, content.length = length ∧ whole = pdu ++ content ∧
      content ++ rest = stream := by
  unfold recvContent at received
  split at received
  · cases received
  rename_i fits
  refine ⟨by omega, ?_⟩
  split at received
  · rename_i empty
    cases received
    exact ⟨[], empty.symm, by simp, rfl⟩
  · obtain ⟨⟨content, left⟩, taken, same⟩ := Option.bind_eq_some_iff.mp received
    cases same
    obtain ⟨size, split⟩ := recv_exact_some taken
    exact ⟨content, size, rfl, split⟩

theorem recv_content_append {maxPduSize : Nat} (pdu content rest : Bytes)
    (positive : 0 < maxPduSize) (fits : content.length ≤ maxPduSize) :
    recvContent maxPduSize pdu content.length (content ++ rest) = some (pdu ++ content, rest) := by
  unfold recvContent
  rw [if_neg (by omega)]
  split
  · rename_i empty
    rw [List.length_eq_zero_iff.mp empty, List.append_nil, List.nil_append]
  · rw [recv_exact_append]
    rfl

theorem recv_content_extend {maxPduSize length : Nat} {pdu stream whole rest : Bytes}
    (received : recvContent maxPduSize pdu length stream = some (whole, rest)) (more : Bytes) :
    recvContent maxPduSize pdu length (stream ++ more) = some (whole, rest ++ more) := by
  have refused : ¬ (maxPduSize = 0 ∨ maxPduSize < length) := by
    intro refused
    rw [recvContent, if_pos refused] at received
    cases received
  obtain ⟨fits, content, size, same, split⟩ := recv_content_some received
  rw [same, ← split, ← size, List.append_assoc]
  exact recv_content_append pdu content (rest ++ more) (by omega) (by omega)

theorem recv_header_some {stream header rest : Bytes} {length : Nat}
    (received : recvHeader stream = some ((header, length), rest)) :
    header.length ≤ 6 ∧ header ++ rest = stream := by
  obtain ⟨⟨head, afterHead⟩, taken, received⟩ := Option.bind_eq_some_iff.mp received
  obtain ⟨size, split⟩ := recv_exact_some taken
  simp only at received
  split at received
  · cases received
    exact ⟨by omega, split⟩
  split at received
  · cases received
  rename_i few
  obtain ⟨⟨raw, left⟩, more, same⟩ := Option.bind_eq_some_iff.mp received
  cases same
  obtain ⟨count, splitMore⟩ := recv_exact_some more
  refine ⟨?_, by rw [List.append_assoc, splitMore, split]⟩
  change (head ++ raw).length ≤ 6
  rw [List.length_append]
  omega

theorem recv_header_extend {stream rest : Bytes} {header : Bytes × Nat}
    (received : recvHeader stream = some (header, rest)) (more : Bytes) :
    recvHeader (stream ++ more) = some (header, rest ++ more) := by
  obtain ⟨⟨head, afterHead⟩, taken, received⟩ := Option.bind_eq_some_iff.mp received
  unfold recvHeader
  rw [recv_exact_extend taken more]
  simp only [Option.bind_eq_bind, Option.bind_some] at received ⊢
  split at received
  · rename_i short
    cases received
    rw [if_pos short]
  rename_i long
  rw [if_neg long]
  split at received
  · cases received
  rename_i few
  rw [if_neg few]
  obtain ⟨⟨raw, left⟩, takenMore, same⟩ := Option.bind_eq_some_iff.mp received
  cases same
  rw [recv_exact_extend takenMore more]
  rfl

/-- The inline parser reads back what `writeTagLength` wrote. -/
theorem recv_header_written (tag : Byte) {length : Nat} (bound : length < 2 ^ 32) (rest : Bytes) :
    recvHeader (writeTagLength tag length ++ rest) =
      some ((writeTagLength tag length, length), rest) := by
  unfold writeTagLength recvHeader
  rcases encode_length_forms bound with
    ⟨byte, form, small, clear⟩ | ⟨first, raw, form, long, masked, nonzero, few, numeral⟩
  · have taken : recvExact 2 ((tag :: encodeLength length) ++ rest) = some ([tag, byte], rest) := by
      rw [form]
      exact recv_exact_append [tag, byte] rest
    rw [taken]
    simp [clear, small, form]
  · have taken : recvExact 2 ((tag :: encodeLength length) ++ rest) =
        some ([tag, first], raw ++ rest) := by
      rw [form]
      exact recv_exact_append [tag, first] (raw ++ rest)
    rw [taken]
    simp [long, masked, nonzero, Nat.not_lt.mpr few, recv_exact_append, numeral, form]

theorem recv_pdu_extend {maxPduSize : Nat} {stream pdu rest : Bytes}
    (received : recvPdu maxPduSize stream = some (pdu, rest)) (more : Bytes) :
    recvPdu maxPduSize (stream ++ more) = some (pdu, rest ++ more) := by
  obtain ⟨⟨⟨header, length⟩, left⟩, taken, received⟩ := Option.bind_eq_some_iff.mp received
  unfold recvPdu
  rw [recv_header_extend taken more]
  exact recv_content_extend received more

theorem recv_pdu_some {maxPduSize : Nat} {stream pdu rest : Bytes}
    (received : recvPdu maxPduSize stream = some (pdu, rest)) :
    pdu.length ≤ maxPduSize + 6 ∧ pdu ++ rest = stream := by
  obtain ⟨⟨⟨header, length⟩, left⟩, taken, received⟩ := Option.bind_eq_some_iff.mp received
  obtain ⟨short, splitHeader⟩ := recv_header_some taken
  obtain ⟨fits, content, size, same, split⟩ := recv_content_some received
  rw [same, List.length_append, List.append_assoc, split, splitHeader]
  exact ⟨by omega, rfl⟩

/-- A written block is received as it is, whatever follows it. -/
theorem recv_pdu_written {maxPduSize : Nat} (positive : 0 < maxPduSize) (tag : Byte)
    {content : Bytes} (fits : content.length ≤ maxPduSize) (bound : content.length < 2 ^ 32)
    (rest : Bytes) :
    recvPdu maxPduSize (writeConstructed tag content ++ rest) =
      some (writeConstructed tag content, rest) := by
  unfold recvPdu writeConstructed writeTagged
  rw [List.append_assoc, recv_header_written tag bound]
  exact recv_content_append _ content rest positive fits

/-- A block that is cut short is not received. -/
theorem recv_pdu_cut {maxPduSize : Nat} (positive : 0 < maxPduSize) (tag : Byte)
    {content : Bytes} (fits : content.length ≤ maxPduSize) (bound : content.length < 2 ^ 32)
    {cut missing : Bytes} (split : cut ++ missing = writeConstructed tag content)
    (proper : missing ≠ []) : recvPdu maxPduSize cut = none := by
  cases received : recvPdu maxPduSize cut with
  | none => rfl
  | some taken =>
      have whole := recv_pdu_written positive tag fits bound []
      rw [List.append_nil, ← split, recv_pdu_extend received missing, Option.some.injEq,
        Prod.mk.injEq] at whole
      exact absurd (List.append_eq_nil_iff.mp whole.2).2 proper

theorem recv_pdus_append {maxPduSize : Nat} (positive : 0 < maxPduSize)
    {messages : List LdapMessage}
    (fits : ∀ message ∈ messages, (contentOf message).length ≤ maxPduSize ∧
      (contentOf message).length < 2 ^ 32) (rest : Bytes) :
    recvPdus maxPduSize messages.length (messages.flatMap encodeLdapMessage ++ rest) =
      some (messages.map encodeLdapMessage, rest) := by
  induction messages with
  | nil => rfl
  | cons message messages ih =>
      obtain ⟨short, bound⟩ := fits message (by simp)
      have later := ih fun other member => fits other (by simp [member])
      rw [List.flatMap_cons, List.append_assoc, List.length_cons, recvPdus,
        show encodeLdapMessage message = writeConstructed kBerSequence (contentOf message) from rfl,
        recv_pdu_written positive kBerSequence short bound]
      simp only [Option.bind_eq_bind, Option.bind_some, later]
      rfl

end Receiving

section Prefixes

/-- A read that succeeds stays inside its buffer, and bytes behind the buffer do not
change it. -/
def Local {Value : Type} (read : Read Value) : Prop :=
  ∀ data offset value after, offset ≤ data.length →
    read.run { data := data, offset := offset } = (some value, after) →
    ∃ later, later ≤ data.length ∧ after = { data := data, offset := later } ∧
      ∀ more, read.run { data := data ++ more, offset := offset } =
        (some value, { data := data ++ more, offset := later })

theorem local_pure {Value : Type} (value : Value) : Local (pure value) := by
  intro data offset result after inside taken
  cases taken
  exact ⟨offset, inside, rfl, fun _ => rfl⟩

theorem local_fail {Value : Type} : Local (Read.fail : Read Value) := by
  intro data offset result after inside taken
  cases taken

theorem local_bind {First Second : Type} {first : Read First} {rest : First → Read Second}
    (here : Local first) (there : ∀ value, Local (rest value)) : Local (first >>= rest) := by
  intro data offset result after inside taken
  rw [Read.bind_apply] at taken
  split at taken
  · cases taken
  rename_i value middle run
  obtain ⟨reached, within, same, extended⟩ := here data offset value middle inside run
  rw [same] at taken
  obtain ⟨later, stays, ends, final⟩ := there value data reached result after within taken
  refine ⟨later, stays, ends, ?_⟩
  intro more
  rw [Read.bind_of_some (extended more)]
  exact final more

theorem local_consume (count : Nat) : Local (consume count) := by
  intro data offset result after inside taken
  simp only [consume, Bool.not_true, Bool.false_or, decide_eq_true_eq] at taken
  split at taken
  · cases taken
  rename_i enough
  cases taken
  refine ⟨offset + count, by omega, rfl, ?_⟩
  intro more
  have longer : ¬ (data ++ more).length < offset + count := by
    rw [List.length_append]
    omega
  have same : substr (data ++ more) offset count = substr data offset count := by
    unfold substr
    rw [List.drop_append_of_le_length inside, List.take_append_of_le_length]
    rw [List.length_drop]
    omega
  simp only [consume, Bool.not_true, Bool.false_or, decide_eq_true_eq, if_neg longer, same]

theorem local_read_length : Local readLength := by
  apply local_bind (local_consume 1)
  intro head
  simp only
  split
  · exact local_pure _
  split
  · exact local_fail
  · apply local_bind (local_consume _)
    intro bytes
    exact local_pure _

theorem local_read_constructed (tag : Byte) : Local (readConstructed tag) := by
  apply local_bind
  · apply local_bind (local_consume 1)
    intro head
    apply local_bind local_read_length
    intro length
    exact local_pure _
  intro header
  simp only
  split
  · exact local_fail
  · apply local_bind (local_consume _)
    intro content
    exact local_pure _

theorem bind_none {First Second : Type} {first : Read First} {reader : BerReader}
    (failed : (first.run reader).1 = none) (rest : First → Read Second) :
    ((first >>= rest).run reader).1 = none := by
  rw [Read.bind_apply]
  split
  · rfl
  · rename_i run
    rw [run] at failed
    cases failed

/-- The reader refuses a length that takes more than four bytes. -/
theorem read_constructed_too_long (tag : Byte) {content : Bytes}
    (large : 2 ^ 32 ≤ content.length) :
    ((readConstructed tag).run { data := writeConstructed tag content }).1 = none := by
  obtain ⟨first, raw, form, long, many⟩ := encode_length_too_long large
  have refused (before after : Bytes) :
      (readLength.run (reading before (first :: after))).1 = none := by
    have taken := reads_consume_one first before after
    unfold readLength
    rw [List.singleton_append] at taken
    rw [Read.bind_of_some taken]
    simp only [List.headD_cons, if_neg long, many, or_true, if_true]
    rfl
  apply bind_none
  have taken := reads_consume_one tag [] (encodeLength content.length ++ content)
  change (readTagLength.run (reading [] ([tag] ++ (encodeLength content.length ++ content)))).1 = none
  unfold readTagLength
  rw [Read.bind_of_some taken]
  apply bind_none
  rw [form]
  exact refused ([] ++ [tag]) (raw ++ content)

/-- No proper beginning of a written block is read as a block. -/
theorem read_constructed_cut (tag : Byte) {content cut missing : Bytes}
    (split : cut ++ missing = writeConstructed tag content) (proper : missing ≠ []) :
    ((readConstructed tag).run { data := cut }).1 = none := by
  cases run : (readConstructed tag).run { data := cut } with
  | mk outcome after =>
      cases outcome with
      | none => rfl
      | some inner =>
          obtain ⟨later, inside, _, extended⟩ :=
            local_read_constructed tag cut 0 inner after (Nat.zero_le _) run
          have whole := extended missing
          rw [split] at whole
          by_cases bound : content.length < 2 ^ 32
          · have full := reads_constructed tag content bound [] []
            rw [List.append_nil] at full
            have same := whole.symm.trans full
            have reached : later = (writeConstructed tag content).length :=
              congrArg (fun outcome => outcome.2.offset) same
            have shorter := congrArg List.length split
            rw [List.length_append] at shorter
            have positive := List.length_pos_iff.mpr proper
            omega
          · have failed := read_constructed_too_long tag (Nat.not_lt.mp bound)
            rw [whole] at failed
            cases failed

end Prefixes

/-- What the stream delivers is what was sent: the encodings of any messages come out
one by one with nothing left over, a message cut short is neither received nor
decoded, and no PDU exceeds the bound. -/
theorem stream_framing {maxPduSize : Nat} (positive : 0 < maxPduSize)
    {messages : List LdapMessage}
    (fits : ∀ message ∈ messages, (contentOf message).length ≤ maxPduSize ∧
      (contentOf message).length < 2 ^ 32) :
    recvPdus maxPduSize messages.length (messages.flatMap encodeLdapMessage) =
        some (messages.map encodeLdapMessage, []) ∧
      (∀ last cut missing, (contentOf last).length ≤ maxPduSize →
        (contentOf last).length < 2 ^ 32 → cut ++ missing = encodeLdapMessage last →
        missing ≠ [] →
        recvPdus maxPduSize messages.length (messages.flatMap encodeLdapMessage ++ cut) =
            some (messages.map encodeLdapMessage, cut) ∧
          recvPdu maxPduSize cut = none) ∧
      (∀ message cut missing, cut ++ missing = encodeLdapMessage message → missing ≠ [] →
        decodeLdapMessage cut = none) ∧
      ∀ stream pdu rest, recvPdu maxPduSize stream = some (pdu, rest) →
        pdu.length ≤ maxPduSize + 6 := by
  refine ⟨?_, ?_, ?_, ?_⟩
  · have received := recv_pdus_append positive fits []
    rwa [List.append_nil] at received
  · intro last cut missing short bound split proper
    exact ⟨recv_pdus_append positive fits cut,
      recv_pdu_cut positive kBerSequence short bound split proper⟩
  · intro message cut missing split proper
    exact bind_none (read_constructed_cut kBerSequence split proper) _
  · intro stream pdu rest received
    exact (recv_pdu_some received).1

/-- A bind whose content takes a long-form length, and an unbind. -/
def bindAndUnbind : List LdapMessage :=
  [{ messageId := 1, op := .bindRequest
     bind := { dn := text "cn=a", password := List.replicate 200 7 } },
    { messageId := 2, op := .unbindRequest }]

theorem bind_and_unbind_are_framed :
    recvPdus 4096 bindAndUnbind.length (bindAndUnbind.flatMap encodeLdapMessage) =
      some (bindAndUnbind.map encodeLdapMessage, []) := by
  have fits : ∀ message ∈ bindAndUnbind, (contentOf message).length ≤ 4096 ∧
      (contentOf message).length < 2 ^ 32 := by
    decide +kernel
  exact (stream_framing (by norm_num) fits).1

end SimpleLdapd.Framing
