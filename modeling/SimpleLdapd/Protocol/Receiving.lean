import SimpleLdapd.Library.RemoteCalls
import SimpleLdapd.Protocol.Framing

/-!
# Receiving in pieces (`utils/net.cpp`)

`recvAll` and `sendAllBytes` loop until all bytes have passed, in pieces of whatever size
the socket takes. `receivePdu` is `recvPdu` on what has arrived so far: where `recvAll`
would block it waits, and it fails only where `recvPdu` returns `false` with the stream
open, the bytes behind what it has read staying unread. A PDU of bounded length is taken
once it is complete and not before.
-/

namespace SimpleLdapd.Framing

open Dn Ber Message

/-- The part of `recvPdu` behind the length. -/
def receiveContent (maxPduSize : Nat) (pdu : Bytes) (length : Nat) (arrived : Bytes) :
    Receipt Bytes Byte :=
  if maxPduSize = 0 ∨ maxPduSize < length then .fails arrived
  else
    match recvExact length arrived with
    | none => .waits
    | some (content, rest) => .takes (pdu ++ content) rest

def receivePdu (maxPduSize : Nat) (arrived : Bytes) : Receipt Bytes Byte :=
  match recvExact 2 arrived with
  | none => .waits
  | some (head, rest) =>
      let second := head.getD 1 0
      if second.val &&& 0x80 = 0 then receiveContent maxPduSize head second.val rest
      else
        let count := second.val &&& 0x7f
        if count = 0 ∨ 4 < count then .fails rest
        else
          match recvExact count rest with
          | none => .waits
          | some (raw, left) =>
              receiveContent maxPduSize (head ++ raw)
                (raw.foldl (fun length byte => length <<< 8 ||| byte.val) 0) left

variable {maxPduSize : Nat}

theorem receive_content_takes_iff {pdu whole rest arrived : Bytes} {length : Nat} :
    receiveContent maxPduSize pdu length arrived = .takes whole rest ↔
      recvContent maxPduSize pdu length arrived = some (whole, rest) := by
  unfold receiveContent recvContent
  split
  · simp
  · by_cases empty : length = 0
    · rw [if_pos empty, empty]
      simp [recvExact]
    · rw [if_neg empty]
      cases recvExact length arrived with
      | none => simp
      | some taken => simp

/-- What is taken is what `recvPdu` delivers. -/
theorem receive_takes_iff {pdu rest arrived : Bytes} :
    receivePdu maxPduSize arrived = .takes pdu rest ↔
      recvPdu maxPduSize arrived = some (pdu, rest) := by
  unfold receivePdu recvPdu recvHeader
  cases recvExact 2 arrived with
  | none => simp
  | some taken =>
      obtain ⟨head, left⟩ := taken
      simp only [Option.bind_eq_bind, Option.bind_some]
      split
      · simpa using receive_content_takes_iff
      · split
        · simp
        · cases recvExact ((head.getD 1 0).val &&& 0x7f) left with
          | none => simp
          | some more => simpa using receive_content_takes_iff

theorem receive_content_fails {pdu arrived rest : Bytes} {length : Nat}
    (failed : receiveContent maxPduSize pdu length arrived = .fails rest) (more : Bytes) :
    recvContent maxPduSize pdu length (arrived ++ more) = none := by
  unfold receiveContent at failed
  split at failed
  · rename_i refused
    exact if_pos refused
  · split at failed
    · cases failed
    · cases failed

/-- A failure is final: no bytes that arrive later make a PDU of it. -/
theorem receive_fails {arrived unread : Bytes}
    (failed : receivePdu maxPduSize arrived = .fails unread) (more : Bytes) :
    recvPdu maxPduSize (arrived ++ more) = none := by
  unfold receivePdu at failed
  unfold recvPdu recvHeader
  split at failed
  · cases failed
  rename_i head rest taken
  rw [recv_exact_extend taken more]
  simp only [Option.bind_eq_bind, Option.bind_some] at failed ⊢
  split at failed
  · rename_i short
    rw [if_pos short]
    exact receive_content_fails failed more
  rename_i long
  rw [if_neg long]
  split at failed
  · rename_i many
    rw [if_pos many]
    rfl
  rename_i few
  rw [if_neg few]
  split at failed
  · cases failed
  rename_i raw left takenMore
  rw [recv_exact_extend takenMore more]
  exact receive_content_fails failed more

theorem receive_written (positive : 0 < maxPduSize) (tag : Byte) {content : Bytes}
    (fits : content.length ≤ maxPduSize) (bound : content.length < 2 ^ 32) :
    receivePdu maxPduSize (writeConstructed tag content) =
      .takes (writeConstructed tag content) [] := by
  have received := recv_pdu_written positive tag fits bound []
  rw [List.append_nil] at received
  exact receive_takes_iff.mpr received

theorem receive_cut (positive : 0 < maxPduSize) (tag : Byte) {content : Bytes}
    (fits : content.length ≤ maxPduSize) (bound : content.length < 2 ^ 32) {cut missing : Bytes}
    (split : cut ++ missing = writeConstructed tag content) (proper : missing ≠ []) :
    receivePdu maxPduSize cut = .waits := by
  cases receipt : receivePdu maxPduSize cut with
  | waits => rfl
  | fails unread =>
      have never := receive_fails receipt missing
      have received := recv_pdu_written positive tag fits bound []
      rw [split] at never
      rw [List.append_nil, never] at received
      cases received
  | takes pdu rest =>
      have received := receive_takes_iff.mp receipt
      rw [recv_pdu_cut positive tag fits bound split proper] at received
      cases received

/-- The messages of one direction: written by the codec, framed by `receivePdu`, read by
the codec of the other side. -/
def ldapWire (maxPduSize : Nat) : Wire LdapMessage (Option LdapMessage) Byte where
  write := encodeLdapMessage
  receive arrived :=
    match receivePdu maxPduSize arrived with
    | .waits => .waits
    | .fails rest => .fails rest
    | .takes pdu rest => .takes (decodeLdapMessage pdu) rest
  empty := rfl

/-- Messages within the bound get across whole. -/
theorem ldap_wire_carries (positive : 0 < maxPduSize) {message : LdapMessage}
    (fits : (contentOf message).length ≤ maxPduSize) (bound : (contentOf message).length < 2 ^ 32) :
    (ldapWire maxPduSize).Carries message (decodeLdapMessage (encodeLdapMessage message)) where
  takes := by
    have taken := receive_written positive kBerSequence fits bound
    change receivePdu maxPduSize (encodeLdapMessage message) = _ at taken
    simp only [ldapWire, taken]
    rfl
  waits := by
    intro cut missing split proper
    have waits := receive_cut positive kBerSequence fits bound split proper
    simp only [ldapWire, waits]

end SimpleLdapd.Framing
