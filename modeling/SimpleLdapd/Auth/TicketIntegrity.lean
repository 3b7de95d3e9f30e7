import SimpleLdapd.Auth.DigestStrength

/-!
# What the MAC of a lab ticket covers

The MAC input joins its fields with bars and escapes nothing. Realm and service come
from the keytab, and the two numbers stand at the end without a bar of their own, so
whatever the principal contains, the last bars tell where the fields are.
-/

namespace SimpleLdapd.Gssapi

open Dn Text

section Canonical

theorem split_last_delimiter {delimiter : Byte} {left right leftTail rightTail : Bytes}
    (leftFree : delimiter ∉ leftTail) (rightFree : delimiter ∉ rightTail)
    (same : left ++ delimiter :: leftTail = right ++ delimiter :: rightTail) :
    left = right ∧ leftTail = rightTail := by
  rcases List.append_eq_append_iff.mp same with ⟨gap, longer, tail⟩ | ⟨gap, longer, tail⟩
  · cases gap with
    | nil =>
        rw [List.append_nil] at longer
        exact ⟨longer.symm, (List.cons.inj tail).2⟩
    | cons first rest =>
        obtain ⟨-, shape⟩ := List.cons.inj tail
        exact absurd (by rw [shape]; simp) leftFree
  · cases gap with
    | nil =>
        rw [List.append_nil] at longer
        exact ⟨longer, (List.cons.inj tail).2.symm⟩
    | cons first rest =>
        obtain ⟨-, shape⟩ := List.cons.inj tail
        exact absurd (by rw [shape]; simp) rightFree

theorem decimal_negative (number : Nat) :
    decimal (Int.negSucc number) = chr '-' :: decimal ((number + 1 : Nat) : Int) := by
  change ("-" ++ (number + 1).repr).toList.map chr = chr '-' :: (number + 1).repr.toList.map chr
  rw [String.toList_append]
  rfl

theorem digit_not_bar : ∀ byte : Byte, isDigit byte = true → byte ≠ chr '|' := by
  decide +kernel

theorem decimal_free (number : Int) : chr '|' ∉ decimal number := by
  have digits (natural : Nat) : chr '|' ∉ decimal (natural : Int) :=
    fun member => digit_not_bar _ (decimal_digit member) rfl
  cases number with
  | ofNat natural => exact digits natural
  | negSucc natural =>
      rw [decimal_negative, List.mem_cons, not_or]
      exact ⟨by decide, digits _⟩

theorem decimal_not_signed (natural : Nat) (tail : Bytes) :
    decimal (natural : Int) ≠ chr '-' :: tail := by
  intro same
  have member : chr '-' ∈ decimal (natural : Int) := by simp [same]
  exact absurd (decimal_digit member) (by decide)

theorem decimal_injective : Function.Injective decimal := by
  intro left right same
  cases left with
  | ofNat left =>
      cases right with
      | ofNat right =>
          have values := congrArg digitsValue same
          rw [Int.ofNat_eq_natCast, Int.ofNat_eq_natCast, decimal_value, decimal_value] at values
          rw [values]
      | negSucc right =>
          rw [decimal_negative] at same
          exact absurd same (decimal_not_signed left _)
  | negSucc left =>
      cases right with
      | ofNat right =>
          rw [decimal_negative] at same
          exact absurd same.symm (decimal_not_signed right _)
      | negSucc right =>
          rw [decimal_negative, decimal_negative] at same
          have values := congrArg digitsValue (List.cons.inj same).2
          rw [decimal_value, decimal_value] at values
          rw [Nat.succ.inj values]

theorem canonical_ticket_shape (realm principal service : Bytes) (issued expiry : Int) :
    canonicalTicket realm principal service issued expiry =
      ((text "v=1|realm|" ++ realm ++ text "|principal|" ++ principal ++ (text "|service|" ++
        service ++ text "|issued")) ++ chr '|' :: decimal issued ++ text "|expiry") ++
          chr '|' :: decimal expiry := by
  have expiryMark : text "|expiry|" = text "|expiry" ++ [chr '|'] := by decide
  have issuedMark : text "|issued|" = text "|issued" ++ [chr '|'] := by decide
  rw [canonicalTicket, expiryMark, issuedMark]
  simp only [List.append_assoc, List.cons_append, List.nil_append]

/-- The fields of a ticket can be told from its MAC input. -/
theorem canonical_ticket_injective {realm service principal other : Bytes}
    {issued expiry otherIssued otherExpiry : Int}
    (same : canonicalTicket realm principal service issued expiry =
      canonicalTicket realm other service otherIssued otherExpiry) :
    principal = other ∧ issued = otherIssued ∧ expiry = otherExpiry := by
  rw [canonical_ticket_shape, canonical_ticket_shape] at same
  obtain ⟨front, expiries⟩ := split_last_delimiter (decimal_free _) (decimal_free _) same
  obtain ⟨names, times⟩ := split_last_delimiter (decimal_free _) (decimal_free _)
    (List.append_cancel_right front)
  exact ⟨List.append_cancel_left (List.append_cancel_right names), decimal_injective times,
    decimal_injective expiries⟩

end Canonical

section Tickets

/-- A field of a ticket, as `verifyGssapiTicket` reads it. -/
def ticketField (credentials key : Bytes) : Bytes :=
  unquote (pairValue (parsePairs (fun key => toLowerAscii (trim key)) credentials) key [])

/-- What a ticket says. -/
structure Carries (credentials principal : Bytes) (issued expiry : Int) : Prop where
  principal : ticketField credentials (text "principal") = principal
  issued : stoll (ticketField credentials (text "issued")) = some issued
  expiry : stoll (ticketField credentials (text "expiry")) = some expiry

variable {ssl : OpenSsl} {keytab : GssapiKeytab}

/-- An accepted ticket: its times are in order, and its MAC is the one of its fields. -/
theorem accepted_ticket {now : Int} {credentials principal : Bytes}
    (accepted : verifyGssapiTicket (some ssl) now keytab credentials = .ok principal) :
    ∃ issued expiry, Carries credentials principal issued expiry ∧
      (issued < expiry ∧ issued ≤ now + 60 ∧ now - 60 ≤ expiry) ∧
      constantTimeEqual (toLowerAscii (ticketField credentials (text "mac")))
        (hmacSha256Hex ssl keytab.key
          (canonicalTicket keytab.realm principal keytab.service issued expiry)) = true := by
  unfold verifyGssapiTicket at accepted
  simp only at accepted
  split at accepted
  · cases accepted
  split at accepted
  · cases accepted
  split at accepted
  · cases accepted
  split at accepted
  · rename_i issued expiry issuedRead expiryRead
    split at accepted
    · cases accepted
    rename_i timely
    simp only [kClockSkewSeconds, not_or, not_lt, not_le] at timely
    split at accepted
    · cases accepted
    rename_i authentic
    rw [Bool.not_eq_true', Bool.not_eq_false] at authentic
    cases accepted
    exact ⟨issued, expiry, ⟨rfl, issuedRead, expiryRead⟩,
      ⟨timely.2.2, timely.2.1, timely.1⟩, authentic⟩
  · cases accepted

theorem take_while_padded {value : Bytes} (plain : 0 ∉ value) (count : Nat) :
    (value ++ List.replicate count 0).takeWhile (· ≠ 0) = value := by
  have kept : ∀ byte ∈ value, decide (byte ≠ 0) = true := by
    intro byte member
    exact decide_eq_true fun same => plain (same ▸ member)
  rw [List.takeWhile_append_of_pos kept]
  cases count with
  | zero => simp
  | succ count => simp [List.replicate_succ]

/-- The comparison only ever takes NUL bytes for nothing, and a digest has none. -/
theorem compared_to_hex {mac digest : Bytes}
    (equal : constantTimeEqual mac (toHex digest) = true) :
    mac.takeWhile (· ≠ 0) = toHex digest := by
  have plain : 0 ∉ toHex digest := fun member => absurd (Sasl.mem_to_hex member) (by decide)
  rcases (Password.passwords_equal_cases mac (toHex digest)).mp equal with same | padded | padded
  · have whole := take_while_padded plain 0
    rw [List.replicate_zero, List.append_nil] at whole
    rw [same, whole]
  · obtain ⟨blocks, some, longer⟩ := padded
    have nul : (0 : Byte) ∈ toHex digest := by
      rw [longer]
      simp [Nat.pos_iff_ne_zero.mp some]
    exact absurd nul plain
  · obtain ⟨blocks, -, longer⟩ := padded
    rw [longer, take_while_padded plain]

/-- Tickets with one MAC say the same thing, at whatever times they are accepted; and an
accepted ticket is in its time. -/
theorem ticket_integrity (collisionFree : Function.Injective (ssl.hmacSha256 keytab.key)) :
    (∀ principal other issued otherIssued expiry otherExpiry,
      canonicalTicket keytab.realm principal keytab.service issued expiry =
          canonicalTicket keytab.realm other keytab.service otherIssued otherExpiry →
        principal = other ∧ issued = otherIssued ∧ expiry = otherExpiry) ∧
      (∀ now credentials principal,
        verifyGssapiTicket (some ssl) now keytab credentials = .ok principal →
          ∃ issued expiry, Carries credentials principal issued expiry ∧
            issued < expiry ∧ issued ≤ now + 60 ∧ now - 60 ≤ expiry) ∧
      ∀ now later credentials others principal other issued otherIssued expiry otherExpiry,
        verifyGssapiTicket (some ssl) now keytab credentials = .ok principal →
        verifyGssapiTicket (some ssl) later keytab others = .ok other →
        ticketField credentials (text "mac") = ticketField others (text "mac") →
        Carries credentials principal issued expiry →
        Carries others other otherIssued otherExpiry →
          principal = other ∧ issued = otherIssued ∧ expiry = otherExpiry := by
  refine ⟨fun _ _ _ _ _ _ => canonical_ticket_injective, ?_, ?_⟩
  · intro now credentials principal accepted
    obtain ⟨issued, expiry, carries, timely, -⟩ := accepted_ticket accepted
    exact ⟨issued, expiry, carries, timely⟩
  · intro now later credentials others principal other issued otherIssued expiry otherExpiry
      accepted otherAccepted sameMac carries otherCarries
    obtain ⟨_, _, own, -, authentic⟩ := accepted_ticket accepted
    obtain ⟨_, _, otherOwn, -, otherAuthentic⟩ := accepted_ticket otherAccepted
    have digest := compared_to_hex authentic
    have otherDigest := compared_to_hex otherAuthentic
    rw [sameMac, otherDigest] at digest
    have inputs := collisionFree (Sasl.to_hex_injective digest)
    obtain ⟨principals, times, expiries⟩ := canonical_ticket_injective inputs
    rw [Option.some.inj (carries.issued.symm.trans own.issued),
      Option.some.inj (carries.expiry.symm.trans own.expiry),
      Option.some.inj (otherCarries.issued.symm.trans otherOwn.issued),
      Option.some.inj (otherCarries.expiry.symm.trans otherOwn.expiry)]
    exact ⟨principals.symm, times.symm, expiries.symm⟩

def labKeytab : GssapiKeytab where
  realm := text "EXAMPLE.COM"
  service := text "ldap/localhost"
  key := text "0123456789abcdef"

/-- HMAC-SHA256 under the key of `labKeytab`, as it is on the ticket below; the other inputs
are only told apart. -/
def labMac (data : Bytes) : Bytes :=
  if data =
      text "v=1|realm|EXAMPLE.COM|principal|al|ice|service|ldap/localhost|issued|1000|expiry|2000"
  then
    [184, 209, 3, 240, 168, 116, 40, 104, 28, 99, 215, 46, 65, 99, 229, 109, 239, 1, 241, 135, 164,
      83, 33, 105, 112, 19, 197, 199, 167, 172, 182, 116]
  else data ++ List.replicate 33 0

theorem lab_mac_injective : Function.Injective labMac := by
  intro left right same
  unfold labMac at same
  split at same
  · rename_i leftKnown
    split at same
    · rename_i rightKnown
      rw [leftKnown, rightKnown]
    · have length := congrArg List.length same
      simp at length
  · split at same
    · have length := congrArg List.length same
      simp at length
    · exact List.append_cancel_right same

def macOpenssl : OpenSsl := { Sasl.labOpenssl with hmacSha256 := fun _ => labMac }

/-- A ticket of a principal with a bar in its name. -/
def labTicket : Bytes :=
  text "v=1,realm=\"EXAMPLE.COM\",principal=\"al|ice\",service=\"ldap/localhost\"," ++
    text "issued=1000,expiry=2000," ++
    text "mac=b8d103f0a87428681c63d72e4163e56def01f187a45321697013c5c7a7acb674"

/-- The same ticket in another spelling. -/
def respelledTicket : Bytes :=
  text "V=1, Service=LDAP/localhost, REALM=example.com, principal=al|ice, issued=\" +1000s\"," ++
    text "expiry=02000,mac=b8d103f0a87428681c63d72e4163e56def01f187a45321697013c5c7a7acb674"

theorem respelled_ticket_says_the_same :
    verifyGssapiTicket (some macOpenssl) 1500 labKeytab labTicket = .ok (text "al|ice") ∧
      verifyGssapiTicket (some macOpenssl) 2050 labKeytab respelledTicket = .ok (text "al|ice") ∧
      ∀ issued expiry, Carries respelledTicket (text "al|ice") issued expiry →
        issued = 1000 ∧ expiry = 2000 := by
  have accepted : verifyGssapiTicket (some macOpenssl) 1500 labKeytab labTicket =
      .ok (text "al|ice") := by
    decide +kernel
  have respelled : verifyGssapiTicket (some macOpenssl) 2050 labKeytab respelledTicket =
      .ok (text "al|ice") := by
    decide +kernel
  refine ⟨accepted, respelled, fun issued expiry carries => ?_⟩
  have integrity := @ticket_integrity macOpenssl labKeytab lab_mac_injective
  have own : Carries labTicket (text "al|ice") 1000 2000 := by
    constructor <;> decide +kernel
  obtain ⟨-, issuedSame, expirySame⟩ := integrity.2.2 2050 1500 respelledTicket labTicket _ _
    _ _ _ _ respelled accepted (by decide +kernel) carries own
  exact ⟨issuedSame, expirySame⟩

end Tickets

end SimpleLdapd.Gssapi
