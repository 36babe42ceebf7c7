import VisaService.Actors.Repo
import VisaService.Router.TopologyMgr

/-!
# The texts of database keys

Everywhere else the database is kept by address and by name. In Redis both are parts of a text:
an address as a `ZAddr`, with dashes for colons, a name as a `KeyString`, percent-encoded, and an
edge as the two `ZAddr`s of its ends, joined by a bar. Neither form contains the separators of the
keys, so the parts of a key are found again.

Main result: `keys_read_back`.
-/
namespace VisaService

open Lib

/-! ### Addresses -/

/-- The characters of an address: neither the dash that stands for its colons nor the bar. -/
def Plain (c : Char) : Prop := c ≠ '-' ∧ c ≠ '|'

namespace IpAddr

theorem plain_displayV4 {bits : BitVec 32} {c : Char} (member : c ∈ (displayV4 bits).toList) :
    Plain c ∧ c ≠ ':' := by
  rcases mem_displayV4 member with rfl | digit
  · exact ⟨⟨by decide, by decide⟩, by decide⟩
  · refine ⟨⟨?_, ?_⟩, ?_⟩ <;> rintro rfl <;> exact digit rfl

theorem plain_displaySegments {groups : List Nat} {c : Char}
    (member : c ∈ (displaySegments groups).toList) : Plain c := by
  rw [toList_displaySegments] at member
  rcases mem_joined member with rfl | digit
  · exact ⟨by decide, by decide⟩
  · constructor <;> rintro rfl <;> exact digit rfl

/-- Every way to print an IPv6 address, compressed, mapped or in full, uses plain characters and
a colon. -/
theorem plain_displayV6 (bits : BitVec 128) :
    (∀ c ∈ (display (.v6 bits)).toList, Plain c) ∧ ':' ∈ (display (.v6 bits)).toList := by
  have lead : ∀ c ∈ "::ffff:".toList, Plain c := by simp [Plain]
  have gap : ∀ c ∈ "::".toList, Plain c := by simp [Plain]
  simp only [display]
  split
  · simp only [String.toList_append, List.mem_append]
    refine ⟨fun c member => ?_, .inl (by decide)⟩
    rcases member with leads | octets
    · exact lead c leads
    · exact (plain_displayV4 octets).1
  · split
    · simp only [String.toList_append, List.mem_append]
      refine ⟨fun c member => ?_, .inl (.inr (by decide))⟩
      rcases member with (head | middle) | tail
      · exact plain_displaySegments head
      · exact gap c middle
      · exact plain_displaySegments tail
    · refine ⟨fun c member => plain_displaySegments member, ?_⟩
      simp [displaySegments, segments]

/-- `IpAddr::try_from` of a `ZAddr`, with the text of its error: a dash tells an IPv6 address. -/
def tryFromZaddr (zaddr : String) : Except String IpAddr :=
  if '-' ∈ zaddr.toList then
    match parseV6 (String.ofList (zaddr.toList.map fun c => if c = '-' then ':' else c)) with
    | some bits => .ok (.v6 bits)
    | none => .error "invalid IPv6 address syntax"
  else
    match parseV4 zaddr with
    | some bits => .ok (.v4 bits)
    | none => .error "invalid IPv4 address syntax"

theorem not_mem_zaddr (addr : IpAddr) : ':' ∉ addr.zaddr.toList ∧ '|' ∉ addr.zaddr.toList := by
  cases addr with
  | v4 bits =>
    simp only [zaddr, display]
    exact ⟨fun colon => (plain_displayV4 colon).2 rfl, fun bar => (plain_displayV4 bar).1.2 rfl⟩
  | v6 bits =>
    simp only [zaddr, String.toList_ofList, List.mem_map]
    constructor
    · rintro ⟨c, -, isColon⟩
      split at isColon
      · exact absurd isColon (by decide)
      · contradiction
    · rintro ⟨c, member, isBar⟩
      split at isBar
      · exact absurd isBar (by decide)
      · exact ((plain_displayV6 bits).1 c member).2 isBar

theorem tryFromZaddr_zaddr (addr : IpAddr) : tryFromZaddr addr.zaddr = .ok addr := by
  cases addr with
  | v4 bits =>
    have dashless : '-' ∉ (displayV4 bits).toList := fun dash => (plain_displayV4 dash).1.1 rfl
    simp only [tryFromZaddr, zaddr, display, dashless, if_false, parseV4_displayV4]
  | v6 bits =>
    obtain ⟨plain, colon⟩ := plain_displayV6 bits
    -- The dashes of the text are the colons that were replaced.
    have restored : ((display (.v6 bits)).toList.map fun c => if c = ':' then '-' else c).map
        (fun c => if c = '-' then ':' else c) = (display (.v6 bits)).toList := by
      rw [List.map_map]
      refine (List.map_congr_left fun c member => ?_).trans (List.map_id _)
      have dashless := (plain c member).1
      simp only [Function.comp_apply, id_eq]
      split_ifs <;> simp_all
    have dash : '-' ∈ ((display (.v6 bits)).toList.map fun c => if c = ':' then '-' else c) :=
      List.mem_map.mpr ⟨':', colon, rfl⟩
    simp only [tryFromZaddr, zaddr, String.toList_ofList, dash, if_true, restored,
      String.ofList_toList, parseV6_display]

theorem zaddr_injective {a b : IpAddr} (same : a.zaddr = b.zaddr) : a = b := by
  have read := tryFromZaddr_zaddr a
  rw [same, tryFromZaddr_zaddr b] at read
  cases read
  rfl

end IpAddr

/-! ### Edges -/

namespace LinkRepo

/-- The member of `topology:edges` for an undirected edge. -/
def canonical (a b : IpAddr) : String :=
  if a.zaddr ≤ b.zaddr then a.zaddr ++ "|" ++ b.zaddr else b.zaddr ++ "|" ++ a.zaddr

def parseEndpoint (text : String) : Except StoreError IpAddr :=
  match IpAddr.tryFromZaddr text with
  | .ok addr => .ok addr
  | .error e => .error (.invalidData s!"failed to parse edge endpoint '{text}': {e}")

def parseMember (member : String) : Except StoreError (IpAddr × IpAddr) :=
  match (member.toList.splitOn '|').map String.ofList with
  | [aStr, bStr] =>
    match parseEndpoint aStr with
    | .error failure => .error failure
    | .ok a =>
      match parseEndpoint bStr with
      | .error failure => .error failure
      | .ok b => .ok (a, b)
  | _ => .error (.invalidData s!"malformed topology edge member: '{member}'")

theorem canonical_comm (a b : IpAddr) : canonical a b = canonical b a := by
  unfold canonical
  rcases lt_trichotomy a.zaddr b.zaddr with less | same | more
  · rw [if_pos less.le, if_neg (not_le.mpr less)]
  · simp [same]
  · rw [if_neg (not_le.mpr more), if_pos more.le]

theorem parseMember_join (a b : IpAddr) :
    parseMember (a.zaddr ++ "|" ++ b.zaddr) = .ok (a, b) := by
  have split : (a.zaddr ++ "|" ++ b.zaddr).toList.splitOn '|' =
      [a.zaddr.toList, b.zaddr.toList] := by
    refine Eq.trans ?_ (List.splitOn_intercalate '|' ?_ (by simp))
    · simp [String.toList_append, List.intercalate_cons_cons]
    · rintro part member
      rcases List.mem_pair.mp member with rfl | rfl
      exacts [a.not_mem_zaddr.2, b.not_mem_zaddr.2]
  simp only [parseMember, split, List.map_cons, List.map_nil, String.ofList_toList, parseEndpoint,
    IpAddr.tryFromZaddr_zaddr]

/-- The ends are read back, in one of the two orders. -/
theorem parseMember_canonical (a b : IpAddr) :
    (parseMember (canonical a b)).map (fun ends => s(ends.1, ends.2)) = .ok s(a, b) := by
  unfold canonical
  split
  · rw [parseMember_join]
    rfl
  · rw [parseMember_join]
    exact congrArg Except.ok Sym2.eq_swap

end LinkRepo

/-! ### Names -/

/-- The digits of an escape, in upper case. -/
def hexDigit (n : Nat) : Char := "0123456789ABCDEF".toList.getD n '0'

def hexValue (byte : UInt8) : Option Nat := IpAddr.digitValue 16 (Char.ofNat byte.toNat)

/-- A byte that is not ASCII is escaped whatever the set. -/
def encodeByte (set : UInt8 → Bool) (byte : UInt8) : List Char :=
  if byte ≥ 0x80 || set byte then ['%', hexDigit (byte.toNat / 16), hexDigit (byte.toNat % 16)]
  else [Char.ofNat byte.toNat]

/-- The crate `percent-encoding`, as it is documented. -/
class PercentEncoding where
  utf8PercentEncode : String → (UInt8 → Bool) → String
  percentDecode : List UInt8 → List UInt8
  encode_eq (name : String) (set : UInt8 → Bool) :
    utf8PercentEncode name set = String.ofList (name.toUTF8.data.toList.flatMap (encodeByte set))
  decode_nil : percentDecode [] = []
  decode_plain {byte : UInt8} (plain : byte ≠ 0x25) (rest : List UInt8) :
    percentDecode (byte :: rest) = byte :: percentDecode rest
  decode_escape {high low : UInt8} {h l : Nat} (isHigh : hexValue high = some h)
      (isLow : hexValue low = some l) (rest : List UInt8) :
    percentDecode (0x25 :: high :: low :: rest) = UInt8.ofNat (h * 16 + l) :: percentDecode rest

namespace PercentEncoding

/-- A percent sign without two digits after it stands for itself. -/
def decodeBytes : List UInt8 → List UInt8
  | byte :: high :: low :: rest =>
    if byte = 0x25 then
      match hexValue high, hexValue low with
      | some h, some l => UInt8.ofNat (h * 16 + l) :: decodeBytes rest
      | _, _ => byte :: decodeBytes (high :: low :: rest)
    else byte :: decodeBytes (high :: low :: rest)
  | bytes => bytes

/-- There is such a crate. -/
@[reducible]
def documented : PercentEncoding where
  utf8PercentEncode name set :=
    String.ofList (name.toUTF8.data.toList.flatMap (encodeByte set))
  percentDecode := decodeBytes
  encode_eq _ _ := rfl
  decode_nil := rfl
  decode_plain plain rest := by
    match rest with
    | [] | [_] => rfl
    | high :: low :: rest => rw [decodeBytes, if_neg plain]
  decode_escape isHigh isLow rest := by rw [decodeBytes, if_pos rfl, isHigh, isLow]

end PercentEncoding

namespace KeyString

open PercentEncoding

/-- `KEY_ESCAPES`. -/
def escapes (byte : UInt8) : Bool :=
  byte < 0x20 || byte == 0x7F || byte == 0x25 || byte == 0x3A

def asciiByte (c : Char) : UInt8 := UInt8.ofNat c.toNat

theorem toUTF8_ascii {text : List Char} (ascii : ∀ c ∈ text, c.toNat < 128) :
    (String.ofList text).toUTF8.data.toList = text.map asciiByte := by
  simp only [String.toUTF8_eq_toByteArray, String.toByteArray_ofList]
  induction text with
  | nil => rfl
  | cons c rest ih =>
    have single : c.utf8Size = 1 := by
      rw [Char.utf8Size_eq_one_iff, UInt32.le_iff_toNat_le]
      exact Nat.le_of_lt_succ (ascii c (by simp))
    rw [List.utf8Encode_cons, List.utf8Encode_singleton,
      String.utf8EncodeChar_eq_singleton single, ByteArray.data_append, Array.toList_append,
      ih fun other member => ascii other (by simp [member])]
    rfl

/-- Every byte is written in ASCII, without a colon. -/
theorem encodeByte_ascii {byte : UInt8} {c : Char} (written : c ∈ encodeByte escapes byte) :
    c.toNat < 128 ∧ c ≠ ':' := by
  have checked : ∀ byte, (encodeByte escapes byte).all fun c => c.toNat < 128 ∧ c ≠ ':' := by
    decide +kernel
  simpa using List.all_eq_true.mp (checked byte) c written

variable [PercentEncoding]

/-- `KeyString::from` a `&str`. -/
def encode (name : String) : String := utf8PercentEncode name escapes

/-- `String::try_from` a `KeyString`; none is a `Utf8Error`. -/
def decode (encoded : String) : Option String :=
  String.fromUTF8? (percentDecode encoded.toUTF8.data.toList).toByteArray

/-- One byte is read back, whatever follows it. -/
theorem percentDecode_encodeByte (byte : UInt8) (rest : List UInt8) :
    percentDecode ((encodeByte escapes byte).map asciiByte ++ rest) =
      byte :: percentDecode rest := by
  unfold encodeByte
  split
  next escaped =>
    have digits : ∀ n < 16, hexValue (asciiByte (hexDigit n)) = some n := by decide +kernel
    have bound : byte.toNat < 256 := byte.toNat_lt
    have value : byte.toNat / 16 * 16 + byte.toNat % 16 = byte.toNat := by omega
    simp only [List.map_cons, List.map_nil, List.cons_append, List.nil_append]
    refine (decode_escape (digits _ (by omega)) (digits _ (by omega)) rest).trans ?_
    simp [value]
  next plain =>
    have whole : ∀ byte, (byte ≥ 0x80 || escapes byte) = false →
        byte ≠ 0x25 ∧ asciiByte (Char.ofNat byte.toNat) = byte := by decide +kernel
    obtain ⟨notPercent, same⟩ := whole byte (by simpa using plain)
    simp only [List.map_cons, List.map_nil, List.cons_append, List.nil_append, same]
    exact decode_plain notPercent rest

theorem percentDecode_encode (bytes : List UInt8) :
    percentDecode ((bytes.flatMap (encodeByte escapes)).map asciiByte) = bytes := by
  induction bytes with
  | nil => exact decode_nil
  | cons byte rest ih =>
    rw [List.flatMap_cons, List.map_append, percentDecode_encodeByte, ih]

theorem decode_encode (name : String) : decode (encode name) = some name := by
  have ascii : ∀ c ∈ name.toUTF8.data.toList.flatMap (encodeByte escapes), c.toNat < 128 := by
    intro c member
    obtain ⟨byte, -, written⟩ := List.mem_flatMap.mp member
    exact (encodeByte_ascii written).1
  have bytes : name.toUTF8.data.toList.toByteArray = name.toUTF8 :=
    ByteArray.ext (by simp [List.data_toByteArray])
  rw [decode, encode, encode_eq, toUTF8_ascii ascii, percentDecode_encode, bytes, String.fromUTF8?,
    String.toUTF8_eq_toByteArray, dif_pos name.isValidUTF8]
  rfl

theorem not_mem_encode (name : String) : ':' ∉ (encode name).toList := by
  rw [encode, encode_eq, String.toList_ofList]
  intro member
  obtain ⟨byte, -, written⟩ := List.mem_flatMap.mp member
  exact (encodeByte_ascii written).2 rfl

theorem encode_injective : Function.Injective encode := by
  intro name other same
  have read := decode_encode name
  rw [same, decode_encode other] at read
  exact (Option.some.inj read).symm

end KeyString

/-! ### Keys -/

section

variable [PercentEncoding] (addr : IpAddr) (name : String)

def actorKeyFor : String := "actor:" ++ addr.zaddr

def attrsKeyFor : String := "actor:" ++ addr.zaddr ++ ":attrs"

def actorServicesKeyFor : String := "actor:" ++ addr.zaddr ++ ":services"

def actorHostnamesKeyFor : String := "actor:" ++ addr.zaddr ++ ":hostnames"

def serviceKeyFor : String := "service:" ++ KeyString.encode name

def hostKeyFor : String := "host:" ++ KeyString.encode name

namespace ActorKey

def text : ActorKey → String
  | base addr => actorKeyFor addr
  | attrs addr => attrsKeyFor addr
  | services addr => actorServicesKeyFor addr
  | hostnames addr => actorHostnamesKeyFor addr
  | service name => serviceKeyFor name
  | host name => hostKeyFor name

/-- What stands between the colons. -/
def parts : ActorKey → List String
  | base addr => ["actor", addr.zaddr]
  | attrs addr => ["actor", addr.zaddr, "attrs"]
  | services addr => ["actor", addr.zaddr, "services"]
  | hostnames addr => ["actor", addr.zaddr, "hostnames"]
  | service name => ["service", KeyString.encode name]
  | host name => ["host", KeyString.encode name]

theorem splitOn_text (key : ActorKey) :
    key.text.toList.splitOn ':' = key.parts.map String.toList := by
  have joined : key.text.toList = [':'].intercalate (key.parts.map String.toList) := by
    cases key <;>
      simp [text, parts, actorKeyFor, attrsKeyFor, actorServicesKeyFor, actorHostnamesKeyFor,
        serviceKeyFor, hostKeyFor, List.intercalate_cons_cons]
  have colonless : ∀ part ∈ key.parts.map String.toList, ':' ∉ part := by
    cases key <;> simp [parts, IpAddr.not_mem_zaddr, KeyString.not_mem_encode]
  rw [joined, List.splitOn_intercalate ':' colonless]
  cases key <;> simp [parts]

/-- Two keys with one text are one key. -/
theorem text_injective {key other : ActorKey} (same : key.text = other.text) : key = other := by
  have parts : key.parts = other.parts := by
    have split := key.splitOn_text
    rw [same, other.splitOn_text] at split
    exact (List.map_injective_iff.mpr fun _ _ => String.toList_inj.mp) split.symm
  cases key <;> cases other <;> simp [ActorKey.parts] at parts
  case base.base | attrs.attrs | services.services | hostnames.hostnames =>
    rw [IpAddr.zaddr_injective parts]
  case service.service | host.host => rw [KeyString.encode_injective parts]

end ActorKey

/-- Addresses, edges and names are read back from their texts, and neither two edges nor two keys
have one text. -/
theorem keys_read_back (a b c d : IpAddr) (key otherKey : ActorKey) (name other : String) :
    (IpAddr.tryFromZaddr a.zaddr = .ok a ∧ ':' ∉ a.zaddr.toList ∧ '|' ∉ a.zaddr.toList ∧
        (a.zaddr = b.zaddr → a = b)) ∧
      (LinkRepo.canonical a b = LinkRepo.canonical b a ∧
        (LinkRepo.parseMember (LinkRepo.canonical a b)).map (fun ends => s(ends.1, ends.2)) =
          .ok s(a, b) ∧
        (LinkRepo.canonical a b = LinkRepo.canonical c d → s(a, b) = s(c, d))) ∧
      (KeyString.decode (KeyString.encode name) = some name ∧
        ':' ∉ (KeyString.encode name).toList ∧
        (KeyString.encode name = KeyString.encode other → name = other)) ∧
      (key.text = otherKey.text → key = otherKey) := by
  refine ⟨⟨a.tryFromZaddr_zaddr, a.not_mem_zaddr.1, a.not_mem_zaddr.2, IpAddr.zaddr_injective⟩,
    ⟨LinkRepo.canonical_comm a b, LinkRepo.parseMember_canonical a b, fun same => ?_⟩,
    ⟨KeyString.decode_encode name, KeyString.not_mem_encode name,
      fun same => KeyString.encode_injective same⟩, ActorKey.text_injective⟩
  have read := LinkRepo.parseMember_canonical a b
  rw [same, LinkRepo.parseMember_canonical c d] at read
  exact (Except.ok.inj read).symm

end

theorem documented_crate_reads_back :
    letI := PercentEncoding.documented
    KeyString.encode "a:b%" = "a%3Ab%25" ∧
      KeyString.decode (KeyString.encode "a:b%") = some "a:b%" :=
  letI := PercentEncoding.documented
  ⟨by decide +kernel, (keys_read_back (.v4 0) (.v4 0) (.v4 0) (.v4 0) (.host "") (.host "") _
    "").2.2.1.1⟩

end VisaService
